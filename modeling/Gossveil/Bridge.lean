import Gossveil.AbiSessions
import Gossveil.DeviceRecords
import Gossveil.Listing

namespace Gossveil.Abi

open Ratchet

/-!
# The session calls of the bridge

The scripting client calls the core through a bridge: it copies its inputs in,
runs one call of the C surface, throws on any status but success, and copies
the outputs out.  The memory of the core has 2^32 bytes, so what does not fit
is never handed over.
-/

/-! ## Further calls over the engine -/

/-- No name on either side gives no binding. -/
def bindingFrom
    (sender : Bytes)
    (senderDevice : Nat)
    (recipient : Bytes)
    (recipientDevice : Nat) :
    Option Binding :=
  if sender.length = 0 ∨ recipient.length = 0 then
    none
  else
    some ⟨⟨sender, senderDevice⟩, ⟨recipient, recipientDevice⟩⟩

/-- What a host asks about a record. -/
structure SessionInfo where
  hasLive : Bool
  canSend : Bool
  usable : Bool
  version : Nat
  localRegistrationId : Nat
  remoteRegistrationId : Nat
  shelved : Nat
  localIdentity : Bytes
  remoteIdentity : Bytes
  base : Bytes
  deriving DecidableEq

/-- The answer is all zeroes, but for the count, when no state is live. -/
def sessionInfoOf (record : Bytes) (nowSecs : Nat) : Outcome Fault SessionInfo := do
  let archive ← archiveFrom record
  let shelved ← Outcome.intCast 32 archive.previous.length
  let zeroes := List.replicate 33 (0 : UInt8)
  match archive.current with
  | none =>
      return ⟨false, false, false, 0, 0, 0, shelved, zeroes, zeroes, zeroes⟩
  | some current => do
      let usable ← archive.canSendAt nowSecs
      return ⟨true, current.canSend, usable, current.version,
        current.localRegistrationId, current.remoteRegistrationId, shelved,
        current.localKey.serialize, current.remoteKey.serialize,
        if current.base.length = 33 then current.base else zeroes⟩

/-- What a peer published, as the client passes it. -/
structure GvPublished where
  registrationId : Nat
  device : Nat
  oneTimeId : Int
  oneTime : Bytes
  signedId : Nat
  signedKey : Bytes
  signedSignature : Bytes
  identity : Bytes
  pqId : Nat
  pqKey : Bytes
  pqSignature : Bytes

/-- A negative id or no key at all is no one-time key. -/
def GvPublished.init (p : GvPublished) : Outcome Fault Bundle.Published := do
  let offered := 0 ≤ p.oneTimeId ∧ 0 < p.oneTime.length
  let oneTimeId ←
    if offered then some <$> Outcome.intCast 32 p.oneTimeId.toNat
    else .ok none
  let oneTime ←
    if offered then some <$> Curve.Public.parse p.oneTime else .ok none
  let signed ← Curve.Public.parse p.signedKey
  let identity ← Curve.Public.parse p.identity
  let pqKey ← PostQuantum.Public.parse p.pqKey
  Bundle.Published.init p.registrationId p.device oneTimeId oneTime
    p.signedId signed p.signedSignature ⟨identity⟩ p.pqId pqKey
    p.pqSignature

/-- `if (data.len > 0) try T.parse(data) else null`. -/
def offeredRecord
    {α : Type}
    (parse : Bytes → Outcome Fault α)
    (data : Bytes) :
    Outcome Fault (Option α) :=
  if 0 < data.length then some <$> parse data else .ok none

/-- The keys the host hands over; those it has not found are empty. -/
def offeredFrom (signed oneTime pq : Bytes) : Outcome Fault Offered := do
  let signed ← offeredRecord Bundle.SignedRecord.parse signed
  let oneTime ← offeredRecord Bundle.OneTimeRecord.parse oneTime
  let pq ← offeredRecord Bundle.PqRecord.parse pq
  return ⟨signed, oneTime, pq⟩

section Engine

variable [Hashes] [Curves] [Aes] [Kem] [Capsules]

/-- `sessionStart`: the published keys are parsed before the record. -/
def startSession
    (draws : StartDraws)
    (secret : Bytes)
    (registrationId : Nat)
    (record : Bytes)
    (p : GvPublished)
    (nowSecs : Nat)
    (allocates : Cell → Bool) :
    Call Handed AbiError Unit := do
  let published ← Call.lift (p.init.mapError AbiError.fault)
  let archive ← Call.lift ((archiveFrom record).mapError AbiError.fault)
  let us ← Call.lift ((Listing.usFrom secret).mapError AbiError.fault)
  let result := start draws us registrationId published nowSecs archive
  Call.lift (result.1.mapError ofEngine)
  give (allocates .outRecord) .outRecord result.2.serialize

omit [Aes] [Kem] in
/-- Starting performs the steps of its call. -/
theorem startSession_performs
    (draws : StartDraws)
    (secret : Bytes)
    (registrationId : Nat)
    (record : Bytes)
    (p : GvPublished)
    (nowSecs : Nat)
    (allocates : Cell → Bool) :
    Performs allocates sessionStart.steps
      (startSession draws secret registrationId record p nowSecs
        allocates) := by
  apply Performs.attempt
  intro published
  -- The four keys and the record are parsed in one computation.
  iterate 4 apply Performs.silent
  apply Performs.attempt
  intro archive
  apply Performs.attempt
  intro us
  apply Performs.attempt
  intro _
  apply Performs.silent
  exact Performs.giveLast _

/-- The kind of the sealed message is written beside the cells. -/
def sealSessionKind
    (record plain : Bytes)
    (nowSecs : Nat)
    (binding : Option Binding)
    (draw : Braid.Draw)
    (allocates : Cell → Bool) :
    Call Handed AbiError Kind := do
  let archive ← Call.lift ((archiveFrom record).mapError AbiError.fault)
  let result := archive.seal plain nowSecs binding draw
  let made ← Call.lift (result.1.mapError ofEngine)
  give (allocates .sealed) .sealed made.bytes
  give (allocates .outRecord) .outRecord result.2.serialize
  return made.kind

omit [Curves] [Capsules] in
/-- Sealing performs the steps of its call. -/
theorem sealSessionKind_performs
    (record plain : Bytes)
    (nowSecs : Nat)
    (binding : Option Binding)
    (draw : Braid.Draw)
    (allocates : Cell → Bool) :
    Performs allocates sessionSeal.steps
      (sealSessionKind record plain nowSecs binding draw allocates) := by
  apply Performs.attempt
  intro archive
  apply Performs.attempt
  intro made
  apply Performs.give made.bytes (by decide)
  apply Performs.silent
  apply Performs.give _ (by decide)
  exact Performs.done made.kind

/-- What a first message consumed is written beside the cells. -/
def openFirstSession
    (draws : Nat → Block 32)
    (secret : Bytes)
    (registrationId : Nat)
    (record opener signed oneTime pq : Bytes)
    (binding : Option Binding)
    (allocates : Cell → Bool) :
    Call Handed AbiError (Option Consumed) := do
  let archive ← Call.lift ((archiveFrom record).mapError AbiError.fault)
  let first ← Call.lift ((Opener.parse opener).mapError AbiError.fault)
  let offered ←
    Call.lift ((offeredFrom signed oneTime pq).mapError AbiError.fault)
  let us ← Call.lift ((Listing.usFrom secret).mapError AbiError.fault)
  let result := openFirst draws us registrationId first offered binding archive
  let opened ← Call.lift (result.1.mapError ofEngine)
  give (allocates .plain) .plain opened.plain
  give (allocates .outRecord) .outRecord result.2.serialize
  return opened.consumed

/-- Opening a first message performs the steps of its call. -/
theorem openFirstSession_performs
    (draws : Nat → Block 32)
    (secret : Bytes)
    (registrationId : Nat)
    (record opener signed oneTime pq : Bytes)
    (binding : Option Binding)
    (allocates : Cell → Bool) :
    Performs allocates sessionOpenFirst.steps
      (openFirstSession draws secret registrationId record opener signed
        oneTime pq binding allocates) := by
  apply Performs.attempt
  intro archive
  apply Performs.attempt
  intro first
  apply Performs.attempt
  intro offered
  -- The three records are parsed in one computation.
  iterate 2 apply Performs.silent
  apply Performs.attempt
  intro us
  apply Performs.attempt
  intro opened
  apply Performs.give opened.plain (by decide)
  apply Performs.silent
  apply Performs.give _ (by decide)
  exact Performs.done opened.consumed

end Engine

end Gossveil.Abi

namespace Gossveil

open Abi Ratchet

/-- What the client throws; the kind it also carries follows from the status. -/
structure GossveilError where
  status : Status
  message : String
  deriving DecidableEq

namespace Bridge

/-- `gv_status_text`. -/
def statusText : Status → String
  | .ok => "ok"
  | .badArgument => "bad argument"
  | .badState => "bad state"
  | .badKey => "bad key"
  | .badSignature => "bad signature"
  | .badMessage => "bad message"
  | .unknownKeyId => "unknown key id"
  | .untrustedIdentity => "untrusted identity"
  | .noSession => "no session"
  | .replay => "replayed message"
  | .legacyVersion => "legacy message version"
  | .unknownVersion => "unknown message version"
  | .outOfMemory => "out of memory"
  | .verifyFailed => "verification failed"
  | .internal => "internal error"

/-- `check`: what is thrown for a status. -/
def thrown (status : Status) : GossveilError :=
  ⟨status, statusText status⟩

/-- A call that hands nothing over. -/
def check {α : Type} (outcome : Outcome AbiError α) : Outcome GossveilError α :=
  outcome.mapError fun error => thrown (statusFor error)

/-- `Out.take`. -/
def take (buffer : GvBuffer) : Bytes :=
  buffer.ptr.getD []

/-- Every cell that was handed over lies in the memory of the core. -/
def InMemory (handed : Handed) : Prop :=
  ∀ cell ∈ handed.given, (handed.cells cell).len < 2 ^ 32

instance (handed : Handed) : Decidable (InMemory handed) :=
  inferInstanceAs (Decidable (∀ _ ∈ _, _))

/-- `Call.finish`: the outputs are read once the status is success. -/
def finish
    {α β : Type}
    (call : Call Handed AbiError α)
    (read : (Cell → Bytes) → α → β) :
    Outcome GossveilError β :=
  match call ⟨fun _ => .empty, []⟩ with
  | (.ok value, handed) =>
      if InMemory handed then
        .ok (read (fun cell => take (handed.cells cell)) value)
      else
        .error (thrown .outOfMemory)
  | (.error error, _) => .error (thrown (statusFor error))
  | (.trap, _) => .trap

/-- Whether some bytes are a public key. -/
def curveCheck (publicKey : Bytes) : Outcome GossveilError Unit := do
  let _ ← check ((Curve.Public.parse publicKey).mapError AbiError.fault)
  return ()

/-- What is known of a record at a time. -/
def sessionInfo
    (record : Bytes)
    (nowSecs : Nat) :
    Outcome GossveilError SessionInfo :=
  check ((sessionInfoOf record nowSecs).mapError AbiError.fault)

/-- What a first message says before it is opened. -/
structure OpenerInfo where
  version : Nat
  registrationId : Nat
  oneTimeId : Option Nat
  signedId : Nat
  pqId : Option Nat
  base : Bytes
  identity : Bytes
  deriving DecidableEq

/-- What a first message says of itself, and the message it wraps. -/
def openerParse (opener : Bytes) : Outcome GossveilError (OpenerInfo × Bytes) := do
  let first ← check ((Opener.parse opener).mapError AbiError.fault)
  return (⟨first.version, first.registrationId, first.oneTimeId,
    first.signedId, first.pqId, first.base.serialize,
    first.identity.serialize⟩, first.inner)

section Engine

variable [Hashes] [Curves] [Aes] [Kem]

/-- The record after a session has been started. -/
def sessionStart
    [Capsules]
    (draws : StartDraws)
    (identitySecret : Bytes)
    (registrationId : Nat)
    (record : Bytes)
    (p : GvPublished)
    (nowSecs : Nat) :
    Outcome GossveilError Bytes :=
  finish
    (startSession draws identitySecret registrationId record p nowSecs
      fun _ => true)
    fun cells _ => cells .outRecord

/-- The sealed message under its kind, and the record that goes with it. -/
def sessionSeal
    (record plain : Bytes)
    (nowSecs : Nat)
    (binding : Option Binding)
    (draw : Braid.Draw) :
    Outcome GossveilError (Nat × Bytes × Bytes) :=
  finish (sealSessionKind record plain nowSecs binding draw fun _ => true)
    fun cells kind => (kind.code, cells .sealed, cells .outRecord)

/-- The text, then the record. -/
def sessionOpen
    (draws : Nat → Block 32)
    (record whisper : Bytes)
    (binding : Option Binding) :
    Outcome GossveilError (Bytes × Bytes) :=
  finish (openSession draws record whisper binding fun _ => true)
    fun cells _ => (cells .plain, cells .outRecord)

/-- The text, the record and what the message has used up. -/
def sessionOpenFirst
    [Capsules]
    (draws : Nat → Block 32)
    (identitySecret : Bytes)
    (registrationId : Nat)
    (record opener signed oneTime pq : Bytes)
    (binding : Option Binding) :
    Outcome GossveilError (Bytes × Bytes × Option Consumed) :=
  finish
    (openFirstSession draws identitySecret registrationId record opener signed
      oneTime pq binding fun _ => true)
    fun cells consumed => (cells .plain, cells .outRecord, consumed)

end Engine

/-! ## What a call that returns has done -/

/-- What a buffer holds is taken out again. -/
theorem take_holding (data : Bytes) : take (.holding data) = data := by
  unfold take GvBuffer.holding
  split_ifs with isEmpty
  · exact isEmpty.symm
  · rfl

theorem len_holding (data : Bytes) : (GvBuffer.holding data).len = data.length := by
  unfold GvBuffer.holding
  split_ifs with isEmpty
  · rw [isEmpty]
    rfl
  · rfl

/-- A cell is filled when there is memory. -/
theorem give_allocated
    (cell : Cell)
    (data : Bytes)
    (handed : Handed) :
    give true cell data handed =
      (.ok (),
        ⟨Function.update handed.cells cell (.holding data),
          handed.given ++ [cell]⟩) :=
  @give_of_copied ⟨fun _ => .ok (), fun _ => data, fun _ => true⟩ cell
    (.inr rfl) handed

/-- A call that finishes has returned, and its outputs are read. -/
theorem finish_eq_ok
    {α β : Type}
    {call : Call Handed AbiError α}
    {read : (Cell → Bytes) → α → β}
    {result : β}
    (finished : finish call read = .ok result) :
    ∃ value handed,
      call ⟨fun _ => .empty, []⟩ = (.ok value, handed) ∧
        InMemory handed ∧
        result = read (fun cell => take (handed.cells cell)) value := by
  unfold finish at finished
  rcases shape : call ⟨fun _ => .empty, []⟩ with ⟨value | error | _, handed⟩ <;>
    simp only [shape] at finished
  · split_ifs at finished with inMemory
    exact ⟨value, handed, rfl, inMemory, (Outcome.ok.inj finished).symm⟩
  · cases finished
  · cases finished

/-- What two cells hold that have been filled one after the other. -/
theorem take_filled
    {plain record : Bytes}
    {handed : Handed}
    (filled :
      handed =
        ⟨Function.update
          (Function.update (fun _ => .empty) .plain (.holding plain))
          .outRecord (.holding record), [.plain, .outRecord]⟩)
    (inMemory : InMemory handed) :
    take (handed.cells .plain) = plain ∧
      take (handed.cells .outRecord) = record ∧
        record.length < 2 ^ 32 := by
  subst filled
  refine ⟨?_, ?_, ?_⟩
  · simp [take_holding]
  · simp [take_holding]
  · have short := inMemory .outRecord (by simp)
    simpa [len_holding] using short

section Opened

variable [Hashes] [Curves] [Aes] [Kem]
variable {draws : Nat → Block 32} {binding : Option Binding}
variable {record plain after : Bytes}

/-- What an opened message says of the core. -/
theorem sessionOpen_eq_ok
    {whisper : Bytes}
    (opened : sessionOpen draws record whisper binding = .ok (plain, after)) :
    ∃ archive message settled,
      archiveFrom record = .ok archive ∧
        Whisper.parse whisper = .ok message ∧
        openWhisper draws message binding archive = (.ok plain, settled) ∧
        after = settled.serialize ∧
        after.length < 2 ^ 32 := by
  obtain ⟨_, handed, calls, inMemory, isRead⟩ := finish_eq_ok opened
  obtain ⟨archive, isArchive, calls⟩ := Call.lift_bind_eq_ok.mp calls
  obtain ⟨_, _, calls⟩ := Call.lift_bind_eq_ok.mp calls
  obtain ⟨message, isMessage, calls⟩ := Call.lift_bind_eq_ok.mp calls
  obtain ⟨text, isText, calls⟩ := Call.lift_bind_eq_ok.mp calls
  rw [Call.bind_of_ok (give_allocated ..), give_allocated] at calls
  obtain ⟨_, filled⟩ := Prod.mk.inj calls
  obtain ⟨isPlain, isAfter, short⟩ := take_filled filled.symm inMemory
  simp only [isPlain, isAfter, Prod.mk.injEq] at isRead
  obtain ⟨rfl, rfl⟩ := isRead
  exact ⟨archive, message, _, Outcome.mapError_eq_ok.mp isArchive,
    Outcome.mapError_eq_ok.mp isMessage,
    Prod.ext (Outcome.mapError_eq_ok.mp isText) rfl, rfl, short⟩

/-- What an opened first message says of the core. -/
theorem sessionOpenFirst_eq_ok
    [Capsules]
    {identitySecret opener signed oneTime pq : Bytes}
    {registrationId : Nat}
    {consumed : Option Consumed}
    (opened :
      sessionOpenFirst draws identitySecret registrationId record opener signed
          oneTime pq binding =
        .ok (plain, after, consumed)) :
    ∃ archive first offered us settled,
      archiveFrom record = .ok archive ∧
        Opener.parse opener = .ok first ∧
        offeredFrom signed oneTime pq = .ok offered ∧
        openFirst draws us registrationId first offered binding archive =
          (.ok ⟨plain, consumed⟩, settled) ∧
        after = settled.serialize ∧
        after.length < 2 ^ 32 := by
  obtain ⟨taken, handed, calls, inMemory, isRead⟩ := finish_eq_ok opened
  obtain ⟨archive, isArchive, calls⟩ := Call.lift_bind_eq_ok.mp calls
  obtain ⟨first, isFirst, calls⟩ := Call.lift_bind_eq_ok.mp calls
  obtain ⟨offered, isOffered, calls⟩ := Call.lift_bind_eq_ok.mp calls
  obtain ⟨us, _, calls⟩ := Call.lift_bind_eq_ok.mp calls
  obtain ⟨done, isDone, calls⟩ := Call.lift_bind_eq_ok.mp calls
  rw [Call.bind_of_ok (give_allocated ..),
    Call.bind_of_ok (give_allocated ..)] at calls
  obtain ⟨isTaken, filled⟩ := Prod.mk.inj calls
  obtain rfl := Outcome.ok.inj isTaken
  obtain ⟨isPlain, isAfter, short⟩ := take_filled filled.symm inMemory
  simp only [isPlain, isAfter, Prod.mk.injEq] at isRead
  obtain ⟨rfl, rfl, rfl⟩ := isRead
  exact ⟨archive, first, offered, us, _, Outcome.mapError_eq_ok.mp isArchive,
    Outcome.mapError_eq_ok.mp isFirst, Outcome.mapError_eq_ok.mp isOffered,
    Prod.ext (Outcome.mapError_eq_ok.mp isDone) rfl, rfl, short⟩

end Opened

/-! ## What a record says of its live state -/

/-- What is read can be written again. -/
theorem archiveFrom_sound
    {record : Bytes}
    {archive : Archive}
    (isArchive : archiveFrom record = .ok archive) :
    archive.Sound := by
  unfold archiveFrom at isArchive
  split_ifs at isArchive
  · cases isArchive
    rintro _ ⟨⟩
  · exact Archive.parse_sound isArchive

/-- An archive with a live state is read back from its record. -/
theorem archiveFrom_serialize
    {archive : Archive}
    {live : State}
    (isLive : archive.current = some live)
    (sound : archive.Sound)
    (short : archive.serialize.length < 2 ^ 32) :
    archiveFrom archive.serialize = .ok archive := by
  have readsBack : Archive.parse archive.serialize = .ok archive :=
    Archive.parse_serialize sound (short.trans (by decide))
  unfold archiveFrom
  split_ifs with none
  · rw [List.length_eq_zero_iff.mp none] at readsBack
    cases readsBack
    cases isLive
  · exact readsBack

/-- The identity that a record is asked for is the one of its live state. -/
theorem sessionInfo_remoteIdentity
    {archive : Archive}
    {live : State}
    {nowSecs : Nat}
    {info : SessionInfo}
    (isLive : archive.current = some live)
    (sound : archive.Sound)
    (short : archive.serialize.length < 2 ^ 32)
    (answered : sessionInfo archive.serialize nowSecs = .ok info) :
    info.remoteIdentity = live.remoteKey.serialize := by
  have answered :=
    Outcome.mapError_eq_ok.mp (Outcome.mapError_eq_ok.mp answered)
  rw [sessionInfoOf, archiveFrom_serialize isLive sound short,
    Outcome.ok_bind] at answered
  obtain ⟨shelved, _, answered⟩ := Outcome.bind_eq_ok.mp answered
  rw [isLive] at answered
  obtain ⟨usable, _, ⟨⟩⟩ := Outcome.bind_eq_ok.mp answered
  rfl

/-- The secrets that are read are clamped. -/
theorem offeredFrom_clamped
    {signed oneTime pq : Bytes}
    {offered : Offered}
    (isOffered : offeredFrom signed oneTime pq = .ok offered) :
    offered.Clamped := by
  obtain ⟨record, isRecord, rest⟩ := Outcome.bind_eq_ok.mp isOffered
  obtain ⟨_, _, rest⟩ := Outcome.bind_eq_ok.mp rest
  obtain ⟨_, _, ⟨⟩⟩ := Outcome.bind_eq_ok.mp rest
  rintro found ⟨⟩
  unfold offeredRecord at isRecord
  split_ifs at isRecord
  · obtain ⟨parsed, isParsed, ⟨⟩⟩ := Outcome.map_eq_ok.mp isRecord
    exact Bundle.SignedRecord.clamped_parse isParsed
  · cases isRecord

end Bridge

namespace Ratchet.Opener

open Codec

theorem Draft.read_registrationId
    {draft next : Draft}
    {field : Field}
    (before : draft.registrationId < 2 ^ 32)
    (read : draft.read field = .ok next) :
    next.registrationId < 2 ^ 32 := by
  unfold Draft.read at read
  split at read
  case h_5 =>
    obtain ⟨id, isId, ⟨⟩⟩ := Outcome.bind_eq_ok.mp read
    exact Field.uint32_lt isId
  case h_2 | h_3 =>
    obtain ⟨_, _, rest⟩ := Outcome.bind_eq_ok.mp read
    obtain ⟨_, _, ⟨⟩⟩ := Outcome.bind_eq_ok.mp rest
    exact before
  case h_1 | h_6 | h_7 =>
    obtain ⟨_, _, ⟨⟩⟩ := Outcome.bind_eq_ok.mp read
    exact before
  case h_4 | h_8 | h_9 =>
    cases read
    exact before

/-- The registration id of a first message fits 32 bits. -/
theorem registrationId_of_parse
    {data : Bytes}
    {first : Opener}
    (parsed : parse data = .ok first) :
    first.registrationId < 2 ^ 32 := by
  unfold parse at parsed
  split at parsed
  · cases parsed
  · obtain ⟨version, _, rest⟩ := Outcome.bind_eq_ok.mp parsed
    obtain ⟨draft, folded, finished⟩ := Outcome.bind_eq_ok.mp rest
    have small : draft.registrationId < 2 ^ 32 :=
      Codec.fold_preserves Draft.read_registrationId (by decide) folded
    simp only [Draft.finish, Outcome.bind_eq_ok] at finished
    obtain ⟨_, _, _, _, _, _, _, _, _, _, _, _, done⟩ := finished
    cases done
    exact small

end Ratchet.Opener

end Gossveil
