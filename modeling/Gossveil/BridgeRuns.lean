import Gossveil.HandleLink
import Gossveil.SealPlaces
import Gossveil.StoreCalls

namespace Gossveil

open Abi Ratchet Interleaving

/-!
# Calls that run in one piece

Where the engine succeeds, a call of the bridge returns what the engine has
made, unless the memory of the core has no room for it.  A call over the
in-memory store that nothing interrupts looks at the store and changes it in
the order of its awaits.
-/

namespace Bridge

/-- The call returns a value, or there was no room for it. -/
def Returns {α : Type} (outcome : Outcome GossveilError α) (value : α) : Prop :=
  outcome = .ok value ∨ outcome = .error (thrown .outOfMemory)

/-- A call that fills its cells returns them, or there was no room. -/
theorem finish_filled
    {α β : Type}
    {call : Call Handed AbiError α}
    {read : (Cell → Bytes) → α → β}
    {value : α}
    {handed : Handed}
    {result : β}
    (calls : call ⟨fun _ => .empty, []⟩ = (.ok value, handed))
    (isRead : read (fun cell => take (handed.cells cell)) value = result) :
    Returns (finish call read) result := by
  unfold finish
  simp only [calls]
  split_ifs
  · exact Or.inl (congrArg Outcome.ok isRead)
  · exact Or.inr rfl

section Engine

variable [Hashes] [Aes] [Kem]
variable {record plain : Bytes} {binding : Option Binding}
variable {archive settled : Archive}

/-- What sealing gives and keeps, of a record that parses. -/
theorem sessionSeal_returns
    {made : Sealed}
    {nowSecs : Nat}
    {draw : Braid.Draw}
    (isArchive : archiveFrom record = .ok archive)
    (seals : archive.seal plain nowSecs binding draw = (.ok made, settled)) :
    Returns (sessionSeal record plain nowSecs binding draw)
      (made.kind.code, made.bytes, settled.serialize) := by
  refine @finish_filled _ _ _ _ made.kind
    ⟨Function.update
      (Function.update (fun _ => .empty) .sealed (.holding made.bytes))
      .outRecord (.holding settled.serialize), [.sealed, .outRecord]⟩ _ ?_ ?_
  · simp only [sealSessionKind, isArchive, seals, Outcome.mapError_ok,
      Call.lift_ok_bind]
    rw [Call.bind_of_ok (give_allocated ..),
      Call.bind_of_ok (give_allocated ..)]
    rfl
  · simp [take_holding]

/-- What the bridge has sealed, the archive of the record has sealed. -/
theorem sealed_of_sessionSeal
    {nowSecs kind : Nat}
    {draw : Braid.Draw}
    {sealed after : Bytes}
    (isArchive : archiveFrom record = .ok archive)
    (seals :
      sessionSeal record plain nowSecs binding draw =
        .ok (kind, sealed, after)) :
    ∃ made settled,
      archive.seal plain nowSecs binding draw = (.ok made, settled) ∧
        kind = made.kind.code ∧ sealed = made.bytes ∧
        after = settled.serialize ∧ after.length < 2 ^ 32 := by
  obtain ⟨_, made, settled, isSame, seals, isKind, isBytes, isAfter, _, short⟩ :=
    sessionSeal_eq_ok seals
  obtain rfl := Outcome.ok.inj (isArchive.symm.trans isSame)
  exact ⟨made, settled, seals, isKind, isBytes, isAfter, short⟩

variable [Curves]
variable {draws : Nat → Block 32}

/-- What opening gives and keeps, of a record that parses. -/
theorem sessionOpen_returns
    {whisper : Bytes}
    {message : Whisper}
    {live : State}
    (isArchive : archiveFrom record = .ok archive)
    (isLive : archive.current = some live)
    (parsed : Whisper.parse whisper = .ok message)
    (opens :
      openWhisper draws message binding archive = (.ok plain, settled)) :
    Returns (sessionOpen draws record whisper binding)
      (plain, settled.serialize) := by
  refine @finish_filled _ _ _ _ ()
    ⟨Function.update
      (Function.update (fun _ => .empty) .plain (.holding plain))
      .outRecord (.holding settled.serialize), [.plain, .outRecord]⟩ _ ?_ ?_
  · have present : ¬ (archive.current = none ∧ archive.previous.length = 0) := by
      simp [isLive]
    simp only [openSession, isArchive, parsed, opens, present,
      not_false_eq_true, Outcome.require_of, Outcome.mapError_ok,
      Call.lift_ok_bind]
    rw [Call.bind_of_ok (give_allocated ..)]
    exact give_allocated ..
  · simp [take_holding]

/-- What opening a first message gives, keeps and uses up. -/
theorem sessionOpenFirst_returns
    [Capsules]
    {identitySecret opener signed oneTime pq : Bytes}
    {registrationId : Nat}
    {us : IdentityPair}
    {first : Opener}
    {offered : Offered}
    {opened : Opened}
    (isArchive : archiveFrom record = .ok archive)
    (parsed : Opener.parse opener = .ok first)
    (isOffered : offeredFrom signed oneTime pq = .ok offered)
    (owns : Listing.usFrom identitySecret = .ok us)
    (opens :
      openFirst draws us registrationId first offered binding archive =
        (.ok opened, settled)) :
    Returns
      (sessionOpenFirst draws identitySecret registrationId record opener signed
        oneTime pq binding)
      (opened.plain, settled.serialize, opened.consumed) := by
  refine @finish_filled _ _ _ _ opened.consumed
    ⟨Function.update
      (Function.update (fun _ => .empty) .plain (.holding opened.plain))
      .outRecord (.holding settled.serialize), [.plain, .outRecord]⟩ _ ?_ ?_
  · simp only [openFirstSession, isArchive, parsed, isOffered, owns, opens,
      Outcome.mapError_ok, Call.lift_ok_bind]
    rw [Call.bind_of_ok (give_allocated ..),
      Call.bind_of_ok (give_allocated ..)]
    rfl
  · simp [take_holding]

/-- What the bridge has opened, the archive of the record has opened. -/
theorem opened_of_sessionOpen
    {whisper after : Bytes}
    {message : Whisper}
    (isArchive : archiveFrom record = .ok archive)
    (parsed : Whisper.parse whisper = .ok message)
    (opens : sessionOpen draws record whisper binding = .ok (plain, after)) :
    ∃ settled,
      openWhisper draws message binding archive = (.ok plain, settled) ∧
        after = settled.serialize ∧ after.length < 2 ^ 32 := by
  obtain ⟨_, _, settled, isSame, isMessage, opens, isAfter, short⟩ :=
    sessionOpen_eq_ok opens
  obtain rfl := Outcome.ok.inj (isArchive.symm.trans isSame)
  obtain rfl := Outcome.ok.inj (parsed.symm.trans isMessage)
  exact ⟨settled, opens, isAfter, short⟩

/-- A first message opened through the bridge was opened by the engine. -/
theorem opened_of_sessionOpenFirst
    [Capsules]
    {identitySecret opener signed oneTime pq after : Bytes}
    {registrationId : Nat}
    {us : IdentityPair}
    {first : Opener}
    {offered : Offered}
    {consumed : Option Consumed}
    (isArchive : archiveFrom record = .ok archive)
    (parsed : Opener.parse opener = .ok first)
    (isOffered : offeredFrom signed oneTime pq = .ok offered)
    (owns : Listing.usFrom identitySecret = .ok us)
    (opens :
      sessionOpenFirst draws identitySecret registrationId record opener signed
          oneTime pq binding =
        .ok (plain, after, consumed)) :
    ∃ settled,
      openFirst draws us registrationId first offered binding archive =
          (.ok ⟨plain, consumed⟩, settled) ∧
        after = settled.serialize ∧ after.length < 2 ^ 32 := by
  obtain ⟨taken, handed, calls, inMemory, isRead⟩ := finish_eq_ok opens
  simp only [openFirstSession, isArchive, parsed, isOffered, owns,
    Outcome.mapError_ok, Call.lift_ok_bind] at calls
  obtain ⟨opened, isOpened, calls⟩ := Call.lift_bind_eq_ok.mp calls
  rw [Call.bind_of_ok (give_allocated ..),
    Call.bind_of_ok (give_allocated ..)] at calls
  obtain ⟨isTaken, filled⟩ := Prod.mk.inj calls
  obtain rfl := Outcome.ok.inj isTaken
  obtain ⟨isPlain, isAfter, short⟩ := take_filled filled.symm inMemory
  simp only [isPlain, isAfter, Prod.mk.injEq] at isRead
  obtain ⟨rfl, rfl, rfl⟩ := isRead
  exact ⟨_, Prod.ext (Outcome.mapError_eq_ok.mp isOpened) rfl, rfl, short⟩

omit [Aes] [Kem] in
/-- A session started through the bridge was started by the engine. -/
theorem sessionStart_eq_ok
    [Capsules]
    {starts : StartDraws}
    {identitySecret after : Bytes}
    {registrationId nowSecs : Nat}
    {p : GvPublished}
    (started :
      sessionStart starts identitySecret registrationId record p nowSecs =
        .ok after) :
    ∃ published earlier us settled,
      p.init = .ok published ∧
        archiveFrom record = .ok earlier ∧
        Listing.usFrom identitySecret = .ok us ∧
        start starts us registrationId published nowSecs earlier =
          (.ok (), settled) ∧
        after = settled.serialize ∧ after.length < 2 ^ 32 := by
  obtain ⟨_, handed, calls, inMemory, isRead⟩ := finish_eq_ok started
  obtain ⟨published, isPublished, calls⟩ := Call.lift_bind_eq_ok.mp calls
  obtain ⟨earlier, isEarlier, calls⟩ := Call.lift_bind_eq_ok.mp calls
  obtain ⟨us, isUs, calls⟩ := Call.lift_bind_eq_ok.mp calls
  obtain ⟨⟨⟩, isStarted, calls⟩ := Call.lift_bind_eq_ok.mp calls
  rw [give_allocated] at calls
  obtain ⟨_, rfl⟩ := Prod.mk.inj calls
  have short := inMemory .outRecord (by simp)
  simp only [Function.update_self, take_holding, len_holding] at isRead short
  subst isRead
  exact ⟨published, earlier, us, _, Outcome.mapError_eq_ok.mp isPublished,
    Outcome.mapError_eq_ok.mp isEarlier, Outcome.mapError_eq_ok.mp isUs,
    Prod.ext (Outcome.mapError_eq_ok.mp isStarted) rfl, rfl, short⟩

end Engine

end Bridge

/-! ## What a record says of itself -/

namespace Ratchet

/-- The post-quantum state comes last in a record. -/
theorem State.length_pqState_le (state : State) :
    state.pqState.length ≤ state.serialize.length := by
  have isLast :
      state.pqState <:+ Codec.Writer.bytesIfSet 15 state.pqState := by
    unfold Codec.Writer.bytesIfSet
    split_ifs with isEmpty
    · exact List.suffix_append ..
    · simp_all
  exact (isLast.trans (List.suffix_append ..)).length_le

/-- The live state is no longer than its archive. -/
theorem Archive.length_current_le
    {archive : Archive}
    {live : State}
    (isLive : archive.current = some live) :
    live.serialize.length ≤ archive.serialize.length := by
  simp only [serialize, isLive, Codec.Writer.bytes, List.length_append]
  omega

/-- A record has room for a byte of every shelved record. -/
theorem Archive.length_previous_le (archive : Archive) :
    archive.previous.length ≤ archive.serialize.length := by
  have counted :
      archive.previous.length ≤
        (archive.previous.flatMap (Codec.Writer.bytes 2)).length := by
    rw [List.length_flatMap, ← List.length_map
      (fun record => (Codec.Writer.bytes 2 record).length)]
    refine List.length_le_sum_of_one_le _ fun size member => ?_
    obtain ⟨record, _, rfl⟩ := List.mem_map.mp member
    have tagged :
        0 < (Codec.Writer.tag 2 .bytes).length :=
      Codec.length_putVarint_pos _
    simp only [Codec.Writer.bytes, List.length_append]
    omega
  rw [serialize, List.length_append]
  exact counted.trans (Nat.le_add_left ..)

end Ratchet

namespace Bridge

/-- A record with a live state that is not stamped too late can be asked. -/
theorem sessionInfo_returns
    {archive : Archive}
    {live : State}
    (nowSecs : Nat)
    (isLive : archive.current = some live)
    (sound : archive.Sound)
    (short : archive.serialize.length < 2 ^ 32)
    (timely : ¬ live.StampOverflows) :
    ∃ info,
      sessionInfo archive.serialize nowSecs = .ok info ∧
        info.remoteIdentity = live.remoteKey.serialize ∧
        live.canSendAt nowSecs = .ok info.usable := by
  have counted : archive.previous.length < 2 ^ 32 :=
    archive.length_previous_le.trans_lt short
  have shelved :
      Outcome.intCast 32 archive.previous.length =
        (.ok archive.previous.length : Outcome Fault Nat) :=
    Outcome.intCast_of_lt counted
  rcases may : live.canSendAt nowSecs with usable | fault | _
  · have answered :
        sessionInfoOf archive.serialize nowSecs =
          .ok ⟨true, live.canSend, usable, live.version,
            live.localRegistrationId, live.remoteRegistrationId,
            archive.previous.length, live.localKey.serialize,
            live.remoteKey.serialize,
            if live.base.length = 33 then live.base
            else List.replicate 33 0⟩ := by
      rw [sessionInfoOf, archiveFrom_serialize isLive sound short,
        Outcome.ok_bind, shelved, Outcome.ok_bind, isLive]
      simp only [Archive.canSendAt, isLive, may, Outcome.ok_bind]
      rfl
    exact ⟨_, by rw [sessionInfo, answered]; rfl, rfl, rfl⟩
  · exact absurd may (live.canSendAt_ne_error nowSecs fault)
  · exact absurd (State.canSendAt_eq_trap.mp may).2 timely

end Bridge

namespace Api

/-! ## Functions that nothing interrupts -/

/-- What the core throws, as the client passes it on. -/
def raised (error : GossveilError) : Thrown :=
  ⟨error.status, ascii error.message⟩

/-- Thrown when the outputs do not fit the memory of the core. -/
def outOfMemory : Thrown :=
  raised (Bridge.thrown .outOfMemory)

namespace Async

variable {α β : Type}

/-- All pieces, one right after the other. -/
def run
    (routine : Async α)
    (store : InMemoryProtocolStore) :
    InMemoryProtocolStore × Outcome Thrown α :=
  Routine.run routine store

section Runs

variable
  {first : Async α}
  {next : α → Async β}
  {store middle after : InMemoryProtocolStore}

@[simp] theorem run_lift (outcome : Outcome Thrown α) :
    run (lift outcome) store = (store, outcome) :=
  rfl

@[simp] theorem run_write
    (change : InMemoryProtocolStore → InMemoryProtocolStore) :
    run (write change) store = (change store, .ok ()) :=
  rfl

@[simp] theorem run_pure (value : α) :
    run (pure value : Async α) store = (store, .ok value) :=
  rfl

@[simp] theorem run_lift_bind (value : α) :
    run (lift (.ok value) >>= next) store = run (next value) store :=
  rfl

@[simp] theorem run_core_ok_bind (value : α) :
    run (core (.ok value) >>= next) store = run (next value) store :=
  rfl

@[simp] theorem run_read_bind
    (look : InMemoryProtocolStore → Outcome Thrown α) :
    run (read look >>= next) store = run (lift (look store) >>= next) store :=
  rfl

@[simp] theorem run_write_bind
    (change : InMemoryProtocolStore → InMemoryProtocolStore)
    (next : Unit → Async β) :
    run (write change >>= next) store = run (next ()) (change store) :=
  rfl

/-- A sequence of asynchronous steps runs one behind the other. -/
theorem run_bind (first : Async α) (next : α → Async β) :
    run (first >>= next) store =
      Routine.run (follow next (run first store).2) (run first store).1 :=
  Routine.run_bind first (follow next) store

/-- Behind a step that returns the next one runs. -/
theorem run_bind_of_ok
    {value : α}
    (runs : run first store = (middle, .ok value)) :
    run (first >>= next) store = run (next value) middle := by
  rw [run_bind, runs]
  rfl

/-- A step that throws ends the sequence. -/
theorem run_bind_of_error
    {thrown : Thrown}
    (runs : run first store = (middle, .error thrown)) :
    run (first >>= next) store = (middle, .error thrown) := by
  rw [run_bind, runs]
  rfl

/-- A step that traps ends the sequence. -/
theorem run_bind_of_trap (runs : run first store = (middle, .trap)) :
    run (first >>= next) store = (middle, .trap) := by
  rw [run_bind, runs]
  rfl

/-- A sequence returns when both its parts do. -/
theorem run_bind_eq_ok {result : β} :
    run (first >>= next) store = (after, .ok result) ↔
      ∃ middle value,
        run first store = (middle, .ok value) ∧
          run (next value) middle = (after, .ok result) := by
  rcases runs : run first store with ⟨middle, value | thrown | _⟩
  · rw [run_bind_of_ok runs]
    simp
  · rw [run_bind_of_error runs]
    simp
  · rw [run_bind_of_trap runs]
    simp

end Runs

end Async

/-! ## The calls, run in one piece -/

/-- What the core returns is kept; what it throws leaves the store as it is. -/
def serve
    {α β : Type}
    (outcome : Outcome GossveilError α)
    (store : InMemoryProtocolStore)
    (keep : α → InMemoryProtocolStore × β) :
    InMemoryProtocolStore × Outcome Thrown β :=
  match outcome with
  | .ok value => ((keep value).1, .ok (keep value).2)
  | .error error => (store, .error (raised error))
  | .trap => (store, .trap)

theorem run_core_bind
    {α β : Type}
    {outcome : Outcome GossveilError α}
    {next : α → Async β}
    {store : InMemoryProtocolStore}
    {keep : α → InMemoryProtocolStore × β}
    (goes :
      ∀ value, outcome = .ok value →
        Async.run (next value) store = ((keep value).1, .ok (keep value).2)) :
    Async.run (Async.core outcome >>= next) store =
      serve outcome store keep := by
  cases outcome with
  | ok value => exact goes value rfl
  | error error => rfl
  | trap => rfl

/-- The record names an identity the store trusts. -/
def Trusted
    (store : InMemoryProtocolStore)
    (address : ProtocolAddress)
    (nowSecs : Nat)
    (key record : Bytes) :
    Prop :=
  ∃ info,
    Bridge.sessionInfo record nowSecs = .ok info ∧
      info.remoteIdentity = key ∧
      store.isTrustedIdentity address key = true

section Calls

variable
  {store : InMemoryProtocolStore}
  {draws : Draws}
  {address : ProtocolAddress}
  {localAddress : Option ProtocolAddress}
  {key record : Bytes}

/-- Committing under a trusted key saves the identity, then the record. -/
theorem commit_run (trusted : Trusted store address draws.nowSecs key record) :
    Async.run (commit draws record address) store =
      ((store.saveIdentity address key).saveSession address record, .ok ()) := by
  obtain ⟨info, answers, rfl, isTrusted⟩ := trusted
  simp only [commit, answers, isTrusted, Async.run_core_ok_bind,
    Async.run_read_bind, Async.run_lift_bind, Outcome.require_of,
    Async.run_write_bind, Async.run_write]

variable [Hashes] [Aes] [Kem]

/-- Encrypting serves the core's answer and saves the record. -/
theorem sessionEncrypt_run
    {message : Bytes}
    (isSession : store.getSession address = some record)
    (trusted :
      ∀ kind sealed after,
        Bridge.sessionSeal record message draws.nowSecs
            (binding localAddress (some address)) draws.sealing =
          .ok (kind, sealed, after) →
        Trusted store address draws.nowSecs key after) :
    Async.run (sessionEncrypt draws message address localAddress) store =
      serve
        (Bridge.sessionSeal record message draws.nowSecs
          (binding localAddress (some address)) draws.sealing)
        store
        fun made =>
          (store.saveSession address made.2.2, ⟨made.1, made.2.1⟩) := by
  simp only [sessionEncrypt, Async.run_read_bind, Async.run_lift_bind,
    isSession, Outcome.ofOption_some]
  refine run_core_bind ?_
  rintro ⟨kind, sealed, after⟩ seals
  obtain ⟨info, answers, rfl, isTrusted⟩ := trusted kind sealed after seals
  simp only [answers, isTrusted, Async.run_core_ok_bind, Async.run_read_bind,
    Async.run_lift_bind, Outcome.require_of, Async.run_write_bind,
    Async.run_pure]

variable [Curves]

/-- Decrypting serves the core's answer and saves identity and record. -/
theorem sessionDecrypt_run
    {message : WhisperMessage}
    (isSession : store.getSession address = some record)
    (trusted :
      ∀ plain after,
        Bridge.sessionOpen draws.opening record message.bytes
            (binding (some address) localAddress) =
          .ok (plain, after) →
        Trusted store address draws.nowSecs key after) :
    Async.run (sessionDecrypt draws message address localAddress) store =
      serve
        (Bridge.sessionOpen draws.opening record message.bytes
          (binding (some address) localAddress))
        store
        fun opened =>
          ((store.saveIdentity address key).saveSession address opened.2,
            opened.1) := by
  simp only [sessionDecrypt, Async.run_read_bind, Async.run_lift_bind,
    isSession, Outcome.ofOption_some]
  refine run_core_bind ?_
  rintro ⟨plain, after⟩ opens
  rw [Async.run_bind_of_ok (commit_run (trusted plain after opens)),
    Async.run_pure]

/-- What a first message used up is taken out, or marked. -/
def settleKeys
    (consumed : Option Consumed)
    (pqId : Option Nat)
    (store : InMemoryProtocolStore) :
    InMemoryProtocolStore :=
  match consumed with
  | none => store
  | some consumed =>
      let store :=
        match consumed.oneTimeId with
        | none => store
        | some id => store.removePreKey id
      match pqId with
      | none => store
      | some id => store.markKyberPreKeyUsed id

omit [Hashes] [Aes] [Kem] [Curves] in
theorem change_run
    (update : InMemoryProtocolStore → Nat → InMemoryProtocolStore)
    (id : Option Nat) :
    Async.run (change update id) store =
      (id.elim store fun id => update store id, .ok ()) := by
  cases id <;> rfl

omit [Hashes] [Aes] [Kem] [Curves] in
theorem named_run
    {get : InMemoryProtocolStore → Nat → Outcome Thrown Bytes}
    {id : Option Nat}
    {found : Bytes}
    (isFound : id.elim (.ok []) (get store) = .ok found) :
    Async.run (named get id) store = (store, .ok found) := by
  cases id with
  | none =>
      cases isFound
      rfl
  | some id => exact congrArg (Prod.mk store) isFound

/--
Decrypting a first message serves the core's answer and drops the used keys.
-/
theorem sessionDecryptPreKey_run
    [Capsules]
    {message : PreKeyMessage}
    {signed oneTime pq : Bytes}
    (isTrusted :
      store.isTrustedIdentity address message.info.identity = true)
    (isSigned : store.getSignedPreKey message.info.signedId = .ok signed)
    (isOneTime :
      message.info.oneTimeId.elim (.ok []) store.getPreKey = .ok oneTime)
    (isPq : message.info.pqId.elim (.ok []) store.getKyberPreKey = .ok pq)
    (trusted :
      ∀ plain after consumed,
        Bridge.sessionOpenFirst draws.opening store.identity
            store.registrationId ((store.getSession address).getD [])
            message.bytes signed oneTime pq
            (binding (some address) localAddress) =
          .ok (plain, after, consumed) →
        Trusted store address draws.nowSecs key after) :
    Async.run (sessionDecryptPreKey draws message address localAddress) store =
      serve
        (Bridge.sessionOpenFirst draws.opening store.identity
          store.registrationId ((store.getSession address).getD [])
          message.bytes signed oneTime pq
          (binding (some address) localAddress))
        store
        fun opened =>
          (settleKeys opened.2.2 message.info.pqId
            ((store.saveIdentity address key).saveSession address opened.2.1),
            opened.1) := by
  simp only [sessionDecryptPreKey, Async.run_read_bind, Async.run_lift_bind,
    isTrusted, Outcome.require_of, isSigned]
  rw [Async.run_bind_of_ok (named_run isOneTime),
    Async.run_bind_of_ok (named_run isPq)]
  refine run_core_bind ?_
  rintro ⟨plain, after, consumed⟩ opens
  rw [Async.run_bind_of_ok (commit_run (trusted plain after consumed opens))]
  cases consumed with
  | none => rfl
  | some consumed =>
      simp only []
      rw [Async.run_bind_of_ok (change_run ..),
        Async.run_bind_of_ok (change_run ..), Async.run_pure]
      cases isConsumed : consumed.oneTimeId <;>
        cases isNamed : message.info.pqId <;>
        simp [settleKeys, isConsumed]

omit [Aes] [Kem] in
/-- A bundle that was processed has started a session, and both are saved. -/
theorem processBundle_eq_ok
    [Capsules]
    {bundle : PreKeyBundle}
    {after : InMemoryProtocolStore}
    (processed :
      Async.run (processBundle draws bundle address) store = (after, .ok ())) :
    ∃ record,
      Bridge.sessionStart draws.start store.identity store.registrationId
          ((store.getSession address).getD []) bundle.published draws.nowSecs =
        .ok record ∧
      after =
        (store.saveIdentity address bundle.identityKey).saveSession address
          record := by
  obtain ⟨_, _, ⟨⟩, processed⟩ := Async.run_bind_eq_ok.mp processed
  obtain ⟨middle, _, isTrusted, processed⟩ := Async.run_bind_eq_ok.mp processed
  obtain ⟨rfl, _⟩ := Prod.mk.inj isTrusted
  obtain ⟨_, _, ⟨⟩, processed⟩ := Async.run_bind_eq_ok.mp processed
  obtain ⟨_, _, ⟨⟩, processed⟩ := Async.run_bind_eq_ok.mp processed
  obtain ⟨_, _, ⟨⟩, processed⟩ := Async.run_bind_eq_ok.mp processed
  obtain ⟨middle, record, starts, processed⟩ :=
    Async.run_bind_eq_ok.mp processed
  obtain ⟨rfl, started⟩ := Prod.mk.inj starts
  obtain ⟨_, _, ⟨⟩, processed⟩ := Async.run_bind_eq_ok.mp processed
  obtain ⟨rfl, _⟩ := Prod.mk.inj processed
  exact ⟨record, Outcome.mapError_eq_ok.mp started, rfl⟩

end Calls

end Api

end Gossveil
