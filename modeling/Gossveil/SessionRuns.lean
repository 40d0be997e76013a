import Gossveil.CountedRuns
import Gossveil.FirstMessages
import Gossveil.HandshakeAgreement
import Gossveil.SessionKeys
import Gossveil.SessionOnce

namespace Gossveil.Ratchet

open TwoParty

/-!
# Runs of a session

One device starts a session from a bundle of the other, whose archive is empty.
A run is any interleaving of seals on either side and of openings of messages
the other side has sealed so far, in any order and as often as wanted; a
message may also stay undelivered.
-/

/-- The initiator, the device whose bundle it starts from, and the bundle. -/
structure Parties where
  us : IdentityPair
  them : IdentityPair
  registrationId : Side → Nat
  published : Bundle.Published
  signed : Bundle.SignedRecord
  oneTime : Option Bundle.OneTimeRecord
  pq : Bundle.PqRecord

namespace Parties

/-- The identity of a side. -/
def identity (parties : Parties) : Side → IdentityPair
  | .initiator => parties.us
  | .responder => parties.them

/-- The records the bundle names. -/
def offered (parties : Parties) : Offered :=
  ⟨some parties.signed, parties.oneTime, some parties.pq⟩

/-- The bundle is the other device's, and its records are at hand. -/
structure Publishes [Curves] [Capsules] (parties : Parties) : Prop where
  us : parties.us.pair.Whole
  them : parties.them.pair.Whole
  distinct : parties.us.identity ≠ parties.them.identity
  signed : parties.signed.pair.Whole
  clamped : parties.signed.pair.secret.Clamped
  oneTime : ∀ record, parties.oneTime = some record → record.pair.Whole
  identity : parties.published.identity = parties.them.identity
  signedId : parties.published.signedId = parties.signed.id
  signedKey : parties.published.signed = parties.signed.pair.publicKey
  oneTimeId :
    parties.published.oneTimeId =
      parties.oneTime.map Bundle.OneTimeRecord.id
  oneTimeKey :
    parties.published.oneTime =
      parties.oneTime.map fun record => record.pair.publicKey
  pqId : parties.published.pqId = parties.pq.id
  pqKey : PostQuantum.Opens parties.published.pqKey parties.pq.pair.secret
  fits : parties.published.Fits
  registrationId : ∀ side, parties.registrationId side < 2 ^ 32

end Parties

section Operations

variable [Hashes] [Curves] [Aes] [Kem] [Capsules]

/-- Opens a sealed message as its kind asks; a session seals no others. -/
def Parties.openSealed
    (parties : Parties)
    (side : Side)
    (draws : Nat → Block 32)
    (binding : Option Binding)
    (message : Sealed) :
    Call Archive EngineError Bytes :=
  match message.kind with
  | .first => do
      let first ← Opener.parse message.bytes
      let opened ←
        openFirst draws (parties.identity side) (parties.registrationId side)
          first parties.offered binding
      return opened.plain
  | .whisper => do
      let inner ← Whisper.parse message.bytes
      openWhisper draws inner binding
  | _ => liftM (.error .badMessage : Outcome Fault Bytes)

/-- The inner message, once the session of a first message is taken in. -/
def Parties.takeIn
    (parties : Parties)
    (side : Side)
    (message : Sealed) :
    Call Archive EngineError Whisper :=
  match message.kind with
  | .first => do
      let first ← Opener.parse message.bytes
      let _ ←
        sessionFor (parties.identity side) (parties.registrationId side) first
          parties.offered
      Whisper.parse first.inner
  | .whisper => Whisper.parse message.bytes
  | _ => liftM (.error .badMessage : Outcome Fault Whisper)

omit [Aes] [Kem] in
/-- Taking in a later message parses it. -/
theorem Parties.takeIn_whisper
    (parties : Parties)
    (side : Side)
    (bytes : Bytes)
    (archive : Archive) :
    parties.takeIn side ⟨.whisper, bytes⟩ archive =
      ((Whisper.parse bytes).mapError .fault, archive) :=
  rfl

omit [Aes] [Kem] in
/-- Taking in a first message parses its inner one. -/
theorem Parties.takeIn_first
    {parties : Parties}
    {side : Side}
    {bytes : Bytes}
    {archive taken : Archive}
    {first : Opener}
    {consumed : Option Consumed}
    (parses : Opener.parse bytes = .ok first)
    (takes :
      sessionFor (parties.identity side) (parties.registrationId side) first
          parties.offered archive =
        (.ok consumed, taken)) :
    parties.takeIn side ⟨.first, bytes⟩ archive =
      ((Whisper.parse first.inner).mapError .fault, taken) := by
  have parsed :
      (liftM (Opener.parse bytes) : Call Archive EngineError Opener) archive =
        (.ok first, archive) := by
    rw [liftM_fault_apply, parses]
    rfl
  exact (Call.bind_of_ok parsed).trans (Call.bind_of_ok takes)

/-- An opening takes the session in and opens with the archive. -/
theorem Parties.openSealed_eq
    (parties : Parties)
    (side : Side)
    (draws : Nat → Block 32)
    (binding : Option Binding)
    (message : Sealed) :
    parties.openSealed side draws binding message =
      parties.takeIn side message >>= fun inner =>
        liftM (openWithArchive draws inner binding) := by
  rcases message with ⟨_ | _ | _ | _, bytes⟩
  · simp only [openSealed, takeIn, openWhisper]
  · simp only [openSealed, takeIn, openFirst, bind_assoc, pure_bind, bind_pure]
  · rfl
  · rfl

end Operations

/-! ## The start -/

/-- What both sides begin a session from. -/
structure Beginning where
  base : Curve.Pair
  keys : Derive.Opening
  capsule : PostQuantum.Capsule
  record : Side → Bytes

/-- The limits between two identities. -/
def sessionLimits : KeyStream.Limits :=
  ⟨maxForwardJump, maxSkippedKeys⟩

namespace Parties

/-- The initiator's part of the handshake. -/
def handshake (parties : Parties) (base : Curve.Pair) : Handshake.Initiator :=
  ⟨parties.us, base, parties.published.identity, parties.published.signed,
    parties.published.oneTime, parties.published.signed,
    parties.published.pqKey⟩

/-- The responder's part of the handshake. -/
def answer (parties : Parties) (beginning : Beginning) : Handshake.Responder :=
  ⟨parties.them, parties.signed.pair,
    parties.oneTime.map Bundle.OneTimeRecord.pair, parties.signed.pair,
    parties.pq.pair.secret, parties.us.identity, beginning.base.publicKey,
    beginning.capsule.bytes⟩

/-- The initiator's live state, with its handshake pending. -/
def opening
    (parties : Parties)
    (beginning : Beginning)
    (nowSecs : Nat)
    (state : State) :
    State :=
  let state :=
    state.setPending parties.published.oneTimeId parties.published.signedId
      beginning.base.publicKey nowSecs
  let state :=
    state.setPendingCapsule parties.published.pqId beginning.capsule.bytes
  { state with
    localRegistrationId := parties.registrationId .initiator
    remoteRegistrationId := parties.published.registrationId }

/-- A first message names the bundle's records and the session's base key. -/
structure Names
    (parties : Parties)
    (beginning : Beginning)
    (first : Opener) :
    Prop where
  version : first.version = currentVersion
  registrationId : first.registrationId < 2 ^ 32
  oneTimeId : first.oneTimeId = parties.published.oneTimeId
  signedId : first.signedId = parties.published.signedId
  pqId : first.pqId = some parties.published.pqId
  capsule : first.capsule = some beginning.capsule.bytes
  base : first.base = beginning.base.publicKey
  identity : first.identity = parties.us.identity.key

variable [Hashes] [Curves] [Capsules]

/-- The responder's first state, on a first message of the session. -/
def answered
    (parties : Parties)
    (beginning : Beginning)
    (first : Opener) :
    State :=
  { Handshake.responderState (parties.answer beginning) beginning.keys
      (beginning.record .responder) with
    localRegistrationId := parties.registrationId .responder
    remoteRegistrationId := first.registrationId }

/-- The handshake of a session was made, and both ratchets started on it. -/
structure Begins (parties : Parties) (beginning : Beginning) : Prop where
  base : beginning.base.Whole
  initiated :
    ∃ seed,
      Handshake.initiatorSecret (parties.handshake beginning.base) seed =
        .ok ⟨beginning.keys, some beginning.capsule⟩
  record :
    ∀ side,
      PqRecord.start beginning.keys.pqAuth side sessionLimits =
        .ok (beginning.record side)
  short : ∀ side, (beginning.record side).length < 2 ^ 64

end Parties

/-- Two identities that differ have the session limits. -/
theorem pqLimits_of_ne
    {us : IdentityPair}
    {them : Identity}
    (distinct : us.identity ≠ them) :
    pqLimits us them = sessionLimits :=
  congrArg (fun jump => (⟨jump, maxSkippedKeys⟩ : KeyStream.Limits))
    (if_neg distinct)

namespace Parties

section Start

variable [Hashes] [Curves] [Capsules]
variable
  {parties : Parties}
  {beginning : Beginning}
  {first : Opener}

/-- What a start does, step by step. -/
theorem start_begins
    {draws : StartDraws}
    {nowSecs : Nat}
    {earlier archive : Archive}
    (publishes : parties.Publishes)
    (started :
      start draws parties.us (parties.registrationId .initiator)
          parties.published nowSecs earlier =
        (.ok (), archive)) :
    ∃ beginning state,
      parties.Begins beginning ∧
        Handshake.initiatorState (parties.handshake beginning.base)
            beginning.keys (beginning.record .initiator) draws.sending =
          .ok state ∧
        archive =
          earlier.promote (parties.opening beginning nowSecs state) := by
  obtain ⟨_, _, isChecked, started⟩ := Call.bind_eq_ok.mp started
  obtain ⟨base, _, isBase, started⟩ := Call.bind_eq_ok.mp started
  obtain ⟨opened, _, isOpened, started⟩ := Call.bind_eq_ok.mp started
  obtain ⟨pqState, _, isPqState, started⟩ := Call.bind_eq_ok.mp started
  obtain ⟨state, _, isState, started⟩ := Call.bind_eq_ok.mp started
  obtain ⟨capsule, _, isCapsule, done⟩ := Call.bind_eq_ok.mp started
  obtain ⟨_, rfl⟩ := Prod.mk.inj isChecked
  obtain ⟨madeBase, rfl⟩ := Prod.mk.inj isBase
  obtain ⟨madeOpened, rfl⟩ := Prod.mk.inj isOpened
  obtain ⟨madePqState, rfl⟩ := Prod.mk.inj isPqState
  obtain ⟨madeState, rfl⟩ := Prod.mk.inj isState
  obtain ⟨madeCapsule, rfl⟩ := Prod.mk.inj isCapsule
  obtain ⟨_, rfl⟩ := Prod.mk.inj done
  have isSome := Outcome.unwrap_eq_ok.mp (Outcome.mapError_eq_ok.mp madeCapsule)
  have initiated := Outcome.mapError_eq_ok.mp madeOpened
  have startsInitiator := Outcome.mapError_eq_ok.mp madePqState
  rw [pqLimits_of_ne (publishes.identity ▸ publishes.distinct)]
    at startsInitiator
  obtain ⟨responder, startsResponder⟩ :=
    PqRecord.start_responder startsInitiator
  obtain ⟨keys, made⟩ := opened
  obtain rfl : made = some capsule := isSome
  refine ⟨⟨base, keys, capsule,
      PqRecord.startSides pqState responder⟩, state,
    ⟨Curve.Pair.whole_of_fromSeed (Outcome.mapError_eq_ok.mp madeBase),
      ⟨draws.capsule, initiated⟩, ?_, ?_⟩,
    Outcome.mapError_eq_ok.mp madeState, rfl⟩
  · intro side
    cases side with
    | initiator => exact startsInitiator
    | responder => exact startsResponder
  · intro side
    have starts :
        ∀ record, PqRecord.start keys.pqAuth side sessionLimits = .ok record →
          record.length < 2 ^ 64 :=
      fun _ isStart =>
        Nat.lt_of_le_of_lt (PqRecord.length_start_le isStart) (by decide)
    cases side with
    | initiator => exact starts _ startsInitiator
    | responder => exact starts _ startsResponder

/-- The two parts of the handshake face each other. -/
theorem Publishes.facing
    (publishes : parties.Publishes)
    (begins : parties.Begins beginning) :
    Handshake.Facing (parties.handshake beginning.base)
      (parties.answer beginning) where
  us := publishes.us
  base := begins.base
  identity := publishes.them
  signed := publishes.signed
  ratchet := publishes.signed
  oneTime := by
    intro pair isPair
    obtain ⟨record, isRecord, rfl⟩ := Option.map_eq_some_iff.mp isPair
    exact publishes.oneTime record isRecord
  them := publishes.identity
  theirSigned := publishes.signedKey
  theirOneTime := by
    simp [handshake, answer, publishes.oneTimeKey, Function.comp_def]
  theirRatchet := publishes.signedKey
  theirPq := publishes.pqKey
  themBack := rfl
  theirBase := rfl

omit [Hashes] in
/-- The records a first message names are those of the bundle. -/
theorem Names.responderOf_eq
    (publishes : parties.Publishes)
    (names : parties.Names beginning first) :
    responderOf parties.them first parties.offered =
      .ok (parties.answer beginning, parties.pq.id) := by
  have signedId : parties.signed.id = first.signedId := by
    rw [names.signedId, publishes.signedId]
  have pqId : parties.pq.id = parties.published.pqId := publishes.pqId.symm
  have oneTimeId := names.oneTimeId.trans publishes.oneTimeId
  have identity : (⟨first.identity⟩ : Identity) = parties.us.identity := by
    rw [names.identity]
  cases isRecord : parties.oneTime with
  | none =>
      simp [responderOf, offered, answer, isRecord, oneTimeId, names.pqId,
        names.capsule, names.base, identity, Outcome.require_of, signedId, pqId]
  | some record =>
      simp [responderOf, offered, answer, isRecord, oneTimeId, names.pqId,
        names.capsule, names.base, identity, Outcome.require_of, signedId, pqId]

/-- A new session on a first message is the one the initiator began. -/
theorem Names.newSession_eq
    (publishes : parties.Publishes)
    (commutes : Curve.Commutes)
    (begins : parties.Begins beginning)
    (names : parties.Names beginning first) :
    newSession parties.them (parties.registrationId .responder) first
        parties.offered =
      .ok (parties.answered beginning first,
        ⟨first.oneTimeId, first.signedId, parties.pq.id, first.base⟩) := by
  obtain ⟨seed, initiated⟩ := begins.initiated
  have answers :=
    (publishes.facing begins).responderSecret_eq commutes initiated
      (by rintro _ ⟨⟩; rfl)
  have limits :
      pqLimits parties.them (parties.answer beginning).them = sessionLimits :=
    pqLimits_of_ne publishes.distinct.symm
  simp only [newSession, names.responderOf_eq publishes, answers, limits,
    begins.record .responder, Outcome.mapError_ok, Outcome.ok_bind]
  rfl

end Start

end Parties

/-! ## Sessions -/

/-- Both archives, what each side has sealed, and what it has opened of the other's. -/
structure Session where
  archive : Side → Archive
  sealed : Side → List (Bytes × Sealed)
  opened : Side → List (Nat × Bytes)

namespace Session

/-- The initiator's archive after its start; the responder's is empty. -/
def init (archive : Archive) : Session where
  archive := fun side =>
    match side with
    | .initiator => archive
    | .responder => .empty
  sealed := fun _ => []
  opened := fun _ => []

/-- A side keeps a new archive. -/
def settle (session : Session) (side : Side) (archive : Archive) : Session :=
  { session with archive := Function.update session.archive side archive }

/-- Remembers what a side has sealed. -/
def logSealed
    (session : Session)
    (side : Side)
    (plain : Bytes)
    (message : Sealed) :
    Session :=
  { session with
    sealed :=
      Function.update session.sealed side
        (session.sealed side ++ [(plain, message)]) }

/-- Remembers what a side has opened, and which message it was. -/
def logOpened
    (session : Session)
    (side : Side)
    (index : Nat)
    (plain : Bytes) :
    Session :=
  { session with
    opened :=
      Function.update session.opened side
        (session.opened side ++ [(index, plain)]) }

section Fields

variable
  (session : Session)
  (side : Side)
  (archive : Archive)
  (plain : Bytes)
  (message : Sealed)
  (index : Nat)

@[simp] theorem archive_settle_self :
    (session.settle side archive).archive side = archive :=
  Function.update_self ..

@[simp] theorem archive_settle_other :
    (session.settle side archive).archive side.other =
      session.archive side.other :=
  Function.update_of_ne (Side.other_ne side) _ _

@[simp] theorem sealed_settle :
    (session.settle side archive).sealed = session.sealed :=
  rfl

@[simp] theorem opened_settle :
    (session.settle side archive).opened = session.opened :=
  rfl

@[simp] theorem archive_logSealed :
    (session.logSealed side plain message).archive = session.archive :=
  rfl

@[simp] theorem sealed_logSealed_self :
    (session.logSealed side plain message).sealed side =
      session.sealed side ++ [(plain, message)] :=
  Function.update_self ..

@[simp] theorem sealed_logSealed_other :
    (session.logSealed side plain message).sealed side.other =
      session.sealed side.other :=
  Function.update_of_ne (Side.other_ne side) _ _

@[simp] theorem opened_logSealed :
    (session.logSealed side plain message).opened = session.opened :=
  rfl

@[simp] theorem archive_logOpened :
    (session.logOpened side index plain).archive = session.archive :=
  rfl

@[simp] theorem sealed_logOpened :
    (session.logOpened side index plain).sealed = session.sealed :=
  rfl

@[simp] theorem opened_logOpened_self :
    (session.logOpened side index plain).opened side =
      session.opened side ++ [(index, plain)] :=
  Function.update_self ..

@[simp] theorem opened_logOpened_other :
    (session.logOpened side index plain).opened side.other =
      session.opened side.other :=
  Function.update_of_ne (Side.other_ne side) _ _

end Fields

/-- A message keeps its place. -/
theorem sealed_logSealed
    {session : Session}
    {side actor : Side}
    {plain : Bytes}
    {message : Sealed}
    {index : Nat}
    {letter : Bytes × Sealed}
    (place : (session.sealed side)[index]? = some letter) :
    ((session.logSealed actor plain message).sealed side)[index]? =
      some letter := by
  rcases side.eq_or_eq_other actor with rfl | rfl
  · rw [sealed_logSealed_self, List.getElem?_append_left, place]
    exact List.getElem?_eq_some_iff.mp place |>.1
  · rw [sealed_logSealed_other, place]

variable [Hashes] [Curves] [Aes] [Kem] [Capsules]

/-- One call that ends; what it derives keys and tags from is in use. -/
inductive Step
    (parties : Parties)
    (InUse : MessageInputs → Prop)
    (session : Session) :
    Session → Prop where
  | seals
      (side : Side)
      {plain : Bytes}
      {nowSecs : Nat}
      {binding : Option Binding}
      {draw : Braid.Draw}
      {message : Sealed}
      {after : Archive}
      (room : plain.length + 4096 < 2 ^ 64)
      (inUse :
        ∀ current inputs,
          (session.archive side).current = some current →
          current.sealInputs plain binding draw = some inputs →
          InUse inputs)
      (ran :
        (session.archive side).seal plain nowSecs binding draw =
          (.ok message, after)) :
      Step parties InUse session
        ((session.settle side after).logSealed side plain message)
  | sealFails
      (side : Side)
      {plain : Bytes}
      {nowSecs : Nat}
      {binding : Option Binding}
      {draw : Braid.Draw}
      {error : EngineError}
      {after : Archive}
      (room : plain.length + 4096 < 2 ^ 64)
      (ran :
        (session.archive side).seal plain nowSecs binding draw =
          (.error error, after)) :
      Step parties InUse session (session.settle side after)
  | opens
      (side : Side)
      {draws : Nat → Block 32}
      {binding : Option Binding}
      {index : Nat}
      {text : Bytes}
      {message : Sealed}
      {plain : Bytes}
      {after : Archive}
      (offered : (session.sealed side.other)[index]? = some (text, message))
      (inUse :
        ∀ inner taken current inputs,
          parties.takeIn side message (session.archive side) =
            (.ok inner, taken) →
          taken.current = some current →
          current.openInputs (draws 0) inner binding = some inputs →
          InUse inputs)
      (ran :
        parties.openSealed side draws binding message (session.archive side) =
          (.ok plain, after)) :
      Step parties InUse session
        ((session.settle side after).logOpened side index plain)
  | openFails
      (side : Side)
      {draws : Nat → Block 32}
      {binding : Option Binding}
      {index : Nat}
      {text : Bytes}
      {message : Sealed}
      {error : EngineError}
      {after : Archive}
      (offered : (session.sealed side.other)[index]? = some (text, message))
      (ran :
        parties.openSealed side draws binding message (session.archive side) =
          (.error error, after)) :
      Step parties InUse session (session.settle side after)

/--
The live states fit a slice, the messages are few, and no earlier session of
the initiator opens one of this session.
-/
structure Within (session : Session) : Prop where
  short :
    ∀ side current, (session.archive side).current = some current →
      current.pqState.length < 2 ^ 64
  few :
    (session.sealed .initiator).length + (session.sealed .responder).length <
      2 ^ 31
  apart :
    ∀ record ∈ (session.archive .initiator).previous, ∀ earlier,
      State.parse record = .ok earlier →
      ∀ letter ∈ session.sealed .responder, ∀ inner,
        Whisper.parse letter.2.bytes = .ok inner →
        ∀ draw binding plain after,
          openWithState draw inner binding earlier ≠ (.ok plain, after)

/-- The sessions that runs from a start lead to. -/
inductive Reachable
    (parties : Parties)
    (InUse : MessageInputs → Prop)
    (archive : Archive) :
    Session → Prop where
  | init
      (within : (init archive).Within) :
      Reachable parties InUse archive (init archive)
  | step
      {session next : Session}
      (before : Reachable parties InUse archive session)
      (step : session.Step parties InUse next)
      (within : next.Within) :
      Reachable parties InUse archive next

/-- Every run stays within its bounds. -/
theorem Reachable.within
    {parties : Parties}
    {InUse : MessageInputs → Prop}
    {archive : Archive}
    {session : Session}
    (reachable : Reachable parties InUse archive session) :
    session.Within := by
  cases reachable with
  | init within => exact within
  | step _ _ within => exact within

/-- Every opening returned what was sealed, and no message was opened twice. -/
structure Safe (session : Session) : Prop where
  exact :
    ∀ side, ∀ opening ∈ session.opened side, ∃ message,
      (session.sealed side.other)[opening.1]? = some (opening.2, message)
  once : ∀ side, ((session.opened side).map Prod.fst).Nodup

end Session

end Gossveil.Ratchet
