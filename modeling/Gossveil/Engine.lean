import Gossveil.Archive
import Gossveil.Call
import Gossveil.Cipher
import Gossveil.Handshake
import Gossveil.PqRecord
import Gossveil.RatchetPost

namespace Gossveil.Ratchet

/-!
# The operations over a session archive

Start from a published bundle, seal, open a ratchet message, open the first
message of a session.  Each works on the archive in place, so what it has
written by the time it fails is part of what it does.  The draws of the entropy
source are arguments.
-/

/-- An error of the session layer, or one of the post-quantum ratchet's. -/
inductive EngineError where
  | fault (fault : Fault)
  | ratchet (error : RatchetError)
  deriving DecidableEq, Repr

instance {σ : Type} : MonadLift (Outcome Fault) (Call σ EngineError) where
  monadLift outcome := Call.lift (outcome.mapError .fault)

instance {σ : Type} : MonadLift (Outcome RatchetError) (Call σ EngineError) where
  monadLift outcome := Call.lift (outcome.mapError .ratchet)

instance {σ : Type} : MonadLift (Call σ Fault) (Call σ EngineError) where
  monadLift call := call.mapError .fault

@[simp] theorem liftM_fault_apply
    {σ α : Type}
    (outcome : Outcome Fault α)
    (state : σ) :
    (liftM outcome : Call σ EngineError α) state =
      (outcome.mapError .fault, state) :=
  rfl

@[simp] theorem liftM_ratchet_apply
    {σ α : Type}
    (outcome : Outcome RatchetError α)
    (state : σ) :
    (liftM outcome : Call σ EngineError α) state =
      (outcome.mapError .ratchet, state) :=
  rfl

@[simp] theorem liftM_call_apply
    {σ α : Type}
    (call : Call σ Fault α)
    (state : σ) :
    (liftM call : Call σ EngineError α) state =
      ((call state).1.mapError .fault, (call state).2) :=
  rfl

/-- The kinds of sealed messages. -/
inductive Kind where
  | whisper
  | first
  | circle
  | plain
  deriving DecidableEq, Repr

/-- The number of a kind on the wire. -/
def Kind.code : Kind → Nat
  | .whisper => 2
  | .first => 3
  | .circle => 7
  | .plain => 8

/-- A sealed message and its kind. -/
structure Sealed where
  kind : Kind
  bytes : Bytes
  deriving DecidableEq

/-- The limits of the post-quantum stream; with oneself a jump may be any. -/
def pqLimits (us : IdentityPair) (them : Identity) : KeyStream.Limits :=
  ⟨if us.identity = them then 2 ^ 32 - 1 else maxForwardJump, maxSkippedKeys⟩

/-- The keys that a first message has used up, for the host to delete. -/
structure Consumed where
  oneTimeId : Option Nat
  signedId : Nat
  pqId : Nat
  base : Curve.Public
  deriving DecidableEq

/-- The keys the host found for a first message. -/
structure Offered where
  signed : Option Bundle.SignedRecord
  oneTime : Option Bundle.OneTimeRecord
  pq : Option Bundle.PqRecord
  deriving DecidableEq

/-- The text of a first message and what it has used up. -/
structure Opened where
  plain : Bytes
  consumed : Option Consumed
  deriving DecidableEq

variable [Hashes] [Curves]

/-! ## Opening with one state -/

/-- The receiving chain for their ratchet key, turning the ratchet when it is new. -/
def laneChain
    (theirRatchet : Curve.Public)
    (draw : Block 32) :
    Call State Fault Chain := do
  let state ← Call.get
  match state.receivingLane theirRatchet with
  | some lane => return lane.chain
  | none => do
      let ours ← state.sendingPair
      let agreement ← ours.secret.agree theirRatchet
      let receiving := Derive.turn state.root agreement
      let fresh ← Curve.Pair.fromSeed draw
      let agreement ← fresh.secret.agree theirRatchet
      let sending := Derive.turn receiving.root agreement
      Call.modify fun state => { state with root := sending.root }
      Call.modify fun state =>
        state.addReceiving theirRatchet ⟨receiving.chain, 0⟩
      let state ← Call.get
      let chain ← state.sendingChain
      Call.modify fun state =>
        { state with
          previousIndex := if 0 < chain.index then chain.index - 1 else 0 }
      Call.modify fun state => state.setSending fresh ⟨sending.chain, 0⟩
      return ⟨receiving.chain, 0⟩

/-- The loop that keeps the skipped keys, over as many as lie ahead. -/
def keepUpTo
    (theirRatchet : Curve.Public) :
    (count : Nat) →
    Chain →
    Call State Fault Chain
  | 0, chain => pure chain
  | count + 1, chain => do
      let state ← Call.get
      let kept ← state.keepSkipped theirRatchet chain.slot
      Call.set kept
      let chain ← chain.advance
      keepUpTo theirRatchet count chain

/--
The keys of an index: kept ones behind the chain, else the chain goes on to it
and keeps what it passes.
-/
def slotFor
    (theirRatchet : Curve.Public)
    (chain : Chain)
    (index : Nat) :
    Call State Fault Slot := do
  let state ← Call.get
  if index < chain.index then
    let (slot, after) ←
      Outcome.ofOption Fault.replay (state.takeSkipped theirRatchet index)
    Call.set after
    return slot
  else
    Outcome.require Fault.badMessage
      (¬ (maxForwardJump < index - chain.index ∧ ¬ state.withSelf))
    let last ← keepUpTo theirRatchet (index - chain.index) chain
    let next ← last.advance
    let state ← Call.get
    let _ ←
      (Outcome.unwrap (state.receivingLane theirRatchet) :
        Outcome Fault Lane)
    Call.set (state.changeLane theirRatchet fun lane =>
      { lane with chain := next })
    return last.slot

section Opening

variable [Aes] [Kem]

/-- Opens a message with one state, which it changes on the way. -/
def openWithState
    (draw : Block 32)
    (message : Whisper)
    (binding : Option Binding) :
    Call State Fault Bytes := do
  let state ← Call.get
  Outcome.require Fault.badMessage (state.canSend = true)
  Outcome.require Fault.unknownVersion (message.version = state.version)
  Outcome.require Fault.badMessage (message.checkBinding binding = true)
  let chain ← laneChain message.ratchet draw
  let slot ← slotFor message.ratchet chain message.index
  let state ← Call.get
  let received ←
    (PqRecord.receive state.pqState message.pqPacket).orElseFault
      Fault.badMessage
  Call.modify fun state => state.setPqState received.state
  let keys := slot.openKeys received.key
  let state ← Call.get
  Outcome.require Fault.badMessage
    (message.checkMac state.remoteKey state.localKey keys.mac = true)
  let plain ← Cipher.cbcOpen keys.cipher keys.iv message.body
  Call.modify State.clearPending
  return plain

/-! ## Opening with the archive -/

/--
The loop over the shelved records from an index on.  Each is parsed and tried
with its own draw; a record that does not parse is passed over.
-/
def openShelved
    (draws : Nat → Block 32)
    (message : Whisper)
    (binding : Option Binding)
    (archive : Archive) :
    (index : Nat) →
    List Bytes →
    Outcome Fault Bytes × Archive
  | _, [] => (.error .badMessage, archive)
  | index, bytes :: rest =>
      match State.parse bytes with
      | .trap => (.trap, archive)
      | .error _ => openShelved draws message binding archive (index + 1) rest
      | .ok candidate =>
          match openWithState (draws (index + 1)) message binding candidate with
          | (.ok plain, candidate) =>
              (.ok plain, archive.promoteShelved index candidate)
          | (.error fault, _) =>
              if fault = .replay then
                (.error fault, archive)
              else
                openShelved draws message binding archive (index + 1) rest
          | (.trap, _) => (.trap, archive)

/-- The live state is tried first, on a clone. -/
def openWithArchive
    (draws : Nat → Block 32)
    (message : Whisper)
    (binding : Option Binding) :
    Call Archive Fault Bytes :=
  fun archive =>
    match archive.current with
    | none => openShelved draws message binding archive 0 archive.previous
    | some current =>
        match openWithState (draws 0) message binding current.clone with
        | (.ok plain, candidate) =>
            (.ok plain, { archive with current := some candidate })
        | (.error fault, _) =>
            if fault = .replay then
              (.error fault, archive)
            else
              openShelved draws message binding archive 0 archive.previous
        | (.trap, _) => (.trap, archive)

/-- Opens a message of an established session. -/
def openWhisper
    (draws : Nat → Block 32)
    (message : Whisper)
    (binding : Option Binding) :
    Call Archive Fault Bytes :=
  openWithArchive draws message binding

end Opening

/-! ## Opening a first message -/

section FirstMessages

variable [Capsules]

/-- The key records the message names, in the order they are asked for. -/
def responderOf
    (us : IdentityPair)
    (first : Opener)
    (offered : Offered) :
    Outcome Fault (Handshake.Responder × Nat) := do
  let signed ← Outcome.ofOption .unknownKeyId offered.signed
  Outcome.require .unknownKeyId (signed.id = first.signedId)
  let oneTime ←
    match first.oneTimeId with
    | some id => do
        let record ← Outcome.ofOption .unknownKeyId offered.oneTime
        Outcome.require .unknownKeyId (record.id = id)
        pure (some record.pair)
    | none => pure none
  let pqId ← Outcome.ofOption .badMessage first.pqId
  let pq ← Outcome.ofOption .unknownKeyId offered.pq
  Outcome.require .unknownKeyId (pq.id = pqId)
  let capsule ← Outcome.ofOption .badMessage first.capsule
  return (⟨us, signed.pair, oneTime, signed.pair, pq.pair.secret,
    ⟨first.identity⟩, first.base, capsule⟩, pqId)

/-- The session of a first message whose base key is new. -/
def newSession
    (us : IdentityPair)
    (ourRegistrationId : Nat)
    (first : Opener)
    (offered : Offered) :
    Outcome EngineError (State × Consumed) :=
  match responderOf us first offered with
  | .trap => .trap
  | .error fault => .error (.fault fault)
  | .ok (parts, pqId) => do
      let answered ← (Handshake.responderSecret parts).mapError .fault
      let pqState ←
        (PqRecord.start answered.keys.pqAuth .responder
          (pqLimits us parts.them)).mapError .ratchet
      let state := Handshake.responderState parts answered.keys pqState
      let state :=
        { state with
          localRegistrationId := ourRegistrationId
          remoteRegistrationId := first.registrationId }
      return (state, ⟨first.oneTimeId, first.signedId, pqId, first.base⟩)

/-- `openFirst` up to the inner message: the session is revived or made. -/
def sessionFor
    (us : IdentityPair)
    (ourRegistrationId : Nat)
    (first : Opener)
    (offered : Offered) :
    Call Archive EngineError (Option Consumed) := do
  let found ←
    (Call.step fun archive : Archive =>
      archive.revive first.version first.base.serialize :
        Call Archive Fault Bool)
  if found then
    return none
  else
    let (state, consumed) ←
      Call.lift (newSession us ourRegistrationId first offered)
    Call.modify fun archive : Archive => archive.promote state
    return some consumed

/--
Opens the first message of a session, starting the session if its base key is
new.  The caller checks trust on the message's identity first.
-/
def openFirst
    [Aes] [Kem]
    (draws : Nat → Block 32)
    (us : IdentityPair)
    (ourRegistrationId : Nat)
    (first : Opener)
    (offered : Offered)
    (binding : Option Binding) :
    Call Archive EngineError Opened := do
  let consumed ← sessionFor us ourRegistrationId first offered
  let inner ← Whisper.parse first.inner
  let plain ← openWithArchive draws inner binding
  return ⟨plain, consumed⟩

/-! ## Starting -/

/-- What a start draws: the base key, the capsule, the first ratchet key. -/
structure StartDraws where
  base : Block 32
  capsule : Block 32
  sending : Block 32
  deriving DecidableEq

/-- Opens a session to the bundle's owner. -/
def start
    (draws : StartDraws)
    (us : IdentityPair)
    (ourRegistrationId : Nat)
    (published : Bundle.Published)
    (nowSecs : Nat) :
    Call Archive EngineError Unit := do
  published.check
  let base ← Curve.Pair.fromSeed draws.base
  let parts : Handshake.Initiator :=
    ⟨us, base, published.identity, published.signed, published.oneTime,
      published.signed, published.pqKey⟩
  let opened ← Handshake.initiatorSecret parts draws.capsule
  let pqState ←
    PqRecord.start opened.keys.pqAuth .initiator
      (pqLimits us published.identity)
  let state ← Handshake.initiatorState parts opened.keys pqState draws.sending
  let state :=
    state.setPending published.oneTimeId published.signedId base.publicKey
      nowSecs
  let capsule ← (Outcome.unwrap opened.capsule : Outcome Fault _)
  let state := state.setPendingCapsule published.pqId capsule.bytes
  let state :=
    { state with
      localRegistrationId := ourRegistrationId
      remoteRegistrationId := published.registrationId }
  Call.modify fun archive : Archive => archive.promote state

end FirstMessages

/-! ## Sealing -/

section Sealing

variable [Aes] [Kem]

/-- `seal` on the live state. -/
def sealWithState
    (plain : Bytes)
    (nowSecs : Nat)
    (binding : Option Binding)
    (draw : Braid.Draw) :
    Call State EngineError Sealed := do
  let state ← Call.get
  let fresh ← state.canSendAt nowSecs
  Outcome.require Fault.noSession (fresh = true)
  let chain ← state.sendingChain
  let sent ← PqRecord.send state.pqState draw
  Call.modify fun state => state.setPqState sent.state
  let keys := chain.slot.openKeys sent.key
  let state ← Call.get
  let pair ← state.sendingPair
  let body := Cipher.cbcSeal keys.cipher keys.iv plain
  let version ← (Outcome.intCast 8 state.version : Outcome Fault Nat)
  let inner ←
    Whisper.seal {
      version := version
      macKey := keys.mac
      binding := binding
      ratchet := pair.publicKey
      index := chain.index
      previousIndex := state.previousIndex
      body := body
      sender := state.localKey
      recipient := state.remoteKey
      pqPacket := sent.packet
    }
  let next ← chain.advance
  let advanced ← state.setSendingChain next
  Call.set advanced
  match advanced.pending with
  | none => return ⟨.whisper, inner.bytes⟩
  | some pending =>
      let capsule ← Outcome.ofOption Fault.badSession advanced.pendingCapsule
      let wrapped ←
        Opener.wrap {
          version := version
          registrationId := advanced.localRegistrationId
          oneTimeId := pending.oneTimeId
          signedId := pending.signedId
          pqId := capsule.pqId
          capsule := capsule.capsule
          base := pending.base
          identity := advanced.localKey
          inner := inner.bytes
        }
      return ⟨.first, wrapped.bytes⟩

/-- The live state is changed where it stands. -/
def Archive.seal
    (plain : Bytes)
    (nowSecs : Nat)
    (binding : Option Binding)
    (draw : Braid.Draw) :
    Call Archive EngineError Sealed :=
  fun archive =>
    match archive.current with
    | none => (.error (.fault .noSession), archive)
    | some current =>
        match sealWithState plain nowSecs binding draw current with
        | (result, after) => (result, { archive with current := some after })

end Sealing

end Gossveil.Ratchet
