import Gossveil.CodeRecord
import Gossveil.Keys

namespace Gossveil

open Codec

/-!
# The ratchet state of a session

The root key, the sending chain, the receiving chains with their skipped keys
and the pending handshake material, with the record the stores persist.  The
integers of the source are bounded here by `Fits`; a state whose record gives
it back is `Storable`.
-/

namespace Codec.Field

variable {ε : Type}

/-- `std.math.cast(u32, f.uint() orelse 0) orelse return fault`. -/
def uint32OrZero (fault : ε) (field : Field) : Outcome ε Nat :=
  Outcome.ofOption fault (Outcome.castTo 32 field.uintOrZero)

/-- A number of 32 bits reads back. -/
theorem uint32OrZero_ofUint
    (fault : ε)
    (number : Nat)
    {value : Nat}
    (small : value < 2 ^ 32) :
    (ofUint number value).uint32OrZero fault = .ok value := by
  simp [uint32OrZero, Outcome.castTo_of_lt small]

/-- What is read as 32 bits fits them. -/
theorem uint32OrZero_lt
    {fault : ε}
    {field : Field}
    {value : Nat}
    (read : field.uint32OrZero fault = .ok value) :
    value < 2 ^ 32 := by
  have found := Outcome.ofOption_eq_ok.mp read
  rcases Outcome.castTo_eq_some.mp found with ⟨small, rfl⟩
  exact small

end Codec.Field

namespace Ratchet

/-- How far ahead of its chain a message may be. -/
def maxForwardJump : Nat := 25000

/-- The skipped keys a lane holds at most. -/
def maxSkippedKeys : Nat := 2000

/-- The receiving lanes a state holds at most. -/
def maxReceivingLanes : Nat := 5

/-- How long a session that was never answered may be sent on. -/
def unacknowledgedLifetimeSecs : Nat := 30 * 24 * 60 * 60

/-- The version of a new session. -/
def currentVersion : Nat := 4

/-! ## Chains and skipped keys -/

/-- A chain key and the index of the next message. -/
structure Chain where
  key : Block 32
  index : Nat
  deriving DecidableEq

/-- The keys of the message at an index. -/
structure MessageKeys where
  cipher : Block 32
  mac : Block 32
  iv : Block 16
  index : Nat
  deriving DecidableEq

/-- A skipped key: its seed, or the derived keys of an older record. -/
inductive Slot where
  | seed (value : Block 32) (index : Nat)
  | keys (derived : MessageKeys)
  deriving DecidableEq

/-- The index of the message whose keys are kept. -/
def Slot.index : Slot → Nat
  | .seed _ index => index
  | .keys derived => derived.index

section Derivations

variable [Hashes]

/-- The chain one message on; the index is 32 bits wide. -/
def Chain.advance (chain : Chain) : Outcome Fault Chain := do
  let index ← Outcome.add 32 chain.index 1
  return ⟨Derive.chainNext chain.key, index⟩

/-- The keys of the next message, not yet expanded. -/
def Chain.slot (chain : Chain) : Slot :=
  .seed (Derive.chainSeed chain.key) chain.index

/--
The keys of a slot; a seed is expanded together with the post-quantum key.
-/
def Slot.openKeys (slot : Slot) (pqKey : Option (Block 32)) : MessageKeys :=
  match slot with
  | .seed value index =>
      let derived := Derive.messageKeys value pqKey
      ⟨derived.cipher, derived.mac, derived.iv, index⟩
  | .keys derived => derived

end Derivations

/-! ## Lanes and states -/

/-- One direction's ratchet key with its chain and skipped keys. -/
structure Lane where
  ratchet : Curve.Public
  ratchetSecret : Option Curve.Secret
  chain : Chain
  skipped : List Slot
  deriving DecidableEq

/-- What the first messages of a session repeat until an answer comes. -/
structure PendingHandshake where
  oneTimeId : Option Nat
  signedId : Nat
  base : Curve.Public
  stampSecs : Nat
  deriving DecidableEq

/-- The capsule that the first messages repeat. -/
structure PendingCapsule where
  pqId : Nat
  capsule : Bytes
  deriving DecidableEq

/-- One session as it is kept. -/
structure State where
  version : Nat
  localKey : Curve.Public
  remoteKey : Curve.Public
  root : Block 32
  previousIndex : Nat
  sending : Option Lane
  receiving : List Lane
  pending : Option PendingHandshake
  pendingCapsule : Option PendingCapsule
  remoteRegistrationId : Nat
  localRegistrationId : Nat
  base : Bytes
  pqState : Bytes
  deriving DecidableEq

/-- A copy with a list of skipped keys of its own. -/
def Lane.clone (lane : Lane) : Lane :=
  { lane with skipped := lane.skipped.map id }

@[simp] theorem Lane.clone_eq (lane : Lane) : lane.clone = lane := by
  simp [Lane.clone]

namespace State

/-- A state without lanes. -/
def init
    (version : Nat)
    (localKey remoteKey : Curve.Public)
    (root : Block 32)
    (base pqState : Bytes) :
    State where
  version := version
  localKey := localKey
  remoteKey := remoteKey
  root := root
  previousIndex := 0
  sending := none
  receiving := []
  pending := none
  pendingCapsule := none
  remoteRegistrationId := 0
  localRegistrationId := 0
  base := base
  pqState := pqState

/-- The optional parts are emptied first and then copied one by one. -/
def clone (state : State) : State :=
  let out :=
    { state with sending := none, receiving := [], pendingCapsule := none }
  { out with
    sending := state.sending.map Lane.clone
    receiving := state.receiving.map Lane.clone
    pendingCapsule :=
      state.pendingCapsule.map fun pending =>
        ⟨pending.pqId, pending.capsule⟩ }

@[simp] theorem clone_eq (state : State) : state.clone = state := by
  have lanes : Lane.clone = id := funext Lane.clone_eq
  cases state
  simp [clone, lanes]

/-- Whether both ends have one identity. -/
def withSelf (state : State) : Bool :=
  state.localKey = state.remoteKey

/-- Whether there is a lane to send on. -/
def canSend (state : State) : Bool :=
  state.sending.isSome

/-- A first message that nobody acknowledged goes stale after thirty days. -/
def canSendAt (state : State) (nowSecs : Nat) : Outcome Fault Bool :=
  if state.sending = none then
    .ok false
  else
    match state.pending with
    | some pending => do
        let stale ←
          Outcome.add 64 pending.stampSecs unacknowledgedLifetimeSecs
        return decide (¬ stale < nowSecs)
    | none => .ok true

/-- A new lane to send on, for a new pair. -/
def setSending (state : State) (pair : Curve.Pair) (chain : Chain) : State :=
  { state with
    sending := some ⟨pair.publicKey, some pair.secret, chain, []⟩ }

/-- The chain to send on. -/
def sendingChain (state : State) : Outcome Fault Chain := do
  let lane ← Outcome.ofOption .badSession state.sending
  return lane.chain

/-- `s.sending.?.chain = c`. -/
def setSendingChain (state : State) (chain : Chain) : Outcome Fault State := do
  let lane ← Outcome.unwrap state.sending
  return { state with sending := some { lane with chain := chain } }

/-- The pair of the lane to send on. -/
def sendingPair (state : State) : Outcome Fault Curve.Pair := do
  let lane ← Outcome.ofOption .badSession state.sending
  let secret ← Outcome.ofOption .badSession lane.ratchetSecret
  return ⟨lane.ratchet, secret⟩

/-- The oldest lane goes when there are more than five. -/
def addReceiving
    (state : State)
    (theirRatchet : Curve.Public)
    (chain : Chain) :
    State :=
  let lanes := state.receiving ++ [⟨theirRatchet, none, chain, []⟩]
  { state with
    receiving := if maxReceivingLanes < lanes.length then lanes.tail else lanes }

/-- The lane of one of the other end's keys. -/
def receivingLane (state : State) (theirRatchet : Curve.Public) : Option Lane :=
  state.receiving.find? fun lane => lane.ratchet = theirRatchet

/-- A write through the pointer `receivingLane` returns. -/
def changeLane
    (state : State)
    (theirRatchet : Curve.Public)
    (change : Lane → Lane) :
    State :=
  { state with
    receiving :=
      state.receiving.modify
        (state.receiving.findIdx fun lane => lane.ratchet = theirRatchet)
        change }

/-- Takes a skipped key for `index` out of the lane, if one was kept. -/
def takeSkipped
    (state : State)
    (theirRatchet : Curve.Public)
    (index : Nat) :
    Option (Slot × State) := do
  let lane ← state.receivingLane theirRatchet
  let slot ← lane.skipped.find? fun slot => slot.index = index
  return (slot, state.changeLane theirRatchet fun lane =>
    { lane with skipped := lane.skipped.eraseP fun slot => slot.index = index })

/--
Keeps the keys of a skipped message, the newest first; the oldest is dropped
when there are too many.
-/
def keepSkipped
    (state : State)
    (theirRatchet : Curve.Public)
    (slot : Slot) :
    Outcome Fault State := do
  let lane ← Outcome.ofOption .badSession (state.receivingLane theirRatchet)
  let skipped := slot :: lane.skipped
  return state.changeLane theirRatchet fun lane =>
    { lane with
      skipped :=
        if maxSkippedKeys < skipped.length then skipped.dropLast else skipped }

/-- Remembers what the first messages have to repeat. -/
def setPending
    (state : State)
    (oneTimeId : Option Nat)
    (signedId : Nat)
    (base : Curve.Public)
    (nowSecs : Nat) :
    State :=
  { state with pending := some ⟨oneTimeId, signedId, base, nowSecs⟩ }

/-- Remembers the capsule that the first messages have to repeat. -/
def setPendingCapsule
    (state : State)
    (pqId : Nat)
    (capsule : Bytes) :
    State :=
  { state with pendingCapsule := some ⟨pqId, capsule⟩ }

/-- An answer has come: nothing is repeated any more. -/
def clearPending (state : State) : State :=
  { state with pending := none, pendingCapsule := none }

/-- Replaces the record of the post-quantum ratchet. -/
def setPqState (state : State) (bytes : Bytes) : State :=
  { state with pqState := bytes }

end State

/-! ## Writing -/

/-- The record of a chain. -/
def Chain.write (chain : Chain) : Bytes :=
  Writer.uintIfSet 1 chain.index ++ Writer.bytes 2 chain.key.bytes

/-- The record of a skipped key: the seed, or the three keys made from it. -/
def Slot.write : Slot → Bytes
  | .seed value index =>
      Writer.uintIfSet 1 index ++ Writer.bytes 5 value.bytes
  | .keys derived =>
      Writer.uintIfSet 1 derived.index ++
        Writer.bytes 2 derived.cipher.bytes ++
        Writer.bytes 3 derived.mac.bytes ++ Writer.bytes 4 derived.iv.bytes

/-- `laneWriter`. -/
def Lane.write (lane : Lane) : Bytes :=
  Writer.bytes 1 lane.ratchet.serialize ++
    (match lane.ratchetSecret with
      | some secret => Writer.bytes 2 secret.serialize
      | none => []) ++
    Writer.embed 3 lane.chain.write ++
    lane.skipped.flatMap fun slot => Writer.embed 4 slot.write

/-- The record of a pending handshake. -/
def PendingHandshake.write (pending : PendingHandshake) : Bytes :=
  (match pending.oneTimeId with
    | some id => Writer.uint 1 id
    | none => []) ++
    Writer.bytes 2 pending.base.serialize ++
    Writer.uintIfSet 3 pending.signedId ++
    Writer.uintIfSet 4 pending.stampSecs

/-- The record of a pending capsule. -/
def PendingCapsule.write (pending : PendingCapsule) : Bytes :=
  Writer.uintIfSet 1 pending.pqId ++ Writer.bytesIfSet 2 pending.capsule

/-- The record of a state. -/
def State.serialize (state : State) : Bytes :=
  Writer.uintIfSet 1 state.version ++
    Writer.bytes 2 state.localKey.serialize ++
    Writer.bytes 3 state.remoteKey.serialize ++
    Writer.bytes 4 state.root.bytes ++
    Writer.uintIfSet 5 state.previousIndex ++
    (match state.sending with
      | some lane => Writer.embed 6 lane.write
      | none => []) ++
    (state.receiving.flatMap fun lane => Writer.embed 7 lane.write) ++
    (match state.pending with
      | some pending => Writer.embed 9 pending.write
      | none => []) ++
    Writer.uintIfSet 10 state.remoteRegistrationId ++
    Writer.uintIfSet 11 state.localRegistrationId ++
    Writer.bytesIfSet 13 state.base ++
    (match state.pendingCapsule with
      | some pending => Writer.embed 14 pending.write
      | none => []) ++
    Writer.bytesIfSet 15 state.pqState

/-! ## Parsing -/

/-- One turn of the loop over a chain's fields. -/
def Chain.readField (chain : Chain) (field : Field) : Outcome Fault Chain :=
  match field.number with
  | 1 => do
      let index ← field.uint32OrZero .badSession
      return { chain with index := index }
  | 2 => do
      let key ← field.block .badSession 32
      return { chain with key := key }
  | _ => .ok chain

namespace Slot

/-- The fields read so far. -/
structure Draft where
  index : Nat
  cipher : Option (Block 32)
  mac : Option (Block 32)
  iv : Option (Block 16)
  seed : Option (Block 32)

/-- What is known before the first field. -/
def Draft.empty : Draft :=
  ⟨0, none, none, none, none⟩

/-- `if (f.bytes()) |b| if (b.len == size) { … }`. -/
def blockIfWhole (size : Nat) (field : Field) : Option (Block size) :=
  field.bytes.bind (Block.ofBytes size)

/-- A key of the wrong length leaves what was read before. -/
def Draft.read (draft : Draft) (field : Field) : Outcome Fault Draft :=
  match field.number with
  | 1 => do
      let index ← field.uint32OrZero .badSession
      return { draft with index := index }
  | 2 => .ok { draft with cipher := blockIfWhole 32 field <|> draft.cipher }
  | 3 => .ok { draft with mac := blockIfWhole 32 field <|> draft.mac }
  | 4 => .ok { draft with iv := blockIfWhole 16 field <|> draft.iv }
  | 5 => .ok { draft with seed := blockIfWhole 32 field <|> draft.seed }
  | _ => .ok draft

/-- A seed wins; without one all three keys have to be there. -/
def Draft.finish (draft : Draft) : Outcome Fault Slot :=
  match draft.seed with
  | some value => .ok (.seed value draft.index)
  | none => do
      let cipher ← Outcome.ofOption .badSession draft.cipher
      let mac ← Outcome.ofOption .badSession draft.mac
      let iv ← Outcome.ofOption .badSession draft.iv
      return .keys ⟨cipher, mac, iv, draft.index⟩

/-- Reads a skipped key from its record. -/
def parse (data : Bytes) : Outcome Fault Slot := do
  let draft ← Codec.fold .badSession Draft.read data Draft.empty
  draft.finish

end Slot

namespace Lane

/-- What the fields of a lane have said so far. -/
structure Draft where
  ratchet : Option Curve.Public
  ratchetSecret : Option Curve.Secret
  chain : Chain
  skipped : List Slot

/-- What is known before the first field. -/
def Draft.empty : Draft :=
  ⟨none, none, ⟨Block.zero 32, 0⟩, []⟩

/-- A repeated chain message is read over the one before it. -/
def Draft.read (draft : Draft) (field : Field) : Outcome Fault Draft :=
  match field.number with
  | 1 => do
      let data ← field.bytesOr .badSession
      let ratchet ← Curve.Public.parse data
      return { draft with ratchet := some ratchet }
  | 2 => do
      let data ← field.bytesOr .badSession
      let secret ← Curve.Secret.parse data
      return { draft with ratchetSecret := some secret }
  | 3 => do
      let data ← field.bytesOr .badSession
      let chain ← Codec.fold .badSession Chain.readField data draft.chain
      return { draft with chain := chain }
  | 4 => do
      let data ← field.bytesOr .badSession
      let slot ← Slot.parse data
      return { draft with skipped := draft.skipped ++ [slot] }
  | _ => .ok draft

/-- A lane has a ratchet key; the secret need not be there. -/
def Draft.finish (draft : Draft) : Outcome Fault Lane := do
  let ratchet ← Outcome.ofOption .badSession draft.ratchet
  return ⟨ratchet, draft.ratchetSecret, draft.chain, draft.skipped⟩

/-- Reads a lane from its record. -/
def parse (data : Bytes) : Outcome Fault Lane := do
  let draft ← Codec.fold .badSession Draft.read data Draft.empty
  draft.finish

end Lane

namespace PendingHandshake

/-- What the fields of a pending handshake have said so far. -/
structure Draft where
  oneTimeId : Option Nat
  signedId : Nat
  base : Option Curve.Public
  stampSecs : Nat

/-- What is known before the first field. -/
def Draft.empty : Draft :=
  ⟨none, 0, none, 0⟩

/-- The signed id alone is truncated and not checked. -/
def Draft.read (draft : Draft) (field : Field) : Outcome Fault Draft :=
  match field.number with
  | 1 => do
      let id ← field.uint32OrZero .badSession
      return { draft with oneTimeId := some id }
  | 2 => do
      let data ← field.bytesOr .badSession
      let base ← Curve.Public.parse data
      return { draft with base := some base }
  | 3 => .ok { draft with signedId := field.uintOrZero % 2 ^ 32 }
  | 4 => .ok { draft with stampSecs := field.uintOrZero }
  | _ => .ok draft

/-- A pending handshake has a base key. -/
def Draft.finish (draft : Draft) : Outcome Fault PendingHandshake := do
  let base ← Outcome.ofOption .badSession draft.base
  return ⟨draft.oneTimeId, draft.signedId, base, draft.stampSecs⟩

/-- Reads a pending handshake from its record. -/
def parse (data : Bytes) : Outcome Fault PendingHandshake := do
  let draft ← Codec.fold .badSession Draft.read data Draft.empty
  draft.finish

end PendingHandshake

/-- Takes in one field of the record. -/
def PendingCapsule.readField
    (pending : PendingCapsule)
    (field : Field) :
    Outcome Fault PendingCapsule :=
  match field.number with
  | 1 => do
      let id ← field.uint32OrZero .badSession
      return { pending with pqId := id }
  | 2 => .ok { pending with capsule := field.bytes.getD [] }
  | _ => .ok pending

namespace State

/-- The two identity keys are only set at the end. -/
structure Draft where
  localKey : Option Curve.Public
  remoteKey : Option Curve.Public
  state : State

/-- The keys of `init` are undefined in the source and never read. -/
def Draft.empty : Draft :=
  ⟨none, none,
    init 0 ⟨Block.zero 32⟩ ⟨Block.zero 32⟩ (Block.zero 32) [] []⟩

/-- One turn of the parsing loop, for the fields that go into the state. -/
def readField (state : State) (field : Field) : Outcome Fault State :=
  match field.number with
  | 1 => do
      let version ← field.uint32OrZero .badSession
      return { state with version := version }
  | 4 => do
      let root ← field.block .badSession 32
      return { state with root := root }
  | 5 => do
      let index ← field.uint32OrZero .badSession
      return { state with previousIndex := index }
  | 6 => do
      let data ← field.bytesOr .badSession
      let lane ← Lane.parse data
      if lane.ratchetSecret = none then
        .error .badSession
      else
        return { state with sending := some lane }
  | 7 => do
      let data ← field.bytesOr .badSession
      let lane ← Lane.parse data
      return { state with receiving := state.receiving ++ [lane] }
  | 9 => do
      let data ← field.bytesOr .badSession
      let pending ← PendingHandshake.parse data
      return { state with pending := some pending }
  | 10 => do
      let id ← field.uint32OrZero .badSession
      return { state with remoteRegistrationId := id }
  | 11 => do
      let id ← field.uint32OrZero .badSession
      return { state with localRegistrationId := id }
  | 13 => do
      let base ← field.bytesOr .badSession
      return { state with base := base }
  | 14 => do
      let data ← field.bytesOr .badSession
      let pending ←
        Codec.fold .badSession PendingCapsule.readField data ⟨0, []⟩
      return state.setPendingCapsule pending.pqId pending.capsule
  | 15 => do
      let pqState ← field.bytesOr .badSession
      return { state with pqState := pqState }
  | _ => .ok state

/-- Takes in one field; the two identity keys are kept aside. -/
def Draft.read (draft : Draft) (field : Field) : Outcome Fault Draft :=
  match field.number with
  | 2 => do
      let data ← field.bytesOr .badSession
      let key ← Curve.Public.parse data
      return { draft with localKey := some key }
  | 3 => do
      let data ← field.bytesOr .badSession
      let key ← Curve.Public.parse data
      return { draft with remoteKey := some key }
  | _ => do
      let state ← readField draft.state field
      return { draft with state := state }

/-- A state has both identity keys. -/
def Draft.finish (draft : Draft) : Outcome Fault State := do
  let localKey ← Outcome.ofOption .badSession draft.localKey
  let remoteKey ← Outcome.ofOption .badSession draft.remoteKey
  return { draft.state with localKey := localKey, remoteKey := remoteKey }

/-- Reads a state from its record. -/
def parse (data : Bytes) : Outcome Fault State := do
  let draft ← Codec.fold .badSession Draft.read data Draft.empty
  draft.finish

end State

end Ratchet

end Gossveil
