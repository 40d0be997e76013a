import Gossveil.ErasureCode
import Gossveil.Keys
import Gossveil.TwoParty

namespace Gossveil

open Codec TwoParty

/-!
# The post-quantum key stream

One flow for each side and epoch yields the message keys in order; keys of
messages that were jumped over are held, within a bound.  The indices, counters
and limits are 32-bit integers, the epochs 64-bit ones.
-/

namespace KeyStream

/-- The number of a side in a record. -/
def sideCode : Side → Nat
  | .initiator => 0
  | .responder => 1

/-! ## Limits -/

/-- Zero means the compiled-in default, in the record as well. -/
structure Limits where
  maxJump : Nat
  maxSkipped : Nat
  deriving DecidableEq

namespace Limits

/-- No bound of one's own. -/
def default : Limits := ⟨0, 0⟩

/-- The forward jump when no bound is given. -/
def defaultMaxJump : Nat := 25000

/-- The skipped keys when no bound is given. -/
def defaultMaxSkipped : Nat := 2000

/-- How far ahead of a flow a message may be. -/
def jump (limits : Limits) : Nat :=
  if 0 < limits.maxJump then limits.maxJump else defaultMaxJump

/-- How many keys behind a flow are kept. -/
def skipped (limits : Limits) : Nat :=
  if 0 < limits.maxSkipped then limits.maxSkipped else defaultMaxSkipped

/-- The number of held keys at which those too old are dropped. -/
def trimAt (limits : Limits) : Nat :=
  limits.skipped * 11 / 10 + 1

/-- Both limits are 32-bit integers. -/
structure Fits (limits : Limits) : Prop where
  jump : limits.maxJump < 2 ^ 32
  skipped : limits.maxSkipped < 2 ^ 32

/-- Some keys are always kept. -/
theorem skipped_pos (limits : Limits) : 0 < limits.skipped := by
  unfold skipped
  split
  · assumption
  · decide

end Limits

/-! ## Held keys -/

/-- An index and its message key. -/
abbrev Entry := Nat × Block 32

/-- The keys of messages that have been jumped over. -/
abbrev Held := List Entry

namespace Held

/-- The bytes of a held key: its index and the key. -/
def entrySize : Nat := 4 + 32

/-- The last entry takes the place of the removed one. -/
def remove (held : Held) (place : Nat) : Held :=
  match held.getLast? with
  | some last =>
      if place + 1 < held.length then
        (held.set place last).dropLast
      else
        held.take place
  | none => []

/-- The loop of `trim`: every turn moves on or removes an entry. -/
def trimFrom (horizon : Nat) :
    (turns place : Nat) →
    Held →
    Held
  | 0, _, held => held
  | turns + 1, place, held =>
      match held[place]? with
      | none => held
      | some entry =>
          if entry.1 < horizon then
            trimFrom horizon turns place (remove held place)
          else
            trimFrom horizon turns (place + 1) held

/-- A long list loses the keys below the horizon. -/
def trim
    (held : Held)
    (current : Nat)
    (limits : Limits) :
    Outcome RatchetError Held :=
  if held.length < limits.trimAt then
    .ok held
  else do
    let horizon ← Outcome.sub current limits.skipped
    return trimFrom horizon held.length 0 held

/-- The key of an index, which leaves the list. -/
def take
    (held : Held)
    (index current : Nat)
    (limits : Limits) :
    Outcome RatchetError (Block 32 × Held) := do
  let reach ← Outcome.add 32 index limits.skipped
  if reach < current then
    .error .keyTrimmed
  else
    let place := held.findIdx fun entry => entry.1 = index
    match held[place]? with
    | none => .error .keyAlreadyTaken
    | some entry => return (entry.2, remove held place)

end Held

/-! ## Flows -/

/-- The keys of one direction in one epoch. -/
structure Flow where
  counter : Nat
  next : Option (Block 32)
  held : Held
  deriving DecidableEq

namespace Flow

variable [Hashes]

/-- The label under which a chain advances. -/
def chainLabel : Bytes :=
  ascii "Signal PQ Ratchet V1 Chain Next"

/-- The next chain key and the message key of the counter. -/
def stepKeys (next : Block 32) (counter : Nat) : Block 32 × Block 32 :=
  let out :=
    Hashes.hkdfExpand 64 (bigEndian 4 counter ++ chainLabel)
      (Hashes.hkdfExtract (Block.zero 32).bytes next.bytes)
  (out.slice 0 32 Block.first_of_two, out.slice 32 32 Block.second_of_two)

/-- `step(&f.next.?, &f.counter)`. -/
def step (flow : Flow) : Outcome RatchetError (Block 32 × Flow) := do
  let next ← Outcome.unwrap flow.next
  let counter ← Outcome.add 32 flow.counter 1
  let keys := stepKeys next counter
  return (keys.2, { flow with counter := counter, next := some keys.1 })

/-- The loop of `keyAt` up to the index before the wanted one. -/
def walk (keep index : Nat) :
    (turns : Nat) →
    Flow →
    Outcome RatchetError Flow
  | 0, flow => .ok flow
  | turns + 1, flow => do
      let following ← Outcome.add 32 flow.counter 1
      if following < index then
        let (key, flow) ← flow.step
        let reach ← Outcome.add 32 flow.counter keep
        if index ≤ reach then
          walk keep index turns
            { flow with held := flow.held ++ [(flow.counter, key)] }
        else
          walk keep index turns flow
      else
        return flow

/-- The key of an index at or behind the counter, or ahead of it. -/
def keyAt
    (flow : Flow)
    (index : Nat)
    (limits : Limits) :
    Outcome RatchetError (Block 32 × Flow) :=
  if flow.counter < index then
    if limits.jump < index - flow.counter then
      .error .keyJump
    else do
      let keep := limits.skipped
      let reach ← Outcome.add 32 flow.counter keep
      let kept : Flow :=
        if reach < index then { flow with held := [] } else flow
      let walked ← walk keep index (index - flow.counter) kept
      let held ← walked.held.trim walked.counter limits
      step { walked with held := held }
  else if index < flow.counter then do
    let (key, held) ← flow.held.take index flow.counter limits
    return (key, { flow with held := held })
  else
    .error .keyAlreadyTaken

end Flow

/-! ## Epochs -/

/-- The two flows of an epoch. -/
structure Epoch where
  send : Flow
  recv : Flow
  deriving DecidableEq

/-- The epochs a send keeps before its own. -/
def epochsKeptBeforeSend : Nat := 1

/-- The keys of both directions, epoch by epoch. -/
structure Stream where
  side : Side
  epoch : Nat
  sendEpoch : Nat
  epochs : List Epoch
  nextRoot : Block 32
  limits : Limits
  deriving DecidableEq

namespace Stream

section Steps

variable [Hashes]

/-- The label of the first epoch. -/
def startLabel : Bytes :=
  ascii "Signal PQ Ratchet V1 Chain  Start"

/-- The label of every later epoch. -/
def addEpochLabel : Bytes :=
  ascii "Signal PQ Ratchet V1 Chain Add Epoch"

/-- Ninety-six bytes: the next root and the two chains. -/
def expand (salt material info : Bytes) : Block 96 :=
  Hashes.hkdfExpand 96 info (Hashes.hkdfExtract salt material)

omit [Hashes] in
/-- The root, and the chains of the initiator and of the responder. -/
def rootOf (keys : Block 96) : Block 32 :=
  keys.slice 0 32 Block.first_of_three

omit [Hashes] in
/-- The chain on which a side sends. -/
def chainOf (keys : Block 96) : Side → Block 32
  | .initiator => keys.slice 32 32 Block.second_of_three
  | .responder => keys.slice 64 32 Block.third_of_three

omit [Hashes] in
/-- The two flows of an epoch at their start. -/
def epochFrom (keys : Block 96) (side : Side) : Epoch :=
  ⟨⟨0, some (chainOf keys side), []⟩,
    ⟨0, some (chainOf keys side.other), []⟩⟩

/-- The stream before its first key. -/
def start
    (initial : Bytes)
    (side : Side)
    (limits : Limits) :
    Stream :=
  let keys := expand (Block.zero 32).bytes initial startLabel
  { side := side
    epoch := 0
    sendEpoch := 0
    epochs := [epochFrom keys side]
    nextRoot := rootOf keys
    limits := limits }

/-- Opens the next epoch; any other one traps. -/
def nextEpoch
    (stream : Stream)
    (epoch : Nat)
    (secret : Bytes) :
    Outcome RatchetError Stream := do
  let following ← Outcome.add 64 stream.epoch 1
  Outcome.assert (epoch = following)
  let keys := expand stream.nextRoot.bytes secret addEpochLabel
  return { stream with
    epoch := epoch
    nextRoot := rootOf keys
    epochs := stream.epochs ++ [epochFrom keys stream.side] }

omit [Hashes] in
/-- Where an epoch is kept, if it is known and not yet dropped. -/
def slotOf (stream : Stream) (epoch : Nat) : Outcome RatchetError Nat :=
  if stream.epoch < epoch then
    .error .epochOutOfRange
  else if stream.epochs.length ≤ stream.epoch - epoch then
    .error .epochOutOfRange
  else
    .ok (stream.epochs.length - 1 - (stream.epoch - epoch))

omit [Hashes] in
/-- Sending in another epoch drops the old epochs and closes those before. -/
def pruned
    (stream : Stream)
    (epoch slot : Nat) :
    Stream × Nat :=
  if stream.sendEpoch = epoch then
    (stream, slot)
  else
    let dropped := slot - epochsKeptBeforeSend
    let slot := slot - dropped
    let epochs := stream.epochs.drop dropped
    let closed :=
      (epochs.take slot).map fun (flows : Epoch) =>
        { flows with send := { flows.send with next := none } }
    ({ stream with
        sendEpoch := epoch
        epochs := closed ++ epochs.drop slot }, slot)

/-- The next key to send with; epochs before it are dropped. -/
def keyToSend
    (stream : Stream)
    (epoch : Nat) :
    Outcome RatchetError (Nat × Block 32 × Stream) :=
  if epoch < stream.sendEpoch then
    .error .sendEpochWentBack
  else do
    let slot ← stream.slotOf epoch
    let (stream, slot) := stream.pruned epoch slot
    let flows ← Outcome.unwrap stream.epochs[slot]?
    if flows.send.next = none then
      .error .epochOutOfRange
    else
      let (key, send) ← flows.send.step
      return (send.counter, key,
        { stream with
          epochs := stream.epochs.set slot { flows with send := send } })

/-- The key of an index to receive with. -/
def keyToReceive
    (stream : Stream)
    (epoch index : Nat) :
    Outcome RatchetError (Block 32 × Stream) := do
  let slot ← stream.slotOf epoch
  let flows ← Outcome.unwrap stream.epochs[slot]?
  if flows.recv.next = none then
    .error .epochOutOfRange
  else
    let (key, recv) ← flows.recv.keyAt index stream.limits
    return (key,
      { stream with
        epochs := stream.epochs.set slot { flows with recv := recv } })

end Steps

end Stream

end KeyStream

end Gossveil
