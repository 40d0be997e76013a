import Gossveil.StreamKeys
import Gossveil.StreamTraps

namespace Gossveil.KeyStream

open TwoParty

/-!
# The pace of a stream

How far the counters of a stream have come, call after call: what has been
sent is behind the sending counter, a receiving counter stands at an index
that was taken, and the epoch before the one last sent in is still there.
-/

/-- One tag is sent before another: in an earlier epoch, or earlier in it. -/
def Before (first second : Nat × Nat) : Prop :=
  first.1 < second.1 ∨ (first.1 = second.1 ∧ first.2 < second.2)

namespace Stream

/-- The flows of an epoch, if it is kept. -/
def flowsOf (stream : Stream) (epoch : Nat) : Option Epoch :=
  match stream.slotOf epoch with
  | .ok slot => stream.epochs[slot]?
  | .error _ => none
  | .trap => none

variable {stream after : Stream} {epoch slot : Nat} {flows : Epoch}

/-- An epoch's flows stand at its place. -/
theorem flowsOf_of_slot (isSlot : stream.slotOf epoch = .ok slot) :
    stream.flowsOf epoch = stream.epochs[slot]? := by
  rw [flowsOf, isSlot]

/-- An epoch has flows when it has a place and they stand there. -/
theorem flowsOf_eq_some :
    stream.flowsOf epoch = some flows ↔
      ∃ slot, stream.slotOf epoch = .ok slot ∧
        stream.epochs[slot]? = some flows := by
  cases isSlot : stream.slotOf epoch with
  | ok slot => simp [flowsOf, isSlot]
  | error fault => simp [flowsOf, isSlot]
  | trap => simp [flowsOf, isSlot]

/-- Every slot has its flows. -/
theorem slot_inside (isSlot : stream.slotOf epoch = .ok slot) :
    slot < stream.epochs.length := by
  have fromEnd := (slotOf_eq_ok_iff.mp isSlot).2
  omega

/-- An epoch with a place has flows. -/
theorem flowsOf_exists (isSlot : stream.slotOf epoch = .ok slot) :
    ∃ flows, stream.flowsOf epoch = some flows :=
  ⟨_, (flowsOf_of_slot isSlot).trans
    (List.getElem?_eq_getElem (slot_inside isSlot))⟩

/-- A changed slot changes the flows of its epoch alone. -/
theorem flowsOf_set
    (isSlot : stream.slotOf epoch = .ok slot)
    (changed : Epoch)
    (other : Nat) :
    ({ stream with epochs := stream.epochs.set slot changed }).flowsOf
        other =
      if other = epoch then some changed else stream.flowsOf other := by
  have sameSlots :
      ({ stream with epochs := stream.epochs.set slot changed }).slotOf
          other =
        stream.slotOf other := by
    simp [slotOf]
  unfold flowsOf
  rw [sameSlots]
  split_ifs with same
  · subst same
    rw [isSlot]
    exact List.getElem?_set_self (slot_inside isSlot)
  · cases otherSlot : stream.slotOf other with
    | ok place =>
        have different : slot ≠ place := by
          have one := slotOf_eq_ok_iff.mp isSlot
          have two := slotOf_eq_ok_iff.mp otherSlot
          omega
        exact List.getElem?_set_ne different
    | error fault => rfl
    | trap => rfl

/-- Pruning finds the epoch that is sent in where its slot has moved. -/
theorem slotOf_pruned (isSlot : stream.slotOf epoch = .ok slot) :
    (stream.pruned epoch slot).1.slotOf epoch =
      .ok (stream.pruned epoch slot).2 := by
  unfold pruned
  split_ifs with same
  · exact isSlot
  · obtain ⟨known, fromEnd⟩ := slotOf_eq_ok_iff.mp isSlot
    refine slotOf_eq_ok_iff.mpr ⟨known, ?_⟩
    simp only [List.length_append, List.length_map, List.length_take,
      List.length_drop]
    omega

/-- Pruning keeps what a flow has received and how far it has sent. -/
theorem flowsOf_pruned
    (isSlot : stream.slotOf epoch = .ok slot)
    {other : Nat}
    (found : (stream.pruned epoch slot).1.flowsOf other = some flows) :
    ∃ old, stream.flowsOf other = some old ∧ flows.recv = old.recv ∧
      flows.send.counter = old.send.counter := by
  unfold pruned at found
  split_ifs at found with same
  · exact ⟨flows, found, rfl, rfl⟩
  · obtain ⟨place, isPlace, isFlows⟩ := flowsOf_eq_some.mp found
    have inside := slot_inside isSlot
    generalize isDropped : slot - epochsKeptBeforeSend = dropped
      at isPlace isFlows
    have length : (stream.epochs.drop dropped).length =
        stream.epochs.length - dropped :=
      List.length_drop
    have isOther : stream.slotOf other = .ok (dropped + place) := by
      obtain ⟨known, fromEnd⟩ := slotOf_eq_ok_iff.mp isPlace
      simp only [List.length_append, List.length_map, List.length_take,
        List.length_drop] at known fromEnd
      exact slotOf_eq_ok_iff.mpr ⟨known, by omega⟩
    simp only at isFlows
    rw [List.getElem?_append] at isFlows
    split_ifs at isFlows with early
    · rw [List.getElem?_map] at isFlows
      obtain ⟨old, isOld, rfl⟩ := Option.map_eq_some_iff.mp isFlows
      rw [List.length_map, List.length_take] at early
      rw [List.getElem?_take_of_lt (by omega), List.getElem?_drop] at isOld
      exact ⟨old, flowsOf_eq_some.mpr ⟨_, isOther, isOld⟩, rfl, rfl⟩
    · simp only [List.length_map, List.length_take] at early isFlows
      rw [List.getElem?_drop, List.getElem?_drop] at isFlows
      have isPlace' :
          dropped + (slot - dropped +
            (place - min (slot - dropped) (stream.epochs.drop
              dropped).length)) = dropped + place := by
        omega
      rw [isPlace'] at isFlows
      exact ⟨flows, flowsOf_eq_some.mpr ⟨_, isOther, isFlows⟩, rfl, rfl⟩

variable [Hashes]

/-- A new epoch has unused flows; the others stay. -/
theorem flowsOf_nextEpoch
    {following : Nat}
    {secret : Bytes}
    (opens : stream.nextEpoch following secret = .ok after)
    (found : after.flowsOf epoch = some flows) :
    stream.flowsOf epoch = some flows ∨
      (flows.recv.counter = 0 ∧ flows.send.counter = 0) := by
  by_cases known : epoch ≤ stream.epoch
  · refine Or.inl ?_
    obtain ⟨slot, isSlot, isFlows⟩ := flowsOf_eq_some.mp found
    obtain ⟨slot, old, isSlot, isOld, rfl⟩ :=
      (flows_nextEpoch opens known (flows = ·)).mp
        ⟨slot, flows, isSlot, isFlows, rfl⟩
    exact flowsOf_eq_some.mpr ⟨slot, isSlot, isOld⟩
  · refine Or.inr ?_
    obtain ⟨_, _, checked⟩ := Outcome.bind_eq_ok.mp opens
    obtain ⟨_, asserted, ⟨⟩⟩ := Outcome.bind_eq_ok.mp checked
    obtain ⟨slot, isSlot, isFlows⟩ := flowsOf_eq_some.mp found
    obtain ⟨isKnown, fromEnd⟩ := slotOf_eq_ok_iff.mp isSlot
    obtain ⟨isNext, _⟩ := nextEpoch_eq_ok opens
    simp only [List.length_append, List.length_singleton] at isKnown fromEnd
    have isLast : slot = stream.epochs.length := by
      omega
    subst isLast
    simp only [List.getElem?_concat_length, Option.some.injEq] at isFlows
    subst isFlows
    exact ⟨rfl, rfl⟩

/-- What a send leaves: its flow one step on, in the pruned stream. -/
theorem keyToSend_eq_ok
    {index : Nat}
    {key : Block 32}
    (yields : stream.keyToSend epoch = .ok (index, key, after)) :
    stream.sendEpoch ≤ epoch ∧
      ∃ slot flows send,
        stream.slotOf epoch = .ok slot ∧
          (stream.pruned epoch slot).1.slotOf epoch =
            .ok (stream.pruned epoch slot).2 ∧
          (stream.pruned epoch slot).1.flowsOf epoch = some flows ∧
          send.counter = flows.send.counter + 1 ∧
          index = send.counter ∧
          after =
            { (stream.pruned epoch slot).1 with
              epochs :=
                (stream.pruned epoch slot).1.epochs.set
                  (stream.pruned epoch slot).2
                  { flows with send := send } } := by
  unfold keyToSend at yields
  split_ifs at yields with back
  obtain ⟨slot, isSlot, found⟩ := Outcome.bind_eq_ok.mp yields
  obtain ⟨flows, isFlows, sends⟩ := Outcome.bind_eq_ok.mp found
  rw [Outcome.unwrap_eq_ok] at isFlows
  split_ifs at sends
  obtain ⟨⟨key, send⟩, steps, ⟨⟩⟩ := Outcome.bind_eq_ok.mp sends
  have isPruned := slotOf_pruned isSlot
  refine ⟨Nat.not_lt.mp back, slot, flows, send, isSlot, isPruned, ?_, ?_,
    rfl, rfl⟩
  · rw [flowsOf_of_slot isPruned]
    exact isFlows
  · obtain ⟨next, _, stepped⟩ := Outcome.bind_eq_ok.mp steps
    obtain ⟨counter, added, ⟨⟩⟩ := Outcome.bind_eq_ok.mp stepped
    exact (Outcome.add_eq_ok.mp added).2.symm

end Stream

/-! ## The pace -/

/-- How far a stream has come, given what it took and what it has sent. -/
structure Pace
    (taken : Nat → Nat → Prop)
    (sent : List (Nat × Nat))
    (stream : Stream) :
    Prop where
  received :
    ∀ epoch flows, stream.flowsOf epoch = some flows →
      flows.recv.counter = 0 ∨ taken epoch flows.recv.counter
  /-- The epoch before the one last sent in is kept. -/
  kept : stream.epoch + 1 ≤ stream.epochs.length + (stream.sendEpoch - 1)
  sent :
    ∀ tag ∈ sent,
      tag.1 ≤ stream.sendEpoch ∧
        ∀ flows, stream.flowsOf tag.1 = some flows →
          tag.2 ≤ flows.send.counter

namespace Pace

variable
  {taken : Nat → Nat → Prop}
  {sent : List (Nat × Nat)}
  {stream after : Stream}
  {epoch index : Nat}

/-- An epoch from the one before the last sent in, and known, has a slot. -/
theorem slotOf
    (pace : Pace taken sent stream)
    (kept : stream.sendEpoch - 1 ≤ epoch)
    (known : epoch ≤ stream.epoch) :
    ∃ slot, stream.slotOf epoch = .ok slot := by
  have length := pace.kept
  exact ⟨stream.epochs.length - 1 - (stream.epoch - epoch),
    Stream.slotOf_eq_ok_iff.mpr ⟨known, by omega⟩⟩

variable [Hashes]

/-- A fresh stream keeps its pace. -/
theorem start
    (taken : Nat → Nat → Prop)
    (initial : Bytes)
    (side : Side)
    (limits : Limits) :
    Pace taken [] (Stream.start initial side limits) := by
  refine ⟨?_, Nat.le_refl 1, by simp⟩
  intro epoch flows found
  obtain ⟨slot, _, isFlows⟩ := Stream.flowsOf_eq_some.mp found
  obtain ⟨_, rfl⟩ := List.getElem?_eq_some_iff.mp isFlows
  simp only [Stream.start, List.getElem_singleton]
  exact Or.inl rfl

/-- Opening an epoch keeps the pace. -/
theorem nextEpoch
    (pace : Pace taken sent stream)
    {following : Nat}
    {secret : Bytes}
    (sendKnown : stream.sendEpoch ≤ stream.epoch)
    (opens : stream.nextEpoch following secret = .ok after) :
    Pace taken sent after := by
  refine ⟨?_, ?_, ?_⟩
  · intro epoch flows found
    rcases Stream.flowsOf_nextEpoch opens found with old | fresh
    · exact pace.received epoch flows old
    · exact Or.inl fresh.1
  · obtain ⟨_, root, flows, rfl⟩ := Stream.nextEpoch_eq_ok opens
    have length := pace.kept
    simp only [List.length_append, List.length_singleton]
    omega
  · intro tag member
    obtain ⟨behind, reached⟩ := pace.sent tag member
    obtain ⟨_, root, fresh, isAfter⟩ := Stream.nextEpoch_eq_ok opens
    refine ⟨by rw [isAfter]; exact behind, ?_⟩
    intro flows found
    obtain ⟨slot, isSlot, isFlows⟩ := Stream.flowsOf_eq_some.mp found
    obtain ⟨slot, old, isSlot, isOld, rfl⟩ :=
      (Stream.flows_nextEpoch opens (behind.trans sendKnown)
        (flows = ·)).mp ⟨slot, flows, isSlot, isFlows, rfl⟩
    exact reached flows (Stream.flowsOf_eq_some.mpr ⟨slot, isSlot, isOld⟩)

/-- A send is behind nothing that was sent, and keeps the pace. -/
theorem keyToSend
    (pace : Pace taken sent stream)
    {key : Block 32}
    (yields : stream.keyToSend epoch = .ok (index, key, after)) :
    (∀ tag ∈ sent, Before tag (epoch, index)) ∧
      Pace taken (sent ++ [(epoch, index)]) after := by
  obtain ⟨notBack, slot, flows, send, isSlot, isPruned, isFlows, counter,
    rfl, rfl⟩ := Stream.keyToSend_eq_ok yields
  obtain ⟨known, fromEnd⟩ := Stream.slotOf_eq_ok_iff.mp isSlot
  obtain ⟨old, isOld, _, sameCounter⟩ :=
    Stream.flowsOf_pruned isSlot isFlows
  have prunedEpoch :
      (stream.pruned epoch slot).1.sendEpoch = epoch ∧
        (stream.pruned epoch slot).1.epoch = stream.epoch := by
    unfold Stream.pruned
    split_ifs with same
    · exact ⟨same, rfl⟩
    · exact ⟨rfl, rfl⟩
  have ordered : ∀ tag ∈ sent, Before tag (epoch, send.counter) := by
    intro tag member
    obtain ⟨behind, reached⟩ := pace.sent tag member
    rcases Nat.lt_or_ge tag.1 epoch with earlier | notEarlier
    · exact Or.inl earlier
    · have same : tag.1 = epoch :=
        Nat.le_antisymm (behind.trans notBack) notEarlier
      have passed := reached old (same ▸ isOld)
      refine Or.inr ⟨same, ?_⟩
      simp only
      omega
  refine ⟨ordered, ?_, ?_, ?_⟩
  · intro other found isFound
    rw [Stream.flowsOf_set isPruned] at isFound
    split_ifs at isFound with same
    · cases isFound
      subst same
      obtain ⟨old, isOld, sameRecv, _⟩ :=
        Stream.flowsOf_pruned isSlot isFlows
      simp only [sameRecv]
      exact pace.received other old isOld
    · obtain ⟨old, isOld, sameRecv, _⟩ :=
        Stream.flowsOf_pruned isSlot isFound
      rw [sameRecv]
      exact pace.received other old isOld
  · have length := pace.kept
    simp only [List.length_set, prunedEpoch]
    unfold Stream.pruned
    split_ifs with same
    · subst same
      exact length
    · have one : epochsKeptBeforeSend = 1 := rfl
      simp only [List.length_append, List.length_map, List.length_take,
        List.length_drop]
      omega
  · intro tag member
    rcases List.mem_append.mp member with before | last
    · obtain ⟨behind, reached⟩ := pace.sent tag before
      refine ⟨(behind.trans notBack).trans_eq prunedEpoch.1.symm, ?_⟩
      intro found isFound
      rw [Stream.flowsOf_set isPruned] at isFound
      split_ifs at isFound with same
      · cases isFound
        have passed := reached old (same ▸ isOld)
        simp only
        omega
      · obtain ⟨older, isOlder, _, sameSent⟩ :=
          Stream.flowsOf_pruned isSlot isFound
        rw [sameSent]
        exact reached older isOlder
    · rw [List.mem_singleton] at last
      subst last
      refine ⟨Nat.le_of_eq prunedEpoch.1.symm, ?_⟩
      intro found isFound
      rw [Stream.flowsOf_set isPruned, if_pos rfl] at isFound
      cases isFound
      exact Nat.le_refl _

omit [Hashes] in
/-- A flow that has received up to an index keeps the pace. -/
theorem receive
    (pace : Pace taken sent stream)
    {slot : Nat}
    (isSlot : stream.slotOf epoch = .ok slot)
    {flows : Epoch}
    (isFlows : stream.flowsOf epoch = some flows)
    {recv : Flow}
    (counter : recv.counter = index) :
    Pace
      (fun other place =>
        taken other place ∨ (other = epoch ∧ place = index))
      sent
      { stream with
        epochs := stream.epochs.set slot { flows with recv := recv } } := by
  refine ⟨?_, ?_, ?_⟩
  · intro other found isFound
    rw [Stream.flowsOf_set isSlot] at isFound
    split_ifs at isFound with same
    · cases isFound
      exact Or.inr (Or.inr ⟨same, counter⟩)
    · exact (pace.received other found isFound).imp_right Or.inl
  · simp only [List.length_set]
    exact pace.kept
  · intro tag member
    obtain ⟨behind, reached⟩ := pace.sent tag member
    refine ⟨behind, ?_⟩
    intro found isFound
    rw [Stream.flowsOf_set isSlot] at isFound
    split_ifs at isFound with same
    · cases isFound
      exact reached flows (same ▸ isFlows)
    · exact reached found isFound

end Pace

/-- An index ahead of its flow, within the limits, has its key. -/
theorem Follows.keyToReceive_ahead
    [Hashes]
    {initial : Bytes}
    {side : Side}
    {limits : Limits}
    {secrets : List (Block 32)}
    {taken : Nat → Nat → Prop}
    {first : Nat}
    {stream : Stream}
    (follows : Follows initial side limits secrets taken first stream)
    {epoch index slot : Nat}
    {flows : Epoch}
    (isSlot : stream.slotOf epoch = .ok slot)
    (isFlows : stream.flowsOf epoch = some flows)
    (ahead : flows.recv.counter < index)
    (near : index - flows.recv.counter ≤ limits.jump)
    (indexFits : index < 2 ^ 32)
    (keepFits : index + limits.skipped ≤ 2 ^ 32) :
    ∃ recv, recv.counter = index ∧
      stream.keyToReceive epoch index =
        .ok (messageKey (chainIn initial secrets epoch side.other) index,
          { stream with
            epochs :=
              stream.epochs.set slot { flows with recv := recv } }) ∧
        Follows initial side limits secrets
          (fun other place =>
            taken other place ∨ (other = epoch ∧ place = index))
          first
          { stream with
            epochs :=
              stream.epochs.set slot { flows with recv := recv } } := by
  rw [Stream.flowsOf_of_slot isSlot] at isFlows
  obtain ⟨isEpoch, known⟩ := follows.slotOf_eq_ok isSlot
  have followed := follows.flows slot flows isFlows
  rw [isEpoch] at followed
  rw [← follows.sameLimits] at near keepFits
  obtain ⟨key, recv, yielded, yields⟩ :=
    keyAt_ahead followed.recv ahead near indexFits keepFits
  have counter : recv.counter = index := by
    rw [yields.counter]
    exact Nat.max_eq_right (Nat.le_of_lt ahead)
  refine ⟨recv, counter, ?_, ?_⟩
  · rw [Stream.keyToReceive, isSlot, Outcome.ok_bind, isFlows,
      Outcome.unwrap_some, Outcome.ok_bind,
      if_neg (by rw [followed.recv.onChain]; simp), yielded, yields.isKey]
    rfl
  · refine follows.set ?_ ?_ ?_
    · intro other different
      funext place
      rw [isEpoch] at different
      exact propext ⟨fun isTaken => isTaken.resolve_right fun same =>
        different same.1, Or.inl⟩
    · rw [isEpoch]
      refine ⟨?_, followed.send, followed.nothingHeld, followed.sendFits,
        ?_⟩
      · simpa using yields.receives
      · rw [counter]
        exact indexFits
    · intro place isTaken
      rw [isEpoch]
      exact known

end Gossveil.KeyStream
