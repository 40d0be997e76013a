import Gossveil.StreamPace

namespace Gossveil.KeyStream

open TwoParty

/-!
# The counters of a stream

A sending counter grows by one with a key that is sent, and a receiving counter
never passes the highest index that was asked for.
-/

/-- Every flow has sent and received at most up to some bounds. -/
def Stream.Counted (sends receives : Nat) (stream : Stream) : Prop :=
  ∀ flows ∈ stream.epochs,
    flows.send.counter ≤ sends ∧ flows.recv.counter ≤ receives

namespace Stream.Counted

variable
  {sends receives more further : Nat}
  {stream after : Stream}
  {epoch index : Nat}
  {key : Block 32}

/-- A bound may be raised. -/
theorem mono
    (counted : stream.Counted sends receives)
    (sendsMore : sends ≤ more)
    (receivesMore : receives ≤ further) :
    stream.Counted more further :=
  fun flows member =>
    ⟨(counted flows member).1.trans sendsMore,
      (counted flows member).2.trans receivesMore⟩

/-- One epoch's flows change. -/
theorem set
    (counted : stream.Counted sends receives)
    {slot : Nat}
    {changed : Epoch}
    (send : changed.send.counter ≤ sends)
    (recv : changed.recv.counter ≤ receives) :
    ({ stream with epochs := stream.epochs.set slot changed }).Counted sends
      receives := by
  intro flows member
  rcases List.mem_or_eq_of_mem_set member with old | rfl
  · exact counted flows old
  · exact ⟨send, recv⟩

/-- Pruning raises no counter. -/
theorem pruned
    (counted : stream.Counted sends receives)
    (epoch slot : Nat) :
    (stream.pruned epoch slot).1.Counted sends receives := by
  unfold Stream.pruned
  split_ifs
  · exact counted
  · intro flows member
    rcases List.mem_append.mp member with inClosed | inOpen
    · obtain ⟨old, inTaken, rfl⟩ := List.mem_map.mp inClosed
      exact counted old (List.mem_of_mem_drop (List.mem_of_mem_take inTaken))
    · exact counted flows
        (List.mem_of_mem_drop (List.mem_of_mem_drop inOpen))

variable [Hashes]

/-- A fresh stream has counted nothing. -/
theorem start
    (initial : Bytes)
    (side : Side)
    (limits : Limits) :
    (Stream.start initial side limits).Counted 0 0 := by
  intro flows member
  obtain rfl := List.mem_singleton.mp member
  exact ⟨Nat.le_refl 0, Nat.le_refl 0⟩

/-- A new epoch raises no counter. -/
theorem nextEpoch
    (counted : stream.Counted sends receives)
    {following : Nat}
    {secret : Bytes}
    (opens : stream.nextEpoch following secret = .ok after) :
    after.Counted sends receives := by
  obtain ⟨_, _, checked⟩ := Outcome.bind_eq_ok.mp opens
  obtain ⟨_, _, ⟨⟩⟩ := Outcome.bind_eq_ok.mp checked
  intro flows member
  rcases List.mem_append.mp member with old | fresh
  · exact counted flows old
  · obtain rfl := List.mem_singleton.mp fresh
    exact ⟨Nat.zero_le _, Nat.zero_le _⟩

/-- A send counts one more, and its index is within the new bound. -/
theorem keyToSend
    (counted : stream.Counted sends receives)
    (yields : stream.keyToSend epoch = .ok (index, key, after)) :
    index ≤ sends + 1 ∧ after.Counted (sends + 1) receives := by
  obtain ⟨_, slot, flows, send, _, _, isFlows, counter, rfl, rfl⟩ :=
    Stream.keyToSend_eq_ok yields
  obtain ⟨place, _, found⟩ := Stream.flowsOf_eq_some.mp isFlows
  have bounds := counted.pruned epoch slot flows (List.mem_of_getElem? found)
  have small : send.counter ≤ sends + 1 := by
    rw [counter]
    exact Nat.succ_le_succ bounds.1
  refine ⟨small, ?_⟩
  exact ((counted.pruned epoch slot).mono (Nat.le_succ _) le_rfl).set small
    bounds.2

end Stream.Counted

/-- The walk up to an index stays behind it, unless it began further on. -/
theorem Flow.counter_walk
    [Hashes]
    {keep index turns : Nat}
    {flow walked : Flow}
    (behind : flow.counter < index)
    (walks : Flow.walk keep index turns flow = .ok walked) :
    walked.counter < index := by
  induction turns generalizing flow with
  | zero =>
      cases walks
      exact behind
  | succ turns inductionHypothesis =>
      obtain ⟨following, added, rest⟩ := Outcome.bind_eq_ok.mp walks
      obtain ⟨_, rfl⟩ := Outcome.add_eq_ok.mp added
      split_ifs at rest with more
      · obtain ⟨⟨key, stepped⟩, steps, rest⟩ := Outcome.bind_eq_ok.mp rest
        obtain ⟨_, _, counts⟩ := Outcome.bind_eq_ok.mp steps
        obtain ⟨_, isCounter, ⟨⟩⟩ := Outcome.bind_eq_ok.mp counts
        obtain ⟨_, rfl⟩ := Outcome.add_eq_ok.mp isCounter
        obtain ⟨reach, _, rest⟩ := Outcome.bind_eq_ok.mp rest
        split_ifs at rest
        · exact inductionHypothesis more rest
        · exact inductionHypothesis more rest
      · cases rest
        exact behind

/-- A receive counts up to its index at most. -/
theorem Flow.counter_keyAt
    [Hashes]
    {flow after : Flow}
    {index : Nat}
    {limits : Limits}
    {key : Block 32}
    (yields : flow.keyAt index limits = .ok (key, after)) :
    after.counter ≤ max flow.counter index := by
  unfold Flow.keyAt at yields
  split_ifs at yields with ahead far passed
  · obtain ⟨reach, _, rest⟩ := Outcome.bind_eq_ok.mp yields
    obtain ⟨walked, walks, rest⟩ := Outcome.bind_eq_ok.mp rest
    obtain ⟨held, _, steps⟩ := Outcome.bind_eq_ok.mp rest
    obtain ⟨_, _, counts⟩ := Outcome.bind_eq_ok.mp steps
    obtain ⟨_, isCounter, ⟨⟩⟩ := Outcome.bind_eq_ok.mp counts
    obtain ⟨_, rfl⟩ := Outcome.add_eq_ok.mp isCounter
    have stops : walked.counter < index := by
      refine Flow.counter_walk ?_ walks
      split_ifs
      · exact ahead
      · exact ahead
    exact (Nat.succ_le_of_lt stops).trans (Nat.le_max_right _ _)
  · obtain ⟨⟨_, held⟩, _, ⟨⟩⟩ := Outcome.bind_eq_ok.mp yields
    exact Nat.le_max_left _ _

/-- Receiving at a bounded index stays within the bound. -/
theorem Stream.Counted.keyToReceive
    [Hashes]
    {sends receives epoch index : Nat}
    {stream after : Stream}
    {key : Block 32}
    (counted : stream.Counted sends receives)
    (small : index ≤ receives)
    (yields : stream.keyToReceive epoch index = .ok (key, after)) :
    after.Counted sends receives := by
  obtain ⟨slot, _, rest⟩ := Outcome.bind_eq_ok.mp yields
  obtain ⟨flows, isFlows, rest⟩ := Outcome.bind_eq_ok.mp rest
  split_ifs at rest
  obtain ⟨⟨_, recv⟩, received, ⟨⟩⟩ := Outcome.bind_eq_ok.mp rest
  have bounds :=
    counted flows (List.mem_of_getElem? (Outcome.unwrap_eq_ok.mp isFlows))
  exact counted.set bounds.1
    ((Flow.counter_keyAt received).trans (Nat.max_le.mpr ⟨bounds.2, small⟩))

end Gossveil.KeyStream
