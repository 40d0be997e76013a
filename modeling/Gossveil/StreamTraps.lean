import Gossveil.KeyStream

namespace Gossveil.KeyStream

open TwoParty

/-!
# When the key stream traps

The indices and counters of the stream are added to its limits without a check.
Here is, for every operation, exactly when one of these additions (or a
subtraction, or an assertion) does not hold.
-/

namespace Flow

variable [Hashes]

/-- With a chain key, a step traps at the end of the counter's range. -/
theorem step_eq_trap
    {flow : Flow}
    {next : Block 32}
    (isNext : flow.next = some next) :
    flow.step = .trap ↔ 2 ^ 32 ≤ flow.counter + 1 := by
  rw [step, isNext, Outcome.unwrap_some, Outcome.ok_bind,
    Outcome.bind_eq_trap, Outcome.add_eq_trap]
  simp

/-- A step before the end of the range moves on by one. -/
theorem step_eq_ok
    {flow : Flow}
    {next : Block 32}
    (isNext : flow.next = some next)
    (fits : flow.counter + 1 < 2 ^ 32) :
    ∃ key following,
      flow.step =
        .ok (key,
          { flow with
            counter := flow.counter + 1
            next := some following }) := by
  rw [step, isNext, Outcome.unwrap_some, Outcome.ok_bind,
    Outcome.add_of_lt fits, Outcome.ok_bind]
  exact ⟨_, _, rfl⟩

/-- The loop of `keyAt` adds the limit to every counter it passes. -/
theorem walk_eq_trap
    {keep index turns : Nat}
    {flow : Flow}
    {next : Block 32}
    (isNext : flow.next = some next)
    (ahead : flow.counter < index)
    (indexFits : index < 2 ^ 32)
    (enough : index - flow.counter ≤ turns) :
    walk keep index turns flow = .trap ↔
      flow.counter + 1 < index ∧ 2 ^ 32 ≤ index - 1 + keep := by
  induction turns generalizing flow next with
  | zero => omega
  | succ turns inductionHypothesis =>
      rw [walk, Outcome.add_of_lt (by omega), Outcome.ok_bind]
      split_ifs with more
      · obtain ⟨key, following, steps⟩ :=
          step_eq_ok isNext (show flow.counter + 1 < 2 ^ 32 by omega)
        rw [steps, Outcome.ok_bind]
        by_cases reach : flow.counter + 1 + keep < 2 ^ 32
        · have later : ∀ held,
              walk keep index turns
                  ⟨flow.counter + 1, some following, held⟩ = .trap ↔
                flow.counter + 1 < index ∧ 2 ^ 32 ≤ index - 1 + keep := by
            intro held
            rw [@inductionHypothesis
              ⟨flow.counter + 1, some following, held⟩ following rfl more
              (Nat.sub_le_of_le_add (by simp only; omega))]
            simp only
            omega
          simp only [Outcome.add_of_lt reach, Outcome.ok_bind]
          split_ifs
          · exact later _
          · exact later _
        · refine iff_of_true ?_ ⟨more, by omega⟩
          exact Outcome.bind_eq_trap.mpr
            (Or.inl (Outcome.add_eq_trap.mpr (Nat.not_lt.mp reach)))
      · exact iff_of_false (by simp) fun ⟨less, _⟩ => more less

/-- Where the loop stops, and how many keys it holds by then. -/
structure WalkedTo (keep index : Nat) (flow walked : Flow) : Prop where
  counter : walked.counter + 1 = index
  next : ∃ following, walked.next = some following
  held :
    walked.held.length =
      flow.held.length + (index - 1 - max flow.counter (index - 1 - keep))

/-- A walk to an index in range returns. -/
theorem walk_eq_ok
    {keep index turns : Nat}
    {flow : Flow}
    {next : Block 32}
    (isNext : flow.next = some next)
    (ahead : flow.counter < index)
    (indexFits : index < 2 ^ 32)
    (fits : index - 1 + keep < 2 ^ 32)
    (enough : index - flow.counter ≤ turns) :
    ∃ walked, walk keep index turns flow = .ok walked ∧
      WalkedTo keep index flow walked := by
  induction turns generalizing flow next with
  | zero => omega
  | succ turns inductionHypothesis =>
      rw [walk, Outcome.add_of_lt (by omega), Outcome.ok_bind]
      split_ifs with more
      · obtain ⟨key, following, steps⟩ :=
          step_eq_ok isNext (show flow.counter + 1 < 2 ^ 32 by omega)
        rw [steps, Outcome.ok_bind]
        have reach : flow.counter + 1 + keep < 2 ^ 32 := by omega
        have later : ∀ held,
            ∃ walked,
              walk keep index turns
                  ⟨flow.counter + 1, some following, held⟩ = .ok walked ∧
                WalkedTo keep index
                  ⟨flow.counter + 1, some following, held⟩ walked :=
          fun held =>
            @inductionHypothesis ⟨flow.counter + 1, some following, held⟩
              following rfl more
              (Nat.sub_le_of_le_add (by simp only; omega))
        simp only [Outcome.add_of_lt reach, Outcome.ok_bind]
        split_ifs with isKept
        · obtain ⟨walked, walks, stops⟩ :=
            later (flow.held ++ [(flow.counter + 1, key)])
          refine ⟨walked, walks, stops.counter, stops.next, ?_⟩
          have length := stops.held
          simp only [List.length_append, List.length_singleton] at length
          omega
        · obtain ⟨walked, walks, stops⟩ := later flow.held
          refine ⟨walked, walks, stops.counter, stops.next, ?_⟩
          have length := stops.held
          simp only at length
          omega
      · refine ⟨flow, rfl, by omega, ⟨next, isNext⟩, ?_⟩
        omega

/--
What overruns a 32-bit integer when a flow is asked for the key of an index.
Ahead of the counter it is the reach of the last index before the wanted one,
or the horizon when that many keys are held; behind it, the reach of the index.
-/
def Overruns (flow : Flow) (index : Nat) (limits : Limits) : Prop :=
  (flow.counter < index ∧ index - flow.counter ≤ limits.jump ∧
      (2 ^ 32 ≤ index - 1 + limits.skipped ∨
        index ≤ limits.skipped ∧
          limits.trimAt ≤ flow.held.length + (index - 1 - flow.counter))) ∨
    (index < flow.counter ∧ 2 ^ 32 ≤ index + limits.skipped)

omit [Hashes] in
/-- Trimming traps exactly when the count is below the limit. -/
theorem trim_eq_trap
    {held : Held}
    {current : Nat}
    {limits : Limits} :
    held.trim current limits = .trap ↔
      limits.trimAt ≤ held.length ∧ current < limits.skipped := by
  unfold Held.trim
  split_ifs with short
  · exact iff_of_false (by simp) fun ⟨long, _⟩ => absurd short
      (Nat.not_lt.mpr long)
  · rw [Outcome.bind_eq_trap, Outcome.sub_eq_trap]
    simp [Nat.not_lt.mp short]

omit [Hashes] in
/-- Taking a key traps exactly at the end of the range. -/
theorem take_eq_trap
    {held : Held}
    {index current : Nat}
    {limits : Limits} :
    held.take index current limits = .trap ↔
      2 ^ 32 ≤ index + limits.skipped := by
  rw [Held.take, Outcome.bind_eq_trap, Outcome.add_eq_trap]
  refine or_iff_left ?_
  rintro ⟨reach, _, traps⟩
  split_ifs at traps
  simp only at traps
  split at traps <;> cases traps

/-- Walking ahead from a counter whose reach fits. -/
private theorem ahead_eq_trap
    {flow : Flow}
    {index : Nat}
    {limits : Limits}
    {next : Block 32}
    (isNext : flow.next = some next)
    (ahead : flow.counter < index)
    (indexFits : index < 2 ^ 32)
    (reach : flow.counter + limits.skipped < 2 ^ 32) :
    (do
        let walked ←
          walk limits.skipped index (index - flow.counter) flow
        let held ← walked.held.trim walked.counter limits
        step { walked with held := held }) = .trap ↔
      2 ^ 32 ≤ index - 1 + limits.skipped ∨
        (index ≤ limits.skipped ∧
          limits.trimAt ≤
            flow.held.length +
              (index - 1 -
                max flow.counter (index - 1 - limits.skipped))) := by
  by_cases fits : index - 1 + limits.skipped < 2 ^ 32
  · obtain ⟨walked, walks, stops⟩ :=
      walk_eq_ok isNext ahead indexFits fits (Nat.le_refl _)
    obtain ⟨following, isFollowing⟩ := stops.next
    have counter := stops.counter
    have stepsOn :
        ∀ held, step { walked with held := held } ≠ .trap := by
      intro held traps
      have full :=
        (@step_eq_trap _ { walked with held := held } _ isFollowing).mp
          traps
      simp only at full
      omega
    rw [walks, Outcome.ok_bind, Outcome.bind_eq_trap, trim_eq_trap,
      stops.held]
    constructor
    · rintro (⟨long, early⟩ | ⟨held, _, traps⟩)
      · exact Or.inr ⟨by omega, long⟩
      · exact absurd traps (stepsOn held)
    · rintro (overflows | ⟨early, long⟩)
      · exact absurd fits (Nat.not_lt.mpr overflows)
      · exact Or.inl ⟨long, by omega⟩
  · refine iff_of_true ?_ (Or.inl (Nat.not_lt.mp fits))
    refine Outcome.bind_eq_trap.mpr (Or.inl ?_)
    exact (walk_eq_trap isNext ahead indexFits (Nat.le_refl _)).mpr
      ⟨by omega, Nat.not_lt.mp fits⟩

/-- A flow that has a chain key traps exactly when the index overruns it. -/
theorem keyAt_eq_trap
    {flow : Flow}
    {index : Nat}
    {limits : Limits}
    (hasNext : flow.next ≠ none)
    (indexFits : index < 2 ^ 32) :
    flow.keyAt index limits = .trap ↔ flow.Overruns index limits := by
  obtain ⟨next, isNext⟩ := Option.ne_none_iff_exists'.mp hasNext
  unfold keyAt Overruns
  split_ifs with ahead farAhead behind
  · refine iff_of_false (by simp) ?_
    rintro (⟨_, near, _⟩ | ⟨behind, _⟩) <;> omega
  · simp only [ahead, Nat.not_lt.mp farAhead, true_and,
      Nat.not_lt.mpr (Nat.le_of_lt ahead), false_and, or_false]
    by_cases reach : flow.counter + limits.skipped < 2 ^ 32
    · rw [Outcome.add_of_lt reach, Outcome.ok_bind]
      split_ifs with cleared
      · have cut :=
          @ahead_eq_trap _ { flow with held := [] } index limits next isNext
            ahead indexFits reach
        simp only [List.length_nil] at cut
        have few : limits.skipped < limits.trimAt := by
          unfold Limits.trimAt
          omega
        refine cut.trans ?_
        constructor
        · rintro (overflows | ⟨early, long⟩)
          · exact Or.inl overflows
          · omega
        · rintro (overflows | ⟨early, long⟩)
          · exact Or.inl overflows
          · omega
      · refine (ahead_eq_trap isNext ahead indexFits reach).trans ?_
        refine or_congr_right (and_congr_right fun early => ?_)
        rw [Nat.max_eq_left (by omega)]
    · refine iff_of_true ?_ (Or.inl (by omega))
      exact Outcome.bind_eq_trap.mpr
        (Or.inl (Outcome.add_eq_trap.mpr (Nat.not_lt.mp reach)))
  · rw [Outcome.bind_eq_trap, take_eq_trap]
    simp [ahead, behind]
  · refine iff_of_false (by simp) ?_
    rintro (⟨isAhead, _⟩ | ⟨isBehind, _⟩)
    · exact ahead isAhead
    · exact behind isBehind

end Flow

/-! ## The stream -/

namespace Stream

section Slots

variable {stream : Stream} {epoch slot : Nat}

theorem slotOf_ne_trap : stream.slotOf epoch ≠ .trap := by
  unfold slotOf
  split_ifs <;> simp

/-- A slot lies among the epochs, and is counted from their end. -/
theorem slotOf_eq_ok_iff :
    stream.slotOf epoch = .ok slot ↔
      epoch ≤ stream.epoch ∧
        slot + (stream.epoch - epoch) + 1 = stream.epochs.length := by
  unfold slotOf
  split_ifs with ahead old
  · exact iff_of_false (by simp) fun ⟨known, _⟩ => absurd ahead
      (Nat.not_lt.mpr known)
  · refine iff_of_false (by simp) ?_
    rintro ⟨_, inside⟩
    omega
  · rw [Outcome.ok.injEq]
    omega

/-- Pruning moves a slot to where its epoch is kept. -/
theorem pruned_flows
    (inside : slot < stream.epochs.length) :
    (stream.pruned epoch slot).1.epochs[(stream.pruned epoch slot).2]? =
      stream.epochs[slot]? := by
  unfold pruned
  split_ifs with same
  · rfl
  · simp only
    have length :
        (((stream.epochs.drop (slot - epochsKeptBeforeSend)).take
            (slot - (slot - epochsKeptBeforeSend))).map
          fun (flows : Epoch) =>
            { flows with
              send := { flows.send with next := none } }).length =
          slot - (slot - epochsKeptBeforeSend) := by
      rw [List.length_map, List.length_take, List.length_drop]
      omega
    rw [List.getElem?_append_right (Nat.le_of_eq length), length,
      Nat.sub_self, List.getElem?_drop, List.getElem?_drop]
    congr 1
    omega

end Slots

variable [Hashes]

/-- The next epoch is not the one that follows, or there is none. -/
theorem nextEpoch_eq_trap
    {stream : Stream}
    {epoch : Nat}
    {secret : Bytes} :
    stream.nextEpoch epoch secret = .trap ↔
      2 ^ 64 ≤ stream.epoch + 1 ∨ epoch ≠ stream.epoch + 1 := by
  by_cases fits : stream.epoch + 1 < 2 ^ 64
  · rw [nextEpoch, Outcome.add_of_lt fits, Outcome.ok_bind,
      Outcome.bind_eq_trap, Outcome.assert_eq_trap,
      or_iff_right (Nat.not_le.mpr fits)]
    simp
  · refine iff_of_true ?_ (Or.inl (Nat.not_lt.mp fits))
    exact Outcome.bind_eq_trap.mpr
      (Or.inl (Outcome.add_eq_trap.mpr (Nat.not_lt.mp fits)))

/-- The next epoch opens. -/
theorem nextEpoch_returns
    {stream : Stream}
    {epoch : Nat}
    (secret : Bytes)
    (isNext : epoch = stream.epoch + 1)
    (fits : stream.epoch + 1 < 2 ^ 64) :
    ∃ opened, stream.nextEpoch epoch secret = .ok opened := by
  rw [nextEpoch, Outcome.add_of_lt fits, Outcome.ok_bind,
    Outcome.assert_of isNext]
  exact ⟨_, rfl⟩

/-- The flow on which an epoch is sent is at the end of its counter. -/
def SendOverruns (stream : Stream) (epoch : Nat) : Prop :=
  stream.sendEpoch ≤ epoch ∧
    ∃ slot flows,
      stream.slotOf epoch = .ok slot ∧
        stream.epochs[slot]? = some flows ∧
          flows.send.next ≠ none ∧ 2 ^ 32 ≤ flows.send.counter + 1

/-- The index overruns the flow on which its epoch is received. -/
def ReceiveOverruns (stream : Stream) (epoch index : Nat) : Prop :=
  ∃ slot flows,
    stream.slotOf epoch = .ok slot ∧
      stream.epochs[slot]? = some flows ∧
        flows.recv.next ≠ none ∧ flows.recv.Overruns index stream.limits

/-- A send traps exactly when it overruns. -/
theorem keyToSend_eq_trap
    {stream : Stream}
    {epoch : Nat} :
    stream.keyToSend epoch = .trap ↔ stream.SendOverruns epoch := by
  unfold keyToSend SendOverruns
  split_ifs with back
  · exact iff_of_false (by simp) fun ⟨known, _⟩ => absurd back
      (Nat.not_lt.mpr known)
  · rw [Outcome.bind_eq_trap, or_iff_right slotOf_ne_trap]
    simp only [Nat.not_lt.mp back, true_and]
    refine exists_congr fun slot => ?_
    rw [exists_and_left]
    refine and_congr_right fun isSlot => ?_
    have inside : slot < stream.epochs.length := by
      have fromEnd := (slotOf_eq_ok_iff.mp isSlot).2
      omega
    have found : stream.epochs[slot]? = some stream.epochs[slot] :=
      List.getElem?_eq_getElem inside
    simp only [pruned_flows inside, found, Outcome.unwrap_some,
      Outcome.ok_bind, Option.some.injEq, exists_eq_left']
    split_ifs with closed
    · exact iff_of_false (by simp) fun ⟨hasNext, _⟩ => hasNext closed
    · obtain ⟨next, isNext⟩ := Option.ne_none_iff_exists'.mp closed
      rw [Outcome.bind_eq_trap, Flow.step_eq_trap isNext]
      simp [closed]

/-- A receive traps exactly when it overruns. -/
theorem keyToReceive_eq_trap
    {stream : Stream}
    {epoch index : Nat}
    (indexFits : index < 2 ^ 32) :
    stream.keyToReceive epoch index = .trap ↔
      stream.ReceiveOverruns epoch index := by
  rw [keyToReceive, ReceiveOverruns, Outcome.bind_eq_trap,
    or_iff_right slotOf_ne_trap]
  refine exists_congr fun slot => ?_
  rw [exists_and_left]
  refine and_congr_right fun isSlot => ?_
  have inside : slot < stream.epochs.length := by
    have fromEnd := (slotOf_eq_ok_iff.mp isSlot).2
    omega
  have found : stream.epochs[slot]? = some stream.epochs[slot] :=
    List.getElem?_eq_getElem inside
  simp only [found, Outcome.unwrap_some, Outcome.ok_bind,
    Option.some.injEq, exists_eq_left']
  split_ifs with closed
  · exact iff_of_false (by simp) fun ⟨hasNext, _⟩ => hasNext closed
  · rw [Outcome.bind_eq_trap, Flow.keyAt_eq_trap closed indexFits]
    simp [closed]

/-! ## Opening an epoch -/

section Opening

variable
  {stream opened : Stream}
  {following : Nat}
  {secret : Bytes}

/-- Only the next epoch opens. -/
theorem nextEpoch_eq_ok
    (opens : stream.nextEpoch following secret = .ok opened) :
    following = stream.epoch + 1 ∧
      ∃ root fresh,
        opened =
          { stream with
            epoch := stream.epoch + 1
            nextRoot := root
            epochs := stream.epochs ++ [fresh] } := by
  rcases Outcome.bind_eq_ok.mp opens with ⟨next, isNext, rest⟩
  obtain ⟨_, rfl⟩ := Outcome.add_eq_ok.mp isNext
  rcases Outcome.bind_eq_ok.mp rest with ⟨_, asserted, ⟨⟩⟩
  have same := Outcome.assert_eq_ok.mp asserted
  subst same
  exact ⟨rfl, _, _, rfl⟩

/-- The flows of an epoch that was open before stay as they are. -/
theorem flows_nextEpoch
    (opens : stream.nextEpoch following secret = .ok opened)
    {epoch : Nat}
    (known : epoch ≤ stream.epoch)
    (Holds : Epoch → Prop) :
    (∃ slot flows,
        opened.slotOf epoch = .ok slot ∧
          opened.epochs[slot]? = some flows ∧ Holds flows) ↔
      ∃ slot flows,
        stream.slotOf epoch = .ok slot ∧
          stream.epochs[slot]? = some flows ∧ Holds flows := by
  obtain ⟨_, root, fresh, rfl⟩ := nextEpoch_eq_ok opens
  simp only [slotOf_eq_ok_iff, List.length_append, List.length_singleton]
  refine exists_congr fun slot => exists_congr fun flows => ?_
  constructor
  · rintro ⟨⟨_, fromEnd⟩, isFlows, holds⟩
    rw [List.getElem?_append_left (by omega)] at isFlows
    exact ⟨⟨known, by omega⟩, isFlows, holds⟩
  · rintro ⟨⟨_, fromEnd⟩, isFlows, holds⟩
    refine ⟨⟨Nat.le_succ_of_le known, by omega⟩, ?_, holds⟩
    rw [List.getElem?_append_left (by omega)]
    exact isFlows

/-- A new epoch overruns in no epoch before it. -/
theorem sendOverruns_nextEpoch
    (opens : stream.nextEpoch following secret = .ok opened)
    {epoch : Nat}
    (known : epoch ≤ stream.epoch) :
    opened.SendOverruns epoch ↔ stream.SendOverruns epoch := by
  have sameSend : opened.sendEpoch = stream.sendEpoch := by
    obtain ⟨_, root, fresh, rfl⟩ := nextEpoch_eq_ok opens
    rfl
  unfold SendOverruns
  rw [sameSend]
  exact and_congr_right fun _ => flows_nextEpoch opens known fun flows =>
    flows.send.next ≠ none ∧ 2 ^ 32 ≤ flows.send.counter + 1

/-- The same for what is received. -/
theorem receiveOverruns_nextEpoch
    (opens : stream.nextEpoch following secret = .ok opened)
    {epoch : Nat}
    (known : epoch ≤ stream.epoch)
    (index : Nat) :
    opened.ReceiveOverruns epoch index ↔
      stream.ReceiveOverruns epoch index := by
  have sameLimits : opened.limits = stream.limits := by
    obtain ⟨_, root, fresh, rfl⟩ := nextEpoch_eq_ok opens
    rfl
  unfold ReceiveOverruns
  rw [sameLimits]
  exact flows_nextEpoch opens known fun flows =>
    flows.recv.next ≠ none ∧ flows.recv.Overruns index stream.limits

end Opening

end Stream

end Gossveil.KeyStream
