import Gossveil.FlowKeys

namespace Gossveil.KeyStream

/-!
# A flow is a sliding window

What a receiving flow answers is what a window over the chain answers that
remembers its counter and every index it has yielded.  The held keys are those
of the indices inside the window that have not been yielded, and some older
ones that have not been trimmed yet.
-/

/-! ## Machines that answer requests -/

section Answers

variable {σ ι α : Type}

/-- The answers to some requests in order, and the state behind them. -/
def answers (step : σ → ι → α × σ) : List ι → σ → List α × σ
  | [], state => ([], state)
  | request :: requests, state =>
      let (answer, after) := step state request
      let (others, last) := answers step requests after
      (answer :: others, last)

/--
Two machines whose states stay related and that give the same answer to each
request give the same answers, as long as the second one stays where the step
lemma applies.
-/
theorem answers_eq
    {τ : Type}
    {step : σ → ι → α × σ}
    {other : τ → ι → α × τ}
    {Related : σ → τ → Prop}
    {Inside : τ → Prop}
    (each :
      ∀ {state reference request},
        Related state reference →
        Inside (other reference request).2 →
        (step state request).1 = (other reference request).1 ∧
          Related (step state request).2 (other reference request).2)
    {state : σ}
    {reference : τ}
    (requests : List ι)
    (related : Related state reference)
    (inside :
      ∀ front, front <+: requests → Inside (answers other front reference).2) :
    (answers step requests state).1 = (answers other requests reference).1 ∧
      Related (answers step requests state).2
        (answers other requests reference).2 := by
  induction requests generalizing state reference with
  | nil =>
      exact ⟨rfl, related⟩
  | cons request requests inductionHypothesis =>
      have first : Inside (other reference request).2 :=
        inside [request] ⟨requests, rfl⟩
      obtain ⟨same, after⟩ := each related first
      obtain ⟨others, last⟩ :=
        inductionHypothesis after fun front isPrefix =>
          inside (request :: front)
            ((List.prefix_cons_inj request).mpr isPrefix)
      exact ⟨congrArg₂ List.cons same others, last⟩

end Answers

/-! ## The window -/

/-- The counter of the chain and the indices that have been yielded. -/
structure Window where
  counter : Nat
  taken : Finset Nat

/-- Nothing has been asked for. -/
def Window.fresh : Window :=
  ⟨0, ∅⟩

section Flows

variable [Hashes]

/-- The key of an index ahead of the window or one it still holds. -/
def Window.keyAt
    (start : Block 32)
    (limits : Limits)
    (window : Window)
    (index : Nat) :
    Outcome RatchetError (Block 32) × Window :=
  if window.counter < index then
    if limits.jump < index - window.counter then
      (.error .keyJump, window)
    else
      (.ok (messageKey start index), ⟨index, insert index window.taken⟩)
  else if index < window.counter then
    if index + limits.skipped < window.counter then
      (.error .keyTrimmed, window)
    else if index = 0 ∨ index ∈ window.taken then
      (.error .keyAlreadyTaken, window)
    else
      (.ok (messageKey start index),
        ⟨window.counter, insert index window.taken⟩)
  else
    (.error .keyAlreadyTaken, window)

/-- One call on a flow; after an error it is as it was. -/
def Flow.request
    (limits : Limits)
    (flow : Flow)
    (index : Nat) :
    Outcome RatchetError (Block 32) × Flow :=
  match flow.keyAt index limits with
  | .ok (key, after) => (.ok key, after)
  | .error fault => (.error fault, flow)
  | .trap => (.trap, flow)

/-- A receiving flow before its first request. -/
def Flow.fresh (start : Block 32) : Flow :=
  ⟨0, some start, []⟩

/-! ## What the held keys are -/

/-- The flow holds what the window says it can still yield. -/
structure Slides
    (start : Block 32)
    (limits : Limits)
    (flow : Flow)
    (window : Window) :
    Prop where
  receives : Receives start (fun index => index ∈ window.taken) flow
  counter : flow.counter = window.counter
  complete :
    ∀ index,
      1 ≤ index →
      index ≤ flow.counter →
      flow.counter ≤ index + limits.skipped →
      index ∉ window.taken →
      (index, messageKey start index) ∈ flow.held
  bounded : flow.held.length ≤ limits.mostHeld

namespace Slides

variable {start : Block 32} {limits : Limits} {flow : Flow} {window : Window}

theorem fresh (start : Block 32) (limits : Limits) :
    Slides start limits (.fresh start) .fresh where
  receives := by
    refine ⟨rfl, ?_, ?_, ?_, ?_, ?_, ?_⟩ <;> simp [Flow.fresh, Window.fresh]
  counter := rfl
  complete := by
    intro index positive passed
    exact absurd (positive.trans passed) (by simp [Flow.fresh])
  bounded := Nat.zero_le _

/-- An index ahead moves both counters, or is too far for both. -/
theorem request_ahead
    (slides : Slides start limits flow window)
    {index : Nat}
    (ahead : window.counter < index)
    (fits : (window.keyAt start limits index).2.counter + limits.skipped < 2 ^ 32) :
    (flow.request limits index).1 = (window.keyAt start limits index).1 ∧
      Slides start limits (flow.request limits index).2
        (window.keyAt start limits index).2 := by
  have counter := slides.counter
  have flowAhead : flow.counter < index := counter ▸ ahead
  unfold Window.keyAt at fits ⊢
  rw [if_pos ahead] at fits ⊢
  by_cases far : limits.jump < index - window.counter
  · rw [if_pos far]
    have refused : flow.keyAt index limits = .error .keyJump := by
      rw [Flow.keyAt, if_pos flowAhead, if_pos (counter ▸ far)]
    rw [Flow.request, refused]
    exact ⟨rfl, slides⟩
  · rw [if_neg far] at fits ⊢
    simp only at fits
    obtain ⟨after, found, afterCounter, receives, kept, walked, few⟩ :=
      keyAt_ahead_window slides.receives flowAhead (by omega) (by omega)
        (Nat.le_of_lt fits)
    rw [Flow.request, found]
    refine ⟨rfl, ?_, afterCounter, ?_, few⟩
    · have same :
          (fun other => other ∈ window.taken ∨ other = index) =
            fun other => other ∈ insert index window.taken := by
        funext other
        rw [Finset.mem_insert, or_comm]
      rw [← same]
      exact receives
    · intro other positive passed inWindow notTaken
      simp only [Finset.mem_insert, not_or] at notTaken
      rw [afterCounter] at passed inWindow
      by_cases walkedOver : flow.counter < other
      · exact walked other walkedOver (by omega) inWindow
      · exact kept _
          (slides.complete other positive (by omega) (by omega) notTaken.2)
          inWindow

/-- A passed index comes from the held keys exactly when the window has it. -/
theorem request_passed
    (slides : Slides start limits flow window)
    {index : Nat}
    (passed : index < window.counter)
    (fits : window.counter + limits.skipped < 2 ^ 32) :
    (flow.request limits index).1 = (window.keyAt start limits index).1 ∧
      Slides start limits (flow.request limits index).2
        (window.keyAt start limits index).2 := by
  have counter := slides.counter
  have flowPassed : index < flow.counter := counter ▸ passed
  have indexFits : index + limits.skipped < 2 ^ 32 := by omega
  unfold Window.keyAt
  rw [if_neg (by omega), if_pos passed, Flow.request, Flow.keyAt,
    if_neg (by omega), if_pos flowPassed]
  by_cases left : index + limits.skipped < window.counter
  · rw [if_pos left, take_trimmed indexFits (counter ▸ left)]
    exact ⟨rfl, slides⟩
  rw [if_neg left]
  have inside : flow.counter ≤ index + limits.skipped := by omega
  by_cases gone : index = 0 ∨ index ∈ window.taken
  · rw [if_pos gone]
    have absent : ∀ entry ∈ flow.held, entry.1 ≠ index := by
      rintro entry member rfl
      rcases gone with zero | isTaken
      · have positive := slides.receives.positive entry member
        omega
      · exact slides.receives.fresh entry member isTaken
    rw [take_absent indexFits inside absent]
    exact ⟨rfl, slides⟩
  · rw [if_neg gone]
    obtain ⟨notZero, notTaken⟩ := not_or.mp gone
    have isHeld :=
      slides.complete index (Nat.pos_of_ne_zero notZero) (by omega)
        inside notTaken
    obtain ⟨key, held, takes, yields, kept, fewer⟩ :=
      take_held slides.receives flowPassed indexFits inside ⟨_, isHeld, rfl⟩
    rw [takes]
    refine ⟨congrArg Outcome.ok yields.isKey, ?_, counter, ?_,
      fewer.trans slides.bounded⟩
    · have same :
          (fun other => other ∈ window.taken ∨ other = index) =
            fun other => other ∈ insert index window.taken := by
        funext other
        rw [Finset.mem_insert, or_comm]
      rw [← same]
      exact yields.receives
    · intro other positive behind inWindow stillThere
      simp only [Finset.mem_insert, not_or] at stillThere
      exact kept _
        (slides.complete other positive behind inWindow stillThere.2)
        stillThere.1

/-- One request. -/
theorem request
    (slides : Slides start limits flow window)
    {index : Nat}
    (fits : (window.keyAt start limits index).2.counter + limits.skipped < 2 ^ 32) :
    (flow.request limits index).1 = (window.keyAt start limits index).1 ∧
      Slides start limits (flow.request limits index).2
        (window.keyAt start limits index).2 := by
  have counter := slides.counter
  rcases Nat.lt_trichotomy window.counter index with ahead | same | passed
  · exact slides.request_ahead ahead fits
  · unfold Window.keyAt
    rw [Flow.request, Flow.keyAt, if_neg (by omega), if_neg (by omega),
      if_neg (by omega), if_neg (by omega)]
    exact ⟨rfl, slides⟩
  · have stays : (window.keyAt start limits index).2.counter = window.counter := by
      unfold Window.keyAt
      rw [if_neg (by omega), if_pos passed]
      split_ifs <;> rfl
    exact slides.request_passed passed (stays ▸ fits)

end Slides

/--
A flow answers every sequence of requests as the window does, holds every key
the window still has, and never holds more than the bound.
-/
theorem keyAt_refines_window
    (start : Block 32)
    (limits : Limits)
    (requests : List Nat)
    (fits :
      ∀ front, front <+: requests →
        (answers (Window.keyAt start limits) front .fresh).2.counter +
          limits.skipped < 2 ^ 32) :
    (answers (Flow.request limits) requests (.fresh start)).1 =
        (answers (Window.keyAt start limits) requests .fresh).1 ∧
      Slides start limits
        (answers (Flow.request limits) requests (.fresh start)).2
        (answers (Window.keyAt start limits) requests .fresh).2 :=
  @answers_eq _ _ _ _ (Flow.request limits) (Window.keyAt start limits)
    (Slides start limits)
    (fun window => window.counter + limits.skipped < 2 ^ 32)
    (fun slides inside => slides.request inside)
    _ _ requests (Slides.fresh start limits) fits

end Flows

section Sample

attribute [local instance] Sample.hashes

/-- A jump, a late request, a repeated one and one too far ahead. -/
theorem keyAt_refines_window_skipped :
    (answers (Flow.request ⟨2, 1⟩) [2, 1, 2, 9] (.fresh (Block.zero 32))).1 =
        (answers (Window.keyAt (Block.zero 32) ⟨2, 1⟩) [2, 1, 2, 9]
          .fresh).1 ∧
      Slides (Block.zero 32) ⟨2, 1⟩
        (answers (Flow.request ⟨2, 1⟩) [2, 1, 2, 9] (.fresh (Block.zero 32))).2
        (answers (Window.keyAt (Block.zero 32) ⟨2, 1⟩) [2, 1, 2, 9]
          .fresh).2 := by
  apply keyAt_refines_window
  intro front isPrefix
  simp only [List.prefix_cons_iff, List.prefix_nil] at isPrefix
  rcases isPrefix with rfl | ⟨_, rfl, rfl | ⟨_, rfl, rfl | ⟨_, rfl, rfl |
    ⟨_, rfl, rfl⟩⟩⟩⟩ <;>
    simp [answers, Window.keyAt, Window.fresh, Limits.jump, Limits.skipped]

end Sample

end Gossveil.KeyStream
