import Mathlib.Data.List.Basic
import Mathlib.Data.List.Nodup
import Mathlib.Data.List.Range

namespace Gossveil

/-!
# Stores of skipped numbers

A counter answers requests for numbers.  A request ahead of it moves it just
past the number and keeps the numbers it jumps over, newest first; a request
behind it is answered from what was kept, once.  The oldest numbers leave when
there are more than the capacity.

Nothing here mentions the program.
-/

/-- Where a chain stands and which places behind it are kept. -/
structure SkipStore where
  next : Nat
  kept : List Nat
  deriving DecidableEq

namespace SkipStore

/-- Why a place has no key. -/
inductive Refusal where
  | gone
  | far
  deriving DecidableEq, Repr

/-- The numbers from one up to another, newest first. -/
def passed (start stop : Nat) : List Nat :=
  (List.range' start (stop - start)).reverse

/-- The store after a request that is answered, or why it is refused. -/
def request
    (far : Nat → Prop)
    [DecidablePred far]
    (capacity : Nat)
    (store : SkipStore)
    (number : Nat) :
    Except Refusal SkipStore :=
  if number < store.next then
    if number ∈ store.kept then
      .ok { store with kept := store.kept.erase number }
    else
      .error .gone
  else if far (number - store.next) then
    .error .far
  else
    .ok ⟨number + 1, (passed store.next number ++ store.kept).take capacity⟩

/-! ## Numbers that are jumped over -/

@[simp] theorem mem_passed {start stop number : Nat} :
    number ∈ passed start stop ↔ start ≤ number ∧ number < stop := by
  simp only [passed, List.mem_reverse, List.mem_range'_1]
  omega

theorem passed_of_le {start stop : Nat} (behind : stop ≤ start) :
    passed start stop = [] := by
  simp [passed, Nat.sub_eq_zero_of_le behind]

/-- The number a range starts from is its oldest one. -/
theorem passed_of_lt {start stop : Nat} (ahead : start < stop) :
    passed start stop = passed (start + 1) stop ++ [start] := by
  have longer : stop - start = stop - (start + 1) + 1 := by
    omega
  simp [passed, longer, List.range'_succ]

/-- The passed numbers are listed newest first. -/
theorem passed_decreasing (start stop : Nat) :
    (passed start stop).Pairwise (· > ·) := by
  simpa [passed, List.pairwise_reverse] using
    @List.pairwise_lt_range' start (stop - start) 1 Nat.one_pos

/-! ## Looking a number up -/

/-- A number is found exactly when it is kept. -/
theorem find?_decide_eq (number : Nat) (numbers : List Nat) :
    (number ∉ numbers ∧
        numbers.find? (fun other => other = number) = none) ∨
      number ∈ numbers ∧
        numbers.find? (fun other => other = number) = some number := by
  cases found : numbers.find? fun other => other = number with
  | none =>
      have missing := List.find?_eq_none.mp found
      exact .inl ⟨fun member => by simpa using missing number member, rfl⟩
  | some other =>
      obtain rfl : other = number := by
        simpa using List.find?_some found
      exact .inr ⟨List.mem_of_find?_eq_some found, rfl⟩

theorem erase_eq_eraseP_decide (number : Nat) (numbers : List Nat) :
    numbers.eraseP (fun other => other = number) = numbers.erase number :=
  (List.erase_eq_eraseP' number numbers).symm

/-! ## The newest entries of a decreasing list -/

section Newest

variable {capacity number : Nat} {numbers : List Nat}

/-- Keeping the newest on the way is keeping the newest at the end. -/
theorem take_append_take (front numbers : List Nat) :
    (front ++ numbers.take capacity).take capacity =
      (front ++ numbers).take capacity := by
  have shorter : min (capacity - front.length) capacity =
      capacity - front.length :=
    Nat.min_eq_left (Nat.sub_le _ _)
  simp [List.take_append, List.take_take, shorter]

/-- With fewer than `capacity` newer entries an entry is among the newest. -/
theorem mem_take_of_few_newer
    (decreasing : numbers.Pairwise (· > ·))
    (member : number ∈ numbers)
    (few : (numbers.filter (number < ·)).length < capacity) :
    number ∈ numbers.take capacity := by
  induction numbers generalizing capacity with
  | nil =>
      simp at member
  | cons first rest inductionHypothesis =>
      obtain ⟨below, decreasing⟩ := List.pairwise_cons.mp decreasing
      cases capacity with
      | zero => simp at few
      | succ capacity =>
          rcases List.mem_cons.mp member with rfl | inside
          · simp
          · have newer : number < first := below number inside
            have fewRest : (rest.filter (number < ·)).length < capacity := by
              simpa [newer] using few
            simp [inductionHypothesis decreasing inside fewRest]

/-- What is cut off is older than all of the `capacity` that stay. -/
theorem newer_of_not_mem_take
    (decreasing : numbers.Pairwise (· > ·))
    (member : number ∈ numbers)
    (cut : number ∉ numbers.take capacity) :
    (numbers.take capacity).length = capacity ∧
      ∀ other ∈ numbers.take capacity, number < other := by
  rw [← List.take_append_drop capacity numbers] at member decreasing
  have late : number ∈ numbers.drop capacity :=
    (List.mem_append.mp member).resolve_left cut
  obtain ⟨_, _, across⟩ := List.pairwise_append.mp decreasing
  constructor
  · have long : 0 < (numbers.drop capacity).length :=
      List.length_pos_of_mem late
    simp only [List.length_drop] at long
    simp only [List.length_take]
    omega
  · exact fun other stays => across other stays number late

end Newest

/-! ## What a store holds -/

/-- Newest first, all behind the counter, no more than the capacity. -/
structure Ordered (capacity : Nat) (store : SkipStore) : Prop where
  decreasing : store.kept.Pairwise (· > ·)
  behind : ∀ number ∈ store.kept, number < store.next
  bounded : store.kept.length ≤ capacity

section Requests

variable {far : Nat → Prop} [DecidablePred far] {capacity number : Nat}
variable {store after : SkipStore}

/-- A fresh store is ordered. -/
theorem ordered_fresh (capacity start : Nat) :
    Ordered capacity ⟨start, []⟩ :=
  ⟨List.Pairwise.nil, by simp, by simp⟩

/-- What an answered request does to a store. -/
theorem request_cases
    (answered : store.request far capacity number = .ok after) :
    (number < store.next ∧ number ∈ store.kept ∧
        after = { store with kept := store.kept.erase number }) ∨
      store.next ≤ number ∧ ¬ far (number - store.next) ∧
        after =
          ⟨number + 1,
            (passed store.next number ++ store.kept).take capacity⟩ := by
  unfold request at answered
  split_ifs at answered with behind held tooFar
  · obtain rfl := Except.ok.inj answered
    exact .inl ⟨behind, held, rfl⟩
  · obtain rfl := Except.ok.inj answered
    exact .inr ⟨Nat.not_lt.mp behind, tooFar, rfl⟩

/-- The numbers a request has jumped over, from where the counter stood. -/
theorem passed_filter
    (answered : store.request far capacity number = .ok after) :
    (passed store.next after.next).filter (· ≠ number) =
      passed store.next number := by
  rcases request_cases answered with ⟨behind, _, rfl⟩ | ⟨ahead, _, rfl⟩
  · simp [passed_of_le, Nat.le_of_lt behind]
  · have last :
        passed store.next (number + 1) = number :: passed store.next number := by
      have longer : number + 1 - store.next = number - store.next + 1 :=
        Nat.succ_sub ahead
      have reaches : store.next + (number - store.next) = number :=
        Nat.add_sub_of_le ahead
      simp [passed, longer, List.range'_concat, reaches]
    have others : ∀ other ∈ passed store.next number, other ≠ number :=
      fun other member => Nat.ne_of_lt (mem_passed.mp member).2
    rw [last, List.filter_cons_of_neg (by simp)]
    exact List.filter_eq_self.mpr (by simpa using others)

namespace Ordered

/-- What was kept stays in order behind what is jumped over. -/
theorem jump
    (ordered : store.Ordered capacity)
    (number : Nat) :
    (passed store.next number ++ store.kept).Pairwise (· > ·) := by
  apply List.pairwise_append.mpr
  refine ⟨passed_decreasing _ _, ordered.decreasing, ?_⟩
  intro newer isNewer older isOlder
  have ahead := (mem_passed.mp isNewer).1
  have before := ordered.behind older isOlder
  omega

/-- A request keeps a store ordered. -/
theorem request
    (ordered : store.Ordered capacity)
    (answered : store.request far capacity number = .ok after) :
    after.Ordered capacity := by
  rcases request_cases answered with ⟨_, _, rfl⟩ | ⟨ahead, _, rfl⟩
  · exact
      { decreasing := ordered.decreasing.sublist List.erase_sublist
        behind := fun other stays =>
          ordered.behind other (List.mem_of_mem_erase stays)
        bounded := List.length_erase_le.trans ordered.bounded }
  · refine ⟨(ordered.jump number).sublist (List.take_sublist _ _), ?_, ?_⟩
    · intro other stays
      rcases List.mem_append.mp (List.mem_of_mem_take stays) with new | old
      · exact Nat.lt_succ_of_lt (mem_passed.mp new).2
      · exact Nat.lt_succ_of_lt ((ordered.behind other old).trans_le ahead)
    · exact List.length_take_le _ _

/-- A number answered is not kept any more. -/
theorem not_mem_after
    (ordered : store.Ordered capacity)
    (answered : store.request far capacity number = .ok after) :
    number ∉ after.kept := by
  rcases request_cases answered with ⟨_, _, rfl⟩ | ⟨ahead, _, rfl⟩
  · have distinct : store.kept.Nodup :=
      ordered.decreasing.imp fun newer => Nat.ne_of_gt newer
    exact fun stays => (distinct.mem_erase_iff.mp stays).1 rfl
  · intro stays
    rcases List.mem_append.mp (List.mem_of_mem_take stays) with new | old
    · have := (mem_passed.mp new).2
      omega
    · have := ordered.behind number old
      omega

/-- A kept number, and one near ahead, is not refused. -/
theorem request_ne_error
    {refusal : Refusal}
    (ordered : store.Ordered capacity)
    (expected :
      number ∈ store.kept ∨
        store.next ≤ number ∧ ¬ far (number - store.next)) :
    store.request far capacity number ≠ .error refusal := by
  rcases expected with kept | ⟨ahead, near⟩
  · simp [SkipStore.request, ordered.behind number kept, kept]
  · simp [SkipStore.request, Nat.not_lt.mpr ahead, near]

/-- A number leaves unanswered only as the oldest one of a full store. -/
theorem evicted
    (ordered : store.Ordered capacity)
    (answered : store.request far capacity number = .ok after)
    {other : Nat}
    (held : other ∈ store.kept ∨ store.next ≤ other ∧ other < after.next)
    (unanswered : other ≠ number)
    (left : other ∉ after.kept) :
    after.kept.length = capacity ∧
      ∀ stays ∈ after.kept, other < stays := by
  rcases request_cases answered with ⟨_, _, rfl⟩ | ⟨ahead, _, rfl⟩
  · rcases held with held | ⟨notBehind, behind⟩
    · exact absurd ((List.mem_erase_of_ne unanswered).mpr held) left
    · exact absurd behind (Nat.not_lt.mpr notBehind)
  · have member : other ∈ passed store.next number ++ store.kept := by
      rcases held with held | ⟨notBehind, behind⟩
      · exact List.mem_append_right _ held
      · have before : other < number :=
          Nat.lt_of_le_of_ne (Nat.lt_succ_iff.mp behind) unanswered
        exact List.mem_append_left _ (mem_passed.mpr ⟨notBehind, before⟩)
    exact newer_of_not_mem_take (ordered.jump number) member left

end Ordered

end Requests

/-! ## Runs -/

/--
The numbers answered and the numbers jumped over on the way to a store, both
newest request first.  A refused request changes nothing.
-/
inductive Run
    (far : Nat → Prop)
    [DecidablePred far]
    (capacity start : Nat) :
    List Nat →
    List Nat →
    SkipStore →
    Prop where
  | fresh : Run far capacity start [] [] ⟨start, []⟩
  | answer
      {answered jumped : List Nat}
      {store after : SkipStore}
      {number : Nat}
      (before : Run far capacity start answered jumped store)
      (isAnswered : store.request far capacity number = .ok after) :
      Run far capacity start (number :: answered)
        (passed store.next number ++ jumped) after

namespace Run

variable {far : Nat → Prop} [DecidablePred far] {capacity start number : Nat}
variable {answered jumped : List Nat} {store : SkipStore}

/-- Every run leads to an ordered store. -/
theorem ordered (run : Run far capacity start answered jumped store) :
    store.Ordered capacity := by
  induction run with
  | fresh => exact ordered_fresh capacity start
  | answer _ isAnswered ordered => exact ordered.request isAnswered

/-- An answered number lies behind the counter and is not kept. -/
theorem spent
    (run : Run far capacity start answered jumped store)
    (given : number ∈ answered) :
    number < store.next ∧ number ∉ store.kept := by
  induction run with
  | fresh =>
      simp at given
  | @answer answered jumped store after last before isAnswered
      inductionHypothesis =>
      rcases List.mem_cons.mp given with rfl | earlier
      · refine ⟨?_, before.ordered.not_mem_after isAnswered⟩
        rcases request_cases isAnswered with ⟨behind, _, rfl⟩ | ⟨_, _, rfl⟩
        · exact behind
        · exact Nat.lt_succ_self number
      · obtain ⟨behind, notKept⟩ := inductionHypothesis earlier
        rcases request_cases isAnswered with
          ⟨_, _, rfl⟩ | ⟨ahead, _, rfl⟩
        · exact ⟨behind, fun stays => notKept (List.mem_of_mem_erase stays)⟩
        · refine ⟨Nat.lt_succ_of_lt (behind.trans_le ahead), fun stays => ?_⟩
          rcases List.mem_append.mp (List.mem_of_mem_take stays) with
            new | old
          · exact absurd behind (Nat.not_lt.mpr (mem_passed.mp new).1)
          · exact notKept old

/-- No number is answered twice. -/
theorem once (run : Run far capacity start answered jumped store) :
    answered.Nodup := by
  induction run with
  | fresh =>
      exact List.nodup_nil
  | @answer answered jumped store after last before isAnswered distinct =>
      refine List.nodup_cons.mpr ⟨fun again => ?_, distinct⟩
      obtain ⟨behind, notKept⟩ := before.spent again
      rcases request_cases isAnswered with ⟨_, held, _⟩ | ⟨ahead, _⟩
      · exact notKept held
      · exact absurd behind (Nat.not_lt.mpr ahead)

/-! ### Completeness -/

/-- What is kept is kept in the order in which it was jumped over. -/
theorem kept_sublist (run : Run far capacity start answered jumped store) :
    store.kept.Sublist jumped := by
  induction run with
  | fresh =>
      exact List.Sublist.refl []
  | answer _ isAnswered among =>
      rcases request_cases isAnswered with ⟨behind, _, rfl⟩ | ⟨_, _, rfl⟩
      · rw [passed_of_le (Nat.le_of_lt behind)]
        exact List.erase_sublist.trans among
      · exact (List.take_sublist _ _).trans
          ((List.Sublist.refl _).append among)

/-- The newest numbers that were jumped over and not answered are kept. -/
theorem complete
    (run : Run far capacity start answered jumped store)
    (skipped : number ∈ jumped)
    (unanswered : number ∉ answered)
    (recent : (jumped.filter (number < ·)).length < capacity) :
    number ∈ store.kept := by
  induction run with
  | fresh =>
      simp at skipped
  | @answer answered jumped store after last before isAnswered
      inductionHypothesis =>
      have unansweredBefore : number ∉ answered :=
        fun given => unanswered (List.mem_cons_of_mem _ given)
      have isOther : number ≠ last :=
        fun isLast => unanswered (isLast ▸ List.mem_cons_self)
      rcases request_cases isAnswered with ⟨behind, _, rfl⟩ | ⟨ahead, _, rfl⟩
      · rw [passed_of_le (Nat.le_of_lt behind)] at skipped recent
        exact (List.mem_erase_of_ne isOther).mpr
          (inductionHypothesis skipped unansweredBefore recent)
      · -- fewer entries are newer among the kept than among the jumped over
        have fewer :
            ((passed store.next last ++ store.kept).filter
              (number < ·)).length < capacity :=
          ((((List.Sublist.refl _).append before.kept_sublist).filter
            _).length_le).trans_lt recent
        apply mem_take_of_few_newer (before.ordered.jump last) _ fewer
        rcases List.mem_append.mp skipped with new | old
        · exact List.mem_append_left _ new
        · have recentBefore :
              (jumped.filter (number < ·)).length < capacity :=
            (((List.sublist_append_right _ _).filter
              _).length_le).trans_lt recent
          exact List.mem_append_right _
            (inductionHypothesis old unansweredBefore recentBefore)

end Run

end SkipStore

end Gossveil
