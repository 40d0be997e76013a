import Gossveil.Outcome

namespace Gossveil.Outcome

/-!
# Calls that return

The rules for total correctness: a call returns, and what it returns satisfies
a condition.  A loop has an invariant over the number of its turns.
-/

universe u v

variable {ε : Type u} {α β σ : Type v}

/-- The call returns a value that satisfies the condition. -/
def Delivers (Holds : α → Prop) (call : Outcome ε α) : Prop :=
  ∃ value, call = .ok value ∧ Holds value

namespace Delivers

variable {Holds : α → Prop} {call : Outcome ε α}

theorem ok
    {value : α}
    (holds : Holds value) :
    Delivers Holds (.ok value : Outcome ε α) :=
  ⟨value, rfl, holds⟩

/-- Parts that deliver make a sequence that does. -/
theorem bind
    (first : Delivers Holds call)
    {Then : β → Prop}
    {next : α → Outcome ε β}
    (second : ∀ value, Holds value → Delivers Then (next value)) :
    Delivers Then (call >>= next) := by
  obtain ⟨value, rfl, holds⟩ := first
  exact second value holds

/-- What is delivered may be weakened. -/
theorem imp
    (delivers : Delivers Holds call)
    {Weaker : α → Prop}
    (weaker : ∀ value, Holds value → Weaker value) :
    Delivers Weaker call := by
  obtain ⟨value, returned, holds⟩ := delivers
  exact ⟨value, returned, weaker value holds⟩

/-- A loop over the turns keeps what every turn keeps. -/
theorem loop
    {Invariant : Nat → σ → Prop}
    {body : σ → Nat → Outcome ε σ}
    {count : Nat}
    {state : σ}
    (start : Invariant 0 state)
    (turn :
      ∀ index, index < count → ∀ state, Invariant index state →
        Delivers (Invariant (index + 1)) (body state index)) :
    Delivers (Invariant count) ((List.range count).foldlM body state) := by
  induction count with
  | zero => exact ok start
  | succ count inductionHypothesis =>
      rw [List.range_succ, List.foldlM_append]
      refine (inductionHypothesis fun index inside =>
        turn index (Nat.lt_succ_of_lt inside)).bind fun state holds => ?_
      rw [List.foldlM_cons]
      refine (turn count (Nat.lt_succ_self count) state holds).bind
        fun state holds => ?_
      exact ok holds

end Delivers

/-- The call returns a value that satisfies the condition, or the fault. -/
def ReturnsOr (fault : ε) (Holds : α → Prop) (call : Outcome ε α) : Prop :=
  call = .error fault ∨ Delivers Holds call

namespace ReturnsOr

variable {fault : ε} {Holds : α → Prop} {call : Outcome ε α}

theorem refused : ReturnsOr fault Holds (.error fault) :=
  .inl rfl

theorem ok
    {value : α}
    (holds : Holds value) :
    ReturnsOr fault Holds (.ok value) :=
  .inr (.ok holds)

/-- A sequence returns or is refused when its parts are. -/
theorem bind
    (first : ReturnsOr fault Holds call)
    {Then : β → Prop}
    {next : α → Outcome ε β}
    (second : ∀ value, Holds value → ReturnsOr fault Then (next value)) :
    ReturnsOr fault Then (call >>= next) := by
  obtain rfl | ⟨value, rfl, holds⟩ := first
  · exact refused
  · exact second value holds

/-- A required condition holds behind it, or it is refused. -/
theorem require
    {condition : Prop}
    [Decidable condition] :
    ReturnsOr fault (fun _ => condition)
      (Outcome.require fault condition : Outcome ε Unit) := by
  by_cases holds : condition
  · rw [require_of holds]
    exact ok holds
  · rw [require_not holds]
    exact refused

end ReturnsOr

/-- A loop whose turns all succeed returns their values in order. -/
theorem mapM_eq_ok
    {body : α → Outcome ε β}
    {value : α → β}
    {items : List α}
    (each : ∀ item ∈ items, body item = .ok (value item)) :
    items.mapM body = .ok (items.map value) := by
  induction items with
  | nil => rfl
  | cons item rest inductionHypothesis =>
      have first := each item List.mem_cons_self
      have others := inductionHypothesis fun other member =>
        each other (List.mem_cons_of_mem _ member)
      rw [List.mapM_cons, first, Outcome.ok_bind, others]
      rfl

end Gossveil.Outcome
