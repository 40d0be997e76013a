import Mathlib.Tactic

namespace Gossveil

/-!
# Checked computations

A call of the modelled code ends in one of three ways: it returns a value, it
returns an error of its error set, or it reaches illegal behaviour that a
safety-checked build turns into a trap (an overflowing addition, a failing
integer cast, an assertion, an unwrapped null).  The third case is kept apart
from errors, so that totality statements can speak about it.

Nothing here mentions the program; the operations and their lemmas serve any
model of checked code.
-/

universe u v w

/-- The result of one call. -/
inductive Outcome (ε : Type u) (α : Type v) where
  | ok (value : α)
  | error (fault : ε)
  | trap
  deriving DecidableEq, Repr

namespace Outcome

variable {ε : Type u} {φ : Type u} {α : Type v} {β : Type v}

/-- Sequencing: the first error or trap ends the computation. -/
protected def bind
    (first : Outcome ε α)
    (next : α → Outcome ε β) :
    Outcome ε β :=
  match first with
  | .ok value => next value
  | .error fault => .error fault
  | .trap => .trap

instance : Monad (Outcome.{u, v} ε) where
  pure := .ok
  bind := Outcome.bind

@[simp] theorem pure_eq (value : α) :
    (pure value : Outcome ε α) = .ok value :=
  rfl

@[simp] theorem ok_bind
    (value : α)
    (next : α → Outcome ε β) :
    (Outcome.ok value : Outcome ε α) >>= next = next value :=
  rfl

@[simp] theorem error_bind
    (fault : ε)
    (next : α → Outcome ε β) :
    (Outcome.error fault : Outcome ε α) >>= next = .error fault :=
  rfl

@[simp] theorem trap_bind (next : α → Outcome ε β) :
    (Outcome.trap : Outcome ε α) >>= next = .trap :=
  rfl

@[simp] theorem map_ok
    (change : α → β)
    (value : α) :
    change <$> (Outcome.ok value : Outcome ε α) =
      .ok (change value) :=
  rfl

@[simp] theorem map_error
    (change : α → β)
    (fault : ε) :
    change <$> (Outcome.error fault : Outcome ε α) = .error fault :=
  rfl

@[simp] theorem map_trap (change : α → β) :
    change <$> (Outcome.trap : Outcome ε α) = .trap :=
  rfl

@[simp] theorem map_eq_trap
    {change : α → β}
    {first : Outcome ε α} :
    change <$> first = .trap ↔ first = .trap := by
  cases first <;> simp

/-- A mapped computation returns when the computation does. -/
theorem map_eq_ok
    {change : α → β}
    {first : Outcome ε α}
    {result : β} :
    change <$> first = .ok result ↔
      ∃ value, first = .ok value ∧ change value = result := by
  cases first <;> simp

instance : LawfulMonad (Outcome.{u, v} ε) :=
  LawfulMonad.mk' _
    (by
      intro α first
      cases first <;> rfl)
    (by
      intros
      rfl)
    (by
      intro α β γ first second third
      cases first <;> rfl)

/-- A sequence succeeds exactly when its parts do. -/
theorem bind_eq_ok
    {first : Outcome ε α}
    {next : α → Outcome ε β}
    {result : β} :
    first >>= next = .ok result ↔
      ∃ value, first = .ok value ∧ next value = .ok result := by
  cases first <;> simp

/-- A sequence traps exactly when a part that is reached traps. -/
theorem bind_eq_trap
    {first : Outcome ε α}
    {next : α → Outcome ε β} :
    first >>= next = .trap ↔
      first = .trap ∨ ∃ value, first = .ok value ∧ next value = .trap := by
  cases first <;> simp

/-- Whatever the call returns, if it returns, satisfies the condition. -/
def Returns (Holds : α → Prop) (call : Outcome ε α) : Prop :=
  ∀ value, call = .ok value → Holds value

namespace Returns

variable {Holds : α → Prop}

theorem ok
    {value : α}
    (holds : Holds value) :
    Returns Holds (.ok value : Outcome ε α) := by
  rintro _ ⟨⟩
  exact holds

theorem error (fault : ε) : Returns Holds (.error fault : Outcome ε α) := by
  rintro _ ⟨⟩

/-- A sequence returns what its second part does. -/
theorem bind
    {Holds : β → Prop}
    {first : Outcome ε α}
    {next : α → Outcome ε β}
    (each : ∀ value, first = .ok value → Returns Holds (next value)) :
    Returns Holds (first >>= next) := by
  intro result returned
  rcases bind_eq_ok.mp returned with ⟨value, isValue, rest⟩
  exact each value isValue result rest

end Returns

/-- The value of an optional, or the given error. -/
def ofOption
    (fault : ε)
    (candidate : Option α) :
    Outcome ε α :=
  match candidate with
  | some value => .ok value
  | none => .error fault

@[simp] theorem ofOption_some
    (fault : ε)
    (value : α) :
    ofOption fault (some value) = .ok value :=
  rfl

@[simp] theorem ofOption_none (fault : ε) :
    ofOption fault (none : Option α) = .error fault :=
  rfl

@[simp] theorem ofOption_ne_trap
    (fault : ε)
    (candidate : Option α) :
    ofOption fault candidate ≠ .trap := by
  cases candidate <;> simp

theorem ofOption_eq_ok
    {fault : ε}
    {candidate : Option α}
    {value : α} :
    ofOption fault candidate = .ok value ↔ candidate = some value := by
  cases candidate <;> simp

/-- Unwrapping an optional the code asserts to be present. -/
def unwrap (candidate : Option α) : Outcome ε α :=
  match candidate with
  | some value => .ok value
  | none => .trap

@[simp] theorem unwrap_some (value : α) :
    (unwrap (some value) : Outcome ε α) = .ok value :=
  rfl

@[simp] theorem unwrap_none :
    (unwrap (none : Option α) : Outcome ε α) = .trap :=
  rfl

/-- Unwrapping returns exactly what is there. -/
theorem unwrap_eq_ok
    {candidate : Option α}
    {value : α} :
    (unwrap candidate : Outcome ε α) = .ok value ↔
      candidate = some value := by
  cases candidate <;> simp

/-- An assertion of the code. -/
def assert
    (condition : Prop)
    [Decidable condition] :
    Outcome ε Unit :=
  if condition then .ok () else .trap

@[simp] theorem assert_eq_trap
    {condition : Prop}
    [Decidable condition] :
    (assert condition : Outcome ε Unit) = .trap ↔ ¬ condition := by
  simp [assert]

theorem assert_of
    {condition : Prop}
    [Decidable condition]
    (holds : condition) :
    (assert condition : Outcome ε Unit) = .ok () :=
  if_pos holds

/-- An assertion returns exactly when its condition holds. -/
theorem assert_eq_ok
    {condition : Prop}
    [Decidable condition] :
    (assert condition : Outcome ε Unit) = .ok () ↔ condition := by
  simp [assert]

/-- An error return guarded by a condition that has to hold. -/
def require
    (fault : ε)
    (condition : Prop)
    [Decidable condition] :
    Outcome ε Unit :=
  if condition then .ok () else .error fault

theorem require_of
    {fault : ε}
    {condition : Prop}
    [Decidable condition]
    (holds : condition) :
    (require fault condition : Outcome ε Unit) = .ok () :=
  if_pos holds

theorem require_not
    {fault : ε}
    {condition : Prop}
    [Decidable condition]
    (fails : ¬ condition) :
    (require fault condition : Outcome ε Unit) = .error fault :=
  if_neg fails

/-- A required condition is passed exactly when it holds. -/
theorem require_eq_ok
    {fault : ε}
    {condition : Prop}
    [Decidable condition] :
    (require fault condition : Outcome ε Unit) = .ok () ↔ condition := by
  simp [require]

@[simp] theorem require_ne_trap
    {fault : ε}
    {condition : Prop}
    [Decidable condition] :
    (require fault condition : Outcome ε Unit) ≠ .trap := by
  unfold require
  split <;> simp

/-- `catch return fault`: every error becomes the given one, a trap stays. -/
def orElseFault
    (fault : φ)
    (first : Outcome ε α) :
    Outcome φ α :=
  match first with
  | .ok value => .ok value
  | .error _ => .error fault
  | .trap => .trap

@[simp] theorem orElseFault_ok
    (fault : φ)
    (value : α) :
    orElseFault fault (.ok value : Outcome ε α) = .ok value :=
  rfl

@[simp] theorem orElseFault_eq_trap
    {fault : φ}
    {first : Outcome ε α} :
    orElseFault fault first = .trap ↔ first = .trap := by
  cases first <;> simp [orElseFault]

theorem orElseFault_eq_ok
    {fault : φ}
    {first : Outcome ε α}
    {value : α} :
    orElseFault fault first = .ok value ↔ first = .ok value := by
  cases first <;> simp [orElseFault]

/-- The same outcome under another type of errors. -/
def mapError
    (change : ε → φ)
    (first : Outcome ε α) :
    Outcome φ α :=
  match first with
  | .ok value => .ok value
  | .error fault => .error (change fault)
  | .trap => .trap

@[simp] theorem mapError_ok
    (change : ε → φ)
    (value : α) :
    (.ok value : Outcome ε α).mapError change = .ok value :=
  rfl

@[simp] theorem mapError_error
    (change : ε → φ)
    (fault : ε) :
    (.error fault : Outcome ε α).mapError change = .error (change fault) :=
  rfl

@[simp] theorem mapError_trap (change : ε → φ) :
    (.trap : Outcome ε α).mapError change = .trap :=
  rfl

/-- Changing the errors changes no result. -/
theorem mapError_eq_ok
    {change : ε → φ}
    {first : Outcome ε α}
    {value : α} :
    first.mapError change = .ok value ↔ first = .ok value := by
  cases first <;> simp

@[simp] theorem mapError_eq_trap
    {change : ε → φ}
    {first : Outcome ε α} :
    first.mapError change = .trap ↔ first = .trap := by
  cases first <;> simp

/-- `a + b` in an unsigned type of `width` bits. -/
def add
    (width first second : Nat) :
    Outcome ε Nat :=
  if first + second < 2 ^ width then .ok (first + second) else .trap

/-- A sum that fits does not trap. -/
theorem add_of_lt
    {width first second : Nat}
    (fits : first + second < 2 ^ width) :
    (add width first second : Outcome ε Nat) = .ok (first + second) :=
  if_pos fits

@[simp] theorem add_eq_trap
    {width first second : Nat} :
    (add width first second : Outcome ε Nat) = .trap ↔
      2 ^ width ≤ first + second := by
  simp [add]

@[simp] theorem add_eq_ok
    {width first second result : Nat} :
    (add width first second : Outcome ε Nat) = .ok result ↔
      first + second < 2 ^ width ∧ first + second = result := by
  by_cases fits : first + second < 2 ^ width <;> simp [add, fits]

@[simp] theorem add_ne_error
    {width first second : Nat}
    {fault : ε} :
    (add width first second : Outcome ε Nat) ≠ .error fault := by
  unfold add
  split <;> simp

/-- `a - b` in an unsigned type. -/
def sub (first second : Nat) : Outcome ε Nat :=
  if second ≤ first then .ok (first - second) else .trap

/-- A difference that is not negative does not trap. -/
theorem sub_of_le
    {first second : Nat}
    (ordered : second ≤ first) :
    (sub first second : Outcome ε Nat) = .ok (first - second) :=
  if_pos ordered

@[simp] theorem sub_eq_trap
    {first second : Nat} :
    (sub first second : Outcome ε Nat) = .trap ↔ first < second := by
  simp [sub]

@[simp] theorem sub_eq_ok
    {first second result : Nat} :
    (sub first second : Outcome ε Nat) = .ok result ↔
      second ≤ first ∧ first - second = result := by
  by_cases ordered : second ≤ first <;> simp [sub, ordered]

@[simp] theorem sub_ne_error
    {first second : Nat}
    {fault : ε} :
    (sub first second : Outcome ε Nat) ≠ .error fault := by
  unfold sub
  split <;> simp

/-- `@intCast` to an unsigned type of `width` bits. -/
def intCast (width value : Nat) : Outcome ε Nat :=
  if value < 2 ^ width then .ok value else .trap

theorem intCast_of_lt
    {width value : Nat}
    (fits : value < 2 ^ width) :
    (intCast width value : Outcome ε Nat) = .ok value :=
  if_pos fits

@[simp] theorem intCast_eq_trap
    {width value : Nat} :
    (intCast width value : Outcome ε Nat) = .trap ↔ 2 ^ width ≤ value := by
  simp [intCast]

@[simp] theorem intCast_eq_ok
    {width value result : Nat} :
    (intCast width value : Outcome ε Nat) = .ok result ↔
      value < 2 ^ width ∧ value = result := by
  by_cases fits : value < 2 ^ width <;> simp [intCast, fits]

/-- `std.math.cast`: the value when it fits `width` bits, else null. -/
def castTo (width value : Nat) : Option Nat :=
  if value < 2 ^ width then some value else none

theorem castTo_of_lt
    {width value : Nat}
    (fits : value < 2 ^ width) :
    castTo width value = some value :=
  if_pos fits

/-- A cast succeeds exactly on what fits. -/
theorem castTo_eq_some
    {width value result : Nat} :
    castTo width value = some result ↔
      value < 2 ^ width ∧ value = result := by
  simp [castTo]

end Outcome

end Gossveil
