import Mathlib.Tactic
import Mathlib.Data.Nat.Digits.Lemmas

namespace Gossveil.Numerals

/-!
# Numerals

Two ways of writing a number that determine each other: digits from one up to
the base, where every list of digits is a number of its own, and decimal digits
read from the left, where only leading zeros are ambiguous.

Nothing here mentions the program.
-/

/-! ## Digits from one up to the base -/

/-- Every digit is at least one and at most the base. -/
def Positive (base : Nat) (digits : List Nat) : Prop :=
  ∀ digit ∈ digits, 1 ≤ digit ∧ digit ≤ base

theorem Positive.cons
    {base digit : Nat}
    {digits : List Nat} :
    Positive base (digit :: digits) ↔
      (1 ≤ digit ∧ digit ≤ base) ∧ Positive base digits :=
  List.forall_mem_cons

/-- A digit from one up to the base and the rest are told apart. -/
theorem split_unique
    {base digit other rest otherRest : Nat}
    (digitBound : 1 ≤ digit ∧ digit ≤ base)
    (otherBound : 1 ≤ other ∧ other ≤ base)
    (same : digit + base * rest = other + base * otherRest) :
    digit = other ∧ rest = otherRest := by
  rcases Nat.lt_trichotomy rest otherRest with less | equal | greater
  · have step : base * rest + base ≤ base * otherRest := by
      rw [← Nat.mul_succ]
      exact Nat.mul_le_mul_left base less
    omega
  · subst equal
    exact ⟨Nat.add_right_cancel same, rfl⟩
  · have step : base * otherRest + base ≤ base * rest := by
      rw [← Nat.mul_succ]
      exact Nat.mul_le_mul_left base greater
    omega

/-- A list of such digits is determined by its number. -/
theorem Positive.ofDigits_inj
    {base : Nat}
    {digits others : List Nat}
    (positive : Positive base digits)
    (positiveOthers : Positive base others) :
    Nat.ofDigits base digits = Nat.ofDigits base others ↔
      digits = others := by
  constructor
  · intro same
    induction digits generalizing others with
    | nil =>
        cases others with
        | nil => rfl
        | cons other others =>
            have bound := (Positive.cons.mp positiveOthers).1
            simp [Nat.ofDigits_cons] at same
            omega
    | cons digit digits inductionHypothesis =>
        obtain ⟨bound, positive⟩ := Positive.cons.mp positive
        cases others with
        | nil =>
            simp [Nat.ofDigits_cons] at same
            omega
        | cons other others =>
            obtain ⟨otherBound, positiveOthers⟩ :=
              Positive.cons.mp positiveOthers
            simp only [Nat.ofDigits_cons] at same
            obtain ⟨sameDigit, sameRest⟩ := split_unique bound otherBound same
            rw [sameDigit,
              inductionHypothesis positive positiveOthers sameRest]
  · rintro rfl
    rfl

/-- The size of a number of such digits. -/
theorem Positive.ofDigits_lt
    {base : Nat}
    (large : 2 ≤ base)
    {digits : List Nat}
    (positive : Positive base digits) :
    Nat.ofDigits base digits < 2 * base ^ digits.length := by
  suffices within :
      Nat.ofDigits base digits + 2 ≤ 2 * base ^ digits.length by
    exact Nat.lt_of_lt_of_le (by simp) within
  induction digits with
  | nil => simp
  | cons digit digits inductionHypothesis =>
      obtain ⟨bound, positive⟩ := Positive.cons.mp positive
      have scaled := Nat.mul_le_mul_left base (inductionHypothesis positive)
      rw [Nat.mul_add] at scaled
      rw [Nat.ofDigits_cons, List.length_cons, Nat.pow_succ,
        Nat.mul_comm (base ^ digits.length), Nat.mul_left_comm]
      omega

/-! ## Decimal digits read from the left -/

/-- The number that digits read from the left make. -/
def readDecimal (digits : List Nat) : Nat :=
  digits.foldl (fun number digit => number * 10 + digit) 0

/-- The digits of a number, the first one in front. -/
def decimal (number : Nat) : List Nat :=
  (Nat.digits 10 number).reverse

/-- A numeral is read from its highest digit. -/
theorem readDecimal_eq (digits : List Nat) :
    readDecimal digits = Nat.ofDigits 10 digits.reverse := by
  induction digits using List.reverseRecOn with
  | nil => rfl
  | append_singleton digits digit inductionHypothesis =>
      rw [readDecimal, List.foldl_append, List.foldl_cons, List.foldl_nil,
        ← readDecimal, inductionHypothesis, List.reverse_append,
        List.reverse_singleton, List.singleton_append, Nat.ofDigits_cons,
        Nat.mul_comm, Nat.add_comm]

/-- Reading goes on from the number of the digits in front. -/
theorem readDecimal_concat (digits : List Nat) (digit : Nat) :
    readDecimal (digits ++ [digit]) = readDecimal digits * 10 + digit := by
  simp [readDecimal]

@[simp] theorem readDecimal_decimal (number : Nat) :
    readDecimal (decimal number) = number := by
  rw [readDecimal_eq, decimal, List.reverse_reverse, Nat.ofDigits_digits]

/-- Digits without a zero in front are those of the number they make. -/
theorem decimal_readDecimal
    {first : Nat}
    {digits : List Nat}
    (nonzero : first ≠ 0)
    (small : ∀ digit ∈ first :: digits, digit < 10) :
    decimal (readDecimal (first :: digits)) = first :: digits := by
  rw [readDecimal_eq, decimal, Nat.digits_ofDigits 10 (by decide) _ ?small ?last,
    List.reverse_reverse]
  case small =>
    intro digit member
    exact small digit (List.mem_reverse.mp member)
  case last =>
    intro _
    simpa using nonzero

theorem decimal_small
    {number digit : Nat}
    (member : digit ∈ decimal number) :
    digit < 10 :=
  Nat.digits_lt_base (by decide) (List.mem_reverse.mp member)

/-- A number has a digit other than zero in front, if it is not zero. -/
theorem decimal_eq_cons
    {number : Nat}
    (nonzero : number ≠ 0) :
    ∃ first digits, decimal number = first :: digits ∧ first ≠ 0 := by
  have some_digits : Nat.digits 10 number ≠ [] :=
    Nat.digits_ne_nil_iff_ne_zero.mpr nonzero
  have last := Nat.getLast_digit_ne_zero 10 nonzero
  refine ⟨(Nat.digits 10 number).getLast some_digits,
    (Nat.digits 10 number).dropLast.reverse, ?_, last⟩
  rw [decimal]
  conv => lhs; rw [← List.dropLast_append_getLast some_digits]
  exact List.reverse_concat ..

/-- Numbers from ten on are those of two digits or more. -/
theorem two_le_length_decimal {number : Nat} :
    2 ≤ (decimal number).length ↔ 10 ≤ number := by
  rw [decimal, List.length_reverse]
  exact Nat.lt_digits_length_iff (by decide) number

end Gossveil.Numerals
