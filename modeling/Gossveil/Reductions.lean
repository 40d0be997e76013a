import Mathlib.Data.ZMod.Basic
import Mathlib.Algebra.Field.ZMod
import Mathlib.Tactic.NormNum.Prime
import Gossveil.Delivers

namespace Gossveil.Lattice

/-!
# Reductions modulo q

A coefficient is a 16-bit integer that stands for a residue modulo 3329.  Its
sums and differences are checked; the reductions wrap where the code says so.
The argument of the Montgomery reduction is a product of two coefficients, so
it fits 32 bits.
-/

universe u

/-- The prime of the lattice. -/
abbrev q : Int := 3329

/-- Residues modulo the prime. -/
abbrev Zq : Type :=
  ZMod 3329

instance latticePrime : Fact (Nat.Prime 3329) :=
  ⟨by norm_num⟩

variable {ε : Type}

/-- The result of a sum or a difference of two 16-bit integers. -/
def checked (value : Int) : Outcome ε Int16 :=
  if -2 ^ 15 ≤ value ∧ value < 2 ^ 15 then .ok (Int16.ofInt value) else .trap

/-- The inverse of q modulo `2 ^ 16`, by doubling its precision. -/
def qInv : Int :=
  ((List.range 16).foldl
    (fun inv _ => inv * (2 - 3329 * inv) % 2 ^ 32) 1) % 2 ^ 16

/-- A product divided by 2^16, modulo the prime. -/
def montReduce (x : Int) : Int16 :=
  let m := Int16.ofInt (x * qInv)
  let y := x - m.toInt * q
  Int16.ofInt (y / 2 ^ 16)

/-- The factor of one reduction. -/
def montModQ : Int :=
  2 ^ 16 % q

/-- The factor of two reductions. -/
def mont2ModQ : Int :=
  montModQ * montModQ % q

/-- Multiplies by the factor of one reduction. -/
def feToMont (x : Int16) : Int16 :=
  montReduce (x.toInt * mont2ModQ)

/-- The same residue, close to the range below the prime. -/
def feBarrett (x : Int16) : Int16 :=
  Int16.ofInt (x.toInt - x.toInt * 20159 / 2 ^ 26 * q)

/-- Takes the prime off where it fits. -/
def csubq (x : Int16) : Outcome ε Int16 := do
  let r : Int16 ← checked (x.toInt - q)
  checked (r.toInt + if r.toInt < 0 then q else 0)

/-! ## Ranges -/

/-- The values that the Montgomery reduction is meant for. -/
def Reducible (x : Int) : Prop :=
  -(2 ^ 15 * q) ≤ x ∧ x < 2 ^ 15 * q

/-- The coefficients whose compression is exact. -/
def Compressible (c : Int) : Prop :=
  0 ≤ c ∧ c < q

instance (x : Int) : Decidable (Reducible x) :=
  inferInstanceAs (Decidable (_ ∧ _))

instance (c : Int) : Decidable (Compressible c) :=
  inferInstanceAs (Decidable (_ ∧ _))

/--
What a run checks of the values it reduces and compresses.  The code goes on
with a wrong residue where a check would trap; no check fails within the range.
-/
class Checks where
  reduces : Int → Bool
  compresses : Int → Bool
  reduces_of_range : ∀ {x}, Reducible x → reduces x = true
  compresses_of_range : ∀ {c}, Compressible c → compresses c = true

/-- The code as it is. -/
@[reducible] def Checks.none : Checks where
  reduces _ := true
  compresses _ := true
  reduces_of_range _ := rfl
  compresses_of_range _ := rfl

/-- Every value outside its range traps. -/
@[reducible] def Checks.strict : Checks where
  reduces x := decide (Reducible x)
  compresses c := decide (Compressible c)
  reduces_of_range range := decide_eq_true range
  compresses_of_range range := decide_eq_true range

/-- A call of `montReduce`. -/
def reduce [Checks] (x : Int) : Outcome ε Int16 :=
  if Checks.reduces x then .ok (montReduce x) else .trap

/-! ## Constants -/

/-- The division steps of `invertMod`, which end when `r` is zero. -/
def invertLoop : (turns : Nat) → (oldR r oldS s : Int) → Int
  | 0, _, _, oldS, _ => oldS
  | turns + 1, oldR, r, oldS, s =>
      if r = 0 then oldS
      else
        let quotient := oldR.tdiv r
        invertLoop turns r (oldR - quotient * r) s (oldS - quotient * s)

/-- The inverse modulo a prime. -/
def invertMod (a p : Int) : Int :=
  invertLoop 32 a p 1 0

/-- The factor at the end of the inverse transform. -/
def mont2Over128 : Int :=
  invertMod 128 q * mont2ModQ % q

/-- The seven bits of a number in reverse. -/
def bitReverse (index : Nat) : Nat :=
  (List.range 7).foldl (fun number bit => number * 2 + index / 2 ^ bit % 2) 0

/-- Square and multiply, from the lowest bit of the exponent. -/
def powerLoop : (bits : Nat) → (base result : Int) → (e : Nat) → Int
  | 0, _, result, _ => result
  | bits + 1, base, result, e =>
      powerLoop bits (base * base % q)
        (if e % 2 = 0 then result else result * base % q) (e / 2)

/-- An entry of the table that `computeZetas` makes. -/
def zeta (index : Nat) : Outcome ε Int16 :=
  if index < 128 then
    csubq (feBarrett
      (feToMont (Int16.ofInt (powerLoop 7 17 1 (bitReverse index)))))
  else
    .trap

/-! ## What the reductions do -/

/-- A value in range is not trapped. -/
theorem checked_eq_ok
    {value : Int}
    (low : -2 ^ 15 ≤ value)
    (high : value < 2 ^ 15) :
    ∃ result : Int16,
      (checked value : Outcome ε Int16) = .ok result ∧
        result.toInt = value :=
  ⟨Int16.ofInt value, if_pos ⟨low, high⟩, Int16.toInt_ofInt_of_le low high⟩

theorem qInv_eq : qInv = 62209 := by
  decide

theorem mont2ModQ_eq : mont2ModQ = 1353 := by
  decide

theorem mont2Over128_eq : mont2Over128 = 1441 := by
  decide

/-- Numbers a multiple of the prime apart have one residue. -/
theorem cast_eq_of_dvd
    {first second : Int}
    (divides : q ∣ first - second) :
    (first : Zq) = second :=
  ((ZMod.intCast_eq_intCast_iff_dvd_sub second first 3329).mpr divides).symm

/-- The reduction divides by `2 ^ 16`, whose inverse modulo q is 169. -/
theorem montReduce_spec
    {x : Int}
    (range : Reducible x) :
    -q < (montReduce x).toInt ∧ (montReduce x).toInt < q ∧
      ((montReduce x).toInt : Zq) = x * 169 := by
  obtain ⟨low, high⟩ := range
  have wrapped := Int.bmod_add_bdiv (x * 62209) (2 ^ 16)
  have isM : (Int16.ofInt (x * 62209)).toInt = (x * 62209).bmod (2 ^ 16) :=
    Int16.toInt_ofInt
  have mLow := (Int16.ofInt (x * 62209)).le_toInt
  have mHigh := (Int16.ofInt (x * 62209)).toInt_lt
  rw [← isM] at wrapped
  simp only [montReduce, qInv_eq]
  generalize (Int16.ofInt (x * 62209)).toInt = m at wrapped mLow mHigh
  generalize (x * 62209).bdiv (2 ^ 16) = turns at wrapped
  have whole : x - m * q = 2 ^ 16 * (3329 * turns - 3160 * x) := by
    simp only [q] at *
    push_cast at wrapped
    omega
  rw [whole, Int.mul_ediv_cancel_left _ (by decide)]
  generalize 3329 * turns - 3160 * x = r at whole
  have rLow : -q < r := by
    simp only [q] at *
    omega
  have rHigh : r < q := by
    simp only [q] at *
    omega
  rw [Int16.toInt_ofInt_of_le (by simp only [q] at *; omega)
    (by simp only [q] at *; omega)]
  refine ⟨rLow, rHigh, ?_⟩
  have congruent : (r : Zq) = ((x * 169 : Int) : Zq) := by
    apply cast_eq_of_dvd
    refine ⟨-3327 * r - 169 * m, ?_⟩
    simp only [q] at *
    omega
  rw [congruent]
  push_cast
  rfl

/-- Within its range the checked reduction is the plain one. -/
theorem reduce_eq
    [Checks]
    {x : Int}
    (range : Reducible x) :
    (reduce x : Outcome ε Int16) = .ok (montReduce x) :=
  if_pos (Checks.reduces_of_range range)

/-- The Barrett reduction ends in [0, q] and keeps the residue. -/
theorem feBarrett_spec (x : Int16) :
    0 ≤ (feBarrett x).toInt ∧ (feBarrett x).toInt ≤ q ∧
      ((feBarrett x).toInt : Zq) = x.toInt := by
  have low := x.le_toInt
  have high := x.toInt_lt
  generalize isValue : x.toInt = value at low high
  have reducedLow : 0 ≤ value - value * 20159 / 2 ^ 26 * q := by
    simp only [q]
    omega
  have reducedHigh : value - value * 20159 / 2 ^ 26 * q ≤ q := by
    simp only [q]
    omega
  rw [feBarrett, isValue, Int16.toInt_ofInt_of_le (by omega)
    (by simp only [q] at *; omega)]
  refine ⟨reducedLow, reducedHigh, cast_eq_of_dvd ?_⟩
  refine ⟨-(value * 20159 / 2 ^ 26), ?_⟩
  ring

/-- The last subtraction ends below the prime. -/
theorem csubq_spec
    {x : Int16}
    (low : 0 ≤ x.toInt)
    (high : x.toInt ≤ q) :
    (csubq x : Outcome ε Int16).Delivers fun r =>
      0 ≤ r.toInt ∧ r.toInt < q ∧ (r.toInt : Zq) = x.toInt := by
  obtain ⟨r, isR, value⟩ :=
    @checked_eq_ok ε (x.toInt - q) (by simp only [q] at *; omega)
      (by simp only [q] at *; omega)
  rw [csubq, isR, Outcome.ok_bind, value]
  by_cases negative : x.toInt - q < 0
  · obtain ⟨sum, isSum, total⟩ :=
      @checked_eq_ok ε (x.toInt - q + q) (by simp only [q] at *; omega)
        (by simp only [q] at *; omega)
    rw [if_pos negative, isSum]
    refine .ok ⟨?_, ?_, ?_⟩
    · simp only [q] at *
      omega
    · simp only [q] at *
      omega
    · rw [total, Int.sub_add_cancel]
  · obtain ⟨sum, isSum, total⟩ :=
      @checked_eq_ok ε (x.toInt - q + 0) (by simp only [q] at *; omega)
        (by simp only [q] at *; omega)
    rw [if_neg negative, isSum]
    refine .ok ⟨?_, ?_, cast_eq_of_dvd ?_⟩
    · simp only [q] at *
      omega
    · simp only [q] at *
      omega
    · rw [total]
      exact ⟨-1, by ring⟩

end Gossveil.Lattice
