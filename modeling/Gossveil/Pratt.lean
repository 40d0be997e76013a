import Mathlib.Data.List.Prime
import Mathlib.NumberTheory.LucasPrimality

namespace Gossveil.Pratt

/-!
# Certificates of primality

A number is prime when some base has the order of its predecessor.  A
certificate lists numbers with such bases and the prime factors of their
predecessors, every factor being certified further up.
-/

/-- A power modulo `modulus`, the exponent having at most `bits` bits. -/
def power (modulus : Nat) : (bits base exponent : Nat) → Nat
  | 0, _, _ => 1 % modulus
  | bits + 1, base, exponent =>
      let root := power modulus bits (base * base % modulus) (exponent / 2)
      if exponent % 2 = 0 then root else root * base % modulus

/-- Square and multiply computes the power. -/
theorem power_eq
    (modulus : Nat)
    {bits base exponent : Nat}
    (short : exponent < 2 ^ bits) :
    power modulus bits base exponent = base ^ exponent % modulus := by
  induction bits generalizing base exponent with
  | zero =>
      rw [Nat.lt_one_iff.mp short, power, pow_zero]
  | succ bits inductionHypothesis =>
      have half : exponent / 2 < 2 ^ bits := by
        rw [pow_succ] at short
        omega
      have squared :
          (base * base % modulus) ^ (exponent / 2) % modulus =
            base ^ (2 * (exponent / 2)) % modulus := by
        rw [← Nat.pow_mod, pow_mul, pow_two]
      have parts := Nat.div_add_mod exponent 2
      rw [power, inductionHypothesis half, squared]
      by_cases even : exponent % 2 = 0
      · rw [even, add_zero] at parts
        simp only [even, if_true, parts]
      · rw [Nat.mod_two_ne_zero.mp even] at parts
        simp only [even, if_false, Nat.mod_mul_mod, ← pow_succ, parts]

/-- The prime factors are listed with their exponents. -/
structure Entry where
  prime : Nat
  base : Nat
  factors : List (Nat × Nat)

namespace Entry

/-- The base has the order `prime - 1`, over factors that are known. -/
def accepted (bits : Nat) (known : List Nat) (entry : Entry) : Bool :=
  decide (2 ≤ entry.prime) && decide (entry.prime < 2 ^ bits) &&
    entry.factors.all (fun factor => known.contains factor.1) &&
    ((entry.factors.map fun factor => factor.1 ^ factor.2).prod ==
      entry.prime - 1) &&
    (power entry.prime bits entry.base (entry.prime - 1) == 1) &&
    entry.factors.all fun factor =>
      power entry.prime bits entry.base
        ((entry.prime - 1) / factor.1) != 1

/-- An accepted entry is prime, if its factors are. -/
theorem prime_of_accepted
    {bits : Nat}
    {known : List Nat}
    {entry : Entry}
    (primes : ∀ prime ∈ known, prime.Prime)
    (accepted : entry.accepted bits known = true) :
    entry.prime.Prime := by
  simp only [Entry.accepted, Bool.and_eq_true, decide_eq_true_eq,
    List.all_eq_true, List.contains_iff_mem, beq_iff_eq, bne_iff_ne]
    at accepted
  obtain ⟨⟨⟨⟨⟨large, fits⟩, listed⟩, product⟩, whole⟩, parts⟩ := accepted
  have isPower :
      ∀ exponent, exponent ≤ entry.prime - 1 →
        ((entry.base : ZMod entry.prime) ^ exponent = 1 ↔
          power entry.prime bits entry.base exponent = 1) := by
    intro exponent bound
    have short : exponent < 2 ^ bits := by
      omega
    rw [power_eq _ short, ← Nat.cast_pow, ← Nat.cast_one,
      ZMod.natCast_eq_natCast_iff', Nat.mod_eq_of_lt large]
  refine lucas_primality entry.prime entry.base
    ((isPower _ le_rfl).mpr whole) ?_
  intro divisor isPrime divides
  rw [← product] at divides
  obtain ⟨value, member, dividesValue⟩ :=
    (Prime.dvd_prod_iff isPrime.prime).mp divides
  obtain ⟨factor, present, rfl⟩ := List.mem_map.mp member
  have same : divisor = factor.1 :=
    (Nat.prime_dvd_prime_iff_eq isPrime (primes _ (listed factor present))).mp
      (isPrime.dvd_of_dvd_pow dividesValue)
  rw [same, ne_eq, isPower _ (Nat.div_le_self _ _)]
  exact parts factor present

end Entry

/-- Every entry is accepted over those before it. -/
def accepted (bits : Nat) : (known : List Nat) → List Entry → Bool
  | _, [] => true
  | known, entry :: entries =>
      entry.accepted bits known &&
        accepted bits (entry.prime :: known) entries

/-- Every entry of an accepted certificate is prime. -/
theorem prime_of_accepted
    {bits : Nat}
    {known : List Nat}
    {entries : List Entry}
    (primes : ∀ prime ∈ known, prime.Prime)
    (isAccepted : accepted bits known entries = true) :
    ∀ entry ∈ entries, entry.prime.Prime := by
  induction entries generalizing known with
  | nil => exact List.forall_mem_nil _
  | cons entry entries inductionHypothesis =>
      simp only [accepted, Bool.and_eq_true] at isAccepted
      have first := entry.prime_of_accepted primes isAccepted.1
      rw [List.forall_mem_cons]
      refine ⟨first, inductionHypothesis ?_ isAccepted.2⟩
      rw [List.forall_mem_cons]
      exact ⟨first, primes⟩

end Gossveil.Pratt
