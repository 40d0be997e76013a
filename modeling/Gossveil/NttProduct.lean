import Mathlib.Algebra.Polynomial.AlgebraMap
import Mathlib.Algebra.Polynomial.RingDivision
import Mathlib.Algebra.QuadraticAlgebra.Basic
import Gossveil.PolynomialSpecs

namespace Gossveil.Lattice

/-!
# The transform multiplies

A residue modulo `X ^ 2 - gamma` is an element of a quadratic algebra, and the
root of the factor is one of `X ^ 256 + 1` too.  So the transform of a product
in the ring is the product of the transforms.
-/

open Polynomial (C X aeval)
open QuadraticAlgebra (omega)

variable {ε : Type}

/-! ## The ring -/

/-- The polynomial with the given coefficients. -/
noncomputable def toPolynomial (f : Rq) : Polynomial Zq :=
  ∑ index ∈ Finset.range 256, C (sequence f index) * X ^ index

/-- The polynomial that the product is taken modulo. -/
noncomputable def modulus : Polynomial Zq :=
  X ^ 256 + 1

/-- The product modulo `X ^ 256 + 1`. -/
noncomputable def ringMul (a b : Rq) : Rq := fun index =>
  ((toPolynomial a * toPolynomial b).modByMonic modulus).coeff index.val

theorem modulus_eq : modulus = X ^ 256 + C 1 := by
  have one : (C 1 : Polynomial Zq) = 1 := map_one C
  unfold modulus
  rw [one]

theorem monic_modulus : modulus.Monic := by
  rw [modulus_eq]
  exact Polynomial.monic_X_pow_add_C 1 (by decide)

theorem degree_modulus : modulus.degree = 256 := by
  rw [modulus_eq]
  exact Polynomial.degree_X_pow_add_C (by decide) 1

/-- The coefficients of an element's polynomial. -/
theorem coeff_toPolynomial (f : Rq) (index : Nat) :
    (toPolynomial f).coeff index = sequence f index := by
  simp only [toPolynomial, Polynomial.finsetSum_coeff,
    Polynomial.coeff_C_mul_X_pow]
  by_cases inside : index < 256
  · rw [Finset.sum_ite_eq, if_pos (Finset.mem_range.mpr inside)]
  · rw [Finset.sum_ite_eq, if_neg (fun member =>
      inside (Finset.mem_range.mp member)), sequence, dif_neg inside]

/-- A polynomial of degree below 256 is known by its coefficients. -/
theorem toPolynomial_coeff
    {p : Polynomial Zq}
    (small : p.degree < 256) :
    toPolynomial (fun index => p.coeff index.val) = p := by
  ext index
  rw [coeff_toPolynomial]
  by_cases inside : index < 256
  · rw [sequence_of_lt _ inside]
  · have high : p.degree < index :=
      lt_of_lt_of_le small (by exact_mod_cast Nat.not_lt.mp inside)
    rw [sequence, dif_neg inside, Polynomial.coeff_eq_zero_of_degree_lt high]

/-- The product has degree below 256 already. -/
theorem toPolynomial_ringMul (a b : Rq) :
    toPolynomial (ringMul a b) =
      (toPolynomial a * toPolynomial b).modByMonic modulus := by
  refine toPolynomial_coeff ?_
  rw [← degree_modulus]
  exact Polynomial.degree_modByMonic_lt _ monic_modulus

/-! ## Residues -/

/-- The root of `X ^ 2 - gamma block` in the ring of residues modulo it. -/
abbrev residueRoot (block : Nat) : QuadraticAlgebra Zq (gamma block) 0 :=
  omega

/-- The even powers of a root. -/
theorem residueRoot_pow (block turn : Nat) :
    residueRoot block ^ (2 * turn) = ⟨gamma block ^ turn, 0⟩ := by
  induction turn with
  | zero => rfl
  | succ turn inductionHypothesis =>
      rw [Nat.mul_succ, pow_add, inductionHypothesis, pow_two]
      ext <;> simp [pow_succ]

/-- Even and odd coefficients make up the two parts of a residue. -/
theorem sum_residueRoot (block count : Nat) (s : Nat → Zq) :
    ∑ index ∈ Finset.range (2 * count),
        s index • residueRoot block ^ index =
      ⟨∑ turn ∈ Finset.range count, s (2 * turn) * gamma block ^ turn,
        ∑ turn ∈ Finset.range count,
          s (1 + 2 * turn) * gamma block ^ turn⟩ := by
  induction count with
  | zero => rfl
  | succ count inductionHypothesis =>
      rw [Nat.mul_succ, Finset.sum_range_succ, Finset.sum_range_succ,
        inductionHypothesis, pow_succ, residueRoot_pow, Finset.sum_range_succ,
        Finset.sum_range_succ]
      ext <;> simp [Nat.add_comm 1]

/-- Every root of the base products is one of minus one. -/
theorem gamma_pow (block : Nat) : gamma block ^ 128 = -1 := by
  rw [gamma, ← pow_mul, mul_comm, pow_mul, pow_128]
  exact Odd.neg_one_pow ⟨bitReverse block, rfl⟩

/-- Every root of a residue ring is one of minus one. -/
theorem residueRoot_pow_256 (block : Nat) :
    residueRoot block ^ 256 = -1 := by
  have whole := residueRoot_pow block 128
  rw [gamma_pow] at whole
  refine whole.trans ?_
  ext
  · rfl
  · exact neg_zero.symm

/-- The roots are those of the modulus. -/
theorem aeval_modulus (block : Nat) :
    aeval (residueRoot block) modulus = 0 := by
  unfold modulus
  rw [map_add, map_pow, Polynomial.aeval_X, map_one, residueRoot_pow_256,
    neg_add_cancel]

/-- The residue of a ring element is the pair in its transform. -/
theorem aeval_toPolynomial
    (f : Rq)
    {block : Nat}
    (inside : block < 128) :
    aeval (residueRoot block) (toPolynomial f) =
      ⟨sequence (hat f) (2 * block), sequence (hat f) (2 * block + 1)⟩ := by
  have first : 2 * block < 256 := by
    omega
  have second : 2 * block + 1 < 256 := by
    omega
  have parts := sum_residueRoot block 128 (sequence f)
  simp only [toPolynomial, map_sum, map_mul, map_pow, Polynomial.aeval_X,
    Polynomial.aeval_C, ← Algebra.smul_def]
  rw [show (256 : Nat) = 2 * 128 from rfl, parts, sequence_of_lt _ first,
    sequence_of_lt _ second, hat, hat]
  simp only [Nat.mul_div_cancel_left block (by decide : 0 < 2),
    Nat.mul_mod_right, show (2 * block + 1) / 2 = block by omega,
    show (2 * block + 1) % 2 = 1 by omega, Nat.zero_add]

/-- The transform of a product is the product of the transforms. -/
theorem hat_ringMul (a b : Rq) :
    hat (ringMul a b) = hatMul (hat a) (hat b) := by
  funext index
  have inside : index.val / 2 < 128 := by
    omega
  have product :=
    congrArg (aeval (residueRoot (index.val / 2)))
      (toPolynomial_ringMul a b)
  rw [Polynomial.aeval_modByMonic_eq_self_of_root (aeval_modulus _), map_mul,
    aeval_toPolynomial _ inside, aeval_toPolynomial _ inside,
    aeval_toPolynomial _ inside, QuadraticAlgebra.mk_mul_mk] at product
  obtain ⟨even, odd⟩ := QuadraticAlgebra.mk.inj product
  have whole := Nat.div_add_mod index.val 2
  rw [hatMul]
  by_cases isEven : index.val % 2 = 0
  · rw [if_pos isEven, ← sequence_of_lt (hat (ringMul a b)) index.isLt]
    rw [show 2 * (index.val / 2) = index.val by omega] at even ⊢
    rw [even]
    ring
  · rw [if_neg isEven, ← sequence_of_lt (hat (ringMul a b)) index.isLt]
    rw [show 2 * (index.val / 2) + 1 = index.val by omega] at odd ⊢
    rw [odd]
    ring

/-! ## The code -/

section Code

variable [Checks]

/-- `normalize(barrett(ntt(a)))`. -/
def transformed (a : Poly) : Outcome ε Poly := do
  let p : Poly ← a.ntt
  let p : Poly ← p.barrett
  p.normalize

/-- The transform of a polynomial is canonical. -/
theorem transformed_delivers
    {a : Poly}
    (canonical : a.Canonical) :
    (transformed a : Outcome ε Poly).Delivers fun p : Poly =>
      p.Canonical ∧ p.element = hat a.element := by
  refine (Poly.ntt_element (by decide) canonical.within).bind
    fun p isHat => ?_
  refine (Poly.barrett_delivers p).bind fun p' ⟨_, same⟩ => ?_
  refine (Poly.normalize_delivers p').imp fun p'' holds => ⟨holds.1, ?_⟩
  rw [holds.2, same, isHat]

/--
The product of two transforms, transformed back, is the product in the ring;
without a product in between the factor of the inverse transform remains.
-/
theorem ntt_multiplies
    {a b : Poly}
    (aCanonical : a.Canonical)
    (bCanonical : b.Canonical) :
    (do
        let aHat : Poly ← transformed a
        let bHat : Poly ← transformed b
        let product : Poly ← aHat.mulHat bHat
        let product : Poly ← product.barrett
        product.invNtt : Outcome ε Poly).Delivers (fun p : Poly =>
      toPolynomial p.element =
        (toPolynomial a.element * toPolynomial b.element).modByMonic
          modulus) ∧
      (do
          let p : Poly ← a.ntt
          let p : Poly ← p.normalize
          p.invNtt : Outcome ε Poly).Delivers fun p : Poly =>
        p.element = fun index => 65536 * a.element index := by
  constructor
  · refine (transformed_delivers aCanonical).bind
      fun aHat ⟨canonical, isA⟩ => ?_
    refine (transformed_delivers bCanonical).bind fun bHat ⟨_, isB⟩ => ?_
    refine (Poly.mulHat_delivers canonical bHat).bind
      fun product ⟨_, isProduct⟩ => ?_
    refine (Poly.barrett_delivers product).bind
      fun reduced ⟨within, same⟩ => ?_
    refine (Poly.invNtt_element within).imp fun p ⟨_, isInverse⟩ => ?_
    have cancel : (65536 : Zq) * 169 = 1 := by
      decide
    have isRing : p.element = ringMul a.element b.element := by
      rw [isInverse, same, isProduct, isA, isB, ← hat_ringMul, unhat_smul]
      funext index
      rw [unhat_hat, ← mul_assoc, cancel, one_mul]
    rw [isRing, toPolynomial_ringMul]
  · refine (Poly.ntt_element (by decide) aCanonical.within).bind
      fun p isHat => ?_
    refine (Poly.normalize_delivers p).bind
      fun p' ⟨canonical, same⟩ => ?_
    refine (Poly.invNtt_element canonical.within).imp
      fun p'' ⟨_, isInverse⟩ => ?_
    rw [isInverse, same, isHat, unhat_hat]

end Code

/-- The coefficients 0, 1, 2 and so on. -/
private def rising : Poly :=
  ⟨Vector.ofFn fun index => Int16.ofNat index.val⟩

/-- A polynomial whose coefficients fall from the largest. -/
private def falling : Poly :=
  ⟨Vector.ofFn fun index => Int16.ofNat (3328 - index.val)⟩

private theorem rising_canonical : rising.Canonical := by
  unfold Poly.Canonical
  decide +kernel

private theorem falling_canonical : falling.Canonical := by
  unfold Poly.Canonical
  decide +kernel

/-- The product of two sample polynomials. -/
theorem ntt_multiplies_rising :
    ∃ p : Poly,
      (do
          let aHat : Poly ← @transformed Empty Checks.none rising
          let bHat : Poly ← @transformed Empty Checks.none falling
          let product : Poly ← @Poly.mulHat Empty Checks.none aHat bHat
          let product : Poly ← product.barrett
          @Poly.invNtt Empty Checks.none product) = .ok p ∧
        toPolynomial p.element =
          (toPolynomial rising.element *
            toPolynomial falling.element).modByMonic modulus :=
  (@ntt_multiplies Empty Checks.none rising falling rising_canonical
    falling_canonical).1

end Gossveil.Lattice
