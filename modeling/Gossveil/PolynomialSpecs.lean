import Gossveil.NttInverse

namespace Gossveil.Lattice.Poly

/-!
# What the operations do to ring elements

Every operation returns when its operands are within bounds, and its result
stands for the ring element the operation is about.  The products of transforms
are short of the factor `2 ^ 16` that the inverse transform brings.
-/

open Transform

variable {ε : Type}

/-- The ring element a polynomial stands for. -/
def element (p : Poly) : Rq := fun index =>
  p.value index.val

/-- Every coefficient is the least residue. -/
def Canonical (p : Poly) : Prop :=
  ∀ index, index < 256 → 0 ≤ p.value index ∧ p.value index < q

/-- Canonical coefficients lie below the modulus. -/
theorem Canonical.within
    {p : Poly}
    (canonical : Canonical p) :
    Within q p := by
  intro index inside
  have bounds := canonical index inside
  simp only [q] at *
  omega

/-- An element's coefficients are the polynomial's values. -/
theorem sequence_element
    (p : Poly)
    {index : Nat}
    (inside : index < 256) :
    sequence p.element index = p.value index :=
  sequence_of_lt _ inside

/-! ## Coefficient by coefficient -/

/-- Polynomials with room for it are added coefficient by coefficient. -/
theorem add_delivers
    {first second : Int}
    (room : first + second < 2 ^ 15)
    {a b : Poly}
    (aWithin : Within first a)
    (bWithin : Within second b) :
    (add a b : Outcome ε Poly).Delivers fun p =>
      Within (first + second) p ∧
        p.element = fun index => a.element index + b.element index := by
  have entries :
      (add a b : Outcome ε Poly).Delivers fun p =>
        ∀ index, index < 256 →
          p.value index = a.value index + b.value index := by
    refine @build_delivers ε
      (fun index c => c = a.value index + b.value index) _
      fun index inside => ?_
    obtain ⟨x, isX, xValue⟩ := @coefficient_of_lt ε a _ inside
    obtain ⟨y, isY, yValue⟩ := @coefficient_of_lt ε b _ inside
    have aBounds := aWithin index inside
    have bBounds := bWithin index inside
    obtain ⟨sum, isSum, sumValue⟩ :=
      @checked_eq_ok ε (a.value index + b.value index) (by omega) (by omega)
    rw [isX, Outcome.ok_bind, isY, Outcome.ok_bind, xValue, yValue, isSum]
    exact .ok sumValue
  refine entries.imp fun p sums => ⟨?_, ?_⟩
  · intro index inside
    have aBounds := aWithin index inside
    have bBounds := bWithin index inside
    rw [sums index inside]
    omega
  · funext index
    simp only [element, sums index.val index.isLt]
    push_cast
    rfl

/-- Reduction bounds the coefficients and keeps the element. -/
theorem barrett_delivers (a : Poly) :
    (barrett a : Outcome ε Poly).Delivers fun p =>
      Within q p ∧ p.element = a.element := by
  have entries :
      (barrett a : Outcome ε Poly).Delivers fun p =>
        ∀ index, index < 256 →
          0 ≤ p.value index ∧ p.value index ≤ q ∧
            (p.value index : Zq) = a.value index := by
    refine @build_delivers ε
      (fun index c => 0 ≤ c ∧ c ≤ q ∧ (c : Zq) = a.value index) _
      fun index inside => ?_
    obtain ⟨c, isC, cValue⟩ := @coefficient_of_lt ε a _ inside
    rw [isC, Outcome.ok_bind, ← cValue]
    exact .ok (feBarrett_spec c)
  refine entries.imp fun p reduced => ⟨?_, ?_⟩
  · intro index inside
    have bounds := reduced index inside
    simp only [q] at *
    omega
  · funext index
    exact (reduced index.val index.isLt).2.2

/-- Normalizing gives the canonical coefficients of the same element. -/
theorem normalize_delivers (a : Poly) :
    (normalize a : Outcome ε Poly).Delivers fun p =>
      Canonical p ∧ p.element = a.element := by
  have entries :
      (normalize a : Outcome ε Poly).Delivers fun p =>
        ∀ index, index < 256 →
          0 ≤ p.value index ∧ p.value index < q ∧
            (p.value index : Zq) = a.value index := by
    refine @build_delivers ε
      (fun index c => 0 ≤ c ∧ c < q ∧ (c : Zq) = a.value index) _
      fun index inside => ?_
    obtain ⟨c, isC, cValue⟩ := @coefficient_of_lt ε a _ inside
    obtain ⟨low, high, same⟩ := feBarrett_spec c
    rw [isC, Outcome.ok_bind, ← cValue, ← same]
    exact csubq_spec low high
  refine entries.imp fun p reduced => ⟨?_, ?_⟩
  · intro index inside
    exact ⟨(reduced index inside).1, (reduced index inside).2.1⟩
  · funext index
    exact (reduced index.val index.isLt).2.2

/-! ## The transforms -/

/-- An element's coefficients are the residues of the values. -/
theorem sequence_eq_residues
    (p : Poly)
    {f : Rq}
    (isElement : p.element = f)
    {index : Nat}
    (inside : index < 256) :
    p.residues index = sequence f index := by
  rw [← isElement, sequence_element p inside]
  rfl

/-- The forward transform computes the residues. -/
theorem ntt_element
    [Checks]
    {bound : Int}
    (room : bound + 7 * q ≤ 2 ^ 15)
    {p : Poly}
    (within : Within bound p) :
    (ntt p : Outcome ε Poly).Delivers fun p' =>
      p'.element = hat p.element := by
  refine (ntt_delivers room within).imp fun p' reduced => ?_
  funext index
  have inside := index.isLt
  have block : index.val / 2 < 128 := by
    omega
  have small : index.val % 2 < 2 := Nat.mod_lt _ (by decide)
  have whole := Nat.div_add_mod index.val 2
  have bounded : 2 * (index.val / 2) + index.val % 2 < 256 := by
    omega
  have entry := reduced _ block _ small
  rw [one_mul] at entry
  have isIndex : index = ⟨2 * (index.val / 2) + index.val % 2, bounded⟩ :=
    Fin.ext whole.symm
  rw [isIndex, hat_eq_residue _ block small bounded]
  refine entry.trans (Finset.sum_congr rfl fun turn member => ?_)
  have turns : turn < 128 := Finset.mem_range.mp member
  rw [sequence_eq_residues p rfl (by omega)]
  rfl

/--
The inverse transform computes the coefficients, up to the Montgomery factor.
-/
theorem invNtt_element
    [Checks]
    {p : Poly}
    (within : Within q p) :
    (invNtt p : Outcome ε Poly).Delivers fun p' =>
      Within q p' ∧
        p'.element = fun index => 65536 * unhat p.element index := by
  have reduced :
      Reduced splitValue 7 2 1 (sequence (unhat p.element)) p.residues := by
    intro block inside place small
    have bounded : 2 * block + place < 256 := by
      omega
    have entry := reduced_hat (unhat p.element) block inside place small
    rw [hat_unhat] at entry
    rw [sequence_eq_residues p rfl bounded, entry]
  refine (invNtt_delivers within reduced).imp fun p' entries => ⟨?_, ?_⟩
  · intro index inside
    have bounds := entries index inside
    omega
  · funext index
    have entry := (entries index.val index.isLt).2.2
    rwa [sequence_of_lt _ index.isLt] at entry

/-! ## The product of transforms -/

/-- A reduced product stands for a residue. -/
def Residue (value : Zq) (c : Int16) : Prop :=
  -q < c.toInt ∧ c.toInt < q ∧ (c.toInt : Zq) = value

/-- A product reduces to its Montgomery residue. -/
theorem reduce_product
    [Checks]
    {x : Int16}
    (xRange : 0 ≤ x.toInt ∧ x.toInt < q)
    (y : Int16) :
    (reduce (x.toInt * y.toInt) : Outcome ε Int16).Delivers
      (Residue (169 * (x.toInt * y.toInt))) := by
  have range := mul_range xRange.1 xRange.2 y.le_toInt y.toInt_lt
  obtain ⟨low, high, same⟩ := montReduce_spec range
  rw [reduce_eq range]
  refine .ok ⟨low, high, ?_⟩
  rw [same]
  push_cast
  exact mul_comm _ _

/-- A residue times a root reduces to that product. -/
theorem reduce_scaled
    [Checks]
    {value : Zq}
    {x z : Int16}
    (isX : Residue value x)
    (zRange : 0 ≤ z.toInt ∧ z.toInt < q)
    {node : Nat}
    (isRoot : (z.toInt : Zq) = root node * 65536) :
    (reduce (x.toInt * z.toInt) : Outcome ε Int16).Delivers
      (Residue (value * root node)) := by
  have range := mul_range zRange.1 zRange.2 x.le_toInt x.toInt_lt
  rw [mul_comm z.toInt] at range
  obtain ⟨low, high, same⟩ := montReduce_spec range
  rw [reduce_eq range]
  refine .ok ⟨low, high, ?_⟩
  rw [same]
  push_cast
  rw [isRoot, isX.2.2]
  have cancel : (65536 : Zq) * 169 = 1 := by
    decide
  linear_combination value * root node * cancel

/-- An entry of a product of transforms, short of the factor `2 ^ 16`. -/
def ProductEntry (a b : Poly) (index : Nat) (c : Int) : Prop :=
  -(2 * q) ≤ c ∧ c ≤ 2 * q ∧
    (c : Zq) = 169 * sequence (hatMul a.element b.element) index

/-- The two residues of the product modulo `X ^ 2 - gamma block`. -/
theorem hatMul_pair
    (a b : Poly)
    {block : Nat}
    (inside : block < 128) :
    sequence (hatMul a.element b.element) (2 * block) =
        a.value (2 * block) * b.value (2 * block) +
          a.value (2 * block + 1) * b.value (2 * block + 1) * gamma block ∧
      sequence (hatMul a.element b.element) (2 * block + 1) =
        a.value (2 * block) * b.value (2 * block + 1) +
          a.value (2 * block + 1) * b.value (2 * block) := by
  have first : 2 * block < 256 := by
    omega
  have second : 2 * block + 1 < 256 := by
    omega
  rw [sequence_of_lt _ first, sequence_of_lt _ second]
  constructor
  · rw [hatMul]
    simp only [Nat.mul_div_cancel_left block (by decide : 0 < 2),
      Nat.mul_mod_right, if_true, sequence_element _ first,
      sequence_element _ second]
  · rw [hatMul]
    simp only [show (2 * block + 1) / 2 = block by omega,
      show (2 * block + 1) % 2 = 1 by omega, one_ne_zero, if_false,
      sequence_element _ first, sequence_element _ second]

/-- The roots of a group's two base products differ in sign. -/
theorem gamma_children
    {group : Nat}
    (inside : group < 64) :
    gamma (2 * group) = root (64 + group) ∧
      gamma (2 * group + 1) = -root (64 + group) := by
  rw [gamma_eq (by omega), gamma_eq (by omega)]
  have positive : 0 < 64 + group := by
    omega
  have below : 64 + group < 2 ^ 7 := by
    omega
  rw [show 128 + 2 * group = 2 * (64 + group) by ring,
    show 128 + (2 * group + 1) = 2 * (64 + group) + 1 by ring]
  exact ⟨tree.left _ positive below, tree.right _ positive below⟩

/-- A group of four coefficients holds its two base products. -/
theorem mulGroup_delivers
    [Checks]
    {a : Poly}
    (aCanonical : Canonical a)
    (b : Poly)
    (p : Poly)
    {group : Nat}
    (inside : group < 64) :
    (mulGroup a b p group : Outcome ε Poly).Delivers fun p' =>
      (∀ index, index < 4 * group → p'.value index = p.value index) ∧
        ∀ place, place < 4 →
          ProductEntry a b (4 * group + place)
            (p'.value (4 * group + place)) := by
  have i₀ : 4 * group < 256 := by omega
  have i₁ : 4 * group + 1 < 256 := by omega
  have i₂ : 4 * group + 2 < 256 := by omega
  have i₃ : 4 * group + 3 < 256 := by omega
  obtain ⟨z, isZ, zLow, zHigh, isRoot⟩ := @zeta_spec ε (64 + group) (by omega)
  obtain ⟨a₀, isA₀, a₀Value⟩ := @coefficient_of_lt ε a _ i₀
  obtain ⟨a₁, isA₁, a₁Value⟩ := @coefficient_of_lt ε a _ i₁
  obtain ⟨a₂, isA₂, a₂Value⟩ := @coefficient_of_lt ε a _ i₂
  obtain ⟨a₃, isA₃, a₃Value⟩ := @coefficient_of_lt ε a _ i₃
  obtain ⟨b₀, isB₀, b₀Value⟩ := @coefficient_of_lt ε b _ i₀
  obtain ⟨b₁, isB₁, b₁Value⟩ := @coefficient_of_lt ε b _ i₁
  obtain ⟨b₂, isB₂, b₂Value⟩ := @coefficient_of_lt ε b _ i₂
  obtain ⟨b₃, isB₃, b₃Value⟩ := @coefficient_of_lt ε b _ i₃
  have zRange := And.intro zLow zHigh
  have a₀Range := aCanonical _ i₀
  have a₁Range := aCanonical _ i₁
  have a₂Range := aCanonical _ i₂
  have a₃Range := aCanonical _ i₃
  rw [← a₀Value] at a₀Range
  rw [← a₁Value] at a₁Range
  rw [← a₂Value] at a₂Range
  rw [← a₃Value] at a₃Range
  obtain ⟨a₁b₁, isA₁B₁, product⟩ := @reduce_product ε _ _ a₁Range b₁
  obtain ⟨low, isLow, lowValue⟩ := @reduce_product ε _ _ a₀Range b₀
  obtain ⟨inner, isInner, innerValue⟩ :=
    @reduce_product ε _ _ a₁Range b₀
  obtain ⟨outer, isOuter, outerValue⟩ :=
    @reduce_product ε _ _ a₀Range b₁
  obtain ⟨high, isHigh, highValue⟩ :=
    @reduce_scaled ε _ _ _ _ product zRange _ isRoot
  obtain ⟨a₃b₃, isA₃B₃, product'⟩ := @reduce_product ε _ _ a₃Range b₃
  obtain ⟨low', isLow', lowValue'⟩ := @reduce_product ε _ _ a₂Range b₂
  obtain ⟨inner', isInner', innerValue'⟩ :=
    @reduce_product ε _ _ a₃Range b₂
  obtain ⟨outer', isOuter', outerValue'⟩ :=
    @reduce_product ε _ _ a₂Range b₃
  obtain ⟨high', isHigh', highValue'⟩ :=
    @reduce_scaled ε _ _ _ _ product' zRange _ isRoot
  simp only [Residue] at *
  obtain ⟨c₀, isC₀, c₀Value⟩ :=
    @checked_eq_ok ε (high.toInt + low.toInt)
      (by simp only [q] at *; omega) (by simp only [q] at *; omega)
  obtain ⟨c₁, isC₁, c₁Value⟩ :=
    @checked_eq_ok ε (outer.toInt + inner.toInt)
      (by simp only [q] at *; omega) (by simp only [q] at *; omega)
  obtain ⟨c₂, isC₂, c₂Value⟩ :=
    @checked_eq_ok ε (low'.toInt - high'.toInt)
      (by simp only [q] at *; omega) (by simp only [q] at *; omega)
  obtain ⟨c₃, isC₃, c₃Value⟩ :=
    @checked_eq_ok ε (outer'.toInt + inner'.toInt)
      (by simp only [q] at *; omega) (by simp only [q] at *; omega)
  obtain ⟨p₀, isP₀, own₀, others₀⟩ := @put_of_lt ε p _ i₀ c₀
  obtain ⟨p₁, isP₁, own₁, others₁⟩ := @put_of_lt ε p₀ _ i₁ c₁
  obtain ⟨p₂, isP₂, own₂, others₂⟩ := @put_of_lt ε p₁ _ i₂ c₂
  obtain ⟨p₃, isP₃, own₃, others₃⟩ := @put_of_lt ε p₂ _ i₃ c₃
  simp only [mulGroup, isZ, isA₀, isA₁, isA₂, isA₃, isB₀, isB₁, isB₂, isB₃,
    isA₁B₁, isLow, isInner, isOuter, isHigh, isC₀, isP₀, isC₁, isP₁, isA₃B₃,
    isLow', isInner', isOuter', isHigh', isC₂, isP₂, isC₃, isP₃,
    Outcome.ok_bind]
  refine .ok ⟨?others, ?entries⟩
  case others =>
    intro index before
    rw [others₃ _ (by omega), others₂ _ (by omega), others₁ _ (by omega),
      others₀ _ (by omega)]
  case entries =>
    obtain ⟨even, odd⟩ := hatMul_pair a b (by omega : 2 * group < 128)
    obtain ⟨even', odd'⟩ := hatMul_pair a b (by omega : 2 * group + 1 < 128)
    obtain ⟨left, right⟩ := gamma_children inside
    rw [left, show 2 * (2 * group) = 4 * group by omega] at even
    rw [show 2 * (2 * group) = 4 * group by omega] at odd
    rw [right, show 2 * (2 * group + 1) = 4 * group + 2 by omega] at even'
    rw [show 2 * (2 * group + 1) = 4 * group + 2 by omega] at odd'
    rw [← a₀Value, ← a₁Value, ← b₀Value, ← b₁Value] at even odd
    rw [← a₂Value, show 4 * group + 2 + 1 = 4 * group + 3 from rfl, ← a₃Value,
      ← b₂Value, ← b₃Value] at even' odd'
    intro place small
    interval_cases place
    · rw [Nat.add_zero, others₃ _ (by omega), others₂ _ (by omega),
        others₁ _ (by omega), own₀, c₀Value, ProductEntry, even]
      refine ⟨by omega, by omega, ?_⟩
      rw [Int.cast_add, highValue.2.2, lowValue.2.2]
      ring
    · rw [others₃ _ (by omega), others₂ _ (by omega), own₁, c₁Value,
        ProductEntry, odd]
      refine ⟨by omega, by omega, ?_⟩
      rw [Int.cast_add, outerValue.2.2, innerValue.2.2]
      ring
    · rw [others₃ _ (by omega), own₂, c₂Value, ProductEntry, even']
      refine ⟨by omega, by omega, ?_⟩
      rw [Int.cast_sub, highValue'.2.2, lowValue'.2.2]
      ring
    · rw [own₃, c₃Value, ProductEntry, odd']
      refine ⟨by omega, by omega, ?_⟩
      rw [Int.cast_add, outerValue'.2.2, innerValue'.2.2]
      ring

/-- A product of transforms, short of the factor `2 ^ 16`. -/
theorem mulHat_delivers
    [Checks]
    {a : Poly}
    (aCanonical : Canonical a)
    (b : Poly) :
    (mulHat a b : Outcome ε Poly).Delivers fun p =>
      Within (2 * q) p ∧
        p.element = fun index => 169 * hatMul a.element b.element index := by
  have groups :
      (mulHat a b : Outcome ε Poly).Delivers fun p =>
        ∀ index, index < 4 * 64 → ProductEntry a b index (p.value index) := by
    refine @Outcome.Delivers.loop ε Poly
      (fun group p =>
        ∀ index, index < 4 * group → ProductEntry a b index (p.value index))
      _ _ _ (fun index before => absurd before (Nat.not_lt_zero index))
      fun group inside p filled => ?_
    refine (mulGroup_delivers aCanonical b p inside).imp
      fun p' holds index before => ?_
    by_cases earlier : index < 4 * group
    · rw [holds.1 index earlier]
      exact filled index earlier
    · obtain ⟨place, rfl⟩ := Nat.exists_eq_add_of_le (Nat.not_lt.mp earlier)
      exact holds.2 place (by omega)
  refine groups.imp fun p entries => ⟨?_, ?_⟩
  · intro index inside
    obtain ⟨low, high, _⟩ := entries index inside
    exact ⟨low, high⟩
  · funext index
    obtain ⟨_, _, same⟩ := entries index.val index.isLt
    rwa [sequence_of_lt _ index.isLt] at same

end Gossveil.Lattice.Poly
