import Gossveil.SplitEncapsulation

namespace Gossveil.Lattice

/-!
# No coefficient leaves its range

A run that checks every value it reduces and compresses never traps, and it is
the run of the code: its results are determined by the ring elements they stand
for.
-/

open Gossveil.Lattice.Poly (Within Canonical)

/-! ## Polynomials with the same element -/

theorem Poly.ext_value
    {p p' : Poly}
    (same : ∀ index, index < 256 → p.value index = p'.value index) :
    p = p' := by
  obtain ⟨cs⟩ := p
  obtain ⟨cs'⟩ := p'
  congr 1
  refine Vector.ext fun index inside => ?_
  have entry := same index inside
  rw [value, value, Vector.getElem?_eq_getElem inside,
    Vector.getElem?_eq_getElem inside] at entry
  exact Int16.toInt_inj.mp entry

/-- Coefficients closer to each other than q are equal. -/
theorem Poly.ext_element
    {p p' : Poly}
    (same : p.element = p'.element)
    (near :
      ∀ index, index < 256 →
        -q < p.value index - p'.value index ∧
          p.value index - p'.value index < q) :
    p = p' := by
  refine ext_value fun index inside => ?_
  have entry : (p.value index : Zq) = p'.value index :=
    congrFun same ⟨index, inside⟩
  have divides : (3329 : Int) ∣ p'.value index - p.value index :=
    (ZMod.intCast_eq_intCast_iff_dvd_sub _ _ 3329).mp entry
  have bounds := near index inside
  simp only [q] at bounds
  omega

/-- An element has one canonical polynomial. -/
theorem Poly.Canonical.unique
    {p p' : Poly}
    (canonical : Canonical p)
    (canonical' : Canonical p')
    (same : p.element = p'.element) :
    p = p' := by
  refine Poly.ext_element same fun index inside => ?_
  have bounds := canonical index inside
  have bounds' := canonical' index inside
  omega

/-- An element has one small polynomial. -/
theorem Poly.Within.unique
    {p p' : Poly}
    (within : Within 2 p)
    (within' : Within 2 p')
    (same : p.element = p'.element) :
    p = p' := by
  refine Poly.ext_element same fun index inside => ?_
  have bounds := within index inside
  have bounds' := within' index inside
  simp only [q]
  omega

/-- A vector of elements has one canonical vector. -/
theorem Vec.Represents.unique
    {g : Fin 3 → Rq}
    {v v' : Vec}
    (represents : Vec.Represents Canonical g v)
    (represents' : Vec.Represents Canonical g v') :
    v = v' := by
  obtain ⟨ps⟩ := v
  obtain ⟨ps'⟩ := v'
  congr 1
  refine Vector.ext fun i inside => ?_
  obtain ⟨canonical, isElement⟩ := represents ⟨i, inside⟩
  obtain ⟨canonical', isElement'⟩ := represents' ⟨i, inside⟩
  exact canonical.unique canonical' (isElement.trans isElement'.symm)

section Halves

variable [Sha3]

/-! ## The runs -/

/-- There is one carry of a seed and a message. -/
theorem Carries.unique
    {seed message carry carry' : Bytes}
    (carries : Carries seed message carry)
    (carries' : Carries seed message carry') :
    carry = carry' := by
  obtain ⟨rh, e2, isHidden, within, isNoise, rfl⟩ := carries
  obtain ⟨rh', e2', isHidden', within', isNoise', rfl⟩ := carries'
  rw [isHidden.unique isHidden',
    within.unique within' (isNoise.trans isNoise'.symm)]

/-- There is one first half. -/
theorem IsFirst.unique
    {header message : Bytes}
    {first first' : Kem.First}
    (isFirst : IsFirst header message first)
    (isFirst' : IsFirst header message first') :
    first = first' := by
  have capsule : first.capsule = first'.capsule :=
    Block.ext (isFirst.capsule.trans isFirst'.capsule.symm)
  have carry : first.carry = first'.carry :=
    Block.ext (isFirst.carry.unique isFirst'.carry)
  have shared : first.shared = first'.shared :=
    Block.ext (isFirst.shared.trans isFirst'.shared.symm)
  cases first
  cases first'
  congr

/--
The run with every check never traps and is the run without one, and so is the
second half on any key with any carry of the first half.
-/
theorem no_overflow
    (word : Word)
    (blocks : Nat)
    (header : Block Kem.headerLength)
    (message : Block 32) :
    @firstHalf _ Checks.strict word blocks header message ≠ .trap ∧
      @firstHalf _ Checks.strict word blocks header message =
        @firstHalf _ Checks.none word blocks header message ∧
      ∀ first,
        @firstHalf _ Checks.none word blocks header message = .ok first →
          ∀ encap, ∃ second,
            @secondHalf Empty Checks.strict encap first.carry = .ok second ∧
              @secondHalf Empty Checks.none encap first.carry =
                .ok second := by
  by_cases sampled : Sampled (header.bytes.take 32) blocks
  · obtain ⟨first, isOk, isFirst⟩ :=
      @firstHalf_delivers _ Checks.strict word _ _ sampled message
    obtain ⟨first', isOk', isFirst'⟩ :=
      @firstHalf_delivers _ Checks.none word _ _ sampled message
    obtain rfl := isFirst.unique isFirst'
    rw [isOk, isOk']
    refine ⟨nofun, rfl, fun returned isReturned encap => ?_⟩
    cases isReturned
    obtain ⟨second, isSecond, bytes⟩ :=
      @secondHalf_delivers Empty _ Checks.strict encap _ _ _ isFirst.carry
    obtain ⟨second', isSecond', bytes'⟩ :=
      @secondHalf_delivers Empty _ Checks.none encap _ _ _ isFirst.carry
    obtain rfl : second = second' := Block.ext (bytes.trans bytes'.symm)
    exact ⟨second, isSecond, isSecond'⟩
  · have unfilled :=
      @firstHalf_unfilled _ Checks.strict word _ _ sampled message
    have unfilled' :=
      @firstHalf_unfilled _ Checks.none word _ _ sampled message
    rw [unfilled, unfilled']
    exact ⟨nofun, rfl, nofun⟩

end Halves

end Gossveil.Lattice
