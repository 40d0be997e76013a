import Mathlib.Tactic

namespace Gossveil

/-!
# XOR-linear maps of bit vectors

A map that sends exclusive ors to exclusive ors is determined by its values at
the one-bit vectors.  An identity between two such maps of a fixed width is
therefore a finite check, one case for each bit.
-/

/-- The map sends exclusive ors to exclusive ors. -/
def XorLinear
    {source target : Nat}
    (map : BitVec source → BitVec target) :
    Prop :=
  ∀ first second, map (first ^^^ second) = map first ^^^ map second

namespace XorLinear

variable {source middle target : Nat}

/-- Linear maps take zero to zero. -/
theorem map_zero
    {map : BitVec source → BitVec target}
    (linear : XorLinear map) :
    map (0 : BitVec source) = (0 : BitVec target) := by
  have doubled := linear (0 : BitVec source) (0 : BitVec source)
  rw [BitVec.xor_self] at doubled
  have cancelled := congrArg (map (0 : BitVec source) ^^^ ·) doubled
  simpa [← BitVec.xor_assoc] using cancelled.symm

theorem id :
    XorLinear (fun vector : BitVec source => vector) :=
  fun _ _ => rfl

/-- Linear maps compose. -/
theorem comp
    {outer : BitVec middle → BitVec target}
    {inner : BitVec source → BitVec middle}
    (outerLinear : XorLinear outer)
    (innerLinear : XorLinear inner) :
    XorLinear fun vector => outer (inner vector) := by
  intro first second
  simp only
  rw [innerLinear, outerLinear]

/-- The sum of linear maps is linear. -/
theorem xor
    {left right : BitVec source → BitVec target}
    (leftLinear : XorLinear left)
    (rightLinear : XorLinear right) :
    XorLinear fun vector => left vector ^^^ right vector := by
  intro first second
  simp only
  rw [leftLinear, rightLinear]
  ac_rfl

/-- A vector below `2 ^ (bit + 1)` loses its top bit to the one-bit vector. -/
private theorem xor_twoPow_lt
    {bit : Nat}
    {vector : BitVec source}
    (inside : bit < source)
    (below : vector.toNat < 2 ^ (bit + 1))
    (set : vector.getLsbD bit = true) :
    (vector ^^^ BitVec.twoPow source bit).toNat < 2 ^ bit := by
  refine Nat.lt_pow_two_of_testBit _ ?_
  intro other larger
  rw [BitVec.testBit_toNat, BitVec.getLsbD_xor,
    BitVec.getLsbD_twoPow]
  rcases Nat.eq_or_lt_of_le larger with rfl | above
  · simp [set, inside]
  · have clear : vector.getLsbD other = false := by
      rw [← BitVec.testBit_toNat]
      refine Nat.testBit_lt_two_pow (Nat.lt_of_lt_of_le below ?_)
      exact Nat.pow_le_pow_right Nat.two_pos above
    have different : bit ≠ other := Nat.ne_of_lt above
    simp [clear, different]

/-- Two linear maps that agree at the low one-bit vectors agree below them. -/
private theorem ext_below
    {left right : BitVec source → BitVec target}
    (leftLinear : XorLinear left)
    (rightLinear : XorLinear right)
    (agree :
      ∀ bit < source,
        left (BitVec.twoPow source bit) =
          right (BitVec.twoPow source bit))
    (bits : Nat)
    (inside : bits ≤ source)
    (vector : BitVec source)
    (below : vector.toNat < 2 ^ bits) :
    left vector = right vector := by
  induction bits generalizing vector with
  | zero =>
      have isZero : vector = (0 : BitVec source) :=
        BitVec.eq_of_toNat_eq (by simpa using below)
      rw [isZero, leftLinear.map_zero, rightLinear.map_zero]
  | succ bit inductionHypothesis =>
      cases set : vector.getLsbD bit with
      | false =>
          refine inductionHypothesis (by omega) vector ?_
          refine Nat.lt_pow_two_of_testBit _ ?_
          intro other larger
          rcases Nat.eq_or_lt_of_le larger with rfl | above
          · rw [BitVec.testBit_toNat, set]
          · refine Nat.testBit_lt_two_pow
              (Nat.lt_of_lt_of_le below ?_)
            exact Nat.pow_le_pow_right Nat.two_pos above
      | true =>
          have split :
              vector =
                (vector ^^^ BitVec.twoPow source bit) ^^^
                  BitVec.twoPow source bit := by
            rw [BitVec.xor_assoc, BitVec.xor_self, BitVec.xor_zero]
          rw [split, leftLinear, rightLinear, agree bit (by omega),
            inductionHypothesis (by omega) _
              (xor_twoPow_lt (by omega) below set)]

/-- Two linear maps that agree at every one-bit vector are equal. -/
theorem ext
    {left right : BitVec source → BitVec target}
    (leftLinear : XorLinear left)
    (rightLinear : XorLinear right)
    (agree :
      ∀ bit < source,
        left (BitVec.twoPow source bit) =
          right (BitVec.twoPow source bit))
    (vector : BitVec source) :
    left vector = right vector :=
  ext_below leftLinear rightLinear agree source (Nat.le_refl _) vector
    vector.isLt

end XorLinear

end Gossveil
