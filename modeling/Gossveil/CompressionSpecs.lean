import Gossveil.BitPacking
import Gossveil.MlKem
import Gossveil.PolynomialSpecs

namespace Gossveil.Lattice

/-!
# Compression does what the standard says

The division by q is a multiplication and a shift, exact below `2 ^ 24`.  The
batches of a polynomial make up the digits of one number.
-/

variable {ε : Type}

/-! ## Compression -/

/-- Dividing by the modulus is a multiplication and a shift. -/
theorem div_by_shift
    {y : Nat}
    (small : y < 2 ^ 24) :
    y * 20642679 / 2 ^ 36 = y / 3329 := by
  omega

/-- Compression rounds as the standard says. -/
theorem compressValue_eq
    [Checks]
    {d : Nat}
    (few : d ≤ 11)
    {c : Int16}
    (low : 0 ≤ c.toInt)
    (high : c.toInt < q) :
    (compressValue d c : Outcome ε Nat) =
      .ok (MlKem.compress d (c.toInt : Zq)) := by
  obtain ⟨x, isX⟩ := Int.eq_ofNat_of_zero_le low
  have small : x < 3329 := by
    simp only [q] at high
    omega
  have power : 2 ^ d ≤ 2 ^ 11 := Nat.pow_le_pow_right (by decide) few
  have product : x * 2 ^ d ≤ 3328 * 2 ^ 11 :=
    Nat.mul_le_mul (by omega) power
  have isVal : ((x : Int) : Zq).val = x := by
    rw [Int.cast_natCast]
    exact ZMod.val_cast_of_lt small
  have range := Checks.compresses_of_range (And.intro low high)
  rw [compressValue, if_neg (Int.not_lt.mpr low),
    if_neg (by simp [range]), isX, Int.toNat_natCast,
    MlKem.compress, isVal]
  dsimp only
  rw [Nat.and_two_pow_sub_one_eq_mod, Nat.shiftLeft_eq,
    Nat.shiftRight_eq_div_pow]
  generalize 2 ^ d = scale at product
  have rounded :
      (x * scale % 2 ^ 24 + 1664) * 20642679 / 2 ^ 36 =
        (2 * scale * x + 3329) / (2 * 3329) := by
    rw [Nat.mod_eq_of_lt (by omega), div_by_shift (by omega),
      Nat.mul_assoc 2, Nat.mul_comm scale]
    omega
  rw [rounded]
  rfl

/-- A compressed coefficient fits its bits. -/
theorem compressed_lt (d : Nat) (f : Rq) (indices : List Nat) :
    ∀ value ∈ indices.map (MlKem.compressed d f), value < 2 ^ d := by
  intro value member
  obtain ⟨index, _, rfl⟩ := List.mem_map.mp member
  exact Nat.mod_lt _ (Nat.two_pow_pos d)

/-- The batches of a polynomial, one after the other. -/
theorem compress_delivers
    [Checks]
    {d : Nat}
    (positive : 0 < d)
    (few : d ≤ 11)
    {inBatch outBatch count : Nat}
    (isIn : Nat.lcm d 8 / d = inBatch)
    (isOut : Nat.lcm d 8 / 8 = outBatch)
    (bits : d * inBatch = 8 * outBatch)
    (whole : inBatch * count = 256)
    {p : Poly}
    (canonical : p.Canonical) :
    (p.compress d : Outcome ε Bytes).Delivers
      (· = MlKem.encode d p.element) := by
  have batchPositive : 0 < inBatch := by
    by_contra empty
    rw [Nat.eq_zero_of_not_pos empty, Nat.zero_mul] at whole
    cases whole
  have below := compressed_lt d p.element
  have base : 1 < 2 ^ d := Nat.one_lt_two_pow positive.ne'
  have batches :
      (p.compress d : Outcome ε Bytes).Delivers fun out =>
        out =
          Codec.Writer.littleEndian (outBatch * count)
            (Nat.ofDigits (2 ^ d)
              ((List.range (inBatch * count)).map
                (MlKem.compressed d p.element))) := by
    rw [Poly.compress, isIn, isOut]
    have turns : 256 / inBatch = count := by
      rw [← whole, Nat.mul_div_cancel_left _ batchPositive]
    simp only [turns]
    refine @Outcome.Delivers.loop ε Bytes
      (fun batch out =>
        out =
          Codec.Writer.littleEndian (outBatch * batch)
            (Nat.ofDigits (2 ^ d)
              ((List.range (inBatch * batch)).map
                (MlKem.compressed d p.element))))
      _ _ _ rfl fun batch inside out isOut => ?_
    subst isOut
    have values :
        ((List.range inBatch).mapM fun i => do
            let c ← p.coefficient (inBatch * batch + i)
            compressValue d c : Outcome ε (List Nat)) =
          .ok ((List.range inBatch).map fun i =>
            MlKem.compressed d p.element (inBatch * batch + i)) := by
      refine Outcome.mapM_eq_ok fun i member => ?_
      have small := List.mem_range.mp member
      have bounded : inBatch * batch + i < 256 := by
        have next := Nat.mul_le_mul_left inBatch inside
        rw [Nat.succ_eq_add_one, Nat.mul_add, Nat.mul_one] at next
        omega
      obtain ⟨c, isC, cValue⟩ := @Poly.coefficient_of_lt ε p _ bounded
      have bounds := canonical _ bounded
      rw [isC, Outcome.ok_bind, compressValue_eq few (by omega) (by omega),
        cValue, ← p.sequence_element bounded]
      rfl
    rw [values, Outcome.ok_bind]
    refine .ok ?_
    have room :
        d * 0 + 0 + 8 * outBatch ≤
          d * ((List.range inBatch).map fun i =>
            MlKem.compressed d p.element (inBatch * batch + i)).length := by
      rw [List.length_map, List.length_range, bits]
      omega
    have values' :
        ((List.range inBatch).map fun i =>
            MlKem.compressed d p.element (inBatch * batch + i)) =
          ((List.range inBatch).map (inBatch * batch + ·)).map
            (MlKem.compressed d p.element) := by
      rw [List.map_map]
      rfl
    rw [values'] at room ⊢
    rw [packBatch_eq (below _) positive room, Nat.mul_zero, Nat.add_zero,
      pow_zero, Nat.div_one, Nat.mul_succ, Nat.mul_succ, List.range_add,
      List.map_append, Nat.ofDigits_append]
    have length :
        (2 ^ d) ^
            ((List.range (inBatch * batch)).map
              (MlKem.compressed d p.element)).length =
          256 ^ (outBatch * batch) := by
      rw [List.length_map, List.length_range, ← pow_mul, ← Nat.mul_assoc,
        bits, Nat.mul_assoc, pow_mul]
      rfl
    have small := Nat.ofDigits_lt_base_pow_length base
      (below (List.range (inBatch * batch)))
    rw [length] at small ⊢
    rw [littleEndian_split _ _ _ small]
  refine batches.imp fun out isOut => ?_
  have size : outBatch * count = 32 * d := by
    have total := congrArg (d * ·) whole
    simp only [← Nat.mul_assoc, bits] at total
    rw [Nat.mul_assoc] at total
    omega
  rw [isOut, size, whole]
  rfl

end Gossveil.Lattice
