import Mathlib.Tactic.Ring
import Gossveil.Field25519

namespace Gossveil

/-!
# Encodings of the curve

A field element leaves the top bit of its thirty-two bytes free.  A point's
encoding keeps the sign of its x-coordinate there.
-/

/-! ## The top bit -/

namespace Codec.Reader

/-- What comes behind counts for higher powers. -/
theorem littleEndian_append (front rest : Bytes) :
    littleEndian (front ++ rest) =
      littleEndian front + 256 ^ front.length * littleEndian rest := by
  induction front with
  | nil => simp [littleEndian]
  | cons byte front inductionHypothesis =>
      rw [List.cons_append, littleEndian, inductionHypothesis, littleEndian,
        List.length_cons, pow_succ]
      ring

/-- Bytes of one length are told apart by their number. -/
theorem littleEndian_inj
    {first second : Bytes}
    (length : first.length = second.length)
    (same : littleEndian first = littleEndian second) :
    first = second := by
  induction first generalizing second with
  | nil => exact (List.length_eq_zero_iff.mp length.symm).symm
  | cons byte rest inductionHypothesis =>
      cases second with
      | nil => cases length
      | cons other others =>
          rw [littleEndian, littleEndian] at same
          have low := byte.toNat_lt
          have otherLow := other.toNat_lt
          have sameByte : byte.toNat = other.toNat := by
            omega
          have sameRest : littleEndian rest = littleEndian others := by
            omega
          rw [UInt8.toNat_inj.mp sameByte,
            inductionHypothesis (Nat.succ.inj length) sameRest]

end Codec.Reader

namespace Block

/-- `bytes[31] >> 7` -/
def top (block : Block 32) : Bool :=
  128 ≤ (block.bytes.getD 31 0).toNat

/-- `bytes[31] = (bytes[31] & 0x7F) | (bit << 7)` -/
def withTop (bit : Bool) (block : Block 32) : Block 32 :=
  ⟨block.bytes.take 31 ++
      [(block.bytes.getD 31 0 &&& 127) ||| (if bit then 128 else 0)], by
    simp⟩

/-- A block holds numbers below a power of 256. -/
theorem toNat_lt {size : Nat} (block : Block size) :
    Scalar.toNat block < 256 ^ size := by
  have bound := Codec.Reader.littleEndian_lt block.bytes
  rw [block.length_eq] at bound
  exact bound

theorem toNat_masked (byte : UInt8) (bit : Bool) :
    ((byte &&& 127) ||| (if bit then 128 else 0)).toNat =
      byte.toNat % 128 + if bit then 128 else 0 := by
  have low : byte.toNat &&& 127 = byte.toNat % 128 :=
    Nat.and_two_pow_sub_one_eq_mod byte.toNat 7
  have small : byte.toNat % 128 < 2 ^ 7 :=
    Nat.mod_lt _ (by decide)
  cases bit with
  | false => simp [low]
  | true =>
      have joined := Nat.two_pow_add_eq_or_of_lt small 1
      rw [Nat.mul_one] at joined
      simp only [if_true, UInt8.toNat_or, UInt8.toNat_and, UInt8.reduceToNat,
        low]
      rw [Nat.or_comm, ← joined, Nat.add_comm]

/-- The last byte in front of the others, as a number. -/
theorem toNat_split (block : Block 32) :
    Scalar.toNat block =
      Codec.Reader.littleEndian (block.bytes.take 31) +
        256 ^ 31 * (block.bytes.getD 31 0).toNat := by
  have length : (block.bytes.take 31).length = 31 := by
    rw [List.length_take, block.length_eq]
    rfl
  have whole := block.length_eq
  have last : block.bytes.drop 31 = [block.bytes.getD 31 0] := by
    rw [List.drop_eq_getElem_cons (by omega),
      List.drop_eq_nil_of_le (by omega), List.getD_eq_getElem?_getD,
      List.getElem?_eq_getElem (by omega), Option.getD_some]
  have joined := List.take_append_drop 31 block.bytes
  rw [last] at joined
  rw [Scalar.toNat]
  conv_lhs => rw [← joined]
  rw [Codec.Reader.littleEndian_append, length, Codec.Reader.littleEndian,
    Codec.Reader.littleEndian, Nat.mul_zero, Nat.add_zero]

/-- Setting the top bit adds 2^255 to the rest. -/
theorem toNat_withTop (bit : Bool) (block : Block 32) :
    Scalar.toNat (block.withTop bit) =
      Scalar.toNat block % 2 ^ 255 + if bit then 2 ^ 255 else 0 := by
  have length : (block.bytes.take 31).length = 31 := by
    rw [List.length_take, block.length_eq]
    rfl
  have front := Codec.Reader.littleEndian_lt (block.bytes.take 31)
  rw [length] at front
  rw [toNat_split block, withTop, Scalar.toNat,
    Codec.Reader.littleEndian_append, length, Codec.Reader.littleEndian,
    Codec.Reader.littleEndian, toNat_masked]
  cases bit with
  | false =>
      simp only [Bool.false_eq_true, if_false]
      omega
  | true =>
      simp only [if_true]
      omega

/-- The top bit says whether 2^255 is reached. -/
theorem top_eq_decide (block : Block 32) :
    block.top = decide (2 ^ 255 ≤ Scalar.toNat block) := by
  have length : (block.bytes.take 31).length = 31 := by
    rw [List.length_take, block.length_eq]
    rfl
  have front := Codec.Reader.littleEndian_lt (block.bytes.take 31)
  rw [length] at front
  rw [top, toNat_split block, decide_eq_decide]
  omega

/-- Blocks are told apart by the numbers they encode. -/
theorem toNat_inj
    {size : Nat}
    {first second : Block size} :
    Scalar.toNat first = Scalar.toNat second ↔ first = second := by
  constructor
  · intro same
    ext1
    exact Codec.Reader.littleEndian_inj
      (first.length_eq.trans second.length_eq.symm) same
  · exact congrArg Scalar.toNat

@[simp] theorem withTop_withTop (bit other : Bool) (block : Block 32) :
    (block.withTop other).withTop bit = block.withTop bit := by
  apply toNat_inj.mp
  rw [toNat_withTop, toNat_withTop, toNat_withTop]
  cases other with
  | false => simp
  | true => simp

/-- A free top bit is clear already. -/
theorem withTop_false
    {block : Block 32}
    (free : Scalar.toNat block < 2 ^ 255) :
    block.withTop false = block := by
  apply toNat_inj.mp
  rw [toNat_withTop, Nat.mod_eq_of_lt free]
  rfl

@[simp] theorem top_withTop (bit : Bool) (block : Block 32) :
    (block.withTop bit).top = bit := by
  have small : Scalar.toNat block % 2 ^ 255 < 2 ^ 255 :=
    Nat.mod_lt _ (by decide)
  rw [top_eq_decide, toNat_withTop]
  cases bit with
  | false => exact decide_eq_false (Nat.not_le.mpr small)
  | true => exact decide_eq_true (Nat.le_add_left _ _)

theorem toNat_withTop_false_lt (block : Block 32) :
    Scalar.toNat (block.withTop false) < 2 ^ 255 := by
  rw [toNat_withTop]
  exact Nat.mod_lt _ (by decide)

/-- A block is its top bit and the rest. -/
theorem withTop_inj
    {first second : Block 32}
    (sameTop : first.top = second.top)
    (sameRest : first.withTop false = second.withTop false) :
    first = second := by
  have rest := congrArg Scalar.toNat sameRest
  rw [toNat_withTop, toNat_withTop] at rest
  rw [top_eq_decide, top_eq_decide, decide_eq_decide] at sameTop
  have firstFits : Scalar.toNat first < 2 ^ 256 :=
    toNat_lt first
  have secondFits : Scalar.toNat second < 2 ^ 256 :=
    toNat_lt second
  apply toNat_inj.mp
  simp only [Bool.false_eq_true, if_false, Nat.add_zero] at rest
  omega

end Block

/-! ## Field elements -/

namespace Fe

/-- The element of thirty-two bytes; the top bit is not part of it. -/
def fromBytes (bytes : Block 32) : Fe :=
  ((Scalar.toNat bytes % 2 ^ 255 : Nat) : Fe)

/-- The bytes of the element's least number. -/
def toBytes (value : Fe) : Block 32 :=
  Scalar.ofNat value.val

/-- Negative elements are those with an odd number. -/
def isNegative (value : Fe) : Bool :=
  value.val % 2 = 1

theorem val_lt (value : Fe) : value.val < 2 ^ 255 - 19 :=
  ZMod.val_lt value

/-- The bytes of an element are those of its least number. -/
theorem toNat_toBytes (value : Fe) :
    Scalar.toNat (toBytes value) = value.val :=
  Codec.littleEndian_write 32 _
    (Nat.lt_trans (val_lt value) (by decide))

/-- The top bit of an encoding is ignored. -/
@[simp] theorem fromBytes_withTop (bit : Bool) (block : Block 32) :
    fromBytes (block.withTop bit) = fromBytes block := by
  rw [fromBytes, fromBytes, Block.toNat_withTop]
  cases bit with
  | false => simp
  | true => simp

@[simp] theorem fromBytes_toBytes (value : Fe) :
    fromBytes (toBytes value) = value := by
  have small := val_lt value
  rw [fromBytes, toNat_toBytes, Nat.mod_eq_of_lt (by omega)]
  exact ZMod.natCast_zmod_val value

end Fe

end Gossveil
