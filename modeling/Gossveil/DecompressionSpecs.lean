import Mathlib.Data.List.GetD
import Gossveil.CompressionSpecs

namespace Gossveil.Lattice

/-!
# Bytes back to coefficients

A byte of a string is a digit of the number the string stands for, so the
values that are unpacked are those the standard decodes.
-/

variable {ε : Type}

open Codec.Reader (littleEndian)

/-! ## Bytes as digits -/

/-- Shifting a number by a byte takes its first byte off. -/
theorem littleEndian_div (bytes : Bytes) (index : Nat) :
    littleEndian bytes / 256 ^ index =
      (bytes.getD index 0).toNat +
        256 * (littleEndian bytes / 256 ^ (index + 1)) := by
  induction bytes generalizing index with
  | nil => simp [littleEndian]
  | cons byte rest inductionHypothesis =>
      have small : byte.toNat < 256 := byte.toNat_lt
      cases index with
      | zero =>
          rw [littleEndian, List.getD_cons_zero]
          omega
      | succ index =>
          rw [littleEndian, List.getD_cons_succ, pow_succ' 256 (index + 1),
            pow_succ' 256 index, ← Nat.div_div_eq_div_mul,
            ← Nat.div_div_eq_div_mul,
            Nat.add_mul_div_left _ _ (by decide : 0 < 256),
            Nat.div_eq_of_lt small, Nat.zero_add, inductionHypothesis index,
            ← pow_succ']

/-- A byte is a digit of the number the bytes hold. -/
theorem toNat_byte (bytes : Bytes) (index : Nat) :
    (bytes.getD index 0).toNat = littleEndian bytes / 256 ^ index % 256 := by
  have small : (bytes.getD index 0).toNat < 256 := UInt8.toNat_lt _
  rw [littleEndian_div, Nat.add_mul_mod_self_left, Nat.mod_eq_of_lt small]

theorem pow_256 (count : Nat) : 256 ^ count = 2 ^ (8 * count) := by
  rw [pow_mul]
  rfl

/-- A decoded coefficient fits its bits. -/
theorem byteDecode_lt (d : Nat) (bytes : Bytes) (index : Nat) :
    MlKem.byteDecode d bytes index < 2 ^ d :=
  Nat.mod_lt _ (Nat.two_pow_pos d)

/-! ## Twelve bits -/

/-- The two values in three bytes, without the operations on bits. -/
theorem twelve_bits
    {b0 b1 b2 : Nat}
    (small : b0 < 256)
    (middle : b1 < 256) :
    b0 ||| ((b1 &&& 0xf) <<< 8) = b0 + 256 * (b1 % 16) ∧
      (b1 >>> 4) ||| (b2 <<< 4) = b1 / 16 + 16 * b2 := by
  have low : b1 / 16 < 2 ^ 4 := by
    omega
  have first : b1 &&& 0xf = b1 % 16 := Nat.and_two_pow_sub_one_eq_mod b1 4
  constructor
  · rw [first, Nat.shiftLeft_eq, Nat.or_comm, Nat.mul_comm,
      ← Nat.two_pow_add_eq_or_of_lt small]
    omega
  · rw [Nat.shiftRight_eq_div_pow, Nat.shiftLeft_eq, Nat.or_comm, Nat.mul_comm,
      ← Nat.two_pow_add_eq_or_of_lt low]
    omega

/-- Two coefficients of twelve bits stand in three bytes. -/
theorem byteDecode_twelve (bytes : Bytes) (turn : Nat) :
    let b0 := (bytes.getD (3 * turn) 0).toNat
    let b1 := (bytes.getD (3 * turn + 1) 0).toNat
    let b2 := (bytes.getD (3 * turn + 2) 0).toNat
    MlKem.byteDecode 12 bytes (2 * turn) = b0 + 256 * (b1 % 16) ∧
      MlKem.byteDecode 12 bytes (2 * turn + 1) = b1 / 16 + 16 * b2 := by
  have small : ∀ index, (bytes.getD index 0).toNat < 256 :=
    fun index => UInt8.toNat_lt _
  have first := littleEndian_div bytes (3 * turn)
  have second :
      littleEndian bytes / 256 ^ (3 * turn + 1) =
        (bytes.getD (3 * turn + 1) 0).toNat +
          256 * (littleEndian bytes / 256 ^ (3 * turn + 2)) :=
    littleEndian_div bytes (3 * turn + 1)
  have third := littleEndian_div bytes (3 * turn + 2)
  have start : 12 * (2 * turn) = 8 * (3 * turn) := by
    ring
  have next : 2 ^ (12 * (2 * turn + 1)) = 256 ^ (3 * turn) * 4096 := by
    rw [pow_256, Nat.mul_add, start, pow_add]
    rfl
  simp only [MlKem.byteDecode, next, start, ← pow_256,
    ← Nat.div_div_eq_div_mul]
  have b0Small := small (3 * turn)
  have b1Small := small (3 * turn + 1)
  have b2Small := small (3 * turn + 2)
  omega

/-- Reading a polynomial decodes it as the standard says. -/
theorem polyFromBytes_delivers (bytes : Bytes) :
    (polyFromBytes bytes : Outcome ε Poly).Delivers fun p : Poly =>
      ∀ index, index < 256 →
        p.value index = (MlKem.byteDecode 12 bytes index : Nat) := by
  refine @Outcome.Delivers.loop ε Poly
    (fun turn p =>
      ∀ index, index < 2 * turn →
        p.value index = (MlKem.byteDecode 12 bytes index : Nat))
    _ 128 _ (fun index below => absurd below (Nat.not_lt_zero index))
    fun turn inside p filled => ?_
  obtain ⟨isEven, isOdd⟩ := byteDecode_twelve bytes turn
  have small :
      ∀ index, MlKem.byteDecode 12 bytes index < 2 ^ 15 := fun index =>
    Nat.lt_trans (byteDecode_lt 12 bytes index) (by decide)
  obtain ⟨even, odd⟩ :=
    @twelve_bits _ _ (bytes.getD (3 * turn + 2) 0).toNat
      (UInt8.toNat_lt (bytes.getD (3 * turn) 0))
      (UInt8.toNat_lt (bytes.getD (3 * turn + 1) 0))
  rw [← isEven] at even
  rw [← isOdd] at odd
  dsimp only
  rw [even, odd]
  obtain ⟨p₀, isP₀, own₀, others₀⟩ :=
    @Poly.put_of_lt ε p (2 * turn) (by omega)
      (Int16.ofNat (MlKem.byteDecode 12 bytes (2 * turn)))
  obtain ⟨p₁, isP₁, own₁, others₁⟩ :=
    @Poly.put_of_lt ε p₀ (2 * turn + 1) (by omega)
      (Int16.ofNat (MlKem.byteDecode 12 bytes (2 * turn + 1)))
  rw [isP₀, Outcome.ok_bind, isP₁]
  rw [Int16.toInt_ofNat_of_lt (small _)] at own₀
  rw [Int16.toInt_ofNat_of_lt (small _)] at own₁
  refine .ok fun index below => ?_
  by_cases last : index = 2 * turn + 1
  · rw [last, own₁]
  · rw [others₁ index last]
    by_cases before : index = 2 * turn
    · rw [before, own₀]
    · rw [others₀ index before]
      exact filled index (by omega)

/-! ## One bit -/

/-- Unpacking single bits takes them off a byte in order. -/
theorem unpackBatch_one
    (byte : UInt8)
    {turns inShift : Nat}
    (room : inShift + turns ≤ 8) :
    unpackBatch 1 [byte] turns inShift 0 =
      (List.range' inShift turns).map fun place =>
        byte.toNat / 2 ^ place % 2 := by
  induction turns generalizing inShift with
  | zero => rfl
  | succ turns inductionHypothesis =>
      have done : min (min 8 1) (8 - inShift) = 1 := by
        omega
      have bit :
          ((byte.toNat >>> inShift) <<< 0) &&& (2 ^ 1 - 1) =
            byte.toNat / 2 ^ inShift % 2 := by
        rw [Nat.shiftLeft_zero, Nat.shiftRight_eq_div_pow,
          Nat.and_two_pow_sub_one_eq_mod, pow_one]
      rw [List.range'_succ, List.map_cons, unpackBatch]
      by_cases last : inShift + 1 = 8
      · obtain rfl : turns = 0 := by
          omega
        simp only [unpackValue, done, one_ne_zero, if_false, Nat.sub_self,
          List.getD_cons_zero, bit, Nat.zero_or, if_pos last, unpackBatch,
          List.range'_zero, List.map_nil]
      · simp only [unpackValue, done, one_ne_zero, if_false, Nat.sub_self,
          List.getD_cons_zero, bit, Nat.zero_or, if_neg last]
        rw [inductionHypothesis (by omega)]

/-- A coefficient of one bit is a bit of its byte. -/
theorem byteDecode_one
    (bytes : Bytes)
    (batch : Nat)
    {place : Nat}
    (inside : place < 8) :
    MlKem.byteDecode 1 bytes (8 * batch + place) =
      (bytes.getD batch 0).toNat / 2 ^ place % 2 := by
  have byte := littleEndian_div bytes batch
  have power : 256 = 2 ^ place * (2 * 2 ^ (7 - place)) := by
    rw [← pow_succ', ← pow_add, show place + (7 - place + 1) = 8 by omega]
    rfl
  rw [MlKem.byteDecode, one_mul, pow_add, ← pow_256,
    ← Nat.div_div_eq_div_mul, byte, pow_one]
  generalize littleEndian bytes / 256 ^ (batch + 1) = rest
  rw [power, Nat.mul_assoc, Nat.add_mul_div_left _ _ (Nat.two_pow_pos place),
    Nat.mul_assoc, Nat.add_mul_mod_self_left]

/-- The batch of a byte of the message. -/
theorem unpackBatch_byte
    {bytes : Bytes}
    {batch : Nat}
    (inside : batch < bytes.length) :
    unpackBatch 1 ((bytes.drop batch).take 1) 8 0 0 =
      (List.range 8).map fun place =>
        MlKem.byteDecode 1 bytes (8 * batch + place) := by
  have byte : (bytes.drop batch).take 1 = [bytes.getD batch 0] := by
    rw [List.drop_eq_getElem_cons inside, List.take_succ_cons, List.take_zero,
      List.getD_eq_getElem _ _ inside]
  rw [byte, unpackBatch_one _ le_rfl, ← List.range_eq_range']
  refine List.map_congr_left fun place member => ?_
  rw [byteDecode_one bytes batch (List.mem_range.mp member)]

/-- A coefficient of the message is a bit of it. -/
theorem polyDecompress_delivers
    {bytes : Bytes}
    (length : bytes.length = 32) :
    (polyDecompress 1 bytes : Outcome ε Poly).Delivers fun p : Poly =>
      ∀ index, index < 256 →
        p.value index = 1665 * (MlKem.byteDecode 1 bytes index : Nat) := by
  have size : Nat.lcm 1 8 / 8 = 1 := by
    decide
  have count : Nat.lcm 1 8 / 1 = 8 := by
    decide
  have turns : 256 / 8 = 32 := rfl
  simp only [polyDecompress, size, count, turns, one_mul]
  refine @Outcome.Delivers.loop ε Poly
    (fun batch p =>
      ∀ index, index < 8 * batch →
        p.value index = 1665 * (MlKem.byteDecode 1 bytes index : Nat))
    _ _ _ (fun index below => absurd below (Nat.not_lt_zero index))
    fun batch inside p filled => ?_
  rw [unpackBatch_byte (by omega)]
  refine @Poly.fill_delivers ε
    (fun index c => c = 1665 * (MlKem.byteDecode 1 bytes index : Nat))
    (8 * batch) 8 (by omega) p filled (fun place => .ok _)
    fun place small => ?_
  have bit := byteDecode_lt 1 bytes (8 * batch + place)
  have isBit :
      ((List.range 8).map fun place =>
          MlKem.byteDecode 1 bytes (8 * batch + place)).getD place 0 =
        MlKem.byteDecode 1 bytes (8 * batch + place) := by
    rw [List.getD_eq_getElem _ _ (by simpa using small), List.getElem_map,
      List.getElem_range]
  rw [isBit]
  generalize MlKem.byteDecode 1 bytes (8 * batch + place) = b at bit
  refine .ok ?_
  interval_cases b <;> rfl

end Gossveil.Lattice
