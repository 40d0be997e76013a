import Mathlib.Data.Nat.Digits.Defs
import Gossveil.Compression
import Gossveil.CurveEncoding

namespace Gossveil.Lattice

/-!
# Packed bits are one number

The bytes of packed values are those of the number whose digits to the base
`2 ^ d` the values are.  Packing is proved for any width of the values.
-/

/-- A number is written low part first. -/
theorem littleEndian_split
    (front rest : Nat)
    {low : Nat}
    (high : Nat)
    (small : low < 256 ^ front) :
    Codec.Writer.littleEndian (front + rest) (low + 256 ^ front * high) =
      Codec.Writer.littleEndian front low ++
        Codec.Writer.littleEndian rest high := by
  induction front generalizing low with
  | zero =>
      obtain rfl : low = 0 := Nat.lt_one_iff.mp small
      simp [Codec.Writer.littleEndian]
  | succ front inductionHypothesis =>
      have quotient : low / 256 < 256 ^ front := by
        rw [pow_succ] at small
        omega
      have rest' := inductionHypothesis quotient
      have power : 256 ^ (front + 1) * high = 256 * (256 ^ front * high) := by
        ring
      rw [Nat.add_right_comm, Codec.Writer.littleEndian,
        Codec.Writer.littleEndian, power, List.cons_append, ← rest',
        Nat.add_mul_mod_self_left, Nat.add_mul_div_left _ _ (by decide)]

section Digits

variable {d : Nat} {values : List Nat}

/-- A digit of the number the values make. -/
theorem digit_of_values
    (small : ∀ value ∈ values, value < 2 ^ d)
    {ci : Nat}
    (inside : ci < values.length) :
    Nat.ofDigits (2 ^ d) values / 2 ^ (d * ci) % 2 ^ d = values.getD ci 0 := by
  induction values generalizing ci with
  | nil => exact absurd inside (Nat.not_lt_zero ci)
  | cons value values inductionHypothesis =>
      have head := small value List.mem_cons_self
      rw [Nat.ofDigits_cons]
      cases ci with
      | zero =>
          rw [Nat.mul_zero, pow_zero, Nat.div_one, Nat.add_mul_mod_self_left,
            Nat.mod_eq_of_lt head, List.getD_cons_zero]
      | succ ci =>
          have next := inductionHypothesis
            (fun other member => small other (List.mem_cons_of_mem _ member))
            (Nat.lt_of_succ_lt_succ inside)
          rw [Nat.mul_succ, Nat.add_comm (d * ci), pow_add,
            ← Nat.div_div_eq_div_mul,
            Nat.add_mul_div_left _ _ (Nat.two_pow_pos d),
            Nat.div_eq_of_lt head, Nat.zero_add, next, List.getD_cons_succ]

/-- What a value adds to a byte are the next bits of the number. -/
theorem piece_eq
    (small : ∀ value ∈ values, value < 2 ^ d)
    {ci inShift todo : Nat}
    (inside : ci < values.length)
    (shifted : inShift < d)
    (few : todo ≤ 8) :
    (values.getD ci 0 >>> inShift) <<< (8 - todo) % 256 =
      2 ^ (8 - todo) *
        (Nat.ofDigits (2 ^ d) values / 2 ^ (d * ci + inShift) %
          2 ^ min (min d todo) (d - inShift)) := by
  have digit := digit_of_values small inside
  have width : 2 ^ d = 2 ^ inShift * 2 ^ (d - inShift) := by
    rw [← pow_add, Nat.add_sub_cancel' shifted.le]
  have byte : 256 = 2 ^ (8 - todo) * 2 ^ todo := by
    rw [← pow_add, Nat.sub_add_cancel few]
    rfl
  rw [← digit, Nat.shiftRight_eq_div_pow, Nat.shiftLeft_eq, width,
    Nat.mod_mul_right_div_self, Nat.div_div_eq_div_mul, ← width, ← pow_add,
    byte, Nat.mul_comm _ (2 ^ (8 - todo)), Nat.mul_mod_mul_left]
  congr 1
  by_cases whole : d - inShift ≤ todo
  · have least : min (min d todo) (d - inShift) = d - inShift := by
      omega
    have fits :
        Nat.ofDigits (2 ^ d) values / 2 ^ (d * ci + inShift) %
            2 ^ (d - inShift) <
          2 ^ todo :=
      Nat.lt_of_lt_of_le (Nat.mod_lt _ (Nat.two_pow_pos _))
        (Nat.pow_le_pow_right (by decide) whole)
    rw [least, Nat.mod_eq_of_lt fits]
  · have least : min (min d todo) (d - inShift) = todo := by
      omega
    rw [least, Nat.mod_mod_of_dvd _ (Nat.pow_dvd_pow 2 (by omega))]

/-- The bytes before `todo` bits were left, and where the next one starts. -/
theorem packByte_eq
    (small : ∀ value ∈ values, value < 2 ^ d)
    {turns todo inShift ci start : Nat}
    (enough : todo ≤ turns)
    (few : todo ≤ 8)
    (shifted : inShift < d)
    (position : d * ci + inShift = start + (8 - todo))
    (room : start + 8 ≤ d * values.length) :
    ∃ inShift' ci',
      packByte d values turns todo inShift ci
          (Nat.ofDigits (2 ^ d) values / 2 ^ start % 2 ^ (8 - todo)) =
        (Nat.ofDigits (2 ^ d) values / 2 ^ start % 256, inShift', ci') ∧
      inShift' < d ∧ d * ci' + inShift' = start + 8 := by
  induction turns generalizing todo inShift ci with
  | zero =>
      obtain rfl : todo = 0 := Nat.le_zero.mp enough
      exact ⟨inShift, ci, rfl, shifted, position⟩
  | succ turns inductionHypothesis =>
      rw [packByte]
      by_cases finished : todo = 0
      · subst finished
        exact ⟨inShift, ci, if_pos rfl, shifted, position⟩
      · have inside : ci < values.length := by
          by_contra outside
          have more := Nat.mul_le_mul_left d (Nat.not_lt.mp outside)
          omega
        have below :
            Nat.ofDigits (2 ^ d) values / 2 ^ start % 2 ^ (8 - todo) <
              2 ^ (8 - todo) :=
          Nat.mod_lt _ (Nat.two_pow_pos _)
        have piece := piece_eq small inside shifted few
        generalize isDone : min (min d todo) (d - inShift) = done at piece
        have left : 8 - (todo - done) = 8 - todo + done := by
          omega
        have joined :
            Nat.ofDigits (2 ^ d) values / 2 ^ start % 2 ^ (8 - todo) |||
                (values.getD ci 0 >>> inShift) <<< (8 - todo) % 256 =
              Nat.ofDigits (2 ^ d) values / 2 ^ start %
                2 ^ (8 - (todo - done)) := by
          rw [piece, Nat.or_comm, ← Nat.two_pow_add_eq_or_of_lt below, left,
            position, pow_add 2 (8 - todo), Nat.mod_mul, pow_add 2 start,
            ← Nat.div_div_eq_div_mul, Nat.add_comm]
        rw [if_neg finished]
        dsimp only
        rw [joined]
        by_cases turned : inShift + done = d
        · rw [if_pos turned]
          exact inductionHypothesis (by omega) (by omega) (by omega)
            (by rw [Nat.mul_succ]; omega)
        · rw [if_neg turned]
          exact inductionHypothesis (by omega) (by omega) (by omega)
            (by omega)

/-- The bytes of a batch are those of the number. -/
theorem packBatch_eq
    (small : ∀ value ∈ values, value < 2 ^ d)
    {turns inShift ci : Nat}
    (shifted : inShift < d)
    (room : d * ci + inShift + 8 * turns ≤ d * values.length) :
    packBatch d values turns inShift ci =
      Codec.Writer.littleEndian turns
        (Nat.ofDigits (2 ^ d) values / 2 ^ (d * ci + inShift)) := by
  induction turns generalizing inShift ci with
  | zero => rfl
  | succ turns inductionHypothesis =>
      obtain ⟨inShift', ci', isByte, shifted', position'⟩ :=
        @packByte_eq d values small 8 8 inShift ci (d * ci + inShift) le_rfl
          le_rfl shifted rfl (by omega)
      rw [Nat.sub_self, pow_zero, Nat.mod_one] at isByte
      rw [packBatch, isByte, Codec.Writer.littleEndian]
      dsimp only
      rw [inductionHypothesis shifted' (by omega), position',
        pow_add 2 (d * ci + inShift), ← Nat.div_div_eq_div_mul]
      rfl

end Digits

end Gossveil.Lattice
