import Gossveil.DecompressionSpecs

namespace Gossveil.Lattice

/-!
# Noise is the centred binomial distribution

A word holds the bits of several coefficients.  The sum of two bits has two
bits, so that the sums of all the pairs of a word are made at once, side by
side, and no carry leaves a pair.
-/

variable {ε : Type}

open Codec.Reader (littleEndian)

namespace Noise

/-! ## Sums side by side -/

/-- A one in the lower place of every pair. -/
def evenBits : Nat → Nat
  | 0 => 0
  | count + 1 => 4 * evenBits count + 1

/-- The sums of the two bits of every pair. -/
def pairSums (count t : Nat) : Nat :=
  (t &&& evenBits count) + (t / 2 &&& evenBits count)

/-- The even bits are taken off two at a time. -/
theorem and_evenBits (t count : Nat) :
    t &&& evenBits (count + 1) = t % 2 + 4 * (t / 4 &&& evenBits count) := by
  have ones : evenBits (count + 1) % 2 ^ 2 = 1 := by
    rw [evenBits]
    omega
  have others : evenBits (count + 1) / 2 ^ 2 = evenBits count := by
    rw [evenBits]
    omega
  have low : (t &&& evenBits (count + 1)) % 4 = t % 4 % 2 :=
    (@Nat.and_mod_two_pow t _ 2).trans (by rw [ones, Nat.and_one_is_mod])
  have high :
      (t &&& evenBits (count + 1)) / 4 = (t / 4 &&& evenBits count) :=
    (@Nat.and_div_two_pow t _ 2).trans (by rw [others])
  omega

/-- The sums of pairs are taken off two bits at a time. -/
theorem pairSums_succ (count t : Nat) :
    pairSums (count + 1) t =
      t % 2 + t / 2 % 2 + 4 * pairSums count (t / 4) := by
  rw [pairSums, pairSums, and_evenBits, and_evenBits,
    show t / 2 / 4 = t / 4 / 2 by omega]
  ring

/-- No sum disturbs another one. -/
theorem pairSums_digit
    {count place : Nat}
    (inside : place < count)
    (t : Nat) :
    pairSums count t / 4 ^ place % 4 =
      t / 4 ^ place % 2 + t / 4 ^ place / 2 % 2 := by
  induction place generalizing count t with
  | zero =>
      obtain ⟨count, rfl⟩ := Nat.exists_eq_add_one_of_ne_zero inside.ne'
      rw [pairSums_succ]
      omega
  | succ place inductionHypothesis =>
      obtain ⟨count, rfl⟩ := Nat.exists_eq_add_one_of_ne_zero
        (Nat.ne_of_gt (Nat.zero_lt_of_lt inside))
      have rest := inductionHypothesis (Nat.lt_of_succ_lt_succ inside) (t / 4)
      have small : t % 2 + t / 2 % 2 < 4 := by
        omega
      rw [pow_succ', ← Nat.div_div_eq_div_mul, ← Nat.div_div_eq_div_mul,
        pairSums_succ, Nat.add_mul_div_left _ _ (by decide),
        Nat.div_eq_of_lt small, Nat.zero_add, rest]

theorem evenBits_lt (count : Nat) : 2 * evenBits count < 4 ^ count := by
  induction count with
  | zero => decide
  | succ count inductionHypothesis =>
      rw [evenBits, pow_succ]
      omega

/-! ## The two words -/

/-- The number of bytes of a word. -/
def bytesOf : Word → Nat
  | .w32 => 4
  | .w64 => 8

theorem batchBytes_two (word : Word) : batchBytes word 2 = bytesOf word := by
  cases word <;> decide

theorem batchCount_two (word : Word) :
    batchCount word 2 = 2 * bytesOf word := by
  cases word <;> decide

set_option maxRecDepth 100000 in
theorem mask_two (word : Word) :
    mask word 2 = evenBits (4 * bytesOf word) := by
  cases word <;> decide

theorem bits_eq (word : Word) : word.bits = 2 * (4 * bytesOf word) := by
  cases word <;> rfl

/-- A word's masked sum is the sum of its pairs. -/
theorem sums_two (word : Word) (t : Nat) :
    (sums word 2 t : Outcome ε Nat) =
      .ok (pairSums (4 * bytesOf word) t) := by
  have room := evenBits_lt (4 * bytesOf word)
  have first := @Nat.and_le_right t (evenBits (4 * bytesOf word))
  have second := @Nat.and_le_right (t / 2) (evenBits (4 * bytesOf word))
  have power : 4 ^ (4 * bytesOf word) = 2 ^ word.bits := by
    rw [bits_eq, pow_mul 2 2]
    rfl
  rw [power] at room
  simp only [sums, mask_two, List.range_succ, List.range_zero, List.nil_append,
    List.singleton_append, List.foldlM_cons, List.foldlM_nil,
    Nat.shiftRight_eq_div_pow, pow_zero, pow_one, Nat.div_one]
  rw [Outcome.add_of_lt (by omega), Outcome.ok_bind,
    Outcome.add_of_lt (by omega), Nat.zero_add]
  rfl

/-- The bytes of a word, lowest first. -/
theorem gathered (bytes : Bytes) (start count : Nat) :
    (List.range count).foldl
        (fun t place =>
          t ||| (bytes.getD (start + place) 0).toNat <<< (8 * place))
        0 =
      littleEndian bytes / 256 ^ start % 256 ^ count := by
  induction count with
  | zero => exact (Nat.mod_one _).symm
  | succ count inductionHypothesis =>
      have small :
          littleEndian bytes / 256 ^ start % 2 ^ (8 * count) <
            2 ^ (8 * count) :=
        Nat.mod_lt _ (Nat.two_pow_pos _)
      rw [List.range_succ, List.foldl_append, inductionHypothesis,
        List.foldl_cons, List.foldl_nil, pow_256 count, Nat.shiftLeft_eq,
        Nat.or_comm, Nat.mul_comm, ← Nat.two_pow_add_eq_or_of_lt small,
        ← pow_256, toNat_byte, pow_succ, Nat.mod_mul, pow_add,
        ← Nat.div_div_eq_div_mul, Nat.add_comm]

/-- A bit of a word is a bit of the string. -/
theorem bit_of_word
    (bytes : Bytes)
    (start : Nat)
    {count place : Nat}
    (inside : place < 8 * count) :
    littleEndian bytes / 256 ^ start % 256 ^ count / 2 ^ place % 2 =
      MlKem.byteDecode 1 bytes (8 * start + place) := by
  have power : 256 ^ count = 2 ^ place * (2 * 2 ^ (8 * count - place - 1)) := by
    rw [pow_256, ← pow_succ', ← pow_add]
    congr 1
    omega
  rw [MlKem.byteDecode, one_mul, pow_add, ← pow_256,
    ← Nat.div_div_eq_div_mul, pow_one, power, Nat.mod_mul_right_div_self,
    Nat.mod_mul_right_mod]

end Noise

/-! ## The noise -/

open Noise

/-- The two bits of a coefficient less the next two. -/
def noiseValue (bytes : Bytes) (index : Nat) : Int :=
  let bit := fun place => MlKem.byteDecode 1 bytes (4 * index + place)
  ((bit 0 + bit 1 : Nat) : Int) - (bit 2 + bit 3 : Nat)

/-- A noise coefficient is small. -/
theorem noiseValue_bounds (bytes : Bytes) (index : Nat) :
    -2 ≤ noiseValue bytes index ∧ noiseValue bytes index ≤ 2 := by
  have bit := fun place => byteDecode_lt 1 bytes (4 * index + place)
  have first := bit 0
  have second := bit 1
  have third := bit 2
  have fourth := bit 3
  simp only [noiseValue]
  omega

/-- The standard samples the difference of two pairs. -/
theorem samplePolyCbd_two (bytes : Bytes) (index : Fin 256) :
    MlKem.samplePolyCbd 2 bytes index = (noiseValue bytes index.val : Zq) := by
  simp only [MlKem.samplePolyCbd, Finset.sum_range_succ, Finset.sum_range_zero,
    zero_add, noiseValue]
  rw [show 2 * index.val * 2 = 4 * index.val by ring]
  push_cast
  rfl

/-- A sum of two bits of a word. -/
theorem word_sum
    (word : Word)
    (bytes : Bytes)
    (turn : Nat)
    {pair : Nat}
    (inside : pair < 4 * bytesOf word) :
    (pairSums (4 * bytesOf word)
          (littleEndian bytes / 256 ^ (bytesOf word * turn) %
            256 ^ bytesOf word) >>>
        (pair * 2)) &&&
        (2 ^ 2 - 1) =
      MlKem.byteDecode 1 bytes (8 * (bytesOf word * turn) + 2 * pair) +
        MlKem.byteDecode 1 bytes
          (8 * (bytesOf word * turn) + (2 * pair + 1)) := by
  have power : 4 ^ pair = 2 ^ (2 * pair) := by
    rw [pow_mul]
    rfl
  rw [Nat.and_two_pow_sub_one_eq_mod, Nat.shiftRight_eq_div_pow,
    Nat.mul_comm pair, ← power]
  refine (pairSums_digit inside _).trans ?_
  rw [power, Nat.div_div_eq_div_mul _ _ 2, ← pow_succ,
    bit_of_word bytes _ (by omega), bit_of_word bytes _ (by omega)]

/-- A coefficient read off a word is that of the bytes. -/
theorem word_entry
    (word : Word)
    (bytes : Bytes)
    (turn : Nat)
    {place : Nat}
    (inside : place < 2 * bytesOf word) :
    let t :=
      littleEndian bytes / 256 ^ (bytesOf word * turn) % 256 ^ bytesOf word
    let d := pairSums (4 * bytesOf word) t
    (((d >>> (2 * place * 2)) &&& (2 ^ 2 - 1) : Nat) : Int) -
        ((d >>> ((2 * place + 1) * 2)) &&& (2 ^ 2 - 1) : Nat) =
      noiseValue bytes (2 * bytesOf word * turn + place) := by
  dsimp only
  rw [word_sum word bytes turn (by omega), word_sum word bytes turn (by omega)]
  have start :
      8 * (bytesOf word * turn) = 4 * (2 * bytesOf word * turn) := by
    ring
  simp only [noiseValue]
  rw [Nat.mul_add 4, ← start, show 2 * (2 * place) = 4 * place by ring,
    show 2 * (2 * place + 1) = 4 * place + 2 by ring]
  rfl

/-- Sampling gives the standard's noise polynomial. -/
theorem polyNoise_delivers
    [Sha3]
    (word : Word)
    (nonce : UInt8)
    (seed : Bytes) :
    (polyNoise word 2 nonce seed : Outcome ε Poly).Delivers fun p : Poly =>
      Poly.Within 2 p ∧
        p.element =
          MlKem.samplePolyCbd 2
            (squeeze (Sha3.shake256 (seed ++ [nonce])) 0 128) := by
  have entries :
      (polyNoise word 2 nonce seed : Outcome ε Poly).Delivers fun p : Poly =>
        ∀ index, index < 2 * bytesOf word * (256 / (2 * bytesOf word)) →
          p.value index =
            noiseValue (squeeze (Sha3.shake256 (seed ++ [nonce])) 0 128)
              index := by
    have size : 2 * 2 * 256 / 8 = 128 := rfl
    simp only [polyNoise, size, batchCount_two, batchBytes_two]
    generalize squeeze (Sha3.shake256 (seed ++ [nonce])) 0 128 = bytes
    refine @Outcome.Delivers.loop ε Poly
      (fun turn p =>
        ∀ index, index < 2 * bytesOf word * turn →
          p.value index = noiseValue bytes index)
      _ _ _ (fun index below => absurd below (Nat.not_lt_zero index))
      fun turn inside p filled => ?_
    rw [gathered, sums_two, Outcome.ok_bind]
    have room := Nat.mul_le_mul_left (2 * bytesOf word) inside
    have whole := Nat.mul_div_le 256 (2 * bytesOf word)
    rw [Nat.mul_succ] at room
    refine @Poly.fill_delivers ε
      (fun index c => c = noiseValue bytes index) (2 * bytesOf word * turn)
      (2 * bytesOf word) (by omega) p filled (fun place => checked _)
      fun place small => ?_
    rw [word_entry word bytes turn small]
    have bounds := noiseValue_bounds bytes (2 * bytesOf word * turn + place)
    exact @checked_eq_ok ε
      (noiseValue bytes (2 * bytesOf word * turn + place)) (by omega)
      (by omega)
  have whole : 2 * bytesOf word * (256 / (2 * bytesOf word)) = 256 := by
    cases word <;> rfl
  rw [whole] at entries
  refine entries.imp fun p values => ⟨?_, ?_⟩
  · intro index inside
    rw [values index inside]
    exact noiseValue_bounds _ index
  · funext index
    rw [samplePolyCbd_two, ← values index.val index.isLt]
    rfl

end Gossveil.Lattice
