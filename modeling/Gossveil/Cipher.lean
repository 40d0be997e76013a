import Gossveil.Primitives
import Mathlib.Data.List.GetD

namespace Gossveil.Cipher

/-!
# The symmetric ciphers

Message bodies are chained block by block, with a padding that is folded into
the last block in the same loop and checked byte by byte on opening.  Envelopes
use counter mode, and GCM-SIV with the tag behind the ciphertext.
-/

/-- The first sixteen bytes of a slice mixed with the previous block. -/
def mixed (front : Bytes) (previous : Block 16) : Block 16 :=
  ⟨(List.range 16).map fun index =>
      front.getD index 0 ^^^ previous.bytes.getD index 0, by simp⟩

/-- `[]u8 ^ pad`: the plaintext and its padding. -/
def padded (plain : Bytes) : Bytes :=
  let pad := 16 - plain.length % 16
  plain ++ List.replicate pad (UInt8.ofNat pad)

/-- The block a slice of at least sixteen bytes starts with. -/
def front (bytes : Bytes) : Block 16 :=
  mixed bytes (Block.zero 16)

/-- The carry over the bytes of a counter, the last one first. -/
def carry : Bytes → Bytes
  | [] => []
  | byte :: rest =>
      if byte + 1 = 0 then 0 :: carry rest else (byte + 1) :: rest

theorem length_carry (bytes : Bytes) :
    (carry bytes).length = bytes.length := by
  induction bytes with
  | nil =>
      rfl
  | cons byte rest inductionHypothesis =>
      unfold carry
      split_ifs <;> simp [inductionHypothesis]

/-- The counter of the next block. -/
def bump (counter : Block 16) : Block 16 :=
  ⟨(carry counter.bytes.reverse).reverse, by simp [length_carry]⟩

/-- Mixing twice with the same stream gives the bytes back. -/
theorem zipWith_xor_twice
    {bytes stream : Bytes}
    (covered : bytes.length ≤ stream.length) :
    List.zipWith (· ^^^ ·) (List.zipWith (· ^^^ ·) bytes stream) stream =
      bytes := by
  induction bytes generalizing stream with
  | nil =>
      simp
  | cons byte rest inductionHypothesis =>
      cases stream with
      | nil => simp at covered
      | cons first stream =>
          have coveredRest : rest.length ≤ stream.length := by
            simpa using covered
          simp [inductionHypothesis coveredRest, UInt8.xor_assoc]

section Modes

variable [Aes]

/-- The sealing loop over some blocks. -/
def sealBlocks (key : Block 32) :
    (blocks : Nat) →
    (previous : Block 16) →
    Bytes →
    Bytes
  | 0, _, _ => []
  | blocks + 1, previous, plain =>
      let sealed := Aes.encrypt key (mixed plain previous)
      sealed.bytes ++ sealBlocks key blocks sealed (plain.drop 16)

/-- Pads a text and chains its blocks. -/
def cbcSeal (key : Block 32) (iv : Block 16) (plain : Bytes) : Bytes :=
  sealBlocks key (plain.length / 16 + 1) iv (padded plain)

/-- Sealing keeps the length of whole blocks. -/
theorem length_sealBlocks
    (key : Block 32)
    (blocks : Nat)
    (previous : Block 16)
    (plain : Bytes) :
    (sealBlocks key blocks previous plain).length = blocks * 16 := by
  induction blocks generalizing previous plain with
  | zero =>
      simp [sealBlocks]
  | succ blocks inductionHypothesis =>
      simp only [sealBlocks, List.length_append, Block.length_eq,
        inductionHypothesis]
      omega

/-- The padding fills the last block, or adds one. -/
theorem length_cbcSeal
    (key : Block 32)
    (iv : Block 16)
    (plain : Bytes) :
    (cbcSeal key iv plain).length = (plain.length / 16 + 1) * 16 :=
  length_sealBlocks ..

/-- The opening loop over some blocks. -/
def openBlocks (key : Block 32) :
    (blocks : Nat) →
    (previous : Block 16) →
    Bytes →
    Bytes
  | 0, _, _ => []
  | blocks + 1, previous, sealed =>
      let block := front sealed
      (mixed (Aes.decrypt key block).bytes previous).bytes ++
        openBlocks key blocks block (sealed.drop 16)

/-- The plaintext behind a correct padding. -/
def unpadded (out : Bytes) : Outcome Fault Bytes :=
  let pad := (out.getLastD 0).toNat
  if pad = 0 ∨ 16 < pad then
    .error .badPadding
  else if (out.drop (out.length - pad)).all fun byte => byte.toNat = pad then
    .ok (out.take (out.length - pad))
  else
    .error .badPadding

/-- Opens whole blocks and takes the padding off; anything else is refused. -/
def cbcOpen
    (key : Block 32)
    (iv : Block 16)
    (sealed : Bytes) :
    Outcome Fault Bytes :=
  if sealed.length = 0 ∨ sealed.length % 16 ≠ 0 then
    .error .badMessage
  else
    unpadded (openBlocks key (sealed.length / 16) iv sealed)

/-- Opening never traps. -/
theorem cbcOpen_ne_trap
    (key : Block 32)
    (iv : Block 16)
    (sealed : Bytes) :
    cbcOpen key iv sealed ≠ .trap := by
  unfold cbcOpen unpadded
  split_ifs
  · simp
  · simp only
    split_ifs <;> simp

/-! ### Counter mode -/

/-- The loop over some blocks; the last one may be cut short. -/
def ctrBlocks (key : Block 32) :
    (blocks : Nat) →
    (counter : Block 16) →
    Bytes →
    Bytes
  | 0, _, _ => []
  | blocks + 1, counter, input =>
      List.zipWith (· ^^^ ·) (input.take 16) (Aes.encrypt key counter).bytes ++
        ctrBlocks key blocks (bump counter) (input.drop 16)

/-- The same call seals and opens. -/
def ctr (key : Block 32) (iv : Block 16) (input : Bytes) : Bytes :=
  ctrBlocks key ((input.length + 15) / 16) iv input

theorem length_ctrBlocks
    {key : Block 32}
    {blocks : Nat}
    {counter : Block 16}
    {input : Bytes}
    (enough : input.length ≤ blocks * 16) :
    (ctrBlocks key blocks counter input).length = input.length := by
  induction blocks generalizing counter input with
  | zero =>
      have empty : input.length = 0 := by
        omega
      simp [ctrBlocks, empty]
  | succ blocks inductionHypothesis =>
      have rest : (input.drop 16).length ≤ blocks * 16 := by
        rw [List.length_drop]
        omega
      simp only [ctrBlocks, List.length_append, List.length_zipWith,
        List.length_take, Block.length_eq, inductionHypothesis rest,
        List.length_drop]
      omega

theorem ctrBlocks_nil
    (key : Block 32)
    (blocks : Nat)
    (counter : Block 16) :
    ctrBlocks key blocks counter [] = [] := by
  induction blocks generalizing counter with
  | zero =>
      rfl
  | succ blocks inductionHypothesis =>
      simp [ctrBlocks, inductionHypothesis]

/-- The key stream taken twice cancels. -/
theorem ctrBlocks_twice
    {key : Block 32}
    {blocks : Nat}
    {counter : Block 16}
    {input : Bytes}
    (enough : input.length ≤ blocks * 16) :
    ctrBlocks key blocks counter (ctrBlocks key blocks counter input) =
      input := by
  induction blocks generalizing counter input with
  | zero =>
      have empty : input = [] :=
        List.length_eq_zero_iff.mp (Nat.le_zero.mp (by simpa using enough))
      simp [ctrBlocks, empty]
  | succ blocks inductionHypothesis =>
      have rest : (input.drop 16).length ≤ blocks * 16 := by
        rw [List.length_drop]
        omega
      have covered :
          (input.take 16).length ≤ (Aes.encrypt key counter).bytes.length := by
        simp
      have first := zipWith_xor_twice covered
      by_cases whole : 16 ≤ input.length
      · have length :
            (List.zipWith (· ^^^ ·) (input.take 16)
              (Aes.encrypt key counter).bytes).length = 16 := by
          simp [whole]
        simp only [ctrBlocks]
        rw [List.take_left' length, List.drop_left' length, first,
          inductionHypothesis rest, List.take_append_drop]
      · have last : input.drop 16 = [] :=
          List.drop_eq_nil_of_le (Nat.le_of_not_le whole)
        have length :
            (List.zipWith (· ^^^ ·) (input.take 16)
              (Aes.encrypt key counter).bytes).length ≤ 16 := by
          simp
        have all : input.take 16 = input :=
          List.take_of_length_le (Nat.le_of_not_le whole)
        simp only [ctrBlocks, last, ctrBlocks_nil, List.append_nil]
        rw [List.take_of_length_le length, first,
          List.drop_eq_nil_of_le length, ctrBlocks_nil, List.append_nil, all]

/-- CTR keeps the length and undoes itself. -/
theorem length_ctr (key : Block 32) (iv : Block 16) (input : Bytes) :
    (ctr key iv input).length = input.length :=
  length_ctrBlocks (by omega)

/-- Counter mode undoes itself. -/
theorem ctr_ctr (key : Block 32) (iv : Block 16) (input : Bytes) :
    ctr key iv (ctr key iv input) = input := by
  unfold ctr
  rw [show (ctrBlocks key ((input.length + 15) / 16) iv input).length =
    input.length from length_ctr key iv input]
  exact ctrBlocks_twice (by omega)

end Modes

/-! ### Block chaining undone -/

/-- Mixing twice with the same block gives the bytes back. -/
theorem mixed_twice
    {bytes : Bytes}
    (long : 16 ≤ bytes.length)
    (previous : Block 16) :
    (mixed (mixed bytes previous).bytes previous).bytes = bytes.take 16 := by
  apply List.ext_getElem
  · simp [long]
  · intro index inMixed inTake
    have inBytes : index < bytes.length := by
      simp only [List.length_take] at inTake
      omega
    have inBlock : index < 16 := by
      simpa using inMixed
    simp [mixed, inBytes, inBlock, UInt8.xor_assoc]

theorem front_append (block : Block 16) (rest : Bytes) :
    front (block.bytes ++ rest) = block := by
  ext1
  apply List.ext_getElem
  · simp
  · intro index inFront inBlock
    have inRange : index < 16 := by
      simpa using inBlock
    have zero : (Block.zero 16).bytes.getD index 0 = 0 :=
      List.getD_replicate _ inRange
    have first : (block.bytes ++ rest).getD index 0 = block.bytes[index] := by
      rw [List.getD_append _ _ _ _ inBlock, List.getD_eq_getElem _ _ inBlock]
    simp only [front, mixed, List.getElem_map, List.getElem_range, zero,
      first, UInt8.xor_zero]

/-- The padding that is added is the one that is taken off. -/
theorem unpadded_padded (plain : Bytes) : unpadded (padded plain) = .ok plain := by
  have less := Nat.mod_lt plain.length (show 0 < 16 by decide)
  generalize padding : 16 - plain.length % 16 = pad
  have some : pad ≠ 0 := by
    omega
  have few : pad ≤ 16 := by
    omega
  have last : (plain ++ List.replicate pad (UInt8.ofNat pad)).getLastD 0 =
      UInt8.ofNat pad := by
    rw [List.getLastD_eq_getLast?, List.getLast?_append,
      List.getLast?_replicate, if_neg some]
    rfl
  have fits : (UInt8.ofNat pad).toNat = pad := by
    simp
    omega
  have rest :
      (plain ++ List.replicate pad (UInt8.ofNat pad)).length - pad =
        plain.length := by
    simp
  simp only [unpadded, padded, padding, last, fits, rest]
  rw [if_neg (by omega), List.drop_left, List.take_left, if_pos]
  refine List.all_eq_true.mpr fun byte inPadding => decide_eq_true ?_
  rw [List.eq_of_mem_replicate inPadding, fits]

/-- AES decrypts what it encrypted under the same key. -/
def AesCorrect [Aes] : Prop :=
  ∀ key block, Aes.decrypt key (Aes.encrypt key block) = block

section Opened

variable [Aes]

/-- Opening undoes sealing, block by block. -/
theorem openBlocks_sealBlocks
    (correct : AesCorrect)
    {key : Block 32}
    {blocks : Nat}
    {previous : Block 16}
    {plain : Bytes}
    (whole : plain.length = blocks * 16) :
    openBlocks key blocks previous (sealBlocks key blocks previous plain) =
      plain := by
  induction blocks generalizing previous plain with
  | zero =>
      exact (List.length_eq_zero_iff.mp (by simpa using whole)).symm
  | succ blocks inductionHypothesis =>
      have long : 16 ≤ plain.length := by
        omega
      have rest : (plain.drop 16).length = blocks * 16 := by
        rw [List.length_drop]
        omega
      simp only [sealBlocks, openBlocks, front_append, correct key,
        mixed_twice long]
      rw [List.drop_left' (Block.length_eq _), inductionHypothesis rest,
        List.take_append_drop]

/-- What CBC sealed opens under the same key and vector. -/
theorem cbcOpen_cbcSeal
    (correct : AesCorrect)
    (key : Block 32)
    (iv : Block 16)
    (plain : Bytes) :
    cbcOpen key iv (cbcSeal key iv plain) = .ok plain := by
  have length := length_cbcSeal key iv plain
  have filled : (padded plain).length = (plain.length / 16 + 1) * 16 := by
    simp only [padded, List.length_append, List.length_replicate]
    omega
  have blocks : (cbcSeal key iv plain).length / 16 = plain.length / 16 + 1 := by
    omega
  rw [cbcOpen, if_neg (by omega), blocks, cbcSeal,
    openBlocks_sealBlocks correct filled, unpadded_padded]

end Opened

theorem sample_aesCorrect : @AesCorrect Sample.aes := by
  intro key block
  have twice :
      Sample.mixed (key.slice 0 16 (by decide))
          (Sample.mixed (key.slice 0 16 (by decide)) block) =
        block := by
    ext1
    apply List.ext_getElem
    · simp [Sample.mixed]
    · intro index inMixed inBlock
      simp [Sample.mixed, ← UInt8.xor_assoc]
  exact twice

/-- The tag stands behind the ciphertext. -/
def sivSeal
    [GcmSiv]
    (key : Block 32)
    (nonce : Block 12)
    (plain aad : Bytes) :
    Bytes :=
  let sealed := GcmSiv.encrypt key nonce plain aad
  sealed.1 ++ sealed.2.bytes

/-- Opens what is sealed with its tag at the end. -/
def sivOpen
    [GcmSiv]
    (key : Block 32)
    (nonce : Block 12)
    (sealed aad : Bytes) :
    Outcome Fault Bytes :=
  if short : sealed.length < 16 then
    .error .badMessage
  else
    Outcome.ofOption .badMessage
      (GcmSiv.decrypt key nonce (sealed.take (sealed.length - 16))
        (Block.last 16 sealed (Nat.not_lt.mp short)) aad)

/-- A correct AEAD: what was encrypted decrypts under its tag. -/
def SivCorrect [GcmSiv] : Prop :=
  ∀ key nonce plain aad,
    GcmSiv.decrypt key nonce (GcmSiv.encrypt key nonce plain aad).1
      (GcmSiv.encrypt key nonce plain aad).2 aad =
        some plain

/-- What is sealed opens again. -/
theorem sivOpen_sivSeal
    [GcmSiv]
    (correct : SivCorrect)
    (key : Block 32)
    (nonce : Block 12)
    (plain aad : Bytes) :
    sivOpen key nonce (sivSeal key nonce plain aad) aad = .ok plain := by
  have long : ¬ (sivSeal key nonce plain aad).length < 16 := by
    simp [sivSeal]
  have body :
      (sivSeal key nonce plain aad).take
          ((sivSeal key nonce plain aad).length - 16) =
        (GcmSiv.encrypt key nonce plain aad).1 := by
    simp [sivSeal]
  have tag :
      Block.last 16 (sivSeal key nonce plain aad) (Nat.not_lt.mp long) =
        (GcmSiv.encrypt key nonce plain aad).2 :=
    Block.last_append _ _ _
  simp only [sivOpen, dif_neg long, body, tag, correct key nonce plain aad]
  rfl

end Gossveil.Cipher
