import Gossveil.Cipher

namespace Gossveil

/-!
# Block chaining is a bijection

Opening undoes sealing, and sealing undoes opening: the padding check accepts
one padding for each content, and decryption, which undoes encryption on the
finitely many blocks, is undone by it as well.
-/

namespace Block

/-- There are finitely many blocks of a size. -/
instance (size : Nat) : Finite (Block size) :=
  Finite.of_injective (fun block : Block size => fun index : Fin size =>
      (block.bytes.get (index.cast block.length_bytes.symm)).toFin)
    (by
      intro first second same
      apply Block.ext
      apply List.ext_get (by simp)
      intro index inFirst inSecond
      exact UInt8.toFin_inj.mp
        (congrFun same ⟨index, by simpa using inFirst⟩))

end Block

namespace Cipher

/-- Mixing reads the first block only. -/
theorem mixed_append (block previous : Block 16) (rest : Bytes) :
    mixed (block.bytes ++ rest) previous = mixed block.bytes previous := by
  have same :
      ∀ index ∈ List.range 16,
        (block.bytes ++ rest).getD index 0 = block.bytes.getD index 0 := by
    intro index member
    exact List.getD_append _ _ _ _ (by simpa using member)
  apply Block.ext
  exact List.map_congr_left fun index member =>
    congrArg (· ^^^ previous.bytes.getD index 0) (same index member)

/-- The first block of a slice is its first sixteen bytes. -/
theorem bytes_front
    {bytes : Bytes}
    (long : 16 ≤ bytes.length) :
    (front bytes).bytes = bytes.take 16 := by
  have whole : (bytes.take 16).length = 16 := by
    simpa using long
  have shape := front_append ⟨bytes.take 16, whole⟩ (bytes.drop 16)
  simp only [List.take_append_drop] at shape
  rw [shape]

/-- A padding is accepted only behind the content it pads. -/
theorem padded_of_unpadded
    {out plain : Bytes}
    (whole : out.length % 16 = 0)
    (accepted : unpadded out = .ok plain) :
    padded plain = out ∧ out.length / 16 = plain.length / 16 + 1 := by
  rw [unpadded] at accepted
  split_ifs at accepted with range covers
  rw [not_or] at range
  have some_bytes : out ≠ [] := by
    rintro rfl
    exact range.1 rfl
  have positive := List.length_pos_of_ne_nil some_bytes
  generalize isPad : (out.getLastD 0).toNat = pad at *
  have shape := Outcome.ok.inj accepted
  have inside : pad ≤ out.length := by
    omega
  have length : plain.length = out.length - pad := by
    rw [← shape, List.length_take]
    omega
  have padding : 16 - plain.length % 16 = pad := by
    omega
  have behind :
      out.drop (out.length - pad) =
        List.replicate pad (UInt8.ofNat pad) := by
    apply List.eq_replicate_iff.mpr
    constructor
    · rw [List.length_drop]
      omega
    · intro byte member
      have covered := of_decide_eq_true (List.all_eq_true.mp covers byte member)
      rw [← covered, UInt8.ofNat_toNat]
  constructor
  · rw [padded, padding, ← behind, ← shape, List.take_append_drop]
  · omega

section Sealed

variable [Aes]

/-- Decryption is injective too, for there are finitely many blocks. -/
theorem AesCorrect.encrypt_decrypt
    (correct : AesCorrect)
    (key : Block 32)
    (block : Block 16) :
    Aes.encrypt key (Aes.decrypt key block) = block := by
  have injective : Function.Injective (Aes.encrypt key) :=
    Function.LeftInverse.injective (correct key)
  obtain ⟨plain, rfl⟩ := Finite.surjective_of_injective injective block
  rw [correct]

/-- Sealing what was opened gives the blocks back. -/
theorem sealBlocks_openBlocks
    (correct : AesCorrect)
    {key : Block 32}
    {blocks : Nat}
    {previous : Block 16}
    {sealed : Bytes}
    (whole : sealed.length = blocks * 16) :
    sealBlocks key blocks previous (openBlocks key blocks previous sealed) =
      sealed := by
  induction blocks generalizing previous sealed with
  | zero =>
      exact (List.length_eq_zero_iff.mp (by simpa using whole)).symm
  | succ blocks inductionHypothesis =>
      have long : 16 ≤ sealed.length := by
        omega
      have rest : (sealed.drop 16).length = blocks * 16 := by
        rw [List.length_drop]
        omega
      have unmixed :
          ∀ block : Block 16,
            mixed (mixed block.bytes previous).bytes previous = block := by
        intro block
        ext1
        rw [mixed_twice (Block.length_eq block).ge,
          List.take_of_length_le (Block.length_eq block).le]
      simp only [openBlocks, sealBlocks]
      rw [mixed_append, unmixed, correct.encrypt_decrypt,
        List.drop_left' (Block.length_eq _), inductionHypothesis rest,
        bytes_front long, List.take_append_drop]

/-- The length of an opened message before its padding is taken off. -/
theorem length_openBlocks
    (key : Block 32)
    (blocks : Nat)
    (previous : Block 16)
    (sealed : Bytes) :
    (openBlocks key blocks previous sealed).length = blocks * 16 := by
  induction blocks generalizing previous sealed with
  | zero =>
      simp [openBlocks]
  | succ blocks inductionHypothesis =>
      simp only [openBlocks, List.length_append, Block.length_eq,
        inductionHypothesis]
      omega

/-- What CBC opens is sealed again to the same bytes. -/
theorem cbcSeal_of_cbcOpen
    (correct : AesCorrect)
    {key : Block 32}
    {iv : Block 16}
    {sealed plain : Bytes}
    (opened : cbcOpen key iv sealed = .ok plain) :
    cbcSeal key iv plain = sealed := by
  rw [cbcOpen] at opened
  split_ifs at opened with refused
  rw [not_or, not_not] at refused
  have whole : sealed.length = sealed.length / 16 * 16 := by
    omega
  have length :=
    length_openBlocks key (sealed.length / 16) iv sealed
  obtain ⟨shape, blocks⟩ := padded_of_unpadded (by omega) opened
  rw [length] at blocks
  rw [cbcSeal, shape, ← blocks, Nat.mul_div_cancel _ (by decide),
    sealBlocks_openBlocks correct whole]

/--
Opening undoes sealing, the sealed length is the next multiple of sixteen
strictly above the plaintext's, and sealing undoes every opening.
-/
theorem cbc_bijective
    (correct : AesCorrect)
    (key : Block 32)
    (iv : Block 16) :
    (∀ plain,
        cbcOpen key iv (cbcSeal key iv plain) = .ok plain ∧
          (cbcSeal key iv plain).length % 16 = 0 ∧
          plain.length < (cbcSeal key iv plain).length ∧
          (cbcSeal key iv plain).length ≤ plain.length + 16) ∧
      ∀ sealed plain,
        cbcOpen key iv sealed = .ok plain → cbcSeal key iv plain = sealed := by
  constructor
  · intro plain
    have length := length_cbcSeal key iv plain
    refine ⟨cbcOpen_cbcSeal correct key iv plain, ?_, ?_, ?_⟩ <;> omega
  · intro sealed plain opened
    exact cbcSeal_of_cbcOpen correct opened

end Sealed

/-- A plaintext that ends in what looks like its padding. -/
theorem cbc_bijective_looksPadded :
    @cbcOpen Sample.aes (Block.zero 32) (Block.zero 16)
        (@cbcSeal Sample.aes (Block.zero 32) (Block.zero 16) [7, 2, 2]) =
      .ok [7, 2, 2] :=
  ((@cbc_bijective Sample.aes sample_aesCorrect (Block.zero 32)
    (Block.zero 16)).1 [7, 2, 2]).1

end Cipher

end Gossveil
