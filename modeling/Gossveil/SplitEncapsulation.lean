import Gossveil.SplitCarry

namespace Gossveil.Lattice

/-!
# The split encapsulation is the whole one

Every step of the two halves is followed by the ring element it stands for.
The halves meet in the carry, and their two capsules make up the ciphertext.
-/

variable {ε : Type}

open Gossveil.Lattice.Poly (Within Canonical)

theorem ofBytes_delivers
    {size : Nat}
    {bytes : Bytes}
    (length : bytes.length = size) :
    (Outcome.unwrap (Block.ofBytes size bytes) :
      Outcome ε (Block size)).Delivers fun block : Block size =>
      block.bytes = bytes := by
  refine ⟨⟨bytes, length⟩, ?_, rfl⟩
  rw [Block.ofBytes, dif_pos length]
  rfl

theorem length_encode (d : Nat) (f : Rq) :
    (MlKem.encode d f).length = 32 * d :=
  Codec.length_littleEndian _ _

/-- The inverse transform of a vector goes entry by entry. -/
theorem Vec.invNtt_represents
    [Checks]
    {g : Fin 3 → Rq}
    {v : Vec}
    (represents :
      Vec.Represents (Within q) (fun i index => 169 * g i index) v) :
    (v.invNtt : Outcome ε Vec).Delivers
      (Vec.Represents (Within q) fun i => unhat (g i)) :=
  Vec.each_represents fun i =>
    Poly.invNtt_product (represents i).1 (represents i).2

/-! ## What the second half reads -/

/-- The key as a vector of least residues. -/
theorem key_represents (encap : Bytes) :
    (Vec.each fun i => do
        let p : Poly ← polyFromBytes ((encap.drop (384 * i.val)).take 384)
        p.normalize : Outcome ε Vec).Delivers
      (Vec.Represents Canonical (MlKem.tHat encap)) := by
  refine Vec.each_represents fun i => ?_
  refine (polyFromBytes_delivers _).bind fun p values => ?_
  refine (Poly.normalize_delivers p).imp
    fun p' ⟨canonical, same⟩ => ⟨canonical, ?_⟩
  rw [same]
  funext index
  rw [Poly.element, values index.val index.isLt, MlKem.tHat, Int.cast_natCast]

/-- Reduced coefficients are read as they were written. -/
theorem hidden_read
    {rh : Vec}
    {g : Fin 3 → Rq}
    (isHidden : Vec.Represents Canonical g rh)
    (e2 : Poly)
    (message : Bytes) :
    (Vec.each fun i =>
        Poly.build fun index =>
          checked
            ((readInt16 (carryBytes rh e2 message)
              (512 * i.val + 2 * index)).toInt % q) :
      Outcome ε Vec).Delivers (Vec.Represents Canonical g) := by
  refine Vec.each_represents fun i => ?_
  have entries :=
    @Poly.build_delivers ε (fun index c => c = (rh.ps.get i).value index)
      (fun index =>
        checked
          ((readInt16 (carryBytes rh e2 message)
            (512 * i.val + 2 * index)).toInt % q))
      fun index inside => by
        obtain ⟨low, high⟩ := (isHidden i).1 index inside
        rw [readInt16_hidden rh e2 message i inside,
          Int.emod_eq_of_lt low high]
        exact checked_eq_ok (by omega) (by simp only [q] at high; omega)
  refine entries.imp fun p values => ⟨?_, ?_⟩
  · intro index inside
    rw [values index inside]
    exact (isHidden i).1 index inside
  · rw [← (isHidden i).2]
    funext index
    rw [Poly.element, Poly.element, values index.val index.isLt]

/-- The noise polynomial is read off the carry. -/
theorem noise_read (rh : Vec) (e2 : Poly) (message : Bytes) :
    (Poly.build fun index =>
        return readInt16 (carryBytes rh e2 message) (1536 + 2 * index) :
      Outcome ε Poly).Delivers fun p : Poly =>
      ∀ index, index < 256 → p.value index = e2.value index :=
  @Poly.build_delivers ε (fun index c => c = e2.value index) _
    fun _ inside => .ok (readInt16_noise rh e2 message inside)

theorem message_within
    {bytes : Bytes}
    {p : Poly}
    (values :
      ∀ index, index < 256 →
        p.value index = 1665 * (MlKem.byteDecode 1 bytes index : Nat)) :
    Within 1665 p ∧
      p.element =
        fun index =>
          MlKem.decompress 1 (MlKem.byteDecode 1 bytes index.val) := by
  have bit := byteDecode_lt 1 bytes
  constructor
  · intro index inside
    have small := bit index
    rw [values index inside]
    omega
  · funext index
    have small := bit index.val
    rw [Poly.element, values index.val index.isLt, MlKem.decompress]
    generalize MlKem.byteDecode 1 bytes index.val = b at small
    interval_cases b
    · rfl
    · rfl

section Halves

variable [Sha3]

/-! ## The first half -/

/-- The inner products of the rows of the matrix. -/
noncomputable def products (rho seed : Bytes) (row : Fin 3) : Rq :=
  ∑ column, hatMul (MlKem.matrix rho column row) (MlKem.rHat seed column)

/-- The products of the matrix and the hidden vector. -/
theorem products_represent
    [Checks]
    {rho seed : Bytes}
    {at' : Matrix}
    {rh : Vec}
    (isMatrix : IsMatrix rho at')
    (isHidden : Vec.Represents Canonical (MlKem.rHat seed) rh) :
    (Vec.each fun i => (at'.rows.get i).dotHat rh : Outcome ε Vec).Delivers
      (Vec.Represents (fun _ => True)
        fun i index => 169 * products rho seed i index) := by
  refine Vec.each_represents fun row => ?_
  refine (Vec.dotHat_delivers (fun column => (isMatrix row column).1) rh).imp
    fun p isProduct => ⟨trivial, ?_⟩
  rw [isProduct]
  have summands :
      ∀ column : Fin 3,
        hatMul ((at'.rows.get row).ps.get column).element
            (rh.ps.get column).element =
          hatMul (MlKem.matrix rho column row) (MlKem.rHat seed column) := by
    intro column
    rw [(isMatrix row column).2, (isHidden column).2]
  simp only [summands, products]

/-- The noise is added, which the least residues do not show. -/
theorem capsule_represents
    {rho seed : Bytes}
    {v e1 : Vec}
    (isInverse :
      Vec.Represents (Within q) (fun i => unhat (products rho seed i)) v)
    (isNoise : Vec.Represents (Within 2) (Vec.noiseOf 3 seed) e1) :
    (v.add e1 : Outcome ε Vec).Delivers
      (Vec.Represents (Within (q + 2)) (MlKem.u rho seed)) := by
  refine Vec.each_represents fun i => ?_
  refine (Poly.add_delivers (by decide) (isInverse i).1 (isNoise i).1).imp
    fun p ⟨within, isSum⟩ => ⟨within, ?_⟩
  rw [isSum, (isInverse i).2, (isNoise i).2]
  rfl

/-- What the second half needs of the first one. -/
def Carries (seed message carry : Bytes) : Prop :=
  ∃ (rh : Vec) (e2 : Poly),
    Vec.Represents Canonical (MlKem.rHat seed) rh ∧
      Within 2 e2 ∧
      e2.element = MlKem.samplePolyCbd 2 (MlKem.prf seed 6) ∧
      carry = carryBytes rh e2 message

/-- The randomness of the encapsulation: the shared secret and the seed. -/
def randomness (header message : Bytes) : Block 64 :=
  Sha3.sha3_512 (message ++ (header.drop 32).take 32)

/-- The seed of the noise, from the header and the message. -/
def rSeedOf (header message : Bytes) : Bytes :=
  ((randomness header message).bytes.drop 32).take 32

/-- The results of the first half. -/
structure IsFirst (header message : Bytes) (first : Kem.First) : Prop where
  capsule :
    first.capsule.bytes =
      (List.finRange 3).flatMap fun row =>
        MlKem.encode 10
          (MlKem.u (header.take 32) (rSeedOf header message) row)
  carry : Carries (rSeedOf header message) message first.carry.bytes
  shared :
    first.shared.bytes = (randomness header message).bytes.take 32

/-- The first half is the standard's. -/
theorem firstHalf_delivers
    [Checks]
    (word : Word)
    {blocks : Nat}
    {header : Block Kem.headerLength}
    (sampled : Sampled (header.bytes.take 32) blocks)
    (message : Block 32) :
    (firstHalf word blocks header message).Delivers
      (IsFirst header.bytes message.bytes) := by
  rw [firstHalf]
  refine (hidden_represents word _).bind fun rh isHidden => ?_
  refine (Vec.noise_represents word (by decide) _).bind
    fun e1 isNoise => ?_
  refine (polyNoise_delivers word 6 _).bind fun e2 isNoise' => ?_
  refine (matrix_delivers sampled).bind fun at' isMatrix => ?_
  refine (products_represent isMatrix isHidden).bind fun u isProduct => ?_
  refine (Vec.barrett_represents isProduct).bind fun u isProduct => ?_
  refine (Vec.invNtt_represents isProduct).bind fun u isInverse => ?_
  refine (capsule_represents isInverse isNoise).bind fun u isU => ?_
  refine (Vec.normalize_represents isU).bind fun u isU => ?_
  refine (Vec.compress_delivers isU).bind fun capsule isCapsule => ?_
  have length : capsule.length = Kem.firstLength := by
    rw [isCapsule, List.length_flatMap]
    simp only [length_encode]
    rfl
  refine (ofBytes_delivers length).bind fun capsule' isCapsule' => ?_
  refine (ofBytes_delivers (length_carryBytes rh e2 message)).bind
    fun carry isCarry => ?_
  refine .ok ⟨?_, ?_, rfl⟩
  · rw [isCapsule', isCapsule]
    rfl
  · exact ⟨rh, e2, isHidden, isNoise'.1, isNoise'.2, isCarry⟩

/-- Without enough candidates the first half goes on squeezing. -/
theorem firstHalf_unfilled
    [Checks]
    (word : Word)
    {blocks : Nat}
    {header : Block Kem.headerLength}
    (few : ¬ Sampled (header.bytes.take 32) blocks)
    (message : Block 32) :
    firstHalf word blocks header message = .error .unfilled := by
  have rows :
      matrix blocks (header.slice 0 32 (by decide)).bytes true =
        .error .unfilled :=
    matrix_unfilled few
  rw [firstHalf]
  obtain ⟨rh, isRh, _⟩ :=
    @hidden_represents Unfilled _ _ word
      ((Sha3.sha3_512 (message.bytes ++
        (header.slice 32 32 (by decide)).bytes)).slice 32 32
          (by decide)).bytes
  obtain ⟨e1, isE1, _⟩ :=
    @Vec.noise_represents Unfilled _ word 3 (by decide)
      ((Sha3.sha3_512 (message.bytes ++
        (header.slice 32 32 (by decide)).bytes)).slice 32 32
          (by decide)).bytes
  obtain ⟨e2, isE2, _⟩ :=
    @polyNoise_delivers Unfilled _ word 6
      ((Sha3.sha3_512 (message.bytes ++
        (header.slice 32 32 (by decide)).bytes)).slice 32 32
          (by decide)).bytes
  simp only [isRh, isE1, isE2, rows, Outcome.ok_bind, Outcome.error_bind]

/-! ## The second half -/

/-- The second half is the standard's. -/
theorem secondHalf_delivers
    [Checks]
    (encap : Block Kem.encapLength)
    {carry : Block Kem.carryLength}
    {seed : Bytes}
    {message : Block 32}
    (carries : Carries seed message.bytes carry.bytes) :
    (secondHalf encap carry :
      Outcome ε (Block Kem.secondLength)).Delivers fun second =>
      second.bytes = MlKem.encode 4 (MlKem.v encap.bytes seed message) := by
  obtain ⟨rh, e2, isHidden, within, isNoise, isCarry⟩ := carries
  have isMessage :
      (carry.slice 2048 32 (by decide)).bytes = message.bytes := by
    have slice :
        (carry.slice 2048 32 (by decide)).bytes =
          (carry.bytes.drop 2048).take 32 :=
      rfl
    rw [slice, isCarry, drop_carryBytes, List.take_of_length_le]
    rw [Block.length_eq]
  rw [secondHalf, isCarry]
  dsimp only
  rw [isMessage]
  refine (key_represents encap.bytes).bind fun th isKey => ?_
  refine (hidden_read isHidden e2 message.bytes).bind fun rh' isHidden' => ?_
  refine (noise_read rh e2 message.bytes).bind fun e2' isE2 => ?_
  refine (Vec.dotHat_delivers (fun i => (isKey i).1) rh').bind
    fun v isProduct => ?_
  refine (Poly.barrett_delivers v).bind fun v isReduced => ?_
  obtain ⟨reduced, same⟩ := isReduced
  rw [← same] at isProduct
  refine (Poly.invNtt_product reduced isProduct).bind fun v isInverse => ?_
  obtain ⟨inverse, isInverse⟩ := isInverse
  refine (polyDecompress_delivers message.length_bytes).bind
    fun decompressed bits => ?_
  obtain ⟨bitsWithin, isMessage⟩ := message_within bits
  refine (Poly.add_delivers (by decide) inverse bitsWithin).bind
    fun v isSum => ?_
  obtain ⟨sum, isSum⟩ := isSum
  have e2Within : Within 2 e2' := by
    intro index inside
    rw [isE2 index inside]
    exact within index inside
  have e2Element : e2'.element = e2.element := by
    funext index
    rw [Poly.element, Poly.element, isE2 index.val index.isLt]
  refine (Poly.add_delivers (by decide) sum e2Within).bind fun v isV => ?_
  refine (Poly.normalize_delivers v).bind fun v isNormal => ?_
  obtain ⟨canonical, same'⟩ := isNormal
  have isElement : v.element = MlKem.v encap.bytes seed message := by
    rw [same', isV.2, isSum, isInverse, isMessage, e2Element, isNoise]
    funext index
    simp only [(isKey _).2, (isHidden' _).2]
    exact add_right_comm _ _ _
  refine (@compress_delivers ε _ 4 (by decide) (by decide) 2 1 128 (by decide)
    (by decide) (by decide) (by decide) v canonical).bind
    fun bytes isBytes => ?_
  have length : bytes.length = Kem.secondLength := by
    rw [isBytes, length_encode]
    rfl
  refine (ofBytes_delivers length).imp fun second isSecond => ?_
  rw [isSecond, isBytes, isElement]

/-! ## The whole -/

/-- A key that matches the header has the hash the header names. -/
theorem hash_of_matches
    {fromBytes : Bytes → Bool}
    {encap : Block Kem.encapLength}
    {header : Block Kem.headerLength}
    (isMatch : keyMatchesHeader fromBytes encap header = true) :
    (Sha3.sha3_256 (encap.bytes ++ header.bytes.take 32)).bytes =
      (header.bytes.drop 32).take 32 := by
  rw [keyMatchesHeader] at isMatch
  by_cases same :
      Sha3.sha3_256 (encap.bytes ++ (header.slice 0 32 (by decide)).bytes) =
        header.slice 32 32 (by decide)
  · exact congrArg Block.bytes same
  · rw [if_pos same] at isMatch
    cases isMatch

/-- The halves of a run that returned make up the whole. -/
theorem whole_of_firstHalf
    [Checks]
    {fromBytes : Bytes → Bool}
    {encap : Block Kem.encapLength}
    {header : Block Kem.headerLength}
    (isMatch : keyMatchesHeader fromBytes encap header = true)
    {message : Block 32}
    {first : Kem.First}
    (isFirst : IsFirst header.bytes message.bytes first) :
    (secondHalf encap first.carry :
      Outcome ε (Block Kem.secondLength)).Delivers fun second =>
      (first.capsule.bytes ++ second.bytes, first.shared.bytes) =
        MlKem.encaps (encap.bytes ++ header.bytes.take 32) message := by
  refine (secondHalf_delivers encap isFirst.carry).imp
    fun second isSecond => ?_
  have key : (encap.bytes ++ header.bytes.take 32).take 1152 = encap.bytes :=
    List.take_left' encap.length_bytes
  have rho :
      (encap.bytes ++ header.bytes.take 32).drop 1152 =
        header.bytes.take 32 :=
    List.drop_left' encap.length_bytes
  have kr :
      Sha3.sha3_512
          (message.bytes ++
            (Sha3.sha3_256 (encap.bytes ++ header.bytes.take 32)).bytes) =
        randomness header.bytes message.bytes := by
    rw [hash_of_matches isMatch, randomness]
  have seed :
      (randomness header.bytes message.bytes).bytes.drop 32 =
        rSeedOf header.bytes message.bytes := by
    rw [rSeedOf, List.take_of_length_le]
    rw [List.length_drop, Block.length_eq]
  rw [MlKem.encaps, MlKem.encrypt, key, rho, kr, seed, isFirst.capsule,
    isFirst.shared, isSecond]

/--
The first half returns exactly when the blocks squeezed fill the matrix, and
then the two halves make the ciphertext and the shared secret of the
encapsulation under the key, whatever is checked on the way.
-/
theorem split_eq_whole
    [Checks]
    (word : Word)
    {fromBytes : Bytes → Bool}
    {encap : Block Kem.encapLength}
    {header : Block Kem.headerLength}
    (isMatch : keyMatchesHeader fromBytes encap header = true)
    (message : Block 32)
    (blocks : Nat) :
    ((∃ first, firstHalf word blocks header message = .ok first) ↔
        Sampled (header.bytes.take 32) blocks) ∧
      ∀ first, firstHalf word blocks header message = .ok first →
        ∃ second,
          (secondHalf encap first.carry :
              Outcome Empty (Block Kem.secondLength)) = .ok second ∧
            (first.capsule.bytes ++ second.bytes, first.shared.bytes) =
              MlKem.encaps (encap.bytes ++ header.bytes.take 32) message := by
  by_cases sampled : Sampled (header.bytes.take 32) blocks
  · obtain ⟨made, isMade, isFirst⟩ :=
      firstHalf_delivers word sampled message
    refine ⟨⟨fun _ => sampled, fun _ => ⟨made, isMade⟩⟩, ?_⟩
    intro first returned
    obtain rfl : made = first := by
      rw [isMade] at returned
      exact Outcome.ok.inj returned
    exact whole_of_firstHalf isMatch isFirst
  · have unfilled := firstHalf_unfilled word sampled message
    refine ⟨⟨?_, fun filled => absurd filled sampled⟩, ?_⟩
    · rintro ⟨first, returned⟩
      rw [unfilled] at returned
      cases returned
    · intro first returned
      rw [unfilled] at returned
      cases returned

end Halves

/-- The rest of the sample key. -/
private def sampleEncap : Block Kem.encapLength :=
  Block.fill 1152 5

/-- The seed of the matrix, and the hash of the whole key. -/
private def sampleHeader : Block Kem.headerLength :=
  (Block.fill 32 3).append
    (Sample.sha3.sha3_256 (sampleEncap.bytes ++ (Block.fill 32 3).bytes))

private theorem sample_matches :
    @keyMatchesHeader Sample.sha3 (fun _ => true) sampleEncap sampleHeader =
      true := by
  have front :
      sampleHeader.slice 0 32 (by decide) = Block.fill 32 3 :=
    Block.slice_append_left ..
  have back :
      sampleHeader.slice 32 32 (by decide) =
        Sample.sha3.sha3_256 (sampleEncap.bytes ++ (Block.fill 32 3).bytes) :=
    Block.slice_append_right ..
  unfold keyMatchesHeader
  rw [front, back]
  exact if_neg fun differs => differs rfl

/-- Every candidate of a stream of small bytes is accepted. -/
private theorem sample_plentiful (seed : Bytes) :
    Plentiful (Sample.sha3.shake128 seed) 3 := by
  have small : ∀ index, (Sample.sha3.shake128 seed index).toNat < 13 := by
    intro index
    change (UInt8.ofNat (_ % 13)).toNat < 13
    rw [UInt8.toNat_ofNat']
    omega
  have kept :
      ∀ index, MlKem.candidate (Sample.sha3.shake128 seed) index < 3329 := by
    intro index
    have first := small (3 * (index / 2))
    have second := small (3 * (index / 2) + 1)
    have third := small (3 * (index / 2) + 2)
    rw [MlKem.candidate]
    split <;> omega
  have all :
      (MlKem.accepted (Sample.sha3.shake128 seed) (112 * 3)).length =
        112 * 3 := by
    rw [MlKem.accepted, List.filter_eq_self.mpr, List.length_map,
      List.length_range]
    intro value member
    obtain ⟨index, _, rfl⟩ := List.mem_map.mp member
    exact decide_eq_true (kept index)
  exact (by decide : 256 ≤ 112 * 3).trans_eq all.symm

/-- Encapsulation at a sample key. -/
theorem split_eq_whole_sample :
    ∃ (first : Kem.First) (second : Block Kem.secondLength),
      @firstHalf Sample.sha3 Checks.none .w64 3 sampleHeader
          (Block.fill 32 9) = .ok first ∧
        (@secondHalf Empty Checks.none sampleEncap first.carry) =
          .ok second ∧
        (first.capsule.bytes ++ second.bytes, first.shared.bytes) =
          @MlKem.encaps Sample.sha3
            (sampleEncap.bytes ++ sampleHeader.bytes.take 32)
            (Block.fill 32 9) := by
  obtain ⟨returns, whole⟩ :=
    @split_eq_whole Sample.sha3 Checks.none .w64 _ _ _ sample_matches
      (Block.fill 32 9) 3
  obtain ⟨first, returned⟩ := returns.mpr fun _ _ => sample_plentiful _
  obtain ⟨second, isSecond, isWhole⟩ := whole first returned
  exact ⟨first, second, returned, isSecond, isWhole⟩

end Gossveil.Lattice
