import Mathlib.Tactic.FieldSimp
import Gossveil.Sign

namespace Gossveil

/-!
# Signatures verify

The image of the public key is the signer's point, for either sign, and the
verification equation gives the commitment back.  The equation fixes the
response modulo the order of the group alone.
-/

/-- The u-coordinate of a point, on the Montgomery curve. -/
def Edwards25519.montgomery
    {Point : Type}
    [Edwards25519 Point]
    (p : Point) :
    Fe :=
  (1 + Edwards25519.y p) / (1 - Edwards25519.y p)

/--
The base point has the order of the scalars, and the calls multiply by
scalars of 255 bits.  The coordinates tell the identity and the point of order
two, and a point decodes from its encoding.
-/
structure Edwards25519.Laws (Point : Type) [Edwards25519 Point] : Prop where
  order : Scalar.groupOrder • (Edwards25519.basePoint : Point) = 0
  exact :
    ∀ multiple : Nat,
      multiple • (Edwards25519.basePoint : Point) = 0 →
        Scalar.groupOrder ∣ multiple
  read :
    ∀ p : Point, Edwards25519.fromBytes (Edwards25519.toBytes p) = some p
  x_eq_zero : ∀ p : Point, Edwards25519.x p = 0 ↔ 2 • p = 0
  y_eq_one : ∀ p : Point, Edwards25519.y p = 1 ↔ p = 0
  mul :
    ∀ scalar : Block 32,
      Scalar.toNat scalar < 2 ^ 255 →
        2 • Scalar.toNat scalar • (Edwards25519.basePoint : Point) ≠ 0 →
          Edwards25519.mul (Edwards25519.basePoint : Point) scalar =
            .ok (Scalar.toNat scalar • Edwards25519.basePoint)
  mulDouble :
    ∀ (first : Block 32) (p : Point) (second : Block 32) (result : Point),
      Scalar.toNat first < 2 ^ 255 →
        Scalar.toNat second < 2 ^ 255 →
          (Edwards25519.mulDoubleBasePublic Edwards25519.basePoint first p
              second = .ok result ↔
            8 • p ≠ 0 ∧
              result =
                Scalar.toNat first • Edwards25519.basePoint +
                  Scalar.toNat second • p)

/-- The u-coordinate X25519 computes is that of the multiple. -/
def X25519.Birational
    (Point : Type)
    [Edwards25519 Point]
    [X25519] :
    Prop :=
  ∀ scalar key : Block 32,
    X25519.basePointMul scalar = some key →
      Fe.fromBytes key =
        Edwards25519.montgomery
          (Scalar.toNat (Curve.clamp scalar) •
            (Edwards25519.basePoint : Point))

namespace Signing

open Edwards25519

/-! ## Clamped scalars -/

theorem toNat_mod (block : Block 32) :
    Scalar.toNat block % 256 = (block.bytes.getD 0 0).toNat := by
  rw [Scalar.toNat]
  cases shape : block.bytes with
  | nil => rfl
  | cons first rest =>
      have small := first.toNat_lt
      rw [Codec.Reader.littleEndian, List.getD_cons_zero]
      omega

theorem getD_clamp
    (scalar : Block 32)
    {index : Nat}
    (inside : index < 32) :
    (Curve.clamp scalar).bytes.getD index 0 =
      if index = 0 then scalar.bytes.getD index 0 &&& 248
      else if index = 31 then (scalar.bytes.getD index 0 &&& 127) ||| 64
      else scalar.bytes.getD index 0 := by
  have length := scalar.length_eq
  have present : index < scalar.bytes.length := by
    omega
  simp only [Curve.clamp, List.getD_eq_getElem?_getD, List.getElem?_mapIdx,
    List.getElem?_eq_getElem present, Option.map_some, Option.getD_some]

/-- A clamped scalar is a multiple of the cofactor between two bounds. -/
theorem toNat_clamp (scalar : Block 32) :
    8 ∣ Scalar.toNat (Curve.clamp scalar) ∧
      2 ^ 254 ≤ Scalar.toNat (Curve.clamp scalar) ∧
        Scalar.toNat (Curve.clamp scalar) < 2 ^ 255 := by
  have low := toNat_mod (Curve.clamp scalar)
  have split := Block.toNat_split (Curve.clamp scalar)
  have length : ((Curve.clamp scalar).bytes.take 31).length = 31 := by
    rw [List.length_take, Block.length_eq]
    rfl
  have front :=
    Codec.Reader.littleEndian_lt ((Curve.clamp scalar).bytes.take 31)
  rw [length] at front
  rw [getD_clamp scalar (by decide), if_pos rfl] at low
  rw [getD_clamp scalar (by decide), if_neg (by decide), if_pos rfl] at split
  generalize scalar.bytes.getD 0 0 = first at low
  generalize scalar.bytes.getD 31 0 = last at split
  have cofactor : (first &&& 248).toNat % 2 ^ 3 = 0 := by
    rw [UInt8.toNat_and, Nat.and_mod_two_pow]
    exact Nat.and_zero _
  have masked : (last &&& 127).toNat < 2 ^ 7 := by
    rw [UInt8.toNat_and]
    exact Nat.and_lt_two_pow _ (by decide)
  have top : ((last &&& 127) ||| 64).toNat < 2 ^ 7 := by
    rw [UInt8.toNat_or]
    exact Nat.or_lt_two_pow masked (by decide)
  have bit : 64 ≤ ((last &&& 127) ||| 64).toNat := by
    rw [UInt8.toNat_or]
    exact Nat.right_le_or
  refine ⟨by omega, by omega, by omega⟩

/-- A clamped scalar is no multiple of the order. -/
theorem clamped_not_dvd
    {a : Nat}
    (multiple : 8 ∣ a)
    (low : 2 ^ 254 ≤ a)
    (high : a < 2 ^ 255) :
    ¬ Scalar.groupOrder ∣ 8 * a := by
  intro divides
  obtain ⟨k, rfl⟩ := multiple
  have coprime : Nat.Coprime Scalar.groupOrder 64 := by
    decide
  rw [← Nat.mul_assoc] at divides
  have few := Nat.le_of_dvd (by omega) (coprime.dvd_of_dvd_mul_left divides)
  rw [Scalar.groupOrder] at few
  omega

/-! ## The image of the public key -/

section Image

variable {Point : Type} [Edwards25519 Point]

/-- Both coordinate maps undo each other. -/
theorem edwards_montgomery
    {y : Fe}
    (other : y ≠ 1) :
    ((1 + y) / (1 - y) - 1) * ((1 + y) / (1 - y) + 1)⁻¹ = y := by
  have nonzero : 1 - y ≠ 0 := sub_ne_zero.mpr other.symm
  have two : (2 : Fe) ≠ 0 := by
    decide
  have back : (1 + y) / (1 - y) + 1 = 2 / (1 - y) := by
    field_simp
    ring
  have front : (1 + y) / (1 - y) - 1 = 2 * y / (1 - y) := by
    field_simp
    ring
  rw [back, front]
  field_simp

/-- The image of the u-coordinate is the point, under its own sign. -/
theorem edwardsImage_montgomery
    (laws : Laws Point)
    {p : Point}
    (nonzero : p ≠ 0)
    {key : Block 32}
    (isKey : Fe.fromBytes key = montgomery p) :
    edwardsImage key (toBytes p).top = some p := by
  have other : y p ≠ 1 := fun one => nonzero ((laws.y_eq_one p).mp one)
  have encoded :
      (Fe.toBytes (y p)).withTop (toBytes p).top = toBytes p := by
    rw [toBytes, Block.top_withTop]
  simp only [edwardsImage, isKey, montgomery, edwards_montgomery other]
  rw [encoded, laws.read]

/-- Different points have different encodings. -/
theorem toBytes_inj
    (laws : Laws Point)
    {first second : Point}
    (same : toBytes first = toBytes second) :
    first = second := by
  have decoded := laws.read first
  rw [same, laws.read second] at decoded
  exact (Option.some.inj decoded).symm

/-- Multiples of the base point depend on the scalar modulo the order. -/
theorem mod_nsmul_basePoint
    (laws : Laws Point)
    (multiple : Nat) :
    (multiple % Scalar.groupOrder) • (basePoint : Point) =
      multiple • basePoint :=
  (nsmul_eq_mod_nsmul multiple laws.order).symm

/-- Multiples of the base point agree modulo the order. -/
theorem nsmul_basePoint_inj
    (laws : Laws Point)
    {first second : Nat}
    (same : first • (basePoint : Point) = second • basePoint) :
    first % Scalar.groupOrder = second % Scalar.groupOrder := by
  have ordered :
      ∀ low high : Nat,
        low ≤ high →
          low • (basePoint : Point) = high • basePoint →
            low % Scalar.groupOrder = high % Scalar.groupOrder := by
    intro low high below sameMultiple
    have difference : (high - low) • (basePoint : Point) = 0 := by
      rw [sub_nsmul _ below, sameMultiple, add_neg_cancel]
    exact (Nat.modEq_iff_dvd' below).mpr (laws.exact _ difference)
  rcases Nat.le_total first second with below | above
  · exact ordered first second below same
  · exact (ordered second first above same.symm).symm

end Image

/-! ## What is accepted -/

section Verified

variable {Point : Type} [Edwards25519 Point] [Sha512]

omit [Sha512] in
/-- The right side of the verification equation. -/
theorem mulDouble_image
    (laws : Laws Point)
    (image : Point)
    (half challenge : Block 32)
    (canonical : Scalar.toNat challenge < Scalar.groupOrder)
    (result : Point) :
    mulDoubleBasePublic basePoint (half.withTop false) (-image) challenge =
        .ok result ↔
      8 • image ≠ 0 ∧
        result =
          Scalar.toNat (half.withTop false) • (basePoint : Point) -
            Scalar.toNat challenge • image := by
  have fits : Scalar.toNat challenge < 2 ^ 255 :=
    Nat.lt_trans canonical (by decide)
  rw [laws.mulDouble _ _ _ _ (Block.toNat_withTop_false_lt half) fits,
    smul_neg, smul_neg, neg_ne_zero, sub_eq_add_neg]

/-- When a signature is accepted. -/
theorem verify_eq_true
    (laws : Laws Point)
    {key : Block 32}
    {message : Bytes}
    {encoded half : Block 32} :
    verify Point key message (encoded.append half) = true ↔
      ∃ commitment image : Point,
        fromBytes encoded = some commitment ∧
          x commitment ≠ 0 ∧
          edwardsImage key half.top = some image ∧
          8 • image ≠ 0 ∧
          encoded =
            toBytes
              (Scalar.toNat (half.withTop false) • (basePoint : Point) -
                Scalar.toNat
                    (challengeScalar encoded (toBytes image) message) •
                  image) := by
  have cut :
      (encoded.append half).slice 0 32 (by decide) = encoded ∧
        (encoded.append half).slice 32 32 (by decide) = half :=
    ⟨Block.slice_append_left .., Block.slice_append_right ..⟩
  simp only [verify, cut.1, cut.2]
  cases isCommitment : (fromBytes encoded : Option Point) with
  | none => simp
  | some commitment =>
      simp only [Option.some.injEq]
      by_cases identity : x commitment = 0
      · rw [if_pos identity]
        constructor
        · exact nofun
        · rintro ⟨_, _, rfl, nonzero, _⟩
          exact absurd identity nonzero
      · rw [if_neg identity]
        cases isImage : (edwardsImage key half.top : Option Point) with
        | none => simp
        | some image =>
            have checked :=
              mulDouble_image laws image half
                (challengeScalar encoded (toBytes image) message)
                (Scalar.toNat_reduce64_lt _)
            simp only [Option.some.injEq]
            constructor
            · intro accepted
              split at accepted
              · rename_i result isResult
                obtain ⟨strong, rfl⟩ := (checked result).mp isResult
                exact ⟨commitment, image, rfl, identity, rfl, strong,
                  of_decide_eq_true accepted⟩
              · cases accepted
            · rintro ⟨_, _, rfl, _, rfl, strong, isEncoded⟩
              rw [(checked _).mpr ⟨strong, rfl⟩]
              exact decide_eq_true isEncoded

/-! ## What is signed is accepted -/

/-- What signing computes. -/
theorem sign_eq_ok
    {secret : Block 32}
    {nonce : Block 64}
    {own drawn : Point}
    (isOwn : mul basePoint (Curve.clamp secret) = .ok own)
    (isDrawn : mul basePoint (nonceScalar secret nonce) = .ok drawn)
    (message : Bytes) :
    sign Point secret message nonce =
      .ok ((toBytes drawn).append
        ((Scalar.mulAdd
            (challengeScalar (toBytes drawn) (toBytes own) message)
            (Curve.clamp secret) (nonceScalar secret nonce)).withTop
          (toBytes own).top)) := by
  simp only [sign, isOwn, isDrawn, Outcome.ok_bind]
  rfl

omit [Sha512] in
/-- The response times the base point, as the equation has it. -/
theorem toNat_mulAdd_basePoint
    (laws : Laws Point)
    (challenge a r : Block 32) :
    Scalar.toNat (Scalar.mulAdd challenge a r) • (basePoint : Point) -
        Scalar.toNat challenge • Scalar.toNat a • (basePoint : Point) =
      Scalar.toNat r • (basePoint : Point) := by
  rw [Scalar.mulAdd, Scalar.toNat_ofNat (Nat.mod_lt _ (by decide)),
    mod_nsmul_basePoint laws, add_nsmul, mul_comm, mul_nsmul,
    add_sub_cancel_left]

omit [Sha512] in
/-- The point of a clamped scalar has no small order. -/
theorem mul_clamp
    (laws : Laws Point)
    (secret : Block 32) :
    8 • Scalar.toNat (Curve.clamp secret) • (basePoint : Point) ≠ 0 ∧
      mul (basePoint : Point) (Curve.clamp secret) =
        .ok (Scalar.toNat (Curve.clamp secret) • basePoint) := by
  obtain ⟨cofactor, low, high⟩ := toNat_clamp secret
  have strong :
      8 • Scalar.toNat (Curve.clamp secret) • (basePoint : Point) ≠ 0 := by
    intro zero
    rw [← mul_nsmul'] at zero
    exact clamped_not_dvd cofactor low high (laws.exact _ zero)
  refine ⟨strong, laws.mul _ high fun zero => strong ?_⟩
  rw [show 8 = 4 * 2 from rfl, mul_nsmul', zero, smul_zero]

omit [Sha512] in
/-- The point of a scalar below the order has no small order either. -/
theorem mul_canonical
    (laws : Laws Point)
    {scalar : Block 32}
    (canonical : Scalar.toNat scalar < Scalar.groupOrder)
    (nonzero : Scalar.toNat scalar ≠ 0) :
    2 • Scalar.toNat scalar • (basePoint : Point) ≠ 0 ∧
      mul (basePoint : Point) scalar =
        .ok (Scalar.toNat scalar • basePoint) := by
  have strong : 2 • Scalar.toNat scalar • (basePoint : Point) ≠ 0 := by
    intro zero
    rw [← mul_nsmul'] at zero
    have coprime : Nat.Coprime Scalar.groupOrder 2 := by
      decide
    have divides := coprime.dvd_of_dvd_mul_left (laws.exact _ zero)
    exact nonzero (Nat.eq_zero_of_dvd_of_lt divides canonical)
  exact ⟨strong, laws.mul _ (Nat.lt_trans canonical (by decide)) strong⟩

/-- What a signer writes, over the secret scalar and the nonce scalar. -/
def written
    (Point : Type)
    [Edwards25519 Point]
    (message : Bytes)
    (a r : Block 32) :
    Block 64 :=
  let own := Scalar.toNat a • (basePoint : Point)
  let drawn := Scalar.toNat r • (basePoint : Point)
  (toBytes drawn).append
    ((Scalar.mulAdd (challengeScalar (toBytes drawn) (toBytes own) message)
        a r).withTop (toBytes own).top)

/-- Signing writes the signature of its nonce. -/
theorem sign_eq_written
    (laws : Laws Point)
    {secret : Block 32}
    (message : Bytes)
    {nonce : Block 64}
    (nonzero : Scalar.toNat (nonceScalar secret nonce) ≠ 0) :
    sign Point secret message nonce =
      .ok (written Point message (Curve.clamp secret)
        (nonceScalar secret nonce)) :=
  sign_eq_ok (mul_clamp laws secret).2
    (mul_canonical laws (Scalar.toNat_reduce64_lt _) nonzero).2 message

/-- The response is below the order, so the sign bit does not touch it. -/
theorem half_written
    (message : Bytes)
    (a r : Block 32) :
    ((written Point message a r).slice 32 32 (by decide)).top =
        (toBytes (Scalar.toNat a • (basePoint : Point))).top ∧
      Scalar.toNat
          (((written Point message a r).slice 32 32 (by decide)).withTop
            false) <
        Scalar.groupOrder := by
  have below :=
    Scalar.toNat_mulAdd_lt
      (challengeScalar (toBytes (Scalar.toNat r • (basePoint : Point)))
        (toBytes (Scalar.toNat a • (basePoint : Point))) message) a r
  rw [written, Block.slice_append_right, Block.top_withTop,
    Block.withTop_withTop,
    Block.withTop_false (Nat.lt_trans below (by decide))]
  exact ⟨rfl, below⟩

omit [Sha512] in
/-- The verifier finds the signer's point, which has the prime order. -/
theorem image_of_key
    [X25519]
    (laws : Laws Point)
    (birational : X25519.Birational Point)
    {secret key : Block 32}
    (isKey : X25519.basePointMul secret = some key) :
    let own := Scalar.toNat (Curve.clamp secret) • (basePoint : Point)
    edwardsImage key (toBytes own).top = some own ∧
      addOrderOf own = Scalar.groupOrder := by
  have strong := (mul_clamp laws secret).1
  have present :
      Scalar.toNat (Curve.clamp secret) • (basePoint : Point) ≠ 0 := by
    intro zero
    rw [zero, smul_zero] at strong
    exact strong rfl
  have : Fact Scalar.groupOrder.Prime := ⟨Scalar.groupOrder_prime⟩
  refine ⟨edwardsImage_montgomery laws present (birational _ _ isKey),
    addOrderOf_eq_prime ?_ present⟩
  rw [← mul_nsmul', mul_comm, mul_nsmul', laws.order, smul_zero]

/-- A written signature is accepted. -/
theorem verify_written
    [X25519]
    (laws : Laws Point)
    (birational : X25519.Birational Point)
    {secret key : Block 32}
    (isKey : X25519.basePointMul secret = some key)
    (message : Bytes)
    {r : Block 32}
    (canonical : Scalar.toNat r < Scalar.groupOrder)
    (nonzero : Scalar.toNat r ≠ 0) :
    verify Point key message (written Point message (Curve.clamp secret) r) =
      true := by
  have commits := (mul_canonical laws canonical nonzero).1
  rw [written, verify_eq_true laws, Block.top_withTop, Block.withTop_withTop,
    Block.withTop_false (Nat.lt_trans (Scalar.toNat_mulAdd_lt _ _ _)
      (by decide))]
  refine ⟨_, _, laws.read _, (laws.x_eq_zero _).not.mpr commits,
    (image_of_key laws birational isKey).1, (mul_clamp laws secret).1, ?_⟩
  rw [toNat_mulAdd_basePoint laws]

/-- A signature verifies under the key of its secret. -/
theorem sign_verify
    [X25519]
    (laws : Laws Point)
    (birational : X25519.Birational Point)
    {secret key : Block 32}
    (isKey : X25519.basePointMul secret = some key)
    (message : Bytes)
    {nonce : Block 64}
    (nonzero : Scalar.toNat (nonceScalar secret nonce) ≠ 0) :
    ∃ signature,
      sign Point secret message nonce = .ok signature ∧
        verify Point key message signature = true :=
  ⟨_, sign_eq_written laws message nonzero,
    verify_written laws birational isKey message
      (Scalar.toNat_reduce64_lt _) nonzero⟩

/-! ## Several responses -/

omit [Sha512] in
/-- A signature is a point and a scalar. -/
theorem eq_append (signature : Block 64) :
    ∃ encoded half : Block 32, signature = encoded.append half := by
  refine ⟨signature.slice 0 32 (by decide),
    signature.slice 32 32 (by decide), ?_⟩
  ext1
  have rest : (signature.bytes.drop 32).length = 32 := by
    rw [List.length_drop, signature.length_eq]
  simp only [Block.append, Block.slice, List.drop_zero]
  rw [List.take_of_length_le rest.le, List.take_append_drop]

/-- The equation fixes the response modulo the order. -/
theorem responses_congruent
    (laws : Laws Point)
    {key encoded half otherHalf : Block 32}
    {message : Bytes}
    (accepted : verify Point key message (encoded.append half) = true)
    (otherAccepted :
      verify Point key message (encoded.append otherHalf) = true)
    (sameSign : half.top = otherHalf.top) :
    Scalar.toNat (half.withTop false) % Scalar.groupOrder =
      Scalar.toNat (otherHalf.withTop false) % Scalar.groupOrder := by
  obtain ⟨_, image, _, _, isImage, _, equation⟩ :=
    (verify_eq_true laws).mp accepted
  obtain ⟨_, otherImage, _, _, isOther, _, otherEquation⟩ :=
    (verify_eq_true laws).mp otherAccepted
  rw [sameSign, isOther] at isImage
  obtain rfl := Option.some.inj isImage
  have same := toBytes_inj laws (equation.symm.trans otherEquation)
  exact nsmul_basePoint_inj laws (sub_left_injective same)

/--
Two accepted signatures that share the commitment and the sign bit have
responses that agree modulo the order.  They are equal when the responses lie
between the same multiples of it.
-/
theorem accepted_eq_iff
    (laws : Laws Point)
    {key : Block 32}
    {message : Bytes}
    {first second : Block 64}
    (firstAccepted : verify Point key message first = true)
    (secondAccepted : verify Point key message second = true)
    (sameCommitment :
      first.slice 0 32 (by decide) = second.slice 0 32 (by decide))
    (sameSign :
      (first.slice 32 32 (by decide)).top =
        (second.slice 32 32 (by decide)).top) :
    first = second ↔
      Scalar.toNat ((first.slice 32 32 (by decide)).withTop false) /
          Scalar.groupOrder =
        Scalar.toNat ((second.slice 32 32 (by decide)).withTop false) /
          Scalar.groupOrder := by
  obtain ⟨encoded, half, rfl⟩ := eq_append first
  obtain ⟨other, otherHalf, rfl⟩ := eq_append second
  simp only [Block.slice_append_left, Block.slice_append_right]
    at sameCommitment sameSign ⊢
  subst sameCommitment
  have congruent := responses_congruent laws firstAccepted secondAccepted
    sameSign
  constructor
  · intro same
    have sameHalf := congrArg (fun signature : Block 64 =>
      signature.slice 32 32 (by decide)) same
    simp only [Block.slice_append_right] at sameHalf
    rw [sameHalf]
  · intro sameQuotient
    have sameResponse :
        Scalar.toNat (half.withTop false) =
          Scalar.toNat (otherHalf.withTop false) := by
      rw [← Nat.div_add_mod (Scalar.toNat (half.withTop false))
        Scalar.groupOrder, sameQuotient, congruent, Nat.div_add_mod]
    rw [Block.withTop_inj sameSign (Block.toNat_inj.mp sameResponse)]

/-- Any response that is congruent to an accepted one is accepted. -/
theorem verify_of_congruent
    (laws : Laws Point)
    {key encoded half otherHalf : Block 32}
    {message : Bytes}
    (accepted : verify Point key message (encoded.append half) = true)
    (sameSign : half.top = otherHalf.top)
    (congruent :
      Scalar.toNat (half.withTop false) % Scalar.groupOrder =
        Scalar.toNat (otherHalf.withTop false) % Scalar.groupOrder) :
    verify Point key message (encoded.append otherHalf) = true := by
  rw [verify_eq_true laws] at accepted ⊢
  rw [← sameSign]
  obtain ⟨commitment, image, isCommitment, nonzero, isImage, strong,
    equation⟩ := accepted
  refine ⟨commitment, image, isCommitment, nonzero, isImage, strong, ?_⟩
  rw [← mod_nsmul_basePoint laws, ← congruent, mod_nsmul_basePoint laws]
  exact equation

/-- The signature with the order of the group added to its response. -/
def shifted (signature : Block 64) : Block 64 :=
  let half := signature.slice 32 32 Block.second_of_two
  (signature.slice 0 32 Block.first_of_two).append
    ((Scalar.ofNat
        (Scalar.toNat (half.withTop false) + Scalar.groupOrder)).withTop
      half.top)

omit [Sha512] in
/-- A shifted signature adds the order to its scalar. -/
theorem shifted_eq
    {signature : Block 64}
    (below :
      Scalar.toNat ((signature.slice 32 32 (by decide)).withTop false) <
        Scalar.groupOrder) :
    (shifted signature).slice 0 32 (by decide) =
        signature.slice 0 32 (by decide) ∧
      ((shifted signature).slice 32 32 (by decide)).top =
          (signature.slice 32 32 (by decide)).top ∧
        Scalar.toNat
            (((shifted signature).slice 32 32 (by decide)).withTop false) =
          Scalar.toNat ((signature.slice 32 32 (by decide)).withTop false) +
            Scalar.groupOrder := by
  simp only [shifted, Block.slice_append_left, Block.slice_append_right,
    Block.top_withTop, Block.withTop_withTop, true_and]
  generalize Scalar.toNat ((signature.slice 32 32 (by decide)).withTop false) =
    response at below ⊢
  have room : response + Scalar.groupOrder < 2 ^ 255 := by
    simp only [Scalar.groupOrder] at below ⊢
    omega
  have encoded :
      Scalar.toNat (Scalar.ofNat (response + Scalar.groupOrder)) =
        response + Scalar.groupOrder :=
    Codec.littleEndian_write 32 _ (Nat.lt_trans room (by decide))
  rw [Block.withTop_false (encoded.trans_lt room), encoded]

/-- A signature whose response is canonical has a second encoding. -/
theorem verify_shifted
    (laws : Laws Point)
    {key : Block 32}
    {message : Bytes}
    {signature : Block 64}
    (accepted : verify Point key message signature = true)
    (below :
      Scalar.toNat ((signature.slice 32 32 (by decide)).withTop false) <
        Scalar.groupOrder) :
    verify Point key message (shifted signature) = true := by
  obtain ⟨sameCommitment, sameSign, response⟩ := shifted_eq below
  obtain ⟨encoded, half, rfl⟩ := eq_append signature
  obtain ⟨other, otherHalf, isShifted⟩ :=
    eq_append (shifted (encoded.append half))
  rw [isShifted] at sameCommitment sameSign response ⊢
  simp only [Block.slice_append_left, Block.slice_append_right]
    at sameCommitment sameSign response
  subst sameCommitment
  refine verify_of_congruent laws accepted sameSign.symm ?_
  rw [response, Nat.add_mod_right]

/-- Two signatures of a message under one key of prime order. -/
structure Ambiguous
    (Point : Type)
    [Edwards25519 Point]
    (key : Block 32)
    (message : Bytes)
    (signature other : Block 64) :
    Prop where
  prime :
    ∃ image : Point,
      edwardsImage key (signature.slice 32 32 (by decide)).top = some image ∧
        (addOrderOf image).Prime
  accepted : verify Point key message signature = true
  otherAccepted : verify Point key message other = true
  sameCommitment :
    signature.slice 0 32 (by decide) = other.slice 0 32 (by decide)
  sameSign :
    (signature.slice 32 32 (by decide)).top =
      (other.slice 32 32 (by decide)).top
  different : signature ≠ other

/-- Every signature a signer writes has a second encoding. -/
theorem written_ambiguous
    [X25519]
    (laws : Laws Point)
    (birational : X25519.Birational Point)
    {secret key : Block 32}
    (isKey : X25519.basePointMul secret = some key)
    (message : Bytes)
    {r : Block 32}
    (canonical : Scalar.toNat r < Scalar.groupOrder)
    (nonzero : Scalar.toNat r ≠ 0) :
    Ambiguous Point key message (written Point message (Curve.clamp secret) r)
      (shifted (written Point message (Curve.clamp secret) r)) := by
  have accepted := verify_written laws birational isKey message canonical
    nonzero
  obtain ⟨isImage, order⟩ := image_of_key laws birational isKey
  obtain ⟨sign, below⟩ :=
    @half_written Point _ _ message (Curve.clamp secret) r
  obtain ⟨sameCommitment, sameSign, response⟩ := shifted_eq below
  have prime := Scalar.groupOrder_prime
  rw [← order] at prime
  rw [← sign] at isImage
  refine ⟨⟨_, isImage, prime⟩, accepted, verify_shifted laws accepted below,
    sameCommitment.symm, sameSign.symm, ?_⟩
  intro same
  have positive : 0 < Scalar.groupOrder := by
    decide
  rw [← same] at response
  omega

end Verified

end Signing

/-! ## A stand-in for the curve -/

namespace Sample

open Scalar

attribute [local instance] groupOrder_neZero residues

/-- The residues; both of a pair of opposites have the same y-coordinate. -/
@[reducible] def edwards25519 : Edwards25519 (Fin groupOrder) :=
  { residues with
    basePoint := 1
    x := fun p =>
      if p.val = 0 then 0 else if 2 * p.val ≤ groupOrder then 1 else 2
    y := fun p => ((1 + min p.val (groupOrder - p.val) : Nat) : Fe)
    mul := fun p scalar =>
      let q := toNat scalar • p
      if 2 • q = 0 then .error .identityElement else .ok q
    mulDoubleBasePublic := fun p1 s1 p2 s2 =>
      if 8 • p2 = 0 then .error .weakPublicKey
      else .ok (toNat s1 • p1 + toNat s2 • p2)
    fromBytes := fun bytes =>
      let distance := toNat bytes % 2 ^ 255 - 1
      some (Fin.ofNat groupOrder
        (if bytes.top then distance else groupOrder - distance)) }

attribute [local instance] edwards25519

theorem val_nsmul (multiple : Nat) (p : Fin groupOrder) :
    (multiple • p).val = multiple * p.val % groupOrder :=
  rfl

theorem nsmul_eq_zero (multiple : Nat) (p : Fin groupOrder) :
    multiple • p = 0 ↔ groupOrder ∣ multiple * p.val := by
  rw [← Fin.val_inj, val_nsmul]
  exact Nat.dvd_iff_mod_eq_zero.symm

theorem val_y (p : Fin groupOrder) :
    (Edwards25519.y p).val = 1 + min p.val (groupOrder - p.val) := by
  refine ZMod.val_cast_of_lt ?_
  have inside := p.isLt
  simp only [groupOrder] at inside ⊢
  omega

theorem val_x (p : Fin groupOrder) :
    (Edwards25519.x p).val =
      if p.val = 0 then 0 else if 2 * p.val ≤ groupOrder then 1 else 2 := by
  change (if p.val = 0 then (0 : Fe)
    else if 2 * p.val ≤ groupOrder then 1 else 2).val = _
  split
  · rfl
  · split
    · rfl
    · rfl

/-- The encoding keeps the distance from zero and the half it lies in. -/
theorem toNat_toBytes_edwards25519 (p : Fin groupOrder) :
    toNat (Edwards25519.toBytes p) % 2 ^ 255 =
        1 + min p.val (groupOrder - p.val) ∧
      (Edwards25519.toBytes p).top =
        decide (p.val ≠ 0 ∧ 2 * p.val ≤ groupOrder) := by
  have inside := p.isLt
  have small : 1 + min p.val (groupOrder - p.val) < 2 ^ 255 := by
    simp only [groupOrder] at inside ⊢
    omega
  constructor
  · rw [Edwards25519.toBytes, Block.toNat_withTop, Fe.toNat_toBytes, val_y]
    split
    · omega
    · omega
  · rw [Edwards25519.toBytes, Block.top_withTop, Fe.isNegative, val_x,
      decide_eq_decide]
    split
    · simp_all
    · split
      · simp_all
      · simp_all

/-- The sample group satisfies the laws. -/
theorem edwards25519_laws : Edwards25519.Laws (Fin groupOrder) where
  order := by
    decide
  exact multiple zero := by
    have divides := (nsmul_eq_zero multiple 1).mp zero
    rwa [show (1 : Fin groupOrder).val = 1 from rfl, Nat.mul_one] at divides
  read p := by
    have inside := p.isLt
    obtain ⟨distance, half⟩ := toNat_toBytes_edwards25519 p
    change some (Fin.ofNat groupOrder
      (if (Edwards25519.toBytes p).top then
        toNat (Edwards25519.toBytes p) % 2 ^ 255 - 1
      else
        groupOrder - (toNat (Edwards25519.toBytes p) % 2 ^ 255 - 1))) = some p
    rw [distance, half, Nat.add_sub_cancel_left]
    refine congrArg some (Fin.val_inj.mp ?_)
    rw [Fin.val_ofNat]
    by_cases low : p.val ≠ 0 ∧ 2 * p.val ≤ groupOrder
    · rw [decide_eq_true low, if_pos rfl, Nat.min_eq_left (by omega),
        Nat.mod_eq_of_lt inside]
    · rw [decide_eq_false low, if_neg Bool.false_ne_true]
      by_cases zero : p.val = 0
      · rw [zero, Nat.zero_min, Nat.sub_zero, Nat.mod_self]
      · rw [Nat.min_eq_right (by omega), Nat.sub_sub_self inside.le,
          Nat.mod_eq_of_lt inside]
  x_eq_zero p := by
    have inside := p.isLt
    have odd : ¬ 2 ∣ groupOrder := by
      decide
    rw [← ZMod.val_eq_zero, val_x, nsmul_eq_zero]
    constructor
    · intro zero
      split at zero
      · rename_i origin
        rw [origin]
        exact Nat.dvd_zero _
      · split at zero
        · cases zero
        · cases zero
    · intro divides
      have order := (Nat.coprime_comm.mp
        (Nat.prime_two.coprime_iff_not_dvd.mpr odd)).dvd_of_dvd_mul_left divides
      exact if_pos (Nat.eq_zero_of_dvd_of_lt order inside)
  y_eq_one p := by
    have inside := p.isLt
    have one : (1 : Fe).val = 1 := rfl
    rw [← Fin.val_inj, ← (ZMod.val_injective _).eq_iff, val_y, one]
    simp only [Fin.val_zero]
    omega
  mul scalar fits strong := by
    exact if_neg strong
  mulDouble first p second result firstFits secondFits := by
    change (if 8 • p = 0 then _ else _) = _ ↔ _
    by_cases weak : 8 • p = 0
    · rw [if_pos weak]
      exact ⟨nofun, fun strong => absurd weak strong.1⟩
    · rw [if_neg weak]
      constructor
      · intro same
        exact ⟨weak, (Outcome.ok.inj same).symm⟩
      · rintro ⟨_, rfl⟩
        rfl

/-- The u-coordinate of the multiple, encoded. -/
def ladder (scalar : Block 32) : Block 32 :=
  Fe.toBytes (Edwards25519.montgomery
    (toNat (Curve.clamp scalar) • (Edwards25519.basePoint : Fin groupOrder)))

/-- A stand-in for the curve. -/
@[reducible] def x25519 : X25519 where
  basePointMul scalar := some (ladder scalar)

attribute [local instance] x25519

/-- The sample ladder agrees with the group. -/
theorem x25519_birational : X25519.Birational (Fin groupOrder) := by
  intro scalar key isKey
  obtain rfl := Option.some.inj isKey
  exact Fe.fromBytes_toBytes _

end Sample

namespace Signing

section Witness

attribute [local instance] Sample.sha512 Sample.groupOrder_neZero
  Sample.edwards25519 Sample.x25519

/-- The secret of the sample signature. -/
private def sampleSecret : Block 32 :=
  Block.fill 32 7

/-- The message of the sample signature. -/
private def sampleMessage : Bytes :=
  [1, 2, 3]

/-- The nonce of the sample signature. -/
private def sampleNonce : Block 64 :=
  Block.fill 64 9

private theorem sampleNonce_ne_zero :
    Scalar.toNat (nonceScalar sampleSecret sampleNonce) ≠ 0 := by
  decide +kernel

/-- A signature of a sample message. -/
theorem sign_verify_message :
    ∃ signature,
      sign (Fin Scalar.groupOrder) sampleSecret sampleMessage sampleNonce =
          .ok signature ∧
        verify (Fin Scalar.groupOrder) (Sample.ladder sampleSecret)
          sampleMessage signature = true :=
  sign_verify Sample.edwards25519_laws Sample.x25519_birational rfl
    sampleMessage sampleNonce_ne_zero

/-- The signature that comes of them. -/
private def sampleSignature : Block 64 :=
  written (Fin Scalar.groupOrder) sampleMessage (Curve.clamp sampleSecret)
    (nonceScalar sampleSecret sampleNonce)

/-- The key has prime order and both signatures of the message verify. -/
theorem shifted_accepted :
    Ambiguous (Fin Scalar.groupOrder) (Sample.ladder sampleSecret)
      sampleMessage sampleSignature (shifted sampleSignature) :=
  written_ambiguous Sample.edwards25519_laws Sample.x25519_birational rfl
    sampleMessage (Scalar.toNat_reduce64_lt _) sampleNonce_ne_zero

/-- The condition at a shifted signature. -/
theorem accepted_eq_iff_shifted :
    sampleSignature = shifted sampleSignature ↔
      Scalar.toNat ((sampleSignature.slice 32 32 (by decide)).withTop false) /
          Scalar.groupOrder =
        Scalar.toNat
            (((shifted sampleSignature).slice 32 32 (by decide)).withTop
              false) /
          Scalar.groupOrder :=
  have ambiguous :
      Ambiguous (Fin Scalar.groupOrder) (Sample.ladder sampleSecret)
        sampleMessage sampleSignature (shifted sampleSignature) :=
    written_ambiguous Sample.edwards25519_laws Sample.x25519_birational rfl
      sampleMessage (Scalar.toNat_reduce64_lt _) sampleNonce_ne_zero
  accepted_eq_iff Sample.edwards25519_laws ambiguous.accepted
    ambiguous.otherAccepted ambiguous.sameCommitment ambiguous.sameSign

end Witness

end Signing

end Gossveil
