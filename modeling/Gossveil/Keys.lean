import Gossveil.Primitives

namespace Gossveil

/-!
# Curve keys, identities and key derivations

A public key travels as a tag byte and the u-coordinate; a secret is held
clamped.  The derivations are HKDF and HMAC under the protocol's labels.
-/

/-- The bytes of an ASCII label. -/
def ascii (label : String) : Bytes :=
  label.toList.map fun char => UInt8.ofNat char.toNat

namespace Frame

/-- The version that messages are written in. -/
def currentVersion : Nat := 4

/-- The oldest version that is still read. -/
def oldestVersion : Nat := 3

/-- The byte before a serialized curve key. -/
def curveKeyTag : UInt8 := 0x05

/-- The message's version in the high nibble, the writer's newest in the low one. -/
def versionByte (messageVersion : Nat) : UInt8 :=
  UInt8.ofNat (messageVersion % 16 * 16 + currentVersion)

/-- The version in the high half of a byte, if it is one that is read. -/
def messageVersion (byte : UInt8) : Outcome Fault Nat :=
  let version := byte.toNat / 16
  if version < oldestVersion then
    .error .legacyVersion
  else if currentVersion < version then
    .error .unknownVersion
  else
    .ok version

end Frame

namespace Curve

/-- The bytes of a serialized public key: the tag and the point. -/
def serializedLength : Nat := 33

/-- The bytes of a signature. -/
def signatureLength : Nat := 64

/-- A public key: the u coordinate of its point. -/
structure Public where
  u : Block 32
  deriving DecidableEq

namespace Public

/-- The key behind its tag. -/
def serialize (key : Public) : Bytes :=
  Frame.curveKeyTag :: key.u.bytes

/-- Reads a key of the one known tag; the length is checked first. -/
def parse (data : Bytes) : Outcome Fault Public :=
  match data with
  | [] => .error .badKey
  | tag :: rest =>
      match Block.ofBytes 32 rest with
      | none => .error .badKey
      | some u =>
          if tag ≠ Frame.curveKeyTag then .error .unknownKeyType else .ok ⟨u⟩

@[simp] theorem length_serialize (key : Public) :
    key.serialize.length = serializedLength := by
  simp [serialize, serializedLength]

@[simp] theorem parse_serialize (key : Public) :
    parse key.serialize = .ok key := by
  simp [parse, serialize]

/-- What parses is the serialized key. -/
theorem serialize_of_parse
    {data : Bytes}
    {key : Public}
    (parsed : parse data = .ok key) :
    key.serialize = data := by
  cases data with
  | nil =>
      cases parsed
  | cons tag rest =>
      simp only [parse] at parsed
      cases isBlock : Block.ofBytes 32 rest with
      | none =>
          simp [isBlock] at parsed
      | some u =>
          simp only [isBlock] at parsed
          split_ifs at parsed with other
          cases parsed
          rw [serialize, Block.ofBytes_eq_some.mp isBlock, not_not.mp other]

/-- Different keys have different bytes. -/
theorem serialize_injective :
    Function.Injective serialize := by
  intro key other same
  have parsed := key.parse_serialize
  rw [same, other.parse_serialize] at parsed
  exact (Outcome.ok.inj parsed).symm

/-- Parsing a key never traps. -/
theorem parse_ne_trap (data : Bytes) : parse data ≠ .trap := by
  cases data with
  | nil => simp [parse]
  | cons tag rest =>
      simp only [parse]
      cases Block.ofBytes 32 rest with
      | none => simp
      | some u => simp only; split_ifs <;> simp

variable [Curves]

/-- Checks a signature over a message. -/
def verify
    (key : Public)
    (message : Bytes)
    (signature : Block 64) :
    Bool :=
  Curves.verify key.u message signature

end Public

/-- `c[0] &= 248; c[31] &= 127; c[31] |= 64`. -/
def clamp (scalar : Block 32) : Block 32 :=
  ⟨scalar.bytes.mapIdx fun index byte =>
      if index = 0 then
        byte &&& 248
      else if index = 31 then
        (byte &&& 127) ||| 64
      else
        byte, by simp⟩

/-- A secret key: its clamped scalar. -/
structure Secret where
  scalar : Block 32
  deriving DecidableEq

namespace Secret

/-- A secret from drawn bytes. -/
def fromRaw (bytes : Block 32) : Secret :=
  ⟨clamp bytes⟩

/-- Reads a secret and clamps it. -/
def parse (data : Bytes) : Outcome Fault Secret :=
  match Block.ofBytes 32 data with
  | none => .error .badKey
  | some raw => .ok (fromRaw raw)

/-- The bytes of the scalar. -/
def serialize (secret : Secret) : Bytes :=
  secret.scalar.bytes

/-- Parsing a secret never traps. -/
theorem parse_ne_trap (data : Bytes) : parse data ≠ .trap := by
  unfold parse
  cases Block.ofBytes 32 data <;> simp

variable [Curves]

/-- The public key of a secret. -/
def publicKey (secret : Secret) : Outcome Fault Public :=
  Outcome.ofOption .badKey
    ((Curves.basePointMul secret.scalar).map Public.mk)

/-- The secret two parties share; a point of small order is refused. -/
def agree (secret : Secret) (their : Public) : Outcome Fault (Block 32) :=
  Outcome.ofOption .badKey (Curves.scalarmult secret.scalar their.u)

/-- The nonce is drawn from the entropy source. -/
def signWithNonce
    (secret : Secret)
    (message : Bytes)
    (nonce : Block 64) :
    Outcome Fault (Block 64) :=
  Outcome.ofOption .badKey (Curves.sign secret.scalar message nonce)

end Secret

/-- The two halves of a key. -/
structure Pair where
  publicKey : Public
  secret : Secret
  deriving DecidableEq

namespace Pair

variable [Curves]

/-- `generate` is `fromSeed` of a fresh draw. -/
def fromSeed (seed : Block 32) : Outcome Fault Pair := do
  let secret := Secret.fromRaw seed
  let publicKey ← secret.publicKey
  return ⟨publicKey, secret⟩

/-- A pair from its secret half. -/
def fromSecret (secret : Secret) : Outcome Fault Pair := do
  let publicKey ← secret.publicKey
  return ⟨publicKey, secret⟩

theorem fromSeed_ne_trap (seed : Block 32) : fromSeed seed ≠ .trap := by
  simp [fromSeed, Secret.publicKey, Outcome.bind_eq_trap]

theorem fromSecret_ne_trap (secret : Secret) : fromSecret secret ≠ .trap := by
  simp [fromSecret, Secret.publicKey, Outcome.bind_eq_trap]

end Pair

end Curve

/-! ## Key pairs that belong together -/

namespace Curve

variable [Curves]

/-- What makes the agreement of X25519 one key for both sides. -/
def Commutes : Prop :=
  ∀ first second firstPublic secondPublic,
    Curves.basePointMul first = some firstPublic →
    Curves.basePointMul second = some secondPublic →
    Curves.scalarmult first secondPublic =
      Curves.scalarmult second firstPublic

/-- A key of no small order agrees with every secret. -/
def Public.Valid (key : Public) : Prop :=
  ∀ secret : Secret, ∃ shared, secret.agree key = .ok shared

/-- The public key of a pair is that of its secret. -/
def Pair.Whole (pair : Pair) : Prop :=
  pair.secret.publicKey = .ok pair.publicKey

/-- A signature verifies under the public key of the secret that made it. -/
def SignaturesVerify : Prop :=
  ∀ pair : Pair,
    pair.Whole →
    ∀ message nonce signature,
      pair.secret.signWithNonce message nonce = .ok signature →
      pair.publicKey.verify message signature = true

/-- A pair from a seed belongs together. -/
theorem Pair.whole_of_fromSeed
    {seed : Block 32}
    {pair : Pair}
    (made : Pair.fromSeed seed = .ok pair) :
    pair.Whole := by
  obtain ⟨publicKey, isPublic, rest⟩ := Outcome.bind_eq_ok.mp made
  obtain rfl := Outcome.ok.inj rest
  exact isPublic

/-- A pair from a secret belongs together. -/
theorem Pair.whole_of_fromSecret
    {secret : Secret}
    {pair : Pair}
    (made : Pair.fromSecret secret = .ok pair) :
    pair.Whole := by
  obtain ⟨publicKey, isPublic, rest⟩ := Outcome.bind_eq_ok.mp made
  obtain rfl := Outcome.ok.inj rest
  exact isPublic

theorem Pair.Whole.basePointMul
    {pair : Pair}
    (whole : pair.Whole) :
    Curves.basePointMul pair.secret.scalar = some pair.publicKey.u := by
  obtain ⟨u, isPoint, isPublic⟩ :=
    Option.map_eq_some_iff.mp (Outcome.ofOption_eq_ok.mp whole)
  rw [isPoint, ← isPublic]

/-- Two whole pairs agree on one secret, whichever end computes it. -/
theorem Pair.Whole.agree_comm
    {first second : Pair}
    (firstWhole : first.Whole)
    (secondWhole : second.Whole)
    (commutes : Commutes) :
    first.secret.agree second.publicKey =
      second.secret.agree first.publicKey :=
  congrArg (Outcome.ofOption Fault.badKey)
    (commutes _ _ _ _ firstWhole.basePointMul secondWhole.basePointMul)

end Curve

theorem Sample.commutes : @Curve.Commutes Sample.curves := by
  rintro first second _ _ ⟨⟩ ⟨⟩
  apply congrArg some
  ext1
  exact List.zipWith_comm_of_comm fun one other => UInt8.xor_comm one other

theorem Sample.signaturesVerify : @Curve.SignaturesVerify Sample.curves := by
  intro pair whole message nonce signature isSigned
  rfl

/-- A device's long-lived identity. -/
structure Identity where
  key : Curve.Public
  deriving DecidableEq

/-- The identity of a party, with its secret. -/
structure IdentityPair where
  identity : Identity
  secret : Curve.Secret
  deriving DecidableEq

/-- A pair as an identity. -/
def IdentityPair.fromPair (pair : Curve.Pair) : IdentityPair :=
  ⟨⟨pair.publicKey⟩, pair.secret⟩

/-- The keys of an identity as a pair. -/
def IdentityPair.pair (us : IdentityPair) : Curve.Pair :=
  ⟨us.identity.key, us.secret⟩

namespace Derive

variable [Hashes]

/--
What a handshake derives: the root, the first chain and the key of the
post-quantum ratchet.
-/
structure Opening where
  root : Block 32
  chain : Block 32
  pqAuth : Block 32
  deriving DecidableEq

/--
The handshake secret opens into a root key, a first chain key and the
authentication key of the post-quantum ratchet.
-/
def opening (secret : Bytes) : Opening :=
  let out :=
    Hashes.hkdfExpand 96
      (ascii "WhisperText_X25519_SHA-256_CRYSTALS-KYBER-1024")
      (Hashes.hkdfExtract [] secret)
  ⟨out.slice 0 32 Block.first_of_three, out.slice 32 32 Block.second_of_three,
    out.slice 64 32 Block.third_of_three⟩

/-- What a turn of the ratchet derives. -/
structure Turn where
  root : Block 32
  chain : Block 32
  deriving DecidableEq

/-- One turn of the asymmetric ratchet; the previous root key is the salt. -/
def turn (root agreement : Block 32) : Turn :=
  let out :=
    Hashes.hkdfExpand 64 (ascii "WhisperRatchet")
      (Hashes.hkdfExtract root.bytes agreement.bytes)
  ⟨out.slice 0 32 Block.first_of_two, out.slice 32 32 Block.second_of_two⟩

/-- The keys of one message. -/
structure MessageKeys where
  cipher : Block 32
  mac : Block 32
  iv : Block 16
  deriving DecidableEq

/--
Message keys from a chain seed; the post-quantum ratchet key is the salt when
the session has one.
-/
def messageKeys
    (seed : Block 32)
    (salt : Option (Block 32)) :
    MessageKeys :=
  let key :=
    match salt with
    | some salt => Hashes.hkdfExtract salt.bytes seed.bytes
    | none => Hashes.hkdfExtract [] seed.bytes
  let out := Hashes.hkdfExpand 80 (ascii "WhisperMessageKeys") key
  ⟨out.slice 0 32 (by decide), out.slice 32 32 (by decide),
    out.slice 64 16 (by decide)⟩

/-- One derivation from a chain, told apart by its tag. -/
def tagged (key : Block 32) (tag : UInt8) : Block 32 :=
  Hashes.hmac key.bytes [tag]

/-- The seed of the message at a chain's index. -/
def chainSeed (chain : Block 32) : Block 32 :=
  tagged chain 0x01

/-- The key of the chain one index on. -/
def chainNext (chain : Block 32) : Block 32 :=
  tagged chain 0x02

/-- The keys of one note. -/
structure CircleKeys where
  iv : Block 16
  cipher : Block 32
  deriving DecidableEq

/-- The keys of a note from the seed of its index. -/
def circleKeys (seed : Block 32) : CircleKeys :=
  let out :=
    Hashes.hkdfExpand 48 (ascii "WhisperGroup")
      (Hashes.hkdfExtract [] seed.bytes)
  ⟨out.slice 0 16 (by decide), out.slice 16 32 (by decide)⟩

/-- The general form: without a salt the empty one is used. -/
def hkdf
    (size : Nat)
    (material : Bytes)
    (salt : Option Bytes)
    (info : Bytes) :
    Block size :=
  Hashes.hkdfExpand size info (Hashes.hkdfExtract (salt.getD []) material)

end Derive

end Gossveil
