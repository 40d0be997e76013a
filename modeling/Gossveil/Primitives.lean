import Gossveil.CodecRoundTrip

namespace Gossveil

/-!
# Fixed-size blocks and the primitives of the standard library

A `Block` is a byte array whose length is part of its type.  The hash, curve
and cipher primitives come from the language's standard library and are
parameters here, one class for each group of them.
-/

/-- A byte array of `size` bytes. -/
structure Block (size : Nat) where
  bytes : Bytes
  length_bytes : bytes.length = size
  deriving DecidableEq

namespace Block

@[ext] theorem ext
    {size : Nat}
    {first second : Block size}
    (same : first.bytes = second.bytes) :
    first = second := by
  cases first
  cases second
  cases same
  rfl

@[simp] theorem length_eq
    {size : Nat}
    (block : Block size) :
    block.bytes.length = size :=
  block.length_bytes

/-- The block a slice holds, when the slice has the block's length. -/
def ofBytes (size : Nat) (bytes : Bytes) : Option (Block size) :=
  if fits : bytes.length = size then some ⟨bytes, fits⟩ else none

@[simp] theorem ofBytes_bytes
    {size : Nat}
    (block : Block size) :
    ofBytes size block.bytes = some block :=
  dif_pos block.length_bytes

/-- A block is made of exactly the bytes of its length. -/
theorem ofBytes_eq_some
    {size : Nat}
    {bytes : Bytes}
    {block : Block size} :
    ofBytes size bytes = some block ↔ block.bytes = bytes := by
  unfold ofBytes
  constructor
  · intro shape
    split_ifs at shape
    cases shape
    rfl
  · intro shape
    subst shape
    simp

/-- A block of one repeated byte. -/
def fill (size : Nat) (byte : UInt8) : Block size :=
  ⟨List.replicate size byte, List.length_replicate ..⟩

/-- `[_]u8{0} ** size`. -/
def zero (size : Nat) : Block size :=
  fill size 0

/-! The keys of an expanded secret are its parts of 32 bytes. -/

theorem first_of_two : 0 + 32 ≤ 64 := by
  decide

theorem second_of_two : 32 + 32 ≤ 64 := by
  decide

theorem first_of_three : 0 + 32 ≤ 96 := by
  decide

theorem second_of_three : 32 + 32 ≤ 96 := by
  decide

theorem third_of_three : 64 + 32 ≤ 96 := by
  decide

/-- `count` bytes from an offset on. -/
def slice
    {size : Nat}
    (block : Block size)
    (offset count : Nat)
    (inside : offset + count ≤ size) :
    Block count :=
  ⟨(block.bytes.drop offset).take count, by
    simp only [List.length_take, List.length_drop, length_eq]
    omega⟩

/-- Two blocks in a row. -/
def append
    {first second : Nat}
    (front : Block first)
    (back : Block second) :
    Block (first + second) :=
  ⟨front.bytes ++ back.bytes, by simp⟩

@[simp] theorem bytes_append
    {first second : Nat}
    (front : Block first)
    (back : Block second) :
    (front.append back).bytes = front.bytes ++ back.bytes :=
  rfl

@[simp] theorem slice_append_left
    {first second : Nat}
    (front : Block first)
    (back : Block second)
    (inside : 0 + first ≤ first + second) :
    (front.append back).slice 0 first inside = front := by
  ext1
  simp [slice, append]

@[simp] theorem slice_append_right
    {first second : Nat}
    (front : Block first)
    (back : Block second)
    (inside : first + second ≤ first + second) :
    (front.append back).slice first second inside = back := by
  ext1
  simp [slice, append, List.take_of_length_le]

/-- The last `size` bytes of a slice that is long enough. -/
def last
    (size : Nat)
    (bytes : Bytes)
    (inside : size ≤ bytes.length) :
    Block size :=
  ⟨bytes.drop (bytes.length - size), by
    simp only [List.length_drop]
    omega⟩

@[simp] theorem last_append
    {size : Nat}
    (front : Bytes)
    (block : Block size)
    (inside : size ≤ (front ++ block.bytes).length) :
    last size (front ++ block.bytes) inside = block := by
  ext1
  simp [last]

end Block

namespace Codec.Field

variable {ε : Type}

/-! The ways the parsers read one field, with the error they return. -/

/-- `std.math.cast(u32, f.uint() orelse return fault) orelse return fault`. -/
def uint32 (fault : ε) (field : Field) : Outcome ε Nat :=
  Outcome.ofOption fault (field.uint.bind (Outcome.castTo 32))

/-- `f.bytes() orelse return fault`. -/
def bytesOr (fault : ε) (field : Field) : Outcome ε Bytes :=
  Outcome.ofOption fault field.bytes

/-- A byte field of exactly `size` bytes. -/
def block
    (fault : ε)
    (size : Nat)
    (field : Field) :
    Outcome ε (Block size) :=
  Outcome.ofOption fault (field.bytes.bind (Block.ofBytes size))

/-- A number of 32 bits reads back. -/
theorem uint32_ofUint
    (fault : ε)
    (number value : Nat)
    (small : value < 2 ^ 32) :
    (ofUint number value).uint32 fault = .ok value := by
  simp [uint32, Outcome.castTo_of_lt small]

/-- What is read as 32 bits fits them. -/
theorem uint32_lt
    {fault : ε}
    {field : Field}
    {value : Nat}
    (read : field.uint32 fault = .ok value) :
    value < 2 ^ 32 := by
  have found := Outcome.ofOption_eq_ok.mp read
  rcases Option.bind_eq_some_iff.mp found with ⟨raw, _, cast⟩
  rcases Outcome.castTo_eq_some.mp cast with ⟨small, rfl⟩
  exact small

@[simp] theorem bytesOr_ofBytes
    (fault : ε)
    (number : Nat)
    (value : Bytes) :
    (ofBytes number value).bytesOr fault = .ok value :=
  rfl

@[simp] theorem block_ofBytes
    {size : Nat}
    (fault : ε)
    (number : Nat)
    (value : Block size) :
    (ofBytes number value.bytes).block fault size = .ok value := by
  simp [block]

end Codec.Field

/-- `mem.writeInt(_, _, value, .big)` into `size` bytes. -/
def bigEndian (size value : Nat) : Bytes :=
  (Codec.Writer.littleEndian size value).reverse

/-- HKDF and HMAC with SHA-256. -/
class Hashes where
  hkdfExtract : (salt material : Bytes) → Block 32
  hkdfExpand : (size : Nat) → (info : Bytes) → (key : Block 32) → Block size
  hmac : (key data : Bytes) → Block 32

/-- X25519 and the signatures of a Montgomery key. -/
class Curves where
  /-- The u-coordinate of a clamped scalar times the base point. -/
  basePointMul : (scalar : Block 32) → Option (Block 32)
  scalarmult : (scalar point : Block 32) → Option (Block 32)
  sign :
    (scalar : Block 32) →
    (message : Bytes) →
    (nonce : Block 64) →
    Option (Block 64)
  verify :
    (point : Block 32) →
    (message : Bytes) →
    (signature : Block 64) →
    Bool

/-- One block of AES-256. -/
class Aes where
  encrypt : (key : Block 32) → (block : Block 16) → Block 16
  decrypt : (key : Block 32) → (block : Block 16) → Block 16

/-- AES-256-GCM-SIV: the ciphertext is as long as the plaintext. -/
class GcmSiv where
  encrypt :
    (key : Block 32) →
    (nonce : Block 12) →
    (plain aad : Bytes) →
    Bytes × Block 16
  decrypt :
    (key : Block 32) →
    (nonce : Block 12) →
    (sealed : Bytes) →
    (tag : Block 16) →
    (aad : Bytes) →
    Option Bytes

namespace Sample

/-! Stand-ins for the primitives, with which the model can be evaluated. -/

/-- The bytes as one number, cut to `size` bytes. -/
def digest (size : Nat) (bytes : Bytes) : Block size :=
  ⟨Codec.Writer.littleEndian size
      (bytes.foldl (fun number byte => number * 257 + byte.toNat + 1) 1),
    Codec.length_littleEndian ..⟩

/-- Two blocks, byte by byte. -/
def mixed
    {size : Nat}
    (first second : Block size) :
    Block size :=
  ⟨List.zipWith (· ^^^ ·) first.bytes second.bytes, by simp⟩

/-- Stand-in hashes: digests that depend on all of their inputs. -/
@[reducible] def hashes : Hashes where
  hkdfExtract salt material := digest 32 (salt ++ material)
  hkdfExpand size info key := digest size (info ++ key.bytes)
  hmac key data := digest 32 (key ++ data)

/--
A stand-in for the curve: every agreement succeeds and depends on both keys.
-/
@[reducible] def curves : Curves where
  basePointMul scalar := some scalar
  scalarmult scalar point := some (mixed scalar point)
  sign _ _ _ := some (Block.zero 64)
  verify _ _ _ := true

/-- A stand-in cipher that is its own inverse. -/
@[reducible] def aes : Aes where
  encrypt key block := mixed (key.slice 0 16 (by decide)) block
  decrypt key block := mixed (key.slice 0 16 (by decide)) block

/-- A stand-in that leaves the text as it is and computes a tag over it. -/
@[reducible] def gcmSiv : GcmSiv where
  encrypt key _ plain aad := (plain, digest 16 (key.bytes ++ aad ++ plain))
  decrypt key _ sealed tag aad :=
    if tag = digest 16 (key.bytes ++ aad ++ sealed) then some sealed else none

end Sample

/-- The faults every area shares. -/
inductive Fault where
  | badArgument
  | badState
  | badKey
  | badSignature
  | badMessage
  | unknownKeyId
  | unknownKeyType
  | badText
  | legacyVersion
  | unknownVersion
  | replay
  | untrustedIdentity
  | noSession
  | badSession
  | verifyFailed
  | badPadding
  | outOfMemory
  | overflow
  | unsupported
  deriving DecidableEq, Repr

end Gossveil
