import Gossveil.ErasureCode
import Gossveil.Keys

namespace Gossveil

/-!
# The key encapsulation and the authentication of its parts

The encapsulation is split so that a first capsule half needs only the key's
header.  It is a parameter here, with its correctness as a class of laws.  The
authenticator is a root key that moves with every epoch and a MAC key derived
beside it.
-/

namespace Kem

/-- The bytes of the header: the seed and the hash of the key. -/
def headerLength : Nat := 64

/-- The bytes of the encapsulation key behind the header. -/
def encapLength : Nat := 1152

/-- The bytes of the first half of a capsule. -/
def firstLength : Nat := 960

/-- The bytes of the second half. -/
def secondLength : Nat := 128

/-- The bytes of the key that opens a capsule. -/
def decapLength : Nat := 2400

/-- Three polynomials and one more of 16-bit integers, and the message. -/
def carryLength : Nat := 3 * 256 * 2 + 256 * 2 + 32

/-- The bytes drawn for a pair of keys. -/
def seedLength : Nat := 64

/-- A pair of keys, the public one in two parts. -/
structure Keys where
  header : Block headerLength
  encap : Block encapLength
  decap : Block decapLength
  deriving DecidableEq

/-- The first half of a capsule, and what the second half is made from. -/
structure First where
  capsule : Block firstLength
  carry : Block carryLength
  shared : Block 32
  deriving DecidableEq

end Kem

/-- Encapsulation in two halves, as the braid calls it. -/
class Kem where
  generate : Block Kem.seedLength → Option Kem.Keys
  firstHalf : Block Kem.headerLength → Block 32 → Kem.First
  secondHalf :
    Block Kem.encapLength → Block Kem.carryLength → Block Kem.secondLength
  openHalves :
    Block Kem.decapLength →
    Block Kem.firstLength →
    Block Kem.secondLength →
    Option (Block 32)
  keyMatchesHeader : Block Kem.encapLength → Block Kem.headerLength → Bool

/--
Opening the two halves made for a generated key returns the secret of the first
one, and a generated key matches its own header.
-/
class LawfulKem [Kem] : Prop where
  open_halves :
    ∀ {seed keys} (message : Block 32),
      Kem.generate seed = some keys →
      Kem.openHalves keys.decap
          (Kem.firstHalf keys.header message).capsule
          (Kem.secondHalf keys.encap
            (Kem.firstHalf keys.header message).carry) =
        some (Kem.firstHalf keys.header message).shared
  key_matches :
    ∀ {seed keys},
      Kem.generate seed = some keys →
      Kem.keyMatchesHeader keys.encap keys.header = true

namespace Sample

/-- A stand-in that sends the message in the clear. -/
@[reducible] def kem : Kem where
  generate seed :=
    some ⟨seed, seed.append (Block.zero 1088), Block.zero Kem.decapLength⟩
  firstHalf header message :=
    ⟨message.append (Block.zero 928), Block.zero Kem.carryLength, message⟩
  secondHalf _ _ := Block.zero Kem.secondLength
  openHalves _ capsule _ := some (capsule.slice 0 32 (by decide))
  keyMatchesHeader encap header :=
    decide (encap.slice 0 Kem.headerLength (by decide) = header)

/-- The stand-in obeys the law of the KEM. -/
theorem lawfulKem : @LawfulKem kem :=
  @LawfulKem.mk kem
    (by
      intro seed keys message _
      exact congrArg some (Block.slice_append_left ..))
    (by
      rintro seed keys ⟨⟩
      exact decide_eq_true
        (Block.slice_append_left seed (Block.zero 1088) _))

end Sample

namespace Auth

/-- The bytes of a tag. -/
def tagLength : Nat := 32

/-- The label under which the keys advance. -/
def updateLabel : Bytes :=
  ascii "Signal_PQCKA_V1_MLKEM768:Authenticator Update"

/-- The label of a tag over a header. -/
def headerLabel : Bytes :=
  ascii "Signal_PQCKA_V1_MLKEM768:ekheader"

/-- The label of a tag over a capsule. -/
def capsuleLabel : Bytes :=
  ascii "Signal_PQCKA_V1_MLKEM768:ciphertext"

end Auth

/-- The chained keys that authenticate the braid. -/
structure Auth where
  root : Block 32
  mac : Block 32
  deriving DecidableEq

namespace Auth

variable [Hashes]

/-- The next root and MAC keys from the current root, a secret and the epoch. -/
def advanced (auth : Auth) (epoch : Nat) (secret : Bytes) : Auth :=
  let out :=
    Hashes.hkdfExpand 64 (updateLabel ++ bigEndian 8 epoch)
      (Hashes.hkdfExtract (Block.zero 32).bytes
        (auth.root.bytes ++ secret))
  ⟨out.slice 0 32 Block.first_of_two, out.slice 32 32 Block.second_of_two⟩

/-- The material buffer has room for 64 bytes behind the root. -/
def advance
    (auth : Auth)
    (epoch : Nat)
    (secret : Bytes) :
    Outcome RatchetError Auth :=
  if secret.length ≤ 64 then .ok (auth.advanced epoch secret) else .trap

/-- The keys of an epoch, from a key both sides share. -/
def init (root : Bytes) (epoch : Nat) : Outcome RatchetError Auth :=
  advance ⟨Block.zero 32, Block.zero 32⟩ epoch root

/-- A tag over some bytes of an epoch, under a label. -/
def tagOf
    (auth : Auth)
    (label : Bytes)
    (epoch : Nat)
    (data : Bytes) :
    Block tagLength :=
  Hashes.hmac auth.mac.bytes (label ++ bigEndian 8 epoch ++ data)

/-- The tag over the header of an epoch. -/
def tagHeader
    (auth : Auth)
    (epoch : Nat)
    (header : Block Kem.headerLength) :
    Block tagLength :=
  auth.tagOf headerLabel epoch header.bytes

/-- The tag over the capsule of an epoch. -/
def tagCapsule
    (auth : Auth)
    (epoch : Nat)
    (capsule : Bytes) :
    Block tagLength :=
  auth.tagOf capsuleLabel epoch capsule

/-- Whether a header came with its tag. -/
def checkHeader
    (auth : Auth)
    (epoch : Nat)
    (header : Block Kem.headerLength)
    (tag : Block tagLength) :
    Bool :=
  auth.tagHeader epoch header = tag

/-- Whether a capsule came with its tag. -/
def checkCapsule
    (auth : Auth)
    (epoch : Nat)
    (capsule : Bytes)
    (tag : Block tagLength) :
    Bool :=
  auth.tagCapsule epoch capsule = tag

@[simp] theorem advance_block
    {size : Nat}
    (auth : Auth)
    (epoch : Nat)
    (secret : Block size)
    (fits : size ≤ 64) :
    auth.advance epoch secret.bytes =
      .ok (auth.advanced epoch secret.bytes) := by
  rw [advance, if_pos]
  rw [secret.length_bytes]
  exact fits

@[simp] theorem checkHeader_tagHeader
    (auth : Auth)
    (epoch : Nat)
    (header : Block Kem.headerLength) :
    auth.checkHeader epoch header (auth.tagHeader epoch header) = true := by
  simp [checkHeader]

@[simp] theorem checkCapsule_tagCapsule
    (auth : Auth)
    (epoch : Nat)
    (capsule : Bytes) :
    auth.checkCapsule epoch capsule (auth.tagCapsule epoch capsule) =
      true := by
  simp [checkCapsule]

end Auth

end Gossveil
