import Mathlib.GroupTheory.OrderOfElement
import Gossveil.HandleScalars
import Gossveil.Sponge

namespace Gossveil

/-!
# Proofs of a username

The hash of a username is a point made of its three scalars.  The proof that
it was made from a real name is a response for each scalar to one challenge,
which the verifier finds again from the same transcript.
-/

/-- `std.crypto.ecc.Ristretto255`: a group with its scalars and encodings. -/
class Ristretto255 (Point : Type) extends AddCommGroup Point where
  basePoint : Point
  mul : Point → Block 32 → Outcome PointError Point
  toBytes : Point → Block 32
  fromBytes : Block 32 → Option Point

namespace Handle

/-- What ends a call on a handle. -/
inductive HandleError where
  | name (fault : NameError)
  | point (fault : PointError)
  deriving DecidableEq, Repr

/-- The three generators, encoded. -/
def generatorsRaw : Vector (Block 32) 3 :=
  #v[
    ⟨[0x60, 0xb9, 0x93, 0x66, 0x3a, 0x3d, 0xae, 0xcc, 0x4c, 0x85, 0x2f, 0x53,
      0x35, 0x47, 0xe3, 0x05, 0x38, 0x8c, 0x2a, 0x50, 0xa5, 0x83, 0x93, 0xea,
      0x27, 0x7d, 0xe4, 0xab, 0xf3, 0xde, 0x54, 0x3a], rfl⟩,
    ⟨[0xf2, 0xb6, 0xf1, 0xc8, 0x26, 0xfa, 0x36, 0x40, 0x20, 0x6f, 0x3b, 0x58,
      0xb2, 0x28, 0x6b, 0xde, 0xfd, 0xfd, 0xa6, 0xa5, 0x4f, 0xf9, 0x02, 0xf2,
      0x04, 0xa7, 0x2d, 0xe7, 0x37, 0xd2, 0x61, 0x57], rfl⟩,
    ⟨[0x06, 0x06, 0xbd, 0x3a, 0xbf, 0xce, 0x4e, 0x96, 0x17, 0xd4, 0x48, 0xfb,
      0x2c, 0xae, 0xb6, 0xcc, 0x02, 0x8e, 0xc9, 0xa2, 0xb6, 0x2b, 0x10, 0xb3,
      0xd9, 0xeb, 0x29, 0x48, 0xda, 0x6f, 0x3f, 0x53], rfl⟩]

section Model

variable {ε Point : Type} [Ristretto255 Point]

/-- `fromBytes(raw) catch unreachable` for each of the constants. -/
def generators : Outcome ε (Vector Point 3) := do
  let first ← Outcome.unwrap (Ristretto255.fromBytes (generatorsRaw.get 0))
  let second ← Outcome.unwrap (Ristretto255.fromBytes (generatorsRaw.get 1))
  let third ← Outcome.unwrap (Ristretto255.fromBytes (generatorsRaw.get 2))
  return #v[first, second, third]

/-- Multiplies a point; the identity element is an error. -/
def mul (p : Point) (scalar : Block 32) : Outcome HandleError Point :=
  (Ristretto255.mul p scalar).mapError .point

/--
The sum of the generators under three scalars, less the challenge times the
point.
-/
def combine
    (coefficients : Vector (Block 32) 3)
    (challenge : Option (Block 32))
    (p : Option Point) :
    Outcome HandleError Point := do
  let g ← generators
  let acc ← mul (g.get 0) (coefficients.get 0)
  let second ← mul (g.get 1) (coefficients.get 1)
  let acc := acc + second
  let third ← mul (g.get 2) (coefficients.get 2)
  let acc := acc + third
  match challenge with
  | none => return acc
  | some challenge =>
      let p ← Outcome.unwrap p
      let blind ← mul p challenge
      return acc - blind

/-- The point of a handle. -/
def point (handle : Handle) : Outcome HandleError Point :=
  combine handle.scalars none none

variable [Hashes]

/-- The bytes of some points, one after the other. -/
def absorbPoints (sponge : Sponge) (points : List Point) : Sponge :=
  points.foldl
    (fun sponge point => sponge.absorb (Ristretto255.toBytes point).bytes)
    sponge

/-- The shape of the statement, then every point in its order. -/
def statementOver (g : Vector Point 3) (p : Point) : Sponge :=
  let sponge := Sponge.init (ascii "POKSHO_Ristretto_SHOHMACSHA256")
  let sponge := sponge.absorb [1, 1, 3, 0, 2, 1, 3, 2, 4]
  let sponge := absorbPoints sponge [Ristretto255.basePoint, p]
  let sponge := absorbPoints sponge g.toList
  sponge.ratchet

/-- The transcript of a point before the proof. -/
def statement (p : Point) : Outcome ε Sponge := do
  let g ← generators
  return statementOver g p

/-- The copy of the transcript the nonces are squeezed from. -/
def blinding
    (transcript : Sponge)
    (scalars : Vector (Block 32) 3)
    (randomness message : Block 32) :
    Sponge :=
  let sponge := transcript.absorb randomness.bytes
  let sponge :=
    scalars.toList.foldl (fun sponge scalar => sponge.absorb scalar.bytes)
      sponge
  sponge.ratchet.absorbRatchet message.bytes

/-- Sixty-four bytes for each of the nonces. -/
def noncesOf (bytes : Block (3 * 64)) : Vector (Block 32) 3 :=
  #v[Scalar.reduce64 (bytes.slice 0 64 (by decide)),
    Scalar.reduce64 (bytes.slice 64 64 (by decide)),
    Scalar.reduce64 (bytes.slice 128 64 (by decide))]

/-- The transcript once the commitment is known. -/
def committed
    (transcript : Sponge)
    (commitment : Point)
    (message : Block 32) :
    Sponge :=
  (transcript.absorb (Ristretto255.toBytes commitment).bytes).absorbRatchet
    message.bytes

/-- The response for each scalar. -/
def responses
    (scalars nonces : Vector (Block 32) 3)
    (challenge : Block 32) :
    Vector (Block 32) 3 :=
  #v[Scalar.mulAdd (scalars.get 0) challenge (nonces.get 0),
    Scalar.mulAdd (scalars.get 1) challenge (nonces.get 1),
    Scalar.mulAdd (scalars.get 2) challenge (nonces.get 2)]

/-- The challenge, then the responses. -/
def proofBytes
    (challenge : Block 32)
    (response : Vector (Block 32) 3) :
    Block 128 :=
  ((challenge.append (response.get 0)).append (response.get 1)).append
    (response.get 2)

/-- `scalar.rejectNonCanonical` -/
def Canonical (scalar : Block 32) : Prop :=
  Scalar.toNat scalar < Scalar.groupOrder

instance (scalar : Block 32) : Decidable (Canonical scalar) :=
  inferInstanceAs (Decidable (_ < _))

/-- Checks a proof against a hash. -/
def verify
    (Point : Type)
    [Ristretto255 Point]
    (proof : Bytes)
    (hash : Block 32) :
    Outcome NameError Unit := do
  let proof ←
    Outcome.ofOption .proofVerificationFailure (Block.ofBytes 128 proof)
  let p : Point ←
    Outcome.ofOption .proofVerificationFailure (Ristretto255.fromBytes hash)
  let challenge := proof.slice 0 32 (by decide)
  Outcome.require .proofVerificationFailure (Canonical challenge)
  let response :=
    #v[proof.slice 32 32 (by decide), proof.slice 64 32 (by decide),
      proof.slice 96 32 (by decide)]
  Outcome.require .proofVerificationFailure
    (∀ scalar ∈ response.toList, Canonical scalar)
  let transcript ← statement p
  let commitment ←
    (combine response (some challenge) (some p)).orElseFault
      .proofVerificationFailure
  let (expected, _) ← (committed transcript commitment hash).scalarValue
  Outcome.require .proofVerificationFailure (expected = challenge)

variable (Point)

/-- The encoded point of a handle. -/
def hash (handle : Handle) : Outcome HandleError (Block 32) := do
  let p : Point ← handle.point
  return Ristretto255.toBytes p

/-- The proof of a handle, with drawn bytes. -/
def proof (handle : Handle) (randomness : Block 32) :
    Outcome HandleError (Block 128) := do
  let p : Point ← handle.point
  let message := Ristretto255.toBytes p
  let transcript ← statement p
  let (bytes, _) ←
    (blinding transcript handle.scalars randomness message).squeeze (3 * 64)
  let nonces := noncesOf bytes
  let commitment ← combine nonces none (some p)
  let (challenge, _) ←
    (committed transcript commitment message).scalarValue
  let out := proofBytes challenge (responses handle.scalars nonces challenge)
  (verify Point out.bytes message).mapError .name
  return out

variable [Sha512]

/-- The hash of a name. -/
def hashOf (text : Bytes) : Outcome HandleError (Block 32) := do
  let handle ← (parse text).mapError .name
  handle.hash Point

/-- The proof of a name. -/
def proofOf (text : Bytes) (randomness : Block 32) :
    Outcome HandleError (Block 128) := do
  let handle ← (parse text).mapError .name
  handle.proof Point randomness

end Model

end Handle

end Gossveil
