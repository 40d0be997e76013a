import Gossveil.Compression
import Gossveil.KemAuth
import Gossveil.Sampling

namespace Gossveil.Lattice

/-!
# The encapsulation split in two

The first half needs the header of the key only: the seed of the matrix and the
hash of the key.  What the second half needs of it is carried between them as
bytes: a vector in the transformed domain, the second noise and the message.
-/

variable {ε : Type}

namespace Poly

/-- Every coefficient as a 16-bit integer, low byte first. -/
def carried (p : Poly) : Bytes :=
  p.cs.toList.flatMap fun c => Codec.Writer.littleEndian 2 c.toUInt16.toNat

end Poly

/-- `std.mem.readInt(i16, bytes[offset..][0..2], .little)`. -/
def readInt16 (bytes : Bytes) (offset : Nat) : Int16 :=
  Int16.ofNat (Codec.Reader.littleEndian ((bytes.drop offset).take 2))

/-! ## Vectors -/

/-- A vector of `k` polynomials. -/
structure Vec where
  ps : Vector Poly 3
  deriving DecidableEq

namespace Vec

/-- A loop over the entries of a new vector. -/
def each (entry : Fin 3 → Outcome ε Poly) : Outcome ε Vec := do
  let first ← entry ⟨0, by decide⟩
  let second ← entry ⟨1, by decide⟩
  let third ← entry ⟨2, by decide⟩
  return ⟨#v[first, second, third]⟩

/-- Transforms every polynomial. -/
def ntt [Checks] (v : Vec) : Outcome ε Vec :=
  each fun i => (v.ps.get i).ntt

/-- Transforms every polynomial back. -/
def invNtt [Checks] (v : Vec) : Outcome ε Vec :=
  each fun i => (v.ps.get i).invNtt

/-- Brings every coefficient into the range below the prime. -/
def normalize (v : Vec) : Outcome ε Vec :=
  each fun i => (v.ps.get i).normalize

/-- Reduces every coefficient to a small one. -/
def barrett (v : Vec) : Outcome ε Vec :=
  each fun i => (v.ps.get i).barrett

/-- The sum, polynomial by polynomial. -/
def add (a b : Vec) : Outcome ε Vec :=
  each fun i => (a.ps.get i).add (b.ps.get i)

/-- Small polynomials under nonces one after the other. -/
def noise
    [Sha3]
    (word : Word)
    (eta nonce : Nat)
    (seed : Bytes) :
    Outcome ε Vec :=
  each fun i => do
    let nonce ← Outcome.add 8 nonce i.val
    polyNoise word eta (UInt8.ofNat nonce) seed

/-- The sum of the products of two transformed vectors. -/
def dotHat [Checks] (a b : Vec) : Outcome ε Poly :=
  (List.finRange 3).foldlM
    (fun out i => do
      let product ← (a.ps.get i).mulHat (b.ps.get i)
      Poly.add out product)
    Poly.zero

/-- The polynomials at `d` bits a coefficient, one after the other. -/
def compress [Checks] (v : Vec) (d : Nat) : Outcome ε Bytes :=
  (List.finRange 3).foldlM
    (fun out i => do
      let bytes ← (v.ps.get i).compress d
      return out ++ bytes)
    []

end Vec

/-! ## The matrix -/

/-- The public matrix, row by row. -/
structure Matrix where
  rows : Vector Vec 3

/-- The public matrix of a seed, or its transpose. -/
def matrix
    [Sha3]
    (blocks : Nat)
    (seed : Bytes)
    (transposed : Bool) :
    Outcome Unfilled Matrix := do
  let row := fun i : Fin 3 =>
    Vec.each fun j : Fin 3 =>
      polyUniform blocks seed
        (UInt8.ofNat (if transposed then i.val else j.val))
        (UInt8.ofNat (if transposed then j.val else i.val))
  let first ← row ⟨0, by decide⟩
  let second ← row ⟨1, by decide⟩
  let third ← row ⟨2, by decide⟩
  return ⟨#v[first, second, third]⟩

/-! ## The two halves -/

section Halves

variable [Sha3] [Checks]

/-- The vector that hides the message, in the transformed domain. -/
def hidden (word : Word) (rSeed : Bytes) : Outcome ε Vec := do
  let v : Vec ← Vec.noise word 2 0 rSeed
  let v : Vec ← v.ntt
  let v : Vec ← v.barrett
  v.normalize

/-- The first half of a capsule, which needs the header only. -/
def firstHalf
    (word : Word)
    (blocks : Nat)
    (header : Block Kem.headerLength)
    (message : Block 32) :
    Outcome Unfilled Kem.First := do
  let rho := header.slice 0 32 (by decide)
  let keyHash := header.slice 32 32 (by decide)
  let kr := Sha3.sha3_512 (message.bytes ++ keyHash.bytes)
  let rSeed := (kr.slice 32 32 Block.second_of_two).bytes
  let rh ← hidden word rSeed
  let e1 : Vec ← Vec.noise word 2 3 rSeed
  let e2 ← polyNoise word 2 6 rSeed
  let at' ← matrix blocks rho.bytes true
  let u : Vec ← Vec.each fun i => (at'.rows.get i).dotHat rh
  let u : Vec ← u.barrett
  let u : Vec ← u.invNtt
  let u : Vec ← u.add e1
  let u : Vec ← u.normalize
  let capsule ← u.compress 10
  let capsule ← Outcome.unwrap (Block.ofBytes Kem.firstLength capsule)
  let carry ←
    Outcome.unwrap
      (Block.ofBytes Kem.carryLength
        (((List.finRange 3).flatMap fun i => (rh.ps.get i).carried) ++ e2.carried ++
          message.bytes))
  return ⟨capsule, carry, kr.slice 0 32 Block.first_of_two⟩

/-- The second half, from the rest of the key and what the first half left. -/
def secondHalf
    (encap : Block Kem.encapLength)
    (carry : Block Kem.carryLength) :
    Outcome ε (Block Kem.secondLength) := do
  let th ←
    Vec.each fun i => do
      let p : Poly ← polyFromBytes ((encap.bytes.drop (384 * i.val)).take 384)
      p.normalize
  let rh ←
    Vec.each fun i =>
      Poly.build fun index =>
        checked
          ((readInt16 carry.bytes (512 * i.val + 2 * index)).toInt % q)
  let e2 ←
    Poly.build fun index =>
      return readInt16 carry.bytes (1536 + 2 * index)
  let message := carry.slice 2048 32 (by decide)
  let v : Poly ← th.dotHat rh
  let v : Poly ← v.barrett
  let v : Poly ← v.invNtt
  let decompressed : Poly ← polyDecompress 1 message.bytes
  let v : Poly ← v.add decompressed
  let v : Poly ← v.add e2
  let v : Poly ← v.normalize
  let bytes ← v.compress 4
  Outcome.unwrap (Block.ofBytes Kem.secondLength bytes)

/-- `Standard.PublicKey.fromBytes` decides whether the key is well formed. -/
def keyMatchesHeader
    (fromBytes : Bytes → Bool)
    (encap : Block Kem.encapLength)
    (header : Block Kem.headerLength) :
    Bool :=
  let pk := encap.bytes ++ (header.slice 0 32 (by decide)).bytes
  let h := Sha3.sha3_256 pk
  if h ≠ header.slice 32 32 (by decide) then
    false
  else
    fromBytes pk

end Halves

end Gossveil.Lattice
