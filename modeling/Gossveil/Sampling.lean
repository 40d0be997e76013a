import Gossveil.Polynomials
import Gossveil.Primitives

namespace Gossveil.Lattice

/-!
# Sampled polynomials

Noise is the difference of two small sums of bits, a whole machine word of them
at a time.  A uniform polynomial is drawn by rejection from an output stream
without an end, so its loop has no bound of its own.
-/

/-- `std.crypto.hash.sha3`; the two extendable functions as streams. -/
class Sha3 where
  sha3_256 : Bytes → Block 32
  sha3_512 : Bytes → Block 64
  shake128 : Bytes → Nat → UInt8
  shake256 : Bytes → Nat → UInt8

/-- Consecutive bytes of a stream. -/
def squeeze (stream : Nat → UInt8) (offset count : Nat) : Bytes :=
  (List.range count).map fun index => stream (offset + index)

/-! ## Noise -/

/-- The machine word the bits are counted in. -/
inductive Word where
  | w32
  | w64
  deriving DecidableEq, Repr

/-- The bits of a machine word. -/
def Word.bits : Word → Nat
  | .w32 => 32
  | .w64 => 64

namespace Noise

/-- Steps down to a divisor of 256. -/
def batchFrom : (count : Nat) → Nat
  | 0 => 0
  | count + 1 => if 256 % (count + 1) = 0 then count + 1 else batchFrom count

/-- The coefficients taken from one word, a divisor of 256. -/
def batchCount (word : Word) (eta : Nat) : Nat :=
  batchFrom (word.bits / (2 * eta))

/-- The bytes read for one word. -/
def batchBytes (word : Word) (eta : Nat) : Nat :=
  2 * eta * batchCount word eta / 8

/-- A word with every `eta`-th bit set. -/
def mask (word : Word) (eta : Nat) : Nat :=
  (List.range (2 * eta * batchCount word eta)).foldl
    (fun mask _ => (mask <<< eta) % 2 ^ word.bits ||| 1) 0

/-- The sums of `eta` bits each, side by side. -/
def sums {ε : Type} (word : Word) (eta t : Nat) : Outcome ε Nat :=
  (List.range eta).foldlM
    (fun d j => Outcome.add word.bits d ((t >>> j) &&& mask word eta)) 0

end Noise

variable {ε : Type}

open Noise in
/-- A polynomial of small coefficients from a seed. -/
def polyNoise
    [Sha3]
    (word : Word)
    (eta : Nat)
    (nonce : UInt8)
    (seed : Bytes) :
    Outcome ε Poly :=
  let buf :=
    squeeze (Sha3.shake256 (seed ++ [nonce])) 0 (2 * eta * 256 / 8)
  (List.range (256 / batchCount word eta)).foldlM
    (fun out i => do
      let t :=
        (List.range (batchBytes word eta)).foldl
          (fun t j =>
            t ||| (buf.getD (batchBytes word eta * i + j) 0).toNat <<< (8 * j))
          0
      let d ← sums word eta t
      (List.range (batchCount word eta)).foldlM
        (fun out j => do
          let a := (d >>> (2 * j * eta)) &&& (2 ^ eta - 1)
          let b := (d >>> ((2 * j + 1) * eta)) &&& (2 ^ eta - 1)
          let difference ← checked ((a : Int) - b)
          Poly.put out (batchCount word eta * i + j) difference)
        out)
    Poly.zero

/-! ## Uniform polynomials -/

/-- More blocks of the stream are needed. -/
inductive Unfilled where
  | unfilled
  deriving DecidableEq, Repr

/-- The two numbers of twelve bits in every three bytes of a block. -/
def blockCandidates (buf : Bytes) : List Nat :=
  (List.range 56).flatMap fun turn =>
    let b0 := (buf.getD (3 * turn) 0).toNat
    let b1 := (buf.getD (3 * turn + 1) 0).toNat
    let b2 := (buf.getD (3 * turn + 2) 0).toNat
    [b0 ||| ((b1 &&& 0xf) <<< 8), (b1 >>> 4) ||| (b2 <<< 4)]

/-- Candidates below q fill the polynomial until it is full. -/
def takeCandidates :
    List Nat → Poly × Nat → Outcome Unfilled (Poly × Nat)
  | [], state => .ok state
  | t :: rest, (out, filled) =>
      if t < 3329 then do
        let out ← out.put filled (Int16.ofNat t)
        if filled + 1 = 256 then
          return (out, 256)
        else
          takeCandidates rest (out, filled + 1)
      else
        takeCandidates rest (out, filled)

/-- The loop over the blocks of the stream, as many as are given. -/
def uniformLoop (stream : Nat → UInt8) :
    (blocks block : Nat) → Poly × Nat → Outcome Unfilled Poly
  | 0, _, _ => .error .unfilled
  | blocks + 1, block, state => do
      let (out, filled) ←
        takeCandidates
          (blockCandidates (squeeze stream (168 * block) 168)) state
      if filled = 256 then
        return out
      else
        uniformLoop stream blocks (block + 1) (out, filled)

/-- A polynomial of uniform coefficients from a seed, by rejection. -/
def polyUniform
    [Sha3]
    (blocks : Nat)
    (seed : Bytes)
    (x y : UInt8) :
    Outcome Unfilled Poly :=
  uniformLoop (Sha3.shake128 (seed ++ [x, y])) blocks 0 (Poly.zero, 0)

end Gossveil.Lattice

namespace Gossveil.Sample

/-- The bytes of a stream are below thirteen and begin where the seed says. -/
@[reducible] def sha3 : Lattice.Sha3 where
  sha3_256 bytes := digest 32 bytes
  sha3_512 bytes := digest 64 bytes
  shake128 seed index :=
    UInt8.ofNat ((seed.foldl (fun sum byte => sum + byte.toNat) index) % 13)
  shake256 seed index :=
    UInt8.ofNat ((seed.foldl (fun sum byte => sum + byte.toNat) index) % 13)

end Gossveil.Sample
