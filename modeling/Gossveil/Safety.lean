import Gossveil.CodeRecord
import Gossveil.Keys
import Gossveil.Scalars

namespace Gossveil

open Codec

/-!
# Safety numbers

Each party hashes both identity keys with their stable identifiers, over and
over.  The digits of both hashes are shown with the smaller half in front, and
the hashes are exchanged as a scannable record.
-/

namespace Safety

/-- The digits of a safety number. -/
def displayLength : Nat := 60

/-- The digits of one party. -/
def halfLength : Nat := 30

section Hashing

variable [Sha512]

/-- The hash once more, with the key behind it. -/
def again (key : Bytes) (digest : Block 64) : Block 64 :=
  Sha512.hash (digest.bytes ++ key)

/-- The hash of an identity, again and again. -/
def iterated
    (iterations : Nat)
    (stableId key : Bytes) :
    Outcome Fault (Block 64) := do
  Outcome.require .badArgument (1 < iterations ∧ iterations ≤ 1000000)
  let digest := Sha512.hash ([0, 0] ++ key ++ stableId ++ key)
  return (again key)^[iterations - 1] digest

end Hashing

/-! ## The display -/

/-- `d` from `size` down to 1: `slot[d - 1] = '0' + x % 10`, then `x /= 10`. -/
def slot : (size x : Nat) → Bytes
  | 0, _ => []
  | size + 1, x => slot size (x / 10) ++ [UInt8.ofNat (48 + x % 10)]

/-- The five digits of a block of five bytes. -/
def block (five : Bytes) : Bytes :=
  slot 5 (five.foldl (fun x byte => x * 256 + byte.toNat) 0 % 100000)

/-- The thirty digits of half a hash, block by block. -/
def digits (half : Block 30) : Bytes :=
  (List.range 6).flatMap fun index =>
    block ((half.bytes.drop (index * 5)).take 5)

/-- The digits that two people compare. -/
structure Display where
  text : Bytes
  deriving DecidableEq

/-- The smaller half, as bytes compare, stands in front. -/
def Display.of (localHash remoteHash : Block 64) : Display :=
  let ours := digits (localHash.slice 0 halfLength (by decide))
  let theirs := digits (remoteHash.slice 0 halfLength (by decide))
  if ours < theirs then ⟨ours ++ theirs⟩ else ⟨theirs ++ ours⟩

/-! ## The scannable record -/

/-- The record that two people scan. -/
structure Scannable where
  version : Nat
  localHash : Block 32
  remoteHash : Block 32
  deriving DecidableEq

/-- What the parser has read so far. -/
structure Draft where
  version : Nat
  localHash : Option (Block 32)
  remoteHash : Option (Block 32)
  deriving DecidableEq

namespace Scannable

/-- The version, then the two halves. -/
def serialize (scannable : Scannable) : Bytes :=
  Writer.uint 1 scannable.version ++
    (Writer.embed 2 (Writer.bytes 1 scannable.localHash.bytes) ++
      Writer.embed 3 (Writer.bytes 1 scannable.remoteHash.bytes))

/-- The first byte field 1 decides; only its first 32 bytes count. -/
def known (field : Field) : Option (Outcome Fault (Block 32)) :=
  if field.number = 1 then
    field.bytes.map fun data =>
      Outcome.ofOption .badMessage (Block.ofBytes 32 (data.take 32))
  else
    none

/-- The hash in one half of the record. -/
def inner (data : Bytes) : Outcome Fault (Block 32) :=
  find .badMessage known data

/-- Takes in one field of the record. -/
def readField (draft : Draft) (field : Field) : Outcome Fault Draft :=
  match field.number with
  | 1 => do
      let version ← field.uint32 .badMessage
      return { draft with version := version }
  | 2 => do
      let half ← field.bytesOr .badMessage >>= inner
      return { draft with localHash := some half }
  | 3 => do
      let half ← field.bytesOr .badMessage >>= inner
      return { draft with remoteHash := some half }
  | _ => .ok draft

/-- Reads a scanned record; both halves have to be there. -/
def parse (data : Bytes) : Outcome Fault Scannable := do
  let draft ← fold .badMessage readField data ⟨0, none, none⟩
  let localHash ← Outcome.ofOption .badMessage draft.localHash
  let remoteHash ← Outcome.ofOption .badMessage draft.remoteHash
  return ⟨draft.version, localHash, remoteHash⟩

/-- Whether the other party's record describes the same pair of keys. -/
def «matches» (scannable : Scannable) (theirs : Bytes) : Outcome Fault Bool := do
  let theirs ← parse theirs
  Outcome.require .badArgument (theirs.version = scannable.version)
  return decide (theirs.localHash = scannable.remoteHash) &&
    decide (theirs.remoteHash = scannable.localHash)

end Scannable

end Safety

/-- What both parties compare. -/
structure Safety where
  display : Safety.Display
  scannable : Safety.Scannable
  deriving DecidableEq

/-- The safety number of two parties, from the side of one of them. -/
def Safety.of
    [Sha512]
    (version iterations : Nat)
    (localId : Bytes)
    (localIdentity : Identity)
    (remoteId : Bytes)
    (remoteIdentity : Identity) :
    Outcome Fault Safety := do
  let ours ← Safety.iterated iterations localId localIdentity.key.serialize
  let theirs ←
    Safety.iterated iterations remoteId remoteIdentity.key.serialize
  return ⟨Safety.Display.of ours theirs,
    ⟨version, ours.slice 0 32 Block.first_of_two,
      theirs.slice 0 32 Block.first_of_two⟩⟩

end Gossveil
