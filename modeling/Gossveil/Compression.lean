import Gossveil.Polynomials
import Gossveil.Primitives

namespace Gossveil.Lattice

/-!
# Polynomials as bytes

Coefficients are compressed to `d` bits each and packed, lowest bits first.  A
batch is the least number of whole coefficients that fills whole bytes.
-/

variable {ε : Type}

/-- One coefficient in `d` bits. -/
def compressValue [Checks] (d : Nat) (c : Int16) : Outcome ε Nat :=
  if c.toInt < 0 then
    .trap
  else if Checks.compresses c.toInt = false then
    .trap
  else
    let t := (c.toInt.toNat <<< d) % 2 ^ 24
    let u := ((t + 1664) * 20642679) >>> 36
    return u &&& (2 ^ d - 1)

/-- The bits of one byte: the values from `ci` on, `inShift` of whose bits are
taken already. -/
def packByte (d : Nat) (values : List Nat) :
    (turns todo inShift ci byte : Nat) → Nat × Nat × Nat
  | 0, _, inShift, ci, byte => (byte, inShift, ci)
  | turns + 1, todo, inShift, ci, byte =>
      if todo = 0 then
        (byte, inShift, ci)
      else
        let outShift := 8 - todo
        let piece := (values.getD ci 0 >>> inShift) <<< outShift % 256
        let done := min (min d todo) (d - inShift)
        if inShift + done = d then
          packByte d values turns (todo - done) 0 (ci + 1) (byte ||| piece)
        else
          packByte d values turns (todo - done) (inShift + done) ci
            (byte ||| piece)

/-- The bytes of one batch. -/
def packBatch (d : Nat) (values : List Nat) :
    (turns inShift ci : Nat) → Bytes
  | 0, _, _ => []
  | turns + 1, inShift, ci =>
      let (byte, inShift, ci) := packByte d values 8 8 inShift ci 0
      UInt8.ofNat byte :: packBatch d values turns inShift ci

/-- The bits of one value, from the byte `j` on. -/
def unpackValue (d : Nat) (bytes : Bytes) :
    (turns todo inShift j value : Nat) → Nat × Nat × Nat
  | 0, _, inShift, j, value => (value, inShift, j)
  | turns + 1, todo, inShift, j, value =>
      if todo = 0 then
        (value, inShift, j)
      else
        let outShift := d - todo
        let piece :=
          (((bytes.getD j 0).toNat >>> inShift) <<< outShift) &&& (2 ^ d - 1)
        let done := min (min 8 todo) (8 - inShift)
        if inShift + done = 8 then
          unpackValue d bytes turns (todo - done) 0 (j + 1) (value ||| piece)
        else
          unpackValue d bytes turns (todo - done) (inShift + done) j
            (value ||| piece)

/-- The values of one batch. -/
def unpackBatch (d : Nat) (bytes : Bytes) :
    (turns inShift j : Nat) → List Nat
  | 0, _, _ => []
  | turns + 1, inShift, j =>
      let (value, inShift, j) := unpackValue d bytes d d inShift j 0
      value :: unpackBatch d bytes turns inShift j

namespace Poly

/-- The coefficients at `d` bits each, packed batch by batch. -/
def compress [Checks] (d : Nat) (p : Poly) : Outcome ε Bytes :=
  let inBatchSize := Nat.lcm d 8 / d
  let outBatchSize := Nat.lcm d 8 / 8
  (List.range (256 / inBatchSize)).foldlM
    (fun out batch => do
      let values ←
        (List.range inBatchSize).mapM fun i => do
          let c ← p.coefficient (inBatchSize * batch + i)
          compressValue d c
      return out ++ packBatch d values outBatchSize 0 0)
    []

end Poly

/-- Two coefficients of twelve bits from every three bytes. -/
def polyFromBytes (buf : Bytes) : Outcome ε Poly :=
  (List.range 128).foldlM
    (fun out i => do
      let b0 := (buf.getD (3 * i) 0).toNat
      let b1 := (buf.getD (3 * i + 1) 0).toNat
      let b2 := (buf.getD (3 * i + 2) 0).toNat
      let out ←
        Poly.put out (2 * i) (Int16.ofNat (b0 ||| ((b1 &&& 0xf) <<< 8)))
      out.put (2 * i + 1) (Int16.ofNat ((b1 >>> 4) ||| (b2 <<< 4))))
    Poly.zero

/-- Unpacks values of `d` bits and scales them back to the prime. -/
def polyDecompress (d : Nat) (bytes : Bytes) : Outcome ε Poly :=
  let inBatchSize := Nat.lcm d 8 / 8
  let outBatchSize := Nat.lcm d 8 / d
  (List.range (256 / outBatchSize)).foldlM
    (fun out batch =>
      let values :=
        unpackBatch d ((bytes.drop (inBatchSize * batch)).take inBatchSize)
          outBatchSize 0 0
      (List.range outBatchSize).foldlM
        (fun out ci =>
          let qx := values.getD ci 0 * 3329
          out.put (outBatchSize * batch + ci)
            (Int16.ofNat ((qx + 2 ^ (d - 1)) >>> d)))
        out)
    Poly.zero

end Gossveil.Lattice
