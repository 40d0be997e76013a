import Gossveil.CurveEncoding
import Gossveil.RootTree
import Gossveil.Sampling

namespace Gossveil.MlKem

/-!
# ML-KEM-768 encapsulation

The abstract component: the standard's encapsulation over ring elements modulo
3329, in one step and without machine integers.  A transform and its inverse
are the bijection of the ring.
-/

open Gossveil.Lattice

/-! ## Bytes -/

/-- Values of `d` bits as bytes: the digits of one number. -/
def byteEncode (d : Nat) (values : List Nat) : Bytes :=
  Codec.Writer.littleEndian (32 * d) (Nat.ofDigits (2 ^ d) values)

/-- The value of `d` bits at an index. -/
def byteDecode (d : Nat) (bytes : Bytes) (index : Nat) : Nat :=
  Codec.Reader.littleEndian bytes / 2 ^ (d * index) % 2 ^ d

/-- The nearest multiple of `q / 2 ^ d`, in `d` bits. -/
def compress (d : Nat) (x : Zq) : Nat :=
  (2 * 2 ^ d * x.val + 3329) / (2 * 3329) % 2 ^ d

/-- A value of `d` bits, scaled up to the prime and rounded. -/
def decompress (d : Nat) (y : Nat) : Zq :=
  ((2 * 3329 * y + 2 ^ d) / (2 * 2 ^ d) : Nat)

/-- A coefficient in `d` bits. -/
def compressed (d : Nat) (f : Rq) (index : Nat) : Nat :=
  compress d (sequence f index)

/-- The compressed coefficients at `d` bits each. -/
def encode (d : Nat) (f : Rq) : Bytes :=
  byteEncode d ((List.range 256).map (compressed d f))

/-! ## Sampling -/

/-- The centred binomial distribution: `eta` bits less `eta` bits. -/
def samplePolyCbd (eta : Nat) (bytes : Bytes) : Rq := fun index =>
  ∑ j ∈ Finset.range eta,
      (byteDecode 1 bytes (2 * index.val * eta + j) : Zq) -
    ∑ j ∈ Finset.range eta,
      (byteDecode 1 bytes (2 * index.val * eta + eta + j) : Zq)

/-- Two candidates of twelve bits in every three bytes of a stream. -/
def candidate (stream : Nat → UInt8) (index : Nat) : Nat :=
  let b0 := (stream (3 * (index / 2))).toNat
  let b1 := (stream (3 * (index / 2) + 1)).toNat
  let b2 := (stream (3 * (index / 2) + 2)).toNat
  if index % 2 = 0 then b0 + 256 * (b1 % 16) else b1 / 16 + 16 * b2

/-- The candidates below q among the first ones. -/
def accepted (stream : Nat → UInt8) (count : Nat) : List Nat :=
  ((List.range count).map (candidate stream)).filter (· < 3329)

open Classical in
/-- The accepted candidates in the order of the stream. -/
noncomputable def sampleNtt (stream : Nat → UInt8) : Rq := fun index =>
  if found : ∃ count, index.val < (accepted stream count).length then
    ((accepted stream (Nat.find found)).getD index.val 0 : Nat)
  else
    0

/-! ## Encapsulation -/

section Encapsulation

variable [Sha3]

/-- 128 pseudo-random bytes. -/
def prf (seed : Bytes) (nonce : Nat) : Bytes :=
  squeeze (Sha3.shake256 (seed ++ [UInt8.ofNat nonce])) 0 128

/-- An entry of the matrix, in the transformed domain. -/
noncomputable def matrix (rho : Bytes) (row column : Fin 3) : Rq :=
  sampleNtt
    (Sha3.shake128
      (rho ++ [UInt8.ofNat column.val, UInt8.ofNat row.val]))

/-- The vector the message is hidden with, transformed. -/
def rHat (seed : Bytes) (row : Fin 3) : Rq :=
  hat (samplePolyCbd 2 (prf seed row.val))

/-- One row of the first part of the ciphertext. -/
noncomputable def u (rho seed : Bytes) (row : Fin 3) : Rq :=
  unhat (∑ column, hatMul (matrix rho column row) (rHat seed column)) +
    samplePolyCbd 2 (prf seed (3 + row.val))

/-- A part of the encapsulation key. -/
def tHat (encap : Bytes) (row : Fin 3) : Rq := fun index =>
  (byteDecode 12 ((encap.drop (384 * row.val)).take 384) index.val : Nat)

/-- The second part of the ciphertext, which hides the message. -/
noncomputable def v (encap seed : Bytes) (message : Block 32) : Rq :=
  unhat (∑ row, hatMul (tHat encap row) (rHat seed row)) +
      samplePolyCbd 2 (prf seed 6) +
    fun index => decompress 1 (byteDecode 1 message.bytes index.val)

/-- The encryption of a message under a key and with given randomness. -/
noncomputable def encrypt
    (key : Bytes)
    (message : Block 32)
    (seed : Bytes) :
    Bytes :=
  let encap := key.take 1152
  let rho := key.drop 1152
  (List.finRange 3).flatMap (fun row => encode 10 (u rho seed row)) ++
    encode 4 (v encap seed message)

/-- The ciphertext and the shared secret. -/
noncomputable def encaps (key : Bytes) (message : Block 32) : Bytes × Bytes :=
  let hash :=
    Sha3.sha3_512 (message.bytes ++ (Sha3.sha3_256 key).bytes)
  (encrypt key message (hash.bytes.drop 32), hash.bytes.take 32)

end Encapsulation

end Gossveil.MlKem
