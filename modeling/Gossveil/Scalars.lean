import Mathlib.Algebra.Group.Fin.Basic
import Gossveil.Primitives

namespace Gossveil

/-!
# Scalars of the group and SHA-512

A scalar travels as 32 bytes, least significant first.  Scalar arithmetic
reduces modulo the order of the group; below the order nothing is reduced.
-/

/-- `std.crypto.hash.sha2.Sha512`. -/
class Sha512 where
  hash : Bytes → Block 64

namespace Sample

/-- A stand-in hash. -/
@[reducible] def sha512 : Sha512 where
  hash bytes := digest 64 bytes

end Sample

/-- What a multiplication of a point can fail with. -/
inductive PointError where
  | identityElement
  | weakPublicKey
  deriving DecidableEq, Repr

/-! ## Scalars of the group -/

namespace Scalar

/-- The order of the group of Edwards25519. -/
def groupOrder : Nat :=
  2 ^ 252 + 27742317777372353535851937790883648493

/-- A scalar of 32 bytes, least significant first. -/
def ofNat (value : Nat) : Block 32 :=
  ⟨Codec.Writer.littleEndian 32 value, Codec.length_littleEndian ..⟩

/-- The number of some bytes, the lowest first. -/
def toNat {size : Nat} (scalar : Block size) : Nat :=
  Codec.Reader.littleEndian scalar.bytes

/-- `first * second + third` modulo the group order. -/
def mulAdd (first second third : Block 32) : Block 32 :=
  ofNat ((toNat first * toNat second + toNat third) % groupOrder)

/-- A wide number, reduced by the order of the group. -/
def reduce64 (wide : Block 64) : Block 32 :=
  ofNat (toNat wide % groupOrder)

/-- A scalar below the order is kept. -/
theorem toNat_ofNat
    {value : Nat}
    (fits : value < groupOrder) :
    toNat (ofNat value) = value :=
  Codec.littleEndian_write 32 value (Nat.lt_trans fits (by decide))

theorem toNat_ofNat_mod_lt (value : Nat) :
    toNat (ofNat (value % groupOrder)) < groupOrder := by
  have below : value % groupOrder < groupOrder :=
    Nat.mod_lt _ (by decide)
  rw [toNat_ofNat below]
  exact below

/-- A reduced scalar is below the order. -/
theorem toNat_reduce64_lt (wide : Block 64) :
    toNat (reduce64 wide) < groupOrder :=
  toNat_ofNat_mod_lt _

/-- So is a product and sum. -/
theorem toNat_mulAdd_lt (first second third : Block 32) :
    toNat (mulAdd first second third) < groupOrder :=
  toNat_ofNat_mod_lt _

/-- Below the group order nothing is reduced. -/
theorem toNat_mulAdd
    {first second third : Block 32}
    (fits : toNat first * toNat second + toNat third < groupOrder) :
    toNat (mulAdd first second third) =
      toNat first * toNat second + toNat third := by
  rw [mulAdd, Nat.mod_eq_of_lt fits, toNat_ofNat fits]

/-- Zeroes at the high end change no number. -/
theorem littleEndian_append_zeros (bytes : Bytes) (count : Nat) :
    Codec.Reader.littleEndian (bytes ++ List.replicate count 0) =
      Codec.Reader.littleEndian bytes := by
  induction bytes with
  | nil =>
      induction count with
      | zero => rfl
      | succ count inductionHypothesis =>
          rw [List.nil_append] at inductionHypothesis ⊢
          simp [List.replicate_succ, Codec.Reader.littleEndian,
            inductionHypothesis]
  | cons byte bytes inductionHypothesis =>
      rw [List.cons_append, Codec.Reader.littleEndian, inductionHypothesis,
        Codec.Reader.littleEndian]

end Scalar

namespace Sample

open Scalar

/-! ## A stand-in for the group -/

theorem groupOrder_neZero : NeZero groupOrder :=
  ⟨by decide⟩

attribute [local instance] groupOrder_neZero

/-- The residues, with multiples that can be evaluated. -/
@[reducible] def residues : AddCommGroup (Fin groupOrder) :=
  { Fin.addCommGroup groupOrder with
    nsmul := fun n p => Fin.ofNat groupOrder (n * p.val)
    nsmul_zero := by
      intro p
      apply Fin.ext
      change 0 * p.val % groupOrder = 0 % groupOrder
      rw [Nat.zero_mul]
    nsmul_succ := by
      intro n p
      apply Fin.ext
      change (n + 1) * p.val % groupOrder =
        (n * p.val % groupOrder + p.val) % groupOrder
      rw [Nat.add_mul, Nat.one_mul, Nat.mod_add_mod] }

end Sample

end Gossveil
