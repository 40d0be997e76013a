import Gossveil.SplitVectors

namespace Gossveil.Lattice

/-!
# What is carried between the halves

The carry is a row of 16-bit integers and the message.  Reading an integer at
its offset returns it, so the second half works with the first one's values.
-/

variable {ε : Type}

open Gossveil.Lattice.Poly (Within Canonical)

/-! ## A row of integers -/

namespace Poly

theorem length_integers (integers : List Int16) :
    (integers.flatMap fun c =>
        Codec.Writer.littleEndian 2 c.toUInt16.toNat).length =
      2 * integers.length := by
  induction integers with
  | nil => rfl
  | cons c rest inductionHypothesis =>
      rw [List.flatMap_cons, List.length_append, Codec.length_littleEndian,
        inductionHypothesis, List.length_cons]
      ring

theorem length_carried (p : Poly) : p.carried.length = 512 := by
  rw [carried, length_integers, Vector.length_toList]

/-- An integer is read back from its place in the row. -/
theorem readInt16_integers
    {integers : List Int16}
    {index : Nat}
    (inside : index < integers.length)
    (rest : Bytes) :
    readInt16
        ((integers.flatMap fun c =>
            Codec.Writer.littleEndian 2 c.toUInt16.toNat) ++ rest)
        (2 * index) =
      integers[index] := by
  induction integers generalizing index with
  | nil => exact absurd inside (Nat.not_lt_zero index)
  | cons c others inductionHypothesis =>
      have length := Codec.length_littleEndian 2 c.toUInt16.toNat
      rw [List.flatMap_cons, List.append_assoc, readInt16]
      cases index with
      | zero =>
          have fits : c.toUInt16.toNat < 256 ^ 2 := c.toUInt16.toNat_lt
          rw [Nat.mul_zero, List.drop_zero, List.take_left' length,
            Codec.littleEndian_write 2 _ fits, ← UInt16.toInt16_ofNat',
            UInt16.ofNat_toNat, Int16.toInt16_toUInt16, List.getElem_cons_zero]
      | succ index =>
          rw [Nat.mul_succ, Nat.add_comm, ← List.drop_drop,
            List.drop_left' length, List.getElem_cons_succ]
          exact inductionHypothesis (Nat.lt_of_succ_lt_succ inside)

/-- A coefficient is read back from the bytes of a polynomial. -/
theorem readInt16_carried
    (p : Poly)
    {index : Nat}
    (inside : index < 256)
    (rest : Bytes) :
    (readInt16 (p.carried ++ rest) (2 * index)).toInt = p.value index := by
  have listed : index < p.cs.toList.length := by
    rw [Vector.length_toList]
    exact inside
  rw [carried, readInt16_integers listed, Vector.getElem_toList, value,
    Vector.getElem?_eq_getElem inside, Option.getD_some]

end Poly

/-- What stands in front is skipped. -/
theorem readInt16_skip
    {size : Nat}
    {front : Bytes}
    (length : front.length = size)
    (bytes : Bytes)
    (offset : Nat) :
    readInt16 (front ++ bytes) (size + offset) = readInt16 bytes offset := by
  rw [readInt16, readInt16, ← List.drop_drop, List.drop_left' length]

/-! ## The carry -/

/-- The bytes of the carry. -/
def carryBytes (rh : Vec) (e2 : Poly) (message : Bytes) : Bytes :=
  ((List.finRange 3).flatMap fun i => (rh.ps.get i).carried) ++ e2.carried ++
    message

theorem carryBytes_eq (rh : Vec) (e2 : Poly) (message : Bytes) :
    carryBytes rh e2 message =
      (rh.ps.get 0).carried ++ ((rh.ps.get 1).carried ++ ((rh.ps.get 2).carried ++
        (e2.carried ++ message))) := by
  have elements : List.finRange 3 = [0, 1, 2] := by
    decide
  simp only [carryBytes, elements, List.flatMap_cons, List.flatMap_nil,
    List.append_nil, List.append_assoc]

theorem length_carryBytes
    (rh : Vec)
    (e2 : Poly)
    (message : Block 32) :
    (carryBytes rh e2 message.bytes).length = Kem.carryLength := by
  simp only [carryBytes_eq, List.length_append, Poly.length_carried,
    Block.length_eq, Kem.carryLength]

/-- The hidden vector reads back from the carry. -/
theorem readInt16_hidden
    (rh : Vec)
    (e2 : Poly)
    (message : Bytes)
    (i : Fin 3)
    {index : Nat}
    (inside : index < 256) :
    (readInt16 (carryBytes rh e2 message) (512 * i.val + 2 * index)).toInt =
      (rh.ps.get i).value index := by
  have skip := fun p : Poly => @readInt16_skip 512 _ p.length_carried
  rw [carryBytes_eq]
  match i with
  | 0 =>
      rw [show 512 * (0 : Fin 3).val + 2 * index = 2 * index by simp]
      exact Poly.readInt16_carried _ inside _
  | 1 =>
      rw [show 512 * (1 : Fin 3).val + 2 * index = 512 + 2 * index by simp,
        skip]
      exact Poly.readInt16_carried _ inside _
  | 2 =>
      rw [show 512 * (2 : Fin 3).val + 2 * index = 512 + (512 + 2 * index) by
        simp; omega, skip, skip]
      exact Poly.readInt16_carried _ inside _

/-- The noise reads back from the carry. -/
theorem readInt16_noise
    (rh : Vec)
    (e2 : Poly)
    (message : Bytes)
    {index : Nat}
    (inside : index < 256) :
    (readInt16 (carryBytes rh e2 message) (1536 + 2 * index)).toInt =
      e2.value index := by
  have skip := fun p : Poly => @readInt16_skip 512 _ p.length_carried
  rw [carryBytes_eq,
    show 1536 + 2 * index = 512 + (512 + (512 + 2 * index)) by omega,
    skip, skip, skip]
  exact Poly.readInt16_carried _ inside _

/-- The message reads back from the carry. -/
theorem drop_carryBytes (rh : Vec) (e2 : Poly) (message : Bytes) :
    (carryBytes rh e2 message).drop 2048 = message := by
  have front :
      ((rh.ps.get 0).carried ++ ((rh.ps.get 1).carried ++ ((rh.ps.get 2).carried ++
        e2.carried))).length = 2048 := by
    simp only [List.length_append, Poly.length_carried]
  rw [carryBytes_eq, ← List.append_assoc (rh.ps.get 2).carried,
    ← List.append_assoc (rh.ps.get 1).carried, ← List.append_assoc,
    List.drop_left' front]

end Gossveil.Lattice
