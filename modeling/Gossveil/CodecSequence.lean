import Gossveil.CodecRoundTrip

namespace Gossveil.Codec

/-!
# Any sequence of writer calls

A message is built by some calls of a `Writer`; a nested message is built by
calls of its own and then embedded.  A `Script` is what was called, in order,
and reading the message gives back the calls as fields and then null.
-/

/-- A field number from one, as the writer's parameter holds it. -/
structure FieldNumber where
  value : Nat
  positive : 0 < value
  fits : value < 2 ^ 32
  deriving DecidableEq

/-- The calls that build one message, the first call outermost. -/
inductive Script where
  | done
  | uint (number : FieldNumber) (value : UInt64) (rest : Script)
  | bytes (number : FieldNumber) (data : Bytes) (rest : Script)
  | word64 (number : FieldNumber) (value : UInt64) (rest : Script)
  | embed (number : FieldNumber) (inner rest : Script)
  deriving DecidableEq

namespace Script

/-- The buffer after the calls. -/
def write : Script → Bytes
  | .done => []
  | .uint number value rest =>
      Writer.uint number.value value.toNat ++ rest.write
  | .bytes number data rest =>
      Writer.bytes number.value data ++ rest.write
  | .word64 number value rest =>
      Writer.word64 number.value value.toNat ++ rest.write
  | .embed number inner rest =>
      Writer.embed number.value inner.write ++ rest.write

/-- The calls as the fields a reader should return. -/
def fields : Script → List Field
  | .done => []
  | .uint number value rest =>
      Field.ofUint number.value value.toNat :: rest.fields
  | .bytes number data rest =>
      Field.ofBytes number.value data :: rest.fields
  | .word64 number value rest =>
      Field.ofWord64 number.value value.toNat :: rest.fields
  | .embed number inner rest =>
      Field.ofBytes number.value inner.write :: rest.fields

/-- The scripts of the embedded messages, at every depth. -/
def embedded : Script → List Script
  | .done => []
  | .uint _ _ rest | .bytes _ _ rest | .word64 _ _ rest => rest.embedded
  | .embed _ inner rest => inner :: (inner.embedded ++ rest.embedded)

/-- A script writes the fields it lists. -/
theorem write_eq (script : Script) :
    script.write = encodeAll script.fields := by
  induction script with
  | done => rfl
  | uint _ _ _ inductionHypothesis
  | bytes _ _ _ inductionHypothesis
  | word64 _ _ _ inductionHypothesis =>
      simp [write, fields, inductionHypothesis]
  | embed _ _ _ _ inductionHypothesis =>
      simp [write, fields, Writer.embed, inductionHypothesis]

/-- An embedded message is no longer than the one around it. -/
theorem length_embedded_le
    {script part : Script}
    (inside : part ∈ script.embedded) :
    part.write.length ≤ script.write.length := by
  induction script with
  | done =>
      simp [embedded] at inside
  | uint _ _ _ inductionHypothesis
  | bytes _ _ _ inductionHypothesis
  | word64 _ _ _ inductionHypothesis =>
      apply Nat.le_trans (inductionHypothesis inside)
      simp [write]
  | embed number inner rest inInner inRest =>
      have around :
          inner.write.length + rest.write.length ≤
            (embed number inner rest).write.length := by
        simp only [write, Writer.embed, Writer.bytes, List.length_append]
        apply Nat.add_le_add_right
        apply Nat.le_add_left
      simp only [embedded, List.mem_cons, List.mem_append] at inside
      rcases inside with rfl | deeper | later
      · exact Nat.le_trans (Nat.le_add_right _ _) around
      · exact Nat.le_trans (inInner deeper)
          (Nat.le_trans (Nat.le_add_right _ _) around)
      · exact Nat.le_trans (inRest later)
          (Nat.le_trans (Nat.le_add_left _ _) around)

/-- The fields of a message that fits a slice are fields the writer makes. -/
theorem fields_written
    {usizeBits : Nat}
    (target : usizeBits ≤ 64)
    {script : Script}
    (short : script.write.length < 2 ^ usizeBits) :
    ∀ field ∈ script.fields,
      field.Written ∧ field.byteValue.length < 2 ^ usizeBits := by
  have widen :
      ∀ {length : Nat}, length < 2 ^ usizeBits → length < 2 ^ 64 :=
    fun small =>
      Nat.lt_of_lt_of_le small (Nat.pow_le_pow_right (by decide) target)
  induction script with
  | done => simp [fields]
  | uint number value rest inductionHypothesis =>
      simp only [write, List.length_append] at short
      simp only [fields, List.forall_mem_cons]
      constructor
      · exact ⟨.uint number.positive number.fits value.toNat_lt,
          Nat.two_pow_pos usizeBits⟩
      · exact inductionHypothesis
          (Nat.lt_of_le_of_lt (Nat.le_add_left _ _) short)
  | word64 number value rest inductionHypothesis =>
      simp only [write, List.length_append] at short
      simp only [fields, List.forall_mem_cons]
      constructor
      · exact ⟨.word64 number.positive number.fits value.toNat_lt,
          Nat.two_pow_pos usizeBits⟩
      · exact inductionHypothesis
          (Nat.lt_of_le_of_lt (Nat.le_add_left _ _) short)
  | bytes number data rest inductionHypothesis =>
      simp only [write, Writer.bytes, List.length_append] at short
      simp only [fields, List.forall_mem_cons]
      have dataShort : data.length < 2 ^ usizeBits := by omega
      constructor
      · exact ⟨.bytes number.positive number.fits (widen dataShort),
          dataShort⟩
      · exact inductionHypothesis
          (Nat.lt_of_le_of_lt (Nat.le_add_left _ _) short)
  | embed number inner rest _ inductionHypothesis =>
      simp only [write, Writer.embed, Writer.bytes,
        List.length_append] at short
      simp only [fields, List.forall_mem_cons]
      have innerShort : inner.write.length < 2 ^ usizeBits := by omega
      constructor
      · exact ⟨.bytes number.positive number.fits (widen innerShort),
          innerShort⟩
      · exact inductionHypothesis
          (Nat.lt_of_le_of_lt (Nat.le_add_left _ _) short)

end Script

/-- One call after the other returns these fields, and the next call null. -/
def Reader.Yields
    (usizeBits : Nat)
    (reader : Reader) :
    List Field → Prop
  | [] => (reader.next usizeBits).2 = .ok none
  | field :: rest =>
      (reader.next usizeBits).2 = .ok (some field) ∧
        Reader.Yields usizeBits (reader.next usizeBits).1 rest

/-- A reader yields the written fields ahead of it. -/
theorem Reader.yields_encodeAll
    {usizeBits : Nat}
    {fields : List Field}
    (written :
      ∀ field ∈ fields,
        field.Written ∧ field.byteValue.length < 2 ^ usizeBits)
    {reader : Reader}
    (shape : reader.ahead = encodeAll fields) :
    reader.Yields usizeBits fields := by
  induction fields generalizing reader with
  | nil =>
      have ended : reader.data.length ≤ reader.pos := by
        rw [← Nat.sub_eq_zero_iff_le, ← length_ahead, shape]
        rfl
      simp [Yields, next, ended]
  | cons field rest inductionHypothesis =>
      obtain ⟨first, later⟩ := List.forall_mem_cons.mp written
      have call := next_written first.1 first.2 shape
      simp only [Yields, call]
      exact ⟨trivial, inductionHypothesis later (ahead_skip_append shape)⟩

/--
Whatever calls built a message of a length that a `usize` counts, reading it, and
reading every message embedded in it at whatever depth, yields the calls' fields in
order and then null.
-/
theorem Script.read_back
    (usizeBits : Nat)
    (target : usizeBits ≤ 64)
    (script : Script)
    (short : script.write.length < 2 ^ usizeBits) :
    ∀ part ∈ script :: script.embedded,
      (Reader.init part.write).Yields usizeBits part.fields := by
  intro part member
  have partShort : part.write.length < 2 ^ usizeBits := by
    rcases List.mem_cons.mp member with rfl | inside
    · exact short
    · exact Nat.lt_of_le_of_lt (length_embedded_le inside) short
  apply Reader.yields_encodeAll (fields_written target partShort)
  rw [← write_eq]
  rfl

/-- The largest number and value, and an empty message two levels down. -/
def nestedScript : Script :=
  .uint ⟨2 ^ 32 - 1, by decide, by decide⟩ 18446744073709551615
    (.embed ⟨1, by decide, by decide⟩
      (.word64 ⟨2, by decide, by decide⟩ 7
        (.embed ⟨16, by decide, by decide⟩ .done .done))
      (.bytes ⟨2, by decide, by decide⟩ [0, 255] .done))

/-- A nested script reads back with 32-bit lengths. -/
theorem Script.read_back_nested :
    (32 ≤ 64 ∧ nestedScript.write.length < 2 ^ 32) ∧
      ∀ part ∈ nestedScript :: nestedScript.embedded,
        (Reader.init part.write).Yields 32 part.fields :=
  ⟨⟨by decide, by decide⟩,
    Script.read_back 32 (by decide) nestedScript (by decide)⟩

end Gossveil.Codec
