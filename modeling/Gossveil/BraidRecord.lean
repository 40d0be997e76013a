import Gossveil.Braid
import Gossveil.CodeRecord

namespace Gossveil

open Codec ErasureCode

/-!
# The record of a braid

One inner state, under the number the record declares for it: the epoch, the
authenticator and the fixed arrays, then the state's spread and gather.
-/

namespace Auth

/-- The record of the two keys. -/
def write (auth : Auth) : Bytes :=
  Writer.bytes 1 auth.root.bytes ++ Writer.bytes 2 auth.mac.bytes

/-- A key of another length or kind is skipped. -/
def readField (auth : Auth) (field : Field) : Outcome RatchetError Auth :=
  match field.number with
  | 1 =>
      match field.bytes.bind (Block.ofBytes 32) with
      | some root => .ok { auth with root := root }
      | none => .ok auth
  | 2 =>
      match field.bytes.bind (Block.ofBytes 32) with
      | some mac => .ok { auth with mac := mac }
      | none => .ok auth
  | _ => .ok auth

/-- Reads the keys from their record. -/
def read (data : Bytes) : Outcome RatchetError Auth :=
  fold .badRecord readField data ⟨Block.zero 32, Block.zero 32⟩

/-- The fields that `write` writes. -/
def fields (auth : Auth) : List Field :=
  [Field.ofBytes 1 auth.root.bytes, Field.ofBytes 2 auth.mac.bytes]

/-- The record is that of the fields. -/
theorem encodeAll_fields (auth : Auth) :
    encodeAll auth.fields = auth.write := by
  simp [fields, write]

/-- The keys survive their record. -/
theorem read_write
    (auth : Auth)
    (short : auth.write.length < 2 ^ 64) :
    read auth.write = .ok auth := by
  have plain : ∀ field ∈ auth.fields, field.Plain := by
    intro field member
    simp only [fields, List.mem_cons, List.not_mem_nil, or_false] at member
    rcases member with rfl | rfl <;> exact .bytes (by decide) (by decide)
  rw [← encodeAll_fields] at short ⊢
  rw [read, fold_plain .badRecord readField plain short]
  simp only [fields, List.foldlM_cons, List.foldlM_nil, readField,
    Field.number_ofBytes, Field.bytes_ofBytes, Option.bind_some,
    Block.ofBytes_bytes, Outcome.ok_bind, Outcome.pure_eq]

end Auth

namespace Braid

/-! ## Writing -/

/-- The arrays of a state have the numbers from three on. -/
def writeArrays : (number : Nat) → (arrays : List Bytes) → Bytes
  | _, [] => []
  | number, array :: rest =>
      Writer.bytes number array ++ writeArrays (number + 1) rest

/-- The part every state has: its epoch, its keys and its arrays. -/
def writeFixed
    (epoch : Nat)
    (auth : Auth)
    (arrays : List Bytes) :
    Bytes :=
  Writer.embed 1
    (Writer.uintIfSet 1 epoch ++ Writer.embed 2 auth.write ++
      writeArrays 3 arrays)

/-- A spread or a gather, if the state has one there. -/
def writeCoder (number : Nat) : Option Bytes → Bytes
  | some coder => Writer.embed number coder
  | none => []

/-- One inner state, numbered as the record declares. -/
def writeState
    (number epoch : Nat)
    (auth : Auth)
    (arrays : List Bytes)
    (coder2 coder3 : Option Bytes) :
    Bytes :=
  Writer.embed number
    (writeFixed epoch auth arrays ++ writeCoder 2 coder2 ++
      writeCoder 3 coder3)

/-- The record of a braid, under the number of its state. -/
def write : Braid → Bytes
  | .unsampled epoch auth =>
      writeState 1 epoch auth [] none none
  | .sampled epoch auth encap decap outHeader =>
      writeState 2 epoch auth [encap.bytes, decap.bytes]
        (some outHeader.write) none
  | .headerOut epoch auth decap outEncap inFirst =>
      writeState 3 epoch auth [decap.bytes] (some outEncap.write)
        (some inFirst.write)
  | .firstIn epoch auth decap first outEncap =>
      writeState 4 epoch auth [decap.bytes, first.bytes]
        (some outEncap.write) none
  | .encapOutFirstIn epoch auth decap first inSecond =>
      writeState 5 epoch auth [decap.bytes, first.bytes] none
        (some inSecond.write)
  | .waiting epoch auth inHeader =>
      writeState 6 epoch auth [] (some inHeader.write) none
  | .headerIn epoch auth header inEncap =>
      writeState 7 epoch auth [header.bytes] (some inEncap.write) none
  | .firstOut epoch auth header carry first outFirst inEncap =>
      writeState 8 epoch auth [header.bytes, carry.bytes, first.bytes]
        (some outFirst.write) (some inEncap.write)
  | .encapInFirstOut epoch auth carry encap first outFirst =>
      writeState 9 epoch auth [carry.bytes, encap.bytes, first.bytes]
        (some outFirst.write) none
  | .firstAcked epoch auth header carry first inEncap =>
      writeState 10 epoch auth [header.bytes, carry.bytes, first.bytes]
        (some inEncap.write) none
  | .secondOut epoch auth outSecond =>
      writeState 11 epoch auth [] (some outSecond.write) none

/-! ## Reading -/

/-- What the fields of the fixed part have said so far. -/
structure Fixed where
  epoch : Nat
  auth : Option Auth
  third : Bytes
  fourth : Bytes
  fifth : Bytes

/-- What is known before the first field. -/
def Fixed.empty : Fixed :=
  ⟨0, none, [], [], []⟩

/-- Takes in one field of the fixed part. -/
def Fixed.readField
    (fixed : Fixed)
    (field : Field) :
    Outcome RatchetError Fixed :=
  match field.number with
  | 1 => .ok { fixed with epoch := field.uintOrZero }
  | 2 => do
      let data ← field.bytesOr .badRecord
      let auth ← Auth.read data
      return { fixed with auth := some auth }
  | 3 => do
      let data ← field.bytesOr .badRecord
      return { fixed with third := data }
  | 4 => do
      let data ← field.bytesOr .badRecord
      return { fixed with fourth := data }
  | 5 => do
      let data ← field.bytesOr .badRecord
      return { fixed with fifth := data }
  | _ => .ok fixed

/-- The authenticator has to be there. -/
def readFixed (data : Bytes) : Outcome RatchetError Fixed := do
  let fixed ← fold .badRecord Fixed.readField data Fixed.empty
  Outcome.require .badRecord (fixed.auth ≠ none)
  return fixed

/-- The parts of a state's record. -/
structure Parts where
  fixed : Option Fixed
  coder2 : Option Bytes
  coder3 : Option Bytes

/-- Takes in one part. -/
def Parts.readField
    (parts : Parts)
    (field : Field) :
    Outcome RatchetError Parts :=
  match field.number with
  | 1 => do
      let data ← field.bytesOr .badRecord
      let fixed ← readFixed data
      return { parts with fixed := some fixed }
  | 2 => .ok { parts with coder2 := field.bytes }
  | 3 => .ok { parts with coder3 := field.bytes }
  | _ => .ok parts

/-- Reads the parts; the fixed one has to be there. -/
def readParts (data : Bytes) : Outcome RatchetError Parts := do
  let parts ← fold .badRecord Parts.readField data ⟨none, none, none⟩
  Outcome.require .badRecord (parts.fixed.isSome = true)
  return parts

/-- `x.array(field, size)`. -/
def array (size : Nat) (data : Bytes) : Outcome RatchetError (Block size) :=
  Outcome.ofOption .badRecord (Block.ofBytes size data)

/-- A spread that has to be there. -/
def spread (coder : Option Bytes) : Outcome RatchetError Spread := do
  let data ← Outcome.ofOption .badRecord coder
  Spread.read data

/-- A gather of another length than expected is refused. -/
def gather
    (coder : Option Bytes)
    (expected : Nat) :
    Outcome RatchetError Gather := do
  let data ← Outcome.ofOption .badRecord coder
  let gather ← Gather.read data
  Outcome.require .badRecord (gather.needed = expected / 2)
  return gather

/-- The state of a number from its parts. -/
def readState
    (number : Nat)
    (data : Bytes) :
    Outcome RatchetError Braid := do
  let parts ← readParts data
  let fixed ← Outcome.unwrap parts.fixed
  let epoch := fixed.epoch
  let auth ← Outcome.unwrap fixed.auth
  match number with
  | 1 => return .unsampled epoch auth
  | 2 => do
      let encap ← array Kem.encapLength fixed.third
      let decap ← array Kem.decapLength fixed.fourth
      let outHeader ← spread parts.coder2
      return .sampled epoch auth encap decap outHeader
  | 3 => do
      let outEncap ← spread parts.coder2
      let decap ← array Kem.decapLength fixed.third
      let inFirst ← gather parts.coder3 Kem.firstLength
      return .headerOut epoch auth decap outEncap inFirst
  | 4 => do
      let decap ← array Kem.decapLength fixed.third
      let first ← array Kem.firstLength fixed.fourth
      let outEncap ← spread parts.coder2
      return .firstIn epoch auth decap first outEncap
  | 5 => do
      let decap ← array Kem.decapLength fixed.third
      let first ← array Kem.firstLength fixed.fourth
      let inSecond ← gather parts.coder3 secondMessage
      return .encapOutFirstIn epoch auth decap first inSecond
  | 6 => do
      let inHeader ← gather parts.coder2 headerMessage
      return .waiting epoch auth inHeader
  | 7 => do
      let header ← array Kem.headerLength fixed.third
      let inEncap ← gather parts.coder2 Kem.encapLength
      return .headerIn epoch auth header inEncap
  | 8 => do
      let outFirst ← spread parts.coder2
      let header ← array Kem.headerLength fixed.third
      let carry ← array Kem.carryLength fixed.fourth
      let first ← array Kem.firstLength fixed.fifth
      let inEncap ← gather parts.coder3 Kem.encapLength
      return .firstOut epoch auth header carry first outFirst inEncap
  | 9 => do
      let carry ← array Kem.carryLength fixed.third
      let encap ← array Kem.encapLength fixed.fourth
      let first ← array Kem.firstLength fixed.fifth
      let outFirst ← spread parts.coder2
      return .encapInFirstOut epoch auth carry encap first outFirst
  | 10 => do
      let header ← array Kem.headerLength fixed.third
      let carry ← array Kem.carryLength fixed.fourth
      let first ← array Kem.firstLength fixed.fifth
      let inEncap ← gather parts.coder2 Kem.encapLength
      return .firstAcked epoch auth header carry first inEncap
  | 11 => do
      let outSecond ← spread parts.coder2
      return .secondOut epoch auth outSecond
  | _ => .trap

/-- A field that names one of the eleven states. -/
def known (field : Field) : Option (Outcome RatchetError Braid) :=
  if field.kind ≠ .bytes ∨ field.number < 1 ∨ 11 < field.number then
    none
  else
    some (readState field.number field.byteValue)

/-- The first state the record holds. -/
def read (data : Bytes) : Outcome RatchetError Braid :=
  find .badRecord known data

/-! ## Round trip -/

/-- The values of a state fit its record. -/
def Recordable : Braid → Prop
  | .unsampled epoch _ => epoch < 2 ^ 64
  | .sampled epoch _ _ _ outHeader =>
      epoch < 2 ^ 64 ∧ outHeader.Recordable
  | .headerOut epoch _ _ outEncap inFirst =>
      epoch < 2 ^ 64 ∧ outEncap.Recordable ∧
        inFirst.needed = Kem.firstLength / 2
  | .firstIn epoch _ _ _ outEncap =>
      epoch < 2 ^ 64 ∧ outEncap.Recordable
  | .encapOutFirstIn epoch _ _ _ inSecond =>
      epoch < 2 ^ 64 ∧ inSecond.needed = secondMessage / 2
  | .waiting epoch _ inHeader =>
      epoch < 2 ^ 64 ∧ inHeader.needed = headerMessage / 2
  | .headerIn epoch _ _ inEncap =>
      epoch < 2 ^ 64 ∧ inEncap.needed = Kem.encapLength / 2
  | .firstOut epoch _ _ _ _ outFirst inEncap =>
      epoch < 2 ^ 64 ∧ outFirst.Recordable ∧
        inEncap.needed = Kem.encapLength / 2
  | .encapInFirstOut epoch _ _ _ _ outFirst =>
      epoch < 2 ^ 64 ∧ outFirst.Recordable
  | .firstAcked epoch _ _ _ _ inEncap =>
      epoch < 2 ^ 64 ∧ inEncap.needed = Kem.encapLength / 2
  | .secondOut epoch _ outSecond =>
      epoch < 2 ^ 64 ∧ outSecond.Recordable

/-- The array fields of a state. -/
def arrayFields : (number : Nat) → (arrays : List Bytes) → List Field
  | _, [] => []
  | number, array :: rest =>
      Field.ofBytes number array :: arrayFields (number + 1) rest

/-- The arrays have the numbers their fields do. -/
theorem encodeAll_arrayFields (number : Nat) (arrays : List Bytes) :
    encodeAll (arrayFields number arrays) = writeArrays number arrays := by
  induction arrays generalizing number with
  | nil => rfl
  | cons array rest inductionHypothesis =>
      rw [arrayFields, encodeAll_cons, inductionHypothesis]
      rfl

/-- Every array can be written. -/
theorem arrayFields_plain
    {number : Nat}
    {arrays : List Bytes}
    (positive : 0 < number)
    (fits : number + arrays.length < 2 ^ 32) :
    ∀ field ∈ arrayFields number arrays, field.Plain := by
  induction arrays generalizing number with
  | nil =>
      intro field member
      cases member
  | cons array rest inductionHypothesis =>
      rw [List.length_cons] at fits
      intro field member
      rcases List.mem_cons.mp member with rfl | inRest
      · exact .bytes positive (by omega)
      · exact inductionHypothesis (Nat.succ_pos number) (by omega) field
          inRest

/-- The fields that `writeFixed` writes. -/
def fixedFields
    (epoch : Nat)
    (auth : Auth)
    (arrays : List Bytes) :
    List Field :=
  Field.uintIfSet 1 epoch ++
    (Field.ofBytes 2 auth.write :: arrayFields 3 arrays)

/-- The fixed part is that of its fields. -/
theorem encodeAll_fixedFields
    (epoch : Nat)
    (auth : Auth)
    (arrays : List Bytes) :
    Writer.embed 1 (encodeAll (fixedFields epoch auth arrays)) =
      writeFixed epoch auth arrays := by
  rw [fixedFields, encodeAll_append, encodeAll_uintIfSet,
    encodeAll_cons, encodeAll_arrayFields, writeFixed, List.append_assoc]
  rfl

/-- At most three arrays are read into their places. -/
private theorem readArrays
    {arrays : List Bytes}
    (atMost : arrays.length ≤ 3)
    (epoch : Nat)
    (auth : Auth) :
    (arrayFields 3 arrays).foldlM Fixed.readField
        ⟨epoch, some auth, [], [], []⟩ =
      .ok ⟨epoch, some auth, arrays.getD 0 [], arrays.getD 1 [],
        arrays.getD 2 []⟩ := by
  match arrays, atMost with
  | [], _ => rfl
  | [third], _ => rfl
  | [third, fourth], _ => rfl
  | [third, fourth, fifth], _ => rfl

/-- The fixed part reads back, the arrays not written being empty. -/
theorem readFixed_fixedFields
    {arrays : List Bytes}
    (atMost : arrays.length ≤ 3)
    {epoch : Nat}
    (epochFits : epoch < 2 ^ 64)
    (auth : Auth)
    (short : (encodeAll (fixedFields epoch auth arrays)).length < 2 ^ 64) :
    readFixed (encodeAll (fixedFields epoch auth arrays)) =
      .ok ⟨epoch, some auth, arrays.getD 0 [], arrays.getD 1 [],
        arrays.getD 2 []⟩ := by
  have plain : ∀ field ∈ fixedFields epoch auth arrays, field.Plain := by
    intro field member
    rcases List.mem_append.mp member with inEpoch | inRest
    · exact Field.Plain.uintIfSet (by decide) (by decide) epochFits field
        inEpoch
    · rcases List.mem_cons.mp inRest with rfl | inArrays
      · exact .bytes (by decide) (by decide)
      · exact arrayFields_plain (by decide) (by omega) field inArrays
  have epochReads :
      (Field.uintIfSet 1 epoch).foldlM Fixed.readField Fixed.empty =
        .ok ⟨epoch, none, [], [], []⟩ := by
    refine foldlM_uintIfSet Fixed.readField rfl ?_
    intro isZero
    rw [isZero]
    rfl
  have authShort : auth.write.length < 2 ^ 64 :=
    Nat.lt_of_le_of_lt
      (@length_byteValue_le _ 2 _
        (List.mem_append_right _ (List.mem_cons_self ..))) short
  have authReads :
      Fixed.readField ⟨epoch, none, [], [], []⟩
          (Field.ofBytes 2 auth.write) =
        .ok ⟨epoch, some auth, [], [], []⟩ := by
    simp only [Fixed.readField, Field.number_ofBytes,
      Field.bytesOr_ofBytes, Outcome.ok_bind,
      Auth.read_write auth authShort, Outcome.pure_eq]
  rw [readFixed, fold_plain .badRecord Fixed.readField plain short,
    fixedFields, foldlM_append_ok epochReads, List.foldlM_cons,
    authReads, Outcome.ok_bind, readArrays atMost, Outcome.ok_bind,
    Outcome.require_of (by simp)]
  rfl

/-- The fields of the parts. -/
def partFields
    (epoch : Nat)
    (auth : Auth)
    (arrays : List Bytes)
    (coder2 coder3 : Option Bytes) :
    List Field :=
  Field.ofBytes 1 (encodeAll (fixedFields epoch auth arrays)) ::
    ((coder2.map (Field.ofBytes 2)).toList ++
      (coder3.map (Field.ofBytes 3)).toList)

/-- A state is one field that holds its parts. -/
theorem writeState_eq
    (number epoch : Nat)
    (auth : Auth)
    (arrays : List Bytes)
    (coder2 coder3 : Option Bytes) :
    writeState number epoch auth arrays coder2 coder3 =
      (Field.ofBytes number
        (encodeAll
          (partFields epoch auth arrays coder2 coder3))).encode := by
  rw [writeState, ← encodeAll_fixedFields, partFields]
  cases coder2 <;> cases coder3 <;>
    simp [writeCoder, Writer.embed]

/-- The parts read back. -/
theorem readParts_partFields
    {arrays : List Bytes}
    (atMost : arrays.length ≤ 3)
    {epoch : Nat}
    (epochFits : epoch < 2 ^ 64)
    (auth : Auth)
    (coder2 coder3 : Option Bytes)
    (short :
      (encodeAll (partFields epoch auth arrays coder2 coder3)).length <
        2 ^ 64) :
    readParts (encodeAll (partFields epoch auth arrays coder2 coder3)) =
      .ok ⟨some ⟨epoch, some auth, arrays.getD 0 [], arrays.getD 1 [],
        arrays.getD 2 []⟩, coder2, coder3⟩ := by
  have plain :
      ∀ field ∈ partFields epoch auth arrays coder2 coder3,
        field.Plain := by
    intro field member
    simp only [partFields, List.mem_cons, List.mem_append,
      Option.mem_toList, Option.map_eq_some_iff] at member
    rcases member with rfl | ⟨_, _, rfl⟩ | ⟨_, _, rfl⟩ <;>
      exact .bytes (by decide) (by decide)
  have fixedShort :
      (encodeAll (fixedFields epoch auth arrays)).length < 2 ^ 64 :=
    Nat.lt_of_le_of_lt
      (@length_byteValue_le _ 1 _ (List.mem_cons_self ..)) short
  rw [readParts, fold_plain .badRecord Parts.readField plain short,
    partFields, List.foldlM_cons]
  simp only [Parts.readField, Field.number_ofBytes,
    Field.bytesOr_ofBytes, Outcome.ok_bind, Outcome.pure_eq,
    readFixed_fixedFields atMost epochFits auth fixedShort]
  cases coder2 <;> cases coder3 <;> rfl

/-- What reading finds where a state was written. -/
private structure Found
    (bytes : Bytes)
    (number epoch : Nat)
    (auth : Auth)
    (arrays : List Bytes)
    (coder2 coder3 : Option Bytes) :
    Prop where
  isRead :
    read bytes =
      readState number (encodeAll (partFields epoch auth arrays coder2 coder3))
  parts :
    readParts (encodeAll (partFields epoch auth arrays coder2 coder3)) =
      .ok ⟨some ⟨epoch, some auth, arrays.getD 0 [], arrays.getD 1 [],
        arrays.getD 2 []⟩, coder2, coder3⟩
  second : ∀ coder, coder2 = some coder → coder.length < 2 ^ 64
  third : ∀ coder, coder3 = some coder → coder.length < 2 ^ 64

/-- A written state is found under its number and read from its parts. -/
private theorem found_writeState
    {number : Nat}
    (named : 1 ≤ number ∧ number ≤ 11)
    {arrays : List Bytes}
    (atMost : arrays.length ≤ 3)
    {epoch : Nat}
    (epochFits : epoch < 2 ^ 64)
    (auth : Auth)
    {coder2 coder3 : Option Bytes}
    (short :
      (writeState number epoch auth arrays coder2 coder3).length <
        2 ^ 64) :
    Found (writeState number epoch auth arrays coder2 coder3) number epoch
      auth arrays coder2 coder3 := by
  rw [writeState_eq] at short ⊢
  have partsShort :
      (encodeAll (partFields epoch auth arrays coder2 coder3)).length <
        2 ^ 64 := by
    simp only [Field.encode_ofBytes, Writer.bytes, List.length_append]
      at short
    omega
  have isKnown :
      known (Field.ofBytes number
          (encodeAll (partFields epoch auth arrays coder2 coder3))) =
        some (readState number
          (encodeAll (partFields epoch auth arrays coder2 coder3))) := by
    rw [known, if_neg]
    · rfl
    · rintro (wrongKind | tooSmall | tooLarge)
      · exact wrongKind rfl
      · exact Nat.lt_irrefl _ (Nat.lt_of_lt_of_le tooSmall named.1)
      · exact Nat.lt_irrefl _ (Nat.lt_of_lt_of_le tooLarge named.2)
  refine ⟨find_single RatchetError.badRecord
      (Field.Written.bytes named.1 (by omega) partsShort) isKnown,
    readParts_partFields atMost epochFits auth coder2 coder3 partsShort,
    ?_, ?_⟩
  · rintro coder rfl
    refine Nat.lt_of_le_of_lt (@length_byteValue_le _ 2 _ ?_) partsShort
    exact List.mem_cons_of_mem _
      (List.mem_append_left _ (List.mem_singleton_self _))
  · rintro coder rfl
    refine Nat.lt_of_le_of_lt (@length_byteValue_le _ 3 _ ?_) partsShort
    exact List.mem_cons_of_mem _
      (List.mem_append_right _ (List.mem_singleton_self _))

/-- An array of the right length reads back. -/
private theorem array_bytes
    {size : Nat}
    (block : Block size) :
    array size block.bytes = .ok block := by
  rw [array, Block.ofBytes_bytes, Outcome.ofOption_some]

/-- A spread reads back. -/
private theorem spread_write
    {value : Spread}
    (recordable : value.Recordable)
    (short : value.write.length < 2 ^ 64) :
    spread (some value.write) = .ok value := by
  rw [spread, Outcome.ofOption_some, Outcome.ok_bind,
    Spread.read_write recordable short]

/-- A gather of the expected length reads back. -/
private theorem gather_write
    {value : Gather}
    {expected : Nat}
    (isNeeded : value.needed = expected / 2)
    (fits : expected < 2 ^ 64)
    (short : value.write.length < 2 ^ 64) :
    gather (some value.write) expected = .ok value := by
  rw [gather, Outcome.ofOption_some, Outcome.ok_bind,
    Gather.read_write (by omega) short, Outcome.ok_bind,
    Outcome.require_of isNeeded]
  rfl

/-- What a braid writes reads back. -/
theorem read_write
    {braid : Braid}
    (recordable : braid.Recordable)
    (short : braid.write.length < 2 ^ 64) :
    read braid.write = .ok braid := by
  cases braid with
  | unsampled epoch auth =>
      have found := found_writeState (by decide) (by simp) recordable auth short
      rw [write, found.isRead, readState, found.parts]
      rfl
  | sampled epoch auth encap decap outHeader =>
      rcases recordable with ⟨epochFits, recordable⟩
      have found := found_writeState (by decide) (by simp) epochFits auth short
      rw [write, found.isRead, readState, found.parts]
      simp [array_bytes, spread_write recordable (found.second _ rfl)]
  | headerOut epoch auth decap outEncap inFirst =>
      rcases recordable with ⟨epochFits, recordable, isNeeded⟩
      have found := found_writeState (by decide) (by simp) epochFits auth short
      rw [write, found.isRead, readState, found.parts]
      simp [array_bytes,
        spread_write recordable (found.second _ rfl),
        gather_write isNeeded (by decide) (found.third _ rfl)]
  | firstIn epoch auth decap first outEncap =>
      rcases recordable with ⟨epochFits, recordable⟩
      have found := found_writeState (by decide) (by simp) epochFits auth short
      rw [write, found.isRead, readState, found.parts]
      simp [array_bytes, spread_write recordable (found.second _ rfl)]
  | encapOutFirstIn epoch auth decap first inSecond =>
      rcases recordable with ⟨epochFits, isNeeded⟩
      have found := found_writeState (by decide) (by simp) epochFits auth short
      rw [write, found.isRead, readState, found.parts]
      simp [array_bytes, gather_write isNeeded (by decide) (found.third _ rfl)]
  | waiting epoch auth inHeader =>
      rcases recordable with ⟨epochFits, isNeeded⟩
      have found := found_writeState (by decide) (by simp) epochFits auth short
      rw [write, found.isRead, readState, found.parts]
      simp [gather_write isNeeded (by decide) (found.second _ rfl)]
  | headerIn epoch auth header inEncap =>
      rcases recordable with ⟨epochFits, isNeeded⟩
      have found := found_writeState (by decide) (by simp) epochFits auth short
      rw [write, found.isRead, readState, found.parts]
      simp [array_bytes, gather_write isNeeded (by decide) (found.second _ rfl)]
  | firstOut epoch auth header carry first outFirst inEncap =>
      rcases recordable with ⟨epochFits, recordable, isNeeded⟩
      have found := found_writeState (by decide) (by simp) epochFits auth short
      rw [write, found.isRead, readState, found.parts]
      simp [array_bytes,
        spread_write recordable (found.second _ rfl),
        gather_write isNeeded (by decide) (found.third _ rfl)]
  | encapInFirstOut epoch auth carry encap first outFirst =>
      rcases recordable with ⟨epochFits, recordable⟩
      have found := found_writeState (by decide) (by simp) epochFits auth short
      rw [write, found.isRead, readState, found.parts]
      simp [array_bytes, spread_write recordable (found.second _ rfl)]
  | firstAcked epoch auth header carry first inEncap =>
      rcases recordable with ⟨epochFits, isNeeded⟩
      have found := found_writeState (by decide) (by simp) epochFits auth short
      rw [write, found.isRead, readState, found.parts]
      simp [array_bytes, gather_write isNeeded (by decide) (found.second _ rfl)]
  | secondOut epoch auth outSecond =>
      rcases recordable with ⟨epochFits, recordable⟩
      have found := found_writeState (by decide) (by simp) epochFits auth short
      rw [write, found.isRead, readState, found.parts]
      simp [spread_write recordable (found.second _ rfl)]

end Braid

end Gossveil
