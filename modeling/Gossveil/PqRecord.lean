import Gossveil.BraidRecord
import Gossveil.StreamRecord

namespace Gossveil

open Codec TwoParty KeyStream

/-!
# The post-quantum ratchet as the session sees it

A serialised state in, a packet and a key out on send, a key out on receive,
the new state back.  Before the first message the record holds the terms from
which the stream is opened; afterwards it holds the stream itself.
-/

namespace PqRecord

/-- What the two sides have agreed on before the stream is started. -/
structure Terms where
  authKey : Bytes
  side : Side
  minVersion : Nat
  limits : Limits
  deriving DecidableEq

/-- What is known before the first field. -/
def Terms.empty : Terms :=
  ⟨[], .initiator, 0, Limits.default⟩

/-- The parts of a record, not yet read themselves. -/
structure Record where
  terms : Option Terms
  stream : Option Bytes
  braid : Option Bytes
  deriving DecidableEq

/-- What is known before the first field. -/
def Record.empty : Record :=
  ⟨none, none, none⟩

/-- The version is cast to a byte without a check. -/
def Terms.readField
    (terms : Terms)
    (field : Field) :
    Outcome RatchetError Terms :=
  match field.number with
  | 1 => .ok { terms with authKey := field.bytes.getD [] }
  | 2 =>
      .ok { terms with
        side := if field.uintOrZero = 1 then .responder else .initiator }
  | 3 => do
      let minVersion ← Outcome.intCast 8 field.uintOrZero
      return { terms with minVersion := minVersion }
  | 4 => do
      let data ← field.bytesOr .badRecord
      let limits ← terms.limits.readOver data
      return { terms with limits := limits }
  | _ => .ok terms

/-- Takes in one field; the stream and the braid are kept as bytes. -/
def Record.readField
    (record : Record)
    (field : Field) :
    Outcome RatchetError Record :=
  match field.number with
  | 1 => do
      let data ← field.bytesOr .badRecord
      let terms ← fold .badRecord Terms.readField data Terms.empty
      return { record with terms := some terms }
  | 2 => .ok { record with stream := field.bytes }
  | 3 => .ok { record with braid := field.bytes }
  | _ => .ok record

/-- Reads the parts of a record. -/
def parseRecord (data : Bytes) : Outcome RatchetError Record :=
  fold .badRecord Record.readField data Record.empty

/-- The terms as a field of the record. -/
def writeTerms (terms : Terms) : Bytes :=
  Writer.embed 1
    (Writer.bytesIfSet 1 terms.authKey ++
      Writer.uintIfSet 2 (sideCode terms.side) ++
      Writer.uintIfSet 3 terms.minVersion ++
      Writer.embed 4 terms.limits.write)

/-- The record of the terms, the stream and the braid. -/
def writeRecord
    (terms : Option Terms)
    (stream : Option Stream)
    (braid : Braid) :
    Bytes :=
  (match terms with
    | some terms => writeTerms terms
    | none => []) ++
    (match stream with
      | some stream => Writer.embed 2 stream.write
      | none => []) ++
    Writer.embed 3 braid.write

section Steps

variable [Hashes]

/--
The state before the first message: the braid's first state and the terms the
stream is opened from on the first send.
-/
def start
    (authKey : Block 32)
    (side : Side)
    (limits : Limits) :
    Outcome RatchetError Bytes := do
  let braid ←
    match side with
    | .initiator => Braid.startInitiator authKey.bytes
    | .responder => Braid.startResponder authKey.bytes
  return writeRecord (some ⟨authKey.bytes, side, 1, limits⟩) none braid

/-- The stream of a record; it is started from the terms if need be. -/
def streamOf (record : Record) : Outcome RatchetError Stream :=
  match record.stream with
  | some data => Stream.read data
  | none => do
      let terms ← Outcome.ofOption .noStream record.terms
      return Stream.start terms.authKey terms.side terms.limits

/-- The next epoch opens when the braid has a secret for it. -/
def openEpoch
    (stream : Stream)
    (secret : Option EpochSecret) :
    Outcome RatchetError Stream :=
  match secret with
  | some secret => stream.nextEpoch secret.epoch secret.secret.bytes
  | none => .ok stream

/-- What a send returns. -/
structure Sent where
  state : Bytes
  packet : Bytes
  key : Option (Block 32)
  deriving DecidableEq

/-- What a receive returns. -/
structure Received where
  state : Bytes
  key : Option (Block 32)
  deriving DecidableEq

variable [Kem]

/-- Sends one packet: the braid, then the stream that has its key. -/
def send
    (state : Bytes)
    (draw : Braid.Draw) :
    Outcome RatchetError Sent :=
  if state.length = 0 then
    .ok ⟨[], [], none⟩
  else do
    let record ← parseRecord state
    match record.braid with
    | none => return ⟨[], [], none⟩
    | some data => do
        let braid ← Braid.read data
        let (braid, sent) ← braid.send draw
        let stream ← streamOf record
        let stream ← openEpoch stream sent.secret
        let epoch ← Outcome.sub sent.packet.epoch 1
        let (index, key, stream) ← stream.keyToSend epoch
        return ⟨writeRecord record.terms (some stream) braid,
          sent.packet.serialize index, some key⟩

/-- What an empty packet means: no ratchet, or a version that is too low. -/
def receiveNothing (record : Record) : Outcome RatchetError Received :=
  match record.braid with
  | none => .ok ⟨[], none⟩
  | some _ => do
      let terms ← Outcome.ofOption .versionMismatch record.terms
      if 0 < terms.minVersion then
        .error .minimumVersion
      else
        return ⟨[], none⟩

/-- Takes in one packet; an empty record takes in anything. -/
def receive
    (state : Bytes)
    (packet : Bytes) :
    Outcome RatchetError Received :=
  if state.length = 0 then
    .ok ⟨[], none⟩
  else do
    let record ← parseRecord state
    match packet with
    | [] => receiveNothing record
    | first :: _ =>
        if first ≠ Packet.version then
          .error .badPacket
        else
          match record.braid with
          | none => return ⟨[], none⟩
          | some data => do
              let (parsed, index) ← Packet.parse packet
              let braid ← Braid.read data
              let (braid, secret) ← braid.receive parsed
              let stream ← streamOf record
              let stream ← openEpoch stream secret
              let epoch ← Outcome.sub parsed.epoch 1
              if epoch = 0 ∧ index = 0 then
                return ⟨writeRecord none (some stream) braid, none⟩
              else
                let (key, stream) ← stream.keyToReceive epoch index
                return ⟨writeRecord none (some stream) braid, some key⟩

end Steps

/-! ## Round trip -/

/-- The values of the terms fit their record. -/
structure Terms.Recordable (terms : Terms) : Prop where
  minVersion : terms.minVersion < 2 ^ 8
  limits : terms.limits.Fits

namespace Terms

/-- The fields that `writeTerms` embeds. -/
def fields (terms : Terms) : List Field :=
  Field.bytesIfSet 1 terms.authKey ++
    (Field.uintIfSet 2 (sideCode terms.side) ++
      (Field.uintIfSet 3 terms.minVersion ++
        [Field.ofBytes 4 terms.limits.write]))

/-- The terms are embedded as their fields. -/
theorem embed_fields (terms : Terms) :
    Writer.embed 1 (encodeAll terms.fields) = writeTerms terms := by
  simp only [fields, encodeAll_append, encodeAll_bytesIfSet,
    encodeAll_uintIfSet, encodeAll_cons, encodeAll_nil,
    Field.encode_ofBytes, List.append_nil, writeTerms, Writer.embed,
    List.append_assoc]

/-- The terms survive their record. -/
theorem read_fields
    {terms : Terms}
    (recordable : terms.Recordable)
    (short : (encodeAll terms.fields).length < 2 ^ 64) :
    fold RatchetError.badRecord readField (encodeAll terms.fields) empty =
      .ok terms := by
  have plain : ∀ field ∈ terms.fields, field.Plain := by
    intro field member
    simp only [fields, List.mem_append, List.mem_singleton] at member
    rcases member with inKey | inSide | inVersion | rfl
    · exact Field.Plain.bytesIfSet (by decide) (by decide) field inKey
    · exact Field.Plain.uintIfSet (by decide) (by decide)
        (by cases terms.side <;> decide) field inSide
    · exact Field.Plain.uintIfSet (by decide) (by decide)
        (Nat.lt_trans recordable.minVersion (by decide)) field inVersion
    · exact .bytes (by decide) (by decide)
  have limitsShort : terms.limits.write.length < 2 ^ 64 := by
    refine Nat.lt_of_le_of_lt (@length_byteValue_le _ 4 _ ?_) short
    simp only [fields, List.mem_append, List.mem_singleton]
    simp
  rcases terms with ⟨authKey, side, minVersion, limits⟩
  have keyReads :
      (Field.bytesIfSet 1 authKey).foldlM readField empty =
        .ok ⟨authKey, .initiator, 0, Limits.default⟩ := by
    refine foldlM_bytesIfSet readField rfl ?_
    intro isEmpty
    rw [isEmpty]
    rfl
  have sideReads :
      (Field.uintIfSet 2 (sideCode side)).foldlM readField
          ⟨authKey, .initiator, 0, Limits.default⟩ =
        .ok ⟨authKey, side, 0, Limits.default⟩ := by
    cases side <;> rfl
  have versionReads :
      (Field.uintIfSet 3 minVersion).foldlM readField
          ⟨authKey, side, 0, Limits.default⟩ =
        .ok ⟨authKey, side, minVersion, Limits.default⟩ := by
    refine foldlM_uintIfSet readField ?_ ?_
    · simp only [readField, Field.number_ofUint,
        Field.uintOrZero_ofUint,
        Outcome.intCast_of_lt recordable.minVersion]
      rfl
    · intro isZero
      rw [isZero]
  rw [fold_plain _ readField plain short, fields,
    foldlM_append_ok keyReads, foldlM_append_ok sideReads,
    foldlM_append_ok versionReads]
  simp only [List.foldlM_cons, List.foldlM_nil, readField,
    Field.number_ofBytes, Field.bytesOr_ofBytes, Outcome.ok_bind,
    Limits.readOver_write recordable.limits limitsShort, Outcome.pure_eq]

end Terms

/-- The fields that `writeRecord` writes. -/
def recordFields
    (terms : Option Terms)
    (stream : Option Stream)
    (braid : Braid) :
    List Field :=
  (terms.map fun terms =>
      Field.ofBytes 1 (encodeAll terms.fields)).toList ++
    ((stream.map fun stream => Field.ofBytes 2 stream.write).toList ++
      [Field.ofBytes 3 braid.write])

/-- The record is that of the fields. -/
theorem encodeAll_recordFields
    (terms : Option Terms)
    (stream : Option Stream)
    (braid : Braid) :
    encodeAll (recordFields terms stream braid) =
      writeRecord terms stream braid := by
  cases terms <;> cases stream <;>
    simp [recordFields, writeRecord, ← Terms.embed_fields, Writer.embed]

/-- What has been written is parsed into its parts. -/
theorem parseRecord_writeRecord
    {terms : Option Terms}
    {stream : Option Stream}
    {braid : Braid}
    (recordable : ∀ value, terms = some value → value.Recordable)
    (short : (writeRecord terms stream braid).length < 2 ^ 64) :
    parseRecord (writeRecord terms stream braid) =
      .ok ⟨terms, stream.map Stream.write, some braid.write⟩ := by
  have plain :
      ∀ field ∈ recordFields terms stream braid, field.Plain := by
    intro field member
    simp only [recordFields, List.mem_append, Option.mem_toList,
      Option.map_eq_some_iff, List.mem_singleton] at member
    rcases member with ⟨_, _, rfl⟩ | ⟨_, _, rfl⟩ | rfl <;>
      exact .bytes (by decide) (by decide)
  rw [← encodeAll_recordFields] at short ⊢
  have termsRead :
      (terms.map fun terms =>
          Field.ofBytes 1 (encodeAll terms.fields)).toList.foldlM
          Record.readField Record.empty =
        .ok ⟨terms, none, none⟩ := by
    cases terms with
    | none => rfl
    | some value =>
        have valueShort : (encodeAll value.fields).length < 2 ^ 64 :=
          Nat.lt_of_le_of_lt
            (@length_byteValue_le _ 1 _
              (List.mem_append_left _ (List.mem_singleton_self _))) short
        simp only [Option.map_some, Option.toList_some, List.foldlM_cons,
          List.foldlM_nil, Record.readField, Field.number_ofBytes,
          Field.bytesOr_ofBytes, Outcome.ok_bind,
          Terms.read_fields (recordable value rfl) valueShort,
          Outcome.pure_eq]
        rfl
  rw [parseRecord, fold_plain .badRecord Record.readField plain short,
    recordFields, foldlM_append_ok termsRead]
  cases stream <;> rfl

/-- The parts of a written record fit byte slices of their own. -/
theorem writeRecord_short
    {terms : Option Terms}
    {stream : Option Stream}
    {braid : Braid}
    (short : (writeRecord terms stream braid).length < 2 ^ 64) :
    braid.write.length < 2 ^ 64 ∧
      ∀ value, stream = some value → value.write.length < 2 ^ 64 := by
  rw [← encodeAll_recordFields] at short
  constructor
  · refine Nat.lt_of_le_of_lt (@length_byteValue_le _ 3 _ ?_) short
    exact List.mem_append_right _
      (List.mem_append_right _ (List.mem_singleton_self _))
  · rintro value rfl
    refine Nat.lt_of_le_of_lt (@length_byteValue_le _ 2 _ ?_) short
    exact List.mem_append_right _
      (List.mem_append_left _ (List.mem_singleton_self _))

end PqRecord

end Gossveil
