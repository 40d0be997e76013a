import Gossveil.CodeRecord
import Gossveil.KeyStream

namespace Gossveil.KeyStream

open Codec TwoParty

/-!
# The record of a key stream

Flows, epochs and limits are messages of their own inside the stream's record.
What is written reads back to the same stream.
-/

/-! ## Held keys -/

namespace Held

/-- `mem.readInt(u32, _, .big)`. -/
def indexOf (data : Bytes) : Nat :=
  Reader.littleEndian data.reverse

/-- A held key behind its index. -/
def entryBytes (entry : Entry) : Bytes :=
  bigEndian 4 entry.1 ++ entry.2.bytes

/-- The held keys one after the other. -/
def bytes (held : Held) : Bytes :=
  held.flatMap entryBytes

/-- Some entries one after the other. -/
def ofBytes : (count : Nat) → Bytes → Held
  | 0, _ => []
  | count + 1, data =>
      match Block.ofBytes 32 ((data.drop 4).take 32) with
      | some key =>
          (indexOf (data.take 4), key) ::
            ofBytes count (data.drop entrySize)
      | none => []

theorem length_bigEndian (size value : Nat) :
    (bigEndian size value).length = size := by
  rw [bigEndian, List.length_reverse, length_littleEndian]

/-- An index of four bytes reads back. -/
theorem indexOf_bigEndian
    {value : Nat}
    (small : value < 2 ^ 32) :
    indexOf (bigEndian 4 value) = value := by
  rw [indexOf, bigEndian, List.reverse_reverse]
  exact littleEndian_write 4 value small

theorem length_entryBytes (entry : Entry) :
    (entryBytes entry).length = entrySize := by
  rw [entryBytes, List.length_append, length_bigEndian,
    entry.2.length_bytes]
  rfl

@[simp] theorem length_bytes (held : Held) :
    (bytes held).length = entrySize * held.length := by
  induction held with
  | nil => rfl
  | cons entry rest inductionHypothesis =>
      rw [bytes, List.flatMap_cons, List.length_append, ← bytes,
        inductionHypothesis, length_entryBytes, List.length_cons,
        Nat.mul_succ, Nat.add_comm]

/-- Written entries read back. -/
theorem ofBytes_bytes
    {held : Held}
    (small : ∀ entry ∈ held, entry.1 < 2 ^ 32) :
    ofBytes held.length (bytes held) = held := by
  induction held with
  | nil => rfl
  | cons entry rest inductionHypothesis =>
      have index :
          (bytes (entry :: rest)).take 4 = bigEndian 4 entry.1 := by
        rw [bytes, List.flatMap_cons, entryBytes, List.append_assoc]
        exact List.take_left' (length_bigEndian 4 entry.1)
      have key :
          ((bytes (entry :: rest)).drop 4).take 32 = entry.2.bytes := by
        rw [bytes, List.flatMap_cons, entryBytes, List.append_assoc,
          List.drop_left' (length_bigEndian 4 entry.1)]
        exact List.take_left' entry.2.length_bytes
      have behind : (bytes (entry :: rest)).drop entrySize = bytes rest := by
        rw [bytes, List.flatMap_cons]
        exact List.drop_left' (length_entryBytes entry)
      rw [List.length_cons, ofBytes, key, Block.ofBytes_bytes, index,
        behind, indexOf_bigEndian (small entry (by simp))]
      simp only
      rw [inductionHypothesis fun other member =>
        small other (List.mem_cons_of_mem _ member)]

end Held

/-! ## Flows -/

namespace Flow

/-- The record of a flow. -/
def write (flow : Flow) : Bytes :=
  Writer.uintIfSet 1 flow.counter ++
    (match flow.next with
      | some next => Writer.bytes 2 next.bytes
      | none => []) ++
    Writer.bytesIfSet 3 (Held.bytes flow.held)

/-- What is known before the first field. -/
def empty : Flow := ⟨0, none, []⟩

/-- One turn of `readFlow`. -/
def readField
    (flow : Flow)
    (field : Field) :
    Outcome RatchetError Flow :=
  match field.number with
  | 1 => do
      let counter ←
        Outcome.ofOption .badRecord (Outcome.castTo 32 field.uintOrZero)
      return { flow with counter := counter }
  | 2 => do
      let data ← field.bytesOr .badRecord
      match Block.ofBytes 32 data with
      | some next => return { flow with next := some next }
      | none =>
          if data.length ≠ 0 then .error .badRecord else return flow
  | 3 => do
      let data ← field.bytesOr .badRecord
      if data.length % Held.entrySize ≠ 0 then
        .error .badRecord
      else
        return { flow with
          held :=
            flow.held ++
              Held.ofBytes (data.length / Held.entrySize) data }
  | _ => .ok flow

/-- Reads a flow from its record. -/
def read (data : Bytes) : Outcome RatchetError Flow :=
  fold .badRecord readField data empty

/-- The counter and the held indices are 32-bit integers. -/
structure Recordable (flow : Flow) : Prop where
  counter : flow.counter < 2 ^ 32
  held : ∀ entry ∈ flow.held, entry.1 < 2 ^ 32

/-- The fields that `write` writes. -/
def fields (flow : Flow) : List Field :=
  Field.uintIfSet 1 flow.counter ++
    (flow.next.map fun next => Field.ofBytes 2 next.bytes).toList ++
    Field.bytesIfSet 3 (Held.bytes flow.held)

/-- The record is that of the fields. -/
theorem encodeAll_fields (flow : Flow) :
    encodeAll flow.fields = flow.write := by
  rw [fields, encodeAll_append, encodeAll_append, encodeAll_uintIfSet,
    encodeAll_bytesIfSet, write]
  cases flow.next <;> simp

/-- A flow survives its record. -/
theorem read_write
    {flow : Flow}
    (recordable : flow.Recordable)
    (short : flow.write.length < 2 ^ 64) :
    read flow.write = .ok flow := by
  have plain : ∀ field ∈ flow.fields, field.Plain := by
    intro field member
    simp only [fields, List.mem_append, Option.mem_toList] at member
    rcases member with (inCounter | inNext) | inHeld
    · exact Field.Plain.uintIfSet (by decide) (by decide)
        (Nat.lt_trans recordable.counter (by decide)) field inCounter
    · rcases Option.map_eq_some_iff.mp inNext with ⟨next, _, rfl⟩
      exact .bytes (by decide) (by decide)
    · exact Field.Plain.bytesIfSet (by decide) (by decide) field inHeld
  have counterReads :
      (Field.uintIfSet 1 flow.counter).foldlM readField empty =
        .ok { empty with counter := flow.counter } := by
    refine foldlM_uintIfSet readField ?_ ?_
    · simp only [readField, Field.number_ofUint,
        Field.uintOrZero_ofUint, Outcome.castTo_of_lt recordable.counter]
      rfl
    · intro isZero
      rw [isZero]
      rfl
  have nextReads :
      (flow.next.map fun next =>
          Field.ofBytes 2 next.bytes).toList.foldlM readField
            { empty with counter := flow.counter } =
        .ok { empty with counter := flow.counter, next := flow.next } := by
    cases flow.next with
    | none => rfl
    | some next =>
        simp only [Option.map_some, Option.toList_some, List.foldlM_cons,
          readField, Field.number_ofBytes, Field.bytesOr_ofBytes,
          Outcome.ok_bind, Block.ofBytes_bytes]
        rfl
  have heldReads :
      (Field.bytesIfSet 3 (Held.bytes flow.held)).foldlM readField
          { empty with counter := flow.counter, next := flow.next } =
        .ok flow := by
    refine foldlM_bytesIfSet readField ?_ ?_
    · have whole :
          ¬ (Held.bytes flow.held).length % Held.entrySize ≠ 0 := by
        rw [Held.length_bytes, Nat.mul_mod_right]
        exact not_not.mpr rfl
      have count :
          (Held.bytes flow.held).length / Held.entrySize =
            flow.held.length := by
        rw [Held.length_bytes]
        exact Nat.mul_div_cancel_left _ (by decide)
      simp only [readField, Field.number_ofBytes, Field.bytesOr_ofBytes,
        Outcome.ok_bind]
      rw [if_neg whole, count, Held.ofBytes_bytes recordable.held]
      rfl
    · intro isEmpty
      have noHeld : flow.held = [] := by
        have length := congrArg List.length isEmpty
        rw [Held.length_bytes, List.length_nil] at length
        exact List.length_eq_zero_iff.mp
          ((Nat.mul_eq_zero.mp length).resolve_left (by decide))
      rcases flow with ⟨counter, next, held⟩
      subst noHeld
      rfl
  rw [← encodeAll_fields] at short ⊢
  rw [read, fold_plain .badRecord readField plain short, fields,
    List.append_assoc, foldlM_append_ok counterReads,
    foldlM_append_ok nextReads, heldReads]

end Flow

/-! ## Epochs -/

namespace Epoch

/-- The record of an epoch: what is sent with, then what is received with. -/
def write (epoch : Epoch) : Bytes :=
  Writer.embed 1 epoch.send.write ++ Writer.embed 2 epoch.recv.write

/-- The two flows, once they have been read. -/
structure Draft where
  send : Option Flow
  recv : Option Flow

/-- Takes in one field of the record. -/
def Draft.read
    (draft : Draft)
    (field : Field) :
    Outcome RatchetError Draft :=
  match field.number with
  | 1 => do
      let data ← field.bytesOr .badRecord
      let send ← Flow.read data
      return { draft with send := some send }
  | 2 => do
      let data ← field.bytesOr .badRecord
      let recv ← Flow.read data
      return { draft with recv := some recv }
  | _ => .ok draft

/-- Reads an epoch; both flows have to be there. -/
def read (data : Bytes) : Outcome RatchetError Epoch := do
  let draft ← fold .badRecord Draft.read data ⟨none, none⟩
  let send ← Outcome.ofOption .badRecord draft.send
  let recv ← Outcome.ofOption .badRecord draft.recv
  return ⟨send, recv⟩

/-- Both flows fit their records. -/
structure Recordable (epoch : Epoch) : Prop where
  send : epoch.send.Recordable
  recv : epoch.recv.Recordable

/-- The fields that `write` writes. -/
def fields (epoch : Epoch) : List Field :=
  [Field.ofBytes 1 epoch.send.write, Field.ofBytes 2 epoch.recv.write]

/-- The record is that of the fields. -/
theorem encodeAll_fields (epoch : Epoch) :
    encodeAll epoch.fields = epoch.write := by
  simp [fields, write, Writer.embed]

/-- An epoch survives its record. -/
theorem read_write
    {epoch : Epoch}
    (recordable : epoch.Recordable)
    (short : epoch.write.length < 2 ^ 64) :
    read epoch.write = .ok epoch := by
  have plain : ∀ field ∈ epoch.fields, field.Plain := by
    intro field member
    simp only [fields, List.mem_cons, List.not_mem_nil, or_false] at member
    rcases member with rfl | rfl <;> exact .bytes (by decide) (by decide)
  rw [← encodeAll_fields] at short ⊢
  have sendShort : epoch.send.write.length < 2 ^ 64 :=
    Nat.lt_of_le_of_lt
      (length_byteValue_le (List.mem_cons_self ..)) short
  have recvShort : epoch.recv.write.length < 2 ^ 64 :=
    Nat.lt_of_le_of_lt
      (length_byteValue_le
        (List.mem_cons_of_mem _ (List.mem_cons_self ..))) short
  rw [read, fold_plain .badRecord Draft.read plain short]
  simp only [fields, List.foldlM_cons, List.foldlM_nil, Draft.read,
    Field.number_ofBytes, Field.bytesOr_ofBytes, Outcome.ok_bind,
    Flow.read_write recordable.send sendShort,
    Flow.read_write recordable.recv recvShort, Outcome.pure_eq,
    Outcome.ofOption_some]

end Epoch

/-! ## Limits -/

namespace Limits

/-- The record of the limits. -/
def write (limits : Limits) : Bytes :=
  Writer.uintIfSet 1 limits.maxJump ++
    Writer.uintIfSet 2 limits.maxSkipped

/-- One turn of either loop that reads limits. -/
def readField
    (limits : Limits)
    (field : Field) :
    Outcome RatchetError Limits :=
  match field.number with
  | 1 => do
      let maxJump ←
        Outcome.ofOption .badRecord (Outcome.castTo 32 field.uintOrZero)
      return { limits with maxJump := maxJump }
  | 2 => do
      let maxSkipped ←
        Outcome.ofOption .badRecord (Outcome.castTo 32 field.uintOrZero)
      return { limits with maxSkipped := maxSkipped }
  | _ => .ok limits

/-- Limits are read over those read before. -/
def readOver
    (limits : Limits)
    (data : Bytes) :
    Outcome RatchetError Limits :=
  fold .badRecord readField data limits

/-- The fields that `write` writes. -/
def fields (limits : Limits) : List Field :=
  Field.uintIfSet 1 limits.maxJump ++
    Field.uintIfSet 2 limits.maxSkipped

/-- The record is that of the fields. -/
theorem encodeAll_fields (limits : Limits) :
    encodeAll limits.fields = limits.write := by
  rw [fields, encodeAll_append, encodeAll_uintIfSet,
    encodeAll_uintIfSet, write]

/-- The limits survive their record. -/
theorem readOver_write
    {limits : Limits}
    (fits : limits.Fits)
    (short : limits.write.length < 2 ^ 64) :
    readOver default limits.write = .ok limits := by
  have plain : ∀ field ∈ limits.fields, field.Plain := by
    intro field member
    rcases List.mem_append.mp member with inJump | inSkipped
    · exact Field.Plain.uintIfSet (by decide) (by decide)
        (Nat.lt_trans fits.jump (by decide)) field inJump
    · exact Field.Plain.uintIfSet (by decide) (by decide)
        (Nat.lt_trans fits.skipped (by decide)) field inSkipped
  have jumpReads :
      (Field.uintIfSet 1 limits.maxJump).foldlM readField default =
        .ok { default with maxJump := limits.maxJump } := by
    refine foldlM_uintIfSet readField ?_ ?_
    · simp only [readField, Field.number_ofUint,
        Field.uintOrZero_ofUint, Outcome.castTo_of_lt fits.jump]
      rfl
    · intro isZero
      rw [isZero]
      rfl
  have skippedReads :
      (Field.uintIfSet 2 limits.maxSkipped).foldlM readField
          { default with maxJump := limits.maxJump } =
        .ok limits := by
    refine foldlM_uintIfSet readField ?_ ?_
    · simp only [readField, Field.number_ofUint,
        Field.uintOrZero_ofUint, Outcome.castTo_of_lt fits.skipped]
      rfl
    · intro isZero
      rcases limits with ⟨maxJump, maxSkipped⟩
      subst isZero
      rfl
  rw [← encodeAll_fields] at short ⊢
  rw [readOver, fold_plain .badRecord readField plain short, fields,
    foldlM_append_ok jumpReads, skippedReads]

end Limits

/-! ## The stream -/

namespace Stream

/-- The record of a stream. -/
def write (stream : Stream) : Bytes :=
  Writer.uintIfSet 1 (sideCode stream.side) ++
    Writer.uintIfSet 2 stream.epoch ++
    (stream.epochs.flatMap fun epoch => Writer.embed 3 epoch.write) ++
    Writer.bytes 4 stream.nextRoot.bytes ++
    Writer.uintIfSet 5 stream.sendEpoch ++
    Writer.embed 6 stream.limits.write

/-- The stream read so far, and whether its limits have been seen. -/
structure Draft where
  stream : Stream
  hasLimits : Bool

/-- What is known before the first field. -/
def Draft.empty : Draft :=
  ⟨⟨.initiator, 0, 0, [], Block.zero 32, Limits.default⟩, false⟩

/-- One turn of the loop that reads a stream. -/
def readField
    (stream : Stream)
    (field : Field) :
    Outcome RatchetError Stream :=
  match field.number with
  | 1 =>
      match field.uintOrZero with
      | 0 => .ok { stream with side := .initiator }
      | 1 => .ok { stream with side := .responder }
      | _ => .error .badRecord
  | 2 => .ok { stream with epoch := field.uintOrZero }
  | 3 => do
      let data ← field.bytesOr .badRecord
      let epoch ← Epoch.read data
      return { stream with epochs := stream.epochs ++ [epoch] }
  | 4 => do
      let data ← field.bytesOr .badRecord
      let nextRoot ← Outcome.ofOption .badRecord (Block.ofBytes 32 data)
      return { stream with nextRoot := nextRoot }
  | 5 => .ok { stream with sendEpoch := field.uintOrZero }
  | 6 => do
      let data ← field.bytesOr .badRecord
      let limits ← stream.limits.readOver data
      return { stream with limits := limits }
  | _ => .ok stream

/-- Takes in one field, and remembers whether the limits were among them. -/
def Draft.read
    (draft : Draft)
    (field : Field) :
    Outcome RatchetError Draft := do
  let stream ← readField draft.stream field
  return ⟨stream, draft.hasLimits || field.number = 6⟩

/-- Reads a stream; the limits have to be there. -/
def read (data : Bytes) : Outcome RatchetError Stream := do
  let draft ← fold .badRecord Draft.read data Draft.empty
  if draft.hasLimits then
    return draft.stream
  else
    .error .badRecord

/-- Every number of the stream fits its record. -/
structure Recordable (stream : Stream) : Prop where
  epoch : stream.epoch < 2 ^ 64
  sendEpoch : stream.sendEpoch < 2 ^ 64
  epochs : ∀ epoch ∈ stream.epochs, epoch.Recordable
  limits : stream.limits.Fits

/-- The fields that `write` writes. -/
def fields (stream : Stream) : List Field :=
  Field.uintIfSet 1 (sideCode stream.side) ++
    (Field.uintIfSet 2 stream.epoch ++
      ((stream.epochs.map fun epoch => Field.ofBytes 3 epoch.write) ++
        ([Field.ofBytes 4 stream.nextRoot.bytes] ++
          (Field.uintIfSet 5 stream.sendEpoch ++
            [Field.ofBytes 6 stream.limits.write]))))

/-- The record is that of the fields. -/
theorem encodeAll_fields (stream : Stream) :
    encodeAll stream.fields = stream.write := by
  have epochs :
      encodeAll (stream.epochs.map fun epoch =>
          Field.ofBytes 3 epoch.write) =
        stream.epochs.flatMap fun epoch =>
          Writer.embed 3 epoch.write := by
    rw [encodeAll, List.flatMap_map]
    rfl
  simp only [fields, encodeAll_append, encodeAll_uintIfSet, epochs,
    encodeAll_cons, encodeAll_nil, Field.encode_ofBytes, List.append_nil,
    write, Writer.embed, List.append_assoc]

/-- Epochs are read in order behind those read before. -/
private theorem readEpochs
    {epochs : List Epoch}
    (recordable : ∀ epoch ∈ epochs, epoch.Recordable)
    (short : ∀ epoch ∈ epochs, epoch.write.length < 2 ^ 64)
    (draft : Draft) :
    (epochs.map fun epoch =>
        Field.ofBytes 3 epoch.write).foldlM Draft.read draft =
      .ok { draft with
        stream :=
          { draft.stream with
            epochs := draft.stream.epochs ++ epochs } } := by
  induction epochs generalizing draft with
  | nil =>
      simp only [List.map_nil, List.foldlM_nil, List.append_nil]
      rfl
  | cons epoch rest inductionHypothesis =>
      have reads :
          draft.read (Field.ofBytes 3 epoch.write) =
            .ok { draft with
              stream :=
                { draft.stream with
                  epochs := draft.stream.epochs ++ [epoch] } } := by
        simp only [Draft.read, readField, Field.number_ofBytes,
          Field.bytesOr_ofBytes, Outcome.ok_bind,
          Epoch.read_write (recordable epoch (List.mem_cons_self ..))
            (short epoch (List.mem_cons_self ..)), Outcome.pure_eq]
        simp
      rw [List.map_cons, List.foldlM_cons, reads, Outcome.ok_bind,
        inductionHypothesis
          (fun other member =>
            recordable other (List.mem_cons_of_mem _ member))
          (fun other member =>
            short other (List.mem_cons_of_mem _ member))]
      simp only [List.append_assoc, List.singleton_append]

/-- What a stream writes reads back. -/
theorem read_write
    {stream : Stream}
    (recordable : stream.Recordable)
    (short : stream.write.length < 2 ^ 64) :
    read stream.write = .ok stream := by
  have plain : ∀ field ∈ stream.fields, field.Plain := by
    intro field member
    simp only [fields, List.mem_append, List.mem_singleton] at member
    rcases member with inSide | inEpoch | inEpochs | rfl | inSend | rfl
    · exact Field.Plain.uintIfSet (by decide) (by decide)
        (by cases stream.side <;> decide) field inSide
    · exact Field.Plain.uintIfSet (by decide) (by decide)
        recordable.epoch field inEpoch
    · rcases List.mem_map.mp inEpochs with ⟨epoch, _, rfl⟩
      exact .bytes (by decide) (by decide)
    · exact .bytes (by decide) (by decide)
    · exact Field.Plain.uintIfSet (by decide) (by decide)
        recordable.sendEpoch field inSend
    · exact .bytes (by decide) (by decide)
  rw [← encodeAll_fields] at short ⊢
  have epochsShort :
      ∀ epoch ∈ stream.epochs, epoch.write.length < 2 ^ 64 := by
    intro epoch member
    refine Nat.lt_of_le_of_lt (@length_byteValue_le _ 3 _ ?_) short
    simp only [fields, List.mem_append, List.mem_map]
    exact Or.inr (Or.inr (Or.inl ⟨epoch, member, rfl⟩))
  have limitsShort : stream.limits.write.length < 2 ^ 64 := by
    refine Nat.lt_of_le_of_lt (@length_byteValue_le _ 6 _ ?_) short
    simp only [fields, List.mem_append, List.mem_singleton]
    simp
  rcases stream with
    ⟨side, epoch, sendEpoch, epochs, nextRoot, limits⟩
  have sideReads :
      (Field.uintIfSet 1 (sideCode side)).foldlM Draft.read Draft.empty =
        .ok ⟨⟨side, 0, 0, [], Block.zero 32, Limits.default⟩, false⟩ := by
    cases side <;> rfl
  have epochReads :
      (Field.uintIfSet 2 epoch).foldlM Draft.read
          ⟨⟨side, 0, 0, [], Block.zero 32, Limits.default⟩, false⟩ =
        .ok ⟨⟨side, epoch, 0, [], Block.zero 32, Limits.default⟩,
          false⟩ := by
    refine foldlM_uintIfSet Draft.read rfl ?_
    intro isZero
    rw [isZero]
  have rootReads :
      [Field.ofBytes 4 nextRoot.bytes].foldlM Draft.read
          ⟨⟨side, epoch, 0, epochs, Block.zero 32, Limits.default⟩,
            false⟩ =
        .ok ⟨⟨side, epoch, 0, epochs, nextRoot, Limits.default⟩,
          false⟩ := by
    simp only [List.foldlM_cons, List.foldlM_nil, Draft.read, readField,
      Field.number_ofBytes, Field.bytesOr_ofBytes, Outcome.ok_bind,
      Block.ofBytes_bytes, Outcome.ofOption_some, Outcome.pure_eq]
    rfl
  have sendReads :
      (Field.uintIfSet 5 sendEpoch).foldlM Draft.read
          ⟨⟨side, epoch, 0, epochs, nextRoot, Limits.default⟩, false⟩ =
        .ok ⟨⟨side, epoch, sendEpoch, epochs, nextRoot, Limits.default⟩,
          false⟩ := by
    refine foldlM_uintIfSet Draft.read rfl ?_
    intro isZero
    rw [isZero]
  have limitsRead :
      [Field.ofBytes 6 limits.write].foldlM Draft.read
          ⟨⟨side, epoch, sendEpoch, epochs, nextRoot, Limits.default⟩,
            false⟩ =
        .ok ⟨⟨side, epoch, sendEpoch, epochs, nextRoot, limits⟩,
          true⟩ := by
    simp only [List.foldlM_cons, List.foldlM_nil, Draft.read, readField,
      Field.number_ofBytes, Field.bytesOr_ofBytes, Outcome.ok_bind,
      Limits.readOver_write recordable.limits limitsShort,
      Outcome.pure_eq]
    rfl
  have epochsRead :
      (epochs.map fun epoch =>
          Field.ofBytes 3 epoch.write).foldlM Draft.read
          ⟨⟨side, epoch, 0, [], Block.zero 32, Limits.default⟩, false⟩ =
        .ok ⟨⟨side, epoch, 0, epochs, Block.zero 32, Limits.default⟩,
          false⟩ :=
    readEpochs recordable.epochs epochsShort _
  rw [read, fold_plain .badRecord Draft.read plain short, fields,
    foldlM_append_ok sideReads, foldlM_append_ok epochReads,
    foldlM_append_ok epochsRead, foldlM_append_ok rootReads,
    foldlM_append_ok sendReads, limitsRead]
  rfl

end Stream

end Gossveil.KeyStream
