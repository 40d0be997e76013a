import Gossveil.Address
import Gossveil.CodecTraps
import Gossveil.Keys

namespace Gossveil.Ratchet

open Codec

/-!
# The two messages of a session

`Whisper` is the ratchet message, under a MAC over both identities; `Opener`
wraps the handshake material of a first message around it.  Both parse their
own bytes back once they are built.
-/

/-! ## Versions -/

/-- The versions whose messages parse back. -/
def Frame.Known (version : Nat) : Prop :=
  version % 16 = 3 ∨ version % 16 = 4

/-- The version of a byte that was made from one. -/
theorem messageVersion_versionByte (version : Nat) :
    Frame.messageVersion (Frame.versionByte (version % 16)) =
      if version % 16 < 3 then .error .legacyVersion
      else if 4 < version % 16 then .error .unknownVersion
      else .ok (version % 16) := by
  have nibble :
      (Frame.versionByte (version % 16)).toNat / 16 = version % 16 := by
    simp only [Frame.versionByte, Frame.currentVersion, UInt8.toNat_ofNat']
    omega
  rw [Frame.messageVersion, nibble]
  rfl

/-! ## The ratchet message -/

/-- The bytes of a message's tag. -/
def macLength : Nat := 8

/-- The two addresses a message is bound to. -/
structure Binding where
  sender : Address
  recipient : Address
  deriving DecidableEq

/-- Both names have to be account identifiers for a binding to exist at all. -/
def encodeBinding (binding : Binding) : Option (Block 36) :=
  match ServiceId.parse binding.sender.name,
      ServiceId.parse binding.recipient.name with
  | .ok sender, .ok recipient =>
      some ⟨sender.fixed.bytes ++ UInt8.ofNat binding.sender.device ::
        (recipient.fixed.bytes ++ [UInt8.ofNat binding.recipient.device]),
        by simp⟩
  | _, _ => none

/-- A parsed message is long enough for its version byte and its tag. -/
structure Whisper where
  version : Nat
  ratchet : Curve.Public
  index : Nat
  previousIndex : Nat
  body : Bytes
  pqPacket : Bytes
  binding : Option (Block 36)
  bytes : Bytes
  longEnough : 1 + macLength ≤ bytes.length
  deriving DecidableEq

namespace Whisper

/-- What the fields of a message have said so far. -/
structure Draft where
  ratchet : Option Curve.Public
  index : Option Nat
  previousIndex : Nat
  body : Option Bytes
  pqPacket : Bytes
  binding : Option (Block 36)

/-- What is known before the first field. -/
def Draft.empty : Draft :=
  ⟨none, none, 0, none, [], none⟩

/-- One turn of the parsing loop. -/
def Draft.read (draft : Draft) (field : Field) : Outcome Fault Draft :=
  match field.number with
  | 1 => do
      let data ← field.bytesOr .badMessage
      let ratchet ← Curve.Public.parse data
      return { draft with ratchet := some ratchet }
  | 2 => do
      let index ← field.uint32 .badMessage
      return { draft with index := some index }
  | 3 => do
      let index ← field.uint32 .badMessage
      return { draft with previousIndex := index }
  | 4 => .ok { draft with body := field.bytes }
  | 5 => .ok { draft with pqPacket := field.bytes.getD [] }
  | 6 => do
      let binding ← field.block .badMessage 36
      return { draft with binding := some binding }
  | _ => .ok draft

/-- A message has a ratchet key, an index and a body. -/
def Draft.finish
    (draft : Draft)
    (version : Nat)
    (bytes : Bytes)
    (longEnough : 1 + macLength ≤ bytes.length) :
    Outcome Fault Whisper := do
  let ratchet ← Outcome.ofOption .badMessage draft.ratchet
  let index ← Outcome.ofOption .badMessage draft.index
  let body ← Outcome.ofOption .badMessage draft.body
  return ⟨version, ratchet, index, draft.previousIndex, body,
    draft.pqPacket, draft.binding, bytes, longEnough⟩

/-- The content lies between the version byte and the tag. -/
def parse (data : Bytes) : Outcome Fault Whisper :=
  if longEnough : 1 + macLength ≤ data.length then do
    let version ← Frame.messageVersion (data.getD 0 0)
    let content := (data.take (data.length - macLength)).tail
    let draft ← Codec.fold .badMessage Draft.read content Draft.empty
    draft.finish version data longEnough
  else
    .error .badMessage

/-- What a message is sealed from. -/
structure Seal where
  version : Nat
  macKey : Block 32
  binding : Option Binding
  ratchet : Curve.Public
  index : Nat
  previousIndex : Nat
  body : Bytes
  sender : Curve.Public
  recipient : Curve.Public
  pqPacket : Bytes
  deriving DecidableEq

/-- The bytes of the addresses, if both have a service id. -/
def Seal.bound (parts : Seal) : Option (Block 36) :=
  parts.binding.bind encodeBinding

/-- The message before its tag. -/
def Seal.content (parts : Seal) : Bytes :=
  Frame.versionByte (parts.version % 16) ::
    (Writer.bytes 1 parts.ratchet.serialize ++
      Writer.uint 2 parts.index ++
      Writer.uint 3 parts.previousIndex ++
      Writer.bytes 4 parts.body ++
      Writer.bytesIfSet 5 parts.pqPacket ++
      (match parts.bound with
        | some bound => Writer.bytes 6 bound.bytes
        | none => []))

section Macs

variable [Hashes]

/-- The code over both identities and the content. -/
def mac
    (sender recipient : Curve.Public)
    (key : Block 32)
    (content : Bytes) :
    Block 32 :=
  Hashes.hmac key.bytes (sender.serialize ++ recipient.serialize ++ content)

/-- The first eight bytes of the code. -/
def tag
    (sender recipient : Curve.Public)
    (key : Block 32)
    (content : Bytes) :
    Block 8 :=
  (mac sender recipient key content).slice 0 8 (by decide)

/-- The content with its tag behind it. -/
def Seal.encode (parts : Seal) : Bytes :=
  parts.content ++
    (tag parts.sender parts.recipient parts.macKey parts.content).bytes

/-- The message is built and parsed back. -/
def «seal» (parts : Seal) : Outcome Fault Whisper :=
  parse parts.encode

/-- Checks the last eight bytes against all before them. -/
def checkMac
    (message : Whisper)
    (sender recipient : Curve.Public)
    (key : Block 32) :
    Bool :=
  let limit := message.bytes.length - macLength
  tag sender recipient key (message.bytes.take limit) =
    Block.last 8 message.bytes
      (Nat.le_trans (Nat.le_add_left 8 1) message.longEnough)

end Macs

/--
A message that binds addresses has to name ours; one that binds none is
accepted as is.
-/
def checkBinding (message : Whisper) (localNames : Option Binding) : Bool :=
  match message.binding, localNames with
  | none, _ => true
  | _, none => true
  | some bound, some ours => encodeBinding ours = some bound

/-! ### Reading back -/

/-- The fields of the content. -/
def Seal.fields (parts : Seal) : List Field :=
  [Field.ofBytes 1 parts.ratchet.serialize,
      Field.ofUint 2 parts.index,
      Field.ofUint 3 parts.previousIndex,
      Field.ofBytes 4 parts.body] ++
    (Field.bytesIfSet 5 parts.pqPacket ++
      (parts.bound.map fun bound => Field.ofBytes 6 bound.bytes).toList)

/-- The content is the version and the fields. -/
theorem Seal.content_eq (parts : Seal) :
    parts.content =
      Frame.versionByte (parts.version % 16) :: encodeAll parts.fields := by
  cases isBound : parts.bound <;> simp [content, fields, isBound]

/-- The integers fit their types and the message fits a slice. -/
structure Seal.Fits (parts : Seal) : Prop where
  index : parts.index < 2 ^ 32
  previousIndex : parts.previousIndex < 2 ^ 32
  short : parts.content.length < 2 ^ 64

/-- The fields of the content read back. -/
theorem Seal.fold_fields
    {parts : Seal}
    (fits : parts.Fits) :
    Codec.fold Fault.badMessage Draft.read (encodeAll parts.fields)
        Draft.empty =
      .ok ⟨some parts.ratchet, some parts.index, parts.previousIndex,
        some parts.body, parts.pqPacket, parts.bound⟩ := by
  have plain : ∀ field ∈ parts.fields, field.Plain := by
    simp only [fields, List.forall_mem_append]
    refine ⟨?_, Field.Plain.bytesIfSet (by decide) (by decide),
      Field.Plain.option fun _ _ => .bytes (by decide) (by decide)⟩
    intro field member
    simp only [List.mem_cons, List.not_mem_nil, or_false] at member
    rcases member with rfl | rfl | rfl | rfl
    · exact .bytes (by decide) (by decide)
    · exact .uint (by decide) (by decide)
        (Nat.lt_trans fits.index (by decide))
    · exact .uint (by decide) (by decide)
        (Nat.lt_trans fits.previousIndex (by decide))
    · exact .bytes (by decide) (by decide)
  have short : (encodeAll parts.fields).length < 2 ^ 64 := by
    have whole := fits.short
    rw [content_eq, List.length_cons] at whole
    exact Nat.lt_trans (Nat.lt_succ_self _) whole
  have partsRead :
      [Field.ofBytes 1 parts.ratchet.serialize,
          Field.ofUint 2 parts.index,
          Field.ofUint 3 parts.previousIndex,
          Field.ofBytes 4 parts.body].foldlM Draft.read Draft.empty =
        .ok ⟨some parts.ratchet, some parts.index, parts.previousIndex,
          some parts.body, [], none⟩ := by
    simp [Draft.read, Draft.empty, Field.uint32_ofUint _ _ _ fits.index,
      Field.uint32_ofUint _ _ _ fits.previousIndex]
  have packetReads :
      (Field.bytesIfSet 5 parts.pqPacket).foldlM Draft.read
          ⟨some parts.ratchet, some parts.index, parts.previousIndex,
            some parts.body, [], none⟩ =
        .ok ⟨some parts.ratchet, some parts.index, parts.previousIndex,
          some parts.body, parts.pqPacket, none⟩ := by
    apply foldlM_bytesIfSet
    · simp [Draft.read]
    · intro isEmpty
      rw [isEmpty]
  have boundReads :
      (parts.bound.map fun bound =>
          Field.ofBytes 6 bound.bytes).toList.foldlM Draft.read
          ⟨some parts.ratchet, some parts.index, parts.previousIndex,
            some parts.body, parts.pqPacket, none⟩ =
        .ok ⟨some parts.ratchet, some parts.index, parts.previousIndex,
          some parts.body, parts.pqPacket, parts.bound⟩ := by
    apply foldlM_option Draft.read _
      (fun bound => ⟨some parts.ratchet, some parts.index,
        parts.previousIndex, some parts.body, parts.pqPacket, bound⟩)
    · intro bound _
      simp [Draft.read]
    · rfl
  rw [fold_plain _ Draft.read plain short, fields,
    foldlM_append_ok partsRead, foldlM_append_ok packetReads, boundReads]

section Sealing

variable [Hashes]

/-- A sealed message has room for its version and its tag. -/
theorem Seal.longEnough (parts : Seal) :
    1 + macLength ≤ parts.encode.length := by
  simp only [encode, content_eq, List.length_append, List.length_cons,
    Block.length_eq, macLength]
  omega

theorem Seal.head_encode (parts : Seal) :
    parts.encode.getD 0 0 = Frame.versionByte (parts.version % 16) := by
  rw [encode, content_eq]
  rfl

/-- A message of a version the format knows parses back to its parts. -/
theorem seal_eq_ok
    {parts : Seal}
    (fits : parts.Fits)
    {version : Nat}
    (known :
      Frame.messageVersion (Frame.versionByte (parts.version % 16)) =
        .ok version) :
    «seal» parts =
      .ok ⟨version, parts.ratchet, parts.index, parts.previousIndex,
        parts.body, parts.pqPacket, parts.bound, parts.encode,
        parts.longEnough⟩ := by
  have content :
      (parts.encode.take (parts.encode.length - macLength)).tail =
        encodeAll parts.fields := by
    have length :
        parts.encode.length - macLength = parts.content.length := by
      simp [Seal.encode, macLength]
    rw [length, Seal.encode, List.take_left, Seal.content_eq]
    rfl
  unfold «seal» parse
  rw [dif_pos parts.longEnough, parts.head_encode, known, content,
    Outcome.ok_bind]
  simp [Seal.fold_fields fits, Draft.finish]

/-- A message of a version the format does not know is refused. -/
theorem seal_eq_error
    {parts : Seal}
    {fault : Fault}
    (unknown :
      Frame.messageVersion (Frame.versionByte (parts.version % 16)) =
        .error fault) :
    «seal» parts = .error fault := by
  unfold «seal» parse
  rw [dif_pos parts.longEnough, parts.head_encode, unknown]
  rfl

end Sealing

end Whisper

/-! ## The first message -/

/-- The inner ratchet message is still serialised. -/
structure Opener where
  version : Nat
  registrationId : Nat
  oneTimeId : Option Nat
  signedId : Nat
  pqId : Option Nat
  capsule : Option Bytes
  base : Curve.Public
  identity : Curve.Public
  inner : Bytes
  bytes : Bytes
  deriving DecidableEq

namespace Opener

/-- What the fields of a first message have said so far. -/
structure Draft where
  registrationId : Nat
  oneTimeId : Option Nat
  signedId : Option Nat
  pqId : Option Nat
  capsule : Option Bytes
  base : Option Curve.Public
  identity : Option Curve.Public
  inner : Option Bytes

/-- What is known before the first field. -/
def Draft.empty : Draft :=
  ⟨0, none, none, none, none, none, none, none⟩

/-- Takes in one field of the message. -/
def Draft.read (draft : Draft) (field : Field) : Outcome Fault Draft :=
  match field.number with
  | 1 => do
      let id ← field.uint32 .badMessage
      return { draft with oneTimeId := some id }
  | 2 => do
      let data ← field.bytesOr .badMessage
      let base ← Curve.Public.parse data
      return { draft with base := some base }
  | 3 => do
      let data ← field.bytesOr .badMessage
      let identity ← Curve.Public.parse data
      return { draft with identity := some identity }
  | 4 => .ok { draft with inner := field.bytes }
  | 5 => do
      let id ← field.uint32 .badMessage
      return { draft with registrationId := id }
  | 6 => do
      let id ← field.uint32 .badMessage
      return { draft with signedId := some id }
  | 7 => do
      let id ← field.uint32 .badMessage
      return { draft with pqId := some id }
  | 8 => .ok { draft with capsule := field.bytes }
  | _ => .ok draft

/-- The capsule and its key's id come together; only the oldest version has neither. -/
def Draft.finish
    (draft : Draft)
    (version : Nat)
    (bytes : Bytes) :
    Outcome Fault Opener := do
  let base ← Outcome.ofOption .badMessage draft.base
  let identity ← Outcome.ofOption .badMessage draft.identity
  let inner ← Outcome.ofOption .badMessage draft.inner
  let signedId ← Outcome.ofOption .badMessage draft.signedId
  Outcome.require .badMessage (draft.pqId.isNone = draft.capsule.isNone)
  Outcome.require .badMessage
    (¬ (draft.pqId = none ∧ Frame.oldestVersion < version))
  return ⟨version, draft.registrationId, draft.oneTimeId, signedId,
    draft.pqId, draft.capsule, base, identity, inner, bytes⟩

/-- Reads a first message: the version, then its fields. -/
def parse (data : Bytes) : Outcome Fault Opener :=
  match data with
  | [] => .error .badMessage
  | first :: content => do
      let version ← Frame.messageVersion first
      let draft ← Codec.fold .badMessage Draft.read content Draft.empty
      draft.finish version data

/-- What a first message is made of. -/
structure Wrap where
  version : Nat
  registrationId : Nat
  oneTimeId : Option Nat
  signedId : Nat
  pqId : Nat
  capsule : Bytes
  base : Curve.Public
  identity : Curve.Public
  inner : Bytes
  deriving DecidableEq

/-- The version, then the fields. -/
def Wrap.encode (parts : Wrap) : Bytes :=
  Frame.versionByte (parts.version % 16) ::
    ((match parts.oneTimeId with
        | some id => Writer.uint 1 id
        | none => []) ++
      Writer.bytes 2 parts.base.serialize ++
      Writer.bytes 3 parts.identity.serialize ++
      Writer.bytes 4 parts.inner ++
      Writer.uint 5 parts.registrationId ++
      Writer.uint 6 parts.signedId ++
      Writer.uint 7 parts.pqId ++
      Writer.bytes 8 parts.capsule)

/-- `Opener.wrap`: the message is built and parsed back. -/
def wrap (parts : Wrap) : Outcome Fault Opener :=
  parse parts.encode

/-! ### Reading back -/

/-- The fields that `encode` writes. -/
def Wrap.fields (parts : Wrap) : List Field :=
  (parts.oneTimeId.map (Field.ofUint 1)).toList ++
    [Field.ofBytes 2 parts.base.serialize,
      Field.ofBytes 3 parts.identity.serialize,
      Field.ofBytes 4 parts.inner,
      Field.ofUint 5 parts.registrationId,
      Field.ofUint 6 parts.signedId,
      Field.ofUint 7 parts.pqId,
      Field.ofBytes 8 parts.capsule]

/-- A first message is the version and the fields. -/
theorem Wrap.encode_eq (parts : Wrap) :
    parts.encode =
      Frame.versionByte (parts.version % 16) :: encodeAll parts.fields := by
  cases isId : parts.oneTimeId <;> simp [encode, fields, isId]

/-- The ids fit the message, and the message fits a slice. -/
structure Wrap.Fits (parts : Wrap) : Prop where
  oneTimeId : ∀ id, parts.oneTimeId = some id → id < 2 ^ 32
  registrationId : parts.registrationId < 2 ^ 32
  signedId : parts.signedId < 2 ^ 32
  pqId : parts.pqId < 2 ^ 32
  short : parts.encode.length < 2 ^ 64

/-- The fields of a first message read back. -/
theorem Wrap.fold_fields
    {parts : Wrap}
    (fits : parts.Fits) :
    Codec.fold Fault.badMessage Draft.read (encodeAll parts.fields)
        Draft.empty =
      .ok ⟨parts.registrationId, parts.oneTimeId, some parts.signedId,
        some parts.pqId, some parts.capsule, some parts.base,
        some parts.identity, some parts.inner⟩ := by
  have widen : ∀ {value : Nat}, value < 2 ^ 32 → value < 2 ^ 64 :=
    fun small => Nat.lt_trans small (by decide)
  have plain : ∀ field ∈ parts.fields, field.Plain := by
    simp only [fields, List.forall_mem_append]
    constructor
    · apply Field.Plain.option
      intro id isId
      exact .uint (by decide) (by decide) (widen (fits.oneTimeId id isId))
    · intro field member
      simp only [List.mem_cons, List.not_mem_nil, or_false] at member
      rcases member with rfl | rfl | rfl | rfl | rfl | rfl | rfl
      · exact .bytes (by decide) (by decide)
      · exact .bytes (by decide) (by decide)
      · exact .bytes (by decide) (by decide)
      · exact .uint (by decide) (by decide) (widen fits.registrationId)
      · exact .uint (by decide) (by decide) (widen fits.signedId)
      · exact .uint (by decide) (by decide) (widen fits.pqId)
      · exact .bytes (by decide) (by decide)
  have short : (encodeAll parts.fields).length < 2 ^ 64 := by
    have whole := fits.short
    rw [encode_eq, List.length_cons] at whole
    exact Nat.lt_trans (Nat.lt_succ_self _) whole
  have idReads :
      (parts.oneTimeId.map (Field.ofUint 1)).toList.foldlM Draft.read
          Draft.empty =
        .ok ⟨0, parts.oneTimeId, none, none, none, none, none, none⟩ := by
    apply foldlM_option Draft.read _
      (fun id => ⟨0, id, none, none, none, none, none, none⟩)
    · intro id isId
      simp [Draft.read, Draft.empty,
        Field.uint32_ofUint _ _ _ (fits.oneTimeId id isId)]
    · rfl
  rw [fold_plain _ Draft.read plain short, fields, foldlM_append_ok idReads]
  simp [Draft.read, Field.uint32_ofUint _ _ _ fits.registrationId,
    Field.uint32_ofUint _ _ _ fits.signedId,
    Field.uint32_ofUint _ _ _ fits.pqId]

/-- A first message of a version the format knows parses back to its parts. -/
theorem wrap_eq_ok
    {parts : Wrap}
    (fits : parts.Fits)
    {version : Nat}
    (known :
      Frame.messageVersion (Frame.versionByte (parts.version % 16)) =
        .ok version) :
    wrap parts =
      .ok ⟨version, parts.registrationId, parts.oneTimeId, parts.signedId,
        some parts.pqId, some parts.capsule, parts.base, parts.identity,
        parts.inner, parts.encode⟩ := by
  unfold wrap
  rw [Wrap.encode_eq, parse, known, Outcome.ok_bind,
    Wrap.fold_fields fits]
  simp [Draft.finish, Outcome.require]

end Opener

end Gossveil.Ratchet
