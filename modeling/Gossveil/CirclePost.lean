import Gossveil.CodecRoundTrip
import Gossveil.Keys

namespace Gossveil.Circle

open Codec

/-!
# The two group messages

`Announce` hands members a sender's chain and signing key; `Note` carries one
sealed message under that sender's signature.  A parsed message keeps its
bytes; the indices it carries fit the source's 32-bit fields.
-/

namespace Post

/-- The one version of circle messages. -/
def version : Nat := 3

/-- The version in the high half of a byte, if it is that one. -/
def versionOf (byte : UInt8) : Outcome Fault Nat :=
  let found := byte.toNat / 16
  if found < version then
    .error .legacyVersion
  else if version < found then
    .error .unknownVersion
  else
    .ok found

/-- `((v & 0xF) << 4) | version`. -/
def versionByte (messageVersion : Nat) : UInt8 :=
  UInt8.ofNat (messageVersion % 16 * 16 + version)

/-- Only the one version is read. -/
theorem versionOf_eq_ok
    {byte : UInt8}
    {found : Nat}
    (read : versionOf byte = .ok found) :
    found = version := by
  simp only [versionOf] at read
  split_ifs at read with older newer
  cases read
  omega

@[simp] theorem versionOf_versionByte :
    versionOf (versionByte version) = .ok version := by
  decide

end Post

/-- The announcement of a chain to the others of a circle. -/
structure Announce where
  version : Nat
  circleId : Block 16
  chainId : Nat
  step : Nat
  seed : Block 32
  signing : Curve.Public
  bytes : Bytes
  deriving DecidableEq

namespace Announce

/-- The fields read so far. -/
structure Draft where
  circleId : Option (Block 16)
  chainId : Option Nat
  step : Option Nat
  seed : Option (Block 32)
  signing : Option Curve.Public

/-- What is known before the first field. -/
def Draft.empty : Draft :=
  ⟨none, none, none, none, none⟩

/-- One turn of the parsing loop. -/
def Draft.read (draft : Draft) (field : Field) : Outcome Fault Draft :=
  match field.number with
  | 1 => do
      let circleId ← field.block .badMessage 16
      return { draft with circleId := some circleId }
  | 2 => do
      let chainId ← field.uint32 .badMessage
      return { draft with chainId := some chainId }
  | 3 => do
      let step ← field.uint32 .badMessage
      return { draft with step := some step }
  | 4 => do
      let seed ← field.block .badMessage 32
      return { draft with seed := some seed }
  | 5 => do
      let data ← field.bytesOr .badMessage
      let signing ← Curve.Public.parse data
      return { draft with signing := some signing }
  | _ => .ok draft

/-- Every field but the bytes themselves has to be present. -/
def Draft.finish
    (draft : Draft)
    (version : Nat)
    (bytes : Bytes) :
    Outcome Fault Announce := do
  let circleId ← Outcome.ofOption .badMessage draft.circleId
  let chainId ← Outcome.ofOption .badMessage draft.chainId
  let step ← Outcome.ofOption .badMessage draft.step
  let seed ← Outcome.ofOption .badMessage draft.seed
  let signing ← Outcome.ofOption .badMessage draft.signing
  return ⟨version, circleId, chainId, step, seed, signing, bytes⟩

/-- Reads an announcement: the version, then its fields. -/
def parse (data : Bytes) : Outcome Fault Announce :=
  match data with
  | [] => .error .badMessage
  | first :: content => do
      let version ← Post.versionOf first
      let draft ← Codec.fold .badMessage Draft.read content Draft.empty
      draft.finish version data

/-- The fields `make` writes after the version byte. -/
def fields
    (circleId : Block 16)
    (chainId step : Nat)
    (seed : Block 32)
    (signing : Curve.Public) :
    List Field :=
  [Field.ofBytes 1 circleId.bytes,
    Field.ofUint 2 chainId,
    Field.ofUint 3 step,
    Field.ofBytes 4 seed.bytes,
    Field.ofBytes 5 signing.serialize]

/-- The version, then the fields. -/
def encode
    (version : Nat)
    (circleId : Block 16)
    (chainId step : Nat)
    (seed : Block 32)
    (signing : Curve.Public) :
    Bytes :=
  Post.versionByte version ::
    (Writer.bytes 1 circleId.bytes ++ Writer.uint 2 chainId ++
      Writer.uint 3 step ++ Writer.bytes 4 seed.bytes ++
      Writer.bytes 5 signing.serialize)

/-- The message is built and parsed back. -/
def make
    (version : Nat)
    (circleId : Block 16)
    (chainId step : Nat)
    (seed : Block 32)
    (signing : Curve.Public) :
    Outcome Fault Announce :=
  parse (encode version circleId chainId step seed signing)

/-- An announcement is the version and the fields. -/
theorem encode_eq
    (version : Nat)
    (circleId : Block 16)
    (chainId step : Nat)
    (seed : Block 32)
    (signing : Curve.Public) :
    encode version circleId chainId step seed signing =
      Post.versionByte version ::
        encodeAll (fields circleId chainId step seed signing) := by
  simp [encode, fields]

/-- Every field of an announcement can be written. -/
theorem fields_written
    (circleId : Block 16)
    {chainId step : Nat}
    (seed : Block 32)
    (signing : Curve.Public)
    (chainFits : chainId < 2 ^ 32)
    (stepFits : step < 2 ^ 32) :
    ∀ field ∈ fields circleId chainId step seed signing,
      field.Written := by
  intro field member
  simp only [fields, List.mem_cons, List.not_mem_nil, or_false] at member
  rcases member with rfl | rfl | rfl | rfl | rfl
  · exact .bytes (by decide) (by decide) (by simp)
  · exact .uint (by decide) (by decide) (by omega)
  · exact .uint (by decide) (by decide) (by omega)
  · exact .bytes (by decide) (by decide) (by simp)
  · exact .bytes (by decide) (by decide)
      (by simp [Curve.serializedLength])

/-- An announcement of the current version parses back to its fields. -/
theorem make_eq_ok
    (circleId : Block 16)
    {chainId step : Nat}
    (seed : Block 32)
    (signing : Curve.Public)
    (chainFits : chainId < 2 ^ 32)
    (stepFits : step < 2 ^ 32) :
    make Post.version circleId chainId step seed signing =
      .ok ⟨Post.version, circleId, chainId, step, seed, signing,
        encode Post.version circleId chainId step seed signing⟩ := by
  have folded :
      Codec.fold Fault.badMessage Draft.read
          (encodeAll (fields circleId chainId step seed signing))
          Draft.empty =
        .ok ⟨circleId, chainId, step, seed, signing⟩ := by
    rw [fold_encodeAll _ _
      (fields_written circleId seed signing chainFits stepFits)]
    simp [fields, Draft.read, Draft.empty,
      Field.uint32_ofUint _ _ _ chainFits,
      Field.uint32_ofUint _ _ _ stepFits]
  rw [make, encode_eq, parse]
  simp [folded, Draft.finish]

/-- The indices of a draft fit their fields. -/
def Draft.Fits (draft : Draft) : Prop :=
  (∀ chainId ∈ draft.chainId, chainId < 2 ^ 32) ∧
    ∀ step ∈ draft.step, step < 2 ^ 32

theorem Draft.read_fits
    {draft next : Draft}
    {field : Field}
    (before : draft.Fits)
    (read : draft.read field = .ok next) :
    next.Fits := by
  unfold Draft.read at read
  split at read
  · rcases Outcome.bind_eq_ok.mp read with ⟨_, _, done⟩
    cases done
    exact before
  · rcases Outcome.bind_eq_ok.mp read with ⟨_, found, done⟩
    cases done
    exact ⟨by simpa using Field.uint32_lt found, before.2⟩
  · rcases Outcome.bind_eq_ok.mp read with ⟨_, found, done⟩
    cases done
    exact ⟨before.1, by simpa using Field.uint32_lt found⟩
  · rcases Outcome.bind_eq_ok.mp read with ⟨_, _, done⟩
    cases done
    exact before
  · rcases Outcome.bind_eq_ok.mp read with ⟨_, _, rest⟩
    rcases Outcome.bind_eq_ok.mp rest with ⟨_, _, done⟩
    cases done
    exact before
  · cases read
    exact before

/-- What a parsed announcement is known to satisfy. -/
structure Parsed (announcement : Announce) : Prop where
  version : announcement.version = Post.version
  chainFits : announcement.chainId < 2 ^ 32
  stepFits : announcement.step < 2 ^ 32

/-- What is parsed is in range. -/
theorem parse_parsed
    {data : Bytes}
    {announcement : Announce}
    (read : parse data = .ok announcement) :
    announcement.Parsed := by
  unfold parse at read
  split at read
  · cases read
  · rcases Outcome.bind_eq_ok.mp read with ⟨version, versioned, rest⟩
    rcases Outcome.bind_eq_ok.mp rest with ⟨draft, folded, finished⟩
    have fits : draft.Fits :=
      fold_preserves Draft.read_fits
        (by simp [Draft.Fits, Draft.empty]) folded
    simp only [Draft.finish, Outcome.bind_eq_ok,
      Outcome.ofOption_eq_ok] at finished
    rcases finished with
      ⟨_, _, chainId, chainFound, step, stepFound, _, _, _, _, done⟩
    cases done
    exact ⟨Post.versionOf_eq_ok versioned, fits.1 chainId chainFound,
      fits.2 step stepFound⟩

end Announce

/-- A parsed note is long enough for its version byte and its signature. -/
structure Note where
  version : Nat
  circleId : Block 16
  chainId : Nat
  step : Nat
  body : Bytes
  bytes : Bytes
  longEnough : 1 + Curve.signatureLength ≤ bytes.length
  deriving DecidableEq

namespace Note

/-- What the fields of a note have said so far. -/
structure Draft where
  circleId : Option (Block 16)
  chainId : Option Nat
  step : Option Nat
  body : Option Bytes

/-- What is known before the first field. -/
def Draft.empty : Draft :=
  ⟨none, none, none, none⟩

/-- Takes in one field of the note. -/
def Draft.read (draft : Draft) (field : Field) : Outcome Fault Draft :=
  match field.number with
  | 1 => do
      let circleId ← field.block .badMessage 16
      return { draft with circleId := some circleId }
  | 2 => do
      let chainId ← field.uint32 .badMessage
      return { draft with chainId := some chainId }
  | 3 => do
      let step ← field.uint32 .badMessage
      return { draft with step := some step }
  | 4 => .ok { draft with body := field.bytes }
  | _ => .ok draft

/-- A note has all of its fields. -/
def Draft.finish
    (draft : Draft)
    (version : Nat)
    (bytes : Bytes)
    (longEnough : 1 + Curve.signatureLength ≤ bytes.length) :
    Outcome Fault Note := do
  let circleId ← Outcome.ofOption .badMessage draft.circleId
  let chainId ← Outcome.ofOption .badMessage draft.chainId
  let step ← Outcome.ofOption .badMessage draft.step
  let body ← Outcome.ofOption .badMessage draft.body
  return ⟨version, circleId, chainId, step, body, bytes, longEnough⟩

/-- The content lies between the version byte and the signature. -/
def parse (data : Bytes) : Outcome Fault Note :=
  if longEnough : 1 + Curve.signatureLength ≤ data.length then do
    let version ← Post.versionOf (data.getD 0 0)
    let content := (data.take (data.length - Curve.signatureLength)).tail
    let draft ← Codec.fold .badMessage Draft.read content Draft.empty
    draft.finish version data longEnough
  else
    .error .badMessage

/-- The fields of the signed content. -/
def fields
    (circleId : Block 16)
    (chainId step : Nat)
    (body : Bytes) :
    List Field :=
  [Field.ofBytes 1 circleId.bytes,
    Field.ofUint 2 chainId,
    Field.ofUint 3 step,
    Field.ofBytes 4 body]

/-- What the signature covers. -/
def signed
    (version : Nat)
    (circleId : Block 16)
    (chainId step : Nat)
    (body : Bytes) :
    Bytes :=
  Post.versionByte version ::
    (Writer.bytes 1 circleId.bytes ++ Writer.uint 2 chainId ++
      Writer.uint 3 step ++ Writer.bytes 4 body)

/-- The signed content is the version and the fields. -/
theorem signed_eq
    (version : Nat)
    (circleId : Block 16)
    (chainId step : Nat)
    (body : Bytes) :
    signed version circleId chainId step body =
      Post.versionByte version ::
        encodeAll (fields circleId chainId step body) := by
  simp [signed, fields]

section Signatures

variable [Curves]

/-- Signs a note and reads it back. -/
def make
    (version : Nat)
    (circleId : Block 16)
    (chainId step : Nat)
    (body : Bytes)
    (signer : Curve.Secret)
    (nonce : Block 64) :
    Outcome Fault Note := do
  let content := signed version circleId chainId step body
  let signature ← signer.signWithNonce content nonce
  parse (content ++ signature.bytes)

/-- Checks the signature over all that comes before it. -/
def signedBy (note : Note) (signing : Curve.Public) : Bool :=
  let limit := note.bytes.length - Curve.signatureLength
  signing.verify (note.bytes.take limit)
    (Block.last 64 note.bytes
      (Nat.le_trans (Nat.le_add_left 64 1) note.longEnough))

end Signatures

/-- Every field of a note can be written. -/
theorem fields_written
    (circleId : Block 16)
    {chainId step : Nat}
    {body : Bytes}
    (chainFits : chainId < 2 ^ 32)
    (stepFits : step < 2 ^ 32)
    (bodyFits : body.length < 2 ^ 64) :
    ∀ field ∈ fields circleId chainId step body, field.Written := by
  intro field member
  simp only [fields, List.mem_cons, List.not_mem_nil, or_false] at member
  rcases member with rfl | rfl | rfl | rfl
  · exact .bytes (by decide) (by decide) (by simp)
  · exact .uint (by decide) (by decide) (by omega)
  · exact .uint (by decide) (by decide) (by omega)
  · exact .bytes (by decide) (by decide) bodyFits

/-- A signed note of the current version parses back to its fields. -/
theorem parse_signed
    (circleId : Block 16)
    {chainId step : Nat}
    {body : Bytes}
    (signature : Block 64)
    (chainFits : chainId < 2 ^ 32)
    (stepFits : step < 2 ^ 32)
    (bodyFits : body.length < 2 ^ 64) :
    ∃ longEnough,
      parse
          (signed Post.version circleId chainId step body ++
            signature.bytes) =
        .ok ⟨Post.version, circleId, chainId, step, body,
          signed Post.version circleId chainId step body ++
            signature.bytes, longEnough⟩ := by
  have folded :
      Codec.fold Fault.badMessage Draft.read
          (encodeAll (fields circleId chainId step body))
          Draft.empty =
        .ok ⟨circleId, chainId, step, body⟩ := by
    rw [fold_encodeAll _ _
      (fields_written circleId chainFits stepFits bodyFits)]
    simp [fields, Draft.read, Draft.empty,
      Field.uint32_ofUint _ _ _ chainFits,
      Field.uint32_ofUint _ _ _ stepFits]
  have longEnough :
      1 + Curve.signatureLength ≤
        (signed Post.version circleId chainId step body ++
          signature.bytes).length := by
    simp [signed, Curve.signatureLength]
    omega
  have content :
      ((signed Post.version circleId chainId step body ++
            signature.bytes).take
          ((signed Post.version circleId chainId step body ++
            signature.bytes).length - Curve.signatureLength)).tail =
        encodeAll (fields circleId chainId step body) := by
    have length :
        (signed Post.version circleId chainId step body ++
            signature.bytes).length - Curve.signatureLength =
          (signed Post.version circleId chainId step body).length := by
      simp [Curve.signatureLength]
    rw [length, List.take_left, signed_eq]
    rfl
  have head :
      (signed Post.version circleId chainId step body ++
          signature.bytes).getD 0 0 =
        Post.versionByte Post.version := by
    rw [signed_eq]
    rfl
  refine ⟨longEnough, ?_⟩
  unfold parse
  rw [dif_pos longEnough, head, content]
  simp [folded, Draft.finish]

/-- The indices of a draft fit their fields. -/
def Draft.Fits (draft : Draft) : Prop :=
  (∀ chainId ∈ draft.chainId, chainId < 2 ^ 32) ∧
    ∀ step ∈ draft.step, step < 2 ^ 32

theorem Draft.read_fits
    {draft next : Draft}
    {field : Field}
    (before : draft.Fits)
    (read : draft.read field = .ok next) :
    next.Fits := by
  unfold Draft.read at read
  split at read
  · rcases Outcome.bind_eq_ok.mp read with ⟨_, _, done⟩
    cases done
    exact before
  · rcases Outcome.bind_eq_ok.mp read with ⟨_, found, done⟩
    cases done
    exact ⟨by simpa using Field.uint32_lt found, before.2⟩
  · rcases Outcome.bind_eq_ok.mp read with ⟨_, found, done⟩
    cases done
    exact ⟨before.1, by simpa using Field.uint32_lt found⟩
  · cases read
    exact before
  · cases read
    exact before

/-- What a parsed note is known to satisfy. -/
structure Parsed (note : Note) : Prop where
  version : note.version = Post.version
  chainFits : note.chainId < 2 ^ 32
  stepFits : note.step < 2 ^ 32

/-- What is parsed is in range. -/
theorem parse_parsed
    {data : Bytes}
    {note : Note}
    (read : parse data = .ok note) :
    note.Parsed := by
  unfold parse at read
  split_ifs at read with longEnough
  rcases Outcome.bind_eq_ok.mp read with ⟨version, versioned, rest⟩
  rcases Outcome.bind_eq_ok.mp rest with ⟨draft, folded, finished⟩
  have fits : draft.Fits :=
    fold_preserves Draft.read_fits
      (by simp [Draft.Fits, Draft.empty]) folded
  simp only [Draft.finish, Outcome.bind_eq_ok,
    Outcome.ofOption_eq_ok] at finished
  rcases finished with
    ⟨_, _, chainId, chainFound, step, stepFound, _, _, done⟩
  cases done
  exact ⟨Post.versionOf_eq_ok versioned, fits.1 chainId chainFound,
    fits.2 step stepFound⟩

/-- A parsed note keeps its bytes. -/
theorem bytes_of_parse
    {data : Bytes}
    {note : Note}
    (read : parse data = .ok note) :
    note.bytes = data := by
  unfold parse at read
  split_ifs at read with longEnough
  obtain ⟨version, _, rest⟩ := Outcome.bind_eq_ok.mp read
  obtain ⟨draft, _, finished⟩ := Outcome.bind_eq_ok.mp rest
  simp only [Draft.finish, Outcome.bind_eq_ok] at finished
  obtain ⟨_, _, _, _, _, _, _, _, done⟩ := finished
  cases done
  rfl

end Note

end Gossveil.Circle
