import Gossveil.Content

namespace Gossveil

open Codec

/-!
# Certificates and contents come back as they were made

A content carries a sender certificate, which carries a server certificate; each
certificate is a body and the signature over it.  What `make` wrote parses back
at every level, and a sender certificate is valid exactly when both signatures
and the expiry hold.
-/

/-- A byte field of a message that fits a slice is one the writer makes. -/
theorem Codec.Field.Written.of_mem
    {fields : List Field}
    (short : (encodeAll fields).length < 2 ^ 64)
    {number : Nat}
    {value : Bytes}
    (positive : 0 < number)
    (numberFits : number < 2 ^ 32)
    (member : Field.ofBytes number value ∈ fields) :
    (Field.ofBytes number value).Written :=
  .bytes positive numberFits
    (Nat.lt_of_le_of_lt (length_byteValue_le member) short)

namespace Certificate

/-- The signed form is two fields. -/
theorem joinSigned_eq (body : Bytes) (signature : Block 64) :
    joinSigned body signature =
      encodeAll [Field.ofBytes 1 body, Field.ofBytes 2 signature.bytes] := by
  simp [joinSigned]

/-- A body and its signature are split where they were joined. -/
theorem splitSigned_joinSigned
    {body : Bytes}
    {signature : Block 64}
    (short : (joinSigned body signature).length < 2 ^ 64) :
    splitSigned (joinSigned body signature) = .ok ⟨body, signature⟩ := by
  rw [joinSigned_eq] at short ⊢
  have plain :
      ∀ field ∈
          [Field.ofBytes 1 body, Field.ofBytes 2 signature.bytes],
        field.Plain := by
    simp only [List.forall_mem_cons]
    exact ⟨.bytes (by decide) (by decide), .bytes (by decide) (by decide),
      by simp⟩
  rw [splitSigned, fold_plain _ _ plain short]
  simp [SplitDraft.read, signature64]

end Certificate

namespace ServerCert

section Signatures

variable [Curves]

/-- Checks the signature of a trust root. -/
def signedBy (cert : ServerCert) (trustRoot : Curve.Public) : Bool :=
  trustRoot.verify cert.body cert.signature

end Signatures

/-- What the trust root signs. -/
def bodyOf (keyId : Nat) (key : Curve.Public) : Bytes :=
  Writer.uint 1 keyId ++ Writer.bytes 2 key.serialize

/-- A parsed certificate keeps the bytes it was parsed from. -/
theorem bytes_of_parse
    {data : Bytes}
    {cert : ServerCert}
    (parsed : parse data = .ok cert) :
    cert.bytes = data := by
  obtain ⟨signed, _, parsed⟩ := Outcome.bind_eq_ok.mp parsed
  obtain ⟨draft, _, parsed⟩ := Outcome.bind_eq_ok.mp parsed
  obtain ⟨keyId, _, parsed⟩ := Outcome.bind_eq_ok.mp parsed
  obtain ⟨key, _, parsed⟩ := Outcome.bind_eq_ok.mp parsed
  cases parsed
  rfl

/-- The signature of a parsed certificate is the one its bytes carry. -/
theorem splitSigned_of_parse
    {data : Bytes}
    {cert : ServerCert}
    (parsed : parse data = .ok cert) :
    Certificate.splitSigned data = .ok ⟨cert.body, cert.signature⟩ := by
  obtain ⟨signed, isSplit, parsed⟩ := Outcome.bind_eq_ok.mp parsed
  obtain ⟨draft, _, parsed⟩ := Outcome.bind_eq_ok.mp parsed
  obtain ⟨keyId, _, parsed⟩ := Outcome.bind_eq_ok.mp parsed
  obtain ⟨key, _, parsed⟩ := Outcome.bind_eq_ok.mp parsed
  cases parsed
  exact isSplit

/-- The body of a server certificate is short. -/
theorem length_bodyOf_le (keyId : Nat) (key : Curve.Public) :
    (bodyOf keyId key).length ≤ 73 := by
  have number := Writer.length_uint_le 1 keyId
  have publicKey := Writer.length_bytes_le 2 key.serialize
  rw [Curve.Public.length_serialize] at publicKey
  simp only [bodyOf, List.length_append, Curve.serializedLength] at *
  omega

/-- A written server certificate reads back. -/
theorem parse_joinSigned
    {keyId : Nat}
    (keyFits : keyId < 2 ^ 32)
    (key : Curve.Public)
    (signature : Block 64) :
    parse (Certificate.joinSigned (bodyOf keyId key) signature) =
      .ok ⟨keyId, key, bodyOf keyId key, signature,
        Certificate.joinSigned (bodyOf keyId key) signature⟩ := by
  have bodyShort := length_bodyOf_le keyId key
  have short :
      (Certificate.joinSigned (bodyOf keyId key) signature).length <
        2 ^ 64 := by
    have first := Writer.length_bytes_le 1 (bodyOf keyId key)
    have second := Writer.length_bytes_le 2 signature.bytes
    rw [signature.length_bytes] at second
    simp only [Certificate.joinSigned, List.length_append]
    omega
  have written :
      ∀ field ∈ [Field.ofUint 1 keyId, Field.ofBytes 2 key.serialize],
        field.Written := by
    simp only [List.forall_mem_cons]
    exact ⟨.uint (by decide) (by decide) (Nat.lt_trans keyFits (by decide)),
      .bytes (by decide) (by decide) (by simp [Curve.serializedLength]),
      by simp⟩
  have isBody :
      bodyOf keyId key =
        encodeAll [Field.ofUint 1 keyId, Field.ofBytes 2 key.serialize] := by
    simp [bodyOf]
  have folded :
      Codec.fold Fault.badMessage Draft.read (bodyOf keyId key)
          ⟨none, none⟩ =
        .ok ⟨some keyId, some key⟩ := by
    rw [isBody, fold_encodeAll _ _ written]
    simp [Draft.read, Field.uint32_ofUint _ _ _ keyFits]
  rw [parse, Certificate.splitSigned_joinSigned short, Outcome.ok_bind]
  simp [folded]

/-- The certificate made for a key under the trust root's signature. -/
structure MadeFrom
    [Curves]
    (keyId : Nat)
    (key : Curve.Public)
    (trustRoot : Curve.Secret)
    (nonce signature : Block 64)
    (cert : ServerCert) :
    Prop where
  built : make keyId key trustRoot nonce = .ok cert
  parsed : parse cert.bytes = .ok cert
  bytes : cert.bytes = Certificate.joinSigned (bodyOf keyId key) signature
  body : cert.body = bodyOf keyId key
  signature : cert.signature = signature
  key : cert.key = key
  keyId : cert.keyId = keyId

/-- A signed server certificate is made. -/
theorem exists_madeFrom
    [Curves]
    {keyId : Nat}
    (keyFits : keyId < 2 ^ 32)
    {key : Curve.Public}
    {trustRoot : Curve.Secret}
    {nonce signature : Block 64}
    (isSigned :
      trustRoot.signWithNonce (bodyOf keyId key) nonce = .ok signature) :
    ∃ cert, MadeFrom keyId key trustRoot nonce signature cert := by
  have parsed := parse_joinSigned keyFits key signature
  have built :
      make keyId key trustRoot nonce =
        parse (Certificate.joinSigned (bodyOf keyId key) signature) := by
    simp only [make]
    rw [← bodyOf, isSigned]
    rfl
  exact ⟨_, built.trans parsed, parsed, rfl, rfl, rfl, rfl, rfl⟩

end ServerCert

namespace SenderCert

section Signatures

variable [Curves]

/-- Valid when the chain leads to the trust root and the certificate has not expired. -/
def valid
    (cert : SenderCert)
    (trustRoot : Curve.Public)
    (nowMs : Nat) :
    Bool :=
  if ¬ cert.server.signedBy trustRoot then
    false
  else if ¬ cert.server.key.verify cert.body cert.signature then
    false
  else
    nowMs ≤ cert.expiresMs

end Signatures

/-- Both levels of a parsed certificate carry the signatures it is judged by. -/
theorem levels_of_parse
    {data : Bytes}
    {cert : SenderCert}
    (parsed : parse data = .ok cert) :
    Certificate.splitSigned data = .ok ⟨cert.body, cert.signature⟩ ∧
      ServerCert.parse cert.server.bytes = .ok cert.server := by
  obtain ⟨signed, isSplit, parsed⟩ := Outcome.bind_eq_ok.mp parsed
  obtain ⟨draft, _, parsed⟩ := Outcome.bind_eq_ok.mp parsed
  obtain ⟨id, _, parsed⟩ := Outcome.bind_eq_ok.mp parsed
  obtain ⟨device, _, parsed⟩ := Outcome.bind_eq_ok.mp parsed
  obtain ⟨key, _, parsed⟩ := Outcome.bind_eq_ok.mp parsed
  obtain ⟨expires, _, parsed⟩ := Outcome.bind_eq_ok.mp parsed
  obtain ⟨serverBytes, _, parsed⟩ := Outcome.bind_eq_ok.mp parsed
  obtain ⟨server, serverParsed, parsed⟩ := Outcome.bind_eq_ok.mp parsed
  cases parsed
  refine ⟨isSplit, ?_⟩
  simp only [ServerCert.bytes_of_parse serverParsed]
  exact serverParsed

/-- The fields of the body. -/
def Make.fields (parts : Make) : List Field :=
  (parts.senderPhone.map (Field.ofBytes 1)).toList ++
    [Field.ofUint 2 parts.senderDevice,
      Field.ofWord64 3 parts.expiresMs,
      Field.ofBytes 4 parts.senderKey.serialize,
      Field.ofBytes 5 parts.server.bytes,
      Field.ofBytes 6 parts.senderId]

theorem Make.body_eq (parts : Make) :
    parts.body = encodeAll parts.fields := by
  cases isPhone : parts.senderPhone <;> simp [body, fields, isPhone]

/--
The integers fit their types, the certificate fits a slice, and the server
certificate is one that parsed.
-/
structure Make.Fits (parts : Make) (signature : Block 64) : Prop where
  senderDevice : parts.senderDevice < 2 ^ 32
  expiresMs : parts.expiresMs < 2 ^ 64
  server : ServerCert.parse parts.server.bytes = .ok parts.server
  short : (Certificate.joinSigned parts.body signature).length < 2 ^ 64

theorem Make.Fits.bodyShort
    {parts : Make}
    {signature : Block 64}
    (fits : parts.Fits signature) :
    (encodeAll parts.fields).length < 2 ^ 64 := by
  apply Nat.lt_of_le_of_lt _ fits.short
  simp only [← body_eq, Certificate.joinSigned, Writer.bytes,
    List.length_append]
  omega

/-- The parts of a sender certificate fit their fields. -/
theorem Make.fields_written
    {parts : Make}
    {signature : Block 64}
    (fits : parts.Fits signature) :
    ∀ field ∈ parts.fields, field.Written := by
  intro field member
  have bytes :
      ∀ {number : Nat} {value : Bytes},
        0 < number →
        number < 2 ^ 32 →
        field = Field.ofBytes number value →
        field.Written := by
    rintro number value positive numberFits rfl
    exact Field.Written.of_mem fits.bodyShort positive numberFits member
  simp only [fields, List.mem_append, Option.mem_toList, Option.map_eq_some_iff,
    List.mem_cons, List.not_mem_nil, or_false] at member
  rcases member with
    ⟨phone, _, isField⟩ | isField | isField | isField | isField | isField
  · exact bytes (by decide) (by decide) isField.symm
  · rw [isField]
    exact .uint (by decide) (by decide)
      (Nat.lt_trans fits.senderDevice (by decide))
  · rw [isField]
    exact .word64 (by decide) (by decide) fits.expiresMs
  · exact bytes (by decide) (by decide) isField
  · exact bytes (by decide) (by decide) isField
  · exact bytes (by decide) (by decide) isField

/-- Reading the body of a sender certificate gives its parts. -/
theorem Make.fold_fields
    {parts : Make}
    {signature : Block 64}
    (fits : parts.Fits signature) :
    Codec.fold Fault.badMessage Draft.read parts.body Draft.empty =
      .ok ⟨parts.senderPhone, some parts.senderDevice, some parts.expiresMs,
        some parts.senderKey, some parts.server.bytes,
        some parts.senderId⟩ := by
  have phoneReads :
      (parts.senderPhone.map (Field.ofBytes 1)).toList.foldlM Draft.read
          Draft.empty =
        .ok ⟨parts.senderPhone, none, none, none, none, none⟩ := by
    apply foldlM_option Draft.read _
      (fun phone => ⟨phone, none, none, none, none, none⟩)
    · intro phone _
      rfl
    · rfl
  rw [body_eq, fold_encodeAll _ _ (fields_written fits), fields,
    foldlM_append_ok phoneReads]
  have expires :
      (Field.ofWord64 3 parts.expiresMs).number = 3 := rfl
  simp [Draft.read, expires, Field.uint32_ofUint _ _ _ fits.senderDevice]

/-- A written sender certificate reads back. -/
theorem parse_joinSigned
    {parts : Make}
    {signature : Block 64}
    (fits : parts.Fits signature) :
    parse (Certificate.joinSigned parts.body signature) =
      .ok ⟨parts.senderId, parts.senderPhone, parts.senderDevice,
        parts.senderKey, parts.expiresMs, parts.server, parts.body,
        signature, Certificate.joinSigned parts.body signature⟩ := by
  rw [parse, Certificate.splitSigned_joinSigned fits.short,
    Outcome.ok_bind]
  simp [Make.fold_fields fits, fits.server]

/-- The certificate made from some parts under the server's signature. -/
structure MadeFrom
    [Curves]
    (parts : Make)
    (nonce signature : Block 64)
    (cert : SenderCert) :
    Prop where
  built : make parts nonce = .ok cert
  parsed : parse cert.bytes = .ok cert
  bytes : cert.bytes = Certificate.joinSigned parts.body signature
  senderId : cert.senderId = parts.senderId
  senderPhone : cert.senderPhone = parts.senderPhone
  senderDevice : cert.senderDevice = parts.senderDevice
  senderKey : cert.senderKey = parts.senderKey
  expiresMs : cert.expiresMs = parts.expiresMs
  server : cert.server = parts.server
  body : cert.body = parts.body
  signature : cert.signature = signature

/-- A signed sender certificate is made. -/
theorem exists_madeFrom
    [Curves]
    {parts : Make}
    {nonce signature : Block 64}
    (fits : parts.Fits signature)
    (isSigned :
      parts.serverSecret.signWithNonce parts.body nonce = .ok signature) :
    ∃ cert, MadeFrom parts nonce signature cert := by
  have parsed := parse_joinSigned fits
  have built :
      make parts nonce =
        parse (Certificate.joinSigned parts.body signature) := by
    rw [make, isSigned]
    rfl
  exact ⟨_, built.trans parsed, parsed, rfl, rfl, rfl, rfl, rfl, rfl, rfl,
    rfl, rfl⟩

/--
A parsed certificate is valid exactly when the trust root signed the server's
body, the server signed the sender's, and the expiry has not passed.
-/
theorem valid_iff
    [Curves]
    (cert : SenderCert)
    (trustRoot : Curve.Public)
    (nowMs : Nat) :
    cert.valid trustRoot nowMs = true ↔
      trustRoot.verify cert.server.body cert.server.signature = true ∧
        cert.server.key.verify cert.body cert.signature = true ∧
        nowMs ≤ cert.expiresMs := by
  unfold valid ServerCert.signedBy
  by_cases rooted :
      trustRoot.verify cert.server.body cert.server.signature = true
  · by_cases isSigned :
        cert.server.key.verify cert.body cert.signature = true
    · simp [rooted, isSigned]
    · simp [rooted, isSigned]
  · simp [rooted]

end SenderCert

namespace Content

/-- The arguments of `make`. -/
structure Parts where
  kind : Ratchet.Kind
  sender : SenderCert
  body : Bytes
  hint : Hint
  circleId : Option Bytes

/-- The fields of a content. -/
def Parts.fields (parts : Parts) : List Field :=
  [Field.ofUint 1 (kindToRecord parts.kind),
      Field.ofBytes 2 parts.sender.bytes,
      Field.ofBytes 3 parts.body] ++
    ((if parts.hint ≠ Hint.default then
        [Field.ofUint 4 parts.hint.code.toNat]
      else
        []) ++
      (parts.circleId.map (Field.ofBytes 5)).toList)

/-- The bytes `make` parses back. -/
def Parts.encode (parts : Parts) : Bytes :=
  Writer.uint 1 (kindToRecord parts.kind) ++
    Writer.bytes 2 parts.sender.bytes ++
    Writer.bytes 3 parts.body ++
    (if parts.hint ≠ Hint.default then
      Writer.uint 4 parts.hint.code.toNat
    else
      []) ++
    (match parts.circleId with
      | some circleId => Writer.bytes 5 circleId
      | none => [])

theorem Parts.encode_eq (parts : Parts) :
    parts.encode = encodeAll parts.fields := by
  cases isCircle : parts.circleId <;>
    by_cases isDefault : parts.hint = Hint.default <;>
      simp [encode, fields, isCircle, isDefault]

/-- The sender certificate is one that parsed, and the content fits a slice. -/
structure Parts.Fits (parts : Parts) : Prop where
  sender : SenderCert.parse parts.sender.bytes = .ok parts.sender
  short : parts.encode.length < 2 ^ 64

/-- A kind written to a record reads back. -/
theorem kindFromRecord_kindToRecord (kind : Ratchet.Kind) :
    kindFromRecord (kindToRecord kind) = .ok kind := by
  cases kind <;> rfl

theorem kindToRecord_lt (kind : Ratchet.Kind) :
    kindToRecord kind < 2 ^ 64 := by
  cases kind <;> decide

theorem Parts.fields_plain (parts : Parts) :
    ∀ field ∈ parts.fields, field.Plain := by
  simp only [fields, List.forall_mem_append, List.forall_mem_cons]
  refine ⟨⟨?_, ?_, ?_, by simp⟩, ?_, ?_⟩
  · exact .uint (by decide) (by decide) (kindToRecord_lt parts.kind)
  · exact .bytes (by decide) (by decide)
  · exact .bytes (by decide) (by decide)
  · by_cases isDefault : parts.hint = Hint.default
    · simp [isDefault]
    · have code := parts.hint.code.toNat_lt
      simp only [ne_eq, isDefault, not_false_eq_true, if_true,
        List.mem_singleton, forall_eq]
      exact .uint (by decide) (by decide) (Nat.lt_trans code (by decide))
  · exact Field.Plain.option fun _ _ => .bytes (by decide) (by decide)

/-- Reading a content gives its parts. -/
theorem Parts.fold_fields
    {parts : Parts}
    (fits : parts.Fits) :
    Codec.fold Fault.badMessage Draft.read parts.encode Draft.empty =
      .ok ⟨some parts.kind, some parts.sender.bytes, some parts.body,
        parts.hint, parts.circleId⟩ := by
  have short := fits.short
  rw [encode_eq] at short
  have headReads :
      [Field.ofUint 1 (kindToRecord parts.kind),
          Field.ofBytes 2 parts.sender.bytes,
          Field.ofBytes 3 parts.body].foldlM Draft.read Draft.empty =
        .ok ⟨some parts.kind, some parts.sender.bytes, some parts.body,
          Hint.default, none⟩ := by
    simp [Draft.read, Draft.empty, kindFromRecord_kindToRecord]
  have hintReads :
      (if parts.hint ≠ Hint.default then
          [Field.ofUint 4 parts.hint.code.toNat]
        else
          []).foldlM Draft.read
          ⟨some parts.kind, some parts.sender.bytes, some parts.body,
            Hint.default, none⟩ =
        .ok ⟨some parts.kind, some parts.sender.bytes, some parts.body,
          parts.hint, none⟩ := by
    by_cases isDefault : parts.hint = Hint.default
    · simp [isDefault]
    · simp [isDefault, Draft.read]
  have circleReads :
      (parts.circleId.map (Field.ofBytes 5)).toList.foldlM Draft.read
          ⟨some parts.kind, some parts.sender.bytes, some parts.body,
            parts.hint, none⟩ =
        .ok ⟨some parts.kind, some parts.sender.bytes, some parts.body,
          parts.hint, parts.circleId⟩ := by
    apply foldlM_option Draft.read _
      (fun circleId => ⟨some parts.kind, some parts.sender.bytes,
        some parts.body, parts.hint, circleId⟩)
    · intro circleId _
      rfl
    · rfl
  rw [encode_eq, fold_plain _ _ parts.fields_plain short, fields,
    foldlM_append_ok headReads, foldlM_append_ok hintReads, circleReads]

/-- The content made from some parts. -/
structure MadeFrom (parts : Parts) (content : Content) : Prop where
  built :
    make parts.kind parts.sender parts.body parts.hint parts.circleId =
      .ok content
  parsed : parse content.bytes = .ok content
  kind : content.kind = parts.kind
  sender : content.sender = parts.sender
  body : content.body = parts.body
  hint : content.hint = parts.hint
  circleId : content.circleId = parts.circleId
  bytes : content.bytes = parts.encode

/-- Parts that fit make a content. -/
theorem exists_madeFrom
    {parts : Parts}
    (fits : parts.Fits) :
    ∃ content, MadeFrom parts content := by
  have parsed :
      parse parts.encode =
        .ok ⟨parts.kind, parts.sender, parts.body, parts.hint,
          parts.circleId, parts.encode⟩ := by
    rw [parse, Parts.fold_fields fits, Outcome.ok_bind]
    simp [fits.sender]
  exact ⟨_, parsed, parsed, rfl, rfl, rfl, rfl, rfl, rfl⟩

end Content

/--
The three levels come back as they were made, and the validity of any
certificate that parses is that of the signatures its bytes carry.
-/
theorem certificates_and_contents [Curves] :
    (∀ {keyId : Nat} {key : Curve.Public} {root : Curve.Secret}
        {nonce signature : Block 64},
      keyId < 2 ^ 32 →
      root.signWithNonce (ServerCert.bodyOf keyId key) nonce = .ok signature →
        ∃ made, ServerCert.MadeFrom keyId key root nonce signature made) ∧
      (∀ {parts : SenderCert.Make} {nonce signature : Block 64},
        parts.Fits signature →
        parts.serverSecret.signWithNonce parts.body nonce = .ok signature →
          ∃ made, SenderCert.MadeFrom parts nonce signature made) ∧
      (∀ {content : Content.Parts},
        content.Fits → ∃ made, Content.MadeFrom content made) ∧
      ∀ {data : Bytes} {cert : SenderCert},
        SenderCert.parse data = .ok cert →
        ∀ (trustRoot : Curve.Public) (nowMs : Nat),
          ∃ server sender,
            Certificate.splitSigned cert.server.bytes = .ok server ∧
              ServerCert.parse cert.server.bytes = .ok cert.server ∧
              Certificate.splitSigned data = .ok sender ∧
              (cert.valid trustRoot nowMs = true ↔
                trustRoot.verify server.body server.signature = true ∧
                  cert.server.key.verify sender.body sender.signature = true ∧
                  nowMs ≤ cert.expiresMs) := by
  refine ⟨fun keyFits signed => ServerCert.exists_madeFrom keyFits signed,
    fun fits signed => SenderCert.exists_madeFrom fits signed,
    Content.exists_madeFrom, ?_⟩
  intro data cert parsed trustRoot nowMs
  obtain ⟨isSender, serverParsed⟩ := SenderCert.levels_of_parse parsed
  exact ⟨_, _, ServerCert.splitSigned_of_parse serverParsed, serverParsed,
    isSender, cert.valid_iff trustRoot nowMs⟩

section Witness

open Sample

attribute [local instance] curves

/-- The key that the sample certificates are for. -/
private def sampleKey : Curve.Public :=
  ⟨Block.fill 32 9⟩

set_option maxRecDepth 100000 in
/-- The sample server certificate parses. -/
private theorem sampleServer_parses :
    ServerCert.parse serverCert.bytes = .ok serverCert := by
  decide

set_option maxRecDepth 100000 in
/-- The sample sender certificate parses. -/
private theorem sampleSender_parses :
    SenderCert.parse (senderCert sampleKey).bytes =
      .ok (senderCert sampleKey) := by
  decide

/-- The sample sender with an empty phone number. -/
private def samplePhone : SenderCert.Make :=
  { senderMake sampleKey with senderPhone := some [] }

/-- A hint with no name of its own, and an empty circle id. -/
private def sampleContent : Content.Parts :=
  ⟨.plain, senderCert sampleKey, [], ⟨200⟩, some []⟩

private theorem samplePhone_fits : samplePhone.Fits (Block.zero 64) where
  senderDevice := by decide
  expiresMs := by decide
  server := sampleServer_parses
  short := by decide +kernel

private theorem sampleContent_fits : sampleContent.Fits where
  sender := sampleSender_parses
  short := by decide +kernel

/-- The three levels at sample certificates and a sample content. -/
theorem certificates_and_contents_samples :
    (∃ made,
        ServerCert.MadeFrom 1 sampleKey ⟨Block.fill 32 3⟩ (Block.zero 64)
          (Block.zero 64) made) ∧
      (∃ made,
        SenderCert.MadeFrom samplePhone (Block.zero 64) (Block.zero 64)
          made) ∧
      (∃ made, Content.MadeFrom sampleContent made) ∧
      ∃ server sender,
        Certificate.splitSigned (senderCert sampleKey).server.bytes =
            .ok server ∧
          ServerCert.parse (senderCert sampleKey).server.bytes =
            .ok (senderCert sampleKey).server ∧
          Certificate.splitSigned (senderCert sampleKey).bytes =
            .ok sender ∧
          ((senderCert sampleKey).valid sampleKey 1000 = true ↔
            sampleKey.verify server.body server.signature = true ∧
              (senderCert sampleKey).server.key.verify sender.body
                sender.signature = true ∧
              1000 ≤ (senderCert sampleKey).expiresMs) := by
  obtain ⟨server, sender, contents, validity⟩ := certificates_and_contents
  exact ⟨server (by decide) rfl, sender samplePhone_fits rfl,
    contents sampleContent_fits, validity sampleSender_parses sampleKey 1000⟩

end Witness

end Gossveil
