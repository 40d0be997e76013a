import Gossveil.Engine

namespace Gossveil

open Codec Ratchet

/-!
# Certificates and the content of an envelope

A server certificate is signed by the trust root and a sender certificate by
that server.  A content carries the sender's certificate, the message and what
kind of message it is.
-/

namespace Certificate

/-- A signature of the one length there is. -/
def signature64 (data : Bytes) : Outcome Fault (Block 64) :=
  Outcome.ofOption .badSignature (Block.ofBytes 64 data)

/-- A body and the signature over it. -/
structure Signed where
  body : Bytes
  signature : Block 64
  deriving DecidableEq

/-- What the fields of a signed record have said so far. -/
structure SplitDraft where
  body : Option Bytes
  signature : Option Bytes

/-- One turn of the parsing loop. -/
def SplitDraft.read
    (draft : SplitDraft)
    (field : Field) :
    Outcome Fault SplitDraft :=
  match field.number with
  | 1 => .ok { draft with body := field.bytes }
  | 2 => .ok { draft with signature := field.bytes }
  | _ => .ok draft

/-- The body of a signed record and its signature. -/
def splitSigned (data : Bytes) : Outcome Fault Signed := do
  let draft ← Codec.fold .badMessage SplitDraft.read data ⟨none, none⟩
  let body ← Outcome.ofOption .badMessage draft.body
  let signature ← Outcome.ofOption .badMessage draft.signature
  let signature ← signature64 signature
  return ⟨body, signature⟩

/-- A body with its signature behind it. -/
def joinSigned (body : Bytes) (signature : Block 64) : Bytes :=
  Writer.bytes 1 body ++ Writer.bytes 2 signature.bytes

end Certificate

/-- The certificate of a server's key. -/
structure ServerCert where
  keyId : Nat
  key : Curve.Public
  body : Bytes
  signature : Block 64
  bytes : Bytes
  deriving DecidableEq

namespace ServerCert

/-- What the fields of the body have said so far. -/
structure Draft where
  keyId : Option Nat
  key : Option Curve.Public

/-- Takes in one field of the body. -/
def Draft.read (draft : Draft) (field : Field) : Outcome Fault Draft :=
  match field.number with
  | 1 => do
      let keyId ← field.uint32 .badMessage
      return { draft with keyId := some keyId }
  | 2 => do
      let data ← field.bytesOr .badMessage
      let key ← Curve.Public.parse data
      return { draft with key := some key }
  | _ => .ok draft

/-- Reads a server certificate; the signature is not checked here. -/
def parse (bytes : Bytes) : Outcome Fault ServerCert := do
  let signed ← Certificate.splitSigned bytes
  let draft ← Codec.fold .badMessage Draft.read signed.body ⟨none, none⟩
  let keyId ← Outcome.ofOption .badMessage draft.keyId
  let key ← Outcome.ofOption .badMessage draft.key
  return ⟨keyId, key, signed.body, signed.signature, bytes⟩

/-- The signature's nonce is drawn from the entropy source. -/
def make
    [Curves]
    (keyId : Nat)
    (key : Curve.Public)
    (trustRoot : Curve.Secret)
    (nonce : Block 64) :
    Outcome Fault ServerCert := do
  let body := Writer.uint 1 keyId ++ Writer.bytes 2 key.serialize
  let signature ← trustRoot.signWithNonce body nonce
  parse (Certificate.joinSigned body signature)

end ServerCert

/--
The certificate of a sender: who it is, with which device and which key, and
until when.
-/
structure SenderCert where
  senderId : Bytes
  senderPhone : Option Bytes
  senderDevice : Nat
  senderKey : Curve.Public
  expiresMs : Nat
  server : ServerCert
  body : Bytes
  signature : Block 64
  bytes : Bytes
  deriving DecidableEq

namespace SenderCert

/-- What the fields of the body have said so far. -/
structure Draft where
  phone : Option Bytes
  device : Option Nat
  expires : Option Nat
  key : Option Curve.Public
  server : Option Bytes
  id : Option Bytes

/-- What is known before the first field. -/
def Draft.empty : Draft :=
  ⟨none, none, none, none, none, none⟩

/-- Takes in one field of the body. -/
def Draft.read (draft : Draft) (field : Field) : Outcome Fault Draft :=
  match field.number with
  | 1 => .ok { draft with phone := field.bytes }
  | 2 => do
      let device ← field.uint32 .badMessage
      return { draft with device := some device }
  | 3 => .ok { draft with expires := field.word }
  | 4 => do
      let data ← field.bytesOr .badMessage
      let key ← Curve.Public.parse data
      return { draft with key := some key }
  | 5 => .ok { draft with server := field.bytes }
  | 6 => .ok { draft with id := field.bytes }
  | _ => .ok draft

/-- Reads a sender certificate, the server's in it included. -/
def parse (bytes : Bytes) : Outcome Fault SenderCert := do
  let signed ← Certificate.splitSigned bytes
  let draft ← Codec.fold .badMessage Draft.read signed.body Draft.empty
  let id ← Outcome.ofOption .badMessage draft.id
  let device ← Outcome.ofOption .badMessage draft.device
  let key ← Outcome.ofOption .badMessage draft.key
  let expires ← Outcome.ofOption .badMessage draft.expires
  let server ← Outcome.ofOption .badMessage draft.server
  let server ← ServerCert.parse server
  return ⟨id, draft.phone, device, key, expires, server, signed.body,
    signed.signature, bytes⟩

/-- What a sender certificate is made from. -/
structure Make where
  senderId : Bytes
  senderPhone : Option Bytes
  senderDevice : Nat
  senderKey : Curve.Public
  expiresMs : Nat
  server : ServerCert
  serverSecret : Curve.Secret
  deriving DecidableEq

/-- The body that the server signs. -/
def Make.body (parts : Make) : Bytes :=
  (match parts.senderPhone with
    | some phone => Writer.bytes 1 phone
    | none => []) ++
    Writer.uint 2 parts.senderDevice ++
    Writer.word64 3 parts.expiresMs ++
    Writer.bytes 4 parts.senderKey.serialize ++
    Writer.bytes 5 parts.server.bytes ++
    Writer.bytes 6 parts.senderId

/-- Signs the body and reads the certificate back. -/
def make
    [Curves]
    (parts : Make)
    (nonce : Block 64) :
    Outcome Fault SenderCert := do
  let signature ← parts.serverSecret.signWithNonce parts.body nonce
  parse (Certificate.joinSigned parts.body signature)

end SenderCert

/-- A hint about resending; other codes are kept as they are. -/
structure Hint where
  code : UInt8
  deriving DecidableEq

/-- The hint that is not written. -/
def Hint.default : Hint :=
  ⟨0⟩

/--
What an envelope carries: a message, its kind and the sender's certificate.
-/
structure Content where
  kind : Ratchet.Kind
  sender : SenderCert
  body : Bytes
  hint : Hint
  circleId : Option Bytes
  bytes : Bytes
  deriving DecidableEq

namespace Content

/-- The record numbers a first message as one; everywhere else it is three. -/
def kindToRecord : Ratchet.Kind → Nat
  | .first => 1
  | .whisper => 2
  | .circle => 7
  | .plain => 8

/-- The kind of a number in the record. -/
def kindFromRecord : Nat → Outcome Fault Ratchet.Kind
  | 1 => .ok .first
  | 2 => .ok .whisper
  | 7 => .ok .circle
  | 8 => .ok .plain
  | _ => .error .badMessage

/-- What the fields of a content have said so far. -/
structure Draft where
  kind : Option Ratchet.Kind
  sender : Option Bytes
  body : Option Bytes
  hint : Hint
  circleId : Option Bytes

/-- What is known before the first field. -/
def Draft.empty : Draft :=
  ⟨none, none, none, Hint.default, none⟩

/-- Takes in one field of the content. -/
def Draft.read (draft : Draft) (field : Field) : Outcome Fault Draft :=
  match field.number with
  | 1 => do
      let record ← Outcome.ofOption .badMessage field.uint
      let kind ← kindFromRecord record
      return { draft with kind := some kind }
  | 2 => .ok { draft with sender := field.bytes }
  | 3 => .ok { draft with body := field.bytes }
  | 4 => .ok { draft with hint := ⟨UInt8.ofNat (field.uint.getD 0)⟩ }
  | 5 => .ok { draft with circleId := field.bytes }
  | _ => .ok draft

/-- Reads a content, the certificate in it included. -/
def parse (bytes : Bytes) : Outcome Fault Content := do
  let draft ← Codec.fold .badMessage Draft.read bytes Draft.empty
  let kind ← Outcome.ofOption .badMessage draft.kind
  let sender ← Outcome.ofOption .badMessage draft.sender
  let sender ← SenderCert.parse sender
  let body ← Outcome.ofOption .badMessage draft.body
  return ⟨kind, sender, body, draft.hint, draft.circleId, bytes⟩

/-- Writes a content and reads it back. -/
def make
    (kind : Ratchet.Kind)
    (sender : SenderCert)
    (body : Bytes)
    (hint : Hint)
    (circleId : Option Bytes) :
    Outcome Fault Content :=
  parse
    (Writer.uint 1 (kindToRecord kind) ++
      Writer.bytes 2 sender.bytes ++
      Writer.bytes 3 body ++
      (if hint ≠ Hint.default then Writer.uint 4 hint.code.toNat else []) ++
      (match circleId with
        | some circleId => Writer.bytes 5 circleId
        | none => []))

/-- A content keeps the bytes it was parsed from. -/
theorem bytes_of_parse
    {data : Bytes}
    {content : Content}
    (parsed : parse data = .ok content) :
    content.bytes = data := by
  obtain ⟨draft, _, parsed⟩ := Outcome.bind_eq_ok.mp parsed
  obtain ⟨kind, _, parsed⟩ := Outcome.bind_eq_ok.mp parsed
  obtain ⟨sender, _, parsed⟩ := Outcome.bind_eq_ok.mp parsed
  obtain ⟨certificate, _, parsed⟩ := Outcome.bind_eq_ok.mp parsed
  obtain ⟨body, _, parsed⟩ := Outcome.bind_eq_ok.mp parsed
  cases parsed
  rfl

end Content

namespace Sample

/-! A content with its certificates, under the stand-in signatures. -/

/-- A server certificate with a signature of zeroes. -/
def serverCert : ServerCert :=
  let body := Writer.uint 1 1 ++ Writer.bytes 2 (Curve.Public.mk (Block.fill 32 9)).serialize
  ⟨1, ⟨Block.fill 32 9⟩, body, Block.zero 64,
    Certificate.joinSigned body (Block.zero 64)⟩

/-- What a sender certificate is made from, for a key. -/
def senderMake (key : Curve.Public) : SenderCert.Make :=
  ⟨[97], none, 2, key, 1000, serverCert, ⟨Block.fill 32 9⟩⟩

/-- The certificate made from it, with a signature of zeroes. -/
def senderCert (key : Curve.Public) : SenderCert :=
  ⟨[97], none, 2, key, 1000, serverCert, (senderMake key).body,
    Block.zero 64,
    Certificate.joinSigned (senderMake key).body (Block.zero 64)⟩

/-- A whisper of one byte, whose certificate names `key`. -/
def content (key : Curve.Public) : Content :=
  ⟨.whisper, senderCert key, [1], Hint.default, none,
    Writer.uint 1 2 ++ Writer.bytes 2 (senderCert key).bytes ++
      Writer.bytes 3 [1]⟩

end Sample

end Gossveil
