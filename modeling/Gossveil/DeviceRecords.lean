import Gossveil.SessionReach

namespace Gossveil

open Codec

/-!
# The pre-key records of a device

A one-time key, a signed key and a post-quantum key, each read from the record
a store keeps, and a bundle made of the parts a peer published.
-/

namespace PostQuantum

/-- The scheme of a byte; the others are unknown. -/
def Scheme.fromByte : UInt8 → Outcome Fault Scheme
  | 0x08 => .ok .roundThree
  | 0x0A => .ok .standard
  | _ => .error .unknownKeyType

/-- Reads a key behind its scheme. -/
def Public.parse (data : Bytes) : Outcome Fault Public :=
  match data with
  | [] => .error .unknownKeyType
  | first :: rest => do
      let scheme ← Scheme.fromByte first
      let key ← Outcome.ofOption .badKey (Block.ofBytes publicLength rest)
      return ⟨scheme, key⟩

/-- Reads a secret behind its scheme. -/
def Secret.parse (data : Bytes) : Outcome Fault Secret :=
  match data with
  | [] => .error .unknownKeyType
  | first :: rest => do
      let scheme ← Scheme.fromByte first
      let key ← Outcome.ofOption .badKey (Block.ofBytes secretLength rest)
      return ⟨scheme, key⟩

end PostQuantum

namespace Bundle

/-- What the loops of the two curve records collect. -/
structure CurveDraft where
  id : Option Nat
  publicKey : Option Bytes
  secret : Option Bytes
  signature : Option Bytes
  stamp : Nat

/-- What is known before the first field. -/
def CurveDraft.empty : CurveDraft :=
  ⟨none, none, none, none, 0⟩

/-- Both halves of the key have to be there. -/
def CurveDraft.pair (draft : CurveDraft) : Outcome Fault Curve.Pair := do
  let data ← Outcome.ofOption .badArgument draft.publicKey
  let publicKey ← Curve.Public.parse data
  let data ← Outcome.ofOption .badArgument draft.secret
  let secret ← Curve.Secret.parse data
  return ⟨publicKey, secret⟩

namespace OneTimeRecord

/-- An id past 32 bits counts as none. -/
def read (draft : CurveDraft) (field : Field) : Outcome Fault CurveDraft :=
  match field.number with
  | 1 => .ok { draft with id := Outcome.castTo 32 field.uintOrZero }
  | 2 => .ok { draft with publicKey := field.bytes }
  | 3 => .ok { draft with secret := field.bytes }
  | _ => .ok draft

/-- Reads a one-time key from its record. -/
def parse (data : Bytes) : Outcome Fault OneTimeRecord := do
  let draft ← Codec.fold .badMessage read data .empty
  let id ← Outcome.ofOption .badArgument draft.id
  let pair ← draft.pair
  return ⟨id, pair⟩

end OneTimeRecord

namespace SignedRecord

/-- Takes in one field; an id that does not fit counts as none. -/
def read (draft : CurveDraft) (field : Field) : Outcome Fault CurveDraft :=
  match field.number with
  | 1 => .ok { draft with id := Outcome.castTo 32 field.uintOrZero }
  | 2 => .ok { draft with publicKey := field.bytes }
  | 3 => .ok { draft with secret := field.bytes }
  | 4 => .ok { draft with signature := field.bytes }
  | 5 => .ok { draft with stamp := field.word.getD 0 }
  | _ => .ok draft

/-- Reads a signed key from its record. -/
def parse (data : Bytes) : Outcome Fault SignedRecord := do
  let draft ← Codec.fold .badMessage read data .empty
  let signature ← Outcome.ofOption .badArgument draft.signature
  let signature ←
    Outcome.ofOption .badSignature (Block.ofBytes 64 signature)
  let id ← Outcome.ofOption .badArgument draft.id
  let pair ← draft.pair
  return ⟨id, draft.stamp, pair, signature⟩

end SignedRecord

namespace PqRecord

/-- What the fields of a post-quantum key have said so far. -/
structure Draft where
  id : Nat
  publicKey : Option PostQuantum.Public
  secret : Option PostQuantum.Secret
  signature : Option Bytes
  stamp : Nat

/-- What is known before the first field. -/
def Draft.empty : Draft :=
  ⟨0, none, none, none, 0⟩

/-- Takes in one field of the record. -/
def Draft.read (draft : Draft) (field : Field) : Outcome Fault Draft :=
  match field.number with
  | 1 => do
      let id ← field.uint32OrZero .badArgument
      return { draft with id := id }
  | 2 => do
      let data ← field.bytesOr .badArgument
      let publicKey ← PostQuantum.Public.parse data
      return { draft with publicKey := some publicKey }
  | 3 => do
      let data ← field.bytesOr .badArgument
      let secret ← PostQuantum.Secret.parse data
      return { draft with secret := some secret }
  | 4 => .ok { draft with signature := field.bytes }
  | 5 => .ok { draft with stamp := field.word.getD 0 }
  | _ => .ok draft

/-- Reads a post-quantum key; both halves have to be of one scheme. -/
def parse (data : Bytes) : Outcome Fault PqRecord := do
  let draft ← Codec.fold .badMessage Draft.read data .empty
  let publicKey ← Outcome.ofOption .badArgument draft.publicKey
  let secret ← Outcome.ofOption .badArgument draft.secret
  Outcome.require .badKey (publicKey.scheme = secret.scheme)
  let signature ← Outcome.ofOption .badArgument draft.signature
  let signature ←
    Outcome.ofOption .badSignature (Block.ofBytes 64 signature)
  return ⟨draft.id, draft.stamp, ⟨publicKey, secret⟩, signature⟩

end PqRecord

/-- `Published.init`: a one-time key comes with its id or not at all. -/
def Published.init
    (registrationId device : Nat)
    (oneTimeId : Option Nat)
    (oneTime : Option Curve.Public)
    (signedId : Nat)
    (signed : Curve.Public)
    (signedSignature : Bytes)
    (who : Identity)
    (pqId : Nat)
    (pqKey : PostQuantum.Public)
    (pqSignature : Bytes) :
    Outcome Fault Published := do
  Outcome.require .badArgument (oneTimeId.isNone = oneTime.isNone)
  let signedSignature ←
    Outcome.ofOption .badSignature (Block.ofBytes 64 signedSignature)
  let pqSignature ←
    Outcome.ofOption .badSignature (Block.ofBytes 64 pqSignature)
  return ⟨registrationId, device, oneTimeId, oneTime, signedId, signed,
    signedSignature, who, pqId, pqKey, pqSignature⟩

/-! ## The keys that are read are clamped -/

theorem CurveDraft.pair_clamped
    {draft : CurveDraft}
    {pair : Curve.Pair}
    (made : draft.pair = .ok pair) :
    pair.secret.Clamped := by
  obtain ⟨_, _, rest⟩ := Outcome.bind_eq_ok.mp made
  obtain ⟨publicKey, _, rest⟩ := Outcome.bind_eq_ok.mp rest
  obtain ⟨data, _, rest⟩ := Outcome.bind_eq_ok.mp rest
  obtain ⟨secret, isSecret, ⟨⟩⟩ := Outcome.bind_eq_ok.mp rest
  exact Curve.Secret.clamped_parse isSecret

/-- The secret of a signed key that is read is clamped. -/
theorem SignedRecord.clamped_parse
    {data : Bytes}
    {record : SignedRecord}
    (parsed : SignedRecord.parse data = .ok record) :
    record.pair.secret.Clamped := by
  obtain ⟨draft, _, rest⟩ := Outcome.bind_eq_ok.mp parsed
  obtain ⟨_, _, rest⟩ := Outcome.bind_eq_ok.mp rest
  obtain ⟨signature, _, rest⟩ := Outcome.bind_eq_ok.mp rest
  obtain ⟨id, _, rest⟩ := Outcome.bind_eq_ok.mp rest
  obtain ⟨pair, made, ⟨⟩⟩ := Outcome.bind_eq_ok.mp rest
  exact CurveDraft.pair_clamped made

end Bundle

end Gossveil
