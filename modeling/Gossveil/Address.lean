import Gossveil.Primitives

namespace Gossveil

/-!
# Addresses and account identifiers

A name and a device number.  A name that is an account identifier, with or
without the mark of a phone-number identity, has a fixed encoding.
-/

/-- A sixteen-byte identifier. -/
structure Uuid where
  bytes : Block 16
  deriving DecidableEq

namespace Uuid

/-- The characters of an id: its digits and four hyphens. -/
def textLength : Nat := 36

/-- `std.fmt.charToDigit(c, 16)`. -/
def hexDigit (char : UInt8) : Option Nat :=
  if 48 ≤ char.toNat ∧ char.toNat ≤ 57 then
    some (char.toNat - 48)
  else if 65 ≤ char.toNat ∧ char.toNat ≤ 70 then
    some (char.toNat - 55)
  else if 97 ≤ char.toNat ∧ char.toNat ≤ 102 then
    some (char.toNat - 87)
  else
    none

/-- Two digits for each byte. -/
def hexBytes : Bytes → Option Bytes
  | high :: low :: rest => do
      let high ← hexDigit high
      let low ← hexDigit low
      let bytes ← hexBytes rest
      return UInt8.ofNat (high * 16 + low) :: bytes
  | _ => some []

/-- Where the hyphens stand. -/
def hyphens : List Nat :=
  [8, 13, 18, 23]

/-- The text without its four hyphens. -/
def digits (source : Bytes) : Bytes :=
  source.take 8 ++ (source.drop 9).take 4 ++ (source.drop 14).take 4 ++
    (source.drop 19).take 4 ++ source.drop 24

/-- Reads an id: the length, the places of the hyphens, then the digits. -/
def parse (source : Bytes) : Outcome Fault Uuid :=
  if source.length ≠ textLength then
    .error .badText
  else if ¬ ∀ index ∈ hyphens, source.getD index 0 = 45 then
    .error .badText
  else do
    let bytes ←
      Outcome.ofOption .badText
        ((hexBytes (digits source)).bind (Block.ofBytes 16))
    return ⟨bytes⟩

end Uuid

/-- An account, or a phone-number identity. -/
inductive ServiceKind where
  | aci
  | pni
  deriving DecidableEq, Repr

/-- The byte before an id of the kind. -/
def ServiceKind.code : ServiceKind → UInt8
  | .aci => 0
  | .pni => 1

/-- An account or a phone number identity. -/
structure ServiceId where
  kind : ServiceKind
  id : Uuid
  deriving DecidableEq

namespace ServiceId

/-- Seventeen bytes: the kind, then the id. -/
def fixed (service : ServiceId) : Block 17 :=
  ⟨service.kind.code :: service.id.bytes.bytes, by simp⟩

/-- Reads the kind and the id from seventeen bytes. -/
def fromFixed (bytes : Block 17) : Outcome Fault ServiceId :=
  match bytes.bytes.head?, Block.ofBytes 16 bytes.bytes.tail with
  | some 0, some id => .ok ⟨.aci, ⟨id⟩⟩
  | some 1, some id => .ok ⟨.pni, ⟨id⟩⟩
  | _, _ => .error .badArgument

@[simp] theorem fromFixed_fixed (service : ServiceId) :
    fromFixed service.fixed = .ok service := by
  rcases service with ⟨kind, id⟩
  cases kind <;> simp [fromFixed, fixed, ServiceKind.code]

/-- What is read is the fixed form. -/
theorem fixed_of_fromFixed
    {bytes : Block 17}
    {service : ServiceId}
    (parsed : fromFixed bytes = .ok service) :
    service.fixed = bytes := by
  rcases bytes with ⟨_ | ⟨kind, rest⟩, length⟩
  · simp at length
  · simp only [fromFixed, List.head?_cons, List.tail_cons] at parsed
    split at parsed
    · rename_i isKind isId
      cases parsed
      obtain rfl := Option.some.inj isKind
      ext1
      simp [fixed, ServiceKind.code, Block.ofBytes_eq_some.mp isId]
    · rename_i isKind isId
      cases parsed
      obtain rfl := Option.some.inj isKind
      ext1
      simp [fixed, ServiceKind.code, Block.ofBytes_eq_some.mp isId]
    · cases parsed

theorem fromFixed_ne_trap (bytes : Block 17) : fromFixed bytes ≠ .trap := by
  unfold fromFixed
  split <;> simp

/-- `"PNI:"`. -/
def pniMark : Bytes :=
  [80, 78, 73, 58]

/-- Reads an id, with or without the mark of a phone number identity. -/
def parse (source : Bytes) : Outcome Fault ServiceId :=
  if pniMark.isPrefixOf source then do
    let id ← Uuid.parse (source.drop 4)
    return ⟨.pni, id⟩
  else do
    let id ← Uuid.parse source
    return ⟨.aci, id⟩

end ServiceId

/-- Where a message goes; the device is a 32-bit integer. -/
structure Address where
  name : Bytes
  device : Nat
  deriving DecidableEq

end Gossveil
