import Gossveil.RatchetPost

namespace Gossveil.Ratchet

/-!
# What a binding tells apart

A binding is written as two account identifiers with a device byte behind each.
A device number has 32 bits and only its low byte is written, so two bindings of
the same identifiers are told apart exactly when their devices differ in the low
byte.
-/

/-- A binding with the account identifiers its names parse as. -/
structure NamedBinding where
  binding : Binding
  sender : ServiceId
  recipient : ServiceId
  senderNamed : ServiceId.parse binding.sender.name = .ok sender
  recipientNamed : ServiceId.parse binding.recipient.name = .ok recipient

namespace NamedBinding

/-- The device number of the sender. -/
def senderDevice (named : NamedBinding) : Nat :=
  named.binding.sender.device

/-- The device number of the recipient. -/
def recipientDevice (named : NamedBinding) : Nat :=
  named.binding.recipient.device

/-- The same ids and the same devices on both sides. -/
structure Same (bound ours : NamedBinding) : Prop where
  sender : bound.sender = ours.sender
  senderDevice : bound.senderDevice = ours.senderDevice
  recipient : bound.recipient = ours.recipient
  recipientDevice : bound.recipientDevice = ours.recipientDevice

/-- The same ids, and devices that agree in the byte that is written. -/
structure Alike (bound ours : NamedBinding) : Prop where
  sender : bound.sender = ours.sender
  senderByte : bound.senderDevice % 256 = ours.senderDevice % 256
  recipient : bound.recipient = ours.recipient
  recipientByte : bound.recipientDevice % 256 = ours.recipientDevice % 256

/-- Devices of the same two ids that agree in the low byte are equal. -/
def LowBytesTell (bound ours : NamedBinding) : Prop :=
  Alike bound ours →
    bound.senderDevice = ours.senderDevice ∧
      bound.recipientDevice = ours.recipientDevice

/-- The same addresses are alike on the wire. -/
theorem Same.alike
    {bound ours : NamedBinding}
    (same : Same bound ours) :
    Alike bound ours where
  sender := same.sender
  senderByte := by rw [same.senderDevice]
  recipient := same.recipient
  recipientByte := by rw [same.recipientDevice]

/-- Being told apart and being the same agree exactly when the low bytes tell. -/
theorem alike_imp_same_iff (bound ours : NamedBinding) :
    (Alike bound ours → Same bound ours) ↔ LowBytesTell bound ours := by
  constructor
  · intro faithful alike
    have same := faithful alike
    exact ⟨same.senderDevice, same.recipientDevice⟩
  · intro tell alike
    obtain ⟨senderDevice, recipientDevice⟩ := tell alike
    exact ⟨alike.sender, senderDevice, alike.recipient, recipientDevice⟩

/-- The bytes written for a binding whose names parse. -/
def encoded (named : NamedBinding) : Block 36 :=
  ⟨named.sender.fixed.bytes ++ UInt8.ofNat named.senderDevice ::
    (named.recipient.fixed.bytes ++ [UInt8.ofNat named.recipientDevice]),
    by simp⟩

theorem encodeBinding_eq (named : NamedBinding) :
    encodeBinding named.binding = some named.encoded := by
  simp [encodeBinding, named.senderNamed, named.recipientNamed, encoded,
    senderDevice, recipientDevice]

end NamedBinding

/-- The fixed encoding of an identifier keeps its kind and its bytes. -/
theorem fixed_injective
    {first second : ServiceId}
    (same : first.fixed.bytes = second.fixed.bytes) :
    first = second := by
  have read := congrArg ServiceId.fromFixed (Block.ext same)
  simpa using read

/-- A truncated device keeps its low byte and no more. -/
theorem deviceByte_eq_iff (first second : Nat) :
    UInt8.ofNat first = UInt8.ofNat second ↔
      first % 256 = second % 256 := by
  rw [← UInt8.toNat_inj, UInt8.toNat_ofNat', UInt8.toNat_ofNat']

namespace NamedBinding

/-- The bytes are equal exactly when the addresses are alike. -/
theorem encoded_eq_iff (bound ours : NamedBinding) :
    bound.encoded = ours.encoded ↔ Alike bound ours := by
  constructor
  · intro equal
    have bytes := congrArg Block.bytes equal
    simp only [encoded] at bytes
    obtain ⟨sender, behindSender⟩ :=
      List.append_inj bytes (by simp)
    obtain ⟨senderByte, behindDevice⟩ := List.cons.inj behindSender
    obtain ⟨recipient, last⟩ :=
      List.append_inj behindDevice (by simp)
    have recipientByte := (List.cons.inj last).1
    exact ⟨fixed_injective sender,
      (deviceByte_eq_iff _ _).mp senderByte,
      fixed_injective recipient,
      (deviceByte_eq_iff _ _).mp recipientByte⟩
  · intro alike
    have senderByte := (deviceByte_eq_iff _ _).mpr alike.senderByte
    have recipientByte := (deviceByte_eq_iff _ _).mpr alike.recipientByte
    simp only [encoded, alike.sender, senderByte, alike.recipient,
      recipientByte]

/-- The same of the encoder. -/
theorem encodeBinding_eq_iff (bound ours : NamedBinding) :
    encodeBinding bound.binding = encodeBinding ours.binding ↔
      Alike bound ours := by
  rw [bound.encodeBinding_eq, ours.encodeBinding_eq, Option.some.injEq,
    encoded_eq_iff]

end NamedBinding

namespace Whisper

variable [Hashes]

/-- A sealed message carries the bytes of its binding. -/
theorem binding_of_seal
    {parts : Seal}
    {message : Whisper}
    (fits : parts.Fits)
    (built : «seal» parts = .ok message) :
    message.binding = parts.bound := by
  cases known :
      Frame.messageVersion (Frame.versionByte (parts.version % 16)) with
  | ok version =>
      rw [seal_eq_ok fits known] at built
      cases built
      rfl
  | error fault =>
      rw [seal_eq_error known] at built
      cases built
  | trap =>
      simp only [Frame.messageVersion] at known
      split_ifs at known

/-- The check passes exactly for addresses that are alike. -/
theorem checkBinding_of_seal
    {parts : Seal}
    {message : Whisper}
    (fits : parts.Fits)
    (built : «seal» parts = .ok message)
    {bound : NamedBinding}
    (isBound : parts.binding = some bound.binding)
    (ours : NamedBinding) :
    message.checkBinding (some ours.binding) = true ↔
      bound.Alike ours := by
  have carried : message.binding = some bound.encoded := by
    rw [binding_of_seal fits built, Seal.bound, isBound]
    exact bound.encodeBinding_eq
  simp only [checkBinding, carried, ours.encodeBinding_eq,
    Option.some.injEq, decide_eq_true_eq]
  rw [eq_comm, NamedBinding.encoded_eq_iff]

/--
A sealed message is accepted for exactly the addresses it was bound to, and the
bindings are written differently, if and only if the low bytes tell the devices
apart.
-/
theorem binding_faithful_iff
    {parts : Seal}
    {message : Whisper}
    (fits : parts.Fits)
    (built : «seal» parts = .ok message)
    {bound : NamedBinding}
    (isBound : parts.binding = some bound.binding)
    (ours : NamedBinding) :
    ((message.checkBinding (some ours.binding) = true ↔ bound.Same ours) ↔
        bound.LowBytesTell ours) ∧
      ((encodeBinding bound.binding = encodeBinding ours.binding →
          bound.Same ours) ↔
        bound.LowBytesTell ours) := by
  rw [checkBinding_of_seal fits built isBound ours,
    NamedBinding.encodeBinding_eq_iff]
  constructor
  · constructor
    · intro faithful
      exact (NamedBinding.alike_imp_same_iff bound ours).mp faithful.mp
    · intro tell
      constructor
      · exact (NamedBinding.alike_imp_same_iff bound ours).mpr tell
      · exact NamedBinding.Same.alike
  · exact NamedBinding.alike_imp_same_iff bound ours

end Whisper

/-! ## Devices 1 and 257 -/

namespace Whisper

section Counterexample

open Sample

attribute [local instance] hashes

/-- `"00000000-0000-0000-0000-000000000000"`. -/
private def zeroName : Bytes :=
  List.replicate 8 48 ++ 45 :: (List.replicate 4 48 ++ 45 ::
    (List.replicate 4 48 ++ 45 :: (List.replicate 4 48 ++ 45 ::
      List.replicate 12 48)))

/-- The account with no bit set. -/
private def zeroService : ServiceId :=
  ⟨.aci, ⟨Block.zero 16⟩⟩

private theorem zeroName_parses :
    ServiceId.parse zeroName = .ok zeroService := by
  decide

/-- Both sides under one name, the recipient on some device. -/
private def onDevice (device : Nat) : NamedBinding where
  binding := ⟨⟨zeroName, 1⟩, ⟨zeroName, device⟩⟩
  sender := zeroService
  recipient := zeroService
  senderNamed := zeroName_parses
  recipientNamed := zeroName_parses

/-- What is sealed to device 1. -/
private def toDeviceOne : Seal :=
  ⟨4, Block.zero 32, some (onDevice 1).binding, ⟨Block.fill 32 1⟩, 0, 0,
    [7], ⟨Block.fill 32 2⟩, ⟨Block.fill 32 3⟩, []⟩

private theorem toDeviceOne_fits : toDeviceOne.Fits :=
  ⟨by decide, by decide, by decide⟩

/-- The same as a parsed message. -/
private def messageToOne : Whisper :=
  ⟨4, toDeviceOne.ratchet, 0, 0, [7], [], toDeviceOne.bound,
    toDeviceOne.encode, toDeviceOne.longEnough⟩

private theorem toDeviceOne_seal :
    «seal» toDeviceOne = .ok messageToOne :=
  seal_eq_ok toDeviceOne_fits (by decide)

/-- Devices 1 and 2 are told apart. -/
theorem binding_faithful_iff_oneAndTwo :
    ((messageToOne.checkBinding (some (onDevice 2).binding) = true ↔
          (onDevice 1).Same (onDevice 2)) ↔
        (onDevice 1).LowBytesTell (onDevice 2)) ∧
      ((encodeBinding (onDevice 1).binding =
            encodeBinding (onDevice 2).binding →
          (onDevice 1).Same (onDevice 2)) ↔
        (onDevice 1).LowBytesTell (onDevice 2)) :=
  binding_faithful_iff toDeviceOne_fits toDeviceOne_seal rfl (onDevice 2)

/-- A message bound to device 1 passes on device 257. -/
theorem device257_accepts_device1 :
    «seal» toDeviceOne = .ok messageToOne ∧
      toDeviceOne.binding = some (onDevice 1).binding ∧
      messageToOne.checkBinding (some (onDevice 257).binding) = true ∧
      encodeBinding (onDevice 1).binding =
        encodeBinding (onDevice 257).binding ∧
      ¬ (onDevice 1).Same (onDevice 257) := by
  have alike : (onDevice 1).Alike (onDevice 257) := ⟨rfl, rfl, rfl, rfl⟩
  refine ⟨toDeviceOne_seal, rfl, ?_, ?_, ?_⟩
  · exact (checkBinding_of_seal toDeviceOne_fits toDeviceOne_seal rfl
      (onDevice 257)).mpr alike
  · exact ((onDevice 1).encodeBinding_eq_iff (onDevice 257)).mpr alike
  · intro same
    have devices : 1 = 257 := same.recipientDevice
    cases devices

end Counterexample

end Whisper

end Gossveil.Ratchet
