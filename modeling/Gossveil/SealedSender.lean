import Gossveil.Listing

namespace Gossveil.Sdk

open Multiseal Listing

/-!
# Sealing for many recipients through the bindings

Each binding lists the recipients and the excluded ids in bytes and hands both
listings to the core.  Two of them put a count into a container of bytes, which
keeps its low eight bits; the third refuses a count that does not fit.
-/

/-- What the clients throw. -/
inductive SdkError where
  | invalidArgument (message : String)
  | invalidRegistrationId
      (serviceId : ServiceId)
      (deviceId : Nat)
      (message : String)
  | core (fault : Fault)
  deriving DecidableEq

/-- Ids as the bindings hold them. -/
structure SdkDevice where
  deviceId : Nat
  registrationId : Nat
  deriving DecidableEq, Repr

/-- A recipient as a client takes it. -/
structure SealedSenderRecipient (δ : Type) where
  serviceId : ServiceId
  devices : List δ
  identityKey : Curve.Public

/-- A content object; its constructor parses the bytes it keeps. -/
structure UnidentifiedSenderMessageContent where
  bytes : Bytes
  parses : ∃ content, Content.parse bytes = .ok content

/-- What `Uint8Array.from` and `ByteArrayOutputStream.write` keep of a number. -/
def octet (value : Nat) : UInt8 :=
  UInt8.ofNat value

section Truncating

/-! ### The bindings that keep the low byte -/

variable (refusal : ServiceId → SdkDevice → SdkError)

/-- The devices of a recipient in the listing; what does not fit is refused. -/
def deviceListing
    (serviceId : ServiceId) :
    List SdkDevice → Outcome SdkError Bytes
  | [] => .ok []
  | device :: devices => do
      Outcome.require (refusal serviceId device)
        (¬ (255 < device.deviceId ∨ 0xffff < device.registrationId))
      let back ← deviceListing serviceId devices
      return octet device.deviceId :: octet (device.registrationId >>> 8) ::
        octet (device.registrationId &&& 0xff) :: back

/-- The recipients in the listing, one after the other. -/
def recipientListing :
    List (SealedSenderRecipient SdkDevice) → Outcome SdkError Bytes
  | [] => .ok []
  | recipient :: recipients => do
      let devices ← deviceListing refusal recipient.serviceId recipient.devices
      let back ← recipientListing recipients
      return recipient.serviceId.fixed.bytes ++
        (octet recipient.devices.length ::
          (devices ++ (recipient.identityKey.serialize ++ back)))

variable [Hashes] [Curves] [GcmSiv]

/-- Writes the two listings and calls the core. -/
def encryptFor
    (m : Block 32)
    (identity : Block 32)
    (content : UnidentifiedSenderMessageContent)
    (recipients : List (SealedSenderRecipient SdkDevice))
    (excludedRecipients : List ServiceId) :
    Outcome SdkError Bytes := do
  let listing ← recipientListing refusal recipients
  let excluded :=
    octet excludedRecipients.length ::
      excludedRecipients.flatMap fun serviceId => serviceId.fixed.bytes
  (envelopeSealMany m identity.bytes (octet recipients.length :: listing)
    excluded content.bytes).mapError .core

end Truncating

namespace TypeScript

/-- What is thrown for a device that does not fit. -/
def refusal (_ : ServiceId) (_ : SdkDevice) : SdkError :=
  .invalidArgument "device or registration id does not fit the envelope"

/-- The call of the TypeScript client. -/
def sealedSenderMultiRecipientEncrypt
    [Hashes] [Curves] [GcmSiv]
    (m : Block 32)
    (identity : Block 32)
    (content : UnidentifiedSenderMessageContent)
    (recipients : List (SealedSenderRecipient SdkDevice))
    (excludedRecipients : List ServiceId) :
    Outcome SdkError Bytes :=
  encryptFor refusal m identity content recipients excludedRecipients

end TypeScript

namespace Kotlin

/-- What is thrown for a device that does not fit. -/
def refusal (serviceId : ServiceId) (device : SdkDevice) : SdkError :=
  .invalidRegistrationId serviceId device.deviceId
    "registration id does not fit the envelope"

/-- The call of the Kotlin client. -/
def multiRecipientEncryptFor
    [Hashes] [Curves] [GcmSiv]
    (m : Block 32)
    (identity : Block 32)
    (content : UnidentifiedSenderMessageContent)
    (recipients : List (SealedSenderRecipient SdkDevice))
    (excluded : List ServiceId) :
    Outcome SdkError Bytes :=
  encryptFor refusal m identity content recipients excluded

end Kotlin

namespace Swift

/-- The ids are of an eight-bit and a sixteen-bit type. -/
structure Device where
  deviceId : UInt8
  registrationId : UInt16
  deriving DecidableEq, Repr

/-- A device in the listing; its numbers fit by their types. -/
def deviceListing (device : Device) : Bytes :=
  [device.deviceId, octet (device.registrationId.toNat >>> 8),
    octet (device.registrationId.toNat &&& 0xff)]

/-- The recipients in the listing; too many devices are refused. -/
def recipientListing :
    List (SealedSenderRecipient Device) → Outcome SdkError Bytes
  | [] => .ok []
  | recipient :: recipients => do
      Outcome.require (.invalidArgument "too many devices")
        (recipient.devices.length ≤ 255)
      let count ← Outcome.intCast 8 recipient.devices.length
      let back ← recipientListing recipients
      return recipient.serviceId.fixed.bytes ++
        (octet count ::
          (recipient.devices.flatMap deviceListing ++
            (recipient.identityKey.serialize ++ back)))

/-- The call of the Swift client. -/
def sealedSenderMultiRecipientEncrypt
    [Hashes] [Curves] [GcmSiv]
    (m : Block 32)
    (identity : Block 32)
    (content : UnidentifiedSenderMessageContent)
    (recipients : List (SealedSenderRecipient Device))
    (excludedRecipients : List ServiceId) :
    Outcome SdkError Bytes := do
  Outcome.require (.invalidArgument "too many recipients")
    (recipients.length ≤ 255 ∧ excludedRecipients.length ≤ 255)
  let count ← Outcome.intCast 8 recipients.length
  let listing ← recipientListing recipients
  let excludedCount ← Outcome.intCast 8 excludedRecipients.length
  let excluded :=
    octet excludedCount ::
      excludedRecipients.flatMap fun serviceId => serviceId.fixed.bytes
  (envelopeSealMany m identity.bytes (octet count :: listing)
    excluded content.bytes).mapError .core

end Swift

/-! ## What a caller asks for -/

/-- The ids of a device that an envelope can carry. -/
structure SdkDevice.Allowed (device : SdkDevice) : Prop where
  positive : 1 ≤ device.deviceId
  deviceId : device.deviceId ≤ 255
  registrationId : device.registrationId ≤ 0x3FFF

/-- The recipient has devices, and their numbers fit. -/
structure SealedSenderRecipient.Allowed
    (recipient : SealedSenderRecipient SdkDevice) :
    Prop where
  some : recipient.devices ≠ []
  devices : ∀ device ∈ recipient.devices, device.Allowed

namespace Swift

/-- The numbers of a device. -/
def Device.ids (device : Device) : SdkDevice :=
  ⟨device.deviceId.toNat, device.registrationId.toNat⟩

/-- The same recipient, with its ids as numbers. -/
def numbered
    (recipient : SealedSenderRecipient Device) :
    SealedSenderRecipient SdkDevice :=
  ⟨recipient.serviceId, recipient.devices.map Device.ids,
    recipient.identityKey⟩

end Swift

/-- What the caller asked for: the recipient and its devices. -/
def SealedSenderRecipient.asked
    (recipient : SealedSenderRecipient SdkDevice) :
    ServiceId × List (Nat × Nat) :=
  (recipient.serviceId,
    recipient.devices.map fun device =>
      (device.deviceId, device.registrationId))

/-- What the message lists: the recipient and its devices. -/
def found (sent : SentRecipient) : ServiceId × List (Nat × Nat) :=
  (sent.serviceId,
    sent.devices.map fun device =>
      (device.device.toNat, device.registrationId))

/--
The call throws, or returns an envelope that lists exactly the recipients in
order and then exactly the excluded ids.
-/
def ListsEveryone
    (call : Outcome SdkError Bytes)
    (recipients : List (SealedSenderRecipient SdkDevice))
    (excluded : List ServiceId) :
    Prop :=
  call ≠ .trap ∧
    ∀ envelope,
      call = .ok envelope →
        ∃ sent,
          parseSent envelope = .ok sent ∧
            sent.recipients.map found =
              recipients.map SealedSenderRecipient.asked ++
                excluded.map fun serviceId => (serviceId, [])

/-- Each count of the listings fits its byte. -/
structure CountsFit
    (recipients : List (SealedSenderRecipient SdkDevice))
    (excluded : List ServiceId) :
    Prop where
  fewRecipients : recipients.length ≤ 255
  fewExcluded : excluded.length ≤ 255
  fewDevices : ∀ recipient ∈ recipients, recipient.devices.length ≤ 255

/-- The recipient the core is to read. -/
def SealedSenderRecipient.toCore
    (recipient : SealedSenderRecipient SdkDevice) :
    Recipient :=
  ⟨recipient.serviceId,
    recipient.devices.map fun device =>
      ⟨octet device.deviceId, device.registrationId⟩,
    recipient.identityKey⟩

/-- The bytes the recipients are listed in, with every count cut to a byte. -/
def listingOf (recipients : List (SealedSenderRecipient SdkDevice)) : Bytes :=
  recipientsBytes (recipients.map SealedSenderRecipient.toCore)

/-- The core finds nothing in the listing that it would seal for. -/
def Refused
    [Hashes] [Curves]
    (m identity : Block 32)
    (recipients : List (SealedSenderRecipient SdkDevice)) :
    Prop :=
  ¬ ∃ read, Accepted m identity.bytes (listingOf recipients) read

/-! ## What the bindings hand over -/

theorem bigEndian_octets (value : Nat) :
    Gossveil.bigEndian 2 value =
      [octet (value >>> 8), octet (value &&& 0xff)] := by
  have low : value &&& 0xff = value % 256 :=
    Nat.and_two_pow_sub_one_eq_mod value 8
  have high : value >>> 8 = value / 256 := Nat.shiftRight_eq_div_pow value 8
  have cut : UInt8.ofNat (value / 256 % 256) = UInt8.ofNat (value / 256) := by
    apply UInt8.toNat_inj.mp
    simp [UInt8.toNat_ofNat']
  simp [Gossveil.bigEndian, Codec.Writer.littleEndian, octet, low, high, cut]

section Truncating

variable (refusal : ServiceId → SdkDevice → SdkError)

/-- Allowed devices are listed as the core lists them. -/
theorem deviceListing_eq
    (serviceId : ServiceId)
    {devices : List SdkDevice}
    (allowed : ∀ device ∈ devices, device.Allowed) :
    deviceListing refusal serviceId devices =
      .ok ((devices.map fun device =>
        Multiseal.Device.mk (octet device.deviceId)
          device.registrationId).flatMap deviceBytes) := by
  induction devices with
  | nil =>
      rfl
  | cons device devices inductionHypothesis =>
      obtain ⟨first, others⟩ := List.forall_mem_cons.mp allowed
      have fits :
          ¬ (255 < device.deviceId ∨ 0xffff < device.registrationId) := by
        have := first.deviceId
        have := first.registrationId
        omega
      rw [deviceListing, Outcome.require_of fits, inductionHypothesis others]
      simp [deviceBytes, bigEndian_octets]

/-- Allowed recipients are listed as the core lists them. -/
theorem recipientListing_eq
    {recipients : List (SealedSenderRecipient SdkDevice)}
    (allowed : ∀ recipient ∈ recipients, recipient.Allowed) :
    recipientListing refusal recipients =
      .ok ((recipients.map SealedSenderRecipient.toCore).flatMap
        recipientBytes) := by
  induction recipients with
  | nil =>
      rfl
  | cons recipient recipients inductionHypothesis =>
      obtain ⟨first, others⟩ := List.forall_mem_cons.mp allowed
      simp [recipientListing, deviceListing_eq refusal recipient.serviceId
        first.devices, inductionHypothesis others, recipientBytes,
        countedBytes, SealedSenderRecipient.toCore, octet]

/-- With ids that fit, the listings are those of the core. -/
theorem encryptFor_eq
    [Hashes] [Curves] [GcmSiv]
    (m identity : Block 32)
    (content : UnidentifiedSenderMessageContent)
    {recipients : List (SealedSenderRecipient SdkDevice)}
    (excluded : List ServiceId)
    (allowed : ∀ recipient ∈ recipients, recipient.Allowed) :
    encryptFor refusal m identity content recipients excluded =
      (envelopeSealMany m identity.bytes (listingOf recipients)
        (excludedBytes excluded) content.bytes).mapError .core := by
  rw [encryptFor, recipientListing_eq refusal allowed]
  simp [listingOf, recipientsBytes, excludedBytes, countedBytes, octet]

end Truncating

/-! ## What comes back -/

/-- Two parts that a property tells apart are found again in their whole. -/
theorem append_inj_of_apart
    {α : Type}
    {Holds : α → Prop}
    [DecidablePred Holds]
    {front back otherFront otherBack : List α}
    (same : front ++ back = otherFront ++ otherBack)
    (holds : ∀ item ∈ front, Holds item)
    (fails : ∀ item ∈ back, ¬ Holds item)
    (otherHolds : ∀ item ∈ otherFront, Holds item)
    (otherFails : ∀ item ∈ otherBack, ¬ Holds item) :
    front = otherFront ∧ back = otherBack := by
  have kept :
      ∀ {first second : List α},
        (∀ item ∈ first, Holds item) →
        (∀ item ∈ second, ¬ Holds item) →
        (first ++ second).filter (fun item => Holds item) = first := by
    intro first second ofFirst ofSecond
    rw [List.filter_append, List.filter_eq_self.mpr (by simpa using ofFirst),
      List.filter_eq_nil_iff.mpr (by simpa using ofSecond), List.append_nil]
  have fronts : front = otherFront := by
    rw [← kept holds fails, same, kept otherHolds otherFails]
  subst fronts
  exact ⟨rfl, List.append_cancel_left same⟩

/-- The ids of a listed recipient as numbers. -/
def numbersOf
    (listed : ServiceId × List Multiseal.Device) :
    ServiceId × List (Nat × Nat) :=
  (listed.1,
    listed.2.map fun device => (device.device.toNat, device.registrationId))

theorem map_found (recipients : List SentRecipient) :
    recipients.map found =
      (recipients.map SentRecipient.listed).map numbersOf := by
  rw [List.map_map]
  rfl

/-- The devices found are those asked for. -/
theorem asked_eq
    {recipients : List (SealedSenderRecipient SdkDevice)}
    (allowed : ∀ recipient ∈ recipients, recipient.Allowed) :
    ((recipients.map SealedSenderRecipient.toCore).map
        Recipient.listed).map numbersOf =
      recipients.map SealedSenderRecipient.asked := by
  rw [List.map_map, List.map_map]
  apply List.map_congr_left
  intro recipient member
  have kept :
      ∀ device ∈ recipient.devices,
        (octet device.deviceId).toNat = device.deviceId := by
    intro device among
    have small := ((allowed recipient member).devices device among).deviceId
    rw [octet, UInt8.toNat_ofNat', Nat.mod_eq_of_lt (by omega)]
  simpa [numbersOf, Recipient.listed, SealedSenderRecipient.toCore,
    SealedSenderRecipient.asked] using kept

/-- An allowed recipient with few devices fits the listing. -/
theorem toCore_fits
    {recipient : SealedSenderRecipient SdkDevice}
    (allowed : recipient.Allowed)
    (few : recipient.devices.length ≤ 255) :
    Fits recipient.toCore where
  devices := by simpa [SealedSenderRecipient.toCore] using few
  registrationIds := by
    intro device member
    obtain ⟨asked, among, rfl⟩ := List.mem_map.mp member
    have small := (allowed.devices asked among).registrationId
    change asked.registrationId < 2 ^ 16
    omega

section HandedOver

variable [Hashes] [Curves] [GcmSiv]
  {m identity : Block 32} {content : UnidentifiedSenderMessageContent}
  {recipients : List (SealedSenderRecipient SdkDevice)}
  {excluded : List ServiceId}

/-- Counts that fit leave nothing out. -/
theorem listsEveryone_of_countsFit
    (allowed : ∀ recipient ∈ recipients, recipient.Allowed)
    (fit : CountsFit recipients excluded) :
    ListsEveryone
      ((envelopeSealMany m identity.bytes (listingOf recipients)
        (excludedBytes excluded) content.bytes).mapError .core)
      recipients excluded := by
  obtain ⟨parsed, isContent⟩ := content.parses
  constructor
  · rw [Ne, Outcome.mapError_eq_trap]
    exact envelopeSealMany_ne_trap isContent
  · intro envelope returned
    obtain ⟨read, sent, isRead, _, _, isSent, listed⟩ :=
      envelopeSealMany_listed isContent (Outcome.mapError_eq_ok.mp returned)
    have few := fit.fewRecipients
    have fewExcluded := fit.fewExcluded
    have fits :
        ∀ recipient ∈ recipients.map SealedSenderRecipient.toCore,
          Fits recipient := by
      intro recipient member
      obtain ⟨asked, among, rfl⟩ := List.mem_map.mp member
      exact toCore_fits (allowed asked among) (fit.fewDevices asked among)
    have whole := readRecipients_recipientsBytes fits []
    rw [List.append_nil, List.length_map, Nat.mod_eq_of_lt (by omega),
      List.take_of_length_le (by simp)] at whole
    have sameRead :
        recipients.map SealedSenderRecipient.toCore = read := by
      have both := whole.symm.trans isRead
      exact Outcome.ok.inj both
    refine ⟨sent, isSent, ?_⟩
    rw [map_found, listed, Nat.mod_eq_of_lt (by omega), List.take_length,
      List.map_append, ← sameRead, asked_eq allowed, List.map_map]
    rfl

/-- An envelope that lists everyone has counted everyone. -/
theorem countsFit_of_listsEveryone
    (allowed : ∀ recipient ∈ recipients, recipient.Allowed)
    {envelope : Bytes}
    (returned :
      envelopeSealMany m identity.bytes (listingOf recipients)
        (excludedBytes excluded) content.bytes = .ok envelope)
    (everyone :
      ListsEveryone (.ok envelope : Outcome SdkError Bytes)
        recipients excluded) :
    CountsFit recipients excluded := by
  obtain ⟨parsed, isContent⟩ := content.parses
  obtain ⟨read, sent, _, each, few, isSent, listed⟩ :=
    envelopeSealMany_listed isContent returned
  obtain ⟨again, isAgain, same⟩ := everyone.2 envelope rfl
  obtain rfl : sent = again := Outcome.ok.inj (isSent.symm.trans isAgain)
  rw [map_found, listed, List.map_append] at same
  obtain ⟨sameRead, sameExcluded⟩ :=
    @append_inj_of_apart _ (fun item => item.2 ≠ []) _ _ _ _ _ same
      (by
        intro item member
        simp only [List.map_map, List.mem_map] at member
        obtain ⟨recipient, among, rfl⟩ := member
        simpa [numbersOf, Recipient.listed] using (each recipient among).1)
      (by
        intro item member
        simp only [List.map_map, List.mem_map] at member
        obtain ⟨serviceId, _, rfl⟩ := member
        simp [numbersOf])
      (by
        intro item member
        obtain ⟨recipient, among, rfl⟩ := List.mem_map.mp member
        simpa [SealedSenderRecipient.asked] using (allowed recipient among).some)
      (by
        intro item member
        obtain ⟨serviceId, _, rfl⟩ := List.mem_map.mp member
        simp)
  have lengths := congrArg List.length sameRead
  have excludedLengths := congrArg List.length sameExcluded
  simp only [List.length_map, List.length_take] at lengths excludedLengths
  refine ⟨by omega, by omega, ?_⟩
  intro recipient member
  have asked : recipient.asked ∈
      (read.map Recipient.listed).map numbersOf := by
    rw [sameRead]
    exact List.mem_map_of_mem member
  simp only [List.map_map, List.mem_map] at asked
  obtain ⟨counterpart, among, same⟩ := asked
  have devices := congrArg (fun item => item.2.length) same
  simp only [Function.comp_apply, numbersOf, Recipient.listed,
    SealedSenderRecipient.asked, List.length_map] at devices
  exact devices ▸ (each counterpart among).2

/-- Everyone is listed when the counts fit, or the listing is refused. -/
theorem handedOver_listsEveryone_iff
    (allowed : ∀ recipient ∈ recipients, recipient.Allowed) :
    ListsEveryone
        ((envelopeSealMany m identity.bytes (listingOf recipients)
          (excludedBytes excluded) content.bytes).mapError .core)
        recipients excluded ↔
      CountsFit recipients excluded ∨ Refused m identity recipients := by
  obtain ⟨parsed, isContent⟩ := content.parses
  constructor
  · intro everyone
    rw [or_iff_not_imp_right]
    intro notRefused
    obtain ⟨envelope, returned⟩ :=
      (@exists_envelopeSealMany _ _ _ m identity.bytes (listingOf recipients)
        content.bytes parsed excluded isContent).mpr (not_not.mp notRefused)
    rw [returned] at everyone
    exact countsFit_of_listsEveryone allowed returned everyone
  · rintro (fit | refused)
    · exact listsEveryone_of_countsFit allowed fit
    · constructor
      · rw [Ne, Outcome.mapError_eq_trap]
        exact envelopeSealMany_ne_trap isContent
      · intro envelope returned
        exact absurd
          ((exists_envelopeSealMany isContent).mp
            ⟨envelope, Outcome.mapError_eq_ok.mp returned⟩) refused

end HandedOver

namespace Swift

theorem deviceListing_eq (device : Device) :
    deviceListing device =
      deviceBytes
        ⟨octet device.ids.deviceId, device.ids.registrationId⟩ := by
  rw [deviceBytes, bigEndian_octets, deviceListing]
  simp [Device.ids, octet]

theorem toCore_numbered (recipient : SealedSenderRecipient Device) :
    recipientBytes (numbered recipient).toCore =
      recipient.serviceId.fixed.bytes ++
        (octet recipient.devices.length ::
          (recipient.devices.flatMap deviceListing ++
            recipient.identityKey.serialize)) := by
  have devices :
      recipient.devices.flatMap deviceListing =
        (numbered recipient).toCore.devices.flatMap deviceBytes := by
    rw [funext deviceListing_eq]
    simp [SealedSenderRecipient.toCore, numbered, List.flatMap_map]
  rw [devices]
  simp [recipientBytes, countedBytes, SealedSenderRecipient.toCore, numbered,
    octet]

/-- The listing is that of the core, or a device count does not fit. -/
theorem recipientListing_eq (recipients : List (SealedSenderRecipient Device)) :
    recipientListing recipients =
        .ok (((recipients.map numbered).map
          SealedSenderRecipient.toCore).flatMap recipientBytes) ∧
      (∀ recipient ∈ recipients, recipient.devices.length ≤ 255) ∨
    recipientListing recipients =
      .error (.invalidArgument "too many devices") := by
  induction recipients with
  | nil =>
      left
      exact ⟨rfl, by simp⟩
  | cons recipient recipients inductionHypothesis =>
      by_cases few : recipient.devices.length ≤ 255
      · have cast :
            (Outcome.intCast 8 recipient.devices.length :
              Outcome SdkError Nat) =
            .ok recipient.devices.length :=
          Outcome.intCast_of_lt (by omega)
        rw [recipientListing, Outcome.require_of few, Outcome.ok_bind, cast,
          Outcome.ok_bind]
        rcases inductionHypothesis with ⟨listed, others⟩ | refused
        · left
          rw [listed, List.map_cons, List.map_cons, List.flatMap_cons,
            toCore_numbered]
          exact ⟨by simp, List.forall_mem_cons.mpr ⟨few, others⟩⟩
        · right
          rw [refused]
          rfl
      · right
        rw [recipientListing, Outcome.require_not few]
        rfl

/-- The guards let nothing through that a count could not say. -/
theorem listsEveryone
    [Hashes] [Curves] [GcmSiv]
    (m identity : Block 32)
    (content : UnidentifiedSenderMessageContent)
    {recipients : List (SealedSenderRecipient Device)}
    (excluded : List ServiceId)
    (allowed :
      ∀ recipient ∈ recipients.map numbered, recipient.Allowed) :
    ListsEveryone
      (sealedSenderMultiRecipientEncrypt m identity content recipients
        excluded)
      (recipients.map numbered) excluded := by
  have throws (error : SdkError) :
      ListsEveryone (.error error) (recipients.map numbered) excluded :=
    ⟨by simp, by simp⟩
  unfold sealedSenderMultiRecipientEncrypt
  by_cases few : recipients.length ≤ 255 ∧ excluded.length ≤ 255
  · have cast {count : Nat} (fits : count ≤ 255) :
        (Outcome.intCast 8 count : Outcome SdkError Nat) = .ok count :=
      Outcome.intCast_of_lt (by omega)
    rw [Outcome.require_of few, Outcome.ok_bind, cast few.1, Outcome.ok_bind]
    rcases recipientListing_eq recipients with ⟨listed, fewDevices⟩ | refused
    · rw [listed, Outcome.ok_bind, cast few.2, Outcome.ok_bind]
      have fit : CountsFit (recipients.map numbered) excluded := by
        refine ⟨by simpa using few.1, few.2, ?_⟩
        intro recipient member
        obtain ⟨original, among, rfl⟩ := List.mem_map.mp member
        simpa [numbered] using fewDevices original among
      have everyone :=
        @listsEveryone_of_countsFit _ _ _ m identity content _ _ allowed fit
      simpa only [listingOf, recipientsBytes, excludedBytes, countedBytes,
        List.length_map, octet] using everyone
    · rw [refused]
      exact throws _
  · rw [Outcome.require_not few]
    exact throws _

end Swift

section Result

variable [Hashes] [Curves] [GcmSiv]

/--
The bindings that keep the low byte of a count list everyone exactly when
every count fits, or the core finds nothing it would seal for in what is left
of the listing.  The binding that refuses larger counts always does.
-/
theorem manyRecipients_listsEveryone_iff
    (m identity : Block 32)
    (content : UnidentifiedSenderMessageContent)
    (excluded : List ServiceId) :
    (∀ recipients : List (SealedSenderRecipient SdkDevice),
      (∀ recipient ∈ recipients, recipient.Allowed) →
        (ListsEveryone
            (TypeScript.sealedSenderMultiRecipientEncrypt m identity content
              recipients excluded)
            recipients excluded ↔
          CountsFit recipients excluded ∨ Refused m identity recipients) ∧
        (ListsEveryone
            (Kotlin.multiRecipientEncryptFor m identity content
              recipients excluded)
            recipients excluded ↔
          CountsFit recipients excluded ∨ Refused m identity recipients)) ∧
      ∀ recipients : List (SealedSenderRecipient Swift.Device),
        (∀ recipient ∈ recipients.map Swift.numbered, recipient.Allowed) →
          ListsEveryone
            (Swift.sealedSenderMultiRecipientEncrypt m identity content
              recipients excluded)
            (recipients.map Swift.numbered) excluded := by
  constructor
  · intro recipients allowed
    constructor
    · rw [TypeScript.sealedSenderMultiRecipientEncrypt,
        encryptFor_eq TypeScript.refusal m identity content excluded allowed]
      exact handedOver_listsEveryone_iff allowed
    · rw [Kotlin.multiRecipientEncryptFor,
        encryptFor_eq Kotlin.refusal m identity content excluded allowed]
      exact handedOver_listsEveryone_iff allowed
  · intro recipients allowed
    exact Swift.listsEveryone m identity content excluded allowed

end Result

/--
As long as the device counts fit, what the cut listing of the recipients still
says is its first recipients, as many as the low byte of their number.
-/
theorem listingOf_stands_iff
    {recipients : List (SealedSenderRecipient SdkDevice)}
    (allowed : ∀ recipient ∈ recipients, recipient.Allowed)
    (few : ∀ recipient ∈ recipients, recipient.devices.length ≤ 255)
    {read : List Recipient}
    (count : read.length ≤ 255)
    (fits : ∀ recipient ∈ read, Fits recipient) :
    (∃ rest, listingOf recipients = recipientsBytes read ++ rest) ↔
      read =
        (recipients.map SealedSenderRecipient.toCore).take
          (recipients.length % 256) := by
  have listed :
      ∀ recipient ∈ recipients.map SealedSenderRecipient.toCore,
        Fits recipient := by
    intro recipient member
    obtain ⟨asked, among, rfl⟩ := List.mem_map.mp member
    exact toCore_fits (allowed asked among) (few asked among)
  have whole := readRecipients_recipientsBytes listed []
  rw [List.append_nil, List.length_map] at whole
  constructor
  · rintro ⟨rest, stands⟩
    have isRead := readRecipients_recipientsBytes fits rest
    rw [Nat.mod_eq_of_lt (by omega), List.take_length, ← stands] at isRead
    exact Outcome.ok.inj (isRead.symm.trans whole)
  · rintro rfl
    obtain ⟨front, rest, stands, _, _, rfl⟩ := readRecipients_takes.run whole
    exact ⟨rest, stands⟩

section Counterexample

open Sample

attribute [local instance] hashes curves gcmSiv

/-- A content of the sample sender. -/
private def sampleMessage : UnidentifiedSenderMessageContent where
  bytes := (content ⟨Block.fill 32 7⟩).bytes
  parses := ⟨content ⟨Block.fill 32 7⟩, by decide +kernel⟩

/-- A recipient with one device. -/
private def someone : SealedSenderRecipient SdkDevice :=
  ⟨⟨.aci, ⟨Block.fill 16 3⟩⟩, [⟨1, 4242⟩], ⟨Block.fill 32 5⟩⟩

private theorem someone_allowed : someone.Allowed where
  some := by decide
  devices := by
    rintro device (_ | _)
    · exact ⟨by decide, by decide, by decide⟩
    · contradiction

private theorem crowd_allowed (count : Nat) :
    ∀ recipient ∈ List.replicate count someone, recipient.Allowed := by
  intro recipient member
  rw [List.eq_of_mem_replicate member]
  exact someone_allowed

/-- With two devices. -/
private def another : SealedSenderRecipient SdkDevice :=
  ⟨⟨.pni, ⟨Block.fill 16 4⟩⟩, [⟨1, 17⟩, ⟨2, 18⟩], ⟨Block.fill 32 6⟩⟩

private theorem both_allowed :
    ∀ recipient ∈ [someone, another], recipient.Allowed := by
  simp only [List.forall_mem_cons]
  refine ⟨someone_allowed, ⟨by decide, ?_⟩, by simp⟩
  simp only [another, List.forall_mem_cons]
  exact ⟨⟨by decide, by decide, by decide⟩, ⟨by decide, by decide, by decide⟩,
    by simp⟩

private theorem both_fit :
    CountsFit [someone, another] [⟨.aci, ⟨Block.fill 16 9⟩⟩] where
  fewRecipients := by decide
  fewExcluded := by decide
  fewDevices := by decide

/-- Two recipients with three devices, and one who is left out. -/
theorem manyRecipients_listsEveryone_iff_two :
    ListsEveryone
        (TypeScript.sealedSenderMultiRecipientEncrypt (Block.fill 32 2)
          (Block.fill 32 7) sampleMessage [someone, another]
          [⟨.aci, ⟨Block.fill 16 9⟩⟩])
        [someone, another] [⟨.aci, ⟨Block.fill 16 9⟩⟩] ∧
      ListsEveryone
        (Kotlin.multiRecipientEncryptFor (Block.fill 32 2) (Block.fill 32 7)
          sampleMessage [someone, another] [⟨.aci, ⟨Block.fill 16 9⟩⟩])
        [someone, another] [⟨.aci, ⟨Block.fill 16 9⟩⟩] := by
  obtain ⟨typeScript, kotlin⟩ :=
    (manyRecipients_listsEveryone_iff (Block.fill 32 2) (Block.fill 32 7)
      sampleMessage [⟨.aci, ⟨Block.fill 16 9⟩⟩]).1 [someone, another]
      both_allowed
  exact ⟨typeScript.mpr (.inl both_fit), kotlin.mpr (.inl both_fit)⟩

/-- Of 256 recipients an envelope lists none. -/
theorem crowd_not_listsEveryone :
    (∀ recipient ∈ List.replicate 256 someone, recipient.Allowed) ∧
      ¬ ListsEveryone
        (TypeScript.sealedSenderMultiRecipientEncrypt (Block.zero 32)
          (Block.fill 32 7) sampleMessage (List.replicate 256 someone) [])
        (List.replicate 256 someone) [] := by
  refine ⟨crowd_allowed 256, ?_⟩
  rw [TypeScript.sealedSenderMultiRecipientEncrypt,
    encryptFor_eq TypeScript.refusal _ _ _ _ (crowd_allowed 256),
    handedOver_listsEveryone_iff (crowd_allowed 256), not_or]
  constructor
  · intro fit
    have few := fit.fewRecipients
    rw [List.length_replicate] at few
    omega
  · rw [Refused, not_not]
    have few :
        ∀ recipient ∈ List.replicate 256 someone,
          recipient.devices.length ≤ 255 := by
      intro recipient member
      rw [List.eq_of_mem_replicate member]
      decide
    have none :=
      (@listingOf_stands_iff _ (crowd_allowed 256) few []
        (by simp) (by simp)).mpr
        (by rw [List.length_replicate]; rfl)
    exact ⟨[], none, by simp, by simp, _, _, rfl, rfl, by simp⟩

end Counterexample

end Gossveil.Sdk
