import Gossveil.Content
import Gossveil.Packet
import Gossveil.Scanning

namespace Gossveil.Multiseal

open Codec

/-!
# The many-recipient envelope

One sealed content, one wrapped key and tag for each recipient, and every
device of a recipient listed with its registration id.  A recipient without
devices stands for an id that is left out on purpose.
-/

/-- The version of what one recipient is handed. -/
def receivedByte : UInt8 := 0x22

/-- The version of what the sender hands to the server. -/
def sentByte : UInt8 := 0x23

/-- The bits of a registration id; the top bit says that a device follows. -/
def registrationMask : Nat := 0x3FFF

/-- The bytes of a wrapped key. -/
def wrappedKeyLength : Nat := 32

/-- The bytes of a sender's tag. -/
def tagLength : Nat := 16

/-- Which of the two ends computes. -/
inductive Way where
  | sending
  | receiving
  deriving DecidableEq, Repr

/-- The sender's key and the other one, in the order both sides use. -/
def Way.ordered (way : Way) (ours theirs : Curve.Public) : Bytes :=
  match way with
  | .sending => ours.serialize ++ theirs.serialize
  | .receiving => theirs.serialize ++ ours.serialize

/-- The keys that come from the drawn message key. -/
structure Session where
  ephemeral : Curve.Pair
  key : Block 32

/-- A device of a recipient, with its registration id. -/
structure Device where
  device : UInt8
  registrationId : Nat
  deriving DecidableEq, Repr

/-- A recipient with all of its devices. -/
structure Recipient where
  serviceId : ServiceId
  devices : List Device
  identity : Curve.Public
  deriving DecidableEq

/-- `out ^= input`, byte by byte. -/
def masked (out input : Block 32) : Block 32 :=
  ⟨List.zipWith (· ^^^ ·) out.bytes input.bytes, by simp⟩

/-- A count in front of the recipients. -/
def putVarint (value : Nat) : Bytes :=
  Packet.putVarint value

section Sealing

variable [Hashes] [Curves]

/-- Derives the ephemeral pair and the key of the content. -/
def Session.«from» (m : Block 32) : Outcome Fault Session := do
  let r :=
    Derive.hkdf 32 m.bytes none (ascii "Sealed Sender v2: r (2023-08)")
  let key := Derive.hkdf 32 m.bytes none (ascii "Sealed Sender v2: K")
  let ephemeral ← Curve.Pair.fromSecret (Curve.Secret.fromRaw r)
  return ⟨ephemeral, key⟩

/-- Masks the message key for one recipient, or takes the mask off. -/
def wrap
    (ours : Curve.Pair)
    (theirs : Curve.Public)
    (way : Way)
    (input : Block 32) :
    Outcome Fault (Block 32) := do
  let agreed ← ours.secret.agree theirs
  let material := agreed.bytes ++ way.ordered ours.publicKey theirs
  return masked
    (Derive.hkdf 32 material none (ascii "Sealed Sender v2: DH")) input

/-- The tag by which a sender vouches for a wrapped key. -/
def tag
    (us : IdentityPair)
    (them : Curve.Public)
    (way : Way)
    (ephemeral : Curve.Public)
    (wrapped : Block 32) :
    Outcome Fault (Block 16) := do
  let agreed ← us.secret.agree them
  let material :=
    agreed.bytes ++ ephemeral.serialize ++ wrapped.bytes ++
      way.ordered us.identity.key them
  return Derive.hkdf 16 material none (ascii "Sealed Sender v2: DH-sender")

/-- What a tag is derived from: the agreement with a key among the rest. -/
def TagMaterial
    (us : IdentityPair)
    (them : Curve.Public)
    (way : Way)
    (ephemeral : Curve.Public)
    (wrapped : Block 32)
    (material : Bytes) :
    Prop :=
  ∃ agreed,
    us.secret.agree them = .ok agreed ∧
      material =
        agreed.bytes ++ ephemeral.serialize ++ wrapped.bytes ++
          way.ordered us.identity.key them

/-- The tag that is derived from a material. -/
def tagOf (material : Bytes) : Block 16 :=
  Derive.hkdf 16 material none (ascii "Sealed Sender v2: DH-sender")

/-- Different materials in use give different tags. -/
def SeparatesTags (InUse : Bytes → Prop) : Prop :=
  ∀ first second, InUse first → InUse second →
    tagOf first = tagOf second → first = second

/-- A tag is made of its material, where both ends agree. -/
theorem tag_eq_ok
    {us : IdentityPair}
    {them ephemeral : Curve.Public}
    {way : Way}
    {wrapped : Block 32}
    {found : Block 16} :
    tag us them way ephemeral wrapped = .ok found ↔
      ∃ material,
        TagMaterial us them way ephemeral wrapped material ∧
          tagOf material = found := by
  rw [tag, Outcome.bind_eq_ok]
  constructor
  · rintro ⟨agreed, agrees, derived⟩
    exact ⟨_, ⟨agreed, agrees, rfl⟩, Outcome.ok.inj derived⟩
  · rintro ⟨_, ⟨agreed, agrees, rfl⟩, rfl⟩
    exact ⟨agreed, agrees, rfl⟩

omit [Hashes] in
/-- A material names the key it was agreed with. -/
theorem TagMaterial.key_eq
    {us : IdentityPair}
    {first second ephemeral : Curve.Public}
    {wrapped : Block 32}
    {material : Bytes}
    (ofFirst : TagMaterial us first .receiving ephemeral wrapped material)
    (ofSecond : TagMaterial us second .receiving ephemeral wrapped material) :
    first = second := by
  obtain ⟨agreed, _, rfl⟩ := ofFirst
  obtain ⟨other, _, same⟩ := ofSecond
  obtain ⟨_, sameKeys⟩ := List.append_inj same (by simp)
  obtain ⟨sameKey, _⟩ := List.append_inj sameKeys (by simp)
  exact Curve.Public.serialize_injective sameKey

/-- One device; the top bit of its registration id is set when more follow. -/
def deviceEntry (device : Device) (more : Bool) : Outcome Fault Bytes := do
  Outcome.require .badArgument
    (device.registrationId &&& registrationMask = device.registrationId ∧
      device.device ≠ 0)
  let reg :=
    if more then device.registrationId ||| 0x8000 else device.registrationId
  return device.device :: bigEndian 2 reg

/-- The devices one after the other, all but the last marked. -/
def deviceEntries : List Device → Outcome Fault Bytes
  | [] => .ok []
  | device :: devices => do
      let front ← deviceEntry device (devices ≠ [])
      let back ← deviceEntries devices
      return front ++ back

/-- The bytes for one recipient; one without devices is refused. -/
def recipientEntry
    (session : Session)
    (us : IdentityPair)
    (m : Block 32)
    (recipient : Recipient) :
    Outcome Fault Bytes := do
  Outcome.require .badArgument (recipient.devices.length ≠ 0)
  let devices ← deviceEntries recipient.devices
  let wrapped ← wrap session.ephemeral recipient.identity .sending m
  let tag ←
    tag us recipient.identity .sending session.ephemeral.publicKey wrapped
  return recipient.serviceId.fixed.bytes ++ devices ++
    (wrapped.bytes ++ tag.bytes)

/-- The bytes for the recipients one after the other. -/
def recipientEntries
    (session : Session)
    (us : IdentityPair)
    (m : Block 32) :
    List Recipient → Outcome Fault Bytes
  | [] => .ok []
  | recipient :: recipients => do
      let front ← recipientEntry session us m recipient
      let back ← recipientEntries session us m recipients
      return front ++ back

/-- An excluded id has no devices. -/
def excludedEntry (serviceId : ServiceId) : Bytes :=
  serviceId.fixed.bytes ++ [0]

/-- The secret `m` is drawn from the entropy source. -/
def sealForMany
    [GcmSiv]
    (m : Block 32)
    (us : IdentityPair)
    (recipients : List Recipient)
    (excluded : List ServiceId)
    (content : Content) :
    Outcome Fault Bytes := do
  let session ← Session.from m
  let sealed := Cipher.sivSeal session.key (Block.zero 12) content.bytes []
  let entries ← recipientEntries session us m recipients
  return sentByte ::
    (putVarint (recipients.length + excluded.length) ++
      (entries ++ excluded.flatMap excludedEntry) ++
        (session.ephemeral.publicKey.u.bytes ++ sealed))

end Sealing

/-! ## Reading an envelope -/

/-- The next bytes as a block, or the given error when there are too few. -/
def takeBlock (fault : Fault) (size : Nat) : Scan UInt8 Fault (Block size) :=
  fun ahead =>
    match Block.ofBytes size (ahead.take size) with
    | some block => (.ok block, ahead.drop size)
    | none => (.error fault, ahead)

/-- A block reads back. -/
theorem takeBlock_reads
    {size : Nat}
    (fault : Fault)
    (block : Block size) :
    Scan.Reads (takeBlock fault size) block.bytes block := by
  intro rest
  have front : (block.bytes ++ rest).take size = block.bytes :=
    List.take_left' block.length_bytes
  have behind : (block.bytes ++ rest).drop size = rest :=
    List.drop_left' block.length_bytes
  simp [takeBlock, front, behind]

theorem takeBlock_takes (fault : Fault) (size : Nat) :
    Scan.Takes (takeBlock fault size) fun block front =>
      front = block.bytes where
  returned := by
    intro ahead block rest returned
    simp only [takeBlock] at returned
    cases isFound : Block.ofBytes size (ahead.take size) with
    | none =>
        simp [isFound] at returned
    | some found =>
        simp only [isFound, Prod.mk.injEq, Outcome.ok.injEq] at returned
        obtain ⟨rfl, rfl⟩ := returned
        refine ⟨found.bytes, ?_, rfl⟩
        rw [Block.ofBytes_eq_some.mp isFound, List.take_append_drop]
  noTrap := by
    intro ahead
    simp only [takeBlock]
    split <;> simp

/-- A recipient as it is read; an excluded one has no devices. -/
structure SentRecipient where
  serviceId : ServiceId
  devices : List Device
  wrappedAndTag : Bytes
  deriving DecidableEq

/-- A whole message as it is read. -/
structure Sent where
  recipients : List SentRecipient
  shared : Bytes
  deriving DecidableEq

/-- The loop is that of the packets, and every failure is a broken message. -/
def getVarint : Scan UInt8 Fault Nat :=
  Call.step fun ahead => (Packet.getVarint ahead).orElseFault .badMessage

/--
The device loop: a zero ends a recipient that has no devices, a registration
id without the top bit ends one that has.
-/
def parseDevices (any : Bool) : Scan UInt8 Fault (List Device)
  | [] => (.error .badMessage, [])
  | device :: ahead =>
      if device = 0 then
        (if any then .error .badMessage else .ok [], ahead)
      else
        match ahead with
        | high :: low :: ahead =>
            let raw := high.toNat * 256 + low.toNat
            let found := Device.mk device (raw &&& registrationMask)
            if raw &&& 0x8000 = 0 then
              (.ok [found], ahead)
            else
              let (devices, ahead) := parseDevices true ahead
              ((found :: ·) <$> devices, ahead)
        | ahead => (.error .badMessage, ahead)

/-- A service id, in the older form always that of an account. -/
def parseServiceId (idsOnly : Bool) : Scan UInt8 Fault ServiceId :=
  if idsOnly then do
    let id ← takeBlock .badMessage 16
    return ⟨.aci, ⟨id⟩⟩
  else do
    let fixed ← takeBlock .badMessage 17
    liftM (ServiceId.fromFixed fixed)

/-- The entry of one recipient. -/
def parseRecipient (idsOnly : Bool) : Scan UInt8 Fault SentRecipient := do
  let serviceId ← parseServiceId idsOnly
  let devices ← parseDevices false
  let wrappedAndTag ←
    if devices.length ≠ 0 then
      Scan.take .badMessage (wrappedKeyLength + tagLength)
    else
      pure []
  return ⟨serviceId, devices, wrappedAndTag⟩

/-- What follows the first byte. -/
def parseBody (idsOnly : Bool) : Scan UInt8 Fault Sent := do
  let count ← getVarint
  let recipients ← Scan.times (parseRecipient idsOnly) count
  let shared ← Call.get
  liftM (Outcome.require Fault.badMessage (32 ≤ shared.length))
  return ⟨recipients, shared⟩

/-- Reads a message of either of the two forms. -/
def parseSent (data : Bytes) : Outcome Fault Sent :=
  match data with
  | [] => .error .badMessage
  | version :: ahead =>
      if version ≠ sentByte ∧ version ≠ receivedByte then
        .error .unknownVersion
      else
        (parseBody (version = receivedByte)).run ahead

/-! ## Sealing and reading back -/

/-- What the listing of an envelope says of a recipient. -/
def Recipient.listed (recipient : Recipient) : ServiceId × List Device :=
  (recipient.serviceId, recipient.devices)

/-- The recipient and its devices, without the keys. -/
def SentRecipient.listed (sent : SentRecipient) : ServiceId × List Device :=
  (sent.serviceId, sent.devices)

/-- A count reads back. -/
theorem getVarint_reads
    {value : Nat}
    (small : value < 2 ^ 64) :
    Scan.Reads getVarint (putVarint value) value := by
  intro rest
  simp [getVarint, Call.step, putVarint,
    Packet.getVarint_putVarint rest small]

/-- The ids an envelope can carry. -/
structure Device.Allowed (device : Device) : Prop where
  registrationId : device.registrationId < 2 ^ 14
  device : device.device ≠ 0

/-- What the source checks of a device. -/
theorem Device.allowed_iff (device : Device) :
    device.Allowed ↔
      device.registrationId &&& registrationMask = device.registrationId ∧
        device.device ≠ 0 := by
  have mask : registrationMask = 2 ^ 14 - 1 := rfl
  rw [mask, Nat.and_two_pow_sub_one_eq_mod, Nat.mod_eq_iff_lt (by decide)]
  exact ⟨fun allowed => ⟨allowed.1, allowed.2⟩, fun ⟨id, number⟩ => ⟨id, number⟩⟩

theorem toNat_bigEndian
    {value : Nat}
    (small : value < 2 ^ 16) :
    ∃ high low,
      bigEndian 2 value = [high, low] ∧
        high.toNat * 256 + low.toNat = value := by
  refine ⟨UInt8.ofNat (value / 256 % 256), UInt8.ofNat (value % 256), ?_, ?_⟩
  · simp [bigEndian, Writer.littleEndian]
  · simp only [UInt8.toNat_ofNat']
    omega

/-- The top bit of a smaller number is clear. -/
theorem and_two_pow_of_lt
    {number width : Nat}
    (small : number < 2 ^ width) :
    number &&& 2 ^ width = 0 := by
  apply Nat.eq_of_testBit_eq
  intro index
  by_cases top : width = index
  · subst top
    simp [Nat.testBit_lt_two_pow small]
  · simp [top]

section Devices

variable {device : Device} (allowed : device.Allowed)

include allowed

/-- A registration id without the top bit ends the devices. -/
theorem parseDevices_last (any : Bool) :
    Scan.Reads (parseDevices any)
      (device.device :: bigEndian 2 device.registrationId) [device] := by
  intro rest
  have small := allowed.registrationId
  obtain ⟨high, low, bytes, value⟩ :=
    @toNat_bigEndian device.registrationId (by omega)
  have top : device.registrationId &&& 0x8000 = 0 :=
    @and_two_pow_of_lt device.registrationId 15 (by omega)
  have id := ((Device.allowed_iff device).mp allowed).1
  simp [bytes, parseDevices, allowed.device, value, top, id]

/-- A marked device is followed by another. -/
theorem parseDevices_more
    (any : Bool)
    {written : Bytes}
    {devices : List Device}
    (rest : Scan.Reads (parseDevices true) written devices) :
    Scan.Reads (parseDevices any)
      ((device.device :: bigEndian 2 (device.registrationId ||| 0x8000)) ++
        written)
      (device :: devices) := by
  intro ahead
  have small := allowed.registrationId
  obtain ⟨high, low, bytes, value⟩ :=
    @toNat_bigEndian (device.registrationId ||| 0x8000)
      (Nat.or_lt_two_pow (by omega) (by decide))
  have clear : device.registrationId &&& 0x8000 = 0 :=
    @and_two_pow_of_lt device.registrationId 15 (by omega)
  have top : (device.registrationId ||| 0x8000) &&& 0x8000 = 0x8000 := by
    rw [Nat.and_or_distrib_right, clear]
    rfl
  have id :
      (device.registrationId ||| 0x8000) &&& registrationMask =
        device.registrationId := by
    rw [Nat.and_or_distrib_right, ((Device.allowed_iff device).mp allowed).1]
    exact Nat.or_zero _
  simp [bytes, parseDevices, allowed.device, value, top, id, rest ahead]

end Devices

/-- The entry of a device that is allowed. -/
theorem deviceEntry_eq_ok
    {device : Device}
    {more : Bool}
    {written : Bytes} :
    deviceEntry device more = .ok written ↔
      device.Allowed ∧
        device.device ::
            bigEndian 2
              (if more then device.registrationId ||| 0x8000
                else device.registrationId) =
          written := by
  rw [Device.allowed_iff, deviceEntry, Outcome.bind_eq_ok]
  constructor
  · rintro ⟨_, required, same⟩
    exact ⟨Outcome.require_eq_ok.mp required, Outcome.ok.inj same⟩
  · rintro ⟨allowed, same⟩
    exact ⟨(), Outcome.require_of allowed, congrArg Outcome.ok same⟩

theorem deviceEntries_ne_trap (devices : List Device) :
    deviceEntries devices ≠ .trap := by
  induction devices with
  | nil =>
      simp [deviceEntries]
  | cons device devices inductionHypothesis =>
      simp [deviceEntries, deviceEntry, Outcome.bind_eq_trap,
        inductionHypothesis]

/-- The devices are written exactly when their ids can be carried. -/
theorem exists_deviceEntries (devices : List Device) :
    (∃ written, deviceEntries devices = .ok written) ↔
      ∀ device ∈ devices, device.Allowed := by
  induction devices with
  | nil =>
      simp [deviceEntries]
  | cons device devices inductionHypothesis =>
      simp only [deviceEntries, Outcome.bind_eq_ok, deviceEntry_eq_ok,
        List.forall_mem_cons, ← inductionHypothesis, Outcome.pure_eq]
      constructor
      · rintro ⟨_, front, ⟨allowed, _⟩, back, rest, _⟩
        exact ⟨allowed, back, rest⟩
      · rintro ⟨allowed, back, rest⟩
        exact ⟨_, _, ⟨allowed, rfl⟩, back, rest, rfl⟩

/-- The devices read back. -/
theorem parseDevices_entries
    {devices : List Device}
    {written : Bytes}
    (returned : deviceEntries devices = .ok written)
    (some : devices ≠ [])
    (any : Bool) :
    Scan.Reads (parseDevices any) written devices := by
  induction devices generalizing written any with
  | nil =>
      exact absurd rfl some
  | cons device devices inductionHypothesis =>
      obtain ⟨front, isFront, returned⟩ := Outcome.bind_eq_ok.mp returned
      obtain ⟨back, isBack, returned⟩ := Outcome.bind_eq_ok.mp returned
      obtain ⟨allowed, rfl⟩ := deviceEntry_eq_ok.mp isFront
      cases returned
      cases devices with
      | nil =>
          cases isBack
          simpa using parseDevices_last allowed any
      | cons next devices =>
          have rest := inductionHypothesis isBack (List.cons_ne_nil _ _) true
          simpa using parseDevices_more allowed any rest

/-- A service id reads back. -/
theorem parseServiceId_fixed (serviceId : ServiceId) :
    Scan.Reads (parseServiceId false) serviceId.fixed.bytes serviceId :=
  (takeBlock_reads .badMessage serviceId.fixed).map
    (Scan.Reads.lift (ServiceId.fromFixed_fixed serviceId))

/-- An excluded entry reads back without devices. -/
theorem parseRecipient_excluded (serviceId : ServiceId) :
    Scan.Reads (parseRecipient false) (excludedEntry serviceId)
      ⟨serviceId, [], []⟩ := by
  have none : Scan.Reads (parseDevices false) [0] [] := by
    intro rest
    change parseDevices false (0 :: rest) = _
    unfold parseDevices
    simp
  exact (parseServiceId_fixed serviceId).bind
    (none.map ((Scan.Reads.pure []).after (Scan.Reads.pure _)))

/-- An entry of an envelope: how it is written and how it reads back. -/
abbrev Entry : Type :=
  Bytes × SentRecipient

/-- Reading the bytes of an entry gives the entry. -/
def Entry.ReadsBack (entry : Entry) : Prop :=
  Scan.Reads (parseRecipient false) entry.1 entry.2

/-- Entries behind their count read back, and what follows is shared. -/
theorem parseBody_entries
    {entries : List Entry}
    {shared : Bytes}
    (readBack : ∀ entry ∈ entries, Entry.ReadsBack entry)
    (countable : entries.length < 2 ^ 64)
    (long : 32 ≤ shared.length) :
    (parseBody false).run
        (putVarint entries.length ++
          (entries.flatMap Prod.fst ++ shared)) =
      .ok ⟨entries.map Prod.snd, shared⟩ := by
  have reads : Scan.Reads
      (Scan.times (parseRecipient false) entries.length)
      (entries.flatMap Prod.fst) (entries.map Prod.snd) :=
    Scan.Reads.times readBack
  rw [Scan.run, parseBody, Call.bind_of_ok (getVarint_reads countable _),
    Call.bind_of_ok (reads shared), Call.bind_of_ok (Call.get_apply shared),
    Outcome.require_of long]
  rfl

section Sealing

variable [Hashes] [Curves]

/-! ### Sealing never traps -/

theorem recipientEntry_ne_trap
    (session : Session)
    (us : IdentityPair)
    (m : Block 32)
    (recipient : Recipient) :
    recipientEntry session us m recipient ≠ .trap := by
  simp [recipientEntry, wrap, tag, Curve.Secret.agree, Outcome.bind_eq_trap,
    deviceEntries_ne_trap]

theorem recipientEntries_ne_trap
    (session : Session)
    (us : IdentityPair)
    (m : Block 32)
    (recipients : List Recipient) :
    recipientEntries session us m recipients ≠ .trap := by
  induction recipients with
  | nil =>
      simp [recipientEntries]
  | cons recipient recipients inductionHypothesis =>
      simp [recipientEntries, Outcome.bind_eq_trap, recipientEntry_ne_trap,
        inductionHypothesis]

/-- Sealing never traps. -/
theorem sealForMany_ne_trap
    [GcmSiv]
    (m : Block 32)
    (us : IdentityPair)
    (recipients : List Recipient)
    (excluded : List ServiceId)
    (content : Content) :
    sealForMany m us recipients excluded content ≠ .trap := by
  simp [sealForMany, Session.from, Outcome.bind_eq_trap,
    Curve.Pair.fromSecret_ne_trap, recipientEntries_ne_trap]

/-! ### What was sealed reads back -/

/-- What sealing asks of a recipient. -/
structure Recipient.Sealable
    (session : Session)
    (us : IdentityPair)
    (recipient : Recipient) :
    Prop where
  some : recipient.devices ≠ []
  allowed : ∀ device ∈ recipient.devices, device.Allowed
  wraps : ∃ key, session.ephemeral.secret.agree recipient.identity = .ok key
  tags : ∃ key, us.secret.agree recipient.identity = .ok key

variable {session : Session} {us : IdentityPair} {m : Block 32}

/-- An entry is written exactly for a sealable recipient. -/
theorem exists_recipientEntry (recipient : Recipient) :
    (∃ written, recipientEntry session us m recipient = .ok written) ↔
      recipient.Sealable session us := by
  constructor
  · rintro ⟨written, returned⟩
    obtain ⟨_, some, returned⟩ := Outcome.bind_eq_ok.mp returned
    obtain ⟨devices, isDevices, returned⟩ := Outcome.bind_eq_ok.mp returned
    obtain ⟨wrapped, isWrapped, returned⟩ := Outcome.bind_eq_ok.mp returned
    obtain ⟨tag, isTag, _⟩ := Outcome.bind_eq_ok.mp returned
    obtain ⟨wrapKey, wraps, _⟩ := Outcome.bind_eq_ok.mp isWrapped
    obtain ⟨tagKey, tags, _⟩ := Outcome.bind_eq_ok.mp isTag
    have nonempty := Outcome.require_eq_ok.mp some
    exact ⟨List.length_eq_zero_iff.not.mp nonempty,
      (exists_deviceEntries _).mp ⟨devices, isDevices⟩,
      ⟨wrapKey, wraps⟩, ⟨tagKey, tags⟩⟩
  · rintro ⟨some, allowed, ⟨wrapKey, wraps⟩, ⟨tagKey, tags⟩⟩
    obtain ⟨devices, isDevices⟩ := (exists_deviceEntries _).mpr allowed
    have nonempty := List.length_eq_zero_iff.not.mpr some
    rw [recipientEntry, Outcome.require_of nonempty, isDevices]
    simp [wrap, tag, wraps, tags]

/-- How a recipient that was sealed for reads back. -/
structure SentFor
    (session : Session)
    (us : IdentityPair)
    (m : Block 32)
    (recipient : Recipient)
    (sent : SentRecipient) :
    Prop where
  listed : sent.listed = recipient.listed
  keyed :
    ∃ wrapped theirTag,
      wrap session.ephemeral recipient.identity .sending m = .ok wrapped ∧
        tag us recipient.identity .sending session.ephemeral.publicKey
            wrapped =
          .ok theirTag ∧
        sent.wrappedAndTag = wrapped.bytes ++ theirTag.bytes

/-- An entry reads back as what was sealed. -/
theorem parseRecipient_entry
    {recipient : Recipient}
    {written : Bytes}
    (returned : recipientEntry session us m recipient = .ok written) :
    ∃ sent : SentRecipient,
      SentFor session us m recipient sent ∧
        Scan.Reads (parseRecipient false) written sent := by
  have sealable := (exists_recipientEntry recipient).mp ⟨written, returned⟩
  obtain ⟨_, _, returned⟩ := Outcome.bind_eq_ok.mp returned
  obtain ⟨devices, isDevices, returned⟩ := Outcome.bind_eq_ok.mp returned
  obtain ⟨wrapped, isWrapped, returned⟩ := Outcome.bind_eq_ok.mp returned
  obtain ⟨theirTag, isTag, returned⟩ := Outcome.bind_eq_ok.mp returned
  cases returned
  have behind : (wrapped.bytes ++ theirTag.bytes).length =
      wrappedKeyLength + tagLength := by
    simp [wrappedKeyLength, tagLength]
  refine ⟨⟨recipient.serviceId, recipient.devices,
      wrapped.bytes ++ theirTag.bytes⟩,
    ⟨rfl, wrapped, theirTag, isWrapped, isTag, rfl⟩, ?_⟩
  rw [List.append_assoc]
  apply (parseServiceId_fixed recipient.serviceId).bind
  apply (parseDevices_entries isDevices sealable.some false).bind
  rw [if_pos (List.length_eq_zero_iff.not.mpr sealable.some)]
  exact (Scan.Reads.take Fault.badMessage behind).map (Scan.Reads.pure _)

/-- Entries are written exactly for sealable recipients. -/
theorem exists_recipientEntries (recipients : List Recipient) :
    (∃ written, recipientEntries session us m recipients = .ok written) ↔
      ∀ recipient ∈ recipients, recipient.Sealable session us := by
  induction recipients with
  | nil =>
      simp [recipientEntries]
  | cons recipient recipients inductionHypothesis =>
      rw [List.forall_mem_cons, ← inductionHypothesis,
        ← @exists_recipientEntry _ _ session us m recipient]
      constructor
      · rintro ⟨written, returned⟩
        obtain ⟨front, isFront, returned⟩ := Outcome.bind_eq_ok.mp returned
        obtain ⟨back, isBack, _⟩ := Outcome.bind_eq_ok.mp returned
        exact ⟨⟨front, isFront⟩, ⟨back, isBack⟩⟩
      · rintro ⟨⟨front, isFront⟩, ⟨back, isBack⟩⟩
        simp [recipientEntries, isFront, isBack]

/-- The written bytes are entries, each of which reads back. -/
theorem entries_of_recipientEntries
    {recipients : List Recipient}
    {written : Bytes}
    (returned : recipientEntries session us m recipients = .ok written) :
    ∃ entries : List Entry,
      written = entries.flatMap Prod.fst ∧
        (∀ entry ∈ entries, Entry.ReadsBack entry) ∧
        List.Forall₂ (SentFor session us m) recipients
          (entries.map Prod.snd) := by
  induction recipients generalizing written with
  | nil =>
      cases returned
      exact ⟨[], rfl, by simp, .nil⟩
  | cons recipient recipients inductionHypothesis =>
      obtain ⟨front, isFront, returned⟩ := Outcome.bind_eq_ok.mp returned
      obtain ⟨back, isBack, returned⟩ := Outcome.bind_eq_ok.mp returned
      cases returned
      obtain ⟨sent, sentFor, reads⟩ := parseRecipient_entry isFront
      obtain ⟨entries, rfl, readBack, allSent⟩ := inductionHypothesis isBack
      exact ⟨(front, sent) :: entries, rfl,
        List.forall_mem_cons.mpr ⟨reads, readBack⟩, .cons sentFor allSent⟩

/-- The message lists the recipients that were asked for. -/
theorem listed_of_sentFor
    {recipients : List Recipient}
    {sent : List SentRecipient}
    (allSent : List.Forall₂ (SentFor session us m) recipients sent) :
    sent.map SentRecipient.listed = recipients.map Recipient.listed := by
  induction allSent with
  | nil => rfl
  | cons sentFor _ same => simp [sentFor.listed, same]

/--
Sealing for many succeeds exactly when the session can be made and every
recipient can be sealed for.
-/
theorem exists_sealForMany
    [GcmSiv]
    (m : Block 32)
    (us : IdentityPair)
    (recipients : List Recipient)
    (excluded : List ServiceId)
    (content : Content) :
    (∃ envelope,
      sealForMany m us recipients excluded content = .ok envelope) ↔
      ∃ session, Session.from m = .ok session ∧
        ∀ recipient ∈ recipients, recipient.Sealable session us := by
  constructor
  · rintro ⟨envelope, returned⟩
    obtain ⟨session, isSession, returned⟩ := Outcome.bind_eq_ok.mp returned
    obtain ⟨entries, isEntries, _⟩ := Outcome.bind_eq_ok.mp returned
    exact ⟨session, isSession,
      (exists_recipientEntries recipients).mp ⟨entries, isEntries⟩⟩
  · rintro ⟨session, isSession, sealable⟩
    obtain ⟨entries, isEntries⟩ :=
      (@exists_recipientEntries _ _ session us m recipients).mpr sealable
    simp [sealForMany, isSession, isEntries]

/-- The key and the content behind the recipients of an envelope. -/
def shared [GcmSiv] (session : Session) (content : Content) : Bytes :=
  session.ephemeral.publicKey.u.bytes ++
    Cipher.sivSeal session.key (Block.zero 12) content.bytes []

/-- How an id that is left out reads back. -/
def SentRecipient.excluded (serviceId : ServiceId) : SentRecipient :=
  ⟨serviceId, [], []⟩

/-- A sealed envelope reads back with what was written for each recipient. -/
theorem parseSent_of_sealForMany
    [GcmSiv]
    {recipients : List Recipient}
    {excluded : List ServiceId}
    {content : Content}
    {envelope : Bytes}
    (countable : recipients.length + excluded.length < 2 ^ 64)
    (returned :
      sealForMany m us recipients excluded content = .ok envelope) :
    ∃ session sent,
      Session.from m = .ok session ∧
        List.Forall₂ (SentFor session us m) recipients sent ∧
        parseSent envelope =
          .ok ⟨sent ++ excluded.map SentRecipient.excluded,
            shared session content⟩ := by
  obtain ⟨session, isSession, returned⟩ := Outcome.bind_eq_ok.mp returned
  obtain ⟨written, isWritten, returned⟩ := Outcome.bind_eq_ok.mp returned
  cases returned
  obtain ⟨entries, rfl, readBack, allSent⟩ :=
    entries_of_recipientEntries isWritten
  let left : List Entry := excluded.map fun serviceId =>
    (excludedEntry serviceId, .excluded serviceId)
  have leftWritten : excluded.flatMap excludedEntry = left.flatMap Prod.fst := by
    simp [left, List.flatMap_map]
  have leftSent :
      left.map Prod.snd = excluded.map SentRecipient.excluded := by
    simp [left]
  have leftReads : ∀ entry ∈ left, Entry.ReadsBack entry := by
    intro entry member
    obtain ⟨serviceId, _, rfl⟩ := List.mem_map.mp member
    exact parseRecipient_excluded serviceId
  have readBoth : ∀ entry ∈ entries ++ left, Entry.ReadsBack entry :=
    fun entry member =>
      (List.mem_append.mp member).elim (readBack entry) (leftReads entry)
  have count :
      recipients.length + excluded.length = (entries ++ left).length := by
    have same := allSent.length_eq
    simp only [List.length_map] at same
    simp [left, same]
  have long : 32 ≤ (shared session content).length := by simp [shared]
  have body := parseBody_entries readBoth (count ▸ countable) long
  rw [List.map_append, leftSent] at body
  refine ⟨session, entries.map Prod.snd, isSession, allSent, ?_⟩
  rw [leftWritten, count, ← List.flatMap_append, List.append_assoc]
  exact body

/--
A sealed envelope reads back as its recipients and their devices in order, and
then the excluded ids.
-/
theorem parseSent_sealForMany
    [GcmSiv]
    {recipients : List Recipient}
    {excluded : List ServiceId}
    {content : Content}
    {envelope : Bytes}
    (countable : recipients.length + excluded.length < 2 ^ 64)
    (returned :
      sealForMany m us recipients excluded content = .ok envelope) :
    ∃ sent,
      parseSent envelope = .ok sent ∧
        sent.recipients.map SentRecipient.listed =
          recipients.map Recipient.listed ++
            excluded.map fun serviceId => (serviceId, []) := by
  obtain ⟨session, sent, _, allSent, parsed⟩ :=
    parseSent_of_sealForMany countable returned
  refine ⟨_, parsed, ?_⟩
  simp [listed_of_sentFor allSent, SentRecipient.excluded,
    SentRecipient.listed, Function.comp_def]

end Sealing

end Gossveil.Multiseal
