import Gossveil.Multiseal

namespace Gossveil.Listing

open Codec Multiseal

/-!
# The listing of the recipients

Recipients arrive as one string: a count, then for each recipient a 17-byte
service id, a device count, (device, big-endian registration id) pairs and a
33-byte identity key.  Excluded ids are a count and 17 bytes each.  What is
left over behind a listing is ignored.
-/

namespace Cursor

/-- The next bytes of the listing. -/
def take (count : Nat) : Scan UInt8 Fault Bytes :=
  Scan.take .badArgument count

/-- The next byte of the listing. -/
def byte : Scan UInt8 Fault UInt8 := do
  let data ← take 1
  return data.headD 0

/-- A one-byte count and that many values. -/
def counted {α : Type} (scan : Scan UInt8 Fault α) :
    Scan UInt8 Fault (List α) := do
  let count ← byte
  Scan.times scan count.toNat

end Cursor

/-- `mem.readInt(u16, _, .big)`. -/
def readInt16 (data : Bytes) : Nat :=
  Reader.littleEndian data.reverse

/-- A service id with its kind in front. -/
def readServiceId : Scan UInt8 Fault ServiceId := do
  let fixed ← takeBlock .badArgument 17
  liftM (ServiceId.fromFixed fixed)

/-- A device and its registration id. -/
def readDevice : Scan UInt8 Fault Device := do
  let device ← Cursor.byte
  let registrationId ← Cursor.take 2
  return ⟨device, readInt16 registrationId⟩

/-- A recipient: its id, its devices, its identity. -/
def readRecipient : Scan UInt8 Fault Recipient := do
  let serviceId ← readServiceId
  let devices ← Cursor.counted readDevice
  let key ← Cursor.take 33
  let identity ← liftM (Curve.Public.parse key)
  return ⟨serviceId, devices, identity⟩

/-- All recipients, behind their count. -/
def readRecipients : Scan UInt8 Fault (List Recipient) :=
  Cursor.counted readRecipient

/-- All excluded ids, behind their count. -/
def readExcluded : Scan UInt8 Fault (List ServiceId) :=
  Cursor.counted readServiceId

/-- No string at all lists no excluded ids. -/
def excludedFrom (data : Bytes) : Outcome Fault (List ServiceId) :=
  if 0 < data.length then readExcluded.run data else .ok []

section Calls

variable [Hashes] [Curves] [GcmSiv]

/-- The caller's identity from its secret. -/
def usFrom (secret : Bytes) : Outcome Fault IdentityPair := do
  let secret ← Curve.Secret.parse secret
  let pair ← Curve.Pair.fromSecret secret
  return IdentityPair.fromPair pair

/--
The call of the surface: the listings are read first, then the content and the
secret.
-/
def envelopeSealMany
    (m : Block 32)
    (secret recipients excluded content : Bytes) :
    Outcome Fault Bytes := do
  let recipients ← readRecipients.run recipients
  let excluded ← excludedFrom excluded
  let parsed ← Content.parse content
  let us ← usFrom secret
  sealForMany m us recipients excluded parsed

end Calls

/-! ## What a listing says -/

/-- The pair a device is listed as. -/
def deviceBytes (device : Device) : Bytes :=
  device.device :: bigEndian 2 device.registrationId

/-- Items behind their count, of which one byte is left. -/
def countedBytes {ι : Type} (write : ι → Bytes) (items : List ι) : Bytes :=
  UInt8.ofNat items.length :: items.flatMap write

/-- A recipient as the clients list it. -/
def recipientBytes (recipient : Recipient) : Bytes :=
  recipient.serviceId.fixed.bytes ++
    (countedBytes deviceBytes recipient.devices ++
      recipient.identity.serialize)

/-- The recipients behind their count. -/
def recipientsBytes (recipients : List Recipient) : Bytes :=
  countedBytes recipientBytes recipients

/-- The excluded ids behind their count. -/
def excludedBytes (excluded : List ServiceId) : Bytes :=
  countedBytes (fun serviceId => serviceId.fixed.bytes) excluded

/-- A recipient whose numbers fit their places in a listing. -/
structure Fits (recipient : Recipient) : Prop where
  devices : recipient.devices.length ≤ 255
  registrationIds :
    ∀ device ∈ recipient.devices, device.registrationId < 2 ^ 16

/-! ### Reading back -/

theorem byte_reads (value : UInt8) :
    Scan.Reads Cursor.byte [value] value := by
  have one : [value].length = 1 := rfl
  apply (Scan.Reads.take Fault.badArgument one).map
  exact Scan.Reads.pure value

section Counted

variable {α ι : Type} {scan : Scan UInt8 Fault α}
  {write : ι → Bytes} {read : ι → α}

/--
Of the items behind a count, as many are read as the byte says; the others are
part of what follows.
-/
theorem counted_countedBytes
    {items : List ι}
    (each : ∀ item ∈ items, Scan.Reads scan (write item) (read item))
    (rest : Bytes) :
    Cursor.counted scan (countedBytes write items ++ rest) =
      (.ok ((items.take (items.length % 256)).map read),
        (items.drop (items.length % 256)).flatMap write ++ rest) := by
  have count : (UInt8.ofNat items.length).toNat = items.length % 256 :=
    UInt8.toNat_ofNat'
  have taken :
      (items.take (items.length % 256)).length = items.length % 256 :=
    List.length_take_of_le (Nat.mod_le _ _)
  have reads :
      Scan.Reads (Scan.times scan (items.take (items.length % 256)).length)
        ((items.take (items.length % 256)).flatMap write)
        ((items.take (items.length % 256)).map read) :=
    Scan.Reads.times fun item member => each item (List.mem_of_mem_take member)
  have split :
      items.flatMap write =
        (items.take (items.length % 256)).flatMap write ++
          (items.drop (items.length % 256)).flatMap write := by
    rw [← List.flatMap_append, List.take_append_drop]
  rw [taken] at reads
  apply (Call.bind_of_ok (byte_reads (UInt8.ofNat items.length)
    (items.flatMap write ++ rest))).trans
  rw [count, split, List.append_assoc]
  exact reads _

/-- A count that fits its byte loses nothing. -/
theorem counted_reads
    {items : List ι}
    (fits : items.length ≤ 255)
    (each : ∀ item ∈ items, Scan.Reads scan (write item) (read item)) :
    Scan.Reads (Cursor.counted scan) (countedBytes write items)
      (items.map read) := by
  intro rest
  have all : items.length % 256 = items.length := Nat.mod_eq_of_lt (by omega)
  rw [counted_countedBytes each, all, List.take_length, List.drop_length]
  rfl

end Counted

theorem readInt16_bigEndian
    {value : Nat}
    (small : value < 2 ^ 16) :
    readInt16 (bigEndian 2 value) = value := by
  rw [readInt16, bigEndian, List.reverse_reverse]
  exact littleEndian_write 2 value small

/-- A service id reads back. -/
theorem readServiceId_reads (serviceId : ServiceId) :
    Scan.Reads readServiceId serviceId.fixed.bytes serviceId :=
  (takeBlock_reads .badArgument serviceId.fixed).map
    (Scan.Reads.lift (ServiceId.fromFixed_fixed serviceId))

/-- A device reads back. -/
theorem readDevice_reads
    {device : Device}
    (small : device.registrationId < 2 ^ 16) :
    Scan.Reads readDevice (deviceBytes device) device := by
  have two : (bigEndian 2 device.registrationId).length = 2 := by
    rw [bigEndian, List.length_reverse, length_littleEndian]
  have same :
      Device.mk device.device (readInt16 (bigEndian 2 device.registrationId)) =
        device := by
    rw [readInt16_bigEndian small]
  apply (byte_reads device.device).bind
  apply (Scan.Reads.take Fault.badArgument two).map
  rw [same]
  exact Scan.Reads.pure device

/-- A recipient reads back. -/
theorem readRecipient_reads
    {recipient : Recipient}
    (fits : Fits recipient) :
    Scan.Reads readRecipient (recipientBytes recipient) recipient := by
  have devices :
      Scan.Reads (Cursor.counted readDevice)
        (countedBytes deviceBytes recipient.devices)
        (recipient.devices.map id) :=
    counted_reads fits.devices fun device member =>
      readDevice_reads (fits.registrationIds device member)
  rw [List.map_id] at devices
  apply (readServiceId_reads _).bind
  apply devices.bind
  apply (Scan.Reads.take Fault.badArgument
    recipient.identity.length_serialize).map
  apply (Scan.Reads.lift recipient.identity.parse_serialize).after
  exact Scan.Reads.pure recipient

/-- A listing of recipients gives as many of them as its count still says. -/
theorem readRecipients_recipientsBytes
    {recipients : List Recipient}
    (fits : ∀ recipient ∈ recipients, Fits recipient)
    (rest : Bytes) :
    readRecipients.run (recipientsBytes recipients ++ rest) =
      .ok (recipients.take (recipients.length % 256)) := by
  have read :=
    @counted_countedBytes _ _ readRecipient recipientBytes id recipients
      (fun recipient member => readRecipient_reads (fits recipient member)) rest
  rw [List.map_id] at read
  exact congrArg Prod.fst read

/-- The excluded ids read back, as many as their count says. -/
theorem excludedFrom_excludedBytes (excluded : List ServiceId) :
    excludedFrom (excludedBytes excluded) =
      .ok (excluded.take (excluded.length % 256)) := by
  have read :=
    @counted_countedBytes _ _ readServiceId
      (fun serviceId => serviceId.fixed.bytes) id excluded
      (fun serviceId _ => readServiceId_reads serviceId) []
  rw [List.map_id, List.append_nil] at read
  rw [excludedFrom, if_pos (by simp [excludedBytes, countedBytes])]
  exact congrArg Prod.fst read

/-! ### What was read -/

theorem byte_takes :
    Scan.Takes Cursor.byte fun value front => front = [value] := by
  apply ((Scan.Takes.take Fault.badArgument 1).bind fun data _ _ =>
    Scan.Takes.pure (data.headD 0)).imp
  rintro value _ ⟨data, _, _, rfl, ⟨rfl, one⟩, rfl, rfl⟩
  obtain ⟨only, rfl⟩ := List.length_eq_one_iff.mp one
  rfl

/-- Only the bytes of a service id are taken. -/
theorem readServiceId_takes :
    Scan.Takes readServiceId fun serviceId front =>
      front = serviceId.fixed.bytes := by
  apply ((takeBlock_takes .badArgument 17).bind fun fixed _ _ =>
    Scan.Takes.lift (ServiceId.fromFixed_ne_trap fixed)).imp
  rintro serviceId _ ⟨fixed, _, _, rfl, rfl, parsed, rfl⟩
  rw [ServiceId.fixed_of_fromFixed parsed, List.append_nil]

theorem bigEndian_two (high low : UInt8) :
    bigEndian 2 (low.toNat + 256 * high.toNat) = [high, low] := by
  have small := low.toNat_lt
  have smallHigh := high.toNat_lt
  have front : (low.toNat + 256 * high.toNat) / 256 % 256 = high.toNat := by
    omega
  have back : (low.toNat + 256 * high.toNat) % 256 = low.toNat := by
    omega
  simp only [bigEndian, Writer.littleEndian, front, back, UInt8.ofNat_toNat]
  rfl

/-- Only the bytes of a device are taken. -/
theorem readDevice_takes :
    Scan.Takes readDevice fun device front =>
      device.registrationId < 2 ^ 16 ∧ front = deviceBytes device := by
  apply (byte_takes.bind fun number _ _ =>
    (Scan.Takes.take Fault.badArgument 2).bind fun data _ _ =>
      Scan.Takes.pure (Device.mk number (readInt16 data))).imp
  rintro _ _ ⟨number, _, _, rfl, rfl, data, _, _, rfl, ⟨rfl, two⟩, rfl, rfl⟩
  obtain ⟨high, low, rfl⟩ := List.length_eq_two.mp two
  have value : readInt16 [high, low] = low.toNat + 256 * high.toNat := by
    simp [readInt16, Reader.littleEndian]
  have small := low.toNat_lt
  have smallHigh := high.toNat_lt
  constructor
  · simp only [value]
    omega
  · simp only [value, deviceBytes, bigEndian_two]
    rfl

/-- Only counted bytes are taken. -/
theorem counted_takes
    {α : Type}
    {scan : Scan UInt8 Fault α}
    {write : α → Bytes}
    {Allowed : α → Prop}
    (takes :
      Scan.Takes scan fun value front => Allowed value ∧ front = write value) :
    Scan.Takes (Cursor.counted scan) fun values front =>
      values.length ≤ 255 ∧ (∀ value ∈ values, Allowed value) ∧
        front = countedBytes write values := by
  apply (byte_takes.bind fun count _ _ => takes.times count.toNat).imp
  rintro values _ ⟨count, _, _, rfl, rfl, length, allowed, rfl⟩
  have small := count.toNat_lt
  have same : UInt8.ofNat values.length = count := by
    rw [length]
    exact UInt8.ofNat_toNat
  refine ⟨by omega, allowed, ?_⟩
  rw [countedBytes, same]
  rfl

/-- Only the bytes of a recipient are taken. -/
theorem readRecipient_takes :
    Scan.Takes readRecipient fun recipient front =>
      Fits recipient ∧ front = recipientBytes recipient := by
  apply (readServiceId_takes.bind fun serviceId _ _ =>
    (counted_takes readDevice_takes).bind fun devices _ _ =>
      (Scan.Takes.take Fault.badArgument 33).bind fun key _ _ =>
        (Scan.Takes.lift (Curve.Public.parse_ne_trap key)).bind
          fun identity _ _ =>
            Scan.Takes.pure (Recipient.mk serviceId devices identity)).imp
  rintro _ _ ⟨serviceId, _, _, rfl, rfl, devices, _, _, rfl,
    ⟨count, ids, rfl⟩, key, _, _, rfl, ⟨rfl, _⟩, identity, _, _, rfl,
    ⟨parsed, rfl⟩, rfl, rfl⟩
  refine ⟨⟨count, ids⟩, ?_⟩
  simp [recipientBytes, Curve.Public.serialize_of_parse parsed]

/-- Whatever the cursor reads as recipients stood at the front. -/
theorem readRecipients_takes :
    Scan.Takes readRecipients fun recipients front =>
      recipients.length ≤ 255 ∧
        (∀ recipient ∈ recipients, Fits recipient) ∧
          front = recipientsBytes recipients :=
  counted_takes readRecipient_takes

/-! ## What the call accepts -/

section Calls

variable [Hashes] [Curves]

/--
The listing starts with `read` in a form whose counts fit, and the secret and
every one of these recipients can be sealed with.
-/
structure Accepted
    (m : Block 32)
    (secret listing : Bytes)
    (read : List Recipient) :
    Prop where
  stands : ∃ rest, listing = recipientsBytes read ++ rest
  count : read.length ≤ 255
  fits : ∀ recipient ∈ read, Fits recipient
  sealable :
    ∃ session us,
      Session.from m = .ok session ∧ usFrom secret = .ok us ∧
        ∀ recipient ∈ read, recipient.Sealable session us

variable [GcmSiv]
  {m : Block 32} {secret listing content : Bytes} {parsed : Content}
  {excluded : List ServiceId}

/-- What the call seals, for listings of any length. -/
theorem envelopeSealMany_eq_ok
    (isContent : Content.parse content = .ok parsed)
    {envelope : Bytes} :
    envelopeSealMany m secret listing (excludedBytes excluded) content =
        .ok envelope ↔
      ∃ read us,
        readRecipients.run listing = .ok read ∧ usFrom secret = .ok us ∧
          sealForMany m us read (excluded.take (excluded.length % 256))
              parsed =
            .ok envelope := by
  simp only [envelopeSealMany, excludedFrom_excludedBytes, isContent,
    Outcome.ok_bind, Outcome.bind_eq_ok]
  constructor
  · rintro ⟨read, isRead, us, isUs, sealed⟩
    exact ⟨read, us, isRead, isUs, sealed⟩
  · rintro ⟨read, us, isRead, isUs, sealed⟩
    exact ⟨read, isRead, us, isUs, sealed⟩

/-- The call returns an envelope exactly when it accepts what is listed. -/
theorem exists_envelopeSealMany
    (isContent : Content.parse content = .ok parsed) :
    (∃ envelope,
      envelopeSealMany m secret listing (excludedBytes excluded) content =
        .ok envelope) ↔
      ∃ read, Accepted m secret listing read := by
  constructor
  · rintro ⟨envelope, returned⟩
    obtain ⟨read, us, isRead, isUs, sealed⟩ :=
      (envelopeSealMany_eq_ok isContent).mp returned
    obtain ⟨front, rest, stands, count, fits, rfl⟩ :=
      readRecipients_takes.run isRead
    obtain ⟨session, isSession, sealable⟩ :=
      (exists_sealForMany m us read _ parsed).mp ⟨envelope, sealed⟩
    exact ⟨read, ⟨rest, stands⟩, count, fits,
      session, us, isSession, isUs, sealable⟩
  · rintro ⟨read, ⟨rest, rfl⟩, count, fits,
      session, us, isSession, isUs, sealable⟩
    obtain ⟨envelope, sealed⟩ :=
      (exists_sealForMany m us read (excluded.take (excluded.length % 256))
        parsed).mpr ⟨session, isSession, sealable⟩
    have all : read.length % 256 = read.length := Nat.mod_eq_of_lt (by omega)
    have isRead := readRecipients_recipientsBytes fits rest
    rw [all, List.take_length] at isRead
    exact ⟨envelope,
      (envelopeSealMany_eq_ok isContent).mpr ⟨read, us, isRead, isUs, sealed⟩⟩

/--
An envelope the call returns lists what the call accepted, and then as many
excluded ids as their count still says.
-/
theorem envelopeSealMany_listed
    (isContent : Content.parse content = .ok parsed)
    {envelope : Bytes}
    (returned :
      envelopeSealMany m secret listing (excludedBytes excluded) content =
        .ok envelope) :
    ∃ read sent,
      readRecipients.run listing = .ok read ∧
        (∀ recipient ∈ read,
          recipient.devices ≠ [] ∧ recipient.devices.length ≤ 255) ∧
        read.length ≤ 255 ∧
        parseSent envelope = .ok sent ∧
        sent.recipients.map SentRecipient.listed =
          read.map Recipient.listed ++
            (excluded.take (excluded.length % 256)).map fun serviceId =>
              (serviceId, []) := by
  obtain ⟨read, us, isRead, _, sealed⟩ :=
    (envelopeSealMany_eq_ok isContent).mp returned
  obtain ⟨_, _, _, count, fits, _⟩ := readRecipients_takes.run isRead
  obtain ⟨_, _, sealable⟩ :=
    (exists_sealForMany m us read _ parsed).mp ⟨envelope, sealed⟩
  have left := List.length_take_le (excluded.length % 256) excluded
  have countable :
      read.length + (excluded.take (excluded.length % 256)).length <
        2 ^ 64 := by
    omega
  obtain ⟨sent, isSent, listed⟩ := parseSent_sealForMany countable sealed
  exact ⟨read, sent, isRead,
    fun recipient member =>
      ⟨(sealable recipient member).some, (fits recipient member).devices⟩,
    count, isSent, listed⟩

/-- The call never traps. -/
theorem envelopeSealMany_ne_trap
    (isContent : Content.parse content = .ok parsed) :
    envelopeSealMany m secret listing (excludedBytes excluded) content ≠
      .trap := by
  intro trapped
  simp only [envelopeSealMany, excludedFrom_excludedBytes, isContent,
    Outcome.ok_bind, Outcome.bind_eq_trap] at trapped
  rcases trapped with reading | ⟨read, _, keying | ⟨us, _, sealing⟩⟩
  · exact readRecipients_takes.noTrap listing reading
  · simp [usFrom, Outcome.bind_eq_trap, Curve.Secret.parse_ne_trap,
      Curve.Pair.fromSecret_ne_trap] at keying
  · exact sealForMany_ne_trap m us read _ parsed sealing

end Calls

end Gossveil.Listing
