import Gossveil.Seal

namespace Gossveil.Multiseal

/-!
# The many-recipient envelope from end to end

What is sealed for many lists exactly its recipients, and each listed device
gets a message that its recipient opens to the sealed content.
-/

/-- The recipients and the excluded ids a caller may pass. -/
structure Addressable
    [Curves]
    (recipients : List Recipient)
    (excluded : List ServiceId) :
    Prop where
  distinct : (recipients.map Recipient.serviceId).Nodup
  valid : ∀ recipient ∈ recipients, recipient.identity.Valid
  some : ∀ recipient ∈ recipients, recipient.devices ≠ []
  devices :
    ∀ recipient ∈ recipients, ∀ listed ∈ recipient.devices,
      listed.device ≠ 0 ∧ listed.registrationId ≤ registrationMask
  disjoint :
    ∀ serviceId ∈ excluded, ∀ recipient ∈ recipients,
      recipient.serviceId ≠ serviceId
  countable : recipients.length + excluded.length < 2 ^ 64

section Envelopes

variable [Hashes] [Curves] [GcmSiv]
variable {m : Block 32} {us : IdentityPair} {content : Content}
variable {recipients : List Recipient} {excluded : List ServiceId}

omit [Hashes] [GcmSiv] in
/-- A recipient that can be addressed can be sealed for. -/
theorem Addressable.sealable
    {recipient : Recipient}
    (addressable : Addressable recipients excluded)
    (member : recipient ∈ recipients)
    (session : Session) :
    recipient.Sealable session us where
  some := addressable.some recipient member
  allowed := by
    intro listed inside
    obtain ⟨number, small⟩ := addressable.devices recipient member listed inside
    exact ⟨Nat.lt_succ_of_le small, number⟩
  wraps := addressable.valid recipient member session.ephemeral.secret
  tags := addressable.valid recipient member us.secret

omit [GcmSiv] in
/-- Every message has a session. -/
theorem exists_session
    (pointed : ∀ secret : Curve.Secret, ∃ key, secret.publicKey = .ok key)
    (m : Block 32) :
    ∃ session, Session.from m = .ok session := by
  obtain ⟨key, isKey⟩ :=
    pointed
      (.fromRaw
        (Derive.hkdf 32 m.bytes none (ascii "Sealed Sender v2: r (2023-08)")))
  simp [Session.from, Curve.Pair.fromSecret, isKey]

/-! ## The parts of a sealed envelope -/

section Parts

variable {session : Session} {sent : List SentRecipient} {envelope : Bytes}

/-- The envelope with the entries it was sealed with. -/
structure SealedFor
    (session : Session)
    (us : IdentityPair)
    (m : Block 32)
    (recipients : List Recipient)
    (excluded : List ServiceId)
    (content : Content)
    (sent : List SentRecipient)
    (envelope : Bytes) :
    Prop where
  made : Session.from m = .ok session
  allSent : List.Forall₂ (SentFor session us m) recipients sent
  parses :
    parseSent envelope =
      .ok ⟨sent ++ excluded.map SentRecipient.excluded,
        shared session content⟩

variable
  (sealedFor :
    SealedFor session us m recipients excluded content sent envelope)

include sealedFor

/-- A listed device gets a message its recipient opens. -/
theorem SealedFor.forRecipient_listed
    [Aes]
    {recipient : Recipient}
    {listed : Device}
    (commutes : Curve.Commutes)
    (correct : Cipher.SivCorrect)
    (sender : us.pair.Whole)
    (parses : Content.parse content.bytes = .ok content)
    (named : content.sender.senderKey = us.identity.key)
    (distinct : (recipients.map Recipient.serviceId).Nodup)
    (member : recipient ∈ recipients)
    (inside : listed ∈ recipient.devices) :
    ∃ message,
      forRecipient envelope recipient.serviceId listed.device =
          .ok message ∧
        ∀ them : IdentityPair,
          them.pair.Whole →
          them.identity.key = recipient.identity →
          Seal.open them message = .ok content := by
  obtain ⟨entry, found, entryFor⟩ :=
    @find_listed _ _ us session m recipients sent excluded sealedFor.allSent
      distinct recipient member listed inside
  obtain ⟨wrapped, theirTag, wraps, tags, isEntry⟩ := entryFor.keyed
  refine ⟨_, by
    simp only [forRecipient, sealedFor.parses, Outcome.ok_bind, found]
    rfl, ?_⟩
  intro them whole isKey
  rw [← isKey] at wraps tags
  have opens :=
    openReceived_entry commutes correct sender whole sealedFor.made wraps
      tags parses named
  rw [← isEntry] at opens
  exact opens

/-- A device not listed is refused. -/
theorem SealedFor.forRecipient_unlisted
    {serviceId : ServiceId}
    {device : UInt8}
    (unlisted :
      ∀ recipient ∈ recipients, recipient.serviceId = serviceId →
        ∀ listed ∈ recipient.devices, listed.device ≠ device) :
    forRecipient envelope serviceId device = .error .badArgument := by
  have missing :=
    @find_unlisted _ _ us session m recipients sent excluded serviceId device
      sealedFor.allSent unlisted
  simp only [forRecipient, sealedFor.parses, Outcome.ok_bind, missing]
  rfl

/-- Every entry has a device. -/
theorem SealedFor.some_of_mem
    (some : ∀ recipient ∈ recipients, recipient.devices ≠ []) :
    ∀ entry ∈ sent, entry.devices ≠ [] := by
  intro entry member
  obtain ⟨recipient, isRecipient, entryFor⟩ :=
    exists_recipient sealedFor.allSent member
  have sameDevices : entry.devices = recipient.devices :=
    congrArg Prod.snd entryFor.listed
  rw [sameDevices]
  exact some recipient isRecipient

/-- The single form is the one entry there is. -/
theorem SealedFor.forSingle_eq_ok
    {message : Bytes}
    (some : ∀ recipient ∈ recipients, recipient.devices ≠ []) :
    forSingle envelope = .ok message ↔
      ∃ entry,
        sent = [entry] ∧
          receivedByte :: (entry.wrappedAndTag ++ shared session content) =
            message := by
  have listed := sealedFor.some_of_mem some
  simp only [forSingle, sealedFor.parses, Outcome.ok_bind,
    Outcome.bind_eq_ok, onlyRecipient_eq_ok listed]
  constructor
  · rintro ⟨entry, isOnly, done⟩
    exact ⟨entry, isOnly, Outcome.ok.inj done⟩
  · rintro ⟨entry, isOnly, rfl⟩
    exact ⟨entry, isOnly, rfl⟩

/-- A single message exists for a single recipient. -/
theorem SealedFor.forSingle_iff
    (some : ∀ recipient ∈ recipients, recipient.devices ≠ []) :
    (∃ message, forSingle envelope = .ok message) ↔
      recipients.length = 1 := by
  rw [sealedFor.allSent.length_eq, List.length_eq_one_iff]
  constructor
  · rintro ⟨message, returned⟩
    obtain ⟨entry, isOnly, _⟩ := (sealedFor.forSingle_eq_ok some).mp returned
    exact ⟨entry, isOnly⟩
  · rintro ⟨entry, isOnly⟩
    exact ⟨_, (sealedFor.forSingle_eq_ok some).mpr ⟨entry, isOnly, rfl⟩⟩

/-- Every listed device gets the bytes of the single form. -/
theorem SealedFor.forRecipient_of_forSingle
    {message : Bytes}
    {recipient : Recipient}
    {listed : Device}
    (some : ∀ recipient ∈ recipients, recipient.devices ≠ [])
    (distinct : (recipients.map Recipient.serviceId).Nodup)
    (returned : forSingle envelope = .ok message)
    (member : recipient ∈ recipients)
    (inside : listed ∈ recipient.devices) :
    forRecipient envelope recipient.serviceId listed.device = .ok message := by
  obtain ⟨only, isOnly, rfl⟩ := (sealedFor.forSingle_eq_ok some).mp returned
  obtain ⟨entry, found, _⟩ :=
    @find_listed _ _ us session m recipients sent excluded sealedFor.allSent
      distinct recipient member listed inside
  -- an entry with a device is not one of the excluded ids
  have isEntry : entry = only := by
    have fits : entry.isFor recipient.serviceId listed.device = true := by
      simpa using List.find?_some found
    obtain ⟨_, other, isListed, _⟩ := SentRecipient.isFor_iff.mp fits
    rcases List.mem_append.mp (List.mem_of_find?_eq_some found) with
      isSent | isExcluded
    · rw [isOnly] at isSent
      exact List.mem_singleton.mp isSent
    · obtain ⟨left, _, rfl⟩ := List.mem_map.mp isExcluded
      simp [SentRecipient.excluded] at isListed
  simp only [forRecipient, sealedFor.parses, Outcome.ok_bind, found, isEntry]
  rfl

end Parts

/--
Sealing for many succeeds, lists exactly the recipients and the excluded ids,
and splits into messages that the recipients of the listed devices open.
-/
theorem many_recipients
    [Aes]
    (commutes : Curve.Commutes)
    (pointed : ∀ secret : Curve.Secret, ∃ key, secret.publicKey = .ok key)
    (correct : Cipher.SivCorrect)
    (sender : us.pair.Whole)
    (parses : Content.parse content.bytes = .ok content)
    (named : content.sender.senderKey = us.identity.key)
    (addressable : Addressable recipients excluded)
    (m : Block 32) :
    ∃ envelope,
      sealForMany m us recipients excluded content = .ok envelope ∧
        (∃ sent,
          parseSent envelope = .ok sent ∧
            sent.recipients.map SentRecipient.listed =
              recipients.map Recipient.listed ++
                excluded.map fun serviceId => (serviceId, [])) ∧
        (∀ recipient ∈ recipients, ∀ listed ∈ recipient.devices,
          ∃ message,
            forRecipient envelope recipient.serviceId listed.device =
                .ok message ∧
              ∀ them : IdentityPair,
                them.pair.Whole →
                them.identity.key = recipient.identity →
                Seal.open them message = .ok content) ∧
        (∀ serviceId ∈ excluded, ∀ device,
          forRecipient envelope serviceId device = .error .badArgument) ∧
        (∀ serviceId device,
          (∀ recipient ∈ recipients, recipient.serviceId = serviceId →
            ∀ listed ∈ recipient.devices, listed.device ≠ device) →
          forRecipient envelope serviceId device = .error .badArgument) ∧
        ((∃ message, forSingle envelope = .ok message) ↔
          recipients.length = 1) ∧
        ∀ message,
          forSingle envelope = .ok message →
          ∀ recipient ∈ recipients, ∀ listed ∈ recipient.devices,
            forRecipient envelope recipient.serviceId listed.device =
              .ok message := by
  obtain ⟨session, made⟩ := exists_session pointed m
  obtain ⟨envelope, sealed⟩ :=
    (exists_sealForMany m us recipients excluded content).mpr
      ⟨session, made, fun _ member => addressable.sealable member session⟩
  obtain ⟨_, sent, isSession, allSent, isSent⟩ :=
    parseSent_of_sealForMany addressable.countable sealed
  have sealedFor :
      SealedFor _ us m recipients excluded content sent envelope :=
    ⟨isSession, allSent, isSent⟩
  refine ⟨envelope, sealed,
    parseSent_sealForMany addressable.countable sealed, ?_, ?_, ?_,
    sealedFor.forSingle_iff addressable.some, ?_⟩
  · intro recipient member listed inside
    exact sealedFor.forRecipient_listed commutes correct sender parses named
      addressable.distinct member inside
  · intro serviceId isExcluded device
    apply sealedFor.forRecipient_unlisted
    intro recipient member sameId
    exact absurd sameId
      (addressable.disjoint serviceId isExcluded recipient member)
  · intro serviceId device unlisted
    exact sealedFor.forRecipient_unlisted unlisted
  · intro message returned recipient member listed inside
    exact sealedFor.forRecipient_of_forSingle addressable.some
      addressable.distinct returned member inside

end Envelopes

section Witness

open Sample

attribute [local instance] hashes curves aes gcmSiv

/-- The sender of the sample message. -/
private def alice : IdentityPair :=
  ⟨⟨⟨Block.fill 32 7⟩⟩, ⟨Block.fill 32 7⟩⟩

/-- The recipient of the sample message. -/
private def bob : IdentityPair :=
  ⟨⟨⟨Block.fill 32 5⟩⟩, ⟨Block.fill 32 5⟩⟩

/-- The recipient with two devices. -/
private def bobsDevices : Recipient :=
  ⟨⟨.aci, ⟨Block.fill 16 3⟩⟩, [⟨1, 4242⟩, ⟨2, 7⟩], bob.identity.key⟩

/-- The excluded recipient. -/
private def leftOut : ServiceId :=
  ⟨.aci, ⟨Block.fill 16 4⟩⟩

/-- The sample recipients can be addressed. -/
private theorem bobsDevices_addressable :
    Addressable [bobsDevices] [leftOut] where
  distinct := by decide
  valid := by
    rintro _ (_ | _)
    · exact fun secret => ⟨_, rfl⟩
    · contradiction
  some := by decide
  devices := by decide
  disjoint := by decide
  countable := by decide

private theorem siv_correct : Cipher.SivCorrect := by
  intro key nonce plain aad
  exact if_pos rfl

private theorem letter_parses :
    Content.parse (content alice.identity.key).bytes =
      .ok (content alice.identity.key) := by
  decide +kernel

/-- Both devices of the one recipient get a message that opens. -/
theorem many_recipients_bob :
    ∃ envelope message,
      sealForMany (Block.zero 32) alice [bobsDevices] [leftOut]
          (content alice.identity.key) =
        .ok envelope ∧
        forRecipient envelope bobsDevices.serviceId 2 = .ok message ∧
        Seal.open bob message = .ok (content alice.identity.key) := by
  obtain ⟨envelope, sealed, _, opens, _⟩ :=
    @many_recipients _ _ _ alice _ _ _ _ Sample.commutes
      (fun secret => ⟨_, rfl⟩) siv_correct rfl letter_parses rfl
      bobsDevices_addressable (Block.zero 32)
  obtain ⟨message, received, opensFor⟩ :=
    opens bobsDevices (by simp) ⟨2, 7⟩ (by decide)
  exact ⟨envelope, message, sealed, received, opensFor bob rfl rfl⟩

end Witness

end Gossveil.Multiseal
