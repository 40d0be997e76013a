import Gossveil.Multiseal

namespace Gossveil.Multiseal

/-!
# Splitting the many-recipient envelope and opening a part of it

A server hands each device the entry of its recipient and the shared part.  The
device unwraps the key with its own secret, and the tag shows that the sender
whose certificate the content carries wrapped it.
-/

/-! ## The received form -/

/-- The parts of the received form behind its first byte. -/
structure Received where
  wrapped : Block 32
  theirTag : Block 16
  ephemeral : Curve.Public
  sealed : Bytes
  deriving DecidableEq

/-- The parts of what one recipient is handed; the length is checked first. -/
def Received.split (body : Bytes) : Outcome Fault Received :=
  if body.length < wrappedKeyLength + tagLength + 32 + tagLength then
    .error .badMessage
  else
    Scan.run (do
      let wrapped ← takeBlock .badMessage 32
      let theirTag ← takeBlock .badMessage 16
      let ephemeral ← takeBlock .badMessage 32
      let sealed ← Call.get
      return ⟨wrapped, theirTag, ⟨ephemeral⟩, sealed⟩) body

variable [Hashes] [Curves] [GcmSiv]

/--
Opens what one recipient is handed: the mask, the content, the certificate, the
tag.
-/
def openReceived (us : IdentityPair) (body : Bytes) : Outcome Fault Content := do
  let received ← Received.split body
  let m ← wrap us.pair received.ephemeral .receiving received.wrapped
  let session ← Session.from m
  Outcome.require .badMessage
    (session.ephemeral.publicKey = received.ephemeral)
  let contentBytes ←
    Cipher.sivOpen session.key (Block.zero 12) received.sealed []
  let content ← Content.parse contentBytes
  let expected ←
    tag us content.sender.senderKey .receiving received.ephemeral
      received.wrapped
  Outcome.require .badMessage (expected = received.theirTag)
  return content

/-! ## Splitting an envelope -/

/-- The per-device form the server hands to one recipient. -/
def Sent.receivedFor (sent : Sent) (recipient : SentRecipient) : Bytes :=
  receivedByte :: (recipient.wrappedAndTag ++ sent.shared)

/-- The loop of `forSingle`, over the recipient with devices found so far. -/
def onlyRecipient :
    (only : Option SentRecipient) →
    List SentRecipient →
    Outcome Fault SentRecipient
  | only, [] => Outcome.ofOption .badArgument only
  | only, recipient :: rest =>
      if recipient.devices.length = 0 then
        onlyRecipient only rest
      else if only ≠ none then
        .error .badArgument
      else
        onlyRecipient (some recipient) rest

/-- A message sent to exactly one recipient, rewritten as that recipient receives it. -/
def forSingle (data : Bytes) : Outcome Fault Bytes := do
  let sent ← parseSent data
  let only ← onlyRecipient none sent.recipients
  return sent.receivedFor only

/-- Whether the entry is for a device of this id. -/
def SentRecipient.isFor
    (recipient : SentRecipient)
    (serviceId : ServiceId)
    (device : UInt8) :
    Bool :=
  recipient.serviceId = serviceId ∧
    recipient.devices.any fun listed => listed.device = device

/-- The server's split: the received form for one device of one recipient. -/
def forRecipient
    (data : Bytes)
    (serviceId : ServiceId)
    (device : UInt8) :
    Outcome Fault Bytes := do
  let sent ← parseSent data
  let recipient ←
    Outcome.ofOption .badArgument
      (sent.recipients.find? fun recipient =>
        recipient.isFor serviceId device)
  return sent.receivedFor recipient

/-! ## Both sides of a wrapped key -/

omit [Hashes] [Curves] [GcmSiv] in
/-- Masking twice gives the input back. -/
theorem masked_masked (out input : Block 32) :
    masked out (masked out input) = input := by
  ext1
  have covered : input.bytes.length ≤ out.bytes.length := by
    simp
  have twice := Cipher.zipWith_xor_twice covered
  simp only [masked]
  rw [List.zipWith_comm_of_comm fun first second => UInt8.xor_comm first second,
    List.zipWith_comm_of_comm (l := out.bytes) fun first second =>
      UInt8.xor_comm first second]
  exact twice

section Unwrapping

variable {us them : IdentityPair} {session : Session} {m wrapped : Block 32}
variable {theirTag : Block 16} {recipient : Recipient}

omit [GcmSiv] in
/-- The recipient's side of the wrapping gives the secret back. -/
theorem wrap_receiving
    (commutes : Curve.Commutes)
    (ephemeral : session.ephemeral.Whole)
    (whole : them.pair.Whole)
    (wraps :
      wrap session.ephemeral them.identity.key .sending m = .ok wrapped) :
    wrap them.pair session.ephemeral.publicKey .receiving wrapped = .ok m := by
  obtain ⟨agreed, agrees, masks⟩ := Outcome.bind_eq_ok.mp wraps
  obtain rfl := Outcome.ok.inj masks
  have agreesBack :
      them.pair.secret.agree session.ephemeral.publicKey = .ok agreed :=
    (whole.agree_comm ephemeral commutes).trans agrees
  simp only [wrap, agreesBack, Outcome.ok_bind]
  exact congrArg Outcome.ok (masked_masked _ m)

omit [GcmSiv] in
/-- The recipient's side of the tag is the sender's. -/
theorem tag_receiving
    {ephemeral : Curve.Public}
    (commutes : Curve.Commutes)
    (sender : us.pair.Whole)
    (whole : them.pair.Whole)
    (tags :
      tag us them.identity.key .sending ephemeral wrapped = .ok theirTag) :
    tag them us.identity.key .receiving ephemeral wrapped = .ok theirTag := by
  obtain ⟨agreed, agrees, same⟩ := Outcome.bind_eq_ok.mp tags
  have agreesBack : them.secret.agree us.identity.key = .ok agreed :=
    (whole.agree_comm sender commutes).trans agrees
  rw [← same, tag, agreesBack]
  rfl

omit [GcmSiv] in
/-- A session has a whole ephemeral pair. -/
theorem Session.whole
    (made : Session.from m = .ok session) :
    session.ephemeral.Whole := by
  obtain ⟨ephemeral, isEphemeral, rest⟩ := Outcome.bind_eq_ok.mp made
  obtain rfl := Outcome.ok.inj rest
  exact Curve.Pair.whole_of_fromSecret isEphemeral

omit [Hashes] [Curves] [GcmSiv] in
/-- A received envelope splits into its parts. -/
theorem Received.split_joined
    (ephemeral : Curve.Public)
    {sealed : Bytes}
    (tagged : tagLength ≤ sealed.length) :
    Received.split
        (wrapped.bytes ++ theirTag.bytes ++ (ephemeral.u.bytes ++ sealed)) =
      .ok ⟨wrapped, theirTag, ephemeral, sealed⟩ := by
  have long :
      ¬ (wrapped.bytes ++ theirTag.bytes ++
            (ephemeral.u.bytes ++ sealed)).length <
          wrappedKeyLength + tagLength + 32 + tagLength := by
    simp only [List.length_append, Block.length_eq, wrappedKeyLength,
      tagLength] at tagged ⊢
    omega
  rw [Received.split, if_neg long, List.append_assoc, Scan.run,
    Call.bind_of_ok (takeBlock_reads _ wrapped _),
    Call.bind_of_ok (takeBlock_reads _ theirTag _),
    Call.bind_of_ok (takeBlock_reads _ ephemeral.u _)]
  rfl

/-- What the server hands to a recipient opens to the sealed content. -/
theorem openReceived_entry
    {content : Content}
    (commutes : Curve.Commutes)
    (correct : Cipher.SivCorrect)
    (sender : us.pair.Whole)
    (whole : them.pair.Whole)
    (made : Session.from m = .ok session)
    (wraps :
      wrap session.ephemeral them.identity.key .sending m = .ok wrapped)
    (tags :
      tag us them.identity.key .sending session.ephemeral.publicKey wrapped =
        .ok theirTag)
    (parses : Content.parse content.bytes = .ok content)
    (named : content.sender.senderKey = us.identity.key) :
    openReceived them
        (wrapped.bytes ++ theirTag.bytes ++ shared session content) =
      .ok content := by
  have tagged :
      tagLength ≤
        (Cipher.sivSeal session.key (Block.zero 12) content.bytes []).length := by
    simp [Cipher.sivSeal, tagLength]
  have unwraps := wrap_receiving commutes (Session.whole made) whole wraps
  have tagsBack := tag_receiving commutes sender whole tags
  have opens :=
    Cipher.sivOpen_sivSeal correct session.key (Block.zero 12) content.bytes []
  rw [openReceived, shared, Received.split_joined _ tagged]
  simp only [Outcome.ok_bind, unwraps, made, opens, parses, named, tagsBack]
  rw [Outcome.require_of trivial]
  rfl

end Unwrapping

/-! ## Which entry a device gets -/

section Entries

variable {us : IdentityPair} {session : Session} {m : Block 32}
variable {recipients : List Recipient} {sent : List SentRecipient}
variable {excluded : List ServiceId} {serviceId : ServiceId} {device : UInt8}

omit [Hashes] [Curves] [GcmSiv] in
/-- An entry is for a device it lists. -/
theorem SentRecipient.isFor_iff
    {entry : SentRecipient} :
    entry.isFor serviceId device = true ↔
      entry.serviceId = serviceId ∧
        ∃ listed ∈ entry.devices, listed.device = device := by
  simp [isFor]

omit [GcmSiv] in
/-- Every recipient has an entry. -/
theorem exists_sentFor
    (allSent : List.Forall₂ (SentFor session us m) recipients sent)
    {recipient : Recipient}
    (member : recipient ∈ recipients) :
    ∃ entry ∈ sent, SentFor session us m recipient entry := by
  induction allSent with
  | nil =>
      simp at member
  | @cons first entry _ _ sentFor _ inductionHypothesis =>
      rcases List.mem_cons.mp member with rfl | later
      · exact ⟨entry, List.mem_cons_self, sentFor⟩
      · obtain ⟨other, inside, otherFor⟩ := inductionHypothesis later
        exact ⟨other, List.mem_cons_of_mem _ inside, otherFor⟩

omit [GcmSiv] in
/-- Every entry has a recipient. -/
theorem exists_recipient
    (allSent : List.Forall₂ (SentFor session us m) recipients sent)
    {entry : SentRecipient}
    (member : entry ∈ sent) :
    ∃ recipient ∈ recipients, SentFor session us m recipient entry := by
  induction allSent with
  | nil =>
      simp at member
  | @cons first other _ _ sentFor _ inductionHypothesis =>
      rcases List.mem_cons.mp member with rfl | later
      · exact ⟨first, List.mem_cons_self, sentFor⟩
      · obtain ⟨recipient, inside, isFor⟩ := inductionHypothesis later
        exact ⟨recipient, List.mem_cons_of_mem _ inside, isFor⟩

omit [GcmSiv] in
/-- A listed device is found in the entry of its own recipient. -/
theorem find_listed
    (allSent : List.Forall₂ (SentFor session us m) recipients sent)
    (distinct : (recipients.map Recipient.serviceId).Nodup)
    {recipient : Recipient}
    (member : recipient ∈ recipients)
    {listed : Device}
    (inside : listed ∈ recipient.devices) :
    ∃ entry,
      (sent ++ excluded.map SentRecipient.excluded).find?
            (fun entry =>
              entry.isFor recipient.serviceId listed.device) =
          some entry ∧
        SentFor session us m recipient entry := by
  obtain ⟨own, isOwn, ownFor⟩ := exists_sentFor allSent member
  obtain ⟨sameId, sameDevices⟩ := Prod.mk.inj ownFor.listed
  have ownFits : own.isFor recipient.serviceId listed.device = true :=
    SentRecipient.isFor_iff.mpr
      ⟨sameId, listed, sameDevices ▸ inside, rfl⟩
  cases found :
      (sent ++ excluded.map SentRecipient.excluded).find? fun entry =>
        entry.isFor recipient.serviceId listed.device with
  | none =>
      have missing :=
        List.find?_eq_none.mp found own (List.mem_append_left _ isOwn)
      exact absurd ownFits missing
  | some entry =>
      refine ⟨entry, rfl, ?_⟩
      have fits : entry.isFor recipient.serviceId listed.device = true := by
        simpa using List.find?_some found
      obtain ⟨isId, other, isListed, _⟩ := SentRecipient.isFor_iff.mp fits
      rcases List.mem_append.mp (List.mem_of_find?_eq_some found) with
        isSent | isExcluded
      · obtain ⟨other, isOther, otherFor⟩ := exists_recipient allSent isSent
        have sameOther : other.serviceId = recipient.serviceId :=
          (congrArg Prod.fst otherFor.listed).symm.trans isId
        rwa [List.inj_on_of_nodup_map distinct isOther member sameOther]
          at otherFor
      · obtain ⟨left, _, rfl⟩ := List.mem_map.mp isExcluded
        simp [SentRecipient.excluded] at isListed

omit [GcmSiv] in
/-- No entry is found for a device that is not listed under the id. -/
theorem find_unlisted
    (allSent : List.Forall₂ (SentFor session us m) recipients sent)
    (unlisted :
      ∀ recipient ∈ recipients, recipient.serviceId = serviceId →
        ∀ listed ∈ recipient.devices, listed.device ≠ device) :
    (sent ++ excluded.map SentRecipient.excluded).find?
        (fun entry => entry.isFor serviceId device) =
      none := by
  apply List.find?_eq_none.mpr
  intro entry member isFor
  obtain ⟨isId, listed, inside, isDevice⟩ :=
    SentRecipient.isFor_iff.mp isFor
  rcases List.mem_append.mp member with isSent | isExcluded
  · obtain ⟨recipient, isRecipient, sentFor⟩ :=
      exists_recipient allSent isSent
    obtain ⟨sameId, sameDevices⟩ := Prod.mk.inj sentFor.listed
    exact unlisted recipient isRecipient (sameId.symm.trans isId) listed
      (sameDevices ▸ inside) isDevice
  · obtain ⟨left, _, rfl⟩ := List.mem_map.mp isExcluded
    simp [SentRecipient.excluded] at inside

omit [Hashes] [Curves] [GcmSiv] in
/-- Excluded accounts do not count as recipients. -/
theorem onlyRecipient_excluded
    (only : Option SentRecipient)
    (excluded : List ServiceId) :
    onlyRecipient only (excluded.map SentRecipient.excluded) =
      Outcome.ofOption .badArgument only := by
  induction excluded with
  | nil =>
      rfl
  | cons serviceId excluded inductionHypothesis =>
      simpa [onlyRecipient, SentRecipient.excluded] using inductionHypothesis

omit [Hashes] [Curves] [GcmSiv] in
/-- The loop returns an entry exactly when it is the only one with devices. -/
theorem onlyRecipient_eq_ok
    {entry : SentRecipient}
    (some : ∀ entry ∈ sent, entry.devices ≠ []) :
    onlyRecipient none (sent ++ excluded.map SentRecipient.excluded) =
        .ok entry ↔
      sent = [entry] := by
  match sent with
  | [] =>
      simp [onlyRecipient_excluded]
  | [first] =>
      have listed : first.devices ≠ [] := some first List.mem_cons_self
      simp [onlyRecipient, listed, onlyRecipient_excluded]
  | first :: second :: rest =>
      have firstListed : first.devices ≠ [] := some first List.mem_cons_self
      have secondListed : second.devices ≠ [] := some second (by simp)
      simp [onlyRecipient, firstListed, secondListed]

end Entries

end Gossveil.Multiseal
