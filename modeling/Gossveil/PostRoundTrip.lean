import Gossveil.CirclePost
import Gossveil.RatchetPost

namespace Gossveil

/-!
# The four messages come back as they were made

A built message is parsed again from its bytes, into the same message, and its
fields are those it was built from.  The MAC and the signature are checked over
the bytes in front of them and nothing else.
-/

namespace Ratchet

/-- The two versions a session speaks. -/
def Frame.Spoken (version : Nat) : Prop :=
  version = Frame.oldestVersion ∨ version = Frame.currentVersion

/-- A spoken version is read off its byte. -/
theorem messageVersion_spoken
    {version : Nat}
    (spoken : Frame.Spoken version) :
    Frame.messageVersion (Frame.versionByte (version % 16)) =
      .ok version := by
  rcases spoken with rfl | rfl <;> rfl

namespace Whisper

variable [Hashes]

/-- A message is checked over the bytes in front of its tag. -/
theorem checkMac_append
    {message : Whisper}
    {content : Bytes}
    {trailer : Block 8}
    (shape : message.bytes = content ++ trailer.bytes)
    (sender recipient : Curve.Public)
    (key : Block 32) :
    message.checkMac sender recipient key =
      decide (tag sender recipient key content = trailer) := by
  rcases message with ⟨_, _, _, _, _, _, _, bytes, longEnough⟩
  simp only at shape
  subst shape
  have limit :
      (content ++ trailer.bytes).length - macLength = content.length := by
    simp [macLength]
  simp only [checkMac, limit, List.take_left, Block.last_append]

/-- The message made from some parts. -/
structure MadeFrom (parts : Seal) (message : Whisper) : Prop where
  built : «seal» parts = .ok message
  parsed : parse message.bytes = .ok message
  version : message.version = parts.version
  ratchet : message.ratchet = parts.ratchet
  index : message.index = parts.index
  previousIndex : message.previousIndex = parts.previousIndex
  body : message.body = parts.body
  pqPacket : message.pqPacket = parts.pqPacket
  binding : message.binding = parts.bound
  /-- The tag is behind the content, and any key is tried on the content. -/
  covered :
    ∃ trailer : Block 8,
      message.bytes = parts.content ++ trailer.bytes ∧
        ∀ sender recipient key,
          message.checkMac sender recipient key =
            decide (tag sender recipient key parts.content = trailer)
  checks :
    message.checkMac parts.sender parts.recipient parts.macKey = true

/-- Parts that fit make a message. -/
theorem exists_madeFrom
    {parts : Seal}
    (fits : parts.Fits)
    (spoken : Frame.Spoken parts.version) :
    ∃ message, MadeFrom parts message := by
  have built := seal_eq_ok fits (messageVersion_spoken spoken)
  refine ⟨_, built, built, rfl, rfl, rfl, rfl, rfl, rfl, rfl,
    ⟨tag parts.sender parts.recipient parts.macKey parts.content, rfl, ?_⟩,
    ?_⟩
  · intro sender recipient key
    exact checkMac_append rfl sender recipient key
  · have checked :=
      @checkMac_append _
        ⟨parts.version, parts.ratchet, parts.index, parts.previousIndex,
          parts.body, parts.pqPacket, parts.bound, parts.encode,
          parts.longEnough⟩
        parts.content _ rfl parts.sender parts.recipient parts.macKey
    rw [checked]
    exact decide_eq_true rfl

end Whisper

namespace Opener

/-- The first message made from some parts. -/
structure MadeFrom (parts : Wrap) (opener : Opener) : Prop where
  built : wrap parts = .ok opener
  parsed : parse opener.bytes = .ok opener
  version : opener.version = parts.version
  registrationId : opener.registrationId = parts.registrationId
  oneTimeId : opener.oneTimeId = parts.oneTimeId
  signedId : opener.signedId = parts.signedId
  pqId : opener.pqId = some parts.pqId
  capsule : opener.capsule = some parts.capsule
  base : opener.base = parts.base
  identity : opener.identity = parts.identity
  inner : opener.inner = parts.inner
  bytes : opener.bytes = parts.encode

/-- Parts that fit make a first message. -/
theorem exists_madeFrom
    {parts : Wrap}
    (fits : parts.Fits)
    (spoken : Frame.Spoken parts.version) :
    ∃ opener, MadeFrom parts opener := by
  have built := wrap_eq_ok fits (messageVersion_spoken spoken)
  exact ⟨_, built, built, rfl, rfl, rfl, rfl, rfl, rfl, rfl, rfl, rfl, rfl⟩

end Opener

end Ratchet

namespace Circle

namespace Announce

/-- The arguments of `make`, as wide as the source's parameters. -/
structure Parts where
  circleId : Block 16
  chainId : Nat
  step : Nat
  seed : Block 32
  signing : Curve.Public
  chainFits : chainId < 2 ^ 32
  stepFits : step < 2 ^ 32

/-- The announcement made from some parts. -/
structure MadeFrom (parts : Parts) (announcement : Announce) : Prop where
  built :
    make Post.version parts.circleId parts.chainId parts.step parts.seed
        parts.signing =
      .ok announcement
  parsed : parse announcement.bytes = .ok announcement
  version : announcement.version = Post.version
  circleId : announcement.circleId = parts.circleId
  chainId : announcement.chainId = parts.chainId
  step : announcement.step = parts.step
  seed : announcement.seed = parts.seed
  signing : announcement.signing = parts.signing
  bytes :
    announcement.bytes =
      encode Post.version parts.circleId parts.chainId parts.step parts.seed
        parts.signing

/-- Any parts make an announcement. -/
theorem exists_madeFrom (parts : Parts) :
    ∃ announcement, MadeFrom parts announcement := by
  have built :=
    make_eq_ok parts.circleId parts.seed parts.signing parts.chainFits
      parts.stepFits
  exact ⟨_, built, built, rfl, rfl, rfl, rfl, rfl, rfl, rfl⟩

end Announce

namespace Note

/-- The arguments of `make`; the message in front of the signature fits a slice. -/
structure Parts where
  circleId : Block 16
  chainId : Nat
  step : Nat
  body : Bytes
  signer : Curve.Secret
  nonce : Block 64
  chainFits : chainId < 2 ^ 32
  stepFits : step < 2 ^ 32
  short : (signed Post.version circleId chainId step body).length < 2 ^ 64

/-- What the signature covers. -/
def Parts.content (parts : Parts) : Bytes :=
  signed Post.version parts.circleId parts.chainId parts.step parts.body

variable [Curves]

/-- A note is verified over the bytes in front of its signature. -/
theorem signedBy_append
    {note : Note}
    {content : Bytes}
    {signature : Block 64}
    (shape : note.bytes = content ++ signature.bytes)
    (signing : Curve.Public) :
    note.signedBy signing = signing.verify content signature := by
  rcases note with ⟨_, _, _, _, _, bytes, longEnough⟩
  simp only at shape
  subst shape
  have limit :
      (content ++ signature.bytes).length - Curve.signatureLength =
        content.length := by
    simp [Curve.signatureLength]
  simp only [signedBy, limit, List.take_left, Block.last_append]

/-- The note made from some parts under a signature. -/
structure MadeFrom
    (parts : Parts)
    (signature : Block 64)
    (note : Note) :
    Prop where
  built :
    make Post.version parts.circleId parts.chainId parts.step parts.body
        parts.signer parts.nonce =
      .ok note
  parsed : parse note.bytes = .ok note
  version : note.version = Post.version
  circleId : note.circleId = parts.circleId
  chainId : note.chainId = parts.chainId
  step : note.step = parts.step
  body : note.body = parts.body
  bytes : note.bytes = parts.content ++ signature.bytes
  covered :
    ∀ signing,
      note.signedBy signing = signing.verify parts.content signature

/-- Signed parts make a note. -/
theorem exists_madeFrom
    {parts : Parts}
    {signature : Block 64}
    (isSigned :
      parts.signer.signWithNonce parts.content parts.nonce =
        .ok signature) :
    ∃ note, MadeFrom parts signature note := by
  have bodyFits : parts.body.length < 2 ^ 64 := by
    apply Nat.lt_of_le_of_lt _ parts.short
    simp only [signed, Codec.Writer.bytes, List.length_cons, List.length_append]
    omega
  obtain ⟨longEnough, parsed⟩ :=
    parse_signed parts.circleId signature parts.chainFits parts.stepFits
      bodyFits
  refine
    ⟨⟨Post.version, parts.circleId, parts.chainId, parts.step, parts.body,
        parts.content ++ signature.bytes, longEnough⟩,
      ?_, parsed, rfl, rfl, rfl, rfl, rfl, rfl, ?_⟩
  · simp only [make]
    rw [← Parts.content, isSigned]
    exact parsed
  · intro signing
    exact signedBy_append rfl signing

end Note

end Circle

/--
Every ratchet message, first message, announcement and note is made, parses
back from its bytes to what it was made from, and is checked over the bytes in
front of its trailer.
-/
theorem messages_round_trip [Hashes] [Curves] :
    (∀ {whisper : Ratchet.Whisper.Seal},
      whisper.Fits →
      Ratchet.Frame.Spoken whisper.version →
        ∃ message, Ratchet.Whisper.MadeFrom whisper message) ∧
      (∀ {opener : Ratchet.Opener.Wrap},
        opener.Fits →
        Ratchet.Frame.Spoken opener.version →
          ∃ message, Ratchet.Opener.MadeFrom opener message) ∧
      (∀ announcement : Circle.Announce.Parts,
        ∃ message, Circle.Announce.MadeFrom announcement message) ∧
      ∀ {note : Circle.Note.Parts} {signature : Block 64},
        note.signer.signWithNonce note.content note.nonce = .ok signature →
          ∃ message, Circle.Note.MadeFrom note signature message :=
  ⟨Ratchet.Whisper.exists_madeFrom, Ratchet.Opener.exists_madeFrom,
    Circle.Announce.exists_madeFrom, Circle.Note.exists_madeFrom⟩

section Witness

open Sample

attribute [local instance] hashes curves

/-- No binding and no packet, so both fields are left out. -/
private def sampleWhisper : Ratchet.Whisper.Seal :=
  ⟨3, Block.zero 32, none, ⟨Block.fill 32 1⟩, 2 ^ 32 - 1, 0, [],
    ⟨Block.fill 32 2⟩, ⟨Block.fill 32 3⟩, []⟩

/-- A first message without a one-time key. -/
private def sampleOpener : Ratchet.Opener.Wrap :=
  ⟨4, 12, none, 1, 2, [9, 9], ⟨Block.fill 32 1⟩, ⟨Block.fill 32 2⟩, [7]⟩

/-- The announcement of a chain at its first step. -/
private def sampleAnnouncement : Circle.Announce.Parts :=
  ⟨Block.zero 16, 42, 0, Block.fill 32 6, ⟨Block.fill 32 1⟩, by decide,
    by decide⟩

/-- A note of the same chain. -/
private def sampleNote : Circle.Note.Parts :=
  ⟨Block.zero 16, 42, 7, [1, 2], ⟨Block.fill 32 4⟩, Block.zero 64,
    by decide, by decide, by decide⟩

/-- The four formats at sample messages. -/
theorem messages_round_trip_samples :
    (∃ message, Ratchet.Whisper.MadeFrom sampleWhisper message) ∧
      (∃ message, Ratchet.Opener.MadeFrom sampleOpener message) ∧
      (∃ message, Circle.Announce.MadeFrom sampleAnnouncement message) ∧
      ∃ message,
        Circle.Note.MadeFrom sampleNote (Block.zero 64) message := by
  obtain ⟨whisper, opener, announce, note⟩ := messages_round_trip
  have openerFits : sampleOpener.Fits :=
    ⟨by simp [sampleOpener], by decide, by decide, by decide, by decide⟩
  exact ⟨whisper ⟨by decide, by decide, by decide⟩ (.inl rfl),
    opener openerFits (.inr rfl), announce sampleAnnouncement, note rfl⟩

end Witness

end Gossveil
