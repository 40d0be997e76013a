import Gossveil.Received

namespace Gossveil.Seal

open Codec

/-!
# The single-recipient envelope

An ephemeral key, the sender's identity sealed under an ephemeral agreement,
and the content sealed under a static agreement.  Opening dispatches on the
version nibble to this form or the many-recipient form.
-/

/-- The version of an envelope for one recipient. -/
def versionByte : UInt8 := 0x11

/-- The bytes of the tag of a part. -/
def shortTagLength : Nat := 10

section Forms

variable [Hashes] [Aes]

/-- The first ten bytes of an HMAC over the ciphertext. -/
def shortTag (body : Bytes) (macKey : Block 32) : Bytes :=
  (Hashes.hmac macKey.bytes body).bytes.take shortTagLength

/-- AES-256-CTR with a zero nonce, then the short tag. -/
def ctrSeal (plain : Bytes) (key macKey : Block 32) : Bytes :=
  let out := Cipher.ctr key (Block.zero 16) plain
  out ++ shortTag out macKey

/-- Checks the tag of a part and takes the key stream off. -/
def ctrOpen
    (sealed : Bytes)
    (key macKey : Block 32) :
    Outcome Fault Bytes :=
  if sealed.length < shortTagLength then
    .error .badMessage
  else
    let body := sealed.take (sealed.length - shortTagLength)
    if shortTag body macKey ≠ sealed.drop (sealed.length - shortTagLength) then
      .error .badMessage
    else
      .ok (Cipher.ctr key (Block.zero 16) body)

/-- What was sealed opens. -/
theorem ctrOpen_ctrSeal
    (plain : Bytes)
    (key macKey : Block 32) :
    ctrOpen (ctrSeal plain key macKey) key macKey = .ok plain := by
  have tagLength :
      (shortTag (Cipher.ctr key (Block.zero 16) plain) macKey).length =
        shortTagLength := by
    simp [shortTag, shortTagLength]
  simp [ctrOpen, ctrSeal, tagLength, Cipher.ctr_ctr]

open Multiseal (Way)

/-- The keys of the outer layer. -/
structure EphemeralKeys where
  chain : Block 32
  cipher : Block 32
  mac : Block 32
  deriving DecidableEq

/-- The keys of the inner layer. -/
structure StaticKeys where
  cipher : Block 32
  mac : Block 32
  deriving DecidableEq

variable [Curves]

/-- Agrees with the ephemeral key; both ends order the keys alike. -/
def ephemeralKeys
    (ourSecret : Curve.Secret)
    (ourPublic theirPublic : Curve.Public)
    (way : Way) :
    Outcome Fault EphemeralKeys := do
  let first := if way = .sending then theirPublic else ourPublic
  let second := if way = .sending then ourPublic else theirPublic
  let salt :=
    ascii "UnidentifiedDelivery" ++ first.serialize ++ second.serialize
  let agreed ← ourSecret.agree theirPublic
  let out := Derive.hkdf 96 agreed.bytes (some salt) []
  return ⟨out.slice 0 32 Block.first_of_three,
    out.slice 32 32 Block.second_of_three, out.slice 64 32 Block.third_of_three⟩

/-- Agrees with the sender's identity, over what the outer layer sealed. -/
def staticKeys
    (ourSecret : Curve.Secret)
    (theirPublic : Curve.Public)
    (chain : Block 32)
    (sealed : Bytes) :
    Outcome Fault StaticKeys := do
  let salt := chain.bytes ++ sealed
  let agreed ← ourSecret.agree theirPublic
  let out := Derive.hkdf 96 agreed.bytes (some salt) []
  return ⟨out.slice 32 32 Block.second_of_three,
    out.slice 64 32 Block.third_of_three⟩

/--
The caller resolved the recipient's identity from its store and trusts it.
The ephemeral key is drawn from the entropy source.
-/
def «seal»
    (draw : Block 32)
    (us : IdentityPair)
    (them : Curve.Public)
    (content : Content) :
    Outcome Fault Bytes := do
  let ephemeral ← Curve.Pair.fromSeed draw
  let eph ← ephemeralKeys ephemeral.secret ephemeral.publicKey them .sending
  let sealedStatic := ctrSeal us.identity.key.serialize eph.cipher eph.mac
  let statics ← staticKeys us.secret them eph.chain sealedStatic
  let sealedContent := ctrSeal content.bytes statics.cipher statics.mac
  return versionByte ::
    (Writer.bytes 1 ephemeral.publicKey.serialize ++
      Writer.bytes 2 sealedStatic ++ Writer.bytes 3 sealedContent)

/-- What the fields of an envelope have said so far. -/
structure Draft where
  ephemeral : Option Curve.Public
  sealedStatic : Option Bytes
  sealedContent : Option Bytes

/-- What is known before the first field. -/
def Draft.empty : Draft :=
  ⟨none, none, none⟩

/-- One turn of the parsing loop. -/
def Draft.read (draft : Draft) (field : Field) : Outcome Fault Draft :=
  match field.number with
  | 1 => do
      let data ← field.bytesOr .badMessage
      let ephemeral ← Curve.Public.parse data
      return { draft with ephemeral := some ephemeral }
  | 2 => .ok { draft with sealedStatic := field.bytes }
  | 3 => .ok { draft with sealedContent := field.bytes }
  | _ => .ok draft

/-- The three parts of the single form. -/
structure Parts where
  ephemeral : Curve.Public
  sealedStatic : Bytes
  sealedContent : Bytes
  deriving DecidableEq

/-- Reads the parts of an envelope. -/
def Parts.parse (body : Bytes) : Outcome Fault Parts := do
  let draft ← Codec.fold .badMessage Draft.read body Draft.empty
  let ephemeral ← Outcome.ofOption .badMessage draft.ephemeral
  let sealedStatic ← Outcome.ofOption .badMessage draft.sealedStatic
  let sealedContent ← Outcome.ofOption .badMessage draft.sealedContent
  return ⟨ephemeral, sealedStatic, sealedContent⟩

/-- Opens an envelope: the outer layer, the inner one, then the certificate. -/
def openSingle (us : IdentityPair) (body : Bytes) : Outcome Fault Content := do
  let parts ← Parts.parse body
  let eph ←
    ephemeralKeys us.secret us.identity.key parts.ephemeral .receiving
  let staticBytes ← ctrOpen parts.sealedStatic eph.cipher eph.mac
  let staticKey ← Curve.Public.parse staticBytes
  let statics ← staticKeys us.secret staticKey eph.chain parts.sealedStatic
  let contentBytes ← ctrOpen parts.sealedContent statics.cipher statics.mac
  let content ← Content.parse contentBytes
  Outcome.require .badMessage (content.sender.senderKey = staticKey)
  return content

/--
Opens either envelope form to its content, checked against the key that sealed
it.  Certificate trust is the caller's.
-/
def «open»
    [GcmSiv]
    (us : IdentityPair)
    (data : Bytes) :
    Outcome Fault Content :=
  match data with
  | [] => .error .badMessage
  | version :: body =>
      match version.toNat / 16 with
      | 0 | 1 => openSingle us body
      | 2 => Multiseal.openReceived us body
      | _ => .error .unknownVersion

/-! ## Opening what was sealed -/

omit [Hashes] [Aes] [Curves] in
/-- Written parts read back. -/
theorem Parts.parse_written
    (parts : Parts)
    (short :
      (Writer.bytes 1 parts.ephemeral.serialize ++
        Writer.bytes 2 parts.sealedStatic ++
        Writer.bytes 3 parts.sealedContent).length < 2 ^ 64) :
    Parts.parse
        (Writer.bytes 1 parts.ephemeral.serialize ++
          Writer.bytes 2 parts.sealedStatic ++
          Writer.bytes 3 parts.sealedContent) =
      .ok parts := by
  let fields : List Field :=
    [Field.ofBytes 1 parts.ephemeral.serialize,
      Field.ofBytes 2 parts.sealedStatic, Field.ofBytes 3 parts.sealedContent]
  have written :
      encodeAll fields =
        Writer.bytes 1 parts.ephemeral.serialize ++
          Writer.bytes 2 parts.sealedStatic ++
          Writer.bytes 3 parts.sealedContent := by
    simp [fields, encodeAll, Field.ofBytes, Field.encode]
  have plain : ∀ field ∈ fields, field.Plain := by
    simp only [fields, List.forall_mem_cons, List.not_mem_nil,
      false_implies, implies_true, and_true]
    exact ⟨.bytes (by decide) (by decide), .bytes (by decide) (by decide),
      .bytes (by decide) (by decide)⟩
  rw [← written] at short ⊢
  rw [Parts.parse, fold_plain _ Draft.read plain short]
  simp [fields, Draft.read, Draft.empty]

omit [Aes] in
/-- The salt lists the recipient's key first on both sides. -/
theorem ephemeralKeys_receiving
    {ephemeral : Curve.Pair}
    {them : IdentityPair}
    {keys : EphemeralKeys}
    (commutes : Curve.Commutes)
    (ephemeralWhole : ephemeral.Whole)
    (whole : them.pair.Whole)
    (derived :
      ephemeralKeys ephemeral.secret ephemeral.publicKey them.identity.key
          .sending =
        .ok keys) :
    ephemeralKeys them.secret them.identity.key ephemeral.publicKey
        .receiving =
      .ok keys := by
  have agrees :
      them.secret.agree ephemeral.publicKey =
        ephemeral.secret.agree them.identity.key :=
    whole.agree_comm ephemeralWhole commutes
  rw [← derived]
  simp [ephemeralKeys, agrees]

omit [Aes] in
/-- Both sides derive the same static keys. -/
theorem staticKeys_receiving
    {us them : IdentityPair}
    {chain : Block 32}
    {sealed : Bytes}
    {keys : StaticKeys}
    (commutes : Curve.Commutes)
    (sender : us.pair.Whole)
    (whole : them.pair.Whole)
    (derived :
      staticKeys us.secret them.identity.key chain sealed = .ok keys) :
    staticKeys them.secret us.identity.key chain sealed = .ok keys := by
  have agrees :
      them.secret.agree us.identity.key = us.secret.agree them.identity.key :=
    whole.agree_comm sender commutes
  rw [← derived, staticKeys, staticKeys, agrees]

section Envelopes

variable [GcmSiv]

/--
The recipient opens a sealed envelope to its content when the certificate
names the sender's key, and refuses it otherwise.
-/
theorem open_seal
    {draw : Block 32}
    {us them : IdentityPair}
    {content : Content}
    {envelope : Bytes}
    (commutes : Curve.Commutes)
    (sender : us.pair.Whole)
    (whole : them.pair.Whole)
    (parses : Content.parse content.bytes = .ok content)
    (sealed : Seal.seal draw us them.identity.key content = .ok envelope)
    (short : envelope.length < 2 ^ 64) :
    Seal.open them envelope =
      if content.sender.senderKey = us.identity.key then
        .ok content
      else
        .error .badMessage := by
  obtain ⟨ephemeral, drawn, rest⟩ := Outcome.bind_eq_ok.mp sealed
  obtain ⟨eph, isEph, rest⟩ := Outcome.bind_eq_ok.mp rest
  obtain ⟨statics, isStatics, rest⟩ := Outcome.bind_eq_ok.mp rest
  obtain rfl := Outcome.ok.inj rest
  have ephemeralWhole := Curve.Pair.whole_of_fromSeed drawn
  have ephBack := ephemeralKeys_receiving commutes ephemeralWhole whole isEph
  have staticsBack := staticKeys_receiving commutes sender whole isStatics
  let parts : Parts :=
    ⟨ephemeral.publicKey,
      ctrSeal us.identity.key.serialize eph.cipher eph.mac,
      ctrSeal content.bytes statics.cipher statics.mac⟩
  have isParts := Parts.parse_written parts (Nat.lt_of_succ_lt short)
  have single : versionByte.toNat / 16 = 1 := rfl
  simp only [Seal.open, single, openSingle]
  rw [isParts]
  simp only [Outcome.ok_bind, parts, ephBack, ctrOpen_ctrSeal,
    Curve.Public.parse_serialize, staticsBack, parses]
  split_ifs with named
  · rw [Outcome.require_of named]
    rfl
  · rw [Outcome.require_not named]
    rfl

/-! ## What an envelope that opens was sealed with -/

/--
The single form was sealed with a static key: the key lies in it under the
ephemeral agreement, and the content under the agreement with that key.
-/
def SingleSealedWith
    (us : IdentityPair)
    (body : Bytes)
    (staticKey : Curve.Public)
    (content : Content) :
    Prop :=
  ∃ parts eph statics,
    Parts.parse body = .ok parts ∧
      ephemeralKeys us.secret us.identity.key parts.ephemeral .receiving =
        .ok eph ∧
      ctrOpen parts.sealedStatic eph.cipher eph.mac =
        .ok staticKey.serialize ∧
      staticKeys us.secret staticKey eph.chain parts.sealedStatic =
        .ok statics ∧
      ctrOpen parts.sealedContent statics.cipher statics.mac =
        .ok content.bytes

/--
The received form was sealed with a static key: the secret behind it opens the
content, and its tag is the one of the agreement with that key.
-/
def ManySealedWith
    (us : IdentityPair)
    (body : Bytes)
    (staticKey : Curve.Public)
    (content : Content) :
    Prop :=
  ∃ received m session,
    Multiseal.Received.split body = .ok received ∧
      Multiseal.wrap us.pair received.ephemeral .receiving received.wrapped =
        .ok m ∧
      Multiseal.Session.from m = .ok session ∧
      session.ephemeral.publicKey = received.ephemeral ∧
      Cipher.sivOpen session.key (Block.zero 12) received.sealed [] =
        .ok content.bytes ∧
      Multiseal.tag us staticKey .receiving received.ephemeral
          received.wrapped =
        .ok received.theirTag

/-- The key whose agreement with the recipient authenticates an envelope. -/
inductive SealedWith
    (us : IdentityPair) :
    Bytes →
    Curve.Public →
    Content →
    Prop where
  | single
      {version : UInt8}
      {body : Bytes}
      {staticKey : Curve.Public}
      {content : Content}
      (form : version.toNat / 16 = 0 ∨ version.toNat / 16 = 1)
      (sealedWith : SingleSealedWith us body staticKey content) :
      SealedWith us (version :: body) staticKey content
  | many
      {version : UInt8}
      {body : Bytes}
      {staticKey : Curve.Public}
      {content : Content}
      (form : version.toNat / 16 = 2)
      (sealedWith : ManySealedWith us body staticKey content) :
      SealedWith us (version :: body) staticKey content

variable {us : IdentityPair} {body data : Bytes} {content : Content}

omit [GcmSiv] in
/-- The single form names one static key. -/
theorem SingleSealedWith.unique
    {first second : Curve.Public}
    {other : Content}
    (one : SingleSealedWith us body first content)
    (two : SingleSealedWith us body second other) :
    first = second := by
  obtain ⟨parts, eph, _, isParts, isEph, opens, _⟩ := one
  obtain ⟨otherParts, otherEph, _, isParts', isEph', opens', _⟩ := two
  obtain rfl := Outcome.ok.inj (isParts.symm.trans isParts')
  obtain rfl := Outcome.ok.inj (isEph.symm.trans isEph')
  have same := Outcome.ok.inj (opens.symm.trans opens')
  have parsed := Curve.Public.parse_serialize first
  rw [same, Curve.Public.parse_serialize] at parsed
  exact (Outcome.ok.inj parsed).symm

omit [GcmSiv] in
/-- What opens was sealed with the certificate's key. -/
theorem openSingle_sealedWith
    (opened : openSingle us body = .ok content) :
    SingleSealedWith us body content.sender.senderKey content := by
  obtain ⟨parts, isParts, rest⟩ := Outcome.bind_eq_ok.mp opened
  obtain ⟨eph, isEph, rest⟩ := Outcome.bind_eq_ok.mp rest
  obtain ⟨staticBytes, isStatic, rest⟩ := Outcome.bind_eq_ok.mp rest
  obtain ⟨staticKey, parses, rest⟩ := Outcome.bind_eq_ok.mp rest
  obtain ⟨statics, isStatics, rest⟩ := Outcome.bind_eq_ok.mp rest
  obtain ⟨contentBytes, isContent, rest⟩ := Outcome.bind_eq_ok.mp rest
  obtain ⟨found, isFound, rest⟩ := Outcome.bind_eq_ok.mp rest
  obtain ⟨_, named, rest⟩ := Outcome.bind_eq_ok.mp rest
  obtain rfl := Outcome.ok.inj rest
  obtain rfl := Content.bytes_of_parse isFound
  have sameKey : found.sender.senderKey = staticKey :=
    Outcome.require_eq_ok.mp named
  obtain rfl := Curve.Public.serialize_of_parse parses
  rw [sameKey]
  exact ⟨parts, eph, statics, isParts, isEph, isStatic, isStatics, isContent⟩

omit [Aes] in
/-- What a recipient opens was sealed with the certificate's key. -/
theorem openReceived_sealedWith
    (opened : Multiseal.openReceived us body = .ok content) :
    ManySealedWith us body content.sender.senderKey content := by
  obtain ⟨received, isReceived, rest⟩ := Outcome.bind_eq_ok.mp opened
  obtain ⟨m, unwraps, rest⟩ := Outcome.bind_eq_ok.mp rest
  obtain ⟨session, isSession, rest⟩ := Outcome.bind_eq_ok.mp rest
  obtain ⟨_, sameKey, rest⟩ := Outcome.bind_eq_ok.mp rest
  obtain ⟨contentBytes, isContent, rest⟩ := Outcome.bind_eq_ok.mp rest
  obtain ⟨found, isFound, rest⟩ := Outcome.bind_eq_ok.mp rest
  obtain ⟨expected, isExpected, rest⟩ := Outcome.bind_eq_ok.mp rest
  obtain ⟨_, sameTag, rest⟩ := Outcome.bind_eq_ok.mp rest
  obtain rfl := Outcome.ok.inj rest
  obtain rfl := Content.bytes_of_parse isFound
  obtain rfl := Outcome.require_eq_ok.mp sameTag
  exact ⟨received, m, session, isReceived, unwraps, isSession,
    Outcome.require_eq_ok.mp sameKey, isContent, isExpected⟩

/-- Whatever opens was sealed with the key its certificate names. -/
theorem open_sealedWith
    (opened : Seal.open us data = .ok content) :
    SealedWith us data content.sender.senderKey content := by
  cases data with
  | nil => cases opened
  | cons version body =>
      simp only [Seal.open] at opened
      split at opened
      · exact .single (.inl ‹_›) (openSingle_sealedWith opened)
      · exact .single (.inr ‹_›) (openSingle_sealedWith opened)
      · exact .many ‹_› (openReceived_sealedWith opened)
      · cases opened

omit [Aes] in
/-- The many-recipient form has its tag from one key only. -/
theorem ManySealedWith.key_eq
    {InUse : Bytes → Prop}
    {first second : Curve.Public}
    {received : Multiseal.Received}
    (separates : Multiseal.SeparatesTags InUse)
    (areInUse :
      ∀ key material,
        key = first ∨ key = second →
        Multiseal.TagMaterial us key .receiving received.ephemeral
          received.wrapped material →
        InUse material)
    (isReceived : Multiseal.Received.split body = .ok received)
    (sealedWith : ManySealedWith us body first content)
    (tagged :
      Multiseal.tag us second .receiving received.ephemeral
          received.wrapped =
        .ok received.theirTag) :
    first = second := by
  obtain ⟨found, _, _, isFound, _, _, _, _, tagged'⟩ := sealedWith
  obtain rfl := Outcome.ok.inj (isFound.symm.trans isReceived)
  obtain ⟨material, ofFirst, derived⟩ := Multiseal.tag_eq_ok.mp tagged'
  obtain ⟨other, ofSecond, sameTag⟩ := Multiseal.tag_eq_ok.mp tagged
  obtain rfl :=
    separates material other (areInUse first material (.inl rfl) ofFirst)
      (areInUse second other (.inr rfl) ofSecond) (derived.trans sameTag.symm)
  exact ofFirst.key_eq ofSecond

/--
An envelope opens to what was sealed when the certificate names the sender's
key and fails otherwise; and whatever opens, in either form, was authenticated
by the agreement with the key its certificate names.  In the single form this
is the only key that lies in it, and in the other one the only key whose
agreement gives its tag, as long as tags of different materials differ.
-/
theorem envelopes_bind_sender (commutes : Curve.Commutes) :
    (∀ draw (us them : IdentityPair) content envelope,
      us.pair.Whole →
      them.pair.Whole →
      Content.parse content.bytes = .ok content →
      Seal.seal draw us them.identity.key content = .ok envelope →
      envelope.length < 2 ^ 64 →
        Seal.open them envelope =
          if content.sender.senderKey = us.identity.key then
            .ok content
          else
            .error .badMessage) ∧
      (∀ us data content,
        Seal.open us data = .ok content →
          ∃ staticKey,
            SealedWith us data staticKey content ∧
              content.sender.senderKey = staticKey) ∧
      (∀ us version body content staticKey other,
        version.toNat / 16 = 0 ∨ version.toNat / 16 = 1 →
        Seal.open us (version :: body) = .ok content →
        SingleSealedWith us body staticKey other →
          content.sender.senderKey = staticKey) ∧
      ∀ (InUse : Bytes → Prop) us version body content received staticKey,
        Multiseal.SeparatesTags InUse →
        version.toNat / 16 = 2 →
        Seal.open us (version :: body) = .ok content →
        Multiseal.Received.split body = .ok received →
        (∀ key material,
          key = content.sender.senderKey ∨ key = staticKey →
          Multiseal.TagMaterial us key .receiving received.ephemeral
            received.wrapped material →
          InUse material) →
        Multiseal.tag us staticKey .receiving received.ephemeral
            received.wrapped =
          .ok received.theirTag →
          content.sender.senderKey = staticKey := by
  refine ⟨?_, ?_, ?_, ?_⟩
  · intro draw us them content envelope sender whole parses sealed short
    exact open_seal commutes sender whole parses sealed short
  · intro us data content opened
    exact ⟨_, open_sealedWith opened, rfl⟩
  · intro us version body content staticKey other form opened sealedWith
    have single : openSingle us body = .ok content := by
      simp only [Seal.open] at opened
      rcases form with form | form <;> simpa [form] using opened
    exact (openSingle_sealedWith single).unique sealedWith
  · intro InUse us version body content received staticKey separates form
      opened isReceived areInUse tagged
    have many : Multiseal.openReceived us body = .ok content := by
      simp only [Seal.open] at opened
      simpa [form] using opened
    exact (openReceived_sealedWith many).key_eq separates areInUse isReceived
      tagged

end Envelopes

end Forms

section Witness

open Sample

attribute [local instance] hashes curves aes gcmSiv

/-- The sender of the sample envelopes. -/
private def alice : IdentityPair :=
  ⟨⟨⟨Block.fill 32 7⟩⟩, ⟨Block.fill 32 7⟩⟩

/-- The recipient of the sample envelopes. -/
private def bob : IdentityPair :=
  ⟨⟨⟨Block.fill 32 5⟩⟩, ⟨Block.fill 32 5⟩⟩

private theorem letter_parses :
    Content.parse (content alice.identity.key).bytes =
      .ok (content alice.identity.key) := by
  decide +kernel

set_option maxRecDepth 100000 in
/-- The sample letter is sealed. -/
private theorem letter_sealed :
    ∃ envelope,
      Seal.seal (Block.zero 32) alice bob.identity.key
          (content alice.identity.key) =
        .ok envelope ∧
        envelope.length < 2 ^ 64 := by
  refine ⟨_, rfl, ?_⟩
  decide +kernel

/-- What the server hands to one recipient of a letter to many. -/
private def handedOn : Outcome Fault Bytes := do
  let session ← Multiseal.Session.from (Block.fill 32 3)
  let wrapped ←
    Multiseal.wrap session.ephemeral bob.identity.key .sending
      (Block.fill 32 3)
  let tag ←
    Multiseal.tag alice bob.identity.key .sending session.ephemeral.publicKey
      wrapped
  let sealed :=
    Cipher.sivSeal session.key (Block.zero 12)
      (content alice.identity.key).bytes []
  return wrapped.bytes ++ tag.bytes ++ session.ephemeral.publicKey.u.bytes ++
    sealed

/-- What the recipient of the sample message is handed. -/
@[irreducible] private def handedBody : Bytes :=
  match handedOn with
  | .ok body => body
  | _ => []

/-- The parts of it. -/
@[irreducible] private def handedParts : Multiseal.Received :=
  match Multiseal.Received.split handedBody with
  | .ok received => received
  | _ => ⟨Block.zero 32, Block.zero 16, ⟨Block.zero 32⟩, []⟩

set_option maxRecDepth 100000 in
/-- The steps of a sample envelope to many recipients. -/
private theorem handed_steps :
    Seal.open bob (Multiseal.receivedByte :: handedBody) =
        .ok (content alice.identity.key) ∧
      Multiseal.Received.split handedBody = .ok handedParts ∧
      Multiseal.tag bob alice.identity.key .receiving handedParts.ephemeral
          handedParts.wrapped =
        .ok handedParts.theirTag := by
  decide +kernel

/-- The material of the tag that the letter carries. -/
private def InHanded (material : Bytes) : Prop :=
  Multiseal.TagMaterial bob alice.identity.key .receiving
    handedParts.ephemeral handedParts.wrapped material

/-- The inputs of that envelope are separate. -/
private theorem inHanded_separates : Multiseal.SeparatesTags InHanded := by
  rintro _ _ ⟨agreed, agrees, rfl⟩ ⟨other, agreesToo, rfl⟩ _
  obtain rfl := Outcome.ok.inj (agrees.symm.trans agreesToo)
  rfl

/-- Both envelopes at sample letters. -/
theorem envelopes_bind_sender_alice :
    (∃ envelope,
      Seal.seal (Block.zero 32) alice bob.identity.key
          (content alice.identity.key) =
        .ok envelope ∧
        Seal.open bob envelope = .ok (content alice.identity.key)) ∧
      (content alice.identity.key).sender.senderKey = alice.identity.key := by
  obtain ⟨envelope, sealed, short⟩ := letter_sealed
  obtain ⟨handedOpens, handedSplit, handedTag⟩ := handed_steps
  obtain ⟨opensSealed, _, _, onlyKey⟩ := envelopes_bind_sender Sample.commutes
  have opens := opensSealed _ alice bob _ envelope rfl rfl letter_parses sealed
    short
  refine ⟨⟨envelope, sealed, opens.trans (if_pos rfl)⟩, ?_⟩
  refine onlyKey InHanded bob Multiseal.receivedByte handedBody _ handedParts _
    inHanded_separates rfl handedOpens handedSplit ?_ handedTag
  rintro key material (rfl | rfl) isMaterial
  · exact isMaterial
  · exact isMaterial

end Witness

end Gossveil.Seal
