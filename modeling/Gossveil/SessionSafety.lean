import Gossveil.SessionRuns

namespace Gossveil.Ratchet

open TwoParty

/-!
# A session is safe

Every seal is one send of the post-quantum ratchet and every opening that
succeeds one receive, so a run of a session carries a run of that ratchet: no
message is opened twice because no packet is accepted twice.  What is opened is
what was sealed because the tag that was checked is the message's own.
-/

section Live

variable [Hashes] [Curves] [Capsules]

/-- What the live state of a side keeps through a session. -/
structure Live
    (parties : Parties)
    (beginning : Beginning)
    (side : Side)
    (state : State) :
    Prop where
  sealable : state.Sealable
  seeded : state.Seeded
  base : state.base = beginning.base.publicKey.serialize
  localKey : state.localKey = (parties.identity side).identity.key
  /-- Only the initiator has a handshake pending, the one it began with. -/
  pending :
    state.pending = none ∨
      (side = .initiator ∧
        (∃ stamp,
          state.pending =
            some ⟨parties.published.oneTimeId, parties.published.signedId,
              beginning.base.publicKey, stamp⟩) ∧
        state.pendingCapsule =
          some ⟨parties.published.pqId, beginning.capsule.bytes⟩)

/-- How a sealed message carries its inner message. -/
inductive Carries
    (parties : Parties)
    (beginning : Beginning)
    (inner : Whisper) :
    Side → Sealed → Prop where
  | whisper (side : Side) :
      Carries parties beginning inner side ⟨.whisper, inner.bytes⟩
  | first
      {opener : Opener}
      (parses : Opener.parse opener.bytes = .ok opener)
      (isInner : opener.inner = inner.bytes)
      (names : parties.Names beginning opener) :
      Carries parties beginning inner .initiator ⟨.first, opener.bytes⟩

variable
  {parties : Parties}
  {beginning : Beginning}
  {side : Side}
  {state after : State}

/-- The capsule of a beginning has its length. -/
theorem Parties.Begins.length_capsule
    (begins : parties.Begins beginning) :
    beginning.capsule.bytes.length = PostQuantum.serializedCapsuleLength := by
  obtain ⟨seed, initiated⟩ := begins.initiated
  obtain ⟨_, _, rest⟩ := Outcome.bind_eq_ok.mp initiated
  obtain ⟨_, _, rest⟩ := Outcome.bind_eq_ok.mp rest
  obtain ⟨_, _, rest⟩ := Outcome.bind_eq_ok.mp rest
  obtain ⟨_, _, rest⟩ := Outcome.bind_eq_ok.mp rest
  obtain ⟨capsule, isCapsule, done⟩ := Outcome.bind_eq_ok.mp rest
  obtain ⟨⟨body, shared⟩, _, made⟩ := Outcome.bind_eq_ok.mp isCapsule
  obtain rfl : capsule = beginning.capsule :=
    Option.some.inj (congrArg Handshake.Opened.capsule (Outcome.ok.inj done))
  have bytes := congrArg PostQuantum.Capsule.bytes (Outcome.ok.inj made)
  rw [← bytes]
  simp [PostQuantum.serializedCapsuleLength, Nat.add_comm]

/-- The initiator's live state after its start. -/
theorem Parties.Begins.opening_live
    {draw : Block 32}
    {nowSecs : Nat}
    (publishes : parties.Publishes)
    (begins : parties.Begins beginning)
    (now : nowSecs < 2 ^ 64)
    (made :
      Handshake.initiatorState (parties.handshake beginning.base)
          beginning.keys (beginning.record .initiator) draw =
        .ok state) :
    Live parties beginning .initiator
      (parties.opening beginning nowSecs state) := by
  have sound := initiatorState_sound made
  obtain ⟨sending, _, rest⟩ := Outcome.bind_eq_ok.mp made
  obtain ⟨agreement, _, ⟨⟩⟩ := Outcome.bind_eq_ok.mp rest
  refine ⟨⟨?_, rfl, Or.inr (Option.some_ne_none _), ?_⟩, ?_, rfl, rfl,
    Or.inr ⟨rfl, ⟨nowSecs, rfl⟩, rfl⟩⟩
  · apply State.Sound.withRegistrationIds _
      (publishes.registrationId .initiator) publishes.fits.registrationId
    apply State.Sound.setPendingCapsule _ publishes.fits.pqId
    exact sound.setPending publishes.fits.oneTimeId publishes.fits.signedId now
  · rintro _ ⟨⟩
    exact Nat.le_of_eq begins.length_capsule
  · intro lane isLane slot isSlot
    obtain rfl := List.mem_singleton.mp isLane
    cases isSlot

omit [Hashes] in
/-- The responder's live state on a first message. -/
theorem Parties.Publishes.answered_live
    {first : Opener}
    (publishes : parties.Publishes)
    (names : parties.Names beginning first) :
    Live parties beginning .responder (parties.answered beginning first) := by
  refine ⟨⟨?_, rfl, Or.inl rfl, by rintro _ ⟨⟩⟩, ?_, rfl, rfl, Or.inl rfl⟩
  · apply State.Sound.withRegistrationIds _
      (publishes.registrationId .responder) names.registrationId
    apply State.Sound.setSending _ publishes.clamped (Chain.fits_zero _)
    exact State.sound_init _ _ _ _ _ (by decide)
  · intro lane isLane
    cases isLane

variable [Aes] [Kem]
variable
  {plain : Bytes}
  {binding : Option Binding}
  {draw : Braid.Draw}
  {lane : Lane}
  {sent : PqRecord.Sent}
  {inner : Whisper}
  {message : Sealed}

omit [Curves] [Capsules] in
/-- A seal moves the sending chain and the post-quantum state on. -/
theorem Live.seal
    (live : Live parties beginning side state)
    (sealed :
      SealedBy plain binding draw state lane sent inner message after) :
    Live parties beginning side after ∧ after.pqState = sent.state := by
  have sound :=
    @State.Sound.advanced _ _ _ sent.state live.sealable.sound
      sealed.isSending sealed.room
  rw [sealed.after_eq]
  exact ⟨⟨⟨sound, live.sealable.version, live.sealable.complete,
      live.sealable.capsule⟩,
    live.seeded, live.base, live.localKey, live.pending⟩, rfl⟩

omit [Curves] [Capsules] in
/-- What is sealed carries the ratchet message. -/
theorem Live.carries
    (live : Live parties beginning side state)
    (room : plain.length + 4096 < 2 ^ 64)
    (sealed :
      SealedBy plain binding draw state lane sent inner message after) :
    Carries parties beginning inner side message := by
  have finishes := sealed.finishes
  rw [sealed.after_eq] at finishes
  rcases live.pending with none | ⟨rfl, ⟨stamp, isPending⟩, isCapsule⟩
  · simp only [finished, State.advanced, none] at finishes
    cases finishes
    exact .whisper side
  · let parts : Opener.Wrap :=
      ⟨state.version, state.localRegistrationId,
        parties.published.oneTimeId, parties.published.signedId,
        parties.published.pqId, beginning.capsule.bytes,
        beginning.base.publicKey, state.localKey, inner.bytes⟩
    have pendingFits := live.sealable.sound.fits.pending _ isPending
    have encodeLength := parts.length_encode_le
    have capsuleLength := live.sealable.capsule _ isCapsule
    have innerLength := sealed.short
    have fits : parts.Fits := {
      oneTimeId := pendingFits.oneTimeId
      registrationId := live.sealable.sound.fits.localRegistrationId
      signedId := pendingFits.signedId
      pqId := live.sealable.sound.fits.pendingCapsule _ isCapsule
      short := Nat.lt_of_le_of_lt encodeLength (by
        simp only [PostQuantum.serializedCapsuleLength,
          PostQuantum.capsuleLength] at capsuleLength
        simp only [parts]
        omega)
    }
    obtain ⟨opener, made⟩ :=
      Opener.exists_madeFrom fits (Or.inr live.sealable.version)
    have wraps :
        finished state.version inner (state.advanced lane sent.state) =
          .ok ⟨.first, opener.bytes⟩ := by
      simp only [finished, State.advanced, isPending, isCapsule,
        Outcome.ofOption_some, Outcome.ok_bind]
      exact congrArg
        (fun outcome : Outcome Fault Opener =>
          outcome >>= fun wrapped => pure (⟨.first, wrapped.bytes⟩ : Sealed))
        made.built
    rw [wraps] at finishes
    cases finishes
    exact .first made.parsed made.inner
      { version := made.version.trans live.sealable.version
        registrationId := by
          rw [made.registrationId]
          exact live.sealable.sound.fits.localRegistrationId
        oneTimeId := made.oneTimeId
        signedId := made.signedId
        pqId := made.pqId
        capsule := made.capsule
        base := made.base
        identity := made.identity.trans live.localKey }

omit [Curves] [Capsules] [Aes] in
/-- An opening clears what was pending. -/
theorem Live.opens
    (live : Live parties beginning side state)
    (sound : after.Sound)
    (opens : OpensTo inner state after) :
    Live parties beginning side after := by
  refine ⟨⟨sound, ?_, Or.inl opens.pending, ?_⟩, opens.seeded, ?_, ?_,
    Or.inl opens.pending⟩
  · rw [opens.same.version, live.sealable.version]
  · rw [opens.pendingCapsule]
    rintro _ ⟨⟩
  · rw [opens.same.base, live.base]
  · rw [opens.same.localKey, live.localKey]

/-! ## Taking a message in -/

/--
A side's archive with its post-quantum state: a live state before the records
that were there, or the responder's empty archive with the state to come.
-/
inductive Holding
    (parties : Parties)
    (beginning : Beginning)
    (shelved : List Bytes) :
    Side → Archive → Bytes → Prop where
  | live
      {side : Side}
      {state : State}
      (live : Live parties beginning side state) :
      Holding parties beginning shelved side
        ⟨some state, if side = .initiator then shelved else []⟩ state.pqState
  | empty :
      Holding parties beginning shelved .responder Archive.empty
        (beginning.record .responder)

variable
  {shelved : List Bytes}
  {archive taken : Archive}
  {record : Bytes}

omit [Hashes] [Curves] [Capsules] [Aes] [Kem] in
/-- The record an archive holds is short when its live state's is. -/
theorem Holding.short
    (holding : Holding parties beginning shelved side archive record)
    (recordShort : (beginning.record .responder).length < 2 ^ 64)
    (short :
      ∀ current, archive.current = some current →
        current.pqState.length < 2 ^ 64) :
    record.length < 2 ^ 64 := by
  cases holding with
  | live => exact short _ rfl
  | empty => exact recordShort

omit [Hashes] [Curves] [Capsules] [Aes] [Kem] in
/-- The initiator's earlier records stay where they are. -/
theorem Holding.previous
    (holding : Holding parties beginning shelved side archive record)
    (isInitiator : side = .initiator) :
    archive.previous = shelved := by
  cases holding with
  | live => exact if_pos isInitiator
  | empty => cases isInitiator

omit [Aes] [Kem] in
/-- A live session is revived by its own first messages. -/
theorem Live.takeIn
    (live : Live parties beginning side state)
    (parses : Whisper.parse inner.bytes = .ok inner)
    (carries : Carries parties beginning inner side.other message)
    (previous : List Bytes) :
    parties.takeIn side message ⟨some state, previous⟩ =
      (.ok inner, ⟨some state, previous⟩) := by
  generalize side.other = sender at carries
  cases carries with
  | whisper =>
      rw [Parties.takeIn_whisper, parses]
      rfl
  | @first opener opens isInner names =>
      have found :
          (⟨some state, previous⟩ : Archive).revive opener.version
              opener.base.serialize =
            .ok (true, ⟨some state, previous⟩) := by
        rw [Archive.revive, if_pos]
        refine ⟨state, rfl, ?_, ?_⟩
        · rw [names.version, live.sealable.version]
        · rw [names.base, live.base]
      rw [Parties.takeIn_first opens (by rw [sessionFor_eq, found]), isInner,
        parses]
      rfl

omit [Aes] [Kem] in
/-- A first message makes the responder's session. -/
theorem Carries.takeIn_empty
    {opener : Opener}
    (publishes : parties.Publishes)
    (commutes : Curve.Commutes)
    (begins : parties.Begins beginning)
    (parses : Whisper.parse inner.bytes = .ok inner)
    (opens : Opener.parse opener.bytes = .ok opener)
    (isInner : opener.inner = inner.bytes)
    (names : parties.Names beginning opener) :
    parties.takeIn .responder ⟨.first, opener.bytes⟩ Archive.empty =
      (.ok inner, ⟨some (parties.answered beginning opener), []⟩) := by
  have made := names.newSession_eq publishes commutes begins
  have missed :
      Archive.empty.revive opener.version opener.base.serialize =
        .ok (false, Archive.empty) := by
    simp [Archive.revive, Archive.empty, Archive.reviveFrom]
  have takes :
      sessionFor (parties.identity .responder)
          (parties.registrationId .responder) opener parties.offered
          Archive.empty =
        (.ok (some ⟨opener.oneTimeId, opener.signedId, parties.pq.id,
            opener.base⟩),
          ⟨some (parties.answered beginning opener), []⟩) := by
    rw [sessionFor_eq, missed]
    simp only [Parties.identity, made]
    rfl
  rw [Parties.takeIn_first opens takes, isInner, parses]
  rfl

omit [Aes] [Kem] in
/-- Taking a message in leaves the session's state, made if it was not there. -/
theorem Holding.takeIn
    (publishes : parties.Publishes)
    (commutes : Curve.Commutes)
    (begins : parties.Begins beginning)
    (holding : Holding parties beginning shelved side archive record)
    (parses : Whisper.parse inner.bytes = .ok inner)
    (carries : Carries parties beginning inner side.other message) :
    ∃ taken,
      parties.takeIn side message archive = (.ok inner, taken) ∧
        Holding parties beginning shelved side taken record := by
  cases holding with
  | live live => exact ⟨_, live.takeIn parses carries _, .live live⟩
  | empty =>
      cases carries with
      | whisper =>
          refine ⟨Archive.empty, ?_, .empty⟩
          rw [Parties.takeIn_whisper, parses]
          rfl
      | first opens isInner names =>
          refine ⟨_, Carries.takeIn_empty publishes commutes begins parses
            opens isInner names, ?_⟩
          exact .live (publishes.answered_live names)

/-- No record that was shelved before opens the message. -/
def Apart (shelved : List Bytes) (message : Whisper) : Prop :=
  ∀ bytes ∈ shelved, ∀ earlier, State.parse bytes = .ok earlier →
    ∀ draw binding plain after,
      openWithState draw message binding earlier ≠ (.ok plain, after)

omit [Capsules] in
/-- A message is opened by the live state, which moves on where it stands. -/
theorem Holding.opens
    {draws : Nat → Block 32}
    (holding : Holding parties beginning shelved side archive record)
    (apart : side = .initiator → Apart shelved inner)
    (opened :
      openWithArchive draws inner binding archive = (.ok plain, taken)) :
    ∃ state advanced,
      archive.current = some state ∧
        Live parties beginning side state ∧
        record = state.pqState ∧
        openWithState (draws 0) inner binding state = (.ok plain, advanced) ∧
        ∀ after, after = advanced.pqState →
          Holding parties beginning shelved side taken after := by
  cases holding with
  | @live _ state live =>
      obtain ⟨place, found, advanced, _, isFirst, rfl⟩ :=
        openWithArchive_ok opened
      obtain ⟨_, _, split, _⟩ := isFirst.first
      have standsAt := candidatesFrom_at split
      cases place with
      | live =>
          cases standsAt
          refine ⟨_, advanced, rfl, live, rfl, isFirst.opens, ?_⟩
          rintro _ rfl
          have sound :=
            (openWithState_sound _ _ _ _ live.sealable.sound).1 _ _
              isFirst.opens
          exact .live (live.opens sound
            (opensTo_of_ok live.seeded isFirst.opens))
      | shelved index =>
          obtain ⟨bytes, isBytes, parsed⟩ := standsAt
          have member := List.mem_of_getElem? isBytes
          by_cases isInitiator : side = .initiator
          · rw [if_pos isInitiator] at member
            exact absurd isFirst.opens
              (apart isInitiator bytes member found parsed _ _ _ _)
          · rw [if_neg isInitiator] at member
            cases member
  | empty => cases opened

omit [Curves] [Capsules] in
/-- A seal moves the live state on where it stands. -/
theorem Holding.seals
    {nowSecs : Nat}
    (holding : Holding parties beginning shelved side archive record)
    (room : plain.length + 4096 < 2 ^ 64)
    (ran :
      archive.seal plain nowSecs binding draw = (.ok message, taken)) :
    ∃ state lane sent inner advanced,
      archive.current = some state ∧
        record = state.pqState ∧
        Live parties beginning side state ∧
        SealedBy plain binding draw state lane sent inner message advanced ∧
        Holding parties beginning shelved side taken sent.state := by
  cases holding with
  | @live _ state live =>
      rcases sealing : sealWithState plain nowSecs binding draw state with
        ⟨result, advanced⟩
      simp only [Archive.seal, sealing, Prod.mk.injEq] at ran
      obtain ⟨rfl, rfl⟩ := ran
      rcases live.sealable.ends room sealing (by simp) with
        ⟨_, failed, _⟩ | ⟨_, lane, sent, inner, isMessage, sealed⟩
      · cases failed
      · cases isMessage
        obtain ⟨advancedLive, isRecord⟩ := live.seal sealed
        refine ⟨state, lane, sent, inner, advanced, rfl, rfl, live, sealed, ?_⟩
        rw [← isRecord]
        exact .live advancedLive
  | empty => cases ran

omit [Curves] [Capsules] in
/-- A seal that fails leaves the archive as it was. -/
theorem Holding.sealFails
    {nowSecs : Nat}
    {error : EngineError}
    (holding : Holding parties beginning shelved side archive record)
    (room : plain.length + 4096 < 2 ^ 64)
    (ran :
      archive.seal plain nowSecs binding draw = (.error error, taken)) :
    taken = archive := by
  cases holding with
  | @live _ state live =>
      rcases sealing : sealWithState plain nowSecs binding draw state with
        ⟨result, advanced⟩
      simp only [Archive.seal, sealing, Prod.mk.injEq] at ran
      obtain ⟨rfl, rfl⟩ := ran
      rcases live.sealable.ends room sealing (by simp) with
        ⟨_, _, rfl⟩ | ⟨_, _, _, _, isMessage, _⟩
      · rfl
      · cases isMessage
  | empty =>
      cases ran
      rfl

end Live

/-! ## The invariant -/

/-- The packet a sealed message carries. -/
def Sealed.packet (message : Sealed) : Bytes :=
  let inner :=
    match message.kind with
    | .first => Opener.parse message.bytes >>= fun first =>
        Whisper.parse first.inner
    | _ => Whisper.parse message.bytes
  match inner with
  | .ok inner => inner.pqPacket
  | _ => []

/-- The packet of a message by its place. -/
def Session.packetAt (session : Session) (side : Side) (index : Nat) : Bytes :=
  match (session.sealed side)[index]? with
  | some (_, message) => message.packet
  | none => []

/-- A sealed message is found at its place. -/
theorem Session.packetAt_eq
    {session : Session}
    {side : Side}
    {index : Nat}
    {plain : Bytes}
    {message : Sealed}
    (place : (session.sealed side)[index]? = some (plain, message)) :
    session.packetAt side index = message.packet := by
  rw [packetAt, place]

section Invariant

variable [Hashes] [Curves] [Aes] [Kem] [Capsules]

/-- A message that was sealed in a run, with what it was sealed from. -/
structure Letter
    (parties : Parties)
    (beginning : Beginning)
    (InUse : MessageInputs → Prop)
    (run : PqRecord.Run)
    (side : Side)
    (plain : Bytes)
    (message : Sealed)
    (inner : Whisper) :
    Prop where
  parses : Whisper.parse inner.bytes = .ok inner
  carries : Carries parties beginning inner side message
  origin :
    ∃ binding sealer lane sent,
      Whisper.MadeFrom (sealParts plain binding sealer lane sent) inner ∧
        InUse ⟨Derive.chainSeed lane.chain.key, sent.key, sealer.localKey,
          sealer.remoteKey, (sealParts plain binding sealer lane sent).content⟩ ∧
        run.HasSent side inner.pqPacket sent.key

/-- A session and the run of the post-quantum ratchet it carries. -/
structure Tied
    (parties : Parties)
    (beginning : Beginning)
    (shelved : List Bytes)
    (InUse : MessageInputs → Prop)
    (session : Session)
    (run : PqRecord.Run) :
    Prop where
  reachable :
    ReachableWithin PqRecord.party beginning.record
      (PqRecord.Few sessionLimits) run
  archive :
    ∀ side,
      Holding parties beginning shelved side (session.archive side)
        (run.state side)
  sends : ∀ side, PqRecord.sends run side = (session.sealed side).length
  letters :
    ∀ side, ∀ letter ∈ session.sealed side, ∃ inner,
      Letter parties beginning InUse run side letter.1 letter.2 inner
  packets :
    ∀ side,
      PqRecord.accepted run side =
        (session.opened side).map fun opening =>
          session.packetAt side.other opening.1
  exact :
    ∀ side, ∀ opening ∈ session.opened side, ∃ message,
      (session.sealed side.other)[opening.1]? = some (opening.2, message)

variable
  {parties : Parties}
  {beginning : Beginning}
  {shelved : List Bytes}
  {InUse : MessageInputs → Prop}
  {session : Session}
  {run : PqRecord.Run}
  {side : Side}

/-- Few packets are sent while counters are in range. -/
theorem few_of_holding
    (begins : parties.Begins beginning)
    (within : session.Within)
    (archive :
      ∀ side,
        Holding parties beginning shelved side (session.archive side)
          (run.state side))
    (sends :
      ∀ side, PqRecord.sends run side = (session.sealed side).length) :
    PqRecord.Few sessionLimits run := by
  refine ⟨fun side =>
    (archive side).short (begins.short .responder) (within.short side), ?_⟩
  intro side
  have skipped : sessionLimits.skipped = 2000 := rfl
  have few := within.few
  rw [sends side, skipped]
  cases side <;> omega

omit [Curves] [Kem] [Capsules] in
/-- What was sealed stays sealed. -/
theorem Letter.act
    {actor : Side}
    {plain : Bytes}
    {message : Sealed}
    {inner : Whisper}
    {state : Bytes}
    {event : Event Bytes (Option (Block 32)) (Option (Block 32))}
    (letter :
      Letter parties beginning InUse run side plain message inner) :
    Letter parties beginning InUse (run.act actor state event) side plain
      message inner := by
  obtain ⟨binding, sealer, lane, sent, made, inUse, hasSent⟩ := letter.origin
  refine ⟨letter.parses, letter.carries, binding, sealer, lane, sent, made,
    inUse, ?_⟩
  rcases side.eq_or_eq_other actor with rfl | rfl
  · rw [Joint.HasSent, Joint.log_act_self]
    exact List.mem_append_left _ hasSent
  · rw [Joint.HasSent, Joint.log_act_other]
    exact hasSent

/-- A send of the record's run is logged with the letter that carries it. -/
theorem Tied.logSealed
    {plain record packet : Bytes}
    {key : Option (Block 32)}
    {message : Sealed}
    {inner : Whisper}
    {after : Archive}
    (begins : parties.Begins beginning)
    (tied : Tied parties beginning shelved InUse session run)
    (step :
      TwoParty.Step PqRecord.party run
        (run.act side record (.sent packet key)))
    (holding : Holding parties beginning shelved side after record)
    (letter :
      Letter parties beginning InUse (run.act side record (.sent packet key))
        side plain message inner)
    (within :
      ((session.settle side after).logSealed side plain message).Within) :
    Tied parties beginning shelved InUse
      ((session.settle side after).logSealed side plain message)
      (run.act side record (.sent packet key)) := by
  have archives :
      ∀ actor,
        Holding parties beginning shelved actor
          (((session.settle side after).logSealed side plain
            message).archive actor)
          ((run.act side record (.sent packet key)).state actor) := by
    intro actor
    rcases actor.eq_or_eq_other side with rfl | rfl
    · simpa using holding
    · simpa using tied.archive side.other
  have sends :
      ∀ actor,
        PqRecord.sends (run.act side record (.sent packet key)) actor =
          (((session.settle side after).logSealed side plain
            message).sealed actor).length := by
    intro actor
    rcases actor.eq_or_eq_other side with rfl | rfl
    · simp [tied.sends]
    · simp [tied.sends]
  refine ⟨.step tied.reachable step
    (few_of_holding begins within archives sends), archives, sends, ?_, ?_, ?_⟩
  · intro actor sealed member
    rcases actor.eq_or_eq_other side with rfl | rfl
    · rw [Session.sealed_logSealed_self] at member
      rcases List.mem_append.mp member with before | isLast
      · obtain ⟨inner, isLetter⟩ := tied.letters actor sealed before
        exact ⟨inner, isLetter.act⟩
      · obtain rfl := List.mem_singleton.mp isLast
        exact ⟨inner, letter⟩
    · rw [Session.sealed_logSealed_other] at member
      obtain ⟨inner, isLetter⟩ := tied.letters side.other sealed member
      exact ⟨inner, isLetter.act⟩
  · intro actor
    rw [PqRecord.accepted_sent, tied.packets]
    apply List.map_congr_left
    intro opening member
    obtain ⟨text, place⟩ := tied.exact actor opening member
    exact (Session.packetAt_eq place).trans
      (Session.packetAt_eq (Session.sealed_logSealed place)).symm
  · intro actor opening member
    obtain ⟨text, place⟩ := tied.exact actor opening member
    exact ⟨text, Session.sealed_logSealed place⟩

/-- Sealing is a send of the record's run. -/
theorem Tied.seals
    {plain : Bytes}
    {nowSecs : Nat}
    {binding : Option Binding}
    {draw : Braid.Draw}
    {message : Sealed}
    {after : Archive}
    (begins : parties.Begins beginning)
    (tied : Tied parties beginning shelved InUse session run)
    (room : plain.length + 4096 < 2 ^ 64)
    (inUse :
      ∀ current inputs,
        (session.archive side).current = some current →
        current.sealInputs plain binding draw = some inputs →
        InUse inputs)
    (ran :
      (session.archive side).seal plain nowSecs binding draw =
        (.ok message, after))
    (within :
      ((session.settle side after).logSealed side plain message).Within) :
    ∃ next,
      Tied parties beginning shelved InUse
        ((session.settle side after).logSealed side plain message) next := by
  obtain ⟨state, lane, sent, inner, advanced, isCurrent, isRecord, live, sealed,
    holding⟩ := (tied.archive side).seals room ran
  have step :
      TwoParty.Step PqRecord.party run
        (run.act side sent.state (.sent sent.packet sent.key)) := by
    apply TwoParty.Step.send side draw
    rw [PqRecord.party_send, isRecord, sealed.sends]
    rfl
  have isPacket : inner.pqPacket = sent.packet := sealed.made.pqPacket
  have hasSent :
      (run.act side sent.state (.sent sent.packet sent.key)).HasSent side
        inner.pqPacket sent.key := by
    rw [isPacket]
    simp [Joint.HasSent]
  have letter :
      Letter parties beginning InUse
        (run.act side sent.state (.sent sent.packet sent.key)) side plain
        message inner :=
    ⟨sealed.made.parsed, live.carries room sealed, binding, state, lane, sent,
      sealed.made, inUse state _ isCurrent sealed.sealInputs_eq, hasSent⟩
  exact ⟨_, tied.logSealed begins step holding letter within⟩

omit [Hashes] [Curves] [Aes] [Kem] [Capsules] in
/-- A delivered message carries the packet it was sealed with. -/
theorem Carries.packet
    {inner : Whisper}
    {message : Sealed}
    (carries : Carries parties beginning inner side message)
    (parses : Whisper.parse inner.bytes = .ok inner) :
    message.packet = inner.pqPacket := by
  cases carries with
  | whisper => simp only [Sealed.packet, parses]
  | first opens isInner _ =>
      simp only [Sealed.packet, opens, Outcome.ok_bind, isInner, parses]

/-- A receipt of the record's run is logged with the plaintext it opened. -/
theorem Tied.logOpened
    {index : Nat}
    {plain record packet : Bytes}
    {key : Option (Block 32)}
    {message : Sealed}
    {after : Archive}
    (begins : parties.Begins beginning)
    (tied : Tied parties beginning shelved InUse session run)
    (step :
      TwoParty.Step PqRecord.party run
        (run.act side record (.received packet key)))
    (holding : Holding parties beginning shelved side after record)
    (offered : (session.sealed side.other)[index]? = some (plain, message))
    (isPacket : message.packet = packet)
    (within :
      ((session.settle side after).logOpened side index plain).Within) :
    Tied parties beginning shelved InUse
      ((session.settle side after).logOpened side index plain)
      (run.act side record (.received packet key)) := by
  have archives :
      ∀ actor,
        Holding parties beginning shelved actor
          (((session.settle side after).logOpened side index
            plain).archive actor)
          ((run.act side record (.received packet key)).state actor) := by
    intro actor
    rcases actor.eq_or_eq_other side with rfl | rfl
    · simpa using holding
    · simpa using tied.archive side.other
  have sends :
      ∀ actor,
        PqRecord.sends (run.act side record (.received packet key)) actor =
          (session.sealed actor).length := by
    intro actor
    rw [PqRecord.sends_received, tied.sends]
  refine ⟨.step tied.reachable step
    (few_of_holding begins within archives sends), archives, sends,
    ?_, ?_, ?_⟩
  · intro actor letter member
    obtain ⟨inner, isLetter⟩ := tied.letters actor letter member
    exact ⟨inner, isLetter.act⟩
  · intro actor
    rcases actor.eq_or_eq_other side with rfl | rfl
    · have last : session.packetAt actor.other index = packet :=
        (Session.packetAt_eq offered).trans isPacket
      rw [PqRecord.accepted_received_self, tied.packets,
        Session.opened_logOpened_self, List.map_append, ← last]
      rfl
    · rw [PqRecord.accepted_received_other, tied.packets,
        Session.opened_logOpened_other]
      rfl
  · intro actor opening isOpening
    rcases actor.eq_or_eq_other side with rfl | rfl
    · rw [Session.opened_logOpened_self] at isOpening
      rcases List.mem_append.mp isOpening with before | isLast
      · exact tied.exact actor opening before
      · obtain rfl := List.mem_singleton.mp isLast
        exact ⟨message, offered⟩
    · rw [Session.opened_logOpened_other] at isOpening
      exact tied.exact side.other opening isOpening

/-- Opening is a receipt of the record's run. -/
theorem Tied.opens
    [LawfulKem]
    {draws : Nat → Block 32}
    {binding : Option Binding}
    {index : Nat}
    {text : Bytes}
    {message : Sealed}
    {plain : Bytes}
    {after : Archive}
    (publishes : parties.Publishes)
    (commutes : Curve.Commutes)
    (correct : Cipher.AesCorrect)
    (separates : Separates InUse)
    (begins : parties.Begins beginning)
    (tied : Tied parties beginning shelved InUse session run)
    (apart :
      side = .initiator →
        ∀ letter ∈ session.sealed .responder, ∀ inner,
          Whisper.parse letter.2.bytes = .ok inner → Apart shelved inner)
    (offered : (session.sealed side.other)[index]? = some (text, message))
    (inUse :
      ∀ inner taken current inputs,
        parties.takeIn side message (session.archive side) =
          (.ok inner, taken) →
        taken.current = some current →
        current.openInputs (draws 0) inner binding = some inputs →
        InUse inputs)
    (ran :
      parties.openSealed side draws binding message (session.archive side) =
        (.ok plain, after))
    (within :
      ((session.settle side after).logOpened side index plain).Within) :
    ∃ next,
      Tied parties beginning shelved InUse
        ((session.settle side after).logOpened side index plain) next := by
  have member := List.mem_of_getElem? offered
  obtain ⟨inner, letter⟩ := tied.letters side.other _ member
  obtain ⟨taken, takes, holding⟩ :=
    (tied.archive side).takeIn publishes commutes begins letter.parses
      letter.carries
  rw [Parties.openSealed_eq, Call.bind_of_ok takes, liftM_call_apply] at ran
  obtain ⟨isPlain, rfl⟩ := Prod.mk.inj ran
  have opened :
      openWithArchive draws inner binding taken =
        (.ok plain, (openWithArchive draws inner binding taken).2) :=
    Prod.ext (Outcome.mapError_eq_ok.mp isPlain) rfl
  have innerApart : side = .initiator → Apart shelved inner := by
    rintro rfl
    have isWhisper : message.bytes = inner.bytes := by
      cases letter.carries
      rfl
    exact apart rfl _ member inner
      ((congrArg Whisper.parse isWhisper).trans letter.parses)
  obtain ⟨state, advanced, isCurrent, live, isRecord, opens, holds⟩ :=
    holding.opens innerApart opened
  obtain ⟨pqKey, receives⟩ :=
    (opensTo_of_ok live.seeded opens).receives
  obtain ⟨sealBinding, sealer, lane, sent, made, sealedInUse, hasSent⟩ :=
    letter.origin
  have isText : plain = text :=
    separates.opens_plain correct made rfl sealedInUse
      (fun inputs isInputs =>
        inUse inner taken state inputs takes isCurrent isInputs)
      live.seeded opens
  subst isText
  have step :
      TwoParty.Step PqRecord.party run
        (run.act side advanced.pqState (.received inner.pqPacket pqKey)) := by
    apply TwoParty.Step.receive side hasSent
    rw [PqRecord.party_receive, isRecord, receives]
    rfl
  exact ⟨_, tied.logOpened begins step (holds _ rfl) offered
    (letter.carries.packet letter.parses) within⟩

omit [Curves] [Capsules] in
/-- A call that fails leaves both live states as they were. -/
theorem Tied.fails
    {after : Archive}
    (tied : Tied parties beginning shelved InUse session run)
    (holding :
      Holding parties beginning shelved side after (run.state side)) :
    Tied parties beginning shelved InUse (session.settle side after) run := by
  refine ⟨tied.reachable, ?_, tied.sends, tied.letters, tied.packets,
    tied.exact⟩
  intro actor
  rcases actor.eq_or_eq_other side with rfl | rfl
  · simpa using holding
  · simpa using tied.archive side.other

/-- A message refused leaves the sessions tied to the record's run. -/
theorem Tied.openFails
    {draws : Nat → Block 32}
    {binding : Option Binding}
    {index : Nat}
    {text : Bytes}
    {message : Sealed}
    {error : EngineError}
    {after : Archive}
    (publishes : parties.Publishes)
    (commutes : Curve.Commutes)
    (begins : parties.Begins beginning)
    (tied : Tied parties beginning shelved InUse session run)
    (offered : (session.sealed side.other)[index]? = some (text, message))
    (ran :
      parties.openSealed side draws binding message (session.archive side) =
        (.error error, after)) :
    Tied parties beginning shelved InUse (session.settle side after) run := by
  obtain ⟨inner, letter⟩ :=
    tied.letters side.other _ (List.mem_of_getElem? offered)
  obtain ⟨taken, takes, holding⟩ :=
    (tied.archive side).takeIn publishes commutes begins letter.parses
      letter.carries
  rw [Parties.openSealed_eq, Call.bind_of_ok takes, liftM_call_apply] at ran
  rcases failed : openWithArchive draws inner binding taken with
    ⟨_ | fault | _, settled⟩ <;> rw [failed] at ran
  · cases ran
  · obtain ⟨_, rfl⟩ := Prod.mk.inj ran
    rw [openWithArchive_error failed]
    exact tied.fails holding
  · cases ran

/-- Every call that ends keeps a session tied to a run of its ratchet. -/
theorem Tied.step
    [LawfulKem]
    {next : Session}
    (publishes : parties.Publishes)
    (commutes : Curve.Commutes)
    (correct : Cipher.AesCorrect)
    (separates : Separates InUse)
    (begins : parties.Begins beginning)
    (tied : Tied parties beginning shelved InUse session run)
    (within : session.Within)
    (step : session.Step parties InUse next)
    (withinNext : next.Within) :
    ∃ run, Tied parties beginning shelved InUse next run := by
  cases step with
  | seals side room inUse ran =>
      exact tied.seals begins room inUse ran withinNext
  | sealFails side room ran =>
      rw [(tied.archive side).sealFails room ran]
      exact ⟨run, tied.fails (tied.archive side)⟩
  | opens side offered inUse ran =>
      refine tied.opens publishes commutes correct separates begins ?_ offered
        inUse ran withinNext
      rintro rfl letter member inner parses bytes isBytes earlier parsed
      have wasShelved :
          bytes ∈ (session.archive .initiator).previous := by
        rw [(tied.archive .initiator).previous rfl]
        exact isBytes
      exact within.apart bytes wasShelved earlier parsed letter member inner
        parses
  | openFails side offered ran =>
      exact ⟨run, tied.openFails publishes commutes begins offered ran⟩

/-- A session before its first call. -/
theorem Parties.Begins.init_tied
    {draw : Block 32}
    {nowSecs : Nat}
    {earlier : Archive}
    {state : State}
    (publishes : parties.Publishes)
    (begins : parties.Begins beginning)
    (now : nowSecs < 2 ^ 64)
    (made :
      Handshake.initiatorState (parties.handshake beginning.base)
          beginning.keys (beginning.record .initiator) draw =
        .ok state)
    (within :
      (Session.init
        (earlier.promote (parties.opening beginning nowSecs state))).Within) :
    Tied parties beginning earlier.shelve.previous InUse
      (Session.init
        (earlier.promote (parties.opening beginning nowSecs state)))
      (Joint.init beginning.record) := by
  have live := begins.opening_live publishes now made
  have record :
      (parties.opening beginning nowSecs state).pqState =
        beginning.record .initiator := by
    obtain ⟨_, _, rest⟩ := Outcome.bind_eq_ok.mp made
    obtain ⟨_, _, ⟨⟩⟩ := Outcome.bind_eq_ok.mp rest
    rfl
  have archives :
      ∀ side,
        Holding parties beginning earlier.shelve.previous side
          ((Session.init
            (earlier.promote
              (parties.opening beginning nowSecs state))).archive side)
          (beginning.record side) := by
    intro side
    cases side with
    | initiator =>
        rw [← record]
        exact .live live
    | responder => exact .empty
  have sends :
      ∀ side,
        PqRecord.sends (Joint.init beginning.record) side =
          ((Session.init
            (earlier.promote
              (parties.opening beginning nowSecs state))).sealed
              side).length :=
    fun _ => rfl
  refine ⟨.init (few_of_holding begins within archives sends), archives, sends,
    ?_, fun _ => rfl, ?_⟩
  · intro side letter member
    cases member
  · intro side opening member
    cases member

/-- A session is as safe as the run of its ratchet. -/
theorem Tied.safe
    [LawfulKem]
    (generates : ∀ seed, ∃ keys, Kem.generate seed = some keys)
    (begins : parties.Begins beginning)
    (tied : Tied parties beginning shelved InUse session run) :
    session.Safe := by
  refine ⟨tied.exact, ?_⟩
  intro side
  have sides :
      PqRecord.startSides (beginning.record .initiator)
          (beginning.record .responder) =
        beginning.record := by
    funext side
    cases side <;> rfl
  have limitsFit : sessionLimits.Fits := by
    refine ⟨?_, ?_⟩ <;> decide
  have reachable := tied.reachable
  rw [← sides] at reachable
  have safe :=
    PqRecord.few_safe generates limitsFit (begins.record .initiator)
      (begins.record .responder) reachable
  have once := safe.once side
  rw [tied.packets] at once
  exact List.Nodup.of_map (session.packetAt side.other)
    (by rw [List.map_map]; exact once)

/--
What was sealed is what is opened, and nothing is opened twice, in every state
of every run from a start.
-/
theorem session_safety
    [LawfulKem]
    {draws : StartDraws}
    {nowSecs : Nat}
    {earlier archive : Archive}
    (generates : ∀ seed, ∃ keys, Kem.generate seed = some keys)
    (commutes : Curve.Commutes)
    (correct : Cipher.AesCorrect)
    (separates : Separates InUse)
    (publishes : parties.Publishes)
    (now : nowSecs < 2 ^ 64)
    (started :
      start draws parties.us (parties.registrationId .initiator)
          parties.published nowSecs earlier =
        (.ok (), archive))
    (reachable : Session.Reachable parties InUse archive session) :
    session.Safe := by
  obtain ⟨beginning, state, begins, made, rfl⟩ :=
    Parties.start_begins publishes started
  have tied :
      ∃ run,
        Tied parties beginning earlier.shelve.previous InUse session run := by
    induction reachable with
    | init within =>
        exact ⟨_, begins.init_tied publishes now made within⟩
    | step before step within inductionHypothesis =>
        obtain ⟨run, tied⟩ := inductionHypothesis
        exact tied.step publishes commutes correct separates begins
          before.within step within
  obtain ⟨run, tied⟩ := tied
  exact tied.safe generates begins

end Invariant

section Witness

open Sample

attribute [local instance] hashes curves aes kem capsules

/-- A pair from one byte. -/
def letterPair (byte : UInt8) : Curve.Pair :=
  ⟨⟨Curve.clamp (Block.fill 32 byte)⟩,
    Curve.Secret.fromRaw (Block.fill 32 byte)⟩

/-- The post-quantum key of the answering side. -/
def letterPq : PostQuantum.Pair :=
  ⟨⟨.standard, Block.zero 1568⟩, ⟨.standard, Block.zero 3168⟩⟩

/-- The bundle names a one-time key. -/
def letterParties : Parties where
  us := .fromPair (letterPair 2)
  them := .fromPair (letterPair 1)
  registrationId := fun _ => 7
  published :=
    ⟨7, 1, some 4, some (letterPair 12).publicKey, 5,
      (letterPair 11).publicKey, Block.zero 64,
      (IdentityPair.fromPair (letterPair 1)).identity, 6, letterPq.publicKey,
      Block.zero 64⟩
  signed := ⟨5, 0, letterPair 11, Block.zero 64⟩
  oneTime := some ⟨4, letterPair 12⟩
  pq := ⟨6, 0, letterPq, Block.zero 64⟩

/-- The sample parties publish their keys. -/
theorem letterParties_publishes : letterParties.Publishes where
  us := rfl
  them := rfl
  distinct := by decide
  signed := rfl
  clamped := Curve.Secret.clamped_fromRaw _
  oneTime := by
    rintro _ ⟨⟩
    rfl
  identity := rfl
  signedId := rfl
  signedKey := rfl
  oneTimeId := rfl
  oneTimeKey := rfl
  pqId := rfl
  pqKey := by
    refine ⟨rfl, ?_⟩
    rintro seed _ _ ⟨⟩
    exact congrArg some (Block.slice_append_left _ _ _)
  fits := ⟨by decide, by rintro _ ⟨⟩; decide, by decide, by decide⟩
  registrationId := fun _ => by simp [letterParties]

/-- What is drawn to start the session. -/
def letterDraws : StartDraws :=
  ⟨Block.fill 32 21, Block.fill 32 22, Block.fill 32 23⟩

/-- What is drawn to seal a message. -/
def letterDraw : Braid.Draw :=
  ⟨Block.zero 64, Block.zero 32⟩

/-- The starting side after its start. -/
@[irreducible] def letterStart : Outcome EngineError Unit × Archive :=
  start letterDraws letterParties.us 7 letterParties.published 1000
    Archive.empty

/-- The starting side after its first message. -/
@[irreducible] def letterSeal : Outcome EngineError Sealed × Archive :=
  letterStart.2.seal [1] 1000 none letterDraw

/-- The first message. -/
@[irreducible] def letterMessage : Sealed :=
  match letterSeal.1 with
  | .ok message => message
  | _ => ⟨.plain, []⟩

/-- The answering side after opening it. -/
@[irreducible] def letterOpen : Outcome EngineError Bytes × Archive :=
  letterParties.openSealed .responder (fun _ => Block.zero 32) none
    letterMessage Archive.empty

/-- What an opening of a message that was taken in computes. -/
def inputsTried :
    Outcome EngineError Whisper × Archive → Option MessageInputs
  | (.ok inner, taken) =>
      taken.current.bind (State.openInputs (Block.zero 32) inner none)
  | _ => none

/-- The bytes of the post-quantum record, none without a live state. -/
def recordLength (archive : Archive) : Nat :=
  (archive.current.map fun current => current.pqState.length).getD 0

set_option maxRecDepth 100000 in
/-- The steps of the sample session. -/
theorem letter_steps :
    start letterDraws letterParties.us
          (letterParties.registrationId .initiator) letterParties.published
          1000 Archive.empty =
        (.ok (), letterStart.2) ∧
      letterStart.2.seal [1] 1000 none letterDraw =
        (.ok letterMessage, letterSeal.2) ∧
      letterParties.openSealed .responder (fun _ => Block.zero 32) none
          letterMessage Archive.empty =
        (.ok [1], letterOpen.2) ∧
      inputsTried
          (letterParties.takeIn .responder letterMessage Archive.empty) =
        letterStart.2.current.bind (State.sealInputs [1] none letterDraw) ∧
      letterStart.2.previous = [] ∧
      letterSeal.2.previous = [] ∧
      ∀ archive ∈ [letterStart.2, letterSeal.2, letterOpen.2],
        recordLength archive < 2 ^ 64 := by
  decide +kernel

/-- A run of short records stays within its bounds. -/
private theorem within_of_short
    {session : Session}
    (short : ∀ side, recordLength (session.archive side) < 2 ^ 64)
    (few : ∀ side, (session.sealed side).length ≤ 1)
    (fresh : (session.archive .initiator).previous = []) :
    session.Within where
  short := by
    intro side current isCurrent
    have lengths := short side
    simpa [recordLength, isCurrent] using lengths
  few := by
    have ours := few .initiator
    have theirs := few .responder
    omega
  apart := by
    intro record member
    rw [fresh] at member
    cases member

/-- The session after one message has been sealed. -/
def sentRun (started sealed : Archive) (message : Sealed) : Session :=
  ((Session.init started).settle .initiator sealed).logSealed .initiator [1]
    message

/-- The initiator has sealed a first message and the responder has opened it. -/
private def letterRun
    (started sealed opened : Archive)
    (message : Sealed) :
    Session :=
  ((sentRun started sealed message).settle .responder opened).logOpened
    .responder 0 [1]

/-- The run with the sample letter. -/
private theorem letterRun_reachable
    {InUse : MessageInputs → Prop}
    {started sealed opened : Archive}
    {message : Sealed}
    (seals :
      started.seal [1] 1000 none letterDraw = (.ok message, sealed))
    (opens :
      letterParties.openSealed .responder (fun _ => Block.zero 32) none
          message Archive.empty =
        (.ok [1], opened))
    (sealsInUse :
      ∀ inputs,
        started.current.bind (State.sealInputs [1] none letterDraw) =
            some inputs →
          InUse inputs)
    (opensInUse :
      ∀ inputs,
        inputsTried
            (letterParties.takeIn .responder message Archive.empty) =
            some inputs →
          InUse inputs)
    (noneShelved : started.previous = [])
    (stillNone : sealed.previous = [])
    (short :
      ∀ archive ∈ [started, sealed, opened], recordLength archive < 2 ^ 64) :
    Session.Reachable letterParties InUse started
      (letterRun started sealed opened message) := by
  have emptyShort : recordLength Archive.empty < 2 ^ 64 := by decide
  have startWithin : (Session.init started).Within := by
    refine within_of_short ?_ (fun _ => Nat.zero_le 1) noneShelved
    rintro (_ | _)
    · exact short started (by simp)
    · exact emptyShort
  have sentWithin : (sentRun started sealed message).Within := by
    refine within_of_short ?_ ?_ stillNone
    · rintro (_ | _)
      · exact short sealed (by simp)
      · exact emptyShort
    · rintro (_ | _)
      · exact Nat.le_refl 1
      · exact Nat.zero_le 1
  have openedWithin : (letterRun started sealed opened message).Within := by
    refine within_of_short ?_ ?_ stillNone
    · rintro (_ | _)
      · exact short sealed (by simp)
      · exact short opened (by simp)
    · rintro (_ | _)
      · exact Nat.le_refl 1
      · exact Nat.zero_le 1
  have sealStep :
      Session.Step letterParties InUse (Session.init started)
        (sentRun started sealed message) := by
    refine .seals .initiator (by decide) ?_ seals
    intro current inputs isCurrent isInputs
    apply sealsInUse
    exact (congrArg (Option.bind · _) isCurrent).trans isInputs
  have openStep :
      Session.Step letterParties InUse (sentRun started sealed message)
        (letterRun started sealed opened message) := by
    refine .opens .responder rfl ?_ opens
    intro inner taken current inputs takes isCurrent isInputs
    apply opensInUse
    exact (congrArg inputsTried takes).trans
      ((congrArg (Option.bind · _) isCurrent).trans isInputs)
  exact .step (.step (.init startWithin) sealStep sentWithin) openStep
    openedWithin

/-- What the first message is sealed with. -/
private def InLetter (inputs : MessageInputs) : Prop :=
  letterStart.2.current.bind (State.sealInputs [1] none letterDraw) =
    some inputs

/-- The inputs of the sample letter are separate. -/
private theorem inLetter_separates : Separates InLetter where
  derivations := by
    intro first second isFirst isSecond _
    obtain rfl := Option.some.inj (isFirst.symm.trans isSecond)
    exact ⟨rfl, rfl⟩
  tags := by
    intro first second isFirst isSecond _
    obtain rfl := Option.some.inj (isFirst.symm.trans isSecond)
    exact ⟨rfl, rfl⟩

/-- Safety of the run with the sample letter. -/
theorem session_safety_firstMessage :
    (letterRun letterStart.2 letterSeal.2 letterOpen.2 letterMessage).Safe := by
  have lawful : LawfulKem := lawfulKem
  obtain ⟨starts, seals, opens, sameInputs, noneShelved, stillNone, short⟩ :=
    letter_steps
  refine @session_safety hashes curves aes kem capsules letterParties InLetter
    (letterRun letterStart.2 letterSeal.2 letterOpen.2 letterMessage) lawful
    letterDraws 1000 Archive.empty letterStart.2
    (fun seed => ⟨_, rfl⟩) commutes Cipher.sample_aesCorrect
    inLetter_separates letterParties_publishes (by decide) starts ?_
  exact letterRun_reachable seals opens (fun _ => id)
    (fun _ isInputs => sameInputs.symm.trans isInputs) noneShelved stillNone
    short

end Witness

end Gossveil.Ratchet
