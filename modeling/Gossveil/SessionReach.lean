import Gossveil.EngineOpen

namespace Gossveil

/-!
# The states the engine reaches

Every state an operation leaves live in an archive can be written and read
again: its integers fit their types, its secrets are clamped and its sending
lane carries its secret.
-/

/-- The integers of a published bundle fit their types. -/
structure Bundle.Published.Fits (published : Bundle.Published) : Prop where
  registrationId : published.registrationId < 2 ^ 32
  oneTimeId : ∀ id, published.oneTimeId = some id → id < 2 ^ 32
  signedId : published.signedId < 2 ^ 32
  pqId : published.pqId < 2 ^ 32

namespace Ratchet

/-! ## The operations on a state -/

namespace State

theorem Sound.withRoot
    {state : State}
    (sound : state.Sound)
    (root : Block 32) :
    { state with root := root : State }.Sound :=
  ⟨{ sound.fits with }, { sound.keyed with }⟩

theorem Sound.withPreviousIndex
    {state : State}
    {index : Nat}
    (sound : state.Sound)
    (small : index < 2 ^ 32) :
    { state with previousIndex := index : State }.Sound :=
  ⟨{ sound.fits with previousIndex := small }, { sound.keyed with }⟩

theorem Sound.withRegistrationIds
    {state : State}
    {ours theirs : Nat}
    (sound : state.Sound)
    (oursSmall : ours < 2 ^ 32)
    (theirsSmall : theirs < 2 ^ 32) :
    { state with
      localRegistrationId := ours
      remoteRegistrationId := theirs : State }.Sound :=
  ⟨{ sound.fits with
      localRegistrationId := oursSmall
      remoteRegistrationId := theirsSmall },
    { sound.keyed with }⟩

theorem Sound.setPqState
    {state : State}
    (sound : state.Sound)
    (bytes : Bytes) :
    (state.setPqState bytes).Sound :=
  ⟨{ sound.fits with }, { sound.keyed with }⟩

theorem Sound.clearPending
    {state : State}
    (sound : state.Sound) :
    state.clearPending.Sound :=
  ⟨{ sound.fits with
      pending := by rintro _ ⟨⟩
      pendingCapsule := by rintro _ ⟨⟩ },
    { sound.keyed with }⟩

/-- What is remembered fits the record. -/
theorem Sound.setPending
    {state : State}
    {oneTimeId : Option Nat}
    {signedId nowSecs : Nat}
    {base : Curve.Public}
    (sound : state.Sound)
    (oneTimeSmall : ∀ id, oneTimeId = some id → id < 2 ^ 32)
    (signedSmall : signedId < 2 ^ 32)
    (nowSmall : nowSecs < 2 ^ 64) :
    (state.setPending oneTimeId signedId base nowSecs).Sound := by
  refine ⟨{ sound.fits with pending := ?_ }, { sound.keyed with }⟩
  rintro _ ⟨⟩
  exact ⟨oneTimeSmall, signedSmall, nowSmall⟩

theorem Sound.setPendingCapsule
    {state : State}
    {pqId : Nat}
    {capsule : Bytes}
    (sound : state.Sound)
    (small : pqId < 2 ^ 32) :
    (state.setPendingCapsule pqId capsule).Sound := by
  refine ⟨{ sound.fits with pendingCapsule := ?_ }, { sound.keyed with }⟩
  rintro _ ⟨⟩
  exact small

/-- A new sending lane can be written. -/
theorem Sound.setSending
    {state : State}
    {pair : Curve.Pair}
    {chain : Chain}
    (sound : state.Sound)
    (clamped : pair.secret.Clamped)
    (fits : chain.Fits) :
    (state.setSending pair chain).Sound := by
  refine ⟨{ sound.fits with sending := ?_ },
    { sound.keyed with carries := ?_, sending := ?_ }⟩
  · rintro _ ⟨⟩
    exact ⟨fits, by simp⟩
  · rintro _ ⟨⟩
    simp
  · rintro _ ⟨⟩ _ ⟨⟩
    exact clamped

/-- A chain in range can be written. -/
theorem Sound.setSendingChain
    {state after : State}
    {chain : Chain}
    (sound : state.Sound)
    (fits : chain.Fits)
    (sets : state.setSendingChain chain = .ok after) :
    after.Sound := by
  obtain ⟨lane, isLane, done⟩ := Outcome.bind_eq_ok.mp sets
  cases done
  have isSending := Outcome.unwrap_eq_ok.mp isLane
  refine ⟨{ sound.fits with sending := ?_ },
    { sound.keyed with carries := ?_, sending := ?_ }⟩
  · rintro _ ⟨⟩
    exact ⟨fits, (sound.fits.sending lane isSending).skipped⟩
  · rintro _ ⟨⟩
    exact sound.keyed.carries lane isSending
  · rintro _ ⟨⟩
    exact sound.keyed.sending lane isSending

/-- A new receiving lane can be written. -/
theorem Sound.addReceiving
    {state : State}
    {chain : Chain}
    (sound : state.Sound)
    (theirRatchet : Curve.Public)
    (fits : chain.Fits) :
    (state.addReceiving theirRatchet chain).Sound := by
  have inside :
      ∀ lane ∈ (state.addReceiving theirRatchet chain).receiving,
        lane ∈ state.receiving ∨ lane = ⟨theirRatchet, none, chain, []⟩ := by
    intro lane member
    simp only [State.addReceiving] at member
    split_ifs at member
    · simpa using List.mem_of_mem_tail member
    · simpa using member
  refine ⟨{ sound.fits with receiving := ?_ },
    { sound.keyed with receiving := ?_ }⟩
  · intro lane member
    rcases inside lane member with old | rfl
    · exact sound.fits.receiving lane old
    · exact ⟨fits, by simp⟩
  · intro lane member
    rcases inside lane member with old | rfl
    · exact sound.keyed.receiving lane old
    · rintro _ ⟨⟩

/-- A lane of the changed state is an old one, or the change of an old one. -/
theorem mem_changeLane
    {state : State}
    {theirRatchet : Curve.Public}
    {change : Lane → Lane}
    {lane : Lane}
    (member : lane ∈ (state.changeLane theirRatchet change).receiving) :
    ∃ old ∈ state.receiving, lane = old ∨ lane = change old := by
  obtain ⟨index, inside, rfl⟩ := List.mem_iff_getElem.mp member
  have old : index < state.receiving.length := by
    simpa [changeLane] using inside
  refine ⟨state.receiving[index], List.getElem_mem old, ?_⟩
  simp only [changeLane, List.getElem_modify]
  split_ifs
  · exact Or.inr rfl
  · exact Or.inl rfl

/-- A change that keeps secrets and ranges can be written. -/
theorem Sound.changeLane
    {state : State}
    {theirRatchet : Curve.Public}
    {change : Lane → Lane}
    (sound : state.Sound)
    (secret : ∀ lane, (change lane).ratchetSecret = lane.ratchetSecret)
    (fits : ∀ lane ∈ state.receiving, lane.Fits → (change lane).Fits) :
    (state.changeLane theirRatchet change).Sound := by
  refine ⟨{ sound.fits with receiving := ?_ },
    { sound.keyed with receiving := ?_ }⟩
  · intro lane member
    obtain ⟨old, isOld, rfl | rfl⟩ := mem_changeLane member
    · exact sound.fits.receiving _ isOld
    · exact fits old isOld (sound.fits.receiving old isOld)
  · intro lane member
    obtain ⟨old, isOld, rfl | rfl⟩ := mem_changeLane member
    · exact sound.keyed.receiving _ isOld
    · intro key isKey
      rw [secret] at isKey
      exact sound.keyed.receiving old isOld key isKey

/-- Taking a kept key keeps a state that can be written. -/
theorem Sound.takeSkipped
    {state after : State}
    {theirRatchet : Curve.Public}
    {index : Nat}
    {slot : Slot}
    (sound : state.Sound)
    (takes : state.takeSkipped theirRatchet index = some (slot, after)) :
    after.Sound := by
  simp only [State.takeSkipped, Option.bind_eq_bind,
    Option.bind_eq_some_iff, Option.pure_def, Option.some.injEq,
    Prod.mk.injEq] at takes
  obtain ⟨_, _, _, _, _, rfl⟩ := takes
  refine sound.changeLane (by simp) ?_
  intro lane _ fits
  exact ⟨fits.chain, fun slot member =>
    fits.skipped slot (List.mem_of_mem_eraseP member)⟩

/-- Keeping a key keeps a state that can be written. -/
theorem Sound.keepSkipped
    {state after : State}
    {theirRatchet : Curve.Public}
    {slot : Slot}
    (sound : state.Sound)
    (slotFits : slot.Fits)
    (keeps : state.keepSkipped theirRatchet slot = .ok after) :
    after.Sound := by
  obtain ⟨lane, isLane, done⟩ := Outcome.bind_eq_ok.mp keeps
  cases done
  have member : lane ∈ state.receiving :=
    List.mem_of_find?_eq_some (Outcome.ofOption_eq_ok.mp isLane)
  have keptFits : ∀ kept ∈ slot :: lane.skipped, kept.Fits := by
    intro kept isKept
    rcases List.mem_cons.mp isKept with rfl | old
    · exact slotFits
    · exact (sound.fits.receiving lane member).skipped kept old
  refine sound.changeLane (by simp) ?_
  intro other _ fits
  refine ⟨fits.chain, ?_⟩
  intro kept isKept
  simp only at isKept
  split_ifs at isKept
  · exact keptFits kept (List.mem_of_mem_dropLast isKept)
  · exact keptFits kept isKept

end State

/-! ## Opening -/

theorem clamped_fromSeed
    [Curves]
    {seed : Block 32}
    {pair : Curve.Pair}
    (made : Curve.Pair.fromSeed seed = .ok pair) :
    pair.secret.Clamped := by
  obtain ⟨publicKey, _, done⟩ := Outcome.bind_eq_ok.mp made
  cases done
  exact Curve.Secret.clamped_fromRaw seed

/-- A chain starts at index zero. -/
theorem Chain.fits_zero (key : Block 32) : Chain.Fits ⟨key, 0⟩ :=
  Nat.two_pow_pos 32

section Opening

variable [Hashes]

/-- An advanced chain is in range. -/
theorem Chain.advance_fits
    {chain next : Chain}
    (advances : chain.advance = .ok next) :
    next.Fits := by
  obtain ⟨index, isIndex, done⟩ := Outcome.bind_eq_ok.mp advances
  cases done
  obtain ⟨small, rfl⟩ := Outcome.add_eq_ok.mp isIndex
  exact small

/-- A state that fails is dropped, so nothing is said of it. -/
private abbrev Dropped : State → Prop :=
  fun _ => True

/-- Skipping keeps a state that can be written. -/
theorem keepUpTo_sound
    (theirRatchet : Curve.Public)
    (count : Nat)
    {chain : Chain}
    (fits : chain.Fits) :
    Call.Triple State.Sound (keepUpTo theirRatchet count chain)
      (fun last state => last.Fits ∧ state.Sound) Dropped := by
  induction count generalizing chain with
  | zero =>
      exact Call.Triple.pure fun _ sound => ⟨fits, sound⟩
  | succ count inductionHypothesis =>
      apply Call.Triple.read
      intro state sound
      apply Call.Triple.lift_bind fun _ _ => trivial
      intro kept isKept
      have slotFits : chain.slot.Fits := fits
      apply Call.Triple.set_bind (sound.keepSkipped slotFits isKept)
      apply Call.Triple.lift_bind fun _ _ => trivial
      intro next isNext
      exact inductionHypothesis (Chain.advance_fits isNext)

/-- Finding the keys keeps a state that can be written. -/
theorem slotFor_sound
    (theirRatchet : Curve.Public)
    {chain : Chain}
    (fits : chain.Fits)
    (index : Nat) :
    Call.Triple State.Sound (slotFor theirRatchet chain index)
      (fun _ state => state.Sound) Dropped := by
  apply Call.Triple.read
  intro state sound
  by_cases behind : index < chain.index
  · simp only [if_pos behind]
    apply Call.Triple.lift_bind fun _ _ => trivial
    rintro ⟨slot, after⟩ isTaken
    apply Call.Triple.set_bind
      (sound.takeSkipped (Outcome.ofOption_eq_ok.mp isTaken))
    exact Call.Triple.pure fun _ => id
  · simp only [if_neg behind]
    apply Call.Triple.lift_bind fun _ _ => trivial
    intro _ _
    refine Call.Triple.weaken (Call.Triple.bind _
      (keepUpTo_sound theirRatchet _ fits) ?_) fun _ isState => isState ▸ sound
    intro last
    apply Call.Triple.lift_bind fun _ _ => trivial
    intro next isNext
    apply Call.Triple.read
    rintro current ⟨_, currentSound⟩
    apply Call.Triple.lift_bind fun _ _ => trivial
    intro _ _
    refine Call.Triple.set_bind (currentSound.changeLane (by simp) ?_)
      (Call.Triple.pure fun _ => id)
    intro lane _ laneFits
    exact ⟨Chain.advance_fits isNext, laneFits.skipped⟩

variable [Curves]

/-- A turn keeps a state that can be written. -/
theorem laneChain_sound
    (theirRatchet : Curve.Public)
    (draw : Block 32) :
    Call.Triple State.Sound (laneChain theirRatchet draw)
      (fun chain state => chain.Fits ∧ state.Sound) Dropped := by
  unfold laneChain
  apply Call.Triple.readAny
  intro state sound
  cases isLane : state.receivingLane theirRatchet with
  | some lane =>
      apply Call.Triple.pure
      intro _ current
      have member := List.mem_of_find?_eq_some isLane
      exact ⟨(sound.fits.receiving lane member).chain, current⟩
  | none =>
      apply Call.Triple.lift_bind fun _ _ => trivial
      intro ours _
      apply Call.Triple.lift_bind fun _ _ => trivial
      intro agreement _
      apply Call.Triple.lift_bind fun _ _ => trivial
      intro fresh isFresh
      apply Call.Triple.lift_bind fun _ _ => trivial
      intro turned _
      apply Call.Triple.modify_bind fun _ before => before.withRoot _
      apply Call.Triple.modify_bind fun _ before =>
        before.addReceiving theirRatchet (Chain.fits_zero _)
      apply Call.Triple.readAny
      intro current currentSound
      apply Call.Triple.lift_bind fun _ _ => trivial
      intro chain isChain
      obtain ⟨lane, isSending, done⟩ := Outcome.bind_eq_ok.mp isChain
      cases done
      have indexSmall : lane.chain.index < 2 ^ 32 :=
        (currentSound.fits.sending lane
          (Outcome.ofOption_eq_ok.mp isSending)).chain
      have previousSmall :
          (if 0 < lane.chain.index then lane.chain.index - 1 else 0) <
            2 ^ 32 := by
        split_ifs <;> omega
      apply Call.Triple.modify_bind fun _ before =>
        before.withPreviousIndex previousSmall
      apply Call.Triple.modify_bind fun _ before =>
        before.setSending (clamped_fromSeed isFresh) (Chain.fits_zero _)
      exact Call.Triple.pure fun _ done => ⟨Chain.fits_zero _, done⟩

variable [Aes] [Kem]

/-- Opening keeps a state that can be written. -/
theorem openWithState_sound
    (draw : Block 32)
    (message : Whisper)
    (binding : Option Binding) :
    Call.Triple State.Sound (openWithState draw message binding)
      (fun _ state => state.Sound) Dropped := by
  unfold openWithState
  apply Call.Triple.readAny
  intro state _
  apply Call.Triple.lift_bind fun _ _ => trivial
  intro _ _
  apply Call.Triple.lift_bind fun _ _ => trivial
  intro _ _
  apply Call.Triple.lift_bind fun _ _ => trivial
  intro _ _
  apply Call.Triple.bind_given (laneChain_sound message.ratchet draw)
  intro chain fits
  apply Call.Triple.bind _ (slotFor_sound message.ratchet fits message.index)
  intro slot
  apply Call.Triple.readAny
  intro _ _
  apply Call.Triple.lift_bind fun _ _ => trivial
  intro received _
  apply Call.Triple.modify_bind fun _ before => before.setPqState received.state
  apply Call.Triple.readAny
  intro _ _
  apply Call.Triple.lift_bind fun _ _ => trivial
  intro _ _
  apply Call.Triple.lift_bind fun _ _ => trivial
  intro plain _
  apply Call.Triple.modify_bind fun _ before => before.clearPending
  exact Call.Triple.pure fun _ => id

end Opening

/-! ## Archives -/

/-- The live state can be written and read; the shelved ones are records. -/
def Archive.Sound (archive : Archive) : Prop :=
  ∀ current, archive.current = some current → current.Sound

namespace Archive

theorem sound_promote
    (archive : Archive)
    {state : State}
    (sound : state.Sound) :
    (archive.promote state).Sound := by
  rintro _ ⟨⟩
  exact sound

theorem reviveFrom_sound
    {archive after : Archive}
    {wantedVersion index : Nat}
    {wantedBase : Bytes}
    {records : List Bytes}
    {found : Bool}
    (sound : archive.Sound)
    (revives :
      archive.reviveFrom wantedVersion wantedBase index records =
        .ok (found, after)) :
    after.Sound := by
  induction records generalizing index with
  | nil =>
      cases revives
      exact sound
  | cons bytes rest inductionHypothesis =>
      rw [reviveFrom] at revives
      rcases parsed : State.parse bytes with state | fault | _ <;>
        simp only [parsed] at revives
      · split_ifs at revives
        · cases revives
          exact sound_promote _ (State.parse_sound parsed)
        · exact inductionHypothesis revives
      · exact inductionHypothesis revives
      · cases revives

/-- Reviving keeps an archive that can be written. -/
theorem revive_sound
    {archive after : Archive}
    {wantedVersion : Nat}
    {wantedBase : Bytes}
    {found : Bool}
    (sound : archive.Sound)
    (revives :
      archive.revive wantedVersion wantedBase = .ok (found, after)) :
    after.Sound := by
  unfold revive at revives
  split_ifs at revives
  · cases revives
    exact sound
  · exact reviveFrom_sound sound revives

end Archive

theorem candidatesFrom_sound
    {index : Nat}
    {records : List Bytes}
    {candidate : Place × State}
    (member : candidate ∈ candidatesFrom index records) :
    candidate.2.Sound := by
  induction records generalizing index with
  | nil => cases member
  | cons bytes rest inductionHypothesis =>
      rw [candidatesFrom] at member
      rcases parsed : State.parse bytes with state | fault | _ <;>
        simp only [parsed] at member
      · rcases List.mem_cons.mp member with rfl | later
        · exact State.parse_sound parsed
        · exact inductionHypothesis later
      · exact inductionHypothesis member
      · exact inductionHypothesis member

theorem Archive.Sound.candidates
    {archive : Archive}
    {candidate : Place × State}
    (sound : archive.Sound)
    (member : candidate ∈ archive.candidates) :
    candidate.2.Sound := by
  rcases List.mem_append.mp member with live | shelved
  · obtain ⟨current, isCurrent, rfl⟩ : ∃ current,
        archive.current = some current ∧ (Place.live, current) = candidate := by
      simpa using live
    exact sound current isCurrent
  · exact candidatesFrom_sound shelved

/-- A responder's ratchet pair is its signed pair. -/
theorem responderOf_ratchet
    {us : IdentityPair}
    {first : Opener}
    {offered : Offered}
    {parts : Handshake.Responder}
    {pqId : Nat}
    (named : responderOf us first offered = .ok (parts, pqId)) :
    ∃ record, offered.signed = some record ∧ parts.ourRatchet = record.pair := by
  simp only [responderOf, Outcome.bind_eq_ok, Outcome.ofOption_eq_ok] at named
  obtain ⟨record, isSigned, _, _, rest⟩ := named
  refine ⟨record, isSigned, ?_⟩
  cases isId : first.oneTimeId with
  | none =>
      simp only [isId, Outcome.bind_eq_ok, Outcome.pure_eq] at rest
      obtain ⟨_, _, _, _, _, _, _, _, _, _, done⟩ := rest
      cases done
      rfl
  | some id =>
      simp only [isId, Outcome.bind_eq_ok, Outcome.pure_eq] at rest
      obtain ⟨_, _, _, _, _, _, _, _, _, _, _, _, _, _, done⟩ := rest
      cases done
      rfl

section Operations

variable [Hashes] [Curves]

/-- Opening keeps an archive that can be written. -/
theorem openWithArchive_sound
    [Aes] [Kem]
    (draws : Nat → Block 32)
    (message : Whisper)
    (binding : Option Binding) :
    Call.Keeps Archive.Sound (openWithArchive draws message binding) := by
  intro archive sound
  constructor
  · intro plain after opened
    obtain ⟨place, state, advanced, _, isFirst, rfl⟩ :=
      openWithArchive_ok opened
    obtain ⟨earlier, later, split, _⟩ := isFirst.first
    have stateSound : state.Sound :=
      @Archive.Sound.candidates _ (place, state) sound (by simp [split])
    rintro current isCurrent
    rw [Archive.current_settle] at isCurrent
    cases isCurrent
    exact (openWithState_sound _ _ _ state stateSound).1 _ _ isFirst.opens
  · intro fault after failed
    rw [openWithArchive_error failed]
    exact sound

/-! ## Starting and first messages -/

/-- The signed pair of a device is held clamped. -/
def Offered.Clamped (offered : Offered) : Prop :=
  ∀ record, offered.signed = some record → record.pair.secret.Clamped

/-- The state of the starting side can be written. -/
theorem initiatorState_sound
    {parts : Handshake.Initiator}
    {keys : Derive.Opening}
    {pqState : Bytes}
    {draw : Block 32}
    {state : State}
    (made :
      Handshake.initiatorState parts keys pqState draw = .ok state) :
    state.Sound := by
  simp only [Handshake.initiatorState, Outcome.bind_eq_ok] at made
  obtain ⟨sending, isSending, agreement, _, done⟩ := made
  cases done
  apply State.Sound.setSending
  · apply State.Sound.addReceiving
    · exact State.sound_init _ _ _ _ _ (by decide)
    · exact Chain.fits_zero _
  · exact clamped_fromSeed isSending
  · exact Chain.fits_zero _

section FirstMessages

variable [Capsules]

/-- The state of the answering side can be written. -/
theorem newSession_sound
    {us : IdentityPair}
    {ourRegistrationId : Nat}
    {first : Opener}
    {offered : Offered}
    {state : State}
    {consumed : Consumed}
    (clamped : offered.Clamped)
    (ours : ourRegistrationId < 2 ^ 32)
    (theirs : first.registrationId < 2 ^ 32)
    (made :
      newSession us ourRegistrationId first offered = .ok (state, consumed)) :
    state.Sound := by
  unfold newSession at made
  rcases named : responderOf us first offered with ⟨parts, pqId⟩ | _ | _ <;>
    simp only [named] at made
  · obtain ⟨record, isSigned, isRatchet⟩ := responderOf_ratchet named
    simp only [Outcome.bind_eq_ok, Outcome.pure_eq, Outcome.ok.injEq,
      Prod.mk.injEq] at made
    obtain ⟨answered, _, pqState, _, rfl, _⟩ := made
    have begun :
        (Handshake.responderState parts answered.keys pqState).Sound := by
      apply State.Sound.setSending
      · exact State.sound_init _ _ _ _ _ (by decide)
      · rw [isRatchet]
        exact clamped record isSigned
      · exact Chain.fits_zero _
    exact begun.withRegistrationIds ours theirs
  · cases made
  · cases made

theorem sessionFor_sound
    {us : IdentityPair}
    {ourRegistrationId : Nat}
    {first : Opener}
    {offered : Offered}
    (clamped : offered.Clamped)
    (ours : ourRegistrationId < 2 ^ 32)
    (theirs : first.registrationId < 2 ^ 32) :
    Call.Keeps Archive.Sound
      (sessionFor us ourRegistrationId first offered) := by
  apply Call.Keeps.bind
  · apply Call.Keeps.mapError
    exact Call.Keeps.step fun _ _ _ sound revives =>
      Archive.revive_sound sound revives
  · intro found
    cases found with
    | true => exact Call.Keeps.pure _
    | false =>
        apply Call.Triple.lift_bind fun _ => id
        rintro ⟨state, consumed⟩ made
        have sound := newSession_sound clamped ours theirs made
        exact Call.Triple.modify_bind
          (fun archive _ => archive.sound_promote sound) (Call.Keeps.pure _)

/-- Opening a first message keeps an archive that can be written. -/
theorem openFirst_sound
    [Aes] [Kem]
    {us : IdentityPair}
    {ourRegistrationId : Nat}
    {first : Opener}
    {offered : Offered}
    (draws : Nat → Block 32)
    (binding : Option Binding)
    (clamped : offered.Clamped)
    (ours : ourRegistrationId < 2 ^ 32)
    (theirs : first.registrationId < 2 ^ 32) :
    Call.Keeps Archive.Sound
      (openFirst draws us ourRegistrationId first offered binding) := by
  apply Call.Keeps.bind (sessionFor_sound clamped ours theirs)
  intro consumed
  apply Call.Keeps.bind (Call.Keeps.lift _)
  intro inner
  apply Call.Keeps.bind
  · apply Call.Keeps.mapError
    exact openWithArchive_sound draws inner binding
  · intro plain
    exact Call.Keeps.pure _

/-- Starting keeps an archive that can be written. -/
theorem start_sound
    {us : IdentityPair}
    {ourRegistrationId : Nat}
    {published : Bundle.Published}
    {nowSecs : Nat}
    (draws : StartDraws)
    (ours : ourRegistrationId < 2 ^ 32)
    (theirs : published.Fits)
    (now : nowSecs < 2 ^ 64) :
    Call.Keeps Archive.Sound
      (start draws us ourRegistrationId published nowSecs) := by
  apply Call.Keeps.bind (Call.Keeps.lift _)
  intro _
  apply Call.Keeps.bind (Call.Keeps.lift _)
  intro base
  apply Call.Keeps.bind (Call.Keeps.lift _)
  intro opened
  apply Call.Keeps.bind (Call.Keeps.lift _)
  intro pqState
  apply Call.Triple.lift_bind fun _ => id
  intro state made
  apply Call.Keeps.bind (Call.Keeps.lift _)
  intro capsule
  have begun := initiatorState_sound (Outcome.mapError_eq_ok.mp made)
  apply Call.Keeps.modify
  intro archive _
  apply archive.sound_promote
  apply State.Sound.withRegistrationIds _ ours theirs.registrationId
  apply State.Sound.setPendingCapsule _ theirs.pqId
  exact begun.setPending theirs.oneTimeId theirs.signedId now

end FirstMessages

end Operations

/-! ## Sealing -/

section Sealing

variable [Hashes] [Aes] [Kem]

/-- Sealing keeps a state that can be written. -/
theorem sealWithState_sound
    (plain : Bytes)
    (nowSecs : Nat)
    (binding : Option Binding)
    (draw : Braid.Draw) :
    Call.Keeps State.Sound (sealWithState plain nowSecs binding draw) := by
  unfold sealWithState
  apply Call.Keeps.bind Call.Keeps.get
  intro _
  apply Call.Keeps.bind (Call.Keeps.lift _)
  intro _
  apply Call.Keeps.bind (Call.Keeps.lift _)
  intro _
  apply Call.Keeps.bind (Call.Keeps.lift _)
  intro chain
  apply Call.Keeps.bind (Call.Keeps.lift _)
  intro sent
  apply Call.Keeps.bind
    (Call.Keeps.modify fun _ before => before.setPqState sent.state)
  intro _
  apply Call.Triple.readAny
  intro state sound
  apply Call.Keeps.bind (Call.Keeps.lift _)
  intro pair
  apply Call.Keeps.bind (Call.Keeps.lift _)
  intro version
  apply Call.Keeps.bind (Call.Keeps.lift _)
  intro inner
  apply Call.Triple.lift_bind fun _ => id
  intro next isNext
  apply Call.Triple.lift_bind fun _ => id
  intro advanced isAdvanced
  have advancedSound : advanced.Sound :=
    sound.setSendingChain
      (Chain.advance_fits (Outcome.mapError_eq_ok.mp isNext))
      (Outcome.mapError_eq_ok.mp isAdvanced)
  apply Call.Triple.set_bind advancedSound
  cases advanced.pending with
  | none => exact Call.Keeps.pure _
  | some pending =>
      apply Call.Keeps.bind (Call.Keeps.lift _)
      intro capsule
      apply Call.Keeps.bind (Call.Keeps.lift _)
      intro wrapped
      exact Call.Keeps.pure _

/-- Sealing keeps an archive that can be written. -/
theorem seal_sound
    (plain : Bytes)
    (nowSecs : Nat)
    (binding : Option Binding)
    (draw : Braid.Draw) :
    Call.Keeps Archive.Sound (Archive.seal plain nowSecs binding draw) := by
  intro archive sound
  cases isCurrent : archive.current with
  | none =>
      simp only [Archive.seal, isCurrent]
      constructor
      · rintro _ _ ⟨⟩
      · rintro _ _ ⟨⟩
        exact sound
  | some current =>
      have kept := sealWithState_sound plain nowSecs binding draw current
        (sound current isCurrent)
      simp only [Archive.seal, isCurrent]
      constructor
      · intro message after ran
        obtain ⟨returned, rfl⟩ := Prod.mk.inj ran
        rintro _ ⟨⟩
        exact kept.1 message _ (Prod.ext returned rfl)
      · intro fault after ran
        obtain ⟨failed, rfl⟩ := Prod.mk.inj ran
        rintro _ ⟨⟩
        exact kept.2 fault _ (Prod.ext failed rfl)

end Sealing

/-! ## Every archive the engine leads to -/

section Reach

variable [Hashes] [Curves] [Aes] [Kem] [Capsules]

/--
The archives that the engine's operations lead to, from an empty one or from
any record that parses.  An operation ends with a result or with an error.
-/
inductive Reached : Archive → Prop
  | empty :
      Reached Archive.empty
  | parsed
      {data : Bytes}
      {archive : Archive} :
      Archive.parse data = .ok archive →
      Reached archive
  | starts
      {archive after : Archive}
      {result : Outcome EngineError Unit}
      (draws : StartDraws)
      (us : IdentityPair)
      {ourRegistrationId nowSecs : Nat}
      {published : Bundle.Published} :
      Reached archive →
      ourRegistrationId < 2 ^ 32 →
      published.Fits →
      nowSecs < 2 ^ 64 →
      start draws us ourRegistrationId published nowSecs archive =
        (result, after) →
      result ≠ .trap →
      Reached after
  | seals
      {archive after : Archive}
      {result : Outcome EngineError Sealed}
      (plain : Bytes)
      (nowSecs : Nat)
      (binding : Option Binding)
      (draw : Braid.Draw) :
      Reached archive →
      archive.seal plain nowSecs binding draw = (result, after) →
      result ≠ .trap →
      Reached after
  | opensWhisper
      {archive after : Archive}
      {result : Outcome Fault Bytes}
      (draws : Nat → Block 32)
      (message : Whisper)
      (binding : Option Binding) :
      Reached archive →
      openWhisper draws message binding archive = (result, after) →
      result ≠ .trap →
      Reached after
  | opensFirst
      {archive after : Archive}
      {result : Outcome EngineError Opened}
      (draws : Nat → Block 32)
      (us : IdentityPair)
      {ourRegistrationId : Nat}
      {first : Opener}
      {offered : Offered}
      (binding : Option Binding) :
      Reached archive →
      ourRegistrationId < 2 ^ 32 →
      first.registrationId < 2 ^ 32 →
      offered.Clamped →
      openFirst draws us ourRegistrationId first offered binding archive =
        (result, after) →
      result ≠ .trap →
      Reached after

/-- Every archive that is reached can be written. -/
theorem Reached.sound
    {archive : Archive}
    (reached : Reached archive) :
    archive.Sound := by
  induction reached with
  | empty =>
      rintro _ ⟨⟩
  | parsed isParsed =>
      exact Archive.parse_sound isParsed
  | starts draws us _ ours theirs now ran noTrap before =>
      exact (start_sound draws ours theirs now).ends before ran noTrap
  | seals plain nowSecs binding draw _ ran noTrap before =>
      exact (seal_sound plain nowSecs binding draw).ends before ran noTrap
  | opensWhisper draws message binding _ ran noTrap before =>
      exact (openWithArchive_sound draws message binding).ends before ran noTrap
  | opensFirst draws us binding _ ours theirs clamped ran noTrap before =>
      exact (openFirst_sound draws binding clamped ours theirs).ends before ran
        noTrap

/--
States and archives survive their records, what a parser returns is written as
a record that parses to it again, and the engine leads only to such archives.
-/
theorem session_records_survive :
    (∀ state : State,
      state.Sound →
      state.serialize.length < 2 ^ 64 →
        State.parse state.serialize = .ok state) ∧
    (∀ archive : Archive,
      archive.Sound →
      archive.serialize.length < 2 ^ 64 →
        Archive.parse archive.serialize = .ok archive) ∧
    (∀ (data : Bytes) (state : State),
      State.parse data = .ok state →
      state.serialize.length < 2 ^ 64 →
        ∃ again,
          State.parse state.serialize = .ok again ∧
            again.serialize = state.serialize) ∧
    ∀ archive : Archive, Reached archive → archive.Sound := by
  refine ⟨?_, ?_, ?_, fun _ => Reached.sound⟩
  · intro state sound short
    exact State.parse_serialize sound.fits sound.keyed short
  · intro archive sound short
    exact Archive.parse_serialize sound short
  · intro data state parsed short
    have sound := State.parse_sound parsed
    exact ⟨state, State.parse_serialize sound.fits sound.keyed short, rfl⟩

end Reach

section Witness

open Sample

/-- The ratchet key of the sample state. -/
private def writtenRatchet : Curve.Public :=
  ⟨Block.fill 32 9⟩

/-- Both kinds of skipped keys, with the handshake still pending. -/
private def writtenState : State :=
  let state :=
    State.init 4 ⟨Block.fill 32 1⟩ ⟨Block.fill 32 2⟩ (Block.zero 32) [5] [6]
  let state := state.addReceiving writtenRatchet ⟨Block.fill 32 7, 3⟩
  let state :=
    state.changeLane writtenRatchet fun lane =>
      { lane with
        skipped :=
          [.seed (Block.fill 32 8) 2,
            .keys ⟨Block.fill 32 1, Block.fill 32 2, Block.fill 16 3, 0⟩] }
  let state :=
    state.setSending
      ⟨⟨Block.fill 32 3⟩, Curve.Secret.fromRaw (Block.fill 32 4)⟩
      ⟨Block.fill 32 5, 0⟩
  let state := state.setPending (some 0) 12 ⟨Block.fill 32 6⟩ 1000
  state.setPendingCapsule 0 [8, 9]

private theorem writtenState_sound : writtenState.Sound := by
  apply State.Sound.setPendingCapsule _ (by decide)
  apply State.Sound.setPending _ (by simp) (by decide) (by decide)
  apply State.Sound.setSending _ (Curve.Secret.clamped_fromRaw _)
    (Chain.fits_zero _)
  apply State.Sound.changeLane _ (by simp)
  · intro lane _ fits
    refine ⟨fits.chain, ?_⟩
    simp only [List.mem_cons, List.not_mem_nil, or_false]
    rintro _ (rfl | rfl) <;> simp [Slot.Fits, Slot.index]
  · apply State.Sound.addReceiving
    · exact State.sound_init _ _ _ _ _ (by decide)
    · simp [Chain.Fits]

/-- An archive whose shelved records need not parse. -/
private def writtenArchive : Archive :=
  ⟨some writtenState, [[1, 2], [], [3]]⟩

set_option maxRecDepth 100000 in
private theorem writtenArchive_short :
    writtenArchive.serialize.length < 2 ^ 64 := by
  decide

/-- An archive with a live state and three records that need not parse. -/
theorem session_records_survive_oneArchive :
    Archive.parse writtenArchive.serialize = .ok writtenArchive := by
  apply (@session_records_survive hashes curves aes kem capsules).2.1
  · rintro _ ⟨⟩
    exact writtenState_sound
  · exact writtenArchive_short

end Witness

end Ratchet

end Gossveil
