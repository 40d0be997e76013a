import Gossveil.PostRoundTrip
import Gossveil.SealTotality
import Gossveil.SessionReach

namespace Gossveil.Ratchet

/-!
# What the keys of a message are computed from

A message is sealed and opened under keys that come from a chain's seed and a
key of the post-quantum ratchet; its tag comes from one of these keys, both
identity keys and the content.
-/

/-- What the keys and the tag of one message are computed from. -/
structure MessageInputs where
  seed : Block 32
  pqKey : Option (Block 32)
  sender : Curve.Public
  recipient : Curve.Public
  content : Bytes
  deriving DecidableEq

namespace MessageInputs

variable [Hashes]

/-- The keys that these inputs give. -/
def keys (inputs : MessageInputs) : Derive.MessageKeys :=
  Derive.messageKeys inputs.seed inputs.pqKey

/-- The tag that these inputs give. -/
def tag (inputs : MessageInputs) : Block 8 :=
  Whisper.tag inputs.sender inputs.recipient inputs.keys.mac inputs.content

end MessageInputs

/-- Different inputs in use give different authentication keys and tags. -/
structure Separates [Hashes] (InUse : MessageInputs → Prop) : Prop where
  derivations :
    ∀ first second, InUse first → InUse second →
      first.keys.mac = second.keys.mac →
        first.seed = second.seed ∧ first.pqKey = second.pqKey
  tags :
    ∀ first second, InUse first → InUse second →
      first.tag = second.tag →
        first.keys.mac = second.keys.mac ∧ first.content = second.content

/-- Inputs with one tag have the same keys. -/
theorem Separates.keys_eq
    [Hashes]
    {InUse : MessageInputs → Prop}
    (separates : Separates InUse)
    {first second : MessageInputs}
    (firstInUse : InUse first)
    (secondInUse : InUse second)
    (same : first.tag = second.tag) :
    first.keys = second.keys := by
  obtain ⟨sameMac, _⟩ := separates.tags first second firstInUse secondInUse same
  obtain ⟨sameSeed, sameKey⟩ :=
    separates.derivations first second firstInUse secondInUse sameMac
  rw [MessageInputs.keys, MessageInputs.keys, sameSeed, sameKey]

/-! ## Sealing -/

section Sealing

variable [Hashes] [Aes] [Kem]

/-- What the message a state would seal is computed from. -/
def State.sealInputs
    (plain : Bytes)
    (binding : Option Binding)
    (draw : Braid.Draw)
    (state : State) :
    Option MessageInputs :=
  match state.sending, PqRecord.send state.pqState draw with
  | some lane, .ok sent =>
      some ⟨Derive.chainSeed lane.chain.key, sent.key, state.localKey,
        state.remoteKey, (sealParts plain binding state lane sent).content⟩
  | _, _ => none

/-- A live state whose seals leave it advanced or as it was. -/
structure State.Sealable (state : State) : Prop where
  sound : state.Sound
  version : state.version = currentVersion
  complete : state.pending = none ∨ state.pendingCapsule ≠ none
  capsule :
    ∀ pending, state.pendingCapsule = some pending →
      pending.capsule.length ≤ PostQuantum.serializedCapsuleLength

/-- A message was sealed by a state, which has moved on. -/
structure SealedBy
    (plain : Bytes)
    (binding : Option Binding)
    (draw : Braid.Draw)
    (state : State)
    (lane : Lane)
    (sent : PqRecord.Sent)
    (inner : Whisper)
    (message : Sealed)
    (after : State) :
    Prop where
  isSending : state.sending = some lane
  sends : PqRecord.send state.pqState draw = .ok sent
  room : lane.chain.index + 1 < 2 ^ 32
  made :
    Whisper.MadeFrom (sealParts plain binding state lane sent) inner
  short : inner.bytes.length ≤ plain.length + 400
  after_eq : after = state.advanced lane sent.state
  finishes : finished state.version inner after = .ok message

variable
  {plain : Bytes}
  {nowSecs : Nat}
  {binding : Option Binding}
  {draw : Braid.Draw}
  {state after : State}
  {lane : Lane}
  {sent : PqRecord.Sent}
  {inner : Whisper}
  {message : Sealed}

/-- What a sealed message was made from. -/
theorem SealedBy.sealInputs_eq
    (sealed :
      SealedBy plain binding draw state lane sent inner message after) :
    state.sealInputs plain binding draw =
      some ⟨Derive.chainSeed lane.chain.key, sent.key, state.localKey,
        state.remoteKey,
        (sealParts plain binding state lane sent).content⟩ := by
  simp only [State.sealInputs, sealed.isSending, sealed.sends]

/-- A message that seals is made and parses back. -/
theorem State.Sealable.made
    (sealable : state.Sealable)
    (room : plain.length + 4096 < 2 ^ 64)
    (isSending : state.sending = some lane)
    (sends : PqRecord.send state.pqState draw = .ok sent) :
    ∃ inner,
      Whisper.MadeFrom (sealParts plain binding state lane sent) inner ∧
        inner.bytes.length ≤ plain.length + 400 := by
  have known : Frame.Known state.version := by
    rw [sealable.version]
    exact Or.inr rfl
  obtain ⟨inner, built, short⟩ :=
    @seal_sealParts _ _ _ plain binding draw state lane sent sealable.sound
      (by omega) isSending sends known
  have fits : (sealParts plain binding state lane sent).Fits := by
    refine ⟨(sealable.sound.fits.sending lane isSending).chain,
      sealable.sound.fits.previousIndex, ?_⟩
    have contentLength :=
      (sealParts plain binding state lane sent).length_content_le
    have packetLength :
        (sealParts plain binding state lane sent).pqPacket.length ≤ 64 :=
      PqRecord.length_packet_le sends
    have bodyLength :
        (sealParts plain binding state lane sent).body.length ≤
          plain.length + 16 := by
      simp only [sealParts, Cipher.length_cbcSeal]
      omega
    omega
  obtain ⟨again, made⟩ :=
    Whisper.exists_madeFrom fits (Or.inr sealable.version)
  obtain rfl := Outcome.ok.inj (built.symm.trans made.built)
  exact ⟨inner, made, short⟩

/-- A seal up to its message, once the ratchet has sent. -/
theorem State.Sealable.writes
    (sealable : state.Sealable)
    (fresh : state.canSendAt nowSecs = .ok true)
    (isSending : state.sending = some lane)
    (sends : PqRecord.send state.pqState draw = .ok sent)
    (made :
      Whisper.MadeFrom (sealParts plain binding state lane sent) inner) :
    sealWithState plain nowSecs binding draw state =
      sealWritten state.version lane inner (state.setPqState sent.state)
        (state.setPqState sent.state) := by
  obtain ⟨secret, isSecret⟩ :=
    Option.ne_none_iff_exists'.mp
      (sealable.sound.keyed.carries lane isSending)
  have isByte :
      (Outcome.intCast 8 state.version : Outcome Fault Nat) =
        .ok state.version := by
    rw [sealable.version]
    rfl
  rw [@sealWithState_sent _ _ _ plain nowSecs binding draw state lane secret
      sent fresh isSending isSecret sends,
    Call.bind_of_ok (by rw [liftM_fault_apply, isByte]; rfl)]
  exact Call.bind_of_ok (by
    rw [liftM_fault_apply]
    exact congrArg (fun made => (Outcome.mapError EngineError.fault made, _))
      made.built)

/-- A seal with a chain that has room returns, once the ratchet has sent. -/
theorem State.Sealable.seals
    (sealable : state.Sealable)
    (room : plain.length + 4096 < 2 ^ 64)
    (fresh : state.canSendAt nowSecs = .ok true)
    (isSending : state.sending = some lane)
    (chainRoom : lane.chain.index + 1 < 2 ^ 32)
    (sends : PqRecord.send state.pqState draw = .ok sent) :
    ∃ inner message,
      sealWithState plain nowSecs binding draw state =
          (.ok message, state.advanced lane sent.state) ∧
        SealedBy plain binding draw state lane sent inner message
          (state.advanced lane sent.state) := by
  obtain ⟨inner, made, short⟩ :=
    @State.Sealable.made _ _ _ plain binding draw state lane sent sealable room
      isSending sends
  have known : Frame.Known state.version := by
    rw [sealable.version]
    exact Or.inr rfl
  obtain ⟨message, finishes⟩ :=
    @finished_ok (state.advanced lane sent.state) inner
      PostQuantum.serializedCapsuleLength
      (sealable.sound.advanced isSending chainRoom) sealable.capsule
      (by
        simp only [PostQuantum.serializedCapsuleLength,
          PostQuantum.capsuleLength]
        omega)
      known sealable.complete
  refine ⟨inner, message, ?_,
    isSending, sends, chainRoom, made, short, rfl, finishes⟩
  rw [sealable.writes fresh isSending sends made,
    sealWritten_advanced chainRoom isSending]
  exact congrArg (fun made => (Outcome.mapError EngineError.fault made, _))
    finishes

/-- A seal that ends returns a message and moves on, or changes nothing. -/
theorem State.Sealable.ends
    {result : Outcome EngineError Sealed}
    (sealable : state.Sealable)
    (room : plain.length + 4096 < 2 ^ 64)
    (ran :
      sealWithState plain nowSecs binding draw state = (result, after))
    (returns : result ≠ .trap) :
    (∃ error, result = .error error ∧ after = state) ∨
      ∃ message lane sent inner,
        result = .ok message ∧
          SealedBy plain binding draw state lane sent inner message after := by
  rcases may : state.canSendAt nowSecs with (_ | _) | fault | _
  · rw [sealWithState_stale may] at ran
    cases ran
    exact Or.inl ⟨_, rfl, rfl⟩
  · obtain ⟨lane, isSending⟩ := State.sending_of_canSendAt may
    by_cases sends : ∃ sent, PqRecord.send state.pqState draw = .ok sent
    · obtain ⟨sent, isSent⟩ := sends
      by_cases chainRoom : lane.chain.index + 1 < 2 ^ 32
      · obtain ⟨inner, message, sealing, sealed⟩ :=
          @State.Sealable.seals _ _ _ plain nowSecs binding draw state lane
            sent sealable room may isSending chainRoom isSent
        obtain ⟨rfl, rfl⟩ := Prod.mk.inj (sealing.symm.trans ran)
        exact Or.inr ⟨message, lane, sent, inner, rfl, sealed⟩
      · obtain ⟨inner, made, _⟩ :=
          @State.Sealable.made _ _ _ plain binding draw state lane sent sealable
            room isSending isSent
        rw [sealable.writes may isSending isSent made,
          sealWritten_spent (Nat.not_lt.mp chainRoom)] at ran
        cases ran
        exact absurd rfl returns
    · push Not at sends
      rcases @sealWithState_unsent _ _ _ plain _ binding _ _ may sends with
        ⟨_, ends⟩ | ⟨_, error, ends⟩
      · obtain ⟨rfl, rfl⟩ := Prod.mk.inj (ends.symm.trans ran)
        exact absurd rfl returns
      · obtain ⟨rfl, rfl⟩ := Prod.mk.inj (ends.symm.trans ran)
        exact Or.inl ⟨error, rfl, rfl⟩
  · exact absurd may (state.canSendAt_ne_error nowSecs fault)
  · rw [sealWithState_stampTrap may] at ran
    cases ran
    exact absurd rfl returns

end Sealing

/-! ## Skipped keys are seeds -/

/-- Every skipped key of a receiving lane is a seed. -/
def State.Seeded (state : State) : Prop :=
  ∀ lane ∈ state.receiving, ∀ slot ∈ lane.skipped,
    ∃ value index, slot = .seed value index

namespace State.Seeded

variable {state after : State} {theirRatchet : Curve.Public}

/-- Changing a lane keeps seeds when the change does. -/
theorem changeLane
    {change : Lane → Lane}
    (seeded : state.Seeded)
    (keeps :
      ∀ lane ∈ state.receiving, ∀ slot ∈ (change lane).skipped,
        ∃ value index, slot = .seed value index) :
    (state.changeLane theirRatchet change).Seeded := by
  intro lane member slot isSlot
  obtain ⟨old, isOld, rfl | rfl⟩ := State.mem_changeLane member
  · exact seeded _ isOld slot isSlot
  · exact keeps old isOld slot isSlot

/-- A new lane keeps nothing yet. -/
theorem addReceiving
    (seeded : state.Seeded)
    (chain : Chain) :
    (state.addReceiving theirRatchet chain).Seeded := by
  intro lane member
  have inside :
      lane ∈ state.receiving ∨ lane = ⟨theirRatchet, none, chain, []⟩ := by
    simp only [State.addReceiving] at member
    split_ifs at member
    · simpa using List.mem_of_mem_tail member
    · simpa using member
  rcases inside with old | rfl
  · exact seeded lane old
  · simp

/-- A kept slot is a seed, and the others stay seeds. -/
theorem takeSkipped
    {index : Nat}
    {slot : Slot}
    (seeded : state.Seeded)
    (takes : state.takeSkipped theirRatchet index = some (slot, after)) :
    (∃ value index, slot = .seed value index) ∧ after.Seeded := by
  simp only [State.takeSkipped, Option.bind_eq_bind,
    Option.bind_eq_some_iff, Option.pure_def, Option.some.injEq,
    Prod.mk.injEq] at takes
  obtain ⟨lane, isLane, _, isSlot, rfl, rfl⟩ := takes
  constructor
  · exact seeded lane (List.mem_of_find?_eq_some isLane) _
      (List.mem_of_find?_eq_some isSlot)
  · apply seeded.changeLane
    intro other member kept isKept
    exact seeded other member kept (List.mem_of_mem_eraseP isKept)

/-- Keeping a seed keeps seeds. -/
theorem keepSkipped
    {slot : Slot}
    (seeded : state.Seeded)
    (isSeed : ∃ value index, slot = .seed value index)
    (keeps : state.keepSkipped theirRatchet slot = .ok after) :
    after.Seeded := by
  obtain ⟨lane, isLane, done⟩ := Outcome.bind_eq_ok.mp keeps
  cases done
  have member : lane ∈ state.receiving :=
    List.mem_of_find?_eq_some (Outcome.ofOption_eq_ok.mp isLane)
  have allSeeds :
      ∀ kept ∈ slot :: lane.skipped, ∃ value index, kept = .seed value index := by
    intro kept isKept
    rcases List.mem_cons.mp isKept with rfl | old
    · exact isSeed
    · exact seeded lane member kept old
  apply seeded.changeLane
  intro other _ kept isKept
  simp only at isKept
  split_ifs at isKept
  · exact allSeeds kept (List.mem_of_mem_dropLast isKept)
  · exact allSeeds kept isKept

end State.Seeded

/-! ## Opening, up to the tag -/

section Opening

variable [Hashes] [Curves] [Kem]

/-- `openWithState` up to the tag: the message's slot and post-quantum key. -/
def keysFor
    (draw : Block 32)
    (message : Whisper)
    (binding : Option Binding) :
    Call State Fault (Slot × Option (Block 32)) := do
  let state ← Call.get
  Outcome.require Fault.badMessage (state.canSend = true)
  Outcome.require Fault.unknownVersion (message.version = state.version)
  Outcome.require Fault.badMessage (message.checkBinding binding = true)
  let chain ← laneChain message.ratchet draw
  let slot ← slotFor message.ratchet chain message.index
  let state ← Call.get
  let received ←
    (PqRecord.receive state.pqState message.pqPacket).orElseFault
      Fault.badMessage
  Call.modify fun state => state.setPqState received.state
  return (slot, received.key)

/-- What the tag of a message is checked with, if opening comes that far. -/
def State.openInputs
    (draw : Block 32)
    (message : Whisper)
    (binding : Option Binding)
    (state : State) :
    Option MessageInputs :=
  match keysFor draw message binding state with
  | (.ok (.seed seed _, pqKey), reached) =>
      some ⟨seed, pqKey, reached.remoteKey, reached.localKey,
        message.bytes.take (message.bytes.length - macLength)⟩
  | _ => none

section Ends

variable
  {draw : Block 32}
  {message : Whisper}
  {binding : Option Binding}
  {state reached after : State}
  {slot : Slot}
  {pqKey : Option (Block 32)}
  {plain : Bytes}

/-- The rest of an opening checks the tag and decrypts. -/
theorem openWithState_eq_ok
    [Aes] :
    openWithState draw message binding state = (.ok plain, after) ↔
      ∃ slot pqKey reached,
        keysFor draw message binding state = (.ok (slot, pqKey), reached) ∧
          message.checkMac reached.remoteKey reached.localKey
              (slot.openKeys pqKey).mac = true ∧
          Cipher.cbcOpen (slot.openKeys pqKey).cipher
              (slot.openKeys pqKey).iv message.body = .ok plain ∧
          after = reached.clearPending := by
  unfold openWithState keysFor
  constructor
  · intro opened
    obtain ⟨first, _, isFirst, opened⟩ := Call.bind_eq_ok.mp opened
    obtain ⟨canSend, _, isCanSend, opened⟩ := Call.bind_eq_ok.mp opened
    obtain ⟨version, _, isVersion, opened⟩ := Call.bind_eq_ok.mp opened
    obtain ⟨bound, _, isBound, opened⟩ := Call.bind_eq_ok.mp opened
    obtain ⟨chain, _, isChain, opened⟩ := Call.bind_eq_ok.mp opened
    obtain ⟨slot, _, isSlot, opened⟩ := Call.bind_eq_ok.mp opened
    obtain ⟨second, _, isSecond, opened⟩ := Call.bind_eq_ok.mp opened
    obtain ⟨received, _, isReceived, opened⟩ := Call.bind_eq_ok.mp opened
    obtain ⟨_, reached, isReached, opened⟩ := Call.bind_eq_ok.mp opened
    obtain ⟨third, _, isThird, opened⟩ := Call.bind_eq_ok.mp opened
    obtain ⟨_, _, isChecked, opened⟩ := Call.bind_eq_ok.mp opened
    obtain ⟨text, _, isText, opened⟩ := Call.bind_eq_ok.mp opened
    obtain ⟨_, _, isCleared, done⟩ := Call.bind_eq_ok.mp opened
    cases isThird
    obtain ⟨isRequired, rfl⟩ := Prod.mk.inj isChecked
    obtain ⟨isDecrypted, rfl⟩ := Prod.mk.inj isText
    cases isCleared
    cases done
    refine ⟨slot, received.key, reached, ?_,
      Outcome.require_eq_ok.mp isRequired, isDecrypted, rfl⟩
    rw [Call.bind_of_ok isFirst, Call.bind_of_ok isCanSend,
      Call.bind_of_ok isVersion, Call.bind_of_ok isBound,
      Call.bind_of_ok isChain, Call.bind_of_ok isSlot,
      Call.bind_of_ok isSecond, Call.bind_of_ok isReceived,
      Call.bind_of_ok isReached]
    rfl
  · rintro ⟨slot, pqKey, reached, derived, checked, decrypts, rfl⟩
    obtain ⟨first, _, isFirst, derived⟩ := Call.bind_eq_ok.mp derived
    obtain ⟨canSend, _, isCanSend, derived⟩ := Call.bind_eq_ok.mp derived
    obtain ⟨version, _, isVersion, derived⟩ := Call.bind_eq_ok.mp derived
    obtain ⟨bound, _, isBound, derived⟩ := Call.bind_eq_ok.mp derived
    obtain ⟨chain, _, isChain, derived⟩ := Call.bind_eq_ok.mp derived
    obtain ⟨slot', _, isSlot, derived⟩ := Call.bind_eq_ok.mp derived
    obtain ⟨second, _, isSecond, derived⟩ := Call.bind_eq_ok.mp derived
    obtain ⟨received, _, isReceived, derived⟩ := Call.bind_eq_ok.mp derived
    obtain ⟨_, _, isReached, done⟩ := Call.bind_eq_ok.mp derived
    cases done
    rw [Call.bind_of_ok isFirst, Call.bind_of_ok isCanSend,
      Call.bind_of_ok isVersion, Call.bind_of_ok isBound,
      Call.bind_of_ok isChain, Call.bind_of_ok isSlot,
      Call.bind_of_ok isSecond, Call.bind_of_ok isReceived,
      Call.bind_of_ok isReached, Call.bind_of_ok (Call.get_apply _),
      Call.bind_of_ok (by
        rw [Call.lift_apply, Outcome.require_of checked]),
      Call.bind_of_ok (by rw [Call.lift_apply, decrypts]),
      Call.bind_of_ok (Call.modify_apply _ _)]
    rfl

/-- What turning and skipping leave of a state, on the way to the tag. -/
structure Midway (before after : State) : Prop where
  pqState : after.pqState = before.pqState
  pending : after.pending = before.pending
  seeded : after.Seeded

/-- No promise about the states that are no longer kept. -/
private abbrev Forgotten : State → Prop :=
  fun _ => True

omit [Curves] [Kem] in
/-- Walking a lane changes nothing but its lane. -/
theorem keepUpTo_midway
    (before : State)
    (theirRatchet : Curve.Public)
    (count : Nat)
    (chain : Chain) :
    Call.Triple (Midway before) (keepUpTo theirRatchet count chain)
      (fun _ state => Midway before state) Forgotten := by
  induction count generalizing chain with
  | zero => exact Call.Triple.pure fun _ => id
  | succ count inductionHypothesis =>
      apply Call.Triple.read
      intro state midway
      apply Call.Triple.lift_bind fun _ _ => trivial
      intro kept isKept
      have keptMidway : Midway before kept := by
        have seeded := midway.seeded.keepSkipped ⟨_, _, rfl⟩ isKept
        obtain ⟨_, _, done⟩ := Outcome.bind_eq_ok.mp isKept
        cases done
        exact ⟨midway.pqState, midway.pending, seeded⟩
      apply Call.Triple.set_bind keptMidway
      apply Call.Triple.lift_bind fun _ _ => trivial
      intro next _
      exact inductionHypothesis next

omit [Curves] [Kem] in
/-- Serving a slot changes nothing but its lane. -/
theorem slotFor_midway
    (before : State)
    (theirRatchet : Curve.Public)
    (chain : Chain)
    (index : Nat) :
    Call.Triple (Midway before) (slotFor theirRatchet chain index)
      (fun slot state =>
        (∃ value index, slot = .seed value index) ∧ Midway before state)
      Forgotten := by
  apply Call.Triple.read
  intro state midway
  by_cases behind : index < chain.index
  · simp only [if_pos behind]
    apply Call.Triple.lift_bind fun _ _ => trivial
    rintro ⟨slot, after⟩ isTaken
    have takes := Outcome.ofOption_eq_ok.mp isTaken
    obtain ⟨isSeed, seeded⟩ := midway.seeded.takeSkipped takes
    have afterMidway : Midway before after := by
      simp only [State.takeSkipped, Option.bind_eq_bind,
        Option.bind_eq_some_iff, Option.pure_def, Option.some.injEq,
        Prod.mk.injEq] at takes
      obtain ⟨_, _, _, _, _, rfl⟩ := takes
      exact ⟨midway.pqState, midway.pending, seeded⟩
    exact Call.Triple.set_bind afterMidway
      (Call.Triple.pure fun _ kept => ⟨isSeed, kept⟩)
  · simp only [if_neg behind]
    apply Call.Triple.lift_bind fun _ _ => trivial
    intro _ _
    refine Call.Triple.weaken (Call.Triple.bind _
      (keepUpTo_midway before theirRatchet _ _) ?_)
        fun _ isState => isState ▸ midway
    intro last
    apply Call.Triple.lift_bind fun _ _ => trivial
    intro next _
    apply Call.Triple.read
    intro current currentMidway
    apply Call.Triple.lift_bind fun _ _ => trivial
    intro _ _
    have changed :
        Midway before
          (current.changeLane theirRatchet fun lane =>
            { lane with chain := next }) :=
      ⟨currentMidway.pqState, currentMidway.pending,
        currentMidway.seeded.changeLane currentMidway.seeded⟩
    exact Call.Triple.set_bind changed
      (Call.Triple.pure fun _ kept => ⟨⟨_, _, rfl⟩, kept⟩)

omit [Kem] in
/-- Finding a lane adds one at most. -/
theorem laneChain_midway
    (before : State)
    (theirRatchet : Curve.Public)
    (draw : Block 32) :
    Call.Triple (Midway before) (laneChain theirRatchet draw)
      (fun _ state => Midway before state) Forgotten := by
  unfold laneChain
  apply Call.Triple.readAny
  intro state _
  cases state.receivingLane theirRatchet with
  | some lane => exact Call.Triple.pure fun _ => id
  | none =>
      iterate 4
        apply Call.Triple.lift_bind fun _ _ => trivial
        intro _ _
      have keeps :
          ∀ change : State → State,
            (∀ state, (change state).pqState = state.pqState) →
            (∀ state, (change state).pending = state.pending) →
            (∀ state, state.Seeded → (change state).Seeded) →
            ∀ state, Midway before state → Midway before (change state) :=
        fun change pqState pending seeded state midway =>
          ⟨(pqState state).trans midway.pqState,
            (pending state).trans midway.pending,
            seeded state midway.seeded⟩
      apply Call.Triple.bind fun _ => Midway before
      · apply Call.Triple.modify
        exact keeps _ (fun _ => rfl) (fun _ => rfl) fun _ => id
      intro _
      apply Call.Triple.bind fun _ => Midway before
      · apply Call.Triple.modify
        exact keeps _ (fun _ => rfl) (fun _ => rfl) fun _ seeded =>
          seeded.addReceiving _
      intro _
      apply Call.Triple.readAny
      intro _ _
      apply Call.Triple.lift_bind fun _ _ => trivial
      intro _ _
      apply Call.Triple.bind fun _ => Midway before
      · apply Call.Triple.modify
        exact keeps _ (fun _ => rfl) (fun _ => rfl) fun _ => id
      intro _
      apply Call.Triple.bind fun _ => Midway before
      · apply Call.Triple.modify
        exact keeps _ (fun _ => rfl) (fun _ => rfl) fun _ => id
      intro _
      exact Call.Triple.pure fun _ => id

/-- The keys come from a seed of the state and from its post-quantum record. -/
structure KeysFrom
    (state : State)
    (message : Whisper)
    (slot : Slot)
    (pqKey : Option (Block 32))
    (reached : State) :
    Prop where
  isSeed : ∃ value index, slot = .seed value index
  receives :
    PqRecord.receive state.pqState message.pqPacket =
      .ok ⟨reached.pqState, pqKey⟩
  pending : reached.pending = state.pending
  seeded : reached.Seeded

/-- Keys are derived from the lane and the post-quantum record. -/
theorem keysFor_keysFrom
    (seeded : state.Seeded)
    (derived :
      keysFor draw message binding state = (.ok (slot, pqKey), reached)) :
    KeysFrom state message slot pqKey reached := by
  have triple :
      Call.Triple (fun current => Midway state current)
        (keysFor draw message binding)
        (fun result reached =>
          KeysFrom state message result.1 result.2 reached)
        Forgotten := by
    unfold keysFor
    apply Call.Triple.readAny
    intro _ _
    iterate 3
      apply Call.Triple.lift_bind fun _ _ => trivial
      intro _ _
    apply Call.Triple.bind _ (laneChain_midway state message.ratchet draw)
    intro chain
    apply Call.Triple.bind_given
      (slotFor_midway state message.ratchet chain message.index)
    intro slot isSeed
    apply Call.Triple.read
    intro current midway
    apply Call.Triple.lift_bind fun _ _ => trivial
    intro received isReceived
    have receives := Outcome.orElseFault_eq_ok.mp isReceived
    rw [midway.pqState] at receives
    apply Call.Triple.bind
      (fun _ reached => KeysFrom state message slot received.key reached)
    · apply Call.Triple.modify
      rintro _ rfl
      exact ⟨isSeed, receives, midway.pending, midway.seeded⟩
    · intro _
      exact Call.Triple.pure fun _ => id
  exact (triple state ⟨rfl, rfl, seeded⟩).1 (slot, pqKey) reached derived

omit [Curves] [Kem] in
/-- The tag that is checked is the one of the inputs. -/
theorem checkMac_iff_tag
    (message : Whisper)
    (sender recipient : Curve.Public)
    (seed : Block 32)
    (pqKey : Option (Block 32)) :
    message.checkMac sender recipient (Derive.messageKeys seed pqKey).mac =
        true ↔
      (⟨seed, pqKey, sender, recipient,
        message.bytes.take (message.bytes.length - macLength)⟩ :
          MessageInputs).tag =
        Block.last 8 message.bytes
          (Nat.le_trans (Nat.le_add_left 8 1) message.longEnough) := by
  rw [Whisper.checkMac, decide_eq_true_iff]
  rfl

/-- What an opening that succeeds does to a state. -/
structure OpensTo
    (message : Whisper)
    (state after : State) :
    Prop where
  receives :
    ∃ pqKey,
      PqRecord.receive state.pqState message.pqPacket =
        .ok ⟨after.pqState, pqKey⟩
  pending : after.pending = none
  pendingCapsule : after.pendingCapsule = none
  seeded : after.Seeded
  same : SameSession state after

/-- What a message opens to was derived from its keys. -/
theorem opensTo_of_ok
    [Aes]
    (seeded : state.Seeded)
    (opens : openWithState draw message binding state = (.ok plain, after)) :
    OpensTo message state after := by
  obtain ⟨slot, pqKey, reached, derived, _, _, rfl⟩ :=
    openWithState_eq_ok.mp opens
  have keys := keysFor_keysFrom seeded derived
  exact ⟨⟨pqKey, keys.receives⟩, rfl, rfl, keys.seeded,
    openWithState_same opens⟩

/-- What was sealed is what is opened. -/
theorem Separates.opens_plain
    [Aes]
    {InUse : MessageInputs → Prop}
    {text : Bytes}
    {sealBinding : Option Binding}
    {sealer : State}
    {lane : Lane}
    {sent : PqRecord.Sent}
    {sealed : MessageInputs}
    (separates : Separates InUse)
    (correct : Cipher.AesCorrect)
    (made :
      Whisper.MadeFrom (sealParts text sealBinding sealer lane sent) message)
    (isSealed : sealed = ⟨Derive.chainSeed lane.chain.key, sent.key,
      sealer.localKey, sealer.remoteKey,
      (sealParts text sealBinding sealer lane sent).content⟩)
    (sealedInUse : InUse sealed)
    (openedInUse :
      ∀ inputs, state.openInputs draw message binding = some inputs →
        InUse inputs)
    (seeded : state.Seeded)
    (opens : openWithState draw message binding state = (.ok plain, after)) :
    plain = text := by
  obtain ⟨slot, pqKey, reached, derived, checked, decrypts, _⟩ :=
    openWithState_eq_ok.mp opens
  obtain ⟨value, index, rfl⟩ := (keysFor_keysFrom seeded derived).isSeed
  have isOpened :
      state.openInputs draw message binding =
        some ⟨value, pqKey, reached.remoteKey, reached.localKey,
          message.bytes.take (message.bytes.length - macLength)⟩ := by
    simp only [State.openInputs, derived]
  have openedTag := (checkMac_iff_tag message _ _ value pqKey).mp checked
  have content :
      message.bytes.take (message.bytes.length - macLength) =
        (sealParts text sealBinding sealer lane sent).content := by
    obtain ⟨trailer, shape, _⟩ := made.covered
    rw [shape]
    simp [macLength]
  have sealedTag :=
    (checkMac_iff_tag message _ _ (Derive.chainSeed lane.chain.key)
      sent.key).mp made.checks
  rw [content] at sealedTag
  subst isSealed
  have sameKeys :=
    separates.keys_eq sealedInUse (openedInUse _ isOpened)
      (sealedTag.trans openedTag.symm)
  have body :
      message.body =
        Cipher.cbcSeal (Derive.messageKeys value pqKey).cipher
          (Derive.messageKeys value pqKey).iv text := by
    rw [made.body]
    exact congrArg
      (fun keys : Derive.MessageKeys =>
        Cipher.cbcSeal keys.cipher keys.iv text) sameKeys
  rw [body] at decrypts
  exact Outcome.ok.inj
    (decrypts.symm.trans (Cipher.cbcOpen_cbcSeal correct _ _ text))

end Ends

end Opening

end Gossveil.Ratchet
