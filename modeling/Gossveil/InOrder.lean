import Gossveil.LaneTurns
import Gossveil.LosslessRuns
import Gossveil.SessionSafety

namespace Gossveil.Ratchet

open TwoParty DoubleRatchet

/-!
# Sessions whose messages arrive in order

A run of a session in which each side opens the messages of the other as they
were sealed, none lost and none twice, with seals and openings of both sides in
any order.  Neither ratchet has then a jump to make: every seal of a session
that is not stale returns, and every opening returns what was sealed.
-/

namespace Session

/-- The message a side opens next. -/
def next (session : Session) (side : Side) : Option (Bytes × Sealed) :=
  (session.sealed side.other)[(session.opened side).length]?

/-- The key a side would draw has no lane on the other side. -/
def Unused
    [Curves]
    (session : Session)
    (side : Side)
    (draw : Block 32) :
    Prop :=
  ∀ state fresh,
    (session.archive side.other).current = some state →
      Curve.Pair.fromSeed draw = .ok fresh →
        state.receivingLane fresh.publicKey = none

namespace InOrder

variable [Hashes] [Curves] [Aes] [Kem] [Capsules]

/--
One call that ends.  Sealing and opening are given the names of the side that
seals, or none.
-/
inductive Step
    (parties : Parties)
    (names : Side → Option Binding)
    (session : Session) :
    Session → Prop where
  | seals
      (side : Side)
      {plain : Bytes}
      {nowSecs : Nat}
      {given : Option Binding}
      {draw : Braid.Draw}
      {message : Sealed}
      {after : Archive}
      (room : plain.length + 4096 < 2 ^ 64)
      (isGiven : Given (names side) given)
      (ran :
        (session.archive side).seal plain nowSecs given draw =
          (.ok message, after)) :
      Step parties names session
        ((session.settle side after).logSealed side plain message)
  | sealFails
      (side : Side)
      {plain : Bytes}
      {nowSecs : Nat}
      {given : Option Binding}
      {draw : Braid.Draw}
      {error : EngineError}
      {after : Archive}
      (room : plain.length + 4096 < 2 ^ 64)
      (ran :
        (session.archive side).seal plain nowSecs given draw =
          (.error error, after)) :
      Step parties names session (session.settle side after)
  | opens
      (side : Side)
      {draws : Nat → Block 32}
      {given : Option Binding}
      {text : Bytes}
      {message : Sealed}
      {plain : Bytes}
      {after : Archive}
      (isNext : session.next side = some (text, message))
      (unused : session.Unused side (draws 0))
      (isGiven : Given (names side.other) given)
      (ran :
        parties.openSealed side draws given message (session.archive side) =
          (.ok plain, after)) :
      Step parties names session
        ((session.settle side after).logOpened side
          (session.opened side).length plain)
  | openFails
      (side : Side)
      {draws : Nat → Block 32}
      {given : Option Binding}
      {text : Bytes}
      {message : Sealed}
      {error : EngineError}
      {after : Archive}
      (isNext : session.next side = some (text, message))
      (unused : session.Unused side (draws 0))
      (isGiven : Given (names side.other) given)
      (ran :
        parties.openSealed side draws given message (session.archive side) =
          (.error error, after)) :
      Step parties names session (session.settle side after)

/-- The live states fit a slice, and the messages are few. -/
structure Within (session : Session) : Prop where
  short :
    ∀ side current, (session.archive side).current = some current →
      current.pqState.length < 2 ^ 64
  few :
    (session.sealed .initiator).length + (session.sealed .responder).length <
      2 ^ 31

/-- The sessions that runs from a start lead to. -/
inductive Reachable
    (parties : Parties)
    (names : Side → Option Binding)
    (archive : Archive) :
    Session → Prop where
  | init
      (within : Within (Session.init archive)) :
      Reachable parties names archive (Session.init archive)
  | step
      {session next : Session}
      (before : Reachable parties names archive session)
      (step : Step parties names session next)
      (within : Within next) :
      Reachable parties names archive next

/-- Every run stays within its bounds. -/
theorem Reachable.within
    {parties : Parties}
    {names : Side → Option Binding}
    {archive : Archive}
    {session : Session}
    (reachable : Reachable parties names archive session) :
    Within session := by
  cases reachable with
  | init within => exact within
  | step _ _ within => exact within

/-- What is promised of a session whose messages arrive in order. -/
structure Complete
    (parties : Parties)
    (names : Side → Option Binding)
    (session : Session) :
    Prop where
  /-- A seal returns while no handshake has gone stale. -/
  seals :
    ∀ side state plain nowSecs given draw,
      (session.archive side).current = some state →
      plain.length + 4096 < 2 ^ 64 →
      state.canSendAt nowSecs = .ok true →
      ∃ message after,
        (session.archive side).seal plain nowSecs given draw =
          (.ok message, after)
  /-- The next opening returns what was sealed. -/
  opens :
    ∀ side text message given draws,
      session.next side = some (text, message) →
      session.Unused side (draws 0) →
      Given (names side.other) given →
      ∃ after,
        parties.openSealed side draws given message (session.archive side) =
          (.ok text, after)
  /-- What was opened so far is what was sealed first, in its order. -/
  opened :
    ∀ side,
      (session.opened side).map Prod.snd <+:
        (session.sealed side.other).map Prod.fst

end InOrder

end Session

section Seats

variable [Hashes] [Curves] [Capsules]

/-- A side's state at one half of the double ratchet. -/
structure Stands
    (parties : Parties)
    (beginning : Beginning)
    (side : Side)
    (state : State)
    (half : TurnHalf)
    (theirs : Curve.Public) :
    Prop where
  live : Live parties beginning side state
  remoteKey : state.remoteKey = (parties.identity side.other).identity.key
  mirrors : Mirrors state half
  noLane : NoLane state half theirs

/--
A side's archive with its half and its post-quantum state: a live state, or
the responder's empty archive with the state any first message makes.
-/
inductive Seated
    (parties : Parties)
    (beginning : Beginning) :
    Side → Archive → TurnHalf → Curve.Public → Bytes → Prop where
  | live
      {side : Side}
      {state : State}
      {half : TurnHalf}
      {theirs : Curve.Public}
      (previous : List Bytes)
      (stands : Stands parties beginning side state half theirs) :
      Seated parties beginning side ⟨some state, previous⟩ half theirs
        state.pqState
  | empty
      {half : TurnHalf}
      {theirs : Curve.Public}
      (stands :
        ∀ first, parties.Names beginning first →
          Stands parties beginning .responder
            (parties.answered beginning first) half theirs) :
      Seated parties beginning .responder Archive.empty half theirs
        (beginning.record .responder)

variable
  {parties : Parties}
  {beginning : Beginning}
  {side : Side}
  {archive : Archive}
  {state : State}
  {half : TurnHalf}
  {theirs : Curve.Public}
  {record : Bytes}
  {message : Sealed}
  {inner : Whisper}

/-- The first message a waiting responder opens makes its session. -/
theorem Seated.takeIn
    (publishes : parties.Publishes)
    (commutes : Curve.Commutes)
    (begins : parties.Begins beginning)
    (seated : Seated parties beginning side archive half theirs record)
    (parses : Whisper.parse inner.bytes = .ok inner)
    (carries : Carries parties beginning inner side.other message)
    (waits : archive.current = none → message.kind = .first) :
    ∃ state previous,
      parties.takeIn side message archive =
          (.ok inner, ⟨some state, previous⟩) ∧
        Stands parties beginning side state half theirs ∧
        record = state.pqState := by
  cases seated with
  | live previous stands =>
      exact ⟨_, previous, stands.live.takeIn parses carries previous, stands,
        rfl⟩
  | empty stands =>
      cases carries with
      | whisper => cases waits rfl
      | first opens isInner isNamed =>
          exact ⟨_, [], Carries.takeIn_empty publishes commutes begins parses
            opens isInner isNamed, stands _ isNamed, rfl⟩

variable [Aes] [Kem]
variable
  {plain : Bytes}
  {names : Side → Option Binding}
  {given ours : Option Binding}

/-- A sealed message on its way, with what both ratchets sealed it under. -/
structure Post where
  letter : Bytes × Sealed
  packet : Bytes × Option (Block 32)
  stamp : Curve.Public × Chain

/-- How a message on its way was sealed. -/
structure Posted
    (parties : Parties)
    (beginning : Beginning)
    (names : Side → Option Binding)
    (side : Side)
    (post : Post)
    (given : Option Binding)
    (sealer : State)
    (lane : Lane)
    (sent : PqRecord.Sent)
    (inner : Whisper) :
    Prop where
  carries : Carries parties beginning inner side post.letter.2
  isGiven : Given (names side) given
  made :
    Whisper.MadeFrom (sealParts post.letter.1 given sealer lane sent) inner
  version : sealer.version = currentVersion
  localKey : sealer.localKey = (parties.identity side).identity.key
  remoteKey : sealer.remoteKey = (parties.identity side.other).identity.key
  packet : post.packet = (sent.packet, sent.key)
  stamp : post.stamp = (lane.ratchet, lane.chain)
  room : lane.chain.index + 1 < 2 ^ 32

/-- A side opens the next message, with the key of its packet. -/
theorem Seated.opens
    {other after : TurnHalf}
    {fresh : Curve.Pair}
    {draws : Nat → Block 32}
    {post : Post}
    {sealer : State}
    {lane : Lane}
    {sent : PqRecord.Sent}
    {pqState : Bytes}
    (publishes : parties.Publishes)
    (commutes : Curve.Commutes)
    (correct : Cipher.AesCorrect)
    (begins : parties.Begins beginning)
    (seated :
      Seated parties beginning side archive half other.pair.publicKey record)
    (posted :
      Posted parties beginning names side.other post given sealer lane sent
        inner)
    (isGiven : Given (names side.other) ours)
    (waits : archive.current = none → post.letter.2.kind = .first)
    (receives : Receives turnRules fresh post.stamp half other after)
    (drawn : Curve.Pair.fromSeed (draws 0) = .ok fresh)
    (received :
      PqRecord.receive record post.packet.1 = .ok ⟨pqState, post.packet.2⟩) :
    ∃ opened previous,
      parties.openSealed side draws ours post.letter.2 archive =
          (.ok post.letter.1, ⟨some opened, previous⟩) ∧
        Stands parties beginning side opened after other.pair.publicKey ∧
        opened.pqState = pqState ∧ opened.pending = none := by
  obtain ⟨state, previous, takes, stands, rfl⟩ :=
    seated.takeIn publishes commutes begins posted.made.parsed posted.carries
      waits
  rw [posted.stamp] at receives
  rw [posted.packet] at received
  have addressed :
      Addressed state
        (sealParts post.letter.1 given sealer lane sent) := by
    refine ⟨?_, ?_, ?_⟩
    · exact posted.version.trans stands.live.sealable.version.symm
    · exact posted.localKey.trans stands.remoteKey.symm
    · have remote := posted.remoteKey
      rw [Side.other_other] at remote
      exact remote.trans stands.live.localKey.symm
  obtain ⟨opened, opens, mirrors, isState, noLane⟩ :=
    stands.mirrors.opens correct posted.made posted.isGiven isGiven addressed
      receives stands.noLane drawn posted.room received
  have opensTo := opensTo_of_ok stands.live.seeded opens
  refine ⟨opened, previous, ?_, ?_, isState, opensTo.pending⟩
  · rw [Parties.openSealed_eq, Call.bind_of_ok takes, liftM_call_apply]
    simp only [openWithArchive, State.clone_eq, opens]
    rfl
  · have sound :=
      (openWithState_sound _ _ _ _ stands.live.sealable.sound).1 _ _ opens
    exact ⟨stands.live.opens sound opensTo,
      opensTo.same.remoteKey.trans stands.remoteKey, mirrors, noLane⟩

omit [Capsules] in
/-- What a seal makes of a state, with the message it posts. -/
theorem Stands.seals
    {draw : Braid.Draw}
    {lane : Lane}
    {sent : PqRecord.Sent}
    {after : State}
    (room : plain.length + 4096 < 2 ^ 64)
    (stands : Stands parties beginning side state half theirs)
    (isGiven : Given (names side) given)
    (sealed :
      SealedBy plain given draw state lane sent inner message after) :
    Stands parties beginning side after (half.sent turnRules) theirs ∧
      Posted parties beginning names side
        ⟨(plain, message), (sent.packet, sent.key), half.stamp turnRules⟩ given
        state lane sent inner := by
  obtain ⟨isRatchet, isChain⟩ := stands.mirrors.sending sealed.isSending
  have live := (stands.live.seal sealed).1
  refine ⟨⟨live, ?_, ?_, ?_⟩, stands.live.carries room sealed, isGiven,
    sealed.made, stands.live.sealable.version, stands.live.localKey, stands.remoteKey, rfl,
    ?_, sealed.room⟩
  · rw [sealed.after_eq]
    exact stands.remoteKey
  · rw [sealed.after_eq]
    exact stands.mirrors.advanced sealed.isSending sent.state
  · rw [sealed.after_eq]
    exact stands.noLane
  · exact Prod.ext isRatchet.symm isChain.symm

omit [Curves] [Capsules] in
/-- While a handshake is pending, a seal keeps it and makes a first message. -/
theorem SealedBy.first
    {binding : Option Binding}
    {draw : Braid.Draw}
    {lane : Lane}
    {sent : PqRecord.Sent}
    {after : State}
    (sealed : SealedBy plain binding draw state lane sent inner message after)
    (isPending : state.pending ≠ none) :
    after.pending ≠ none ∧ message.kind = .first := by
  have finishes := sealed.finishes
  rw [sealed.after_eq] at finishes ⊢
  obtain ⟨pending, same⟩ := Option.ne_none_iff_exists'.mp isPending
  refine ⟨isPending, ?_⟩
  simp only [finished, State.advanced, same] at finishes
  obtain ⟨_, _, finishes⟩ := Outcome.bind_eq_ok.mp finishes
  obtain ⟨_, _, ⟨⟩⟩ := Outcome.bind_eq_ok.mp finishes
  rfl

end Seats

/-! ## The invariant -/

section Invariant

variable [Hashes] [Curves] [Aes] [Kem] [Capsules]

/--
While the responder's archive is empty, it has sealed nothing, and everything
on its way to it is a first message.
-/
def Waits (session : Session) (posts : Side → List Post) : Prop :=
  (session.archive .responder).current = none →
    posts .initiator = [] ∧
      (∀ state, (session.archive .initiator).current = some state →
        state.pending ≠ none) ∧
      ∀ post ∈ posts .responder, post.letter.2.kind = .first

/-- A session with the messages on their way, at one turn of both ratchets. -/
structure InStep
    (parties : Parties)
    (beginning : Beginning)
    (names : Side → Option Binding)
    (session : Session)
    (line : PqRecord.Line)
    (half : Side → TurnHalf)
    (posts : Side → List Post) :
    Prop where
  seated :
    ∀ side,
      Seated parties beginning side (session.archive side) (half side)
        (half side.other).pair.publicKey (line.state side)
  steady :
    ∃ exchange keySide talk,
      PqRecord.Steady beginning.keys.pqAuth sessionLimits line exchange
        keySide talk
  paired :
    Paired turnRules Curve.Pair.Whole half fun side =>
      (posts side).map Post.stamp
  posted :
    ∀ side, ∀ post ∈ posts side, ∃ given sealer lane sent inner,
      Posted parties beginning names side.other post given sealer lane sent
        inner
  letters :
    ∀ side,
      (posts side).map Post.letter =
        (session.sealed side.other).drop (session.opened side).length
  packets : ∀ side, (posts side).map Post.packet = line.underway side
  sends : ∀ side, (line.sent side).length = (session.sealed side).length
  counts :
    ∀ side, (half side).chain.index ≤ (session.sealed side).length
  opened :
    ∀ side,
      (session.opened side).map Prod.snd <+:
        (session.sealed side.other).map Prod.fst
  waits : Waits session posts

variable
  {parties : Parties}
  {beginning : Beginning}
  {names : Side → Option Binding}
  {session : Session}
  {line : PqRecord.Line}
  {half : Side → TurnHalf}
  {posts : Side → List Post}
  {side : Side}
  {given : Option Binding}

omit [Hashes] [Curves] [Aes] [Kem] [Capsules] in
/-- The records of a session that is short are short. -/
theorem Seated.short
    {archive : Archive}
    {seat : TurnHalf}
    {theirs : Curve.Public}
    {record : Bytes}
    (seated : Seated parties beginning side archive seat theirs record)
    (recordShort : (beginning.record .responder).length < 2 ^ 64)
    (short :
      ∀ current, archive.current = some current →
        current.pqState.length < 2 ^ 64) :
    record.length < 2 ^ 64 := by
  cases seated with
  | live => exact short _ rfl
  | empty => exact recordShort

/-- Few packets are sent while counters are in range. -/
theorem InStep.fewSent
    (begins : parties.Begins beginning)
    (within : Session.InOrder.Within session)
    (inStep : InStep parties beginning names session line half posts) :
    PqRecord.FewSent sessionLimits line := by
  refine ⟨fun side => (inStep.seated side).short (begins.short .responder)
    (within.short side), ?_⟩
  intro side
  have skipped : sessionLimits.skipped = 2000 := rfl
  have few := within.few
  rw [inStep.sends side, skipped]
  cases side <;> omega

omit [Hashes] [Curves] [Aes] [Kem] [Capsules] in
/-- The session limits fit their fields. -/
theorem sessionLimits_fit : sessionLimits.Fits := by
  refine ⟨?_, ?_⟩ <;> decide

/-- A seal has room in its chain, and the post-quantum ratchet sends. -/
theorem InStep.sealable
    {state : State}
    {plain : Bytes}
    {nowSecs : Nat}
    {draw : Braid.Draw}
    (generates : ∀ seed, ∃ keys, Kem.generate seed = some keys)
    (begins : parties.Begins beginning)
    (within : Session.InOrder.Within session)
    (inStep : InStep parties beginning names session line half posts)
    (isCurrent : (session.archive side).current = some state)
    (room : plain.length + 4096 < 2 ^ 64)
    (may : state.canSendAt nowSecs = .ok true) :
    ∃ message after,
      (session.archive side).seal plain nowSecs given draw =
        (.ok message, after) := by
  obtain ⟨_, _, _, steady⟩ := inStep.steady
  obtain ⟨sent, sends⟩ :=
    steady.sends generates sessionLimits_fit (inStep.fewSent begins within) side
      draw
  have seated := inStep.seated side
  have counts := inStep.counts side
  generalize session.archive side = archive at isCurrent seated
  generalize line.state side = record at sends seated
  cases seated with
  | empty => cases isCurrent
  | live previous stands =>
      cases isCurrent
      obtain ⟨lane, isSending⟩ := State.sending_of_canSendAt may
      obtain ⟨_, isChain⟩ := stands.mirrors.sending isSending
      have chainRoom : lane.chain.index + 1 < 2 ^ 32 := by
        have few := within.few
        rw [isChain]
        cases side <;> omega
      obtain ⟨inner, message, sealing, _⟩ :=
        @State.Sealable.seals _ _ _ plain nowSecs given draw state lane
          sent stands.live.sealable room may isSending chainRoom sends
      exact ⟨message, ⟨some (state.advanced lane sent.state), previous⟩, by
        simp only [Archive.seal, sealing]⟩

omit [Curves] [Capsules] in
/-- A seal of a session moves its live state on. -/
theorem Seated.seals
    {archive taken : Archive}
    {seat : TurnHalf}
    {theirs : Curve.Public}
    {record plain : Bytes}
    {nowSecs : Nat}
    {draw : Braid.Draw}
    {message : Sealed}
    (seated : Seated parties beginning side archive seat theirs record)
    (room : plain.length + 4096 < 2 ^ 64)
    (ran :
      archive.seal plain nowSecs given draw = (.ok message, taken)) :
    ∃ state previous lane sent inner advanced,
      archive = ⟨some state, previous⟩ ∧
        record = state.pqState ∧
        Stands parties beginning side state seat theirs ∧
        SealedBy plain given draw state lane sent inner message
          advanced ∧
        taken = ⟨some advanced, previous⟩ := by
  cases seated with
  | @live _ state _ _ previous stands =>
      rcases sealing : sealWithState plain nowSecs given draw state with
        ⟨result, advanced⟩
      simp only [Archive.seal, sealing, Prod.mk.injEq] at ran
      obtain ⟨rfl, rfl⟩ := ran
      rcases stands.live.sealable.ends room sealing (by simp) with
        ⟨_, failed, _⟩ | ⟨_, lane, sent, inner, isMessage, sealed⟩
      · cases failed
      · cases isMessage
        exact ⟨state, previous, lane, sent, inner, advanced, rfl, rfl, stands,
          sealed, rfl⟩
  | empty => cases ran

omit [Curves] [Capsules] in
/-- A seal that fails leaves the archive as it was. -/
theorem Seated.sealFails
    {archive taken : Archive}
    {seat : TurnHalf}
    {theirs : Curve.Public}
    {record plain : Bytes}
    {nowSecs : Nat}
    {draw : Braid.Draw}
    {error : EngineError}
    (seated : Seated parties beginning side archive seat theirs record)
    (room : plain.length + 4096 < 2 ^ 64)
    (ran :
      archive.seal plain nowSecs given draw = (.error error, taken)) :
    taken = archive := by
  cases seated with
  | @live _ state _ _ previous stands =>
      rcases sealing : sealWithState plain nowSecs given draw state with
        ⟨result, advanced⟩
      simp only [Archive.seal, sealing, Prod.mk.injEq] at ran
      obtain ⟨rfl, rfl⟩ := ran
      rcases stands.live.sealable.ends room sealing (by simp) with
        ⟨_, _, rfl⟩ | ⟨_, _, _, _, isMessage, _⟩
      · rfl
      · cases isMessage
  | empty =>
      cases ran
      rfl

omit [Hashes] [Curves] [Aes] [Kem] [Capsules] in
/-- One list of what is underway is replaced. -/
theorem map_update_posts
    {γ : Type}
    (read : Post → γ)
    (posts : Side → List Post)
    (side : Side)
    (replaced : List Post) :
    (fun actor => (Function.update posts side replaced actor).map read) =
      Function.update (fun actor => (posts actor).map read) side
        (replaced.map read) :=
  funext fun actor =>
    Function.apply_update (fun _ => List.map read) posts side replaced actor

omit [Hashes] [Curves] [Aes] [Kem] [Capsules] in
/-- What comes next in a list may be appended to a front of it. -/
theorem prefix_append_next
    {γ : Type}
    {front whole : List γ}
    {item : γ}
    (isFront : front <+: whole)
    (isNext : whole[front.length]? = some item) :
    front ++ [item] <+: whole := by
  obtain ⟨rest, rfl⟩ := isFront
  rw [List.getElem?_append_right le_rfl, Nat.sub_self] at isNext
  cases rest with
  | nil => cases isNext
  | cons first rest =>
      obtain rfl := Option.some.inj isNext
      exact ⟨rest, by simp⟩

omit [Hashes] [Curves] [Aes] [Kem] [Capsules] in
/-- The initiator's archive is live. -/
theorem Seated.current_ne_none
    {archive : Archive}
    {seat : TurnHalf}
    {theirs : Curve.Public}
    {record : Bytes}
    (seated : Seated parties beginning side archive seat theirs record)
    (isInitiator : side = .initiator) :
    archive.current ≠ none := by
  cases seated with
  | live => exact Option.some_ne_none _
  | empty => cases isInitiator

omit [Capsules] in
/-- A send is logged with the letter that was posted. -/
theorem InStep.logSealed
    {plain : Bytes}
    {message : Sealed}
    {sealer advanced : State}
    {previous : List Bytes}
    {lane : Lane}
    {sent : PqRecord.Sent}
    {inner : Whisper}
    (inStep : InStep parties beginning names session line half posts)
    (steady :
      ∃ exchange keySide talk,
        PqRecord.Steady beginning.keys.pqAuth sessionLimits
          (line.send side advanced.pqState (sent.packet, sent.key)) exchange
          keySide talk)
    (stands :
      Stands parties beginning side advanced ((half side).sent turnRules)
        (half side.other).pair.publicKey)
    (posted :
      Posted parties beginning names side
        ⟨(plain, message), (sent.packet, sent.key),
          (half side).stamp turnRules⟩
        given sealer lane sent inner)
    (staysFirst :
      ∀ state, (session.archive side).current = some state →
        state.pending ≠ none →
          advanced.pending ≠ none ∧ message.kind = .first) :
    InStep parties beginning names
      ((session.settle side ⟨some advanced, previous⟩).logSealed side plain
        message)
      (line.send side advanced.pqState (sent.packet, sent.key))
      (Function.update half side ((half side).sent turnRules))
      (Function.update posts side.other
        (posts side.other ++
          [⟨(plain, message), (sent.packet, sent.key),
            (half side).stamp turnRules⟩])) := by
  refine ⟨?_, steady, ?_, ?_, ?_, ?_, ?_, ?_, ?_, ?_⟩
  · intro actor
    rcases actor.eq_or_eq_other side with rfl | rfl
    · simpa using Seated.live previous stands
    · simpa using inStep.seated side.other
  · have paired := inStep.paired.send side
    rw [map_update_posts, List.map_append]
    exact paired
  · intro actor item member
    rcases actor.eq_or_eq_other side with rfl | rfl
    · rw [Function.update_of_ne (Side.ne_other actor)] at member
      exact inStep.posted actor item member
    · rw [Function.update_self] at member
      rcases List.mem_append.mp member with before | isLast
      · exact inStep.posted side.other item before
      · obtain rfl := List.mem_singleton.mp isLast
        rw [Side.other_other]
        exact ⟨given, sealer, lane, sent, inner, posted⟩
  · intro actor
    rcases actor.eq_or_eq_other side with rfl | rfl
    · simpa using inStep.letters actor
    · have letters := inStep.letters side.other
      rw [Side.other_other] at letters
      have inside :
          (session.opened side.other).length ≤ (session.sealed side).length := by
        have counted := (inStep.opened side.other).length_le
        simpa using counted
      simp [letters, List.drop_append_of_le_length inside]
  · intro actor
    rcases actor.eq_or_eq_other side with rfl | rfl
    · simpa using inStep.packets actor
    · simp [inStep.packets side.other]
  · intro actor
    rcases actor.eq_or_eq_other side with rfl | rfl
    · simp [inStep.sends actor]
    · simpa using inStep.sends side.other
  · intro actor
    rcases actor.eq_or_eq_other side with rfl | rfl
    · simpa [Half.sent, turnRules, Chain.next] using inStep.counts actor
    · simpa using inStep.counts side.other
  · intro actor
    rcases actor.eq_or_eq_other side with rfl | rfl
    · simpa using inStep.opened actor
    · have opened := inStep.opened side.other
      rw [Side.other_other] at opened
      simpa using opened.trans (List.prefix_append _ [plain])
  · intro empty
    cases side with
    | responder => simp at empty
    | initiator =>
        have settled :=
          Session.archive_settle_other session .initiator
            ⟨some advanced, previous⟩
        obtain ⟨noneBack, isPending, allFirst⟩ :=
          inStep.waits ((congrArg Archive.current settled).symm.trans empty)
        obtain ⟨state, isLive⟩ :=
          Option.ne_none_iff_exists'.mp
            ((inStep.seated .initiator).current_ne_none rfl)
        obtain ⟨stillPending, isFirst⟩ :=
          staysFirst state isLive (isPending state isLive)
        refine ⟨?_, ?_, ?_⟩
        · rw [Function.update_of_ne (Side.ne_other .initiator)]
          exact noneBack
        · simp [stillPending]
        · intro item member
          rw [show Side.responder = Side.other .initiator from rfl,
            Function.update_self] at member
          rcases List.mem_append.mp member with before | isLast
          · exact allFirst item before
          · obtain rfl := List.mem_singleton.mp isLast
            exact isFirst

/-- A seal posts its message. -/
theorem InStep.seals
    {plain : Bytes}
    {nowSecs : Nat}
    {draw : Braid.Draw}
    {message : Sealed}
    {after : Archive}
    (begins : parties.Begins beginning)
    (within : Session.InOrder.Within session)
    (inStep : InStep parties beginning names session line half posts)
    (room : plain.length + 4096 < 2 ^ 64)
    (isGiven : Given (names side) given)
    (ran :
      (session.archive side).seal plain nowSecs given draw =
        (.ok message, after))
    (withinNext :
      Session.InOrder.Within
        ((session.settle side after).logSealed side plain message)) :
    ∃ line half posts,
      InStep parties beginning names
        ((session.settle side after).logSealed side plain message) line half
        posts := by
  obtain ⟨state, previous, lane, sent, inner, advanced, isArchive, isRecord,
    stands, sealed, rfl⟩ := (inStep.seated side).seals room ran
  obtain ⟨exchange, keySide, talk, steady⟩ := inStep.steady
  obtain ⟨advancedStands, posted⟩ := stands.seals room isGiven sealed
  have isState : advanced.pqState = sent.state := by
    rw [sealed.after_eq]
    rfl
  have short : sent.state.length < 2 ^ 64 := by
    rw [← isState]
    exact withinNext.short side advanced (by simp)
  have sends : PqRecord.send (line.state side) draw = .ok sent := by
    rw [isRecord]
    exact sealed.sends
  have steadyNext :=
    steady.send sessionLimits_fit (inStep.fewSent begins within) sends short
  rw [← isState] at steadyNext
  refine ⟨_, _, _, inStep.logSealed steadyNext advancedStands posted ?_⟩
  intro live isLive isPending
  rw [isArchive] at isLive
  cases isLive
  exact sealed.first isPending

omit [Hashes] [Curves] [Aes] [Kem] [Capsules] in
/-- A party without a live state has an empty archive. -/
theorem Seated.eq_empty
    {archive : Archive}
    {seat : TurnHalf}
    {theirs : Curve.Public}
    {record : Bytes}
    (seated : Seated parties beginning side archive seat theirs record)
    (noLive : archive.current = none) :
    archive = Archive.empty := by
  cases seated with
  | live => cases noLive
  | empty => rfl

omit [Hashes] [Curves] [Aes] [Kem] [Capsules] in
/-- A party with a live state stands in the session. -/
theorem Seated.stands
    {archive : Archive}
    {live : State}
    {seat : TurnHalf}
    {theirs : Curve.Public}
    {record : Bytes}
    (seated : Seated parties beginning side archive seat theirs record)
    (isLive : archive.current = some live) :
    Stands parties beginning side live seat theirs := by
  cases seated with
  | live previous stands =>
      cases isLive
      exact stands
  | empty => cases isLive

omit [Hashes] [Curves] [Aes] [Kem] [Capsules] in
/-- A live side has no lane of a key that was drawn for the other side. -/
theorem Seated.rekey
    {archive : Archive}
    {seat : TurnHalf}
    {theirs key : Curve.Public}
    {record : Bytes}
    (seated : Seated parties beginning side archive seat theirs record)
    (isLive : archive.current ≠ none)
    (missing :
      ∀ state, archive.current = some state →
        state.receivingLane key = none) :
    Seated parties beginning side archive seat key record := by
  cases seated with
  | live previous stands =>
      exact .live previous
        { stands with noLane := fun _ => missing _ rfl }
  | empty => exact absurd rfl isLive

omit [Hashes] [Curves] [Aes] [Kem] [Capsules] in
/-- A key without a lane was not the last one heard. -/
theorem Seated.unheard
    {archive : Archive}
    {seat : TurnHalf}
    {theirs key : Curve.Public}
    {record : Bytes}
    (seated : Seated parties beginning side archive seat theirs record)
    (isLive : archive.current ≠ none)
    (missing :
      ∀ state, archive.current = some state →
        state.receivingLane key = none) :
    ∀ chain, seat.heard ≠ some (key, chain) := by
  cases seated with
  | live previous stands =>
      intro chain isHeard
      obtain ⟨lane, found, _⟩ := stands.mirrors.heard key chain isHeard
      rw [missing _ rfl] at found
      cases found
  | empty => exact absurd rfl isLive

omit [Capsules] in
/-- While something is on its way to a side, the other side is live. -/
theorem InStep.sender_live
    {post : Post}
    {rest : List Post}
    (inStep : InStep parties beginning names session line half posts)
    (queued : posts side = post :: rest) :
    (session.archive side.other).current ≠ none := by
  cases side with
  | responder => exact (inStep.seated .initiator).current_ne_none rfl
  | initiator =>
      intro empty
      rw [(inStep.waits empty).1] at queued
      cases queued

omit [Capsules] in
/-- The next message is the first of those on their way. -/
theorem InStep.queued
    {text : Bytes}
    {message : Sealed}
    (inStep : InStep parties beginning names session line half posts)
    (isNext : session.next side = some (text, message)) :
    ∃ post rest,
      posts side = post :: rest ∧
        post.letter = (text, message) ∧
        rest.map Post.letter =
          (session.sealed side.other).drop
            ((session.opened side).length + 1) := by
  have letters := inStep.letters side
  obtain ⟨inside, isLetter⟩ := List.getElem?_eq_some_iff.mp isNext
  rw [List.drop_eq_getElem_cons inside] at letters
  cases isPosts : posts side with
  | nil =>
      rw [isPosts] at letters
      cases letters
  | cons post rest =>
      rw [isPosts, List.map_cons] at letters
      obtain ⟨same, restLetters⟩ := List.cons.inj letters
      exact ⟨post, rest, rfl, same.trans isLetter, restLetters⟩

omit [Capsules] in
/-- What comes next to a side without a session is a first message. -/
theorem InStep.next_first
    {post : Post}
    {rest : List Post}
    (inStep : InStep parties beginning names session line half posts)
    (queued : posts side = post :: rest)
    (empty : (session.archive side).current = none) :
    post.letter.2.kind = .first := by
  cases side with
  | initiator =>
      exact absurd empty ((inStep.seated .initiator).current_ne_none rfl)
  | responder =>
      exact (inStep.waits empty).2.2 post
        (by rw [queued]; exact List.mem_cons_self)

omit [Capsules] in
/-- A receipt is logged with the letter that was opened. -/
theorem InStep.logOpened
    {post : Post}
    {rest : List Post}
    {fresh : Curve.Pair}
    {after : TurnHalf}
    {opened : State}
    {previous : List Bytes}
    {key : Block 32}
    (inStep : InStep parties beginning names session line half posts)
    (queued : posts side = post :: rest)
    (isNext : session.next side = some post.letter)
    (restLetters :
      rest.map Post.letter =
        (session.sealed side.other).drop ((session.opened side).length + 1))
    (missing :
      ∀ state, (session.archive side.other).current = some state →
        state.receivingLane fresh.publicKey = none)
    (receives :
      Receives turnRules fresh post.stamp (half side) (half side.other) after)
    (paired :
      Paired turnRules Curve.Pair.Whole (Function.update half side after)
        (Function.update (fun actor => (posts actor).map Post.stamp) side
          (rest.map Post.stamp)))
    (stands :
      Stands parties beginning side opened after
        (half side.other).pair.publicKey)
    (steady :
      ∃ exchange keySide talk,
        PqRecord.Steady beginning.keys.pqAuth sessionLimits
          (line.hand side post.packet (rest.map Post.packet)
            (.ok (opened.pqState, some key)))
          exchange keySide talk) :
    InStep parties beginning names
      ((session.settle side ⟨some opened, previous⟩).logOpened side
        (session.opened side).length post.letter.1)
      (line.hand side post.packet (rest.map Post.packet)
        (.ok (opened.pqState, some key)))
      (Function.update half side after) (Function.update posts side rest) := by
  have senderLive := inStep.sender_live queued
  refine ⟨?_, steady, ?_, ?_, ?_, ?_, ?_, ?_, ?_, ?_⟩
  · intro actor
    rcases actor.eq_or_eq_other side with rfl | rfl
    · simpa [Queues.settled] using Seated.live previous stands
    · have seat := inStep.seated side.other
      rw [Side.other_other] at seat
      rcases same_or_fresh receives with ⟨same, _⟩ | ⟨isFresh, _⟩
      · simpa [same] using seat
      · simpa [isFresh] using seat.rekey senderLive missing
  · rw [map_update_posts]
    exact paired
  · intro actor item member
    rcases actor.eq_or_eq_other side with rfl | rfl
    · rw [Function.update_self] at member
      exact inStep.posted actor item
        (by rw [queued]; exact List.mem_cons_of_mem post member)
    · rw [Function.update_of_ne (Side.other_ne side)] at member
      exact inStep.posted side.other item member
  · intro actor
    rcases actor.eq_or_eq_other side with rfl | rfl
    · simpa using restLetters
    · simpa using inStep.letters side.other
  · intro actor
    rcases actor.eq_or_eq_other side with rfl | rfl
    · simp
    · simpa using inStep.packets side.other
  · exact inStep.sends
  · intro actor
    rcases actor.eq_or_eq_other side with rfl | rfl
    · have counts := inStep.counts actor
      rcases same_or_fresh receives with ⟨_, same⟩ | ⟨_, unused⟩
      · simpa [same] using counts
      · simp [unused]
    · simpa using inStep.counts side.other
  · intro actor
    rcases actor.eq_or_eq_other side with rfl | rfl
    · have isText :
          ((session.sealed actor.other).map Prod.fst)[((session.opened
              actor).map Prod.snd).length]? =
            some post.letter.1 := by
        rw [List.length_map, List.getElem?_map]
        exact congrArg (Option.map Prod.fst) isNext
      simpa using prefix_append_next (inStep.opened actor) isText
    · simpa using inStep.opened side.other
  · intro empty
    cases side with
    | responder => simp at empty
    | initiator =>
        have settled :=
          Session.archive_settle_other session .initiator
            ⟨some opened, previous⟩
        exact absurd ((congrArg Archive.current settled).symm.trans empty)
          senderLive

/-- The next message opens to what was sealed, and both ratchets move on. -/
theorem InStep.opens
    [LawfulKem]
    {draws : Nat → Block 32}
    {text : Bytes}
    {message : Sealed}
    (total : Curve.Total)
    (publishes : parties.Publishes)
    (commutes : Curve.Commutes)
    (correct : Cipher.AesCorrect)
    (begins : parties.Begins beginning)
    (within : Session.InOrder.Within session)
    (inStep : InStep parties beginning names session line half posts)
    (isNext : session.next side = some (text, message))
    (unused : session.Unused side (draws 0))
    (isGiven : Given (names side.other) given) :
    ∃ after,
      parties.openSealed side draws given message (session.archive side) =
        (.ok text, after) ∧
      (∃ live, after.current = some live ∧ live.pending = none) ∧
      (Session.InOrder.Within
          ((session.settle side after).logOpened side
            (session.opened side).length text) →
        ∃ line half posts,
          InStep parties beginning names
            ((session.settle side after).logOpened side
              (session.opened side).length text) line half posts) := by
  obtain ⟨exchange, keySide, talk, steady⟩ := inStep.steady
  obtain ⟨fresh, drawn, whole⟩ := total.fromSeed (draws 0)
  obtain ⟨post, rest, queued, isPost, restLetters⟩ := inStep.queued isNext
  obtain ⟨rfl, rfl⟩ : post.letter.1 = text ∧ post.letter.2 = message := by
    rw [isPost]
    exact ⟨rfl, rfl⟩
  have packets := inStep.packets side
  rw [queued, List.map_cons] at packets
  have senderLive := inStep.sender_live queued
  have missing :
      ∀ state, (session.archive side.other).current = some state →
        state.receivingLane fresh.publicKey = none :=
    fun state isCurrent => unused state fresh isCurrent drawn
  -- Both ratchets give the keys it was sealed under.
  obtain ⟨pqState, key, isKey, received, steadyNext⟩ :=
    steady.hand sessionLimits_fit (inStep.fewSent begins within) packets.symm
  obtain ⟨after, receives, paired⟩ :=
    inStep.paired.receive (turnRules_shares total commutes)
      (by rw [queued, List.map_cons]) whole
      ((inStep.seated side.other).unheard senderLive missing)
  obtain ⟨_, sealer, lane, sent, inner, posted⟩ :=
    inStep.posted side post (by rw [queued]; exact List.mem_cons_self)
  rw [← isKey] at received
  obtain ⟨opened, previous, opens, stands, rfl, noPending⟩ :=
    (inStep.seated side).opens publishes commutes correct begins posted isGiven
      (inStep.next_first queued) receives drawn received
  refine ⟨⟨some opened, previous⟩, opens, ⟨opened, rfl, noPending⟩,
    fun withinNext => ⟨_, _, _, inStep.logOpened queued isNext restLetters missing
      receives paired stands
      (steadyNext (withinNext.short side opened (by simp)))⟩⟩

/-- The initiator's half after its start. -/
def Parties.leads
    (parties : Parties)
    (beginning : Beginning)
    (pair : Curve.Pair)
    (turn : Derive.Turn) :
    TurnHalf :=
  ⟨turn.root, pair, ⟨turn.chain, 0⟩,
    some (parties.published.signed, ⟨beginning.keys.chain, 0⟩)⟩

/-- The responder's half before its first message. -/
def Parties.follows
    (parties : Parties)
    (beginning : Beginning) :
    TurnHalf :=
  ⟨beginning.keys.root, parties.signed.pair, ⟨beginning.keys.chain, 0⟩, none⟩

/-- Both ends of the double ratchet at the start. -/
def startHalves
    (parties : Parties)
    (beginning : Beginning)
    (pair : Curve.Pair)
    (turn : Derive.Turn) :
    Side → TurnHalf
  | .initiator => parties.leads beginning pair turn
  | .responder => parties.follows beginning

omit [Aes] [Kem] in
/-- The initiator begins one turn ahead. -/
theorem startHalves_paired
    {pair : Curve.Pair}
    {agreement : Block 32}
    (publishes : parties.Publishes)
    (commutes : Curve.Commutes)
    (whole : pair.Whole)
    (agreed : pair.secret.agree parties.published.signed = .ok agreement) :
    Paired turnRules Curve.Pair.Whole
      (startHalves parties beginning pair
        (Derive.turn beginning.keys.root agreement))
      fun _ => [] := by
  have back :
      parties.signed.pair.secret.agree pair.publicKey = .ok agreement := by
    rw [← agreed, publishes.signedKey]
    exact publishes.signed.agree_comm whole commutes
  refine ⟨.initiator, whole, publishes.signed, ⟨⟨beginning.keys.chain, 0⟩, ?_,
    .nil _⟩, ⟨[], [], _, rfl, ?_, .nil _, Or.inl rfl⟩, ?_⟩
  · have same : parties.published.signed = parties.signed.pair.publicKey :=
      publishes.signedKey
    simp [startHalves, Parties.leads, Parties.follows, turnRules, same,
      Side.other]
  · exact turnRules_turn_eq_some.mpr ⟨agreement, back, rfl, rfl⟩
  · intro chain isHeard
    cases isHeard

omit [Aes] [Kem] in
/-- The initiator's state after its start. -/
theorem Parties.Begins.opening_stands
    {draw : Block 32}
    {nowSecs : Nat}
    {state : State}
    (publishes : parties.Publishes)
    (begins : parties.Begins beginning)
    (now : nowSecs < 2 ^ 64)
    (made :
      Handshake.initiatorState (parties.handshake beginning.base)
          beginning.keys (beginning.record .initiator) draw =
        .ok state) :
    ∃ pair agreement,
      pair.Whole ∧
        pair.secret.agree parties.published.signed = .ok agreement ∧
        Stands parties beginning .initiator
          (parties.opening beginning nowSecs state)
          (parties.leads beginning pair
            (Derive.turn beginning.keys.root agreement))
          parties.signed.pair.publicKey ∧
        (parties.opening beginning nowSecs state).pqState =
          beginning.record .initiator := by
  have live := begins.opening_live publishes now made
  obtain ⟨pair, drawn, rest⟩ := Outcome.bind_eq_ok.mp made
  obtain ⟨agreement, agreed, rest⟩ := Outcome.bind_eq_ok.mp rest
  obtain rfl := Outcome.ok.inj rest
  refine ⟨pair, agreement, Curve.Pair.whole_of_fromSeed drawn, agreed,
    ⟨live, ?_, ⟨rfl, rfl, rfl, ?_⟩, ?_⟩, rfl⟩
  · exact congrArg Identity.key publishes.identity
  · rintro key chain ⟨⟩
    exact ⟨⟨parties.published.signed, none, ⟨beginning.keys.chain, 0⟩, []⟩,
      List.find?_cons_of_pos (decide_eq_true rfl), rfl⟩
  · intro isNew
    exact absurd (congrArg (fun key => some (key, _)) publishes.signedKey)
      (isNew ⟨beginning.keys.chain, 0⟩)

/-- A session before its first call. -/
theorem Parties.Begins.init_inStep
    {draw : Block 32}
    {nowSecs : Nat}
    {earlier : Archive}
    {state : State}
    (publishes : parties.Publishes)
    (commutes : Curve.Commutes)
    (begins : parties.Begins beginning)
    (now : nowSecs < 2 ^ 64)
    (made :
      Handshake.initiatorState (parties.handshake beginning.base)
          beginning.keys (beginning.record .initiator) draw =
        .ok state) :
    ∃ line half posts,
      InStep parties beginning names
        (Session.init
          (earlier.promote (parties.opening beginning nowSecs state))) line
        half posts := by
  have sides :
      PqRecord.startSides (beginning.record .initiator)
          (beginning.record .responder) =
        beginning.record := by
    funext side
    cases side <;> rfl
  have steady :=
    PqRecord.start_steady sessionLimits_fit (begins.record .initiator)
      (begins.record .responder)
      fun side => by rw [sides]; exact begins.short side
  rw [sides] at steady
  obtain ⟨pair, agreement, whole, agreed, stands, isRecord⟩ :=
    begins.opening_stands publishes now made
  have paired :=
    @startHalves_paired _ _ _ parties beginning pair agreement publishes
      commutes whole agreed
  refine ⟨_, _, fun _ => [], ?_, steady, paired, ?_, ?_, ?_, ?_, ?_, ?_, ?_⟩
  · intro side
    cases side with
    | initiator =>
        have seat := Seated.live earlier.shelve.previous stands
        rw [isRecord] at seat
        exact seat
    | responder =>
        refine .empty fun first isNamed => ⟨publishes.answered_live isNamed,
          rfl, ⟨rfl, rfl, rfl, ?_⟩, fun _ => rfl⟩
        rintro key chain ⟨⟩
  · intro side post member
    cases member
  · intro side
    cases side <;> rfl
  · intro side
    rfl
  · intro side
    rfl
  · intro side
    cases side <;> exact Nat.zero_le _
  · intro side
    exact List.prefix_rfl
  · intro _
    refine ⟨rfl, ?_, ?_⟩
    · rintro _ ⟨⟩
      exact Option.some_ne_none _
    · intro post member
      cases member

/-- Every call that ends keeps the session in step. -/
theorem InStep.step
    [LawfulKem]
    {next : Session}
    (total : Curve.Total)
    (publishes : parties.Publishes)
    (commutes : Curve.Commutes)
    (correct : Cipher.AesCorrect)
    (begins : parties.Begins beginning)
    (within : Session.InOrder.Within session)
    (inStep : InStep parties beginning names session line half posts)
    (step : Session.InOrder.Step parties names session next)
    (withinNext : Session.InOrder.Within next) :
    ∃ line half posts, InStep parties beginning names next line half posts := by
  cases step with
  | seals side room isGiven ran =>
      exact inStep.seals begins within room isGiven ran withinNext
  | sealFails side room ran =>
      rw [(inStep.seated side).sealFails room ran]
      have same : session.settle side (session.archive side) = session := by
        rw [Session.settle, Function.update_eq_self]
      rw [same]
      exact ⟨line, half, posts, inStep⟩
  | opens side isNext unused isGiven ran =>
      obtain ⟨after, opens, _, next⟩ :=
        inStep.opens total publishes commutes correct begins within isNext
          unused isGiven
      obtain ⟨isText, rfl⟩ := Prod.mk.inj (opens.symm.trans ran)
      cases isText
      exact next withinNext
  | openFails side isNext unused isGiven ran =>
      obtain ⟨after, opens, _⟩ :=
        inStep.opens total publishes commutes correct begins within isNext
          unused isGiven
      cases opens.symm.trans ran

/--
While messages arrive in order, every seal of a session that is not stale
returns, and every opening returns what was sealed.
-/
theorem in_order_complete
    [LawfulKem]
    {draws : StartDraws}
    {nowSecs : Nat}
    {earlier archive : Archive}
    (generates : ∀ seed, ∃ keys, Kem.generate seed = some keys)
    (total : Curve.Total)
    (commutes : Curve.Commutes)
    (correct : Cipher.AesCorrect)
    (publishes : parties.Publishes)
    (now : nowSecs < 2 ^ 64)
    (started :
      start draws parties.us (parties.registrationId .initiator)
          parties.published nowSecs earlier =
        (.ok (), archive))
    (reachable : Session.InOrder.Reachable parties names archive session) :
    Session.InOrder.Complete parties names session := by
  obtain ⟨beginning, state, begins, made, rfl⟩ :=
    Parties.start_begins publishes started
  have inStep :
      ∃ line half posts,
        InStep parties beginning names session line half posts := by
    induction reachable with
    | init => exact begins.init_inStep publishes commutes now made
    | step before step within inductionHypothesis =>
        obtain ⟨line, half, posts, inStep⟩ := inductionHypothesis
        exact inStep.step total publishes commutes correct begins before.within
          step within
  obtain ⟨line, half, posts, inStep⟩ := inStep
  have within := reachable.within
  refine ⟨?_, ?_, inStep.opened⟩
  · intro side state plain nowSecs given draw isCurrent room may
    exact inStep.sealable generates begins within isCurrent room may
  · intro side text message given draws isNext unused isGiven
    obtain ⟨after, opens, _⟩ :=
      inStep.opens total publishes commutes correct begins within isNext unused
        isGiven
    exact ⟨after, opens⟩

end Invariant

section Witness

open Sample

attribute [local instance] hashes curves aes kem capsules

/-- The sample curve is total. -/
private theorem sample_total : Curve.Total := by
  refine ⟨fun _ => ⟨_, rfl⟩, fun _ _ secret => ⟨_, rfl⟩⟩

/-- The run that sends the sample letter stays within its bounds. -/
private theorem sentRun_within
    {started sealed : Archive}
    {message : Sealed}
    (short : recordLength sealed < 2 ^ 64) :
    Session.InOrder.Within (sentRun started sealed message) where
  short := by
    rintro (_ | _) current isCurrent
    · have isSealed : sealed.current = some current := isCurrent
      simpa [recordLength, isSealed] using short
    · cases isCurrent
  few := by
    have ours :
        ((sentRun started sealed message).sealed .initiator).length = 1 :=
      rfl
    have theirs :
        ((sentRun started sealed message).sealed .responder).length = 0 :=
      rfl
    omega

/-- Completeness of the run that sends the sample letter. -/
theorem in_order_complete_sent :
    Session.InOrder.Complete letterParties (fun _ => none)
      (sentRun letterStart.2 letterSeal.2 letterMessage) := by
  have lawful : LawfulKem := lawfulKem
  have startWithin :
      Session.InOrder.Within (Session.init letterStart.2) := by
    refine ⟨?_, by decide⟩
    rintro (_ | _) current isCurrent
    · have short := letter_steps.2.2.2.2.2.2 letterStart.2 (by simp)
      have isStarted : letterStart.2.current = some current := isCurrent
      simpa [recordLength, isStarted] using short
    · cases isCurrent
  refine @in_order_complete hashes curves aes kem capsules letterParties
    (fun _ => none) (sentRun letterStart.2 letterSeal.2 letterMessage) lawful
    letterDraws 1000 Archive.empty letterStart.2 (fun seed => ⟨_, rfl⟩)
    sample_total commutes Cipher.sample_aesCorrect letterParties_publishes
    (by decide) letter_steps.1 ?_
  exact .step (.init startWithin)
    (.seals .initiator (by decide) (.inl rfl) letter_steps.2.1)
    (sentRun_within (letter_steps.2.2.2.2.2.2 letterSeal.2 (by simp)))

end Witness

end Gossveil.Ratchet
