import Gossveil.CountedRuns
import Gossveil.LossyRuns

namespace Gossveil.PqRecord

open TwoParty KeyStream Braid

/-!
# The post-quantum ratchet over queues that lose nothing

Where every packet arrives, in the order sent, the indices of a flow arrive
without a gap.  So no jump limit is reached, and while packets are few no count
ends: every send returns, and every packet is accepted with the key of its send.
-/

/-! ## Tags without a gap -/

/-- Every index follows the last one of its flow. -/
def Consecutive (tags : List (Nat × Nat)) : Prop :=
  ∀ earlier tag later,
    tags = earlier ++ tag :: later → tag.2 = lastIndex earlier tag.1 + 1

section Tags

variable {tags : List (Nat × Nat)} {tag : Nat × Nat} {epoch : Nat}

/-- Behind a tag its index is the last of its epoch. -/
theorem lastIndex_append_self (tags : List (Nat × Nat)) (tag : Nat × Nat) :
    lastIndex (tags ++ [tag]) tag.1 = tag.2 := by
  simp [lastIndex, List.filter_append]

/-- A tag leaves the other epochs. -/
theorem lastIndex_append_of_ne
    (tags : List (Nat × Nat))
    (other : tag.1 ≠ epoch) :
    lastIndex (tags ++ [tag]) epoch = lastIndex tags epoch := by
  simp [lastIndex, List.filter_append, other]

theorem consecutive_nil : Consecutive [] := by
  intro earlier tag later shape
  simp at shape

/-- A tag that follows the last extends the row. -/
theorem Consecutive.append
    (consecutive : Consecutive tags)
    (follows : tag.2 = lastIndex tags tag.1 + 1) :
    Consecutive (tags ++ [tag]) := by
  intro earlier other later shape
  rcases List.eq_nil_or_concat later with rfl | ⟨front, last, rfl⟩
  · obtain ⟨rfl, same⟩ := List.append_inj' shape rfl
    cases same
    exact follows
  · have shape' : tags ++ [tag] = (earlier ++ other :: front) ++ [last] := by
      simpa using shape
    exact consecutive earlier other front (List.append_inj' shape' rfl).1

/-- What comes before in a list without gaps has none. -/
theorem Consecutive.front
    {later : List (Nat × Nat)}
    (consecutive : Consecutive (tags ++ later)) :
    Consecutive tags := by
  intro earlier tag rest shape
  exact consecutive earlier tag (rest ++ later) (by rw [shape]; simp)

/-- An index counts no further than all tags together. -/
theorem Consecutive.lastIndex_le
    (consecutive : Consecutive tags)
    (epoch : Nat) :
    lastIndex tags epoch ≤ tags.length := by
  induction tags using List.reverseRecOn generalizing epoch with
  | nil => exact Nat.zero_le _
  | append_singleton front last inductionHypothesis =>
      have before := inductionHypothesis consecutive.front
      rw [List.length_append, List.length_singleton]
      by_cases same : last.1 = epoch
      · subst same
        rw [lastIndex_append_self, consecutive front last [] rfl]
        exact Nat.succ_le_succ (before last.1)
      · rw [lastIndex_append_of_ne front same]
        exact (before epoch).trans (Nat.le_succ _)

end Tags

/-! ## What a stream has sent -/

/-- The flows that can still be sent in have sent up to their last tags. -/
def SentUpTo (tags : List (Nat × Nat)) (stream : Stream) : Prop :=
  ∀ epoch flows,
    stream.sendEpoch ≤ epoch →
      stream.flowsOf epoch = some flows →
        flows.send.counter = lastIndex tags epoch

namespace SentUpTo

variable
  {tags : List (Nat × Nat)}
  {taken : Nat → Nat → Prop}
  {stream after : Stream}
  {epoch index : Nat}
  {key : Block 32}

/-- A fresh stream has sent nothing. -/
theorem start
    [Hashes]
    (initial : Bytes)
    (side : Side)
    (limits : Limits) :
    SentUpTo [] (Stream.start initial side limits) := by
  intro epoch flows _ found
  obtain ⟨slot, _, isFlows⟩ := Stream.flowsOf_eq_some.mp found
  obtain ⟨_, rfl⟩ := List.getElem?_eq_some_iff.mp isFlows
  simp only [Stream.start, List.getElem_singleton]
  rfl

/-- A flow that has sent nothing has no tags. -/
theorem lastIndex_eq_zero
    {flows : Epoch}
    (pace : Pace taken tags stream)
    (found : stream.flowsOf epoch = some flows)
    (unused : flows.send.counter = 0) :
    lastIndex tags epoch = 0 := by
  rcases lastIndex_mem tags epoch with none_ | member
  · exact none_
  · have reached := (pace.sent _ member).2 flows found
    simp only at reached
    omega

/-- The flows of an epoch that opens have sent nothing. -/
theorem openEpoch
    [Hashes]
    {secret : Option EpochSecret}
    (sends : SentUpTo tags stream)
    (pace : Pace taken tags stream)
    (sendKnown : stream.sendEpoch ≤ stream.epoch)
    (opens : PqRecord.openEpoch stream secret = .ok after) :
    SentUpTo tags after := by
  have openedPace := openEpoch_pace pace sendKnown opens
  cases secret with
  | none =>
      cases opens
      exact sends
  | some value =>
      intro epoch flows isLater found
      obtain ⟨_, _, _, isAfter⟩ := Stream.nextEpoch_eq_ok opens
      rcases Stream.flowsOf_nextEpoch opens found with old | ⟨_, unused⟩
      · refine sends epoch flows ?_ old
        rw [isAfter] at isLater
        exact isLater
      · rw [unused, lastIndex_eq_zero openedPace found unused]

/-- A send takes the next index of its flow. -/
theorem keyToSend
    [Hashes]
    (sends : SentUpTo tags stream)
    (yields : stream.keyToSend epoch = .ok (index, key, after)) :
    index = lastIndex tags epoch + 1 ∧
      SentUpTo (tags ++ [(epoch, index)]) after := by
  obtain ⟨notBack, slot, flows, send, isSlot, isPruned, isFlows, counter,
    rfl, rfl⟩ := Stream.keyToSend_eq_ok yields
  obtain ⟨old, isOld, _, sameCounter⟩ :=
    Stream.flowsOf_pruned isSlot isFlows
  have reached := sends epoch old notBack isOld
  have isIndex : send.counter = lastIndex tags epoch + 1 := by
    rw [counter, sameCounter, reached]
  refine ⟨isIndex, ?_⟩
  have sendEpoch : (stream.pruned epoch slot).1.sendEpoch = epoch := by
    unfold Stream.pruned
    split_ifs with same
    · exact same
    · rfl
  intro other found isLater isFound
  simp only [sendEpoch] at isLater
  rw [Stream.flowsOf_set isPruned] at isFound
  split_ifs at isFound with same
  · cases isFound
    subst same
    exact (lastIndex_append_self tags (other, send.counter)).symm
  · obtain ⟨older, isOlder, _, sameSent⟩ :=
      Stream.flowsOf_pruned isSlot isFound
    rw [lastIndex_append_of_ne tags (Ne.symm same), sameSent]
    exact sends other older (notBack.trans isLater) isOlder

/-- A receive sends nothing. -/
theorem keyToReceive
    [Hashes]
    (sends : SentUpTo tags stream)
    (yields : stream.keyToReceive epoch index = .ok (key, after)) :
    SentUpTo tags after := by
  obtain ⟨slot, isSlot, rest⟩ := Outcome.bind_eq_ok.mp yields
  obtain ⟨flows, isFlows, rest⟩ := Outcome.bind_eq_ok.mp rest
  split_ifs at rest
  obtain ⟨⟨_, recv⟩, _, ⟨⟩⟩ := Outcome.bind_eq_ok.mp rest
  have found : stream.flowsOf epoch = some flows :=
    Stream.flowsOf_eq_some.mpr
      ⟨slot, isSlot, Outcome.unwrap_eq_ok.mp isFlows⟩
  intro other changed isLater isChanged
  rw [Stream.flowsOf_set isSlot] at isChanged
  split_ifs at isChanged with same
  · cases isChanged
    subst same
    exact sends other flows isLater found
  · exact sends other changed isLater isChanged

end SentUpTo

/-! ## The invariant -/

section Steady

variable [Hashes] [Kem]

/-- Both states fit a slice, and few enough packets were sent. -/
structure FewSent (limits : Limits) (line : Line) : Prop where
  short : Short line
  few : ∀ side, (line.sent side).length + limits.skipped + 1 < 2 ^ 32

/-- How many packets have arrived. -/
def handedOver (line : Line) : Nat :=
  (line.handed .initiator).length + (line.handed .responder).length

omit [Hashes] [Kem] in
@[simp] theorem handedOver_hand
    (line : Line)
    (side : Side)
    (item : Bytes × Option (Block 32))
    (remaining : List (Bytes × Option (Block 32)))
    (outcome : Outcome RatchetError (Bytes × Option (Block 32))) :
    handedOver (line.hand side item remaining outcome) =
      handedOver line + 1 := by
  have own := congrArg List.length
    (Queues.handed_hand_self line side item remaining outcome)
  have others := congrArg List.length
    (Queues.handed_hand_other line side item remaining outcome)
  rw [List.length_append, List.length_singleton] at own
  cases side <;> simp only [Side.other] at own others <;>
    rw [handedOver, handedOver, own, others] <;> omega

/-- What holds of both sides while nothing is lost. -/
structure Steady
    (authKey : Block 32)
    (limits : Limits)
    (line : Line)
    (exchange : Exchange)
    (keySide : Side)
    (talk : Talk) :
    Prop where
  orderly : Orderly authKey limits line exchange keySide talk
  whole :
    ∀ side, line.arrived side ++ line.underway side = line.sent side.other
  consecutive : ∀ side, Consecutive (tags (line.sent side))
  streams :
    ∀ side stream, streamIn (line.state side) = .ok stream →
      stream.limits = limits ∧
        SentUpTo (tags (line.sent side)) stream ∧
          stream.Counted (line.sent side).length
            (line.sent side.other).length
  braids :
    ∀ side braid, braidIn (line.state side) = .ok braid →
      braid.epoch ≤ handedOver line + 1

variable
  {authKey : Block 32}
  {limits : Limits}
  {line : Line}
  {exchange : Exchange}
  {keySide : Side}
  {talk : Talk}
  {side : Side}

/-- What the bytes of a state that keeps to a talk read as. -/
private theorem kept_reads
    {taken : Nat → Nat → Prop}
    {braid : Braid}
    {state : Bytes}
    {stream : Stream}
    (limitsFit : limits.Fits)
    (agreement : Agreement exchange keySide talk)
    (keeps :
      Keeps authKey limits side braid (secretsOf talk side) taken state stream)
    (isBraid : talk.state side = braid)
    (short : state.length < 2 ^ 64) :
    streamIn state = .ok stream ∧ braidIn state = .ok braid := by
  subst isBraid
  refine keeps.streamIn_eq (agreement_recordable agreement side) limitsFit ?_
    short
  rw [length_secretsOf]
  exact agreement.length_emitted side

omit [Kem] in
/-- Opening an epoch counts nothing. -/
private theorem openEpoch_counted
    {sends receives : Nat}
    {stream opened : Stream}
    {secret : Option EpochSecret}
    (counted : stream.Counted sends receives)
    (opens : openEpoch stream secret = .ok opened) :
    opened.Counted sends receives := by
  cases secret with
  | none =>
      cases opens
      exact counted
  | some value => exact counted.nextEpoch opens

/-- The stream a side keeps, and how far it has come. -/
private theorem Steady.stream
    (limitsFit : limits.Fits)
    (steady : Steady authKey limits line exchange keySide talk)
    (few : FewSent limits line)
    (side : Side) :
    ∃ stream,
      Keeps authKey limits side (talk.state side) (secretsOf talk side)
          (Taken line side) (line.state side) stream ∧
        Pace (Taken line side) (tags (line.sent side)) stream ∧
        SentUpTo (tags (line.sent side)) stream ∧
        stream.Counted (line.sent side).length (line.sent side.other).length ∧
        CountersFit stream ∧
        (talk.state side).epoch ≤ handedOver line + 1 := by
  obtain ⟨stream, keeps, pace⟩ := steady.orderly.keeps side
  obtain ⟨isStream, isBraid⟩ :=
    kept_reads limitsFit steady.orderly.agreement keeps rfl (few.short side)
  obtain ⟨sameLimits, sends, counted⟩ := steady.streams side stream isStream
  refine ⟨stream, keeps, pace, sends, counted, ?_,
    steady.braids side _ isBraid⟩
  intro flows member
  have bounds := counted flows member
  have ours := few.few side
  have theirs := few.few side.other
  rw [sameLimits]
  omega

/-- No more packets arrive than were sent. -/
theorem Steady.handedOver_lt
    (steady : Steady authKey limits line exchange keySide talk)
    (few : FewSent limits line) :
    handedOver line < 2 ^ 33 := by
  have inside :
      ∀ side, (line.handed side).length ≤ (line.sent side.other).length := by
    intro side
    rw [← steady.whole side, List.length_append, Queues.arrived,
      List.length_map]
    exact Nat.le_add_right _ _
  have ours := inside .initiator
  have theirs := inside .responder
  have fewOurs := few.few Side.responder
  have fewTheirs := few.few Side.initiator
  simp only [Side.other] at ours theirs
  rw [handedOver]
  omega

/-- While packets are few, every send returns. -/
theorem Steady.sends
    (generates : ∀ seed, ∃ keys, Kem.generate seed = some keys)
    (limitsFit : limits.Fits)
    (steady : Steady authKey limits line exchange keySide talk)
    (few : FewSent limits line)
    (side : Side)
    (draw : Draw) :
    ∃ sent, PqRecord.send (line.state side) draw = .ok sent := by
  obtain ⟨stream, keeps, _, _, _, fit, _⟩ := steady.stream limitsFit few side
  obtain ⟨sent, _, _, _, _, _, _, _, _, isSent, _⟩ :=
    send_keeps generates limitsFit steady.orderly.agreement keeps fit
      (few.short side) draw
  exact ⟨sent, isSent⟩

/-- A send takes the next index of its flow. -/
theorem Steady.send
    (limitsFit : limits.Fits)
    (steady : Steady authKey limits line exchange keySide talk)
    (few : FewSent limits line)
    {draw : Draw}
    {sent : Sent}
    (sends : PqRecord.send (line.state side) draw = .ok sent)
    (short : sent.state.length < 2 ^ 64) :
    ∃ exchange keySide talk,
      Steady authKey limits
        (line.send side sent.state (sent.packet, sent.key)) exchange keySide
        talk := by
  obtain ⟨stream, keeps, pace, upTo, counted, _, epochs⟩ :=
    steady.stream limitsFit few side
  obtain ⟨after, packet, secret, later, index, key, opened, stream', kept⟩ :=
    send_returns limitsFit steady.orderly.agreement keeps (few.short side) draw
      sent sends
  obtain ⟨isStream, isBraid⟩ :=
    kept_reads limitsFit kept.agreement kept.keeps (Talk.state_act_self ..)
      short
  have isTag := tagOf_of_parse kept.sentAt.parses
  have openedUpTo := upTo.openEpoch pace keeps.sendKnown kept.opens
  obtain ⟨isIndex, upTo'⟩ := openedUpTo.keyToSend kept.yields
  obtain ⟨exchange', keySide', talk', orderly⟩ :=
    steady.orderly.send limitsFit few.short sends
  refine ⟨exchange', keySide', talk', orderly, ?_, ?_, ?_, ?_⟩
  · intro actor
    rcases actor.eq_or_eq_other side with rfl | rfl
    · simpa using steady.whole actor
    · simp [← List.append_assoc, steady.whole side.other]
  · intro actor
    rcases actor.eq_or_eq_other side with rfl | rfl
    · rw [Queues.sent_send_self, tags, List.map_append, List.map_singleton]
      refine (steady.consecutive actor).append ?_
      simp only [isTag]
      exact isIndex
    · simpa using steady.consecutive side.other
  · intro actor found isFound
    rcases actor.eq_or_eq_other side with rfl | rfl
    · rw [Queues.state_send_self] at isFound
      obtain rfl := Outcome.ok.inj (isFound.symm.trans isStream)
      obtain ⟨_, follows⟩ := kept.keeps.follows
      refine ⟨follows.sameLimits, ?_, ?_⟩
      · simpa [tags, isTag] using upTo'
      · simpa using
          ((openEpoch_counted counted kept.opens).keyToSend kept.yields).2
    · rw [Queues.state_send_other] at isFound
      obtain ⟨sameLimits, otherUpTo, otherCounted⟩ :=
        steady.streams side.other found isFound
      rw [Side.other_other] at otherCounted
      refine ⟨sameLimits, by simpa using otherUpTo, ?_⟩
      simpa using otherCounted.mono le_rfl (Nat.le_succ _)
  · intro actor braid isFound
    rcases actor.eq_or_eq_other side with rfl | rfl
    · rw [Queues.state_send_self] at isFound
      obtain rfl := Outcome.ok.inj (isFound.symm.trans isBraid)
      rw [kept.sameEpoch]
      exact epochs
    · rw [Queues.state_send_other] at isFound
      exact steady.braids side.other braid isFound

/-- The next packet continues its flow at an index no larger than the count. -/
private theorem Steady.next_inRange
    (steady : Steady authKey limits line exchange keySide talk)
    (few : FewSent limits line)
    {item : Bytes × Option (Block 32)}
    {remaining : List (Bytes × Option (Block 32))}
    (queued : line.underway side = item :: remaining) :
    (tagOf item.1).2 ≤ (line.sent side.other).length ∧
      FewLost limits line side item.1 ∧ InRange limits line side item.1 := by
  have whole := steady.whole side
  rw [queued] at whole
  have shape :
      tags (line.sent side.other) =
        tags (line.arrived side) ++ tagOf item.1 :: tags remaining := by
    rw [← whole, tags, List.map_append, List.map_cons]
    rfl
  have isNext :=
    steady.consecutive side.other (tags (line.arrived side)) (tagOf item.1)
      (tags remaining) shape
  have before : Consecutive (tags (line.arrived side)) := by
    have consecutive := steady.consecutive side.other
    rw [shape] at consecutive
    exact consecutive.front
  have small :
      lastIndex (tags (line.arrived side)) (tagOf item.1).1 <
        (line.sent side.other).length := by
    have counts := before.lastIndex_le (tagOf item.1).1
    rw [show (tags (line.arrived side)).length = (line.arrived side).length
      from List.length_map _] at counts
    rw [← whole, List.length_append, List.length_cons]
    omega
  have fewTheirs := few.few side.other
  refine ⟨by rw [isNext]; omega, ?_, by rw [isNext]; omega, ?_⟩
  · rw [FewLost, isNext, Nat.sub_self]
    unfold Limits.jump
    split
    · assumption
    · decide
  · intro _ _ braid _ isBraid _
    have epochs := steady.braids side braid isBraid
    have handed := steady.handedOver_lt few
    omega

/-- What a packet that is taken in leaves of the stream and of the braid. -/
private theorem Steady.taken_in
    [LawfulKem]
    (limitsFit : limits.Fits)
    (steady : Steady authKey limits line exchange keySide talk)
    (few : FewSent limits line)
    {item : Bytes × Option (Block 32)}
    {state : Bytes}
    {key : Block 32}
    (isSent : item ∈ line.sent side.other)
    (counts : (tagOf item.1).2 ≤ (line.sent side.other).length)
    (receives :
      PqRecord.receive (line.state side) item.1 = .ok ⟨state, some key⟩)
    (short : state.length < 2 ^ 64) :
    ∃ stream braid,
      streamIn state = .ok stream ∧
        braidIn state = .ok braid ∧
        stream.limits = limits ∧
        SentUpTo (tags (line.sent side)) stream ∧
        stream.Counted (line.sent side).length (line.sent side.other).length ∧
        braid.epoch ≤ handedOver line + 2 := by
  obtain ⟨stream, keeps, pace, upTo, counted, fit, _⟩ :=
    steady.stream limitsFit few side
  have fewTheirs := few.few side.other
  obtain ⟨packet, index, sentAt⟩ := steady.orderly.sent side.other item isSent
  have isIndex : index = (tagOf item.1).2 := by rw [tagOf_of_parse sentAt.parses]
  have sentAs : SentAs authKey limits talk side.other item.1 item.2 packet index :=
    sentAs_iff.mpr ⟨sentAt, by omega⟩
  rcases receive_keeps limitsFit steady.orderly.agreement keeps fit
      (few.short side) sentAs with
    ⟨fault, refused⟩ | ⟨_, trapped⟩ |
      ⟨braid, secret, later, laterSide, stream', state', key', receives',
        agreement', keeps', _, _, opened, opens, yields⟩
  · rw [refused] at receives
    cases receives
  · rw [trapped] at receives
    cases receives
  cases receives'.symm.trans receives
  obtain ⟨isStream, isBraid⟩ :=
    kept_reads limitsFit agreement' keeps' (Talk.state_act_self ..) short
  obtain ⟨_, follows⟩ := keeps'.follows
  -- The two sides are at most one epoch apart.
  obtain ⟨_, _, _, _, _, _, theirs⟩ := steady.stream limitsFit few side.other
  have near := agreement'.epochs side
  rw [Talk.state_act_self, Talk.state_act_other] at near
  exact ⟨stream', braid, isStream, isBraid, follows.sameLimits,
    (upTo.openEpoch pace keeps.sendKnown opens).keyToReceive yields,
    (openEpoch_counted counted opens).keyToReceive (by omega) yields,
    by omega⟩

/-- The next packet is accepted with the key of its send. -/
theorem Steady.hand
    [LawfulKem]
    (limitsFit : limits.Fits)
    (steady : Steady authKey limits line exchange keySide talk)
    (few : FewSent limits line)
    {item : Bytes × Option (Block 32)}
    {remaining : List (Bytes × Option (Block 32))}
    (queued : line.underway side = item :: remaining) :
    ∃ state key,
      item.2 = some key ∧
        PqRecord.receive (line.state side) item.1 = .ok ⟨state, some key⟩ ∧
          (state.length < 2 ^ 64 →
            ∃ exchange keySide talk,
              Steady authKey limits
                (line.hand side item remaining (.ok (state, some key)))
                exchange keySide talk) := by
  have whole := steady.whole side
  rw [queued] at whole
  obtain ⟨counts, fewLost, inRange⟩ := steady.next_inRange few queued
  obtain ⟨exchange', keySide', talk', orderly⟩ :=
    steady.orderly.hand limitsFit few.short
      (by rw [whole]) queued fewLost inRange
  have member :
      ⟨item.1, item.2, Prod.snd <$> party.receive (line.state side) item.1⟩ ∈
        (line.hand side item remaining
          (party.receive (line.state side) item.1)).handed side := by
    rw [Queues.handed_hand_self]
    exact List.mem_append_right _ List.mem_cons_self
  obtain ⟨key, isKey, accepted⟩ := orderly.accepted side _ member
  obtain ⟨⟨state, received⟩, isReceived, isSome⟩ :=
    Outcome.map_eq_ok.mp accepted
  obtain rfl : received = some key := isSome
  rw [isReceived] at orderly
  rw [party_receive] at isReceived
  obtain ⟨⟨after, _⟩, receives, isPair⟩ := Outcome.bind_eq_ok.mp isReceived
  obtain ⟨rfl, rfl⟩ := Prod.mk.inj (Outcome.ok.inj isPair)
  refine ⟨after, key, isKey, receives, fun short => ?_⟩
  have isSent : item ∈ line.sent side.other := by
    rw [← whole]
    exact List.mem_append_right _ List.mem_cons_self
  obtain ⟨stream, braid, isStream, isBraid, sameLimits, upTo, counted, epochs⟩ :=
    steady.taken_in limitsFit few isSent counts receives short
  refine ⟨exchange', keySide', talk', orderly, ?_, ?_, ?_, ?_⟩
  · intro actor
    rcases actor.eq_or_eq_other side with rfl | rfl
    · simpa using whole
    · simpa using steady.whole side.other
  · exact steady.consecutive
  · intro actor found isFound
    rcases actor.eq_or_eq_other side with rfl | rfl
    · rw [Queues.state_hand_self] at isFound
      obtain rfl := Outcome.ok.inj (isFound.symm.trans isStream)
      exact ⟨sameLimits, upTo, counted⟩
    · rw [Queues.state_hand_other] at isFound
      exact steady.streams side.other found isFound
  · intro actor found isFound
    rw [handedOver_hand]
    rcases actor.eq_or_eq_other side with rfl | rfl
    · rw [Queues.state_hand_self] at isFound
      obtain rfl := Outcome.ok.inj (isFound.symm.trans isBraid)
      exact epochs
    · rw [Queues.state_hand_other] at isFound
      exact (steady.braids side.other found isFound).trans (Nat.le_succ _)

/-- Both records as they are started. -/
theorem start_steady
    {initiator responder : Bytes}
    (limitsFit : limits.Fits)
    (startsInitiator : start authKey .initiator limits = .ok initiator)
    (startsResponder : start authKey .responder limits = .ok responder)
    (short : ∀ side, (startSides initiator responder side).length < 2 ^ 64) :
    ∃ exchange keySide talk,
      Steady authKey limits (Queues.init (startSides initiator responder))
        exchange keySide talk := by
  obtain ⟨_, talk, agreement, keeps⟩ :=
    start_keeps startsInitiator startsResponder limitsFit
  obtain ⟨exchange, keySide, other, orderly⟩ :=
    start_orderly limitsFit startsInitiator startsResponder
  have reads := fun side =>
    kept_reads limitsFit agreement (keeps side) rfl (short side)
  refine ⟨exchange, keySide, other, orderly, fun _ => rfl,
    fun _ => consecutive_nil, ?_, ?_⟩
  · intro side stream isStream
    obtain rfl := Outcome.ok.inj (isStream.symm.trans (reads side).1)
    exact ⟨rfl, SentUpTo.start authKey.bytes side limits,
      Stream.Counted.start authKey.bytes side limits⟩
  · intro side braid isBraid
    obtain rfl := Outcome.ok.inj (isBraid.symm.trans (reads side).2)
    obtain ⟨_, follows⟩ := (keeps side).follows
    have known := (agreement.epoch_known side).2
    have nothing : (secretsOf talk side).length = 0 := follows.epoch.symm
    rw [length_secretsOf] at nothing
    rw [nothing] at known
    exact known

end Steady

end Gossveil.PqRecord
