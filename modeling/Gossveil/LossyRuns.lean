import Gossveil.RecordRuns
import Gossveil.StreamPace
import Gossveil.TwoPartyQueues
import Gossveil.BraidTraps

namespace Gossveil.PqRecord

open TwoParty KeyStream Braid

/-!
# The post-quantum ratchet over lossy queues

Packets arrive in the order they were sent, and some may be lost.  While fewer
of a flow are lost in a row than the jump limit, and no index is within the
skipped limit of the end of its range, every packet that arrives is accepted
with the key of its send: no epoch is pruned before its packets have arrived.
A `usize` has 64 bits here, as in all the parsers.
-/

variable [Hashes] [Kem]

/-- Two records with queues that keep the order. -/
abbrev Line :=
  Queues Bytes Bytes (Option (Block 32)) (Option (Block 32)) RatchetError

/-- The flow of a packet and its index in it. -/
def tagOf (bytes : Bytes) : Nat × Nat :=
  match Packet.parse bytes with
  | .ok (packet, index) => (packet.epoch - 1, index)
  | .error _ => (0, 0)
  | .trap => (0, 0)

/-- The epoch and the index of each packet. -/
def tags (items : List (Bytes × Option (Block 32))) : List (Nat × Nat) :=
  items.map fun item => tagOf item.1

/-- The last index of a flow among some tags; zero before the first. -/
def lastIndex (tags : List (Nat × Nat)) (epoch : Nat) : Nat :=
  match (tags.filter fun tag => decide (tag.1 = epoch)).getLast? with
  | some tag => tag.2
  | none => 0

/-- Fewer indices of the flow were lost in a row than the jump limit. -/
def FewLost
    (limits : Limits)
    (line : Line)
    (side : Side)
    (bytes : Bytes) :
    Prop :=
  (tagOf bytes).2 -
      (lastIndex (tags (line.arrived side)) (tagOf bytes).1 + 1) <
    limits.jump

/--
The receive counts to no end of a range: neither that of the index and the
skipped limit, nor that of the epochs.
-/
def InRange
    (limits : Limits)
    (line : Line)
    (side : Side)
    (bytes : Bytes) :
    Prop :=
  (tagOf bytes).2 + limits.skipped ≤ 2 ^ 32 ∧
    ∀ packet index braid,
      Packet.parse bytes = .ok (packet, index) →
        braidIn (line.state side) = .ok braid → braid.Ends packet →
          braid.epoch + 1 < 2 ^ 64

/-- Both states fit a slice. -/
def Short (line : Line) : Prop :=
  ∀ side, (line.state side).length < 2 ^ 64

/-- What is promised of a run. -/
structure Complete (line : Line) : Prop where
  accepted :
    ∀ side, ∀ delivery ∈ line.handed side,
      ∃ key, delivery.origin = some key ∧
        delivery.outcome = .ok (some key)
  /-- The epoch of a packet on its way has not been pruned. -/
  kept :
    ∀ side, ∀ item ∈ line.underway side, ∀ stream,
      streamIn (line.state side) = .ok stream →
        (tagOf item.1).1 ≤ stream.epoch →
          ∃ slot, stream.slotOf (tagOf item.1).1 = .ok slot

/-! ## Tags -/

omit [Hashes] [Kem] in
/-- A packet's tag is its epoch and index. -/
theorem tagOf_of_parse
    {bytes : Bytes}
    {packet : Packet}
    {index : Nat}
    (parses : Packet.parse bytes = .ok (packet, index)) :
    tagOf bytes = (packet.epoch - 1, index) := by
  rw [tagOf, parses]

omit [Hashes] [Kem] in
/-- The last index of a flow is that of one of its tags. -/
theorem lastIndex_mem (tags : List (Nat × Nat)) (epoch : Nat) :
    lastIndex tags epoch = 0 ∨ (epoch, lastIndex tags epoch) ∈ tags := by
  rw [lastIndex]
  cases last :
      (tags.filter fun tag => decide (tag.1 = epoch)).getLast? with
  | none => exact Or.inl rfl
  | some tag =>
      have member := List.mem_of_getLast? last
      obtain ⟨inTags, isEpoch⟩ := List.mem_filter.mp member
      have same : tag.1 = epoch := of_decide_eq_true isEpoch
      subst same
      exact Or.inr inTags

/-- What a side has been handed, flow by flow. -/
def Taken (line : Line) (side : Side) (epoch index : Nat) : Prop :=
  (epoch, index) ∈ tags (line.arrived side)

omit [Hashes] [Kem] in
@[simp] theorem taken_send
    (line : Line)
    (side : Side)
    (state : Bytes)
    (item : Bytes × Option (Block 32)) :
    Taken (line.send side state item) = Taken line :=
  rfl

/-! ## The invariant -/

/-- Both records, and everything that was sent, is on its way or arrived. -/
structure Orderly
    (authKey : Block 32)
    (limits : Limits)
    (line : Line)
    (exchange : Exchange)
    (keySide : Side)
    (talk : Talk) :
    Prop where
  agreement : Agreement exchange keySide talk
  keeps :
    ∀ side, ∃ stream,
      Keeps authKey limits side (talk.state side) (secretsOf talk side)
          (Taken line side) (line.state side) stream ∧
        Pace (Taken line side) (tags (line.sent side)) stream
  sent :
    ∀ side, ∀ item ∈ line.sent side, ∃ packet index,
      SentAt authKey talk side item.1 item.2 packet index
  ordered : ∀ side, (tags (line.sent side)).Pairwise Before
  /-- A braid is at most one epoch ahead of what is on its way to it. -/
  near :
    ∀ side, ∀ item ∈ line.underway side,
      (talk.state side).epoch ≤ (tagOf item.1).1 + 2
  accepted :
    ∀ side, ∀ delivery ∈ line.handed side,
      ∃ key, delivery.origin = some key ∧
        delivery.outcome = .ok (some key)

variable
  {authKey : Block 32}
  {limits : Limits}
  {line : Line}
  {exchange : Exchange}
  {keySide : Side}
  {talk : Talk}

/-- Orderly queues are complete. -/
theorem Orderly.complete
    (limitsFit : limits.Fits)
    (orderly : Orderly authKey limits line exchange keySide talk)
    (short : Short line) :
    Complete line := by
  refine ⟨orderly.accepted, ?_⟩
  intro side item queued stream isStream known
  obtain ⟨held, keeps, pace⟩ := orderly.keeps side
  have reads :=
    keeps.streamIn_eq (agreement_recordable orderly.agreement side)
      limitsFit
      (by
        rw [length_secretsOf]
        exact orderly.agreement.length_emitted side)
      (short side)
  rw [reads.1] at isStream
  cases isStream
  have near := orderly.near side item queued
  have sendEpoch := keeps.sendEpoch
  exact pace.slotOf (by omega) known

omit [Kem] in
/-- Opening an epoch keeps the pace. -/
theorem openEpoch_pace
    {taken : Nat → Nat → Prop}
    {sent : List (Nat × Nat)}
    {stream opened : Stream}
    {secret : Option EpochSecret}
    (pace : Pace taken sent stream)
    (sendKnown : stream.sendEpoch ≤ stream.epoch)
    (opens : openEpoch stream secret = .ok opened) :
    Pace taken sent opened := by
  cases secret with
  | none =>
      cases opens
      exact pace
  | some value => exact pace.nextEpoch sendKnown opens

omit [Kem] in
/-- A party sends in an epoch it knows. -/
theorem Keeps.sendKnown
    {side : Side}
    {braid : Braid}
    {secrets : List (Block 32)}
    {taken : Nat → Nat → Prop}
    {state : Bytes}
    {stream : Stream}
    (keeps : Keeps authKey limits side braid secrets taken state stream) :
    stream.sendEpoch ≤ stream.epoch := by
  obtain ⟨first, follows⟩ := keeps.follows
  rw [follows.epoch]
  exact follows.sendKnown

/-! ## A send -/

/-- A send keeps the invariant. -/
theorem Orderly.send
    (limitsFit : limits.Fits)
    (orderly : Orderly authKey limits line exchange keySide talk)
    (short : Short line)
    {side : Side}
    {draw : Draw}
    {sent : Sent}
    (sends : PqRecord.send (line.state side) draw = .ok sent) :
    ∃ exchange keySide talk,
      Orderly authKey limits
        (line.send side sent.state (sent.packet, sent.key)) exchange keySide
        talk := by
  obtain ⟨stream, keeps, pace⟩ := orderly.keeps side
  obtain ⟨after, packet, secret, later, index, key, opened, stream', kept⟩ :=
    send_returns limitsFit orderly.agreement keeps (short side) draw sent
      sends
  have openedPace := openEpoch_pace pace keeps.sendKnown kept.opens
  obtain ⟨behind, pace'⟩ := openedPace.keyToSend kept.yields
  have isTag := tagOf_of_parse kept.sentAt.parses
  refine ⟨later, keySide, talk.act side after [packet] secret,
    kept.agreement, ?_, ?_, ?_, ?_, orderly.accepted⟩
  · intro actor
    rcases actor.eq_or_eq_other side with rfl | rfl
    · refine ⟨stream', ?_, ?_⟩
      · simpa using kept.keeps
      · simpa [tags, isTag] using pace'
    · obtain ⟨other, otherKeeps, otherPace⟩ := orderly.keeps side.other
      refine ⟨other, ?_, ?_⟩
      · rw [secretsOf_act_other]
        simpa using otherKeeps
      · simpa using otherPace
  · intro actor item member
    rcases actor.eq_or_eq_other side with rfl | rfl
    · rw [Queues.sent_send_self, List.mem_append, List.mem_singleton]
        at member
      rcases member with before | rfl
      · obtain ⟨packet', index', sentAt⟩ := orderly.sent actor item before
        exact ⟨packet', index', sentAt.act⟩
      · refine ⟨packet, index, ?_⟩
        rw [kept.isKey]
        exact kept.sentAt
    · rw [Queues.sent_send_other] at member
      obtain ⟨packet', index', sentAt⟩ := orderly.sent _ item member
      exact ⟨packet', index', sentAt.act⟩
  · intro actor
    rcases actor.eq_or_eq_other side with rfl | rfl
    · rw [Queues.sent_send_self, tags, List.map_append, List.map_singleton]
      simp only [isTag]
      refine List.pairwise_append.mpr
        ⟨orderly.ordered actor, List.pairwise_singleton _ _, ?_⟩
      rintro first inSent last isLast
      rw [List.mem_singleton] at isLast
      subst isLast
      exact behind first inSent
    · simpa using orderly.ordered side.other
  · intro actor item queued
    rcases actor.eq_or_eq_other side with rfl | rfl
    · rw [Talk.state_act_self, kept.sameEpoch]
      rw [Queues.underway_send_self] at queued
      exact orderly.near actor item queued
    · rw [Talk.state_act_other]
      rw [Queues.underway_send_other, List.mem_append, List.mem_singleton]
        at queued
      rcases queued with before | rfl
      · exact orderly.near _ item before
      · have epochs := kept.agreement.epochs side.other
        have positive := kept.sentAt.epochPositive
        rw [Talk.state_act_other, Side.other_other, Talk.state_act_self,
          ← kept.packetEpoch] at epochs
        rw [isTag]
        simp only
        omega

/-! ## A packet handed over -/

omit [Hashes] [Kem] in
/-- A braid that is read from a state gathers as its state does. -/
theorem braidIn_gathers
    {state : Bytes}
    {braid : Braid}
    (reads : braidIn state = .ok braid) :
    braid.Gathers := by
  obtain ⟨_, _, found⟩ := Outcome.bind_eq_ok.mp reads
  obtain ⟨data, _, readsBraid⟩ := Outcome.bind_eq_ok.mp found
  exact Braid.read_gathers data braid readsBraid

/-- What an accepted packet does to the state of its side. -/
structure Accepts
    (authKey : Block 32)
    (limits : Limits)
    (line : Line)
    (talk : Talk)
    (side : Side)
    (item : Bytes × Option (Block 32))
    (state : Bytes)
    (key : Block 32)
    (after : Braid)
    (secret : Option EpochSecret)
    (later : Exchange)
    (laterSide : Side)
    (stream : Stream) :
    Prop where
  receives : receive (line.state side) item.1 = .ok ⟨state, some key⟩
  isKey : item.2 = some key
  agreement : Agreement later laterSide (talk.act side after [] secret)
  keeps :
    Keeps authKey limits side after
      (secretsOf (talk.act side after [] secret) side)
      (fun epoch index =>
        Taken line side epoch index ∨
          (epoch = (tagOf item.1).1 ∧ index = (tagOf item.1).2))
      state stream
  pace :
    Pace
      (fun epoch index =>
        Taken line side epoch index ∨
          (epoch = (tagOf item.1).1 ∧ index = (tagOf item.1).2))
      (tags (line.sent side)) stream
  epoch : after.epoch ≤ max (talk.state side).epoch ((tagOf item.1).1 + 2)

omit [Kem] in
/-- The flow of a packet that arrives is right behind it. -/
private theorem counter_behind
    {side : Side}
    {stream : Stream}
    {secrets : List (Block 32)}
    {first : Nat}
    (follows :
      Follows authKey.bytes side limits secrets (Taken line side) first
        stream)
    {sent : List (Nat × Nat)}
    (pace : Pace (Taken line side) sent stream)
    {epoch index slot : Nat}
    (behind : ∀ tag ∈ tags (line.arrived side), Before tag (epoch, index))
    (positive : 1 ≤ index)
    (isSlot : stream.slotOf epoch = .ok slot)
    {flows : KeyStream.Epoch}
    (isFlows : stream.flowsOf epoch = some flows) :
    flows.recv.counter < index ∧
      lastIndex (tags (line.arrived side)) epoch ≤ flows.recv.counter := by
  constructor
  · rcases pace.received epoch flows isFlows with none_ | isTaken
    · rw [none_]
      exact positive
    · rcases behind _ isTaken with earlier | ⟨_, lower⟩
      · exact absurd earlier (Nat.lt_irrefl epoch)
      · exact lower
  · rcases lastIndex_mem (tags (line.arrived side)) epoch with
      none_ | isTaken
    · rw [none_]
      exact Nat.zero_le _
    · rw [Stream.flowsOf_of_slot isSlot] at isFlows
      have followed := follows.flows slot flows isFlows
      rw [(follows.slotOf_eq_ok isSlot).1] at followed
      exact followed.recv.behind _ isTaken

/-- A braid takes in what the other side sent, short of its last epoch. -/
private theorem braid_receives
    [LawfulKem]
    (agreement : Agreement exchange keySide talk)
    {side : Side}
    {packet : Packet}
    (isSent : packet ∈ talk.packets side.other)
    (gathers : (talk.state side).Gathers)
    (lastFits :
      (talk.state side).Ends packet → (talk.state side).epoch + 1 < 2 ^ 64) :
    ∃ after secret later laterSide,
      (talk.state side).receive packet = .ok (after, secret) ∧
        Agreement later laterSide (talk.act side after [] secret) := by
  rcases agreement.receive side isSent with ⟨exhausted, trapped⟩ | accepted
  · exfalso
    have outcome := receive_outcome gathers packet
    rw [trapped] at outcome
    cases outcome with
    | refuses _ fails =>
        obtain ⟨fault, ⟨⟩⟩ := fails
    | lastEpoch _ ends last _ =>
        exact absurd (lastFits ends) (Nat.not_lt.mpr last)
    | ends _ _ _ returns =>
        obtain ⟨_, _, ⟨⟩, _⟩ := returns
    | goesOn _ _ returns =>
        obtain ⟨_, ⟨⟩⟩ := returns
  · exact accepted

omit [Kem] in
/-- A stream yields the key of a packet that is ahead of its flow, but near. -/
private theorem key_ahead
    {side : Side}
    {stream : Stream}
    {secrets : List (Block 32)}
    {first : Nat}
    (follows :
      Follows authKey.bytes side limits secrets (Taken line side) first stream)
    {sent : List (Nat × Nat)}
    (pace : Pace (Taken line side) sent stream)
    {epoch index : Nat}
    (behind : ∀ tag ∈ tags (line.arrived side), Before tag (epoch, index))
    (positive : 1 ≤ index)
    (kept : stream.sendEpoch - 1 ≤ epoch)
    (known : epoch ≤ stream.epoch)
    (fewLost :
      index - (lastIndex (tags (line.arrived side)) epoch + 1) < limits.jump)
    (keepFits : index + limits.skipped ≤ 2 ^ 32) :
    ∃ later,
      stream.keyToReceive epoch index =
          .ok (messageKey (chainIn authKey.bytes secrets epoch side.other)
            index, later) ∧
        later.sendEpoch = stream.sendEpoch ∧
        Follows authKey.bytes side limits secrets
            (fun other place =>
              Taken line side other place ∨ (other = epoch ∧ place = index))
            first later ∧
        Pace
          (fun other place =>
            Taken line side other place ∨ (other = epoch ∧ place = index))
          sent later := by
  obtain ⟨slot, isSlot⟩ := pace.slotOf kept known
  obtain ⟨flows, isFlows⟩ := Stream.flowsOf_exists isSlot
  obtain ⟨ahead, atLeast⟩ :=
    counter_behind follows pace behind positive isSlot isFlows
  have skippedPositive : 0 < limits.skipped := limits.skipped_pos
  obtain ⟨recv, counter, yields, follows'⟩ :=
    follows.keyToReceive_ahead isSlot isFlows ahead (by omega) (by omega)
      keepFits
  exact ⟨_, yields, rfl, follows', pace.receive isSlot isFlows counter⟩

/-- A packet that arrives in order, after few losses, is accepted. -/
theorem Orderly.accepts
    [LawfulKem]
    (limitsFit : limits.Fits)
    (orderly : Orderly authKey limits line exchange keySide talk)
    (short : Short line)
    {side : Side}
    {item : Bytes × Option (Block 32)}
    (isSent : item ∈ line.sent side.other)
    (behind :
      ∀ tag ∈ tags (line.arrived side), Before tag (tagOf item.1))
    (near : (talk.state side).epoch ≤ (tagOf item.1).1 + 2)
    (fewLost : FewLost limits line side item.1)
    (inRange : InRange limits line side item.1) :
    ∃ state key after secret later laterSide stream,
      Accepts authKey limits line talk side item state key after secret
        later laterSide stream := by
  obtain ⟨stream, keeps, pace⟩ := orderly.keeps side
  obtain ⟨packet, index, sentAt⟩ := orderly.sent side.other item isSent
  have isTag := tagOf_of_parse sentAt.parses
  have positive := sentAt.epochPositive
  obtain ⟨keepFits, lastFits⟩ := inRange
  rw [FewLost] at fewLost
  rw [isTag] at behind near fewLost keepFits
  simp only at near fewLost keepFits
  have parts :=
    receive_parts limitsFit orderly.agreement keeps (short side) sentAt
  have reads :=
    keeps.streamIn_eq (agreement_recordable orderly.agreement side)
      limitsFit
      (by
        rw [length_secretsOf]
        exact orderly.agreement.length_emitted side)
      (short side)
  obtain ⟨after, secret, later, laterSide, receives, agreement'⟩ :=
    braid_receives orderly.agreement sentAt.isSent (braidIn_gathers reads.2)
      (lastFits packet index _ sentAt.parses reads.2)
  obtain ⟨reached, moved⟩ :=
    Braid.receive_reaches _ packet _ receives
  simp only at reached moved
  obtain ⟨first, follows⟩ := keeps.follows
  obtain ⟨opened, opens, openedFollows, openedSend⟩ :=
    openEpoch_follows follows (secret_next agreement')
  rw [← secretsOf_act_self talk side after []] at openedFollows
  -- The epoch is known, and it has not been pruned.
  have known : packet.epoch - 1 ≤ opened.epoch := by
    have epochKnown := (agreement'.epoch_known side).2
    rw [Talk.state_act_self] at epochKnown
    rw [openedFollows.epoch, length_secretsOf]
    omega
  have sendEpoch := keeps.sendEpoch
  obtain ⟨stream', yields, sameSend, follows', pace'⟩ :=
    key_ahead openedFollows (openEpoch_pace pace keeps.sendKnown opens) behind
      sentAt.positive (by omega) known fewLost keepFits
  have received :
      receive (line.state side) item.1 =
        .ok ⟨writeRecord none (some stream') after,
          some (messageKey
            (chainIn authKey.bytes
              (secretsOf (talk.act side after [] secret) side)
              (packet.epoch - 1) side.other)
            index)⟩ := by
    rw [parts, receives, Outcome.ok_bind]
    simp only
    rw [opens, Outcome.ok_bind, yields]
    rfl
  refine ⟨_, _, after, secret, later, laterSide, stream',
    ⟨received, ?_, agreement', ?_, ?_, ?_⟩⟩
  · refine sentAt.isKey_received agreement' ?_
    rw [← openedFollows.epoch]
    exact known
  · rw [isTag]
    refine ⟨⟨none, some stream', rfl, by simp, Or.inl rfl⟩,
      ⟨first, follows'⟩, ?_⟩
    rw [sameSend, openedSend]
    exact sendEpoch.trans (Braid.receive_epoch _ _ _ receives)
  · rw [isTag]
    exact pace'
  · rw [isTag]
    simp only
    omega

omit [Hashes] [Kem] in
/-- An item of a sorted list is between those before and after it. -/
private theorem pairwise_around
    {α : Type}
    {Rel : α → α → Prop}
    {earlier later : List α}
    {item : α}
    (sorted : (earlier ++ item :: later).Pairwise Rel) :
    (∀ first ∈ earlier, Rel first item) ∧
      ∀ last ∈ later, Rel item last := by
  obtain ⟨_, fromItem, across⟩ := List.pairwise_append.mp sorted
  exact ⟨fun first member => across first member item List.mem_cons_self,
    (List.pairwise_cons.mp fromItem).1⟩

omit [Hashes] [Kem] in
/-- A delivered packet's place is taken from then on. -/
theorem taken_hand_self
    (line : Line)
    (side : Side)
    (item : Bytes × Option (Block 32))
    (remaining : List (Bytes × Option (Block 32)))
    (outcome : Outcome RatchetError (Bytes × Option (Block 32))) :
    Taken (line.hand side item remaining outcome) side =
      fun epoch index =>
        Taken line side epoch index ∨
          (epoch = (tagOf item.1).1 ∧ index = (tagOf item.1).2) := by
  funext epoch index
  rw [Taken, Queues.arrived_hand_self, tags, List.map_append,
    List.mem_append, List.map_singleton, List.mem_singleton,
    Prod.ext_iff]
  rfl

omit [Hashes] [Kem] in
/-- A delivery takes no place on the other side. -/
theorem taken_hand_other
    (line : Line)
    (side : Side)
    (item : Bytes × Option (Block 32))
    (remaining : List (Bytes × Option (Block 32)))
    (outcome : Outcome RatchetError (Bytes × Option (Block 32))) :
    Taken (line.hand side item remaining outcome) side.other =
      Taken line side.other := by
  funext epoch index
  rw [Taken, Queues.arrived_hand_other]
  rfl

/-- Handing a packet over keeps the invariant. -/
theorem Orderly.hand
    [LawfulKem]
    (limitsFit : limits.Fits)
    (orderly : Orderly authKey limits line exchange keySide talk)
    (short : Short line)
    {side : Side}
    {item : Bytes × Option (Block 32)}
    {remaining : List (Bytes × Option (Block 32))}
    (inOrder :
      (line.arrived side ++ item :: remaining).Sublist
        (line.sent side.other))
    (queued : line.underway side = item :: remaining)
    (fewLost : FewLost limits line side item.1)
    (inRange : InRange limits line side item.1) :
    ∃ exchange keySide talk,
      Orderly authKey limits
        (line.hand side item remaining
          (party.receive (line.state side) item.1))
        exchange keySide talk := by
  have sorted := (orderly.ordered side.other).sublist
    (inOrder.map fun item => tagOf item.1)
  rw [List.map_append, List.map_cons] at sorted
  obtain ⟨behind, ahead⟩ := pairwise_around sorted
  have isSent : item ∈ line.sent side.other :=
    inOrder.subset (List.mem_append_right _ List.mem_cons_self)
  have near : (talk.state side).epoch ≤ (tagOf item.1).1 + 2 := by
    refine orderly.near side item ?_
    rw [queued]
    exact List.mem_cons_self
  obtain ⟨state, key, after, secret, later, laterSide, stream, accepts⟩ :=
    orderly.accepts limitsFit short isSent behind near fewLost inRange
  have received :
      party.receive (line.state side) item.1 = .ok (state, some key) := by
    rw [party_receive, accepts.receives]
    rfl
  rw [received]
  refine ⟨later, laterSide, talk.act side after [] secret,
    accepts.agreement, ?_, ?_, ?_, ?_, ?_⟩
  · intro actor
    rcases actor.eq_or_eq_other side with rfl | rfl
    · refine ⟨stream, ?_, ?_⟩
      · rw [taken_hand_self]
        simpa [Queues.settled] using accepts.keeps
      · rw [taken_hand_self]
        simpa using accepts.pace
    · obtain ⟨other, otherKeeps, otherPace⟩ := orderly.keeps side.other
      refine ⟨other, ?_, ?_⟩
      · rw [taken_hand_other, secretsOf_act_other]
        simpa using otherKeeps
      · rw [taken_hand_other]
        simpa using otherPace
  · intro actor sent member
    obtain ⟨packet, index, sentAt⟩ := orderly.sent actor sent member
    exact ⟨packet, index, sentAt.act⟩
  · exact orderly.ordered
  · intro actor sent member
    rcases actor.eq_or_eq_other side with rfl | rfl
    · rw [Talk.state_act_self]
      rw [Queues.underway_hand_self] at member
      have before := orderly.near actor sent (by
        rw [queued]
        exact List.mem_cons_of_mem _ member)
      have moved := accepts.epoch
      rcases ahead (tagOf sent.1) (List.mem_map_of_mem member) with
        earlier | ⟨same, _⟩
      · omega
      · omega
    · rw [Talk.state_act_other]
      rw [Queues.underway_hand_other] at member
      exact orderly.near _ sent member
  · intro actor delivery member
    rcases actor.eq_or_eq_other side with rfl | rfl
    · rw [Queues.handed_hand_self, List.mem_append, List.mem_singleton]
        at member
      rcases member with before | rfl
      · exact orderly.accepted actor delivery before
      · exact ⟨key, accepts.isKey, rfl⟩
    · rw [Queues.handed_hand_other] at member
      exact orderly.accepted _ delivery member

/-! ## Runs -/

/-- Both records as they are started. -/
theorem start_orderly
    {initiator responder : Bytes}
    (limitsFit : limits.Fits)
    (startsInitiator : start authKey .initiator limits = .ok initiator)
    (startsResponder : start authKey .responder limits = .ok responder) :
    ∃ exchange keySide talk,
      Orderly authKey limits
        (Queues.init (startSides initiator responder)) exchange keySide
        talk := by
  obtain ⟨exchange, talk, agreement, keeps⟩ :=
    start_keeps startsInitiator startsResponder limitsFit
  have nothing :
      ∀ side,
        Taken (Queues.init (startSides initiator responder)) side =
          fun _ _ => False := by
    intro side
    funext epoch index
    exact propext ⟨fun member => (List.not_mem_nil member).elim,
      False.elim⟩
  refine ⟨exchange, .initiator, talk, agreement, ?_, ?_, ?_, ?_, ?_⟩
  · intro side
    rw [nothing]
    exact ⟨_, keeps side, Pace.start _ authKey.bytes side limits⟩
  · intro side item member
    cases member
  · exact fun side => List.Pairwise.nil
  · intro side item member
    cases member
  · intro side delivery member
    cases member

/--
Two sides started on one key and with the same limits accept every packet
that arrives, in every run over lossy queues that loses few enough and counts
to no end of a range.
-/
theorem lossy_queues_complete
    [LawfulKem]
    (limitsFit : limits.Fits)
    {initiator responder : Bytes}
    (startsInitiator : start authKey .initiator limits = .ok initiator)
    (startsResponder : start authKey .responder limits = .ok responder)
    (run :
      QueueRun party (startSides initiator responder)
        (fun line side bytes =>
          FewLost limits line side bytes ∧ InRange limits line side bytes)
        Short line) :
    Complete line := by
  suffices invariant :
      ∃ exchange keySide talk,
        Orderly authKey limits line exchange keySide talk by
    obtain ⟨exchange, keySide, talk, orderly⟩ := invariant
    exact orderly.complete limitsFit run.within
  induction run with
  | init _ => exact start_orderly limitsFit startsInitiator startsResponder
  | @step line _ before step _ inductionHypothesis =>
      obtain ⟨exchange, keySide, talk, orderly⟩ := inductionHypothesis
      cases step with
      | @send side draw state packet key sends =>
          rw [party_send] at sends
          obtain ⟨sent, sent', ⟨⟩⟩ := Outcome.bind_eq_ok.mp sends
          exact orderly.send limitsFit before.within sent'
      | @lose side earlier later item queued =>
          refine ⟨exchange, keySide, talk, orderly.agreement, ?_,
            orderly.sent, orderly.ordered, ?_, orderly.accepted⟩
          · exact orderly.keeps
          · intro actor other member
            rcases actor.eq_or_eq_other side with rfl | rfl
            · rw [Queues.underway_lose_self] at member
              refine orderly.near actor other ?_
              rw [queued]
              exact ((List.Sublist.refl _).append
                (List.sublist_cons_self item later)).subset member
            · rw [Queues.underway_lose_other] at member
              exact orderly.near _ other member
      | @hand side item remaining queued meets =>
          have inOrder := before.inOrder side
          rw [queued] at inOrder
          exact orderly.hand limitsFit before.within inOrder queued
            meets.1 meets.2

end Gossveil.PqRecord

namespace Gossveil.PqRecord

open TwoParty KeyStream Braid Sample

attribute [local instance] hashes kem

/-- The draw of the sample runs. -/
private def lossyDraw : Draw := ⟨Block.zero 64, Block.zero 32⟩

/-- The skipped limit is as large as it can be. -/
private def wideLimits : Limits := ⟨0, 2 ^ 32 - 1⟩

/-- The record a side starts with under some limits. -/
private def lossyStart (limits : Limits) (side : Side) : Bytes :=
  match start (Block.zero 32) side limits with
  | .ok state => state
  | _ => []

/-- What a send returns in the sample runs. -/
private def lossySent (state : Bytes) : Sent :=
  match send state lossyDraw with
  | .ok sent => sent
  | _ => ⟨[], [], none⟩

/-- The responder's first send. -/
private def lossyFirst (limits : Limits) : Sent :=
  lossySent (lossyStart limits .responder)

/-- The responder's second send. -/
private def lossySecond (limits : Limits) : Sent :=
  lossySent (lossyFirst limits).state

/-- The initiator after the first packet. -/
private def lossyReceived (limits : Limits) : Received :=
  match receive (lossyStart limits .initiator) (lossyFirst limits).packet with
  | .ok received => received
  | _ => ⟨[], none⟩

/-- The responder has sent two packets. -/
private def twoSent
    (initiator responder : Bytes)
    (first second : Sent) :
    Line :=
  ((Queues.init (startSides initiator responder)).send .responder
      first.state (first.packet, first.key)).send
    .responder second.state (second.packet, second.key)

/-- The initiator has been handed the first of them. -/
private def firstHanded
    (initiator responder : Bytes)
    (first second : Sent)
    (received : Received) :
    Line :=
  (twoSent initiator responder first second).hand .initiator
    (first.packet, first.key) [(second.packet, second.key)]
    (.ok (received.state, received.key))

/-- And the second, on which the receive has trapped. -/
private def bothHanded
    (initiator responder : Bytes)
    (first second : Sent)
    (received : Received) :
    Line :=
  (firstHanded initiator responder first second received).hand .initiator
    (second.packet, second.key) [] .trap

/-- The calls of the run. -/
private structure LossySteps
    (limits : Limits)
    (initiator responder : Bytes)
    (first second : Sent)
    (received : Received) :
    Prop where
  startsInitiator : start (Block.zero 32) .initiator limits = .ok initiator
  startsResponder : start (Block.zero 32) .responder limits = .ok responder
  sendsFirst : send responder lossyDraw = .ok first
  sendsSecond : send first.state lossyDraw = .ok second
  receives : receive initiator first.packet = .ok received
  short :
    initiator.length < 2 ^ 64 ∧ responder.length < 2 ^ 64 ∧
      first.state.length < 2 ^ 64 ∧ second.state.length < 2 ^ 64 ∧
      received.state.length < 2 ^ 64
  tags : tagOf first.packet = (0, 1) ∧ tagOf second.packet = (0, 2)

private theorem short_of_sides
    {line : Line}
    (initiator : (line.state .initiator).length < 2 ^ 64)
    (responder : (line.state .responder).length < 2 ^ 64) :
    Short line := by
  intro side
  cases side with
  | initiator => exact initiator
  | responder => exact responder

/-- A small index has few before it to be lost. -/
private theorem fewLost_of_le
    {limits : Limits}
    {line : Line}
    {side : Side}
    {bytes : Bytes}
    (positive : 1 ≤ (tagOf bytes).2)
    (small : (tagOf bytes).2 ≤ limits.jump) :
    FewLost limits line side bytes := by
  unfold FewLost
  omega

section Steps

variable
  {limits : Limits}
  {initiator responder : Bytes}
  {first second : Sent}
  {received : Received}
  {Meets : Line → Side → Bytes → Prop}

/-- The run that delivers the first packet. -/
private theorem firstHanded_run
    (steps : LossySteps limits initiator responder first second received)
    (meets :
      Meets (twoSent initiator responder first second) .initiator
        first.packet) :
    QueueRun party (startSides initiator responder) Meets Short
      (firstHanded initiator responder first second received) := by
  obtain ⟨shortInitiator, shortResponder, shortFirst, shortSecond,
    shortReceived⟩ := steps.short
  have begins :
      QueueRun party (startSides initiator responder) Meets Short
        (twoSent initiator responder first second) := by
    refine .step (.step (.init (short_of_sides shortInitiator
      shortResponder)) (.send .responder lossyDraw ?_)
      (short_of_sides shortInitiator shortFirst))
      (.send .responder lossyDraw ?_)
      (short_of_sides shortInitiator shortSecond)
    · rw [party_send]
      exact Outcome.bind_eq_ok.mpr ⟨_, steps.sendsFirst, rfl⟩
    · rw [party_send]
      exact Outcome.bind_eq_ok.mpr ⟨_, steps.sendsSecond, rfl⟩
  have receives :
      party.receive initiator first.packet =
        .ok (received.state, received.key) := by
    rw [party_receive, steps.receives]
    rfl
  rw [firstHanded, ← receives]
  refine .step begins
    (@QueueStep.hand _ _ _ _ _ _ _ _ _ .initiator
      (first.packet, first.key) [(second.packet, second.key)] rfl meets)
    (short_of_sides ?_ shortSecond)
  rw [receives]
  exact shortReceived

/-- The run that delivers both packets. -/
private theorem bothHanded_run
    (steps : LossySteps limits initiator responder first second received)
    (traps : receive received.state second.packet = .trap)
    (meetsFirst :
      Meets (twoSent initiator responder first second) .initiator
        first.packet)
    (meetsSecond :
      Meets (firstHanded initiator responder first second received)
        .initiator second.packet) :
    QueueRun party (startSides initiator responder) Meets Short
      (bothHanded initiator responder first second received) := by
  obtain ⟨_, _, _, shortSecond, shortReceived⟩ := steps.short
  have receives :
      party.receive received.state second.packet = .trap := by
    rw [party_receive, traps]
    rfl
  rw [bothHanded, ← receives]
  refine .step (firstHanded_run steps meetsFirst)
    (@QueueStep.hand _ _ _ _ _ _ _ _ _ .initiator
      (second.packet, second.key) [] rfl meetsSecond)
    (short_of_sides ?_ shortSecond)
  rw [receives]
  exact shortReceived

/-- Two keys were sent there, and one was received. -/
private theorem bothHanded_not_complete
    (initiator responder : Bytes)
    (first second : Sent)
    (received : Received) :
    ¬ Complete (bothHanded initiator responder first second received) := by
  intro complete
  have member :
      ⟨second.packet, second.key, .trap⟩ ∈
        (bothHanded initiator responder first second received).handed
          .initiator := by
    rw [bothHanded, Queues.handed_hand_self]
    exact List.mem_append_right _ List.mem_cons_self
  obtain ⟨key, _, accepted⟩ := complete.accepted .initiator _ member
  cases accepted

end Steps

set_option maxRecDepth 100000 in
/-- The steps of the run under wide limits. -/
private theorem wideSteps :
    LossySteps wideLimits (lossyStart wideLimits .initiator)
      (lossyStart wideLimits .responder) (lossyFirst wideLimits)
      (lossySecond wideLimits) (lossyReceived wideLimits) := by
  have steps :
      start (Block.zero 32) .initiator wideLimits =
          .ok (lossyStart wideLimits .initiator) ∧
        start (Block.zero 32) .responder wideLimits =
          .ok (lossyStart wideLimits .responder) ∧
        send (lossyStart wideLimits .responder) lossyDraw =
          .ok (lossyFirst wideLimits) ∧
        send (lossyFirst wideLimits).state lossyDraw =
          .ok (lossySecond wideLimits) ∧
        receive (lossyStart wideLimits .initiator)
            (lossyFirst wideLimits).packet =
          .ok (lossyReceived wideLimits) := by
    decide
  obtain ⟨initiator, responder, first, second, received⟩ := steps
  exact ⟨initiator, responder, first, second, received, by decide,
    by decide⟩

set_option maxRecDepth 100000 in
/-- The second packet overruns its flow. -/
private theorem wide_traps :
    receive (lossyReceived wideLimits).state (lossySecond wideLimits).packet =
      .trap := by
  decide

/-- What a receive returns in the sample run. -/
private def fewReceived (state : Bytes) (sent : Sent) : Received :=
  match receive state sent.packet with
  | .ok received => received
  | _ => ⟨[], none⟩

/-- The record a side starts with under the limits by default. -/
@[irreducible] private def fewStart (side : Side) : Bytes :=
  lossyStart Limits.default side

/-- The responder's packets, each sent from the state the last one left. -/
@[irreducible] private def fewFirst : Sent :=
  lossySent (fewStart .responder)

/-- The second send, which arrives first. -/
@[irreducible] private def fewSecond : Sent :=
  lossySent fewFirst.state

/-- The third send. -/
@[irreducible] private def fewThird : Sent :=
  lossySent fewSecond.state

/-- The initiator after the second packet; the first is lost. -/
@[irreducible] private def fewBegun : Received :=
  fewReceived (fewStart .initiator) fewSecond

/-- The initiator after the third packet as well. -/
@[irreducible] private def fewEnded : Received :=
  fewReceived fewBegun.state fewThird

/-- The first of two packets is lost. -/
private def fewLine : Line :=
  (twoSent (fewStart .initiator) (fewStart .responder) fewFirst
    fewSecond).lose .initiator [(fewSecond.packet, fewSecond.key)]

/-- The second is handed over, and a third one sent. -/
private def fewMiddle : Line :=
  (fewLine.hand .initiator (fewSecond.packet, fewSecond.key) []
    (.ok (fewBegun.state, fewBegun.key))).send .responder fewThird.state
    (fewThird.packet, fewThird.key)

/-- And the third. -/
private def fewHanded : Line :=
  fewMiddle.hand .initiator (fewThird.packet, fewThird.key) []
    (.ok (fewEnded.state, fewEnded.key))

set_option maxRecDepth 100000 in
/-- The steps of a run that loses two packets. -/
private theorem few_steps :
    (start (Block.zero 32) .initiator Limits.default =
        .ok (fewStart .initiator) ∧
      start (Block.zero 32) .responder Limits.default =
        .ok (fewStart .responder) ∧
      send (fewStart .responder) lossyDraw = .ok fewFirst ∧
      send fewFirst.state lossyDraw = .ok fewSecond ∧
      send fewSecond.state lossyDraw = .ok fewThird) ∧
      receive (fewStart .initiator) fewSecond.packet = .ok fewBegun ∧
      receive fewBegun.state fewThird.packet = .ok fewEnded := by
  decide +kernel

set_option maxRecDepth 100000 in
private theorem few_bounds :
    (tagOf fewSecond.packet = (0, 2) ∧ tagOf fewThird.packet = (0, 3)) ∧
      (∀ state ∈ [fewStart .initiator, fewStart .responder, fewFirst.state,
          fewSecond.state, fewThird.state, fewBegun.state, fewEnded.state],
        state.length < 2 ^ 64) ∧
      ∀ state ∈ [fewStart .initiator, fewBegun.state],
        Braid.epoch <$> braidIn state = .ok 1 := by
  decide +kernel

/-- The responder sends, from the state it has come to. -/
private theorem sent_run
    {line : Line}
    {state : Bytes}
    {sent : Sent}
    {Meets : Line → Side → Bytes → Prop}
    {start : Side → Bytes}
    (run : QueueRun party start Meets Short line)
    (isState : line.state .responder = state)
    (sends : send state lossyDraw = .ok sent)
    (short : sent.state.length < 2 ^ 64) :
    QueueRun party start Meets Short
      (line.send .responder sent.state (sent.packet, sent.key)) := by
  refine .step run (.send .responder lossyDraw ?_)
    (short_of_sides (run.within .initiator) short)
  rw [party_send, isState]
  exact Outcome.bind_eq_ok.mpr ⟨_, sends, rfl⟩

/-- The initiator takes the packet that comes next. -/
private theorem handed_run
    {line : Line}
    {state : Bytes}
    {item : Bytes × Option (Block 32)}
    {remaining : List (Bytes × Option (Block 32))}
    {received : Received}
    {Meets : Line → Side → Bytes → Prop}
    {start : Side → Bytes}
    (run : QueueRun party start Meets Short line)
    (isState : line.state .initiator = state)
    (queued : line.underway .initiator = item :: remaining)
    (meets : Meets line .initiator item.1)
    (receives : receive state item.1 = .ok received)
    (short : received.state.length < 2 ^ 64) :
    QueueRun party start Meets Short
      (line.hand .initiator item remaining
        (.ok (received.state, received.key))) := by
  have accepts :
      party.receive (line.state .initiator) item.1 =
        .ok (received.state, received.key) := by
    rw [party_receive, isState, receives]
    rfl
  have step := @QueueStep.hand _ _ _ _ _ _ party Meets line .initiator item
    remaining queued meets
  rw [accepts] at step
  exact .step run step (short_of_sides short (run.within .responder))

/-- What is asked of a packet that is handed over. -/
private abbrev FewMeets (line : Line) (side : Side) (bytes : Bytes) : Prop :=
  FewLost Limits.default line side bytes ∧ InRange Limits.default line side bytes

/-- A small index, and an epoch that is not the last. -/
private theorem few_meets
    {line : Line}
    {state bytes : Bytes}
    (isState : line.state .initiator = state)
    (positive : 1 ≤ (tagOf bytes).2)
    (small : (tagOf bytes).2 ≤ 3)
    (epochs : Braid.epoch <$> braidIn state = .ok 1) :
    FewMeets line .initiator bytes := by
  have jump : 3 ≤ Limits.default.jump := by
    decide
  have skipped : 3 + Limits.default.skipped ≤ 2 ^ 32 := by
    decide
  refine ⟨fewLost_of_le positive (small.trans jump), by omega, ?_⟩
  intro _ _ braid _ reads _
  rw [isState] at reads
  rw [reads] at epochs
  have first : braid.epoch = 1 := Outcome.ok.inj epochs
  rw [first]
  decide

/-- The run that loses two packets. -/
private theorem fewHanded_run :
    QueueRun party (startSides (fewStart .initiator) (fewStart .responder))
      FewMeets Short fewHanded := by
  obtain ⟨⟨_, _, first, second, third⟩, begun, ended⟩ := few_steps
  obtain ⟨⟨isSecond, isThird⟩, short, epochs⟩ := few_bounds
  simp only [List.forall_mem_cons] at short epochs
  obtain ⟨shortInitiator, shortResponder, shortFirst, shortSecond, shortThird,
    shortBegun, shortEnded, _⟩ := short
  have begins :
      QueueRun party (startSides (fewStart .initiator) (fewStart .responder))
        FewMeets Short
        (Queues.init
          (startSides (fewStart .initiator) (fewStart .responder))) :=
    .init (short_of_sides shortInitiator shortResponder)
  have sent :=
    sent_run (sent_run begins rfl first shortFirst) rfl second shortSecond
  have lost :
      QueueRun party (startSides (fewStart .initiator) (fewStart .responder))
        FewMeets Short fewLine :=
    .step sent
      (@QueueStep.lose _ _ _ _ _ _ _ _ _ .initiator []
        [(fewSecond.packet, fewSecond.key)] (fewFirst.packet, fewFirst.key)
        rfl)
      (short_of_sides shortInitiator shortSecond)
  have handed :=
    handed_run lost rfl rfl
      (few_meets rfl (by rw [isSecond]; decide) (by rw [isSecond]; decide)
        epochs.1)
      begun shortBegun
  exact handed_run (sent_run handed rfl third shortThird) rfl rfl
    (few_meets rfl (by rw [isThird]; decide) (by rw [isThird]) epochs.2.1)
    ended shortEnded

/-- One packet is lost, and two are handed over. -/
theorem lossy_queues_complete_packets :
    fewHanded.handed .initiator =
        [⟨fewSecond.packet, fewSecond.key, .ok fewBegun.key⟩,
          ⟨fewThird.packet, fewThird.key, .ok fewEnded.key⟩] ∧
      Complete fewHanded := by
  have lawful : LawfulKem := lawfulKem
  have limitsFit : Limits.default.Fits := by
    refine ⟨?_, ?_⟩ <;> decide
  obtain ⟨⟨startsInitiator, startsResponder, _⟩, _⟩ := few_steps
  exact ⟨rfl, lossy_queues_complete limitsFit startsInitiator startsResponder
    fewHanded_run⟩

/-- Under the widest limits the second of two packets is not accepted. -/
theorem wideLimits_not_complete :
    ∃ line,
      QueueRun party
          (startSides (lossyStart wideLimits .initiator)
            (lossyStart wideLimits .responder))
          (FewLost wideLimits) Short line ∧
        ¬ Complete line := by
  have steps := wideSteps
  have traps := wide_traps
  obtain ⟨first, second⟩ := steps.tags
  refine ⟨_, bothHanded_run steps traps ?_ ?_, ?_⟩
  · exact fewLost_of_le (by rw [first]) (by rw [first]; decide)
  · exact fewLost_of_le (by rw [second]; decide) (by rw [second]; decide)
  · exact bothHanded_not_complete _ _ _ _ _

end Gossveil.PqRecord
