import Gossveil.RecordSafety

namespace Gossveil.PqRecord

open TwoParty KeyStream Braid

/-!
# Runs of the post-quantum ratchet

Two sides that start on one key exchange packets in any order, with loss, delay
and duplication.  While no counter comes near the end of its range, every send
yields a key, every accepted packet yields its sender's key, and no packet is
accepted twice.
-/

variable [Hashes] [Kem]

/-- The ratchet as a party; a call that fails leaves the state as it was. -/
def party :
    Party Bytes Draw Bytes (Option (Block 32)) (Option (Block 32))
      RatchetError :=
  { send := fun state draw => do
      let sent ← send state draw
      return (sent.state, sent.packet, sent.key)
    receive := fun state packet => do
      let received ← receive state packet
      return (received.state, received.key) }

/-- A party sends as the record does. -/
theorem party_send (state : Bytes) (draw : Draw) :
    party.send state draw = (do
      let sent ← send state draw
      return (sent.state, sent.packet, sent.key)) :=
  rfl

/-- A party receives as the record does. -/
theorem party_receive (state packet : Bytes) :
    party.receive state packet = (do
      let received ← receive state packet
      return (received.state, received.key)) :=
  rfl

/-- A run of two records and what each side has sent and received. -/
abbrev Run := Joint Bytes Bytes (Option (Block 32)) (Option (Block 32))

/-- The packet that one call accepted. -/
def acceptedPacket :
    Event Bytes (Option (Block 32)) (Option (Block 32)) → Option Bytes
  | .sent _ _ => none
  | .received packet _ => some packet

/-- The packets a side has accepted, in the order of its calls. -/
def accepted (run : Run) (side : Side) : List Bytes :=
  run.collect acceptedPacket side

/-- The two records at the start. -/
def startSides (initiator responder : Bytes) : Side → Bytes
  | .initiator => initiator
  | .responder => responder

/-- Both states fit a slice, and no counter is near the end of its range. -/
def Within (run : Run) : Prop :=
  ∀ side, (run.state side).length < 2 ^ 64 ∧
    ∀ stream, streamIn (run.state side) = .ok stream → CountersFit stream

/-- What is promised of a state of a run. -/
structure Safe (run : Run) : Prop where
  sends :
    ∀ side draw, ∃ sent key,
      send (run.state side) draw = .ok sent ∧ sent.key = some key
  /-- A receive reaches no illegal behaviour before the last epoch. -/
  receives :
    ∀ side packet key, run.HasSent side.other packet key →
      receive (run.state side) packet = .trap →
      ∃ braid, braidIn (run.state side) = .ok braid ∧
        2 ^ 64 ≤ braid.epoch + 1
  agree :
    ∀ side packet key, run.HasReceived side packet key →
      (∃ value, key = some value) ∧
        ∀ sentKey, run.HasSent side.other packet sentKey → sentKey = key
  once : ∀ side, (accepted run side).Nodup

/-! ## The invariant -/

/-- A packet one side accepted, and the key it then had. -/
structure AcceptedAs
    (authKey : Block 32)
    (talk : Talk)
    (side : Side)
    (taken : Nat → Nat → Prop)
    (bytes : Bytes)
    (key : Option (Block 32)) :
    Prop where
  isTaken :
    ∃ packet index, Packet.parse bytes = .ok (packet, index) ∧
      taken (packet.epoch - 1) index ∧
      packet.epoch - 1 ≤ (secretsOf talk side.other).length ∧
      key =
        some (messageKey
          (chainIn authKey.bytes (secretsOf talk side.other)
            (packet.epoch - 1) side.other)
          index)

/-- Both records, and everything that was sent and accepted. -/
structure Holds
    (authKey : Block 32)
    (limits : Limits)
    (run : Run)
    (exchange : Exchange)
    (keySide : Side)
    (talk : Talk)
    (taken : Side → Nat → Nat → Prop) :
    Prop where
  agreement : Agreement exchange keySide talk
  keeps :
    ∀ side, ∃ stream,
      Keeps authKey limits side (talk.state side) (secretsOf talk side)
        (taken side) (run.state side) stream
  sent :
    ∀ side bytes key, run.HasSent side bytes key →
      ∃ packet index,
        SentAs authKey limits talk side bytes key packet index
  received :
    ∀ side bytes key, run.HasReceived side bytes key →
      AcceptedAs authKey talk side (taken side) bytes key
  once : ∀ side, (accepted run side).Nodup

/-- The run follows some talk of two braids. -/
def Invariant (authKey : Block 32) (limits : Limits) (run : Run) : Prop :=
  ∃ exchange keySide talk taken,
    Holds authKey limits run exchange keySide talk taken

variable
  {authKey : Block 32}
  {limits : Limits}
  {run : Run}
  {exchange : Exchange}
  {keySide : Side}
  {talk : Talk}
  {taken : Side → Nat → Nat → Prop}

/-- The stream of a side that is kept within bounds. -/
theorem Holds.stream
    (limitsFit : limits.Fits)
    (holds : Holds authKey limits run exchange keySide talk taken)
    (within : Within run)
    (side : Side) :
    ∃ stream,
      Keeps authKey limits side (talk.state side) (secretsOf talk side)
          (taken side) (run.state side) stream ∧
        CountersFit stream ∧
        braidIn (run.state side) = .ok (talk.state side) := by
  rcases holds.keeps side with ⟨stream, keeps⟩
  rcases within side with ⟨short, fit⟩
  rcases keeps.streamIn_eq (agreement_recordable holds.agreement side)
      limitsFit
      (by rw [length_secretsOf]; exact holds.agreement.length_emitted side)
      short with
    ⟨isStream, isBraid⟩
  exact ⟨stream, keeps, fit stream isStream, isBraid⟩

/-- The claims about a state follow from the invariant. -/
theorem Holds.safe
    [LawfulKem]
    (generates : ∀ seed, ∃ keys, Kem.generate seed = some keys)
    (limitsFit : limits.Fits)
    (holds : Holds authKey limits run exchange keySide talk taken)
    (within : Within run) :
    Safe run := by
  refine ⟨?_, ?_, ?_, holds.once⟩
  · intro side draw
    rcases holds.stream limitsFit within side with ⟨stream, keeps, fit, _⟩
    rcases send_keeps generates limitsFit holds.agreement keeps fit
        (within side).1 draw with
      ⟨sent, _, _, _, _, _, key, _, _, sends, kept⟩
    exact ⟨sent, key, sends, kept.isKey⟩
  · intro side bytes key offered trapped
    rcases holds.stream limitsFit within side with
      ⟨stream, keeps, fit, isBraid⟩
    rcases holds.sent side.other bytes key offered with
      ⟨packet, index, sent⟩
    rcases receive_keeps limitsFit holds.agreement keeps fit
        (within side).1 sent with
      ⟨fault, refused⟩ | ⟨exhausted, _⟩ |
        ⟨_, _, _, _, _, _, _, receives, _⟩
    · rw [refused] at trapped
      cases trapped
    · exact ⟨_, isBraid, exhausted⟩
    · rw [receives] at trapped
      cases trapped
  · intro side bytes key accepted
    rcases (holds.received side bytes key accepted).isTaken with
      ⟨packet, index, parses, _, _, isKey⟩
    refine ⟨⟨_, isKey⟩, fun sentKey offered => ?_⟩
    rcases holds.sent side.other bytes sentKey offered with
      ⟨packet', index', sent⟩
    have same := sent.parses.symm.trans parses
    cases same
    rw [sent.isKey, isKey]

/-! ## One call -/

omit [Kem] in
/-- What was sent stays known as the sender's secrets grow. -/
theorem SentAt.act
    {side actor : Side}
    {braid : Braid}
    {packets : List Packet}
    {secret : Option EpochSecret}
    {bytes : Bytes}
    {key : Option (Block 32)}
    {packet : Packet}
    {index : Nat}
    (sent : SentAt authKey talk side bytes key packet index) :
    SentAt authKey (talk.act actor braid packets secret) side bytes key
      packet index := by
  rcases side.eq_or_eq_other actor with rfl | rfl
  · have secrets := secretsOf_act_self talk side braid packets secret
    refine ⟨sent.parses, ?_, sent.epochPositive, sent.positive, ?_, ?_⟩
    · rw [Talk.packets_act_self]
      exact List.mem_append_left _ sent.isSent
    · rw [secrets, List.length_append]
      exact Nat.le_add_right_of_le sent.known
    · rw [secrets, chainIn_append _ _ sent.known]
      exact sent.isKey
  · have secrets := secretsOf_act_other talk actor braid packets secret
    refine ⟨sent.parses, ?_, sent.epochPositive, sent.positive, ?_, ?_⟩
    · rw [Talk.packets_act_other]
      exact sent.isSent
    · rw [secrets]
      exact sent.known
    · rw [secrets]
      exact sent.isKey

omit [Kem] in
/-- What was sent stays sent. -/
private theorem SentAs.act
    {side actor : Side}
    {braid : Braid}
    {packets : List Packet}
    {secret : Option EpochSecret}
    {bytes : Bytes}
    {key : Option (Block 32)}
    {packet : Packet}
    {index : Nat}
    (sent : SentAs authKey limits talk side bytes key packet index) :
    SentAs authKey limits (talk.act actor braid packets secret) side bytes
      key packet index := by
  obtain ⟨sentAt, fits⟩ := sentAs_iff.mp sent
  exact sentAs_iff.mpr ⟨sentAt.act, fits⟩

omit [Kem] in
/-- What was accepted stays accepted. -/
private theorem AcceptedAs.act
    {side actor : Side}
    {braid : Braid}
    {packets : List Packet}
    {secret : Option EpochSecret}
    {before after : Nat → Nat → Prop}
    {bytes : Bytes}
    {key : Option (Block 32)}
    (accepted : AcceptedAs authKey talk side before bytes key)
    (grows : ∀ epoch index, before epoch index → after epoch index) :
    AcceptedAs authKey (talk.act actor braid packets secret) side after
      bytes key := by
  rcases accepted.isTaken with
    ⟨packet, index, parses, isTaken, known, isKey⟩
  refine ⟨packet, index, parses, grows _ _ isTaken, ?_⟩
  rcases side.other.eq_or_eq_other actor with same | same
  · have secrets := secretsOf_act_self talk actor braid packets secret
    rw [same] at known isKey ⊢
    rw [secrets, List.length_append, chainIn_append _ _ known]
    exact ⟨Nat.le_add_right_of_le known, isKey⟩
  · have secrets := secretsOf_act_other talk actor braid packets secret
    rw [same] at known isKey ⊢
    rw [secrets]
    exact ⟨known, isKey⟩

/-- A record that a call of the other side leaves alone. -/
private theorem keeps_other
    (holds : Holds authKey limits run exchange keySide talk taken)
    {side : Side}
    {braid : Braid}
    {packets : List Packet}
    {secret : Option EpochSecret}
    {state : Bytes}
    {event : Event Bytes (Option (Block 32)) (Option (Block 32))} :
    ∃ stream,
      Keeps authKey limits side.other
        ((talk.act side braid packets secret).state side.other)
        (secretsOf (talk.act side braid packets secret) side.other)
        (taken side.other)
        ((run.act side state event).state side.other) stream := by
  rcases holds.keeps side.other with ⟨stream, keeps⟩
  refine ⟨stream, ?_⟩
  rw [Talk.state_act_other, secretsOf_act_other, Joint.state_act_other]
  exact keeps

/-- A send keeps the invariant. -/
theorem Holds.send
    (generates : ∀ seed, ∃ keys, Kem.generate seed = some keys)
    (limitsFit : limits.Fits)
    (holds : Holds authKey limits run exchange keySide talk taken)
    (within : Within run)
    {side : Side}
    {draw : Draw}
    {state bytes : Bytes}
    {result : Option (Block 32)}
    (sends :
      party.send (run.state side) draw = .ok (state, bytes, result))
    (withinNext : Within (run.act side state (.sent bytes result))) :
    Invariant authKey limits (run.act side state (.sent bytes result)) := by
  rcases holds.stream limitsFit within side with ⟨stream, keeps, fit, _⟩
  rcases send_keeps generates limitsFit holds.agreement keeps fit
      (within side).1 draw with
    ⟨sent', after, packet, secret, later, index, key, _, stream', sends',
      kept⟩
  have same : (sent'.state, sent'.packet, sent'.key) =
      (state, bytes, result) := by
    rw [party_send, sends'] at sends
    exact Outcome.ok.inj sends
  rw [kept.isKey] at same
  cases same
  have keepsSelf :
      Keeps authKey limits side
        ((talk.act side after [packet] secret).state side)
        (secretsOf (talk.act side after [packet] secret) side)
        (taken side)
        ((run.act side sent'.state
          (.sent sent'.packet (some key))).state side)
        stream' := by
    rw [Talk.state_act_self, Joint.state_act_self]
    exact kept.keeps
  -- The index of the packet is the counter its flow has afterwards.
  have indexFits : index + limits.skipped + 1 < 2 ^ 32 := by
    rcases withinNext side with ⟨short, bound⟩
    have reads :=
      keepsSelf.streamIn_eq (agreement_recordable kept.agreement side)
        limitsFit
        (by
          rw [length_secretsOf]
          exact kept.agreement.length_emitted side)
        short
    obtain ⟨flows, member, rfl⟩ := kept.counter
    rcases keepsSelf.follows with ⟨first', follows'⟩
    rw [← follows'.sameLimits]
    exact (bound stream' reads.1 flows member).1
  refine ⟨later, keySide, talk.act side after [packet] secret, taken,
    kept.agreement, ?_, ?_, ?_, ?_⟩
  · intro actor
    rcases actor.eq_or_eq_other side with rfl | rfl
    · exact ⟨stream', keepsSelf⟩
    · exact keeps_other holds
  · intro actor sentBytes sentKey offered
    rcases Joint.mem_log_act offered with before | ⟨rfl, isLast⟩
    · rcases holds.sent actor sentBytes sentKey before with
        ⟨packet', index', sent⟩
      exact ⟨packet', index', sent.act⟩
    · cases isLast
      exact ⟨packet, index, sentAs_iff.mpr ⟨kept.sentAt, indexFits⟩⟩
  · intro actor sentBytes sentKey accepted
    rcases Joint.mem_log_act accepted with before | ⟨_, isLast⟩
    · exact (holds.received actor sentBytes sentKey before).act
        fun _ _ isTaken => isTaken
    · cases isLast
  · intro actor
    rw [accepted, Joint.collect_act]
    rcases actor.eq_or_eq_other side with rfl | rfl
    · rw [Function.update_self]
      have nothing :
          (acceptedPacket (.sent sent'.packet (some key))).toList = [] :=
        rfl
      rw [nothing, List.append_nil]
      exact holds.once actor
    · rw [Function.update_of_ne (Side.other_ne side)]
      exact holds.once side.other

/-- A receive of an offered packet keeps the invariant. -/
theorem Holds.receive
    [LawfulKem]
    (limitsFit : limits.Fits)
    (holds : Holds authKey limits run exchange keySide talk taken)
    (within : Within run)
    {side : Side}
    {state bytes : Bytes}
    {origin result : Option (Block 32)}
    (offered : run.HasSent side.other bytes origin)
    (receives :
      party.receive (run.state side) bytes = .ok (state, result)) :
    Invariant authKey limits
      (run.act side state (.received bytes result)) := by
  rcases holds.stream limitsFit within side with ⟨stream, keeps, fit, _⟩
  rcases holds.sent side.other bytes origin offered with
    ⟨packet, index, sent⟩
  rcases receive_keeps limitsFit holds.agreement keeps fit
      (within side).1 sent with
    ⟨fault, refused⟩ | ⟨_, trapped⟩ |
      ⟨after, secret, later, laterSide, stream', state', key, receives',
        agreement', keeps', notTaken, isKey, _⟩
  · rw [party_receive, refused] at receives
    cases receives
  · rw [party_receive, trapped] at receives
    cases receives
  have same : (state', some key) = (state, result) := by
    have returned :
        party.receive (run.state side) bytes = .ok (state', some key) := by
      rw [party_receive, receives']
      rfl
    exact Outcome.ok.inj (returned.symm.trans receives)
  cases same
  have grows :
      ∀ actor epoch place, taken actor epoch place →
        Function.update taken side
          (fun epoch place => taken side epoch place ∨
            (epoch = packet.epoch - 1 ∧ place = index)) actor epoch
            place := by
    intro actor epoch place isTaken
    rcases actor.eq_or_eq_other side with rfl | rfl
    · rw [Function.update_self]
      exact Or.inl isTaken
    · rw [Function.update_of_ne (Side.other_ne side)]
      exact isTaken
  refine ⟨later, laterSide, talk.act side after [] secret,
    Function.update taken side (fun epoch place =>
      taken side epoch place ∨
        (epoch = packet.epoch - 1 ∧ place = index)),
    agreement', ?_, ?_, ?_, ?_⟩
  · intro actor
    rcases actor.eq_or_eq_other side with rfl | rfl
    · refine ⟨stream', ?_⟩
      rw [Talk.state_act_self, Joint.state_act_self, Function.update_self]
      exact keeps'
    · rw [Function.update_of_ne (Side.other_ne side)]
      exact keeps_other holds
  · intro actor sentBytes sentKey isOffered
    rcases Joint.mem_log_act isOffered with before | ⟨_, isLast⟩
    · rcases holds.sent actor sentBytes sentKey before with
        ⟨packet', index', sent'⟩
      exact ⟨packet', index', sent'.act⟩
    · cases isLast
  · intro actor sentBytes sentKey isAccepted
    rcases Joint.mem_log_act isAccepted with before | ⟨rfl, isLast⟩
    · exact (holds.received actor sentBytes sentKey before).act
        (grows actor)
    · cases isLast
      refine ⟨packet, index, sent.parses, ?_, ?_, ?_⟩
      · rw [Function.update_self]
        exact Or.inr ⟨rfl, rfl⟩
      · rw [secretsOf_act_other]
        exact sent.known
      · rw [secretsOf_act_other, ← isKey]
        exact sent.isKey
  · intro actor
    rw [accepted, Joint.collect_act]
    rcases actor.eq_or_eq_other side with rfl | rfl
    · rw [Function.update_self]
      refine List.nodup_append.mpr
        ⟨holds.once actor, List.nodup_singleton _, ?_⟩
      rintro other wasAccepted bytes' isLast rfl
      rw [show (acceptedPacket (.received bytes (some key))).toList =
        [bytes] from rfl, List.mem_singleton] at isLast
      subst isLast
      rcases List.mem_filterMap.mp wasAccepted with
        ⟨event, logged, isPacket⟩
      cases event with
      | sent => cases isPacket
      | received packet' key' =>
          cases isPacket
          rcases (holds.received actor _ _ logged).isTaken with
            ⟨packet', index', parses', isTaken, _⟩
          have same := sent.parses.symm.trans parses'
          cases same
          exact notTaken isTaken
    · rw [Function.update_of_ne (Side.other_ne side)]
      exact holds.once side.other

/-! ## Runs -/

/-- The records of a start hold the two braids of an agreement. -/
theorem start_keeps
    {initiator responder : Bytes}
    (startsInitiator : start authKey .initiator limits = .ok initiator)
    (startsResponder : start authKey .responder limits = .ok responder)
    (limitsFit : limits.Fits) :
    ∃ exchange talk,
      Agreement exchange .initiator talk ∧
        ∀ side,
          Keeps authKey limits side (talk.state side)
            (secretsOf talk side) (fun _ _ => False)
            (startSides initiator responder side)
            (Stream.start authKey.bytes side limits) := by
  obtain ⟨first, startsFirst, ⟨⟩⟩ := Outcome.bind_eq_ok.mp startsInitiator
  obtain ⟨second, startsSecond, ⟨⟩⟩ :=
    Outcome.bind_eq_ok.mp startsResponder
  obtain ⟨exchange, agreement⟩ :=
    Agreement.start startsFirst startsSecond
  refine ⟨exchange, _, agreement, fun side => ⟨?_, ?_, ?_⟩⟩
  · have termsFit :
        ∀ value,
          some (⟨authKey.bytes, side, 1, limits⟩ : Terms) = some value →
            value.Recordable := by
      rintro value ⟨⟩
      exact ⟨Nat.one_lt_two_pow (by decide), limitsFit⟩
    cases side with
    | initiator => exact ⟨_, none, rfl, termsFit, Or.inr ⟨rfl, rfl, rfl⟩⟩
    | responder => exact ⟨_, none, rfl, termsFit, Or.inr ⟨rfl, rfl, rfl⟩⟩
  · exact ⟨0, Follows.start authKey.bytes side limits⟩
  · exact (agreement.epoch_known side).1

/-- The invariant holds between two fresh records. -/
theorem start_holds
    {initiator responder : Bytes}
    (startsInitiator : start authKey .initiator limits = .ok initiator)
    (startsResponder : start authKey .responder limits = .ok responder)
    (limitsFit : limits.Fits) :
    Invariant authKey limits
      (Joint.init (startSides initiator responder)) := by
  obtain ⟨exchange, talk, agreement, keeps⟩ :=
    start_keeps startsInitiator startsResponder limitsFit
  refine ⟨exchange, .initiator, talk, fun _ _ _ => False, agreement,
    fun side => ⟨_, keeps side⟩, ?_, ?_, ?_⟩
  · intro side bytes key offered
    cases offered
  · intro side bytes key wasAccepted
    cases wasAccepted
  · intro side
    exact List.nodup_nil

/-- Either side's call keeps the invariant. -/
theorem Invariant.step
    [LawfulKem]
    (generates : ∀ seed, ∃ keys, Kem.generate seed = some keys)
    (limitsFit : limits.Fits)
    {next : Run}
    (invariant : Invariant authKey limits run)
    (within : Within run)
    (step : Step party run next)
    (withinNext : Within next) :
    Invariant authKey limits next := by
  obtain ⟨exchange, keySide, talk, taken, holds⟩ := invariant
  cases step with
  | send side draw sends =>
      exact holds.send generates limitsFit within sends withinNext
  | receive side offered receives =>
      exact holds.receive limitsFit within offered receives

/--
Two sides started on one key and with the same limits are safe in every state
of every run, as long as no counter comes near the end of its range.
-/
theorem send_receive_safe
    [LawfulKem]
    (generates : ∀ seed, ∃ keys, Kem.generate seed = some keys)
    (limitsFit : limits.Fits)
    {initiator responder : Bytes}
    (startsInitiator : start authKey .initiator limits = .ok initiator)
    (startsResponder : start authKey .responder limits = .ok responder)
    (reachable :
      ReachableWithin party (startSides initiator responder) Within run) :
    Safe run := by
  have invariant : Invariant authKey limits run :=
    reachable.invariant
      (fun _ => start_holds startsInitiator startsResponder limitsFit)
      fun invariant within step withinNext =>
        invariant.step generates limitsFit within step withinNext
  rcases invariant with ⟨exchange, keySide, talk, taken, holds⟩
  exact holds.safe generates limitsFit reachable.within

end Gossveil.PqRecord

namespace Gossveil.PqRecord

open TwoParty KeyStream Braid Sample

attribute [local instance] hashes kem

/-- The draw of the sample run. -/
private def sampleDraw : Draw := ⟨Block.fill 64 5, Block.fill 32 6⟩

/-- The record a side starts with. -/
@[irreducible] private def sampleStart (side : Side) : Bytes :=
  match start (Block.fill 32 3) side Limits.default with
  | .ok state => state
  | _ => []

/-- What a send returns in the sample run. -/
private def sampleSent (state : Bytes) : Sent :=
  match send state sampleDraw with
  | .ok sent => sent
  | _ => ⟨[], [], none⟩

/-- What a receive returns in the sample run. -/
private def sampleReceived (state : Bytes) (sent : Sent) : Received :=
  match receive state sent.packet with
  | .ok received => received
  | _ => ⟨[], none⟩

/-- The responder sends two packets. -/
@[irreducible] private def sampleFirst : Sent :=
  sampleSent (sampleStart .responder)

/-- The responder's second send. -/
@[irreducible] private def sampleSecond : Sent :=
  sampleSent sampleFirst.state

/-- The second arrives before the first. -/
@[irreducible] private def sampleLate : Received :=
  sampleReceived (sampleStart .initiator) sampleSecond

/-- The initiator after both packets, the second one first. -/
@[irreducible] private def sampleBoth : Received :=
  sampleReceived sampleLate.state sampleFirst

/-- The initiator replies, and its packet arrives. -/
@[irreducible] private def sampleReply : Sent :=
  sampleSent sampleBoth.state

/-- The responder after the reply. -/
@[irreducible] private def sampleEnd : Received :=
  sampleReceived sampleSecond.state sampleReply

/-- The run before anything is sent. -/
private def sampleBegun : Run :=
  Joint.init (startSides (sampleStart .initiator) (sampleStart .responder))

/-- The run after two sends of the responder. -/
private def sampleOffered : Run :=
  (sampleBegun.act .responder sampleFirst.state
      (.sent sampleFirst.packet sampleFirst.key)).act
    .responder sampleSecond.state (.sent sampleSecond.packet sampleSecond.key)

/-- The run after both have arrived, out of order. -/
private def sampleTaken : Run :=
  (sampleOffered.act .initiator sampleLate.state
      (.received sampleSecond.packet sampleLate.key)).act
    .initiator sampleBoth.state (.received sampleFirst.packet sampleBoth.key)

/-- The run after the reply has arrived. -/
private def sampleRun : Run :=
  (sampleTaken.act .initiator sampleReply.state
      (.sent sampleReply.packet sampleReply.key)).act
    .responder sampleEnd.state (.received sampleReply.packet sampleEnd.key)

/-- The bounds of one state, as a computation. -/
private def staysWithin (state : Bytes) : Bool :=
  decide (state.length < 2 ^ 64) &&
    match streamIn state with
    | .ok stream =>
        stream.epochs.all fun flows =>
          decide (flows.send.counter + stream.limits.skipped + 1 < 2 ^ 32 ∧
            flows.recv.counter + stream.limits.skipped + 1 < 2 ^ 32)
    | _ => true

/-- A state fits a slice, and its counters stay in range. -/
private def StateWithin (state : Bytes) : Prop :=
  state.length < 2 ^ 64 ∧
    ∀ stream, streamIn state = .ok stream → CountersFit stream

/-- The bound can be computed. -/
private theorem stateWithin_of_stays
    {state : Bytes}
    (stays : staysWithin state = true) :
    StateWithin state := by
  rw [staysWithin, Bool.and_eq_true, decide_eq_true_eq] at stays
  refine ⟨stays.1, ?_⟩
  intro stream reads
  have counters := stays.2
  rw [reads] at counters
  intro flows member
  exact of_decide_eq_true (List.all_eq_true.mp counters flows member)

/-- A step to a record within bounds stays within them. -/
private theorem within_act
    {run : Run}
    {side : Side}
    {state : Bytes}
    {event : Event Bytes (Option (Block 32)) (Option (Block 32))}
    (within : Within run)
    (stays : staysWithin state = true) :
    Within (run.act side state event) := by
  intro other
  rcases other.eq_or_eq_other side with rfl | rfl
  · rw [Joint.state_act_self]
    exact stateWithin_of_stays stays
  · rw [Joint.state_act_other]
    exact within side.other

/-- A send within bounds can be added to a run. -/
private theorem sends_within
    {start : Side → Bytes}
    {run : Run}
    (reachable : ReachableWithin party start Within run)
    (side : Side)
    {sent : Sent}
    (sends : send (run.state side) sampleDraw = .ok sent)
    (stays : staysWithin sent.state = true) :
    ReachableWithin party start Within
      (run.act side sent.state (.sent sent.packet sent.key)) := by
  refine .step reachable (.send side sampleDraw ?_)
    (within_act reachable.within stays)
  rw [party_send]
  exact Outcome.bind_eq_ok.mpr ⟨sent, sends, rfl⟩

/-- A receipt within bounds can be added to a run. -/
private theorem receives_within
    {start : Side → Bytes}
    {run : Run}
    (reachable : ReachableWithin party start Within run)
    (side : Side)
    {packet : Bytes}
    {key : Option (Block 32)}
    {received : Received}
    (offered : run.HasSent side.other packet key)
    (receives : receive (run.state side) packet = .ok received)
    (stays : staysWithin received.state = true) :
    ReachableWithin party start Within
      (run.act side received.state (.received packet received.key)) := by
  refine .step reachable (.receive side offered ?_)
    (within_act reachable.within stays)
  rw [party_receive]
  exact Outcome.bind_eq_ok.mpr ⟨received, receives, rfl⟩

set_option maxRecDepth 100000 in
private theorem sample_stays :
    ∀ state ∈ [sampleStart .initiator, sampleStart .responder,
        sampleFirst.state, sampleSecond.state, sampleLate.state,
        sampleBoth.state, sampleReply.state, sampleEnd.state],
      staysWithin state = true := by
  decide +kernel

set_option maxRecDepth 100000 in
/-- Four steps of two sample records. -/
private theorem sample_steps :
    (start (Block.fill 32 3) .initiator Limits.default =
        .ok (sampleStart .initiator) ∧
      start (Block.fill 32 3) .responder Limits.default =
        .ok (sampleStart .responder)) ∧
      (send (sampleStart .responder) sampleDraw = .ok sampleFirst ∧
        send sampleFirst.state sampleDraw = .ok sampleSecond ∧
        send sampleBoth.state sampleDraw = .ok sampleReply) ∧
      receive (sampleStart .initiator) sampleSecond.packet = .ok sampleLate ∧
      receive sampleLate.state sampleFirst.packet = .ok sampleBoth ∧
      receive sampleSecond.state sampleReply.packet = .ok sampleEnd := by
  decide +kernel

/-- The sample run is one the records can take. -/
private theorem sample_reachable :
    ReachableWithin party
      (startSides (sampleStart .initiator) (sampleStart .responder)) Within
      sampleRun := by
  obtain ⟨_, ⟨first, second, reply⟩, late, both, ended⟩ := sample_steps
  have stays := sample_stays
  simp only [List.forall_mem_cons] at stays
  obtain ⟨initiator, responder, firstStays, secondStays, lateStays, bothStays,
    replyStays, endStays, _⟩ := stays
  have begun : Within sampleBegun := by
    intro side
    cases side with
    | initiator => exact stateWithin_of_stays initiator
    | responder => exact stateWithin_of_stays responder
  have offered :
      ReachableWithin party
        (startSides (sampleStart .initiator) (sampleStart .responder)) Within
        sampleOffered :=
    sends_within (sends_within (.init begun) .responder first firstStays)
      .responder second secondStays
  have hasFirst :
      sampleOffered.HasSent .responder sampleFirst.packet sampleFirst.key :=
    List.mem_cons_self
  have hasSecond :
      sampleOffered.HasSent .responder sampleSecond.packet sampleSecond.key :=
    List.mem_cons_of_mem _ List.mem_cons_self
  have taken :
      ReachableWithin party
        (startSides (sampleStart .initiator) (sampleStart .responder)) Within
        sampleTaken :=
    receives_within (receives_within offered .initiator hasSecond late lateStays)
      .initiator hasFirst both bothStays
  have replied := sends_within taken .initiator reply replyStays
  exact receives_within replied .responder
    (List.mem_append_right _ List.mem_cons_self) ended endStays

/-- Safety of a run with packets both ways. -/
theorem send_receive_safe_replied : Safe sampleRun := by
  have lawful : LawfulKem := lawfulKem
  have limitsFit : Limits.default.Fits := by
    refine ⟨?_, ?_⟩ <;> decide
  obtain ⟨⟨startsInitiator, startsResponder⟩, _⟩ := sample_steps
  exact send_receive_safe (fun seed => ⟨_, rfl⟩) limitsFit startsInitiator
    startsResponder sample_reachable

end Gossveil.PqRecord
