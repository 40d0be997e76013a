import Gossveil.RecordRuns
import Gossveil.StreamCounts

namespace Gossveil.PqRecord

open TwoParty KeyStream Braid

/-!
# Runs of fewer packets than an index can count

No counter of a flow and no index of a packet passes the number of packets that
were sent, so a run of few enough packets stays within the bounds of its
counters by itself.
-/

/-! ## The records of a start -/

section Start

open Codec ErasureCode

/-- The record of a fresh collection is short. -/
private theorem length_freshGather
    {gather : Gather}
    (makes : Gather.forLength headerMessage = .ok gather) :
    gather.write.length ≤ 500 := by
  cases makes
  decide

/-- The record of a braid state is short when its coder is. -/
private theorem length_writeState_le
    (number epoch : Nat)
    (auth : Auth)
    {coder : Option Bytes}
    (short : ∀ bytes, coder = some bytes → bytes.length ≤ 500) :
    (writeState number epoch auth [] coder none).length ≤ 800 := by
  have epochLength := Writer.length_uintIfSet_le 1 epoch
  have authLength : auth.write.length ≤ 104 := by
    have root := Writer.length_bytes_le 1 auth.root.bytes
    have mac := Writer.length_bytes_le 2 auth.mac.bytes
    rw [Block.length_eq] at root mac
    rw [Auth.write, List.length_append]
    omega
  have fixedLength : (writeFixed epoch auth []).length ≤ 164 := by
    have authEmbedded := Writer.length_bytes_le 2 auth.write
    have embedded := Writer.length_bytes_le 1
      (Writer.uintIfSet 1 epoch ++ Writer.embed 2 auth.write ++
        writeArrays 3 [])
    simp only [writeArrays, Writer.embed, List.append_nil,
      List.length_append] at embedded
    simp only [writeFixed, writeArrays, Writer.embed, List.append_nil]
    omega
  have coderLength : (writeCoder 2 coder).length ≤ 520 := by
    cases coder with
    | none => simp [writeCoder]
    | some bytes =>
        have embedded := Writer.length_bytes_le 2 bytes
        have bytesLength := short bytes rfl
        simp only [writeCoder, Writer.embed]
        omega
  have embedded := Writer.length_bytes_le number
    (writeFixed epoch auth [] ++ writeCoder 2 coder ++ writeCoder 3 none)
  have nothing : writeCoder 3 none = [] := rfl
  rw [nothing, List.append_nil, List.length_append] at embedded
  rw [writeState, Writer.embed, nothing, List.append_nil]
  omega

/-- The record of the terms is short. -/
private theorem length_writeTerms_le
    {terms : Terms}
    (key : terms.authKey.length ≤ 32) :
    (writeTerms terms).length ≤ 200 := by
  have keyLength := Writer.length_bytesIfSet_le 1 terms.authKey
  have sideLength := Writer.length_uintIfSet_le 2 (sideCode terms.side)
  have versionLength := Writer.length_uintIfSet_le 3 terms.minVersion
  have jumpLength := Writer.length_uintIfSet_le 1 terms.limits.maxJump
  have skippedLength := Writer.length_uintIfSet_le 2 terms.limits.maxSkipped
  have limitsLength := Writer.length_bytes_le 4 terms.limits.write
  have embedded := Writer.length_bytes_le 1
    (Writer.bytesIfSet 1 terms.authKey ++
      Writer.uintIfSet 2 (sideCode terms.side) ++
      Writer.uintIfSet 3 terms.minVersion ++
      Writer.embed 4 terms.limits.write)
  simp only [Limits.write, Writer.embed, List.length_append]
    at limitsLength embedded
  simp only [writeTerms, Limits.write, Writer.embed]
  omega

variable [Hashes]

/-- The record of a start is short. -/
theorem length_start_le
    {authKey : Block 32}
    {side : Side}
    {limits : Limits}
    {state : Bytes}
    (starts : start authKey side limits = .ok state) :
    state.length ≤ 2000 := by
  have recordLength :
      ∀ braid : Braid, braid.write.length ≤ 800 →
        (writeRecord (some ⟨authKey.bytes, side, 1, limits⟩) none
          braid).length ≤ 2000 := by
    intro braid short
    have terms :=
      @length_writeTerms_le ⟨authKey.bytes, side, 1, limits⟩
        (Nat.le_of_eq authKey.length_bytes)
    have embedded := Writer.length_bytes_le 3 braid.write
    simp only [writeRecord, Writer.embed, List.length_append, List.append_nil]
    omega
  cases side with
  | initiator =>
      obtain ⟨braid, isBraid, ⟨⟩⟩ := Outcome.bind_eq_ok.mp starts
      obtain ⟨auth, _, ⟨⟩⟩ := Outcome.bind_eq_ok.mp isBraid
      exact recordLength _ (length_writeState_le 1 1 auth (by simp))
  | responder =>
      obtain ⟨braid, isBraid, ⟨⟩⟩ := Outcome.bind_eq_ok.mp starts
      obtain ⟨auth, _, rest⟩ := Outcome.bind_eq_ok.mp isBraid
      obtain ⟨inHeader, makes, ⟨⟩⟩ := Outcome.bind_eq_ok.mp rest
      refine recordLength _ (length_writeState_le 6 1 auth ?_)
      rintro _ ⟨⟩
      exact length_freshGather makes

/-- The responder starts whenever the initiator does. -/
theorem start_responder
    {authKey : Block 32}
    {limits : Limits}
    {initiator : Bytes}
    (starts : start authKey .initiator limits = .ok initiator) :
    ∃ responder, start authKey .responder limits = .ok responder := by
  obtain ⟨_, isBraid, ⟨⟩⟩ := Outcome.bind_eq_ok.mp starts
  obtain ⟨auth, authenticates, ⟨⟩⟩ := Outcome.bind_eq_ok.mp isBraid
  obtain ⟨inHeader, makes, _⟩ := fresh_header
  refine ⟨writeRecord (some ⟨authKey.bytes, .responder, 1, limits⟩) none
    (.waiting 1 auth inHeader), ?_⟩
  simp only [start, startResponder, authenticates, makes, Outcome.ok_bind]
  rfl
end Start

/-! ## Counting packets -/

variable [Hashes] [Kem]

/-- The packet that one call sent. -/
def sentPacket :
    Event Bytes (Option (Block 32)) (Option (Block 32)) → Option Bytes
  | .sent packet _ => some packet
  | .received _ _ => none

/-- How many packets a side has sent. -/
def sends (run : Run) (side : Side) : Nat :=
  (run.collect sentPacket side).length

/-- Both states fit a slice, and few enough packets were sent. -/
structure Few (limits : Limits) (run : Run) : Prop where
  short : ∀ side, (run.state side).length < 2 ^ 64
  few : ∀ side, sends run side + limits.skipped + 1 < 2 ^ 32

/-- The counters and the indices are within the numbers of packets. -/
structure Counted (limits : Limits) (run : Run) : Prop where
  counters :
    ∀ side stream, streamIn (run.state side) = .ok stream →
      stream.limits = limits ∧
        stream.Counted (sends run side) (sends run side.other)
  indices :
    ∀ side bytes key, run.HasSent side bytes key →
      ∀ packet index, Packet.parse bytes = .ok (packet, index) →
        index ≤ sends run side

section Sends

variable
  (run : Run)
  (side : Side)
  (state packet : Bytes)
  (key : Option (Block 32))

omit [Hashes] [Kem]

@[simp] theorem sends_init (start : Side → Bytes) :
    sends (Joint.init start) side = 0 :=
  rfl

@[simp] theorem sends_sent_self :
    sends (run.act side state (.sent packet key)) side =
      sends run side + 1 := by
  rw [sends, Joint.collect_act, Function.update_self, List.length_append]
  rfl

@[simp] theorem sends_sent_other :
    sends (run.act side state (.sent packet key)) side.other =
      sends run side.other := by
  rw [sends, Joint.collect_act,
    Function.update_of_ne (Side.other_ne side)]
  rfl

@[simp] theorem sends_received :
    sends (run.act side state (.received packet key)) = sends run := by
  funext actor
  rw [sends, Joint.collect_act]
  rcases actor.eq_or_eq_other side with rfl | rfl
  · rw [Function.update_self, List.length_append]
    rfl
  · rw [Function.update_of_ne (Side.other_ne side)]
    rfl

@[simp] theorem accepted_sent :
    accepted (run.act side state (.sent packet key)) = accepted run := by
  funext actor
  rw [accepted, Joint.collect_act]
  rcases actor.eq_or_eq_other side with rfl | rfl
  · rw [Function.update_self]
    exact List.append_nil _
  · rw [Function.update_of_ne (Side.other_ne side)]
    rfl

@[simp] theorem accepted_received_self :
    accepted (run.act side state (.received packet key)) side =
      accepted run side ++ [packet] := by
  rw [accepted, Joint.collect_act, Function.update_self]
  rfl

@[simp] theorem accepted_received_other :
    accepted (run.act side state (.received packet key)) side.other =
      accepted run side.other := by
  rw [accepted, Joint.collect_act,
    Function.update_of_ne (Side.other_ne side)]
  rfl

end Sends

variable
  {authKey : Block 32}
  {limits : Limits}
  {run : Run}
  {exchange : Exchange}
  {keySide : Side}
  {talk : Talk}
  {taken : Side → Nat → Nat → Prop}

/-- What the bytes of a kept state read as. -/
private theorem streamIn_of_keeps
    (limitsFit : limits.Fits)
    (agreement : Agreement exchange keySide talk)
    {side : Side}
    {braid : Braid}
    {held : Nat → Nat → Prop}
    {state : Bytes}
    {stream : Stream}
    (keeps :
      Keeps authKey limits side braid (secretsOf talk side) held state stream)
    (isBraid : talk.state side = braid)
    (short : state.length < 2 ^ 64) :
    streamIn state = .ok stream ∧ stream.limits = limits := by
  subst isBraid
  obtain ⟨first, follows⟩ := keeps.follows
  refine ⟨(keeps.streamIn_eq (agreement_recordable agreement side) limitsFit
    ?_ short).1, follows.sameLimits⟩
  rw [length_secretsOf]
  exact agreement.length_emitted side

omit [Hashes] [Kem] in
/-- Opening an epoch counts nothing. -/
private theorem counted_openEpoch
    [Hashes]
    {sent received : Nat}
    {stream opened : Stream}
    {secret : Option EpochSecret}
    (counted : stream.Counted sent received)
    (opens : openEpoch stream secret = .ok opened) :
    opened.Counted sent received := by
  cases secret with
  | none =>
      cases opens
      exact counted
  | some value => exact counted.nextEpoch opens

omit [Kem] in
/-- The counters are as far from the end of their range as the packets are few. -/
theorem Counted.within
    (counted : Counted limits run)
    (few : Few limits run) :
    Within run := by
  intro side
  refine ⟨few.short side, ?_⟩
  intro stream isStream flows member
  obtain ⟨sameLimits, bounded⟩ := counted.counters side stream isStream
  have bounds := bounded flows member
  have sent := few.few side
  have received := few.few side.other
  rw [sameLimits]
  constructor <;> omega

/-- Fresh records have counted nothing. -/
private theorem counted_init
    {initiator responder : Bytes}
    (limitsFit : limits.Fits)
    (startsInitiator : start authKey .initiator limits = .ok initiator)
    (startsResponder : start authKey .responder limits = .ok responder)
    (few : Few limits (Joint.init (startSides initiator responder))) :
    Counted limits (Joint.init (startSides initiator responder)) := by
  obtain ⟨exchange, talk, agreement, keeps⟩ :=
    start_keeps startsInitiator startsResponder limitsFit
  refine ⟨?_, fun side bytes key offered => nomatch offered⟩
  intro side stream isStream
  obtain ⟨reads, sameLimits⟩ :=
    streamIn_of_keeps limitsFit agreement (keeps side) rfl (few.short side)
  obtain rfl := Outcome.ok.inj (isStream.symm.trans reads)
  exact ⟨sameLimits, Stream.Counted.start authKey.bytes side limits⟩

/-- A send counts one more on its side. -/
private theorem Counted.send
    (limitsFit : limits.Fits)
    (holds : Holds authKey limits run exchange keySide talk taken)
    (counted : Counted limits run)
    (few : Few limits run)
    {side : Side}
    {draw : Draw}
    {sent : Sent}
    (sendsOne : PqRecord.send (run.state side) draw = .ok sent)
    (short : sent.state.length < 2 ^ 64) :
    Counted limits (run.act side sent.state (.sent sent.packet sent.key)) := by
  obtain ⟨stream, keeps⟩ := holds.keeps side
  obtain ⟨reads, _⟩ :=
    streamIn_of_keeps limitsFit holds.agreement keeps rfl (few.short side)
  obtain ⟨after, packet, secret, later, index, key, opened, stream', kept⟩ :=
    send_returns limitsFit holds.agreement keeps (few.short side) draw sent
      sendsOne
  obtain ⟨readsAfter, sameLimits⟩ :=
    streamIn_of_keeps limitsFit kept.agreement kept.keeps
      (Talk.state_act_self ..) short
  have openedCounted :=
    counted_openEpoch (counted.counters side stream reads).2 kept.opens
  obtain ⟨small, counts⟩ := openedCounted.keyToSend kept.yields
  constructor
  · intro actor found isFound
    rcases actor.eq_or_eq_other side with rfl | rfl
    · rw [Joint.state_act_self] at isFound
      obtain rfl := Outcome.ok.inj (isFound.symm.trans readsAfter)
      exact ⟨sameLimits, by simpa using counts⟩
    · rw [Joint.state_act_other] at isFound
      obtain ⟨otherLimits, others⟩ :=
        counted.counters side.other found isFound
      rw [Side.other_other] at others
      refine ⟨otherLimits, ?_⟩
      simpa using others.mono (le_refl _) (Nat.le_succ _)
  · intro actor bytes sentKey offered other place parses
    rcases Joint.mem_log_act offered with before | ⟨rfl, isLast⟩
    · have within :=
        counted.indices actor bytes sentKey before other place parses
      rcases actor.eq_or_eq_other side with rfl | rfl
      · simpa using within.trans (Nat.le_succ _)
      · simpa using within
    · cases isLast
      have same := kept.sentAt.parses.symm.trans parses
      cases same
      simpa using small

/-- A receive counts up to an index that was sent. -/
private theorem Counted.receive
    [LawfulKem]
    (limitsFit : limits.Fits)
    (holds : Holds authKey limits run exchange keySide talk taken)
    (counted : Counted limits run)
    (within : Within run)
    {side : Side}
    {bytes : Bytes}
    {origin : Option (Block 32)}
    {received : Received}
    (offered : run.HasSent side.other bytes origin)
    (receives : PqRecord.receive (run.state side) bytes = .ok received)
    (short : received.state.length < 2 ^ 64) :
    Counted limits (run.act side received.state (.received bytes received.key)) := by
  obtain ⟨stream, keeps, fit, _⟩ := holds.stream limitsFit within side
  obtain ⟨reads, _⟩ :=
    streamIn_of_keeps limitsFit holds.agreement keeps rfl (within side).1
  obtain ⟨packet, index, sent⟩ := holds.sent side.other bytes origin offered
  rcases receive_keeps limitsFit holds.agreement keeps fit (within side).1
      sent with
    ⟨fault, refused⟩ | ⟨_, trapped⟩ |
      ⟨after, secret, later, laterSide, stream', state', key, receives',
        agreement', keeps', _, _, opened, opens, yields⟩
  · rw [refused] at receives
    cases receives
  · rw [trapped] at receives
    cases receives
  obtain rfl := Outcome.ok.inj (receives'.symm.trans receives)
  obtain ⟨readsAfter, sameLimits⟩ :=
    streamIn_of_keeps limitsFit agreement' keeps' (Talk.state_act_self ..)
      short
  have openedCounted :=
    counted_openEpoch (counted.counters side stream reads).2 opens
  have small := counted.indices side.other bytes origin offered packet index
    sent.parses
  have counts := openedCounted.keyToReceive small yields
  constructor
  · intro actor found isFound
    rw [sends_received]
    rcases actor.eq_or_eq_other side with rfl | rfl
    · rw [Joint.state_act_self] at isFound
      obtain rfl := Outcome.ok.inj (isFound.symm.trans readsAfter)
      exact ⟨sameLimits, counts⟩
    · rw [Joint.state_act_other] at isFound
      exact counted.counters side.other found isFound
  · intro actor sentBytes sentKey isOffered
    rw [sends_received]
    rcases Joint.mem_log_act isOffered with before | ⟨_, isLast⟩
    · exact counted.indices actor sentBytes sentKey before
    · cases isLast

/-- Either side's call keeps the counts. -/
private theorem Invariant.counted
    [LawfulKem]
    (limitsFit : limits.Fits)
    {next : Run}
    (invariant : Invariant authKey limits run)
    (counted : Counted limits run)
    (few : Few limits run)
    (step : Step party run next)
    (fewNext : Few limits next) :
    Counted limits next := by
  obtain ⟨exchange, keySide, talk, taken, holds⟩ := invariant
  cases step with
  | send side draw sendsOne =>
      rw [party_send] at sendsOne
      obtain ⟨sent, isSent, ⟨⟩⟩ := Outcome.bind_eq_ok.mp sendsOne
      have short := fewNext.short side
      rw [Joint.state_act_self] at short
      exact counted.send limitsFit holds few isSent short
  | receive side offered receives =>
      rw [party_receive] at receives
      obtain ⟨received, isReceived, ⟨⟩⟩ := Outcome.bind_eq_ok.mp receives
      have short := fewNext.short side
      rw [Joint.state_act_self] at short
      exact counted.receive limitsFit holds (counted.within few) offered
        isReceived short

/-- What every call keeps while packets are few. -/
private def CountedInvariant
    (authKey : Block 32)
    (limits : Limits)
    (run : Run) :
    Prop :=
  Invariant authKey limits run ∧ Counted limits run

/-- Two sides are safe in every state of every run of few packets. -/
theorem few_safe
    [LawfulKem]
    (generates : ∀ seed, ∃ keys, Kem.generate seed = some keys)
    (limitsFit : limits.Fits)
    {initiator responder : Bytes}
    (startsInitiator : start authKey .initiator limits = .ok initiator)
    (startsResponder : start authKey .responder limits = .ok responder)
    (reachable :
      ReachableWithin party (startSides initiator responder) (Few limits)
        run) :
    Safe run := by
  have invariant : CountedInvariant authKey limits run := by
    refine reachable.invariant ?_ ?_
    · intro few
      exact ⟨start_holds startsInitiator startsResponder limitsFit,
        counted_init limitsFit startsInitiator startsResponder few⟩
    · rintro run next ⟨invariant, counted⟩ few step fewNext
      have within := counted.within few
      have countedNext := invariant.counted limitsFit counted few step fewNext
      exact ⟨invariant.step generates limitsFit within step
        (countedNext.within fewNext), countedNext⟩
  obtain ⟨⟨exchange, keySide, talk, taken, holds⟩, counted⟩ := invariant
  exact holds.safe generates limitsFit (counted.within reachable.within)

end Gossveil.PqRecord
