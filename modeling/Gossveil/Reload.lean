import Gossveil.Storable

namespace Gossveil.PqRecord

open TwoParty KeyStream

/-!
# Reloading the post-quantum ratchet

Between two calls the ratchet lives in its record alone.  Here the same calls
are made on a ratchet that is kept in memory, and both give the same packets,
keys and errors, call after call.
-/

/-- The parts of a record, read. -/
structure Kept where
  terms : Option Terms
  stream : Option Stream
  braid : Braid
  deriving DecidableEq

namespace Kept

/-- The record of a ratchet; no ratchet is the empty state. -/
def record : Option Kept → Bytes
  | none => []
  | some kept => writeRecord kept.terms kept.stream kept.braid

/-! ## The calls in memory -/

section Calls

variable [Hashes]

/-- The stream kept in memory; it is started from the terms if need be. -/
def streamOf (kept : Kept) : Outcome RatchetError Stream :=
  match kept.stream with
  | some stream => .ok stream
  | none => do
      let terms ← Outcome.ofOption .noStream kept.terms
      return Stream.start terms.authKey terms.side terms.limits

variable [Kem]

/-- A send on values in memory, without a record in between. -/
def send
    (memory : Option Kept)
    (draw : Braid.Draw) :
    Outcome RatchetError (Option Kept × Bytes × Option (Block 32)) :=
  match memory with
  | none => .ok (none, [], none)
  | some kept => do
      let (braid, sent) ← kept.braid.send draw
      let stream ← kept.streamOf
      let stream ← openEpoch stream sent.secret
      let epoch ← Outcome.sub sent.packet.epoch 1
      let (index, key, stream) ← stream.keyToSend epoch
      return (some ⟨kept.terms, some stream, braid⟩,
        sent.packet.serialize index, some key)

/-- A packet that names an epoch and an index. -/
def receivePacket
    (kept : Kept)
    (packet : Packet)
    (index : Nat) :
    Outcome RatchetError (Option Kept × Option (Block 32)) := do
  let (braid, secret) ← kept.braid.receive packet
  let stream ← kept.streamOf
  let stream ← openEpoch stream secret
  let epoch ← Outcome.sub packet.epoch 1
  if epoch = 0 ∧ index = 0 then
    return (some ⟨none, some stream, braid⟩, none)
  else
    let (key, stream) ← stream.keyToReceive epoch index
    return (some ⟨none, some stream, braid⟩, some key)

/-- A receive on values in memory. -/
def receive
    (memory : Option Kept)
    (packet : Bytes) :
    Outcome RatchetError (Option Kept × Option (Block 32)) :=
  match memory with
  | none => .ok (none, none)
  | some kept =>
      match packet with
      | [] => do
          let terms ← Outcome.ofOption .versionMismatch kept.terms
          if 0 < terms.minVersion then
            .error .minimumVersion
          else
            return (none, none)
      | first :: _ =>
          if first ≠ Packet.version then
            .error .badPacket
          else do
            let (parsed, index) ← Packet.parse packet
            kept.receivePacket parsed index

end Calls

/-! ## Ratchets that fit their record -/

/-- What every ratchet that has been started keeps to. -/
structure Sound (kept : Kept) : Prop where
  terms : ∀ terms, kept.terms = some terms → terms.Recordable
  version : ∀ terms, kept.terms = some terms → 0 < terms.minVersion
  stream : ∀ stream, kept.stream = some stream → stream.Recordable
  opens : kept.stream = none → kept.terms ≠ none
  braid : kept.braid.Storable

/-- A record has at least its braid's tag. -/
theorem record_ne_nil
    {kept : Kept}
    (short : (record (some kept)).length < 2 ^ 64) :
    (record (some kept)).length ≠ 0 := by
  have braidShort := (writeRecord_short short).1
  have tagged :
      0 < (Codec.Field.ofBytes 3 kept.braid.write).encode.length :=
    (Codec.Field.Written.bytes (by decide) (by decide)
      braidShort).encode_length_pos
  rw [record, ← encodeAll_recordFields, recordFields]
  simp only [Codec.encodeAll_append, Codec.encodeAll_cons,
    List.length_append]
  omega

/-- The record of a sound ratchet reads back, part by part. -/
structure Reads [Hashes] (kept : Kept) (parsed : Record) : Prop where
  parses : parseRecord (record (some kept)) = .ok parsed
  terms : parsed.terms = kept.terms
  braid : parsed.braid = some kept.braid.write
  readsBraid : Braid.read kept.braid.write = .ok kept.braid
  stream : PqRecord.streamOf parsed = kept.streamOf
  notEmpty : (record (some kept)).length ≠ 0

/-- A sound record reads back. -/
theorem Sound.reads
    [Hashes]
    {kept : Kept}
    (sound : kept.Sound)
    (short : (record (some kept)).length < 2 ^ 64) :
    ∃ parsed, kept.Reads parsed := by
  obtain ⟨braidShort, streamShort⟩ := writeRecord_short short
  refine ⟨_, parseRecord_writeRecord sound.terms short, rfl, rfl,
    Braid.read_write sound.braid.recordable braidShort, ?_,
    record_ne_nil short⟩
  rcases kept with ⟨terms, stream, braid⟩
  cases stream with
  | none => rfl
  | some stream =>
      exact Stream.read_write (sound.stream stream rfl)
        (streamShort stream rfl)

/-! ## Both ways of making a call agree -/

section Agree

variable [Hashes] [Kem]

/-- What a send leaves, with its state written to a record. -/
def writeSent
    (result : Option Kept × Bytes × Option (Block 32)) :
    Sent :=
  ⟨record result.1, result.2.1, result.2.2⟩

/-- What the receive on a record returns for it. -/
def writeReceived
    (result : Option Kept × Option (Block 32)) :
    Received :=
  ⟨record result.1, result.2⟩

/-- A send on the record is the send in memory. -/
theorem send_record
    {memory : Option Kept}
    (sound : ∀ kept, memory = some kept → kept.Sound)
    (short : (record memory).length < 2 ^ 64)
    (draw : Braid.Draw) :
    PqRecord.send (record memory) draw =
      writeSent <$> send memory draw := by
  cases memory with
  | none => rfl
  | some kept =>
      obtain ⟨parsed, reads⟩ := (sound kept rfl).reads short
      unfold PqRecord.send
      rw [if_neg reads.notEmpty, reads.parses, Outcome.ok_bind,
        reads.braid]
      simp only [reads.readsBraid, Outcome.ok_bind, reads.stream,
        reads.terms, send, map_bind]
      rfl

/-- Receiving on a record read back is receiving in memory. -/
theorem receivePacket_record
    {kept : Kept}
    {parsed : Record}
    (reads : kept.Reads parsed)
    (packet : Packet)
    (index : Nat) :
    (do
        let (braid, secret) ← kept.braid.receive packet
        let stream ← PqRecord.streamOf parsed
        let stream ← openEpoch stream secret
        let epoch ← Outcome.sub packet.epoch 1
        if epoch = 0 ∧ index = 0 then
          return (⟨writeRecord none (some stream) braid, none⟩ : Received)
        else
          let (key, stream) ← stream.keyToReceive epoch index
          return ⟨writeRecord none (some stream) braid, some key⟩) =
      writeReceived <$> kept.receivePacket packet index := by
  rw [receivePacket, reads.stream]
  simp only [map_bind]
  refine congrArg _ (funext fun received => ?_)
  refine congrArg _ (funext fun stream => ?_)
  refine congrArg _ (funext fun opened => ?_)
  refine congrArg _ (funext fun epoch => ?_)
  split_ifs
  · rfl
  · rw [map_bind]
    rfl

/-- A receive on the record is the receive in memory. -/
theorem receive_record
    {memory : Option Kept}
    (sound : ∀ kept, memory = some kept → kept.Sound)
    (short : (record memory).length < 2 ^ 64)
    (packet : Bytes) :
    PqRecord.receive (record memory) packet =
      writeReceived <$> receive memory packet := by
  cases memory with
  | none => rfl
  | some kept =>
      obtain ⟨parsed, reads⟩ := (sound kept rfl).reads short
      unfold PqRecord.receive
      rw [if_neg reads.notEmpty, reads.parses, Outcome.ok_bind]
      cases packet with
      | nil =>
          simp only [receiveNothing, reads.braid, reads.terms, receive]
          rw [map_bind]
          refine congrArg _ (funext fun terms => ?_)
          split_ifs <;> rfl
      | cons first ahead =>
          simp only [reads.braid, receive]
          split_ifs with other
          · rfl
          · rw [map_bind]
            refine congrArg _ (funext fun result => ?_)
            simp only [reads.readsBraid, Outcome.ok_bind]
            exact receivePacket_record reads result.1 result.2

end Agree

/-! ## Sound ratchets stay sound -/

section Keep

variable [Hashes]

/-- A sound record has a stream. -/
theorem Sound.streamOf
    {kept : Kept}
    (sound : kept.Sound) :
    ∃ stream, kept.streamOf = .ok stream ∧ stream.Recordable := by
  rcases kept with ⟨terms, stream, braid⟩
  cases stream with
  | some stream => exact ⟨stream, rfl, sound.stream stream rfl⟩
  | none =>
      obtain ⟨value, isTerms⟩ :=
        Option.ne_none_iff_exists'.mp (sound.opens rfl)
      refine ⟨Stream.start value.authKey value.side value.limits, ?_,
        Stream.start_recordable _ _ (sound.terms value isTerms).limits⟩
      change terms = some value at isTerms
      rw [isTerms]
      rfl

/-- Opening an epoch keeps the stream recordable. -/
theorem openEpoch_recordable
    {stream : Stream}
    (recordable : stream.Recordable)
    (secret : Option EpochSecret) :
    Outcome.Returns Stream.Recordable (openEpoch stream secret) := by
  cases secret with
  | none => exact .ok recordable
  | some secret => exact Stream.nextEpoch_recordable recordable _ _

variable [Kem]

/-- After a call the ratchet is sound, if there is one. -/
def Stays (memory : Option Kept) : Prop :=
  ∀ kept, memory = some kept → kept.Sound

/-- Sending keeps a record sound. -/
theorem send_sound
    {memory : Option Kept}
    (sound : Stays memory)
    (draw : Braid.Draw) :
    Outcome.Returns (fun result => Stays result.1) (send memory draw) := by
  cases memory with
  | none =>
      refine .ok ?_
      rintro _ ⟨⟩
  | some kept =>
      have kept_sound := sound kept rfl
      obtain ⟨stream, isStream, recordable⟩ := kept_sound.streamOf
      refine .bind fun sent sends => .bind fun found isFound =>
        .bind fun opened opens => .bind fun epoch _ =>
          .bind fun key yields => .ok ?_
      rw [isStream] at isFound
      cases isFound
      have openedFits := openEpoch_recordable recordable _ opened opens
      have streamFits :=
        Stream.keyToSend_recordable openedFits epoch key yields
      rintro _ ⟨⟩
      refine ⟨kept_sound.terms, kept_sound.version, ?_, ?_,
        Braid.send_storable kept_sound.braid draw sent sends⟩
      · rintro _ ⟨⟩
        exact streamFits
      · rintro ⟨⟩

/-- Receiving a packet keeps a record sound. -/
theorem receivePacket_sound
    {kept : Kept}
    (sound : kept.Sound)
    {packet : Packet}
    (epochFits : packet.epoch < 2 ^ 64)
    (index : Nat) :
    Outcome.Returns (fun result => Stays result.1)
      (kept.receivePacket packet index) := by
  obtain ⟨stream, isStream, recordable⟩ := sound.streamOf
  refine .bind fun received receives => .bind fun found isFound =>
    .bind fun opened opens => .bind fun epoch _ => ?_
  rw [isStream] at isFound
  cases isFound
  have openedFits := openEpoch_recordable recordable _ opened opens
  have braid :=
    Braid.receive_storable sound.braid epochFits received receives
  have after :
      ∀ stream : Stream, stream.Recordable →
        Stays (some ⟨none, some stream, received.1⟩) := by
    rintro stream streamFits _ ⟨⟩
    refine ⟨by simp, by simp, ?_, by simp, braid⟩
    rintro _ ⟨⟩
    exact streamFits
  split_ifs
  · exact .ok (after opened openedFits)
  · exact .bind fun key yields => .ok
      (after key.2
        (Stream.keyToReceive_recordable openedFits _ _ key yields))

/-- Receiving keeps a record sound. -/
theorem receive_sound
    {memory : Option Kept}
    (sound : Stays memory)
    (packet : Bytes) :
    Outcome.Returns (fun result => Stays result.1)
      (receive memory packet) := by
  have nothing : Stays none := by
    rintro _ ⟨⟩
  cases memory with
  | none => exact .ok nothing
  | some kept =>
      cases packet with
      | nil =>
          refine .bind fun terms _ => ?_
          split_ifs
          · exact .error _
          · exact .ok nothing
      | cons first ahead =>
          simp only [receive]
          split_ifs
          · exact .error _
          · exact .bind fun parsed parses =>
              receivePacket_sound (sound kept rfl)
                (Packet.parse_epochFits _ parsed parses) parsed.2

end Keep

end Kept

/-! ## Runs -/

/-- A call on one side. -/
inductive Call where
  | send (draw : Braid.Draw)
  | receive (packet : Bytes)

/-- The packet of a send, and the key; or the error. -/
abbrev Reply := Outcome RatchetError (Option Bytes × Option (Block 32))

section Runs

variable {σ : Type} [Hashes] [Kem]

/-- One call on a state in some form; a call that fails leaves the state. -/
def answer
    (send : σ → Braid.Draw →
      Outcome RatchetError (σ × Bytes × Option (Block 32)))
    (receive : σ → Bytes → Outcome RatchetError (σ × Option (Block 32)))
    (state : σ) :
    Call → σ × Reply
  | .send draw =>
      match send state draw with
      | .ok (after, packet, key) => (after, .ok (some packet, key))
      | .error fault => (state, .error fault)
      | .trap => (state, .trap)
  | .receive packet =>
      match receive state packet with
      | .ok (after, key) => (after, .ok (none, key))
      | .error fault => (state, .error fault)
      | .trap => (state, .trap)

/-- One call on the record. -/
def answerRecord (state : Bytes) (call : Call) : Bytes × Reply :=
  answer
    (fun state draw =>
      (fun sent => (sent.state, sent.packet, sent.key)) <$>
        send state draw)
    (fun state packet =>
      (fun received => (received.state, received.key)) <$>
        receive state packet)
    state call

/-- One call in memory. -/
def answerKept (memory : Option Kept) (call : Call) : Option Kept × Reply :=
  answer Kept.send Kept.receive memory call

/-- The replies to some calls, and the state after them. -/
def replies
    (step : σ → Call → σ × Reply) :
    List Call → σ → σ × List Reply
  | [], state => (state, [])
  | call :: rest, state =>
      let (after, reply) := step state call
      let (last, more) := replies step rest after
      (last, reply :: more)

/-- Both forms of one call reply alike. -/
theorem answer_record
    {memory : Option Kept}
    (sound : Kept.Stays memory)
    (short : (Kept.record memory).length < 2 ^ 64)
    (call : Call) :
    answerRecord (Kept.record memory) call =
      (Kept.record (answerKept memory call).1,
        (answerKept memory call).2) := by
  cases call with
  | send draw =>
      rw [answerRecord, answerKept, answer, answer,
        Kept.send_record sound short]
      cases Kept.send memory draw <;> rfl
  | receive packet =>
      rw [answerRecord, answerKept, answer, answer,
        Kept.receive_record sound short]
      cases Kept.receive memory packet <;> rfl

/-- Every call keeps a record sound. -/
theorem answerKept_sound
    {memory : Option Kept}
    (sound : Kept.Stays memory)
    (call : Call) :
    Kept.Stays (answerKept memory call).1 := by
  cases call with
  | send draw =>
      have stays := Kept.send_sound sound draw
      rw [answerKept, answer]
      split
      · exact stays _ ‹_›
      · exact sound
      · exact sound
  | receive packet =>
      have stays := Kept.receive_sound sound packet
      rw [answerKept, answer]
      split
      · exact stays _ ‹_›
      · exact sound
      · exact sound

/-- Every record on the way fits a slice. -/
def FitAlong : List Call → Option Kept → Prop
  | [], memory => (Kept.record memory).length < 2 ^ 64
  | call :: rest, memory =>
      (Kept.record memory).length < 2 ^ 64 ∧
        FitAlong rest (answerKept memory call).1

instance FitAlong.decidable :
    (calls : List Call) →
    (memory : Option Kept) →
    Decidable (FitAlong calls memory)
  | [], memory => inferInstanceAs (Decidable ((Kept.record memory).length < _))
  | call :: rest, memory =>
      have := decidable rest (answerKept memory call).1
      inferInstanceAs (Decidable ((Kept.record memory).length < _ ∧ _))

/-- A run on the record replies as the run in memory, call by call. -/
theorem replies_record
    {memory : Option Kept}
    (sound : Kept.Stays memory)
    (calls : List Call)
    (fit : FitAlong calls memory) :
    replies answerRecord calls (Kept.record memory) =
      (Kept.record (replies answerKept calls memory).1,
        (replies answerKept calls memory).2) := by
  induction calls generalizing memory with
  | nil => rfl
  | cons call rest inductionHypothesis =>
      have later := inductionHypothesis (answerKept_sound sound call)
        fit.2
      rw [replies, replies, answer_record sound fit.1]
      simp only [later]

/-- The ratchet before its first message, in memory. -/
def startKept
    (authKey : Block 32)
    (side : Side)
    (limits : Limits) :
    Outcome RatchetError (Option Kept) := do
  let braid ←
    match side with
    | .initiator => Braid.startInitiator authKey.bytes
    | .responder => Braid.startResponder authKey.bytes
  return some ⟨some ⟨authKey.bytes, side, 1, limits⟩, none, braid⟩

omit [Kem] in
/-- A record starts as it does in memory. -/
theorem start_record
    (authKey : Block 32)
    (side : Side)
    (limits : Limits) :
    start authKey side limits =
      Kept.record <$> startKept authKey side limits := by
  unfold start startKept
  cases side with
  | initiator => cases Braid.startInitiator authKey.bytes <;> rfl
  | responder => cases Braid.startResponder authKey.bytes <;> rfl

omit [Kem] in
/-- A fresh record is sound. -/
theorem startKept_sound
    (authKey : Block 32)
    (side : Side)
    {limits : Limits}
    (limitsFit : limits.Fits) :
    Outcome.Returns Kept.Stays (startKept authKey side limits) := by
  have fresh :
      ∀ braid : Braid, braid.Storable →
        Kept.Stays (some ⟨some ⟨authKey.bytes, side, 1, limits⟩, none,
          braid⟩) := by
    rintro braid storable _ ⟨⟩
    refine ⟨?_, ?_, by simp, by simp, storable⟩
    · rintro _ ⟨⟩
      exact ⟨Nat.one_lt_two_pow (by decide), limitsFit⟩
    · rintro _ ⟨⟩
      exact Nat.one_pos
  unfold startKept
  cases side with
  | initiator =>
      exact .bind fun braid starts =>
        .ok (fresh braid (Braid.startInitiator_storable _ braid starts))
  | responder =>
      exact .bind fun braid starts =>
        .ok (fresh braid (Braid.startResponder_storable _ braid starts))

end Runs

end Gossveil.PqRecord

/-! ## Every reachable value reads back -/

namespace Gossveil

open ErasureCode KeyStream TwoParty

section Reached

variable [Hashes] [Kem]

/-- A braid that some calls lead to, whatever packets they are given. -/
inductive Braid.Reached : Braid → Prop where
  | initiator
      {authKey : Bytes}
      {braid : Braid}
      (starts : Braid.startInitiator authKey = .ok braid) :
      Reached braid
  | responder
      {authKey : Bytes}
      {braid : Braid}
      (starts : Braid.startResponder authKey = .ok braid) :
      Reached braid
  | send
      {braid after : Braid}
      {draw : Braid.Draw}
      {sent : Braid.Sent}
      (before : Reached braid)
      (sends : braid.send draw = .ok (after, sent)) :
      Reached after
  | receive
      {braid after : Braid}
      {packet : Packet}
      {secret : Option EpochSecret}
      (before : Reached braid)
      (epochFits : packet.epoch < 2 ^ 64)
      (receives : braid.receive packet = .ok (after, secret)) :
      Reached after

/-- Every braid reached is storable. -/
theorem Braid.Reached.storable
    {braid : Braid}
    (reached : braid.Reached) :
    braid.Storable := by
  induction reached with
  | initiator starts => exact Braid.startInitiator_storable _ _ starts
  | responder starts => exact Braid.startResponder_storable _ _ starts
  | send _ sends inductionHypothesis =>
      exact Braid.send_storable inductionHypothesis _ _ sends
  | receive _ epochFits receives inductionHypothesis =>
      exact Braid.receive_storable inductionHypothesis epochFits _ receives

omit [Kem] in
/-- A stream that some calls lead to. -/
inductive KeyStream.Stream.Reached : Stream → Prop where
  | start
      (initial : Bytes)
      (side : Side)
      {limits : Limits}
      (limitsFit : limits.Fits) :
      Reached (Stream.start initial side limits)
  | nextEpoch
      {stream after : Stream}
      {epoch : Nat}
      {secret : Bytes}
      (before : Reached stream)
      (opens : stream.nextEpoch epoch secret = .ok after) :
      Reached after
  | keyToSend
      {stream after : Stream}
      {epoch index : Nat}
      {key : Block 32}
      (before : Reached stream)
      (yields : stream.keyToSend epoch = .ok (index, key, after)) :
      Reached after
  | keyToReceive
      {stream after : Stream}
      {epoch index : Nat}
      {key : Block 32}
      (before : Reached stream)
      (yields : stream.keyToReceive epoch index = .ok (key, after)) :
      Reached after

omit [Kem] in
/-- Every stream reached can be recorded. -/
theorem KeyStream.Stream.Reached.recordable
    {stream : Stream}
    (reached : stream.Reached) :
    stream.Recordable := by
  induction reached with
  | start initial side limitsFit =>
      exact Stream.start_recordable initial side limitsFit
  | nextEpoch _ opens inductionHypothesis =>
      exact Stream.nextEpoch_recordable inductionHypothesis _ _ _ opens
  | keyToSend _ yields inductionHypothesis =>
      exact Stream.keyToSend_recordable inductionHypothesis _ _ yields
  | keyToReceive _ yields inductionHypothesis =>
      exact Stream.keyToReceive_recordable inductionHypothesis _ _ _
        yields

end Reached

/-- A spread of a message after some pieces, or set to any next index. -/
inductive ErasureCode.Spread.Reached (message : Bytes) : Spread → Prop where
  | of
      {spread : Spread}
      (spreads : Spread.of message = .ok spread) :
      Reached message spread
  | pieceAt
      {spread after : Spread}
      {index : Gf16}
      {piece : Piece}
      (before : Reached message spread)
      (made : spread.pieceAt index = .ok (piece, after)) :
      Reached message after
  | next
      {spread : Spread}
      {next : Nat}
      (before : Reached message spread)
      (nextFits : next < 2 ^ 32) :
      Reached message { spread with next := next }

/-- Every spread reached carries its message. -/
theorem ErasureCode.Spread.Reached.carries
    {message : Bytes}
    {spread : Spread}
    (reached : spread.Reached message) :
    spread.Carries message := by
  induction reached with
  | of spreads =>
      unfold Spread.of at spreads
      split_ifs at spreads with odd tooLong
      obtain ⟨other, isOther, carries⟩ :=
        Spread.of_carries (not_not.mp odd) (Nat.not_lt.mp tooLong)
      rw [Spread.of, if_neg odd, if_neg tooLong] at isOther
      cases spreads
      cases isOther
      exact carries
  | pieceAt _ made inductionHypothesis =>
      obtain ⟨after, isAfter, carries, _⟩ :=
        Spread.pieceAt_of_carries inductionHypothesis _
      rw [made] at isAfter
      cases isAfter
      exact carries
  | next _ nextFits inductionHypothesis =>
      exact ⟨inductionHypothesis.short, inductionHypothesis.even, nextFits,
        inductionHypothesis.columns⟩

/-- A gather for a length after any pieces. -/
inductive ErasureCode.Gather.Reached (length : Nat) : Gather → Prop where
  | forLength
      {gather : Gather}
      (gathers : Gather.forLength length = .ok gather) :
      Reached length gather
  | add
      {gather : Gather}
      (before : Reached length gather)
      (piece : Piece) :
      Reached length (gather.add piece)

/-- Every collection reached asks for half the length. -/
theorem ErasureCode.Gather.Reached.needed
    {length : Nat}
    {gather : Gather}
    (reached : gather.Reached length) :
    gather.needed = length / 2 := by
  induction reached with
  | forLength gathers =>
      exact Gather.forLength_returns length _ gathers
  | add _ _ inductionHypothesis => exact inductionHypothesis

namespace PqRecord

/--
Every reachable value reads back as it was written, as long as it fits a
slice; and a run that reloads its record before every call gives the replies
of the run in memory.
-/
theorem records_read_back [Hashes] [Kem] :
    (∀ {braid : Braid},
        braid.Reached → braid.write.length < 2 ^ 64 →
          Braid.read braid.write = .ok braid) ∧
      (∀ {stream : Stream},
        stream.Reached → stream.write.length < 2 ^ 64 →
          Stream.read stream.write = .ok stream) ∧
      (∀ {message : Bytes} {spread : Spread},
        32 ≤ message.length → spread.Reached message →
          spread.write.length < 2 ^ 64 →
            Spread.read spread.write = .ok spread) ∧
      (∀ {length : Nat} {gather : Gather},
        length < 2 ^ 64 → gather.Reached length →
          gather.write.length < 2 ^ 64 →
            Gather.read gather.write = .ok gather) ∧
      (∀ {authKey : Block 32} {side : Side} {limits : Limits}
          {memory : Option Kept} (calls : List Call),
        limits.Fits → startKept authKey side limits = .ok memory →
          FitAlong calls memory →
            start authKey side limits = .ok (Kept.record memory) ∧
              replies answerRecord calls (Kept.record memory) =
                (Kept.record (replies answerKept calls memory).1,
                  (replies answerKept calls memory).2)) := by
  refine ⟨?_, ?_, ?_, ?_, ?_⟩
  · intro braid reached short
    exact Braid.read_write reached.storable.recordable short
  · intro stream reached short
    exact Stream.read_write reached.recordable short
  · intro message spread long reached short
    exact Spread.read_write
      (Spread.Carries.recordable reached.carries long) short
  · intro length gather lengthFits reached short
    refine Gather.read_write ?_ short
    rw [reached.needed]
    exact Nat.lt_of_le_of_lt (Nat.div_le_self length 2) lengthFits
  · intro authKey side limits memory calls limitsFit starts fit
    refine ⟨?_, replies_record
      (startKept_sound authKey side limitsFit memory starts) calls fit⟩
    rw [start_record, starts]
    rfl

end PqRecord

end Gossveil

namespace Gossveil.PqRecord

open TwoParty KeyStream Braid Sample

attribute [local instance] hashes kem

/-- The draw of the sample run. -/
private def reloadDraw : Draw :=
  ⟨Block.fill 64 5, Block.fill 32 6⟩

/-- What a side keeps at its start. -/
@[irreducible] private def reloadStart (side : Side) : Option Kept :=
  match startKept (Block.fill 32 3) side Limits.default with
  | .ok memory => memory
  | _ => none

/-- The packets of the sends among some replies. -/
private def packetsOf (replies : List Reply) : List Bytes :=
  replies.filterMap fun reply =>
    match reply with
    | .ok (packet, _) => packet
    | _ => none

/-- The pieces of the initiator's header. -/
@[irreducible] private def headerPackets : List Bytes :=
  packetsOf
    (replies answerKept (List.replicate 3 (.send reloadDraw))
      (reloadStart .initiator)).2

/-- The responder sends before and after the header has arrived. -/
private def reloadCalls : List Call :=
  .send reloadDraw :: headerPackets.map .receive ++
    [.send reloadDraw, .send reloadDraw]

set_option maxRecDepth 100000 in
/-- A run that carries a header stays within its bounds. -/
private theorem reload_fits :
    startKept (Block.fill 32 3) .responder Limits.default =
        .ok (reloadStart .responder) ∧
      headerPackets.length = 3 ∧
      FitAlong reloadCalls (reloadStart .responder) := by
  decide +kernel

/-- Reloading does not change the replies of that run. -/
theorem records_read_back_header :
    headerPackets.length = 3 ∧
      replies answerRecord reloadCalls (Kept.record (reloadStart .responder)) =
        (Kept.record
            (replies answerKept reloadCalls (reloadStart .responder)).1,
          (replies answerKept reloadCalls (reloadStart .responder)).2) := by
  obtain ⟨starts, three, fit⟩ := reload_fits
  have limitsFit : Limits.default.Fits := by
    refine ⟨?_, ?_⟩ <;> decide
  exact ⟨three,
    (records_read_back.2.2.2.2 reloadCalls limitsFit starts fit).2⟩

end Gossveil.PqRecord
