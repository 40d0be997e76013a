import Gossveil.BraidAgreement
import Gossveil.PqRecord
import Gossveil.StreamKeys

namespace Gossveil.PqRecord

open ErasureCode TwoParty KeyStream Braid

/-!
# Safety of the post-quantum ratchet between two sides

The records of both sides hold the two braids of an agreement and streams that
follow the secrets their braids have emitted.  The braid's epoch is never ahead
of the stream by more than one, so a send always finds its flow, and both sides
derive the keys of an epoch from the same secrets.
-/

variable [Hashes] [Kem]

/-! ## The braids fit their records -/

section Braids

variable {exchange : Exchange} {braid : Braid}

/-- The state of the key's side can be recorded. -/
theorem keySide_recordable
    (sound : exchange.Sound)
    (side : KeySide exchange braid) :
    braid.Recordable := by
  have epochFits := sound.epochFits
  cases side with
  | late before positive long noKeys carries =>
      exact ⟨by omega, carries.recordable long⟩
  | unsampled => exact epochFits
  | sampled isKeys carries =>
      exact ⟨epochFits, carries.recordable (by
        rw [Exchange.length_headerText]
        decide)⟩
  | @headerOut keys first outEncap inFirst isKeys isFirst carries gathers =>
      refine ⟨epochFits, carries.recordable ?_, ?_⟩
      · rw [keys.encap.length_bytes]
        decide
      · rw [gathers.needed, first.capsule.length_bytes]
  | @firstIn keys first outEncap isKeys isFirst carries =>
      refine ⟨epochFits, carries.recordable ?_⟩
      rw [keys.encap.length_bytes]
      decide
  | encapOutFirstIn isKeys isFirst answered gathers =>
      refine ⟨epochFits, ?_⟩
      rw [gathers.needed, Exchange.length_secondText]

/-- The state of the capsule's side can be recorded. -/
theorem capsuleSide_recordable
    (sound : exchange.Sound)
    (side : CapsuleSide exchange braid) :
    braid.Recordable := by
  have epochFits := sound.epochFits
  have capsuleLong :
      ∀ first : Kem.First,
        2 * polynomials ≤ first.capsule.bytes.length := by
    intro first
    rw [first.capsule.length_bytes]
    decide
  cases side with
  | waiting _ _ gathers => exact ⟨epochFits, gathers.needed⟩
  | @headerIn keys inEncap isKeys noFirst unanswered gathers =>
      refine ⟨epochFits, ?_⟩
      rw [gathers.needed, keys.encap.length_bytes]
  | @firstOut keys first outFirst inEncap isKeys isFirst unanswered carries
      gathers =>
      refine ⟨epochFits, carries.recordable (capsuleLong first), ?_⟩
      rw [gathers.needed, keys.encap.length_bytes]
  | @encapInFirstOut keys first outFirst isKeys isFirst unanswered
      carries =>
      exact ⟨epochFits, carries.recordable (capsuleLong first)⟩
  | @firstAcked keys first inEncap isKeys isFirst unanswered gathers =>
      refine ⟨epochFits, ?_⟩
      rw [gathers.needed, keys.encap.length_bytes]
  | secondOut isKeys isFirst answered carries =>
      refine ⟨epochFits, carries.recordable ?_⟩
      rw [Exchange.length_secondText]
      decide

variable {keySide : Side} {talk : Talk}

/-- Both parties' states can be recorded. -/
theorem agreement_recordable
    (agreement : Agreement exchange keySide talk)
    (side : Side) :
    (talk.state side).Recordable := by
  rcases side.eq_or_eq_other keySide with rfl | rfl
  · exact keySide_recordable agreement.sound agreement.key
  · exact capsuleSide_recordable agreement.sound agreement.capsule

end Braids

/-! ## Records -/

/-- The secrets a side has emitted so far. -/
def secretsOf (talk : Talk) (side : Side) : List (Block 32) :=
  (talk.emitted side).map EpochSecret.secret

omit [Hashes] [Kem] in
@[simp] theorem length_secretsOf (talk : Talk) (side : Side) :
    (secretsOf talk side).length = (talk.emitted side).length :=
  List.length_map ..

omit [Hashes] [Kem] in
/-- A step adds its secret to its own party's. -/
theorem secretsOf_act_self
    (talk : Talk)
    (side : Side)
    (braid : Braid)
    (packets : List Packet)
    (secret : Option EpochSecret) :
    secretsOf (talk.act side braid packets secret) side =
      secretsOf talk side ++ (secret.map EpochSecret.secret).toList := by
  rw [secretsOf, Talk.emitted_act_self, List.map_append]
  cases secret <;> rfl

omit [Hashes] [Kem] in
/-- A step leaves the other party's secrets. -/
theorem secretsOf_act_other
    (talk : Talk)
    (side : Side)
    (braid : Braid)
    (packets : List Packet)
    (secret : Option EpochSecret) :
    secretsOf (talk.act side braid packets secret) side.other =
      secretsOf talk side.other := by
  rw [secretsOf, Talk.emitted_act_other]
  rfl

/-- The stream that a state leads to: its own, or the one of its terms. -/
def streamIn (state : Bytes) : Outcome RatchetError Stream :=
  parseRecord state >>= streamOf

/-- The braid in a state. -/
def braidIn (state : Bytes) : Outcome RatchetError Braid := do
  let record ← parseRecord state
  let data ← Outcome.ofOption .badRecord record.braid
  Braid.read data

/-- A state holds a braid and a stream that follows the secrets. -/
structure Keeps
    (authKey : Block 32)
    (limits : Limits)
    (side : Side)
    (braid : Braid)
    (secrets : List (Block 32))
    (taken : Nat → Nat → Prop)
    (state : Bytes)
    (stream : Stream) :
    Prop where
  written :
    ∃ terms recorded,
      state = writeRecord terms recorded braid ∧
        (∀ value, terms = some value → value.Recordable) ∧
        (recorded = some stream ∨
          (recorded = none ∧
            terms = some ⟨authKey.bytes, side, 1, limits⟩ ∧
            stream = Stream.start authKey.bytes side limits))
  follows :
    ∃ first, Follows authKey.bytes side limits secrets taken first stream
  sendEpoch : stream.sendEpoch + 1 ≤ braid.epoch

section Reading

variable
  {authKey : Block 32}
  {limits : Limits}
  {side : Side}
  {braid : Braid}
  {secrets : List (Block 32)}
  {taken : Nat → Nat → Prop}
  {state : Bytes}
  {stream : Stream}

omit [Kem] in
/-- What the record of a kept state reads as. -/
theorem Keeps.reads
    (keeps : Keeps authKey limits side braid secrets taken state stream)
    (braidFits : braid.Recordable)
    (limitsFit : limits.Fits)
    (epochsFit : secrets.length < 2 ^ 64)
    (short : state.length < 2 ^ 64) :
    ∃ record,
      parseRecord state = .ok record ∧
        record.braid = some braid.write ∧
        Braid.read braid.write = .ok braid ∧
        streamOf record = .ok stream ∧
        (∀ value, record.terms = some value → value.Recordable) ∧
        state.length ≠ 0 := by
  rcases keeps.written with ⟨terms, recorded, rfl, termsFit, isStream⟩
  rcases keeps.follows with ⟨first, follows⟩
  rcases writeRecord_short short with ⟨braidShort, streamShort⟩
  refine ⟨_, parseRecord_writeRecord termsFit short, rfl,
    Braid.read_write braidFits braidShort, ?_, termsFit, ?_⟩
  · rcases isStream with rfl | ⟨rfl, rfl, rfl⟩
    · exact Stream.read_write (follows.recordable limitsFit epochsFit)
        (streamShort stream rfl)
    · rfl
  · rw [← encodeAll_recordFields, recordFields]
    have tagged : 0 < (Codec.Field.ofBytes 3 braid.write).encode.length :=
      (Codec.Field.Written.bytes (by decide) (by decide)
        braidShort).encode_length_pos
    simp only [Codec.encodeAll_append, Codec.encodeAll_cons,
      List.length_append]
    omega

omit [Kem] in
/-- A record holds its stream and its braid. -/
theorem Keeps.streamIn_eq
    (keeps : Keeps authKey limits side braid secrets taken state stream)
    (braidFits : braid.Recordable)
    (limitsFit : limits.Fits)
    (epochsFit : secrets.length < 2 ^ 64)
    (short : state.length < 2 ^ 64) :
    streamIn state = .ok stream ∧ braidIn state = .ok braid := by
  rcases keeps.reads braidFits limitsFit epochsFit short with
    ⟨record, parses, isBraid, reads, isStream, _⟩
  rw [streamIn, braidIn, parses, Outcome.ok_bind, Outcome.ok_bind, isBraid,
    Outcome.ofOption_some, Outcome.ok_bind]
  exact ⟨isStream, reads⟩

end Reading

omit [Kem] in
/-- The braid's secret opens the epoch it is for. -/
theorem openEpoch_follows
    {initial : Bytes}
    {side : Side}
    {limits : Limits}
    {secrets : List (Block 32)}
    {taken : Nat → Nat → Prop}
    {first : Nat}
    {stream : Stream}
    (follows : Follows initial side limits secrets taken first stream)
    {secret : Option EpochSecret}
    (isNext : ∀ value, secret = some value →
      value.epoch = secrets.length + 1 ∧ secrets.length + 1 < 2 ^ 64) :
    ∃ after, openEpoch stream secret = .ok after ∧
      Follows initial side limits
        (secrets ++ (secret.map EpochSecret.secret).toList) taken first
        after ∧
      after.sendEpoch = stream.sendEpoch := by
  cases secret with
  | none =>
      refine ⟨stream, rfl, ?_, rfl⟩
      rw [Option.map_none, Option.toList_none, List.append_nil]
      exact follows
  | some value =>
      obtain ⟨epoch, fits⟩ := isNext value rfl
      obtain ⟨after, opens, afterFollows, sendEpoch⟩ :=
        follows.nextEpoch value.secret fits
      refine ⟨after, ?_, afterFollows, sendEpoch⟩
      rw [openEpoch, epoch]
      exact opens

omit [Kem] in
/-- Opening an epoch keeps the counters in their bounds. -/
theorem openEpoch_fit
    {initial : Bytes}
    {side : Side}
    {limits : Limits}
    {secrets : List (Block 32)}
    {taken : Nat → Nat → Prop}
    {first : Nat}
    {stream after : Stream}
    (follows : Follows initial side limits secrets taken first stream)
    (fit : CountersFit stream)
    {secret : Option EpochSecret}
    (opens : openEpoch stream secret = .ok after) :
    CountersFit after := by
  cases secret with
  | none =>
      cases opens
      exact fit
  | some value => exact follows.nextEpoch_fit fit opens

/-! ## One call -/

variable
  {authKey : Block 32}
  {limits : Limits}
  {exchange : Exchange}
  {keySide : Side}
  {talk : Talk}

/-- The secret of a call is the one of the epoch behind the emitted ones. -/
theorem secret_next
    {later : Exchange}
    {laterSide : Side}
    {side : Side}
    {braid : Braid}
    {packets : List Packet}
    {secret : Option EpochSecret}
    (agreement :
      Agreement later laterSide (talk.act side braid packets secret)) :
    ∀ value, secret = some value →
      value.epoch = (secretsOf talk side).length + 1 ∧
        (secretsOf talk side).length + 1 < 2 ^ 64 := by
  rintro value rfl
  have epochs := agreement.emitted_epochs side
  have fits := agreement.length_emitted side
  rw [Talk.emitted_act_self, Option.toList_some, List.length_append,
    List.length_singleton] at epochs fits
  rw [List.map_append, List.range'_concat, Nat.one_mul] at epochs
  have last := (List.append_inj' epochs rfl).2
  rw [length_secretsOf]
  refine ⟨?_, fits⟩
  simp only [List.map_singleton, List.cons.injEq, and_true] at last
  rw [last, Nat.add_comm]

/-- How a packet's bytes and its key come from what its sender knows. -/
structure SentAt
    (authKey : Block 32)
    (talk : Talk)
    (side : Side)
    (bytes : Bytes)
    (key : Option (Block 32))
    (packet : Packet)
    (index : Nat) :
    Prop where
  parses : Packet.parse bytes = .ok (packet, index)
  isSent : packet ∈ talk.packets side
  epochPositive : 1 ≤ packet.epoch
  positive : 1 ≤ index
  known : packet.epoch - 1 ≤ (secretsOf talk side).length
  isKey :
    key =
      some (messageKey
        (chainIn authKey.bytes (secretsOf talk side) (packet.epoch - 1)
          side)
        index)

/-- The same, for an index that is not near the end of its range. -/
structure SentAs
    (authKey : Block 32)
    (limits : Limits)
    (talk : Talk)
    (side : Side)
    (bytes : Bytes)
    (key : Option (Block 32))
    (packet : Packet)
    (index : Nat) :
    Prop where
  parses : Packet.parse bytes = .ok (packet, index)
  isSent : packet ∈ talk.packets side
  epochPositive : 1 ≤ packet.epoch
  positive : 1 ≤ index
  fits : index + limits.skipped + 1 < 2 ^ 32
  known : packet.epoch - 1 ≤ (secretsOf talk side).length
  isKey :
    key =
      some (messageKey
        (chainIn authKey.bytes (secretsOf talk side) (packet.epoch - 1)
          side)
        index)

omit [Hashes] [Kem] in
/-- A packet sent as such was sent at its place, with room for its index. -/
theorem sentAs_iff
    [Hashes]
    {side : Side}
    {bytes : Bytes}
    {key : Option (Block 32)}
    {packet : Packet}
    {index : Nat} :
    SentAs authKey limits talk side bytes key packet index ↔
      SentAt authKey talk side bytes key packet index ∧
        index + limits.skipped + 1 < 2 ^ 32 :=
  ⟨fun sent =>
      ⟨⟨sent.parses, sent.isSent, sent.epochPositive, sent.positive,
        sent.known, sent.isKey⟩, sent.fits⟩,
    fun ⟨sent, fits⟩ =>
      ⟨sent.parses, sent.isSent, sent.epochPositive, sent.positive, fits,
        sent.known, sent.isKey⟩⟩

/-- What a send that returns has done. -/
structure SendKeeps
    (authKey : Block 32)
    (limits : Limits)
    (keySide : Side)
    (talk : Talk)
    (side : Side)
    (taken : Nat → Nat → Prop)
    (stream : Stream)
    (sent : Sent)
    (after : Braid)
    (packet : Packet)
    (secret : Option EpochSecret)
    (later : Exchange)
    (index : Nat)
    (key : Block 32)
    (opened stream' : Stream) :
    Prop where
  isKey : sent.key = some key
  sameEpoch : after.epoch = (talk.state side).epoch
  packetEpoch : packet.epoch = after.epoch
  agreement : Agreement later keySide (talk.act side after [packet] secret)
  opens : openEpoch stream secret = .ok opened
  yields :
    opened.keyToSend (packet.epoch - 1) = .ok (index, key, stream')
  keeps :
    Keeps authKey limits side after
      (secretsOf (talk.act side after [packet] secret) side) taken
      sent.state stream'
  counter : ∃ flows ∈ stream'.epochs, flows.send.counter = index
  sentAt :
    SentAt authKey (talk.act side after [packet] secret) side sent.packet
      (some key) packet index

/-- A send takes the braid's packet, opens its epoch and takes the key. -/
private theorem send_parts
    (limitsFit : limits.Fits)
    (agreement : Agreement exchange keySide talk)
    {side : Side}
    {taken : Nat → Nat → Prop}
    {state : Bytes}
    {stream : Stream}
    (keeps :
      Keeps authKey limits side (talk.state side) (secretsOf talk side)
        taken state stream)
    (short : state.length < 2 ^ 64) :
    ∃ terms : Option Terms,
      (∀ value, terms = some value → value.Recordable) ∧
        ∀ draw, send state draw = (do
          let (braid, sent) ← (talk.state side).send draw
          let stream ← openEpoch stream sent.secret
          let epoch ← Outcome.sub sent.packet.epoch 1
          let (index, key, stream) ← stream.keyToSend epoch
          return ⟨writeRecord terms (some stream) braid,
            sent.packet.serialize index, some key⟩) := by
  obtain ⟨record, parses, isBraid, reads, isStream, termsFit, nonempty⟩ :=
    keeps.reads (agreement_recordable agreement side) limitsFit
      (by rw [length_secretsOf]; exact agreement.length_emitted side)
      short
  refine ⟨record.terms, termsFit, fun draw => ?_⟩
  rw [send, if_neg nonempty, parses, Outcome.ok_bind, isBraid]
  simp only
  rw [reads, Outcome.ok_bind, isStream]
  rfl

/-- A send that returns gives a key and keeps the side's record. -/
theorem send_returns
    (limitsFit : limits.Fits)
    (agreement : Agreement exchange keySide talk)
    {side : Side}
    {taken : Nat → Nat → Prop}
    {state : Bytes}
    {stream : Stream}
    (keeps :
      Keeps authKey limits side (talk.state side) (secretsOf talk side)
        taken state stream)
    (short : state.length < 2 ^ 64)
    (draw : Draw) :
    Outcome.Returns
      (fun sent =>
        ∃ after packet secret later index key opened stream',
          SendKeeps authKey limits keySide talk side taken stream sent
            after packet secret later index key opened stream')
      (send state draw) := by
  obtain ⟨terms, termsFit, shape⟩ := send_parts limitsFit agreement keeps
    short
  rw [shape]
  refine .bind fun made sends => .bind fun opened opens =>
    .bind fun epoch isEpoch => .bind fun result yields => .ok ?_
  obtain ⟨_, rfl⟩ := Outcome.sub_eq_ok.mp isEpoch
  rcases agreement.send side draw with
    ⟨_, refused⟩ | ⟨after, sent, later, sends', _, agreement'⟩
  · rw [refused] at sends
    cases sends
  rw [sends'] at sends
  cases sends
  obtain ⟨afterEpoch, packetEpoch, sendable, _⟩ := Braid.send_epoch sends'
  obtain ⟨first, follows⟩ := keeps.follows
  obtain ⟨opened', opens', openedFollows, openedSend⟩ :=
    openEpoch_follows follows (secret_next agreement')
  rw [opens] at opens'
  cases opens'
  rw [← secretsOf_act_self talk side after [sent.packet]] at openedFollows
  have epochKnown := agreement'.epoch_known side
  rw [Talk.state_act_self, afterEpoch] at epochKnown
  have sendEpoch := keeps.sendEpoch
  have notBack : opened.sendEpoch ≤ sent.packet.epoch - 1 := by
    omega
  have known :
      sent.packet.epoch - 1 ≤
        (secretsOf (talk.act side after [sent.packet] sent.secret)
          side).length := by
    rw [length_secretsOf]
    omega
  obtain ⟨isKey, positive, indexFits, counter, sendEpoch', first',
    follows'⟩ := openedFollows.keyToSend_returns notBack known result yields
  obtain ⟨index, key, stream'⟩ := result
  refine ⟨after, sent.packet, sent.secret, later, index, key, opened,
    stream', rfl, afterEpoch, packetEpoch.trans afterEpoch.symm,
    agreement', opens, yields,
    ⟨⟨terms, some stream', rfl, termsFit, Or.inl rfl⟩,
      ⟨first', follows'⟩, ?_⟩, counter, ?_⟩
  · rw [sendEpoch', afterEpoch, packetEpoch]
    omega
  · have epochFits : sent.packet.epoch < 2 ^ 64 := by
      rw [packetEpoch]
      exact agreement.epoch_lt side
    exact ⟨Packet.parse_serialize (by omega) epochFits indexFits sendable,
      by simp, by omega, positive, known, congrArg some isKey⟩

/-- A send returns a key and keeps the side's record. -/
theorem send_keeps
    (generates : ∀ seed, ∃ keys, Kem.generate seed = some keys)
    (limitsFit : limits.Fits)
    (agreement : Agreement exchange keySide talk)
    {side : Side}
    {taken : Nat → Nat → Prop}
    {state : Bytes}
    {stream : Stream}
    (keeps :
      Keeps authKey limits side (talk.state side) (secretsOf talk side)
        taken state stream)
    (fit : CountersFit stream)
    (short : state.length < 2 ^ 64)
    (draw : Draw) :
    ∃ sent after packet secret later index key opened stream',
      send state draw = .ok sent ∧
        SendKeeps authKey limits keySide talk side taken stream sent
          after packet secret later index key opened stream' := by
  suffices returned : ∃ sent, send state draw = .ok sent by
    obtain ⟨sent, sends⟩ := returned
    obtain ⟨after, packet, secret, later, index, key, opened, stream',
      kept⟩ := send_returns limitsFit agreement keeps short draw sent sends
    exact ⟨sent, after, packet, secret, later, index, key, opened, stream',
      sends, kept⟩
  obtain ⟨terms, _, shape⟩ := send_parts limitsFit agreement keeps short
  rcases agreement.send side draw with
    ⟨refused, _⟩ | ⟨after, sent, later, sends, _, agreement'⟩
  · obtain ⟨keys, made⟩ := generates draw.seed
    rw [made] at refused
    cases refused
  obtain ⟨afterEpoch, packetEpoch, _, _⟩ := Braid.send_epoch sends
  obtain ⟨first, follows⟩ := keeps.follows
  obtain ⟨opened, opens, openedFollows, openedSend⟩ :=
    openEpoch_follows follows (secret_next agreement')
  have openedFit := openEpoch_fit follows fit opens
  rw [← secretsOf_act_self talk side after [sent.packet]] at openedFollows
  have epochKnown := agreement'.epoch_known side
  rw [Talk.state_act_self, afterEpoch] at epochKnown
  have sendEpoch := keeps.sendEpoch
  obtain ⟨result, yields⟩ := openedFollows.keyToSend openedFit
    (show opened.sendEpoch ≤ sent.packet.epoch - 1 by omega)
    (by rw [length_secretsOf]; omega)
  have subtracts :
      (Outcome.sub sent.packet.epoch 1 : Outcome RatchetError Nat) =
        .ok (sent.packet.epoch - 1) :=
    Outcome.sub_of_le (by omega)
  rw [shape, sends, Outcome.ok_bind]
  simp only
  rw [opens, Outcome.ok_bind, subtracts, Outcome.ok_bind, yields]
  exact ⟨_, rfl⟩

/-- Two sides that agree know the same chains. -/
private theorem chainIn_agree
    (agreement : Agreement exchange keySide talk)
    {first second : Side}
    {epoch : Nat}
    (known : epoch ≤ (secretsOf talk first).length)
    (known' : epoch ≤ (secretsOf talk second).length)
    (initial : Bytes)
    (sender : Side) :
    chainIn initial (secretsOf talk first) epoch sender =
      chainIn initial (secretsOf talk second) epoch sender := by
  have taken :
      ∀ {side : Side}, epoch ≤ (secretsOf talk side).length →
        (secretsOf talk side).take epoch =
          (exchange.emissions.map EpochSecret.secret).take epoch := by
    intro side within
    rcases (agreement.emitted_prefix side).map EpochSecret.secret with
      ⟨rest, whole⟩
    rw [← whole]
    exact (List.take_append_of_le_length within).symm
  rw [chainIn, chainIn, taken known, taken known']

/-- A receive gives the braid the packet, opens its epoch and takes the key. -/
theorem receive_parts
    (limitsFit : limits.Fits)
    (agreement : Agreement exchange keySide talk)
    {side : Side}
    {taken : Nat → Nat → Prop}
    {state : Bytes}
    {stream : Stream}
    (keeps :
      Keeps authKey limits side (talk.state side) (secretsOf talk side)
        taken state stream)
    (short : state.length < 2 ^ 64)
    {bytes : Bytes}
    {key : Option (Block 32)}
    {packet : Packet}
    {index : Nat}
    (sent : SentAt authKey talk side.other bytes key packet index) :
    receive state bytes = (do
      let (braid, secret) ← (talk.state side).receive packet
      let stream ← openEpoch stream secret
      let (key, stream) ← stream.keyToReceive (packet.epoch - 1) index
      return ⟨writeRecord none (some stream) braid, some key⟩) := by
  obtain ⟨record, parses, isBraid, reads, isStream, _, nonempty⟩ :=
    keeps.reads (agreement_recordable agreement side) limitsFit
      (by rw [length_secretsOf]; exact agreement.length_emitted side)
      short
  have subtracts :
      (Outcome.sub packet.epoch 1 : Outcome RatchetError Nat) =
        .ok (packet.epoch - 1) :=
    Outcome.sub_of_le sent.epochPositive
  rcases bytes with _ | ⟨version, rest⟩
  · cases sent.parses
  · have isVersion : version = Packet.version := by
      have parsed := sent.parses
      rw [Packet.parse] at parsed
      rcases Outcome.bind_eq_ok.mp parsed with ⟨_, checked, _⟩
      exact Outcome.require_eq_ok.mp checked
    have notFirst : ¬ (packet.epoch - 1 = 0 ∧ index = 0) := by
      have positive := sent.positive
      omega
    rw [receive, if_neg nonempty, parses, Outcome.ok_bind]
    simp only
    rw [if_neg (not_not.mpr isVersion), isBraid]
    simp only
    rw [sent.parses, Outcome.ok_bind]
    simp only
    rw [reads, Outcome.ok_bind]
    simp only [isStream, Outcome.ok_bind, subtracts, if_neg notFirst]

/-- The key that a receive takes is the one of its packet's send. -/
theorem SentAt.isKey_received
    {side : Side}
    {bytes : Bytes}
    {key : Option (Block 32)}
    {packet : Packet}
    {index : Nat}
    (sent : SentAt authKey talk side.other bytes key packet index)
    {later : Exchange}
    {laterSide : Side}
    {after : Braid}
    {secret : Option EpochSecret}
    (agreement :
      Agreement later laterSide (talk.act side after [] secret))
    (known :
      packet.epoch - 1 ≤
        (secretsOf (talk.act side after [] secret) side).length) :
    key =
      some (messageKey
        (chainIn authKey.bytes
          (secretsOf (talk.act side after [] secret) side)
          (packet.epoch - 1) side.other)
        index) := by
  have known' := sent.known
  rw [sent.isKey, ← secretsOf_act_other talk side after [] secret]
  rw [← secretsOf_act_other talk side after [] secret] at known'
  rw [chainIn_agree agreement known' known]

/-- A receive fails, or it returns the sender's key and keeps the record. -/
theorem receive_keeps
    [LawfulKem]
    (limitsFit : limits.Fits)
    (agreement : Agreement exchange keySide talk)
    {side : Side}
    {taken : Nat → Nat → Prop}
    {state : Bytes}
    {stream : Stream}
    (keeps :
      Keeps authKey limits side (talk.state side) (secretsOf talk side)
        taken state stream)
    (fit : CountersFit stream)
    (short : state.length < 2 ^ 64)
    {bytes : Bytes}
    {key : Option (Block 32)}
    {packet : Packet}
    {index : Nat}
    (sent : SentAs authKey limits talk side.other bytes key packet index) :
    (∃ fault, receive state bytes = .error fault) ∨
      (2 ^ 64 ≤ (talk.state side).epoch + 1 ∧
        receive state bytes = .trap) ∨
      ∃ after secret later laterSide stream' state' key',
        receive state bytes = .ok ⟨state', some key'⟩ ∧
          Agreement later laterSide (talk.act side after [] secret) ∧
          Keeps authKey limits side after
            (secretsOf (talk.act side after [] secret) side)
            (fun epoch place => taken epoch place ∨
              (epoch = packet.epoch - 1 ∧ place = index))
            state' stream' ∧
          ¬ taken (packet.epoch - 1) index ∧
          key = some key' ∧
          ∃ opened,
            openEpoch stream secret = .ok opened ∧
              opened.keyToReceive (packet.epoch - 1) index =
                .ok (key', stream') := by
  obtain ⟨sentAt, fits⟩ := sentAs_iff.mp sent
  rw [receive_parts limitsFit agreement keeps short sentAt]
  rcases agreement.receive side sent.isSent with
    ⟨exhausted, trapped⟩ |
      ⟨after, secret, later, laterSide, receives, agreement'⟩
  · rw [trapped]
    exact Or.inr (Or.inl ⟨exhausted, rfl⟩)
  rw [receives, Outcome.ok_bind]
  simp only
  obtain ⟨first, follows⟩ := keeps.follows
  obtain ⟨opened, opens, openedFollows, openedSend⟩ :=
    openEpoch_follows follows (secret_next agreement')
  have openedFit := openEpoch_fit follows fit opens
  rw [← secretsOf_act_self talk side after []] at openedFollows
  rw [opens, Outcome.ok_bind]
  rcases openedFollows.keyToReceive openedFit (packet.epoch - 1)
      (Nat.lt_of_succ_lt fits) with
    ⟨fault, refused⟩ |
      ⟨stream', yields, known, notTaken, sendEpoch, follows'⟩
  · rw [refused]
    exact Or.inl ⟨fault, rfl⟩
  · rw [yields]
    refine Or.inr (Or.inr ⟨after, secret, later, laterSide, stream', _, _,
      rfl, agreement', ⟨⟨none, some stream', rfl, by simp,
        Or.inl rfl⟩, ⟨first, follows'⟩, ?_⟩, notTaken,
      sentAt.isKey_received agreement' known, opened, opens, yields⟩)
    have moved := Braid.receive_epoch _ _ _ receives
    have before := keeps.sendEpoch
    rw [sendEpoch, openedSend]
    exact before.trans moved

end Gossveil.PqRecord
