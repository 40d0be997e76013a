import Gossveil.PqTotality
import Gossveil.Reload

namespace Gossveil.PqRecord

open TwoParty KeyStream

/-!
# Receives without a key

A message that is opened without a post-quantum key has the classical keys
alone.  A ratchet that has been started never turns into no ratchet, and
refuses an empty packet and one of another version; what is left is the packet
of the first epoch and of index zero, which no sender makes.
-/

/-- A record has at least its braid's tag. -/
theorem writeRecord_ne_nil
    (terms : Option Terms)
    (stream : Option Stream)
    (braid : Braid) :
    writeRecord terms stream braid ≠ [] := by
  have tagged : Codec.Writer.embed 3 braid.write ≠ [] := by
    simp only [Codec.Writer.embed, Codec.Writer.bytes, Codec.Writer.tag,
      Codec.putVarint, List.append_assoc, ne_eq, List.append_eq_nil_iff]
    exact fun empty => Codec.putVarintInto_ne_nil 9 _ empty.1
  exact List.append_ne_nil_of_right_ne_nil _ tagged

section Calls

variable [Hashes] [Kem]

namespace Kept

/-- Sending keeps a record that is there. -/
theorem send_keeps
    (kept : Kept)
    (draw : Braid.Draw) :
    Outcome.Returns (fun result => ∃ after, result.1 = some after)
      (send (some kept) draw) :=
  .bind fun _ _ => .bind fun _ _ => .bind fun _ _ => .bind fun _ _ =>
    .bind fun _ _ => .ok ⟨_, rfl⟩

/-- Only the first epoch's index zero goes without a key. -/
theorem receivePacket_keeps
    (kept : Kept)
    (packet : Packet)
    (index : Nat) :
    Outcome.Returns
      (fun result =>
        (∃ after, result.1 = some after) ∧
          (∃ received, kept.braid.receive packet = .ok received) ∧
            (result.2 = none ↔ packet.epoch = 1 ∧ index = 0))
      (kept.receivePacket packet index) := by
  refine .bind fun received receives => .bind fun stream _ =>
    .bind fun opened _ => .bind fun epoch isEpoch => ?_
  obtain ⟨positive, rfl⟩ := Outcome.sub_eq_ok.mp isEpoch
  split_ifs with first
  · refine .ok ⟨⟨_, rfl⟩, ⟨_, receives⟩, iff_of_true rfl ⟨?_, first.2⟩⟩
    exact Nat.le_antisymm (Nat.sub_eq_zero_iff_le.mp first.1) positive
  · refine .bind fun key _ =>
      .ok ⟨⟨_, rfl⟩, ⟨_, receives⟩, iff_of_false ?_ ?_⟩
    · simp
    · rintro ⟨isFirst, isZero⟩
      exact first ⟨by rw [isFirst], isZero⟩

/--
Receiving keeps the record, and the key is missing only at the first epoch's
index zero.
-/
theorem receive_keeps
    {kept : Kept}
    (sound : kept.Sound)
    (packet : Bytes) :
    Outcome.Returns
      (fun result =>
        (∃ after, result.1 = some after) ∧
          (result.2 = none →
            ∃ parsed, Packet.parse packet = .ok (parsed, 0) ∧
              parsed.epoch = 1 ∧
                ∃ received, kept.braid.receive parsed = .ok received))
      (receive (some kept) packet) := by
  cases packet with
  | nil =>
      refine .bind fun terms isTerms => ?_
      have positive :=
        sound.version terms (Outcome.ofOption_eq_ok.mp isTerms)
      rw [if_pos positive]
      exact .error _
  | cons first ahead =>
      simp only [receive]
      split_ifs
      · exact .error _
      · refine .bind fun parsed parses => ?_
        intro result receives
        obtain ⟨keeps, accepted, keyless⟩ :=
          receivePacket_keeps kept parsed.1 parsed.2 result receives
        refine ⟨keeps, fun noKey => ?_⟩
        obtain ⟨isFirst, isZero⟩ := keyless.mp noKey
        rw [← isZero]
        exact ⟨parsed.1, parses, isFirst, accepted⟩

omit [Kem] in
/-- A next epoch is opened, or the call traps. -/
theorem openEpoch_ne_error
    (stream : Stream)
    (secret : Option EpochSecret)
    (fault : RatchetError) :
    openEpoch stream secret ≠ .error fault := by
  cases secret with
  | none => simp [openEpoch]
  | some secret =>
      by_cases traps : stream.nextEpoch secret.epoch secret.secret.bytes =
          .trap
      · simp [openEpoch, traps]
      · rw [Stream.nextEpoch_eq_trap, not_or, not_not, Nat.not_le]
          at traps
        obtain ⟨opened, opens⟩ :=
          Stream.nextEpoch_returns secret.secret.bytes traps.2 traps.1
        simp [openEpoch, opens]

/-- An accepted packet of the first epoch and of index zero gives no key. -/
theorem receivePacket_keyless
    {kept : Kept}
    (sound : kept.Sound)
    (gathers : kept.braid.Gathers)
    {packet : Packet}
    (accepts : ¬ kept.braid.Refuses packet)
    (isFirst : packet.epoch = 1) :
    kept.receivePacket packet 0 = .trap ∨
      ∃ after, kept.receivePacket packet 0 = .ok (some after, none) := by
  obtain ⟨stream, isStream, _⟩ := sound.streamOf
  have goesOn :
      ∀ after secret,
        kept.braid.receive packet = .ok (after, secret) →
          kept.receivePacket packet 0 = .trap ∨
            ∃ later,
              kept.receivePacket packet 0 = .ok (some later, none) := by
    intro after secret receives
    simp only [receivePacket, receives, Outcome.ok_bind, isStream]
    cases opens : openEpoch stream secret with
    | ok opened =>
        refine Or.inr ⟨⟨none, some opened, after⟩, ?_⟩
        rw [isFirst]
        rfl
    | error fault => exact absurd opens (openEpoch_ne_error _ _ _)
    | trap => exact Or.inl rfl
  cases Braid.receive_outcome gathers packet with
  | refuses is _ => exact absurd is accepts
  | lastEpoch _ _ _ traps =>
      refine Or.inl ?_
      rw [receivePacket, traps]
      rfl
  | ends _ _ _ returns =>
      obtain ⟨after, secret, receives, _⟩ := returns
      exact goesOn after (some secret) receives
  | goesOn _ _ returns =>
      obtain ⟨after, receives⟩ := returns
      exact goesOn after none receives

end Kept

/-! ## Every state of a run holds a ratchet -/

/-- A state that successful calls lead to, whatever packets they are given. -/
inductive Grown : Bytes → Prop where
  | start
      {authKey : Block 32}
      {side : Side}
      {limits : Limits}
      {state : Bytes}
      (limitsFit : limits.Fits)
      (starts : start authKey side limits = .ok state)
      (short : state.length < 2 ^ 64) :
      Grown state
  | send
      {state : Bytes}
      {draw : Braid.Draw}
      {sent : Sent}
      (before : Grown state)
      (sends : send state draw = .ok sent)
      (short : sent.state.length < 2 ^ 64) :
      Grown sent.state
  | receive
      {state packet : Bytes}
      {received : Received}
      (before : Grown state)
      (receives : receive state packet = .ok received)
      (short : received.state.length < 2 ^ 64) :
      Grown received.state

/-- A grown record is short. -/
theorem Grown.short
    {state : Bytes}
    (grown : Grown state) :
    state.length < 2 ^ 64 := by
  cases grown <;> assumption

omit [Kem] in
/-- A record starts with its terms. -/
theorem start_kept
    {authKey : Block 32}
    {side : Side}
    {limits : Limits}
    {state : Bytes}
    (starts : start authKey side limits = .ok state) :
    ∃ kept, startKept authKey side limits = .ok (some kept) ∧
      state = Kept.record (some kept) := by
  unfold start at starts
  unfold startKept
  cases side with
  | initiator =>
      obtain ⟨braid, isBraid, ⟨⟩⟩ := Outcome.bind_eq_ok.mp starts
      simp only [isBraid]
      exact ⟨_, rfl, rfl⟩
  | responder =>
      obtain ⟨braid, isBraid, ⟨⟩⟩ := Outcome.bind_eq_ok.mp starts
      simp only [isBraid]
      exact ⟨_, rfl, rfl⟩

omit [Hashes] [Kem] in
private theorem stays_some
    {kept : Kept}
    (sound : kept.Sound) :
    Kept.Stays (some kept) := by
  rintro _ ⟨⟩
  exact sound

/-- A grown record is that of a sound one. -/
theorem Grown.kept
    {state : Bytes}
    (grown : Grown state) :
    ∃ kept : Kept, state = Kept.record (some kept) ∧ kept.Sound := by
  induction grown with
  | start limitsFit starts _ =>
      obtain ⟨kept, startsKept, rfl⟩ := start_kept starts
      exact ⟨kept, rfl,
        startKept_sound _ _ limitsFit _ startsKept kept rfl⟩
  | @send _ draw _ before sends _ inductionHypothesis =>
      obtain ⟨kept, rfl, sound⟩ := inductionHypothesis
      have stays := stays_some sound
      rw [Kept.send_record stays before.short] at sends
      obtain ⟨result, sendsKept, rfl⟩ := Outcome.map_eq_ok.mp sends
      obtain ⟨after, isAfter⟩ := Kept.send_keeps kept draw result sendsKept
      refine ⟨after, ?_, Kept.send_sound stays draw result sendsKept
        after isAfter⟩
      rw [Kept.writeSent, isAfter]
  | @receive _ packet _ before receives _ inductionHypothesis =>
      obtain ⟨kept, rfl, sound⟩ := inductionHypothesis
      have stays := stays_some sound
      rw [Kept.receive_record stays before.short] at receives
      obtain ⟨result, receivesKept, rfl⟩ := Outcome.map_eq_ok.mp receives
      obtain ⟨⟨after, isAfter⟩, _⟩ :=
        Kept.receive_keeps sound packet result receivesKept
      refine ⟨after, ?_, Kept.receive_sound stays packet result
        receivesKept after isAfter⟩
      rw [Kept.writeReceived, isAfter]

/-! ## Keyed or refused -/

/-- A receive is refused, or leaves a ratchet and yields a key. -/
def KeyedOrRefused (state packet : Bytes) : Prop :=
  (∃ fault, receive state packet = .error fault) ∨
    ∃ received key,
      receive state packet = .ok received ∧
        received.state ≠ [] ∧ received.key = some key

/--
A packet of the first epoch and of index zero that the braid of the state
does not refuse.
-/
def Keyless (state packet : Bytes) : Prop :=
  ∃ record data braid parsed,
    parseRecord state = .ok record ∧ record.braid = some data ∧
      Braid.read data = .ok braid ∧
        Packet.parse packet = .ok (parsed, 0) ∧ parsed.epoch = 1 ∧
          ¬ braid.Refuses parsed

/-- The braid of a keyless packet is the one the ratchet is kept with. -/
theorem keyless_record
    {kept : Kept}
    (sound : kept.Sound)
    (short : (Kept.record (some kept)).length < 2 ^ 64)
    (packet : Bytes) :
    Keyless (Kept.record (some kept)) packet ↔
      ∃ parsed, Packet.parse packet = .ok (parsed, 0) ∧
        parsed.epoch = 1 ∧ ¬ kept.braid.Refuses parsed := by
  obtain ⟨parsed, reads⟩ := sound.reads short
  constructor
  · rintro ⟨record, data, braid, named, parses, isData, isBraid, rest⟩
    rw [reads.parses] at parses
    cases parses
    rw [reads.braid] at isData
    cases isData
    rw [reads.readsBraid] at isBraid
    cases isBraid
    exact ⟨named, rest⟩
  · rintro ⟨named, rest⟩
    exact ⟨parsed, _, kept.braid, named, reads.parses, reads.braid,
      reads.readsBraid, rest⟩

/-- A keyless packet is neither refused nor keyed. -/
theorem Keyless.not_keyed
    {state packet : Bytes}
    (grown : Grown state)
    (keyless : Keyless state packet) :
    ¬ KeyedOrRefused state packet := by
  have short := grown.short
  obtain ⟨kept, rfl, sound⟩ := grown.kept
  obtain ⟨parsed, parses, isFirst, accepts⟩ :=
    (keyless_record sound short packet).mp keyless
  obtain ⟨_, reads⟩ := sound.reads short
  have gathers : kept.braid.Gathers :=
    Braid.read_gathers _ _ reads.readsBraid
  have receives :
      receive (Kept.record (some kept)) packet =
        Kept.writeReceived <$> kept.receivePacket parsed 0 := by
    rw [Kept.receive_record (stays_some sound) short]
    cases packet with
    | nil => cases parses
    | cons first ahead =>
        by_cases version : first = Packet.version
        · simp only [Kept.receive, version, ne_eq, not_true_eq_false,
            if_false]
          rw [version] at parses
          rw [parses]
          rfl
        · rw [Packet.parse, Outcome.require_not version] at parses
          cases parses
  rw [KeyedOrRefused, receives]
  rcases Kept.receivePacket_keyless sound gathers accepts isFirst with
    traps | ⟨after, returns⟩
  · rw [traps]
    rintro (⟨fault, ⟨⟩⟩ | ⟨received, key, ⟨⟩, _⟩)
  · rw [returns]
    rintro (⟨fault, ⟨⟩⟩ | ⟨received, key, ⟨⟩, _, ⟨⟩⟩)

/--
In every state of a run, a receive is refused or keyed exactly when it does
not trap and the packet is not a keyless one.
-/
theorem keyedOrRefused_iff
    {state packet : Bytes}
    (grown : Grown state) :
    KeyedOrRefused state packet ↔
      ¬ ReceiveTraps state packet ∧ ¬ Keyless state packet := by
  have short := grown.short
  rw [← receive_eq_trap short]
  constructor
  · intro keyed
    refine ⟨?_, fun keyless => keyless.not_keyed grown keyed⟩
    intro traps
    rw [KeyedOrRefused, traps] at keyed
    rcases keyed with ⟨fault, ⟨⟩⟩ | ⟨received, key, ⟨⟩, _⟩
  · rintro ⟨returns, keyed⟩
    cases receives : receive state packet with
    | trap => exact absurd receives returns
    | error fault => exact Or.inl ⟨fault, receives⟩
    | ok received =>
        obtain ⟨kept, rfl, sound⟩ := grown.kept
        have inMemory := receives
        rw [Kept.receive_record (stays_some sound) short] at inMemory
        obtain ⟨result, receivesKept, rfl⟩ := Outcome.map_eq_ok.mp inMemory
        obtain ⟨⟨after, isAfter⟩, noKey⟩ :=
          Kept.receive_keeps sound packet result receivesKept
        refine Or.inr ⟨_, result.2.getD (Block.zero 32), receives, ?_, ?_⟩
        · rw [Kept.writeReceived, isAfter]
          exact writeRecord_ne_nil _ _ _
        · cases isKey : result.2 with
          | some key => simp [Kept.writeReceived, isKey]
          | none =>
              obtain ⟨parsed, parses, isFirst, accepted, accepts⟩ :=
                noKey isKey
              obtain ⟨_, reads⟩ := sound.reads short
              refine absurd ((keyless_record sound short packet).mpr
                ⟨parsed, parses, isFirst, fun refuses => ?_⟩) keyed
              obtain ⟨fault, fails⟩ := Braid.refuses_fails
                (Braid.read_gathers _ _ reads.readsBraid) refuses
              rw [fails] at accepts
              cases accepts

end Calls

end Gossveil.PqRecord

namespace Gossveil.PqRecord

open KeyStream Sample

attribute [local instance] hashes kem

/-- The record the initiator starts with. -/
private def keyedStart : Bytes :=
  match start (Block.zero 32) .initiator Limits.default with
  | .ok state => state
  | _ => []

/-- The version, the first epoch, index zero, and an empty payload. -/
def keylessPacket : Bytes :=
  [1, 1, 0, 0]

/-- What it returns for a packet that carries no key. -/
private def keyedReceived : Received :=
  match receive keyedStart keylessPacket with
  | .ok received => received
  | _ => ⟨[], none⟩

set_option maxRecDepth 100000 in
/-- A packet that is received without a key. -/
private theorem keyed_steps :
    start (Block.zero 32) .initiator Limits.default = .ok keyedStart ∧
      keyedStart.length < 2 ^ 64 ∧
      receive keyedStart keylessPacket = .ok keyedReceived ∧
      keyedReceived.key = none := by
  decide

private theorem keyedStart_grown : Grown keyedStart := by
  obtain ⟨starts, short, _⟩ := keyed_steps
  have limitsFit : Limits.default.Fits := by
    refine ⟨?_, ?_⟩ <;> decide
  exact .start limitsFit starts short

/-- The condition at that packet. -/
theorem keyedOrRefused_iff_keylessPacket :
    KeyedOrRefused keyedStart keylessPacket ↔
      ¬ ReceiveTraps keyedStart keylessPacket ∧
        ¬ Keyless keyedStart keylessPacket :=
  keyedOrRefused_iff keyedStart_grown

/-- The packet is received without a key in the first state of a run. -/
theorem keylessPacket_not_keyed :
    Grown keyedStart ∧ ¬ KeyedOrRefused keyedStart keylessPacket := by
  obtain ⟨_, _, receives, noKey⟩ := keyed_steps
  refine ⟨keyedStart_grown, ?_⟩
  rw [KeyedOrRefused, receives]
  generalize keyedReceived = received at noKey ⊢
  rintro (⟨fault, ⟨⟩⟩ | ⟨_, key, ⟨⟩, _, isKey⟩)
  rw [noKey] at isKey
  cases isKey

end Gossveil.PqRecord
