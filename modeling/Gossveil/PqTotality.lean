import Gossveil.BraidTraps
import Gossveil.StreamTraps

namespace Gossveil.PqRecord

open KeyStream Braid

/-!
# Totality of the post-quantum ratchet

On which state bytes and packet bytes a send or a receive traps: the record
cannot be read, or its braid and its stream read well but do not belong
together, or a counter is too near to the end of its range.  A `usize` has 64
bits here, as in all the parsers.
-/

/-- The stream in a record cannot be read. -/
def StreamUnreadable (record : Record) : Prop :=
  ∃ data, record.stream = some data ∧ Stream.Overlong data

/-- The stream cannot open the epoch: it is not the next, or is past the last. -/
def NotNext (stream : Stream) (epoch : Nat) : Prop :=
  2 ^ 64 ≤ stream.epoch + 1 ∨ epoch ≠ stream.epoch + 1

variable [Hashes]

/-- The stream traps exactly when its record does. -/
theorem streamOf_eq_trap
    {record : Record}
    (short : record.Short) :
    streamOf record = .trap ↔ StreamUnreadable record := by
  unfold streamOf StreamUnreadable
  cases isStream : record.stream with
  | none => simp [Outcome.bind_eq_trap]
  | some data => simp [Stream.read_eq_trap (short.stream data isStream)]

/-- Opening an epoch, and what follows on the stream it leaves. -/
private theorem openEpoch_bind_eq_trap
    {stream : Stream}
    {epoch : Nat}
    {secret : Option EpochSecret}
    (isEpoch : ∀ value, secret = some value → value.epoch = epoch)
    {α : Type}
    {next : Stream → Outcome RatchetError α}
    {Traps : Prop}
    (stays : secret = none → (next stream = .trap ↔ Traps))
    (opens :
      ∀ {opened value},
        secret = some value →
        epoch = stream.epoch + 1 →
        stream.nextEpoch epoch value.secret.bytes = .ok opened →
        (next opened = .trap ↔ Traps)) :
    openEpoch stream secret >>= next = .trap ↔
      (secret ≠ none ∧ NotNext stream epoch) ∨ Traps := by
  cases isSecret : secret with
  | none => simpa [openEpoch] using stays isSecret
  | some value =>
      have sameEpoch := isEpoch value isSecret
      simp only [openEpoch, sameEpoch]
      rw [Outcome.bind_eq_trap, Stream.nextEpoch_eq_trap]
      change NotNext stream epoch ∨ _ ↔ _
      by_cases isNext : NotNext stream epoch
      · exact iff_of_true (Or.inl isNext)
          (Or.inl ⟨by simp, isNext⟩)
      · rw [or_iff_right isNext, or_iff_right (fun both => isNext both.2)]
        have isFollowing : epoch = stream.epoch + 1 := by
          by_contra other
          exact isNext (Or.inr other)
        have more : stream.epoch + 1 < 2 ^ 64 := by
          by_contra last
          exact isNext (Or.inl (Nat.not_lt.mp last))
        obtain ⟨opened, isOpened⟩ :=
          Stream.nextEpoch_returns value.secret.bytes isFollowing more
        rw [isOpened]
        simp only [Outcome.ok.injEq, exists_eq_left']
        exact opens isSecret isFollowing isOpened

/-! ## Sending -/

/-- A send that has stepped the braid traps in the stream. -/
def SendMismatch (stream : Stream) (braid : Braid) : Prop :=
  (braid.Encapsulates ∧ NotNext stream braid.epoch) ∨
    braid.epoch = 0 ∨
      stream.SendOverruns (braid.epoch - 1)

/-- The stream's part of a send. -/
private theorem sendKey_eq_trap
    {stream : Stream}
    {epoch : Nat}
    {secret : Option EpochSecret}
    (isEpoch : ∀ value, secret = some value → value.epoch = epoch)
    {α : Type}
    {finish : Nat × Block 32 × Stream → α} :
    (do
        let stream ← openEpoch stream secret
        let before ← Outcome.sub epoch 1
        let sent ← stream.keyToSend before
        return finish sent) = .trap ↔
      (secret ≠ none ∧ NotNext stream epoch) ∨
        epoch = 0 ∨
          stream.SendOverruns (epoch - 1) := by
  have keyTraps :
      ∀ opened : Stream,
        (opened.SendOverruns (epoch - 1) ↔
            stream.SendOverruns (epoch - 1)) →
        ((do
            let before ← Outcome.sub epoch 1
            let sent ← opened.keyToSend before
            return finish sent : Outcome RatchetError α) = .trap ↔
          epoch = 0 ∨ stream.SendOverruns (epoch - 1)) := by
    intro opened sameFlow
    by_cases isZero : epoch = 0
    · refine iff_of_true ?_ (Or.inl isZero)
      rw [isZero]
      rfl
    · rw [Outcome.sub_of_le (Nat.one_le_iff_ne_zero.mpr isZero),
        Outcome.ok_bind, Outcome.bind_eq_trap,
        Stream.keyToSend_eq_trap, sameFlow]
      simp [isZero]
  refine openEpoch_bind_eq_trap isEpoch
    (fun _ => keyTraps stream Iff.rfl) ?_
  intro opened value _ isFollowing opens
  have known : epoch - 1 ≤ stream.epoch := by
    rw [isFollowing]
    exact Nat.le_refl _
  exact keyTraps opened (Stream.sendOverruns_nextEpoch opens known)

variable [Kem]

/-- A send traps behind the parsing of its record. -/
def SendStepTraps
    (record : Record)
    (braid : Braid)
    (draw : Draw) :
    Prop :=
  braid.Overfull ∨
    (¬ braid.LacksKeys draw ∧
      (StreamUnreadable record ∨
        ∃ stream, streamOf record = .ok stream ∧
          SendMismatch stream braid))

/-- What makes a send trap. -/
def SendTraps (state : Bytes) (draw : Draw) : Prop :=
  Unreadable state ∨
    ∃ record data,
      parseRecord state = .ok record ∧ record.braid = some data ∧
        (Braid.Overlong data ∨
          ∃ braid, Braid.read data = .ok braid ∧
            SendStepTraps record braid draw)

/-- A send from its parsed record on. -/
private theorem sendStep_eq_trap
    {record : Record}
    (short : record.Short)
    (braid : Braid)
    (draw : Draw) :
    (do
        let (braid, sent) ← braid.send draw
        let stream ← streamOf record
        let stream ← openEpoch stream sent.secret
        let epoch ← Outcome.sub sent.packet.epoch 1
        let (index, key, stream) ← stream.keyToSend epoch
        return (⟨writeRecord record.terms (some stream) braid,
          sent.packet.serialize index, some key⟩ : Sent)) = .trap ↔
      SendStepTraps record braid draw := by
  unfold SendStepTraps
  cases Braid.send_outcome braid draw with
  | overfull is traps =>
      rw [traps]
      exact iff_of_true rfl (Or.inl is)
  | lacksKeys fits is fails =>
      obtain ⟨fault, fails⟩ := fails
      rw [fails]
      refine iff_of_false (by simp) ?_
      rintro (overfull | ⟨hasKeys, _⟩)
      · exact fits overfull
      · exact hasKeys is
  | sends fits hasKeys returns =>
      obtain ⟨after, sent, sends, isSecret⟩ := returns
      obtain ⟨_, packetEpoch, _, secretEpoch⟩ := Braid.send_epoch sends
      rw [sends, or_iff_right fits]
      simp only [Outcome.ok_bind, hasKeys, not_false_eq_true, true_and]
      rw [Outcome.bind_eq_trap, streamOf_eq_trap short]
      refine or_congr_right (exists_congr fun stream =>
        and_congr_right fun _ => ?_)
      unfold SendMismatch
      rw [packetEpoch, ← isSecret]
      exact sendKey_eq_trap secretEpoch

omit [Hashes] [Kem] in
/-- A call traps in its parser, or behind it. -/
private theorem parsed_eq_trap
    {α : Type}
    {state : Bytes}
    (short : state.length < 2 ^ 64)
    {next : Record → Outcome RatchetError α}
    {Traps : Record → Bytes → Prop}
    (withBraid :
      ∀ {record data},
        record.Short →
        record.braid = some data →
        (next record = .trap ↔ Traps record data))
    (withoutBraid :
      ∀ {record}, record.braid = none → next record ≠ .trap) :
    parseRecord state >>= next = .trap ↔
      Unreadable state ∨
        ∃ record data,
          parseRecord state = .ok record ∧ record.braid = some data ∧
            Traps record data := by
  rw [Outcome.bind_eq_trap, parseRecord_eq_trap short]
  refine or_congr_right (exists_congr fun record => ?_)
  rw [exists_and_left]
  refine and_congr_right fun parses => ?_
  have parts := parseRecord_short short record parses
  cases isBraid : record.braid with
  | none =>
      refine iff_of_false (withoutBraid isBraid) ?_
      rintro ⟨data, impossible, _⟩
      cases impossible
  | some data => simp [withBraid parts isBraid]

omit [Hashes] [Kem] in
/-- An empty state is no record with a braid. -/
private theorem empty_reads : parseRecord [] = .ok Record.empty :=
  rfl

omit [Hashes] [Kem] in
private theorem empty_traps_not
    {Traps : Record → Bytes → Prop} :
    ¬ (Unreadable [] ∨
        ∃ record data,
          parseRecord [] = .ok record ∧ record.braid = some data ∧
            Traps record data) := by
  rintro (unreadable | ⟨record, data, parses, isBraid, _⟩)
  · have traps := (parseRecord_eq_trap (by decide)).mpr unreadable
    rw [empty_reads] at traps
    cases traps
  · rw [empty_reads] at parses
    cases parses
    cases isBraid

/-- A send traps exactly in these cases. -/
theorem send_eq_trap
    {state : Bytes}
    (short : state.length < 2 ^ 64)
    (draw : Draw) :
    send state draw = .trap ↔ SendTraps state draw := by
  unfold send SendTraps
  split_ifs with isEmpty
  · rw [List.length_eq_zero_iff] at isEmpty
    subst isEmpty
    exact iff_of_false (by simp) empty_traps_not
  · refine parsed_eq_trap short ?_ ?_
    · intro record data parts isBraid
      rw [isBraid]
      simp only
      rw [Outcome.bind_eq_trap,
        Braid.read_eq_trap (parts.braid data isBraid)]
      exact or_congr_right (exists_congr fun braid =>
        and_congr_right fun _ => sendStep_eq_trap parts braid draw)
    · intro record isBraid
      rw [isBraid]
      simp

/-! ## Receiving -/

/-- A receive that has parsed its packet traps behind the braid. -/
def ReceiveStepTraps
    (record : Record)
    (braid : Braid)
    (packet : Packet)
    (index : Nat) :
    Prop :=
  (braid.Ends packet ∧ 2 ^ 64 ≤ braid.epoch + 1) ∨
    StreamUnreadable record ∨
      ∃ stream, streamOf record = .ok stream ∧
        ((braid.Ends packet ∧ NotNext stream braid.epoch) ∨
          (¬ (packet.epoch - 1 = 0 ∧ index = 0) ∧
            stream.ReceiveOverruns (packet.epoch - 1) index))

/-- What makes a receive trap. -/
def ReceiveTraps (state packet : Bytes) : Prop :=
  Unreadable state ∨
    ∃ record data,
      parseRecord state = .ok record ∧ record.braid = some data ∧
        ∃ parsed index,
          Packet.parse packet = .ok (parsed, index) ∧
            (Braid.Overlong data ∨
              ∃ braid, Braid.read data = .ok braid ∧
                ¬ braid.Refuses parsed ∧
                  ReceiveStepTraps record braid parsed index)

omit [Hashes] [Kem] in
/-- A parsed packet names an epoch and an index in range. -/
theorem parse_inRange (data : Bytes) :
    Outcome.Returns
      (fun result => 1 ≤ result.1.epoch ∧ result.2 < 2 ^ 32)
      (Packet.parse data) := by
  cases data with
  | nil => exact .error _
  | cons first ahead =>
      refine .bind fun _ _ => .bind fun read _ => .bind fun _ positive =>
        .bind fun later _ => .bind fun index isIndex => ?_
      split
      · exact .error _
      · refine .bind fun payload _ => .ok ⟨?_, ?_⟩
        · exact Nat.one_le_iff_ne_zero.mpr
            (Outcome.require_eq_ok.mp positive)
        · obtain ⟨fits, same⟩ :=
            Outcome.castTo_eq_some.mp (Outcome.ofOption_eq_ok.mp isIndex)
          exact same ▸ fits

omit [Kem] in
/-- The stream's part of a receive. -/
private theorem receiveKey_eq_trap
    {stream : Stream}
    {epoch last index : Nat}
    {secret : Option EpochSecret}
    (isEpoch : ∀ value, secret = some value → value.epoch = last)
    (sameEpoch : secret ≠ none → epoch = last)
    (positive : 1 ≤ epoch)
    (indexFits : index < 2 ^ 32)
    {α : Type}
    {skip : Stream → α}
    {finish : Block 32 × Stream → α} :
    (do
        let stream ← openEpoch stream secret
        let before ← Outcome.sub epoch 1
        if before = 0 ∧ index = 0 then
          return skip stream
        else
          let received ← stream.keyToReceive before index
          return finish received) = .trap ↔
      (secret ≠ none ∧ NotNext stream last) ∨
        (¬ (epoch - 1 = 0 ∧ index = 0) ∧
          stream.ReceiveOverruns (epoch - 1) index) := by
  have keyTraps :
      ∀ opened : Stream,
        (opened.ReceiveOverruns (epoch - 1) index ↔
            stream.ReceiveOverruns (epoch - 1) index) →
        ((do
            let before ← Outcome.sub epoch 1
            if before = 0 ∧ index = 0 then
              return skip opened
            else
              let received ← opened.keyToReceive before index
              return finish received : Outcome RatchetError α) = .trap ↔
          ¬ (epoch - 1 = 0 ∧ index = 0) ∧
            stream.ReceiveOverruns (epoch - 1) index) := by
    intro opened sameFlow
    rw [Outcome.sub_of_le positive, Outcome.ok_bind]
    split_ifs with first
    · exact iff_of_false (by simp) fun ⟨notFirst, _⟩ => notFirst first
    · rw [Outcome.bind_eq_trap,
        Stream.keyToReceive_eq_trap indexFits, sameFlow]
      simp [first]
  refine openEpoch_bind_eq_trap isEpoch
    (fun _ => keyTraps stream Iff.rfl) ?_
  intro opened value isSecret isFollowing opens
  have known : epoch - 1 ≤ stream.epoch := by
    rw [sameEpoch (by simp [isSecret]), isFollowing]
    exact Nat.le_refl _
  exact keyTraps opened
    (Stream.receiveOverruns_nextEpoch opens known index)

/-- A receive from its parsed record and packet on. -/
private theorem receiveStep_eq_trap
    {record : Record}
    (short : record.Short)
    {braid : Braid}
    (gathers : braid.Gathers)
    {packet : Packet}
    {index : Nat}
    (positive : 1 ≤ packet.epoch)
    (indexFits : index < 2 ^ 32) :
    (do
        let (braid, secret) ← braid.receive packet
        let stream ← streamOf record
        let stream ← openEpoch stream secret
        let epoch ← Outcome.sub packet.epoch 1
        if epoch = 0 ∧ index = 0 then
          return (⟨writeRecord none (some stream) braid, none⟩ : Received)
        else
          let (key, stream) ← stream.keyToReceive epoch index
          return ⟨writeRecord none (some stream) braid, some key⟩) =
        .trap ↔
      ¬ braid.Refuses packet ∧
        ReceiveStepTraps record braid packet index := by
  unfold ReceiveStepTraps
  cases Braid.receive_outcome gathers packet with
  | refuses is fails =>
      obtain ⟨fault, fails⟩ := fails
      rw [fails]
      exact iff_of_false (by simp) fun ⟨accepts, _⟩ => accepts is
  | lastEpoch accepts ends last traps =>
      rw [traps]
      exact iff_of_true rfl ⟨accepts, Or.inl ⟨ends, last⟩⟩
  | ends accepts ends more returns =>
      obtain ⟨after, secret, receives, secretEpoch⟩ := returns
      rw [receives, or_iff_right (fun both =>
        absurd more (Nat.not_lt.mpr both.2))]
      simp only [Outcome.ok_bind, accepts, not_false_eq_true, true_and,
        ends]
      rw [Outcome.bind_eq_trap, streamOf_eq_trap short]
      refine or_congr_right (exists_congr fun stream =>
        and_congr_right fun _ => ?_)
      have key :=
        @receiveKey_eq_trap _ stream packet.epoch braid.epoch index
          (some secret)
          (by
            rintro _ ⟨⟩
            exact secretEpoch)
          (fun _ => ends.1) positive indexFits Received
          (fun stream => ⟨writeRecord none (some stream) after, none⟩)
          (fun received =>
            ⟨writeRecord none (some received.2) after,
              some received.1⟩)
      simpa using key
  | goesOn accepts more returns =>
      obtain ⟨after, receives⟩ := returns
      rw [receives, or_iff_right (fun both => more both.1)]
      simp only [Outcome.ok_bind, accepts, not_false_eq_true, true_and,
        more, false_and, false_or]
      rw [Outcome.bind_eq_trap, streamOf_eq_trap short]
      refine or_congr_right (exists_congr fun stream =>
        and_congr_right fun _ => ?_)
      have key :=
        @receiveKey_eq_trap _ stream packet.epoch braid.epoch index none
          (by simp) (by simp) positive indexFits Received
          (fun stream => ⟨writeRecord none (some stream) after, none⟩)
          (fun received =>
            ⟨writeRecord none (some received.2) after,
              some received.1⟩)
      simpa using key

/-- A receive traps exactly in these cases. -/
theorem receive_eq_trap
    {state : Bytes}
    (short : state.length < 2 ^ 64)
    (packet : Bytes) :
    receive state packet = .trap ↔ ReceiveTraps state packet := by
  unfold receive ReceiveTraps
  split_ifs with isEmpty
  · rw [List.length_eq_zero_iff] at isEmpty
    subst isEmpty
    exact iff_of_false (by simp) empty_traps_not
  · refine parsed_eq_trap short ?_ ?_
    · intro record data parts isBraid
      cases packet with
      | nil =>
          refine iff_of_false ?_ ?_
          · simp only [receiveNothing, isBraid]
            intro receives
            rcases Outcome.bind_eq_trap.mp receives with
              none | ⟨terms, _, traps⟩
            · exact Outcome.ofOption_ne_trap _ _ none
            · split_ifs at traps
          · rintro ⟨parsed, index, parses, _⟩
            cases parses
      | cons first ahead =>
          by_cases version : first = Packet.version
          · simp only [version, ne_eq, not_true_eq_false, if_false,
              isBraid]
            rw [Outcome.bind_eq_trap,
              or_iff_right (Packet.parse_ne_trap _), Prod.exists]
            refine exists_congr fun parsed => exists_congr fun index =>
              and_congr_right fun parses => ?_
            obtain ⟨positive, indexFits⟩ := parse_inRange _ _ parses
            simp only
            rw [Outcome.bind_eq_trap,
              Braid.read_eq_trap (parts.braid data isBraid)]
            exact or_congr_right (exists_congr fun braid =>
              and_congr_right fun reads =>
                receiveStep_eq_trap parts
                  (Braid.read_gathers data braid reads) positive
                  indexFits)
          · refine iff_of_false (by simp [version]) ?_
            rintro ⟨parsed, index, parses, _⟩
            rw [Packet.parse, Outcome.require_not version] at parses
            cases parses
    · intro record isBraid
      cases packet with
      | nil => simp [receiveNothing, isBraid]
      | cons first ahead =>
          simp only [isBraid]
          split_ifs <;> simp

/-! ## Both calls -/

/-- Each call returns a result or an error. -/
structure Total (state packet : Bytes) (draw : Draw) : Prop where
  sends : send state draw ≠ .trap
  receives : receive state packet ≠ .trap

end Gossveil.PqRecord

namespace Gossveil.PqRecord

open Sample

attribute [local instance] hashes kem

end Gossveil.PqRecord
