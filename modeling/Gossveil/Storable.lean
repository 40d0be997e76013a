import Gossveil.BraidTraps
import Gossveil.FlowKeys
import Gossveil.StreamTraps

namespace Gossveil

open ErasureCode TwoParty

/-!
# States that can be stored

What a braid and a stream keep to over any calls, whatever packets are
offered: their numbers fit, every gather is for the length of its message and
every spread holds a message that fills its columns.  Such states fit their
records.
-/

namespace ErasureCode.Spread

/-- A spread of a message with a word for every column. -/
def OfMessage (spread : Spread) : Prop :=
  ∃ message : Bytes,
    2 * polynomials ≤ message.length ∧ spread.Carries message

/-- The spread of a message can be recorded. -/
theorem OfMessage.recordable
    {spread : Spread}
    (ofMessage : spread.OfMessage) :
    spread.Recordable := by
  obtain ⟨message, long, carries⟩ := ofMessage
  exact Carries.recordable carries long

/-- A spread of a message always has a next piece, and stays one. -/
theorem OfMessage.nextPiece
    {spread : Spread}
    (ofMessage : spread.OfMessage) :
    ∃ piece after,
      spread.nextPiece = .ok (piece, after) ∧ after.OfMessage := by
  obtain ⟨message, long, carries⟩ := ofMessage
  obtain ⟨after, made, afterCarries, _⟩ := nextPiece_of_carries carries
  exact ⟨_, after, made, message, long, afterCarries⟩

/-- Its next piece leaves it one. -/
theorem OfMessage.returns
    {spread : Spread}
    (ofMessage : spread.OfMessage) :
    Outcome.Returns (fun result => result.2.OfMessage)
      spread.nextPiece := by
  obtain ⟨piece, after, made, afterOf⟩ := ofMessage.nextPiece
  rw [made]
  exact .ok afterOf

/-- A message long enough is spread. -/
theorem of_returns
    {message : Bytes}
    (long : 2 * polynomials ≤ message.length) :
    Outcome.Returns OfMessage (of message) := by
  intro spread isSpread
  unfold of at isSpread
  split_ifs at isSpread with odd tooLong
  have even := not_not.mp odd
  obtain ⟨other, isOther, carries⟩ :=
    of_carries even (Nat.not_lt.mp tooLong)
  rw [of, if_neg odd, if_neg tooLong] at isOther
  cases isSpread
  cases isOther
  exact ⟨message, long, carries⟩

end ErasureCode.Spread

namespace ErasureCode.Gather

/-- A collection asks for half the length in pieces. -/
theorem forLength_returns (length : Nat) :
    Outcome.Returns (fun gather => gather.needed = length / 2)
      (forLength length) := by
  unfold forLength
  split_ifs
  · exact .error _
  · exact .ok rfl

end ErasureCode.Gather

namespace Braid

/--
Every value of the braid fits its record, and what it sends was spread from a
message.
-/
structure Storable (braid : Braid) : Prop where
  epoch : braid.epoch < 2 ^ 64
  positive : 1 ≤ braid.epoch
  gathers : braid.Gathers
  outgoing : ∀ out, braid.outgoing = some out → out.OfMessage

/-- A storable braid can be recorded. -/
theorem Storable.recordable
    {braid : Braid}
    (storable : braid.Storable) :
    braid.Recordable := by
  obtain ⟨epochFits, _, gathers, outgoing⟩ := storable
  cases braid with
  | unsampled => exact epochFits
  | sampled | firstIn | encapInFirstOut | secondOut =>
      exact ⟨epochFits, (outgoing _ rfl).recordable⟩
  | headerOut | firstOut =>
      exact ⟨epochFits, (outgoing _ rfl).recordable, gathers⟩
  | encapOutFirstIn | waiting | headerIn | firstAcked =>
      exact ⟨epochFits, gathers⟩

variable [Hashes]

/-- The initiator's first state is storable. -/
theorem startInitiator_storable (authKey : Bytes) :
    Outcome.Returns Storable (startInitiator authKey) :=
  .bind fun auth _ =>
    .ok ⟨Nat.one_lt_two_pow (by decide), Nat.le_refl 1, trivial,
      by rintro out ⟨⟩⟩

/-- The responder's first state is storable. -/
theorem startResponder_storable (authKey : Bytes) :
    Outcome.Returns Storable (startResponder authKey) :=
  .bind fun auth _ => .bind fun inHeader fresh =>
    .ok ⟨Nat.one_lt_two_pow (by decide), Nat.le_refl 1,
      Gather.forLength_returns _ inHeader fresh, by rintro out ⟨⟩⟩

variable [Kem]

omit [Hashes] [Kem] in
/-- A state that only its outgoing spread tells from another. -/
private theorem Storable.withOut
    {braid after : Braid}
    {out : Spread}
    (storable : braid.Storable)
    (sameEpoch : after.epoch = braid.epoch)
    (gathers : after.Gathers)
    (isOut : after.outgoing = some out)
    (ofMessage : out.OfMessage) :
    after.Storable := by
  refine ⟨sameEpoch ▸ storable.epoch, sameEpoch ▸ storable.positive,
    gathers, ?_⟩
  intro other isOther
  rw [isOut] at isOther
  cases isOther
  exact ofMessage

omit [Hashes] [Kem] in
/-- A state with nothing to send is storable when its collection is. -/
private theorem Storable.withoutOut
    {braid after : Braid}
    (storable : braid.Storable)
    (sameEpoch : after.epoch = braid.epoch)
    (gathers : after.Gathers)
    (noOut : after.outgoing = none) :
    after.Storable := by
  refine ⟨sameEpoch ▸ storable.epoch, sameEpoch ▸ storable.positive,
    gathers, ?_⟩
  intro other isOther
  rw [noOut] at isOther
  cases isOther

/-- Sending keeps a braid storable. -/
theorem send_storable
    {braid : Braid}
    (storable : braid.Storable)
    (draw : Draw) :
    Outcome.Returns (fun result => result.1.Storable)
      (braid.send draw) := by
  cases braid with
  | encapOutFirstIn | waiting | firstAcked => exact .ok storable
  | sampled | firstIn | encapInFirstOut | secondOut =>
      exact .bind fun made isMade => .ok
        (storable.withOut rfl trivial rfl
          ((storable.outgoing _ rfl).returns made isMade))
  | headerOut | firstOut =>
      exact .bind fun made isMade => .ok
        (storable.withOut rfl storable.gathers rfl
          ((storable.outgoing _ rfl).returns made isMade))
  | unsampled epoch auth =>
      refine .bind fun keys _ => .bind fun spread isSpread => ?_
      have ofMessage : spread.OfMessage := by
        refine Spread.of_returns ?_ spread isSpread
        rw [List.length_append, keys.header.length_bytes,
          Block.length_bytes]
        decide
      exact .bind fun made isMade => .ok
        (storable.withOut rfl trivial rfl (ofMessage.returns made isMade))
  | headerIn epoch auth header inEncap =>
      refine .bind fun auth _ => .bind fun spread isSpread => ?_
      have ofMessage : spread.OfMessage := by
        refine Spread.of_returns ?_ spread isSpread
        rw [Block.length_bytes]
        decide
      exact .bind fun made isMade => .ok
        (storable.withOut rfl storable.gathers rfl
          (ofMessage.returns made isMade))

theorem secondSpread_returns
    (auth : Auth)
    (epoch : Nat)
    (encap : Block Kem.encapLength)
    (carry : Block Kem.carryLength)
    (first : Block Kem.firstLength) :
    Outcome.Returns Spread.OfMessage
      (secondSpread auth epoch encap carry first) := by
  refine Spread.of_returns ?_
  rw [List.length_append, Block.length_bytes, Block.length_bytes]
  decide

/-- Receiving keeps a braid storable. -/
theorem receiveCurrent_storable
    {braid : Braid}
    (storable : braid.Storable)
    (payload : Payload) :
    Outcome.Returns (fun result => result.1.Storable)
      (braid.receiveCurrent payload) := by
  have answered :
      ∀ {epoch auth encap carry first},
        braid.epoch = epoch →
          Outcome.Returns
            (fun result : Braid × Option EpochSecret => result.1.Storable)
            (do
              let outSecond ← secondSpread auth epoch encap carry first
              return (.secondOut epoch auth outSecond, none)) := by
    intro epoch auth encap carry first sameEpoch
    exact .bind fun spread isSpread => .ok
      (storable.withOut sameEpoch.symm trivial rfl
        (secondSpread_returns auth epoch encap carry first spread
          isSpread))
  unfold receiveCurrent
  split
  case h_1 epoch auth encap decap _ piece =>
    refine .bind fun inFirst fresh => .bind fun outEncap isSpread =>
      .ok (storable.withOut rfl
        (Gather.forLength_returns _ inFirst fresh) rfl ?_)
    refine Spread.of_returns ?_ outEncap isSpread
    rw [Block.length_bytes]
    decide
  case h_2 =>
    refine .bind fun whole _ => ?_
    cases whole with
    | none =>
        exact .ok (storable.withOut rfl storable.gathers rfl
          (storable.outgoing _ rfl))
    | some whole =>
        exact .bind fun first _ => .ok
          (storable.withOut rfl trivial rfl (storable.outgoing _ rfl))
  case h_3 =>
    exact .bind fun inSecond fresh => .ok
      (storable.withoutOut rfl (Gather.forLength_returns _ inSecond fresh)
        rfl)
  case h_4 =>
    refine .bind fun whole _ => ?_
    cases whole with
    | none => exact .ok (storable.withoutOut rfl storable.gathers rfl)
    | some whole =>
        iterate 5 refine .bind fun _ _ => ?_
        refine .bind fun inHeader fresh => .bind fun next isNext => .ok ?_
        obtain ⟨fits, same⟩ := Outcome.add_eq_ok.mp isNext
        refine ⟨same ▸ fits, same ▸ Nat.le_add_left 1 _,
          Gather.forLength_returns _ inHeader fresh, ?_⟩
        rintro out ⟨⟩
  case h_5 =>
    refine .bind fun whole _ => ?_
    cases whole with
    | none => exact .ok (storable.withoutOut rfl storable.gathers rfl)
    | some whole =>
        iterate 3 refine .bind fun _ _ => ?_
        exact .bind fun inEncap fresh => .ok
          (storable.withoutOut rfl
            (Gather.forLength_returns _ inEncap fresh) rfl)
  case h_6 =>
    refine .bind fun whole _ => ?_
    cases whole with
    | none =>
        exact .ok (storable.withOut rfl storable.gathers rfl
          (storable.outgoing _ rfl))
    | some whole =>
        exact .bind fun _ _ => .bind fun _ _ => .ok
          (storable.withOut rfl trivial rfl (storable.outgoing _ rfl))
  case h_7 =>
    refine .bind fun whole _ => ?_
    cases whole with
    | none => exact .ok (storable.withoutOut rfl storable.gathers rfl)
    | some whole =>
        exact .bind fun _ _ => .bind fun _ _ => answered rfl
  case h_8 =>
    split_ifs
    · exact answered rfl
    · exact .ok storable
  case h_9 => exact answered rfl
  case h_10 | h_11 =>
    refine .bind fun whole _ => ?_
    cases whole with
    | none => exact .ok (storable.withoutOut rfl storable.gathers rfl)
    | some whole =>
        exact .bind fun _ _ => .bind fun _ _ => answered rfl
  case h_12 => exact .ok storable

/-- A receive of any packet whose epoch is a 64-bit integer. -/
theorem receive_storable
    {braid : Braid}
    (storable : braid.Storable)
    {packet : Packet}
    (epochFits : packet.epoch < 2 ^ 64) :
    Outcome.Returns (fun result => result.1.Storable)
      (braid.receive packet) := by
  unfold receive
  split_ifs
  · split
    · split_ifs with follows
      · refine .ok ⟨follows ▸ epochFits, Nat.le_add_left 1 _, trivial, ?_⟩
        rintro out ⟨⟩
      · exact .error _
    · exact .error _
  · exact .ok storable
  · exact receiveCurrent_storable storable packet.payload

end Braid

/-! ## Streams -/

namespace KeyStream

namespace Flow

variable [Hashes]

/-- A step keeps a flow recordable. -/
theorem step_recordable
    {flow : Flow}
    (recordable : flow.Recordable) :
    Outcome.Returns (fun result => result.2.Recordable) flow.step :=
  .bind fun _ _ => .bind fun _ isCounter =>
    .ok ⟨(Outcome.add_eq_ok.mp isCounter).2 ▸
      (Outcome.add_eq_ok.mp isCounter).1, recordable.held⟩

/-- A walk keeps a flow recordable. -/
theorem walk_recordable
    {keep index turns : Nat}
    {flow : Flow}
    (recordable : flow.Recordable) :
    Outcome.Returns Recordable (walk keep index turns flow) := by
  induction turns generalizing flow with
  | zero => exact .ok recordable
  | succ turns inductionHypothesis =>
      refine .bind fun following _ => ?_
      split_ifs
      · refine .bind fun stepped steps => .bind fun reach _ => ?_
        have after := step_recordable recordable stepped steps
        split_ifs
        · refine inductionHypothesis ⟨after.counter, ?_⟩
          intro entry member
          rcases List.mem_append.mp member with old | new
          · exact after.held entry old
          · rw [List.mem_singleton] at new
            subst new
            exact after.counter
        · exact inductionHypothesis after
      · exact .ok recordable

omit [Hashes] in
/-- Keys that stay held stay in range. -/
theorem Recordable.hold
    {flow : Flow}
    (recordable : flow.Recordable)
    {held : Held}
    (fewer : held.Subperm flow.held) :
    Recordable { flow with held := held } :=
  ⟨recordable.counter, fun entry member =>
    recordable.held entry (fewer.subset member)⟩

omit [Hashes] in
/-- Trimming keeps some of the kept keys. -/
theorem trim_subperm
    (held : Held)
    (current : Nat)
    (limits : Limits) :
    Outcome.Returns (fun after => after.Subperm held)
      (held.trim current limits) := by
  unfold Held.trim
  split_ifs
  · exact .ok (List.Subperm.refl held)
  · exact .bind fun horizon _ => .ok (Held.trimFrom_subperm _ _ _ _)

omit [Hashes] in
/-- Taking a key keeps some of the others. -/
theorem take_subperm
    (held : Held)
    (index current : Nat)
    (limits : Limits) :
    Outcome.Returns (fun result => result.2.Subperm held)
      (held.take index current limits) := by
  refine .bind fun reach _ => ?_
  split_ifs
  · exact .error _
  · simp only
    split
    · exact .error _
    · exact .ok (Held.remove_subperm _ _)

/-- Yielding a key keeps a flow recordable. -/
theorem keyAt_recordable
    {flow : Flow}
    (recordable : flow.Recordable)
    (index : Nat)
    (limits : Limits) :
    Outcome.Returns (fun result => result.2.Recordable)
      (flow.keyAt index limits) := by
  unfold keyAt
  split_ifs
  · exact .error _
  · refine .bind fun reach _ => .bind fun walked walks =>
      .bind fun held trims => ?_
    refine step_recordable (Recordable.hold ?_
      (trim_subperm _ _ _ held trims))
    refine walk_recordable ?_ walked walks
    split_ifs
    · exact recordable.hold (List.nil_subperm)
    · exact recordable
  · exact .bind fun result takes => .ok
      (recordable.hold (take_subperm _ _ _ _ result takes))
  · exact .error _

end Flow

namespace Stream

/-- An epoch in the place of one of a stream's. -/
private theorem Recordable.set
    {stream : Stream}
    (recordable : stream.Recordable)
    {flows : Epoch}
    (flowsFit : flows.Recordable)
    (slot : Nat) :
    Recordable { stream with epochs := stream.epochs.set slot flows } := by
  refine ⟨recordable.epoch, recordable.sendEpoch, ?_, recordable.limits⟩
  intro other member
  rcases List.mem_or_eq_of_mem_set member with old | rfl
  · exact recordable.epochs other old
  · exact flowsFit

variable [Hashes]

omit [Hashes] in
private theorem epochFrom_recordable
    (keys : Block 96)
    (side : Side) :
    (epochFrom keys side).Recordable := by
  refine ⟨⟨Nat.two_pow_pos 32, ?_⟩, ⟨Nat.two_pow_pos 32, ?_⟩⟩ <;>
    · intro entry member
      cases member

/-- A fresh stream can be recorded. -/
theorem start_recordable
    (initial : Bytes)
    (side : Side)
    {limits : Limits}
    (limitsFit : limits.Fits) :
    (start initial side limits).Recordable := by
  refine ⟨Nat.two_pow_pos 64, Nat.two_pow_pos 64, ?_, limitsFit⟩
  intro epoch member
  rw [List.mem_singleton.mp member]
  exact epochFrom_recordable _ side

/-- A new epoch keeps a stream recordable. -/
theorem nextEpoch_recordable
    {stream : Stream}
    (recordable : stream.Recordable)
    (epoch : Nat)
    (secret : Bytes) :
    Outcome.Returns Recordable (stream.nextEpoch epoch secret) := by
  refine .bind fun following isFollowing => .bind fun _ asserted =>
    .ok ?_
  obtain ⟨fits, rfl⟩ := Outcome.add_eq_ok.mp isFollowing
  have isNext := Outcome.assert_eq_ok.mp asserted
  refine ⟨isNext ▸ fits, recordable.sendEpoch, ?_, recordable.limits⟩
  intro flows member
  rcases List.mem_append.mp member with old | new
  · exact recordable.epochs flows old
  · rw [List.mem_singleton.mp new]
    exact epochFrom_recordable _ stream.side

omit [Hashes] in
/-- Pruning keeps a stream recordable. -/
theorem pruned_recordable
    {stream : Stream}
    (recordable : stream.Recordable)
    {epoch : Nat}
    (known : epoch ≤ stream.epoch)
    (slot : Nat) :
    (stream.pruned epoch slot).1.Recordable := by
  unfold pruned
  split_ifs
  · exact recordable
  · refine ⟨recordable.epoch, Nat.lt_of_le_of_lt known recordable.epoch,
      ?_, recordable.limits⟩
    intro flows member
    rcases List.mem_append.mp member with closed | open'
    · obtain ⟨old, inOld, rfl⟩ := List.mem_map.mp closed
      have oldFits := recordable.epochs old
        (List.mem_of_mem_drop (List.mem_of_mem_take inOld))
      exact ⟨⟨oldFits.send.counter, oldFits.send.held⟩, oldFits.recv⟩
    · exact recordable.epochs flows
        (List.mem_of_mem_drop (List.mem_of_mem_drop open'))

/-- Sending keeps a stream recordable. -/
theorem keyToSend_recordable
    {stream : Stream}
    (recordable : stream.Recordable)
    (epoch : Nat) :
    Outcome.Returns (fun result => result.2.2.Recordable)
      (stream.keyToSend epoch) := by
  unfold keyToSend
  split_ifs
  · exact .error _
  · refine .bind fun slot isSlot => ?_
    have pruned := pruned_recordable recordable
      (slotOf_eq_ok_iff.mp isSlot).1 slot
    generalize stream.pruned epoch slot = result at pruned ⊢
    rcases result with ⟨kept, place⟩
    refine .bind fun flows isFlows => ?_
    have flowsFit : flows.Recordable :=
      pruned.epochs flows
        (List.mem_of_getElem? (Outcome.unwrap_eq_ok.mp isFlows))
    split_ifs
    · exact .error _
    · refine .bind fun stepped steps => .ok ?_
      have after : Epoch.Recordable { flows with send := stepped.2 } :=
        ⟨Flow.step_recordable flowsFit.send stepped steps, flowsFit.recv⟩
      exact Recordable.set pruned after place

/-- Receiving keeps a stream recordable. -/
theorem keyToReceive_recordable
    {stream : Stream}
    (recordable : stream.Recordable)
    (epoch index : Nat) :
    Outcome.Returns (fun result => result.2.Recordable)
      (stream.keyToReceive epoch index) := by
  refine .bind fun slot _ => .bind fun flows isFlows => ?_
  have flowsFit : flows.Recordable :=
    recordable.epochs flows
      (List.mem_of_getElem? (Outcome.unwrap_eq_ok.mp isFlows))
  split_ifs
  · exact .error _
  · refine .bind fun received receives => .ok ?_
    have after : Epoch.Recordable { flows with recv := received.2 } :=
      ⟨flowsFit.send,
        Flow.keyAt_recordable flowsFit.recv _ _ received receives⟩
    exact Recordable.set recordable after slot

end Stream

end KeyStream

end Gossveil
