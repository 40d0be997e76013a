import Gossveil.BraidAgreement

namespace Gossveil.Braid

open ErasureCode TwoParty

/-!
# Acknowledgements

A side acknowledges the first half once it has it, and does not forget it
before the next epoch.  So when one side has seen an acknowledgement, the other
one has the first half of that epoch or is past the epoch.
-/

/-- The payload says that the first half has arrived. -/
def Acks : Payload → Prop
  | .encapAndAck _ => True
  | .ack value => value = true
  | _ => False

/-- The key side has the first half. -/
def HasFirst : Braid → Prop
  | .firstIn _ _ _ _ _ => True
  | .encapOutFirstIn _ _ _ _ _ => True
  | _ => False

/-- The capsule side no longer sends the first half. -/
def Acked : Braid → Prop
  | .firstAcked _ _ _ _ _ _ => True
  | .secondOut _ _ _ => True
  | _ => False

/-- The braid has the first half of an epoch, or is past the epoch. -/
def Past (epoch : Nat) (braid : Braid) : Prop :=
  epoch < braid.epoch ∨ (braid.epoch = epoch ∧ braid.HasFirst)

section Steps

variable [Hashes] [Kem]

/-! ## One call -/

/-- What a send does to the acknowledgement. -/
theorem send_acks
    {braid after : Braid}
    {draw : Draw}
    {sent : Sent}
    (sends : braid.send draw = .ok (after, sent)) :
    (Acks sent.packet.payload → after.HasFirst) ∧
      (braid.HasFirst → after.HasFirst) ∧
      (after.Acked → braid.Acked) := by
  cases braid with
  | encapOutFirstIn | waiting | firstAcked =>
      cases sends
      simp [Acks, HasFirst, Acked]
  | sampled | headerOut | firstIn | firstOut | encapInFirstOut
  | secondOut =>
      obtain ⟨⟨piece, spread⟩, _, ⟨⟩⟩ := Outcome.bind_eq_ok.mp sends
      simp [Acks, HasFirst, Acked]
  | unsampled =>
      obtain ⟨keys, _, rest⟩ := Outcome.bind_eq_ok.mp sends
      obtain ⟨spread, _, rest⟩ := Outcome.bind_eq_ok.mp rest
      obtain ⟨⟨piece, spread⟩, _, ⟨⟩⟩ := Outcome.bind_eq_ok.mp rest
      simp [Acks, HasFirst, Acked]
  | headerIn =>
      obtain ⟨auth, _, rest⟩ := Outcome.bind_eq_ok.mp sends
      obtain ⟨spread, _, rest⟩ := Outcome.bind_eq_ok.mp rest
      obtain ⟨⟨piece, spread⟩, _, ⟨⟩⟩ := Outcome.bind_eq_ok.mp rest
      simp [Acks, HasFirst, Acked]

/-- What a current packet does to the first half and its acknowledgement. -/
def AcksKept (braid : Braid) (payload : Payload) (after : Braid) : Prop :=
  (braid.HasFirst → braid.epoch < after.epoch ∨ after.HasFirst) ∧
    (after.Acked →
      after.epoch = braid.epoch ∧ (braid.Acked ∨ Acks payload))

/-- What a payload does to the acknowledgement. -/
theorem receiveCurrent_acks (braid : Braid) (payload : Payload) :
    Outcome.Returns (fun result => AcksKept braid payload result.1)
      (braid.receiveCurrent payload) := by
  unfold receiveCurrent
  split
  case h_1 | h_3 =>
    repeat refine .bind fun _ _ => ?_
    exact .ok (by simp [AcksKept, HasFirst, Acked])
  case h_4 =>
    refine .bind fun whole _ => ?_
    cases whole with
    | none => exact .ok (by simp [AcksKept, HasFirst, Acked])
    | some whole =>
        iterate 6 refine .bind fun _ _ => ?_
        refine .bind fun next isNext => .ok ?_
        have onward := (Outcome.add_eq_ok.mp isNext).2
        simp [AcksKept, HasFirst, Acked, epoch, ← onward]
  case h_2 | h_5 | h_6 | h_7 | h_10 | h_11 =>
    refine .bind fun whole _ => ?_
    cases whole with
    | none => exact .ok (by simp [AcksKept, HasFirst, Acked, Acks, epoch])
    | some whole =>
        repeat refine .bind fun _ _ => ?_
        exact .ok (by simp [AcksKept, HasFirst, Acked, Acks, epoch])
  case h_8 =>
    split_ifs with value
    · exact .bind fun _ _ => .ok
        (by simp [AcksKept, HasFirst, Acks, value, epoch])
    · exact .ok (by simp [AcksKept, HasFirst, Acked])
  case h_9 =>
    exact .bind fun _ _ => .ok (by simp [AcksKept, HasFirst, Acks, epoch])
  case h_12 =>
    exact .ok ⟨fun has => .inr has, fun acked => ⟨rfl, .inl acked⟩⟩

/-- What a packet does to the acknowledgement. -/
theorem receive_acks
    {braid after : Braid}
    {packet : Packet}
    {secret : Option EpochSecret}
    (receives : braid.receive packet = .ok (after, secret)) :
    (braid.HasFirst → braid.epoch < after.epoch ∨ after.HasFirst) ∧
      (after.Acked →
        after.epoch = braid.epoch ∧
          (braid.Acked ∨
            packet.epoch = braid.epoch ∧ Acks packet.payload)) := by
  unfold receive at receives
  split_ifs at receives with ahead older
  · split at receives
    · split_ifs at receives
      cases receives
      simp [HasFirst, Acked]
    · cases receives
  · cases receives
    exact ⟨fun has => .inr has, fun acked => ⟨rfl, .inl acked⟩⟩
  · obtain ⟨has, acked⟩ :=
      receiveCurrent_acks braid packet.payload _ receives
    have same : packet.epoch = braid.epoch :=
      Nat.le_antisymm (Nat.not_lt.mp ahead) (Nat.not_lt.mp older)
    refine ⟨has, fun isAcked => ?_⟩
    obtain ⟨sameEpoch, before | acks⟩ := acked isAcked
    · exact ⟨sameEpoch, .inl before⟩
    · exact ⟨sameEpoch, .inr ⟨same, acks⟩⟩

/-- What is past stays past in a send. -/
theorem Past.send
    {past : Nat}
    {braid after : Braid}
    {draw : Draw}
    {sent : Sent}
    (isPast : Past past braid)
    (sends : braid.send draw = .ok (after, sent)) :
    Past past after := by
  have sameEpoch := (send_epoch sends).1
  rcases isPast with beyond | ⟨same, has⟩
  · exact .inl (sameEpoch ▸ beyond)
  · exact .inr ⟨sameEpoch.trans same, (send_acks sends).2.1 has⟩

/-- What is past stays past in a receive. -/
theorem Past.receive
    {past : Nat}
    {braid after : Braid}
    {packet : Packet}
    {secret : Option EpochSecret}
    (isPast : Past past braid)
    (receives : braid.receive packet = .ok (after, secret)) :
    Past past after := by
  have notBack : braid.epoch ≤ after.epoch :=
    receive_epoch braid packet _ receives
  rcases isPast with beyond | ⟨rfl, has⟩
  · exact .inl (beyond.trans_le notBack)
  · rcases (receive_acks receives).1 has with beyond | stillHas
    · exact .inl beyond
    · rcases Nat.lt_or_eq_of_le notBack with beyond | same
      · exact .inl beyond
      · exact .inr ⟨same.symm, stillHas⟩

/-! ## Runs -/

/-- Whoever acknowledges has the first half, and whoever relies on it may. -/
structure Acknowledged (run : Run) : Prop where
  packets :
    ∀ side packet secret,
      run.HasSent side packet secret →
      Acks packet.payload →
      Past packet.epoch (run.state side)
  states :
    ∀ side : Side,
      (run.state side).Acked →
      Past (run.state side).epoch (run.state side.other)

omit [Hashes] [Kem] in
/-- What has been sent was sent before or by this act. -/
theorem HasSent.of_act
    {run : Run}
    {side actor : Side}
    {braid : Braid}
    {event : Event Packet (Option EpochSecret) (Option EpochSecret)}
    {packet : Packet}
    {secret : Option EpochSecret}
    (sent : (run.act actor braid event).HasSent side packet secret) :
    run.HasSent side packet secret ∨
      side = actor ∧ .sent packet secret = event :=
  Joint.mem_log_act sent

/-- Every step of a run keeps what was acknowledged. -/
theorem Acknowledged.step
    {run next : Run}
    (acknowledged : Acknowledged run)
    (step : Step party run next) :
    Acknowledged next := by
  cases step with
  | @send actor draw after packet secret sends =>
      obtain ⟨⟨_, sent⟩, made, ⟨⟩⟩ := Outcome.bind_eq_ok.mp sends
      have sameEpoch := (send_epoch made).1
      have packetEpoch := (send_epoch made).2.1
      obtain ⟨acks, _, wasAcked⟩ := send_acks made
      constructor
      · intro side packet secret isSent isAck
        rcases HasSent.of_act isSent with before | ⟨rfl, now⟩
        · have past := acknowledged.packets side packet secret before isAck
          rcases side.eq_or_eq_other actor with rfl | rfl
          · rw [Joint.state_act_self]
            exact past.send made
          · rwa [Joint.state_act_other]
        · obtain ⟨rfl, _⟩ := Event.sent.inj now
          rw [Joint.state_act_self]
          exact .inr ⟨sameEpoch.trans packetEpoch.symm, acks isAck⟩
      · intro side isAcked
        rcases side.eq_or_eq_other actor with rfl | rfl
        · rw [Joint.state_act_self] at isAcked ⊢
          rw [Joint.state_act_other, sameEpoch]
          exact acknowledged.states _ (wasAcked isAcked)
        · rw [Joint.state_act_other] at isAcked ⊢
          rw [Side.other_other, Joint.state_act_self]
          have past := acknowledged.states _ isAcked
          rw [Side.other_other] at past
          exact past.send made
  | @receive actor packet origin after secret offered receives =>
      have receives : (run.state actor).receive packet = .ok (after, secret) :=
        receives
      constructor
      · intro side other secret isSent isAck
        rcases HasSent.of_act isSent with before | ⟨_, now⟩
        · have past := acknowledged.packets side other secret before isAck
          rcases side.eq_or_eq_other actor with rfl | rfl
          · rw [Joint.state_act_self]
            exact past.receive receives
          · rwa [Joint.state_act_other]
        · cases now
      · intro side isAcked
        rcases side.eq_or_eq_other actor with rfl | rfl
        · rw [Joint.state_act_self] at isAcked ⊢
          rw [Joint.state_act_other]
          obtain ⟨sameEpoch, before | ⟨current, acks⟩⟩ :=
            (receive_acks receives).2 isAcked
          · rw [sameEpoch]
            exact acknowledged.states _ before
          · rw [sameEpoch, ← current]
            exact acknowledged.packets _ packet origin offered acks
        · rw [Joint.state_act_other] at isAcked ⊢
          rw [Side.other_other, Joint.state_act_self]
          have past := acknowledged.states _ isAcked
          rw [Side.other_other] at past
          exact past.receive receives

/-- The acknowledgement is justified along every run. -/
theorem acknowledged_of_reachable
    {start : Side → Braid}
    (unacked : ∀ side, ¬ (start side).Acked)
    {run : Run}
    (reachable : Reachable party start run) :
    Acknowledged run := by
  apply reachable.invariant
  · constructor
    · intro side packet secret sent
      cases sent
    · intro side isAcked
      exact absurd isAcked (unacked side)
  · exact fun acknowledged step => acknowledged.step step

end Steps

end Gossveil.Braid
