import Gossveil.BraidLiveness

namespace Gossveil.Braid

open ErasureCode TwoParty

/-!
# A hundred rounds raise the epochs

Every state of a run has a rank of at most eighty, a round takes one off it,
and no rank is zero.  So a hundred rounds bring both sides past the epoch,
unless a side stops at the last epoch that its counter holds.
-/

/-! ## The rank of a run -/

/-- One side's packet is due. -/
def Pending (epoch rank : Nat) (run : Run) (sender : Side) : Prop :=
  KeyDue epoch rank (run.state sender) (run.state sender.other) ∨
    CapsuleDue epoch rank (run.state sender.other) (run.state sender)

/-- Both sides are past the epoch. -/
def Raised (epoch : Nat) (run : Run) : Prop :=
  ∀ side, epoch < (run.state side).epoch

/-- At most so many rounds are left until both sides are past the epoch. -/
def Left (epoch rounds : Nat) (run : Run) : Prop :=
  Raised epoch run ∨
    ∃ rank sender, rank ≤ rounds ∧ Pending epoch rank run sender

theorem KeyDue.positive
    {epoch rank : Nat}
    {key capsule : Braid}
    (due : KeyDue epoch rank key capsule) :
    0 < rank := by
  cases due <;> exact Nat.succ_pos _

theorem CapsuleDue.positive
    {epoch rank : Nat}
    {key capsule : Braid}
    (due : CapsuleDue epoch rank key capsule) :
    0 < rank := by
  cases due <;> exact Nat.succ_pos _

/-- What is pending has something left to do. -/
theorem Pending.positive
    {epoch rank : Nat}
    {run : Run}
    {sender : Side}
    (pending : Pending epoch rank run sender) :
    0 < rank :=
  pending.elim KeyDue.positive CapsuleDue.positive

theorem Raised.of_left
    {epoch : Nat}
    {run : Run}
    (left : Left epoch 0 run) :
    Raised epoch run := by
  rcases left with raised | ⟨rank, sender, none, pending⟩
  · exact raised
  · exact absurd pending.positive (Nat.not_lt.mpr none)

theorem Left.mono
    {epoch rounds more : Nat}
    {run : Run}
    (left : Left epoch rounds run)
    (within : rounds ≤ more) :
    Left epoch more run := by
  rcases left with raised | ⟨rank, sender, few, pending⟩
  · exact .inl raised
  · exact .inr ⟨rank, sender, few.trans within, pending⟩

/-- What goes on has one turn less to do. -/
theorem Left.of_onward
    {epoch rank : Nat}
    {run : Run}
    {sender : Side}
    (onward :
      Onward epoch (rank + 1) (run.state sender) (run.state sender.other)) :
    Left epoch rank run := by
  obtain ⟨less, fewer, key | capsule⟩ := onward
  · exact .inr ⟨less, sender, Nat.lt_succ_iff.mp fewer, .inl key⟩
  · refine .inr ⟨less, sender.other, Nat.lt_succ_iff.mp fewer, .inr ?_⟩
    rwa [Side.other_other]

section Runs

variable [Hashes] [Kem]

/-! ## One delivery of a run -/

/-- The two sides of a run, whichever of them comes first. -/
theorem Agree.sided
    {run : Run}
    (agree : Agree run)
    (side : Side) :
    Sided (run.state side) (run.state side.other) := by
  obtain ⟨exchange, keySide, agreement⟩ := agree
  have key : KeySide exchange (run.state keySide) := agreement.key
  have capsule : CapsuleSide exchange (run.state keySide.other) :=
    agreement.capsule
  rcases side.eq_or_eq_other keySide with rfl | rfl
  · exact ⟨exchange, .inl ⟨key, capsule⟩⟩
  · rw [Side.other_other]
    exact ⟨exchange, .inr ⟨key, capsule⟩⟩

/-- The packet that is due takes one off the rank. -/
theorem Pending.delivered
    {epoch rank : Nat}
    {run later : Run}
    {sender : Side}
    {draw : Draw}
    (pending : Pending epoch (rank + 1) run sender)
    (delivered : run.deliver party sender draw = .ok later)
    (agree : Agree later) :
    Left epoch rank later := by
  obtain ⟨sent, secret, sends, receives⟩ := deliver_parts delivered
  rcases pending with due | due
  · exact .of_onward (due.byKey sends receives (agree.sided sender))
  · have sided := agree.sided sender.other
    rw [Side.other_other] at sided
    rcases due.byCapsule sends receives sided with
      ⟨receiver, ahead⟩ | onward | onward
    · refine .inl fun side => ?_
      rcases side.eq_or_eq_other sender with rfl | rfl
      · exact ahead
      · exact receiver
    · refine @Left.of_onward _ _ _ sender.other ?_
      rwa [Side.other_other]
    · exact .of_onward onward

/-- A packet of the other side leaves the rank alone. -/
theorem Pending.held
    {epoch rank : Nat}
    {run later : Run}
    {sender : Side}
    {draw : Draw}
    (pending : Pending epoch rank run sender)
    (delivered : run.deliver party sender.other draw = .ok later) :
    ∃ less, less ≤ rank ∧ Pending epoch less later sender := by
  obtain ⟨sent, secret, sends, receives⟩ := deliver_parts delivered
  rw [Side.other_other] at receives
  rcases pending with due | due
  · exact ⟨rank, Nat.le_refl _, .inl (due.byCapsule sends receives)⟩
  · obtain ⟨less, notMore, due⟩ := due.byKey sends receives
    exact ⟨less, notMore, .inr due⟩

/-- A raised epoch stays raised. -/
theorem Raised.deliver
    {epoch : Nat}
    {run later : Run}
    {side : Side}
    {draw : Draw}
    (raised : Raised epoch run)
    (delivered : run.deliver party side draw = .ok later) :
    Raised epoch later :=
  fun either =>
    (raised either).trans_le (deliver_epochs delivered either)

/-- No delivery adds to the rounds that are left. -/
theorem Left.deliver
    {epoch rounds : Nat}
    {run later : Run}
    {side : Side}
    {draw : Draw}
    (left : Left epoch rounds run)
    (delivered : run.deliver party side draw = .ok later)
    (agree : Agree later) :
    Left epoch rounds later := by
  rcases left with raised | ⟨rank, sender, few, pending⟩
  · exact .inl (raised.deliver delivered)
  · rcases side.eq_or_eq_other sender with rfl | rfl
    · obtain ⟨before, rfl⟩ := Nat.exists_eq_add_of_lt pending.positive
      rw [Nat.zero_add] at pending few
      exact (pending.delivered delivered agree).mono
        (Nat.le_of_succ_le few)
    · obtain ⟨less, notMore, pending⟩ := pending.held delivered
      exact .inr ⟨less, sender, notMore.trans few, pending⟩

/-! ## Every state of a run has a rank -/

/-- Only a capsule side whose first half has arrived stops sending it. -/
theorem not_acked
    {exchange : Exchange}
    {key capsule : Braid}
    (capsuleSide : CapsuleSide exchange capsule)
    (sameEpoch : key.epoch = exchange.epoch)
    (lacks : ¬ key.HasFirst)
    (acked : capsule.Acked → Past capsule.epoch key) :
    ¬ capsule.Acked := by
  intro isAcked
  rw [capsuleSide.epoch_eq] at acked
  rcases acked isAcked with beyond | ⟨_, has⟩
  · exact absurd sameEpoch (Nat.ne_of_gt beyond)
  · exact lacks has

/-- In every reachable state something is due, with a bounded rank. -/
theorem exists_due
    {exchange : Exchange}
    {key capsule : Braid}
    (keySide : KeySide exchange key)
    (capsuleSide : CapsuleSide exchange capsule)
    (acked : capsule.Acked → Past capsule.epoch key) :
    ∃ rank, rank ≤ 80 ∧
      (KeyDue exchange.epoch rank key capsule ∨
        CapsuleDue exchange.epoch rank key capsule) := by
  have sided : Sided key capsule := ⟨exchange, .inl ⟨keySide, capsuleSide⟩⟩
  cases keySide with
  | late before _ _ noKeys =>
      cases capsuleSide with
      | waiting => exact ⟨_, Nat.le_refl _, .inr (.late before)⟩
      | headerIn isKeys | firstOut isKeys | encapInFirstOut isKeys
      | firstAcked isKeys | secondOut isKeys => cases noKeys.symm.trans isKeys
  | unsampled noKeys =>
      cases capsuleSide with
      | waiting => exact ⟨_, by decide, .inl .unsampled⟩
      | headerIn isKeys | firstOut isKeys | encapInFirstOut isKeys
      | firstAcked isKeys | secondOut isKeys => cases noKeys.symm.trans isKeys
  | sampled =>
      have unacked := not_acked capsuleSide rfl id acked
      cases capsuleSide with
      | waiting => exact ⟨_, by decide, .inl (.sampled (feeds_header sided))⟩
      | headerIn => exact ⟨_, by decide, .inr .headerIn⟩
      | firstOut => exact ⟨_, by decide, .inr .firstOut⟩
      | encapInFirstOut => exact ⟨_, by decide, .inr .encapInFirstOut⟩
      | firstAcked | secondOut => exact absurd trivial unacked
  | headerOut _ isFirst =>
      have unacked := not_acked capsuleSide rfl id acked
      cases capsuleSide with
      | waiting noFirst | headerIn _ noFirst =>
          cases noFirst.symm.trans isFirst
      | firstOut =>
          have feedsFirst := feeds_first sided (.inl ⟨_, _, rfl⟩)
          have feedsEncap :=
            feeds_encap sided (.inl ⟨_, rfl⟩) (.inl ⟨_, rfl⟩)
          exact ⟨_, by decide, .inr (.headerOut feedsFirst feedsEncap)⟩
      | encapInFirstOut =>
          have feedsFirst := feeds_first sided (.inr ⟨_, rfl⟩)
          exact ⟨_, by decide, .inr (.headerOutEncapIn feedsFirst)⟩
      | firstAcked | secondOut => exact absurd trivial unacked
  | firstIn _ isFirst =>
      cases capsuleSide with
      | waiting noFirst | headerIn _ noFirst =>
          cases noFirst.symm.trans isFirst
      | firstOut =>
          have feeds := feeds_encap sided (.inr ⟨_, rfl⟩) (.inl ⟨_, rfl⟩)
          exact ⟨_, by decide, .inl (.firstIn feeds)⟩
      | encapInFirstOut => exact ⟨_, by decide, .inl .encapIn⟩
      | firstAcked =>
          have feeds := feeds_encap sided (.inr ⟨_, rfl⟩) (.inr rfl)
          exact ⟨_, by decide, .inl (.acked feeds)⟩
      | secondOut => exact ⟨_, by decide, .inr .answered⟩
  | encapOutFirstIn _ _ answered =>
      cases capsuleSide with
      | waiting _ unanswered | headerIn _ _ unanswered
      | firstOut _ _ unanswered | encapInFirstOut _ _ unanswered
      | firstAcked _ _ unanswered => cases unanswered.symm.trans answered
      | secondOut =>
          exact ⟨_, by decide, .inr (.second (feeds_second sided))⟩

section Reaching

variable [LawfulKem] {authKey : Bytes} {initiator responder : Braid}
variable {run : Run}

/-- Eighty rounds are enough from every state of a run. -/
theorem left_of_reachable
    (startsInitiator : startInitiator authKey = .ok initiator)
    (startsResponder : startResponder authKey = .ok responder)
    (reachable : Reachable party (startSides initiator responder) run) :
    ∃ epoch,
      (∀ side, (run.state side).epoch ≤ epoch) ∧ Left epoch 80 run := by
  obtain ⟨exchange, keySide, agreement⟩ :=
    agreement_of_reachable startsInitiator startsResponder reachable
  have unacked : ∀ side, ¬ (startSides initiator responder side).Acked := by
    obtain ⟨_, _, ⟨⟩⟩ := Outcome.bind_eq_ok.mp startsInitiator
    obtain ⟨_, _, rest⟩ := Outcome.bind_eq_ok.mp startsResponder
    obtain ⟨_, _, ⟨⟩⟩ := Outcome.bind_eq_ok.mp rest
    intro side
    cases side <;> exact id
  have acked :=
    (acknowledged_of_reachable unacked reachable).states keySide.other
  rw [Side.other_other] at acked
  have key : KeySide exchange (run.state keySide) := agreement.key
  have capsule : CapsuleSide exchange (run.state keySide.other) :=
    agreement.capsule
  refine ⟨exchange.epoch, fun side => ?_, ?_⟩
  · rcases side.eq_or_eq_other keySide with rfl | rfl
    · exact key.epoch_near.1
    · exact Nat.le_of_eq capsule.epoch_eq
  · obtain ⟨rank, few, keyDue | capsuleDue⟩ :=
      exists_due key capsule acked
    · exact .inr ⟨rank, keySide, few, .inl keyDue⟩
    · refine .inr ⟨rank, keySide.other, few, .inr ?_⟩
      rwa [Side.other_other]

/-! ## Rounds -/

/-- Each round takes one off what is left. -/
theorem Left.round
    (startsInitiator : startInitiator authKey = .ok initiator)
    (startsResponder : startResponder authKey = .ok responder)
    {epoch rounds : Nat}
    {middle later : Run}
    {draw draw' : Draw}
    (reachable : Reachable party (startSides initiator responder) run)
    (left : Left epoch (rounds + 1) run)
    (first : run.deliver party .initiator draw = .ok middle)
    (second : middle.deliver party .responder draw' = .ok later) :
    Left epoch rounds later := by
  have onward := reachable.deliver first
  have agreeMiddle :=
    agreement_of_reachable startsInitiator startsResponder onward
  have agreeLater :=
    agreement_of_reachable startsInitiator startsResponder
      (onward.deliver second)
  rcases left with raised | ⟨rank, sender, few, pending⟩
  · exact .inl ((raised.deliver first).deliver second)
  · cases sender with
    | initiator =>
        obtain ⟨before, rfl⟩ := Nat.exists_eq_succ_of_ne_zero pending.positive.ne'
        have leftMiddle := pending.delivered first agreeMiddle
        exact (leftMiddle.deliver second agreeLater).mono
          (Nat.le_of_succ_le_succ few)
    | responder =>
        obtain ⟨less, notMore, pending⟩ := pending.held first
        obtain ⟨before, rfl⟩ := Nat.exists_eq_succ_of_ne_zero pending.positive.ne'
        exact (pending.delivered second agreeLater).mono
          (Nat.le_of_succ_le_succ (notMore.trans few))

/-- Rounds take the rank down to nothing. -/
theorem Left.rounds
    (startsInitiator : startInitiator authKey = .ok initiator)
    (startsResponder : startResponder authKey = .ok responder)
    {epoch more : Nat}
    {later : Run}
    {rounds : List (Draw × Draw)}
    (reachable : Reachable party (startSides initiator responder) run)
    (left : Left epoch (more + rounds.length) run)
    (delivered : run.deliverAll party (alternation rounds) = .ok later) :
    Left epoch more later := by
  induction rounds generalizing run with
  | nil =>
      cases delivered
      exact left
  | cons round rounds inductionHypothesis =>
      obtain ⟨middle, first, rest⟩ := Outcome.bind_eq_ok.mp delivered
      obtain ⟨next, second, rest⟩ := Outcome.bind_eq_ok.mp rest
      exact inductionHypothesis ((reachable.deliver first).deliver second)
        (left.round startsInitiator startsResponder reachable first second)
        rest

/-- A receive on the way stops, as its side is at the last epoch there is. -/
def StopsAtLastEpoch (run : Run) (turns : List (Side × Draw)) : Prop :=
  run.deliverAll party turns = .trap ∧
    ∃ taken side draw rest middle,
      turns = taken ++ (side, draw) :: rest ∧
        run.deliverAll party taken = .ok middle ∧
        2 ^ 64 ≤ (middle.state side.other).epoch + 1

/-- Deliveries go through, up to the end of the epochs. -/
theorem deliverAll_cases
    (generates : ∀ seed, ∃ keys, Kem.generate seed = some keys)
    (startsInitiator : startInitiator authKey = .ok initiator)
    (startsResponder : startResponder authKey = .ok responder)
    (reachable : Reachable party (startSides initiator responder) run)
    (turns : List (Side × Draw)) :
    (∃ later, run.deliverAll party turns = .ok later) ∨
      StopsAtLastEpoch run turns := by
  induction turns generalizing run with
  | nil => exact .inl ⟨run, rfl⟩
  | cons turn turns inductionHypothesis =>
      obtain ⟨side, draw⟩ := turn
      rcases deliver_cases generates startsInitiator startsResponder
          reachable side draw with
        ⟨next, delivered⟩ | ⟨stops, ends⟩
      · have onward : ∀ rest,
            run.deliverAll party ((side, draw) :: rest) =
              next.deliverAll party rest := by
          intro rest
          rw [Joint.deliverAll, delivered, Outcome.ok_bind]
        rcases inductionHypothesis (reachable.deliver delivered) with
          ⟨later, done⟩ |
            ⟨stops, taken, side', draw', rest, middle, rfl, done, ends⟩
        · exact .inl ⟨later, (onward turns).trans done⟩
        · refine .inr ⟨(onward _).trans stops, (side, draw) :: taken, side',
            draw', rest, middle, rfl, ?_, ends⟩
          exact (onward taken).trans done
      · refine .inr ⟨?_, [], side, draw, turns, run, rfl, rfl, ends⟩
        rw [Joint.deliverAll, stops]
        rfl

/-- A hundred rounds raise both epochs, or come to the last epoch. -/
theorem rounds_raise
    (generates : ∀ seed, ∃ keys, Kem.generate seed = some keys)
    (startsInitiator : startInitiator authKey = .ok initiator)
    (startsResponder : startResponder authKey = .ok responder)
    (reachable : Reachable party (startSides initiator responder) run)
    (rounds : List (Draw × Draw))
    (hundred : rounds.length = 100) :
    (∃ later,
      run.deliverAll party (alternation rounds) = .ok later ∧
        ∀ side, (run.state side).epoch < (later.state side).epoch) ∨
      StopsAtLastEpoch run (alternation rounds) := by
  rcases deliverAll_cases generates startsInitiator startsResponder
      reachable (alternation rounds) with
    ⟨later, delivered⟩ | stops
  · obtain ⟨epoch, notBeyond, left⟩ :=
      left_of_reachable startsInitiator startsResponder reachable
    have enough : Left epoch (0 + rounds.length) run :=
      left.mono (by rw [hundred]; decide)
    have raised :=
      Raised.of_left
        (enough.rounds startsInitiator startsResponder reachable delivered)
    exact .inl ⟨later, delivered, fun side =>
      (notBeyond side).trans_lt (raised side)⟩
  · exact .inr stops

end Reaching

end Runs

end Gossveil.Braid

namespace Gossveil.Braid

open ErasureCode TwoParty Sample

attribute [local instance] hashes kem

/-- The draws of a hundred rounds. -/
private def hundredRounds : List (Draw × Draw) :=
  List.replicate 100
    (⟨Block.fill 64 5, Block.fill 32 6⟩, ⟨Block.fill 64 7, Block.fill 32 8⟩)

/-- A hundred rounds after pieces have been exchanged. -/
theorem rounds_raise_pieces :
    ∃ run,
      Reachable party (startSides sampleInitiator sampleResponder) run ∧
        answers run = true ∧
        ((∃ later,
            run.deliverAll party (alternation hundredRounds) = .ok later ∧
              ∀ side, (run.state side).epoch < (later.state side).epoch) ∨
          StopsAtLastEpoch run (alternation hundredRounds)) := by
  have lawful : LawfulKem := lawfulKem
  obtain ⟨run, reachable, answered⟩ := exists_answered
  exact ⟨run, reachable, answered,
    rounds_raise (fun _ => ⟨_, rfl⟩) starts_sampleInitiator
      starts_sampleResponder reachable hundredRounds List.length_replicate⟩

/-- The epochs are finitely many, so rounds cannot raise them for ever. -/
theorem rounds_end :
    ¬ ∀ run : Run,
      Reachable party (startSides sampleInitiator sampleResponder) run →
      ∀ rounds : List (Draw × Draw),
        rounds.length = 100 →
        ∃ later,
          run.deliverAll party (alternation rounds) = .ok later ∧
            ∀ side, (run.state side).epoch < (later.state side).epoch := by
  intro raises
  have lawful : LawfulKem := lawfulKem
  have climbs : ∀ epoch : Nat,
      ∃ run : Run,
        Reachable party (startSides sampleInitiator sampleResponder) run ∧
          epoch ≤ (run.state .initiator).epoch := by
    intro epoch
    induction epoch with
    | zero => exact ⟨_, .init, Nat.zero_le _⟩
    | succ epoch inductionHypothesis =>
        obtain ⟨run, reachable, reached⟩ := inductionHypothesis
        obtain ⟨later, delivered, raised⟩ :=
          raises run reachable hundredRounds List.length_replicate
        exact ⟨later, reachable.deliverAll delivered,
          reached.trans_lt (raised .initiator)⟩
  obtain ⟨run, reachable, beyond⟩ := climbs (2 ^ 64)
  obtain ⟨exchange, keySide, agreement⟩ :=
    agreement_of_reachable starts_sampleInitiator starts_sampleResponder
      reachable
  exact absurd beyond (Nat.not_le.mpr (agreement.epoch_lt .initiator))

end Gossveil.Braid
