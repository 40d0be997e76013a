import Gossveil.TwoParty

namespace Gossveil.TwoParty

/-!
# Two parties and lossy queues

The packets of each side queue toward the other and are handed over in the
order they were sent; any of them may be lost on its way.  A receive that
fails leaves the party as it was.
-/

variable {σ δ π α β ε : Type}

/-- A packet that was handed over, and what the receive made of it. -/
structure Delivery (π α β ε : Type) where
  packet : π
  origin : α
  outcome : Outcome ε β

/-- Two parties, what each has sent, and what has become of it. -/
structure Queues (σ π α β ε : Type) where
  state : Side → σ
  sent : Side → List (π × α)
  /-- What is on its way to a side. -/
  underway : Side → List (π × α)
  /-- What a side was handed. -/
  handed : Side → List (Delivery π α β ε)

namespace Queues

/-- Nothing has been sent yet. -/
def init (state : Side → σ) : Queues σ π α β ε :=
  ⟨state, fun _ => [], fun _ => [], fun _ => []⟩

/-- What a side sends goes to the end of the other's queue. -/
def send
    (queues : Queues σ π α β ε)
    (side : Side)
    (state : σ)
    (item : π × α) :
    Queues σ π α β ε :=
  { queues with
    state := Function.update queues.state side state
    sent := Function.update queues.sent side (queues.sent side ++ [item])
    underway :=
      Function.update queues.underway side.other
        (queues.underway side.other ++ [item]) }

/-- What is under way gets lost, but for the rest. -/
def lose
    (queues : Queues σ π α β ε)
    (side : Side)
    (remaining : List (π × α)) :
    Queues σ π α β ε :=
  { queues with
    underway := Function.update queues.underway side remaining }

/-- The state that a receive leaves. -/
def settled
    (state : σ)
    (outcome : Outcome ε (σ × β)) :
    σ :=
  match outcome with
  | .ok (after, _) => after
  | .error _ => state
  | .trap => state

/-- The first item under way is handed over. -/
def hand
    (queues : Queues σ π α β ε)
    (side : Side)
    (item : π × α)
    (remaining : List (π × α))
    (outcome : Outcome ε (σ × β)) :
    Queues σ π α β ε :=
  { queues with
    state :=
      Function.update queues.state side
        (settled (queues.state side) outcome)
    underway := Function.update queues.underway side remaining
    handed :=
      Function.update queues.handed side
        (queues.handed side ++ [⟨item.1, item.2, Prod.snd <$> outcome⟩]) }

/-- What a side was handed, as it was sent. -/
def arrived
    (queues : Queues σ π α β ε)
    (side : Side) :
    List (π × α) :=
  (queues.handed side).map fun delivery =>
    (delivery.packet, delivery.origin)

section Moves

variable
  (queues : Queues σ π α β ε)
  (side : Side)
  (state : σ)
  (item : π × α)
  (remaining : List (π × α))
  (outcome : Outcome ε (σ × β))

@[simp] theorem state_send_self :
    (queues.send side state item).state side = state :=
  Function.update_self ..

@[simp] theorem state_send_other :
    (queues.send side state item).state side.other =
      queues.state side.other :=
  Function.update_of_ne (Side.other_ne side) _ _

@[simp] theorem sent_send_self :
    (queues.send side state item).sent side =
      queues.sent side ++ [item] :=
  Function.update_self ..

@[simp] theorem sent_send_other :
    (queues.send side state item).sent side.other =
      queues.sent side.other :=
  Function.update_of_ne (Side.other_ne side) _ _

@[simp] theorem underway_send_self :
    (queues.send side state item).underway side = queues.underway side :=
  Function.update_of_ne (Side.ne_other side) _ _

@[simp] theorem underway_send_other :
    (queues.send side state item).underway side.other =
      queues.underway side.other ++ [item] :=
  Function.update_self ..

@[simp] theorem arrived_send :
    (queues.send side state item).arrived = queues.arrived :=
  rfl

@[simp] theorem underway_lose_self :
    (queues.lose side remaining).underway side = remaining :=
  Function.update_self ..

@[simp] theorem underway_lose_other :
    (queues.lose side remaining).underway side.other =
      queues.underway side.other :=
  Function.update_of_ne (Side.other_ne side) _ _

@[simp] theorem sent_lose :
    (queues.lose side remaining).sent = queues.sent :=
  rfl

@[simp] theorem arrived_lose :
    (queues.lose side remaining).arrived = queues.arrived :=
  rfl

@[simp] theorem state_hand_self :
    (queues.hand side item remaining outcome).state side =
      settled (queues.state side) outcome :=
  Function.update_self ..

@[simp] theorem state_hand_other :
    (queues.hand side item remaining outcome).state side.other =
      queues.state side.other :=
  Function.update_of_ne (Side.other_ne side) _ _

@[simp] theorem sent_hand :
    (queues.hand side item remaining outcome).sent = queues.sent :=
  rfl

@[simp] theorem underway_hand_self :
    (queues.hand side item remaining outcome).underway side = remaining :=
  Function.update_self ..

@[simp] theorem underway_hand_other :
    (queues.hand side item remaining outcome).underway side.other =
      queues.underway side.other :=
  Function.update_of_ne (Side.other_ne side) _ _

@[simp] theorem handed_hand_self :
    (queues.hand side item remaining outcome).handed side =
      queues.handed side ++
        [⟨item.1, item.2, Prod.snd <$> outcome⟩] :=
  Function.update_self ..

@[simp] theorem handed_hand_other :
    (queues.hand side item remaining outcome).handed side.other =
      queues.handed side.other :=
  Function.update_of_ne (Side.other_ne side) _ _

@[simp] theorem arrived_hand_self :
    (queues.hand side item remaining outcome).arrived side =
      queues.arrived side ++ [item] := by
  simp [arrived]

@[simp] theorem arrived_hand_other :
    (queues.hand side item remaining outcome).arrived side.other =
      queues.arrived side.other := by
  simp [arrived]

end Moves

end Queues

/-- A send, a loss, or a packet handed over under a condition. -/
inductive QueueStep
    (party : Party σ δ π α β ε)
    (Meets : Queues σ π α β ε → Side → π → Prop)
    (queues : Queues σ π α β ε) :
    Queues σ π α β ε → Prop where
  | send
      (side : Side)
      (draw : δ)
      {state : σ}
      {packet : π}
      {result : α}
      (sends :
        party.send (queues.state side) draw = .ok (state, packet, result)) :
      QueueStep party Meets queues
        (queues.send side state (packet, result))
  | lose
      (side : Side)
      {earlier later : List (π × α)}
      {item : π × α}
      (queued : queues.underway side = earlier ++ item :: later) :
      QueueStep party Meets queues (queues.lose side (earlier ++ later))
  | hand
      (side : Side)
      {item : π × α}
      {remaining : List (π × α)}
      (queued : queues.underway side = item :: remaining)
      (meets : Meets queues side item.1) :
      QueueStep party Meets queues
        (queues.hand side item remaining
          (party.receive (queues.state side) item.1))

/-- The runs from a start all of whose states satisfy a condition. -/
inductive QueueRun
    (party : Party σ δ π α β ε)
    (start : Side → σ)
    (Meets : Queues σ π α β ε → Side → π → Prop)
    (Within : Queues σ π α β ε → Prop) :
    Queues σ π α β ε → Prop where
  | init
      (within : Within (Queues.init start)) :
      QueueRun party start Meets Within (Queues.init start)
  | step
      {queues next : Queues σ π α β ε}
      (before : QueueRun party start Meets Within queues)
      (step : QueueStep party Meets queues next)
      (within : Within next) :
      QueueRun party start Meets Within next

namespace QueueRun

variable
  {party : Party σ δ π α β ε}
  {start : Side → σ}
  {Meets : Queues σ π α β ε → Side → π → Prop}
  {Within : Queues σ π α β ε → Prop}
  {queues : Queues σ π α β ε}

/-- Every run stays within its bounds. -/
theorem within
    (run : QueueRun party start Meets Within queues) :
    Within queues := by
  cases run with
  | init within => exact within
  | step _ _ within => exact within

/-- What was handed over and what is on its way is a part of what was sent. -/
theorem inOrder
    (run : QueueRun party start Meets Within queues)
    (side : Side) :
    (queues.arrived side ++ queues.underway side).Sublist
      (queues.sent side.other) := by
  induction run with
  | init _ => exact List.Sublist.refl []
  | @step queues _ _ step _ inductionHypothesis =>
      cases step with
      | @send actor _ _ packet result sends =>
          rcases side.eq_or_eq_other actor with rfl | rfl
          · simpa using inductionHypothesis
          · have longer :=
              inductionHypothesis.append (List.Sublist.refl [(packet, result)])
            simpa using longer
      | @lose actor earlier later item queued =>
          rcases side.eq_or_eq_other actor with rfl | rfl
          · have shorter :
                (queues.arrived side ++ (earlier ++ later)).Sublist
                  (queues.arrived side ++ queues.underway side) := by
              rw [queued]
              exact (List.Sublist.refl _).append
                ((List.Sublist.refl _).append
                  (List.sublist_cons_self item later))
            simpa using shorter.trans inductionHypothesis
          · simpa using inductionHypothesis
      | @hand actor item remaining queued _ =>
          rcases side.eq_or_eq_other actor with rfl | rfl
          · rw [queued] at inductionHypothesis
            simpa using inductionHypothesis
          · simpa using inductionHypothesis

end QueueRun

end Gossveil.TwoParty
