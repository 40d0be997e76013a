import Gossveil.Outcome

namespace Gossveil.TwoParty

/-!
# Two parties and a channel

Two copies of one party exchange packets.  A run is any interleaving of sends
and of receives of packets the other side has sent so far, in any order and as
often as wanted; a packet may also stay undelivered.  A call that fails leaves
the party as it was.  Each side's log records its successful calls in order.
-/

/-- The party that opens the exchange and the one that answers it. -/
inductive Side where
  | initiator
  | responder
  deriving DecidableEq, Repr

/-- The other end. -/
def Side.other : Side → Side
  | .initiator => .responder
  | .responder => .initiator

@[simp] theorem Side.other_other (side : Side) : side.other.other = side := by
  cases side <;> rfl

@[simp] theorem Side.other_ne (side : Side) : side.other ≠ side := by
  cases side <;> decide

@[simp] theorem Side.ne_other (side : Side) : side ≠ side.other := by
  cases side <;> decide

/-- There are two sides. -/
theorem Side.eq_or_eq_other (side reference : Side) :
    side = reference ∨ side = reference.other := by
  cases side <;> cases reference <;> decide

variable {σ δ π α β ε : Type}

/-- What a party can do; `δ` is what a send may draw. -/
structure Party (σ δ π α β ε : Type) where
  send : σ → δ → Outcome ε (σ × π × α)
  receive : σ → π → Outcome ε (σ × β)

/-- A successful call with its packet and what it returned. -/
inductive Event (π α β : Type) where
  | sent (packet : π) (result : α)
  | received (packet : π) (result : β)

/-- The states of both sides and what each of them has done. -/
structure Joint (σ π α β : Type) where
  state : Side → σ
  log : Side → List (Event π α β)

namespace Joint

/-- Two parties before their first call. -/
def init (state : Side → σ) : Joint σ π α β :=
  ⟨state, fun _ => []⟩

/-- One side moves to a state and logs the call. -/
def act
    (joint : Joint σ π α β)
    (side : Side)
    (state : σ)
    (event : Event π α β) :
    Joint σ π α β :=
  ⟨Function.update joint.state side state,
    Function.update joint.log side (joint.log side ++ [event])⟩

@[simp] theorem state_init (state : Side → σ) (side : Side) :
    (init state : Joint σ π α β).state side = state side :=
  rfl

@[simp] theorem log_init (state : Side → σ) (side : Side) :
    (init state : Joint σ π α β).log side = [] :=
  rfl

@[simp] theorem state_act_self
    (joint : Joint σ π α β)
    (side : Side)
    (state : σ)
    (event : Event π α β) :
    (joint.act side state event).state side = state :=
  Function.update_self ..

@[simp] theorem log_act_self
    (joint : Joint σ π α β)
    (side : Side)
    (state : σ)
    (event : Event π α β) :
    (joint.act side state event).log side = joint.log side ++ [event] :=
  Function.update_self ..

@[simp] theorem state_act_other
    (joint : Joint σ π α β)
    (side : Side)
    (state : σ)
    (event : Event π α β) :
    (joint.act side state event).state side.other =
      joint.state side.other :=
  Function.update_of_ne (Side.other_ne side) _ _

@[simp] theorem log_act_other
    (joint : Joint σ π α β)
    (side : Side)
    (state : σ)
    (event : Event π α β) :
    (joint.act side state event).log side.other = joint.log side.other :=
  Function.update_of_ne (Side.other_ne side) _ _

/-- The side has sent the packet, and the send returned the result. -/
def HasSent
    (joint : Joint σ π α β)
    (side : Side)
    (packet : π)
    (result : α) :
    Prop :=
  Event.sent packet result ∈ joint.log side

/-- The side has accepted the packet, and the receive returned the result. -/
def HasReceived
    (joint : Joint σ π α β)
    (side : Side)
    (packet : π)
    (result : β) :
    Prop :=
  Event.received packet result ∈ joint.log side

/-- A logged call is the last one or was logged before. -/
theorem mem_log_act
    {joint : Joint σ π α β}
    {side actor : Side}
    {state : σ}
    {event other : Event π α β}
    (member : other ∈ (joint.act actor state event).log side) :
    other ∈ joint.log side ∨ (side = actor ∧ other = event) := by
  rcases side.eq_or_eq_other actor with rfl | rfl
  · rw [log_act_self] at member
    rcases List.mem_append.mp member with before | last
    · exact Or.inl before
    · exact Or.inr ⟨rfl, List.mem_singleton.mp last⟩
  · rw [log_act_other] at member
    exact Or.inl member

/-- What one side's calls so far say, in order. -/
def collect
    {γ : Type}
    (choose : Event π α β → Option γ)
    (joint : Joint σ π α β)
    (side : Side) :
    List γ :=
  (joint.log side).filterMap choose

/-- What is collected grows by the event of an act. -/
theorem collect_act
    {γ : Type}
    (choose : Event π α β → Option γ)
    (joint : Joint σ π α β)
    (side : Side)
    (state : σ)
    (event : Event π α β) :
    (joint.act side state event).collect choose =
      Function.update (joint.collect choose) side
        (joint.collect choose side ++ (choose event).toList) := by
  have chosen : [event].filterMap choose = (choose event).toList := by
    cases isChosen : choose event with
    | none =>
        rw [List.filterMap_cons_none isChosen]
        rfl
    | some value =>
        rw [List.filterMap_cons_some isChosen]
        rfl
  funext actor
  rcases actor.eq_or_eq_other side with rfl | rfl
  · rw [collect, log_act_self, List.filterMap_append, chosen,
      Function.update_self]
    rfl
  · rw [collect, log_act_other,
      Function.update_of_ne (Side.other_ne side)]
    rfl

end Joint

/-- One successful call of either side. -/
inductive Step
    (party : Party σ δ π α β ε)
    (joint : Joint σ π α β) :
    Joint σ π α β → Prop where
  | send
      (side : Side)
      (draw : δ)
      {state : σ}
      {packet : π}
      {result : α}
      (sends :
        party.send (joint.state side) draw = .ok (state, packet, result)) :
      Step party joint (joint.act side state (.sent packet result))
  | receive
      (side : Side)
      {packet : π}
      {origin : α}
      {state : σ}
      {result : β}
      (offered : joint.HasSent side.other packet origin)
      (receives :
        party.receive (joint.state side) packet = .ok (state, result)) :
      Step party joint (joint.act side state (.received packet result))

/-- The joint states of the runs from a start. -/
inductive Reachable
    (party : Party σ δ π α β ε)
    (start : Side → σ) :
    Joint σ π α β → Prop where
  | init : Reachable party start (Joint.init start)
  | step
      {joint next : Joint σ π α β}
      (before : Reachable party start joint)
      (step : Step party joint next) :
      Reachable party start next

/-- What the start satisfies and every step keeps holds in every run. -/
theorem Reachable.invariant
    {party : Party σ δ π α β ε}
    {start : Side → σ}
    {Holds : Joint σ π α β → Prop}
    (initially : Holds (Joint.init start))
    (stepKeeps :
      ∀ {joint next}, Holds joint → Step party joint next → Holds next)
    {joint : Joint σ π α β}
    (reachable : Reachable party start joint) :
    Holds joint := by
  induction reachable with
  | init => exact initially
  | step _ step inductionHypothesis =>
      exact stepKeeps inductionHypothesis step

/-- The joint states of the runs all of whose states satisfy a condition. -/
inductive ReachableWithin
    (party : Party σ δ π α β ε)
    (start : Side → σ)
    (Within : Joint σ π α β → Prop) :
    Joint σ π α β → Prop where
  | init
      (within : Within (Joint.init start)) :
      ReachableWithin party start Within (Joint.init start)
  | step
      {joint next : Joint σ π α β}
      (before : ReachableWithin party start Within joint)
      (step : Step party joint next)
      (within : Within next) :
      ReachableWithin party start Within next

/-- A bounded run ends within its bound. -/
theorem ReachableWithin.within
    {party : Party σ δ π α β ε}
    {start : Side → σ}
    {Within : Joint σ π α β → Prop}
    {joint : Joint σ π α β}
    (reachable : ReachableWithin party start Within joint) :
    Within joint := by
  cases reachable with
  | init within => exact within
  | step _ _ within => exact within

/-- An invariant whose steps may use the condition on both of their states. -/
theorem ReachableWithin.invariant
    {party : Party σ δ π α β ε}
    {start : Side → σ}
    {Within Holds : Joint σ π α β → Prop}
    (initially : Within (Joint.init start) → Holds (Joint.init start))
    (stepKeeps :
      ∀ {joint next},
        Holds joint →
        Within joint →
        Step party joint next →
        Within next →
        Holds next)
    {joint : Joint σ π α β}
    (reachable : ReachableWithin party start Within joint) :
    Holds joint := by
  induction reachable with
  | init within => exact initially within
  | step before step within inductionHypothesis =>
      exact stepKeeps inductionHypothesis before.within step within

/-! ## Lossless deliveries -/

namespace Joint

variable {party : Party σ δ π α β ε}

/-- One side sends, and the packet arrives at once. -/
def deliver
    (party : Party σ δ π α β ε)
    (joint : Joint σ π α β)
    (side : Side)
    (draw : δ) :
    Outcome ε (Joint σ π α β) := do
  let (sender, packet, sent) ← party.send (joint.state side) draw
  let (receiver, received) ← party.receive (joint.state side.other) packet
  return (joint.act side sender (.sent packet sent)).act side.other receiver
    (.received packet received)

/-- Sends one after the other, each received at once. -/
def deliverAll
    (party : Party σ δ π α β ε)
    (joint : Joint σ π α β) :
    List (Side × δ) →
    Outcome ε (Joint σ π α β)
  | [] => .ok joint
  | (side, draw) :: rest => do
      let joint ← joint.deliver party side draw
      joint.deliverAll party rest

/-- A delivery is a send and the receive of what was sent. -/
theorem deliver_eq_ok
    {joint later : Joint σ π α β}
    {side : Side}
    {draw : δ}
    (delivered : joint.deliver party side draw = .ok later) :
    ∃ sender packet sent receiver received,
      party.send (joint.state side) draw = .ok (sender, packet, sent) ∧
        party.receive (joint.state side.other) packet =
          .ok (receiver, received) ∧
        later =
          (joint.act side sender (.sent packet sent)).act side.other receiver
            (.received packet received) := by
  obtain ⟨⟨sender, packet, sent⟩, sends, rest⟩ :=
    Outcome.bind_eq_ok.mp delivered
  obtain ⟨⟨receiver, received⟩, receives, done⟩ :=
    Outcome.bind_eq_ok.mp rest
  exact ⟨sender, packet, sent, receiver, received, sends, receives,
    (Outcome.ok.inj done).symm⟩

end Joint

/-- A delivery is two steps of a run. -/
theorem Reachable.deliver
    {party : Party σ δ π α β ε}
    {start : Side → σ}
    {joint later : Joint σ π α β}
    {side : Side}
    {draw : δ}
    (reachable : Reachable party start joint)
    (delivered : joint.deliver party side draw = .ok later) :
    Reachable party start later := by
  obtain ⟨sender, packet, sent, receiver, received, sends, receives, rfl⟩ :=
    Joint.deliver_eq_ok delivered
  have hasSent :
      (joint.act side sender (.sent packet sent)).HasSent side packet
        sent := by
    simp [Joint.HasSent]
  apply Reachable.step (.step reachable (.send side draw sends))
  apply Step.receive side.other
  · rwa [Side.other_other]
  · rwa [Joint.state_act_other]

/-- Deliveries are runs. -/
theorem Reachable.deliverAll
    {party : Party σ δ π α β ε}
    {start : Side → σ}
    {joint later : Joint σ π α β}
    {turns : List (Side × δ)}
    (reachable : Reachable party start joint)
    (delivered : joint.deliverAll party turns = .ok later) :
    Reachable party start later := by
  induction turns generalizing joint with
  | nil =>
      cases delivered
      exact reachable
  | cons turn turns inductionHypothesis =>
      obtain ⟨middle, first, rest⟩ := Outcome.bind_eq_ok.mp delivered
      exact inductionHypothesis (reachable.deliver first) rest

end Gossveil.TwoParty
