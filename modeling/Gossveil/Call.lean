import Gossveil.Outcome

namespace Gossveil

/-!
# Calls on a mutable state

A call that changes a state in place ends as an `Outcome` does, and what it has
written stays written whichever way it ends.  An error after a write is
therefore told apart from an error before it.

Nothing here mentions the program; the operations and their rules serve any
model of code that works on one state.
-/

/-- What a call returns, and the state it leaves. -/
def Call (σ ε α : Type) : Type :=
  σ → Outcome ε α × σ

namespace Call

variable {σ ε α β : Type}

/-- Sequencing: the first error or trap ends the call, with its state. -/
protected def bind
    (first : Call σ ε α)
    (next : α → Call σ ε β) :
    Call σ ε β :=
  fun state =>
    match first state with
    | (.ok value, after) => next value after
    | (.error fault, after) => (.error fault, after)
    | (.trap, after) => (.trap, after)

instance : Monad (Call σ ε) where
  pure value := fun state => (.ok value, state)
  bind := Call.bind

/-- A computation that does not touch the state. -/
def lift (outcome : Outcome ε α) : Call σ ε α :=
  fun state => (outcome, state)

instance : MonadLift (Outcome ε) (Call σ ε) where
  monadLift := lift

/-- Reads the state. -/
def get : Call σ ε σ :=
  fun state => (.ok state, state)

/-- Replaces the state. -/
def set (after : σ) : Call σ ε Unit :=
  fun _ => (.ok (), after)

/-- Changes the state. -/
def modify (change : σ → σ) : Call σ ε Unit :=
  fun state => (.ok (), change state)

@[simp] theorem pure_apply (value : α) (state : σ) :
    (pure value : Call σ ε α) state = (.ok value, state) :=
  rfl

@[simp] theorem lift_apply (outcome : Outcome ε α) (state : σ) :
    (liftM outcome : Call σ ε α) state = (outcome, state) :=
  rfl

@[simp] theorem get_apply (state : σ) :
    (get : Call σ ε σ) state = (.ok state, state) :=
  rfl

@[simp] theorem set_apply (after state : σ) :
    (set after : Call σ ε Unit) state = (.ok (), after) :=
  rfl

@[simp] theorem modify_apply (change : σ → σ) (state : σ) :
    (modify change : Call σ ε Unit) state = (.ok (), change state) :=
  rfl

/-- Going on from a part that has returned. -/
theorem bind_of_ok
    {first : Call σ ε α}
    {next : α → Call σ ε β}
    {state between : σ}
    {value : α}
    (returned : first state = (.ok value, between)) :
    (first >>= next) state = next value between := by
  change Call.bind first next state = _
  rw [Call.bind, returned]

/-- An error ends the sequence. -/
theorem bind_of_error
    {first : Call σ ε α}
    {next : α → Call σ ε β}
    {state after : σ}
    {fault : ε}
    (failed : first state = (.error fault, after)) :
    (first >>= next) state = (.error fault, after) := by
  change Call.bind first next state = _
  rw [Call.bind, failed]

/-- A trap ends the sequence. -/
theorem bind_of_trap
    {first : Call σ ε α}
    {next : α → Call σ ε β}
    {state after : σ}
    (trapped : first state = (.trap, after)) :
    (first >>= next) state = (.trap, after) := by
  change Call.bind first next state = _
  rw [Call.bind, trapped]

@[simp] theorem lift_ok_bind
    (value : α)
    (next : α → Call σ ε β) :
    lift (.ok value) >>= next = next value :=
  rfl

@[simp] theorem lift_error_bind
    (fault : ε)
    (next : α → Call σ ε β) :
    lift (.error fault) >>= next = lift (.error fault) :=
  rfl

@[simp] theorem lift_trap_bind (next : α → Call σ ε β) :
    lift .trap >>= next = lift .trap :=
  rfl

@[simp] theorem bind_pure_unit (first : Call σ ε Unit) :
    (first >>= fun _ => pure ()) = first := by
  funext state
  rcases shape : first state with ⟨_ | fault | _, after⟩
  · rw [bind_of_ok shape]
    rfl
  · rw [bind_of_error shape]
  · rw [bind_of_trap shape]

/-- A sequence returns exactly when its parts do. -/
theorem bind_eq_ok
    {first : Call σ ε α}
    {next : α → Call σ ε β}
    {state after : σ}
    {result : β} :
    (first >>= next) state = (.ok result, after) ↔
      ∃ value between,
        first state = (.ok value, between) ∧
          next value between = (.ok result, after) := by
  rcases shape : first state with ⟨value | fault | _, between⟩
  · rw [bind_of_ok shape]
    simp
  · rw [bind_of_error shape]
    simp
  · rw [bind_of_trap shape]
    simp

/-- Sequencing is associative. -/
protected theorem bind_assoc
    {γ : Type}
    (first : Call σ ε α)
    (next : α → Call σ ε β)
    (last : β → Call σ ε γ) :
    first >>= next >>= last = first >>= fun value => next value >>= last := by
  funext state
  rcases shape : first state with ⟨value | fault | _, between⟩
  · rw [bind_of_ok shape]
    rcases rest : next value between with ⟨result | fault | _, after⟩
    · rw [bind_of_ok rest, bind_of_ok (by rw [bind_of_ok shape, rest])]
    · rw [bind_of_error rest, bind_of_error (by rw [bind_of_ok shape, rest])]
    · rw [bind_of_trap rest, bind_of_trap (by rw [bind_of_ok shape, rest])]
  · rw [bind_of_error shape, bind_of_error (by rw [bind_of_error shape])]
  · rw [bind_of_trap shape, bind_of_trap (by rw [bind_of_trap shape])]

instance : LawfulMonad (Call σ ε) :=
  LawfulMonad.mk' _
    (fun first => by
      funext state
      rcases shape : first state with ⟨value | fault | _, between⟩
      · exact bind_of_ok shape
      · exact bind_of_error shape
      · exact bind_of_trap shape)
    (fun _ _ => rfl)
    Call.bind_assoc

/-- A computation in front of a call that returns has returned. -/
theorem lift_bind_eq_ok
    {outcome : Outcome ε α}
    {next : α → Call σ ε β}
    {state after : σ}
    {result : β} :
    (lift outcome >>= next) state = (.ok result, after) ↔
      ∃ value,
        outcome = .ok value ∧ next value state = (.ok result, after) := by
  cases outcome with
  | ok value => simp
  | error fault =>
      constructor
      · rintro ⟨⟩
      · rintro ⟨_, ⟨⟩, _⟩
  | trap =>
      constructor
      · rintro ⟨⟩
      · rintro ⟨_, ⟨⟩, _⟩

/-- A sequence fails in one of its parts, with the state of that part. -/
theorem bind_eq_error
    {first : Call σ ε α}
    {next : α → Call σ ε β}
    {state after : σ}
    {fault : ε} :
    (first >>= next) state = (.error fault, after) ↔
      first state = (.error fault, after) ∨
        ∃ value between,
          first state = (.ok value, between) ∧
            next value between = (.error fault, after) := by
  rcases shape : first state with ⟨value | other | _, between⟩
  · rw [bind_of_ok shape]
    simp
  · rw [bind_of_error shape]
    simp
  · rw [bind_of_trap shape]
    simp

/-- A sequence traps in one of its parts. -/
theorem bind_eq_trap
    {first : Call σ ε α}
    {next : α → Call σ ε β}
    {state after : σ} :
    (first >>= next) state = (.trap, after) ↔
      first state = (.trap, after) ∨
        ∃ value between,
          first state = (.ok value, between) ∧
            next value between = (.trap, after) := by
  rcases shape : first state with ⟨value | other | _, between⟩
  · rw [bind_of_ok shape]
    simp
  · rw [bind_of_error shape]
    simp
  · rw [bind_of_trap shape]
    simp

/-- A step that returns its state; the old one stays after an error. -/
def step (next : σ → Outcome ε (α × σ)) : Call σ ε α :=
  fun state =>
    match next state with
    | .ok (value, after) => (.ok value, after)
    | .error fault => (.error fault, state)
    | .trap => (.trap, state)

/-- The same call under another type of errors. -/
def mapError {φ : Type} (change : ε → φ) (call : Call σ ε α) : Call σ φ α :=
  fun state =>
    match call state with
    | (result, after) => (result.mapError change, after)

@[simp] theorem mapError_apply
    {φ : Type}
    (change : ε → φ)
    (call : Call σ ε α)
    (state : σ) :
    call.mapError change state =
      ((call state).1.mapError change, (call state).2) :=
  rfl

/-! ## Pre- and postconditions -/

/--
From a state that meets `pre`, a call that returns leaves a state and a result
that meet `post`, and a call that fails leaves a state that meets `failed`.
-/
def Triple
    (pre : σ → Prop)
    (call : Call σ ε α)
    (post : α → σ → Prop)
    (failed : σ → Prop) :
    Prop :=
  ∀ state, pre state →
    (∀ value after, call state = (.ok value, after) → post value after) ∧
      ∀ fault after, call state = (.error fault, after) → failed after

namespace Triple

variable {pre : σ → Prop} {failed : σ → Prop}

/-- Returning a value leaves the state. -/
theorem pure
    {post : α → σ → Prop}
    {value : α}
    (holds : ∀ state, pre state → post value state) :
    Triple pre (pure value : Call σ ε α) post failed := by
  intro state before
  constructor
  · rintro _ _ ⟨⟩
    exact holds state before
  · rintro _ _ ⟨⟩

/-- A computation leaves the state, whether it returns or fails. -/
theorem lift
    {post : α → σ → Prop}
    {outcome : Outcome ε α}
    (returns :
      ∀ value, outcome = .ok value → ∀ state, pre state → post value state)
    (fails : ∀ state, pre state → failed state) :
    Triple pre (liftM outcome : Call σ ε α) post failed := by
  intro state before
  constructor
  · intro value after shape
    obtain ⟨isValue, rfl⟩ := Prod.mk.inj shape
    exact returns value isValue state before
  · intro fault after shape
    obtain ⟨_, rfl⟩ := Prod.mk.inj shape
    exact fails state before

/-- Reading leaves the state. -/
theorem get
    {post : σ → σ → Prop}
    (holds : ∀ state, pre state → post state state) :
    Triple pre (get : Call σ ε σ) post failed := by
  intro state before
  constructor
  · rintro _ _ ⟨⟩
    exact holds state before
  · rintro _ _ ⟨⟩

/-- Replacing the state forgets the old one. -/
theorem set
    {after : σ}
    {post : Unit → σ → Prop}
    (holds : ∀ state, pre state → post () after) :
    Triple pre (set after : Call σ ε Unit) post failed := by
  intro state before
  constructor
  · rintro _ _ ⟨⟩
    exact holds state before
  · rintro _ _ ⟨⟩

/-- Changing the state. -/
theorem modify
    {change : σ → σ}
    {post : Unit → σ → Prop}
    (holds : ∀ state, pre state → post () (change state)) :
    Triple pre (modify change : Call σ ε Unit) post failed := by
  intro state before
  constructor
  · rintro _ _ ⟨⟩
    exact holds state before
  · rintro _ _ ⟨⟩

/-- A sequence, over what holds between its two parts. -/
theorem bind
    {first : Call σ ε α}
    {next : α → Call σ ε β}
    {post : β → σ → Prop}
    (between : α → σ → Prop)
    (begins : Triple pre first between failed)
    (goesOn : ∀ value, Triple (between value) (next value) post failed) :
    Triple pre (first >>= next) post failed := by
  intro state before
  constructor
  · intro result after returned
    obtain ⟨value, middle, begun, rest⟩ := bind_eq_ok.mp returned
    exact (goesOn value middle ((begins state before).1 value middle begun)).1
      result after rest
  · intro fault after returned
    rcases bind_eq_error.mp returned with
      early | ⟨value, middle, begun, rest⟩
    · exact (begins state before).2 fault after early
    · exact
        (goesOn value middle ((begins state before).1 value middle begun)).2
          fault after rest

/-- A call that reads the state first, over each state it may read. -/
theorem read
    {next : σ → Call σ ε β}
    {post : β → σ → Prop}
    (goesOn :
      ∀ state, pre state →
        Triple (fun current => current = state) (next state) post failed) :
    Triple pre (Call.get >>= next) post failed := by
  apply bind fun state current => pre state ∧ current = state
  · exact get fun _ before => ⟨before, rfl⟩
  · rintro state current ⟨before, rfl⟩
    exact goesOn current before current rfl

/-- The same, where what is read need not be known to be the state. -/
theorem readAny
    {next : σ → Call σ ε β}
    {post : β → σ → Prop}
    (goesOn :
      ∀ state, pre state → Triple pre (next state) post failed) :
    Triple pre (Call.get >>= next) post failed := by
  apply read
  rintro state before _ rfl
  exact goesOn _ before _ before

/-- Going on with the value of a computation that does not touch the state. -/
theorem lift_bind
    {outcome : Outcome ε α}
    {next : α → Call σ ε β}
    {post : β → σ → Prop}
    (fails : ∀ state, pre state → failed state)
    (goesOn :
      ∀ value, outcome = .ok value → Triple pre (next value) post failed) :
    Triple pre (liftM outcome >>= next) post failed := by
  apply bind fun value state => outcome = .ok value ∧ pre state
  · exact lift (fun _ isValue _ before => ⟨isValue, before⟩) fails
  · rintro value state ⟨isValue, before⟩
    exact goesOn value isValue state before

theorem set_bind
    {after : σ}
    {next : Unit → Call σ ε β}
    {post : β → σ → Prop}
    {between : σ → Prop}
    (step : between after)
    (goesOn : Triple between (next ()) post failed) :
    Triple pre (Call.set after >>= next) post failed :=
  bind (fun _ => between) (set fun _ _ => step) fun _ => goesOn

theorem modify_bind
    {change : σ → σ}
    {next : Unit → Call σ ε β}
    {post : β → σ → Prop}
    {between : σ → Prop}
    (step : ∀ state, pre state → between (change state))
    (goesOn : Triple between (next ()) post failed) :
    Triple pre (Call.modify change >>= next) post failed :=
  bind (fun _ => between) (modify step) fun _ => goesOn

/-- A stronger precondition will do. -/
theorem weaken
    {call : Call σ ε α}
    {stronger : σ → Prop}
    {post : α → σ → Prop}
    (triple : Triple pre call post failed)
    (implies : ∀ state, stronger state → pre state) :
    Triple stronger call post failed :=
  fun state before => triple state (implies state before)

/-- A part of the precondition that is not about the state. -/
theorem given
    {call : Call σ ε α}
    {fact : Prop}
    {post : α → σ → Prop}
    (triple : fact → Triple pre call post failed) :
    Triple (fun state => fact ∧ pre state) call post failed :=
  fun state before => triple before.1 state before.2

/-- A fact about the first result is known behind it. -/
theorem bind_given
    {first : Call σ ε α}
    {next : α → Call σ ε β}
    {fact : α → Prop}
    {between : σ → Prop}
    {post : β → σ → Prop}
    (begins :
      Triple pre first (fun value state => fact value ∧ between state) failed)
    (goesOn :
      ∀ value, fact value → Triple between (next value) post failed) :
    Triple pre (first >>= next) post failed :=
  bind _ begins fun value => given (goesOn value)

end Triple

/-- An invariant of a call, whichever way it ends. -/
def Keeps (invariant : σ → Prop) (call : Call σ ε α) : Prop :=
  Triple invariant call (fun _ => invariant) invariant

namespace Keeps

variable {invariant : σ → Prop}

/-- However a call ends, but for a trap, its invariant holds. -/
theorem ends
    {call : Call σ ε α}
    {state after : σ}
    {result : Outcome ε α}
    (keeps : Keeps invariant call)
    (before : invariant state)
    (ran : call state = (result, after))
    (noTrap : result ≠ .trap) :
    invariant after := by
  cases result with
  | ok value => exact (keeps state before).1 value after ran
  | error fault => exact (keeps state before).2 fault after ran
  | trap => exact absurd rfl noTrap

theorem pure (value : α) :
    Keeps invariant (pure value : Call σ ε α) :=
  Triple.pure fun _ => id

/-- What does not touch the state keeps every invariant. -/
theorem lift (outcome : Outcome ε α) :
    Keeps invariant (liftM outcome : Call σ ε α) :=
  Triple.lift (fun _ _ _ => id) fun _ => id

theorem get : Keeps invariant (get : Call σ ε σ) :=
  Triple.get fun _ => id

theorem modify
    {change : σ → σ}
    (step : ∀ state, invariant state → invariant (change state)) :
    Keeps invariant (modify change : Call σ ε Unit) :=
  Triple.modify step

/-- Parts that keep an invariant make a sequence that does. -/
theorem bind
    {first : Call σ ε α}
    {next : α → Call σ ε β}
    (begins : Keeps invariant first)
    (goesOn : ∀ value, Keeps invariant (next value)) :
    Keeps invariant (first >>= next) :=
  Triple.bind _ begins goesOn

/-- A step keeps what it keeps when it returns. -/
theorem step
    {next : σ → Outcome ε (α × σ)}
    (goesOn :
      ∀ state value after,
        invariant state → next state = .ok (value, after) → invariant after) :
    Keeps invariant (Call.step next) := by
  intro state before
  unfold Call.step
  rcases shape : next state with ⟨value, between⟩ | fault | _
  · constructor
    · rintro _ _ ⟨⟩
      exact goesOn state value between before shape
    · rintro _ _ ⟨⟩
  · constructor
    · rintro _ _ ⟨⟩
    · rintro _ _ ⟨⟩
      exact before
  · constructor
    · rintro _ _ ⟨⟩
    · rintro _ _ ⟨⟩

/-- Changing the errors changes no state. -/
theorem mapError
    {φ : Type}
    {call : Call σ ε α}
    (change : ε → φ)
    (keeps : Keeps invariant call) :
    Keeps invariant (call.mapError change) := by
  intro state before
  rcases shape : call state with ⟨value | fault | _, after⟩
  · have held := (keeps state before).1 value after shape
    constructor
    · rintro _ _ ran
      simp only [mapError_apply, shape, Outcome.mapError_ok] at ran
      cases ran
      exact held
    · rintro _ _ ran
      simp [shape] at ran
  · have held := (keeps state before).2 fault after shape
    constructor
    · rintro _ _ ran
      simp [shape] at ran
    · rintro _ _ ran
      simp only [mapError_apply, shape, Outcome.mapError_error] at ran
      cases ran
      exact held
  · constructor
    · rintro _ _ ran
      simp [shape] at ran
    · rintro _ _ ran
      simp [shape] at ran

end Keeps

end Call

end Gossveil
