import Mathlib.Data.Set.Basic
import Mathlib.Order.BoundedOrder.Lattice

namespace Gossveil.Interleaving

/-!
# Routines that run in pieces

A routine reads and writes a store in pieces, and between two pieces of one
routine those of others may run.  Where no routine is called while one is going
that it could disturb, every run ends as if each routine had run in one piece,
in the order of the calls.
-/

/-- What is left of a routine: its answer, or the piece it goes on with. -/
inductive Routine (Store Answer : Type) where
  | done (answer : Answer)
  | piece (write : Store → Store) (next : Store → Routine Store Answer)

namespace Routine

variable {Store Answer : Type}

/-- The store after one piece. -/
def write : Routine Store Answer → Store → Store
  | .done _, store => store
  | .piece write _, store => write store

/-- What is left after one piece. -/
def next : Routine Store Answer → Store → Routine Store Answer
  | .done answer, _ => .done answer
  | .piece _ next, store => next store

/-- What a routine that is done has answered. -/
def answer : Routine Store Answer → Option Answer
  | .done answer => some answer
  | .piece _ _ => none

/-- All pieces, one right after the other. -/
def run : Routine Store Answer → Store → Store × Answer
  | .done answer, store => (store, answer)
  | .piece write next, store => (next store).run (write store)

/-- A routine that has ended stays as it is. -/
theorem answer_of_next
    (routine : Routine Store Answer)
    {store : Store}
    (going : (routine.next store).answer = none) :
    routine.answer = none := by
  cases routine with
  | done answer => exact going
  | piece write next => rfl

/-- Resuming a routine does not change where it ends. -/
theorem run_next
    (routine : Routine Store Answer)
    (store : Store) :
    (routine.next store).run (routine.write store) = routine.run store := by
  cases routine <;> rfl

/-- A routine, and what follows on its answer. -/
def bind {Next : Type} :
    Routine Store Answer →
    (Answer → Routine Store Next) →
    Routine Store Next
  | .done answer, follow => follow answer
  | .piece write next, follow =>
      .piece write fun store => (next store).bind follow

/-- A sequence of routines runs one behind the other. -/
theorem run_bind
    {Next : Type}
    (routine : Routine Store Answer)
    (follow : Answer → Routine Store Next)
    (store : Store) :
    (routine.bind follow).run store =
      (follow (routine.run store).2).run (routine.run store).1 := by
  induction routine generalizing store with
  | done answer => rfl
  | piece write next inductionHypothesis =>
      exact inductionHypothesis store (write store)

end Routine

/-! ## Footprints -/

/-- A store as cells, and a log that is added to and not read. -/
structure Layout (Store Cell : Type) (Value : Cell → Type) (Log : Type) where
  view : Store → (cell : Cell) → Value cell
  log : Store → Log
  ext :
    ∀ {store other : Store},
      (∀ cell, view store cell = view other cell) →
      log store = log other →
      store = other

variable
  {Store Cell Log Answer Request : Type}
  {Value : Cell → Type}
  [SemilatticeSup Log]

/-- Two stores with the same values in some cells. -/
def Layout.Agree
    (layout : Layout Store Cell Value Log)
    (cells : Set Cell)
    (store other : Store) :
    Prop :=
  ∀ cell ∈ cells, layout.view store cell = layout.view other cell

/-- A piece that looks at some cells only, and changes only some of them. -/
structure PieceWithin
    (layout : Layout Store Cell Value Log)
    (uses writes : Set Cell)
    (routine : Routine Store Answer) :
    Prop where
  kept :
    ∀ store cell,
      cell ∉ writes →
      layout.view (routine.write store) cell = layout.view store cell
  written :
    ∀ {store other},
      layout.Agree uses store other →
      layout.Agree writes (routine.write store) (routine.write other)
  followed :
    ∀ {store other},
      layout.Agree uses store other →
      routine.next store = routine.next other
  logged :
    ∀ store,
      ∃ added,
        ∀ other,
          layout.Agree uses store other →
          layout.log (routine.write other) = layout.log other ⊔ added

/-- A routine whose pieces all look at and change these cells only. -/
inductive Within
    (layout : Layout Store Cell Value Log)
    (uses writes : Set Cell) :
    Routine Store Answer →
    Prop
  | done (answer : Answer) : Within layout uses writes (.done answer)
  | piece
      {write : Store → Store}
      {next : Store → Routine Store Answer}
      (within : PieceWithin layout uses writes (.piece write next))
      (rest : ∀ store, Within layout uses writes (next store)) :
      Within layout uses writes (.piece write next)

namespace Within

variable
  {layout : Layout Store Cell Value Log}
  {uses writes : Set Cell}
  {routine : Routine Store Answer}

/-- A routine within bounds has a first piece within them. -/
theorem pieceWithin
    [OrderBot Log]
    (within : Within layout uses writes routine)
    (isPart : writes ⊆ uses) :
    PieceWithin layout uses writes routine := by
  cases within with
  | done answer =>
      exact
        { kept := fun _ _ _ => rfl
          written := fun agree cell member => agree cell (isPart member)
          followed := fun _ => rfl
          logged := fun _ => ⟨⊥, fun _ _ => (sup_bot_eq _).symm⟩ }
  | piece within rest => exact within

/-- What is left of a routine stays within the bounds. -/
theorem next
    (within : Within layout uses writes routine)
    (store : Store) :
    Within layout uses writes (routine.next store) := by
  cases within with
  | done answer => exact .done answer
  | piece within rest => exact rest store

/-- Where two stores agreed they still do after a piece. -/
theorem agree_write
    (within : PieceWithin layout uses writes routine)
    {store other : Store}
    (agree : layout.Agree uses store other) :
    layout.Agree uses (routine.write store) (routine.write other) := by
  intro cell member
  by_cases isWritten : cell ∈ writes
  · exact within.written agree cell isWritten
  · rw [within.kept store cell isWritten, within.kept other cell isWritten]
    exact agree cell member

/-- A routine leaves the cells it does not write. -/
theorem run_kept
    (within : Within layout uses writes routine)
    (store : Store)
    {cell : Cell}
    (notWritten : cell ∉ writes) :
    layout.view (routine.run store).1 cell = layout.view store cell := by
  induction within generalizing store with
  | done answer => rfl
  | @piece write next within rest inductionHypothesis =>
      have first : layout.view (write store) cell = layout.view store cell :=
        within.kept store cell notWritten
      exact (inductionHypothesis store (write store)).trans first

/--
On stores that agree on its cells a routine answers alike, and they still
agree.
-/
theorem run_agree
    (within : Within layout uses writes routine)
    {store other : Store}
    (agree : layout.Agree uses store other) :
    (routine.run store).2 = (routine.run other).2 ∧
      layout.Agree uses (routine.run store).1 (routine.run other).1 := by
  induction within generalizing store other with
  | done answer => exact ⟨rfl, agree⟩
  | @piece write next within rest inductionHypothesis =>
      have followed : next store = next other := within.followed agree
      have written : layout.Agree uses (write store) (write other) :=
        agree_write within agree
      change
        ((next store).run _).2 = ((next other).run _).2 ∧
          layout.Agree uses ((next store).run _).1 ((next other).run _).1
      rw [← followed]
      exact inductionHypothesis store written

/-- What a routine adds to the log depends on its cells only. -/
theorem run_logged
    [OrderBot Log]
    (within : Within layout uses writes routine)
    (store : Store) :
    ∃ added,
      ∀ other,
        layout.Agree uses store other →
        layout.log (routine.run other).1 = layout.log other ⊔ added := by
  induction within generalizing store with
  | done answer => exact ⟨⊥, fun _ _ => (sup_bot_eq _).symm⟩
  | @piece write next within rest inductionHypothesis =>
      obtain ⟨first, addsFirst⟩ := within.logged store
      obtain ⟨later, addsLater⟩ := inductionHypothesis store (write store)
      refine ⟨first ⊔ later, fun other agree => ?_⟩
      have followed : next store = next other := within.followed agree
      have begins : layout.log (write other) = layout.log other ⊔ first :=
        addsFirst other agree
      have ends := addsLater (write other) (agree_write within agree)
      change layout.log ((next other).run (write other)).1 = _
      rw [← followed, ends, begins, sup_assoc]

end Within

/-- Two routines within bounds make a sequence within them. -/
theorem Within.bind
    {layout : Layout Store Cell Value Log}
    {uses writes : Set Cell}
    {Next : Type}
    {routine : Routine Store Answer}
    {follow : Answer → Routine Store Next}
    (within : Within layout uses writes routine)
    (follows : ∀ answer, Within layout uses writes (follow answer)) :
    Within layout uses writes (routine.bind follow) := by
  induction within with
  | done answer => exact follows answer
  | @piece write next within rest inductionHypothesis =>
      refine .piece
        { kept := within.kept
          written := within.written
          followed := fun agree => ?_
          logged := within.logged } inductionHypothesis
      have followed : next _ = next _ := within.followed agree
      exact congrArg (Routine.bind · follow) followed

/-- A look at the cells of a footprint. -/
theorem Within.read
    [OrderBot Log]
    {layout : Layout Store Cell Value Log}
    {uses writes : Set Cell}
    (isPart : writes ⊆ uses)
    {look : Store → Answer}
    (looks :
      ∀ {store other},
        layout.Agree uses store other →
        look store = look other) :
    Within layout uses writes (.piece id fun store => .done (look store)) :=
  .piece
    { kept := fun _ _ _ => rfl
      written := fun agree cell member => agree cell (isPart member)
      followed := fun agree => congrArg Routine.done (looks agree)
      logged := fun _ => ⟨⊥, fun _ _ => (sup_bot_eq _).symm⟩ }
    fun _ => .done _

/-- One cell gets a new value; every other one is kept. -/
structure Sets
    (layout : Layout Store Cell Value Log)
    (cell : Cell)
    (change : Store → Store) :
    Prop where
  same :
    ∀ store other,
      layout.view (change store) cell = layout.view (change other) cell
  others :
    ∀ store other,
      other ≠ cell →
      layout.view (change store) other = layout.view store other
  log : ∀ store, layout.log (change store) = layout.log store

/-- A single write of a cell stays within the bounds. -/
theorem Within.set
    [OrderBot Log]
    {layout : Layout Store Cell Value Log}
    {uses writes : Set Cell}
    (isPart : writes ⊆ uses)
    {cell : Cell}
    {change : Store → Store}
    (sets : Sets layout cell change)
    (member : cell ∈ writes)
    (answer : Answer) :
    Within layout uses writes (.piece change fun _ => .done answer) := by
  refine .piece
    { kept := fun store other notWritten => ?_
      written := fun {store other} agree written isWritten => ?_
      followed := fun _ => rfl
      logged := fun _ => ⟨⊥, fun other _ => ?_⟩ }
    fun _ => .done _
  · exact sets.others store other fun same => notWritten (same ▸ member)
  · change
      layout.view (change store) written = layout.view (change other) written
    by_cases same : written = cell
    · rw [same]
      exact sets.same store other
    · rw [sets.others store written same, sets.others other written same]
      exact agree written (isPart isWritten)
  · rw [sup_bot_eq]
    exact sets.log other

/-- Something is added to the log. -/
theorem Within.mark
    {layout : Layout Store Cell Value Log}
    {uses writes : Set Cell}
    (isPart : writes ⊆ uses)
    {change : Store → Store}
    {added : Log}
    (keeps :
      ∀ store cell,
        layout.view (change store) cell = layout.view store cell)
    (adds : ∀ store, layout.log (change store) = layout.log store ⊔ added)
    (answer : Answer) :
    Within layout uses writes (.piece change fun _ => .done answer) :=
  .piece
    { kept := fun store cell _ => keeps store cell
      written := fun {store other} agree cell member =>
        (keeps store cell).trans
          ((agree cell (isPart member)).trans (keeps other cell).symm)
      followed := fun _ => rfl
      logged := fun _ => ⟨added, fun other _ => adds other⟩ }
    fun _ => .done _

/-- Neither of two footprints changes what the other one looks at. -/
structure Apart (uses writes otherUses otherWrites : Set Cell) : Prop where
  here : ∀ cell ∈ writes, cell ∉ otherUses
  there : ∀ cell ∈ otherWrites, cell ∉ uses

/-- A piece can be run after a whole routine that it does not disturb. -/
theorem run_write_comm
    [OrderBot Log]
    {layout : Layout Store Cell Value Log}
    {uses writes otherUses otherWrites : Set Cell}
    {routine other : Routine Store Answer}
    (within : PieceWithin layout uses writes routine)
    (otherWithin : Within layout otherUses otherWrites other)
    (isPart : writes ⊆ uses)
    (otherIsPart : otherWrites ⊆ otherUses)
    (apart : Apart uses writes otherUses otherWrites)
    (store : Store) :
    other.run (routine.write store) =
        (routine.write (other.run store).1, (other.run store).2) ∧
      routine.next (other.run store).1 = routine.next store := by
  have beforeOther :
      layout.Agree otherUses store (routine.write store) := by
    intro cell member
    exact (within.kept store cell
      fun isWritten => apart.here cell isWritten member).symm
  have afterOther : layout.Agree uses store (other.run store).1 := by
    intro cell member
    exact (otherWithin.run_kept store
      fun isWritten => apart.there cell isWritten member).symm
  obtain ⟨answers, others⟩ := otherWithin.run_agree beforeOther
  refine ⟨Prod.ext (layout.ext (fun cell => ?_) ?_) answers.symm,
    (within.followed afterOther).symm⟩
  · by_cases isWritten : cell ∈ writes
    · have notOther : cell ∉ otherWrites :=
        fun isOther => apart.there cell isOther (isPart isWritten)
      rw [otherWithin.run_kept _ notOther]
      exact within.written afterOther cell isWritten
    · rw [within.kept _ cell isWritten]
      by_cases isOther : cell ∈ otherWrites
      · exact (others cell (otherIsPart isOther)).symm
      · rw [otherWithin.run_kept _ isOther, otherWithin.run_kept _ isOther,
          within.kept _ cell isWritten]
  · obtain ⟨added, adds⟩ := within.logged store
    obtain ⟨otherAdded, otherAdds⟩ := otherWithin.run_logged store
    have itself : layout.log (routine.write store) = layout.log store ⊔ added :=
      adds store fun _ _ => rfl
    have otherItself :
        layout.log (other.run store).1 = layout.log store ⊔ otherAdded :=
      otherAdds store fun _ _ => rfl
    rw [otherAdds _ beforeOther, itself, adds _ afterOther, otherItself,
      sup_right_comm]

/-! ## Runs -/

/-- The routines by what is asked for, each with a footprint. -/
structure Service
    (layout : Layout Store Cell Value Log)
    (Request Answer : Type) where
  routine : Request → Routine Store Answer
  uses : Request → Set Cell
  writes : Request → Set Cell
  isPart : ∀ request, writes request ⊆ uses request
  within :
    ∀ request,
      Within layout (uses request) (writes request) (routine request)

/-- A routine is called and runs its first piece, or it is resumed. -/
inductive Turn (Request : Type) where
  | call (request : Request)
  | resume (index : Nat)

/-- What was asked for, in order. -/
def called (turns : List (Turn Request)) : List Request :=
  turns.filterMap fun turn =>
    match turn with
    | .call request => some request
    | .resume _ => none

/-- The routines one after the other, each in one piece. -/
def serially : List (Routine Store Answer) → Store → Store × List Answer
  | [], store => (store, [])
  | routine :: rest, store =>
      let (store, answer) := routine.run store
      let (store, answers) := serially rest store
      (store, answer :: answers)

/-- The store, and the calls in their order with what is left of each. -/
structure Going (Store Request Answer : Type) where
  store : Store
  calls : List (Request × Routine Store Answer)

namespace Going

/-- A store on which no call has begun. -/
def start (store : Store) : Going Store Request Answer :=
  ⟨store, []⟩

/-- One piece of a call. -/
def resume
    (going : Going Store Request Answer)
    (index : Nat) :
    Going Store Request Answer :=
  match going.calls[index]? with
  | none => going
  | some (request, routine) =>
      ⟨routine.write going.store,
        going.calls.set index (request, routine.next going.store)⟩

/--
One turn: a new call runs its first piece, or a call that has begun runs its
next.
-/
def step
    {layout : Layout Store Cell Value Log}
    (service : Service layout Request Answer)
    (going : Going Store Request Answer) :
    Turn Request →
    Going Store Request Answer
  | .call request =>
      resume
        ⟨going.store, going.calls ++ [(request, service.routine request)]⟩
        going.calls.length
  | .resume index => going.resume index

/-- The turns one after the other. -/
def run
    {layout : Layout Store Cell Value Log}
    (service : Service layout Request Answer)
    (going : Going Store Request Answer)
    (turns : List (Turn Request)) :
    Going Store Request Answer :=
  turns.foldl (step service) going

/-- The answers, once every call has ended. -/
def answers (going : Going Store Request Answer) : Option (List Answer) :=
  going.calls.mapM fun call => call.2.answer

end Going

namespace Service

variable {layout : Layout Store Cell Value Log}

/-- Two requests whose routines do not disturb one another. -/
def Apart
    (service : Service layout Request Answer)
    (request other : Request) :
    Prop :=
  Interleaving.Apart (service.uses request) (service.writes request)
    (service.uses other) (service.writes other)

/-- What is called is apart from every call that is still going. -/
def Admits
    (service : Service layout Request Answer)
    (going : Going Store Request Answer) :
    Turn Request →
    Prop
  | .call request =>
      ∀ call ∈ going.calls,
        call.2.answer = none →
        service.Apart call.1 request
  | .resume _ => True

/-- A run in which each call is admitted when it is made. -/
def AdmitsAll
    (service : Service layout Request Answer)
    (going : Going Store Request Answer) :
    List (Turn Request) →
    Prop
  | [] => True
  | turn :: turns =>
      service.Admits going turn ∧
        service.AdmitsAll (going.step service turn) turns

end Service

/-! ## Every run that admits its calls is serial -/

/-- Routines run one after another split anywhere. -/
theorem serially_append
    (routines others : List (Routine Store Answer))
    (store : Store) :
    serially (routines ++ others) store =
      ((serially others (serially routines store).1).1,
        (serially routines store).2 ++
          (serially others (serially routines store).1).2) := by
  induction routines generalizing store with
  | nil => rfl
  | cons routine rest inductionHypothesis =>
      simp only [List.cons_append, serially, inductionHypothesis]

namespace Going

/-- What a run comes to when what is left is run call by call. -/
def ended (going : Going Store Request Answer) : Store × List Answer :=
  serially (going.calls.map Prod.snd) going.store

/-- Calls that have all answered have ended. -/
theorem ended_of_answers
    {calls : List (Request × Routine Store Answer)}
    {store : Store}
    {answers : List Answer}
    (isEnd : (Going.mk store calls).answers = some answers) :
    (Going.mk store calls).ended = (store, answers) := by
  induction calls generalizing answers with
  | nil =>
      cases isEnd
      rfl
  | cons call calls inductionHypothesis =>
      obtain ⟨request, routine⟩ := call
      simp only [Going.answers, List.mapM_cons, Option.bind_eq_bind,
        Option.bind_eq_some_iff] at isEnd
      obtain ⟨answer, isAnswer, others, areOthers, ⟨⟩⟩ := isEnd
      cases routine with
      | piece write next => cases isAnswer
      | done last =>
          cases isAnswer
          have rest := inductionHypothesis areOthers
          simp only [ended, List.map_cons, serially, Routine.run] at rest ⊢
          rw [rest]

end Going

section Runs

variable
  {layout : Layout Store Cell Value Log}
  [OrderBot Log]
  {service : Service layout Request Answer}
  {going : Going Store Request Answer}

/-- What is left of every call is within its footprint; no two disturb one another. -/
structure Service.Keeps
    (service : Service layout Request Answer)
    (going : Going Store Request Answer) :
    Prop where
  within :
    ∀ call ∈ going.calls,
      Within layout (service.uses call.1) (service.writes call.1) call.2
  apart :
    going.calls.Pairwise fun call other =>
      call.2.answer = none →
      other.2.answer = none →
      service.Apart call.1 other.1

/-- One piece of a call may as well be run when its turn comes. -/
theorem serially_resume
    {before after : List (Request × Routine Store Answer)}
    {request : Request}
    {routine : Routine Store Answer}
    (within :
      ∀ call ∈ before,
        Within layout (service.uses call.1) (service.writes call.1) call.2)
    (itself :
      Within layout (service.uses request) (service.writes request) routine)
    (apart :
      ∀ call ∈ before,
        call.2.answer = none →
        routine.answer = none →
        service.Apart call.1 request)
    (store : Store) :
    serially
        ((before ++ (request, routine.next store) :: after).map Prod.snd)
        (routine.write store) =
      serially ((before ++ (request, routine) :: after).map Prod.snd)
        store := by
  induction before generalizing store with
  | nil => simp only [List.nil_append, List.map_cons, serially,
      routine.run_next store]
  | cons call before inductionHypothesis =>
      obtain ⟨otherRequest, other⟩ := call
      rw [List.forall_mem_cons] at within apart
      have comm :
          other.run (routine.write store) =
              (routine.write (other.run store).1, (other.run store).2) ∧
            routine.next (other.run store).1 = routine.next store := by
        cases routine with
        | done answer => exact ⟨rfl, rfl⟩
        | piece write next =>
            cases other with
            | done answer => exact ⟨rfl, rfl⟩
            | piece otherWrite otherNext =>
                have fits := apart.1 rfl rfl
                exact run_write_comm
                  (itself.pieceWithin (service.isPart request))
                  within.1 (service.isPart request)
                  (service.isPart otherRequest) ⟨fits.there, fits.here⟩ store
      have rest :=
        inductionHypothesis within.2 apart.2 (other.run store).1
      rw [comm.2] at rest
      simp only [List.cons_append, List.map_cons, serially, comm.1, rest]

/-- Resuming any call keeps the state serial, and where it ends. -/
theorem Service.Keeps.resume
    (keeps : service.Keeps going)
    (index : Nat) :
    service.Keeps (going.resume index) ∧
      (going.resume index).ended = going.ended := by
  unfold Going.resume
  split
  next => exact ⟨keeps, rfl⟩
  next request routine isCall =>
    obtain ⟨inRange, isAt⟩ := List.getElem?_eq_some_iff.mp isCall
    obtain ⟨store, calls⟩ := going
    have parts :
        calls =
          calls.take index ++ (request, routine) :: calls.drop (index + 1) := by
      rw [← isAt, List.getElem_cons_drop, List.take_append_drop]
    have changed (call : Request × Routine Store Answer) :
        calls.set index call =
          calls.take index ++ call :: calls.drop (index + 1) :=
      List.set_eq_take_append_cons_drop.trans (if_pos inRange)
    obtain ⟨within, apart⟩ := keeps
    simp only [changed] at *
    generalize calls.take index = before at *
    generalize calls.drop (index + 1) = after at *
    subst parts
    simp only [List.forall_mem_append, List.forall_mem_cons] at within
    simp only [List.pairwise_append, List.pairwise_cons,
      List.forall_mem_cons] at apart
    obtain ⟨withinBefore, itself, withinAfter⟩ := within
    obtain ⟨apartBefore, ⟨apartHere, apartAfter⟩, apartAcross⟩ := apart
    refine ⟨⟨?_, ?_⟩, ?_⟩
    · simp only [List.forall_mem_append, List.forall_mem_cons]
      exact ⟨withinBefore, itself.next store, withinAfter⟩
    · simp only [List.pairwise_append, List.pairwise_cons,
        List.forall_mem_cons]
      refine ⟨apartBefore, ⟨fun call member here there => ?_, apartAfter⟩,
        fun call member => ⟨fun there here => ?_, (apartAcross call member).2⟩⟩
      · exact apartHere call member (routine.answer_of_next here) there
      · exact (apartAcross call member).1 there (routine.answer_of_next here)
    · exact serially_resume withinBefore itself
        (fun call member => (apartAcross call member).1) store

/-- A call that is admitted comes last. -/
theorem Service.Keeps.call
    (keeps : service.Keeps going)
    {request : Request}
    (admits : service.Admits going (.call request)) :
    service.Keeps (going.step service (.call request)) ∧
      (going.step service (.call request)).ended =
        ((((service.routine request).run going.ended.1).1,
          going.ended.2 ++
            [((service.routine request).run going.ended.1).2])) := by
  let joined : Going Store Request Answer :=
    ⟨going.store, going.calls ++ [(request, service.routine request)]⟩
  have joins : service.Keeps joined := by
    refine ⟨?_, ?_⟩
    · simp only [joined, List.forall_mem_append, List.forall_mem_singleton]
      exact ⟨keeps.within, service.within request⟩
    · simp only [joined, List.pairwise_append, List.forall_mem_singleton]
      exact ⟨keeps.apart, List.pairwise_singleton _ _,
        fun call member here _ => admits call member here⟩
  obtain ⟨kept, same⟩ := joins.resume going.calls.length
  refine ⟨kept, same.trans ?_⟩
  simp only [joined, Going.ended, List.map_append, List.map_cons, List.map_nil,
    serially_append, serially]

/-! ## What a call answers, whatever runs in between -/

/-- A routine whose answer satisfies a predicate on every store it may meet. -/
inductive Routine.Always (holds : Answer → Prop) : Routine Store Answer → Prop
  | done {answer : Answer} (here : holds answer) : Always holds (.done answer)
  | piece
      {write : Store → Store}
      {next : Store → Routine Store Answer}
      (rest : ∀ store, Always holds (next store)) :
      Always holds (.piece write next)

namespace Routine.Always

variable {holds : Answer → Prop} {routine : Routine Store Answer}

/-- What every end satisfies the ends of the rest satisfy. -/
theorem next
    (always : routine.Always holds)
    (store : Store) :
    (routine.next store).Always holds := by
  cases always with
  | done here => exact .done here
  | piece rest => exact rest store

/-- An answer given is one of the ends. -/
theorem answer
    (always : routine.Always holds)
    {answer : Answer}
    (isAnswer : routine.answer = some answer) :
    holds answer := by
  cases always with
  | done here =>
      cases isAnswer
      exact here
  | piece rest => cases isAnswer

/-- The ends of a sequence are the ends of what follows. -/
theorem bind
    {Next : Type}
    {holdsNext : Next → Prop}
    {follow : Answer → Routine Store Next}
    (always : routine.Always holds)
    (follows : ∀ answer, holds answer → (follow answer).Always holdsNext) :
    (routine.bind follow).Always holdsNext := by
  induction always with
  | done here => exact follows _ here
  | piece rest inductionHypothesis => exact .piece inductionHypothesis

end Routine.Always

namespace Going

variable {holds : Answer → Prop} {request : Request}

/-- The call at a place stays there, and what it will answer still holds. -/
theorem resume_always
    {going : Going Store Request Answer}
    {place : Nat}
    {routine : Routine Store Answer}
    (isCall : going.calls[place]? = some (request, routine))
    (always : routine.Always holds)
    (index : Nat) :
    ∃ rest,
      (going.resume index).calls[place]? = some (request, rest) ∧
        rest.Always holds := by
  unfold resume
  split
  next => exact ⟨routine, isCall, always⟩
  next other otherRoutine isOther =>
    by_cases here : index = place
    · subst here
      obtain ⟨rfl, rfl⟩ :=
        Prod.mk.inj (Option.some.inj (isOther.symm.trans isCall))
      obtain ⟨inRange, _⟩ := List.getElem?_eq_some_iff.mp isCall
      refine ⟨_, List.getElem?_set_self inRange, always.next _⟩
    · exact ⟨routine, (List.getElem?_set_ne here).trans isCall, always⟩

omit [OrderBot Log] in
/-- A call keeps what its ends satisfy, whatever runs between its pieces. -/
theorem run_always
    {layout : Layout Store Cell Value Log}
    {service : Service layout Request Answer}
    {going : Going Store Request Answer}
    {place : Nat}
    {routine : Routine Store Answer}
    (isCall : going.calls[place]? = some (request, routine))
    (always : routine.Always holds)
    (turns : List (Turn Request)) :
    ∃ rest,
      (going.run service turns).calls[place]? = some (request, rest) ∧
        rest.Always holds := by
  induction turns generalizing going routine with
  | nil => exact ⟨routine, isCall, always⟩
  | cons turn turns inductionHypothesis =>
      cases turn with
      | resume index =>
          obtain ⟨rest, stays, still⟩ := resume_always isCall always index
          exact inductionHypothesis stays still
      | call other =>
          have joined :
              (going.calls ++ [(other, service.routine other)])[place]? =
                some (request, routine) :=
            List.getElem?_append_left (List.getElem?_eq_some_iff.mp isCall).1
              |>.trans isCall
          obtain ⟨rest, stays, still⟩ :=
            @resume_always _ _ _ _ _ ⟨going.store, _⟩ _ _ joined always
              going.calls.length
          exact inductionHypothesis stays still

omit [OrderBot Log] in
/-- A call comes last; its first piece has run. -/
theorem call_calls
    {layout : Layout Store Cell Value Log}
    {service : Service layout Request Answer}
    (going : Going Store Request Answer)
    (request : Request) :
    going.step service (.call request) =
      ⟨(service.routine request).write going.store,
        going.calls ++
          [(request, (service.routine request).next going.store)]⟩ := by
  simp [step, resume]

end Going

/-! ## What calls keep to while a store has an invariant -/

/--
On stores with an invariant the pieces of a routine take allowed steps only,
and its answer satisfies a predicate.
-/
inductive Routine.Relies
    (invariant : Store → Prop)
    (allowed : Store → Store → Prop)
    (holds : Answer → Prop) :
    Routine Store Answer →
    Prop
  | done {answer : Answer} (here : holds answer) :
      Relies invariant allowed holds (.done answer)
  | piece
      {write : Store → Store}
      {next : Store → Routine Store Answer}
      (moves : ∀ store, invariant store → allowed store (write store))
      (rest :
        ∀ store, invariant store → Relies invariant allowed holds (next store)) :
      Relies invariant allowed holds (.piece write next)

namespace Routine.Relies

variable
  {invariant : Store → Prop}
  {allowed : Store → Store → Prop}
  {holds : Answer → Prop}
  {routine : Routine Store Answer}
  {store : Store}

/-- A piece takes an allowed step; a routine that is done takes none. -/
theorem write
    (relies : routine.Relies invariant allowed holds)
    (stays : allowed store store)
    (isInvariant : invariant store) :
    allowed store (routine.write store) := by
  cases relies with
  | done here => exact stays
  | piece moves rest => exact moves store isInvariant

/-- What a routine relies on its rest relies on. -/
theorem next
    (relies : routine.Relies invariant allowed holds)
    (isInvariant : invariant store) :
    (routine.next store).Relies invariant allowed holds := by
  cases relies with
  | done here => exact .done here
  | piece moves rest => exact rest store isInvariant

/-- An answer given satisfies what is promised. -/
theorem answer
    (relies : routine.Relies invariant allowed holds)
    {answer : Answer}
    (isAnswer : routine.answer = some answer) :
    holds answer := by
  cases relies with
  | done here =>
      cases isAnswer
      exact here
  | piece moves rest => cases isAnswer

/-- A sequence relies on what its parts do. -/
theorem bind
    {Next : Type}
    {holdsNext : Next → Prop}
    {follow : Answer → Routine Store Next}
    (relies : routine.Relies invariant allowed holds)
    (follows :
      ∀ answer,
        holds answer →
        (follow answer).Relies invariant allowed holdsNext) :
    (routine.bind follow).Relies invariant allowed holdsNext := by
  induction relies with
  | done here => exact follows _ here
  | piece moves rest inductionHypothesis =>
      exact .piece moves inductionHypothesis

/-- An invariant that says more, and steps and answers that say less. -/
theorem mono
    {stronger : Store → Prop}
    {permitted : Store → Store → Prop}
    {weaker : Answer → Prop}
    (relies : routine.Relies invariant allowed holds)
    (implies : ∀ store, stronger store → invariant store)
    (permits :
      ∀ store after,
        stronger store →
        allowed store after →
        permitted store after)
    (follows : ∀ answer, holds answer → weaker answer) :
    routine.Relies stronger permitted weaker := by
  induction relies with
  | done here => exact .done (follows _ here)
  | piece moves rest inductionHypothesis =>
      refine .piece (fun store isStronger => ?_) fun store isStronger =>
        inductionHypothesis store (implies store isStronger)
      exact permits store _ isStronger (moves store (implies store isStronger))

end Routine.Relies

omit [OrderBot Log] in
/-- A routine keeps the values of the cells it does not change. -/
theorem Within.relies
    {layout : Layout Store Cell Value Log}
    {uses writes : Set Cell}
    {routine : Routine Store Answer}
    (within : Within layout uses writes routine)
    {cell : Cell}
    (notWritten : cell ∉ writes)
    (value : Value cell) :
    routine.Relies (fun _ => True)
      (fun store after =>
        layout.view store cell = value → layout.view after cell = value)
      (fun _ => True) := by
  induction within with
  | done answer => exact .done trivial
  | @piece write next within rest inductionHypothesis =>
      refine .piece (fun store _ isValue => ?_) fun store _ =>
        inductionHypothesis store
      have kept : layout.view (write store) cell = layout.view store cell :=
        within.kept store cell notWritten
      exact kept.trans isValue

namespace Going

variable
  {invariant : Store → Prop}
  {kept : Nat → Request → Routine Store Answer → Prop}

/-- The store has an invariant, and so has what is left of each call. -/
structure Relying
    (invariant : Store → Prop)
    (kept : Nat → Request → Routine Store Answer → Prop)
    (going : Going Store Request Answer) :
    Prop where
  store : invariant going.store
  calls :
    ∀ {place request routine},
      going.calls[place]? = some (request, routine) →
      kept place request routine

/-- Every piece keeps the invariants. -/
def Moves
    (invariant : Store → Prop)
    (kept : Nat → Request → Routine Store Answer → Prop) :
    Prop :=
  ∀ {place request routine store},
    kept place request routine →
    invariant store →
    invariant (routine.write store) ∧
      kept place request (routine.next store)

omit [SemilatticeSup Log] [OrderBot Log] in
/-- Resuming any call keeps the invariant. -/
theorem Relying.resume
    {going : Going Store Request Answer}
    (relying : going.Relying invariant kept)
    (moves : Moves invariant kept)
    (index : Nat) :
    (going.resume index).Relying invariant kept := by
  unfold Going.resume
  split
  next => exact relying
  next request routine isCall =>
    obtain ⟨inRange, _⟩ := List.getElem?_eq_some_iff.mp isCall
    obtain ⟨stays, still⟩ := moves (relying.calls isCall) relying.store
    refine ⟨stays, fun {place other left} isOther => ?_⟩
    by_cases here : index = place
    · subst here
      rw [List.getElem?_set_self inRange] at isOther
      obtain ⟨rfl, rfl⟩ := Prod.mk.inj (Option.some.inj isOther)
      exact still
    · rw [List.getElem?_set_ne here] at isOther
      exact relying.calls isOther

omit [SemilatticeSup Log] [OrderBot Log] in
@[simp] theorem length_resume
    (going : Going Store Request Answer)
    (index : Nat) :
    (going.resume index).calls.length = going.calls.length := by
  unfold resume
  split <;> simp

omit [OrderBot Log] in
/-- An invariant that every call joins with its first piece holds of a run. -/
theorem Relying.run
    {layout : Layout Store Cell Value Log}
    {service : Service layout Request Answer}
    {going : Going Store Request Answer}
    {turns : List (Turn Request)}
    {earlier : Nat}
    (relying : going.Relying invariant kept)
    (moves : Moves invariant kept)
    (isEarlier : earlier ≤ going.calls.length)
    (joins :
      ∀ request ∈ called turns,
        ∀ place store,
          earlier ≤ place →
          invariant store →
          invariant ((service.routine request).write store) ∧
            kept place request ((service.routine request).next store)) :
    (going.run service turns).Relying invariant kept := by
  induction turns generalizing going with
  | nil => exact relying
  | cons turn turns inductionHypothesis =>
      cases turn with
      | resume index =>
          have resumed : (going.resume index).Relying invariant kept :=
            relying.resume moves index
          exact inductionHypothesis resumed
            (isEarlier.trans_eq (length_resume going index).symm) joins
      | call request =>
          obtain ⟨stays, joined⟩ :=
            joins request (by simp [called]) going.calls.length going.store
              isEarlier relying.store
          have next :
              (going.step service (.call request)).Relying invariant kept := by
            rw [call_calls]
            refine ⟨stays, fun {place other left} isOther => ?_⟩
            rcases Nat.lt_or_ge place going.calls.length with before | behind
            · rw [List.getElem?_append_left before] at isOther
              exact relying.calls isOther
            · obtain ⟨inRange, isLast⟩ :=
                List.getElem?_eq_some_iff.mp isOther
              obtain rfl : place = going.calls.length := by
                simp only [List.length_append, List.length_singleton] at inRange
                omega
              rw [List.getElem?_concat_length] at isOther
              obtain ⟨rfl, rfl⟩ := Prod.mk.inj (Option.some.inj isOther)
              exact joined
          refine inductionHypothesis next ?_ fun other isCalled =>
            joins other (by
              rw [called, List.filterMap_cons]
              exact List.mem_cons_of_mem _ isCalled)
          rw [call_calls, List.length_append]
          exact Nat.le_add_right_of_le isEarlier

end Going

/-! ## Every run can be brought to its end -/

namespace Going

/-- Resumes calls in this order. -/
def resumeAll
    (going : Going Store Request Answer)
    (indices : List Nat) :
    Going Store Request Answer :=
  indices.foldl resume going

omit [SemilatticeSup Log] [OrderBot Log] in
/-- A call ends after some of its pieces. -/
theorem exists_resumed
    (before after : List (Request × Routine Store Answer))
    (request : Request)
    (routine : Routine Store Answer)
    (store : Store) :
    ∃ indices left answer,
      resumeAll ⟨store, before ++ (request, routine) :: after⟩ indices =
        ⟨left, before ++ (request, .done answer) :: after⟩ := by
  induction routine generalizing store with
  | done answer => exact ⟨[], store, answer, rfl⟩
  | piece write next inductionHypothesis =>
      obtain ⟨indices, left, answer, rest⟩ :=
        inductionHypothesis store (write store)
      refine ⟨before.length :: indices, left, answer, ?_⟩
      have first :
          resume ⟨store, before ++ (request, .piece write next) :: after⟩
              before.length =
            ⟨write store, before ++ (request, next store) :: after⟩ := by
        simp [resume, Routine.write, Routine.next]
      rw [resumeAll, List.foldl_cons, first]
      exact rest

/--
Calls can be resumed until all have answered, whatever stands before them.
-/
theorem exists_end_behind
    (before calls : List (Request × Routine Store Answer))
    (store : Store)
    {answers : List Answer}
    (ended : before.mapM (fun call => call.2.answer) = some answers) :
    ∃ indices answers,
      (resumeAll ⟨store, before ++ calls⟩ indices).answers = some answers := by
  induction calls generalizing before store answers with
  | nil =>
      rw [List.append_nil]
      exact ⟨[], answers, ended⟩
  | cons call calls inductionHypothesis =>
      obtain ⟨request, routine⟩ := call
      obtain ⟨first, left, answer, resumed⟩ :=
        exists_resumed before calls request routine store
      have joined :
          (before ++ [(request, Routine.done answer)]).mapM
              (fun call : Request × Routine Store Answer => call.2.answer) =
            some (answers ++ [answer]) := by
        rw [List.mapM_append, ended]
        rfl
      obtain ⟨rest, all, isEnd⟩ := inductionHypothesis _ left joined
      refine ⟨first ++ rest, all, ?_⟩
      rw [resumeAll, List.foldl_append]
      change ((resumeAll _ first).resumeAll rest).answers = _
      rw [resumed, List.append_cons]
      exact isEnd

/-- All calls end when they are resumed often enough. -/
theorem exists_end (going : Going Store Request Answer) :
    ∃ indices answers, (going.resumeAll indices).answers = some answers :=
  exists_end_behind [] going.calls going.store rfl

end Going

/-- Until it ends a run is the serial one of the calls made so far. -/
def Service.Serial
    (service : Service layout Request Answer)
    (store : Store)
    (going : Going Store Request Answer)
    (requests : List Request) :
    Prop :=
  service.Keeps going ∧
    going.ended = serially (requests.map service.routine) store

/-- Every run stays serial, with the requests in the order they came. -/
theorem Service.Serial.run
    {store : Store}
    {requests : List Request}
    {turns : List (Turn Request)}
    (serial : service.Serial store going requests)
    (admits : service.AdmitsAll going turns) :
    service.Serial store (going.run service turns)
      (requests ++ called turns) := by
  induction turns generalizing going requests with
  | nil =>
      rw [called, List.filterMap_nil, List.append_nil]
      exact serial
  | cons turn turns inductionHypothesis =>
      obtain ⟨first, rest⟩ := admits
      obtain ⟨keeps, same⟩ := serial
      cases turn with
      | resume index =>
          obtain ⟨kept, stays⟩ := keeps.resume index
          exact inductionHypothesis ⟨kept, stays.trans same⟩ rest
      | call request =>
          obtain ⟨kept, adds⟩ := keeps.call first
          have next :
              service.Serial store (going.step service (.call request))
                (requests ++ [request]) := by
            refine ⟨kept, adds.trans ?_⟩
            rw [List.map_append, serially_append, same]
            rfl
          have ended := inductionHypothesis next rest
          rw [List.append_assoc] at ended
          exact ended

/--
Where every call is admitted when it is made, a run in which all calls have
ended leaves the store, and gives the answers, of the calls made one after the
other.
-/
theorem Service.run_serial
    (service : Service layout Request Answer)
    {store : Store}
    {turns : List (Turn Request)}
    {answers : List Answer}
    (admits : service.AdmitsAll (.start store) turns)
    (isEnd : ((Going.start store).run service turns).answers = some answers) :
    (((Going.start store).run service turns).store, answers) =
      serially ((called turns).map service.routine) store := by
  have begins : service.Serial store (Going.start store) [] :=
    ⟨⟨List.forall_mem_nil _, .nil⟩, rfl⟩
  obtain ⟨_, same⟩ := begins.run admits
  have ended : ((Going.start store).run service turns).ended = _ :=
    Going.ended_of_answers isEnd
  exact ended.symm.trans same

end Runs

end Gossveil.Interleaving
