import Gossveil.AbiCells

namespace Gossveil.Abi

open Ratchet

/-!
# Calls over the engine

A call with the engine's operations in place of its computations performs the
steps of its entry: each operation ends as one of the attempts, and what it
produces are the bytes of a cell.  What is known of the steps is then known of
the call.
-/

/-! ## Performing steps -/

/-- The computations of a call, with the end of one more before them. -/
def Answers.after
    (outcome : Outcome AbiError Unit)
    (answers : Answers) :
    Answers where
  outcome
    | 0 => outcome
    | number + 1 => answers.outcome number
  data := answers.data
  allocates := answers.allocates

/-- The same computations, with other bytes for one cell. -/
def Answers.filling (cell : Cell) (data : Bytes) (answers : Answers) : Answers :=
  { answers with data := Function.update answers.data cell data }

/-- A computation in front does not change what comes after it. -/
theorem perform_after
    (outcome : Outcome AbiError Unit)
    (answers : Answers)
    (number : Nat)
    (steps : List Step) :
    perform (answers.after outcome) (number + 1) steps =
      perform answers number steps := by
  induction steps generalizing number with
  | nil => rfl
  | cons step rest inductionHypothesis =>
      cases step with
      | attempt part =>
          simp only [perform, inductionHypothesis]
          rfl
      | give cell =>
          simp only [perform, inductionHypothesis]
          rfl

/-- Steps that do not fill a cell do not read its bytes. -/
theorem perform_filling
    {cell : Cell}
    {steps : List Step}
    (notFilled : .give cell ∉ steps)
    (data : Bytes)
    (answers : Answers)
    (number : Nat) :
    perform (answers.filling cell data) number steps =
      perform answers number steps := by
  induction steps generalizing number with
  | nil => rfl
  | cons step rest inductionHypothesis =>
      obtain ⟨notFirst, notLater⟩ := not_or.mp (List.mem_cons.not.mp notFilled)
      cases step with
      | attempt part =>
          simp only [perform, inductionHypothesis notLater]
          rfl
      | give other =>
          have different : other ≠ cell := fun same => notFirst (same ▸ rfl)
          simp only [perform, inductionHypothesis notLater]
          simp only [Answers.filling, Function.update_of_ne different]

/--
The call is the run of these steps with some ends of their computations and
some bytes for their cells.  What it returns besides is left out.
-/
def Performs
    {α : Type}
    (allocates : Cell → Bool)
    (steps : List Step)
    (call : Call Handed AbiError α) :
    Prop :=
  ∃ answers : Answers,
    answers.allocates = allocates ∧
      (call >>= fun _ => pure ()) = perform answers 0 steps

namespace Performs

variable {α β : Type}
variable {allocates : Cell → Bool}
variable {rest : List Step}

/-- A call that returns at once has no steps. -/
theorem done (value : α) :
    Performs allocates [] (pure value : Call Handed AbiError α) :=
  ⟨⟨fun _ => .ok (), fun _ => [], allocates⟩, rfl, rfl⟩

/-- A computation that always succeeds is an attempt without a trace. -/
theorem silent
    {part : Part}
    {call : Call Handed AbiError α}
    (performs : Performs allocates rest call) :
    Performs allocates (.attempt part :: rest) call := by
  obtain ⟨answers, same, runs⟩ := performs
  refine ⟨answers.after (.ok ()), same, ?_⟩
  rw [runs, ← perform_after (.ok ())]
  rfl

/-- A computation in front is one attempt, however it ends. -/
theorem attempt
    {part : Part}
    {outcome : Outcome AbiError β}
    {next : β → Call Handed AbiError α}
    (goesOn : ∀ value, Performs allocates rest (next value)) :
    Performs allocates (.attempt part :: rest) (Call.lift outcome >>= next) := by
  let none : Answers := ⟨fun _ => .ok (), fun _ => [], allocates⟩
  cases outcome with
  | ok value => exact silent (goesOn value)
  | error error => exact ⟨none.after (.error error), rfl, rfl⟩
  | trap => exact ⟨none.after .trap, rfl, rfl⟩

/-- Handing over a cell that no later step fills again. -/
theorem give
    {cell : Cell}
    {next : Unit → Call Handed AbiError α}
    (data : Bytes)
    (once : .give cell ∉ rest)
    (goesOn : Performs allocates rest (next ())) :
    Performs allocates (.give cell :: rest)
      (Abi.give (allocates cell) cell data >>= next) := by
  obtain ⟨answers, rfl, runs⟩ := goesOn
  refine ⟨answers.filling cell data, rfl, ?_⟩
  have filled : (answers.filling cell data).data cell = data :=
    Function.update_self ..
  rw [bind_assoc]
  simp only [runs, perform, filled, perform_filling once]
  rfl

/-- A call ends by handing over its last cell. -/
theorem giveLast
    {cell : Cell}
    (data : Bytes) :
    Performs allocates [.give cell] (Abi.give (allocates cell) cell data) := by
  have performs :
      Performs allocates [.give cell]
        (Abi.give (allocates cell) cell data >>= pure) :=
    give data List.not_mem_nil (done ())
  rwa [bind_pure] at performs

/-! ## What the cells of such a call hold -/

variable {steps : List Step}
variable {call : Call Handed AbiError α}
variable {cells : Cells}

/-- A call that returns has handed over every cell of its steps. -/
theorem given_of_ok
    (performs : Performs allocates steps call)
    {value : α}
    {handed : Handed}
    (returned : call ⟨cells, []⟩ = (.ok value, handed))
    {cell : Cell}
    (member : .give cell ∈ steps) :
    cell ∈ handed.given := by
  obtain ⟨answers, _, runs⟩ := performs
  obtain ⟨after, ran, given, _, _⟩ := perform_spec answers 0 steps ⟨cells, []⟩
  rw [← runs, Call.bind_of_ok returned] at ran
  obtain ⟨ends, rfl⟩ := Prod.mk.inj ran
  rw [given]
  exact List.mem_append_right _ (mem_handedBy ends.symm member)

/-- What a failed call has not got to holds what it held. -/
theorem unchanged_of_error
    (performs : Performs allocates steps call)
    {error : AbiError}
    {handed : Handed}
    (failed : call ⟨cells, []⟩ = (.error error, handed))
    {cell : Cell}
    (notGiven : cell ∉ handed.given) :
    handed.cells cell = cells cell := by
  obtain ⟨answers, _, runs⟩ := performs
  obtain ⟨after, ran, given, others, _⟩ :=
    perform_spec answers 0 steps ⟨cells, []⟩
  rw [← runs, Call.bind_of_error failed] at ran
  obtain ⟨_, rfl⟩ := Prod.mk.inj ran
  exact others cell fun isHanded =>
    notGiven (given ▸ List.mem_append_right _ isHanded)

end Performs

/--
A failed call of the engine leaves its cells empty exactly when those it has
not got to were empty before.
-/
theorem EntryPoint.empties_iff
    {α : Type}
    {entry : EntryPoint}
    {allocates : Cell → Bool}
    {call : Call Handed AbiError α}
    {cells : Cells}
    {error : AbiError}
    {handed : Handed}
    (performs : Performs allocates entry.steps call)
    (failed : call ⟨cells, []⟩ = (.error error, handed)) :
    (∀ status after,
        close (.error error, handed) = some (status, after) →
          ∀ cell ∈ entry.cells, after cell = .empty) ↔
      ∀ cell ∈ entry.cells, cell ∉ handed.given → cells cell = .empty := by
  obtain ⟨after, closes, holds⟩ := close_error error handed
  have kept : ∀ cell, cell ∉ handed.given → after cell = cells cell := by
    intro cell notGiven
    rw [holds, if_neg notGiven, performs.unchanged_of_error failed notGiven]
  constructor
  · intro empties cell isCell notGiven
    rw [← kept cell notGiven]
    exact empties _ _ closes cell isCell
  · intro wereEmpty status final isClosed cell isCell
    obtain ⟨_, rfl⟩ :=
      Prod.mk.inj (Option.some.inj (closes.symm.trans isClosed))
    by_cases isGiven : cell ∈ handed.given
    · rw [holds, if_pos isGiven]
    · rw [kept cell isGiven]
      exact wereEmpty cell isCell isGiven

/-- A call of the engine that returns has handed over all of its cells. -/
theorem EntryPoint.fills
    {α : Type}
    {entry : EntryPoint}
    {allocates : Cell → Bool}
    {call : Call Handed AbiError α}
    {cells : Cells}
    {value : α}
    {handed : Handed}
    (member : entry ∈ entryPoints)
    (performs : Performs allocates entry.steps call)
    (returned : call ⟨cells, []⟩ = (.ok value, handed)) :
    ∀ cell ∈ entry.cells, cell ∈ handed.given :=
  fun cell isCell =>
    performs.given_of_ok returned (entryPoints_cover entry member cell isCell)

/-! ## The session calls -/

/-- An error of the engine, as the surface passes it on. -/
def ofEngine : EngineError → AbiError
  | .fault fault => .fault fault
  | .ratchet error => .ratchet error

/-- No record is an empty archive. -/
def archiveFrom (data : Bytes) : Outcome Fault Archive :=
  if data.length = 0 then .ok Archive.empty else Archive.parse data

section Engine

variable [Hashes] [Curves] [Aes] [Kem]

/-- `sessionOpen`: a record without any state is refused first. -/
def openSession
    (draws : Nat → Block 32)
    (record whisper : Bytes)
    (binding : Option Binding)
    (allocates : Cell → Bool) :
    Call Handed AbiError Unit := do
  let archive ← Call.lift ((archiveFrom record).mapError AbiError.fault)
  Call.lift
    (Outcome.require (.fault .noSession)
      (¬ (archive.current = none ∧ archive.previous.length = 0)))
  let message ← Call.lift ((Whisper.parse whisper).mapError AbiError.fault)
  let result := openWhisper draws message binding archive
  let text ← Call.lift (result.1.mapError AbiError.fault)
  give (allocates .plain) .plain text
  give (allocates .outRecord) .outRecord result.2.serialize

/-- Opening performs the steps of its call. -/
theorem openSession_performs
    (draws : Nat → Block 32)
    (record whisper : Bytes)
    (binding : Option Binding)
    (allocates : Cell → Bool) :
    Performs allocates sessionOpen.steps
      (openSession draws record whisper binding allocates) := by
  apply Performs.attempt
  intro archive
  apply Performs.attempt
  intro _
  apply Performs.attempt
  intro message
  apply Performs.attempt
  intro text
  apply Performs.give text (by decide)
  apply Performs.silent
  exact Performs.giveLast _

end Engine

end Gossveil.Abi
