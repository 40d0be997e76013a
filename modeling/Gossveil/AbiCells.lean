import Gossveil.Abi

namespace Gossveil.Abi

/-!
# What the cells hold when a call returns

A call that fails empties the cells it has got to and leaves the others with
what they held before.  A call that succeeds has filled all of its cells.
-/

/-! ## How far a call gets -/

/-- The bytes for a cell can be handed over. -/
def Answers.Copied (answers : Answers) (cell : Cell) : Prop :=
  answers.data cell = [] ∨ answers.allocates cell = true

instance (answers : Answers) (cell : Cell) : Decidable (answers.Copied cell) :=
  inferInstanceAs (Decidable (_ ∨ _))

/-- The cells a call gets to, the one whose copy fails included. -/
def handedBy (answers : Answers) :
    (number : Nat) →
    List Step →
    List Cell
  | _, [] => []
  | number, .attempt _ :: rest =>
      match answers.outcome number with
      | .ok _ => handedBy answers (number + 1) rest
      | _ => []
  | number, .give cell :: rest =>
      cell ::
        if answers.Copied cell then handedBy answers number rest else []

/-- How a call ends: with the first of its steps that does not succeed. -/
def ending (answers : Answers) :
    (number : Nat) →
    List Step →
    Outcome AbiError Unit
  | _, [] => .ok ()
  | number, .attempt _ :: rest => do
      answers.outcome number
      ending answers (number + 1) rest
  | number, .give cell :: rest =>
      if answers.Copied cell then
        ending answers number rest
      else
        .error (.fault .outOfMemory)

namespace GvBuffer

@[simp] theorem holding_nil : holding [] = empty :=
  rfl

/-- Bytes are held in a buffer of their length. -/
theorem holding_of_ne
    {data : Bytes}
    (some : data ≠ []) :
    holding data = ⟨.some data, data.length⟩ :=
  if_neg some

end GvBuffer

/-- A cell that can be handed over holds its bytes. -/
theorem give_of_copied
    {answers : Answers}
    {cell : Cell}
    (copied : answers.Copied cell)
    (handed : Handed) :
    give (answers.allocates cell) cell (answers.data cell) handed =
      (.ok (),
        ⟨Function.update handed.cells cell (.holding (answers.data cell)),
          handed.given ++ [cell]⟩) := by
  unfold give
  rw [Call.bind_of_ok (Call.modify_apply _ handed)]
  by_cases isEmpty : answers.data cell = []
  · simp [isEmpty]
  · have allocates : answers.allocates cell = true :=
      copied.resolve_left isEmpty
    simp [isEmpty, allocates, GvBuffer.holding_of_ne]

/-- A cell that cannot be handed over is left empty. -/
theorem give_of_not_copied
    {answers : Answers}
    {cell : Cell}
    (fails : ¬ answers.Copied cell)
    (handed : Handed) :
    give (answers.allocates cell) cell (answers.data cell) handed =
      (.error (.fault .outOfMemory),
        ⟨Function.update handed.cells cell .empty,
          handed.given ++ [cell]⟩) := by
  obtain ⟨notEmpty, noSpace⟩ := not_or.mp fails
  unfold give
  rw [Call.bind_of_ok (Call.modify_apply _ handed)]
  simp only [notEmpty, noSpace, if_false]
  rfl

/-! ## The steps -/

/-- Where a call has got to when it ends. -/
structure Performed
    (answers : Answers)
    (number : Nat)
    (steps : List Step)
    (before after : Handed) :
    Prop where
  given : after.given = before.given ++ handedBy answers number steps
  others :
    ∀ cell,
      cell ∉ handedBy answers number steps →
        after.cells cell = before.cells cell
  filled :
    ending answers number steps = .ok () →
      ∀ cell ∈ handedBy answers number steps,
        after.cells cell = .holding (answers.data cell)

/-- The steps end as `ending` says, with the cells as `Performed` says. -/
theorem perform_spec
    (answers : Answers)
    (number : Nat)
    (steps : List Step)
    (before : Handed) :
    ∃ after,
      perform answers number steps before =
          (ending answers number steps, after) ∧
        Performed answers number steps before after := by
  induction steps generalizing number before with
  | nil =>
      refine ⟨before, rfl, ?_, fun _ _ => rfl, ?_⟩
      · simp [handedBy]
      · simp [handedBy]
  | cons step rest inductionHypothesis =>
      cases step with
      | attempt part =>
          rcases ends : answers.outcome number with _ | error | _
          · obtain ⟨after, runs, performed⟩ :=
              inductionHypothesis (number + 1) before
            refine ⟨after, ?_, ?_⟩
            · rw [perform, Call.bind_of_ok (by rw [ends]; rfl), runs, ending,
                ends, Outcome.ok_bind]
            · obtain ⟨given, others, filled⟩ := performed
              constructor
              · simpa [handedBy, ends] using given
              · simpa [handedBy, ends] using others
              · simpa [handedBy, ending, ends] using filled
          · refine ⟨before, ?_, ?_, fun _ _ => rfl, ?_⟩
            · rw [perform, Call.bind_of_error (by rw [ends]; rfl), ending, ends]
              rfl
            · simp [handedBy, ends]
            · simp [handedBy, ends]
          · refine ⟨before, ?_, ?_, fun _ _ => rfl, ?_⟩
            · rw [perform, Call.bind_of_trap (by rw [ends]; rfl), ending, ends]
              rfl
            · simp [handedBy, ends]
            · simp [handedBy, ends]
      | give cell =>
          by_cases copied : answers.Copied cell
          · obtain ⟨after, runs, given, others, filled⟩ :=
              inductionHypothesis number
                ⟨Function.update before.cells cell
                    (.holding (answers.data cell)),
                  before.given ++ [cell]⟩
            refine ⟨after, ?_, ?_, ?_, ?_⟩
            · rw [perform, Call.bind_of_ok (give_of_copied copied before),
                runs, ending, if_pos copied]
            · simpa [handedBy, copied] using given
            · intro other notHanded
              simp only [handedBy, if_pos copied, List.mem_cons,
                not_or] at notHanded
              rw [others other notHanded.2]
              exact Function.update_of_ne notHanded.1 _ _
            · intro succeeds other isHanded
              rw [ending, if_pos copied] at succeeds
              by_cases later : other ∈ handedBy answers number rest
              · exact filled succeeds other later
              · have same : other = cell := by
                  simpa [handedBy, copied, later] using isHanded
                rw [others other later, same]
                exact Function.update_self ..
          · refine
              ⟨⟨Function.update before.cells cell .empty,
                before.given ++ [cell]⟩, ?_, ?_, ?_, ?_⟩
            · rw [perform,
                Call.bind_of_error (give_of_not_copied copied before), ending,
                if_neg copied]
            · simp [handedBy, copied]
            · intro other notHanded
              have different : other ≠ cell := by
                simpa [handedBy, copied] using notHanded
              exact Function.update_of_ne different _ _
            · simp [ending, copied]

/-! ## The end of a call -/

/-- Taking cells back empties them and no others. -/
theorem foldl_empty
    (given : List Cell)
    (cells : Cells)
    (cell : Cell) :
    given.foldl (fun cells cell => Function.update cells cell .empty) cells
        cell =
      if cell ∈ given then .empty else cells cell := by
  induction given generalizing cells with
  | nil => simp
  | cons first rest inductionHypothesis =>
      rw [List.foldl_cons, inductionHypothesis]
      by_cases later : cell ∈ rest
      · simp [later]
      · by_cases same : cell = first
        · simp [same]
        · simp [later, same]

/-- After an error the cells that were got to are empty, the others unchanged. -/
theorem close_error (error : AbiError) (handed : Handed) :
    ∃ after,
      close (.error error, handed) = some (statusFor error, after) ∧
        ∀ cell,
          after cell =
            if cell ∈ handed.given then .empty else handed.cells cell :=
  ⟨_, rfl, foldl_empty handed.given handed.cells⟩

/-- Each cell of a call is filled in one of its steps. -/
def EntryPoint.Covers (entry : EntryPoint) : Prop :=
  ∀ cell ∈ entry.cells, .give cell ∈ entry.steps

instance (entry : EntryPoint) : Decidable entry.Covers :=
  inferInstanceAs (Decidable (∀ cell ∈ entry.cells, _))

/-- Every call fills each of its cells. -/
theorem entryPoints_cover : ∀ entry ∈ entryPoints, entry.Covers := by
  decide

/-- A call that succeeds has got to all of its steps. -/
theorem mem_handedBy
    {answers : Answers}
    {number : Nat}
    {steps : List Step}
    {cell : Cell}
    (succeeds : ending answers number steps = .ok ())
    (member : .give cell ∈ steps) :
    cell ∈ handedBy answers number steps := by
  induction steps generalizing number with
  | nil => cases member
  | cons step rest inductionHypothesis =>
      cases step with
      | attempt part =>
          obtain ⟨_, ends, goesOn⟩ := Outcome.bind_eq_ok.mp succeeds
          have later : .give cell ∈ rest := by simpa using member
          rw [handedBy, ends]
          exact inductionHypothesis goesOn later
      | give other =>
          rw [ending] at succeeds
          split_ifs at succeeds with copied
          rw [handedBy, if_pos copied]
          rcases List.mem_cons.mp member with same | later
          · cases same
            exact List.mem_cons_self
          · exact List.mem_cons_of_mem _ (inductionHypothesis succeeds later)

/--
On every status but success each cell is empty, and on success each holds the
bytes produced for it.
-/
def EntryPoint.Clean
    (entry : EntryPoint)
    (answers : Answers)
    (cells : Cells) :
    Prop :=
  ∀ status after,
    entry.call answers cells = some (status, after) →
      (status ≠ .ok → ∀ cell ∈ entry.cells, after cell = .empty) ∧
        (status = .ok →
          ∀ cell ∈ entry.cells, after cell = .holding (answers.data cell))

/-- A call leaves its cells clean exactly when those it fails before are empty. -/
theorem clean_iff
    {entry : EntryPoint}
    (member : entry ∈ entryPoints)
    (answers : Answers)
    (cells : Cells) :
    entry.Clean answers cells ↔
      ∀ error,
        ending answers 0 entry.steps = .error error →
          ∀ cell ∈ entry.cells,
            cell ∉ handedBy answers 0 entry.steps → cells cell = .empty := by
  have covers := entryPoints_cover entry member
  obtain ⟨after, runs, given, others, filled⟩ :=
    perform_spec answers 0 entry.steps ⟨cells, []⟩
  unfold EntryPoint.Clean EntryPoint.call
  rw [runs]
  rcases ends : ending answers 0 entry.steps with _ | error | _
  · refine iff_of_true ?_ (by simp)
    rintro _ _ ⟨⟩
    refine ⟨fun notOk => absurd rfl notOk, ?_⟩
    intro _ cell isCell
    exact filled ends cell (mem_handedBy ends (covers cell isCell))
  · simp only [List.nil_append] at given
    obtain ⟨closed, closes, holds⟩ := close_error error after
    have taken : ∀ cell,
        closed cell =
          if cell ∈ handedBy answers 0 entry.steps then .empty
          else cells cell := by
      intro cell
      rw [holds, given]
      split_ifs with isHanded
      · rfl
      · exact others cell isHanded
    constructor
    · intro clean _ _ cell isCell notHanded
      have empties :=
        (clean _ _ closes).1 (statusFor_ne_ok error) cell isCell
      rw [taken, if_neg notHanded] at empties
      exact empties
    · intro wereEmpty status final isClosed
      obtain ⟨rfl, rfl⟩ :=
        Prod.mk.inj (Option.some.inj (closes.symm.trans isClosed))
      refine ⟨?_, fun isOk => absurd isOk (statusFor_ne_ok error)⟩
      intro _ cell isCell
      rw [taken]
      split_ifs with isHanded
      · rfl
      · exact wereEmpty error rfl cell isCell isHanded
  · refine iff_of_true ?_ (by simp)
    rintro _ _ ⟨⟩

/-! ## A call that fails early -/

/-- The record does not parse, so nothing is handed over. -/
private def badRecord : Answers where
  outcome _ := .error (.fault .badSession)
  data _ := []
  allocates _ := true

/-- A cell that still holds a buffer of an earlier call. -/
private def staleCells : Cells :=
  fun _ => ⟨some [1], 1⟩

/-- Sealing with a record that does not parse, on empty cells. -/
theorem clean_iff_sessionSeal :
    sessionSeal.Clean badRecord (fun _ => .empty) ↔
      ∀ error,
        ending badRecord 0 sessionSeal.steps = .error error →
          ∀ cell ∈ sessionSeal.cells,
            cell ∉ handedBy badRecord 0 sessionSeal.steps →
              GvBuffer.empty = .empty :=
  clean_iff (by decide) badRecord fun _ => .empty

/--
Sealing with a record that does not parse keeps a buffer of an earlier call.
-/
theorem staleCells_not_clean :
    ¬ sessionSeal.Clean badRecord staleCells := by
  intro clean
  have empties := (clean .badState staleCells rfl).1 (by decide) .sealed
    (by decide)
  exact absurd empties (by decide)

end Gossveil.Abi
