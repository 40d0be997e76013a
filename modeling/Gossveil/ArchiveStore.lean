import Gossveil.Archive

namespace Gossveil.Ratchet

/-!
# What an archive keeps

Over any run of its operations an archive holds the newest of the records that
were shelved, in the order of their shelving, and loses one only to a full
list.  A state that is revived changes places with the live one.
-/

/-- The session of a base key, under a version. -/
def State.IsFor (state : State) (version : Nat) (base : Bytes) : Prop :=
  state.version = version ∧ state.base = base

/-- The record of the state is one the parser gives the state back for. -/
structure State.Recordable (state : State) : Prop where
  sound : state.Sound
  short : state.serialize.length < 2 ^ 64

/-- A recordable state survives its record. -/
theorem State.Recordable.parse
    {state : State}
    (recordable : state.Recordable) :
    State.parse state.serialize = .ok state :=
  State.parse_serialize recordable.sound.fits recordable.sound.keyed
    recordable.short

namespace Archive

/-- What shelving puts in front of the list. -/
def liveRecord (archive : Archive) : List Bytes :=
  (archive.current.map State.serialize).toList

/-! ## Shelving -/

/-- The live record goes in front, and only a full list loses its oldest. -/
structure Shelves (before after : Archive) : Prop where
  room :
    before.current = none ∨ before.previous.length < maxPrevious →
      after.previous = before.liveRecord ++ before.previous
  full :
    before.current ≠ none →
    before.previous.length = maxPrevious →
      ∃ kept oldest,
        before.previous = kept ++ [oldest] ∧
          after.previous = before.liveRecord ++ kept

/-- Shelving puts the live state first and drops the last of forty. -/
theorem shelve_shelves (archive : Archive) :
    archive.Shelves archive.shelve := by
  cases isCurrent : archive.current with
  | none =>
      exact
        { room := fun _ => by simp [shelve, liveRecord, isCurrent]
          full := fun some => absurd isCurrent some }
  | some current =>
      constructor
      · intro room
        have notFull : ¬ maxPrevious ≤ archive.previous.length := by
          simpa [isCurrent] using room
        simp [shelve, liveRecord, isCurrent, notFull]
      · intro _ full
        have nonempty : archive.previous ≠ [] := by
          intro empty
          simp [empty, maxPrevious] at full
        refine ⟨archive.previous.dropLast, archive.previous.getLast nonempty,
          (List.dropLast_append_getLast nonempty).symm, ?_⟩
        simp [shelve, liveRecord, isCurrent, full]

/-- After shelving no state is live. -/
theorem current_shelve (archive : Archive) :
    archive.shelve.current = none := by
  unfold shelve
  cases isCurrent : archive.current with
  | none => exact isCurrent
  | some current => rfl

/-- Promoting a state shelves the live one. -/
theorem promote_shelves (archive : Archive) (state : State) :
    archive.Shelves (archive.promote state) :=
  ⟨(shelve_shelves archive).room, (shelve_shelves archive).full⟩

section Lists

variable {archive : Archive} {history : List Bytes}

/-- Shelving keeps to the bound. -/
theorem length_shelve
    (bounded : archive.previous.length ≤ maxPrevious) :
    archive.shelve.previous.length ≤ maxPrevious := by
  unfold shelve
  cases archive.current with
  | none => exact bounded
  | some current =>
      split_ifs with full
      · have nonempty : 0 < archive.previous.length :=
          Nat.lt_of_lt_of_le (by decide) full
        simpa [Nat.sub_add_cancel nonempty] using bounded
      · exact Nat.not_le.mp full

/-- What is shelved is newer than all that was shelved before. -/
theorem sublist_shelve
    (ordered : archive.previous.Sublist history) :
    archive.shelve.previous.Sublist (archive.liveRecord ++ history) := by
  unfold shelve liveRecord
  cases archive.current with
  | none => exact ordered
  | some current =>
      apply List.Sublist.cons_cons
      split_ifs
      · exact (List.dropLast_sublist _).trans ordered
      · exact ordered

/-- Shelving makes up no record. -/
theorem mem_shelve
    {record : Bytes}
    (member : record ∈ archive.shelve.previous) :
    record ∈ archive.liveRecord ∨ record ∈ archive.previous := by
  have included := (sublist_shelve (List.Sublist.refl archive.previous)).subset
  exact List.mem_append.mp (included member)

end Lists

/-- With the promoted record taken out there is room for the live one. -/
theorem promoteShelved_eq
    {archive : Archive}
    {index : Nat}
    (state : State)
    (bounded : archive.previous.length ≤ maxPrevious)
    (inside : index < archive.previous.length) :
    archive.promoteShelved index state =
      ⟨some state, archive.liveRecord ++ archive.previous.eraseIdx index⟩ := by
  have shorter : (archive.previous.eraseIdx index).length < maxPrevious := by
    rw [List.length_eraseIdx_of_lt inside]
    omega
  have shelves :=
    (promote_shelves
      { archive with previous := archive.previous.eraseIdx index } state).room
      (.inr shorter)
  have live :
      (archive.promoteShelved index state).current = some state :=
    rfl
  rw [← live]
  exact congrArg (Archive.mk _) shelves

/-! ## Reviving -/

/-- What `revive` answers, and what it does to the archive. -/
structure Revives
    (archive : Archive)
    (version : Nat)
    (base : Bytes)
    (found : Bool)
    (after : Archive) :
    Prop where
  found_iff :
    found = true ↔
      (∃ current, archive.current = some current ∧
        current.IsFor version base) ∨
      ∃ record ∈ archive.previous, ∃ state,
        State.parse record = .ok state ∧ state.IsFor version base
  unchanged : found = false → after = archive
  lives :
    found = true →
      (∃ current, archive.current = some current ∧
        current.IsFor version base ∧ after = archive) ∨
      ∃ newer record older state,
        archive.previous = newer ++ record :: older ∧
          State.parse record = .ok state ∧
          state.IsFor version base ∧
          (∀ other ∈ newer, ∀ earlier,
            State.parse other = .ok earlier →
              ¬ earlier.IsFor version base) ∧
          after =
            ⟨some state, archive.liveRecord ++ (newer ++ older)⟩

section Reviving

variable {archive : Archive} {version : Nat} {base : Bytes}

/-- The walk over the records that are left, with those passed over in front. -/
theorem reviveFrom_revives
    {passed rest : List Bytes}
    (bounded : archive.previous.length ≤ maxPrevious)
    (readable : ∀ record ∈ rest, State.parse record ≠ .trap)
    (splits : archive.previous = passed ++ rest)
    (passedOver :
      ∀ other ∈ passed, ∀ earlier,
        State.parse other = .ok earlier → ¬ earlier.IsFor version base) :
    (archive.reviveFrom version base passed.length rest =
        .ok (false, archive) ∧
      ∀ record ∈ archive.previous, ∀ state,
        State.parse record = .ok state → ¬ state.IsFor version base) ∨
      ∃ newer record older state,
        archive.previous = newer ++ record :: older ∧
          State.parse record = .ok state ∧
          state.IsFor version base ∧
          (∀ other ∈ newer, ∀ earlier,
            State.parse other = .ok earlier →
              ¬ earlier.IsFor version base) ∧
          archive.reviveFrom version base passed.length rest =
            .ok (true,
              ⟨some state, archive.liveRecord ++ (newer ++ older)⟩) := by
  induction rest generalizing passed with
  | nil =>
      rw [splits, List.append_nil]
      exact .inl ⟨rfl, passedOver⟩
  | cons record rest inductionHypothesis =>
      have readableRest : ∀ other ∈ rest, State.parse other ≠ .trap :=
        fun other member => readable other (List.mem_cons_of_mem _ member)
      have splitsNext : archive.previous = (passed ++ [record]) ++ rest := by
        simpa using splits
      have length : (passed ++ [record]).length = passed.length + 1 := by
        simp
      -- a record that is not the wanted one is passed over
      have passOver
          (other :
            ∀ state, State.parse record = .ok state →
              ¬ state.IsFor version base) :
          ∀ before ∈ passed ++ [record], ∀ state,
            State.parse before = .ok state → ¬ state.IsFor version base := by
        intro before member
        rcases List.mem_append.mp member with early | last
        · exact passedOver before early
        · rw [List.mem_singleton.mp last]
          exact other
      unfold reviveFrom
      cases parsed : State.parse record with
      | trap => exact absurd parsed (readable record List.mem_cons_self)
      | error fault =>
          have goesOn :=
            inductionHypothesis readableRest splitsNext
              (passOver (by simp [parsed]))
          rw [length] at goesOn
          exact goesOn
      | ok state =>
          by_cases isFor : state.IsFor version base
          · refine .inr ⟨passed, record, rest, state, splits, parsed, isFor,
              passedOver, ?_⟩
            have inside : passed.length < archive.previous.length := by
              simp [splits]
            have removed :
                archive.previous.eraseIdx passed.length = passed ++ rest := by
              rw [splits, List.eraseIdx_append_of_length_le (Nat.le_refl _)]
              simp
            have condition :
                state.version = version ∧ state.base = base :=
              isFor
            simp only [if_pos condition, promoteShelved_eq state bounded inside,
              removed]
          · have goesOn :=
              inductionHypothesis readableRest splitsNext
                (passOver (by
                  rw [parsed]
                  rintro _ ⟨⟩
                  exact isFor))
            have condition :
                ¬ (state.version = version ∧ state.base = base) :=
              isFor
            rw [length] at goesOn
            simp only [if_neg condition]
            exact goesOn

/-- Reviving takes the first match out of its place. -/
theorem revive_revives
    (bounded : archive.previous.length ≤ maxPrevious)
    (readable : ∀ record ∈ archive.previous, State.parse record ≠ .trap) :
    ∃ found after,
      archive.revive version base = .ok (found, after) ∧
        archive.Revives version base found after := by
  unfold revive
  split_ifs with isLive
  · obtain ⟨current, isCurrent, isFor⟩ := isLive
    exact ⟨true, archive, rfl,
      { found_iff := by simpa using .inl ⟨current, isCurrent, isFor⟩
        unchanged := by simp
        lives := fun _ => .inl ⟨current, isCurrent, isFor, rfl⟩ }⟩
  · rcases @reviveFrom_revives archive version base [] archive.previous bounded
        readable rfl (by simp) with
      ⟨refused, none⟩ |
        ⟨newer, record, older, state, splits, parsed, isFor, first, revived⟩
    · refine ⟨false, archive, refused, ?_, fun _ => rfl, by simp⟩
      have noRecord :
          ¬ ∃ record ∈ archive.previous, ∃ state,
            State.parse record = .ok state ∧ state.IsFor version base :=
        fun ⟨record, member, state, parsed, isFor⟩ =>
          none record member state parsed isFor
      exact iff_of_false (by simp) (not_or_intro isLive noRecord)
    · refine ⟨true, _, revived, ?_, by simp,
        fun _ => .inr
          ⟨newer, record, older, state, splits, parsed, isFor, first, rfl⟩⟩
      exact iff_of_true rfl
        (.inr ⟨record, by simp [splits], state, parsed, isFor⟩)

end Reviving

/-! ## Runs -/

/--
The archives a run of operations leads to, with every record that was shelved
on the way, newest first.  `write` is a change of the live state in place.
-/
inductive Run : List Bytes → Archive → Prop where
  | init : Run [] empty
  | promote
      {history : List Bytes}
      {archive : Archive}
      {state : State}
      (before : Run history archive)
      (recordable : state.Recordable) :
      Run (archive.liveRecord ++ history) (archive.promote state)
  | shelve
      {history : List Bytes}
      {archive : Archive}
      (before : Run history archive) :
      Run (archive.liveRecord ++ history) archive.shelve
  | promoteShelved
      {history : List Bytes}
      {archive : Archive}
      {index : Nat}
      {state : State}
      (before : Run history archive)
      (inside : index < archive.previous.length)
      (recordable : state.Recordable) :
      Run (archive.liveRecord ++ history) (archive.promoteShelved index state)
  | revived
      {history : List Bytes}
      {archive after : Archive}
      {version : Nat}
      {base : Bytes}
      {found : Bool}
      (before : Run history archive)
      (revives : archive.revive version base = .ok (found, after)) :
      Run (if after = archive then history else archive.liveRecord ++ history)
        after
  | write
      {history : List Bytes}
      {archive : Archive}
      {current state : State}
      (before : Run history archive)
      (isCurrent : archive.current = some current)
      (recordable : state.Recordable) :
      Run history { archive with current := some state }
  | reload
      {history : List Bytes}
      {archive after : Archive}
      (before : Run history archive)
      (short : archive.serialize.length < 2 ^ 64)
      (reads : Archive.parse archive.serialize = .ok after) :
      Run history after

/-- What holds of every archive of a run. -/
structure Kept (history : List Bytes) (archive : Archive) : Prop where
  bounded : archive.previous.length ≤ maxPrevious
  newestFirst : archive.previous.Sublist history
  live : ∀ current, archive.current = some current → current.Recordable
  readable :
    ∀ record ∈ archive.previous, ∃ state : State,
      state.Recordable ∧ state.serialize = record

namespace Kept

variable {history : List Bytes} {archive : Archive}

theorem readable_liveRecord
    (kept : Kept history archive)
    {record : Bytes}
    (member : record ∈ archive.liveRecord) :
    ∃ state : State, state.Recordable ∧ state.serialize = record := by
  unfold liveRecord at member
  cases isCurrent : archive.current with
  | none =>
      simp [isCurrent] at member
  | some current =>
      simp only [isCurrent, Option.map_some, Option.toList_some,
        List.mem_singleton] at member
      exact ⟨current, kept.live current isCurrent, member.symm⟩

/-- No kept record traps the reader. -/
theorem ne_trap
    (kept : Kept history archive)
    {record : Bytes}
    (member : record ∈ archive.previous) :
    State.parse record ≠ .trap := by
  obtain ⟨state, recordable, rfl⟩ := kept.readable record member
  simp [recordable.parse]

/-- Shelving keeps the invariant; the live record joins the history. -/
theorem shelve (kept : Kept history archive) :
    Kept (archive.liveRecord ++ history) archive.shelve where
  bounded := length_shelve kept.bounded
  newestFirst := sublist_shelve kept.newestFirst
  live := by
    intro current isCurrent
    unfold Archive.shelve at isCurrent
    split at isCurrent
    · exact kept.live current isCurrent
    · cases isCurrent
  readable := by
    intro record member
    rcases mem_shelve member with live | shelved
    · exact kept.readable_liveRecord live
    · exact kept.readable record shelved

/-- Writing the live state keeps the invariant. -/
theorem write
    {state : State}
    (kept : Kept history archive)
    (recordable : state.Recordable) :
    Kept history { archive with current := some state } where
  bounded := kept.bounded
  newestFirst := kept.newestFirst
  live := by
    rintro _ ⟨⟩
    exact recordable
  readable := kept.readable

/-- Dropping shelved records keeps the invariant. -/
theorem remove
    (kept : Kept history archive)
    {others : List Bytes}
    (fewer : others.Sublist archive.previous) :
    Kept history { archive with previous := others } where
  bounded := fewer.length_le.trans kept.bounded
  newestFirst := fewer.trans kept.newestFirst
  live := kept.live
  readable := fun record member =>
    kept.readable record (fewer.subset member)

/-- A record that is taken out leaves room for the live one. -/
theorem promoted
    {state : State}
    {others : List Bytes}
    (kept : Kept history archive)
    (fewer : others.Sublist archive.previous)
    (shorter : others.length < maxPrevious)
    (recordable : state.Recordable) :
    Kept (archive.liveRecord ++ history)
      ⟨some state, archive.liveRecord ++ others⟩ := by
  have shelved :
      ({ archive with previous := others } : Archive).shelve.previous =
        archive.liveRecord ++ others :=
    (shelve_shelves _).room (.inr shorter)
  rw [← shelved]
  exact (kept.remove fewer).shelve.write recordable

/-- Reviving keeps the invariant. -/
theorem revived
    {after : Archive}
    {version : Nat}
    {base : Bytes}
    {found : Bool}
    (kept : Kept history archive)
    (revives : archive.Revives version base found after)
    (changed : after ≠ archive) :
    Kept (archive.liveRecord ++ history) after := by
  cases found with
  | false => exact absurd (revives.unchanged rfl) changed
  | true =>
      rcases revives.lives rfl with
        ⟨_, _, _, same⟩ | ⟨newer, record, older, state, splits, parsed, _, _, rfl⟩
      · exact absurd same changed
      · have member : record ∈ archive.previous := by
          simp [splits]
        have recordable : state.Recordable := by
          obtain ⟨shelved, recordable, rfl⟩ := kept.readable record member
          obtain rfl := Outcome.ok.inj (recordable.parse.symm.trans parsed)
          exact recordable
        apply kept.promoted _ _ recordable
        · rw [splits]
          exact (List.sublist_cons_self record older).append_left newer
        · have bounded := kept.bounded
          rw [splits] at bounded
          simp only [List.length_append, List.length_cons] at bounded ⊢
          omega

theorem sound (kept : Kept history archive) :
    ∀ current, archive.current = some current → current.Sound :=
  fun current isCurrent => (kept.live current isCurrent).sound

end Kept

/-- The invariant holds along every run. -/
theorem Run.kept
    {history : List Bytes}
    {archive : Archive}
    (run : Run history archive) :
    Kept history archive := by
  induction run with
  | init =>
      exact
        { bounded := by simp [empty]
          newestFirst := List.Sublist.refl []
          live := by simp [empty]
          readable := by simp [empty] }
  | promote _ recordable kept =>
      exact kept.shelve.write recordable
  | shelve _ kept =>
      exact kept.shelve
  | @promoteShelved history archive index _ _ _ recordable kept =>
      exact (kept.remove (List.eraseIdx_sublist _ _)).shelve.write recordable
  | @revived history archive after version base found _ revives kept =>
      obtain ⟨_, _, answered, answer⟩ :=
        @revive_revives archive version base kept.bounded fun _ => kept.ne_trap
      obtain ⟨rfl, rfl⟩ :=
        Prod.mk.inj (Outcome.ok.inj (answered.symm.trans revives))
      split_ifs with same
      · rw [same]
        exact kept
      · exact kept.revived answer same
  | write _ _ recordable kept =>
      exact kept.write recordable
  | reload _ short reads kept =>
      rw [parse_serialize kept.sound short] at reads
      obtain rfl := Outcome.ok.inj reads
      exact kept

/--
In every run an archive holds at most forty records, the newest first; only a
full list loses one, the oldest; `revive` answers whether a session is there
and makes it live in exchange for the live one; and an archive survives its
record.
-/
theorem archive_store
    {history : List Bytes}
    {archive : Archive}
    (run : Run history archive) :
    archive.previous.length ≤ maxPrevious ∧
      archive.previous.Sublist history ∧
      (archive.Shelves archive.shelve ∧ archive.shelve.current = none) ∧
      (∀ state,
        archive.Shelves (archive.promote state) ∧
          (archive.promote state).current = some state) ∧
      (∀ index state,
        index < archive.previous.length →
        archive.promoteShelved index state =
          ⟨some state,
            archive.liveRecord ++ archive.previous.eraseIdx index⟩) ∧
      (∀ version base,
        ∃ found after,
          archive.revive version base = .ok (found, after) ∧
            archive.Revives version base found after) ∧
      (archive.serialize.length < 2 ^ 64 →
        Archive.parse archive.serialize = .ok archive) := by
  have kept := run.kept
  refine ⟨kept.bounded, kept.newestFirst,
    ⟨shelve_shelves archive, current_shelve archive⟩,
    fun state => ⟨promote_shelves archive state, rfl⟩, ?_, ?_,
    parse_serialize kept.sound⟩
  · intro index state inside
    exact promoteShelved_eq state kept.bounded inside
  · intro version base
    exact revive_revives kept.bounded fun _ => kept.ne_trap

/-- A session under one base key, with nothing sent or received yet. -/
private def begun (base : Bytes) : State :=
  State.init currentVersion ⟨Block.zero 32⟩ ⟨Block.zero 32⟩ (Block.zero 32)
    base []

private theorem begun_recordable
    {base : Bytes}
    (short : (begun base).serialize.length < 2 ^ 64) :
    (begun base).Recordable :=
  ⟨State.sound_init _ _ _ _ _ (by decide), short⟩

set_option maxRecDepth 10000 in
private theorem begun_five : (begun [5]).Recordable :=
  begun_recordable (by decide)

set_option maxRecDepth 10000 in
private theorem begun_six : (begun [6]).Recordable :=
  begun_recordable (by decide)

/-- The second session shelves the first, which can be revived. -/
theorem archive_store_two :
    ∃ found after,
      ((empty.promote (begun [5])).promote (begun [6])).revive currentVersion
          [5] =
        .ok (found, after) ∧
        ((empty.promote (begun [5])).promote (begun [6])).Revives
          currentVersion [5] found after := by
  obtain ⟨_, _, _, _, _, revives, _⟩ :=
    archive_store ((Run.init.promote begun_five).promote begun_six)
  exact revives currentVersion [5]

end Archive

end Gossveil.Ratchet
