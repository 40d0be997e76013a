import Gossveil.SessionRecord

namespace Gossveil.Ratchet

open Codec

/-!
# The archive of a session

The live state and the records of up to forty earlier states, newest first.
A state is shelved as its record; a shelved state that becomes live again is
taken out of the list and the live one is shelved in its turn.
-/

/-- The shelved states an archive holds at most. -/
def maxPrevious : Nat := 40

/--
The sessions with one device: the live state, and the records of the earlier
ones, the newest first.
-/
structure Archive where
  current : Option State
  previous : List Bytes
  deriving DecidableEq

namespace Archive

/-- No session at all. -/
def empty : Archive :=
  ⟨none, []⟩

/-- Whether the live state can be sent on at a time. -/
def canSendAt (archive : Archive) (nowSecs : Nat) : Outcome Fault Bool :=
  match archive.current with
  | none => .ok false
  | some current => current.canSendAt nowSecs

/-- The live state's record goes in front; the oldest leaves a full list. -/
def shelve (archive : Archive) : Archive :=
  match archive.current with
  | none => archive
  | some current =>
      ⟨none,
        current.serialize ::
          if maxPrevious ≤ archive.previous.length then
            archive.previous.dropLast
          else
            archive.previous⟩

/-- The previous live state is shelved. -/
def promote (archive : Archive) (state : State) : Archive :=
  { archive.shelve with current := some state }

/-- The record at an index below `shelvedCount` is taken out. -/
def promoteShelved (archive : Archive) (index : Nat) (state : State) : Archive :=
  { archive with
    previous := archive.previous.eraseIdx index : Archive }.promote state

/-- The loop of `revive` over the records from an index on. -/
def reviveFrom
    (archive : Archive)
    (wantedVersion : Nat)
    (wantedBase : Bytes) :
    (index : Nat) →
    List Bytes →
    Outcome Fault (Bool × Archive)
  | _, [] => .ok (false, archive)
  | index, bytes :: rest =>
      match State.parse bytes with
      | .trap => .trap
      | .error _ =>
          reviveFrom archive wantedVersion wantedBase (index + 1) rest
      | .ok state =>
          if state.version = wantedVersion ∧ state.base = wantedBase then
            .ok (true, archive.promoteShelved index state)
          else
            reviveFrom archive wantedVersion wantedBase (index + 1) rest

/--
Whether a session for a base key already exists, live or shelved; a shelved
match becomes live again.
-/
def revive
    (archive : Archive)
    (wantedVersion : Nat)
    (wantedBase : Bytes) :
    Outcome Fault (Bool × Archive) :=
  if ∃ current, archive.current = some current ∧
      current.version = wantedVersion ∧ current.base = wantedBase then
    .ok (true, archive)
  else
    reviveFrom archive wantedVersion wantedBase 0 archive.previous

/-- The shelved state at a place. -/
def shelved (archive : Archive) (index : Nat) : Outcome Fault State :=
  match archive.previous[index]? with
  | some bytes => State.parse bytes
  | none => .trap

/-- The record: the live state, then the shelved ones as they are. -/
def serialize (archive : Archive) : Bytes :=
  (match archive.current with
    | some current => Writer.bytes 1 current.serialize
    | none => []) ++
    archive.previous.flatMap (Writer.bytes 2)

/-- One turn of the parsing loop; a later live state replaces an earlier. -/
def readField (archive : Archive) (field : Field) : Outcome Fault Archive :=
  match field.number with
  | 1 => do
      let data ← field.bytesOr .badSession
      let state ← State.parse data
      return { archive with current := some state }
  | 2 => do
      let data ← field.bytesOr .badSession
      return { archive with previous := archive.previous ++ [data] }
  | _ => .ok archive

/-- Reads an archive from its record. -/
def parse (data : Bytes) : Outcome Fault Archive :=
  Codec.fold .badSession readField data empty

/-! ## The record -/

/-- The fields that `serialize` writes. -/
def fields (archive : Archive) : List Field :=
  (archive.current.map fun current =>
      Field.ofBytes 1 current.serialize).toList ++
    archive.previous.map (Field.ofBytes 2)

/-- The record is that of the fields. -/
theorem encodeAll_fields (archive : Archive) :
    encodeAll archive.fields = archive.serialize := by
  have shelved :
      encodeAll (archive.previous.map (Field.ofBytes 2)) =
        archive.previous.flatMap (Writer.bytes 2) := by
    rw [encodeAll, List.flatMap_map]
    rfl
  cases isCurrent : archive.current <;>
    simp [fields, serialize, shelved, isCurrent]

/-- An archive survives its record, whatever the shelved records hold. -/
theorem parse_serialize
    {archive : Archive}
    (sound : ∀ current, archive.current = some current → current.Sound)
    (short : archive.serialize.length < 2 ^ 64) :
    parse archive.serialize = .ok archive := by
  have plain : ∀ field ∈ archive.fields, field.Plain := by
    simp only [fields, List.forall_mem_append]
    exact ⟨Field.Plain.option fun _ _ => .bytes (by decide) (by decide),
      Field.Plain.repeated fun _ _ => .bytes (by decide) (by decide)⟩
  rw [← encodeAll_fields] at short ⊢
  have currentReads :
      (archive.current.map fun current =>
          Field.ofBytes 1 current.serialize).toList.foldlM readField empty =
        .ok ⟨archive.current, []⟩ := by
    apply foldlM_option readField _ (fun current => ⟨current, []⟩)
    · intro current isCurrent
      have stateShort : current.serialize.length < 2 ^ 64 := by
        refine Nat.lt_of_le_of_lt (@length_byteValue_le _ 1 _ ?_) short
        simp [fields, isCurrent]
      simp [readField, empty,
        State.parse_serialize (sound current isCurrent).fits
          (sound current isCurrent).keyed stateShort]
    · rfl
  have shelvedRead :
      (archive.previous.map (Field.ofBytes 2)).foldlM readField
          ⟨archive.current, []⟩ =
        .ok ⟨archive.current, archive.previous⟩ := by
    refine foldlM_repeated readField _
      (fun previous => ⟨archive.current, previous⟩) ?_ []
    intro data _ before
    simp [readField]
  rw [parse, fold_plain _ readField plain short, fields,
    foldlM_append_ok currentReads, shelvedRead]

/-- The live state of a parsed archive can be written and read again. -/
theorem parse_sound
    {data : Bytes}
    {archive : Archive}
    (read : parse data = .ok archive) :
    ∀ current, archive.current = some current → current.Sound := by
  refine @fold_preserves _ _ _ _
    (fun archive =>
      ∀ current, archive.current = some current → current.Sound)
    ?_ data empty archive (by simp [empty]) read
  intro before field next holds stepped
  unfold readField at stepped
  split at stepped <;>
    simp only [Outcome.bind_eq_ok, Outcome.pure_eq,
      Outcome.ok.injEq] at stepped
  · obtain ⟨_, _, state, isState, rfl⟩ := stepped
    rintro _ ⟨⟩
    exact State.parse_sound isState
  · obtain ⟨_, _, rfl⟩ := stepped
    exact holds
  · subst stepped
    exact holds

end Archive

end Gossveil.Ratchet
