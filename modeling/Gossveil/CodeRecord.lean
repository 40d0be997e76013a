import Gossveil.CodecRoundTrip
import Gossveil.ErasureCodeCorrectness

namespace Gossveil

open Codec

/-!
# Records of the erasure code

A spread and a gather are written field by field and read back.  What is
written reads back to the same value, as long as it fits a byte slice.
-/

namespace Codec

/-! ## Fields of a short message -/

/-- `uint() orelse 0`. -/
def Field.uintOrZero (field : Field) : Nat :=
  field.uint.getD 0

@[simp] theorem Field.uintOrZero_ofUint (number value : Nat) :
    (Field.ofUint number value).uintOrZero = value :=
  rfl

/-- A zero is the default and is left out. -/
def Field.uintIfSet (number value : Nat) : List Field :=
  if value ≠ 0 then [Field.ofUint number value] else []

/-- A byte field that is left out when it is empty. -/
def Field.bytesIfSet (number : Nat) (value : Bytes) : List Field :=
  if value.length ≠ 0 then [Field.ofBytes number value] else []

@[simp] theorem encodeAll_uintIfSet (number value : Nat) :
    encodeAll (Field.uintIfSet number value) =
      Writer.uintIfSet number value := by
  unfold Field.uintIfSet Writer.uintIfSet
  split_ifs <;> simp

@[simp] theorem encodeAll_bytesIfSet (number : Nat) (value : Bytes) :
    encodeAll (Field.bytesIfSet number value) =
      Writer.bytesIfSet number value := by
  unfold Field.bytesIfSet Writer.bytesIfSet
  split_ifs <;> simp

/-- A varint or byte field as the writers make it, but for its length. -/
inductive Field.Plain : Field → Prop where
  | uint
      {number value : Nat}
      (positive : 0 < number)
      (numberFits : number < 2 ^ 32)
      (valueFits : value < 2 ^ 64) :
      Plain (Field.ofUint number value)
  | bytes
      {number : Nat}
      {value : Bytes}
      (positive : 0 < number)
      (numberFits : number < 2 ^ 32) :
      Plain (Field.ofBytes number value)

theorem Field.Plain.uintIfSet
    {number value : Nat}
    (positive : 0 < number)
    (numberFits : number < 2 ^ 32)
    (valueFits : value < 2 ^ 64) :
    ∀ field ∈ Field.uintIfSet number value, field.Plain := by
  intro field member
  unfold Field.uintIfSet at member
  split_ifs at member
  · rw [List.mem_singleton] at member
    subst member
    exact .uint positive numberFits valueFits
  · cases member

theorem Field.Plain.bytesIfSet
    {number : Nat}
    {value : Bytes}
    (positive : 0 < number)
    (numberFits : number < 2 ^ 32) :
    ∀ field ∈ Field.bytesIfSet number value, field.Plain := by
  intro field member
  unfold Field.bytesIfSet at member
  split_ifs at member
  · rw [List.mem_singleton] at member
    subst member
    exact .bytes positive numberFits
  · cases member

theorem Field.Plain.option
    {α : Type}
    {make : α → Field}
    {candidate : Option α}
    (each : ∀ value, candidate = some value → (make value).Plain) :
    ∀ field ∈ (candidate.map make).toList, field.Plain := by
  intro field member
  obtain ⟨value, isValue, rfl⟩ :=
    Option.map_eq_some_iff.mp (Option.mem_toList.mp member)
  exact each value isValue

theorem Field.Plain.repeated
    {α : Type}
    {make : α → Field}
    {values : List α}
    (each : ∀ value ∈ values, (make value).Plain) :
    ∀ field ∈ values.map make, field.Plain := by
  intro field member
  obtain ⟨value, isValue, rfl⟩ := List.mem_map.mp member
  exact each value isValue

/-- A field is no longer than the record it is in. -/
theorem length_encode_le
    {fields : List Field}
    {field : Field}
    (member : field ∈ fields) :
    field.encode.length ≤ (encodeAll fields).length := by
  rcases List.append_of_mem member with ⟨front, rest, rfl⟩
  simp only [encodeAll_append, encodeAll_cons, List.length_append]
  omega

/-- The bytes of a field are no longer than the message. -/
theorem length_byteValue_le
    {fields : List Field}
    {number : Nat}
    {value : Bytes}
    (member : Field.ofBytes number value ∈ fields) :
    value.length ≤ (encodeAll fields).length := by
  refine le_trans ?_ (length_encode_le member)
  simp only [Field.encode_ofBytes, Writer.bytes, List.length_append]
  omega

/-- Parsing a message that fits a slice is folding over its fields. -/
theorem fold_plain
    {ε σ : Type}
    (fault : ε)
    (step : σ → Field → Outcome ε σ)
    {fields : List Field}
    (plain : ∀ field ∈ fields, field.Plain)
    (short : (encodeAll fields).length < 2 ^ 64)
    (state : σ) :
    fold fault step (encodeAll fields) state =
      fields.foldlM step state := by
  refine fold_encodeAll fault step ?_ state
  intro field member
  cases plain field member with
  | uint positive numberFits valueFits =>
      exact .uint positive numberFits valueFits
  | bytes positive numberFits =>
      exact .bytes positive numberFits
        (Nat.lt_of_le_of_lt (length_byteValue_le member) short)

/-- A message of one known field. -/
theorem find_single
    {ε α : Type}
    (fault : ε)
    {known : Field → Option (Outcome ε α)}
    {field : Field}
    {result : Outcome ε α}
    (written : field.Written)
    (isKnown : known field = some result) :
    find fault known field.encode = result := by
  have shape :
      (Reader.init field.encode).ahead = field.encode ++ [] := by
    rw [Reader.init, Reader.ahead, List.drop_zero, List.append_nil]
  rw [find, findFrom, Reader.next_encode written shape]
  simp only [isKnown]

/-- A field that is left out at its default does what writing it would. -/
theorem foldlM_uintIfSet
    {ε σ : Type}
    (step : σ → Field → Outcome ε σ)
    {number value : Nat}
    {state after : σ}
    (reads : step state (Field.ofUint number value) = .ok after)
    (default : value = 0 → after = state) :
    (Field.uintIfSet number value).foldlM step state = .ok after := by
  unfold Field.uintIfSet
  split_ifs with set
  · rw [List.foldlM_cons, reads]
    rfl
  · rw [default (not_not.mp set)]
    rfl

/-- The same for bytes. -/
theorem foldlM_bytesIfSet
    {ε σ : Type}
    (step : σ → Field → Outcome ε σ)
    {number : Nat}
    {value : Bytes}
    {state after : σ}
    (reads : step state (Field.ofBytes number value) = .ok after)
    (default : value = [] → after = state) :
    (Field.bytesIfSet number value).foldlM step state = .ok after := by
  unfold Field.bytesIfSet
  split_ifs with set
  · rw [List.foldlM_cons, reads]
    rfl
  · rw [default (List.length_eq_zero_iff.mp (not_not.mp set))]
    rfl

/-- A field that is there or not. -/
theorem foldlM_option
    {ε σ α : Type}
    (step : σ → Field → Outcome ε σ)
    (make : α → Field)
    {candidate : Option α}
    {state : σ}
    (after : Option α → σ)
    (reads :
      ∀ value, candidate = some value →
        step state (make value) = .ok (after (some value)))
    (absent : after none = state) :
    (candidate.map make).toList.foldlM step state =
      .ok (after candidate) := by
  cases candidate with
  | none =>
      rw [absent]
      rfl
  | some value =>
      simp only [Option.map_some, Option.toList_some, List.foldlM_cons,
        List.foldlM_nil, reads value rfl, Outcome.ok_bind, Outcome.pure_eq]

/-- A repeated field: each value goes behind those read before. -/
theorem foldlM_repeated
    {ε σ α : Type}
    (step : σ → Field → Outcome ε σ)
    (make : α → Field)
    (state : List α → σ)
    {values : List α}
    (reads :
      ∀ value ∈ values, ∀ before,
        step (state before) (make value) = .ok (state (before ++ [value])))
    (before : List α) :
    (values.map make).foldlM step (state before) =
      .ok (state (before ++ values)) := by
  induction values generalizing before with
  | nil =>
      simp
  | cons value rest inductionHypothesis =>
      have first := reads value (List.mem_cons_self ..) before
      have others :=
        inductionHypothesis
          (fun other member => reads other (List.mem_cons_of_mem _ member))
          (before ++ [value])
      simpa [first] using others

/-- Folding over one more stretch of fields. -/
theorem foldlM_append_ok
    {ε σ : Type}
    {step : σ → Field → Outcome ε σ}
    {front rest : List Field}
    {state between : σ}
    (reads : front.foldlM step state = .ok between) :
    (front ++ rest).foldlM step state = rest.foldlM step between := by
  rw [List.foldlM_append, reads]
  rfl

end Codec

namespace ErasureCode

/-! ## Columns one after the other -/

/-- The column of a number receives more values. -/
def fillColumn
    {α : Type}
    (columns : Columns α)
    (count : Nat)
    (values : List α) :
    Columns α :=
  fun column =>
    if column.val = count then columns column ++ values else columns column

/-- The columns after some lists were read into those from `count` on. -/
private def filled
    {α : Type}
    (columns : Columns α)
    (count : Nat)
    (lists : List (List α)) :
    Columns α :=
  fun column =>
    if count ≤ column.val then
      columns column ++ lists.getD (column.val - count) []
    else
      columns column

private theorem filled_nil
    {α : Type}
    (columns : Columns α)
    (count : Nat) :
    filled columns count [] = columns := by
  funext column
  simp [filled]

/-- Columns are filled one by one. -/
private theorem filled_cons
    {α : Type}
    (columns : Columns α)
    (count : Nat)
    (values : List α)
    (rest : List (List α)) :
    filled (fillColumn columns count values) (count + 1) rest =
      filled columns count (values :: rest) := by
  funext column
  unfold filled fillColumn
  rcases Nat.lt_trichotomy column.val count with before | same | behind
  · rw [if_neg (by omega), if_neg (by omega), if_neg (by omega)]
  · rw [if_neg (by omega), if_pos same, if_pos (by omega), same,
      Nat.sub_self, List.getD_cons_zero]
  · have place : column.val - count = column.val - (count + 1) + 1 := by
      omega
    rw [if_pos (by omega), if_neg (by omega), if_pos (by omega), place,
      List.getD_cons_succ]

/-- Reading every column in turn gives back the columns. -/
private theorem filled_ofFn
    {α : Type}
    (columns : Columns α) :
    filled (fun _ => []) 0 (List.ofFn columns) = columns := by
  funext column
  simp [filled, List.getD]

namespace Spread

/-! ## The record of a spread -/

/--
The record: what comes next and the columns, under the number that says whether
they have been fitted.
-/
def write (spread : Spread) : Bytes :=
  Writer.uintIfSet 1 spread.next ++
    (List.finRange polynomials).flatMap fun column =>
      Writer.bytes (if spread.fitted then 3 else 2)
        (bytesOf (spread.columns column))

/-- What has been read so far: raw columns are counted apart from fitted ones. -/
structure Draft where
  next : Nat
  counts : (fitted : Bool) → Nat
  columns : Columns Gf16

/-- What is known before the first field. -/
def Draft.empty : Draft :=
  ⟨0, fun _ => 0, fun _ => []⟩

/-- A column of either kind goes behind those of its kind. -/
def Draft.readColumn
    (draft : Draft)
    (fitted : Bool)
    (data : Bytes) :
    Outcome RatchetError Draft :=
  let count := draft.counts fitted
  if polynomials ≤ count ∨ data.length % 2 ≠ 0 then
    .error .badRecord
  else
    .ok { draft with
      counts := Function.update draft.counts fitted (count + 1)
      columns := fillColumn draft.columns count (wordsOf data) }

/-- Takes in one field of the record. -/
def Draft.read
    (draft : Draft)
    (field : Field) :
    Outcome RatchetError Draft :=
  match field.number with
  | 1 => do
      let next ←
        Outcome.ofOption .badRecord (Outcome.castTo 32 field.uintOrZero)
      return { draft with next := next }
  | 2 => field.bytesOr .badRecord >>= draft.readColumn false
  | 3 => field.bytesOr .badRecord >>= draft.readColumn true
  | _ => .ok draft

/-- All columns of one kind, and a fitted one has a coefficient. -/
def Draft.finish (draft : Draft) : Outcome RatchetError Spread :=
  if draft.counts false ≠ 0 then
    if draft.counts true ≠ 0 ∨ draft.counts false ≠ polynomials then
      .error .badRecord
    else
      .ok ⟨draft.next, draft.columns, false⟩
  else if draft.counts true = polynomials then
    if ∃ column, (draft.columns column).length = 0 then
      .error .badRecord
    else
      .ok ⟨draft.next, draft.columns, true⟩
  else
    .error .badRecord

/-- A record of raw columns gives a spread that is not fitted. -/
theorem Draft.finish_raw
    {draft : Draft}
    (raw : draft.counts false = polynomials)
    (fitted : draft.counts true = 0) :
    draft.finish = .ok ⟨draft.next, draft.columns, false⟩ := by
  rw [finish, if_pos (by rw [raw]; decide), if_neg (by
    rintro (some | few)
    · exact some fitted
    · exact few raw)]

/-- A record of fitted columns gives a fitted spread. -/
theorem Draft.finish_fitted
    {draft : Draft}
    (raw : draft.counts false = 0)
    (fitted : draft.counts true = polynomials)
    (present : ∀ column, draft.columns column ≠ []) :
    draft.finish = .ok ⟨draft.next, draft.columns, true⟩ := by
  rw [finish, if_neg (not_not.mpr raw), if_pos fitted, if_neg]
  rintro ⟨column, isEmpty⟩
  exact present column (List.length_eq_zero_iff.mp isEmpty)

/-- Reads a spread from its record. -/
def read (data : Bytes) : Outcome RatchetError Spread := do
  let draft ← fold .badRecord Draft.read data Draft.empty
  draft.finish

/-- The values fit the record. -/
structure Recordable (spread : Spread) : Prop where
  next : spread.next < 2 ^ 32
  fitted : spread.fitted = true → ∀ column, spread.columns column ≠ []

/-- The fields that `write` writes. -/
def fields (spread : Spread) : List Field :=
  Field.uintIfSet 1 spread.next ++
    (List.ofFn spread.columns).map fun words =>
      Field.ofBytes (if spread.fitted then 3 else 2) (bytesOf words)

/-- The record is that of the fields. -/
theorem encodeAll_fields (spread : Spread) :
    encodeAll spread.fields = spread.write := by
  rw [fields, encodeAll_append, encodeAll_uintIfSet, write, encodeAll,
    List.flatMap_map, List.ofFn_eq_map, List.flatMap_map]
  rfl

/-- A spread of at least one word a column fits its record. -/
theorem Carries.recordable
    {spread : Spread}
    {message : Bytes}
    (carries : spread.Carries message)
    (long : 2 * polynomials ≤ message.length) :
    spread.Recordable := by
  refine ⟨carries.nextFits, fun fitted column isEmpty => ?_⟩
  rcases carries.columns with ⟨raw, _⟩ | ⟨_, columns⟩
  · rw [raw] at fitted
    cases fitted
  · have present :
        0 < (columnOf (wordsOf message) column).length := by
      rw [length_columnOf, length_wordsOf]
      refine lt_needFor.mpr ?_
      have inside := column.isLt
      omega
    have length := congrArg List.length (columns ▸ isEmpty)
    rw [length_fit_columnPoints (columnOf_short carries.short column)]
      at length
    exact absurd length (Nat.ne_of_gt present)

/-- The number of a column's field. -/
private theorem read_column
    (draft : Draft)
    (fitted : Bool)
    (data : Bytes) :
    draft.read (Field.ofBytes (if fitted then 3 else 2) data) =
      draft.readColumn fitted data := by
  cases fitted <;> rfl

/-- Columns read back one after the other. -/
private theorem readColumns
    (fitted : Bool)
    (lists : List (List Gf16))
    (draft : Draft)
    (room : draft.counts fitted + lists.length ≤ polynomials) :
    (lists.map fun words =>
        Field.ofBytes (if fitted then 3 else 2)
          (bytesOf words)).foldlM Draft.read draft =
      .ok { draft with
        counts :=
          Function.update draft.counts fitted
            (draft.counts fitted + lists.length)
        columns := filled draft.columns (draft.counts fitted) lists } := by
  induction lists generalizing draft with
  | nil =>
      simp only [List.map_nil, List.foldlM_nil, filled_nil,
        List.length_nil, Nat.add_zero, Function.update_eq_self]
      rfl
  | cons words rest inductionHypothesis =>
      rw [List.length_cons] at room
      have more :
          ¬ (polynomials ≤ draft.counts fitted ∨
            (bytesOf words).length % 2 ≠ 0) := by
        rw [length_bytesOf]
        omega
      rw [List.map_cons, List.foldlM_cons, read_column, Draft.readColumn,
        if_neg more, Outcome.ok_bind, wordsOf_bytesOf,
        inductionHypothesis _ (by
          simp only [Function.update_self]
          omega)]
      simp only [Function.update_self, Function.update_idem, filled_cons,
        List.length_cons, Nat.add_assoc, Nat.add_comm 1]

/-- What a spread writes reads back. -/
theorem read_write
    {spread : Spread}
    (recordable : spread.Recordable)
    (short : spread.write.length < 2 ^ 64) :
    read spread.write = .ok spread := by
  have plain : ∀ field ∈ spread.fields, field.Plain := by
    intro field member
    rcases List.mem_append.mp member with inNext | inColumns
    · exact Field.Plain.uintIfSet (by decide) (by decide)
        (Nat.lt_trans recordable.next (by decide)) field inNext
    · rcases List.mem_map.mp inColumns with ⟨words, _, rfl⟩
      cases spread.fitted <;> exact .bytes (by decide) (by decide)
  have nextReads :
      (Field.uintIfSet 1 spread.next).foldlM Draft.read Draft.empty =
        .ok { Draft.empty with next := spread.next } := by
    refine foldlM_uintIfSet Draft.read ?_ ?_
    · simp only [Draft.read, Field.number_ofUint,
        Field.uintOrZero_ofUint, Outcome.castTo_of_lt recordable.next]
      rfl
    · intro isZero
      rw [isZero]
      rfl
  rw [← encodeAll_fields] at short ⊢
  rw [read, fold_plain .badRecord Draft.read plain short, fields,
    foldlM_append_ok nextReads,
    readColumns spread.fitted (List.ofFn spread.columns) _
      (by rw [List.length_ofFn]; exact Nat.le_of_eq (Nat.zero_add _)),
    Outcome.ok_bind]
  have columns :
      filled Draft.empty.columns (Draft.empty.counts spread.fitted)
          (List.ofFn spread.columns) =
        spread.columns :=
    filled_ofFn spread.columns
  rw [columns, List.length_ofFn]
  rcases spread with ⟨next, values, fitted⟩
  cases fitted with
  | false => exact Draft.finish_raw rfl rfl
  | true => exact Draft.finish_fitted rfl rfl (recordable.fitted rfl)

end Spread

namespace Gather

/-! ## The record of a gather -/

/-- A point in four bytes, its place first. -/
def pointBytes (point : Point) : Bytes :=
  wordBytes point.1 ++ wordBytes point.2

/-- The points of a column one after the other. -/
def pointsBytes (column : List Point) : Bytes :=
  column.flatMap pointBytes

/-- The points of some bytes; a rest of less than four is left out. -/
def pointsOf : Bytes → List Point
  | xHigh :: xLow :: yHigh :: yLow :: rest =>
      (wordOf xHigh xLow, wordOf yHigh yLow) :: pointsOf rest
  | _ => []

@[simp] theorem pointsOf_pointsBytes (column : List Point) :
    pointsOf (pointsBytes column) = column := by
  induction column with
  | nil => rfl
  | cons point rest inductionHypothesis =>
      have first := wordOf_wordBytes point.1
      have second := wordOf_wordBytes point.2
      simp only [pointsBytes, List.flatMap_cons, pointBytes, wordBytes,
        List.cons_append, List.nil_append, pointsOf] at inductionHypothesis ⊢
      rw [inductionHypothesis, first, second]

@[simp] theorem length_pointsBytes (column : List Point) :
    (pointsBytes column).length = 4 * column.length := by
  induction column with
  | nil => rfl
  | cons point rest inductionHypothesis =>
      rw [pointsBytes, List.flatMap_cons, List.length_append,
        ← pointsBytes, inductionHypothesis, List.length_cons]
      simp only [pointBytes, wordBytes, List.length_append,
        List.length_cons, List.length_nil]
      omega

/--
The record: how many points are needed, the columns and whether the message is
done.
-/
def write (gather : Gather) : Bytes :=
  Writer.uintIfSet 1 gather.needed ++ Writer.uint 2 polynomials ++
    ((List.finRange polynomials).flatMap fun column =>
      Writer.bytes 3 (pointsBytes (gather.points column))) ++
    if gather.done then Writer.uint 4 1 else []

/-- What has been read so far. -/
structure Draft where
  needed : Nat
  columns : Nat
  points : Columns Point
  done : Bool

/-- What is known before the first field. -/
def Draft.empty : Draft :=
  ⟨0, 0, fun _ => [], false⟩

/-- Takes in the next column, if there is room for one more. -/
def Draft.readColumn
    (draft : Draft)
    (data : Bytes) :
    Outcome RatchetError Draft :=
  if polynomials ≤ draft.columns ∨ data.length % 4 ≠ 0 then
    .error .badRecord
  else
    .ok { draft with
      columns := draft.columns + 1
      points := fillColumn draft.points draft.columns (pointsOf data) }

/-- Takes in one field of the record. -/
def Draft.read
    (draft : Draft)
    (field : Field) :
    Outcome RatchetError Draft :=
  match field.number with
  | 1 => .ok { draft with needed := field.uintOrZero }
  | 3 => field.bytesOr .badRecord >>= draft.readColumn
  | 4 => .ok { draft with done := decide (field.uintOrZero ≠ 0) }
  | _ => .ok draft

/-- A gather has all of its columns. -/
def Draft.finish (draft : Draft) : Outcome RatchetError Gather :=
  if draft.columns = polynomials then
    .ok ⟨draft.needed, draft.points, draft.done⟩
  else
    .error .badRecord

/-- Reads a gather from its record. -/
def read (data : Bytes) : Outcome RatchetError Gather := do
  let draft ← fold .badRecord Draft.read data Draft.empty
  draft.finish

/-- The fields that `write` writes. -/
def fields (gather : Gather) : List Field :=
  Field.uintIfSet 1 gather.needed ++ [Field.ofUint 2 polynomials] ++
    ((List.ofFn gather.points).map fun points =>
      Field.ofBytes 3 (pointsBytes points)) ++
    if gather.done then [Field.ofUint 4 1] else []

/-- The record is that of the fields. -/
theorem encodeAll_fields (gather : Gather) :
    encodeAll gather.fields = gather.write := by
  have columns :
      encodeAll ((List.ofFn gather.points).map fun points =>
          Field.ofBytes 3 (pointsBytes points)) =
        (List.finRange polynomials).flatMap fun column =>
          Writer.bytes 3 (pointsBytes (gather.points column)) := by
    rw [encodeAll, List.flatMap_map, List.ofFn_eq_map, List.flatMap_map]
    rfl
  rw [fields, encodeAll_append, encodeAll_append, encodeAll_append,
    encodeAll_uintIfSet, columns, write]
  cases gather.done <;> simp

/-- Columns read back one after the other. -/
private theorem readColumns
    (lists : List (List Point))
    (draft : Draft)
    (room : draft.columns + lists.length ≤ polynomials) :
    (lists.map fun points =>
        Field.ofBytes 3 (pointsBytes points)).foldlM Draft.read draft =
      .ok { draft with
        columns := draft.columns + lists.length
        points := filled draft.points draft.columns lists } := by
  induction lists generalizing draft with
  | nil =>
      simp only [List.map_nil, List.foldlM_nil, filled_nil]
      rfl
  | cons points rest inductionHypothesis =>
      rw [List.length_cons] at room
      have more :
          ¬ (polynomials ≤ draft.columns ∨
            (pointsBytes points).length % 4 ≠ 0) := by
        rw [length_pointsBytes]
        omega
      have reads :
          draft.read (Field.ofBytes 3 (pointsBytes points)) =
            .ok { draft with
              columns := draft.columns + 1
              points := fillColumn draft.points draft.columns points } := by
        have read_three :
            draft.read (Field.ofBytes 3 (pointsBytes points)) =
              draft.readColumn (pointsBytes points) :=
          rfl
        rw [read_three, Draft.readColumn, if_neg more,
          pointsOf_pointsBytes]
      rw [List.map_cons, List.foldlM_cons, reads, Outcome.ok_bind,
        inductionHypothesis _ (by simp only; omega), filled_cons,
        List.length_cons, Nat.add_assoc, Nat.add_comm 1]

/-- What a gather writes reads back. -/
theorem read_write
    {gather : Gather}
    (neededFits : gather.needed < 2 ^ 64)
    (short : gather.write.length < 2 ^ 64) :
    read gather.write = .ok gather := by
  have plain : ∀ field ∈ gather.fields, field.Plain := by
    intro field member
    simp only [fields, List.mem_append, List.mem_singleton] at member
    rcases member with ((inNeeded | rfl) | inColumns) | inDone
    · exact Field.Plain.uintIfSet (by decide) (by decide) neededFits field
        inNeeded
    · exact .uint (by decide) (by decide) (by decide)
    · rcases List.mem_map.mp inColumns with ⟨points, _, rfl⟩
      exact .bytes (by decide) (by decide)
    · split_ifs at inDone
      · rw [List.mem_singleton] at inDone
        subst inDone
        exact .uint (by decide) (by decide) (by decide)
      · cases inDone
  have neededReads :
      (Field.uintIfSet 1 gather.needed).foldlM Draft.read Draft.empty =
        .ok { Draft.empty with needed := gather.needed } := by
    refine foldlM_uintIfSet Draft.read rfl ?_
    intro isZero
    rw [isZero]
    rfl
  have columns :
      filled Draft.empty.points Draft.empty.columns
          (List.ofFn gather.points) =
        gather.points :=
    filled_ofFn gather.points
  have columnsRead :=
    readColumns (List.ofFn gather.points)
      { Draft.empty with needed := gather.needed }
      (by rw [List.length_ofFn]; exact Nat.le_of_eq (Nat.zero_add _))
  rw [columns, List.length_ofFn] at columnsRead
  have polynomialsRead :
      [Field.ofUint 2 polynomials].foldlM Draft.read
          { Draft.empty with needed := gather.needed } =
        .ok { Draft.empty with needed := gather.needed } :=
    rfl
  rw [← encodeAll_fields] at short ⊢
  rw [read, fold_plain .badRecord Draft.read plain short, fields,
    List.append_assoc, List.append_assoc, foldlM_append_ok neededReads,
    foldlM_append_ok polynomialsRead, foldlM_append_ok columnsRead]
  rcases gather with ⟨needed, points, done⟩
  cases done <;> rfl

end Gather

end ErasureCode

end Gossveil
