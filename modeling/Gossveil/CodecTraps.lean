import Gossveil.CodecWalk
import Gossveil.CodeRecord

namespace Gossveil.Codec

/-!
# When a parser's loop traps

A parser walks the fields of a message and takes one step for each.  It reaches
illegal behaviour at an overlong field, or at a field its step cannot take, if
no error has ended the loop before.
-/

universe u v

variable {ε : Type u} {σ : Type v}

namespace Reader

/-- A call traps exactly at an overlong field. -/
theorem next_eq_trap
    {reader : Reader}
    (fits : reader.data.length < 2 ^ 64)
    (inside : reader.pos ≤ reader.data.length) :
    (reader.next 64).2 = .trap ↔ reader.Overlong 64 := by
  constructor
  · intro traps
    by_contra notLong
    exact ((callSafe_iff fits inside).mpr notLong).noTrap traps
  · rintro ⟨more, start, size, sized, long⟩
    rcases next_cases 64 more with
      ⟨noField, _⟩ | ⟨after, kind, number, field, forward, shape⟩
    · rw [sizedAhead, noField] at sized
      cases sized
    · rw [shape]
      refine (value_eq_trap (by rw [forward.data]; exact fits)
        (forward.inside inside)).mpr ⟨start, size, ?_, long⟩
      rw [sizedAhead, field] at sized
      exact sized

/-- The bytes of a field are no longer than the message they came in. -/
theorem length_bytes_le
    {reader after : Reader}
    {field : Field}
    {data : Bytes}
    (inside : reader.pos ≤ reader.data.length)
    (reads : reader.next 64 = (after, .ok (some field)))
    (isBytes : field.bytes = some data) :
    data.length ≤ reader.data.length := by
  have kind : field.kind = .bytes ∧ field.byteValue = data := by
    unfold Field.bytes at isBytes
    split_ifs at isBytes with kind
    exact ⟨kind, Option.some.inj isBytes⟩
  have more : reader.pos < reader.data.length := by
    by_contra ended
    rw [next, if_pos (Nat.not_lt.mp ended)] at reads
    cases reads
  rcases next_cases 64 more with
    ⟨_, fault, fails⟩ | ⟨behindTag, fieldKind, number, _, forward, shape⟩
  · rw [reads] at fails
    cases fails
  · rw [shape] at reads
    have readsValue := congrArg Prod.snd reads
    rcases value_eq_ok (forward.inside inside) readsValue with
      ⟨found, same, located⟩
    cases same
    rcases located kind.1 with ⟨start, _, taken⟩
    have length := congrArg List.length taken
    rw [List.length_take, List.length_drop, forward.data, kind.2] at length
    omega

end Reader

/-- A field of bytes on which something is said. -/
def Field.Embeds (field : Field) (Says : Bytes → Prop) : Prop :=
  ∃ data, field.bytes = some data ∧ Says data

theorem Field.embeds_congr
    {field : Field}
    {Says Holds : Bytes → Prop}
    (same : ∀ data, field.bytes = some data → (Says data ↔ Holds data)) :
    field.Embeds Says ↔ field.Embeds Holds :=
  exists_congr fun data => and_congr_right fun isBytes => same data isBytes

/-- Reading the bytes of a field traps when what is done with them does. -/
theorem Field.bytesOr_bind_eq_trap
    {ε α : Type}
    {fault : ε}
    {field : Field}
    {next : Bytes → Outcome ε α} :
    field.bytesOr fault >>= next = .trap ↔
      field.Embeds fun data => next data = .trap := by
  unfold Field.bytesOr Field.Embeds
  cases field.bytes with
  | none => simp
  | some data => simp

/-- The bytes of a field, if it has any, fit a slice. -/
def Field.Short (field : Field) : Prop :=
  ∀ data, field.bytes = some data → data.length < 2 ^ 64

/--
The loop of a parser comes to an overlong field, or to one that is bad for the
state it has by then.
-/
inductive Stuck
    (step : σ → Field → Outcome ε σ)
    (Bad : σ → Field → Prop) :
    Reader → σ → Prop where
  | overlong
      {reader : Reader}
      {state : σ}
      (long : reader.Overlong 64) :
      Stuck step Bad reader state
  | bad
      {reader after : Reader}
      {state : σ}
      {field : Field}
      (reads : reader.next 64 = (after, .ok (some field)))
      (bad : Bad state field) :
      Stuck step Bad reader state
  | later
      {reader after : Reader}
      {state next : σ}
      {field : Field}
      (reads : reader.next 64 = (after, .ok (some field)))
      (steps : step state field = .ok next)
      (rest : Stuck step Bad after next) :
      Stuck step Bad reader state

/-- What a loop over a whole message is stuck on. -/
def StuckIn
    (step : σ → Field → Outcome ε σ)
    (Bad : σ → Field → Prop)
    (data : Bytes)
    (state : σ) :
    Prop :=
  Stuck step Bad (Reader.init data) state

variable
  {fault : ε}
  {step : σ → Field → Outcome ε σ}
  {Bad : σ → Field → Prop}

/-- The reader behind a field is over the same message and has moved on. -/
private theorem behind_field
    {reader after : Reader}
    {field : Field}
    (inside : reader.pos ≤ reader.data.length)
    (reads : reader.next 64 = (after, .ok (some field))) :
    after.data = reader.data ∧
      reader.pos < after.pos ∧
      after.pos ≤ after.data.length := by
  have forward := reader.next_forward 64
  have more : reader.pos < reader.data.length := by
    by_contra ended
    rw [Reader.next, if_pos (Nat.not_lt.mp ended)] at reads
    cases reads
  have progress := Reader.next_progress 64 more
  rw [reads] at forward progress
  exact ⟨forward.data, progress, forward.inside inside⟩

/-- A loop is stuck at its cursor, or goes on and is stuck later. -/
theorem stuck_iff
    {reader : Reader}
    {state : σ} :
    Stuck step Bad reader state ↔
      reader.Overlong 64 ∨
        ∃ after field,
          reader.next 64 = (after, .ok (some field)) ∧
            (Bad state field ∨
              ∃ next, step state field = .ok next ∧
                Stuck step Bad after next) := by
  constructor
  · intro stuck
    cases stuck with
    | overlong long => exact Or.inl long
    | bad reads bad => exact Or.inr ⟨_, _, reads, Or.inl bad⟩
    | later reads steps rest =>
        exact Or.inr ⟨_, _, reads, Or.inr ⟨_, steps, rest⟩⟩
  · rintro (long | ⟨after, field, reads, bad | ⟨next, steps, rest⟩⟩)
    · exact .overlong long
    · exact .bad reads bad
    · exact .later reads steps rest

/-- A loop over the fields traps exactly where it is stuck. -/
theorem foldFrom_eq_trap
    {turns : Nat}
    {reader : Reader}
    {state : σ}
    (stepTraps :
      ∀ state field, field.Short →
        (step state field = .trap ↔ Bad state field))
    (fits : reader.data.length < 2 ^ 64)
    (inside : reader.pos ≤ reader.data.length)
    (enough : reader.data.length < reader.pos + turns) :
    foldFrom fault step turns reader state = .trap ↔
      Stuck step Bad reader state := by
  induction turns generalizing reader state with
  | zero => exact absurd inside (Nat.not_le.mpr enough)
  | succ turns inductionHypothesis =>
      rw [foldFrom, stuck_iff, ← Reader.next_eq_trap fits inside]
      rcases reads : reader.next 64 with ⟨after, (_ | field) | _ | _⟩
      · simp
      · rcases behind_field inside reads with
          ⟨sameData, moved, insideAfter⟩
        have short : field.Short := fun data isBytes =>
          Nat.lt_of_le_of_lt
            (Reader.length_bytes_le inside reads isBytes) fits
        have rest :
            ∀ following,
              foldFrom fault step turns after following = .trap ↔
                Stuck step Bad after following := by
          intro following
          refine inductionHypothesis ?_ insideAfter ?_
          · rw [sameData]
            exact fits
          · rw [sameData]
            omega
        simp only [Outcome.bind_eq_trap, stepTraps state field short, rest]
        constructor
        · intro stuck
          exact Or.inr ⟨after, field, rfl, stuck⟩
        · rintro (impossible | ⟨_, _, ⟨⟩, stuck⟩)
          · cases impossible
          · exact stuck
      · simp
      · simp

/-- A parser traps exactly when its loop gets stuck. -/
theorem fold_eq_trap
    {data : Bytes}
    {state : σ}
    (stepTraps :
      ∀ state field, field.Short →
        (step state field = .trap ↔ Bad state field))
    (short : data.length < 2 ^ 64) :
    fold fault step data state = .trap ↔ StuckIn step Bad data state :=
  foldFrom_eq_trap stepTraps short (Nat.zero_le _) (by
    change data.length < 0 + (data.length + 1)
    omega)

/-- The bytes of a field, if it has any, are no longer than a limit. -/
def Field.Within (limit : Nat) (field : Field) : Prop :=
  ∀ data, field.bytes = some data → data.length ≤ limit

/-- What every step on a field within the message keeps holds of the result. -/
theorem foldFrom_preserves_within
    {Holds : σ → Prop}
    {limit : Nat}
    (stepKeeps :
      ∀ {state field next},
        Holds state →
        field.Within limit →
        step state field = .ok next →
        Holds next)
    {turns : Nat}
    {reader : Reader}
    {state result : σ}
    (fits : reader.data.length ≤ limit)
    (inside : reader.pos ≤ reader.data.length)
    (before : Holds state)
    (returned : foldFrom fault step turns reader state = .ok result) :
    Holds result := by
  induction turns generalizing reader state with
  | zero => cases returned
  | succ turns inductionHypothesis =>
      rw [foldFrom] at returned
      rcases reads : reader.next 64 with ⟨after, (_ | field) | _ | _⟩ <;>
        rw [reads] at returned
      · cases returned
        exact before
      · rcases Outcome.bind_eq_ok.mp returned with ⟨next, steps, rest⟩
        rcases behind_field inside reads with ⟨sameData, _, insideAfter⟩
        have within : field.Within limit := fun data isBytes =>
          Nat.le_trans (Reader.length_bytes_le inside reads isBytes) fits
        refine inductionHypothesis ?_ insideAfter
          (stepKeeps before within steps) rest
        rw [sameData]
        exact fits
      · cases returned
      · cases returned

/-- An invariant of the loop may use that its fields are short. -/
theorem fold_preserves_within
    {Holds : σ → Prop}
    {limit : Nat}
    (stepKeeps :
      ∀ {state field next},
        Holds state →
        field.Within limit →
        step state field = .ok next →
        Holds next)
    {data : Bytes}
    {state result : σ}
    (fits : data.length ≤ limit)
    (before : Holds state)
    (returned : fold fault step data state = .ok result) :
    Holds result :=
  foldFrom_preserves_within stepKeeps fits (Nat.zero_le _) before returned

/-- The same for messages that fit a slice. -/
theorem fold_preserves_short
    {Holds : σ → Prop}
    (stepKeeps :
      ∀ {state field next},
        Holds state →
        field.Short →
        step state field = .ok next →
        Holds next)
    {data : Bytes}
    {state result : σ}
    (short : data.length < 2 ^ 64)
    (before : Holds state)
    (returned : fold fault step data state = .ok result) :
    Holds result := by
  apply fold_preserves_within _ (Nat.le_refl _) before returned
  intro state field next holds within stepped
  exact stepKeeps holds
    (fun bytes isBytes => Nat.lt_of_le_of_lt (within bytes isBytes) short)
    stepped

/-! ## Fields the reader makes -/

/-- A field some call of the reader has returned. -/
def Field.IsRead (field : Field) : Prop :=
  ∃ reader after, Reader.next 64 reader = (after, .ok (some field))

/-- A varint fits 64 bits. -/
theorem varintLoop_lt
    {ahead : Bytes}
    {shift entered taken count value : Nat}
    (small : entered < 2 ^ 64)
    (read : varintLoop ahead shift entered taken = (count, .ok value)) :
    value < 2 ^ 64 := by
  induction ahead generalizing shift entered taken with
  | nil =>
      cases read
  | cons byte rest inductionHypothesis =>
      have joined :
          entered ||| (byte.toNat % 128) <<< shift % 2 ^ 64 < 2 ^ 64 :=
        Nat.or_lt_two_pow small (Nat.mod_lt _ (by decide))
      simp only [varintLoop] at read
      split_ifs at read
      · simp only [Prod.mk.injEq, Outcome.ok.injEq] at read
        rw [← read.2]
        exact joined
      · cases read
      · exact inductionHypothesis joined read
      · cases read

/-- An integer that has been read is a 64-bit integer. -/
theorem Field.IsRead.uint_lt
    {field : Field}
    {value : Nat}
    (isRead : field.IsRead)
    (isUint : field.uint = some value) :
    value < 2 ^ 64 := by
  obtain ⟨reader, after, reads⟩ := isRead
  have more : reader.pos < reader.data.length := by
    by_contra ended
    rw [Reader.next, if_pos (Nat.not_lt.mp ended)] at reads
    cases reads
  rcases Reader.next_cases 64 more with
    ⟨_, fault, fails⟩ | ⟨start, kind, number, _, _, shape⟩
  · rw [reads] at fails
    cases fails
  · have readsValue := congrArg Prod.snd (shape.symm.trans reads)
    cases kind with
    | uint =>
        obtain ⟨number, isNumber, made⟩ := Outcome.map_eq_ok.mp readsValue
        cases made
        cases isUint
        exact varintLoop_lt (by decide) (Prod.ext rfl isNumber)
    | word64 =>
        obtain ⟨_, _, made⟩ := Outcome.map_eq_ok.mp readsValue
        cases made
        cases isUint
    | word32 =>
        obtain ⟨_, _, made⟩ := Outcome.map_eq_ok.mp readsValue
        cases made
        cases isUint
    | bytes =>
        simp only [Reader.value] at readsValue
        split at readsValue
        · split_ifs at readsValue
          obtain ⟨_, _, made⟩ := Outcome.map_eq_ok.mp readsValue
          cases made
          cases isUint
        · cases readsValue
        · cases readsValue

theorem Field.IsRead.uintOrZero_lt
    {field : Field}
    (isRead : field.IsRead) :
    field.uintOrZero < 2 ^ 64 := by
  unfold Field.uintOrZero
  cases isUint : field.uint with
  | none => decide
  | some value => exact isRead.uint_lt isUint

/-- What every step on a field that has been read keeps holds of the result. -/
theorem foldFrom_preserves_read
    {fault : ε}
    {step : σ → Field → Outcome ε σ}
    {Holds : σ → Prop}
    (stepKeeps :
      ∀ {state field next},
        Holds state →
        field.IsRead →
        step state field = .ok next →
        Holds next)
    {turns : Nat}
    {reader : Reader}
    {state result : σ}
    (before : Holds state)
    (returned : foldFrom fault step turns reader state = .ok result) :
    Holds result := by
  induction turns generalizing reader state with
  | zero => cases returned
  | succ turns inductionHypothesis =>
      rw [foldFrom] at returned
      rcases reads : reader.next 64 with ⟨after, (_ | field) | _ | _⟩ <;>
        rw [reads] at returned
      · cases returned
        exact before
      · obtain ⟨next, steps, rest⟩ := Outcome.bind_eq_ok.mp returned
        exact inductionHypothesis
          (stepKeeps before ⟨reader, after, reads⟩ steps) rest
      · cases returned
      · cases returned

/-- An invariant of the loop may use that its fields were read. -/
theorem fold_preserves_read
    {fault : ε}
    {step : σ → Field → Outcome ε σ}
    {Holds : σ → Prop}
    (stepKeeps :
      ∀ {state field next},
        Holds state →
        field.IsRead →
        step state field = .ok next →
        Holds next)
    {data : Bytes}
    {state result : σ}
    (before : Holds state)
    (returned : fold fault step data state = .ok result) :
    Holds result :=
  foldFrom_preserves_read stepKeeps before returned

section Find

variable {α : Type v}

/-- The step of a parser that goes on over the fields it does not know. -/
def skipUnknown
    (fault : ε)
    (known : Field → Option (Outcome ε α))
    (_ : PUnit.{v + 1})
    (field : Field) :
    Outcome ε PUnit.{v + 1} :=
  match known field with
  | none => .ok ⟨⟩
  | some (.trap) => .trap
  | some _ => .error fault

/-- A search traps exactly where skipping the unknown fields does. -/
theorem findFrom_eq_trap
    {known : Field → Option (Outcome ε α)}
    {turns : Nat}
    {reader : Reader} :
    findFrom fault known turns reader = .trap ↔
      foldFrom fault (skipUnknown fault known) turns reader ⟨⟩ = .trap := by
  induction turns generalizing reader with
  | zero => exact iff_of_true rfl rfl
  | succ turns inductionHypothesis =>
      rw [findFrom, foldFrom]
      rcases reader.next 64 with ⟨after, (_ | field) | _ | _⟩
      · simp
      · simp only [skipUnknown]
        cases known field with
        | none => exact inductionHypothesis
        | some result => cases result <;> simp
      · simp
      · simp

/-- A search traps when its loop gets stuck before a field it knows. -/
theorem find_eq_trap
    {known : Field → Option (Outcome ε α)}
    {Bad : Field → Prop}
    {data : Bytes}
    (knownTraps :
      ∀ field, field.Short → (known field = some .trap ↔ Bad field))
    (short : data.length < 2 ^ 64) :
    find fault known data = .trap ↔
      StuckIn (skipUnknown fault known) (fun _ => Bad) data ⟨⟩ := by
  refine findFrom_eq_trap.trans (fold_eq_trap ?_ short)
  intro state field fieldShort
  rw [← knownTraps field fieldShort, skipUnknown]
  split <;> rename_i isKnown <;> simp [isKnown]
  rename_i known notTrap
  exact fun isTrap => notTrap isTrap

end Find

end Gossveil.Codec
