import Gossveil.Codec

namespace Gossveil.Codec

/-!
# Walking attacker-controlled bytes

`Reader.next` is called again and again from offset zero.  The varint loop and
the tag never trap.  The one operation that can is the end of a sized value:
a length read from the input is added to the cursor before it is compared with
the input's length.
-/

/-- The loop takes at least the byte it looks at and never runs past the end. -/
theorem varintLoop_taken
    (ahead : Bytes)
    (shift value taken : Nat) :
    taken ≤ (varintLoop ahead shift value taken).1 ∧
      (varintLoop ahead shift value taken).1 ≤ taken + ahead.length ∧
      (ahead ≠ [] → taken < (varintLoop ahead shift value taken).1) := by
  induction ahead generalizing shift value taken with
  | nil =>
      simp [varintLoop]
  | cons byte rest inductionHypothesis =>
      simp only [varintLoop, List.length_cons]
      have later :=
        inductionHypothesis (shift + 7)
          (value ||| (byte.toNat % 128) <<< shift % 2 ^ 64) (taken + 1)
      split_ifs <;> first | (simp; done) | omega

/-- The shift stays a multiple of seven below 64, so its addition never overflows. -/
theorem varintLoop_ne_trap
    (ahead : Bytes)
    {shift : Nat}
    (value taken : Nat)
    (aligned : shift % 7 = 0)
    (small : shift ≤ 63) :
    (varintLoop ahead shift value taken).2 ≠ .trap := by
  induction ahead generalizing shift value taken with
  | nil =>
      simp [varintLoop]
  | cons byte rest inductionHypothesis =>
      simp only [varintLoop]
      split_ifs with last full fits
      · simp
      · simp
      · exact inductionHypothesis _ _ (by omega) (by omega)
      · omega

namespace Reader

@[simp] theorem data_skip (reader : Reader) (count : Nat) :
    (reader.skip count).data = reader.data :=
  rfl

@[simp] theorem pos_skip (reader : Reader) (count : Nat) :
    (reader.skip count).pos = reader.pos + count :=
  rfl

@[simp] theorem length_ahead (reader : Reader) :
    reader.ahead.length = reader.data.length - reader.pos := by
  simp [ahead]

/-- One step of the walk never leaves the input and never goes back. -/
structure Forward (before after : Reader) : Prop where
  data : after.data = before.data
  ordered : before.pos ≤ after.pos
  inside : before.pos ≤ before.data.length → after.pos ≤ after.data.length

namespace Forward

theorem refl (reader : Reader) : Forward reader reader :=
  ⟨rfl, le_rfl, id⟩

theorem trans
    {first second third : Reader}
    (earlier : Forward first second)
    (later : Forward second third) :
    Forward first third where
  data := later.data.trans earlier.data
  ordered := earlier.ordered.trans later.ordered
  inside := fun start => later.inside (earlier.data ▸ earlier.inside start)

end Forward

theorem varint_forward (reader : Reader) :
    Forward reader reader.varint.1 := by
  have taken := varintLoop_taken reader.ahead 0 0 0
  rw [length_ahead] at taken
  refine ⟨rfl, ?_, ?_⟩
  · simp [varint]
  · intro start
    simp only [varint, pos_skip, data_skip]
    omega

/-- Reading a varint takes at least one byte. -/
theorem varint_progress
    {reader : Reader}
    (more : reader.pos < reader.data.length) :
    reader.pos < reader.varint.1.pos := by
  have taken := varintLoop_taken reader.ahead 0 0 0
  have nonempty : reader.ahead ≠ [] := by
    intro empty
    have := congrArg List.length empty
    simp at this
    omega
  simp only [varint, pos_skip]
  have := taken.2.2 nonempty
  omega

/-- A varint never traps. -/
theorem varint_ne_trap (reader : Reader) :
    reader.varint.2 ≠ .trap :=
  varintLoop_ne_trap reader.ahead 0 0 rfl (by omega)

/-- Reading a slice never goes back. -/
theorem slice_forward
    (usizeBits : Nat)
    (reader : Reader)
    (size : Nat) :
    Forward reader (reader.slice usizeBits size).1 := by
  unfold slice
  split_ifs with present
  · refine ⟨rfl, by simp, ?_⟩
    intro start
    simp only [pos_skip, data_skip]
    omega
  · exact .refl reader
  · exact .refl reader

/-- Reading a value never goes back. -/
theorem value_forward
    (usizeBits : Nat)
    (reader : Reader)
    (number : Nat)
    (kind : Kind) :
    Forward reader (reader.value usizeBits number kind).1 := by
  cases kind with
  | uint =>
      exact reader.varint_forward
  | word64 =>
      exact slice_forward usizeBits reader 8
  | word32 =>
      exact slice_forward usizeBits reader 4
  | bytes =>
      have first := reader.varint_forward
      simp only [value]
      split <;> rename_i after _ taken <;> rw [taken] at first
      · split_ifs
        · exact first
        · exact first.trans (slice_forward usizeBits after _)
      · exact first
      · exact first

/-- A call keeps the input and moves the cursor forward inside it. -/
theorem next_forward
    (usizeBits : Nat)
    (reader : Reader) :
    Forward reader (reader.next usizeBits).1 := by
  have first := reader.varint_forward
  simp only [next]
  split_ifs
  · exact .refl reader
  · split <;> rename_i after _ taken <;> rw [taken] at first
    · split_ifs
      · exact first
      · split
        · exact first
        · exact first.trans (value_forward usizeBits after _ _)
    · exact first
    · exact first

/-- Before the end every call consumes input, also one that fails. -/
theorem next_progress
    (usizeBits : Nat)
    {reader : Reader}
    (more : reader.pos < reader.data.length) :
    reader.pos < (reader.next usizeBits).1.pos := by
  have first := varint_progress more
  simp only [next, if_neg (Nat.not_le.mpr more)]
  split <;> rename_i after _ taken <;> rw [taken] at first
  · split_ifs
    · exact first
    · split
      · exact first
      · exact first.trans_le (value_forward usizeBits after _ _).ordered
  · exact first
  · exact first

/-- The kind of the field ahead and the reader behind its tag. -/
def fieldAhead (reader : Reader) : Option (Reader × Kind) :=
  match reader.varint with
  | (after, .ok tag) =>
      if tagNumber tag = 0 then
        none
      else
        (Kind.ofCode (tag % 8)).map (after, ·)
  | _ => none

/-- Where a sized value starts behind its tag (and length), and its size. -/
def sizedAfterTag (reader : Reader) : Kind → Option (Nat × Nat)
  | .uint => none
  | .word64 => some (reader.pos, 8)
  | .word32 => some (reader.pos, 4)
  | .bytes =>
      match reader.varint with
      | (start, .ok len) => some (start.pos, len)
      | _ => none

/-- Where the sized value of the field ahead starts, and its size. -/
def sizedAhead (reader : Reader) : Option (Nat × Nat) :=
  reader.fieldAhead.bind fun (after, kind) => after.sizedAfterTag kind

/--
The field ahead of the cursor claims to end beyond what a `usize` can count.
For a fixed word this takes an input that fills the address space; for a byte
field the length on the wire alone can do it.
-/
def Overlong (usizeBits : Nat) (reader : Reader) : Prop :=
  reader.pos < reader.data.length ∧
    ∃ start size,
      reader.sizedAhead = some (start, size) ∧
        2 ^ usizeBits ≤ start + size

/-- What one call promises: no trap, and a field only with progress inside the input. -/
structure CallSafe (usizeBits : Nat) (reader : Reader) : Prop where
  noTrap :
    (reader.next usizeBits).2 ≠ .trap
  endsAtEnd :
    (reader.next usizeBits).2 = .ok none →
      reader.data.length ≤ reader.pos
  advances :
    ∀ field,
      (reader.next usizeBits).2 = .ok (some field) →
      reader.pos < (reader.next usizeBits).1.pos ∧
        (reader.next usizeBits).1.pos ≤ reader.data.length
  insideInput :
    ∀ field,
      (reader.next usizeBits).2 = .ok (some field) →
      field.kind = .bytes →
      ∃ start,
        start + field.byteValue.length = (reader.next usizeBits).1.pos ∧
          field.byteValue =
            (reader.data.drop start).take field.byteValue.length
  refusesMissing :
    ∀ start size,
      reader.pos < reader.data.length →
      reader.sizedAhead = some (start, size) →
      reader.data.length < start + size →
      (reader.next usizeBits).2 = .error .truncated

/-- A slice traps exactly when an end past the input cannot be represented. -/
theorem slice_eq_trap
    {usizeBits : Nat}
    {reader : Reader}
    {size : Nat}
    (fits : reader.data.length < 2 ^ usizeBits)
    (inside : reader.pos ≤ reader.data.length) :
    (reader.slice usizeBits size).2 = .trap ↔
      2 ^ usizeBits ≤ reader.pos + size := by
  unfold slice
  split_ifs with present long
  · simp only [false_iff]
    omega
  · simp [long]
  · simp [long]

/-- A slice that is returned lies behind the cursor, inside the input. -/
theorem slice_eq_ok
    {usizeBits : Nat}
    {reader : Reader}
    {size : Nat}
    {taken : Bytes}
    (inside : reader.pos ≤ reader.data.length)
    (sliced : (reader.slice usizeBits size).2 = .ok taken) :
    taken.length = size ∧
      (reader.slice usizeBits size).1 = reader.skip size ∧
      taken = (reader.data.drop reader.pos).take taken.length ∧
      reader.pos + size ≤ reader.data.length := by
  unfold slice at sliced ⊢
  split_ifs at sliced ⊢ with present
  simp only [Outcome.ok.injEq] at sliced
  have length : taken.length = size := by
    rw [← sliced, List.length_take, length_ahead]
    omega
  refine ⟨length, rfl, ?_, by omega⟩
  rw [length, ← sliced, ahead]

/-- A missing slice whose end is representable is refused. -/
theorem slice_truncated
    {usizeBits : Nat}
    {reader : Reader}
    {size : Nat}
    (inside : reader.pos ≤ reader.data.length)
    (missing : reader.data.length < reader.pos + size)
    (small : reader.pos + size < 2 ^ usizeBits) :
    (reader.slice usizeBits size).2 = .error .truncated := by
  unfold slice
  rw [if_neg (by omega), if_neg (by omega)]

/-- Before the end a call fails in the tag or goes on with the value of a known kind. -/
theorem next_cases
    (usizeBits : Nat)
    {reader : Reader}
    (more : reader.pos < reader.data.length) :
    (reader.fieldAhead = none ∧
        ∃ fault, (reader.next usizeBits).2 = .error fault) ∨
      ∃ after kind number,
        reader.fieldAhead = some (after, kind) ∧
          Forward reader after ∧
          reader.next usizeBits = after.value usizeBits number kind := by
  have forward := reader.varint_forward
  have noTrap := reader.varint_ne_trap
  simp only [next, if_neg (Nat.not_le.mpr more), fieldAhead]
  rcases taken : reader.varint with ⟨after, tag | fault | _⟩ <;>
    rw [taken] at forward noTrap
  · by_cases zero : tagNumber tag = 0
    · exact .inl (by simp [zero])
    · cases kindShape : Kind.ofCode (tag % 8) with
      | none =>
          exact .inl (by simp [zero, kindShape])
      | some kind =>
          exact .inr
            ⟨after, kind, tagNumber tag,
              by simp [zero, kindShape], forward,
              by simp [zero, kindShape]⟩
  · exact .inl ⟨rfl, fault, rfl⟩
  · exact (noTrap rfl).elim

/-- A value traps exactly when its claimed end cannot be represented. -/
theorem value_eq_trap
    {usizeBits : Nat}
    {reader : Reader}
    {number : Nat}
    {kind : Kind}
    (fits : reader.data.length < 2 ^ usizeBits)
    (inside : reader.pos ≤ reader.data.length) :
    (reader.value usizeBits number kind).2 = .trap ↔
      ∃ start size,
        reader.sizedAfterTag kind = some (start, size) ∧
          2 ^ usizeBits ≤ start + size := by
  cases kind with
  | uint =>
      simp [value, sizedAfterTag, reader.varint_ne_trap]
  | word64 =>
      simp [value, sizedAfterTag, slice_eq_trap fits inside]
  | word32 =>
      simp [value, sizedAfterTag, slice_eq_trap fits inside]
  | bytes =>
      have forward := reader.varint_forward
      have noTrap := reader.varint_ne_trap
      simp only [value, sizedAfterTag]
      rcases taken : reader.varint with ⟨start, len | fault | _⟩ <;>
        rw [taken] at forward noTrap
      · have startFits : start.data.length < 2 ^ usizeBits := by
          rw [forward.data]
          exact fits
        by_cases long : 2 ^ usizeBits ≤ len
        · simp [long]
          omega
        · simp [long, slice_eq_trap startFits (forward.inside inside)]
      · simp
      · exact (noTrap rfl).elim

/-- A value whose claimed end is past the input, but representable, is refused. -/
theorem value_truncated
    {usizeBits : Nat}
    {reader : Reader}
    {number : Nat}
    {kind : Kind}
    {start size : Nat}
    (inside : reader.pos ≤ reader.data.length)
    (sized : reader.sizedAfterTag kind = some (start, size))
    (missing : reader.data.length < start + size)
    (small : start + size < 2 ^ usizeBits) :
    (reader.value usizeBits number kind).2 = .error .truncated := by
  cases kind with
  | uint =>
      simp [sizedAfterTag] at sized
  | word64 | word32 =>
      simp only [sizedAfterTag, Option.some.injEq, Prod.mk.injEq] at sized
      obtain ⟨rfl, rfl⟩ := sized
      simp [value, slice_truncated inside missing small]
  | bytes =>
      have forward := reader.varint_forward
      simp only [sizedAfterTag] at sized
      simp only [value]
      rcases taken : reader.varint with ⟨after, len | fault | _⟩ <;>
        rw [taken] at forward <;> simp [taken] at sized
      obtain ⟨rfl, rfl⟩ := sized
      rw [← forward.data] at missing
      have refused :=
        slice_truncated (forward.inside inside) missing small
      have short : ¬ 2 ^ usizeBits ≤ len := by
        omega
      simp [short, refused]

/-- A value is a field of the kind read, and a byte value lies inside the input. -/
theorem value_eq_ok
    {usizeBits : Nat}
    {reader : Reader}
    {number : Nat}
    {kind : Kind}
    {result : Option Field}
    (inside : reader.pos ≤ reader.data.length)
    (read : (reader.value usizeBits number kind).2 = .ok result) :
    ∃ field,
      result = some field ∧
        (field.kind = .bytes →
          ∃ start,
            start + field.byteValue.length =
                (reader.value usizeBits number kind).1.pos ∧
              field.byteValue =
                (reader.data.drop start).take field.byteValue.length) := by
  cases kind with
  | uint =>
      obtain ⟨number, _, rfl⟩ := Outcome.map_eq_ok.mp read
      exact ⟨_, rfl, by simp [Field.ofUint]⟩
  | word64 =>
      obtain ⟨taken, _, rfl⟩ := Outcome.map_eq_ok.mp read
      exact ⟨_, rfl, by simp [Field.ofWord64]⟩
  | word32 =>
      obtain ⟨taken, _, rfl⟩ := Outcome.map_eq_ok.mp read
      exact ⟨_, rfl, by simp [Field.ofWord32]⟩
  | bytes =>
      have forward := reader.varint_forward
      simp only [value] at read ⊢
      rcases taken : reader.varint with ⟨start, len | fault | _⟩ <;>
        rw [taken] at forward <;> simp only [taken] at read
      · by_cases long : 2 ^ usizeBits ≤ len
        · simp [long] at read
        · simp only [long, if_false] at read ⊢
          obtain ⟨slice, sliced, rfl⟩ := Outcome.map_eq_ok.mp read
          obtain ⟨length, shape, equal, _⟩ :=
            slice_eq_ok (forward.inside inside) sliced
          refine ⟨_, rfl, fun _ => ⟨start.pos, ?_, ?_⟩⟩
          · simp [shape, length]
          · have same : start.data = reader.data := forward.data
            simpa [same] using equal
      · simp at read
      · simp at read

/-- A call is safe exactly when the field ahead of the cursor is not overlong. -/
theorem callSafe_iff
    {usizeBits : Nat}
    {reader : Reader}
    (fits : reader.data.length < 2 ^ usizeBits)
    (inside : reader.pos ≤ reader.data.length) :
    CallSafe usizeBits reader ↔ ¬ Overlong usizeBits reader := by
  constructor
  · rintro safe ⟨more, start, size, sized, long⟩
    rcases next_cases usizeBits more with
      ⟨noField, _⟩ | ⟨after, kind, number, field, forward, shape⟩
    · simp [sizedAhead, noField] at sized
    · apply safe.noTrap
      rw [shape]
      refine (value_eq_trap (by rw [forward.data]; exact fits)
        (forward.inside inside)).mpr ⟨start, size, ?_, long⟩
      simpa [sizedAhead, field] using sized
  · intro notLong
    by_cases more : reader.pos < reader.data.length
    · rcases next_cases usizeBits more with
        ⟨noField, fault, failed⟩ |
        ⟨after, kind, number, field, forward, shape⟩
      · exact {
          noTrap := by simp [failed]
          endsAtEnd := by simp [failed]
          advances := by simp [failed]
          insideInput := by simp [failed]
          refusesMissing := by simp [sizedAhead, noField]
        }
      · have sameData := forward.data
        have afterInside := forward.inside inside
        have sizedShape : reader.sizedAhead = after.sizedAfterTag kind := by
          simp [sizedAhead, field]
        have small :
            ∀ start size,
              after.sizedAfterTag kind = some (start, size) →
              start + size < 2 ^ usizeBits := by
          intro start size sized
          by_contra long
          exact notLong
            ⟨more, start, size, sizedShape.trans sized, by omega⟩
        refine ⟨?_, ?_, ?_, ?_, ?_⟩
        · rw [shape]
          intro trapped
          obtain ⟨start, size, sized, long⟩ :=
            (value_eq_trap (by rw [sameData]; exact fits)
              afterInside).mp trapped
          have := small start size sized
          omega
        · rw [shape]
          intro ended
          obtain ⟨_, impossible, _⟩ := value_eq_ok afterInside ended
          cases impossible
        · intro _ _
          exact ⟨next_progress usizeBits more,
            (next_forward usizeBits reader).data ▸
              (next_forward usizeBits reader).inside inside⟩
        · rw [shape]
          intro read readShape isBytes
          obtain ⟨found, same, located⟩ := value_eq_ok afterInside readShape
          cases same
          simpa [sameData] using located isBytes
        · rw [shape]
          intro start size _ sized missing
          have sizedAfter := sizedShape.symm.trans sized
          exact value_truncated afterInside sizedAfter
            (by rw [sameData]; exact missing)
            (small start size sizedAfter)
    · have ended : reader.next usizeBits = (reader, .ok none) := by
        simp only [next, if_pos (Nat.not_lt.mp more)]
      exact {
        noTrap := by simp [ended]
        endsAtEnd := fun _ => Nat.not_lt.mp more
        advances := by simp [ended]
        insideInput := by simp [ended]
        refusesMissing := fun _ _ start => (more start).elim
      }

/-- The reader after some calls from the start of the input. -/
def walk (usizeBits : Nat) (data : Bytes) : Nat → Reader
  | 0 => init data
  | calls + 1 => ((walk usizeBits data calls).next usizeBits).1

/-- Every reader of a walk is over the whole input, inside it. -/
theorem walk_inside
    (usizeBits : Nat)
    (data : Bytes)
    (calls : Nat) :
    (walk usizeBits data calls).data = data ∧
      (walk usizeBits data calls).pos ≤ data.length := by
  induction calls with
  | zero =>
      exact ⟨rfl, Nat.zero_le _⟩
  | succ calls inductionHypothesis =>
      have step := next_forward usizeBits (walk usizeBits data calls)
      obtain ⟨sameData, inside⟩ := inductionHypothesis
      have insideAfter := step.inside (by rw [sameData]; exact inside)
      have dataAfter := step.data.trans sameData
      rw [dataAfter] at insideAfter
      exact ⟨dataAfter, insideAfter⟩

/-- After some calls a walk has ended or has taken a byte in each. -/
theorem walk_progress
    (usizeBits : Nat)
    (data : Bytes)
    (calls : Nat) :
    (walk usizeBits data calls).pos = data.length ∨
      calls ≤ (walk usizeBits data calls).pos := by
  induction calls with
  | zero =>
      exact .inr (Nat.zero_le _)
  | succ calls inductionHypothesis =>
      obtain ⟨sameData, inside⟩ := walk_inside usizeBits data calls
      have after := (walk_inside usizeBits data (calls + 1)).2
      have ordered :=
        (next_forward usizeBits (walk usizeBits data calls)).ordered
      by_cases more : (walk usizeBits data calls).pos < data.length
      · have moreAhead :
            (walk usizeBits data calls).pos <
              (walk usizeBits data calls).data.length := by
          rw [sameData]
          exact more
        have progress := next_progress usizeBits moreAhead
        simp only [walk] at after ⊢
        omega
      · simp only [walk] at after ⊢
        omega

/--
The whole walk over an input: every call is safe, and a call among the first
`data.len + 1` is at the end and returns null.
-/
structure WalkSafe (usizeBits : Nat) (data : Bytes) : Prop where
  calls :
    ∀ calls, CallSafe usizeBits (walk usizeBits data calls)
  ends :
    ∃ calls,
      calls ≤ data.length ∧
        ((walk usizeBits data calls).next usizeBits).2 = .ok none

/--
A walk is safe exactly when no call of it meets a field that claims to end
beyond what a `usize` can count.
-/
theorem walkSafe_iff
    (usizeBits : Nat)
    (data : Bytes)
    (fits : data.length < 2 ^ usizeBits) :
    WalkSafe usizeBits data ↔
      ∀ calls, ¬ Overlong usizeBits (walk usizeBits data calls) := by
  have callIff :
      ∀ calls,
        CallSafe usizeBits (walk usizeBits data calls) ↔
          ¬ Overlong usizeBits (walk usizeBits data calls) := by
    intro calls
    obtain ⟨sameData, inside⟩ := walk_inside usizeBits data calls
    exact callSafe_iff (by rw [sameData]; exact fits)
      (by rw [sameData]; exact inside)
  constructor
  · intro safe calls
    exact (callIff calls).mp (safe.calls calls)
  · intro notLong
    refine ⟨fun calls => (callIff calls).mpr (notLong calls),
      data.length, le_rfl, ?_⟩
    obtain ⟨sameData, inside⟩ := walk_inside usizeBits data data.length
    have atEnd := walk_progress usizeBits data data.length
    have past : (walk usizeBits data data.length).data.length ≤
        (walk usizeBits data data.length).pos := by
      rw [sameData]
      omega
    simp [next, past]

/-- The equivalence at a two-byte message. -/
theorem walkSafe_iff_twoBytes :
    [(8 : UInt8), 1].length < 2 ^ 64 ∧
      (WalkSafe 64 [8, 1] ↔
        ∀ calls, ¬ Overlong 64 (walk 64 [8, 1] calls)) :=
  ⟨by decide, walkSafe_iff 64 [8, 1] (by decide)⟩

/--
A byte field that claims `2 ^ 64 - 1` bytes, eleven bytes long: the first call
adds that length to the cursor.
-/
def overlongField : Bytes :=
  [0x0A, 0xFF, 0xFF, 0xFF, 0xFF, 0xFF, 0xFF, 0xFF, 0xFF, 0xFF, 0x01]

/-- On the overlong field the walk traps, on 64-bit and on 32-bit targets. -/
theorem overlongField_not_walkSafe :
    ¬ WalkSafe 64 overlongField ∧ ¬ WalkSafe 32 overlongField := by
  constructor
  · intro safe
    exact (safe.calls 0).noTrap (by decide)
  · intro safe
    exact (safe.calls 0).noTrap (by decide)

end Reader

end Gossveil.Codec
