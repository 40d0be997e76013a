import Gossveil.CodecTraps
import Gossveil.PqRecord

namespace Gossveil

open Codec

/-!
# Records that cannot be read

For every record of the post-quantum ratchet, the bytes on which its parser
traps: it comes to an overlong field, of its own or of a record inside it, or
to a version that is no byte.
-/

namespace ErasureCode

namespace Spread

/-- Reading a spread comes to an overlong field. -/
def Overlong (data : Bytes) : Prop :=
  StuckIn Draft.read (fun _ _ => False) data Draft.empty

theorem Draft.readColumn_ne_trap
    (draft : Draft)
    (fitted : Bool)
    (data : Bytes) :
    draft.readColumn fitted data ≠ .trap := by
  unfold readColumn
  simp only
  split_ifs <;> simp

theorem Draft.read_ne_trap (draft : Draft) (field : Field) :
    draft.read field ≠ .trap := by
  unfold read
  split
  · simp [Outcome.bind_eq_trap]
  · rw [Ne, Field.bytesOr_bind_eq_trap]
    rintro ⟨data, _, traps⟩
    exact readColumn_ne_trap draft false data traps
  · rw [Ne, Field.bytesOr_bind_eq_trap]
    rintro ⟨data, _, traps⟩
    exact readColumn_ne_trap draft true data traps
  · simp

theorem Draft.finish_ne_trap (draft : Draft) : draft.finish ≠ .trap := by
  unfold finish
  split_ifs <;> simp

/-- Reading a spread traps exactly on an overlong field. -/
theorem read_eq_trap
    {data : Bytes}
    (short : data.length < 2 ^ 64) :
    read data = .trap ↔ Overlong data := by
  rw [read, Outcome.bind_eq_trap, Overlong, fold_eq_trap _ short]
  · refine or_iff_left ?_
    rintro ⟨draft, _, traps⟩
    exact draft.finish_ne_trap traps
  · exact fun draft field _ => iff_of_false (draft.read_ne_trap field) id

end Spread

namespace Gather

/-- Reading a gather comes to an overlong field. -/
def Overlong (data : Bytes) : Prop :=
  StuckIn Draft.read (fun _ _ => False) data Draft.empty

theorem Draft.read_ne_trap (draft : Draft) (field : Field) :
    draft.read field ≠ .trap := by
  unfold read
  split
  · simp
  · rw [Ne, Field.bytesOr_bind_eq_trap]
    rintro ⟨data, _, traps⟩
    unfold readColumn at traps
    split_ifs at traps
  · simp
  · simp

/-- Reading a gather traps exactly on an overlong field. -/
theorem read_eq_trap
    {data : Bytes}
    (short : data.length < 2 ^ 64) :
    read data = .trap ↔ Overlong data := by
  rw [read, Outcome.bind_eq_trap, Overlong, fold_eq_trap _ short]
  · refine or_iff_left ?_
    rintro ⟨draft, _, traps⟩
    unfold Draft.finish at traps
    split_ifs at traps
  · exact fun draft field _ => iff_of_false (draft.read_ne_trap field) id

end Gather

end ErasureCode

/-! ## The key stream -/

namespace KeyStream

namespace Limits

/-- Reading limits comes to an overlong field. -/
def Overlong (limits : Limits) (data : Bytes) : Prop :=
  StuckIn readField (fun _ _ => False) data limits

/-- Reading limits traps exactly on an overlong field. -/
theorem readOver_eq_trap
    {limits : Limits}
    {data : Bytes}
    (short : data.length < 2 ^ 64) :
    limits.readOver data = .trap ↔ limits.Overlong data := by
  refine fold_eq_trap (fun limits field _ => iff_of_false ?_ id) short
  unfold readField
  split <;> simp [Outcome.bind_eq_trap]

end Limits

namespace Flow

/-- Reading a flow comes to an overlong field. -/
def Overlong (data : Bytes) : Prop :=
  StuckIn readField (fun _ _ => False) data empty

theorem readField_ne_trap (flow : Flow) (field : Field) :
    flow.readField field ≠ .trap := by
  unfold readField
  split
  · simp [Outcome.bind_eq_trap]
  · rw [Ne, Field.bytesOr_bind_eq_trap]
    rintro ⟨data, _, traps⟩
    split at traps
    · cases traps
    · split_ifs at traps
  · rw [Ne, Field.bytesOr_bind_eq_trap]
    rintro ⟨data, _, traps⟩
    split_ifs at traps
  · simp

/-- Reading a flow traps exactly on an overlong field. -/
theorem read_eq_trap
    {data : Bytes}
    (short : data.length < 2 ^ 64) :
    read data = .trap ↔ Overlong data :=
  fold_eq_trap
    (fun flow field _ => iff_of_false (flow.readField_ne_trap field) id)
    short

end Flow

namespace Epoch

/-- One of the two flows cannot be read. -/
def Unreadable (_ : Draft) (field : Field) : Prop :=
  (field.number = 1 ∨ field.number = 2) ∧ field.Embeds Flow.Overlong

/-- Reading an epoch comes to an overlong field, its own or of a flow. -/
def Overlong (data : Bytes) : Prop :=
  StuckIn Draft.read Unreadable data ⟨none, none⟩

/-- A field of an epoch traps exactly when its flow does. -/
theorem Draft.read_eq_trap
    {draft : Draft}
    {field : Field}
    (short : field.Short) :
    draft.read field = .trap ↔ Unreadable draft field := by
  have flowTraps :
      ∀ change : Flow → Draft,
        (field.bytesOr .badRecord >>= fun data =>
            Flow.read data >>= fun flow => pure (change flow)) =
            .trap ↔
          field.Embeds Flow.Overlong := by
    intro change
    rw [Field.bytesOr_bind_eq_trap]
    refine Field.embeds_congr fun data isBytes => ?_
    rw [Outcome.bind_eq_trap, Flow.read_eq_trap (short data isBytes)]
    simp
  unfold Draft.read Unreadable
  split <;> rename_i number
  · rw [flowTraps, number]
    simp
  · rw [flowTraps, number]
    simp
  · rename_i notOne
    refine iff_of_false (by simp) ?_
    rintro ⟨isOne | isTwo, _⟩
    · exact notOne isOne
    · exact number isTwo

/-- Reading an epoch traps exactly on an overlong field. -/
theorem read_eq_trap
    {data : Bytes}
    (short : data.length < 2 ^ 64) :
    read data = .trap ↔ Overlong data := by
  rw [read, Outcome.bind_eq_trap, Overlong,
    fold_eq_trap (fun _ _ => Draft.read_eq_trap) short]
  simp [Outcome.bind_eq_trap]

end Epoch

namespace Stream

/-- An epoch or the limits of a stream cannot be read. -/
def Unreadable (stream : Stream) (field : Field) : Prop :=
  (field.number = 3 ∧ field.Embeds Epoch.Overlong) ∨
    (field.number = 6 ∧ field.Embeds stream.limits.Overlong)

/-- Reading a stream comes to an overlong field, its own or of a part. -/
def Overlong (data : Bytes) : Prop :=
  StuckIn Draft.read (fun draft => Unreadable draft.stream) data
    Draft.empty

/-- A field of a stream traps exactly when its part does. -/
theorem readField_eq_trap
    {stream : Stream}
    {field : Field}
    (short : field.Short) :
    readField stream field = .trap ↔ Unreadable stream field := by
  unfold readField Unreadable
  split <;> rename_i number
  · rw [number]
    split <;> simp
  · simp [number]
  · rw [Field.bytesOr_bind_eq_trap, number]
    simp only [true_and, Nat.reduceEqDiff, false_and, or_false]
    refine Field.embeds_congr fun data isBytes => ?_
    rw [Outcome.bind_eq_trap, Epoch.read_eq_trap (short data isBytes)]
    simp
  · rw [Field.bytesOr_bind_eq_trap, number]
    simp [Field.Embeds, Outcome.bind_eq_trap]
  · simp [number]
  · rw [Field.bytesOr_bind_eq_trap, number]
    simp only [true_and, Nat.reduceEqDiff, false_and, false_or]
    refine Field.embeds_congr fun data isBytes => ?_
    rw [Outcome.bind_eq_trap,
      Limits.readOver_eq_trap (short data isBytes)]
    simp
  · rename_i notThree _ _
    simp only [reduceCtorEq, false_iff]
    rintro (⟨isThree, _⟩ | ⟨isSix, _⟩)
    · exact notThree isThree
    · exact number isSix

/-- Reading a stream traps exactly on an overlong field. -/
theorem read_eq_trap
    {data : Bytes}
    (short : data.length < 2 ^ 64) :
    read data = .trap ↔ Overlong data := by
  rw [read, Outcome.bind_eq_trap, Overlong,
    @fold_eq_trap _ _ _ _ (fun draft => Unreadable draft.stream) _ _ _
      short]
  · refine or_iff_left ?_
    rintro ⟨draft, _, traps⟩
    split_ifs at traps
  · intro draft field fieldShort
    rw [Draft.read, Outcome.bind_eq_trap, readField_eq_trap fieldShort]
    simp

end Stream

end KeyStream

/-! ## The braid -/

namespace Auth

/-- Reading an authenticator comes to an overlong field. -/
def Overlong (data : Bytes) : Prop :=
  StuckIn readField (fun _ _ => False) data
    ⟨Block.zero 32, Block.zero 32⟩

/-- Reading the keys traps exactly on an overlong field. -/
theorem read_eq_trap
    {data : Bytes}
    (short : data.length < 2 ^ 64) :
    read data = .trap ↔ Overlong data := by
  refine fold_eq_trap (fun auth field _ => iff_of_false ?_ id) short
  unfold readField
  split
  · split <;> simp
  · split <;> simp
  · simp

end Auth

namespace Braid

open ErasureCode

/-- Its authenticator cannot be read. -/
def Fixed.Unreadable (_ : Fixed) (field : Field) : Prop :=
  field.number = 2 ∧ field.Embeds Auth.Overlong

/-- Reading the fixed part comes to an overlong field. -/
def FixedOverlong (data : Bytes) : Prop :=
  StuckIn Fixed.readField Fixed.Unreadable data Fixed.empty

theorem Fixed.readField_eq_trap
    {fixed : Fixed}
    {field : Field}
    (short : field.Short) :
    fixed.readField field = .trap ↔ fixed.Unreadable field := by
  unfold readField Unreadable
  split <;> rename_i number
  · simp [number]
  · rw [Field.bytesOr_bind_eq_trap, number]
    simp only [true_and]
    refine Field.embeds_congr fun data isBytes => ?_
    rw [Outcome.bind_eq_trap, Auth.read_eq_trap (short data isBytes)]
    simp
  · rw [Field.bytesOr_bind_eq_trap, number]
    simp [Field.Embeds]
  · rw [Field.bytesOr_bind_eq_trap, number]
    simp [Field.Embeds]
  · rw [Field.bytesOr_bind_eq_trap, number]
    simp [Field.Embeds]
  · rename_i notTwo _ _
    exact iff_of_false (by simp) fun ⟨isTwo, _⟩ => notTwo isTwo

/-- Reading the fixed part traps exactly on an overlong field. -/
theorem readFixed_eq_trap
    {data : Bytes}
    (short : data.length < 2 ^ 64) :
    readFixed data = .trap ↔ FixedOverlong data := by
  rw [readFixed, Outcome.bind_eq_trap, FixedOverlong,
    fold_eq_trap (fun _ _ => Fixed.readField_eq_trap) short]
  simp [Outcome.bind_eq_trap]

/-- Its fixed part cannot be read. -/
def Parts.Unreadable (_ : Parts) (field : Field) : Prop :=
  field.number = 1 ∧ field.Embeds FixedOverlong

/-- Reading the parts comes to an overlong field. -/
def PartsOverlong (data : Bytes) : Prop :=
  StuckIn Parts.readField Parts.Unreadable data ⟨none, none, none⟩

theorem Parts.readField_eq_trap
    {parts : Parts}
    {field : Field}
    (short : field.Short) :
    parts.readField field = .trap ↔ parts.Unreadable field := by
  unfold readField Unreadable
  split <;> rename_i number
  · rw [Field.bytesOr_bind_eq_trap, number]
    simp only [true_and]
    refine Field.embeds_congr fun data isBytes => ?_
    rw [Outcome.bind_eq_trap, readFixed_eq_trap (short data isBytes)]
    simp
  · simp [number]
  · simp [number]
  · rename_i notOne _
    exact iff_of_false (by simp) fun ⟨isOne, _⟩ => notOne isOne

/-- Reading the parts traps exactly on an overlong field. -/
theorem readParts_eq_trap
    {data : Bytes}
    (short : data.length < 2 ^ 64) :
    readParts data = .trap ↔ PartsOverlong data := by
  rw [readParts, Outcome.bind_eq_trap, PartsOverlong,
    fold_eq_trap (fun _ _ => Parts.readField_eq_trap) short]
  simp [Outcome.bind_eq_trap]

/-- The coders of a record that has been read fit slices, as it does. -/
def Parts.Short (parts : Parts) : Prop :=
  (∀ data, parts.coder2 = some data → data.length < 2 ^ 64) ∧
    ∀ data, parts.coder3 = some data → data.length < 2 ^ 64

/-- A fixed part that has been read has an authenticator. -/
theorem readFixed_auth (data : Bytes) :
    Outcome.Returns (fun fixed => ∃ auth, fixed.auth = some auth)
      (readFixed data) := by
  refine .bind fun fixed _ => .bind fun _ required => .ok ?_
  exact Option.ne_none_iff_exists'.mp (Outcome.require_eq_ok.mp required)

/-- What is known of the parts at every turn of the loop. -/
private structure Parts.Sound (parts : Parts) : Prop where
  short : parts.Short
  auth :
    ∀ fixed, parts.fixed = some fixed → ∃ auth, fixed.auth = some auth

private theorem Parts.Sound.readField
    {parts next : Parts}
    {field : Field}
    (sound : parts.Sound)
    (short : field.Short)
    (reads : parts.readField field = .ok next) :
    next.Sound := by
  unfold Parts.readField at reads
  split at reads
  · rcases Outcome.bind_eq_ok.mp reads with ⟨data, _, rest⟩
    rcases Outcome.bind_eq_ok.mp rest with ⟨fixed, isFixed, ⟨⟩⟩
    refine ⟨sound.short, ?_⟩
    rintro _ ⟨⟩
    exact readFixed_auth data fixed isFixed
  · cases reads
    exact ⟨⟨short, sound.short.2⟩, sound.auth⟩
  · cases reads
    exact ⟨⟨sound.short.1, short⟩, sound.auth⟩
  · cases reads
    exact sound

/-- The parts that are read are short, and the fixed one is whole. -/
theorem readParts_sound
    {data : Bytes}
    (short : data.length < 2 ^ 64) :
    Outcome.Returns
      (fun parts => parts.Short ∧
        ∃ fixed auth,
          parts.fixed = some fixed ∧ fixed.auth = some auth)
      (readParts data) := by
  refine .bind fun parts reads => .bind fun _ required => .ok ?_
  have sound : parts.Sound :=
    fold_preserves_short (fun sound => sound.readField) short
      ⟨⟨by simp, by simp⟩, by simp⟩ reads
  rcases Option.isSome_iff_exists.mp
      (Outcome.require_eq_ok.mp required) with
    ⟨fixed, isFixed⟩
  rcases sound.auth fixed isFixed with ⟨auth, isAuth⟩
  exact ⟨sound.short, fixed, auth, isFixed, isAuth⟩

/-- The spread is there, and reading it comes to an overlong field. -/
def SpreadOverlong (coder : Option Bytes) : Prop :=
  ∃ data, coder = some data ∧ Spread.Overlong data

/-- The gather is there, and reading it comes to an overlong field. -/
def GatherOverlong (coder : Option Bytes) : Prop :=
  ∃ data, coder = some data ∧ Gather.Overlong data

/-- A spread that has to be there traps exactly when reading it does. -/
theorem spread_eq_trap
    {coder : Option Bytes}
    (short : ∀ data, coder = some data → data.length < 2 ^ 64) :
    spread coder = .trap ↔ SpreadOverlong coder := by
  cases coder with
  | none => simp [spread, SpreadOverlong]
  | some data =>
      simp [spread, SpreadOverlong, Spread.read_eq_trap (short data rfl)]

/-- A gather that has to be there traps exactly when reading it does. -/
theorem gather_eq_trap
    {coder : Option Bytes}
    {expected : Nat}
    (short : ∀ data, coder = some data → data.length < 2 ^ 64) :
    gather coder expected = .trap ↔ GatherOverlong coder := by
  cases coder with
  | none => simp [gather, GatherOverlong]
  | some data =>
      simp [gather, GatherOverlong, Gather.read_eq_trap (short data rfl),
        Outcome.bind_eq_trap]

/-- What follows an array is reached when the array has its size. -/
theorem array_bind_eq_trap
    {α : Type}
    {size : Nat}
    {data : Bytes}
    {next : Block size → Outcome RatchetError α}
    {Traps : Prop}
    (nextTraps : ∀ block, next block = .trap ↔ Traps) :
    array size data >>= next = .trap ↔ data.length = size ∧ Traps := by
  rw [array, Block.ofBytes]
  split_ifs with fits
  · simp [nextTraps, fits]
  · simp [fits]

/--
Reading a state of some number comes to an overlong field in one of its
coders, with everything before it in order.
-/
def CodersOverlong (number : Nat) (parts : Parts) (fixed : Fixed) : Prop :=
  match number with
  | 2 =>
      fixed.third.length = Kem.encapLength ∧
        fixed.fourth.length = Kem.decapLength ∧
          SpreadOverlong parts.coder2
  | 3 =>
      SpreadOverlong parts.coder2 ∨
        (∃ outEncap, spread parts.coder2 = .ok outEncap) ∧
          fixed.third.length = Kem.decapLength ∧
            GatherOverlong parts.coder3
  | 4 =>
      fixed.third.length = Kem.decapLength ∧
        fixed.fourth.length = Kem.firstLength ∧
          SpreadOverlong parts.coder2
  | 5 =>
      fixed.third.length = Kem.decapLength ∧
        fixed.fourth.length = Kem.firstLength ∧
          GatherOverlong parts.coder3
  | 6 => GatherOverlong parts.coder2
  | 7 =>
      fixed.third.length = Kem.headerLength ∧ GatherOverlong parts.coder2
  | 8 =>
      SpreadOverlong parts.coder2 ∨
        (∃ outFirst, spread parts.coder2 = .ok outFirst) ∧
          fixed.third.length = Kem.headerLength ∧
            fixed.fourth.length = Kem.carryLength ∧
              fixed.fifth.length = Kem.firstLength ∧
                GatherOverlong parts.coder3
  | 9 =>
      fixed.third.length = Kem.carryLength ∧
        fixed.fourth.length = Kem.encapLength ∧
          fixed.fifth.length = Kem.firstLength ∧
            SpreadOverlong parts.coder2
  | 10 =>
      fixed.third.length = Kem.headerLength ∧
        fixed.fourth.length = Kem.carryLength ∧
          fixed.fifth.length = Kem.firstLength ∧
            GatherOverlong parts.coder2
  | 11 => SpreadOverlong parts.coder2
  | _ => False

/-- Reading one inner state comes to an overlong field. -/
def StateOverlong (number : Nat) (data : Bytes) : Prop :=
  PartsOverlong data ∨
    ∃ parts fixed,
      readParts data = .ok parts ∧ parts.fixed = some fixed ∧
        CodersOverlong number parts fixed

/-- What follows a spread is reached when the spread can be read. -/
theorem spread_bind_eq_trap
    {α : Type}
    {coder : Option Bytes}
    {next : Spread → Outcome RatchetError α}
    {Traps : Prop}
    (short : ∀ data, coder = some data → data.length < 2 ^ 64)
    (nextTraps : ∀ value, next value = .trap ↔ Traps) :
    spread coder >>= next = .trap ↔
      SpreadOverlong coder ∨
        (∃ value, spread coder = .ok value) ∧ Traps := by
  rw [Outcome.bind_eq_trap, spread_eq_trap short, ← exists_and_right]
  exact or_congr_right
    (exists_congr fun value => and_congr_right fun _ => nextTraps value)

/-- Reading a spread is the last that can trap. -/
theorem spread_last_eq_trap
    {coder : Option Bytes}
    {state : Spread → Braid}
    (short : ∀ data, coder = some data → data.length < 2 ^ 64) :
    (spread coder >>= fun value => pure (state value)) = .trap ↔
      SpreadOverlong coder := by
  rw [Outcome.bind_eq_trap, spread_eq_trap short]
  simp

theorem gather_last_eq_trap
    {coder : Option Bytes}
    {expected : Nat}
    {state : Gather → Braid}
    (short : ∀ data, coder = some data → data.length < 2 ^ 64) :
    (gather coder expected >>= fun value => pure (state value)) = .trap ↔
      GatherOverlong coder := by
  rw [Outcome.bind_eq_trap, gather_eq_trap short]
  simp

/-- Reading a state traps exactly when one of its parts does. -/
theorem readState_eq_trap
    {number : Nat}
    {data : Bytes}
    (inRange : 1 ≤ number ∧ number ≤ 11)
    (short : data.length < 2 ^ 64) :
    readState number data = .trap ↔ StateOverlong number data := by
  rw [readState, Outcome.bind_eq_trap, readParts_eq_trap short,
    StateOverlong]
  refine or_congr_right (exists_congr fun parts => ?_)
  rw [exists_and_left]
  refine and_congr_right fun reads => ?_
  rcases readParts_sound short parts reads with
    ⟨⟨short2, short3⟩, fixed, auth, isFixed, isAuth⟩
  simp only [isFixed, Outcome.unwrap_some, Outcome.ok_bind, isAuth,
    Option.some.injEq, exists_eq_left']
  rcases inRange with ⟨low, high⟩
  interval_cases number
  · exact iff_of_false (by simp) id
  · exact array_bind_eq_trap fun _ => array_bind_eq_trap fun _ =>
      spread_last_eq_trap short2
  · exact spread_bind_eq_trap short2 fun _ => array_bind_eq_trap fun _ =>
      gather_last_eq_trap short3
  · exact array_bind_eq_trap fun _ => array_bind_eq_trap fun _ =>
      spread_last_eq_trap short2
  · exact array_bind_eq_trap fun _ => array_bind_eq_trap fun _ =>
      gather_last_eq_trap short3
  · exact gather_last_eq_trap short2
  · exact array_bind_eq_trap fun _ => gather_last_eq_trap short2
  · exact spread_bind_eq_trap short2 fun _ => array_bind_eq_trap fun _ =>
      array_bind_eq_trap fun _ => array_bind_eq_trap fun _ =>
        gather_last_eq_trap short3
  · exact array_bind_eq_trap fun _ => array_bind_eq_trap fun _ =>
      array_bind_eq_trap fun _ => spread_last_eq_trap short2
  · exact array_bind_eq_trap fun _ => array_bind_eq_trap fun _ =>
      array_bind_eq_trap fun _ => gather_last_eq_trap short2
  · exact spread_last_eq_trap short2

/-- A field that names a state whose reading comes to an overlong field. -/
def Unreadable (field : Field) : Prop :=
  field.kind = .bytes ∧ 1 ≤ field.number ∧ field.number ≤ 11 ∧
    StateOverlong field.number field.byteValue

/-- Reading a braid comes to an overlong field, its own or of a part. -/
def Overlong (data : Bytes) : Prop :=
  StuckIn (skipUnknown .badRecord known) (fun _ => Unreadable) data ⟨⟩

/-- A field of a braid traps exactly when its state does. -/
theorem known_eq_trap
    {field : Field}
    (short : field.Short) :
    known field = some .trap ↔ Unreadable field := by
  unfold known Unreadable
  split_ifs with unknown
  · refine iff_of_false (by simp) ?_
    rintro ⟨isBytes, low, high, _⟩
    rcases unknown with other | tooLow | tooHigh
    · exact other isBytes
    · exact absurd low (Nat.not_le.mpr tooLow)
    · exact absurd high (Nat.not_le.mpr tooHigh)
  · push Not at unknown
    rcases unknown with ⟨isBytes, low, high⟩
    have valueShort : field.byteValue.length < 2 ^ 64 :=
      short field.byteValue (if_pos isBytes)
    rw [Option.some.injEq, readState_eq_trap ⟨low, high⟩ valueShort]
    simp [isBytes, low, high]

/-- Reading a braid traps exactly on an overlong field. -/
theorem read_eq_trap
    {data : Bytes}
    (short : data.length < 2 ^ 64) :
    read data = .trap ↔ Overlong data :=
  find_eq_trap (fun _ => known_eq_trap) short

end Braid

/-! ## The ratchet -/

namespace PqRecord

open KeyStream

/-- The version is no byte, or the limits cannot be read. -/
def Terms.Unreadable (terms : Terms) (field : Field) : Prop :=
  (field.number = 3 ∧ 2 ^ 8 ≤ field.uintOrZero) ∨
    (field.number = 4 ∧ field.Embeds terms.limits.Overlong)

/--
Reading the terms comes to an overlong field or a version that is no byte.
-/
def TermsUnreadable (data : Bytes) : Prop :=
  StuckIn Terms.readField Terms.Unreadable data Terms.empty

/-- A field of the terms traps exactly when it cannot be read. -/
theorem Terms.readField_eq_trap
    {terms : Terms}
    {field : Field}
    (short : field.Short) :
    terms.readField field = .trap ↔ terms.Unreadable field := by
  unfold readField Unreadable
  split <;> rename_i number
  · simp [number]
  · simp [number]
  · rw [Outcome.bind_eq_trap, Outcome.intCast_eq_trap, number]
    simp
  · rw [Field.bytesOr_bind_eq_trap, number]
    simp only [true_and, Nat.reduceEqDiff, false_and, false_or]
    refine Field.embeds_congr fun data isBytes => ?_
    rw [Outcome.bind_eq_trap,
      Limits.readOver_eq_trap (short data isBytes)]
    simp
  · rename_i notThree
    refine iff_of_false (by simp) ?_
    rintro (⟨isThree, _⟩ | ⟨isFour, _⟩)
    · exact notThree isThree
    · exact number isFour

/-- Its terms cannot be read. -/
def Record.Unreadable (_ : Record) (field : Field) : Prop :=
  field.number = 1 ∧ field.Embeds TermsUnreadable

/-- Parsing a record comes to an overlong field or a version that is no byte. -/
def Unreadable (data : Bytes) : Prop :=
  StuckIn Record.readField Record.Unreadable data Record.empty

/-- A field of the record traps exactly when its terms cannot be read. -/
theorem Record.readField_eq_trap
    {record : Record}
    {field : Field}
    (short : field.Short) :
    record.readField field = .trap ↔ record.Unreadable field := by
  unfold readField Unreadable
  split <;> rename_i number
  · rw [Field.bytesOr_bind_eq_trap, number]
    simp only [true_and]
    refine Field.embeds_congr fun data isBytes => ?_
    rw [Outcome.bind_eq_trap, TermsUnreadable,
      fold_eq_trap (fun _ _ => Terms.readField_eq_trap)
        (short data isBytes)]
    simp
  · simp [number]
  · simp [number]
  · rename_i notOne _
    exact iff_of_false (by simp) fun ⟨isOne, _⟩ => notOne isOne

/-- Parsing a record traps exactly when its terms cannot be read. -/
theorem parseRecord_eq_trap
    {data : Bytes}
    (short : data.length < 2 ^ 64) :
    parseRecord data = .trap ↔ Unreadable data :=
  fold_eq_trap (fun _ _ => Record.readField_eq_trap) short

/-- The parts of a record fit slices. -/
structure Record.Short (record : Record) : Prop where
  stream : ∀ data, record.stream = some data → data.length < 2 ^ 64
  braid : ∀ data, record.braid = some data → data.length < 2 ^ 64

theorem Record.Short.readField
    {record next : Record}
    {field : Field}
    (sound : record.Short)
    (short : field.Short)
    (reads : record.readField field = .ok next) :
    next.Short := by
  unfold Record.readField at reads
  split at reads
  · rcases Outcome.bind_eq_ok.mp reads with ⟨data, _, rest⟩
    rcases Outcome.bind_eq_ok.mp rest with ⟨terms, _, ⟨⟩⟩
    exact ⟨sound.stream, sound.braid⟩
  · cases reads
    exact ⟨short, sound.braid⟩
  · cases reads
    exact ⟨sound.stream, short⟩
  · cases reads
    exact sound

/-- The parts of a record that fits are short. -/
theorem parseRecord_short
    {data : Bytes}
    (short : data.length < 2 ^ 64) :
    Outcome.Returns Record.Short (parseRecord data) := by
  intro record parses
  have initially : Record.empty.Short := by
    constructor <;> rintro _ ⟨⟩
  exact fold_preserves_short (fun sound => sound.readField) short initially
    parses

end PqRecord

end Gossveil
