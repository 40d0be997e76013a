import Gossveil.Outcome

namespace Gossveil

/-!
# The field codec

Every record and message is a sequence of fields: a tag (field number and
kind), then a varint, a fixed word or a byte string.  `Reader` walks the fields
of one message and `Writer` builds one.

`usizeBits` is the width of the target's `usize`: 64 on the native targets and
32 on the web.  A length is compared through `r.at + len > r.data.len`; an end
inside the input is below `data.len` and so representable, and only an end past
the input can overflow.

The walk of one reader is stated for every width.  The loops over a whole
message, `fold` and `find`, and with them every parser, take the 64 bits of the
native targets: which overlong lengths trap a parser is said of these alone.
-/

/-- A byte slice. -/
abbrev Bytes := List UInt8

namespace Codec

/-- How a field's value is encoded. -/
inductive Kind where
  | uint
  | word64
  | bytes
  | word32
  deriving DecidableEq, Repr

/-- The low three bits of a tag. -/
def Kind.code : Kind → Nat
  | .uint => 0
  | .word64 => 1
  | .bytes => 2
  | .word32 => 5

/-- The kind a tag names, if any. -/
def Kind.ofCode : Nat → Option Kind
  | 0 => some .uint
  | 1 => some .word64
  | 2 => some .bytes
  | 5 => some .word32
  | _ => none

@[simp] theorem Kind.ofCode_code (kind : Kind) :
    Kind.ofCode kind.code = some kind := by
  cases kind <;> rfl

theorem Kind.code_lt (kind : Kind) : kind.code < 8 := by
  cases kind <;> decide

/-- One decoded field. -/
structure Field where
  number : Nat
  kind : Kind
  uintValue : Nat
  byteValue : Bytes
  deriving DecidableEq, Repr

namespace Field

/-- A varint field. -/
def ofUint (number value : Nat) : Field :=
  ⟨number, .uint, value, []⟩

/-- An eight-byte field. -/
def ofWord64 (number value : Nat) : Field :=
  ⟨number, .word64, value, []⟩

/-- A four-byte field. -/
def ofWord32 (number value : Nat) : Field :=
  ⟨number, .word32, value, []⟩

/-- A byte field. -/
def ofBytes (number : Nat) (value : Bytes) : Field :=
  ⟨number, .bytes, 0, value⟩

/-- The value of an integer field; a field of another kind has none. -/
def uint (field : Field) : Option Nat :=
  if field.kind = .uint then some field.uintValue else none

/-- The value of a byte field; a field of another kind has none. -/
def bytes (field : Field) : Option Bytes :=
  if field.kind = .bytes then some field.byteValue else none

/-- The value of a field of fixed width. -/
def word (field : Field) : Option Nat :=
  if field.kind = .word64 ∨ field.kind = .word32 then
    some field.uintValue
  else
    none

@[simp] theorem number_ofUint (number value : Nat) :
    (ofUint number value).number = number :=
  rfl

@[simp] theorem number_ofBytes (number : Nat) (value : Bytes) :
    (ofBytes number value).number = number :=
  rfl

@[simp] theorem uint_ofUint (number value : Nat) :
    (ofUint number value).uint = some value :=
  rfl

@[simp] theorem bytes_ofBytes (number : Nat) (value : Bytes) :
    (ofBytes number value).bytes = some value :=
  rfl

@[simp] theorem kind_ofBytes (number : Nat) (value : Bytes) :
    (ofBytes number value).kind = .bytes :=
  rfl

@[simp] theorem byteValue_ofBytes (number : Nat) (value : Bytes) :
    (ofBytes number value).byteValue = value :=
  rfl

@[simp] theorem word_ofWord64 (number value : Nat) :
    (ofWord64 number value).word = some value :=
  rfl

end Field

/-- What ends the walk of a record. -/
inductive ReadError where
  | truncated
  | badTag
  | overflow
  deriving DecidableEq, Repr

/-- The cursor over one message. -/
structure Reader where
  data : Bytes
  pos : Nat
  deriving DecidableEq, Repr

/--
The loop of `varint` over the bytes ahead: the bytes taken so far and the
result.  The low seven bits of each byte enter at `shift`; the shift is a
six-bit integer.
-/
def varintLoop :
    (ahead : Bytes) →
    (shift value taken : Nat) →
    Nat × Outcome ReadError Nat
  | [], _, _, taken =>
      (taken, .error .truncated)
  | byte :: ahead, shift, value, taken =>
      let value := value ||| (byte.toNat % 128) <<< shift % 2 ^ 64
      if byte.toNat < 128 then
        (taken + 1, .ok value)
      else if 63 ≤ shift then
        (taken + 1, .error .overflow)
      else if shift + 7 < 2 ^ 6 then
        varintLoop ahead (shift + 7) value (taken + 1)
      else
        (taken + 1, .trap)

namespace Reader

/-- A reader at the first byte. -/
def init (data : Bytes) : Reader :=
  ⟨data, 0⟩

/-- The bytes from the cursor on. -/
def ahead (reader : Reader) : Bytes :=
  reader.data.drop reader.pos

/-- The cursor moved over some bytes. -/
def skip (reader : Reader) (count : Nat) : Reader :=
  { reader with pos := reader.pos + count }

/-- Reads one varint and stands behind what it has taken of it. -/
def varint (reader : Reader) : Reader × Outcome ReadError Nat :=
  let (taken, result) := varintLoop reader.ahead 0 0 0
  (reader.skip taken, result)

/-- `if (r.at + size > r.data.len) return Truncated`, then the slice. -/
def slice
    (usizeBits : Nat)
    (reader : Reader)
    (size : Nat) :
    Reader × Outcome ReadError Bytes :=
  if size ≤ reader.data.length - reader.pos then
    (reader.skip size, .ok (reader.ahead.take size))
  else if 2 ^ usizeBits ≤ reader.pos + size then
    (reader, .trap)
  else
    (reader, .error .truncated)

/-- A little-endian integer. -/
def littleEndian : Bytes → Nat
  | [] => 0
  | byte :: rest => byte.toNat + 256 * littleEndian rest

/-- Bytes hold numbers below a power of 256. -/
theorem littleEndian_lt (bytes : Bytes) :
    littleEndian bytes < 256 ^ bytes.length := by
  induction bytes with
  | nil => decide
  | cons byte rest inductionHypothesis =>
      have small := byte.toNat_lt
      simp only [littleEndian, List.length_cons, Nat.pow_succ]
      omega

/-- The value of a field whose tag has been read. -/
def value
    (usizeBits : Nat)
    (reader : Reader)
    (number : Nat) :
    Kind → Reader × Outcome ReadError (Option Field)
  | .uint =>
      let (reader, result) := reader.varint
      (reader, (some ∘ Field.ofUint number) <$> result)
  | .word64 =>
      let (reader, result) := reader.slice usizeBits 8
      (reader, (some ∘ Field.ofWord64 number ∘ littleEndian) <$> result)
  | .word32 =>
      let (reader, result) := reader.slice usizeBits 4
      (reader, (some ∘ Field.ofWord32 number ∘ littleEndian) <$> result)
  | .bytes =>
      match reader.varint with
      | (reader, .ok len) =>
          if 2 ^ usizeBits ≤ len then
            (reader, .trap)
          else
            let (reader, result) := reader.slice usizeBits len
            (reader, (some ∘ Field.ofBytes number) <$> result)
      | (reader, .error fault) => (reader, .error fault)
      | (reader, .trap) => (reader, .trap)

/-- The field number of a tag, truncated to 32 bits. -/
def tagNumber (tag : Nat) : Nat :=
  tag / 8 % 2 ^ 32

/-- One call: null at the end, an error, or the next field. -/
def next
    (usizeBits : Nat)
    (reader : Reader) :
    Reader × Outcome ReadError (Option Field) :=
  if reader.data.length ≤ reader.pos then
    (reader, .ok none)
  else
    match reader.varint with
    | (reader, .ok tag) =>
        if tagNumber tag = 0 then
          (reader, .error .badTag)
        else
          match Kind.ofCode (tag % 8) with
          | none => (reader, .error .badTag)
          | some kind => reader.value usizeBits (tagNumber tag) kind
    | (reader, .error fault) => (reader, .error fault)
    | (reader, .trap) => (reader, .trap)

end Reader

section Fold

universe u v

variable {ε : Type u} {σ : Type v}

/-- The parsers' loop on a 64-bit target, with an explicit bound on its turns. -/
def foldFrom
    (fault : ε)
    (step : σ → Field → Outcome ε σ) :
    (turns : Nat) →
    Reader →
    σ →
    Outcome ε σ
  | 0, _, _ => .trap
  | turns + 1, reader, state =>
      match reader.next 64 with
      | (_, .trap) => .trap
      | (_, .error _) => .error fault
      | (_, .ok none) => .ok state
      | (reader, .ok (some field)) =>
          step state field >>= foldFrom fault step turns reader

/--
`while (r.next() catch return fault) |f| …` over a whole message.  Every field
takes at least one byte, so the loop makes at most one turn more than there
are bytes.
-/
def fold
    (fault : ε)
    (step : σ → Field → Outcome ε σ)
    (data : Bytes)
    (state : σ) :
    Outcome ε σ :=
  foldFrom fault step (data.length + 1) (Reader.init data) state

/--
The loop of a parser that returns at the first field it knows, and that fails
as on a broken message when there is none.
-/
def findFrom
    {α : Type v}
    (fault : ε)
    (known : Field → Option (Outcome ε α)) :
    (turns : Nat) →
    Reader →
    Outcome ε α
  | 0, _ => .trap
  | turns + 1, reader =>
      match reader.next 64 with
      | (_, .trap) => .trap
      | (_, .error _) => .error fault
      | (_, .ok none) => .error fault
      | (reader, .ok (some field)) =>
          match known field with
          | some result => result
          | none => findFrom fault known turns reader

/-- The first field that is known, of a whole record. -/
def find
    {α : Type v}
    (fault : ε)
    (known : Field → Option (Outcome ε α))
    (data : Bytes) :
    Outcome ε α :=
  findFrom fault known (data.length + 1) (Reader.init data)

/-- What every step keeps holds of the result of the loop. -/
theorem foldFrom_preserves
    {fault : ε}
    {step : σ → Field → Outcome ε σ}
    {Holds : σ → Prop}
    (stepKeeps :
      ∀ {state field next},
        Holds state →
        step state field = .ok next →
        Holds next)
    {turns : Nat}
    {reader : Reader}
    {state result : σ}
    (before : Holds state)
    (returned : foldFrom fault step turns reader state = .ok result) :
    Holds result := by
  induction turns generalizing reader state with
  | zero =>
      simp [foldFrom] at returned
  | succ turns inductionHypothesis =>
      rw [foldFrom] at returned
      split at returned
      · cases returned
      · cases returned
      · cases returned
        exact before
      · rcases Outcome.bind_eq_ok.mp returned with
          ⟨next, stepped, rest⟩
        exact inductionHypothesis (stepKeeps before stepped) rest

/-- What every step keeps holds of the parsed message. -/
theorem fold_preserves
    {fault : ε}
    {step : σ → Field → Outcome ε σ}
    {Holds : σ → Prop}
    (stepKeeps :
      ∀ {state field next},
        Holds state →
        step state field = .ok next →
        Holds next)
    {data : Bytes}
    {state result : σ}
    (before : Holds state)
    (returned : fold fault step data state = .ok result) :
    Holds result :=
  foldFrom_preserves stepKeeps before returned

end Fold

/-- `putVarint` into a scratch buffer of `room` bytes. -/
def putVarintInto : (room value : Nat) → Bytes
  | 0, _ => []
  | room + 1, value =>
      if value / 128 = 0 then
        [UInt8.ofNat (value % 128)]
      else
        UInt8.ofNat (value % 128 + 128) ::
          putVarintInto room (value / 128)

/-- The varint of a 64-bit value; the writer's scratch buffer has ten bytes. -/
def putVarint (value : Nat) : Bytes :=
  putVarintInto 10 value

namespace Writer

/-! Each call appends the returned bytes to the message being built. -/

/-- A field number and a kind in one varint. -/
def tag (number : Nat) (kind : Kind) : Bytes :=
  putVarint (number * 8 + kind.code)

/-- An integer field; a zero is written as well. -/
def uint (number value : Nat) : Bytes :=
  tag number .uint ++ putVarint value

/-- A byte field with its length in front. -/
def bytes (number : Nat) (data : Bytes) : Bytes :=
  tag number .bytes ++ putVarint data.length ++ data

/-- `size` bytes of a value, least significant first. -/
def littleEndian : (size value : Nat) → Bytes
  | 0, _ => []
  | size + 1, value =>
      UInt8.ofNat (value % 256) :: littleEndian size (value / 256)

/-- A field of eight bytes, the lowest first. -/
def word64 (number value : Nat) : Bytes :=
  tag number .word64 ++ littleEndian 8 value

/-- A zero is the default and is not written. -/
def uintIfSet (number value : Nat) : Bytes :=
  if value ≠ 0 then uint number value else []

/-- A byte field that is left out when it is empty. -/
def bytesIfSet (number : Nat) (data : Bytes) : Bytes :=
  if data.length ≠ 0 then bytes number data else []

/-- Nested messages carry their own encoded bytes as a byte field. -/
def embed (number : Nat) (inner : Bytes) : Bytes :=
  bytes number inner

end Writer

end Codec

end Gossveil
