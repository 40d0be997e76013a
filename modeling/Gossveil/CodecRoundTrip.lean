import Gossveil.CodecWalk

namespace Gossveil.Codec

/-!
# What the writer writes, the reader reads

A message built by `Writer` is the concatenation of its fields' encodings.
`fold` over such a message runs its step over exactly those fields, in order.
-/

/-- Writing into a scratch buffer emits at most its room. -/
theorem putVarintInto_length (room value : Nat) :
    (putVarintInto room value).length ≤ room := by
  induction room generalizing value with
  | zero =>
      simp [putVarintInto]
  | succ room inductionHypothesis =>
      have tail := inductionHypothesis (value / 128)
      simp only [putVarintInto]
      split_ifs
      · simp
      · simp only [List.length_cons]
        omega

/-- A non-empty scratch buffer receives at least one byte. -/
theorem putVarintInto_ne_nil (room value : Nat) :
    putVarintInto (room + 1) value ≠ [] := by
  simp only [putVarintInto]
  split_ifs <;> simp

theorem Writer.length_tag_le (number : Nat) (kind : Kind) :
    (Writer.tag number kind).length ≤ 10 :=
  putVarintInto_length ..

theorem Writer.length_uint_le (number value : Nat) :
    (Writer.uint number value).length ≤ 20 := by
  have tagLength := Writer.length_tag_le number .uint
  have valueLength := putVarintInto_length 10 value
  simp only [Writer.uint, putVarint, List.length_append]
  omega

theorem Writer.length_uintIfSet_le (number value : Nat) :
    (Writer.uintIfSet number value).length ≤ 20 := by
  unfold Writer.uintIfSet
  split_ifs
  · exact Writer.length_uint_le number value
  · simp

theorem Writer.length_bytes_le (number : Nat) (data : Bytes) :
    (Writer.bytes number data).length ≤ data.length + 20 := by
  have tagLength := Writer.length_tag_le number .bytes
  have sizeLength := putVarintInto_length 10 data.length
  simp only [Writer.bytes, putVarint, List.length_append]
  omega

theorem Writer.length_bytesIfSet_le (number : Nat) (data : Bytes) :
    (Writer.bytesIfSet number data).length ≤ data.length + 20 := by
  unfold Writer.bytesIfSet
  split_ifs
  · exact Writer.length_bytes_le number data
  · simp

/-- The bits entered so far and the next seven do not overlap. -/
private theorem or_shift_eq_add
    {entered shift low : Nat}
    (below : entered < 2 ^ shift)
    (small : low * 2 ^ shift < 2 ^ 64) :
    entered ||| low <<< shift % 2 ^ 64 = entered + low * 2 ^ shift := by
  rw [Nat.shiftLeft_eq, Nat.mod_eq_of_lt small, Nat.mul_comm low,
    Nat.or_comm, ← Nat.two_pow_add_eq_or_of_lt below]
  omega

/-- The reader's loop undoes the writer's, from any shift on. -/
theorem varintLoop_putVarintInto
    (room value : Nat)
    {shift entered : Nat}
    (taken : Nat)
    (rest : Bytes)
    (aligned : shift + 7 * (room + 1) = 70)
    (below : entered < 2 ^ shift)
    (small : value * 2 ^ shift < 2 ^ 64) :
    varintLoop (putVarintInto (room + 1) value ++ rest)
        shift entered taken =
      (taken + (putVarintInto (room + 1) value).length,
        .ok (entered + value * 2 ^ shift)) := by
  induction room generalizing value shift entered taken with
  | zero =>
      have shiftShape : shift = 63 := by omega
      subst shiftShape
      have bit : value < 2 := by omega
      have last : value / 128 = 0 := by omega
      have low : value % 128 = value := by omega
      have byte : (UInt8.ofNat value).toNat = value := by
        rw [UInt8.toNat_ofNat']
        omega
      simp only [putVarintInto, last, if_true, List.cons_append,
        List.nil_append, varintLoop, low, byte]
      rw [if_pos (by omega), or_shift_eq_add below small]
      simp
  | succ room inductionHypothesis =>
      have power : 2 ^ (shift + 7) = 2 ^ shift * 128 := by
        rw [pow_add]
        rfl
      have positive : 0 < 2 ^ shift := Nat.two_pow_pos shift
      have split := Nat.div_add_mod value 128
      have lowSmall : value % 128 * 2 ^ shift < 2 ^ 64 :=
        (Nat.mul_le_mul_right _ (Nat.mod_le value 128)).trans_lt small
      rw [putVarintInto]
      by_cases last : value / 128 = 0
      · have byte : (UInt8.ofNat (value % 128)).toNat = value % 128 := by
          rw [UInt8.toNat_ofNat']
          omega
        have same : value % 128 = value := by omega
        simp only [last, if_true, List.cons_append, List.nil_append,
          varintLoop, byte, Nat.mod_mod]
        rw [if_pos (by omega), or_shift_eq_add below lowSmall, same]
        simp
      · have byte :
            (UInt8.ofNat (value % 128 + 128)).toNat = value % 128 + 128 := by
          rw [UInt8.toNat_ofNat']
          omega
        have lowBits : (value % 128 + 128) % 128 = value % 128 := by
          omega
        simp only [last, if_false, List.cons_append, varintLoop, byte,
          lowBits]
        rw [if_neg (by omega), if_neg (by omega), if_pos (by omega),
          or_shift_eq_add below lowSmall,
          inductionHypothesis (value / 128) (taken + 1) (by omega)]
        · rw [power]
          have total :
              entered + value % 128 * 2 ^ shift +
                  value / 128 * (2 ^ shift * 128) =
                entered + value * 2 ^ shift := by
            calc
              _ = entered + (128 * (value / 128) + value % 128) * 2 ^ shift := by
                ring
              _ = _ := by rw [split]
          rw [total, List.length_cons]
          congr 1
          omega
        · rw [power]
          have : value % 128 + 1 ≤ 128 := by omega
          calc
            entered + value % 128 * 2 ^ shift <
                2 ^ shift + value % 128 * 2 ^ shift := by omega
            _ = (value % 128 + 1) * 2 ^ shift := by ring
            _ ≤ 128 * 2 ^ shift := Nat.mul_le_mul_right _ this
            _ = 2 ^ shift * 128 := by ring
        · rw [power]
          calc
            value / 128 * (2 ^ shift * 128) =
                128 * (value / 128) * 2 ^ shift := by ring
            _ ≤ value * 2 ^ shift :=
                Nat.mul_le_mul_right _ (by omega)
            _ < 2 ^ 64 := small

/-- A written varint reads back, whatever follows it. -/
theorem varintLoop_putVarint
    {value : Nat}
    (rest : Bytes)
    (small : value < 2 ^ 64) :
    varintLoop (putVarint value ++ rest) 0 0 0 =
      ((putVarint value).length, .ok value) := by
  have read :=
    @varintLoop_putVarintInto 9 value 0 0 0 rest
      rfl (by omega) (by omega)
  simpa [putVarint] using read

namespace Reader

@[simp] theorem skip_skip (reader : Reader) (first second : Nat) :
    (reader.skip first).skip second = reader.skip (first + second) := by
  simp [skip, Nat.add_assoc]

/-- What is skipped is no longer ahead. -/
theorem ahead_skip_append
    {reader : Reader}
    {front rest : Bytes}
    (shape : reader.ahead = front ++ rest) :
    (reader.skip front.length).ahead = rest := by
  simp only [ahead, data_skip, pos_skip] at shape ⊢
  rw [← List.drop_drop, shape, List.drop_left]

/-- A varint reads back. -/
theorem varint_putVarint
    {reader : Reader}
    {value : Nat}
    {rest : Bytes}
    (shape : reader.ahead = putVarint value ++ rest)
    (small : value < 2 ^ 64) :
    reader.varint =
      (reader.skip (putVarint value).length, .ok value) := by
  simp only [varint, shape, varintLoop_putVarint rest small]

/-- A slice of bytes that are there. -/
theorem slice_append
    {reader : Reader}
    {front rest : Bytes}
    (usizeBits : Nat)
    (shape : reader.ahead = front ++ rest) :
    reader.slice usizeBits front.length =
      (reader.skip front.length, .ok front) := by
  have length := congrArg List.length shape
  simp only [length_ahead, List.length_append] at length
  simp only [slice]
  rw [if_pos (by omega), shape, List.take_left]

end Reader

/-- The little-endian reader undoes the writer within the size. -/
theorem littleEndian_write
    (size value : Nat)
    (small : value < 256 ^ size) :
    Reader.littleEndian (Writer.littleEndian size value) = value := by
  induction size generalizing value with
  | zero =>
      simp at small
      simp [Writer.littleEndian, Reader.littleEndian, small]
  | succ size inductionHypothesis =>
      have tail : value / 256 < 256 ^ size := by
        rw [Nat.div_lt_iff_lt_mul (by decide), ← pow_succ]
        exact small
      have byte : (UInt8.ofNat (value % 256)).toNat = value % 256 := by
        rw [UInt8.toNat_ofNat']
        omega
      simp only [Writer.littleEndian, Reader.littleEndian,
        inductionHypothesis _ tail, byte]
      omega

theorem length_littleEndian (size value : Nat) :
    (Writer.littleEndian size value).length = size := by
  induction size generalizing value with
  | zero => rfl
  | succ size inductionHypothesis =>
      simp [Writer.littleEndian, inductionHypothesis]

namespace Field

/-- The writer call that makes a field. -/
def encode (field : Field) : Bytes :=
  match field.kind with
  | .uint => Writer.uint field.number field.uintValue
  | .word64 => Writer.word64 field.number field.uintValue
  | .bytes => Writer.bytes field.number field.byteValue
  | .word32 => []

/-- The fields the writer makes: numbers from one, values within their types. -/
inductive Written : Field → Prop where
  | uint
      {number value : Nat}
      (positive : 0 < number)
      (numberFits : number < 2 ^ 32)
      (valueFits : value < 2 ^ 64) :
      Written (ofUint number value)
  | word64
      {number value : Nat}
      (positive : 0 < number)
      (numberFits : number < 2 ^ 32)
      (valueFits : value < 2 ^ 64) :
      Written (ofWord64 number value)
  | bytes
      {number : Nat}
      {value : Bytes}
      (positive : 0 < number)
      (numberFits : number < 2 ^ 32)
      (lengthFits : value.length < 2 ^ 64) :
      Written (ofBytes number value)

@[simp] theorem encode_ofUint (number value : Nat) :
    (ofUint number value).encode = Writer.uint number value :=
  rfl

@[simp] theorem encode_ofBytes (number : Nat) (value : Bytes) :
    (ofBytes number value).encode = Writer.bytes number value :=
  rfl

@[simp] theorem encode_ofWord64 (number value : Nat) :
    (ofWord64 number value).encode = Writer.word64 number value :=
  rfl

end Field

namespace Reader

/-- A call that meets a written tag goes on with the value. -/
theorem next_tag
    {usizeBits : Nat}
    {reader : Reader}
    {number : Nat}
    {kind : Kind}
    {rest : Bytes}
    (shape : reader.ahead = Writer.tag number kind ++ rest)
    (positive : 0 < number)
    (fits : number < 2 ^ 32) :
    reader.next usizeBits =
      (reader.skip (Writer.tag number kind).length).value usizeBits number
        kind := by
  have code := kind.code_lt
  have nonempty : Writer.tag number kind ≠ [] :=
    putVarintInto_ne_nil 9 _
  have more : ¬ reader.data.length ≤ reader.pos := by
    intro past
    have length := congrArg List.length shape
    simp only [length_ahead, List.length_append] at length
    have := List.length_pos_iff.mpr nonempty
    omega
  have small : number * 8 + kind.code < 2 ^ 64 := by omega
  have taken := varint_putVarint shape small
  have numberShape : tagNumber (number * 8 + kind.code) = number := by
    simp only [tagNumber]
    omega
  have kindShape : (number * 8 + kind.code) % 8 = kind.code := by
    omega
  simp only [next, if_neg more, taken, numberShape, kindShape,
    Kind.ofCode_code, if_neg (Nat.pos_iff_ne_zero.mp positive)]
  rfl

/--
A call that meets a written field returns it and moves behind it, on every
target whose `usize` counts the field's bytes.
-/
theorem next_written
    {usizeBits : Nat}
    {reader : Reader}
    {field : Field}
    {rest : Bytes}
    (written : field.Written)
    (counted : field.byteValue.length < 2 ^ usizeBits)
    (shape : reader.ahead = field.encode ++ rest) :
    reader.next usizeBits =
      (reader.skip field.encode.length, .ok (some field)) := by
  cases written with
  | @uint number value positive numberFits valueFits =>
      simp only [Field.encode_ofUint, Writer.uint,
        List.append_assoc] at shape
      rw [next_tag shape positive numberFits]
      have behind := ahead_skip_append shape
      simp [Reader.value, varint_putVarint behind valueFits, Writer.uint]
  | @word64 number value positive numberFits valueFits =>
      simp only [Field.encode_ofWord64, Writer.word64,
        List.append_assoc] at shape
      rw [next_tag shape positive numberFits]
      have behind := ahead_skip_append shape
      have sliced := slice_append usizeBits behind
      rw [length_littleEndian] at sliced
      simp [Reader.value, sliced, Writer.word64, length_littleEndian,
        littleEndian_write 8 value valueFits]
  | @bytes number value positive numberFits lengthFits =>
      simp only [Field.encode_ofBytes, Writer.bytes,
        List.append_assoc] at shape
      rw [next_tag shape positive numberFits]
      have behind := ahead_skip_append shape
      have length := varint_putVarint behind lengthFits
      have sliced := slice_append usizeBits (ahead_skip_append behind)
      have short : ¬ 2 ^ usizeBits ≤ value.length :=
        Nat.not_le.mpr counted
      simp only [Reader.value, length, short, if_false, sliced]
      simp [Writer.bytes, Nat.add_assoc]

/-- A field reads back, and the reader stands behind it. -/
theorem next_encode
    {reader : Reader}
    {field : Field}
    {rest : Bytes}
    (written : field.Written)
    (shape : reader.ahead = field.encode ++ rest) :
    reader.next 64 =
      (reader.skip field.encode.length, .ok (some field)) := by
  apply next_written written _ shape
  cases written with
  | uint => exact Nat.two_pow_pos 64
  | word64 => exact Nat.two_pow_pos 64
  | bytes _ _ lengthFits => exact lengthFits

end Reader

/-- The message whose fields these are. -/
def encodeAll (fields : List Field) : Bytes :=
  fields.flatMap Field.encode

@[simp] theorem encodeAll_nil : encodeAll [] = [] :=
  rfl

@[simp] theorem encodeAll_cons (field : Field) (rest : List Field) :
    encodeAll (field :: rest) = field.encode ++ encodeAll rest :=
  rfl

@[simp] theorem encodeAll_append (front rest : List Field) :
    encodeAll (front ++ rest) = encodeAll front ++ encodeAll rest := by
  simp [encodeAll]

section Fold

universe u v

variable {ε : Type u} {σ : Type v}

/-- A loop with enough turns runs its step over every field ahead. -/
theorem foldFrom_encodeAll
    (fault : ε)
    (step : σ → Field → Outcome ε σ)
    {fields : List Field}
    (written : ∀ field ∈ fields, field.Written)
    {turns : Nat}
    {reader : Reader}
    (state : σ)
    (enough : fields.length < turns)
    (shape : reader.ahead = encodeAll fields) :
    foldFrom fault step turns reader state =
      fields.foldlM step state := by
  induction fields generalizing turns reader state with
  | nil =>
      obtain ⟨turns, rfl⟩ := Nat.exists_eq_succ_of_ne_zero
        (Nat.pos_iff_ne_zero.mp enough)
      have ended : reader.data.length ≤ reader.pos := by
        have length := congrArg List.length shape
        simp at length
        omega
      simp [foldFrom, Reader.next, ended]
  | cons field rest inductionHypothesis =>
      obtain ⟨turns, rfl⟩ := Nat.exists_eq_succ_of_ne_zero
        (Nat.pos_iff_ne_zero.mp (Nat.zero_lt_of_lt enough))
      have first :=
        Reader.next_encode (written field (by simp)) shape
      simp only [foldFrom, first, List.foldlM_cons]
      congr 1
      funext after
      exact inductionHypothesis
        (fun later member => written later (by simp [member]))
        after (by simpa using enough)
        (Reader.ahead_skip_append shape)

/-- A written field takes at least a byte. -/
theorem Field.Written.encode_length_pos
    {field : Field}
    (written : field.Written) :
    0 < field.encode.length := by
  have tag :
      ∀ number kind, 0 < (Writer.tag number kind).length :=
    fun number kind =>
      List.length_pos_iff.mpr (putVarintInto_ne_nil 9 _)
  cases written <;>
    simp [Writer.uint, Writer.word64, Writer.bytes, tag,
      List.length_append]

/-- Every field takes at least one byte. -/
theorem length_le_encodeAll
    {fields : List Field}
    (written : ∀ field ∈ fields, field.Written) :
    fields.length ≤ (encodeAll fields).length := by
  induction fields with
  | nil => simp
  | cons field rest inductionHypothesis =>
      have head := (written field (by simp)).encode_length_pos
      have tail := inductionHypothesis
        (fun later member => written later (by simp [member]))
      simp only [List.length_cons, encodeAll_cons, List.length_append]
      omega

/-- Parsing a written message is folding over its fields. -/
theorem fold_encodeAll
    (fault : ε)
    (step : σ → Field → Outcome ε σ)
    {fields : List Field}
    (written : ∀ field ∈ fields, field.Written)
    (state : σ) :
    fold fault step (encodeAll fields) state =
      fields.foldlM step state :=
  foldFrom_encodeAll fault step written state
    (Nat.lt_succ_of_le (length_le_encodeAll written))
    (by simp [Reader.init, Reader.ahead])

end Fold

end Gossveil.Codec
