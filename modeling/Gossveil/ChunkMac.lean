import Gossveil.Primitives
import Gossveil.Chunking

namespace Gossveil.ChunkMac

open Chunking (chunks)

/-!
# Chunked authentication of a stream

The sender feeds data into a tagger and takes one MAC per chunk; the receiver
feeds data into a checker that holds these MACs.  Both keep the bytes of an
unfinished chunk in a buffer that is never cleared, and overwrite what is stale
with zeros before the chunk is worked on.
-/

/-- The bytes of one tag. -/
def macLength : Nat := 32

/-- `chunkCount`, the sizes being of `usizeBits` bits. -/
def chunkCount
    (usizeBits total chunk : Nat) :
    Outcome Fault Nat :=
  if total = 0 then .ok 0
  else do
    let upTo ← Outcome.add usizeBits total chunk
    let upTo ← Outcome.sub upTo 1
    Outcome.assert (chunk ≠ 0)
    .ok (upTo / chunk)

/-- The bytes of all tags of a stream; what no length can hold traps. -/
def macBytesFor
    (usizeBits total chunk : Nat) :
    Outcome Fault Nat := do
  let count ← chunkCount usizeBits total chunk
  if count * macLength < 2 ^ usizeBits then .ok (count * macLength) else .trap

/-! ## The unfinished chunk -/

/-- `buf` and `filled`: the buffer of one chunk, and how much of it is used. -/
structure Filling (chunk : Nat) where
  buf : Block chunk
  filled : Nat
  filled_lt : filled < chunk

namespace Filling

variable {chunk : Nat} {σ : Type}

/-- A fresh buffer holds whatever its memory held. -/
def init (memory : Block chunk) (positive : 0 < chunk) : Filling chunk :=
  ⟨memory, 0, positive⟩

/-- `@min(chunk - filled, rest.len)` -/
def take (filling : Filling chunk) (rest : Bytes) : Nat :=
  min (chunk - filling.filled) rest.length

theorem take_le
    {filling : Filling chunk}
    {rest : Bytes} :
    filling.take rest ≤ rest.length :=
  Nat.min_le_right _ _

/-- What is taken fits in the chunk. -/
theorem filled_add_take_le
    {filling : Filling chunk}
    {rest : Bytes} :
    filling.filled + filling.take rest ≤ chunk := by
  have room := filling.filled_lt
  have within : filling.take rest ≤ chunk - filling.filled :=
    Nat.min_le_left _ _
  omega

/-- Something is taken while something is left. -/
theorem take_pos
    {filling : Filling chunk}
    {rest : Bytes}
    (some_rest : 0 < rest.length) :
    0 < filling.take rest :=
  Nat.lt_min.mpr ⟨Nat.sub_pos_of_lt filling.filled_lt, some_rest⟩

/-- `@memcpy(buf[filled .. filled + take], rest[0..take])` -/
def copyIn (filling : Filling chunk) (rest : Bytes) : Block chunk :=
  ⟨filling.buf.bytes.take filling.filled ++ rest.take (filling.take rest) ++
      filling.buf.bytes.drop (filling.filled + filling.take rest), by
    have room := filling.filled_lt
    have within : filling.filled + filling.take rest ≤ chunk :=
      filled_add_take_le
    simp only [List.length_append, List.length_take, List.length_drop,
      Block.length_eq, Nat.min_eq_left (Nat.le_of_lt room),
      Nat.min_eq_left take_le]
    omega⟩

/-- `@memset(buf[offset..], 0)` -/
def clearFrom
    (buf : Block chunk)
    (offset : Nat)
    (inside : offset ≤ chunk) :
    Block chunk :=
  ⟨buf.bytes.take offset ++ List.replicate (chunk - offset) 0, by
    simp only [List.length_append, List.length_take, List.length_replicate,
      Block.length_eq]
    omega⟩

/-- The bytes of the unfinished chunk. -/
def contents (filling : Filling chunk) : Bytes :=
  filling.buf.bytes.take filling.filled

/--
The loop of `Tagger.update` and `Checker.update`: bytes are copied into the
buffer, and each chunk they complete is flushed or checked.
-/
def update
    (completed : σ → Bytes → Outcome Fault σ)
    (current : σ × Filling chunk)
    (rest : Bytes) :
    Outcome Fault (σ × Filling chunk) :=
  if _ : 0 < rest.length then
    let filled := current.2.filled + current.2.take rest
    let buf := current.2.copyIn rest
    if whole : filled = chunk then do
      -- the chunk is complete, so clearing the buffer's tail clears nothing
      let buf := clearFrom buf filled filled_add_take_le
      let state ← completed current.1 buf.bytes
      update completed
        (state, ⟨buf, 0, Nat.zero_lt_of_lt current.2.filled_lt⟩)
        (rest.drop (current.2.take rest))
    else
      update completed
        (current.1,
          ⟨buf, filled, Nat.lt_of_le_of_ne filled_add_take_le whole⟩)
        (rest.drop (current.2.take rest))
  else .ok current
termination_by rest.length
decreasing_by
  all_goals
    rw [List.length_drop]
    exact Nat.sub_lt ‹0 < rest.length› (take_pos ‹0 < rest.length›)

/-- `finish`: an unfinished chunk is flushed or checked, its tail cleared. -/
def finish
    (completed : σ → Bytes → Outcome Fault σ)
    (current : σ × Filling chunk) :
    Outcome Fault σ :=
  if 0 < current.2.filled then
    completed current.1
      (clearFrom current.2.buf current.2.filled
        (Nat.le_of_lt current.2.filled_lt)).bytes
  else .ok current.1

end Filling

/-! ## The sender's side -/

variable [Hashes]

/-- `Hmac.create(&mac, buf, &key)` -/
def macOf (key : Block 32) (buf : Bytes) : Block 32 :=
  Hashes.hmac key.bytes buf

/-- Tags a stream chunk by chunk. -/
structure Tagger where
  key : Block 32
  chunk : Nat
  filling : Filling chunk
  macs : Bytes

namespace Tagger

/-- A tagger before the first byte. -/
def init
    (key : Block 32)
    {chunk : Nat}
    (memory : Block chunk)
    (positive : 0 < chunk) :
    Tagger :=
  ⟨key, chunk, Filling.init memory positive, []⟩

/-- What `flush` appends for a chunk whose tail has been cleared. -/
def flush (key : Block 32) (macs buf : Bytes) : Outcome Fault Bytes :=
  .ok (macs ++ (macOf key buf).bytes)

/-- Takes in some bytes and tags the chunks they fill. -/
def update (tagger : Tagger) (data : Bytes) : Outcome Fault Tagger := do
  let (macs, filling) ←
    Filling.update (flush tagger.key) (tagger.macs, tagger.filling) data
  .ok { tagger with filling, macs }

/-- Tags what is left and returns all tags. -/
def finish (tagger : Tagger) : Outcome Fault Bytes :=
  Filling.finish (flush tagger.key) (tagger.macs, tagger.filling)

end Tagger

/-! ## The receiver's side -/

/-- Checks a stream against its tags. -/
structure Checker where
  key : Block 32
  chunk : Nat
  expected : Bytes
  filling : Filling chunk
  index : Nat

namespace Checker

/-- A checker before the first byte. -/
def init
    (key : Block 32)
    {chunk : Nat}
    (memory : Block chunk)
    (positive : 0 < chunk)
    (expected : Bytes) :
    Checker :=
  ⟨key, chunk, expected, Filling.init memory positive, 0⟩

/--
`check` for a chunk whose tail has been cleared: the next index.  An index never
passes the number of MACs, so its sums stay within the size of a slice.
-/
def check
    (key : Block 32)
    (expected : Bytes)
    (index : Nat)
    (buf : Bytes) :
    Outcome Fault Nat := do
  let offset := index * macLength
  Outcome.require .badMessage (offset + macLength ≤ expected.length)
  Outcome.require .badMessage
    ((macOf key buf).bytes = (expected.drop offset).take macLength)
  .ok (index + 1)

/-- Takes in some bytes and checks the chunks they fill. -/
def update (checker : Checker) (data : Bytes) : Outcome Fault Checker := do
  let (index, filling) ←
    Filling.update (check checker.key checker.expected)
      (checker.index, checker.filling) data
  .ok { checker with filling, index }

/-- Checks what is left. -/
def finish (checker : Checker) : Outcome Fault Unit := do
  let _ ←
    Filling.finish (check checker.key checker.expected)
      (checker.index, checker.filling)
  .ok ()

end Checker

end Gossveil.ChunkMac
