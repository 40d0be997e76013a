import Gossveil.Field16
import Gossveil.Interpolation
import Gossveil.Primitives

namespace Gossveil

/-!
# The erasure code

A systematic code over sixteen interleaved polynomials.  A message of `2n`
bytes is dealt out as `n` words over the columns; piece `i` carries the value
at `x = i` of every column's polynomial.  `Spread` makes the pieces of one
message and `Gather` collects pieces until every column has enough points.
-/

/-- The errors of the post-quantum ratchet. -/
inductive RatchetError where
  | oddLength
  | tooLong
  | badRecord
  | badPacket
  | badTag
  | epochOutOfRange
  | badData
  | keyJump
  | keyTrimmed
  | keyAlreadyTaken
  | sendEpochWentBack
  | versionMismatch
  | minimumVersion
  | noStream
  deriving DecidableEq, Repr

namespace ErasureCode

open Interpolation

/-- The bytes of a piece: one word for each polynomial. -/
def pieceSize : Nat := 32

/-- The columns that the words of a message go round. -/
def polynomials : Nat := 16

/-- One list for each column. -/
abbrev Columns (α : Type) := Fin polynomials → List α

/-- An abscissa and the value there. -/
abbrev Point := Gf16 × Gf16

/-- One point of every polynomial, at the same place. -/
structure Piece where
  index : Gf16
  data : Block 32
  deriving DecidableEq

/-! ## Words and bytes -/

/-- Two bytes, the high one first. -/
def wordOf (high low : UInt8) : Gf16 :=
  Gf16.ofNat (high.toNat * 256 + low.toNat)

/-- A word in two bytes, the high one first. -/
def wordBytes (word : Gf16) : Bytes :=
  [UInt8.ofNat (word.toNat / 256), UInt8.ofNat (word.toNat % 256)]

/-- The words of some bytes; an odd byte at the end is left out. -/
def wordsOf : Bytes → List Gf16
  | high :: low :: rest => wordOf high low :: wordsOf rest
  | _ => []

/-- The words one after the other. -/
def bytesOf (words : List Gf16) : Bytes :=
  words.flatMap wordBytes

@[simp] theorem length_bytesOf (words : List Gf16) :
    (bytesOf words).length = 2 * words.length := by
  induction words with
  | nil =>
      rfl
  | cons word rest inductionHypothesis =>
      rw [bytesOf, List.flatMap_cons, List.length_append, ← bytesOf,
        inductionHypothesis, List.length_cons]
      simp only [wordBytes, List.length_cons, List.length_nil]
      omega

/-- How many of some words fall into a column. -/
def needFor (needed : Nat) (column : Fin polynomials) : Nat :=
  needed / polynomials +
    if column.val < needed % polynomials then 1 else 0

/-- The rows of a column are those whose words are within the message. -/
theorem lt_needFor
    {needed row : Nat}
    {column : Fin polynomials} :
    row < needFor needed column ↔
      polynomials * row + column.val < needed := by
  have inside : column.val < 16 := column.isLt
  have shape :
      needFor needed column =
        needed / 16 + if column.val < needed % 16 then 1 else 0 :=
    rfl
  rw [shape]
  change _ ↔ 16 * row + column.val < needed
  split_ifs <;> omega

/-- A column takes every sixteenth word. -/
def columnOf (words : List Gf16) (column : Fin polynomials) : List Gf16 :=
  (List.range (needFor words.length column)).map fun row =>
    words.getD (polynomials * row + column.val) 0

/-- The word of a piece that belongs to a column. -/
def Piece.word (piece : Piece) (column : Fin polynomials) : Gf16 :=
  wordOf (piece.data.bytes.getD (2 * column.val) 0)
    (piece.data.bytes.getD (2 * column.val + 1) 0)

/-- A piece's data from the words of its columns. -/
def pieceData (words : Fin polynomials → Gf16) : Block 32 :=
  ⟨bytesOf (List.ofFn words), by
    rw [length_bytesOf, List.length_ofFn]
    rfl⟩

/-! ## Spreading -/

/--
Before the first parity piece the columns hold message words; afterwards they
hold fitted coefficients.
-/
structure Spread where
  next : Nat
  columns : Columns Gf16
  fitted : Bool
  deriving DecidableEq

namespace Spread

/-- A message to be spread; odd lengths and what is too long are refused. -/
def of (message : Bytes) : Outcome RatchetError Spread :=
  if message.length % 2 ≠ 0 then
    .error .oddLength
  else if 2 ^ 16 * polynomials < message.length then
    .error .tooLong
  else
    .ok ⟨0, columnOf (wordsOf message), false⟩

/-- The points of a column of message words. -/
def columnPoints (column : List Gf16) : List Point :=
  column.mapIdx fun index word => (Gf16.ofNat index, word)

/-- Every column's words give way to its coefficients. -/
def fitColumns (columns : Columns Gf16) :
    Outcome RatchetError (Columns Gf16) :=
  if ∀ column, (columns column).length ≤ 2 ^ 16 then
    .ok fun column => fit (columnPoints (columns column))
  else
    .trap

/--
The value of a column at a place. A place among the words is looked up; the
first one behind them has the polynomials fitted.
-/
def point
    (spread : Spread)
    (column : Fin polynomials)
    (x : Gf16) :
    Outcome RatchetError (Gf16 × Spread) :=
  if spread.fitted then
    .ok (evaluate (spread.columns column) x, spread)
  else
    match (spread.columns column)[x.toNat]? with
    | some word => .ok (word, spread)
    | none => do
        let columns ← fitColumns spread.columns
        return (evaluate (columns column) x,
          { spread with columns := columns, fitted := true })

/-- The loop of `pieceAt` over some columns. -/
def pointsAt (x : Gf16) :
    (rest : List (Fin polynomials)) →
    (words : Fin polynomials → Gf16) →
    Spread →
    Outcome RatchetError ((Fin polynomials → Gf16) × Spread)
  | [], words, spread => .ok (words, spread)
  | column :: rest, words, spread => do
      let (word, spread) ← spread.point column x
      pointsAt x rest (Function.update words column word) spread

/-- The piece of a number: the value of each column there. -/
def pieceAt
    (spread : Spread)
    (index : Gf16) :
    Outcome RatchetError (Piece × Spread) := do
  let (words, spread) ←
    pointsAt index (List.finRange polynomials) (fun _ => 0) spread
  return (⟨index, pieceData words⟩, spread)

/-- The counter wraps, and pieces carry its low sixteen bits. -/
def nextPiece (spread : Spread) : Outcome RatchetError (Piece × Spread) := do
  let (piece, spread) ← spread.pieceAt (Gf16.ofNat spread.next)
  return (piece, { spread with next := (spread.next + 1) % 2 ^ 32 })

end Spread

/-! ## Gathering -/

/-- Points of each column, sorted by abscissa. -/
structure Gather where
  needed : Nat
  points : Columns Point
  done : Bool
  deriving DecidableEq

namespace Gather

/-- A gather for a message of this length. -/
def forLength (length : Nat) : Outcome RatchetError Gather :=
  if length % 2 ≠ 0 then
    .error .oddLength
  else
    .ok ⟨length / 2, fun _ => [], false⟩

/-- The halving loop of `insert` and `lookup`, with a bound on its turns. -/
def search (column : List Point) (x : Gf16) :
    (turns low high : Nat) →
    Nat
  | 0, low, _ => low
  | turns + 1, low, high =>
      if low < high then
        let middle := (low + high) / 2
        if (column.getD middle (0, 0)).1.toNat < x.toNat then
          search column x turns (middle + 1) high
        else
          search column x turns low middle
      else
        low

/-- Where the loop ends: every turn shrinks the interval. -/
def position (column : List Point) (x : Gf16) : Nat :=
  search column x column.length 0 column.length

/-- A point at an abscissa that is taken is dropped. -/
def insert (column : List Point) (point : Point) : List Point :=
  let low := position column point.1
  if (column[low]?.map Prod.fst) = some point.1 then
    column
  else
    column.take low ++ point :: column.drop low

/-- The value a sorted column has at a place. -/
def lookup (column : List Point) (x : Gf16) : Option Gf16 :=
  match column[position column x]? with
  | some point => if point.1 = x then some point.2 else none
  | none => none

/-- A systematic point is always kept, a parity point while it is needed. -/
def add (gather : Gather) (piece : Piece) : Gather :=
  { gather with
    points := fun column =>
      let need := needFor gather.needed column
      if piece.index.toNat < need ∨
          (gather.points column).length < need then
        insert (gather.points column) (piece.index, piece.word column)
      else
        gather.points column }

/-- The word at some place of the message. -/
def wordAt (gather : Gather) (place : Nat) : Outcome RatchetError Gf16 := do
  let column : Fin polynomials :=
    ⟨place % polynomials, Nat.mod_lt place (by decide)⟩
  let row ← Outcome.intCast 16 (place / polynomials)
  match lookup (gather.points column) (Gf16.ofNat row) with
  | some word => return word
  | none =>
      let enough :=
        (gather.points column).take (needFor gather.needed column)
      return evaluate (fit enough) (Gf16.ofNat row)

/-- The message once every column has enough points; null until then. -/
def message (gather : Gather) : Outcome RatchetError (Option Bytes) :=
  if gather.done then
    .ok none
  else if ∃ column,
      (gather.points column).length < needFor gather.needed column then
    .ok none
  else do
    let words ← (List.range gather.needed).mapM gather.wordAt
    return some (bytesOf words)

end Gather

end ErasureCode

end Gossveil
