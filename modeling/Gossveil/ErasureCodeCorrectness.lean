import Gossveil.Delivers
import Gossveil.ErasureCode

namespace Gossveil

open Interpolation

/-!
# What the erasure code delivers

The pieces of a message are the values of its column polynomials, whichever
way a `Spread` holds the columns.  A `Gather` whose points all lie on these
polynomials either waits for more points or rebuilds exactly the message.
-/

namespace Gf16

theorem toNat_lt (word : Gf16) : word.toNat < 2 ^ 16 :=
  word.bits.isLt

/-- A number of sixteen bits is kept. -/
theorem toNat_ofNat
    {value : Nat}
    (small : value < 2 ^ 16) :
    (ofNat value).toNat = value := by
  simp only [ofNat, toNat, BitVec.toNat_ofNat]
  exact Nat.mod_eq_of_lt small

@[simp] theorem ofNat_toNat (word : Gf16) : ofNat word.toNat = word := by
  ext1
  simp [ofNat, toNat]

theorem toNat_injective
    {first second : Gf16}
    (same : first.toNat = second.toNat) :
    first = second := by
  rw [← ofNat_toNat first, same, ofNat_toNat]

end Gf16

namespace ErasureCode

/-! ## Words and bytes -/

@[simp] theorem wordOf_wordBytes (word : Gf16) :
    wordOf (UInt8.ofNat (word.toNat / 256))
      (UInt8.ofNat (word.toNat % 256)) = word := by
  have small := word.toNat_lt
  have high : word.toNat / 256 < 256 := by omega
  have low : word.toNat % 256 < 256 := by omega
  have value :
      word.toNat / 256 * 256 + word.toNat % 256 = word.toNat := by
    omega
  rw [wordOf, UInt8.toNat_ofNat', UInt8.toNat_ofNat',
    Nat.mod_eq_of_lt high, Nat.mod_eq_of_lt low, value,
    Gf16.ofNat_toNat]

@[simp] theorem wordBytes_wordOf (high low : UInt8) :
    wordBytes (wordOf high low) = [high, low] := by
  have highBound := high.toNat_lt
  have lowBound := low.toNat_lt
  have small : high.toNat * 256 + low.toNat < 2 ^ 16 := by omega
  have highPart :
      (high.toNat * 256 + low.toNat) / 256 = high.toNat := by omega
  have lowPart :
      (high.toNat * 256 + low.toNat) % 256 = low.toNat := by omega
  rw [wordBytes, wordOf, Gf16.toNat_ofNat small, highPart, lowPart,
    UInt8.ofNat_toNat, UInt8.ofNat_toNat]

@[simp] theorem wordsOf_bytesOf (words : List Gf16) :
    wordsOf (bytesOf words) = words := by
  induction words with
  | nil =>
      rfl
  | cons word rest inductionHypothesis =>
      have shape :
          bytesOf (word :: rest) =
            UInt8.ofNat (word.toNat / 256) ::
              UInt8.ofNat (word.toNat % 256) :: bytesOf rest :=
        rfl
      rw [shape, wordsOf, wordOf_wordBytes, inductionHypothesis]

theorem length_wordsOf (message : Bytes) :
    (wordsOf message).length = message.length / 2 := by
  induction message using wordsOf.induct with
  | case1 high low rest inductionHypothesis =>
      rw [wordsOf, List.length_cons, inductionHypothesis,
        List.length_cons, List.length_cons]
      omega
  | case2 message short =>
      cases message with
      | nil => rfl
      | cons first rest =>
          cases rest with
          | nil => simp [wordsOf]
          | cons second rest => exact absurd rfl (short first second rest)

/-- A message of even length is kept by its words. -/
theorem bytesOf_wordsOf
    {message : Bytes}
    (even : message.length % 2 = 0) :
    bytesOf (wordsOf message) = message := by
  induction message using wordsOf.induct with
  | case1 high low rest inductionHypothesis =>
      have restEven : rest.length % 2 = 0 := by
        simp only [List.length_cons] at even
        omega
      have shape :
          bytesOf (wordOf high low :: wordsOf rest) =
            wordBytes (wordOf high low) ++ bytesOf (wordsOf rest) :=
        rfl
      rw [wordsOf, shape, wordBytes_wordOf, inductionHypothesis restEven]
      rfl
  | case2 message short =>
      cases message with
      | nil => rfl
      | cons first rest =>
          cases rest with
          | nil => simp at even
          | cons second rest => exact absurd rfl (short first second rest)

/-- The two bytes of a word stand at twice its index. -/
theorem wordOf_bytesOf_getD
    (words : List Gf16)
    {index : Nat}
    (inside : index < words.length) :
    wordOf ((bytesOf words).getD (2 * index) 0)
      ((bytesOf words).getD (2 * index + 1) 0) = words[index] := by
  induction words generalizing index with
  | nil =>
      simp at inside
  | cons word rest inductionHypothesis =>
      have shape :
          bytesOf (word :: rest) =
            UInt8.ofNat (word.toNat / 256) ::
              UInt8.ofNat (word.toNat % 256) :: bytesOf rest :=
        rfl
      cases index with
      | zero =>
          rw [shape]
          exact wordOf_wordBytes word
      | succ index =>
          have restInside : index < rest.length := by
            simpa using inside
          rw [shape, show 2 * (index + 1) = 2 * index + 1 + 1 by omega,
            List.getD_cons_succ, List.getD_cons_succ,
            List.getD_cons_succ, List.getD_cons_succ,
            inductionHypothesis restInside]
          rfl

@[simp] theorem word_pieceData
    (index : Gf16)
    (words : Fin polynomials → Gf16)
    (column : Fin polynomials) :
    (Piece.mk index (pieceData words)).word column = words column := by
  have inside : column.val < (List.ofFn words).length := by
    rw [List.length_ofFn]
    exact column.isLt
  have found := wordOf_bytesOf_getD (List.ofFn words) inside
  rw [List.getElem_ofFn] at found
  exact found

/-! ## Codewords -/

/-- The value of a column's polynomial. -/
def symbol
    (message : Bytes)
    (column : Fin polynomials)
    (x : Gf16) :
    Gf16 :=
  evaluate
    (fit (Spread.columnPoints (columnOf (wordsOf message) column))) x

/-- The piece of a message with some index. -/
def codeword (message : Bytes) (index : Gf16) : Piece :=
  ⟨index, pieceData fun column => symbol message column index⟩

@[simp] theorem index_codeword (message : Bytes) (index : Gf16) :
    (codeword message index).index = index :=
  rfl

@[simp] theorem word_codeword
    (message : Bytes)
    (index : Gf16)
    (column : Fin polynomials) :
    (codeword message index).word column =
      symbol message column index :=
  word_pieceData ..

/-- A column has as many words as its place asks for. -/
theorem length_columnOf (words : List Gf16) (column : Fin polynomials) :
    (columnOf words column).length = needFor words.length column := by
  simp [columnOf]

/-- The abscissae of a column's message points are distinct. -/
theorem columnPoints_distinct
    {column : List Gf16}
    (short : column.length ≤ 2 ^ 16) :
    ((Spread.columnPoints column).map Prod.fst).Nodup := by
  rw [List.nodup_iff_injective_getElem]
  rintro ⟨first, firstInside⟩ ⟨second, secondInside⟩ same
  simp only [Spread.columnPoints, List.length_map,
    List.length_mapIdx] at firstInside secondInside
  simp only [Spread.columnPoints, List.getElem_map,
    List.getElem_mapIdx] at same
  have values := congrArg Gf16.toNat same
  rw [Gf16.toNat_ofNat (Nat.lt_of_lt_of_le firstInside short),
    Gf16.toNat_ofNat (Nat.lt_of_lt_of_le secondInside short)] at values
  exact Fin.ext values

theorem length_fit_columnPoints
    {column : List Gf16}
    (short : column.length ≤ 2 ^ 16) :
    (fit (Spread.columnPoints column)).length = column.length := by
  rw [length_fit (columnPoints_distinct short), Spread.columnPoints,
    List.length_mapIdx]

/-- Fitted coefficients meet the column's words. -/
theorem evaluate_fit_columnPoints
    {column : List Gf16}
    (short : column.length ≤ 2 ^ 16)
    {row : Nat}
    (inside : row < column.length) :
    evaluate (fit (Spread.columnPoints column)) (Gf16.ofNat row) =
      column[row] := by
  refine evaluate_fit (columnPoints_distinct short) ?_
  refine List.mem_iff_getElem.mpr ⟨row, ?_, ?_⟩
  · rw [Spread.columnPoints, List.length_mapIdx]
    exact inside
  · simp only [Spread.columnPoints, List.getElem_mapIdx]

/-- Within the message, a symbol is the word itself. -/
theorem symbol_of_lt
    {message : Bytes}
    {column : Fin polynomials}
    {x : Gf16}
    {word : Gf16}
    (short :
      (columnOf (wordsOf message) column).length ≤ 2 ^ 16)
    (found : (columnOf (wordsOf message) column)[x.toNat]? = some word) :
    symbol message column x = word := by
  rcases List.getElem?_eq_some_iff.mp found with ⟨inside, value⟩
  have met := evaluate_fit_columnPoints short inside
  rw [Gf16.ofNat_toNat, value] at met
  exact met

/-! ## Spreads -/

namespace Spread

/-- The spread holds a message, as its words or as fitted coefficients. -/
structure Carries (spread : Spread) (message : Bytes) : Prop where
  short : message.length ≤ 2 ^ 16 * polynomials
  even : message.length % 2 = 0
  nextFits : spread.next < 2 ^ 32
  columns :
    (spread.fitted = false ∧
        spread.columns = columnOf (wordsOf message)) ∨
      (spread.fitted = true ∧
        spread.columns = fun column =>
          fit (columnPoints (columnOf (wordsOf message) column)))

/-- The columns of a message that is not too long. -/
theorem columnOf_short
    {message : Bytes}
    (short : message.length ≤ 2 ^ 16 * polynomials)
    (column : Fin polynomials) :
    (columnOf (wordsOf message) column).length ≤ 2 ^ 16 := by
  rw [length_columnOf, length_wordsOf]
  refine Nat.le_of_not_lt fun long => ?_
  have inside := lt_needFor.mp long
  change 16 * 2 ^ 16 + column.val < message.length / 2 at inside
  change message.length ≤ 2 ^ 16 * 16 at short
  omega

/-- A spread carries the message it was made of. -/
theorem of_carries
    {message : Bytes}
    (even : message.length % 2 = 0)
    (short : message.length ≤ 2 ^ 16 * polynomials) :
    ∃ spread, of message = .ok spread ∧ spread.Carries message := by
  refine ⟨⟨0, columnOf (wordsOf message), false⟩, ?_,
    short, even, Nat.two_pow_pos 32, Or.inl ⟨rfl, rfl⟩⟩
  rw [of, if_neg (not_not.mpr even), if_neg (Nat.not_lt.mpr short)]

/-- One symbol of a carried message. -/
theorem point_of_carries
    {spread : Spread}
    {message : Bytes}
    (carries : spread.Carries message)
    (column : Fin polynomials)
    (x : Gf16) :
    ∃ after,
      spread.point column x = .ok (symbol message column x, after) ∧
        after.Carries message ∧
        after.next = spread.next := by
  rcases carries.columns with ⟨raw, columns⟩ | ⟨fitted, columns⟩
  · cases found : (columnOf (wordsOf message) column)[x.toNat]? with
    | some word =>
        refine ⟨spread, ?_, carries, rfl⟩
        simp only [point, raw, Bool.false_eq_true, if_false, columns,
          found]
        rw [symbol_of_lt (columnOf_short carries.short column) found]
    | none =>
        have fits :
            fitColumns (columnOf (wordsOf message)) =
              .ok fun column =>
                fit (columnPoints (columnOf (wordsOf message) column)) :=
          if_pos fun column => columnOf_short carries.short column
        refine ⟨{ spread with
            columns := fun column =>
              fit (columnPoints (columnOf (wordsOf message) column))
            fitted := true }, ?_, ?_, rfl⟩
        · simp only [point, raw, Bool.false_eq_true, if_false, columns,
            found, fits, Outcome.ok_bind]
          rfl
        · exact ⟨carries.short, carries.even, carries.nextFits,
            Or.inr ⟨rfl, rfl⟩⟩
  · refine ⟨spread, ?_, carries, rfl⟩
    simp only [point, fitted, if_true, columns]
    rfl

/-- The symbols of a stretch of columns. -/
theorem pointsAt_of_carries
    {message : Bytes}
    (x : Gf16)
    (rest : List (Fin polynomials))
    (words : Fin polynomials → Gf16)
    {spread : Spread}
    (carries : spread.Carries message) :
    ∃ filled after,
      pointsAt x rest words spread = .ok (filled, after) ∧
        after.Carries message ∧
        after.next = spread.next ∧
        ∀ column,
          filled column =
            if column ∈ rest then symbol message column x
            else words column := by
  induction rest generalizing words spread with
  | nil =>
      exact ⟨words, spread, rfl, carries, rfl, by simp⟩
  | cons column rest inductionHypothesis =>
      rcases point_of_carries carries column x with
        ⟨between, pointed, betweenCarries, betweenNext⟩
      rcases inductionHypothesis
          (Function.update words column (symbol message column x))
          betweenCarries with
        ⟨filled, after, made, afterCarries, afterNext, values⟩
      refine ⟨filled, after, ?_, afterCarries,
        afterNext.trans betweenNext, ?_⟩
      · rw [pointsAt, pointed]
        exact made
      · intro other
        rw [values other]
        by_cases inRest : other ∈ rest
        · rw [if_pos inRest, if_pos (List.mem_cons_of_mem _ inRest)]
        · rw [if_neg inRest]
          by_cases same : other = column
          · rw [same, Function.update_self,
              if_pos List.mem_cons_self]
          · rw [Function.update_of_ne same, if_neg]
            intro member
            rcases List.mem_cons.mp member with isColumn | isRest
            · exact same isColumn
            · exact inRest isRest

/-- Every piece of a carried message is its codeword. -/
theorem pieceAt_of_carries
    {spread : Spread}
    {message : Bytes}
    (carries : spread.Carries message)
    (index : Gf16) :
    ∃ after,
      spread.pieceAt index = .ok (codeword message index, after) ∧
        after.Carries message ∧
        after.next = spread.next := by
  rcases pointsAt_of_carries index (List.finRange polynomials)
      (fun _ => 0) carries with
    ⟨filled, after, made, afterCarries, afterNext, values⟩
  have isCodeword :
      filled = fun column => symbol message column index := by
    funext column
    rw [values column, if_pos (List.mem_finRange column)]
  refine ⟨after, ?_, afterCarries, afterNext⟩
  rw [pieceAt, made, Outcome.ok_bind, isCodeword]
  rfl

/-- The next piece is the code word of its number. -/
theorem nextPiece_of_carries
    {spread : Spread}
    {message : Bytes}
    (carries : spread.Carries message) :
    ∃ after,
      spread.nextPiece =
          .ok (codeword message (Gf16.ofNat spread.next), after) ∧
        after.Carries message ∧
        after.next = (spread.next + 1) % 2 ^ 32 := by
  rcases pieceAt_of_carries carries (Gf16.ofNat spread.next) with
    ⟨after, made, afterCarries, afterNext⟩
  refine ⟨{ after with next := (after.next + 1) % 2 ^ 32 }, ?_, ?_,
    by simp only [afterNext]⟩
  · rw [nextPiece, made, afterNext.symm]
    rfl
  · exact ⟨afterCarries.short, afterCarries.even,
      Nat.mod_lt _ (Nat.two_pow_pos 32), afterCarries.columns⟩

end Spread

/-! ## Gathers -/

namespace Gather

/-- A column sorted by distinct abscissae. -/
def Sorted (column : List Point) : Prop :=
  column.Pairwise fun first second =>
    first.1.toNat < second.1.toNat

theorem Sorted.lt
    {column : List Point}
    (sorted : Sorted column)
    {first second : Nat}
    (ordered : first < second)
    (inside : second < column.length) :
    (column[first]).1.toNat < (column[second]).1.toNat :=
  List.pairwise_iff_getElem.mp sorted first second
    (Nat.lt_trans ordered inside) inside ordered

/-- The search splits a sorted column at the abscissa. -/
theorem search_spec
    {column : List Point}
    (sorted : Sorted column)
    (x : Gf16)
    {turns low high : Nat}
    (ordered : low ≤ high)
    (inside : high ≤ column.length)
    (enough : high - low ≤ turns)
    (below :
      ∀ index (bound : index < column.length),
        index < low → (column[index]).1.toNat < x.toNat)
    (above :
      ∀ index (bound : index < column.length),
        high ≤ index → x.toNat ≤ (column[index]).1.toNat) :
    search column x turns low high ≤ column.length ∧
      (∀ index (bound : index < column.length),
        index < search column x turns low high →
          (column[index]).1.toNat < x.toNat) ∧
      ∀ index (bound : index < column.length),
        search column x turns low high ≤ index →
          x.toNat ≤ (column[index]).1.toNat := by
  induction turns generalizing low high with
  | zero =>
      have met : low = high := by omega
      rw [search]
      exact ⟨by omega, below, fun index bound later =>
        above index bound (by omega)⟩
  | succ turns inductionHypothesis =>
      rw [search]
      by_cases open_ : low < high
      · rw [if_pos open_]
        have middleInside : (low + high) / 2 < column.length := by omega
        have isMiddle :
            column.getD ((low + high) / 2) (0, 0) =
              column[(low + high) / 2] :=
          (List.getElem_eq_getD _).symm
        simp only [isMiddle]
        by_cases smaller :
            (column[(low + high) / 2]).1.toNat < x.toNat
        · rw [if_pos smaller]
          refine inductionHypothesis (by omega) inside (by omega) ?_ above
          intro index bound earlier
          rcases Nat.lt_or_eq_of_le (Nat.le_of_lt_succ earlier) with
            less | rfl
          · exact Nat.lt_trans (sorted.lt less middleInside) smaller
          · exact smaller
        · rw [if_neg smaller]
          refine inductionHypothesis (by omega) (by omega) (by omega)
            below ?_
          intro index bound later
          rcases Nat.lt_or_eq_of_le later with more | rfl
          · exact Nat.le_trans (Nat.le_of_not_lt smaller)
              (Nat.le_of_lt (sorted.lt more bound))
          · exact Nat.le_of_not_lt smaller
      · rw [if_neg open_]
        exact ⟨by omega, below, fun index bound later =>
          above index bound (by omega)⟩

/-- The search ends at the first place that is not smaller. -/
theorem position_spec
    {column : List Point}
    (sorted : Sorted column)
    (x : Gf16) :
    position column x ≤ column.length ∧
      (∀ index (bound : index < column.length),
        index < position column x →
          (column[index]).1.toNat < x.toNat) ∧
      ∀ index (bound : index < column.length),
        position column x ≤ index →
          x.toNat ≤ (column[index]).1.toNat :=
  search_spec sorted x (Nat.zero_le _) (Nat.le_refl _) (Nat.le_refl _)
    (fun _ _ earlier => absurd earlier (Nat.not_lt_zero _))
    (fun _ bound later => absurd bound (Nat.not_lt.mpr later))

/-- A point found at the searched abscissa is in the column. -/
theorem mem_of_lookup
    {column : List Point}
    {x y : Gf16}
    (found : lookup column x = some y) :
    (x, y) ∈ column := by
  unfold lookup at found
  split at found
  · rename_i point here
    split_ifs at found with same
    cases found
    rw [← same]
    exact List.mem_of_getElem? here
  · cases found

/-- What inserting a point does to the members of a column. -/
theorem mem_insert
    {column : List Point}
    {point other : Point}
    (member : other ∈ insert column point) :
    other = point ∨ other ∈ column := by
  unfold insert at member
  simp only at member
  split_ifs at member with taken
  · exact Or.inr member
  · rcases List.mem_append.mp member with early | late
    · exact Or.inr (List.mem_of_mem_take early)
    · rcases List.mem_cons.mp late with same | later
      · exact Or.inl same
      · exact Or.inr (List.mem_of_mem_drop later)

/-- A column stays sorted. -/
theorem insert_sorted
    {column : List Point}
    (sorted : Sorted column)
    (point : Point) :
    Sorted (insert column point) := by
  rcases position_spec sorted point.1 with ⟨inside, below, above⟩
  unfold insert
  simp only
  split_ifs with taken
  · exact sorted
  · have laterThan :
        ∀ other ∈ column.drop (position column point.1),
          point.1.toNat < other.1.toNat := by
      intro other member
      rcases List.mem_iff_getElem.mp member with ⟨offset, bound, rfl⟩
      rw [List.length_drop] at bound
      rw [List.getElem_drop]
      have notBefore :=
        above (position column point.1 + offset) (by omega) (by omega)
      refine Nat.lt_of_le_of_ne notBefore ?_
      intro sameAbscissa
      rcases Nat.eq_zero_or_pos offset with isFirst | later
      · refine taken ?_
        have here : position column point.1 < column.length := by omega
        rw [List.getElem?_eq_getElem here, Option.map_some]
        congr 1
        refine Gf16.toNat_injective ?_
        rw [sameAbscissa]
        congr 3
        omega
      · have first :=
          above (position column point.1) (by omega) (Nat.le_refl _)
        have increasing :=
          sorted.lt
            (show position column point.1 <
              position column point.1 + offset by omega)
            (by omega)
        omega
    have earlierThan :
        ∀ other ∈ column.take (position column point.1),
          other.1.toNat < point.1.toNat := by
      intro other member
      rcases List.mem_iff_getElem.mp member with ⟨index, bound, rfl⟩
      rw [List.length_take] at bound
      rw [List.getElem_take]
      exact below index (by omega) (by omega)
    refine List.pairwise_append.mpr ⟨sorted.take, ?_, ?_⟩
    · refine List.Pairwise.cons laterThan sorted.drop
    · intro first firstMember second secondMember
      rcases List.mem_cons.mp secondMember with rfl | inDrop
      · exact earlierThan first firstMember
      · exact Nat.lt_trans (earlierThan first firstMember)
          (laterThan second inDrop)

/--
The gather waits for a message of some length; the points it has are values
of the message's columns, once there is one.
-/
structure Gathers
    (gather : Gather)
    (length : Nat)
    (source : Option Bytes) :
    Prop where
  needed : gather.needed = length / 2
  waiting : gather.done = false
  sorted : ∀ column, Sorted (gather.points column)
  onCurve :
    ∀ column, ∀ point ∈ gather.points column,
      ∃ message, source = some message ∧
        point.2 = symbol message column point.1

/-- A new gather gathers from any source. -/
theorem forLength_gathers
    {length : Nat}
    (even : length % 2 = 0)
    (source : Option Bytes) :
    ∃ gather, forLength length = .ok gather ∧
      gather.Gathers length source := by
  refine ⟨⟨length / 2, fun _ => [], false⟩, ?_, rfl, rfl, ?_, ?_⟩
  · rw [forLength, if_neg (not_not.mpr even)]
  · exact fun _ => List.Pairwise.nil
  · simp

/-- A gather of nothing yet also waits for any message. -/
theorem Gathers.of_none
    {gather : Gather}
    {length : Nat}
    (gathers : gather.Gathers length none)
    (source : Option Bytes) :
    gather.Gathers length source := by
  refine ⟨gathers.needed, gathers.waiting, gathers.sorted, ?_⟩
  intro column point member
  rcases gathers.onCurve column point member with ⟨_, nothing, _⟩
  cases nothing

/-- Adding a codeword of the message. -/
theorem add_gathers
    {gather : Gather}
    {length : Nat}
    {message : Bytes}
    (gathers : gather.Gathers length (some message))
    (index : Gf16) :
    (gather.add (codeword message index)).Gathers length
      (some message) := by
  refine ⟨gathers.needed, gathers.waiting, ?_, ?_⟩
  · intro column
    simp only [add]
    split_ifs
    · exact insert_sorted (gathers.sorted column) _
    · exact gathers.sorted column
  · intro column point member
    simp only [add] at member
    split_ifs at member
    · rcases mem_insert member with rfl | old
      · exact ⟨message, rfl, word_codeword ..⟩
      · exact gathers.onCurve column point old
    · exact gathers.onCurve column point member

/-- The abscissae of a gathered column are distinct. -/
theorem Sorted.distinct
    {column : List Point}
    (sorted : Sorted column) :
    (column.map Prod.fst).Nodup := by
  refine List.pairwise_map.mpr ?_
  refine sorted.imp ?_
  intro first second less same
  rw [same] at less
  exact Nat.lt_irrefl _ less

/-- Enough points of a column give every word of it. -/
theorem wordAt_eq
    {gather : Gather}
    {message : Bytes}
    (gathers : gather.Gathers message.length (some message))
    (short : message.length ≤ 2 ^ 16 * polynomials)
    (full :
      ∀ column,
        needFor gather.needed column ≤ (gather.points column).length)
    {place : Nat}
    (inside : place < gather.needed) :
    gather.wordAt place = .ok ((wordsOf message).getD place 0) := by
  have count := length_wordsOf message
  have needed := gathers.needed
  have onCurve := gathers.onCurve
  have columnInside : place % polynomials < polynomials :=
    Nat.mod_lt place (by decide)
  generalize isColumn :
    (⟨place % polynomials, columnInside⟩ : Fin polynomials) = column
  have columnVal : column.val = place % polynomials := by
    rw [← isColumn]
  have rowInside :
      place / polynomials <
        (columnOf (wordsOf message) column).length := by
    rw [length_columnOf, count, ← needed, lt_needFor, columnVal,
      Nat.div_add_mod]
    exact inside
  have columnShort := Spread.columnOf_short short column
  have rowFits : place / polynomials < 2 ^ 16 :=
    Nat.lt_of_lt_of_le rowInside columnShort
  -- The symbol at the row is the word of the message.
  have isWord :
      symbol message column (Gf16.ofNat (place / polynomials)) =
        (wordsOf message).getD place 0 := by
    rw [symbol, evaluate_fit_columnPoints columnShort rowInside]
    simp only [columnOf, List.getElem_map, List.getElem_range,
      columnVal]
    rw [Nat.div_add_mod]
  simp only [wordAt, isColumn, Outcome.intCast_of_lt rowFits,
    Outcome.ok_bind]
  cases found :
      lookup (gather.points column)
        (Gf16.ofNat (place / polynomials)) with
  | some word =>
      rcases onCurve column _ (mem_of_lookup found) with
        ⟨_, isMessage, value⟩
      cases isMessage
      simp only [Outcome.pure_eq]
      rw [← isWord, ← value]
  | none =>
      have enough :
          ((gather.points column).take
              (needFor gather.needed column)).length =
            needFor gather.needed column := by
        rw [List.length_take]
        exact Nat.min_eq_left (full column)
      have fitted :=
        @evaluate_fit_of_points _ _ _ _
          ((gather.points column).take (needFor gather.needed column))
          (fit (Spread.columnPoints
            (columnOf (wordsOf message) column)))
          (Sorted.distinct (gathers.sorted column).take)
          (by
            rw [length_fit_columnPoints columnShort, length_columnOf,
              count, enough, needed])
          (by
            intro point member
            rcases onCurve column point (List.mem_of_mem_take member)
              with ⟨_, isMessage, value⟩
            cases isMessage
            exact value.symm)
          (Gf16.ofNat (place / polynomials))
      simp only [Outcome.pure_eq]
      rw [fitted, ← isWord]
      rfl

/-- A gather returns nothing, or exactly the message. -/
theorem message_of_gathers
    {gather : Gather}
    {message : Bytes}
    (gathers : gather.Gathers message.length (some message))
    (even : message.length % 2 = 0)
    (short : message.length ≤ 2 ^ 16 * polynomials) :
    gather.message = .ok none ∨ gather.message = .ok (some message) := by
  unfold Gather.message
  rw [if_neg (by simp [gathers.waiting])]
  split_ifs with lacking
  · exact Or.inl rfl
  · refine Or.inr ?_
    have full :
        ∀ column,
          needFor gather.needed column ≤
            (gather.points column).length := by
      intro column
      exact Nat.le_of_not_lt fun less => lacking ⟨column, less⟩
    have words :
        (List.range gather.needed).mapM gather.wordAt =
          .ok ((List.range gather.needed).map fun place =>
            (wordsOf message).getD place 0) :=
      Outcome.mapM_eq_ok fun place member =>
        wordAt_eq gathers short full (List.mem_range.mp member)
    have whole :
        ((List.range gather.needed).map fun place =>
          (wordsOf message).getD place 0) = wordsOf message := by
      have count : gather.needed = (wordsOf message).length := by
        rw [gathers.needed, length_wordsOf]
      refine List.ext_getElem ?_ ?_
      · rw [List.length_map, List.length_range, count]
      · intro index _ inside
        rw [List.getElem_map, List.getElem_range]
        exact (List.getElem_eq_getD _).symm
    rw [words, whole, Outcome.ok_bind, bytesOf_wordsOf even]
    rfl

end Gather

end ErasureCode

end Gossveil
