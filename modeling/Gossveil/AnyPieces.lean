import Gossveil.ErasureCodeCorrectness

namespace Gossveil.ErasureCode

/-!
# Any pieces rebuild the message

A gather that has been given enough pieces with different indices has enough
points in every column, whatever the order and however often a piece came.
-/

/-! ## Pieces of a message -/

/-- The spreads of a message: a fresh one, and what making pieces leaves. -/
inductive Spread.Dealing (message : Bytes) : Spread → Prop where
  | fresh {spread : Spread} :
      Spread.of message = .ok spread →
      Dealing message spread
  | dealt {spread after : Spread} {index : Gf16} {piece : Piece} :
      Dealing message spread →
      spread.pieceAt index = .ok (piece, after) →
      Dealing message after
  | dealtNext {spread after : Spread} {piece : Piece} :
      Dealing message spread →
      spread.nextPiece = .ok (piece, after) →
      Dealing message after

/-- A piece that some spread of the message has produced. -/
def Produced (message : Bytes) (piece : Piece) : Prop :=
  ∃ spread after index,
    Spread.Dealing message spread ∧
      spread.pieceAt index = .ok (piece, after)

/-- Dealing out pieces does not change the message. -/
theorem Spread.Dealing.carries
    {message : Bytes}
    {spread : Spread}
    (reached : Spread.Dealing message spread)
    (even : message.length % 2 = 0)
    (short : message.length ≤ 2 ^ 16 * polynomials) :
    spread.Carries message := by
  induction reached with
  | fresh made =>
      obtain ⟨made', isMade, carries⟩ := Spread.of_carries even short
      obtain rfl := Outcome.ok.inj (isMade.symm.trans made)
      exact carries
  | @dealt spread after index piece _ dealt carries =>
      obtain ⟨other, made, afterCarries, _⟩ :=
        Spread.pieceAt_of_carries carries index
      obtain ⟨_, rfl⟩ := Prod.mk.inj (Outcome.ok.inj (made.symm.trans dealt))
      exact afterCarries
  | @dealtNext spread after piece _ dealt carries =>
      obtain ⟨other, made, afterCarries, _⟩ :=
        Spread.nextPiece_of_carries carries
      obtain ⟨_, rfl⟩ := Prod.mk.inj (Outcome.ok.inj (made.symm.trans dealt))
      exact afterCarries

/-- Switching to fitted coefficients changes no piece. -/
theorem Produced.eq_codeword
    {message : Bytes}
    {piece : Piece}
    (produced : Produced message piece)
    (even : message.length % 2 = 0)
    (short : message.length ≤ 2 ^ 16 * polynomials) :
    piece = codeword message piece.index := by
  obtain ⟨spread, after, index, reached, dealt⟩ := produced
  obtain ⟨other, made, _⟩ :=
    Spread.pieceAt_of_carries (reached.carries even short) index
  obtain ⟨rfl, _⟩ := Prod.mk.inj (Outcome.ok.inj (made.symm.trans dealt))
  rfl

/-! ## Columns fill -/

namespace Gather

theorem mem_insert_of_mem
    {column : List Point}
    {point other : Point}
    (member : other ∈ column) :
    other ∈ insert column point := by
  unfold insert
  simp only
  split_ifs
  · exact member
  · rw [← List.take_append_drop (position column point.1) column] at member
    rcases List.mem_append.mp member with early | late
    · exact List.mem_append_left _ early
    · exact List.mem_append_right _ (List.mem_cons_of_mem _ late)

/-- The place of a point is in the column that takes it. -/
theorem abscissa_mem_insert (column : List Point) (point : Point) :
    point.1 ∈ (insert column point).map Prod.fst := by
  unfold insert
  simp only
  split_ifs with taken
  · obtain ⟨other, found, same⟩ := Option.map_eq_some_iff.mp taken
    exact List.mem_map.mpr ⟨other, List.mem_of_getElem? found, same⟩
  · exact List.mem_map.mpr ⟨point, by simp, rfl⟩

theorem length_le_insert (column : List Point) (point : Point) :
    column.length ≤ (insert column point).length := by
  unfold insert
  simp only
  split_ifs
  · exact Nat.le_refl _
  · have parts :=
      congrArg List.length
        (List.take_append_drop (position column point.1) column)
    simp only [List.length_append, List.length_cons] at parts ⊢
    omega

/-- The column has all the points it needs, or one for every index given. -/
def Stocked (need : Nat) (column : List Point) (given : List Gf16) : Prop :=
  need ≤ column.length ∨ ∀ index ∈ given, index ∈ column.map Prod.fst

/-- One piece more is one point more, unless it was there. -/
theorem Stocked.add
    {gather : Gather}
    {given : List Gf16}
    {column : Fin polynomials}
    (stocked :
      Stocked (needFor gather.needed column) (gather.points column) given)
    (piece : Piece) :
    Stocked (needFor gather.needed column) ((gather.add piece).points column)
      (piece.index :: given) := by
  simp only [Gather.add]
  rcases stocked with enough | every
  · left
    split_ifs
    · exact enough.trans (length_le_insert _ _)
    · exact enough
  · split_ifs with kept
    · right
      intro index member
      rcases List.mem_cons.mp member with rfl | earlier
      · exact abscissa_mem_insert _ (piece.index, piece.word column)
      · obtain ⟨point, among, rfl⟩ := List.mem_map.mp (every index earlier)
        exact List.mem_map.mpr ⟨point, mem_insert_of_mem among, rfl⟩
    · left
      exact Nat.le_of_not_lt fun lacking => kept (Or.inr lacking)

/-- Different indices fill a column one by one. -/
theorem Stocked.enough
    {need : Nat}
    {column : List Point}
    {given : List Gf16}
    (stocked : Stocked need column given)
    (different : need ≤ given.dedup.length) :
    need ≤ column.length := by
  rcases stocked with enough | every
  · exact enough
  · have among : given.dedup ⊆ column.map Prod.fst := by
      intro index member
      exact every index (List.mem_dedup.mp member)
    have fewer :=
      (List.subperm_of_subset (List.nodup_dedup given) among).length_le
    rw [List.length_map] at fewer
    exact different.trans fewer

/-- No column needs more points than there are pieces. -/
theorem needFor_le (length : Nat) (column : Fin polynomials) :
    needFor (length / 2) column ≤ (length + 31) / 32 := by
  change length / 2 / 16 + (if column.val < length / 2 % 16 then 1 else 0) ≤ _
  split_ifs <;> omega

/-! ## The whole run -/

/-- The pieces in the order they came. -/
def addAll (gather : Gather) (pieces : List Piece) : Gather :=
  pieces.foldl add gather

/-- A gather goes on gathering from its source. -/
theorem addAll_gathers
    {gather : Gather}
    {message : Bytes}
    {pieces : List Piece}
    (gathers : gather.Gathers message.length (some message))
    (each : ∀ piece ∈ pieces, piece = codeword message piece.index) :
    (gather.addAll pieces).Gathers message.length (some message) := by
  induction pieces generalizing gather with
  | nil =>
      exact gathers
  | cons piece pieces inductionHypothesis =>
      obtain ⟨first, others⟩ := List.forall_mem_cons.mp each
      have added := add_gathers gathers piece.index
      rw [← first] at added
      exact inductionHypothesis added others

/-- All pieces given are in stock. -/
theorem addAll_stocked
    {gather : Gather}
    {given : List Gf16}
    {column : Fin polynomials}
    (pieces : List Piece)
    (stocked :
      Stocked (needFor gather.needed column) (gather.points column) given) :
    Stocked (needFor gather.needed column)
      ((gather.addAll pieces).points column)
      ((pieces.map Piece.index).reverse ++ given) := by
  induction pieces generalizing gather given with
  | nil =>
      exact stocked
  | cons piece pieces inductionHypothesis =>
      have rest :=
        @inductionHypothesis (gather.add piece) (piece.index :: given)
          (stocked.add piece)
      rw [List.map_cons, List.reverse_cons, List.append_assoc]
      exact rest

/-- A gather with enough points in every column gives its message. -/
theorem message_of_full
    {gather : Gather}
    {message : Bytes}
    (gathers : gather.Gathers message.length (some message))
    (even : message.length % 2 = 0)
    (short : message.length ≤ 2 ^ 16 * polynomials)
    (full :
      ∀ column,
        needFor gather.needed column ≤ (gather.points column).length) :
    gather.message = .ok (some message) := by
  rcases message_of_gathers gathers even short with nothing | found
  · unfold Gather.message at nothing
    have notLacking :
        ¬ ∃ column,
          (gather.points column).length < needFor gather.needed column :=
      fun ⟨column, lacking⟩ => Nat.not_lt.mpr (full column) lacking
    rw [if_neg (by simp [gathers.waiting]), if_neg notLacking] at nothing
    obtain ⟨words, _, returned⟩ := Outcome.bind_eq_ok.mp nothing
    cases returned
  · exact found

end Gather

/--
A gather for a message, given any of its pieces in any order and with any
repetition, returns nothing or the message; and the message as soon as the
pieces have enough different indices.
-/
theorem any_pieces_rebuild
    {message : Bytes}
    (even : message.length % 2 = 0)
    (short : message.length ≤ 2 ^ 20) :
    ∃ gather,
      Gather.forLength message.length = .ok gather ∧
        ∀ pieces : List Piece,
          (∀ piece ∈ pieces, Produced message piece) →
            ((gather.addAll pieces).message = .ok none ∨
                (gather.addAll pieces).message = .ok (some message)) ∧
              ((message.length + 31) / 32 ≤
                  (pieces.map Piece.index).dedup.length →
                (gather.addAll pieces).message = .ok (some message)) := by
  have fits : message.length ≤ 2 ^ 16 * polynomials := short
  obtain ⟨gather, made, gathers⟩ :=
    Gather.forLength_gathers even (some message)
  refine ⟨gather, made, ?_⟩
  intro pieces produced
  have each : ∀ piece ∈ pieces, piece = codeword message piece.index :=
    fun piece member => (produced piece member).eq_codeword even fits
  have after := Gather.addAll_gathers gathers each
  constructor
  · exact Gather.message_of_gathers after even fits
  · intro different
    apply Gather.message_of_full after even fits
    intro column
    have stocked :=
      @Gather.addAll_stocked gather [] column pieces (Or.inr (by simp))
    rw [gathers.needed, List.append_nil] at stocked
    rw [after.needed]
    apply stocked.enough
    have same :
        (pieces.map Piece.index).reverse.dedup.length =
          (pieces.map Piece.index).dedup.length :=
      (List.reverse_perm _).dedup.length_eq
    rw [same]
    exact (Gather.needFor_le message.length column).trans different

/-- A codeword is what a fresh spread produces. -/
theorem produced_codeword
    {message : Bytes}
    (even : message.length % 2 = 0)
    (short : message.length ≤ 2 ^ 16 * polynomials)
    (index : Gf16) :
    Produced message (codeword message index) := by
  obtain ⟨spread, made, carries⟩ := Spread.of_carries even short
  obtain ⟨after, dealt, _⟩ := Spread.pieceAt_of_carries carries index
  exact ⟨spread, after, index, .fresh made, dealt⟩

/-- A message of sixty-four different bytes. -/
private def sixtyFour : Bytes :=
  (List.range 64).map UInt8.ofNat

/-- A parity piece twice, and a raw one in between. -/
private def threePieces : List Piece :=
  [codeword sixtyFour (Gf16.ofNat 70), codeword sixtyFour (Gf16.ofNat 1),
    codeword sixtyFour (Gf16.ofNat 70)]

/-- Two different pieces are enough for sixty-four bytes. -/
theorem any_pieces_rebuild_sixtyFour :
    ∃ gather,
      Gather.forLength sixtyFour.length = .ok gather ∧
        (gather.addAll threePieces).message = .ok (some sixtyFour) := by
  have even : sixtyFour.length % 2 = 0 := by
    decide
  have short : sixtyFour.length ≤ 2 ^ 20 := by
    decide
  obtain ⟨gather, made, rebuilds⟩ := any_pieces_rebuild even short
  refine ⟨gather, made, (rebuilds threePieces ?_).2 (by decide)⟩
  intro piece member
  simp only [threePieces, List.mem_cons, List.not_mem_nil, or_false] at member
  rcases member with rfl | rfl | rfl
  all_goals exact produced_codeword even short _

end Gossveil.ErasureCode
