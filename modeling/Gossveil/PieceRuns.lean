import Gossveil.AnyPieces

namespace Gossveil.ErasureCode

/-!
# Consecutive pieces fill a gather

A spread that deals out its pieces one after the other fills a gather of its
message in as many pieces as the message takes, whatever the gather holds and
wherever the counter of the spread stands, a wrapped one included.
-/

/-- The pieces dealt from a counter on. -/
def nextPieces (message : Bytes) : (count next : Nat) → List Piece
  | 0, _ => []
  | count + 1, next =>
      codeword message (Gf16.ofNat next) :: nextPieces message count (next + 1)

theorem toNat_ofNat_mod (value : Nat) :
    (Gf16.ofNat value).toNat = value % 2 ^ 16 := by
  simp [Gf16.ofNat, Gf16.toNat]

/-- The index of a piece is the low sixteen bits of the counter. -/
theorem ofNat_congr
    {first second : Nat}
    (same : first % 2 ^ 16 = second % 2 ^ 16) :
    Gf16.ofNat first = Gf16.ofNat second := by
  apply Gf16.toNat_injective
  rw [toNat_ofNat_mod, toNat_ofNat_mod, same]

/-- The pieces repeat after 2^16. -/
theorem nextPieces_congr
    {message : Bytes}
    {count first second : Nat}
    (same : first % 2 ^ 16 = second % 2 ^ 16) :
    nextPieces message count first = nextPieces message count second := by
  induction count generalizing first second with
  | zero =>
      rfl
  | succ count inductionHypothesis =>
      have onward : (first + 1) % 2 ^ 16 = (second + 1) % 2 ^ 16 := by
        rw [Nat.add_mod, same, ← Nat.add_mod]
      rw [nextPieces, nextPieces, ofNat_congr same,
        inductionHypothesis onward]

/-- The pieces are numbered one by one. -/
theorem index_nextPieces
    {message : Bytes}
    {count next : Nat} :
    (nextPieces message count next).map Piece.index =
      (List.range' next count).map Gf16.ofNat := by
  induction count generalizing next with
  | zero =>
      rfl
  | succ count inductionHypothesis =>
      simp [nextPieces, List.range'_succ, inductionHypothesis]

/-- No index comes twice before the counter has wrapped. -/
theorem nodup_index_nextPieces
    {message : Bytes}
    {count : Nat}
    (few : count ≤ 2 ^ 16)
    (next : Nat) :
    ((nextPieces message count next).map Piece.index).Nodup := by
  rw [index_nextPieces]
  apply List.Nodup.map_on _ (List.nodup_range')
  intro first firstInside second secondInside same
  have values := congrArg Gf16.toNat same
  rw [toNat_ofNat_mod, toNat_ofNat_mod] at values
  rw [List.mem_range'_1] at firstInside secondInside
  omega

namespace Gather

/-- Every column has the points it needs. -/
def Full (gather : Gather) : Prop :=
  ∀ column,
    needFor gather.needed column ≤ (gather.points column).length

theorem needed_addAll (gather : Gather) (pieces : List Piece) :
    (gather.addAll pieces).needed = gather.needed := by
  induction pieces generalizing gather with
  | nil =>
      rfl
  | cons piece pieces inductionHypothesis =>
      exact inductionHypothesis (gather.add piece)

/-- As many pieces as the message takes fill whatever gather there is. -/
theorem full_addAll_nextPieces
    {gather : Gather}
    {message : Bytes}
    {count : Nat}
    (needed : gather.needed = message.length / 2)
    (enough : (message.length + 31) / 32 ≤ count)
    (few : count ≤ 2 ^ 16)
    (next : Nat) :
    (gather.addAll (nextPieces message count next)).Full := by
  intro column
  have stocked :=
    @addAll_stocked gather [] column (nextPieces message count next)
      (Or.inr (by simp))
  rw [List.append_nil] at stocked
  rw [needed_addAll]
  apply stocked.enough
  have distinct := @nodup_index_nextPieces message count few next
  have length :
      ((nextPieces message count next).map
        Piece.index).reverse.dedup.length = count := by
    rw [(List.nodup_reverse.mpr distinct).dedup, List.length_reverse,
      index_nextPieces, List.length_map, List.length_range']
  rw [length, needed]
  exact (needFor_le message.length column).trans enough

end Gather

/-- The next pieces of a spread, so many of them, fill the gather. -/
def Feeds (spread : Spread) (gather : Gather) (count : Nat) : Prop :=
  ∃ message,
    spread.Carries message ∧
      gather.Gathers message.length (some message) ∧
      (gather.addAll (nextPieces message count spread.next)).Full

/-- As many pieces as a column needs make the message. -/
theorem feeds_of_length
    {spread : Spread}
    {gather : Gather}
    {message : Bytes}
    {count : Nat}
    (carries : spread.Carries message)
    (gathers : gather.Gathers message.length (some message))
    (enough : (message.length + 31) / 32 ≤ count)
    (few : count ≤ 2 ^ 16) :
    Feeds spread gather count :=
  ⟨message, carries, gathers,
    Gather.full_addAll_nextPieces gathers.needed enough few spread.next⟩

/-- A piece completes the message or leaves one piece fewer to come. -/
theorem Feeds.deal
    {spread after : Spread}
    {gather : Gather}
    {count : Nat}
    {piece : Piece}
    (feeds : Feeds spread gather (count + 1))
    (dealt : spread.nextPiece = .ok (piece, after)) :
    (∃ message, (gather.add piece).message = .ok (some message)) ∨
      ∃ fewer,
        count = fewer + 1 ∧
          (gather.add piece).message = .ok none ∧
          Feeds after (gather.add piece) (fewer + 1) := by
  obtain ⟨message, carries, gathers, full⟩ := feeds
  obtain ⟨following, made, afterCarries, afterNext⟩ :=
    Spread.nextPiece_of_carries carries
  obtain ⟨rfl, rfl⟩ := Prod.mk.inj (Outcome.ok.inj (made.symm.trans dealt))
  have added := Gather.add_gathers gathers (Gf16.ofNat spread.next)
  rcases Gather.message_of_gathers added carries.even carries.short with
    nothing | found
  · right
    cases count with
    | zero =>
        have complete :=
          Gather.message_of_full added carries.even carries.short full
        cases nothing.symm.trans complete
    | succ fewer =>
        refine ⟨fewer, rfl, nothing, message, afterCarries, added, ?_⟩
        have sameIndex :
            following.next % 2 ^ 16 = (spread.next + 1) % 2 ^ 16 := by
          rw [afterNext]
          exact Nat.mod_mod_of_dvd _ (by decide)
        rw [nextPieces_congr sameIndex]
        exact full
  · exact .inl ⟨message, found⟩

end Gossveil.ErasureCode
