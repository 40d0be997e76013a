import Gossveil.DecompressionSpecs

namespace Gossveil.Lattice

/-!
# Uniform polynomials are the accepted candidates

The loop has no bound of its own: it ends when the stream has 256 candidates
below q.  Enough blocks of such a stream give the first 256 of them.
-/

open MlKem (accepted candidate)

/-! ## Candidates -/

theorem getD_squeeze
    (stream : Nat → UInt8)
    (offset : Nat)
    {count index : Nat}
    (inside : index < count) :
    (squeeze stream offset count).getD index 0 = stream (offset + index) := by
  rw [squeeze, List.getD_eq_getElem _ _ (by simpa using inside),
    List.getElem_map, List.getElem_range]

theorem flatMap_pairs
    {α : Type}
    (entry : Nat → α)
    (count : Nat) :
    (List.range count).flatMap
        (fun turn => [entry (2 * turn), entry (2 * turn + 1)]) =
      (List.range (2 * count)).map entry := by
  induction count with
  | zero => rfl
  | succ count inductionHypothesis =>
      rw [List.range_succ, List.flatMap_append, inductionHypothesis,
        Nat.mul_succ, List.range_succ, List.range_succ, List.map_append,
        List.map_append, List.append_assoc]
      rfl

/-- A block's candidates are those of the stream. -/
theorem blockCandidates_eq (stream : Nat → UInt8) (block : Nat) :
    blockCandidates (squeeze stream (168 * block) 168) =
      (List.range 112).map fun index =>
        candidate stream (112 * block + index) := by
  have pairs :=
    flatMap_pairs (fun index => candidate stream (112 * block + index)) 56
  rw [← pairs, blockCandidates]
  refine List.flatMap_congr fun turn member => ?_
  have inside := List.mem_range.mp member
  have byte :
      ∀ place, place < 3 →
        (squeeze stream (168 * block) 168).getD (3 * turn + place) 0 =
          stream (3 * (56 * block + turn) + place) := by
    intro place small
    rw [getD_squeeze _ _ (by omega)]
    congr 1
    ring
  have first := byte 0 (by decide)
  have second := byte 1 (by decide)
  have third := byte 2 (by decide)
  simp only [Nat.add_zero] at first
  have even : (112 * block + 2 * turn) / 2 = 56 * block + turn := by
    omega
  have odd : (112 * block + (2 * turn + 1)) / 2 = 56 * block + turn := by
    omega
  rw [first, second, third]
  obtain ⟨low, high⟩ :=
    @twelve_bits _ _ (stream (3 * (56 * block + turn) + 2)).toNat
      (UInt8.toNat_lt (stream (3 * (56 * block + turn))))
      (UInt8.toNat_lt (stream (3 * (56 * block + turn) + 1)))
  simp only [low, high, candidate, even, odd]
  rw [if_pos (by omega), if_neg (by omega)]

/-- More of the stream adds what it accepts. -/
theorem accepted_add (stream : Nat → UInt8) (count more : Nat) :
    accepted stream (count + more) =
      accepted stream count ++
        ((List.range more).map fun index =>
            candidate stream (count + index)).filter (· < 3329) := by
  rw [accepted, accepted, List.range_add, List.map_append, List.filter_append,
    List.map_map]
  rfl

/-- More of the stream accepts no less. -/
theorem length_accepted
    (stream : Nat → UInt8)
    {count more : Nat}
    (wide : count ≤ more) :
    (accepted stream count).length ≤ (accepted stream more).length := by
  obtain ⟨rest, rfl⟩ := Nat.exists_eq_add_of_le wide
  rw [accepted_add, List.length_append]
  exact Nat.le_add_right _ _

/-- A block adds what it accepts. -/
theorem accepted_block (stream : Nat → UInt8) (block : Nat) :
    accepted stream (112 * (block + 1)) =
      accepted stream (112 * block) ++
        (blockCandidates (squeeze stream (168 * block) 168)).filter
          (· < 3329) := by
  rw [blockCandidates_eq, Nat.mul_succ, accepted_add]

/-! ## Filling -/

/-- The polynomial starts with the accepted values, and is full at 256. -/
def Filled (values : List Nat) (state : Poly × Nat) : Prop :=
  state.2 = min 256 values.length ∧
    ∀ index, index < state.2 →
      state.1.value index = (values.getD index 0 : Nat)

/-- A full polynomial takes no more. -/
theorem Filled.more
    {values : List Nat}
    {state : Poly × Nat}
    (filled : Filled values state)
    (full : 256 ≤ values.length)
    (others : List Nat) :
    Filled (values ++ others) state := by
  obtain ⟨count, entries⟩ := filled
  refine ⟨?_, fun index below => ?_⟩
  · rw [count, List.length_append]
    omega
  · rw [List.getD_append _ _ _ _ (by omega)]
    exact entries index below

/-- An accepted candidate fills the next place. -/
theorem Filled.put
    {values : List Nat}
    {p : Poly}
    {filled t : Nat}
    (holds : Filled values (p, filled))
    (short : values.length < 256)
    (small : t < 3329) :
    (p.put filled (Int16.ofNat t) : Outcome Unfilled Poly).Delivers fun p' =>
      Filled (values ++ [t]) (p', filled + 1) := by
  obtain ⟨count, entries⟩ := holds
  have isCount : filled = values.length := by
    omega
  obtain ⟨p', isPut, own, others⟩ :=
    @Poly.put_of_lt Unfilled p filled (by omega) (Int16.ofNat t)
  rw [Int16.toInt_ofNat_of_lt (Nat.lt_trans small (by decide))] at own
  rw [isPut]
  refine .ok ⟨?_, fun index below => ?_⟩
  · rw [List.length_append, List.length_singleton]
    omega
  · by_cases last : index = filled
    · rw [last, own, isCount, List.getD_append_right _ _ _ _ le_rfl,
        Nat.sub_self, List.getD_cons_zero]
    · rw [others index last, List.getD_append _ _ _ _ (by omega)]
      exact entries index (by omega)

/-- A block's candidates fill the next places. -/
theorem takeCandidates_delivers
    {values : List Nat}
    {state : Poly × Nat}
    (holds : Filled values state)
    (short : values.length < 256)
    (candidates : List Nat) :
    (takeCandidates candidates state).Delivers
      (Filled (values ++ candidates.filter (· < 3329))) := by
  induction candidates generalizing values state with
  | nil =>
      rw [List.filter_nil, List.append_nil]
      exact .ok holds
  | cons t rest inductionHypothesis =>
      obtain ⟨p, filled⟩ := state
      rw [takeCandidates]
      by_cases small : t < 3329
      · have kept :
            values ++ (t :: rest).filter (· < 3329) =
              values ++ [t] ++ rest.filter (· < 3329) := by
          rw [List.filter_cons, if_pos (decide_eq_true small),
            List.append_assoc]
          rfl
        rw [if_pos small, kept]
        refine (holds.put short small).bind fun p' holds' => ?_
        have isCount := holds'.1
        rw [List.length_append, List.length_singleton] at isCount
        by_cases full : filled + 1 = 256
        · rw [if_pos full, ← full]
          refine .ok (holds'.more ?_ _)
          rw [List.length_append, List.length_singleton]
          omega
        · rw [if_neg full]
          refine inductionHypothesis holds' ?_
          rw [List.length_append, List.length_singleton]
          omega
      · rw [if_neg small, List.filter_cons_of_neg (by simpa using small)]
        exact inductionHypothesis holds short

/-! ## The loop over the blocks -/

/-- The loop fills the polynomial with what the stream accepts. -/
theorem uniformLoop_delivers
    {stream : Nat → UInt8}
    {blocks block : Nat}
    {state : Poly × Nat}
    (holds : Filled (accepted stream (112 * block)) state)
    (short : (accepted stream (112 * block)).length < 256)
    (enough : 256 ≤ (accepted stream (112 * (block + blocks))).length) :
    (uniformLoop stream blocks block state).Delivers fun p : Poly =>
      ∃ count, 256 ≤ (accepted stream count).length ∧
        ∀ index, index < 256 →
          p.value index = ((accepted stream count).getD index 0 : Nat) := by
  induction blocks generalizing block state with
  | zero => exact absurd enough (Nat.not_le.mpr short)
  | succ blocks inductionHypothesis =>
      rw [uniformLoop]
      refine (takeCandidates_delivers holds short _).bind
        fun state' holds' => ?_
      rw [← accepted_block] at holds'
      obtain ⟨p, filled⟩ := state'
      have isCount := holds'.1
      dsimp only at isCount ⊢
      by_cases full : filled = 256
      · rw [if_pos full]
        refine .ok ⟨_, by omega, fun index below => holds'.2 index ?_⟩
        omega
      · rw [if_neg full]
        refine inductionHypothesis holds' (by omega) ?_
        rwa [Nat.succ_add_eq_add_succ]

/-- Too few blocks leave the polynomial unfilled. -/
theorem uniformLoop_unfilled
    {stream : Nat → UInt8}
    {blocks block : Nat}
    {state : Poly × Nat}
    (holds : Filled (accepted stream (112 * block)) state)
    (few : (accepted stream (112 * (block + blocks))).length < 256) :
    uniformLoop stream blocks block state = .error .unfilled := by
  induction blocks generalizing block state with
  | zero => rfl
  | succ blocks inductionHypothesis =>
      have short := length_accepted stream
        (Nat.mul_le_mul_left 112 (Nat.le_add_right block (blocks + 1)))
      have short' := length_accepted stream
        (Nat.mul_le_mul_left 112 (Nat.le_add_right (block + 1) blocks))
      rw [show block + (blocks + 1) = block + 1 + blocks by omega]
        at few short
      obtain ⟨state', isOk, holds'⟩ :=
        takeCandidates_delivers holds (Nat.lt_of_le_of_lt short few)
          (blockCandidates (squeeze stream (168 * block) 168))
      rw [← accepted_block] at holds'
      have next := inductionHypothesis holds' few
      obtain ⟨p, filled⟩ := state'
      have isCount := holds'.1
      rw [uniformLoop, isOk, Outcome.ok_bind]
      dsimp only at isCount ⊢
      rw [if_neg (by omega)]
      exact next

/-! ## The sampled element -/

/-- The stream has 256 candidates below q. -/
def Plentiful (stream : Nat → UInt8) (blocks : Nat) : Prop :=
  256 ≤ (accepted stream (112 * blocks)).length

theorem getD_accepted
    (stream : Nat → UInt8)
    {count more index : Nat}
    (wide : count ≤ more)
    (inside : index < (accepted stream count).length) :
    (accepted stream more).getD index 0 =
      (accepted stream count).getD index 0 := by
  obtain ⟨rest, rfl⟩ := Nat.exists_eq_add_of_le wide
  rw [accepted_add, List.getD_append _ _ _ _ inside]

/-- The first accepted candidates are the same in every longer prefix. -/
theorem sampleNtt_eq
    {stream : Nat → UInt8}
    {count : Nat}
    (full : 256 ≤ (accepted stream count).length)
    (index : Fin 256) :
    MlKem.sampleNtt stream index =
      ((accepted stream count).getD index.val 0 : Nat) := by
  classical
  have inside : index.val < (accepted stream count).length := by
    omega
  have found : ∃ count, index.val < (accepted stream count).length :=
    ⟨count, inside⟩
  have least := Nat.find_min' found inside
  rw [MlKem.sampleNtt, dif_pos found,
    getD_accepted stream least (Nat.find_spec found)]

/-- What is accepted lies below the modulus. -/
theorem accepted_lt (stream : Nat → UInt8) (count index : Nat) :
    (accepted stream count).getD index 0 < 3329 := by
  by_cases inside : index < (accepted stream count).length
  · rw [List.getD_eq_getElem _ _ inside]
    have member := List.getElem_mem inside
    exact of_decide_eq_true (List.mem_filter.mp member).2
  · rw [List.getD_eq_default _ _ (Nat.not_lt.mp inside)]
    decide

/-- Sampling gives the standard's uniform polynomial. -/
theorem polyUniform_delivers
    [Sha3]
    {blocks : Nat}
    {seed : Bytes}
    {x y : UInt8}
    (plentiful : Plentiful (Sha3.shake128 (seed ++ [x, y])) blocks) :
    (polyUniform blocks seed x y).Delivers fun p : Poly =>
      p.Canonical ∧
        p.element = MlKem.sampleNtt (Sha3.shake128 (seed ++ [x, y])) := by
  rw [polyUniform]
  generalize Sha3.shake128 (seed ++ [x, y]) = stream at plentiful
  have start : Filled (accepted stream (112 * 0)) (Poly.zero, 0) :=
    ⟨rfl, fun index below => absurd below (Nat.not_lt_zero index)⟩
  have loop :=
    @uniformLoop_delivers stream blocks 0 _ start (Nat.zero_lt_succ 255)
      (by rwa [Nat.zero_add])
  refine loop.imp fun p ⟨count, full, entries⟩ => ⟨?_, ?_⟩
  · intro index inside
    have small := accepted_lt stream count index
    rw [entries index inside]
    simp only [q]
    omega
  · funext index
    rw [sampleNtt_eq full, Poly.element, entries index.val index.isLt]
    rfl

/-- A stream that accepts too little leaves it unfilled. -/
theorem polyUniform_unfilled
    [Sha3]
    {blocks : Nat}
    {seed : Bytes}
    {x y : UInt8}
    (few : ¬ Plentiful (Sha3.shake128 (seed ++ [x, y])) blocks) :
    polyUniform blocks seed x y = .error .unfilled := by
  rw [polyUniform]
  rw [Plentiful, Nat.not_le] at few
  generalize Sha3.shake128 (seed ++ [x, y]) = stream at few
  have start : Filled (accepted stream (112 * 0)) (Poly.zero, 0) :=
    ⟨rfl, fun index below => absurd below (Nat.not_lt_zero index)⟩
  exact uniformLoop_unfilled start (by rwa [Nat.zero_add])

end Gossveil.Lattice
