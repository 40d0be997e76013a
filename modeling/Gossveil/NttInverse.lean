import Gossveil.NttForward

namespace Gossveil.Lattice

/-!
# The inverse transform

Climbing the tree doubles at every level, and the last pass divides by 128.
The coefficients are reduced lazily: the table of reductions keeps every sum
of two below nine times q.
-/

open Transform

variable {ε : Type}

/-- The entry used on the way up is minus the inverse of the node's root. -/
theorem root_mul_root
    {level block : Nat}
    (below : level < 7)
    (inside : block < 2 ^ level) :
    root (2 ^ (level + 1) - 1 - block) * root (2 ^ level + block) = -1 := by
  have exponents :
      ∀ level, level < 7 → ∀ block, block < 2 ^ level →
        bitReverse (2 ^ (level + 1) - 1 - block) +
          bitReverse (2 ^ level + block) = 128 := by
    decide
  rw [root, root, ← pow_add, exponents level below block inside, pow_128]

namespace Poly

/-! ## The table of reductions -/

/-- The indices that are reduced after each level. -/
def segments : List (List Nat) :=
  [ [], [],
    [16, 17, 48, 49, 80, 81, 112, 113, 144, 145, 176, 177, 208, 209, 240, 241],
    [0, 1, 32, 33, 34, 35, 64, 65, 96, 97, 98, 99, 128, 129, 160, 161, 162,
      163, 192, 193, 224, 225, 226, 227],
    [2, 3, 66, 67, 68, 69, 70, 71, 130, 131, 194, 195, 196, 197, 198, 199],
    [4, 5, 6, 7, 132, 133, 134, 135, 136, 137, 138, 139, 140, 141, 142, 143],
    [] ]

/-- A part of the table, with the -1 that ends it. -/
def written (segment : List Nat) : List Int :=
  segment.map Int.ofNat ++ [-1]

/-- The table of reductions is a list for each level. -/
theorem invNttReductions_eq :
    invNttReductions = segments.flatMap written := by
  decide

/-- How many times q a coefficient may be after a number of levels. -/
def limit : (turns index : Nat) → Nat
  | 0, _ => 1
  | turns + 1, index =>
      if index ∈ segments.getD turns [] then 1
      else if index % (2 * 2 ^ (turns + 1)) < 2 ^ (turns + 1) then
        limit turns index + limit turns (index + 2 ^ (turns + 1))
      else 1

set_option maxRecDepth 100000 in
/-- The lazy reductions suffice. -/
theorem limit_sums :
    ∀ turns, turns < 7 → ∀ index, index < 256 →
      index % (2 * 2 ^ (turns + 1)) < 2 ^ (turns + 1) →
        limit turns index + limit turns (index + 2 ^ (turns + 1)) ≤ 9 := by
  decide

/-- Every coefficient is between two bounds of its own. -/
def Limited (bounds : Nat → Nat) (p : Poly) : Prop :=
  ∀ index, index < 256 →
    -(bounds index * q) ≤ p.value index ∧ p.value index ≤ bounds index * q

/--
A level's reductions bring the listed coefficients into range, and no other
changes.
-/
theorem reductions_delivers
    {segment : List Nat}
    (inside : ∀ index ∈ segment, index < 256)
    (p : Poly)
    (rest : List Int) :
    (reductions p (written segment ++ rest) :
      Outcome ε (Poly × List Int)).Delivers fun state =>
      state.2 = rest ∧
        (∀ index, (state.1.value index : Zq) = p.value index) ∧
        (∀ index ∈ segment,
          0 ≤ state.1.value index ∧ state.1.value index ≤ q) ∧
        ∀ index, index ∉ segment → state.1.value index = p.value index := by
  induction segment generalizing p with
  | nil =>
      simp only [written, List.map_nil, List.nil_append, List.cons_append,
        reductions, Int.reduceNeg, Int.reduceLT, if_true]
      exact .ok ⟨rfl, fun _ => rfl, nofun, fun _ _ => rfl⟩
  | cons index segment inductionHypothesis =>
      have below := inside index List.mem_cons_self
      obtain ⟨c, isC, cValue⟩ := @coefficient_of_lt ε p _ below
      obtain ⟨low, high, same⟩ := feBarrett_spec c
      obtain ⟨p₁, isPut, own, others⟩ :=
        @put_of_lt ε p index below (feBarrett c)
      have nonneg : ¬ ((index : Int) < 0) := by
        omega
      simp only [written, List.map_cons, List.cons_append, reductions,
        Int.ofNat_eq_natCast, if_neg nonneg, Int.toNat_natCast, isC, isPut,
        Outcome.ok_bind]
      refine (inductionHypothesis
        (fun other member => inside other (List.mem_cons_of_mem _ member))
        p₁).imp fun state holds => ?_
      obtain ⟨isRest, congruent, reduced, kept⟩ := holds
      have moved : ∀ other, (p₁.value other : Zq) = p.value other := by
        intro other
        by_cases isIndex : other = index
        · rw [isIndex, own, same, cValue]
        · rw [others other isIndex]
      refine ⟨isRest, fun other => (congruent other).trans (moved other), ?_,
        ?_⟩
      · intro other member
        by_cases again : other ∈ segment
        · exact reduced other again
        · obtain rfl : other = index :=
            (List.mem_cons.mp member).resolve_right again
          rw [kept other again, own]
          exact ⟨low, high⟩
      · intro other absent
        rw [List.mem_cons, not_or] at absent
        rw [kept other absent.2, others other absent.1]

/-! ## One level -/

/-- One inverse butterfly undoes a pair of residues. -/
theorem inverseButterfly_delivers
    [Checks]
    {minusZeta : Int16}
    (nonneg : 0 ≤ minusZeta.toInt)
    (below : minusZeta.toInt < q)
    {node : Nat}
    (isRoot : (minusZeta.toInt : Zq) = root node * 65536)
    {l j : Nat}
    (positive : 0 < l)
    (inside : j + l < 256)
    {p : Poly}
    {low high : Nat}
    (room : low + high ≤ 9)
    (lowBounds : -(low * q) ≤ p.value j ∧ p.value j ≤ low * q)
    (highBounds :
      -(high * q) ≤ p.value (j + l) ∧ p.value (j + l) ≤ high * q) :
    (inverseButterfly minusZeta l p j : Outcome ε Poly).Delivers fun p' =>
      (∀ other, other ≠ j → other ≠ j + l → p'.value other = p.value other) ∧
        p'.value j = p.value j + p.value (j + l) ∧
        -q < p'.value (j + l) ∧ p'.value (j + l) < q ∧
        (p'.value (j + l) : Zq) =
          root node * (p.value (j + l) - p.value j) := by
  obtain ⟨upper, isUpper, upperValue⟩ := @coefficient_of_lt ε p _ inside
  obtain ⟨lower, isLower, lowerValue⟩ :=
    @coefficient_of_lt ε p j (by omega)
  simp only [q] at *
  obtain ⟨t, isT, tValue⟩ :=
    @checked_eq_ok ε (p.value (j + l) - p.value j) (by omega) (by omega)
  obtain ⟨sum, isSum, sumValue⟩ :=
    @checked_eq_ok ε (p.value j + p.value (j + l)) (by omega) (by omega)
  have range := mul_range nonneg below t.le_toInt t.toInt_lt
  obtain ⟨scaledLow, scaledHigh, isScaled⟩ := montReduce_spec range
  obtain ⟨p₁, isPut, own, others⟩ := @put_of_lt ε p j (by omega) sum
  obtain ⟨p₂, isPut', own', others'⟩ :=
    @put_of_lt ε p₁ (j + l) inside
      (montReduce (minusZeta.toInt * t.toInt))
  simp only [inverseButterfly, isUpper, isLower, upperValue, lowerValue, isT,
    isSum, isPut, reduce_eq range, isPut', Outcome.ok_bind]
  refine .ok ⟨?others, ?sum, ?low, ?high, ?product⟩
  case others =>
    intro other first second
    rw [others' other second, others other first]
  case sum =>
    rw [others' _ (by omega), own, sumValue]
  case low =>
    rw [own']
    exact scaledLow
  case high =>
    rw [own']
    exact scaledHigh
  case product =>
    rw [own', isScaled]
    push_cast
    rw [isRoot, tValue]
    push_cast
    have cancel : (65536 : Zq) * 169 = 1 := by
      decide
    linear_combination
      root node * ((p.value (j + l) : Zq) - p.value j) * cancel

/-- What a butterfly makes of a pair on the way up. -/
def InversePair
    (level : Nat)
    (block _place : Nat)
    (low high low' high' : Int) :
    Prop :=
  low' = low + high ∧ -q < high' ∧ high' < q ∧
    (high' : Zq) = root (2 ^ (level + 1) - 1 - block) * (high - low)

/-- The levels of the inverse transform, by the levels they undo. -/
theorem inverse_sizes :
    ∀ turns, turns < 7 →
      2 * 2 ^ (turns + 1) * 2 ^ (6 - turns) = 256 ∧
        256 / (2 * 2 ^ (turns + 1)) = 2 ^ (6 - turns) := by
  decide

/-- One level goes back to the residues of the level above. -/
theorem invNttLevel_delivers
    [Checks]
    {turns : Nat}
    (below : turns < 7)
    {p : Poly}
    (limited : Limited (limit turns) p) :
    (invNttLevel (2 ^ (turns + 1)) (p, 2 ^ (7 - turns) - 1) :
      Outcome ε (Poly × Nat)).Delivers fun state =>
      state.2 = 2 ^ (6 - turns) - 1 ∧
        Swept (2 ^ (turns + 1)) (2 ^ (6 - turns)) (InversePair (6 - turns)) p
          state.1 (2 ^ (6 - turns)) 0 := by
  obtain ⟨sizes, blocks⟩ := inverse_sizes turns below
  have sums := limit_sums turns below
  have positive := Nat.two_pow_pos (turns + 1)
  have some := Nat.two_pow_pos (6 - turns)
  have few : 2 ^ (7 - turns) = 2 * 2 ^ (6 - turns) := by
    rw [← pow_succ']
    congr 1
    omega
  have bounded : 2 ^ (6 - turns) ≤ 64 :=
    Nat.pow_le_pow_right (by decide) (by omega : 6 - turns ≤ 6)
  rw [invNttLevel, blocks, few]
  generalize 2 ^ (turns + 1) = l at *
  refine @Outcome.Delivers.imp ε (Poly × Nat)
    (fun state =>
      state.2 = 2 * 2 ^ (6 - turns) - 1 - 2 ^ (6 - turns) ∧
        Swept l (2 ^ (6 - turns)) (InversePair (6 - turns)) p state.1
          (2 ^ (6 - turns)) 0)
    _ ?levels _ fun state holds => ⟨?_, holds.2⟩
  case levels =>
    refine @Outcome.Delivers.loop ε (Poly × Nat)
      (fun block state =>
        state.2 = 2 * 2 ^ (6 - turns) - 1 - block ∧
          Swept l (2 ^ (6 - turns)) (InversePair (6 - turns)) p state.1 block
            0)
      _ _ _ ⟨rfl, .start⟩ fun block inside state holds => ?_
    obtain ⟨p₁, zi⟩ := state
    obtain ⟨isIndex, swept⟩ := holds
    dsimp only at isIndex swept ⊢
    refine (zeta_spec (by omega)).bind fun z isZ => ?_
    rw [Outcome.sub_of_le (by omega), Outcome.ok_bind]
    have inner :
        ((List.range l).foldlM
            (fun p place => inverseButterfly z l p (2 * l * block + place))
            p₁ : Outcome ε Poly).Delivers
          fun p₂ =>
            Swept l (2 ^ (6 - turns)) (InversePair (6 - turns)) p p₂ block
              l := by
      refine @Outcome.Delivers.loop ε Poly
        (fun place p₂ =>
          Swept l (2 ^ (6 - turns)) (InversePair (6 - turns)) p p₂ block
            place)
        _ _ _ swept fun place small p₂ swept => ?_
      obtain ⟨lowSame, highSame⟩ := swept.untouched inside small
      have lowAddress : 2 * l * block + place < 256 :=
        address_lt sizes inside (by omega)
      have address : 2 * l * block + (place + l) < 256 :=
        address_lt sizes inside (by omega)
      have isLow : (2 * l * block + place) % (2 * l) < l := by
        rw [Nat.mul_add_mod, Nat.mod_eq_of_lt (by omega)]
        exact small
      have room := sums _ lowAddress isLow
      rw [Nat.add_assoc] at room
      have lowBounds := limited _ lowAddress
      have highBounds := limited _ address
      rw [← lowSame] at lowBounds
      rw [← highSame] at highBounds
      rw [← Nat.add_assoc] at highBounds room
      refine (inverseButterfly_delivers isZ.1 isZ.2.1 isZ.2.2 positive
        (by omega) room lowBounds highBounds).imp fun p₃ moved => ?_
      obtain ⟨others, sum, low, high, product⟩ := moved
      rw [Nat.add_assoc, highSame, lowSame] at sum product
      rw [Nat.add_assoc] at low high others
      refine swept.step small others ⟨sum, low, high, ?_⟩
      rw [product, isIndex, pow_succ']
    refine inner.bind fun p₂ swept => .ok ⟨?_, swept.next⟩
    omega
  rw [holds.1]
  omega

/-- The reductions stay within the polynomial. -/
theorem segments_inside :
    ∀ segment ∈ segments, ∀ index ∈ segment, index < 256 := by
  decide

/-- A level takes its own reductions off the table. -/
theorem drop_segments :
    ∀ turns, turns < 7 →
      (segments.drop turns).flatMap written =
        written (segments.getD turns []) ++
          (segments.drop (turns + 1)).flatMap written := by
  decide

/-- Where the inverse transform stands between two levels. -/
structure Climbed
    (f : Nat → Zq)
    (turns : Nat)
    (state : (Poly × Nat) × List Int) :
    Prop where
  index : state.1.2 = 2 ^ (7 - turns) - 1
  table : state.2 = (segments.drop turns).flatMap written
  limited : Limited (limit turns) state.1.1
  reduced :
    Reduced splitValue (7 - turns) (2 ^ (turns + 1)) (2 ^ turns) f
      state.1.1.residues

/-- The butterflies of a level and the reductions after it. -/
theorem Climbed.next
    [Checks]
    {f : Nat → Zq}
    {turns : Nat}
    (below : turns < 7)
    {state : (Poly × Nat) × List Int}
    (climbed : Climbed f turns state) :
    (do
      let (p, zi) ← invNttLevel (2 ^ (turns + 1)) state.1
      let (p, table) ← reductions p state.2
      return ((p, zi), table) :
      Outcome ε ((Poly × Nat) × List Int)).Delivers
      (Climbed f (turns + 1)) := by
  obtain ⟨⟨p, zi⟩, table⟩ := state
  obtain ⟨isIndex, isTable, limited, reduced⟩ := climbed
  dsimp only at isIndex isTable limited reduced ⊢
  subst isIndex
  subst isTable
  obtain ⟨sizes, _⟩ := inverse_sizes turns below
  have level : 6 - turns + 1 = 7 - turns := by
    omega
  refine (invNttLevel_delivers below limited).bind fun state holds => ?_
  obtain ⟨p₁, zi⟩ := state
  obtain ⟨isIndex, swept⟩ := holds
  dsimp only at isIndex swept ⊢
  rw [drop_segments turns below]
  have insideSegment :
      ∀ index ∈ segments.getD turns [], index < 256 := by
    intro index member
    have present : turns < segments.length := below
    rw [List.getD_eq_getElem?_getD, List.getElem?_eq_getElem present,
      Option.getD_some] at member
    exact segments_inside _ (List.getElem_mem present) index member
  refine (reductions_delivers insideSegment p₁ _).bind
    fun state holds => .ok ?_
  obtain ⟨p₂, table⟩ := state
  obtain ⟨isTable, congruent, small, kept⟩ := holds
  refine ⟨?index, isTable, ?limited, ?reduced⟩
  case index =>
    rw [isIndex, show 7 - (turns + 1) = 6 - turns by omega]
  case limited =>
    intro index inside
    by_cases member : index ∈ segments.getD turns []
    · have bounds := small index member
      simp only [limit, if_pos member, q] at *
      omega
    · have same : p₂.value index = p₁.value index := kept index member
      dsimp only
      rw [limit, if_neg member, same]
      obtain ⟨block, place, some, fits, isIndex⟩ :=
        pair_of_index sizes inside
      obtain ⟨sum, low, high, _⟩ := swept.pairs some fits
      have lowAddress := address_lt sizes some
        (by omega : place < 2 * 2 ^ (turns + 1))
      have highAddress := address_lt sizes some
        (by omega : place + 2 ^ (turns + 1) < 2 * 2 ^ (turns + 1))
      have lowBounds := limited _ lowAddress
      have highBounds := limited _ highAddress
      rcases isIndex with rfl | rfl
      · rw [Nat.mul_add_mod, Nat.mod_eq_of_lt (by omega), if_pos fits, sum,
          Nat.add_assoc]
        push_cast
        simp only [q] at *
        omega
      · rw [Nat.mul_add_mod, Nat.mod_eq_of_lt (by omega),
          if_neg (by omega)]
        simp only [q] at *
        omega
  case reduced =>
    have isResidues : p₂.residues = p₁.residues := funext congruent
    rw [← level] at reduced
    have joined :
        Reduced splitValue (6 - turns) (2 * 2 ^ (turns + 1)) (2 * 2 ^ turns)
          f p₁.residues := by
      refine reduced.join tree (by omega : 6 - turns < 7)
        (fun block some => root_mul_root (by omega) some)
        fun block some place fits => ?_
      obtain ⟨sum, _, _, product⟩ := swept.pairs some fits
      simp only [residues, sum, product]
      push_cast
      exact ⟨rfl, trivial⟩
    dsimp only
    rw [isResidues, show 7 - (turns + 1) = 6 - turns by omega,
      pow_succ' 2 (turns + 1), pow_succ' (2 : Zq) turns]
    exact joined

/-- The inverse transform is off by the factor `2 ^ 16`. -/
theorem invNtt_delivers
    [Checks]
    {p : Poly}
    (within : Within q p)
    {f : Nat → Zq}
    (reduced : Reduced splitValue 7 2 1 f p.residues) :
    (invNtt p : Outcome ε Poly).Delivers fun p' =>
      ∀ index, index < 256 →
        -q < p'.value index ∧ p'.value index < q ∧
          (p'.value index : Zq) = 65536 * f index := by
  have start : Climbed f 0 ((p, 127), invNttReductions) := by
    refine ⟨rfl, invNttReductions_eq, ?_, ?_⟩
    · intro index inside
      have bounds := within index inside
      rw [limit, Nat.cast_one, Int.one_mul]
      exact bounds
    · rw [pow_zero]
      exact reduced
  have climbed :
      ((List.range 7).foldlM
          (fun (state : (Poly × Nat) × List Int) level => do
            let (p, zi) ← invNttLevel (2 ^ (level + 1)) state.1
            let (p, table) ← reductions p state.2
            return ((p, zi), table))
          ((p, 127), invNttReductions) :
        Outcome ε ((Poly × Nat) × List Int)).Delivers (Climbed f 7) :=
    .loop start fun turns below state climbed => climbed.next below
  rw [invNtt]
  refine climbed.bind fun state holds => ?_
  obtain ⟨⟨p₁, zi⟩, table⟩ := state
  refine @build_delivers ε
    (fun index c => -q < c ∧ c < q ∧ (c : Zq) = 65536 * f index) _
    fun index inside => ?_
  obtain ⟨c, isC, cValue⟩ := @coefficient_of_lt ε p₁ _ inside
  have range :=
    mul_range (z := 1441) (by decide) (by decide) c.le_toInt c.toInt_lt
  obtain ⟨low, high, isScaled⟩ := montReduce_spec range
  rw [isC, Outcome.ok_bind, mont2Over128_eq, reduce_eq range]
  refine .ok ⟨low, high, ?_⟩
  have whole := holds.reduced 0 (by decide) index inside
  rw [isScaled]
  push_cast
  rw [cValue]
  have isSum : (p₁.value index : Zq) = 128 * f index := by
    rw [Nat.mul_zero, Nat.zero_add] at whole
    rw [show (p₁.value index : Zq) = p₁.residues index from rfl, whole]
    norm_num
  rw [isSum]
  have cancel : (1441 : Zq) * 128 * 169 = 65536 := by
    decide
  linear_combination f index * cancel

end Poly

end Gossveil.Lattice
