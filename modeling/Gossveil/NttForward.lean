import Mathlib.Tactic.Linarith
import Gossveil.PolynomialRuns
import Gossveil.RootTree

namespace Gossveil.Lattice

/-!
# The forward transform

The table holds the roots of the tree.  Every level adds at most q to a
coefficient, so seven levels need no reduction.
-/

open Transform

variable {ε : Type}

/-! ## The table -/

/-- The table holds the powers of seventeen in bit-reversed order. -/
theorem powerLoop_eq :
    ∀ index, index < 128 →
      powerLoop 7 17 1 (bitReverse index) =
        ((17 ^ bitReverse index % 3329 : Nat) : Int) := by
  decide

/-- A root times a coefficient can be reduced. -/
theorem mul_range
    {z x : Int}
    (nonneg : 0 ≤ z)
    (below : z < q)
    (low : -2 ^ 15 ≤ x)
    (high : x < 2 ^ 15) :
    Reducible (z * x) := by
  simp only [Reducible, q] at *
  constructor
  · nlinarith
  · nlinarith

/-- The table holds the roots, times `2 ^ 16`. -/
theorem zeta_spec
    {index : Nat}
    (inside : index < 128) :
    (zeta index : Outcome ε Int16).Delivers fun z =>
      0 ≤ z.toInt ∧ z.toInt < q ∧ (z.toInt : Zq) = root index * 65536 := by
  have small : 17 ^ bitReverse index % 3329 < 3329 :=
    Nat.mod_lt _ (by decide)
  have isPower := powerLoop_eq index inside
  rw [zeta, if_pos inside, isPower]
  have isRoot : ((17 ^ bitReverse index % 3329 : Nat) : Zq) = root index := by
    rw [ZMod.natCast_mod, root]
    push_cast
    rfl
  generalize 17 ^ bitReverse index % 3329 = power at small isRoot
  have plain : (Int16.ofInt (power : Int)).toInt = power :=
    Int16.toInt_ofInt_of_le (by omega) (by omega)
  obtain ⟨_, _, isMont⟩ :=
    @montReduce_spec (power * 1353) (by simp only [Reducible, q]; omega)
  have isFe := feBarrett_spec (feToMont (Int16.ofInt (power : Int)))
  obtain ⟨low, high, same⟩ := isFe
  refine (csubq_spec low high).imp fun z reduced => ?_
  refine ⟨reduced.1, reduced.2.1, ?_⟩
  rw [reduced.2.2, same, feToMont, plain, mont2ModQ_eq, isMont]
  push_cast
  rw [isRoot, mul_assoc]
  rfl

namespace Poly

/-! ## One butterfly -/

/-- One butterfly makes its pair of residues. -/
theorem butterfly_delivers
    [Checks]
    {z : Int16}
    (nonneg : 0 ≤ z.toInt)
    (below : z.toInt < q)
    {node : Nat}
    (isRoot : (z.toInt : Zq) = root node * 65536)
    {l j : Nat}
    (positive : 0 < l)
    (inside : j + l < 256)
    {p : Poly}
    {bound : Int}
    (room : bound + q ≤ 2 ^ 15)
    (low : -bound ≤ p.value j)
    (high : p.value j ≤ bound) :
    (butterfly z l p j : Outcome ε Poly).Delivers fun p' =>
      (∀ other, other ≠ j → other ≠ j + l → p'.value other = p.value other) ∧
        ∃ t : Int,
          -q < t ∧ t < q ∧ (t : Zq) = root node * p.value (j + l) ∧
            p'.value j = p.value j + t ∧ p'.value (j + l) = p.value j - t := by
  obtain ⟨upper, isUpper, upperValue⟩ := @coefficient_of_lt ε p _ inside
  obtain ⟨lower, isLower, lowerValue⟩ :=
    @coefficient_of_lt ε p j (by omega)
  obtain ⟨upperLow, upperHigh⟩ := p.value_range (j + l)
  have range := mul_range nonneg below upperLow upperHigh
  obtain ⟨tLow, tHigh, isT⟩ := montReduce_spec range
  obtain ⟨difference, isDifference, differenceValue⟩ :=
    @checked_eq_ok ε
      (p.value j - (montReduce (z.toInt * p.value (j + l))).toInt)
      (by omega) (by omega)
  obtain ⟨p₁, isPut, own, others⟩ :=
    @put_of_lt ε p (j + l) inside difference
  obtain ⟨again, isAgain, againValue⟩ :=
    @coefficient_of_lt ε p₁ j (by omega)
  rw [others j (by omega)] at againValue
  obtain ⟨sum, isSum, sumValue⟩ :=
    @checked_eq_ok ε
      (p.value j + (montReduce (z.toInt * p.value (j + l))).toInt)
      (by omega) (by omega)
  obtain ⟨p₂, isPut', own', others'⟩ :=
    @put_of_lt ε p₁ j (by omega) sum
  simp only [butterfly, isUpper, isLower, upperValue, lowerValue,
    reduce_eq range, isDifference, isPut, isAgain, againValue, isSum, isPut',
    Outcome.ok_bind]
  refine .ok ⟨?others, _, tLow, tHigh, ?product, ?sum, ?difference⟩
  case others =>
    intro other first second
    rw [others' other first, others other second]
  case product =>
    rw [isT]
    push_cast
    rw [isRoot]
    have cancel : (65536 : Zq) * 169 = 1 := by
      decide
    linear_combination root node * (p.value (j + l) : Zq) * cancel
  case sum =>
    rw [own', sumValue]
  case difference =>
    rw [others' _ (by omega), own, differenceValue]

/-! ## One level -/

/-- What a butterfly makes of a pair. -/
def Pair
    (level : Nat)
    (block _place : Nat)
    (low high low' high' : Int) :
    Prop :=
  ∃ t : Int,
    -q < t ∧ t < q ∧ (t : Zq) = root (2 ^ level + block) * high ∧
      low' = low + t ∧ high' = low - t

/-- Every coefficient is between two bounds. -/
def Within (bound : Int) (p : Poly) : Prop :=
  ∀ index, index < 256 → -bound ≤ p.value index ∧ p.value index ≤ bound

/-- The residues modulo q that the coefficients stand for. -/
def residues (p : Poly) (index : Nat) : Zq :=
  p.value index

/-- The levels split the polynomial in equal blocks. -/
theorem level_sizes :
    ∀ level, level < 7 →
      2 * (256 / 2 ^ (level + 1)) * 2 ^ level = 256 ∧
        256 / (2 * (256 / 2 ^ (level + 1))) = 2 ^ level ∧
        0 < 256 / 2 ^ (level + 1) ∧
        2 * (256 / 2 ^ (level + 1)) = 256 / 2 ^ level ∧
        2 ^ level ≤ 64 := by
  decide

/-- The butterflies of one level, pair by pair. -/
theorem nttLevel_delivers
    [Checks]
    {level : Nat}
    (below : level < 7)
    {bound : Int}
    (room : bound + q ≤ 2 ^ 15)
    {p : Poly}
    (within : Within bound p) :
    (nttLevel (256 / 2 ^ (level + 1)) (p, 2 ^ level - 1) :
      Outcome ε (Poly × Nat)).Delivers fun state =>
      state.2 = 2 ^ level - 1 + 2 ^ level ∧
        Swept (256 / 2 ^ (level + 1)) (2 ^ level) (Pair level) p state.1
          (2 ^ level) 0 := by
  obtain ⟨sizes, blocks, positive, _, few⟩ := level_sizes level below
  rw [nttLevel, blocks]
  generalize 256 / 2 ^ (level + 1) = l at *
  have some := Nat.two_pow_pos level
  refine @Outcome.Delivers.loop ε (Poly × Nat)
    (fun block state =>
      state.2 = 2 ^ level - 1 + block ∧
        Swept l (2 ^ level) (Pair level) p state.1 block 0)
    _ _ _ ⟨rfl, .start⟩ fun block inside state holds => ?_
  obtain ⟨p₁, zi⟩ := state
  obtain ⟨isIndex, swept⟩ := holds
  dsimp only at isIndex swept ⊢
  have index : zi + 1 = 2 ^ level + block := by
    omega
  rw [index]
  refine (zeta_spec (by omega)).bind fun z isZ => ?_
  have inner :
      ((List.range l).foldlM
          (fun p place => butterfly z l p (2 * l * block + place)) p₁ :
        Outcome ε Poly).Delivers
        fun p₂ => Swept l (2 ^ level) (Pair level) p p₂ block l := by
    refine @Outcome.Delivers.loop ε Poly
      (fun place p₂ => Swept l (2 ^ level) (Pair level) p p₂ block place)
      _ _ _ swept fun place small p₂ swept => ?_
    obtain ⟨lowSame, highSame⟩ := swept.untouched inside small
    have address : 2 * l * block + (place + l) < 256 :=
      address_lt sizes inside (by omega)
    have bounds := within (2 * l * block + place) (by omega)
    rw [← lowSame] at bounds
    refine (butterfly_delivers isZ.1 isZ.2.1 isZ.2.2 positive
      (by omega) room bounds.1 bounds.2).imp fun p₃ moved => ?_
    obtain ⟨others, t, tLow, tHigh, isT, low, high⟩ := moved
    rw [Nat.add_assoc, highSame] at isT
    rw [Nat.add_assoc] at high others
    rw [lowSame] at low high
    exact swept.step small others ⟨t, tLow, tHigh, isT, low, high⟩
  refine inner.bind fun p₂ swept => .ok ⟨?_, swept.next⟩
  omega

/-- One level reduces the residues and widens the bound by q. -/
theorem nttLevel_reduces
    [Checks]
    {level : Nat}
    (below : level < 7)
    {bound : Int}
    (room : bound + q ≤ 2 ^ 15)
    {p : Poly}
    (within : Within bound p)
    {f : Nat → Zq}
    (reduced :
      Reduced splitValue level (256 / 2 ^ level) 1 f p.residues) :
    (nttLevel (256 / 2 ^ (level + 1)) (p, 2 ^ level - 1) :
      Outcome ε (Poly × Nat)).Delivers fun state =>
      state.2 = 2 ^ (level + 1) - 1 ∧
        Within (bound + q) state.1 ∧
        Reduced splitValue (level + 1) (256 / 2 ^ (level + 1)) 1 f
          state.1.residues := by
  obtain ⟨sizes, _, _, halves, _⟩ := level_sizes level below
  refine (nttLevel_delivers below room within).imp fun state holds => ?_
  obtain ⟨isIndex, swept⟩ := holds
  refine ⟨?index, ?within, ?reduced⟩
  case index =>
    rw [isIndex, pow_succ]
    omega
  case within =>
    intro index inside
    obtain ⟨block, place, some, small, isIndex⟩ := pair_of_index sizes inside
    obtain ⟨t, tLow, tHigh, _, low, high⟩ := swept.pairs some small
    have bounds := within (2 * (256 / 2 ^ (level + 1)) * block + place)
      (address_lt sizes some (by omega))
    rcases isIndex with rfl | rfl
    · omega
    · omega
  case reduced =>
    rw [← halves] at reduced
    refine reduced.split tree below fun block some place small => ?_
    obtain ⟨t, _, _, isT, low, high⟩ := swept.pairs some small
    simp only [residues, low, high]
    push_cast
    rw [isT]
    exact ⟨rfl, rfl⟩

/-- The transform of a polynomial with small coefficients. -/
theorem ntt_delivers
    [Checks]
    {bound : Int}
    (room : bound + 7 * q ≤ 2 ^ 15)
    {p : Poly}
    (within : Within bound p) :
    (ntt p : Outcome ε Poly).Delivers fun p' =>
      Reduced splitValue 7 2 1 p.residues p'.residues := by
  have levels :
      ((List.range 7).foldlM
          (fun state level => nttLevel (256 / 2 ^ (level + 1)) state) (p, 0) :
        Outcome ε (Poly × Nat)).Delivers fun state =>
        state.2 = 2 ^ 7 - 1 ∧ Within (bound + 7 * q) state.1 ∧
          Reduced splitValue 7 (256 / 2 ^ 7) 1 p.residues
            state.1.residues := by
    refine @Outcome.Delivers.loop ε (Poly × Nat)
      (fun level state =>
        state.2 = 2 ^ level - 1 ∧ Within (bound + level * q) state.1 ∧
          Reduced splitValue level (256 / 2 ^ level) 1 p.residues
            state.1.residues)
      _ 7 _ ⟨rfl, ?start, ?whole⟩ fun level below state holds => ?turn
    case start =>
      rw [Nat.cast_zero, Int.zero_mul, Int.add_zero]
      exact within
    case whole =>
      intro block inside place _
      obtain rfl : block = 0 := Nat.lt_one_iff.mp inside
      simp
    case turn =>
      obtain ⟨p₁, zi⟩ := state
      obtain ⟨rfl, bounded, reduced⟩ := holds
      refine (nttLevel_reduces below ?_ bounded reduced).imp
        fun state holds => ⟨holds.1, ?_, holds.2.2⟩
      · simp only [q] at *
        omega
      · have wider := holds.2.1
        rwa [show bound + (level : Int) * q + q =
          bound + ((level + 1 : Nat) : Int) * q by push_cast; ring] at wider
  rw [ntt]
  refine levels.bind fun state holds => .ok holds.2.2

end Poly

end Gossveil.Lattice
