import Mathlib.Algebra.BigOperators.Group.Finset.Basic
import Mathlib.Algebra.BigOperators.Ring.Finset
import Mathlib.Algebra.Field.Basic
import Mathlib.Tactic.LinearCombination
import Mathlib.Tactic.Ring

namespace Gossveil.Transform

/-!
# Transforms that split a modulus

The polynomial `X ^ (2 * n) - r ^ 2` is the product of `X ^ n - r` and
`X ^ n + r`.  A transform follows such splittings down a binary tree, and its
inverse climbs the tree again, doubling at every level.

A polynomial is the sequence of its coefficients.
-/

open Finset

variable {K : Type*} [Field K]

/--
The coefficient at `place` of `f` modulo `X ^ length - value`, where `f` has
`count * length` coefficients.
-/
def residue
    (f : Nat → K)
    (length count : Nat)
    (value : K)
    (place : Nat) :
    K :=
  ∑ turn ∈ range count, f (place + length * turn) * value ^ turn

@[simp] theorem residue_one
    (f : Nat → K)
    (length : Nat)
    (value : K)
    (place : Nat) :
    residue f length 1 value place = f place := by
  simp [residue]

/-- Half the length is the even terms and, times the root, the odd ones. -/
theorem residue_split
    (f : Nat → K)
    (half count : Nat)
    (root : K)
    (place : Nat) :
    residue f half (2 * count) root place =
      residue f (2 * half) count (root ^ 2) place +
        root * residue f (2 * half) count (root ^ 2) (place + half) := by
  simp only [residue]
  induction count with
  | zero => simp
  | succ count inductionHypothesis =>
      have even : place + half * (2 * count) = place + 2 * half * count := by
        ring
      have odd :
          place + half * (2 * count + 1) =
            place + half + 2 * half * count := by
        ring
      rw [Nat.mul_add, Nat.mul_one, sum_range_succ, sum_range_succ,
        inductionHypothesis, sum_range_succ, sum_range_succ, even, odd]
      ring

/-! ## The tree -/

/--
Node `n` stands for `X ^ length - value n` and splits by a square root of its
value into the nodes `2 * n` and `2 * n + 1`.
-/
structure Tree (value root : Nat → K) (depth : Nat) : Prop where
  square :
    ∀ node, 0 < node → node < 2 ^ depth → root node ^ 2 = value node
  left :
    ∀ node, 0 < node → node < 2 ^ depth → value (2 * node) = root node
  right :
    ∀ node, 0 < node → node < 2 ^ depth → value (2 * node + 1) = -root node
  nonzero :
    ∀ node, 0 < node → node < 2 ^ depth → root node ≠ 0

/-- The residues of `f` at the nodes of one depth, up to a factor. -/
def Reduced
    (value : Nat → K)
    (depth length : Nat)
    (scale : K)
    (f g : Nat → K) :
    Prop :=
  ∀ block, block < 2 ^ depth → ∀ place, place < length →
    g (length * block + place) =
      scale * residue f length (2 ^ depth) (value (2 ^ depth + block)) place

section Levels

variable {value root : Nat → K} {depth level half : Nat}

/-- A block's node lies on its level. -/
theorem node_lt
    {block : Nat}
    (above : level < depth)
    (inside : block < 2 ^ level) :
    0 < 2 ^ level + block ∧ 2 ^ level + block < 2 ^ depth := by
  have positive : 0 < 2 ^ level := Nat.two_pow_pos level
  have power : 2 ^ (level + 1) ≤ 2 ^ depth :=
    Nat.pow_le_pow_right (by decide) above
  rw [pow_succ] at power
  omega

variable (half) in
/-- The children's residues are a sum and a difference of the node's. -/
theorem residue_children
    (tree : Tree value root depth)
    (above : level < depth)
    {block : Nat}
    (inside : block < 2 ^ level)
    (f : Nat → K)
    (place : Nat) :
    let node := 2 ^ level + block
    let low := residue f (2 * half) (2 ^ level) (value node) place
    let high := residue f (2 * half) (2 ^ level) (value node) (place + half)
    residue f half (2 ^ (level + 1)) (value (2 ^ (level + 1) + 2 * block))
          place =
        low + root node * high ∧
      residue f half (2 ^ (level + 1))
          (value (2 ^ (level + 1) + (2 * block + 1))) place =
        low - root node * high := by
  obtain ⟨positive, bounded⟩ := node_lt above inside
  have leftNode : 2 ^ (level + 1) + 2 * block = 2 * (2 ^ level + block) := by
    ring
  have rightNode :
      2 ^ (level + 1) + (2 * block + 1) = 2 * (2 ^ level + block) + 1 := by
    ring
  have blocks : 2 ^ (level + 1) = 2 * 2 ^ level := pow_succ' 2 level
  rw [leftNode, rightNode, tree.left _ positive bounded,
    tree.right _ positive bounded, blocks, residue_split, residue_split,
    neg_sq, tree.square _ positive bounded]
  exact ⟨rfl, by ring⟩

/-- One level down. -/
theorem Reduced.split
    (tree : Tree value root depth)
    (above : level < depth)
    {scale : K}
    {f g g' : Nat → K}
    (reduced : Reduced value level (2 * half) scale f g)
    (butterflies :
      ∀ block, block < 2 ^ level → ∀ place, place < half →
        g' (2 * half * block + place) =
            g (2 * half * block + place) +
              root (2 ^ level + block) *
                g (2 * half * block + (place + half)) ∧
          g' (2 * half * block + (place + half)) =
            g (2 * half * block + place) -
              root (2 ^ level + block) *
                g (2 * half * block + (place + half))) :
    Reduced value (level + 1) half scale f g' := by
  intro child inside place small
  have parent : child / 2 < 2 ^ level := by
    rw [pow_succ] at inside
    omega
  have low := reduced _ parent place (by omega)
  have high := reduced _ parent (place + half) (by omega)
  obtain ⟨first, second⟩ := butterflies _ parent place small
  obtain ⟨left, right⟩ :=
    residue_children half tree above parent f place
  rcases Nat.mod_two_eq_zero_or_one child with even | odd
  · have isLeft : child = 2 * (child / 2) := by
      omega
    have address : half * child + place = 2 * half * (child / 2) + place := by
      rw [isLeft, Nat.mul_div_cancel_left _ (by decide)]
      ring
    rw [address, first, low, high, isLeft,
      Nat.mul_div_cancel_left _ (by decide), left]
    ring
  · have isRight : child = 2 * (child / 2) + 1 := by
      omega
    have address :
        half * child + place =
          2 * half * (child / 2) + (place + half) := by
      conv_lhs => rw [isRight]
      ring
    rw [address, second, low, high]
    conv_rhs => rw [isRight, right]
    ring

/-- One level up, which doubles. -/
theorem Reduced.join
    (tree : Tree value root depth)
    (above : level < depth)
    {scale : K}
    {f g g' : Nat → K}
    (reduced : Reduced value (level + 1) half scale f g)
    {back : Nat → K}
    (inverse :
      ∀ block, block < 2 ^ level → back block * root (2 ^ level + block) = -1)
    (butterflies :
      ∀ block, block < 2 ^ level → ∀ place, place < half →
        g' (2 * half * block + place) =
            g (2 * half * block + place) +
              g (2 * half * block + (place + half)) ∧
          g' (2 * half * block + (place + half)) =
            back block *
              (g (2 * half * block + (place + half)) -
                g (2 * half * block + place))) :
    Reduced value level (2 * half) (2 * scale) f g' := by
  intro block inside place small
  have blocks : 2 ^ (level + 1) = 2 * 2 ^ level := pow_succ' 2 level
  have children :
      ∀ offset, offset < half →
        g (2 * half * block + offset) =
            scale *
              residue f half (2 ^ (level + 1))
                (value (2 ^ (level + 1) + 2 * block)) offset ∧
          g (2 * half * block + (offset + half)) =
            scale *
              residue f half (2 ^ (level + 1))
                (value (2 ^ (level + 1) + (2 * block + 1))) offset := by
    intro offset fits
    have left := reduced (2 * block) (by omega) offset fits
    have right := reduced (2 * block + 1) (by omega) offset fits
    rw [show half * (2 * block) + offset = 2 * half * block + offset by ring]
      at left
    rw [show half * (2 * block + 1) + offset =
      2 * half * block + (offset + half) by ring] at right
    exact ⟨left, right⟩
  have isInverse := inverse block inside
  by_cases first : place < half
  · obtain ⟨low, high⟩ := children place first
    obtain ⟨left, right⟩ :=
      residue_children half tree above inside f place
    rw [(butterflies block inside place first).1, low, high, left, right]
    ring
  · obtain ⟨offset, rfl⟩ : ∃ offset, place = offset + half :=
      ⟨place - half, by omega⟩
    have fits : offset < half := by
      omega
    obtain ⟨low, high⟩ := children offset fits
    obtain ⟨left, right⟩ :=
      residue_children half tree above inside f offset
    rw [(butterflies block inside offset fits).2, low, high, left, right]
    linear_combination
      (-2 * scale *
        residue f (2 * half) (2 ^ level) (value (2 ^ level + block))
          (offset + half)) * isInverse

/-- The residues of one level determine those of the level above it. -/
theorem residues_of_children
    (two : (2 : K) ≠ 0)
    (tree : Tree value root depth)
    (above : level < depth)
    {f g : Nat → K}
    (same :
      ∀ block, block < 2 ^ (level + 1) → ∀ place, place < half →
        residue f half (2 ^ (level + 1)) (value (2 ^ (level + 1) + block))
            place =
          residue g half (2 ^ (level + 1)) (value (2 ^ (level + 1) + block))
            place) :
    ∀ block, block < 2 ^ level → ∀ place, place < 2 * half →
      residue f (2 * half) (2 ^ level) (value (2 ^ level + block)) place =
        residue g (2 * half) (2 ^ level) (value (2 ^ level + block))
          place := by
  have blocks : 2 ^ (level + 1) = 2 * 2 ^ level := pow_succ' 2 level
  have both :
      ∀ block, block < 2 ^ level → ∀ place, place < half →
        residue f (2 * half) (2 ^ level) (value (2 ^ level + block)) place =
            residue g (2 * half) (2 ^ level) (value (2 ^ level + block))
              place ∧
          residue f (2 * half) (2 ^ level) (value (2 ^ level + block))
              (place + half) =
            residue g (2 * half) (2 ^ level) (value (2 ^ level + block))
              (place + half) := by
    intro block inside place small
    have first := same (2 * block) (by omega) place small
    have second := same (2 * block + 1) (by omega) place small
    obtain ⟨positive, bounded⟩ := node_lt above inside
    obtain ⟨left, right⟩ :=
      residue_children half tree above inside f place
    obtain ⟨otherLeft, otherRight⟩ :=
      residue_children half tree above inside g place
    rw [left, otherLeft] at first
    rw [right, otherRight] at second
    constructor
    · apply mul_left_cancel₀ two
      linear_combination first + second
    · apply mul_left_cancel₀ (mul_ne_zero two (tree.nonzero _ positive bounded))
      linear_combination first - second
  intro block inside place small
  by_cases low : place < half
  · exact (both block inside place low).1
  · have high := (both block inside (place - half) (by omega)).2
    rwa [Nat.sub_add_cancel (Nat.not_lt.mp low)] at high

end Levels

end Gossveil.Transform
