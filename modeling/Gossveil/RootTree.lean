import Gossveil.Reductions
import Gossveil.Transform

namespace Gossveil.Lattice

/-!
# The transform modulo q

The powers of 17 in bit-reversed order are the roots of a splitting of
`X ^ 256 + 1` into 128 factors of degree two.  The transform of a ring element
lists its residues modulo these factors, and is a bijection.
-/

open Transform

/-! ## Roots -/

/-- The root of unity at a node of the tree. -/
def root (node : Nat) : Zq :=
  17 ^ bitReverse node

/-- Node `n` of the tree stands for `X ^ length - splitValue n`. -/
def splitValue (node : Nat) : Zq :=
  if node ≤ 1 then -1
  else if node % 2 = 0 then root (node / 2)
  else -root (node / 2)

/-- Where the roots of a node's children stand. -/
theorem bitReverse_children :
    ∀ node, node < 64 →
      bitReverse (2 * node) * 2 = bitReverse node ∧
        bitReverse (2 * node + 1) * 2 = bitReverse node + 128 := by
  decide

/-- Seventeen is a root of unity of order 256. -/
theorem pow_128 : (17 : Zq) ^ 128 = -1 := by
  have whole : ((17 ^ 128 + 1 : Nat) : Zq) = 0 :=
    (ZMod.natCast_eq_zero_iff _ _).mpr (by norm_num)
  rw [Nat.cast_add, Nat.cast_pow, Nat.cast_one, Nat.cast_ofNat] at whole
  exact eq_neg_of_add_eq_zero_left whole

theorem root_ne_zero (node : Nat) : root node ≠ 0 := by
  have seventeen : (17 : Zq) ≠ 0 := by
    decide
  exact pow_ne_zero _ seventeen

/-- The square of a node's root is what the node splits at. -/
theorem root_sq
    {node : Nat}
    (positive : 0 < node)
    (below : node < 128) :
    root node ^ 2 = splitValue node := by
  rw [root, ← pow_mul]
  by_cases first : node ≤ 1
  · obtain rfl : node = 1 := by
      omega
    rw [splitValue, if_pos (le_refl 1),
      show bitReverse 1 * 2 = 128 by decide, pow_128]
  · obtain ⟨left, right⟩ := bitReverse_children (node / 2) (by omega)
    rw [splitValue, if_neg first, root]
    by_cases even : node % 2 = 0
    · rw [show 2 * (node / 2) = node by omega] at left
      rw [if_pos even, left]
    · rw [show 2 * (node / 2) + 1 = node by omega] at right
      rw [if_neg even, right, pow_add, pow_128, mul_neg_one]

/-- The roots form the tree the transform walks. -/
theorem tree : Tree splitValue root 7 where
  square _ positive below := root_sq positive below
  left node positive _ := by
    rw [splitValue, if_neg (by omega), if_pos (Nat.mul_mod_right 2 node),
      Nat.mul_div_cancel_left node (by decide)]
  right node positive _ := by
    rw [splitValue, if_neg (by omega), if_neg (by omega),
      show (2 * node + 1) / 2 = node by omega]
  nonzero node _ _ := root_ne_zero node

/-! ## Ring elements and their transforms -/

/-- The 256 coefficients of a ring element, or the residues of a transform. -/
abbrev Rq : Type :=
  Fin 256 → Zq

/-- The coefficients as a sequence. -/
def sequence (f : Rq) (index : Nat) : Zq :=
  if inside : index < 256 then f ⟨index, inside⟩ else 0

/-- The factor of a block is `X ^ 2 - gamma block`. -/
def gamma (block : Nat) : Zq :=
  17 ^ (2 * bitReverse block + 1)

/-- The residues modulo the factors, two coefficients each. -/
def hat (f : Rq) : Rq := fun index =>
  ∑ turn ∈ Finset.range 128,
    sequence f (index.val % 2 + 2 * turn) * gamma (index.val / 2) ^ turn

/-- Products of residues, factor by factor. -/
def hatMul (a b : Rq) : Rq := fun index =>
  let first := 2 * (index.val / 2)
  let second := first + 1
  if index.val % 2 = 0 then
    sequence a first * sequence b first +
      sequence a second * sequence b second * gamma (index.val / 2)
  else
    sequence a first * sequence b second +
      sequence a second * sequence b first

theorem sequence_of_lt
    (f : Rq)
    {index : Nat}
    (inside : index < 256) :
    sequence f index = f ⟨index, inside⟩ :=
  dif_pos inside

/-- The last level's roots are those of the base products. -/
theorem gamma_eq
    {block : Nat}
    (inside : block < 128) :
    gamma block = splitValue (128 + block) := by
  have upper :
      ∀ node, node < 64 →
        bitReverse (64 + node) = bitReverse node + 1 := by
    decide
  obtain ⟨left, right⟩ := bitReverse_children (block / 2) (by omega)
  have half := upper (block / 2) (by omega)
  have node : (128 + block) / 2 = 64 + block / 2 := by
    omega
  rw [gamma, splitValue, if_neg (by omega), node, root, half, mul_comm 2]
  by_cases even : block % 2 = 0
  · rw [show 2 * (block / 2) = block by omega] at left
    rw [if_pos (by omega), left]
  · rw [show 2 * (block / 2) + 1 = block by omega] at right
    rw [if_neg (by omega), right]
    rw [show bitReverse (block / 2) + 128 + 1 =
      bitReverse (block / 2) + 1 + 128 by ring, pow_add, pow_128, mul_neg_one]

/-- The transform holds the residues of the last level. -/
theorem hat_eq_residue
    (f : Rq)
    {block place : Nat}
    (inside : block < 128)
    (small : place < 2)
    (bounded : 2 * block + place < 256) :
    hat f ⟨2 * block + place, bounded⟩ =
      residue (sequence f) 2 128 (splitValue (128 + block)) place := by
  rw [hat, residue]
  simp only [show (2 * block + place) % 2 = place by omega,
    show (2 * block + place) / 2 = block by omega, gamma_eq inside]

/-- The transform of `f`, as the tree has it. -/
theorem reduced_hat (f : Rq) :
    Reduced splitValue 7 2 1 (sequence f) (sequence (hat f)) := by
  intro block inside place small
  have bounded : 2 * block + place < 256 := by
    omega
  rw [sequence_of_lt _ bounded, hat_eq_residue f inside small bounded, one_mul]
  rfl

/-- The transform keeps a factor. -/
theorem hat_smul (scale : Zq) (f : Rq) :
    hat (fun index => scale * f index) = fun index => scale * hat f index := by
  have scaled :
      sequence (fun index => scale * f index) =
        fun index => scale * sequence f index := by
    funext index
    by_cases inside : index < 256
    · simp only [sequence, dif_pos inside]
    · simp only [sequence, dif_neg inside, mul_zero]
  funext index
  simp only [hat, scaled, Finset.mul_sum, mul_assoc]

/-- Different sequences have different transforms. -/
theorem hat_injective : Function.Injective hat := by
  intro f g same
  have two : (2 : Zq) ≠ 0 := by
    decide
  -- Climb from the factors of degree two to the whole modulus.
  have levels :
      ∀ turns, turns ≤ 7 → ∀ block, block < 2 ^ (7 - turns) →
        ∀ place, place < 2 ^ (turns + 1) →
          residue (sequence f) (2 ^ (turns + 1)) (2 ^ (7 - turns))
              (splitValue (2 ^ (7 - turns) + block)) place =
            residue (sequence g) (2 ^ (turns + 1)) (2 ^ (7 - turns))
              (splitValue (2 ^ (7 - turns) + block)) place := by
    intro turns few
    induction turns with
    | zero =>
        intro block inside place small
        have bounded : 2 * block + place < 256 := by
          omega
        have entry := congrFun same ⟨2 * block + place, bounded⟩
        rwa [hat_eq_residue f inside small bounded,
          hat_eq_residue g inside small bounded] at entry
    | succ turns inductionHypothesis =>
        have below := inductionHypothesis (by omega)
        rw [show 7 - turns = 6 - turns + 1 by omega] at below
        rw [show 7 - (turns + 1) = 6 - turns by omega, pow_succ' 2 (turns + 1)]
        exact residues_of_children two tree (by omega : 6 - turns < 7) below
  funext index
  have whole := levels 7 (le_refl 7) 0 (by decide) index.val index.isLt
  simp only [Nat.sub_self, pow_zero, residue_one] at whole
  rwa [sequence_of_lt f index.isLt, sequence_of_lt g index.isLt] at whole

theorem hat_bijective : Function.Bijective hat :=
  Finite.injective_iff_bijective.mp hat_injective

/-- The inverse of the transform. -/
noncomputable def unhat : Rq → Rq :=
  (Equiv.ofBijective hat hat_bijective).symm

@[simp] theorem hat_unhat (g : Rq) : hat (unhat g) = g :=
  (Equiv.ofBijective hat hat_bijective).apply_symm_apply g

@[simp] theorem unhat_hat (f : Rq) : unhat (hat f) = f :=
  (Equiv.ofBijective hat hat_bijective).symm_apply_apply f

/-- The inverse transform keeps a factor. -/
theorem unhat_smul (scale : Zq) (g : Rq) :
    unhat (fun index => scale * g index) =
      fun index => scale * unhat g index := by
  apply hat_injective
  rw [hat_unhat, hat_smul, hat_unhat]

end Gossveil.Lattice
