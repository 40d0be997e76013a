import Mathlib.Algebra.CharP.Two
import Mathlib.LinearAlgebra.Lagrange
import Mathlib.Data.List.Nodup
import Mathlib.Tactic

namespace Gossveil.Interpolation

/-!
# Interpolation on coefficient lists

Polynomials over a field of characteristic two are lists of coefficients, low
to high.  `fit` builds the polynomial through some points by Lagrange's
formula; when the points have distinct abscissae it meets each of them, and no
other polynomial of as many coefficients does.
-/

open Polynomial

universe u

variable {F : Type u} [Field F]

/-! ## Evaluation -/

/-- Horner's rule from the highest coefficient down. -/
def evaluate (coefficients : List F) (x : F) : F :=
  coefficients.foldr (fun coefficient rest => rest * x + coefficient) 0

@[simp] theorem evaluate_nil (x : F) : evaluate [] x = 0 :=
  rfl

@[simp] theorem evaluate_cons
    (coefficient : F)
    (rest : List F)
    (x : F) :
    evaluate (coefficient :: rest) x = evaluate rest x * x + coefficient :=
  rfl

@[simp] theorem evaluate_replicate_zero (count : Nat) (x : F) :
    evaluate (List.replicate count 0) x = 0 := by
  induction count with
  | zero =>
      rfl
  | succ count inductionHypothesis =>
      rw [List.replicate_succ, evaluate_cons, inductionHypothesis,
        zero_mul, add_zero]

/-- Adding a scaled list adds the scaled value. -/
theorem evaluate_addScaled
    {out term : List F}
    (scale x : F)
    (sameLength : out.length = term.length) :
    evaluate (List.zipWith (fun o t => o + t * scale) out term) x =
      evaluate out x + evaluate term x * scale := by
  induction out generalizing term with
  | nil =>
      have empty : term = [] := List.eq_nil_of_length_eq_zero
        sameLength.symm
      rw [empty]
      simp
  | cons first out inductionHypothesis =>
      cases term with
      | nil => simp at sameLength
      | cons second term =>
          have shorter : out.length = term.length := by
            simpa using sameLength
          rw [List.zipWith_cons_cons, evaluate_cons,
            inductionHypothesis shorter, evaluate_cons, evaluate_cons]
          ring

/-- The polynomial a coefficient list stands for. -/
noncomputable def poly : List F → F[X]
  | [] => 0
  | coefficient :: rest => C coefficient + X * poly rest

/-- Evaluating the coefficients evaluates the polynomial. -/
theorem eval_poly (coefficients : List F) (x : F) :
    (poly coefficients).eval x = evaluate coefficients x := by
  induction coefficients with
  | nil =>
      simp [poly]
  | cons coefficient rest inductionHypothesis =>
      rw [poly, eval_add, eval_C, eval_mul, eval_X,
        inductionHypothesis, evaluate_cons]
      ring

/-- As many coefficients as that bound the degree. -/
theorem degree_poly_lt (coefficients : List F) :
    (poly coefficients).degree < coefficients.length := by
  induction coefficients with
  | nil =>
      simp [poly]
  | cons coefficient rest inductionHypothesis =>
      have restBound :
          (X * poly rest).degree < ((rest.length + 1 : Nat) : WithBot Nat) := by
        by_cases isZero : poly rest = 0
        · rw [isZero, mul_zero, degree_zero]
          exact WithBot.bot_lt_coe _
        · rw [degree_mul, degree_X, degree_eq_natDegree isZero]
          rw [degree_eq_natDegree isZero] at inductionHypothesis
          have bound : (poly rest).natDegree < rest.length :=
            WithBot.coe_lt_coe.mp inductionHypothesis
          have shifted : 1 + (poly rest).natDegree < rest.length + 1 := by
            omega
          exact_mod_cast shifted
      have headBound :
          (C coefficient : F[X]).degree <
            ((rest.length + 1 : Nat) : WithBot Nat) :=
        lt_of_le_of_lt degree_C_le (by exact_mod_cast Nat.succ_pos _)
      exact lt_of_le_of_lt (degree_add_le (C coefficient) (X * poly rest))
        (max_lt headBound restBound)

/--
Lists of at most as many coefficients as there are distinct abscissae, with
the same values there, have the same values everywhere.
-/
theorem evaluate_unique
    [DecidableEq F]
    {first second : List F}
    {nodes : List F}
    (distinct : nodes.Nodup)
    (firstShort : first.length ≤ nodes.length)
    (secondShort : second.length ≤ nodes.length)
    (agree : ∀ node ∈ nodes, evaluate first node = evaluate second node)
    (x : F) :
    evaluate first x = evaluate second x := by
  have card : nodes.toFinset.card = nodes.length :=
    List.toFinset_card_of_nodup distinct
  have firstDegree : (poly first).degree < nodes.toFinset.card := by
    rw [card]
    exact lt_of_lt_of_le (degree_poly_lt first)
      (by exact_mod_cast firstShort)
  have secondDegree : (poly second).degree < nodes.toFinset.card := by
    rw [card]
    exact lt_of_lt_of_le (degree_poly_lt second)
      (by exact_mod_cast secondShort)
  have same : poly first = poly second := by
    refine sub_eq_zero.mp ?_
    refine eq_zero_of_degree_lt_of_eval_finset_eq_zero nodes.toFinset
      (lt_of_le_of_lt (degree_sub_le _ _)
        (max_lt firstDegree secondDegree)) ?_
    intro node inside
    rw [eval_sub, eval_poly, eval_poly,
      agree node (List.mem_toFinset.mp inside), sub_self]
  rw [← eval_poly, ← eval_poly, same]

/-! ## Lagrange's formula -/

/-- The product of a list's polynomial and `X + root`. -/
def timesRoot (root : F) (term : List F) : List F :=
  List.zipWith (· + ·) (0 :: term) (term.map (· * root) ++ [0])

/--
The unscaled basis polynomial of a point and its value there: the product over
the other abscissae.
-/
def basis (x : F) (others : List F) : List F × F :=
  others.foldl
    (fun (term, denominator) other =>
      (timesRoot other term, denominator * (x + other)))
    ([1], 1)

/-- The sum so far with the scaled basis polynomial of one point added. -/
def addTerm
    (points : List (F × F))
    (out : List F)
    (indexed : (F × F) × Nat) :
    List F :=
  let (term, denominator) :=
    basis indexed.1.1 ((points.eraseIdx indexed.2).map Prod.fst)
  let scale := indexed.1.2 / denominator
  List.zipWith (fun o t => o + t * scale) out term

/-- As many points give exactly as many coefficients. -/
def fit (points : List (F × F)) : List F :=
  points.zipIdx.foldl (addTerm points) (List.replicate points.length 0)

theorem length_timesRoot (root : F) (term : List F) :
    (timesRoot root term).length = term.length + 1 := by
  simp [timesRoot]

private theorem evaluate_zipWith_shift
    (carried root x : F)
    (term : List F) :
    evaluate
        (List.zipWith (· + ·) (carried :: term)
          (term.map (· * root) ++ [0])) x =
      carried + evaluate term x * (x + root) := by
  induction term generalizing carried with
  | nil =>
      simp
  | cons first rest inductionHypothesis =>
      rw [List.map_cons, List.cons_append, List.zipWith_cons_cons,
        evaluate_cons, inductionHypothesis, evaluate_cons]
      ring

/-- Multiplying by a linear factor multiplies the values. -/
theorem evaluate_timesRoot
    (root x : F)
    (term : List F) :
    evaluate (timesRoot root term) x = evaluate term x * (x + root) := by
  rw [timesRoot, evaluate_zipWith_shift, zero_add]

private theorem basis_foldl
    (x z : F)
    (others : List F)
    (term : List F)
    (denominator : F) :
    let result :=
      others.foldl
        (fun (state : List F × F) other =>
          (timesRoot other state.1, state.2 * (x + other)))
        (term, denominator)
    result.1.length = term.length + others.length ∧
      evaluate result.1 z =
        evaluate term z * (others.map (z + ·)).prod ∧
      result.2 = denominator * (others.map (x + ·)).prod := by
  induction others generalizing term denominator with
  | nil =>
      simp
  | cons other rest inductionHypothesis =>
      rcases inductionHypothesis (timesRoot other term)
          (denominator * (x + other)) with
        ⟨length, value, product⟩
      refine ⟨?_, ?_, ?_⟩
      · rw [List.foldl_cons, length, length_timesRoot, List.length_cons]
        omega
      · rw [List.foldl_cons, value, evaluate_timesRoot, List.map_cons,
          List.prod_cons]
        ring
      · rw [List.foldl_cons, product, List.map_cons, List.prod_cons]
        ring

theorem length_basis (x : F) (others : List F) :
    (basis x others).1.length = others.length + 1 := by
  have lengths := (basis_foldl x 0 others [1] 1).1
  rw [List.length_singleton, Nat.add_comm] at lengths
  exact lengths

/-- The basis polynomial is a product over the other places. -/
theorem evaluate_basis (x z : F) (others : List F) :
    evaluate (basis x others).1 z = (others.map (z + ·)).prod := by
  have values := (basis_foldl x z others [1] 1).2.1
  rw [evaluate_cons, evaluate_nil, zero_mul, zero_add, one_mul] at values
  exact values

/-- So is its denominator. -/
theorem basis_denominator (x : F) (others : List F) :
    (basis x others).2 = (others.map (x + ·)).prod := by
  have products := (basis_foldl x 0 others [1] 1).2.2
  rw [one_mul] at products
  exact products

/-- The abscissae of all points but one. -/
def others (points : List (F × F)) (index : Nat) : List F :=
  (points.eraseIdx index).map Prod.fst

/-- One term more adds its share to the value. -/
theorem evaluate_addTerm
    {points : List (F × F)}
    {out : List F}
    {point : F × F}
    {index : Nat}
    (inside : index < points.length)
    (sameLength : out.length = points.length)
    (x : F) :
    (addTerm points out (point, index)).length = points.length ∧
      evaluate (addTerm points out (point, index)) x =
        evaluate out x +
          ((others points index).map (x + ·)).prod *
            (point.2 /
              ((others points index).map (point.1 + ·)).prod) := by
  have termLength :
      (basis point.1 (others points index)).1.length =
        points.length := by
    rw [length_basis, others, List.length_map, List.length_eraseIdx,
      if_pos inside]
    omega
  refine ⟨?_, ?_⟩
  · have shape :
        (addTerm points out (point, index)).length =
          min out.length
            (basis point.1 (others points index)).1.length :=
      List.length_zipWith
    rw [shape, termLength, sameLength, Nat.min_self]
  · have value :=
      evaluate_addScaled
        (point.2 / (basis point.1 (others points index)).2) x
        (sameLength.trans termLength.symm)
    rw [evaluate_basis] at value
    rw [← basis_denominator point.1]
    exact value

omit [Field F] in
/-- Every other place is among the others. -/
theorem mem_others
    {points : List (F × F)}
    {index other : Nat}
    (inside : other < points.length)
    (different : other ≠ index) :
    (points[other]).1 ∈ others points index :=
  List.mem_map_of_mem
    (List.mem_eraseIdx_iff_getElem.mpr
      ⟨other, inside, different, rfl⟩)

omit [Field F] in
/-- A place is not among the others. -/
theorem not_mem_others
    {points : List (F × F)}
    (distinct : (points.map Prod.fst).Nodup)
    {index : Nat}
    (inside : index < points.length) :
    (points[index]).1 ∉ others points index := by
  intro member
  rcases List.mem_map.mp member with ⟨point, erased, same⟩
  rcases List.mem_eraseIdx_iff_getElem.mp erased with
    ⟨other, otherInside, different, isOther⟩
  have inNodes : index < (points.map Prod.fst).length := by
    simpa using inside
  have otherInNodes : other < (points.map Prod.fst).length := by
    simpa using otherInside
  have equalNodes :
      (points.map Prod.fst)[other] = (points.map Prod.fst)[index] := by
    rw [List.getElem_map, List.getElem_map, isOther, same]
  exact different ((List.Nodup.getElem_inj_iff distinct).mp equalNodes)

variable [CharP F 2]

/-- Equal elements add up to zero, and no others do. -/
theorem add_eq_zero_iff_eq (first second : F) :
    first + second = 0 ↔ first = second := by
  rw [← CharTwo.sub_eq_add, sub_eq_zero]

/-- A basis polynomial vanishes at every other abscissa. -/
theorem prod_others_eq_zero
    {nodes : List F}
    {x : F}
    (member : x ∈ nodes) :
    (nodes.map (x + ·)).prod = 0 :=
  List.prod_eq_zero
    (List.mem_map.mpr ⟨x, member, CharTwo.add_self_eq_zero x⟩)

/-- A basis polynomial does not vanish at its own abscissa. -/
theorem prod_others_ne_zero
    {nodes : List F}
    {x : F}
    (missing : x ∉ nodes) :
    (nodes.map (x + ·)).prod ≠ 0 := by
  refine List.prod_ne_zero ?_
  intro vanishes
  rcases List.mem_map.mp vanishes with ⟨node, member, sum⟩
  rw [(add_eq_zero_iff_eq x node).mp sum] at missing
  exact missing member

/-- The fold of `fit` over a stretch of points away from one abscissa. -/
private theorem foldl_addTerm_other
    {points : List (F × F)}
    {target : Nat}
    (targetInside : target < points.length)
    (stretch : List (F × F))
    (start : Nat)
    (out : List F)
    (fits : start + stretch.length ≤ points.length)
    (away : target < start ∨ start + stretch.length ≤ target)
    (sameLength : out.length = points.length) :
    let result := (stretch.zipIdx start).foldl (addTerm points) out
    result.length = points.length ∧
      evaluate result (points[target]).1 =
        evaluate out (points[target]).1 := by
  induction stretch generalizing start out with
  | nil =>
      exact ⟨sameLength, rfl⟩
  | cons point rest inductionHypothesis =>
      rw [List.length_cons] at fits away
      rcases @evaluate_addTerm F _ points out point start (by omega)
          sameLength (points[target]).1 with
        ⟨length, value⟩
      rcases inductionHypothesis (start + 1)
          (addTerm points out (point, start)) (by omega) (by omega)
          length with
        ⟨restLength, restValue⟩
      refine ⟨?_, ?_⟩
      · rw [List.zipIdx_cons, List.foldl_cons]
        exact restLength
      · rw [List.zipIdx_cons, List.foldl_cons, restValue, value,
          prod_others_eq_zero
            (mem_others targetInside (show target ≠ start by omega)),
          zero_mul, add_zero]

/-- The fitted polynomial has one coefficient a point and meets each point. -/
theorem fit_spec
    {points : List (F × F)}
    (distinct : (points.map Prod.fst).Nodup)
    {target : Nat}
    (inside : target < points.length) :
    (fit points).length = points.length ∧
      evaluate (fit points) (points[target]).1 = (points[target]).2 := by
  have split :
      points = points.take target ++
        points[target] :: points.drop (target + 1) := by
    rw [← List.drop_eq_getElem_cons inside, List.take_append_drop]
  have frontLength : (points.take target).length = target := by
    rw [List.length_take]
    omega
  have backLength :
      (points.drop (target + 1)).length =
        points.length - (target + 1) :=
    List.length_drop
  -- The three stretches of the fold: before, at and after the point.
  have folded :
      fit points =
        ((points.drop (target + 1)).zipIdx (target + 1)).foldl
          (addTerm points)
          (addTerm points
            (((points.take target).zipIdx 0).foldl (addTerm points)
              (List.replicate points.length 0))
            (points[target], target)) := by
    have indexed :
        points.zipIdx =
          (points.take target).zipIdx 0 ++
            (points[target], target) ::
              (points.drop (target + 1)).zipIdx (target + 1) := by
      conv_lhs => rw [split]
      rw [List.zipIdx_append, frontLength, Nat.zero_add,
        List.zipIdx_cons]
    rw [fit, indexed, List.foldl_append, List.foldl_cons]
  rcases foldl_addTerm_other inside (points.take target) 0
      (List.replicate points.length 0) (by omega) (by omega)
      List.length_replicate with
    ⟨beforeLength, beforeValue⟩
  rcases @evaluate_addTerm F _ points _ points[target] target inside
      beforeLength (points[target]).1 with
    ⟨atLength, atValue⟩
  rcases foldl_addTerm_other inside (points.drop (target + 1))
      (target + 1) _ (by omega) (by omega) atLength with
    ⟨afterLength, afterValue⟩
  have nonzero := prod_others_ne_zero (not_mem_others distinct inside)
  refine ⟨?_, ?_⟩
  · rw [folded]
    exact afterLength
  · rw [folded, afterValue, atValue, beforeValue,
      evaluate_replicate_zero, zero_add, mul_div_cancel₀ _ nonzero]

theorem length_fit
    {points : List (F × F)}
    (distinct : (points.map Prod.fst).Nodup) :
    (fit points).length = points.length := by
  cases points with
  | nil => rfl
  | cons point rest =>
      exact (fit_spec distinct (Nat.succ_pos rest.length)).1

/-- The fitted polynomial goes through every point. -/
theorem evaluate_fit
    {points : List (F × F)}
    (distinct : (points.map Prod.fst).Nodup)
    {x y : F}
    (member : (x, y) ∈ points) :
    evaluate (fit points) x = y := by
  rcases List.getElem_of_mem member with ⟨target, inside, found⟩
  have value := (fit_spec distinct inside).2
  rw [found] at value
  exact value

/-- Points of a short enough polynomial give that polynomial back. -/
theorem evaluate_fit_of_points
    [DecidableEq F]
    {points : List (F × F)}
    {coefficients : List F}
    (distinct : (points.map Prod.fst).Nodup)
    (short : coefficients.length ≤ points.length)
    (onCurve :
      ∀ point ∈ points, evaluate coefficients point.1 = point.2)
    (x : F) :
    evaluate (fit points) x = evaluate coefficients x := by
  refine evaluate_unique distinct ?_ ?_ ?_ x
  · rw [length_fit distinct, List.length_map]
  · rw [List.length_map]
    exact short
  · intro node member
    rcases List.mem_map.mp member with ⟨point, inside, rfl⟩
    rw [evaluate_fit distinct inside, onCurve point inside]

end Gossveil.Interpolation
