import Gossveil.Polynomials

namespace Gossveil.Lattice.Poly

/-!
# Loops over a polynomial

A loop that fills a polynomial is known by its entries.  A level of butterflies
replaces the pairs of coefficients one after the other, and no butterfly
touches the pair of another.
-/

variable {ε : Type}

/-- A coefficient as an integer. -/
def value (p : Poly) (index : Nat) : Int :=
  (p.cs[index]?.getD 0).toInt

/-- A coefficient within bounds is read. -/
theorem coefficient_of_lt
    (p : Poly)
    {index : Nat}
    (inside : index < 256) :
    ∃ c : Int16,
      (p.coefficient index : Outcome ε Int16) = .ok c ∧
        c.toInt = p.value index := by
  refine ⟨p.cs[index], ?_, ?_⟩
  · rw [coefficient, Vector.getElem?_eq_getElem inside]
    rfl
  · rw [value, Vector.getElem?_eq_getElem inside]
    rfl

/-- A coefficient within bounds is written, and no other changes. -/
theorem put_of_lt
    (p : Poly)
    {index : Nat}
    (inside : index < 256)
    (c : Int16) :
    ∃ p' : Poly,
      (p.put index c : Outcome ε Poly) = .ok p' ∧
        p'.value index = c.toInt ∧
        ∀ other, other ≠ index → p'.value other = p.value other := by
  refine ⟨_, dif_pos inside, ?_, ?_⟩
  · simp only [value, Vector.getElem?_set_self, Option.getD_some]
  · intro other distinct
    simp only [value, Vector.getElem?_set_ne inside distinct.symm]

theorem value_zero (index : Nat) : zero.value index = 0 := by
  by_cases inside : index < 256
  · simp [value, zero, inside]
  · simp [value, zero, inside]

/-- A coefficient fits sixteen bits. -/
theorem value_range (p : Poly) (index : Nat) :
    -2 ^ 15 ≤ p.value index ∧ p.value index < 2 ^ 15 :=
  ⟨Int16.le_toInt _, Int16.toInt_lt _⟩

/-- A loop that fills consecutive coefficients keeps those before them. -/
theorem fill_delivers
    {Entry : Nat → Int → Prop}
    {start count : Nat}
    (room : start + count ≤ 256)
    {p : Poly}
    (before : ∀ index, index < start → Entry index (p.value index))
    {entry : Nat → Outcome ε Int16}
    (entries :
      ∀ place, place < count →
        (entry place).Delivers fun c => Entry (start + place) c.toInt) :
    ((List.range count).foldlM
        (fun out place => do
          let c ← entry place
          Poly.put out (start + place) c)
        p : Outcome ε Poly).Delivers fun p' =>
      ∀ index, index < start + count → Entry index (p'.value index) := by
  refine @Outcome.Delivers.loop ε Poly
    (fun turn p =>
      ∀ index, index < start + turn → Entry index (p.value index))
    _ _ _ before fun place inside p filled => ?_
  refine (entries place inside).bind fun c holds => ?_
  obtain ⟨p', isPut, own, others⟩ :=
    @put_of_lt ε p (start + place) (by omega) c
  rw [isPut]
  refine .ok fun index below => ?_
  by_cases last : index = start + place
  · rw [last, own]
    exact holds
  · rw [others index last]
    exact filled index (by omega)

/-- What is true of every entry is true of every coefficient. -/
theorem build_delivers
    {Entry : Nat → Int → Prop}
    {entry : Nat → Outcome ε Int16}
    (entries :
      ∀ index, index < 256 →
        (entry index).Delivers fun c => Entry index c.toInt) :
    (build entry).Delivers fun p =>
      ∀ index, index < 256 → Entry index (p.value index) := by
  have filled :=
    @fill_delivers ε Entry 0 256 le_rfl zero
      (fun index below => absurd below (Nat.not_lt_zero index)) entry
      (by simpa only [Nat.zero_add] using entries)
  simp only [Nat.zero_add] at filled
  exact filled

/-! ## Pairs in place -/

section Pairs

variable {l count : Nat}

/-- Two addresses in blocks of `2 * l` coefficients are the same. -/
theorem address_inj
    {block place otherBlock otherPlace : Nat}
    (inside : place < 2 * l)
    (otherInside : otherPlace < 2 * l)
    (same :
      2 * l * block + place = 2 * l * otherBlock + otherPlace) :
    block = otherBlock ∧ place = otherPlace := by
  have positive : 0 < 2 * l := by
    omega
  have quotient := congrArg (· / (2 * l)) same
  simp only [Nat.mul_add_div positive, Nat.div_eq_of_lt inside,
    Nat.div_eq_of_lt otherInside, Nat.add_zero] at quotient
  subst quotient
  exact ⟨rfl, Nat.add_left_cancel same⟩

/-- The places of a block lie within the polynomial. -/
theorem address_lt
    {size block place : Nat}
    (fits : 2 * l * count = size)
    (inside : block < count)
    (small : place < 2 * l) :
    2 * l * block + place < size := by
  have next : 2 * l * (block + 1) ≤ 2 * l * count :=
    Nat.mul_le_mul_left _ inside
  rw [Nat.mul_add, Nat.mul_one] at next
  omega

/-- Every index is one of a pair. -/
theorem pair_of_index
    {size index : Nat}
    (fits : 2 * l * count = size)
    (inside : index < size) :
    ∃ block place, block < count ∧ place < l ∧
      (index = 2 * l * block + place ∨
        index = 2 * l * block + (place + l)) := by
  subst fits
  have positive : 0 < 2 * l := by
    by_contra empty
    rw [Nat.eq_zero_of_not_pos empty, Nat.zero_mul] at inside
    exact absurd inside (Nat.not_lt_zero index)
  have whole := Nat.div_add_mod index (2 * l)
  have small := Nat.mod_lt index positive
  have block : index / (2 * l) < count :=
    Nat.div_lt_of_lt_mul inside
  by_cases low : index % (2 * l) < l
  · exact ⟨_, _, block, low, .inl whole.symm⟩
  · refine ⟨_, index % (2 * l) - l, block, by omega, .inr ?_⟩
    rw [Nat.sub_add_cancel (Nat.not_lt.mp low)]
    exact whole.symm

/-- The pairs before a place are done and the others are as they were. -/
def Swept
    (l count : Nat)
    (Pair : (block place : Nat) → (low high low' high' : Int) → Prop)
    (original p : Poly)
    (block place : Nat) :
    Prop :=
  ∀ b, b < count → ∀ r, r < l →
    let low := 2 * l * b + r
    let high := 2 * l * b + (r + l)
    if b < block ∨ b = block ∧ r < place then
      Pair b r (original.value low) (original.value high) (p.value low)
        (p.value high)
    else
      p.value low = original.value low ∧ p.value high = original.value high

variable
  {Pair : (block place : Nat) → (low high low' high' : Int) → Prop}
  {original p p' : Poly} {block place : Nat}

/-- Before the first pair nothing has been swept. -/
theorem Swept.start : Swept l count Pair p p 0 0 := by
  intro b _ r _
  rw [if_neg (by omega)]
  exact ⟨rfl, rfl⟩

/-- A pair not swept yet has its old values. -/
theorem Swept.untouched
    (swept : Swept l count Pair original p block place)
    (inside : block < count)
    (small : place < l) :
    p.value (2 * l * block + place) =
        original.value (2 * l * block + place) ∧
      p.value (2 * l * block + (place + l)) =
        original.value (2 * l * block + (place + l)) := by
  have pair := swept block inside place small
  rwa [if_neg (by omega)] at pair

/-- One more pair is done. -/
theorem Swept.step
    (swept : Swept l count Pair original p block place)
    (small : place < l)
    (others :
      ∀ index,
        index ≠ 2 * l * block + place →
          index ≠ 2 * l * block + (place + l) →
            p'.value index = p.value index)
    (pair :
      Pair block place
        (original.value (2 * l * block + place))
        (original.value (2 * l * block + (place + l)))
        (p'.value (2 * l * block + place))
        (p'.value (2 * l * block + (place + l)))) :
    Swept l count Pair original p' block (place + 1) := by
  intro b inside r smaller
  by_cases own : b = block ∧ r = place
  · obtain ⟨rfl, rfl⟩ := own
    rw [if_pos (by omega)]
    exact pair
  · have apart :
        ∀ offset otherOffset,
          offset < 2 → otherOffset < 2 →
            2 * l * b + (r + offset * l) ≠
              2 * l * block + (place + otherOffset * l) := by
      intro offset otherOffset first second same
      have bounds :
          ∀ offset, offset < 2 → ∀ r, r < l → r + offset * l < 2 * l := by
        intro offset bit r below
        interval_cases offset <;> omega
      obtain ⟨sameBlock, samePlace⟩ :=
        address_inj (bounds offset first r smaller)
          (bounds otherOffset second place small) same
      interval_cases offset <;> interval_cases otherOffset <;> omega
    have lowLow := apart 0 0 (by decide) (by decide)
    have lowHigh := apart 0 1 (by decide) (by decide)
    have highLow := apart 1 0 (by decide) (by decide)
    have highHigh := apart 1 1 (by decide) (by decide)
    simp only [Nat.zero_mul, Nat.one_mul, Nat.add_zero] at *
    have before := swept b inside r smaller
    simp only [others _ lowLow lowHigh, others _ highLow highHigh]
    by_cases done : b < block ∨ b = block ∧ r < place
    · rw [if_pos done] at before
      rw [if_pos (by omega)]
      exact before
    · rw [if_neg done] at before
      rw [if_neg (by omega)]
      exact before

/-- Behind the last pair of a block the next block begins. -/
theorem Swept.next
    (swept : Swept l count Pair original p block l) :
    Swept l count Pair original p (block + 1) 0 := by
  intro b inside r small
  have before := swept b inside r small
  by_cases done : b < block + 1
  · rw [if_pos (by omega)] at before
    rw [if_pos (by omega)]
    exact before
  · rw [if_neg (by omega)] at before
    rw [if_neg (by omega)]
    exact before

/-- Behind the last block every pair has been swept. -/
theorem Swept.pairs
    (swept : Swept l count Pair original p count 0)
    {b r : Nat}
    (inside : b < count)
    (small : r < l) :
    Pair b r
      (original.value (2 * l * b + r))
      (original.value (2 * l * b + (r + l)))
      (p.value (2 * l * b + r))
      (p.value (2 * l * b + (r + l))) := by
  have pair := swept b inside r small
  rwa [if_pos (.inl inside)] at pair

end Pairs

end Gossveil.Lattice.Poly
