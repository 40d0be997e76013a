import Mathlib.Data.Set.Card

namespace Gossveil.Rejection

/-!
# Rejection sampling is uniform

A sampler draws for one place after the other, again and again until a draw is
accepted there.  Where two results are accepted from equally many draws, the
strings of draws on which the sampler stops with the one are in bijection with
those on which it stops with the other.
-/

variable {Draw Result : Type}

/-- The loop that draws until a draw is accepted; `none` while it has not ended. -/
def first (accept : Draw → Option Result) :
    List Draw →
    Option (Result × List Draw)
  | [] => none
  | draw :: draws =>
      match accept draw with
      | some result => some (result, draws)
      | none => first accept draws

/-- One accepted draw for each place, and the draws that are left. -/
def each :
    List (Draw → Option Result) →
    List Draw →
    Option (List Result × List Draw)
  | [], draws => some ([], draws)
  | accept :: rest, draws => do
      let (result, draws) ← first accept draws
      let (results, draws) ← each rest draws
      return (result :: results, draws)

/-- The strings of so many draws on which the sampler stops with some results. -/
def Stops
    (accepts : List (Draw → Option Result))
    (results : List Result)
    (size : Nat) :
    Set (List Draw) :=
  fun draws => draws.length = size ∧ each accepts draws = some (results, [])

section Steps

variable
  {accept : Draw → Option Result}
  {accepts : List (Draw → Option Result)}
  {draw : Draw}
  {draws : List Draw}

@[simp] theorem each_nil :
    each ([] : List (Draw → Option Result)) draws = some ([], draws) :=
  rfl

@[simp] theorem each_cons_nil : each (accept :: accepts) [] = none :=
  rfl

/-- A rejected draw is passed over. -/
theorem each_of_rejected (rejected : accept draw = none) :
    each (accept :: accepts) (draw :: draws) =
      each (accept :: accepts) draws := by
  rw [each, each, first, rejected]

/-- An accepted draw is the next result. -/
theorem each_of_accepted
    {result : Result}
    (accepted : accept draw = some result) :
    each (accept :: accepts) (draw :: draws) =
      (each accepts draws).map fun ended =>
        (result :: ended.1, ended.2) := by
  simp only [each, first, accepted, Option.bind_eq_bind, Option.bind_some]
  cases each accepts draws <;> rfl

end Steps

/-- Every result comes of a draw that is accepted at its place. -/
theorem forall₂_of_each
    {accepts : List (Draw → Option Result)}
    {results : List Result}
    {draws rest : List Draw}
    (ended : each accepts draws = some (results, rest)) :
    List.Forall₂ (fun accept result => ∃ draw, accept draw = some result)
      accepts results := by
  induction draws generalizing accepts results with
  | nil =>
      cases accepts with
      | nil =>
          cases ended
          exact .nil
      | cons accept accepts => cases ended
  | cons draw draws inductionHypothesis =>
      cases accepts with
      | nil =>
          cases ended
          exact .nil
      | cons accept accepts =>
          cases isResult : accept draw with
          | none =>
              rw [each_of_rejected isResult] at ended
              exact inductionHypothesis ended
          | some result =>
              rw [each_of_accepted isResult, Option.map_eq_some_iff] at ended
              obtain ⟨⟨others, left⟩, others_ended, ⟨⟩⟩ := ended
              exact .cons ⟨draw, isResult⟩ (inductionHypothesis others_ended)

/-- Every result was accepted from a draw. -/
theorem mem_of_each_replicate
    {accept : Draw → Option Result}
    {count : Nat}
    {results : List Result}
    {draws rest : List Draw}
    (ended :
      each (List.replicate count accept) draws = some (results, rest)) :
    results.length = count ∧
      ∀ result ∈ results, ∃ draw, accept draw = some result := by
  have places := forall₂_of_each ended
  refine ⟨by rw [← places.length_eq, List.length_replicate], ?_⟩
  clear ended
  induction results generalizing count with
  | nil => exact List.forall_mem_nil _
  | cons result results inductionHypothesis =>
      cases count with
      | zero => cases places
      | succ count =>
          rw [List.replicate_succ] at places
          cases places with
          | cons drawn others =>
              exact List.forall_mem_cons.mpr
                ⟨drawn, inductionHypothesis others⟩

/-- The sampler stops as soon as enough draws are accepted. -/
theorem isSome_each_replicate
    (accept : Draw → Option Result)
    (count : Nat)
    (draws : List Draw) :
    (each (List.replicate count accept) draws).isSome ↔
      count ≤ draws.countP fun draw => (accept draw).isSome := by
  induction draws generalizing count with
  | nil =>
      cases count with
      | zero => exact iff_of_true rfl le_rfl
      | succ count =>
          rw [List.replicate_succ, each_cons_nil, List.countP_nil]
          exact iff_of_false (by simp) (by omega)
  | cons draw draws inductionHypothesis =>
      cases count with
      | zero => exact iff_of_true rfl (Nat.zero_le _)
      | succ count =>
          rw [List.replicate_succ, List.countP_cons]
          cases isResult : accept draw with
          | none =>
              rw [each_of_rejected isResult, ← List.replicate_succ,
                inductionHypothesis]
              simp
          | some result =>
              rw [each_of_accepted isResult, Option.isSome_map,
                inductionHypothesis]
              simp

/-- Two results of one place that are accepted from equally many draws. -/
structure Place (Draw Result : Type) where
  accept : Draw → Option Result
  here : Result
  there : Result
  fibers :
    {draw // accept draw = some here} ≃ {draw // accept draw = some there}

namespace Place

/-- The same place, with its two results exchanged. -/
def back (place : Place Draw Result) : Place Draw Result :=
  ⟨place.accept, place.there, place.here, place.fibers.symm⟩

variable [DecidableEq Result]

/-- The same draws, with those that were accepted carried to the other result. -/
def carry :
    List (Place Draw Result) →
    List Draw →
    List Draw
  | [], draws => draws
  | _ :: _, [] => []
  | place :: places, draw :: draws =>
      if accepted : place.accept draw = some place.here then
        (place.fibers ⟨draw, accepted⟩).val :: carry places draws
      else
        draw :: carry (place :: places) draws

@[simp] theorem length_carry
    (places : List (Place Draw Result))
    (draws : List Draw) :
    (carry places draws).length = draws.length := by
  induction draws generalizing places with
  | nil => cases places <;> rfl
  | cons draw draws inductionHypothesis =>
      cases places with
      | nil => rfl
      | cons place places =>
          rw [carry]
          split_ifs <;> simp only [List.length_cons, inductionHypothesis]

/-- Carried draws stop with the other results, and are carried back again. -/
theorem each_carry
    (places : List (Place Draw Result))
    {draws : List Draw}
    (stops :
      each (places.map accept) draws = some (places.map here, [])) :
    each (places.map accept) (carry places draws) =
        some (places.map there, []) ∧
      carry (places.map back) (carry places draws) = draws := by
  induction draws generalizing places with
  | nil =>
      cases places with
      | nil => exact ⟨stops, rfl⟩
      | cons place places => cases stops
  | cons draw draws inductionHypothesis =>
      cases places with
      | nil => cases stops
      | cons place places =>
          simp only [List.map_cons] at stops ⊢
          cases isResult : place.accept draw with
          | none =>
              rw [each_of_rejected isResult] at stops
              have differs : place.accept draw ≠ some place.here := by
                simp [isResult]
              have differsBack :
                  place.back.accept draw ≠ some place.back.here := by
                simp [back, isResult]
              obtain ⟨carried, returned⟩ :=
                inductionHypothesis (place :: places) stops
              rw [carry, dif_neg differs, each_of_rejected isResult, carry,
                dif_neg differsBack]
              exact ⟨carried, congrArg (draw :: ·) returned⟩
          | some result =>
              rw [each_of_accepted isResult, Option.map_eq_some_iff] at stops
              obtain ⟨⟨others, left⟩, rest, ended⟩ := stops
              simp only [Prod.mk.injEq, List.cons.injEq] at ended
              obtain ⟨⟨rfl, rfl⟩, rfl⟩ := ended
              obtain ⟨carried, returned⟩ := inductionHypothesis places rest
              have there := (place.fibers ⟨draw, isResult⟩).property
              rw [carry, dif_pos isResult, each_of_accepted there, carried,
                carry, dif_pos (show place.back.accept _ = some place.back.here
                  from there)]
              refine ⟨rfl, ?_⟩
              rw [returned]
              exact congrArg (·.val :: draws)
                (place.fibers.symm_apply_apply ⟨draw, isResult⟩)

omit [DecidableEq Result] in
/-- Carrying back undoes carrying. -/
theorem map_back
    (places : List (Place Draw Result)) :
    (places.map back).map accept = places.map accept ∧
      (places.map back).map here = places.map there ∧
        (places.map back).map there = places.map here ∧
          (places.map back).map back = places := by
  refine ⟨List.map_map, List.map_map, List.map_map, ?_⟩
  rw [List.map_map]
  exact List.map_id places

/-- Draws are carried to draws that stop. -/
theorem carry_mem
    {places : List (Place Draw Result)}
    {size : Nat}
    {draws : List Draw}
    (stops : draws ∈ Stops (places.map accept) (places.map here) size) :
    carry places draws ∈
      Stops (places.map accept) (places.map there) size :=
  ⟨(length_carry places draws).trans stops.1, (each_carry places stops.2).1⟩

/-- Draws are carried back to draws that stop. -/
theorem carry_back_mem
    {places : List (Place Draw Result)}
    {size : Nat}
    {draws : List Draw}
    (stops : draws ∈ Stops (places.map accept) (places.map there) size) :
    carry (places.map back) draws ∈
        Stops (places.map accept) (places.map here) size ∧
      carry places (carry (places.map back) draws) = draws := by
  obtain ⟨accepts, backHere, backThere, backBack⟩ := map_back places
  rw [← accepts, ← backHere] at stops
  have carried := carry_mem stops
  have returned := (each_carry _ stops.2).2
  rw [accepts, backThere] at carried
  rw [backBack] at returned
  exact ⟨carried, returned⟩

end Place

/-- Results that are accepted from equally many draws, place by place. -/
inductive Alike :
    List (Draw → Option Result) →
    List Result →
    List Result →
    Prop where
  | nil : Alike [] [] []
  | cons
      {accept : Draw → Option Result}
      {accepts : List (Draw → Option Result)}
      {result other : Result}
      {results others : List Result} :
      Nonempty
        ({draw // accept draw = some result} ≃
          {draw // accept draw = some other}) →
      Alike accepts results others →
      Alike (accept :: accepts) (result :: results) (other :: others)

namespace Alike

variable
  {accepts : List (Draw → Option Result)}
  {results others : List Result}

/-- Results alike are places to carry between. -/
theorem places
    (alike : Alike accepts results others) :
    ∃ places : List (Place Draw Result),
      places.map Place.accept = accepts ∧
        places.map Place.here = results ∧ places.map Place.there = others := by
  induction alike with
  | nil => exact ⟨[], rfl, rfl, rfl⟩
  | cons fibers rest inductionHypothesis =>
      obtain ⟨fibers⟩ := fibers
      obtain ⟨places, rfl, rfl, rfl⟩ := inductionHypothesis
      exact ⟨⟨_, _, _, fibers⟩ :: places, rfl, rfl, rfl⟩

/-- Alike results end equally many strings of draws of every length. -/
theorem ncard_stops
    [DecidableEq Result]
    (alike : Alike accepts results others)
    (size : Nat) :
    (Stops accepts results size).ncard = (Stops accepts others size).ncard := by
  obtain ⟨places, rfl, rfl, rfl⟩ := alike.places
  refine Set.ncard_congr (fun draws _ => Place.carry places draws)
    (fun draws stops => Place.carry_mem stops) ?_ ?_
  · intro draws other stops otherStops same
    rw [← (Place.each_carry places stops.2).2, same,
      (Place.each_carry places otherStops.2).2]
  · intro draws stops
    obtain ⟨carried, returned⟩ := Place.carry_back_mem stops
    exact ⟨Place.carry (places.map Place.back) draws, carried, returned⟩

end Alike

/-- Results that are each accepted from some draw end some string of draws. -/
theorem nonempty_stops
    {accept : Draw → Option Result}
    {results : List Result}
    (drawn : ∀ result ∈ results, ∃ draw, accept draw = some result) :
    (Stops (List.replicate results.length accept) results
      results.length).Nonempty := by
  induction results with
  | nil => exact ⟨[], rfl, rfl⟩
  | cons result results inductionHypothesis =>
      rw [List.forall_mem_cons] at drawn
      obtain ⟨⟨draw, accepted⟩, others⟩ := drawn
      obtain ⟨draws, length, stops⟩ := inductionHypothesis others
      refine ⟨draw :: draws, congrArg Nat.succ length, ?_⟩
      rw [List.length_cons, List.replicate_succ, each_of_accepted accepted,
        stops]
      rfl

end Gossveil.Rejection
