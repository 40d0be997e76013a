import Gossveil.CircleBounds
import Gossveil.SkipStore

namespace Gossveil.Circle

/-!
# A member as a store of skipped steps

The chain of a member has been advanced to the store's counter, and each kept
step has the key the chain had there, the oldest first.
-/

/-- The last ones of a reversed list are the first ones of the list. -/
theorem drop_reverse_eq_reverse_take
    {α : Type}
    (limit : Nat)
    (items : List α) :
    items.reverse.drop (items.reverse.length - limit) =
      (items.take limit).reverse := by
  by_cases few : items.length ≤ limit
  · simp [Nat.sub_eq_zero_of_le few, List.take_of_length_le few]
  · have within := Nat.le_of_not_le few
    rw [List.drop_reverse, List.length_reverse, Nat.sub_sub_self within]

section Derivations

variable [Hashes]

/-- The chain whose seed at step 0 is given, at another step. -/
def linkAt (seed : Block 32) (step : Nat) : Link :=
  ⟨step, Derive.chainNext^[step] seed⟩

/-- The seed of the note at a step. -/
def yieldAt (seed : Block 32) (step : Nat) : Yield :=
  (linkAt seed step).yield

@[simp] theorem step_yieldAt (seed : Block 32) (step : Nat) :
    (yieldAt seed step).step = step :=
  rfl

/-- The chain advances by one link. -/
theorem advance_linkAt
    {seed : Block 32}
    {step : Nat}
    (fits : step + 1 < 2 ^ 32) :
    (linkAt seed step).advance = .ok (linkAt seed (step + 1)) := by
  apply Link.advance_eq_ok.mpr ⟨fits, _⟩
  simp [linkAt, Function.iterate_succ_apply']

/-- A walk passes every link on its way. -/
theorem walk_linkAt
    {seed : Block 32}
    {start distance : Nat}
    (fits : start + distance < 2 ^ 32) :
    (linkAt seed start).walk distance =
      .ok ((List.range' start distance).map (linkAt seed),
        linkAt seed (start + distance)) := by
  induction distance generalizing start with
  | zero =>
      rfl
  | succ distance inductionHypothesis =>
      have onward : start + 1 + distance = start + (distance + 1) :=
        Nat.add_right_comm start 1 distance
      have fitsRest : start + 1 + distance < 2 ^ 32 := by
        rwa [onward]
      have advanced := @advance_linkAt _ seed start (by omega)
      rw [Link.walk, advanced, Outcome.ok_bind, inductionHypothesis fitsRest,
        onward]
      rfl

/-- The keys of the kept steps, the oldest first. -/
def keysOf (seed : Block 32) (kept : List Nat) : List Yield :=
  (kept.map (yieldAt seed)).reverse

/-- A member that a store of skipped steps has moved. -/
def Member.movedTo
    (origin : Member)
    (seed : Block 32)
    (store : SkipStore) :
    Member :=
  { origin with
    link := linkAt seed store.next
    skipped := keysOf seed store.kept }

/-- The oldest key leaves a full store. -/
theorem keepSkipped_keysOf
    {member : Member}
    {seed : Block 32}
    {kept : List Nat}
    (step : Nat)
    (holds : member.skipped = keysOf seed kept) :
    member.keepSkipped (yieldAt seed step) =
      { member with
        skipped := keysOf seed ((step :: kept).take maxSkipped) } := by
  have grown :
      member.skipped ++ [yieldAt seed step] = keysOf seed (step :: kept) := by
    simp [holds, keysOf]
  simp only [Member.keepSkipped, grown, keysOf, List.map_take]
  rw [drop_reverse_eq_reverse_take]

/-- Keeping the passed keys keeps the newest ones. -/
theorem foldl_keepSkipped_keysOf
    {member : Member}
    {seed : Block 32}
    {kept : List Nat}
    {start distance : Nat}
    (bounded : kept.length ≤ maxSkipped)
    (holds : member.skipped = keysOf seed kept) :
    ((List.range' start distance).map (linkAt seed)).foldl
        (·.keepSkipped ·.yield) member =
      { member with
        skipped :=
          keysOf seed
            ((SkipStore.passed start (start + distance) ++ kept).take
              maxSkipped) } := by
  induction distance generalizing member kept start with
  | zero =>
      rw [Nat.add_zero, SkipStore.passed_of_le (Nat.le_refl start),
        List.nil_append, List.take_of_length_le bounded, ← holds]
      rfl
  | succ distance inductionHypothesis =>
      have onward : start + 1 + distance = start + (distance + 1) :=
        Nat.add_right_comm start 1 distance
      rw [List.range'_succ, List.map_cons, List.foldl_cons]
      apply (congrArg (List.foldl _ · _) (keepSkipped_keysOf start holds)).trans
      rw [@inductionHypothesis _ _ (start + 1) (List.length_take_le _ _) rfl,
        onward, SkipStore.take_append_take,
        @SkipStore.passed_of_lt start (start + (distance + 1)) (by omega)]
      simp

/-- A kept key is taken exactly when its step is kept. -/
theorem takeSkipped_movedTo
    {origin : Member}
    {seed : Block 32}
    {store : SkipStore}
    (distinct : store.kept.Nodup)
    (step : Nat) :
    (step ∉ store.kept ∧
        ((origin.movedTo seed store).takeSkipped step).1 = none) ∨
      step ∈ store.kept ∧
        (origin.movedTo seed store).takeSkipped step =
          (some (yieldAt seed step),
            origin.movedTo seed
              { store with kept := store.kept.erase step }) := by
  have sameStep :
      (fun yielded : Yield => decide (yielded.step = step)) ∘ yieldAt seed =
        fun number => decide (number = step) :=
    rfl
  have keys : keysOf seed store.kept = store.kept.reverse.map (yieldAt seed) :=
    List.map_reverse.symm
  have search :
      (keysOf seed store.kept).find? (·.step = step) =
        (store.kept.reverse.find? (· = step)).map (yieldAt seed) := by
    rw [keys, List.find?_map, sameStep]
  have removal :
      (keysOf seed store.kept).eraseP (·.step = step) =
        keysOf seed (store.kept.erase step) := by
    rw [keys, List.eraseP_map, sameStep, SkipStore.erase_eq_eraseP_decide,
      (List.nodup_reverse.mpr distinct).erase_eq_filter,
      List.filter_reverse, ← distinct.erase_eq_filter, List.map_reverse]
    rfl
  rcases SkipStore.find?_decide_eq step store.kept.reverse with
    ⟨missing, none⟩ | ⟨member, some⟩
  · refine .inl ⟨fun kept => missing (List.mem_reverse.mpr kept), ?_⟩
    exact search.trans (by rw [none]; rfl)
  · refine .inr ⟨List.mem_reverse.mp member, ?_⟩
    rw [some] at search
    simp only [Member.takeSkipped, Member.movedTo, search, removal,
      Option.map_some]

/-- How far ahead a step is refused. -/
def tooFar (distance : Nat) : Prop :=
  maxForwardJump < distance

instance : DecidablePred tooFar :=
  fun distance => inferInstanceAs (Decidable (maxForwardJump < distance))

section Draws

variable {origin : Member} {seed : Block 32} {store : SkipStore}
variable {step : Nat}

/-- Behind the chain the kept keys answer. -/
theorem yieldFor_movedTo_behind
    (distinct : store.kept.Nodup)
    (behind : step < store.next) :
    (step ∉ store.kept ∧
        yieldFor (origin.movedTo seed store) step = .error .replay) ∨
      step ∈ store.kept ∧
        yieldFor (origin.movedTo seed store) step =
          .ok (yieldAt seed step,
            origin.movedTo seed
              { store with kept := store.kept.erase step }) := by
  have isBehind : step < (origin.movedTo seed store).link.step := behind
  rw [yieldFor, if_pos isBehind]
  rcases @takeSkipped_movedTo _ origin seed store distinct step with
    ⟨missing, none⟩ | ⟨member, taken⟩
  · refine .inl ⟨missing, ?_⟩
    rw [← (origin.movedTo seed store).takeSkipped step |>.eta, none]
  · exact .inr ⟨member, by rw [taken]⟩

/-- Ahead of the chain the walk answers, and the passed keys are kept. -/
theorem yieldFor_movedTo_ahead
    (bounded : store.kept.length ≤ maxSkipped)
    (ahead : store.next ≤ step)
    (near : ¬ tooFar (step - store.next))
    (fits : step + 1 < 2 ^ 32) :
    yieldFor (origin.movedTo seed store) step =
      .ok (yieldAt seed step,
        origin.movedTo seed
          ⟨step + 1,
            (SkipStore.passed store.next step ++ store.kept).take
              maxSkipped⟩) := by
  have notBehind : ¬ step < (origin.movedTo seed store).link.step :=
    Nat.not_lt.mpr ahead
  have reaches : store.next + (step - store.next) = step :=
    Nat.add_sub_of_le ahead
  have walked :
      (origin.movedTo seed store).link.walk (step - store.next) =
        .ok ((List.range' store.next (step - store.next)).map (linkAt seed),
          linkAt seed step) := by
    apply (walk_linkAt (by omega)).trans
    rw [reaches]
  have kept :=
    @foldl_keepSkipped_keysOf _ (origin.movedTo seed store) seed
      store.kept store.next (step - store.next) bounded rfl
  rw [reaches] at kept
  rw [yieldFor, if_neg notBehind]
  apply (if_neg near).trans
  apply (congrArg (· >>= _) walked).trans
  simp only [Outcome.ok_bind, kept, advance_linkAt fits]
  rfl

/-- The key of a step is drawn as the store answers, and is the chain's. -/
theorem yieldFor_movedTo
    (ordered : store.Ordered maxSkipped)
    (fits : step + 1 < 2 ^ 32) :
    (∃ refusal fault,
      store.request tooFar maxSkipped step = .error refusal ∧
        yieldFor (origin.movedTo seed store) step = .error fault) ∨
      ∃ moved,
        store.request tooFar maxSkipped step = .ok moved ∧
          yieldFor (origin.movedTo seed store) step =
            .ok (yieldAt seed step, origin.movedTo seed moved) := by
  have distinct : store.kept.Nodup :=
    ordered.decreasing.imp fun newer => Nat.ne_of_gt newer
  by_cases behind : step < store.next
  · rcases yieldFor_movedTo_behind distinct behind with
      ⟨missing, refused⟩ | ⟨member, drew⟩
    · exact .inl ⟨.gone, .replay,
        by simp [SkipStore.request, behind, missing], refused⟩
    · exact .inr ⟨_, by simp [SkipStore.request, behind, member], drew⟩
  · have ahead := Nat.not_lt.mp behind
    by_cases far : tooFar (step - store.next)
    · have refused :
          yieldFor (origin.movedTo seed store) step =
            .error .badMessage :=
        (if_neg behind).trans (if_pos far)
      exact .inl ⟨.far, .badMessage,
        by simp [SkipStore.request, behind, far], refused⟩
    · exact .inr ⟨_, by simp [SkipStore.request, behind, far],
        yieldFor_movedTo_ahead ordered.bounded ahead far fits⟩

end Draws

end Derivations

end Gossveil.Circle
