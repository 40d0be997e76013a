import Gossveil.KeyStream

namespace Gossveil.KeyStream

open TwoParty

/-!
# The keys of one flow

A flow walks along one chain.  The key of an index depends on the chain's start
alone; a receiving flow yields it at most once, from its held keys or by
walking on, and holds only keys of indices it has passed and not yet yielded.
-/

variable [Hashes]

/-! ## The chain -/

/-- The chain key after some steps. -/
def chainAt (start : Block 32) : Nat → Block 32
  | 0 => start
  | count + 1 => (Flow.stepKeys (chainAt start count) (count + 1)).1

/-- The message key of an index; the first index is one. -/
def messageKey (start : Block 32) (index : Nat) : Block 32 :=
  (Flow.stepKeys (chainAt start (index - 1)) index).2

/-- One step yields the key of the next index. -/
theorem Flow.step_chain
    {start : Block 32}
    {flow : Flow}
    (onChain : flow.next = some (chainAt start flow.counter))
    (fits : flow.counter + 1 < 2 ^ 32) :
    flow.step =
      .ok (messageKey start (flow.counter + 1),
        { flow with
          counter := flow.counter + 1
          next := some (chainAt start (flow.counter + 1)) }) := by
  rw [Flow.step, onChain, Outcome.unwrap_some, Outcome.ok_bind,
    Outcome.add_of_lt fits, Outcome.ok_bind]
  rfl

/-! ## Held keys -/

namespace Held

omit [Hashes] in
/-- Removing at a place is erasing up to the order. -/
theorem remove_perm
    {held : Held}
    {place : Nat}
    (inside : place < held.length) :
    (remove held place).Perm (held.eraseIdx place) := by
  have shape := List.take_append_drop place held
  rw [List.drop_eq_getElem_cons inside] at shape
  have length : (List.take place held).length = place :=
    List.length_take_of_le (Nat.le_of_lt inside)
  generalize List.take place held = earlier at shape length
  generalize held[place] = entry at shape
  generalize List.drop (place + 1) held = later at shape
  clear inside
  subst shape
  rcases List.eq_nil_or_concat later with rfl | ⟨between, last, rfl⟩
  · have whole : (earlier ++ [entry]).getLast? = some entry :=
      List.getLast?_concat ..
    rw [remove, whole]
    simp only
    rw [if_neg (by rw [List.length_append, length]; simp),
      ← length, List.take_left, List.eraseIdx_append_of_length_le
        (Nat.le_refl _), Nat.sub_self, List.eraseIdx_cons_zero,
      List.append_nil]
  · have whole :
        (earlier ++ entry :: (between ++ [last])).getLast? = some last := by
      rw [← List.cons_append, ← List.append_assoc]
      exact List.getLast?_concat ..
    rw [List.concat_eq_append, remove, whole]
    simp only
    rw [if_pos (by simp [length]), ← length,
      List.eraseIdx_append_of_length_le (Nat.le_refl _), Nat.sub_self,
      List.eraseIdx_cons_zero, List.set_append_right _ _ (Nat.le_refl _),
      Nat.sub_self, List.set_cons_zero]
    have dropped :
        (earlier ++ last :: (between ++ [last])).dropLast =
          earlier ++ last :: between := by
      rw [← List.cons_append, ← List.append_assoc, List.dropLast_concat]
    rw [dropped]
    refine List.Perm.append_left earlier ?_
    exact (List.perm_append_singleton last between).symm

omit [Hashes] in
/-- Removing a kept key keeps some of the others. -/
theorem remove_subperm
    (held : Held)
    (place : Nat) :
    (remove held place).Subperm held := by
  by_cases inside : place < held.length
  · exact (remove_perm inside).subperm.trans
      (List.eraseIdx_sublist held place).subperm
  · rcases List.eq_nil_or_concat held with rfl | ⟨front, last, rfl⟩
    · exact List.Subperm.refl _
    · rw [List.concat_eq_append] at inside ⊢
      have whole : (front ++ [last]).getLast? = some last :=
        List.getLast?_concat ..
      rw [remove, whole]
      simp only
      rw [if_neg (by omega),
        List.take_of_length_le (Nat.le_of_not_lt inside)]

omit [Hashes] in
/-- Trimming keeps some of the kept keys. -/
theorem trimFrom_subperm
    (horizon turns place : Nat)
    (held : Held) :
    (trimFrom horizon turns place held).Subperm held := by
  induction turns generalizing place held with
  | zero => exact List.Subperm.refl held
  | succ turns inductionHypothesis =>
      rw [trimFrom]
      split
      · exact List.Subperm.refl held
      · split_ifs
        · exact (inductionHypothesis place _).trans
            (remove_subperm held place)
        · exact inductionHypothesis (place + 1) held

omit [Hashes] in
/-- Removing a kept key keeps every other one. -/
theorem mem_remove
    {held : Held}
    {place : Nat}
    {entry : Entry}
    (inside : place < held.length)
    (member : entry ∈ held)
    (different : entry ≠ held[place]) :
    entry ∈ remove held place := by
  apply (remove_perm inside).symm.subset
  obtain ⟨other, otherInside, rfl⟩ := List.mem_iff_getElem.mp member
  apply List.mem_eraseIdx_iff_getElem.mpr
  refine ⟨other, otherInside, ?_, rfl⟩
  rintro rfl
  exact different rfl

omit [Hashes] in
/-- An entry at or past the horizon is not trimmed. -/
theorem mem_trimFrom
    {horizon : Nat}
    {entry : Entry}
    (recent : horizon ≤ entry.1)
    (turns place : Nat)
    {held : Held}
    (member : entry ∈ held) :
    entry ∈ trimFrom horizon turns place held := by
  induction turns generalizing place held with
  | zero =>
      exact member
  | succ turns inductionHypothesis =>
      rw [trimFrom]
      cases found : held[place]? with
      | none =>
          exact member
      | some other =>
          obtain ⟨inside, isOther⟩ := List.getElem?_eq_some_iff.mp found
          simp only
          split_ifs with old
          · apply inductionHypothesis
            apply mem_remove inside member
            rintro rfl
            rw [isOther] at recent
            omega
          · exact inductionHypothesis (place + 1) member

omit [Hashes] in
/-- Removing a kept key leaves one key less. -/
theorem length_remove
    {held : Held}
    {place : Nat}
    (inside : place < held.length) :
    (remove held place).length + 1 = held.length := by
  rw [(remove_perm inside).length_eq, List.length_eraseIdx_of_lt inside]
  omega

omit [Hashes] in
/-- The entries before the removed one stay where they are. -/
theorem getElem?_remove
    {held : Held}
    {place earlier : Nat}
    (inside : place < held.length)
    (before : earlier < place) :
    (remove held place)[earlier]? = held[earlier]? := by
  unfold remove
  cases isLast : held.getLast? with
  | none =>
      rw [List.getLast?_eq_none_iff.mp isLast] at inside
      exact absurd inside (Nat.not_lt_zero place)
  | some last =>
      simp only
      split_ifs with more
      · rw [List.getElem?_dropLast, if_pos (by rw [List.length_set]; omega),
          List.getElem?_set_ne (by omega)]
      · exact List.getElem?_take_of_lt before

omit [Hashes] in
/-- What is left after the loop is at or past the horizon. -/
theorem trimFrom_recent
    {horizon : Nat}
    (turns place : Nat)
    {held : Held}
    (enough : held.length ≤ turns + place)
    (done :
      ∀ earlier < place, ∀ entry,
        held[earlier]? = some entry → horizon ≤ entry.1) :
    ∀ entry ∈ trimFrom horizon turns place held, horizon ≤ entry.1 := by
  have whole
      {place : Nat}
      {held : Held}
      (short : held.length ≤ place)
      (done :
        ∀ earlier < place, ∀ entry,
          held[earlier]? = some entry → horizon ≤ entry.1) :
      ∀ entry ∈ held, horizon ≤ entry.1 := by
    intro entry member
    obtain ⟨earlier, inside, isEntry⟩ := List.mem_iff_getElem.mp member
    exact done earlier (by omega) entry
      (List.getElem?_eq_some_iff.mpr ⟨inside, isEntry⟩)
  induction turns generalizing place held with
  | zero =>
      rw [trimFrom]
      exact whole (by omega) done
  | succ turns inductionHypothesis =>
      rw [trimFrom]
      cases found : held[place]? with
      | none =>
          exact whole (List.getElem?_eq_none_iff.mp found) done
      | some other =>
          obtain ⟨inside, _⟩ := List.getElem?_eq_some_iff.mp found
          simp only
          split_ifs with old
          · have shorter := length_remove inside
            apply inductionHypothesis place (by omega)
            intro earlier before entry isEntry
            rw [getElem?_remove inside before] at isEntry
            exact done earlier before entry isEntry
          · apply inductionHypothesis (place + 1) (by omega)
            intro earlier before entry isEntry
            rcases Nat.lt_succ_iff_lt_or_eq.mp before with sooner | rfl
            · exact done earlier sooner entry isEntry
            · rw [found] at isEntry
              cases isEntry
              exact Nat.le_of_not_lt old

end Held

/-- The most keys a flow ever holds. -/
def Limits.mostHeld (limits : Limits) : Nat :=
  max (limits.trimAt - 1) (limits.skipped + 1)

/-! ## Receiving -/

/-- The flow is on its chain and holds keys it has passed and not yielded. -/
structure Receives
    (start : Block 32)
    (taken : Nat → Prop)
    (flow : Flow) :
    Prop where
  onChain : flow.next = some (chainAt start flow.counter)
  keys : ∀ entry ∈ flow.held, entry.2 = messageKey start entry.1
  positive : ∀ entry ∈ flow.held, 1 ≤ entry.1
  passed : ∀ entry ∈ flow.held, entry.1 ≤ flow.counter
  distinct : (flow.held.map Prod.fst).Nodup
  fresh : ∀ entry ∈ flow.held, ¬ taken entry.1
  behind : ∀ index, taken index → index ≤ flow.counter

namespace Receives

variable {start : Block 32} {taken : Nat → Prop} {flow : Flow}

/-- Keys may be dropped from the held ones. -/
theorem drop
    (receives : Receives start taken flow)
    {held : Held}
    (subperm : held.Subperm flow.held) :
    Receives start taken { flow with held := held } :=
  ⟨receives.onChain,
    fun entry member => receives.keys entry (subperm.subset member),
    fun entry member => receives.positive entry (subperm.subset member),
    fun entry member => receives.passed entry (subperm.subset member),
    by
      rcases subperm with ⟨same, perm, sublist⟩
      exact (perm.map Prod.fst).nodup_iff.mp
        (receives.distinct.sublist (sublist.map Prod.fst)),
    fun entry member => receives.fresh entry (subperm.subset member),
    receives.behind⟩

/-- Walking on without keeping the key. -/
theorem advance (receives : Receives start taken flow) :
    Receives start taken
      { flow with
        counter := flow.counter + 1
        next := some (chainAt start (flow.counter + 1)) } :=
  ⟨rfl, receives.keys, receives.positive,
    fun entry member => Nat.le_succ_of_le (receives.passed entry member),
    receives.distinct, receives.fresh,
    fun index isTaken =>
      Nat.le_succ_of_le (receives.behind index isTaken)⟩

/-- Walking on and holding the key. -/
theorem hold (receives : Receives start taken flow) :
    Receives start taken
      { counter := flow.counter + 1
        next := some (chainAt start (flow.counter + 1))
        held :=
          flow.held ++
            [(flow.counter + 1,
              messageKey start (flow.counter + 1))] } := by
  have inLast :
      ∀ {entry : Entry} {Holds : Entry → Prop},
        (∀ old ∈ flow.held, Holds old) →
        Holds (flow.counter + 1, messageKey start (flow.counter + 1)) →
        entry ∈ flow.held ++
          [(flow.counter + 1, messageKey start (flow.counter + 1))] →
        Holds entry := by
    intro entry Holds old last member
    rcases List.mem_append.mp member with inOld | isLast
    · exact old entry inOld
    · rw [List.mem_singleton] at isLast
      subst isLast
      exact last
  refine ⟨rfl, ?_, ?_, ?_, ?_, ?_, ?_⟩
  · exact fun entry => inLast receives.keys rfl
  · exact fun entry => inLast receives.positive (Nat.succ_pos _)
  · exact fun entry => inLast
      (fun old member => Nat.le_succ_of_le (receives.passed old member))
      (Nat.le_refl _)
  · rw [List.map_append, List.nodup_append]
    refine ⟨receives.distinct, List.nodup_singleton _, ?_⟩
    rintro index member last isLast same
    rcases List.mem_map.mp member with ⟨entry, inOld, rfl⟩
    rw [List.map_singleton, List.mem_singleton] at isLast
    have passed := receives.passed entry inOld
    omega
  · refine fun entry => inLast receives.fresh fun isTaken => ?_
    exact Nat.not_succ_le_self _ (receives.behind _ isTaken)
  · exact fun index isTaken =>
      Nat.le_succ_of_le (receives.behind index isTaken)

/-- There are no more held keys than indices passed. -/
theorem length_le (receives : Receives start taken flow) :
    flow.held.length ≤ flow.counter := by
  have inside :
      (flow.held.map Prod.fst).toFinset ⊆ Finset.Icc 1 flow.counter := by
    intro index member
    rcases List.mem_map.mp (List.mem_toFinset.mp member) with
      ⟨entry, inHeld, rfl⟩
    exact Finset.mem_Icc.mpr
      ⟨receives.positive entry inHeld, receives.passed entry inHeld⟩
  have count := Finset.card_le_card inside
  rw [List.toFinset_card_of_nodup receives.distinct, List.length_map,
    Nat.card_Icc, Nat.add_sub_cancel] at count
  exact count

/-- Trimming neither traps nor adds keys. -/
theorem trim
    (receives : Receives start taken flow)
    (limits : Limits) :
    ∃ held, flow.held.trim flow.counter limits = .ok held ∧
      held.Subperm flow.held := by
  unfold Held.trim
  split_ifs with few
  · exact ⟨flow.held, rfl, List.Subperm.refl _⟩
  · have enough : limits.skipped ≤ flow.counter := by
      have count := receives.length_le
      have many := Nat.le_of_not_lt few
      unfold Limits.trimAt at many
      omega
    rw [Outcome.sub_of_le enough]
    exact ⟨_, rfl, Held.trimFrom_subperm _ _ _ _⟩

/-- Indices of which none is older than the limit are few. -/
theorem length_le_of_recent
    (receives : Receives start taken flow)
    {limit : Nat}
    (recent : ∀ entry ∈ flow.held, flow.counter - limit ≤ entry.1) :
    flow.held.length ≤ limit + 1 := by
  have inside :
      (flow.held.map Prod.fst).toFinset ⊆
        Finset.Icc (flow.counter - limit) flow.counter := by
    intro index member
    obtain ⟨entry, inHeld, rfl⟩ := List.mem_map.mp (List.mem_toFinset.mp member)
    exact Finset.mem_Icc.mpr
      ⟨recent entry inHeld, receives.passed entry inHeld⟩
  have count := Finset.card_le_card inside
  rw [List.toFinset_card_of_nodup receives.distinct, List.length_map,
    Nat.card_Icc] at count
  omega

/-- Trimming keeps the keys of the window and leaves few. -/
theorem trim_window
    (receives : Receives start taken flow)
    (limits : Limits) :
    ∃ held,
      flow.held.trim flow.counter limits = .ok held ∧
        held.Subperm flow.held ∧
        (∀ entry ∈ flow.held,
          flow.counter - limits.skipped ≤ entry.1 → entry ∈ held) ∧
        held.length ≤ limits.mostHeld := by
  obtain ⟨held, trims, subperm⟩ := receives.trim limits
  refine ⟨held, trims, subperm, ?_⟩
  unfold Held.trim at trims
  split_ifs at trims with few
  · obtain rfl := Outcome.ok.inj trims
    exact ⟨fun entry member _ => member,
      (Nat.le_sub_one_of_lt few).trans (Nat.le_max_left _ _)⟩
  · obtain ⟨horizon, isHorizon, trims⟩ := Outcome.bind_eq_ok.mp trims
    obtain ⟨_, rfl⟩ := Outcome.sub_eq_ok.mp isHorizon
    obtain rfl := Outcome.ok.inj trims
    have recent :=
      @Held.trimFrom_recent (flow.counter - limits.skipped) flow.held.length 0
        flow.held (by omega) (by omega)
    constructor
    · intro entry member inWindow
      exact Held.mem_trimFrom inWindow _ _ member
    · exact ((receives.drop subperm).length_le_of_recent recent).trans
        (Nat.le_max_right _ _)

/-- The loop of `keyAt` holds the key of every index the window reaches. -/
theorem walk_window
    {keep index : Nat}
    (indexFits : index < 2 ^ 32)
    (keepFits : index + keep ≤ 2 ^ 32)
    (turns : Nat)
    (receives : Receives start taken flow)
    (ahead : flow.counter < index)
    (enough : index - flow.counter ≤ turns) :
    ∃ walked,
      Flow.walk keep index turns flow = .ok walked ∧
        Receives start taken walked ∧
        walked.counter + 1 = index ∧
        (∀ entry ∈ flow.held, entry ∈ walked.held) ∧
        ∀ passed,
          flow.counter < passed →
          passed < index →
          index ≤ passed + keep →
          (passed, messageKey start passed) ∈ walked.held := by
  induction turns generalizing flow with
  | zero => omega
  | succ turns inductionHypothesis =>
      rw [Flow.walk, Outcome.add_of_lt (by omega), Outcome.ok_bind]
      split_ifs with more
      · rw [Flow.step_chain receives.onChain (by omega), Outcome.ok_bind]
        simp only
        rw [Outcome.add_of_lt (by omega), Outcome.ok_bind]
        split_ifs with reached
        · obtain ⟨walked, walks, walkedReceives, before, kept, window⟩ :=
            inductionHypothesis receives.hold more (by simp only; omega)
          refine ⟨walked, walks, walkedReceives, before, ?_, ?_⟩
          · intro entry member
            exact kept entry (List.mem_append_left _ member)
          · intro passed behind inFront inWindow
            rcases Nat.eq_or_lt_of_le behind with rfl | later
            · exact kept _ (List.mem_append_right _ List.mem_cons_self)
            · exact window passed later inFront inWindow
        · obtain ⟨walked, walks, walkedReceives, before, kept, window⟩ :=
            inductionHypothesis receives.advance more (by simp only; omega)
          refine ⟨walked, walks, walkedReceives, before, kept, ?_⟩
          intro passed behind inFront inWindow
          refine window passed ?_ inFront inWindow
          simp only
          omega
      · refine ⟨flow, rfl, receives, by omega, fun entry member => member, ?_⟩
        intro passed behind inFront _
        omega

end Receives

/-- What a receive of an index does to its flow. -/
structure Yields
    (start : Block 32)
    (taken : Nat → Prop)
    (flow : Flow)
    (index : Nat)
    (key : Block 32)
    (after : Flow) :
    Prop where
  isKey : key = messageKey start index
  notTaken : ¬ taken index
  counter : after.counter = max flow.counter index
  receives : Receives start (fun other => taken other ∨ other = index) after

section Take

variable {start : Block 32} {taken : Nat → Prop} {flow : Flow}
  {index : Nat} {limits : Limits}

omit [Hashes] in
/-- An index that the window has left. -/
theorem take_trimmed
    (fits : index + limits.skipped < 2 ^ 32)
    (left : index + limits.skipped < flow.counter) :
    flow.held.take index flow.counter limits = .error .keyTrimmed := by
  rw [Held.take, Outcome.add_of_lt fits, Outcome.ok_bind, if_pos left]

omit [Hashes] in
/-- An index inside the window whose key is not held. -/
theorem take_absent
    (fits : index + limits.skipped < 2 ^ 32)
    (inside : flow.counter ≤ index + limits.skipped)
    (absent : ∀ entry ∈ flow.held, entry.1 ≠ index) :
    flow.held.take index flow.counter limits = .error .keyAlreadyTaken := by
  have nowhere :
      flow.held.findIdx (fun entry => decide (entry.1 = index)) =
        flow.held.length :=
    List.findIdx_eq_length.mpr fun entry member => by
      simpa using absent entry member
  rw [Held.take, Outcome.add_of_lt fits, Outcome.ok_bind,
    if_neg (Nat.not_lt.mpr inside)]
  simp only
  rw [nowhere, List.getElem?_eq_none (Nat.le_refl _)]

/-- A held key leaves the flow, and the others stay. -/
theorem take_held
    (receives : Receives start taken flow)
    (passed : index < flow.counter)
    (fits : index + limits.skipped < 2 ^ 32)
    (inside : flow.counter ≤ index + limits.skipped)
    (isHeld : ∃ entry ∈ flow.held, entry.1 = index) :
    ∃ key held,
      flow.held.take index flow.counter limits = .ok (key, held) ∧
        Yields start taken flow index key { flow with held := held } ∧
        (∀ entry ∈ flow.held, entry.1 ≠ index → entry ∈ held) ∧
        held.length ≤ flow.held.length := by
  rw [Held.take, Outcome.add_of_lt fits, Outcome.ok_bind,
    if_neg (Nat.not_lt.mpr inside)]
  obtain ⟨wanted, wantedMember, isWanted⟩ := isHeld
  have within :
      flow.held.findIdx (fun entry => decide (entry.1 = index)) <
        flow.held.length :=
    List.findIdx_lt_length.mpr ⟨wanted, wantedMember, by simpa using isWanted⟩
  have named :
      (flow.held[flow.held.findIdx fun entry =>
        decide (entry.1 = index)]).1 = index :=
    of_decide_eq_true (List.findIdx_getElem (w := within))
  generalize flow.held.findIdx (fun entry => decide (entry.1 = index)) = place
    at within named
  have member := List.getElem_mem within
  simp only
  rw [List.getElem?_eq_getElem within]
  have dropped := receives.drop (Held.remove_subperm flow.held place)
  have gone :
      ∀ other ∈ Held.remove flow.held place, other.1 ≠ index := by
    intro other inRemoved same
    have inErased := (Held.remove_perm within).subset inRemoved
    rcases List.mem_eraseIdx_iff_getElem.mp inErased with
      ⟨otherPlace, otherInside, different, isOther⟩
    refine different ?_
    have inIndices : place < (flow.held.map Prod.fst).length := by
      rw [List.length_map]
      exact within
    have otherInIndices : otherPlace < (flow.held.map Prod.fst).length := by
      rw [List.length_map]
      exact otherInside
    have sameIndex :
        (flow.held.map Prod.fst)[otherPlace] =
          (flow.held.map Prod.fst)[place] := by
      rw [List.getElem_map, List.getElem_map, isOther, same, named]
    exact (List.Nodup.getElem_inj_iff receives.distinct).mp sameIndex
  refine ⟨_, _, rfl, ⟨?_, ?_, ?_, ?_⟩, ?_, ?_⟩
  · rw [receives.keys _ member, named]
  · rw [← named]
    exact receives.fresh _ member
  · exact (Nat.max_eq_left (Nat.le_of_lt passed)).symm
  · refine ⟨dropped.onChain, dropped.keys, dropped.positive,
      dropped.passed, dropped.distinct, ?_, ?_⟩
    · rintro other inRemoved (isTaken | same)
      · exact dropped.fresh other inRemoved isTaken
      · exact gone other inRemoved same
    · rintro other (isTaken | rfl)
      · exact dropped.behind other isTaken
      · exact Nat.le_of_lt passed
  · intro entry inHeld different
    apply Held.mem_remove within inHeld
    rintro rfl
    exact different named
  · exact (Held.remove_subperm flow.held place).length_le

/-- A passed index is refused, or its held key leaves the flow. -/
private theorem take_yields
    (receives : Receives start taken flow)
    (passed : index < flow.counter)
    (fits : index + limits.skipped < 2 ^ 32) :
    (∃ fault, flow.held.take index flow.counter limits = .error fault) ∨
      ∃ key held,
        flow.held.take index flow.counter limits = .ok (key, held) ∧
          Yields start taken flow index key { flow with held := held } := by
  by_cases left : index + limits.skipped < flow.counter
  · exact Or.inl ⟨_, take_trimmed fits left⟩
  · have inside := Nat.le_of_not_lt left
    by_cases isHeld : ∃ entry ∈ flow.held, entry.1 = index
    · obtain ⟨key, held, takes, yields, _⟩ :=
        take_held receives passed fits inside isHeld
      exact Or.inr ⟨key, held, takes, yields⟩
    · have absent : ∀ entry ∈ flow.held, entry.1 ≠ index :=
        fun entry member same => isHeld ⟨entry, member, same⟩
      exact Or.inl ⟨_, take_absent fits inside absent⟩

end Take

/--
An index ahead, within the jump limit, has its key on the chain.  What the
window reaches stays held, or is held from now on.
-/
theorem keyAt_ahead_window
    {start : Block 32}
    {taken : Nat → Prop}
    {flow : Flow}
    (receives : Receives start taken flow)
    {index : Nat}
    {limits : Limits}
    (ahead : flow.counter < index)
    (near : index - flow.counter ≤ limits.jump)
    (indexFits : index < 2 ^ 32)
    (keepFits : index + limits.skipped ≤ 2 ^ 32) :
    ∃ after,
      flow.keyAt index limits = .ok (messageKey start index, after) ∧
        after.counter = index ∧
        Receives start (fun other => taken other ∨ other = index) after ∧
        (∀ entry ∈ flow.held,
          index ≤ entry.1 + limits.skipped → entry ∈ after.held) ∧
        (∀ passed,
          flow.counter < passed →
          passed < index →
          index ≤ passed + limits.skipped →
          (passed, messageKey start passed) ∈ after.held) ∧
        after.held.length ≤ limits.mostHeld := by
  unfold Flow.keyAt
  rw [if_pos ahead, if_neg (Nat.not_lt.mpr near)]
  have counterFits : flow.counter + limits.skipped < 2 ^ 32 :=
    Nat.lt_of_lt_of_le (Nat.add_lt_add_right ahead _) keepFits
  simp only [Outcome.add_of_lt counterFits, Outcome.ok_bind]
  generalize isKept :
    (if flow.counter + limits.skipped < index then
      { flow with held := [] } else flow) = kept
  have keptReceives : Receives start taken kept := by
    subst isKept
    split_ifs
    · exact receives.drop (List.nil_subperm)
    · exact receives
  have keptCounter : kept.counter = flow.counter := by
    subst isKept
    split_ifs <;> rfl
  -- Clearing only reaches indices that the window has left.
  have keptHeld :
      ∀ entry ∈ flow.held,
        index ≤ entry.1 + limits.skipped → entry ∈ kept.held := by
    intro entry member inWindow
    have passed := receives.passed entry member
    subst isKept
    rw [if_neg (by omega)]
    exact member
  obtain ⟨walked, walks, walkedReceives, before, walkedHeld, window⟩ :=
    keptReceives.walk_window indexFits keepFits (index - flow.counter)
      (by omega) (by omega)
  obtain ⟨held, trims, subperm, trimmedHeld, few⟩ :=
    walkedReceives.trim_window limits
  have trimmed := walkedReceives.drop subperm
  have steps := Flow.step_chain trimmed.onChain
    (show walked.counter + 1 < 2 ^ 32 by omega)
  have advanced := trimmed.advance
  simp only [walks, Outcome.ok_bind, trims, steps]
  rw [before] at advanced ⊢
  refine ⟨_, rfl, rfl, ?_, ?_, ?_, few⟩
  · refine ⟨advanced.onChain, advanced.keys, advanced.positive,
      advanced.passed, advanced.distinct, ?_, ?_⟩
    · rintro entry member (isTaken | same)
      · exact advanced.fresh entry member isTaken
      · have passed := trimmed.passed entry member
        simp only at passed
        omega
    · rintro other (isTaken | rfl)
      · exact advanced.behind other isTaken
      · exact Nat.le_refl _
  · intro entry member inWindow
    exact trimmedHeld entry
      (walkedHeld entry (keptHeld entry member inWindow)) (by omega)
  · intro passed behind inFront inWindow
    exact trimmedHeld _
      (window passed (by omega) inFront inWindow) (by simp only; omega)

/-- An index ahead yields its key, and it is taken from then on. -/
theorem keyAt_ahead
    {start : Block 32}
    {taken : Nat → Prop}
    {flow : Flow}
    (receives : Receives start taken flow)
    {index : Nat}
    {limits : Limits}
    (ahead : flow.counter < index)
    (near : index - flow.counter ≤ limits.jump)
    (indexFits : index < 2 ^ 32)
    (keepFits : index + limits.skipped ≤ 2 ^ 32) :
    ∃ key after,
      flow.keyAt index limits = .ok (key, after) ∧
        Yields start taken flow index key after := by
  obtain ⟨after, found, counter, afterReceives, _⟩ :=
    keyAt_ahead_window receives ahead near indexFits keepFits
  have notTaken : ¬ taken index := fun isTaken =>
    Nat.not_lt.mpr (receives.behind index isTaken) ahead
  exact ⟨_, after, found, rfl, notTaken, by omega, afterReceives⟩

/-- The key of an index is refused, or it is the one of the chain. -/
theorem keyAt_yields
    {start : Block 32}
    {taken : Nat → Prop}
    {flow : Flow}
    (receives : Receives start taken flow)
    {index : Nat}
    {limits : Limits}
    (indexFits : index + limits.skipped < 2 ^ 32) :
    (∃ fault, flow.keyAt index limits = .error fault) ∨
      ∃ key after,
        flow.keyAt index limits = .ok (key, after) ∧
          Yields start taken flow index key after := by
  by_cases ahead : flow.counter < index
  · by_cases near : index - flow.counter ≤ limits.jump
    · exact Or.inr (keyAt_ahead receives ahead near
        (Nat.lt_of_add_right_lt indexFits) (Nat.le_of_lt indexFits))
    · rw [Flow.keyAt, if_pos ahead, if_pos (Nat.not_le.mp near)]
      exact Or.inl ⟨_, rfl⟩
  · rw [Flow.keyAt, if_neg ahead]
    split_ifs with passed
    · rcases take_yields receives passed indexFits with
        ⟨fault, refused⟩ | ⟨key, held, takes, yields⟩
      · rw [refused]
        exact Or.inl ⟨fault, rfl⟩
      · rw [takes]
        exact Or.inr ⟨key, _, rfl, yields⟩
    · exact Or.inl ⟨_, rfl⟩

end Gossveil.KeyStream
