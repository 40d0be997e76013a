import Gossveil.CircleBounds
import Mathlib.Data.Finset.Card

namespace Gossveil.Circle

/-!
# The member a chain id names

An admission keeps or makes the member of one chain, and an open changes at
most the member of its note's chain.  While there are no more chain ids than
members fit in a circle, no admission drops a member of another chain.
-/

/-! ## Admitting and storing -/

section Members

variable {circle : Circle} {fresh changed old member : Member}
variable {chainId : Nat}

theorem find?_of_find?
    {α : Type}
    {found other : α → Bool}
    {items : List α}
    {item : α}
    (first : items.find? found = some item)
    (also : other item = true) :
    items.find? (fun item => found item && other item) = some item := by
  induction items with
  | nil =>
      cases first
  | cons head rest inductionHypothesis =>
      by_cases here : found head = true
      · obtain rfl : head = item := by
          simpa [here] using first
        simp [here, also]
      · have inRest : rest.find? found = some item := by
          simpa [here] using first
        simp [here, inductionHypothesis inRest]

/-- The member `admit` puts in front: the one that is kept, or the fresh one. -/
def admitted (circle : Circle) (fresh : Member) : Member :=
  (circle.members.find? fun member =>
    member.chainId = fresh.chainId ∧
      member.signing = fresh.signing).getD fresh

/-- The admitted chain comes first, the oldest of six goes. -/
theorem members_admitMember (circle : Circle) (fresh : Member) :
    (circle.admitMember fresh).members =
      circle.admitted fresh ::
        (circle.members.filter fun member =>
          member.chainId ≠ fresh.chainId).take (maxMembers - 1) := by
  simp [admitMember, sift_eq, admitted]

theorem chainId_admitted (circle : Circle) (fresh : Member) :
    (circle.admitted fresh).chainId = fresh.chainId := by
  unfold admitted
  cases search : circle.members.find? fun member =>
      member.chainId = fresh.chainId ∧ member.signing = fresh.signing with
  | none => rfl
  | some kept =>
      have matching := List.find?_some search
      simp only [decide_eq_true_eq] at matching
      exact matching.1

/-- The admitted chain is found. -/
theorem byChain_admitMember (circle : Circle) (fresh : Member) :
    (circle.admitMember fresh).byChain fresh.chainId =
      some (circle.admitted fresh) := by
  rw [byChain, members_admitMember]
  exact List.find?_cons_of_pos (by simp [chainId_admitted])

/-- A member of the chain under the same signing key is kept as it is. -/
theorem byChain_admitMember_known
    (found : circle.byChain fresh.chainId = some member)
    (signing : member.signing = fresh.signing) :
    (circle.admitMember fresh).byChain fresh.chainId = some member := by
  have search :
      (circle.members.find? fun member =>
          member.chainId = fresh.chainId ∧
            member.signing = fresh.signing) =
        some member := by
    simpa using
      @find?_of_find? _ _
        (fun member => decide (member.signing = fresh.signing)) _ _ found
        (by simpa using signing)
  rw [byChain_admitMember, admitted, search]
  rfl

theorem byChain_admitMember_unknown
    (missing : circle.byChain fresh.chainId = none) :
    (circle.admitMember fresh).byChain fresh.chainId = some fresh := by
  have search :
      (circle.members.find? fun member =>
          member.chainId = fresh.chainId ∧
            member.signing = fresh.signing) =
        none := by
    apply List.find?_eq_none.mpr
    intro member inside
    have other := List.find?_eq_none.mp missing member inside
    simp only [decide_eq_true_eq] at other
    simp [other]
  rw [byChain_admitMember, admitted, search]
  rfl

/-- Members of other chains stay unless the list is full. -/
theorem byChain_admitMember_other
    (other : fresh.chainId ≠ chainId)
    (few :
      (circle.members.filter fun member =>
        member.chainId ≠ fresh.chainId).length < maxMembers) :
    (circle.admitMember fresh).byChain chainId = circle.byChain chainId := by
  have front := chainId_admitted circle fresh
  have all :
      (circle.members.filter fun member =>
            member.chainId ≠ fresh.chainId).take (maxMembers - 1) =
        circle.members.filter fun member =>
          member.chainId ≠ fresh.chainId :=
    List.take_of_length_le (Nat.le_pred_of_lt few)
  rw [byChain, members_admitMember, all,
    List.find?_cons_of_neg (by simpa [front] using other), List.find?_filter,
    byChain]
  congr 1
  funext member
  by_cases here : member.chainId = chainId
  · simp [here, other.symm]
  · simp [here]

/-- The member `admitAnnounce` admits. -/
def newcomer (announcement : Announce) : Member :=
  { version := announcement.version
    chainId := announcement.chainId
    link := ⟨announcement.step, announcement.seed⟩
    signing := announcement.signing
    signingSecret := none
    skipped := [] }

/-- An announcement of a chain that is known leaves its member as it is. -/
theorem byChain_admitAnnounce_known
    {announcement : Announce}
    (found : circle.byChain chainId = some member)
    (sameChain : announcement.chainId = chainId)
    (sameSigning : announcement.signing = member.signing) :
    (circle.admitAnnounce announcement).byChain chainId = some member := by
  obtain rfl := sameChain
  exact @byChain_admitMember_known circle (newcomer announcement) member
    found sameSigning.symm

/-- A changed chain is found. -/
theorem byChain_store
    (found : circle.byChain changed.chainId = some old) :
    (circle.store changed).byChain changed.chainId = some changed := by
  obtain ⟨members⟩ := circle
  simp only [byChain, store] at found ⊢
  induction members with
  | nil =>
      cases found
  | cons head rest inductionHypothesis =>
      by_cases here : head.chainId = changed.chainId
      · simp [here]
      · have inRest :
            (rest.find? (·.chainId = changed.chainId)) = some old := by
          simpa [here] using found
        simp [here, inductionHypothesis inRest]

/-- The others are found as before. -/
theorem byChain_store_other (other : changed.chainId ≠ chainId) :
    (circle.store changed).byChain chainId = circle.byChain chainId := by
  obtain ⟨members⟩ := circle
  simp only [byChain, store]
  induction members with
  | nil =>
      rfl
  | cons head rest inductionHypothesis =>
      by_cases here : head.chainId = changed.chainId
      · simp [here, other]
      · by_cases wanted : head.chainId = chainId
        · simp [wanted, other.symm]
        · simp [here, wanted, inductionHypothesis]

end Members

/-- The chain ids of the members are different ones of a set. -/
structure Within (chains : Finset Nat) (circle : Circle) : Prop where
  distinct : circle.members.Pairwise fun first second =>
    first.chainId ≠ second.chainId
  known : ∀ member ∈ circle.members, member.chainId ∈ chains

namespace Within

variable {chains : Finset Nat} {circle : Circle}
variable {fresh changed old : Member}

theorem init (chains : Finset Nat) : Within chains Circle.init :=
  ⟨List.Pairwise.nil, by simp [Circle.init]⟩

/-- Of five chains there are fewer than five beside the admitted one. -/
theorem few
    (within : circle.Within chains)
    (limit : chains.card ≤ maxMembers)
    (member : fresh.chainId ∈ chains) :
    (circle.members.filter fun member =>
      member.chainId ≠ fresh.chainId).length < maxMembers := by
  let others :=
    circle.members.filter fun member => member.chainId ≠ fresh.chainId
  have distinct : (others.map Member.chainId).Nodup :=
    List.pairwise_map.mpr (within.distinct.filter _)
  have among :
      (others.map Member.chainId).toFinset ⊆
        chains.erase fresh.chainId := by
    intro chainId inside
    obtain ⟨other, isOther, rfl⟩ :=
      List.mem_map.mp (List.mem_toFinset.mp inside)
    obtain ⟨inCircle, isElse⟩ := List.mem_filter.mp isOther
    exact Finset.mem_erase.mpr
      ⟨by simpa using isElse, within.known other inCircle⟩
  have counted := Finset.card_le_card among
  rw [List.toFinset_card_of_nodup distinct, List.length_map] at counted
  exact counted.trans_lt
    ((Finset.card_erase_lt_of_mem member).trans_le limit)

/-- Admitting stays among the chains. -/
theorem admitMember
    (within : circle.Within chains)
    (member : fresh.chainId ∈ chains) :
    (circle.admitMember fresh).Within chains := by
  have tail :
      ∀ other ∈
          (circle.members.filter fun member =>
            member.chainId ≠ fresh.chainId).take (maxMembers - 1),
        other ∈ circle.members ∧ other.chainId ≠ fresh.chainId := by
    intro other inside
    simpa using List.mem_filter.mp (List.mem_of_mem_take inside)
  constructor
  · rw [members_admitMember]
    apply List.Pairwise.cons _ (within.distinct.filter _).take
    intro other inside
    rw [chainId_admitted]
    exact (tail other inside).2.symm
  · intro other inside
    rw [members_admitMember] at inside
    rcases List.mem_cons.mp inside with rfl | inTail
    · rwa [chainId_admitted]
    · exact within.known other (tail other inTail).1

/-- Changing a chain stays among the chains. -/
theorem store
    (within : circle.Within chains)
    (found : circle.byChain changed.chainId = some old) :
    (circle.store changed).Within chains := by
  have present : old ∈ circle.members := List.mem_of_find?_eq_some found
  have chain : old.chainId = changed.chainId := by
    simpa using List.find?_some found
  obtain ⟨ids, members⟩ :=
    replaceF_spec within.distinct present chain.symm
  constructor
  · have before := List.pairwise_map.mpr within.distinct
    rw [← ids] at before
    exact List.pairwise_map.mp before
  · intro member inside
    rcases members member inside with rfl | ⟨stays, _⟩
    · rw [← chain]
      exact within.known old present
    · exact within.known member stays

end Within

section Opening

variable [Curves] [Hashes] [Aes]

omit [Curves] [Aes] in
theorem chainId_of_yieldFor
    {member changed : Member}
    {step : Nat}
    {yielded : Yield}
    (drew : yieldFor member step = .ok (yielded, changed)) :
    changed.chainId = member.chainId := by
  unfold yieldFor Member.takeSkipped at drew
  split_ifs at drew with behind far
  · cases search : member.skipped.find? (·.step = step) with
    | none => simp [search] at drew
    | some found =>
        simp only [search, Outcome.ok.injEq, Prod.mk.injEq] at drew
        rw [← drew.2]
  · obtain ⟨⟨passed, reached⟩, _, rest⟩ := Outcome.bind_eq_ok.mp drew
    obtain ⟨link, _, done⟩ := Outcome.bind_eq_ok.mp rest
    obtain ⟨skipped, kept⟩ := foldl_keepSkipped passed member
    simp only [kept, Outcome.pure_eq, Outcome.ok.injEq,
      Prod.mk.injEq] at done
    rw [← done.2]

/-- Opening a note changes at most the member of its chain. -/
theorem open_circle (circle : Circle) (note : Note) :
    (circle.open note).1 = circle ∨
      ∃ old changed,
        circle.byChain note.chainId = some old ∧
          changed.chainId = note.chainId ∧
          (circle.open note).1 = circle.store changed := by
  unfold Circle.open
  cases found : circle.byChain note.chainId with
  | none => exact .inl rfl
  | some member =>
      simp only
      split_ifs
      · exact .inl rfl
      · exact .inl rfl
      · cases drew : yieldFor member note.step with
        | error fault => exact .inl rfl
        | trap => exact .inl rfl
        | ok drawn =>
            have chain : member.chainId = note.chainId := by
              simpa using List.find?_some found
            exact .inr ⟨member, drawn.2, rfl,
              (chainId_of_yieldFor drew).trans chain, rfl⟩

/-- Opening a note leaves the other chains. -/
theorem byChain_open_other
    {circle : Circle}
    {note : Note}
    {chainId : Nat}
    (other : note.chainId ≠ chainId) :
    (circle.open note).1.byChain chainId = circle.byChain chainId := by
  rcases open_circle circle note with same | ⟨_, changed, _, chain, stored⟩
  · rw [same]
  · rw [stored]
    exact byChain_store_other (by rwa [chain])

/-- Opening stays among the chains. -/
theorem Within.open
    {chains : Finset Nat}
    {circle : Circle}
    (within : circle.Within chains)
    (note : Note) :
    (circle.open note).1.Within chains := by
  rcases open_circle circle note with same | ⟨old, changed, found, chain, stored⟩
  · rwa [same]
  · rw [stored]
    apply within.store
    rw [chain, found]

end Opening

end Gossveil.Circle
