import Gossveil.EngineOpen
import Gossveil.SkipStore

namespace Gossveil.Ratchet

/-!
# The skipped keys of a receiving lane

A lane that starts at index 0 is its chain key and a store of skipped numbers:
its chain has been advanced as often as the counter says, and each kept number
is a slot with the seed the chain had at that index.
-/

/-! ## The lane a ratchet key names -/

/-- Changing the first match changes what is found. -/
theorem find?_modify_findIdx
    {α : Type}
    {found : α → Bool}
    {change : α → α}
    (same : ∀ item, found (change item) = found item)
    (items : List α) :
    (items.modify (items.findIdx found) change).find? found =
      (items.find? found).map change := by
  induction items with
  | nil =>
      rfl
  | cons first rest inductionHypothesis =>
      by_cases here : found first = true
      · simp [List.findIdx_cons, here, same]
      · simp [List.findIdx_cons, here, inductionHypothesis]

/-- Dropping the last item of a list that has just grown past a limit. -/
theorem dropLast_eq_take_of_full
    {α : Type}
    {limit : Nat}
    {items : List α}
    (almost : items.length ≤ limit + 1) :
    (if limit < items.length then items.dropLast else items) =
      items.take limit := by
  split_ifs with full
  · rw [List.dropLast_eq_take, Nat.le_antisymm almost full]
    rfl
  · exact (List.take_of_length_le (Nat.not_lt.mp full)).symm

namespace State

/-- A change that keeps the ratchet key changes the lane it is found under. -/
theorem receivingLane_changeLane
    {state : State}
    {theirRatchet : Curve.Public}
    (change : Lane → Lane)
    (same : ∀ lane, (change lane).ratchet = lane.ratchet) :
    (state.changeLane theirRatchet change).receivingLane theirRatchet =
      (state.receivingLane theirRatchet).map change := by
  apply find?_modify_findIdx
  intro lane
  rw [same]

@[simp] theorem withSelf_changeLane
    (state : State)
    (theirRatchet : Curve.Public)
    (change : Lane → Lane) :
    (state.changeLane theirRatchet change).withSelf = state.withSelf :=
  rfl

end State

section Derivations

variable [Hashes]

/-! ## Chains and their slots -/

/-- The chain with this key at index 0, at another index. -/
def chainAt (key : Block 32) (index : Nat) : Chain :=
  ⟨Derive.chainNext^[index] key, index⟩

/-- The slot with the seed that chain has at an index. -/
def slotAt (key : Block 32) (index : Nat) : Slot :=
  .seed (Derive.chainSeed (Derive.chainNext^[index] key)) index

@[simp] theorem slot_chainAt (key : Block 32) (index : Nat) :
    (chainAt key index).slot = slotAt key index :=
  rfl

@[simp] theorem index_slotAt (key : Block 32) (index : Nat) :
    (slotAt key index).index = index :=
  rfl

/-- Slots are named by their index. -/
theorem map_index_slotAt (key : Block 32) (numbers : List Nat) :
    (numbers.map (slotAt key)).map Slot.index = numbers := by
  simp [Function.comp_def]

/-- A lane's chain advances by one key. -/
theorem advance_chainAt
    {key : Block 32}
    {index : Nat}
    (fits : index + 1 < 2 ^ 32) :
    (chainAt key index).advance = .ok (chainAt key (index + 1)) := by
  simp [Chain.advance, chainAt, Outcome.add_of_lt fits,
    Function.iterate_succ_apply']

/-- Behind the last index the chain does not advance. -/
theorem advance_chainAt_of_le
    {key : Block 32}
    {index : Nat}
    (full : 2 ^ 32 ≤ index + 1) :
    (chainAt key index).advance = .trap := by
  have past : Outcome.add 32 index 1 = (.trap : Outcome Fault Nat) :=
    Outcome.add_eq_trap.mpr full
  simp only [Chain.advance, chainAt, past]
  rfl

/-! ## Requests on a lane -/

/-- `slotFor` on the chain of the lane a ratchet key names. -/
def slotRequest (theirRatchet : Curve.Public) (index : Nat) :
    Call State Fault Slot := do
  let state ← Call.get
  let lane ←
    (Outcome.unwrap (state.receivingLane theirRatchet) : Outcome Fault Lane)
  slotFor theirRatchet lane.chain index

/-- A lane that started at index 0, as a store of skipped numbers has moved it. -/
def Lane.movedTo (origin : Lane) (store : SkipStore) : Lane :=
  { origin with
    chain := chainAt origin.chain.key store.next
    skipped := store.kept.map (slotAt origin.chain.key) }

/-- How far ahead a request is refused; a session with oneself has no limit. -/
def tooFar (withSelf : Bool) (distance : Nat) : Prop :=
  maxForwardJump < distance ∧ ¬ withSelf

instance (withSelf : Bool) : DecidablePred (tooFar withSelf) :=
  fun distance => inferInstanceAs (Decidable (maxForwardJump < distance ∧ ¬ withSelf))

/-- The state has the lane where the store says. -/
structure Holds
    (withSelf : Bool)
    (origin : Lane)
    (theirRatchet : Curve.Public)
    (state : State)
    (store : SkipStore) :
    Prop where
  withSelf : state.withSelf = withSelf
  lane : state.receivingLane theirRatchet = some (origin.movedTo store)

/-! ## Keeping and taking -/

section Steps

variable {state : State} {lane : Lane} {theirRatchet : Curve.Public}
variable {key : Block 32} {kept : List Nat}

/-- A slot is kept in front, and the last one leaves a full store. -/
theorem keepSkipped_holds
    (index : Nat)
    (found : state.receivingLane theirRatchet = some lane)
    (holds : lane.skipped = kept.map (slotAt key))
    (bounded : kept.length ≤ maxSkippedKeys) :
    ∃ after,
      state.keepSkipped theirRatchet (slotAt key index) = .ok after ∧
        after.withSelf = state.withSelf ∧
        after.receivingLane theirRatchet =
          some { lane with
            skipped :=
              ((index :: kept).take maxSkippedKeys).map (slotAt key) } := by
  have almost :
      (slotAt key index :: lane.skipped).length ≤ maxSkippedKeys + 1 := by
    simpa [holds] using bounded
  have cut := dropLast_eq_take_of_full almost
  refine ⟨state.changeLane theirRatchet fun other =>
      { other with
        skipped := (slotAt key index :: lane.skipped).take maxSkippedKeys },
    ?_, rfl, ?_⟩
  · simp only [State.keepSkipped, found, Outcome.ofOption_some,
      Outcome.ok_bind, Outcome.pure_eq, cut]
  · rw [State.receivingLane_changeLane _ (by intro; rfl), found,
      Option.map_some, holds, ← List.map_cons, List.map_take]

/-- The loop keeps what lies between the chain and the index it stops at. -/
theorem keepUpTo_holds
    {start count : Nat}
    (found : state.receivingLane theirRatchet = some lane)
    (holds : lane.skipped = kept.map (slotAt key))
    (bounded : kept.length ≤ maxSkippedKeys)
    (fits : start + count < 2 ^ 32) :
    ∃ after,
      keepUpTo theirRatchet count (chainAt key start) state =
          (.ok (chainAt key (start + count)), after) ∧
        after.withSelf = state.withSelf ∧
        after.receivingLane theirRatchet =
          some { lane with
            skipped :=
              ((SkipStore.passed start (start + count) ++ kept).take
                maxSkippedKeys).map (slotAt key) } := by
  induction count generalizing state lane kept start with
  | zero =>
      refine ⟨state, rfl, rfl, ?_⟩
      rw [Nat.add_zero, SkipStore.passed_of_le (Nat.le_refl start),
        List.nil_append, List.take_of_length_le bounded, ← holds, found]
  | succ count inductionHypothesis =>
      obtain ⟨between, isKept, self, foundBetween⟩ :=
        keepSkipped_holds start found holds bounded
      have fitsRest : start + 1 + count < 2 ^ 32 := by
        omega
      obtain ⟨after, ran, selfAfter, foundAfter⟩ :=
        inductionHypothesis foundBetween rfl (List.length_take_le _ _) fitsRest
      have sameStop : start + 1 + count = start + (count + 1) :=
        Nat.add_right_comm start 1 count
      refine ⟨after, ?_, selfAfter.trans self, ?_⟩
      · rw [sameStop] at ran
        apply (Call.bind_of_ok (Call.get_apply state)).trans
        apply (Call.bind_of_ok (by
          rw [Call.lift_apply, slot_chainAt, isKept])).trans
        apply (Call.bind_of_ok (Call.set_apply between state)).trans
        apply (Call.bind_of_ok (by
          rw [Call.lift_apply, advance_chainAt (by omega)])).trans
        exact ran
      · rw [sameStop] at foundAfter
        rw [foundAfter, SkipStore.take_append_take,
          @SkipStore.passed_of_lt start (start + (count + 1)) (by omega)]
        simp

/-- A kept slot is taken out; without it there is nothing to take. -/
theorem takeSkipped_holds
    (index : Nat)
    (found : state.receivingLane theirRatchet = some lane)
    (holds : lane.skipped = kept.map (slotAt key)) :
    (index ∉ kept ∧ state.takeSkipped theirRatchet index = none) ∨
      index ∈ kept ∧
        ∃ after,
          state.takeSkipped theirRatchet index =
              some (slotAt key index, after) ∧
            after.withSelf = state.withSelf ∧
            after.receivingLane theirRatchet =
              some { lane with
                skipped := (kept.erase index).map (slotAt key) } := by
  have sameIndex :
      (fun slot : Slot => decide (slot.index = index)) ∘ slotAt key =
        fun number => decide (number = index) :=
    rfl
  have search :
      lane.skipped.find? (fun slot => slot.index = index) =
        (kept.find? fun number => number = index).map (slotAt key) := by
    rw [holds, List.find?_map, sameIndex]
  have removal :
      lane.skipped.eraseP (fun slot => slot.index = index) =
        (kept.erase index).map (slotAt key) := by
    rw [holds, List.eraseP_map, sameIndex, SkipStore.erase_eq_eraseP_decide]
  rcases SkipStore.find?_decide_eq index kept with ⟨missing, none⟩ | ⟨member, some⟩
  · exact .inl ⟨missing, by simp [State.takeSkipped, found, search, none]⟩
  · let taken :=
      state.changeLane theirRatchet fun other =>
        { other with
          skipped := other.skipped.eraseP fun slot => slot.index = index }
    refine .inr ⟨member, taken, ?_, rfl, ?_⟩
    · simp [State.takeSkipped, found, search, some, taken]
    · rw [State.receivingLane_changeLane _ (by intro; rfl), found,
        Option.map_some, removal]

end Steps

/-! ## One request -/

section Requests

variable {withSelf : Bool} {origin : Lane} {theirRatchet : Curve.Public}
variable {state after : State} {store : SkipStore} {index : Nat}
variable {answer : Outcome Fault Slot}

/-- A request on a state is a request on its lane. -/
theorem slotRequest_apply
    (holds : Holds withSelf origin theirRatchet state store) :
    slotRequest theirRatchet index state =
      slotFor theirRatchet (chainAt origin.chain.key store.next) index
        state := by
  apply (Call.bind_of_ok (Call.get_apply state)).trans
  apply (Call.bind_of_ok (by
    rw [Call.lift_apply, holds.lane, Outcome.unwrap_some])).trans
  rfl

/-- A request behind the chain is served from the kept keys, or not at all. -/
theorem slotFor_behind
    (holds : Holds withSelf origin theirRatchet state store)
    (behind : index < store.next) :
    (index ∉ store.kept ∧
        slotFor theirRatchet (chainAt origin.chain.key store.next) index
            state =
          (.error .replay, state)) ∨
      index ∈ store.kept ∧
        ∃ after,
          slotFor theirRatchet (chainAt origin.chain.key store.next) index
              state =
            (.ok (slotAt origin.chain.key index), after) ∧
            Holds withSelf origin theirRatchet after
              { store with kept := store.kept.erase index } := by
  have isBehind : index < (chainAt origin.chain.key store.next).index := behind
  rcases takeSkipped_holds index holds.lane rfl with
    ⟨missing, none⟩ | ⟨member, after, taken, self, lane⟩
  · refine .inl ⟨missing, ?_⟩
    apply (Call.bind_of_ok (Call.get_apply state)).trans
    simp only [if_pos isBehind, none]
    rfl
  · refine .inr ⟨member, after, ?_, self.trans holds.withSelf, lane⟩
    apply (Call.bind_of_ok (Call.get_apply state)).trans
    simp only [if_pos isBehind, taken]
    rfl

/-- A request too far ahead changes nothing. -/
theorem slotFor_far
    (holds : Holds withSelf origin theirRatchet state store)
    (ahead : store.next ≤ index)
    (far : tooFar withSelf (index - store.next)) :
    slotFor theirRatchet (chainAt origin.chain.key store.next) index state =
      (.error .badMessage, state) := by
  have notBehind : ¬ index < (chainAt origin.chain.key store.next).index :=
    Nat.not_lt.mpr ahead
  have refused :
      (Outcome.require Fault.badMessage
          (¬ (maxForwardJump <
              index - (chainAt origin.chain.key store.next).index ∧
            ¬ state.withSelf)) : Outcome Fault Unit) =
        .error .badMessage :=
    Outcome.require_not (by rw [holds.withSelf]; exact not_not.mpr far)
  apply (Call.bind_of_ok (Call.get_apply state)).trans
  simp only [if_neg notBehind]
  apply Call.bind_of_error
  rw [Call.lift_apply, refused]

/-- The walk to an index ahead, and the step after it. -/
theorem slotFor_ahead
    (holds : Holds withSelf origin theirRatchet state store)
    (bounded : store.kept.length ≤ maxSkippedKeys)
    (ahead : store.next ≤ index)
    (near : ¬ tooFar withSelf (index - store.next))
    (fits : index < 2 ^ 32) :
    (2 ^ 32 ≤ index + 1 ∧
        (slotFor theirRatchet (chainAt origin.chain.key store.next) index
          state).1 = .trap) ∨
      ∃ after,
        slotFor theirRatchet (chainAt origin.chain.key store.next) index
            state =
          (.ok (slotAt origin.chain.key index), after) ∧
          Holds withSelf origin theirRatchet after
            ⟨index + 1,
              (SkipStore.passed store.next index ++ store.kept).take
                maxSkippedKeys⟩ := by
  have notBehind : ¬ index < (chainAt origin.chain.key store.next).index :=
    Nat.not_lt.mpr ahead
  have allowed :
      (Outcome.require Fault.badMessage
          (¬ (maxForwardJump <
              index - (chainAt origin.chain.key store.next).index ∧
            ¬ state.withSelf)) : Outcome Fault Unit) =
        .ok () :=
    Outcome.require_of (by rw [holds.withSelf]; exact near)
  have reaches : store.next + (index - store.next) = index :=
    Nat.add_sub_of_le ahead
  obtain ⟨between, kept, sameSelf, lane⟩ :=
    keepUpTo_holds holds.lane rfl bounded (by rwa [reaches])
  rw [reaches] at kept lane
  -- both ways the loop ends on the slot that is asked for
  have walked :
      slotFor theirRatchet (chainAt origin.chain.key store.next) index state =
        (do
          let next ← (chainAt origin.chain.key index).advance
          let state ← Call.get
          let _ ←
            (Outcome.unwrap (state.receivingLane theirRatchet) :
              Outcome Fault Lane)
          Call.set (state.changeLane theirRatchet fun lane =>
            { lane with chain := next })
          return (chainAt origin.chain.key index).slot : Call State Fault Slot)
          between := by
    apply (Call.bind_of_ok (Call.get_apply state)).trans
    simp only [if_neg notBehind]
    apply (Call.bind_of_ok (by rw [Call.lift_apply, allowed])).trans
    exact Call.bind_of_ok kept
  rw [walked]
  by_cases full : 2 ^ 32 ≤ index + 1
  · refine .inl ⟨full, ?_⟩
    rw [Call.bind_of_trap (by
      rw [Call.lift_apply, advance_chainAt_of_le full])]
  · refine .inr ⟨between.changeLane theirRatchet fun lane =>
        { lane with chain := chainAt origin.chain.key (index + 1) },
      ?_, sameSelf.trans holds.withSelf, ?_⟩
    · apply (Call.bind_of_ok (by
        rw [Call.lift_apply, advance_chainAt (Nat.not_le.mp full)])).trans
      apply (Call.bind_of_ok (Call.get_apply between)).trans
      apply (Call.bind_of_ok (by
        rw [Call.lift_apply, lane, Outcome.unwrap_some])).trans
      rfl
    · rw [State.receivingLane_changeLane _ (by intro; rfl), lane]
      rfl

/--
A request does to the lane what it does to the store, but for the last index,
where the chain cannot move on.
-/
theorem slotRequest_cases
    (holds : Holds withSelf origin theirRatchet state store)
    (bounded : store.kept.length ≤ maxSkippedKeys)
    (fits : index < 2 ^ 32)
    (ran : slotRequest theirRatchet index state = (answer, after)) :
    (answer = .trap ∧ 2 ^ 32 ≤ index + 1) ∨
      (∃ refusal fault,
        store.request (tooFar withSelf) maxSkippedKeys index =
            .error refusal ∧
          answer = .error fault ∧ after = state) ∨
      ∃ moved,
        store.request (tooFar withSelf) maxSkippedKeys index = .ok moved ∧
          answer = .ok (slotAt origin.chain.key index) ∧
          Holds withSelf origin theirRatchet after moved := by
  rw [slotRequest_apply holds] at ran
  by_cases behind : index < store.next
  · rcases slotFor_behind holds behind with
      ⟨missing, refused⟩ | ⟨member, moved, answered, holdsAfter⟩
    · obtain ⟨rfl, rfl⟩ := Prod.mk.inj (refused.symm.trans ran)
      exact .inr (.inl ⟨.gone, _,
        by simp [SkipStore.request, behind, missing], rfl, rfl⟩)
    · obtain ⟨rfl, rfl⟩ := Prod.mk.inj (answered.symm.trans ran)
      exact .inr (.inr ⟨_,
        by simp [SkipStore.request, behind, member], rfl, holdsAfter⟩)
  · have ahead := Nat.not_lt.mp behind
    by_cases far : tooFar withSelf (index - store.next)
    · obtain ⟨rfl, rfl⟩ :=
        Prod.mk.inj ((slotFor_far holds ahead far).symm.trans ran)
      exact .inr (.inl ⟨.far, _,
        by simp [SkipStore.request, behind, far], rfl, rfl⟩)
    · rcases slotFor_ahead holds bounded ahead far fits with
        ⟨full, trapped⟩ | ⟨moved, answered, holdsAfter⟩
      · rw [ran] at trapped
        exact .inl ⟨trapped, full⟩
      · obtain ⟨rfl, rfl⟩ := Prod.mk.inj (answered.symm.trans ran)
        exact .inr (.inr ⟨_,
          by simp [SkipStore.request, behind, far], rfl, holdsAfter⟩)

end Requests

/-! ## Runs of requests -/

/-- The requests of a run with their answers, newest first, and its end. -/
inductive LaneRun
    (theirRatchet : Curve.Public)
    (start : State) :
    List (Nat × Outcome Fault Slot) →
    State →
    Prop where
  | start : LaneRun theirRatchet start [] start
  | request
      {log : List (Nat × Outcome Fault Slot)}
      {state after : State}
      {index : Nat}
      {answer : Outcome Fault Slot}
      (before : LaneRun theirRatchet start log state)
      (fits : index < 2 ^ 32)
      (ran : slotRequest theirRatchet index state = (answer, after))
      (noTrap : answer ≠ .trap) :
      LaneRun theirRatchet start ((index, answer) :: log) after

/-- The indices a log has given a slot for. -/
def returned (log : List (Nat × Outcome Fault Slot)) : List Nat :=
  log.filterMap fun
    | (index, .ok _) => some index
    | _ => none

/-- What a lane has kept after a run, where `key` was its chain key at index 0. -/
structure KeepsSkipped
    (key : Block 32)
    (log : List (Nat × Outcome Fault Slot))
    (lane : Lane) :
    Prop where
  chain : lane.chain = chainAt key lane.chain.index
  decreasing : (lane.skipped.map Slot.index).Pairwise (· > ·)
  behind : ∀ slot ∈ lane.skipped, slot.index < lane.chain.index
  bounded : lane.skipped.length ≤ maxSkippedKeys
  seeds : ∀ slot ∈ lane.skipped, slot = slotAt key slot.index
  answers : ∀ index slot, (index, .ok slot) ∈ log → slot = slotAt key index
  once : (returned log).Nodup

/-- What one request does to the lane. -/
structure Served
    (withSelf : Bool)
    (key : Block 32)
    (before after : Lane)
    (index : Nat)
    (answer : Outcome Fault Slot) :
    Prop where
  /-- The seed is returned when it was kept or lies near ahead. -/
  returns :
    index ∈ before.skipped.map Slot.index ∨
        before.chain.index ≤ index ∧
          ¬ tooFar withSelf (index - before.chain.index) →
      answer = .ok (slotAt key index)
  /--
  A slot that was kept or jumped over, and neither stays nor is returned, left
  a full store in which every slot is newer.
  -/
  evicts :
    ∀ number,
      number ∈ before.skipped.map Slot.index ∨
        before.chain.index ≤ number ∧ number < after.chain.index →
      ¬ (number = index ∧ ∃ slot, answer = .ok slot) →
      number ∉ after.skipped.map Slot.index →
      after.skipped.length = maxSkippedKeys ∧
        ∀ slot ∈ after.skipped, number < slot.index

section Runs

variable {withSelf : Bool} {origin : Lane} {theirRatchet : Curve.Public}
variable {start state after : State}
variable {log : List (Nat × Outcome Fault Slot)}

/-- A run on the lane is a run of its store, up to the refused requests. -/
theorem LaneRun.holds
    (fresh : Holds withSelf origin theirRatchet start ⟨0, []⟩)
    (run : LaneRun theirRatchet start log state) :
    ∃ jumped store,
      SkipStore.Run (tooFar withSelf) maxSkippedKeys 0 (returned log) jumped
          store ∧
        Holds withSelf origin theirRatchet state store ∧
        ∀ index slot,
          (index, .ok slot) ∈ log → slot = slotAt origin.chain.key index := by
  induction run with
  | start =>
      exact ⟨[], _, .fresh, fresh, by simp⟩
  | @request log state after index answer before fits ran noTrap
      inductionHypothesis =>
      obtain ⟨jumped, store, storeRun, holds, answers⟩ := inductionHypothesis
      rcases slotRequest_cases holds storeRun.ordered.bounded fits ran with
        ⟨trapped, _⟩ | ⟨_, fault, _, rfl, rfl⟩ |
          ⟨moved, answered, rfl, holdsAfter⟩
      · exact absurd trapped noTrap
      · refine ⟨jumped, store, storeRun, holds, fun other slot given => ?_⟩
        rcases List.mem_cons.mp given with now | earlier
        · cases now
        · exact answers other slot earlier
      · refine ⟨_, moved, storeRun.answer answered, holdsAfter,
          fun other slot given => ?_⟩
        rcases List.mem_cons.mp given with now | earlier
        · cases now
          rfl
        · exact answers other slot earlier

/-- A fresh lane holds a fresh store. -/
theorem Holds.fresh
    (starts : origin.chain.index = 0)
    (empty : origin.skipped = [])
    (found : start.receivingLane theirRatchet = some origin) :
    Holds start.withSelf origin theirRatchet start ⟨0, []⟩ := by
  refine ⟨rfl, found.trans ?_⟩
  rcases origin with ⟨ratchet, secret, ⟨key, index⟩, skipped⟩
  cases starts
  cases empty
  rfl

/-- A run of the store is a run of the lane. -/
theorem keepsSkipped_of_run
    {jumped : List Nat}
    {store : SkipStore}
    (run :
      SkipStore.Run (tooFar withSelf) maxSkippedKeys 0 (returned log) jumped
        store)
    (answers :
      ∀ index slot,
        (index, .ok slot) ∈ log → slot = slotAt origin.chain.key index) :
    KeepsSkipped origin.chain.key log (origin.movedTo store) := by
  have ordered := run.ordered
  have isSlot :
      ∀ slot ∈ (origin.movedTo store).skipped,
        ∃ index ∈ store.kept, slotAt origin.chain.key index = slot :=
    fun slot member => List.mem_map.mp member
  exact
    { chain := rfl
      decreasing := by
        rw [Lane.movedTo, map_index_slotAt]
        exact ordered.decreasing
      behind := by
        intro slot member
        obtain ⟨index, kept, rfl⟩ := isSlot slot member
        exact ordered.behind index kept
      bounded := by
        simpa [Lane.movedTo] using ordered.bounded
      seeds := by
        intro slot member
        obtain ⟨index, _, rfl⟩ := isSlot slot member
        rfl
      answers := answers
      once := run.once }

/-- What the store answers the lane serves. -/
theorem served_of_answered
    {store moved : SkipStore}
    {index : Nat}
    (ordered : store.Ordered maxSkippedKeys)
    (answered :
      store.request (tooFar withSelf) maxSkippedKeys index = .ok moved) :
    Served withSelf origin.chain.key (origin.movedTo store)
      (origin.movedTo moved) index (.ok (slotAt origin.chain.key index)) := by
  refine ⟨fun _ => rfl, fun number held unanswered left => ?_⟩
  have isOther : number ≠ index :=
    fun isIndex => unanswered ⟨isIndex, _, rfl⟩
  rw [Lane.movedTo, map_index_slotAt] at left held
  obtain ⟨full, newer⟩ := ordered.evicted answered held isOther left
  refine ⟨by simpa [Lane.movedTo] using full, fun slot member => ?_⟩
  obtain ⟨other, kept, rfl⟩ := List.mem_map.mp member
  exact newer other kept

/-- What the store refuses the lane does. -/
theorem served_of_refused
    {store : SkipStore}
    {refusal : SkipStore.Refusal}
    {index : Nat}
    {fault : Fault}
    (ordered : store.Ordered maxSkippedKeys)
    (refused :
      store.request (tooFar withSelf) maxSkippedKeys index =
        .error refusal) :
    Served withSelf origin.chain.key (origin.movedTo store)
      (origin.movedTo store) index (.error fault) := by
  constructor
  · intro expected
    rw [Lane.movedTo, map_index_slotAt] at expected
    exact absurd refused (ordered.request_ne_error expected)
  · intro number held _ left
    rcases held with kept | ⟨notBehind, behind⟩
    · exact absurd kept left
    · exact absurd behind (Nat.not_lt.mpr notBehind)

/--
In every run of requests on a lane that starts at index 0, the lane keeps the
seeds of its chain, newest first; a request returns the seed it asks for, at
most once, and drops only the oldest ones of a full store.
-/
theorem lane_keeps_skipped
    (starts : origin.chain.index = 0)
    (empty : origin.skipped = [])
    (found : start.receivingLane theirRatchet = some origin)
    (run : LaneRun theirRatchet start log state) :
    ∃ lane,
      state.receivingLane theirRatchet = some lane ∧
        KeepsSkipped origin.chain.key log lane ∧
        ∀ index answer after,
          index < 2 ^ 32 →
          slotRequest theirRatchet index state = (answer, after) →
          (answer = .trap ∧ 2 ^ 32 ≤ index + 1) ∨
            ∃ laneAfter,
              after.receivingLane theirRatchet = some laneAfter ∧
                Served start.withSelf origin.chain.key lane laneAfter index
                  answer := by
  obtain ⟨jumped, store, storeRun, holds, answers⟩ :=
    run.holds (Holds.fresh starts empty found)
  refine ⟨_, holds.lane, keepsSkipped_of_run storeRun answers, ?_⟩
  intro index answer after fits ran
  rcases slotRequest_cases holds storeRun.ordered.bounded fits ran with
    trapped | ⟨refusal, fault, refused, rfl, rfl⟩ |
      ⟨moved, answered, rfl, holdsAfter⟩
  · exact .inl trapped
  · exact .inr ⟨_, holds.lane, served_of_refused storeRun.ordered refused⟩
  · exact .inr ⟨_, holdsAfter.lane,
      served_of_answered storeRun.ordered answered⟩

end Runs

end Derivations

section Witness

attribute [local instance] Sample.hashes

/-- A lane at index 0. -/
private def idleLane : Lane :=
  ⟨⟨Block.zero 32⟩, none, ⟨Block.zero 32, 0⟩, []⟩

/-- A state with one receiving lane. -/
private def idleState : State :=
  { State.init currentVersion ⟨Block.zero 32⟩ ⟨Block.zero 32⟩ (Block.zero 32)
      [] [] with
    receiving := [idleLane] }

private theorem idleState_skips :
    (slotRequest idleLane.ratchet 2 idleState).1 ≠ .trap := by
  decide

/-- After a request for index 2 the keys of 1 and 0 are kept. -/
theorem lane_keeps_skipped_two :
    ∃ lane,
      (slotRequest idleLane.ratchet 2
            idleState).2.receivingLane idleLane.ratchet =
          some lane ∧
        KeepsSkipped (Block.zero 32)
          [(2, (slotRequest idleLane.ratchet 2 idleState).1)]
          lane := by
  obtain ⟨lane, found, keeps, _⟩ :=
    @lane_keeps_skipped _ idleLane idleLane.ratchet idleState
      (slotRequest idleLane.ratchet 2 idleState).2
      [(2, (slotRequest idleLane.ratchet 2 idleState).1)]
      rfl rfl (by decide)
      (.request .start (by decide) rfl idleState_skips)
  exact ⟨lane, found, keeps⟩

end Witness

end Gossveil.Ratchet
