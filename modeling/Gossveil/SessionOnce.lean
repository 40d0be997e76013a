import Gossveil.FirstMessages
import Gossveil.SessionReach
import Gossveil.ArchiveStore

namespace Gossveil.Ratchet

/-!
# At most one session for a base key

An archive holds a session when a state under its version and base key is live
or is among the shelved ones.  Operations move states between the two and
advance them, but leave them under their session, so a session is lost to a full
list alone.  While it is held, a first message for it makes no new one.
-/

/-- Advancing a state leaves it under its session. -/
theorem SameSession.isFor
    {before after : State}
    {version : Nat}
    {base : Bytes}
    (same : SameSession before after)
    (isFor : before.IsFor version base) :
    after.IsFor version base :=
  ⟨same.version.trans isFor.1, same.base.trans isFor.2⟩

namespace Archive

/-- A state under a version and a base key is live or shelved. -/
def Holds (archive : Archive) (version : Nat) (base : Bytes) : Prop :=
  (∃ current, archive.current = some current ∧ current.IsFor version base) ∨
    ∃ record ∈ archive.previous, ∃ state,
      State.parse record = .ok state ∧ state.IsFor version base

/-- Every shelved record fits a slice. -/
def Slices (archive : Archive) : Prop :=
  ∀ record ∈ archive.previous, record.length < 2 ^ 64

/-- How many states there are, the live one included. -/
def states (archive : Archive) : Nat :=
  archive.current.toList.length + archive.previous.length

/-- The state that stands at a place. -/
def At (archive : Archive) (state : State) : Place → Prop
  | .live => archive.current = some state
  | .shelved index =>
      ∃ record, archive.previous[index]? = some record ∧
        State.parse record = .ok state

section Holding

variable {archive : Archive} {version : Nat} {base : Bytes}

/-- A live session is held. -/
theorem Holds.live
    {current : State}
    (isCurrent : archive.current = some current)
    (isFor : current.IsFor version base) :
    archive.Holds version base :=
  .inl ⟨current, isCurrent, isFor⟩

/-- What has been shelved is found again. -/
theorem Holds.shelved
    {state : State}
    (recordable : state.Recordable)
    (member : state.serialize ∈ archive.previous)
    (isFor : state.IsFor version base) :
    archive.Holds version base :=
  .inr ⟨state.serialize, member, state, recordable.parse, isFor⟩

/-! ## Shelving -/

/-- The live record stands in front after shelving. -/
theorem serialize_mem_shelve
    {current : State}
    (isCurrent : archive.current = some current) :
    current.serialize ∈ archive.shelve.previous := by
  simp [shelve, isCurrent]

/-- A live state that can be shelved can be recorded. -/
theorem recordable_of_slices
    {current : State}
    (sound : archive.Sound)
    (slices : archive.shelve.Slices)
    (isCurrent : archive.current = some current) :
    current.Recordable :=
  ⟨sound current isCurrent, slices _ (serialize_mem_shelve isCurrent)⟩

/-- The session of the live state is held however full the list is. -/
theorem holds_shelve_of_live
    {current : State}
    (sound : archive.Sound)
    (slices : archive.shelve.Slices)
    (isCurrent : archive.current = some current)
    (isFor : current.IsFor version base) :
    archive.shelve.Holds version base :=
  .shelved (recordable_of_slices sound slices isCurrent)
    (serialize_mem_shelve isCurrent) isFor

/-- With room in the list every session is still held. -/
theorem Holds.shelve
    (holds : archive.Holds version base)
    (sound : archive.Sound)
    (slices : archive.shelve.Slices)
    (room : archive.previous.length < maxPrevious) :
    archive.shelve.Holds version base := by
  rcases holds with ⟨current, isCurrent, isFor⟩ | ⟨record, member, found⟩
  · exact holds_shelve_of_live sound slices isCurrent isFor
  · refine .inr ⟨record, ?_, found⟩
    rw [(shelve_shelves archive).room (.inr room)]
    exact List.mem_append_right _ member

/-- Nothing is live after shelving, so a state made live replaces none. -/
theorem Holds.promote
    (holds : archive.shelve.Holds version base)
    (state : State) :
    (archive.promote state).Holds version base := by
  rcases holds with ⟨current, isCurrent, _⟩ | shelved
  · rw [current_shelve] at isCurrent
    cases isCurrent
  · exact .inr shelved

/-- Shelving makes no new state. -/
theorem length_shelve_le :
    archive.shelve.previous.length ≤ archive.states := by
  unfold Archive.shelve states
  cases archive.current with
  | none => simp
  | some current =>
      simp only [List.length_cons, Option.toList_some, List.length_nil]
      split_ifs
      · rw [List.length_dropLast]
        omega
      · omega

/-- Promoting adds one state at most. -/
theorem states_promote_le (state : State) :
    (archive.promote state).states ≤ archive.states + 1 := by
  have shelved := @length_shelve_le archive
  have promoted :
      (archive.promote state).states = archive.shelve.previous.length + 1 := by
    simp [Archive.promote, states, Nat.add_comm]
  omega

/-! ## Settling -/

/-- A state and its advanced form change places. -/
theorem states_settle_le
    {place : Place}
    {state advanced : State}
    (stands : archive.At state place) :
    (archive.settle place advanced).states ≤ archive.states := by
  cases place with
  | live =>
      have isCurrent : archive.current = some state := stands
      simp [settle, states, isCurrent]
  | shelved index =>
      obtain ⟨record, found, _⟩ := stands
      have inside : index < archive.previous.length :=
        (List.getElem?_eq_some_iff.mp found).1
      have fewer :=
        @states_promote_le
          { archive with previous := archive.previous.eraseIdx index } advanced
      have erased :
          ({ archive with
              previous := archive.previous.eraseIdx index } : Archive).states +
              1 =
            archive.states := by
        simp only [states, ← List.length_eraseIdx_add_one inside]
        omega
      rw [erased] at fewer
      exact fewer

/-- The settled state is live, and the live one is shelved behind nothing. -/
theorem Holds.settle
    {place : Place}
    {state advanced : State}
    (holds : archive.Holds version base)
    (sound : archive.Sound)
    (stands : archive.At state place)
    (same : SameSession state advanced)
    (slices : (archive.settle place advanced).Slices)
    (room : archive.previous.length ≤ maxPrevious) :
    (archive.settle place advanced).Holds version base := by
  cases place with
  | live =>
      rcases holds with ⟨current, isCurrent, isFor⟩ | shelved
      · have isState : archive.current = some state := stands
        rw [isCurrent] at isState
        cases isState
        exact .live rfl (same.isFor isFor)
      · exact .inr shelved
  | shelved index =>
      obtain ⟨record, found, parsed⟩ := stands
      obtain ⟨inside, isRecord⟩ := List.getElem?_eq_some_iff.mp found
      by_cases isFor : state.IsFor version base
      · exact .live rfl (same.isFor isFor)
      · -- the session is another's, which stays where it is or is shelved
        have others :
            ({ archive with
                previous := archive.previous.eraseIdx index } :
              Archive).Holds version base := by
          rcases holds with live | ⟨other, member, held, isHeld, isForHeld⟩
          · exact .inl live
          · refine .inr ⟨other, ?_, held, isHeld, isForHeld⟩
            obtain ⟨position, within, isOther⟩ :=
              List.mem_iff_getElem.mp member
            refine List.mem_eraseIdx_iff_getElem.mpr
              ⟨position, within, ?_, isOther⟩
            rintro rfl
            rw [isOther] at isRecord
            subst isRecord
            rw [isHeld] at parsed
            cases parsed
            exact isFor isForHeld
        refine Holds.promote (others.shelve sound slices ?_) advanced
        have shorter := List.length_eraseIdx_add_one inside
        simp only
        omega

/-- The session of the live state is held wherever the message is opened. -/
theorem holds_settle_of_live
    {place : Place}
    {current state advanced : State}
    (isCurrent : archive.current = some current)
    (isFor : current.IsFor version base)
    (sound : archive.Sound)
    (stands : archive.At state place)
    (same : SameSession state advanced)
    (slices : (archive.settle place advanced).Slices) :
    (archive.settle place advanced).Holds version base := by
  cases place with
  | live =>
      have isState : archive.current = some state := stands
      rw [isCurrent] at isState
      cases isState
      exact .live rfl (same.isFor isFor)
  | shelved index =>
      have shelved :=
        @holds_shelve_of_live
          { archive with previous := archive.previous.eraseIdx index }
          version base current sound slices isCurrent isFor
      exact shelved.promote advanced

end Holding

/-! ## What one step does -/

/-- Nothing changes, or one state is advanced and settled. -/
def Moved (before after : Archive) : Prop :=
  after = before ∨
    ∃ place state advanced,
      before.At state place ∧ SameSession state advanced ∧
        after = before.settle place advanced

section Moving

variable {before after : Archive} {version : Nat} {base : Bytes}

/-- States that only move keep the session held. -/
theorem Moved.holds
    (moved : before.Moved after)
    (holds : before.Holds version base)
    (sound : before.Sound)
    (slices : after.Slices)
    (room : before.previous.length ≤ maxPrevious) :
    after.Holds version base := by
  rcases moved with rfl | ⟨place, state, advanced, stands, same, rfl⟩
  · exact holds
  · exact holds.settle sound stands same slices room

/-- Moving makes no new state. -/
theorem Moved.states_le (moved : before.Moved after) :
    after.states ≤ before.states := by
  rcases moved with rfl | ⟨place, state, advanced, stands, _, rfl⟩
  · exact Nat.le_refl _
  · exact states_settle_le stands

/-- The list grows by the live state's record alone. -/
theorem length_promote_le
    {archive : Archive}
    (state : State) :
    (archive.promote state).previous.length ≤
      archive.previous.length + 1 := by
  change archive.shelve.previous.length ≤ _
  unfold Archive.shelve
  cases archive.current with
  | none => simp
  | some current =>
      simp only [List.length_cons]
      split_ifs
      · rw [List.length_dropLast]
        omega
      · omega

/-- Moving shelves no more than there were. -/
theorem Moved.length_le (moved : before.Moved after) :
    after.previous.length ≤ before.previous.length := by
  rcases moved with rfl | ⟨place, state, advanced, stands, _, rfl⟩
  · exact Nat.le_refl _
  · cases place with
    | live => exact Nat.le_refl _
    | shelved index =>
        obtain ⟨record, found, _⟩ := stands
        have inside : index < before.previous.length :=
          (List.getElem?_eq_some_iff.mp found).1
        have grown :=
          @length_promote_le
            { before with previous := before.previous.eraseIdx index }
            advanced
        rw [List.length_eraseIdx_add_one inside] at grown
        exact grown

end Moving

/-! ## Reviving -/

/-- A state that is found becomes live in exchange for the live one. -/
theorem reviveFrom_true
    {archive after : Archive}
    {version index : Nat}
    {base : Bytes}
    {records : List Bytes}
    (split : archive.previous.drop index = records)
    (found :
      archive.reviveFrom version base index records = .ok (true, after)) :
    ∃ place state,
      archive.At state place ∧ state.IsFor version base ∧
        after = archive.settle place state := by
  induction records generalizing index with
  | nil => cases found
  | cons record rest inductionHypothesis =>
      have restSplit : archive.previous.drop (index + 1) = rest := by
        rw [← List.drop_drop, split, List.drop_one, List.tail_cons]
      have here : archive.previous[index]? = some record := by
        rw [← List.head?_drop, split, List.head?_cons]
      rw [reviveFrom] at found
      rcases parsed : State.parse record with state | fault | _ <;>
        simp only [parsed] at found
      · split_ifs at found with isFor
        · cases found
          exact ⟨.shelved index, state, ⟨record, here, parsed⟩, isFor, rfl⟩
        · exact inductionHypothesis restSplit found
      · exact inductionHypothesis restSplit found
      · cases found

/-- A revived session is the live one, and only moved. -/
theorem revive_true
    {archive after : Archive}
    {version : Nat}
    {base : Bytes}
    (found : archive.revive version base = .ok (true, after)) :
    archive.Moved after ∧
      ∃ current, after.current = some current ∧
        current.IsFor version base := by
  unfold revive at found
  split_ifs at found with isLive
  · cases found
    obtain ⟨current, isCurrent, isFor⟩ := isLive
    exact ⟨.inl rfl, current, isCurrent, isFor⟩
  · obtain ⟨place, state, stands, isFor, rfl⟩ :=
      reviveFrom_true List.drop_zero found
    exact ⟨.inr ⟨place, state, state, stands, .refl state, rfl⟩, state,
      current_settle archive place state, isFor⟩

/-- A state that is not found is not held. -/
theorem reviveFrom_missed
    {archive after : Archive}
    {version index : Nat}
    {base : Bytes}
    {records : List Bytes}
    (missed :
      archive.reviveFrom version base index records = .ok (false, after)) :
    ¬ ∃ record ∈ records, ∃ state,
      State.parse record = .ok state ∧ state.IsFor version base := by
  induction records generalizing index with
  | nil => simp
  | cons record rest inductionHypothesis =>
      rw [reviveFrom] at missed
      rintro ⟨other, member, state, isState, isFor⟩
      rcases parsed : State.parse record with found | fault | _ <;>
        simp only [parsed] at missed
      · split_ifs at missed with isOther
        · cases missed
        · rcases List.mem_cons.mp member with rfl | later
          · rw [isState] at parsed
            cases parsed
            exact isOther isFor
          · exact inductionHypothesis missed
              ⟨other, later, state, isState, isFor⟩
      · rcases List.mem_cons.mp member with rfl | later
        · rw [isState] at parsed
          cases parsed
        · exact inductionHypothesis missed
            ⟨other, later, state, isState, isFor⟩
      · cases missed

/-- Where nothing is revived no such session is held. -/
theorem revive_missed
    {archive after : Archive}
    {version : Nat}
    {base : Bytes}
    (missed : archive.revive version base = .ok (false, after)) :
    ¬ archive.Holds version base := by
  unfold revive at missed
  split_ifs at missed with isLive
  · cases missed
  · rintro (live | shelved)
    · exact isLive live
    · exact reviveFrom_missed missed shelved

/-- While a session is held it is found, unless a record traps the parser. -/
theorem Holds.revived
    {archive : Archive}
    {version : Nat}
    {base : Bytes}
    (holds : archive.Holds version base) :
    archive.revive version base = .trap ∨
      ∃ after, archive.revive version base = .ok (true, after) := by
  rcases revived : archive.revive version base with
    ⟨found, after⟩ | fault | _
  · cases found with
    | true => exact .inr ⟨after, rfl⟩
    | false => exact absurd holds (revive_missed revived)
  · unfold revive at revived
    split_ifs at revived
    exact absurd revived (reviveFrom_ne_error _ _ _ _ _ _)
  · exact .inl rfl

end Archive

/-! ## The operations -/

/-- A candidate is the state at its place. -/
theorem candidatesFrom_at
    {archive : Archive}
    {place : Place}
    {state : State}
    {earlier later : List (Place × State)}
    (split :
      archive.candidates = earlier ++ (place, state) :: later) :
    archive.At state place := by
  rw [Archive.candidates] at split
  have shelvedAt :
      ∀ {earlier later : List (Place × State)},
        candidatesFrom 0 archive.previous =
            earlier ++ (place, state) :: later →
          archive.At state place := by
    intro earlier later shelved
    obtain ⟨front, record, back, records, rfl, parsed, _⟩ :=
      candidatesFrom_split shelved
    exact ⟨record, by simp [records], parsed⟩
  cases isCurrent : archive.current with
  | none =>
      simp only [isCurrent, Option.map_none, Option.toList_none,
        List.nil_append] at split
      exact shelvedAt split
  | some current =>
      simp only [isCurrent, Option.map_some, Option.toList_some,
        List.singleton_append] at split
      cases earlier with
      | nil =>
          simp only [List.nil_append, List.cons.injEq, Prod.mk.injEq] at split
          obtain ⟨⟨rfl, rfl⟩, _⟩ := split
          exact isCurrent
      | cons head tail =>
          simp only [List.cons_append, List.cons.injEq] at split
          exact shelvedAt split.2

section Operations

variable [Hashes] [Curves] [Aes] [Kem]

/-- An opening that succeeds settles the state that opened the message. -/
theorem openWithArchive_settles
    {draws : Nat → Block 32}
    {message : Whisper}
    {binding : Option Binding}
    {before after : Archive}
    {plain : Bytes}
    (opened :
      openWithArchive draws message binding before = (.ok plain, after)) :
    ∃ place state advanced,
      before.At state place ∧ SameSession state advanced ∧
        after = before.settle place advanced := by
  obtain ⟨place, state, advanced, _, isFirst, rfl⟩ :=
    openWithArchive_ok opened
  obtain ⟨earlier, later, split, _⟩ := isFirst.first
  exact ⟨place, state, advanced, candidatesFrom_at split,
    openWithState_same isFirst.opens, rfl⟩

/-- Opening a message moves the state that opens it to the front. -/
theorem openWithArchive_moved
    {draws : Nat → Block 32}
    {message : Whisper}
    {binding : Option Binding}
    {before after : Archive}
    {result : Outcome Fault Bytes}
    (ran : openWithArchive draws message binding before = (result, after))
    (noTrap : result ≠ .trap) :
    before.Moved after := by
  rcases result with plain | fault | _
  · exact .inr (openWithArchive_settles ran)
  · exact .inl (openWithArchive_error ran)
  · exact absurd rfl noTrap

omit [Curves] in
/-- Sealing stays in its session. -/
theorem sealWithState_keeps
    (before : State)
    (plain : Bytes)
    (nowSecs : Nat)
    (binding : Option Binding)
    (draw : Braid.Draw) :
    Call.Keeps (SameSession before)
      (sealWithState plain nowSecs binding draw) := by
  unfold sealWithState
  apply Call.Keeps.bind Call.Keeps.get
  intro _
  apply Call.Keeps.bind (Call.Keeps.lift _)
  intro _
  apply Call.Keeps.bind (Call.Keeps.lift _)
  intro _
  apply Call.Keeps.bind (Call.Keeps.lift _)
  intro chain
  apply Call.Keeps.bind (Call.Keeps.lift _)
  intro sent
  apply Call.Keeps.bind (Call.Keeps.modify fun _ same => { same with })
  intro _
  apply Call.Triple.readAny
  intro state same
  apply Call.Keeps.bind (Call.Keeps.lift _)
  intro pair
  apply Call.Keeps.bind (Call.Keeps.lift _)
  intro version
  apply Call.Keeps.bind (Call.Keeps.lift _)
  intro inner
  apply Call.Triple.lift_bind fun _ => id
  intro next _
  apply Call.Triple.lift_bind fun _ => id
  intro advanced isAdvanced
  have advancedSame : SameSession before advanced := by
    obtain ⟨_, _, done⟩ :=
      Outcome.bind_eq_ok.mp (Outcome.mapError_eq_ok.mp isAdvanced)
    cases done
    exact { same with }
  apply Call.Triple.set_bind advancedSame
  cases advanced.pending with
  | none => exact Call.Keeps.pure _
  | some pending =>
      apply Call.Keeps.bind (Call.Keeps.lift _)
      intro capsule
      apply Call.Keeps.bind (Call.Keeps.lift _)
      intro wrapped
      exact Call.Keeps.pure _

omit [Curves] in
/-- Sealing advances the live state where it stands. -/
theorem seal_moved
    {plain : Bytes}
    {nowSecs : Nat}
    {binding : Option Binding}
    {draw : Braid.Draw}
    {before after : Archive}
    {result : Outcome EngineError Sealed}
    (ran : before.seal plain nowSecs binding draw = (result, after))
    (noTrap : result ≠ .trap) :
    before.Moved after := by
  unfold Archive.seal at ran
  cases isCurrent : before.current with
  | none =>
      simp only [isCurrent] at ran
      cases ran
      exact .inl rfl
  | some current =>
      simp only [isCurrent] at ran
      rcases sealing : sealWithState plain nowSecs binding draw current with
        ⟨outcome, advanced⟩
      rw [sealing] at ran
      obtain ⟨rfl, rfl⟩ := Prod.mk.inj ran
      have same : SameSession current advanced :=
        (sealWithState_keeps current plain nowSecs binding draw).ends
          (.refl current) sealing noTrap
      exact .inr ⟨.live, current, advanced, isCurrent, same, rfl⟩

variable [Capsules]

omit [Aes] [Kem] in
/-- A start makes a new state live, or nothing changes. -/
theorem start_promotes
    {draws : StartDraws}
    {us : IdentityPair}
    {ourRegistrationId nowSecs : Nat}
    {published : Bundle.Published}
    {before after : Archive}
    {result : Outcome EngineError Unit}
    (ran :
      start draws us ourRegistrationId published nowSecs before =
        (result, after))
    (noTrap : result ≠ .trap) :
    after = before ∨ ∃ state, after = before.promote state := by
  have stays :
      Call.Triple (fun archive => archive = before)
        (start draws us ourRegistrationId published nowSecs)
        (fun _ archive => ∃ state, archive = before.promote state)
        (fun archive => archive = before) := by
    unfold start
    iterate 4
      apply Call.Triple.lift_bind fun _ => id
      intro _ _
    apply Call.Triple.lift_bind fun _ => id
    intro state _
    apply Call.Triple.lift_bind fun _ => id
    intro capsule _
    apply Call.Triple.modify
    rintro _ rfl
    exact ⟨_, rfl⟩
  have ends := stays before rfl
  rcases result with value | error | _
  · exact .inr (ends.1 value after ran)
  · exact .inl (ends.2 error after ran)
  · exact absurd rfl noTrap

/-! ## First messages -/

section FirstMessages

omit [Hashes] [Curves] [Aes] [Kem] [Capsules] in
/-- The responder answers the base key of the message. -/
theorem responderOf_base
    {us : IdentityPair}
    {first : Opener}
    {offered : Offered}
    {parts : Handshake.Responder}
    {pqId : Nat}
    (named : responderOf us first offered = .ok (parts, pqId)) :
    parts.theirBase = first.base := by
  simp only [responderOf, Outcome.bind_eq_ok] at named
  obtain ⟨_, _, _, _, rest⟩ := named
  cases isId : first.oneTimeId with
  | none =>
      simp only [isId, Outcome.bind_eq_ok, Outcome.pure_eq] at rest
      obtain ⟨_, _, _, _, _, _, _, _, _, _, done⟩ := rest
      cases done
      rfl
  | some id =>
      simp only [isId, Outcome.bind_eq_ok, Outcome.pure_eq] at rest
      obtain ⟨_, _, _, _, _, _, _, _, _, _, _, _, _, _, done⟩ := rest
      cases done
      rfl

variable
  {us : IdentityPair}
  {ourRegistrationId : Nat}
  {first : Opener}
  {offered : Offered}
  {before : Archive}

omit [Aes] [Kem] in
/-- A handshake makes a state of the newest version. -/
theorem newSession_isFor
    {state : State}
    {consumed : Consumed}
    (made :
      newSession us ourRegistrationId first offered = .ok (state, consumed)) :
    state.IsFor currentVersion first.base.serialize := by
  unfold newSession at made
  rcases named : responderOf us first offered with
    ⟨parts, pqId⟩ | fault | _ <;> simp only [named] at made
  · have base : parts.theirBase = first.base := responderOf_base named
    obtain ⟨answered, _, made⟩ := Outcome.bind_eq_ok.mp made
    obtain ⟨pqState, _, made⟩ := Outcome.bind_eq_ok.mp made
    cases made
    exact ⟨rfl, congrArg Curve.Public.serialize base⟩
  · cases made
  · cases made

omit [Aes] [Kem] in
/-- What taking the session in does to the archive. -/
theorem sessionFor_taken
    {result : Outcome EngineError (Option Consumed)}
    {taken : Archive}
    (ran :
      sessionFor us ourRegistrationId first offered before = (result, taken))
    (noTrap : result ≠ .trap) :
    before.Moved taken ∨ ∃ state, taken = before.promote state := by
  rw [sessionFor_eq] at ran
  rcases revived : before.revive first.version first.base.serialize with
    ⟨_ | _, after⟩ | fault | _ <;> simp only [revived] at ran
  · obtain rfl := Archive.revive_false revived
    rcases made : newSession us ourRegistrationId first offered with
      ⟨state, consumed⟩ | error | _ <;> simp only [made] at ran
    · cases ran
      exact .inr ⟨state, rfl⟩
    · cases ran
      exact .inl (.inl rfl)
    · cases ran
      exact absurd rfl noTrap
  · cases ran
    exact .inl (Archive.revive_true revived).1
  · cases ran
    exact .inl (.inl rfl)
  · cases ran
    exact absurd rfl noTrap

/-- An opening of a first message takes its session in and opens with it. -/
theorem openFirst_moved
    {draws : Nat → Block 32}
    {binding : Option Binding}
    {after : Archive}
    {result : Outcome EngineError Opened}
    (ran :
      openFirst draws us ourRegistrationId first offered binding before =
        (result, after))
    (noTrap : result ≠ .trap) :
    ∃ outcome taken,
      sessionFor us ourRegistrationId first offered before =
          (outcome, taken) ∧
        outcome ≠ .trap ∧ taken.Moved after := by
  rcases takes : sessionFor us ourRegistrationId first offered before with
    ⟨consumed | error | _, taken⟩
  · refine ⟨_, taken, rfl, by simp, ?_⟩
    rw [openFirst_taken takes] at ran
    rcases parsed : Whisper.parse first.inner with inner | fault | _ <;>
      simp only [parsed] at ran
    · rcases opened : openWithArchive draws inner binding taken with
        ⟨outcome, final⟩
      rw [opened] at ran
      obtain ⟨rfl, rfl⟩ := Prod.mk.inj ran
      refine openWithArchive_moved opened ?_
      rintro rfl
      exact noTrap rfl
    · cases ran
      exact .inl rfl
    · cases ran
      exact absurd rfl noTrap
  · refine ⟨_, taken, rfl, by simp, ?_⟩
    unfold openFirst at ran
    rw [Call.bind_of_error takes] at ran
    cases ran
    exact .inl rfl
  · unfold openFirst at ran
    rw [Call.bind_of_trap takes] at ran
    cases ran
    exact absurd rfl noTrap

end FirstMessages

/-! ## Runs -/

/--
An operation on an archive, in memory or on its record.  It ends with a result
or with an error; the archive it leaves, and the one between the two parts of an
opened first message, hold records that fit slices.
-/
inductive Operates : Archive → Archive → Prop
  | starts
      {before after : Archive}
      {result : Outcome EngineError Unit}
      (draws : StartDraws)
      (us : IdentityPair)
      {ourRegistrationId nowSecs : Nat}
      {published : Bundle.Published} :
      ourRegistrationId < 2 ^ 32 →
      published.Fits →
      nowSecs < 2 ^ 64 →
      start draws us ourRegistrationId published nowSecs before =
        (result, after) →
      result ≠ .trap →
      after.Slices →
      Operates before after
  | seals
      {before after : Archive}
      {result : Outcome EngineError Sealed}
      (plain : Bytes)
      (nowSecs : Nat)
      (binding : Option Binding)
      (draw : Braid.Draw) :
      before.seal plain nowSecs binding draw = (result, after) →
      result ≠ .trap →
      after.Slices →
      Operates before after
  | opensWhisper
      {before after : Archive}
      {result : Outcome Fault Bytes}
      (draws : Nat → Block 32)
      (message : Whisper)
      (binding : Option Binding) :
      openWhisper draws message binding before = (result, after) →
      result ≠ .trap →
      after.Slices →
      Operates before after
  | opensFirst
      {before after : Archive}
      {result : Outcome EngineError Opened}
      (draws : Nat → Block 32)
      (us : IdentityPair)
      {ourRegistrationId : Nat}
      {first : Opener}
      {offered : Offered}
      (binding : Option Binding) :
      ourRegistrationId < 2 ^ 32 →
      first.registrationId < 2 ^ 32 →
      offered.Clamped →
      openFirst draws us ourRegistrationId first offered binding before =
        (result, after) →
      result ≠ .trap →
      (sessionFor us ourRegistrationId first offered before).2.Slices →
      after.Slices →
      Operates before after
  | shelves
      {before : Archive} :
      before.shelve.Slices →
      Operates before before.shelve
  | reloads
      {before after : Archive} :
      before.serialize.length < 2 ^ 64 →
      Archive.parse before.serialize = .ok after →
      Operates before after

section Kept

variable {before after : Archive} {version : Nat} {base : Bytes}

omit [Hashes] [Curves] [Aes] [Kem] [Capsules] in
/-- A shelved archive is sound. -/
theorem Archive.sound_shelve : before.shelve.Sound := by
  intro current isCurrent
  rw [Archive.current_shelve] at isCurrent
  cases isCurrent

/-- Every operation keeps an archive sound. -/
theorem Operates.sound
    (operates : Operates before after)
    (sound : before.Sound) :
    after.Sound := by
  cases operates with
  | starts draws us ours theirs now ran noTrap _ =>
      exact (start_sound draws ours theirs now).ends sound ran noTrap
  | seals plain nowSecs binding draw ran noTrap _ =>
      exact (seal_sound plain nowSecs binding draw).ends sound ran noTrap
  | opensWhisper draws message binding ran noTrap _ =>
      exact (openWithArchive_sound draws message binding).ends sound ran noTrap
  | opensFirst draws us binding ours theirs clamped ran noTrap _ _ =>
      exact (openFirst_sound draws binding clamped ours theirs).ends sound ran
        noTrap
  | shelves _ => exact Archive.sound_shelve
  | reloads _ parsed => exact Archive.parse_sound parsed

/-- With room for two more records no operation loses a session. -/
theorem Operates.holds
    (operates : Operates before after)
    (sound : before.Sound)
    (holds : before.Holds version base)
    (room : before.previous.length + 1 < maxPrevious) :
    after.Holds version base := by
  have below : before.previous.length < maxPrevious := by omega
  cases operates with
  | starts draws us _ _ _ ran noTrap slices =>
      rcases start_promotes ran noTrap with rfl | ⟨state, rfl⟩
      · exact holds
      · exact (holds.shelve sound slices below).promote state
  | seals plain nowSecs binding draw ran noTrap slices =>
      exact (seal_moved ran noTrap).holds holds sound slices
        (Nat.le_of_lt below)
  | opensWhisper draws message binding ran noTrap slices =>
      exact (openWithArchive_moved ran noTrap).holds holds sound slices
        (Nat.le_of_lt below)
  | opensFirst draws us binding ours theirs clamped ran noTrap between slices =>
      obtain ⟨outcome, taken, takes, taking, moved⟩ :=
        openFirst_moved ran noTrap
      rw [takes] at between
      have takenSound : taken.Sound :=
        (sessionFor_sound clamped ours theirs).ends sound takes taking
      rcases sessionFor_taken takes taking with revived | ⟨state, rfl⟩
      · have shorter := revived.length_le
        exact moved.holds
          (revived.holds holds sound between (Nat.le_of_lt below)) takenSound
          slices (by omega)
      · have grown := @Archive.length_promote_le before state
        exact moved.holds ((holds.shelve sound between below).promote state)
          takenSound slices (by omega)
  | shelves slices => exact holds.shelve sound slices below
  | reloads short parsed =>
      rw [Archive.parse_serialize sound short] at parsed
      cases parsed
      exact holds

/--
A run of operations that keeps a session.  Only where the list has no room for
two more records does an operation have to be said to keep it.
-/
inductive Later (version : Nat) (base : Bytes) : Archive → Archive → Prop
  | same (archive : Archive) : Later version base archive archive
  | next
      {first before after : Archive}
      (run : Later version base first before)
      (operates : Operates before after)
      (kept :
        maxPrevious ≤ before.previous.length + 1 →
          after.Holds version base) :
      Later version base first after

/-- A held session is held through a whole run with room. -/
theorem Later.holds
    {first later : Archive}
    (run : Later version base first later)
    (sound : first.Sound)
    (holds : first.Holds version base) :
    later.Sound ∧ later.Holds version base := by
  induction run with
  | same => exact ⟨sound, holds⟩
  | @next before after _ operates kept inductionHypothesis =>
      obtain ⟨beforeSound, beforeHolds⟩ := inductionHypothesis
      refine ⟨operates.sound beforeSound, ?_⟩
      by_cases room : before.previous.length + 1 < maxPrevious
      · exact operates.holds beforeSound beforeHolds room
      · exact kept (Nat.not_lt.mp room)

end Kept

/-! ## At most one session -/

section Once

variable
  {us : IdentityPair}
  {ourRegistrationId : Nat}
  {first : Opener}
  {offered : Offered}
  {archive : Archive}

/-- Where a first message asks for a session that a handshake would make. -/
theorem openFirst_holds
    {draws : Nat → Block 32}
    {binding : Option Binding}
    {settled : Archive}
    {opened : Opened}
    (sound : archive.Sound)
    (ours : ourRegistrationId < 2 ^ 32)
    (theirs : first.registrationId < 2 ^ 32)
    (clamped : offered.Clamped)
    (opens :
      openFirst draws us ourRegistrationId first offered binding archive =
        (.ok opened, settled))
    (slices : settled.Slices)
    (told :
      first.version = currentVersion ∨
        archive.Holds first.version first.base.serialize) :
    settled.Holds first.version first.base.serialize := by
  obtain ⟨taken, message, takes, _, inner⟩ := openFirst_eq_ok opens
  have takenSound : taken.Sound :=
    (sessionFor_sound clamped ours theirs).ends sound takes (by simp)
  have live : ∃ current, taken.current = some current ∧
      current.IsFor first.version first.base.serialize := by
    rw [sessionFor_eq] at takes
    rcases revived :
        archive.revive first.version first.base.serialize with
      ⟨_ | _, after⟩ | fault | _ <;> simp only [revived] at takes
    · rcases made : newSession us ourRegistrationId first offered with
        ⟨state, consumed⟩ | error | _ <;> simp only [made] at takes
      · have newest : first.version = currentVersion :=
          told.resolve_right (Archive.revive_missed revived)
        obtain ⟨_, rfl⟩ := Prod.mk.inj takes
        rw [newest]
        exact ⟨state, rfl, newSession_isFor made⟩
      · cases takes
      · cases takes
    · obtain ⟨_, rfl⟩ := Prod.mk.inj takes
      exact (Archive.revive_true revived).2
    · cases takes
    · cases takes
  obtain ⟨current, isCurrent, isFor⟩ := live
  obtain ⟨place, state, advanced, stands, same, rfl⟩ :=
    openWithArchive_settles inner
  exact Archive.holds_settle_of_live isCurrent isFor takenSound stands same
    slices

omit [Aes] [Kem] in
/-- While its session is held a first message finds it, whatever is offered. -/
theorem sessionFor_held
    (holds : archive.Holds first.version first.base.serialize) :
    (∃ taken, taken.states ≤ archive.states ∧
        ∀ us ourRegistrationId offered,
          sessionFor us ourRegistrationId first offered archive =
            (.ok none, taken)) ∨
      ∀ us ourRegistrationId offered,
        sessionFor us ourRegistrationId first offered archive =
          (.trap, archive) := by
  rcases holds.revived with trapped | ⟨taken, revived⟩
  · refine .inr fun us ourRegistrationId offered => ?_
    rw [sessionFor_eq, trapped]
  · refine .inl ⟨taken, (Archive.revive_true revived).1.states_le,
      fun us ourRegistrationId offered => ?_⟩
    rw [sessionFor_eq, revived]

/--
Once a first message of the newest version has been opened, or one whose session
was there, no later first message under its version and base key makes a
session: none of the offered records is asked for, none is consumed, and the
archive has no more states than before.
-/
theorem openFirst_once
    {draws : Nat → Block 32}
    {binding : Option Binding}
    {settled later : Archive}
    {opened : Opened}
    (sound : archive.Sound)
    (ours : ourRegistrationId < 2 ^ 32)
    (theirs : first.registrationId < 2 ^ 32)
    (clamped : offered.Clamped)
    (opens :
      openFirst draws us ourRegistrationId first offered binding archive =
        (.ok opened, settled))
    (slices : settled.Slices)
    (told :
      first.version = currentVersion ∨
        archive.Holds first.version first.base.serialize)
    (run : Later first.version first.base.serialize settled later)
    {again : Opener}
    (sameVersion : again.version = first.version)
    (sameBase : again.base = first.base) :
    ((∃ taken, ∀ us ourRegistrationId offered,
        sessionFor us ourRegistrationId again offered later =
          (.ok none, taken)) ∨
      ∀ us ourRegistrationId offered,
        sessionFor us ourRegistrationId again offered later =
          (.trap, later)) ∧
      ∀ draws us ourRegistrationId offered binding result final,
        openFirst draws us ourRegistrationId again offered binding later =
            (result, final) →
          result ≠ .trap →
            final.states ≤ later.states ∧
              ∀ again, result = .ok again → again.consumed = none := by
  have settledSound : settled.Sound :=
    (openFirst_sound draws binding clamped ours theirs).ends sound opens
      (by simp)
  have held := (run.holds settledSound
    (openFirst_holds sound ours theirs clamped opens slices told)).2
  rw [← sameVersion, ← sameBase] at held
  rcases sessionFor_held held with ⟨taken, few, found⟩ | trapped
  · refine ⟨.inl ⟨taken, found⟩, ?_⟩
    intro draws us ourRegistrationId offered binding result final ran noTrap
    obtain ⟨outcome, between, takes, _, moved⟩ := openFirst_moved ran noTrap
    rw [found] at takes
    obtain ⟨rfl, rfl⟩ := Prod.mk.inj takes
    refine ⟨moved.states_le.trans few, ?_⟩
    rintro opened rfl
    obtain ⟨between, _, takes, _, _⟩ := openFirst_eq_ok ran
    rw [found] at takes
    exact (Outcome.ok.inj (Prod.mk.inj takes).1).symm
  · refine ⟨.inr trapped, ?_⟩
    intro draws us ourRegistrationId offered binding result final ran noTrap
    obtain ⟨outcome, between, takes, taking, _⟩ := openFirst_moved ran noTrap
    rw [trapped] at takes
    exact absurd (Prod.mk.inj takes).1.symm taking

end Once

end Operations

section Counterexample

open Sample

attribute [local instance] hashes curves aes kem capsules

/-- A pair from one byte. -/
private def seededPair (byte : UInt8) : Curve.Pair :=
  ⟨⟨Curve.clamp (Block.fill 32 byte)⟩,
    Curve.Secret.fromRaw (Block.fill 32 byte)⟩

/-- The identity of the answering side. -/
private def answering : IdentityPair :=
  .fromPair (seededPair 1)

/-- Its signed key. -/
private def answeringSigned : Curve.Pair :=
  seededPair 11

/-- Its post-quantum key. -/
private def answeringPq : PostQuantum.Pair :=
  ⟨⟨.standard, Block.zero 1568⟩, ⟨.standard, Block.zero 3168⟩⟩

/-- The keys it offers; there is no one-time key. -/
private def answeringRecords : Offered where
  signed := some ⟨5, 0, answeringSigned, Block.zero 64⟩
  oneTime := none
  pq := some ⟨6, 0, answeringPq, Block.zero 64⟩

/-- What it has published. -/
private def answeringBundle : Bundle.Published :=
  ⟨7, 1, none, none, 5, answeringSigned.publicKey, Block.zero 64,
    answering.identity, 6, answeringPq.publicKey, Block.zero 64⟩

/-- The first message of a session begun with the bundle. -/
private def firstBytes : Bytes :=
  let begun :=
    start ⟨Block.fill 32 21, Block.fill 32 22, Block.fill 32 23⟩
      (.fromPair (seededPair 2)) 9 answeringBundle 1000 Archive.empty
  match
    (begun.2.seal [1] 1000 none ⟨Block.zero 64, Block.zero 32⟩).1
  with
  | .ok sealed => sealed.bytes
  | _ => []

/-- The same message with version 3 in its version byte. -/
private def relabelledBytes : Bytes :=
  Frame.versionByte 3 :: firstBytes.tail

/-- The first message in some bytes. -/
private def openerIn (bytes : Bytes) : Opener :=
  match Opener.parse bytes with
  | .ok first => first
  | _ => ⟨0, 0, none, 0, none, none, ⟨Block.zero 32⟩, ⟨Block.zero 32⟩, [], []⟩

/-- Opening a first message with these keys. -/
private def answer
    (first : Opener)
    (archive : Archive) :
    Outcome EngineError Opened × Archive :=
  openFirst (fun _ => Block.zero 32) answering 7 first answeringRecords none
    archive

/-- What the first opening of a message reports. -/
private def asked (first : Opener) : Consumed :=
  ⟨none, 5, 6, first.base⟩

/-- The archive after a first message. -/
private def settledBy (first : Opener) : Archive :=
  (answer first Archive.empty).2

private theorem answer_eq
    {first : Opener}
    {result : Outcome EngineError Opened}
    (answers : (answer first Archive.empty).1 = result) :
    openFirst (fun _ => Block.zero 32) answering 7 first answeringRecords none
        Archive.empty =
      (result, settledBy first) :=
  Prod.ext answers rfl

set_option maxRecDepth 100000 in
/-- The relabelled first message starts its session a second time. -/
private theorem relabelled_answers :
    Opener.parse relabelledBytes = .ok (openerIn relabelledBytes) ∧
      (openerIn relabelledBytes).version = 3 ∧
      (answer (openerIn relabelledBytes) Archive.empty).1 =
        .ok ⟨[1], some (asked (openerIn relabelledBytes))⟩ ∧
      (answer (openerIn relabelledBytes)
          (settledBy (openerIn relabelledBytes))).1 =
        .ok ⟨[1], some (asked (openerIn relabelledBytes))⟩ ∧
      (settledBy (openerIn relabelledBytes)).states = 1 ∧
      (answer (openerIn relabelledBytes)
          (settledBy (openerIn relabelledBytes))).2.states = 2 := by
  decide +kernel

set_option maxRecDepth 100000 in
/-- The first message is answered once. -/
private theorem first_answers :
    (openerIn firstBytes).version = currentVersion ∧
      (openerIn firstBytes).registrationId < 2 ^ 32 ∧
      (answer (openerIn firstBytes) Archive.empty).1 =
        .ok ⟨[1], some (asked (openerIn firstBytes))⟩ ∧
      (settledBy (openerIn firstBytes)).previous = [] ∧
      ∀ record ∈ (settledBy (openerIn firstBytes)).shelve.previous,
        record.length < 2 ^ 64 := by
  decide +kernel

/-- Opened, then shelved, then asked for again. -/
theorem openFirst_once_shelved :
    ((∃ taken, ∀ us ourRegistrationId offered,
        sessionFor us ourRegistrationId (openerIn firstBytes) offered
            (settledBy (openerIn firstBytes)).shelve =
          (.ok none, taken)) ∨
      ∀ us ourRegistrationId offered,
        sessionFor us ourRegistrationId (openerIn firstBytes) offered
            (settledBy (openerIn firstBytes)).shelve =
          (.trap, (settledBy (openerIn firstBytes)).shelve)) ∧
      ∀ draws us ourRegistrationId offered binding result final,
        openFirst draws us ourRegistrationId (openerIn firstBytes) offered
            binding (settledBy (openerIn firstBytes)).shelve =
            (result, final) →
          result ≠ .trap →
            final.states ≤ (settledBy (openerIn firstBytes)).shelve.states ∧
              ∀ again, result = .ok again → again.consumed = none := by
  obtain ⟨newest, small, opens, noneShelved, slices⟩ := first_answers
  have empty : Archive.empty.Sound := by
    rintro _ ⟨⟩
  have clamped : answeringRecords.Clamped := by
    rintro _ ⟨⟩
    exact Curve.Secret.clamped_fromRaw _
  have run :
      Later (openerIn firstBytes).version
        (openerIn firstBytes).base.serialize
        (settledBy (openerIn firstBytes))
        (settledBy (openerIn firstBytes)).shelve := by
    refine .next (.same _) (.shelves slices) fun full => ?_
    rw [noneShelved] at full
    exact absurd full (by decide)
  exact openFirst_once empty (by decide) small clamped (answer_eq opens)
    (by simp [Archive.Slices, noneShelved]) (.inl newest) run rfl rfl

/--
A first message whose version byte says 3 is opened twice, each time with a
handshake that takes the offered records and makes a state.
-/
theorem relabelled_makes_two_sessions :
    Opener.parse relabelledBytes = .ok (openerIn relabelledBytes) ∧
      openFirst (fun _ => Block.zero 32) answering 7
          (openerIn relabelledBytes) answeringRecords none Archive.empty =
        (.ok ⟨[1], some (asked (openerIn relabelledBytes))⟩,
          settledBy (openerIn relabelledBytes)) ∧
      (openFirst (fun _ => Block.zero 32) answering 7
          (openerIn relabelledBytes) answeringRecords none
          (settledBy (openerIn relabelledBytes))).1 =
        .ok ⟨[1], some (asked (openerIn relabelledBytes))⟩ ∧
      (settledBy (openerIn relabelledBytes)).states = 1 ∧
      (openFirst (fun _ => Block.zero 32) answering 7
          (openerIn relabelledBytes) answeringRecords none
          (settledBy (openerIn relabelledBytes))).2.states = 2 := by
  obtain ⟨parses, _, first, second, one, two⟩ := relabelled_answers
  exact ⟨parses, answer_eq first, second, one, two⟩

end Counterexample

end Gossveil.Ratchet
