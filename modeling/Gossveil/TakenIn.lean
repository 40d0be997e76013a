import Gossveil.ArchiveStore
import Gossveil.EngineOpen

namespace Gossveil.Ratchet

/-!
# The session a first message asks for

Under its version and base key a first message finds the live state, the first
of the shelved ones, or none; where there is none, the records it names make a
new one.  A state that becomes live has the record of the one that was live
behind it, and then the other records.
-/

/-! ## The states of an archive -/

namespace Archive

/-- The live state stands under a version and a base key. -/
def LiveFor (archive : Archive) (version : Nat) (base : Bytes) : Prop :=
  ∃ live, archive.current = some live ∧ live.IsFor version base

/-- Records that are all read, none of them one of the session. -/
def Without (version : Nat) (base : Bytes) (records : List Bytes) : Prop :=
  ∀ record ∈ records,
    State.parse record ≠ .trap ∧
      ∀ state, State.parse record = .ok state → ¬ state.IsFor version base

/-- The first shelved state of a session, and the other records. -/
structure FirstShelved
    (archive : Archive)
    (version : Nat)
    (base : Bytes)
    (others : List Bytes)
    (state : State) :
    Prop where
  isFor : state.IsFor version base
  stands :
    ∃ newer record older,
      archive.previous = newer ++ record :: older ∧
        State.parse record = .ok state ∧
        Without version base newer ∧
        others = newer ++ older

/-- A record that traps the parser comes before any of the session. -/
def Unreadable (archive : Archive) (version : Nat) (base : Bytes) : Prop :=
  ∃ newer record older,
    archive.previous = newer ++ record :: older ∧
      State.parse record = .trap ∧
      Without version base newer

/--
What stands behind a state that becomes live: the record of the state that was,
then the others, less the oldest of a full list.
-/
def behind (archive : Archive) (others : List Bytes) : List Bytes :=
  match archive.current with
  | none => others
  | some live =>
      live.serialize ::
        if others.length < maxPrevious then others else others.dropLast

/-- The live state and all of a full list are one and the same state. -/
structure FullOf (archive : Archive) (state : State) : Prop where
  live : archive.current = some state
  full : maxPrevious ≤ archive.previous.length
  shelved : ∀ record ∈ archive.previous, record = state.serialize

/-- A live state, a shelved one, or the live one read back from its record. -/
inductive Has (archive : Archive) (state : State) : Prop where
  | live (isCurrent : archive.current = some state)
  | shelved
      {record : Bytes}
      (member : record ∈ archive.previous)
      (isState : State.parse record = .ok state)
  | reread
      {live : State}
      (isCurrent : archive.current = some live)
      (isState : State.parse live.serialize = .ok state)

section Reviving

variable
  {archive : Archive}
  {version : Nat}
  {base : Bytes}
  {others : List Bytes}
  {state : State}

/-- What is promoted has the state that was live behind it. -/
theorem promote_eq (archive : Archive) (state : State) :
    archive.promote state =
      ⟨some state, archive.behind archive.previous⟩ := by
  cases isCurrent : archive.current with
  | none => simp [promote, shelve, behind, isCurrent]
  | some live =>
      by_cases full : maxPrevious ≤ archive.previous.length
      · simp [promote, shelve, behind, isCurrent, full, Nat.not_lt.mpr full]
      · simp [promote, shelve, behind, isCurrent, full, Nat.not_le.mp full]

/-- Promoting a shelved state takes its record off the list. -/
theorem promoteShelved_behind
    {newer older : List Bytes}
    {record : Bytes}
    (split : archive.previous = newer ++ record :: older)
    (state : State) :
    archive.promoteShelved newer.length state =
      ⟨some state, archive.behind (newer ++ older)⟩ := by
  have removed :
      archive.previous.eraseIdx newer.length = newer ++ older := by
    rw [split, List.eraseIdx_append_of_length_le (Nat.le_refl _)]
    simp
  rw [promoteShelved, promote_eq]
  simp only [removed, behind]

/-- The loop passes over records that are not of the session. -/
theorem reviveFrom_skip
    {index : Nat}
    {front back : List Bytes}
    (without : Without version base front) :
    archive.reviveFrom version base index (front ++ back) =
      archive.reviveFrom version base (index + front.length) back := by
  induction front generalizing index with
  | nil => rfl
  | cons record rest inductionHypothesis =>
      obtain ⟨noTrap, notFor⟩ := without record List.mem_cons_self
      have restWithout : Without version base rest :=
        fun other member => without other (List.mem_cons_of_mem _ member)
      have shift : index + 1 + rest.length = index + (record :: rest).length := by
        rw [List.length_cons]
        omega
      rw [List.cons_append, reviveFrom, ← shift,
        ← inductionHypothesis restWithout]
      rcases parsed : State.parse record with state | fault | _
      · have condition :
            ¬ (state.version = version ∧ state.base = base) :=
          notFor state parsed
        simp only [if_neg condition]
      · rfl
      · exact absurd parsed noTrap

/-- A live session is revived as it is. -/
theorem revive_of_live (liveFor : archive.LiveFor version base) :
    archive.revive version base = .ok (true, archive) :=
  if_pos liveFor

/-- Nothing is revived where nothing matches. -/
theorem revive_of_without
    (notLive : ¬ archive.LiveFor version base)
    (without : Without version base archive.previous) :
    archive.revive version base = .ok (false, archive) := by
  have skipped :=
    @reviveFrom_skip archive version base 0 archive.previous [] without
  rw [List.append_nil] at skipped
  exact (if_neg notLive).trans skipped

/-- A shelved state that is found becomes live, the others stand behind it. -/
theorem revive_of_shelved
    (notLive : ¬ archive.LiveFor version base)
    (first : archive.FirstShelved version base others state) :
    archive.revive version base =
      .ok (true, ⟨some state, archive.behind others⟩) := by
  obtain ⟨isFor, newer, record, older, split, parsed, without, rfl⟩ := first
  have skipped :=
    @reviveFrom_skip archive version base 0 newer (record :: older) without
  have condition : state.version = version ∧ state.base = base := isFor
  rw [← split, Nat.zero_add, reviveFrom] at skipped
  simp only [parsed, if_pos condition] at skipped
  rw [promoteShelved_behind split] at skipped
  exact (if_neg notLive).trans skipped

/-- Reviving traps at a record that does. -/
theorem revive_of_unreadable
    (notLive : ¬ archive.LiveFor version base)
    (unreadable : archive.Unreadable version base) :
    archive.revive version base = .trap := by
  obtain ⟨newer, record, older, split, parsed, without⟩ := unreadable
  have skipped :=
    @reviveFrom_skip archive version base 0 newer (record :: older) without
  rw [← split, reviveFrom] at skipped
  simp only [parsed] at skipped
  exact (if_neg notLive).trans skipped

/-- How the walk over shelved records comes to its end. -/
theorem without_or_shelved
    (archive : Archive)
    (version : Nat)
    (base : Bytes) :
    Without version base archive.previous ∨
      (∃ others state, archive.FirstShelved version base others state) ∨
      archive.Unreadable version base := by
  suffices walk : ∀ passed rest,
      archive.previous = passed ++ rest →
      Without version base passed →
      Without version base archive.previous ∨
        (∃ others state, archive.FirstShelved version base others state) ∨
        archive.Unreadable version base from
    walk [] archive.previous rfl (by simp [Without])
  intro passed rest split without
  induction rest generalizing passed with
  | nil =>
      rw [List.append_nil] at split
      exact .inl (split ▸ without)
  | cons record rest inductionHypothesis =>
      have goesOn
          (passesOver :
            State.parse record ≠ .trap ∧
              ∀ state,
                State.parse record = .ok state → ¬ state.IsFor version base) :=
        inductionHypothesis (passed ++ [record]) (by simpa using split)
          (List.forall_mem_append.mpr
            ⟨without, List.forall_mem_singleton.mpr passesOver⟩)
      rcases parsed : State.parse record with state | fault | _
      · by_cases isFor : state.IsFor version base
        · exact .inr (.inl ⟨_, state, isFor, passed, record, rest, split,
            parsed, without, rfl⟩)
        · refine goesOn ⟨by simp [parsed], fun other isOther => ?_⟩
          rw [parsed] at isOther
          cases isOther
          exact isFor
      · exact goesOn (by simp [parsed])
      · exact .inr (.inr ⟨passed, record, rest, split, parsed, without⟩)

/-- Only a full list of copies stays as it is behind its own state. -/
theorem cons_dropLast_eq_iff
    {record : Bytes}
    {records : List Bytes}
    (nonempty : records ≠ []) :
    record :: records.dropLast = records ↔
      ∀ other ∈ records, other = record := by
  constructor
  · intro same
    induction records generalizing record with
    | nil => exact absurd rfl nonempty
    | cons head rest inductionHypothesis =>
        cases rest with
        | nil =>
            obtain ⟨isHead, _⟩ := List.cons.inj same
            simpa using isHead.symm
        | cons second rest =>
            obtain ⟨rfl, sameRest⟩ := List.cons.inj same
            exact List.forall_mem_cons.mpr
              ⟨rfl, inductionHypothesis (by simp) sameRest⟩
  · intro copies
    rw [List.eq_replicate_of_mem copies, List.dropLast_replicate,
      ← List.replicate_succ,
      Nat.sub_add_cancel (List.length_pos_iff.mpr nonempty)]

/-- The first match is one of the shelved states. -/
theorem FirstShelved.has
    (first : archive.FirstShelved version base others state) :
    archive.Has state := by
  obtain ⟨_, newer, record, older, split, isState, _, _⟩ := first
  exact .shelved (by simp [split]) isState

/-- A record behind a state that becomes live is of a state of the archive. -/
theorem has_of_mem_behind
    {record : Bytes}
    (included : others ⊆ archive.previous)
    (member : record ∈ archive.behind others)
    (isState : State.parse record = .ok state) :
    archive.Has state := by
  cases isCurrent : archive.current with
  | none =>
      simp only [behind, isCurrent] at member
      exact .shelved (included member) isState
  | some live =>
      simp only [behind, isCurrent, List.mem_cons] at member
      rcases member with rfl | member
      · exact .reread isCurrent isState
      · refine .shelved (included ?_) isState
        split_ifs at member
        · exact member
        · exact List.dropLast_subset _ member

/-- When shelving the live state leaves the archive as it is. -/
theorem behind_eq_iff :
    (⟨some state, archive.behind archive.previous⟩ : Archive) = archive ↔
      archive.FullOf state := by
  constructor
  · intro same
    have isLive : archive.current = some state :=
      (congrArg Archive.current same).symm
    have unmoved : archive.behind archive.previous = archive.previous :=
      congrArg Archive.previous same
    simp only [behind, isLive] at unmoved
    split_ifs at unmoved with room
    · have longer := congrArg List.length unmoved
      simp at longer
    · have full : maxPrevious ≤ archive.previous.length := Nat.not_lt.mp room
      have nonempty : archive.previous ≠ [] := by
        rintro empty
        rw [empty] at full
        exact absurd full (by decide)
      exact ⟨isLive, full, (cons_dropLast_eq_iff nonempty).mp unmoved⟩
  · rintro ⟨isLive, full, copies⟩
    have nonempty : archive.previous ≠ [] := by
      rintro empty
      rw [empty] at full
      exact absurd full (by decide)
    have unmoved : archive.behind archive.previous = archive.previous := by
      simp only [behind, isLive, if_neg (Nat.not_lt.mpr full)]
      exact (cons_dropLast_eq_iff nonempty).mpr copies
    rw [unmoved, ← isLive]

end Reviving

end Archive

/-! ## The session that is made -/

section Making

variable [Hashes] [Curves] [Capsules]

/-- The one-time pair a first message asks for: of the record it names, or none. -/
inductive OneTimeFor (first : Opener) (offered : Offered) :
    Option Curve.Pair →
    Prop where
  | none (unnamed : first.oneTimeId = none) : OneTimeFor first offered none
  | some
      {record : Bundle.OneTimeRecord}
      (named : first.oneTimeId = some record.id)
      (isOffered : offered.oneTime = some record) :
      OneTimeFor first offered (some record.pair)

/-- The offered records are the ones named, and the handshake makes a state. -/
inductive Answers
    (us : IdentityPair)
    (ourRegistrationId : Nat)
    (first : Opener)
    (offered : Offered) :
    State →
    Prop where
  | made
      {signed : Bundle.SignedRecord}
      {oneTime : Option Curve.Pair}
      {pq : Bundle.PqRecord}
      {capsule : Bytes}
      {parts : Handshake.Responder}
      {answered : Handshake.Opened}
      {pqState : Bytes}
      (isSigned : offered.signed = some signed)
      (signedNamed : signed.id = first.signedId)
      (isOneTime : OneTimeFor first offered oneTime)
      (isPq : offered.pq = some pq)
      (pqNamed : first.pqId = some pq.id)
      (isCapsule : first.capsule = some capsule)
      (areParts :
        parts =
          ⟨us, signed.pair, oneTime, signed.pair, pq.pair.secret,
            ⟨first.identity⟩, first.base, capsule⟩)
      (agreed : Handshake.responderSecret parts = .ok answered)
      (started :
        PqRecord.start answered.keys.pqAuth .responder
            (pqLimits us ⟨first.identity⟩) =
          .ok pqState) :
      Answers us ourRegistrationId first offered
        { Handshake.responderState parts answered.keys pqState with
          localRegistrationId := ourRegistrationId
          remoteRegistrationId := first.registrationId }

variable
  {us : IdentityPair}
  {ourRegistrationId : Nat}
  {first : Opener}
  {offered : Offered}
  {archive taken : Archive}
  {state : State}

/-- The new session is with the identity the message names. -/
theorem Answers.remoteKey
    (answers : Answers us ourRegistrationId first offered state) :
    state.remoteKey = first.identity := by
  cases answers with
  | made _ _ _ _ _ _ areParts => rw [areParts]; rfl

omit [Hashes] [Curves] [Capsules] in
/-- The responder's parts are the offered records the message names. -/
theorem responderOf_eq_ok
    {parts : Handshake.Responder}
    {pqId : Nat} :
    responderOf us first offered = .ok (parts, pqId) ↔
      ∃ signed oneTime pq capsule,
        offered.signed = some signed ∧
          signed.id = first.signedId ∧
          OneTimeFor first offered oneTime ∧
          offered.pq = some pq ∧
          first.pqId = some pq.id ∧
          first.capsule = some capsule ∧
          parts =
            ⟨us, signed.pair, oneTime, signed.pair, pq.pair.secret,
              ⟨first.identity⟩, first.base, capsule⟩ ∧
          pqId = pq.id := by
  constructor
  · intro named
    simp only [responderOf, Outcome.bind_eq_ok, Outcome.ofOption_eq_ok] at named
    obtain ⟨signed, isSigned, _, signedNamed, rest⟩ := named
    cases isId : first.oneTimeId with
    | none =>
        simp only [isId, Outcome.bind_eq_ok, Outcome.ofOption_eq_ok] at rest
        obtain ⟨_, ⟨⟩, _, pqNamed, pq, isPq, _, samePq, capsule, isCapsule,
          done⟩ := rest
        obtain ⟨rfl, rfl⟩ := Prod.mk.inj (Outcome.ok.inj done)
        obtain rfl := Outcome.require_eq_ok.mp samePq
        exact ⟨signed, none, pq, capsule, isSigned,
          Outcome.require_eq_ok.mp signedNamed, .none isId, isPq, pqNamed,
          isCapsule, rfl, rfl⟩
    | some id =>
        simp only [isId, Outcome.bind_eq_ok, Outcome.ofOption_eq_ok] at rest
        obtain ⟨record, isRecord, _, sameId, _, ⟨⟩, _, pqNamed, pq, isPq, _,
          samePq, capsule, isCapsule, done⟩ := rest
        obtain ⟨rfl, rfl⟩ := Prod.mk.inj (Outcome.ok.inj done)
        obtain rfl := Outcome.require_eq_ok.mp samePq
        obtain rfl := Outcome.require_eq_ok.mp sameId
        exact ⟨signed, some record.pair, pq, capsule, isSigned,
          Outcome.require_eq_ok.mp signedNamed, .some isId isRecord, isPq,
          pqNamed, isCapsule, rfl, rfl⟩
  · rintro ⟨signed, oneTime, pq, capsule, isSigned, signedNamed, isOneTime,
      isPq, pqNamed, isCapsule, rfl, rfl⟩
    cases isOneTime with
    | none unnamed =>
        simp [responderOf, isSigned, signedNamed, unnamed, isPq, pqNamed,
          isCapsule, Outcome.require_of]
    | some isId isOffered =>
        simp [responderOf, isSigned, signedNamed, isId, isOffered, isPq,
          pqNamed, isCapsule, Outcome.require_of]

/-- A new session is the one that answers the first message. -/
theorem newSession_eq_ok :
    (∃ consumed,
        newSession us ourRegistrationId first offered =
          .ok (state, consumed)) ↔
      Answers us ourRegistrationId first offered state := by
  constructor
  · rintro ⟨consumed, made⟩
    unfold newSession at made
    rcases named : responderOf us first offered with
      ⟨parts, pqId⟩ | fault | _ <;> simp only [named] at made
    · obtain ⟨signed, oneTime, pq, capsule, isSigned, signedNamed, isOneTime,
        isPq, pqNamed, isCapsule, areParts, _⟩ := responderOf_eq_ok.mp named
      obtain ⟨answered, agreed, made⟩ := Outcome.bind_eq_ok.mp made
      obtain ⟨pqState, started, made⟩ := Outcome.bind_eq_ok.mp made
      obtain ⟨rfl, _⟩ := Prod.mk.inj (Outcome.ok.inj made)
      have started := Outcome.mapError_eq_ok.mp started
      rw [areParts] at started
      exact .made isSigned signedNamed isOneTime isPq pqNamed isCapsule areParts
        (Outcome.mapError_eq_ok.mp agreed) started
    · cases made
    · cases made
  · rintro ⟨isSigned, signedNamed, isOneTime, isPq, pqNamed, isCapsule, areParts,
      agreed, started⟩
    have named :=
      responderOf_eq_ok.mpr ⟨_, _, _, _, isSigned, signedNamed, isOneTime, isPq,
        pqNamed, isCapsule, areParts, rfl⟩
    subst areParts
    unfold newSession
    simp only [named]
    exact ⟨_, Outcome.bind_eq_ok.mpr ⟨_, Outcome.mapError_eq_ok.mpr agreed,
      Outcome.bind_eq_ok.mpr
        ⟨_, Outcome.mapError_eq_ok.mpr started, rfl⟩⟩⟩

/-! ## Taking it in -/

/-- The session is the one that is found, or the one the handshake makes. -/
theorem sessionFor_eq :
    sessionFor us ourRegistrationId first offered archive =
      match archive.revive first.version first.base.serialize with
      | .ok (true, taken) => (.ok none, taken)
      | .ok (false, taken) =>
          match newSession us ourRegistrationId first offered with
          | .ok (state, consumed) => (.ok (some consumed), taken.promote state)
          | .error error => (.error error, taken)
          | .trap => (.trap, taken)
      | .error fault => (.error (.fault fault), archive)
      | .trap => (.trap, archive) := by
  unfold sessionFor
  rcases revived : archive.revive first.version first.base.serialize with
    ⟨found, taken⟩ | fault | _
  · rw [Call.bind_of_ok (by rw [liftM_call_apply, Call.step, revived]; rfl)]
    cases found with
    | true => rfl
    | false =>
        rcases made : newSession us ourRegistrationId first offered with
          ⟨state, consumed⟩ | error | _
        · rfl
        · rfl
        · rfl
  · exact Call.bind_of_error (by rw [liftM_call_apply, Call.step, revived]; rfl)
  · exact Call.bind_of_trap (by rw [liftM_call_apply, Call.step, revived]; rfl)

/--
The state that becomes live for a first message, with the records behind it:
the live one, the first shelved one, or the one the named records make.
-/
inductive TakenIn
    (us : IdentityPair)
    (ourRegistrationId : Nat)
    (first : Opener)
    (offered : Offered)
    (archive : Archive) :
    State →
    List Bytes →
    Prop where
  | live
      {live : State}
      (isCurrent : archive.current = some live)
      (isFor : live.IsFor first.version first.base.serialize) :
      TakenIn us ourRegistrationId first offered archive live archive.previous
  | shelved
      {others : List Bytes}
      {state : State}
      (notLive : ¬ archive.LiveFor first.version first.base.serialize)
      (stands :
        archive.FirstShelved first.version first.base.serialize others state) :
      TakenIn us ourRegistrationId first offered archive state
        (archive.behind others)
  | made
      {state : State}
      (notLive : ¬ archive.LiveFor first.version first.base.serialize)
      (without :
        Archive.Without first.version first.base.serialize archive.previous)
      (answers : Answers us ourRegistrationId first offered state) :
      TakenIn us ourRegistrationId first offered archive state
        (archive.behind archive.previous)

/-- A state taken in is one of the archive's, or the new one. -/
theorem TakenIn.has
    {records : List Bytes}
    {record : Bytes}
    {other : State}
    (takenIn :
      TakenIn us ourRegistrationId first offered archive state records)
    (member : record ∈ records)
    (isState : State.parse record = .ok other) :
    archive.Has other := by
  cases takenIn with
  | live => exact .shelved member isState
  | shelved notLive stands =>
      obtain ⟨_, newer, found, older, split, _, _, rfl⟩ := stands
      refine Archive.has_of_mem_behind ?_ member isState
      rw [split]
      simp
  | made => exact Archive.has_of_mem_behind (List.Subset.refl _) member isState

/-- The session is taken in as the archive and the records say. -/
theorem sessionFor_eq_ok :
    (∃ consumed,
        sessionFor us ourRegistrationId first offered archive =
          (.ok consumed, taken)) ↔
      ∃ state records,
        TakenIn us ourRegistrationId first offered archive state records ∧
          taken = ⟨some state, records⟩ := by
  rw [sessionFor_eq]
  constructor
  · rintro ⟨consumed, takes⟩
    by_cases liveFor :
        archive.LiveFor first.version first.base.serialize
    · rw [Archive.revive_of_live liveFor] at takes
      obtain ⟨_, rfl⟩ := Prod.mk.inj takes
      obtain ⟨live, isCurrent, isFor⟩ := liveFor
      exact ⟨live, _, .live isCurrent isFor, by rw [← isCurrent]⟩
    rcases archive.without_or_shelved first.version first.base.serialize with
      without | ⟨others, state, stands⟩ | unreadable
    · rw [Archive.revive_of_without liveFor without] at takes
      rcases made : newSession us ourRegistrationId first offered with
        ⟨state, named⟩ | error | _ <;> simp only [made] at takes
      · obtain ⟨_, rfl⟩ := Prod.mk.inj takes
        exact ⟨state, _,
          .made liveFor without (newSession_eq_ok.mp ⟨named, made⟩),
          archive.promote_eq state⟩
      · cases takes
      · cases takes
    · rw [Archive.revive_of_shelved liveFor stands] at takes
      obtain ⟨_, rfl⟩ := Prod.mk.inj takes
      exact ⟨state, _, .shelved liveFor stands, rfl⟩
    · rw [Archive.revive_of_unreadable liveFor unreadable] at takes
      cases takes
  · rintro ⟨state, records, takenIn, rfl⟩
    cases takenIn with
    | live isCurrent isFor =>
        rw [Archive.revive_of_live ⟨state, isCurrent, isFor⟩, ← isCurrent]
        exact ⟨none, rfl⟩
    | shelved notLive stands =>
        rw [Archive.revive_of_shelved notLive stands]
        exact ⟨none, rfl⟩
    | made notLive without answers =>
        obtain ⟨consumed, made⟩ := newSession_eq_ok.mpr answers
        rw [Archive.revive_of_without notLive without, ← archive.promote_eq]
        simp only [made]
        exact ⟨some consumed, rfl⟩

end Making

end Gossveil.Ratchet
