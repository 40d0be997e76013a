import Gossveil.TakenIn

namespace Gossveil.Ratchet

/-!
# Opening a first message

The session a first message asks for is taken into the archive before its inner
message is parsed and opened.  What the archive then does with the inner
message is decided by the first state that does not pass it on.
-/

/-! ## The state that decides -/

namespace Archive

/-- No record shelved before a place traps the parser. -/
def ReadTo (archive : Archive) : Place → Prop
  | .live => True
  | .shelved index =>
      ∀ bytes ∈ archive.previous.take index, State.parse bytes ≠ .trap

/-- No shelved record traps the reader. -/
def Readable (archive : Archive) : Prop :=
  ∀ bytes ∈ archive.previous, State.parse bytes ≠ .trap

end Archive

/-- A candidate among the shelved ones is a record that parses. -/
theorem candidatesFrom_split
    {index : Nat}
    {records : List Bytes}
    {earlier later : List (Place × State)}
    {place : Place}
    {state : State}
    (split :
      candidatesFrom index records = earlier ++ (place, state) :: later) :
    ∃ front bytes back,
      records = front ++ bytes :: back ∧
        place = .shelved (index + front.length) ∧
        State.parse bytes = .ok state ∧
        candidatesFrom index front = earlier := by
  induction records generalizing index earlier with
  | nil => simp [candidatesFrom] at split
  | cons bytes rest inductionHypothesis =>
      rw [candidatesFrom] at split
      rcases parsed : State.parse bytes with candidate | fault | _ <;>
        simp only [parsed] at split
      · cases earlier with
        | nil =>
            simp only [List.nil_append, List.cons.injEq, Prod.mk.injEq] at split
            obtain ⟨⟨rfl, rfl⟩, _⟩ := split
            exact ⟨[], bytes, rest, rfl, rfl, parsed, rfl⟩
        | cons head tail =>
            simp only [List.cons_append, List.cons.injEq] at split
            obtain ⟨rfl, split⟩ := split
            obtain ⟨front, record, back, rfl, rfl, isState, rfl⟩ :=
              inductionHypothesis split
            refine ⟨bytes :: front, record, back, rfl, ?_, isState, ?_⟩
            · simp only [List.length_cons]
              congr 1
              omega
            · simp [candidatesFrom, parsed]
      all_goals
        obtain ⟨front, record, back, rfl, rfl, isState, rfl⟩ :=
          inductionHypothesis split
        refine ⟨bytes :: front, record, back, rfl, ?_, isState, ?_⟩
        · simp only [List.length_cons]
          congr 1
          omega
        · simp [candidatesFrom, parsed]

section Decisions

variable [Hashes] [Curves] [Aes] [Kem]
variable
  {draws : Nat → Block 32}
  {message : Whisper}
  {binding : Option Binding}
  {archive : Archive}

/-- Readable records whose states all pass on are gone through. -/
theorem openShelved_skip
    {index : Nat}
    {front back : List Bytes}
    (readable : ∀ bytes ∈ front, State.parse bytes ≠ .trap)
    (passes :
      ∀ candidate ∈ candidatesFrom index front,
        PassesOn draws message binding candidate) :
    openShelved draws message binding archive index (front ++ back) =
      openShelved draws message binding archive (index + front.length)
        back := by
  induction front generalizing index with
  | nil => rfl
  | cons bytes rest inductionHypothesis =>
      have shift : index + 1 + rest.length = index + (rest.length + 1) := by
        omega
      have restReadable :
          ∀ bytes ∈ rest, State.parse bytes ≠ .trap :=
        fun bytes member => readable bytes (List.mem_cons_of_mem _ member)
      rw [candidatesFrom] at passes
      rw [List.cons_append, openShelved, List.length_cons, ← shift]
      rcases parsed : State.parse bytes with candidate | fault | _ <;>
        simp only [parsed] at passes ⊢
      · obtain ⟨fault, after, tried, notReplay⟩ := passes _ List.mem_cons_self
        simp only [Place.draw] at tried
        simp only [tried, if_neg notReplay]
        exact inductionHypothesis restReadable fun candidate member =>
          passes candidate (List.mem_cons_of_mem _ member)
      · exact inductionHypothesis restReadable passes
      · exact absurd parsed (readable bytes List.mem_cons_self)

/-- What the archive returns when a candidate decides. -/
def Archive.answer
    (draws : Nat → Block 32)
    (message : Whisper)
    (binding : Option Binding)
    (archive : Archive)
    (place : Place)
    (state : State) :
    Outcome Fault Bytes × Archive :=
  match openWithState (place.draw draws) message binding state with
  | (.ok plain, advanced) => (.ok plain, archive.settle place advanced)
  | (.error fault, _) => (.error fault, archive)
  | (.trap, _) => (.trap, archive)

/--
The candidate a message gets to: no record before it traps the parser, and
every candidate before it passes on.
-/
structure Reaches
    (draws : Nat → Block 32)
    (message : Whisper)
    (binding : Option Binding)
    (archive : Archive)
    (place : Place)
    (state : State) :
    Prop where
  readTo : archive.ReadTo place
  passes :
    ∃ earlier later,
      archive.candidates = earlier ++ (place, state) :: later ∧
        ∀ candidate ∈ earlier, PassesOn draws message binding candidate

/-- Every record is read, and every state passes on. -/
structure Exhausted
    (draws : Nat → Block 32)
    (message : Whisper)
    (binding : Option Binding)
    (archive : Archive) :
    Prop where
  readable : archive.Readable
  passes :
    ∀ candidate ∈ archive.candidates, PassesOn draws message binding candidate

/-- The loop gets to the first record whose state does not pass on. -/
theorem openShelved_decided
    {place : Place}
    {state : State}
    {earlier later : List (Place × State)}
    (readTo : archive.ReadTo place)
    (split :
      candidatesFrom 0 archive.previous = earlier ++ (place, state) :: later)
    (passes :
      ∀ candidate ∈ earlier, PassesOn draws message binding candidate)
    (decides : ¬ PassesOn draws message binding (place, state)) :
    openShelved draws message binding archive 0 archive.previous =
      archive.answer draws message binding place state := by
  obtain ⟨front, bytes, back, records, rfl, isState, rfl⟩ :=
    candidatesFrom_split split
  have frontReadable : ∀ bytes ∈ front, State.parse bytes ≠ .trap := by
    simpa [Archive.ReadTo, records] using readTo
  rw [records, openShelved_skip frontReadable passes, openShelved, isState,
    Archive.answer, Place.draw]
  rcases tried :
      openWithState (draws (0 + front.length + 1)) message binding state with
    ⟨plain | fault | _, advanced⟩
  · simp only [tried, Archive.settle]
  · have isReplay : fault = .replay := by
      by_contra notReplay
      exact decides ⟨fault, advanced, tried, notReplay⟩
    simp only [tried, isReplay, if_true]
  · simp only [tried]

/-- The first candidate that does not pass on decides. -/
theorem openWithArchive_decided
    {place : Place}
    {state : State}
    (reaches : Reaches draws message binding archive place state)
    (decides : ¬ PassesOn draws message binding (place, state)) :
    openWithArchive draws message binding archive =
      archive.answer draws message binding place state := by
  obtain ⟨readTo, earlier, later, split, passes⟩ := reaches
  rw [Archive.candidates] at split
  unfold openWithArchive
  cases isCurrent : archive.current with
  | none =>
      exact openShelved_decided readTo (by simpa [isCurrent] using split)
        passes decides
  | some current =>
      simp only [isCurrent, Option.map_some, Option.toList_some,
        List.singleton_append] at split
      cases earlier with
      | nil =>
          simp only [List.nil_append, List.cons.injEq, Prod.mk.injEq] at split
          obtain ⟨⟨rfl, rfl⟩, _⟩ := split
          simp only [State.clone_eq, Archive.answer, Place.draw]
          rcases tried : openWithState (draws 0) message binding current with
            ⟨plain | fault | _, advanced⟩
          · rfl
          · have isReplay : fault = .replay := by
              by_contra notReplay
              exact decides ⟨fault, advanced, tried, notReplay⟩
            simp [isReplay]
          · rfl
      | cons head tail =>
          simp only [List.cons_append, List.cons.injEq] at split
          obtain ⟨rfl, split⟩ := split
          obtain ⟨fault, after, tried, notReplay⟩ :=
            passes _ List.mem_cons_self
          simp only [Place.draw] at tried
          simp only [State.clone_eq, tried, if_neg notReplay]
          exact openShelved_decided readTo split
            (fun candidate member =>
              passes candidate (List.mem_cons_of_mem _ member))
            decides

/-- A message no shelved state opens is refused. -/
theorem openShelved_exhausted
    {index : Nat}
    {records : List Bytes}
    (readable : ∀ bytes ∈ records, State.parse bytes ≠ .trap)
    (passes :
      ∀ candidate ∈ candidatesFrom index records,
        PassesOn draws message binding candidate) :
    openShelved draws message binding archive index records =
      (.error .badMessage, archive) := by
  have gone :=
    @openShelved_skip _ _ _ _ draws message binding archive index records []
      readable passes
  rw [List.append_nil] at gone
  rw [gone, openShelved]

/-- A message no state opens is refused, and the archive stays. -/
theorem openWithArchive_exhausted
    (exhausted : Exhausted draws message binding archive) :
    openWithArchive draws message binding archive =
      (.error .badMessage, archive) := by
  obtain ⟨readable, passes⟩ := exhausted
  rw [Archive.candidates] at passes
  unfold openWithArchive
  cases isCurrent : archive.current with
  | none =>
      exact openShelved_exhausted readable (by simpa [isCurrent] using passes)
  | some current =>
      simp only [isCurrent, Option.map_some, Option.toList_some,
        List.singleton_append] at passes
      obtain ⟨fault, after, tried, notReplay⟩ := passes _ List.mem_cons_self
      simp only [Place.draw] at tried
      simp only [State.clone_eq, tried, if_neg notReplay]
      exact openShelved_exhausted readable fun candidate member =>
        passes candidate (List.mem_cons_of_mem _ member)

/--
How the loop ends: with a state that decides, after the last record, or at one
that traps the parser.
-/
theorem openShelved_ends
    (draws : Nat → Block 32)
    (message : Whisper)
    (binding : Option Binding)
    (archive : Archive)
    (index : Nat)
    (records : List Bytes) :
    (∃ front back state earlier later,
      records = front ++ back ∧
        (∀ bytes ∈ front, State.parse bytes ≠ .trap) ∧
        candidatesFrom index records =
          earlier ++ (.shelved (index + front.length), state) :: later ∧
        (∀ candidate ∈ earlier, PassesOn draws message binding candidate) ∧
        ¬ PassesOn draws message binding
          (.shelved (index + front.length), state)) ∨
    ((∀ bytes ∈ records, State.parse bytes ≠ .trap) ∧
      ∀ candidate ∈ candidatesFrom index records,
        PassesOn draws message binding candidate) ∨
    openShelved draws message binding archive index records =
      (.trap, archive) := by
  induction records generalizing index with
  | nil => simp [candidatesFrom]
  | cons bytes rest inductionHypothesis =>
      have shift : ∀ front : List Bytes,
          index + 1 + front.length = index + (bytes :: front).length := by
        intro front
        rw [List.length_cons]
        omega
      rcases parsed : State.parse bytes with state | fault | _
      · by_cases passesOn :
          PassesOn draws message binding (.shelved index, state)
        · rcases inductionHypothesis (index + 1) with
            ⟨front, back, found, earlier, later, rfl, readable, split, passes,
              decides⟩ | ⟨readable, passes⟩ | trapped
          · left
            rw [shift] at split decides
            refine ⟨bytes :: front, back, found,
              (.shelved index, state) :: earlier, later, rfl, ?_, ?_, ?_,
              decides⟩
            · simpa [parsed] using readable
            · simp [candidatesFrom, parsed, split]
            · simpa [passesOn] using passes
          · right; left
            simp only [candidatesFrom, parsed, List.forall_mem_cons]
            exact ⟨⟨by simp, readable⟩, passesOn, passes⟩
          · right; right
            obtain ⟨fault, after, tried, notReplay⟩ := passesOn
            simp only [Place.draw] at tried
            simp [openShelved, parsed, tried, notReplay, trapped]
        · left
          refine ⟨[], bytes :: rest, state, [],
            candidatesFrom (index + 1) rest, rfl, by simp, ?_, by simp,
            passesOn⟩
          simp [candidatesFrom, parsed]
      · rcases inductionHypothesis (index + 1) with
          ⟨front, back, found, earlier, later, rfl, readable, split, passes,
            decides⟩ | ⟨readable, passes⟩ | trapped
        · left
          rw [shift] at split decides
          refine ⟨bytes :: front, back, found, earlier, later, rfl, ?_, ?_,
            passes, decides⟩
          · simpa [parsed] using readable
          · simp [candidatesFrom, parsed, split]
        · right; left
          simp only [candidatesFrom, parsed, List.forall_mem_cons]
          exact ⟨⟨by simp, readable⟩, passes⟩
        · right; right
          simp [openShelved, parsed, trapped]
      · right; right
        simp [openShelved, parsed]

/-- The archive ends with the state that decides, at its end, or in a trap. -/
theorem openWithArchive_ends
    (draws : Nat → Block 32)
    (message : Whisper)
    (binding : Option Binding)
    (archive : Archive) :
    (∃ place state,
      Reaches draws message binding archive place state ∧
        ¬ PassesOn draws message binding (place, state)) ∨
    Exhausted draws message binding archive ∨
    openWithArchive draws message binding archive = (.trap, archive) := by
  cases isCurrent : archive.current with
  | none =>
      have candidates :
          archive.candidates = candidatesFrom 0 archive.previous := by
        simp [Archive.candidates, isCurrent]
      rcases openShelved_ends draws message binding archive 0
          archive.previous with
        ⟨front, back, state, earlier, later, records, readable, split, passes,
          decides⟩ | ⟨readable, passes⟩ | trapped
      · left
        refine ⟨.shelved (0 + front.length), state,
          ⟨?_, earlier, later, candidates.trans split, passes⟩, decides⟩
        simpa [Archive.ReadTo, records] using readable
      · right; left
        exact ⟨readable, candidates ▸ passes⟩
      · right; right
        simp only [openWithArchive, isCurrent, trapped]
  | some current =>
      have candidates :
          archive.candidates =
            (.live, current) :: candidatesFrom 0 archive.previous := by
        simp [Archive.candidates, isCurrent]
      by_cases passesOn : PassesOn draws message binding (.live, current)
      · rcases openShelved_ends draws message binding archive 0
            archive.previous with
          ⟨front, back, state, earlier, later, records, readable, split,
            passes, decides⟩ | ⟨readable, passes⟩ | trapped
        · left
          refine ⟨.shelved (0 + front.length), state,
            ⟨?_, (.live, current) :: earlier, later, ?_, ?_⟩, decides⟩
          · simpa [Archive.ReadTo, records] using readable
          · rw [candidates, split, List.cons_append]
          · exact List.forall_mem_cons.mpr ⟨passesOn, passes⟩
        · right; left
          refine ⟨readable, ?_⟩
          rw [candidates]
          exact List.forall_mem_cons.mpr ⟨passesOn, passes⟩
        · right; right
          obtain ⟨fault, after, tried, notReplay⟩ := passesOn
          simp only [Place.draw] at tried
          simp only [openWithArchive, isCurrent, State.clone_eq, tried,
            if_neg notReplay, trapped]
      · left
        exact ⟨.live, current, ⟨trivial, [], _, candidates, by simp⟩, passesOn⟩

/-- A state opens the message for the archive. -/
def OpenedBy
    (draws : Nat → Block 32)
    (message : Whisper)
    (binding : Option Binding)
    (archive : Archive)
    (state : State) :
    Prop :=
  ∃ place plain advanced,
    Reaches draws message binding archive place state ∧
      openWithState (place.draw draws) message binding state =
        (.ok plain, advanced)

/-- Every state passes the message on, or one has seen it before. -/
def Unopened
    (draws : Nat → Block 32)
    (message : Whisper)
    (binding : Option Binding)
    (archive : Archive) :
    Prop :=
  Exhausted draws message binding archive ∨
    ∃ place state advanced,
      Reaches draws message binding archive place state ∧
        openWithState (place.draw draws) message binding state =
          (.error .replay, advanced)

/-- The state that opens a message advances in its session. -/
theorem OpenedBy.opens
    {state : State}
    (opened : OpenedBy draws message binding archive state) :
    ∃ plain after advanced,
      openWithArchive draws message binding archive = (.ok plain, after) ∧
        after.current = some advanced ∧
        SameSession state advanced := by
  obtain ⟨place, plain, advanced, reaches, tried⟩ := opened
  have decides : ¬ PassesOn draws message binding (place, state) := by
    rintro ⟨fault, after, failed, _⟩
    simp only [tried, Prod.mk.injEq, reduceCtorEq, false_and] at failed
  refine ⟨plain, archive.settle place advanced, advanced, ?_,
    archive.current_settle place advanced, openWithState_same tried⟩
  rw [openWithArchive_decided reaches decides, Archive.answer, tried]

/-- An opened message was opened by a state of the archive. -/
theorem openedBy_of_ok
    {plain : Bytes}
    {after : Archive}
    (opened :
      openWithArchive draws message binding archive = (.ok plain, after)) :
    ∃ state advanced,
      OpenedBy draws message binding archive state ∧
        after.current = some advanced ∧
        SameSession state advanced := by
  rcases openWithArchive_ends draws message binding archive with
    ⟨place, state, reaches, decides⟩ | exhausted | trapped
  · rw [openWithArchive_decided reaches decides, Archive.answer] at opened
    rcases tried : openWithState (place.draw draws) message binding state with
      ⟨value | fault | _, advanced⟩ <;> simp only [tried] at opened
    · cases opened
      exact ⟨state, advanced, ⟨place, plain, advanced, reaches, tried⟩,
        archive.current_settle place advanced, openWithState_same tried⟩
    · cases opened
    · cases opened
  · rw [openWithArchive_exhausted exhausted] at opened
    cases opened
  · rw [trapped] at opened
    cases opened

/-- An unopened message leaves the archive. -/
theorem Unopened.fails
    (unopened : Unopened draws message binding archive) :
    ∃ fault,
      openWithArchive draws message binding archive =
        (.error fault, archive) := by
  rcases unopened with exhausted | ⟨place, state, advanced, reaches, tried⟩
  · exact ⟨.badMessage, openWithArchive_exhausted exhausted⟩
  · have decides : ¬ PassesOn draws message binding (place, state) := by
      rintro ⟨fault, after, failed, notReplay⟩
      rw [tried] at failed
      cases failed
      exact notReplay rfl
    refine ⟨.replay, ?_⟩
    rw [openWithArchive_decided reaches decides, Archive.answer, tried]

/-- A refused message was opened by no state. -/
theorem unopened_of_error
    {fault : Fault}
    {after : Archive}
    (failed :
      openWithArchive draws message binding archive = (.error fault, after)) :
    Unopened draws message binding archive := by
  rcases openWithArchive_ends draws message binding archive with
    ⟨place, state, reaches, decides⟩ | exhausted | trapped
  · rw [openWithArchive_decided reaches decides, Archive.answer] at failed
    rcases tried : openWithState (place.draw draws) message binding state with
      ⟨value | other | _, advanced⟩ <;> simp only [tried] at failed
    · cases failed
    · have isReplay : other = .replay := by
        by_contra notReplay
        exact decides ⟨other, advanced, tried, notReplay⟩
      exact Or.inr ⟨place, state, advanced, reaches, isReplay ▸ tried⟩
    · cases failed
  · exact Or.inl exhausted
  · rw [trapped] at failed
    cases failed

end Decisions

/-! ## Taking the session in -/

namespace Archive

/-- A base key that no state has leaves the archive as it was. -/
theorem reviveFrom_false
    {archive after : Archive}
    {wantedVersion index : Nat}
    {wantedBase : Bytes}
    {records : List Bytes}
    (missed :
      archive.reviveFrom wantedVersion wantedBase index records =
        .ok (false, after)) :
    after = archive := by
  induction records generalizing index with
  | nil =>
      cases missed
      rfl
  | cons bytes rest inductionHypothesis =>
      rw [reviveFrom] at missed
      rcases parsed : State.parse bytes with state | fault | _ <;>
        simp only [parsed] at missed
      · split_ifs at missed
        · cases missed
        · exact inductionHypothesis missed
      · exact inductionHypothesis missed
      · cases missed

/-- Reviving never fails with an error. -/
theorem reviveFrom_ne_error
    (archive : Archive)
    (wantedVersion index : Nat)
    (wantedBase : Bytes)
    (records : List Bytes)
    (fault : Fault) :
    archive.reviveFrom wantedVersion wantedBase index records ≠
      .error fault := by
  induction records generalizing index with
  | nil => simp [reviveFrom]
  | cons bytes rest inductionHypothesis =>
      rw [reviveFrom]
      rcases State.parse bytes with state | other | _
      · simp only
        split_ifs
        · simp
        · exact inductionHypothesis (index + 1)
      · exact inductionHypothesis (index + 1)
      · simp

/-- An archive that revives nothing stays. -/
theorem revive_false
    {archive after : Archive}
    {wantedVersion : Nat}
    {wantedBase : Bytes}
    (missed :
      archive.revive wantedVersion wantedBase = .ok (false, after)) :
    after = archive := by
  unfold revive at missed
  split_ifs at missed
  · cases missed
  · exact reviveFrom_false missed

end Archive

section FirstMessages

variable [Hashes] [Curves] [Capsules]
variable
  {us : IdentityPair}
  {ourRegistrationId : Nat}
  {first : Opener}
  {offered : Offered}
  {archive : Archive}

/-- The records are checked before a session goes into the archive. -/
theorem sessionFor_error
    {error : EngineError}
    {after : Archive}
    (refused :
      sessionFor us ourRegistrationId first offered archive =
        (.error error, after)) :
    after = archive := by
  unfold sessionFor at refused
  rcases Call.bind_eq_error.mp refused with
    stepFailed | ⟨found, between, stepped, rest⟩
  · rw [liftM_call_apply, Call.step] at stepFailed
    split at stepFailed <;> cases stepFailed
    rfl
  · rw [liftM_call_apply, Call.step] at stepped
    rcases revived : archive.revive first.version first.base.serialize with
      ⟨value, revivedArchive⟩ | fault | _ <;>
      simp only [revived] at stepped <;> cases stepped
    cases found with
    | true => cases rest
    | false =>
        rcases Call.bind_eq_error.mp rest with
          refusedEarly | ⟨_, _, _, modified⟩
        · obtain ⟨_, rfl⟩ := Prod.mk.inj refusedEarly
          exact Archive.revive_false revived
        · cases modified

variable [Aes] [Kem]
variable
  {draws : Nat → Block 32}
  {binding : Option Binding}

/-- The inner message does not parse, or the archive does not open it. -/
def Refused
    (draws : Nat → Block 32)
    (binding : Option Binding)
    (archive : Archive)
    (data : Bytes) :
    Prop :=
  (∃ fault, Whisper.parse data = .error fault) ∨
    ∃ inner,
      Whisper.parse data = .ok inner ∧ Unopened draws inner binding archive

/-- What is left to do once the session is taken in. -/
theorem openFirst_taken
    {consumed : Option Consumed}
    {taken : Archive}
    (takes :
      sessionFor us ourRegistrationId first offered archive =
        (.ok consumed, taken)) :
    openFirst draws us ourRegistrationId first offered binding archive =
      match Whisper.parse first.inner with
      | .ok inner =>
          ((fun plain => (⟨plain, consumed⟩ : Opened)) <$>
              (openWithArchive draws inner binding taken).1.mapError
                EngineError.fault,
            (openWithArchive draws inner binding taken).2)
      | .error fault => (.error (.fault fault), taken)
      | .trap => (.trap, taken) := by
  unfold openFirst
  rw [Call.bind_of_ok takes]
  rcases Whisper.parse first.inner with inner | fault | _
  · rw [Call.bind_of_ok (liftM_fault_apply (.ok inner) taken)]
    rcases opened : openWithArchive draws inner binding taken with
      ⟨plain | fault | _, after⟩
    · rw [Call.bind_of_ok (by rw [liftM_call_apply, opened]; rfl)]
      simp only [opened]
      rfl
    · rw [Call.bind_of_error (by rw [liftM_call_apply, opened]; rfl)]
      simp only [opened]
      rfl
    · rw [Call.bind_of_trap (by rw [liftM_call_apply, opened]; rfl)]
      simp only [opened]
      rfl
  · exact Call.bind_of_error (liftM_fault_apply (.error fault) taken)
  · exact Call.bind_of_trap (liftM_fault_apply .trap taken)

/-- An opening that succeeds has taken the session in and opened with it. -/
theorem openFirst_eq_ok
    {settled : Archive}
    {opened : Opened}
    (done :
      openFirst draws us ourRegistrationId first offered binding archive =
        (.ok opened, settled)) :
    ∃ taken message,
      sessionFor us ourRegistrationId first offered archive =
          (.ok opened.consumed, taken) ∧
        Whisper.parse first.inner = .ok message ∧
        openWithArchive draws message binding taken =
          (.ok opened.plain, settled) := by
  obtain ⟨consumed, taken, takes, rest⟩ := Call.bind_eq_ok.mp done
  obtain ⟨message, between, parses, rest⟩ := Call.bind_eq_ok.mp rest
  rw [liftM_fault_apply] at parses
  obtain ⟨isMessage, rfl⟩ := Prod.mk.inj parses
  obtain ⟨plain, last, opens, ended⟩ := Call.bind_eq_ok.mp rest
  rw [liftM_call_apply] at opens
  obtain ⟨isPlain, rfl⟩ := Prod.mk.inj opens
  cases ended
  exact ⟨taken, message, takes, Outcome.mapError_eq_ok.mp isMessage,
    Prod.ext (Outcome.mapError_eq_ok.mp isPlain) rfl⟩

/-! ## Errors -/

/-- An error leaves the archive as it was. -/
def OpenFirstAtomic
    (draws : Nat → Block 32)
    (us : IdentityPair)
    (ourRegistrationId : Nat)
    (first : Opener)
    (offered : Offered)
    (binding : Option Binding)
    (archive : Archive) :
    Prop :=
  ∀ error after,
    openFirst draws us ourRegistrationId first offered binding archive =
        (.error error, after) →
      after = archive

/-- What is refused behind a session that is taken in is an error, and stays. -/
theorem openFirst_refused
    {consumed : Option Consumed}
    {taken : Archive}
    (takes :
      sessionFor us ourRegistrationId first offered archive =
        (.ok consumed, taken))
    (refused : Refused draws binding taken first.inner) :
    ∃ error,
      openFirst draws us ourRegistrationId first offered binding archive =
        (.error error, taken) := by
  rcases refused with ⟨fault, parsed⟩ | ⟨inner, parsed, unopened⟩
  · exact ⟨.fault fault, by rw [openFirst_taken takes, parsed]⟩
  · obtain ⟨fault, failed⟩ := unopened.fails
    refine ⟨.fault fault, ?_⟩
    rw [openFirst_taken takes]
    simp only [parsed, failed]
    rfl

/-- An error comes before the session is taken in, or the inner message is refused. -/
theorem refused_of_openFirst
    {error : EngineError}
    {after : Archive}
    (failed :
      openFirst draws us ourRegistrationId first offered binding archive =
        (.error error, after)) :
    after = archive ∨
      ∃ consumed,
        sessionFor us ourRegistrationId first offered archive =
            (.ok consumed, after) ∧
          Refused draws binding after first.inner := by
  rcases takes : sessionFor us ourRegistrationId first offered archive with
    ⟨consumed | refused | _, taken⟩
  · right
    rw [openFirst_taken takes] at failed
    rcases parsed : Whisper.parse first.inner with inner | fault | _ <;>
      simp only [parsed] at failed
    · rcases opened : openWithArchive draws inner binding taken with
        ⟨plain | fault | _, final⟩ <;>
        rw [opened] at failed <;> cases failed
      have unopened := unopened_of_error opened
      obtain rfl := openWithArchive_error opened
      exact ⟨consumed, rfl, Or.inr ⟨inner, parsed, unopened⟩⟩
    · cases failed
      exact ⟨consumed, rfl, Or.inl ⟨fault, parsed⟩⟩
    · cases failed
  · left
    unfold openFirst at failed
    rw [Call.bind_of_error takes] at failed
    cases failed
    exact sessionFor_error takes
  · unfold openFirst at failed
    rw [Call.bind_of_trap takes] at failed
    cases failed

/--
Errors leave the archive as it was exactly when the live state stands under the
message's version and base key, or else neither a shelved state that does nor,
without one, the state the named records make refuses the inner message, save a
new state of which the archive is already full.
-/
theorem openFirst_atomic_iff
    (draws : Nat → Block 32)
    (us : IdentityPair)
    (ourRegistrationId : Nat)
    (first : Opener)
    (offered : Offered)
    (binding : Option Binding)
    (archive : Archive) :
    OpenFirstAtomic draws us ourRegistrationId first offered binding archive ↔
      archive.LiveFor first.version first.base.serialize ∨
        (∀ others state,
            archive.FirstShelved first.version first.base.serialize others
              state →
            ¬ Refused draws binding ⟨some state, archive.behind others⟩
                first.inner) ∧
          (Archive.Without first.version first.base.serialize
              archive.previous →
            ∀ state,
              Answers us ourRegistrationId first offered state →
              Refused draws binding
                ⟨some state, archive.behind archive.previous⟩ first.inner →
              archive.FullOf state) := by
  constructor
  · intro atomic
    by_cases liveFor : archive.LiveFor first.version first.base.serialize
    · exact Or.inl liveFor
    -- What is taken in and refused is what was there before.
    have unmoved {state : State} {records : List Bytes}
        (takenIn :
          TakenIn us ourRegistrationId first offered archive state records)
        (refused : Refused draws binding ⟨some state, records⟩ first.inner) :
        (⟨some state, records⟩ : Archive) = archive := by
      obtain ⟨consumed, takes⟩ :=
        sessionFor_eq_ok.mpr ⟨state, records, takenIn, rfl⟩
      obtain ⟨error, failed⟩ := openFirst_refused takes refused
      exact atomic error _ failed
    refine Or.inr ⟨fun others state stands refused => ?_,
      fun without state answers refused => ?_⟩
    · have same := unmoved (.shelved liveFor stands) refused
      exact liveFor ⟨state, (congrArg Archive.current same).symm, stands.isFor⟩
    · exact Archive.behind_eq_iff.mp
        (unmoved (.made liveFor without answers) refused)
  · intro condition error after failed
    rcases refused_of_openFirst failed with same | ⟨consumed, takes, refused⟩
    · exact same
    obtain ⟨state, records, takenIn, rfl⟩ :=
      sessionFor_eq_ok.mp ⟨consumed, takes⟩
    cases takenIn with
    | live isCurrent isFor => rw [← isCurrent]
    | shelved notLive stands =>
        obtain ⟨noneRefused, _⟩ := condition.resolve_left notLive
        exact absurd refused (noneRefused _ _ stands)
    | made notLive without answers =>
        obtain ⟨_, full⟩ := condition.resolve_left notLive
        exact Archive.behind_eq_iff.mpr (full without state answers refused)

theorem not_atomic_of_changed
    {error : EngineError}
    (failed :
      (openFirst draws us ourRegistrationId first offered binding
        archive).1 = .error error)
    (changed :
      (openFirst draws us ourRegistrationId first offered binding
        archive).2 ≠ archive) :
    ¬ OpenFirstAtomic draws us ourRegistrationId first offered binding
      archive :=
  fun atomic => changed (atomic error _ (Prod.ext failed rfl))

end FirstMessages

section EmptyInner

open Sample

attribute [local instance] hashes curves aes kem capsules

/-- The identity of the answering side. -/
private def ourPair : IdentityPair :=
  ⟨⟨⟨Block.fill 32 1⟩⟩, Curve.Secret.fromRaw (Block.fill 32 1)⟩

/-- Its signed key. -/
private def signedPair : Curve.Pair :=
  ⟨⟨Block.fill 32 11⟩, Curve.Secret.fromRaw (Block.fill 32 11)⟩

/-- The keys it offers; there is no one-time key. -/
private def offeredRecords : Offered where
  signed := some ⟨5, 0, signedPair, Block.zero 64⟩
  oneTime := none
  pq :=
    some ⟨6, 0,
      ⟨⟨.standard, Block.zero 1568⟩, ⟨.standard, Block.zero 3168⟩⟩,
      Block.zero 64⟩

/-- A first message whose inner message is empty. -/
private def emptyInner : Opener.Wrap where
  version := 4
  registrationId := 1
  oneTimeId := none
  signedId := 5
  pqId := 6
  capsule := PostQuantum.Scheme.standard.code :: (Block.zero 1568).bytes
  base := ⟨Block.fill 32 21⟩
  identity := ⟨Block.fill 32 2⟩
  inner := []

/-- A first message as it is parsed. -/
private def openerOf (parts : Opener.Wrap) : Opener :=
  ⟨4, parts.registrationId, parts.oneTimeId, parts.signedId,
    some parts.pqId, some parts.capsule, parts.base, parts.identity,
    parts.inner, parts.encode⟩

set_option maxRecDepth 100000 in
/-- The first message with an empty inner one parses. -/
private theorem emptyInner_parses :
    Opener.parse emptyInner.encode = .ok (openerOf emptyInner) := by
  decide

set_option maxRecDepth 100000 in
/-- It is refused, and the session it started stays. -/
private theorem emptyInner_fails :
    (openFirst (fun _ => Block.zero 32) ourPair 1 (openerOf emptyInner)
        offeredRecords none Archive.empty).1 =
        .error (.fault .badMessage) ∧
      (openFirst (fun _ => Block.zero 32) ourPair 1 (openerOf emptyInner)
        offeredRecords none Archive.empty).2 ≠ Archive.empty := by
  decide

/-- A session is left behind by a first message without an inner one. -/
theorem emptyInner_not_atomic :
    Opener.parse emptyInner.encode = .ok (openerOf emptyInner) ∧
      ¬ OpenFirstAtomic (fun _ => Block.zero 32) ourPair 1
        (openerOf emptyInner) offeredRecords none Archive.empty := by
  obtain ⟨failed, changed⟩ := emptyInner_fails
  exact ⟨emptyInner_parses, not_atomic_of_changed failed changed⟩

end EmptyInner

section Trust

variable [Hashes] [Curves] [Capsules] [Aes] [Kem]

/-! ## Trust -/

/-- A success leaves a live state with the identity the message names. -/
def OpenFirstTrusted
    (draws : Nat → Block 32)
    (us : IdentityPair)
    (ourRegistrationId : Nat)
    (first : Opener)
    (offered : Offered)
    (binding : Option Binding)
    (archive : Archive) :
    Prop :=
  ∀ opened after,
    openFirst draws us ourRegistrationId first offered binding archive =
        (.ok opened, after) →
      ∃ live, after.current = some live ∧ live.remoteKey = first.identity

/-- A state that opens behind the one taken in is that one, or the archive's. -/
theorem has_of_openedBy
    {us : IdentityPair}
    {ourRegistrationId : Nat}
    {first : Opener}
    {offered : Offered}
    {archive : Archive}
    {state opener : State}
    {records : List Bytes}
    {draws : Nat → Block 32}
    {binding : Option Binding}
    {inner : Whisper}
    (takenIn :
      TakenIn us ourRegistrationId first offered archive state records)
    (openedBy : OpenedBy draws inner binding ⟨some state, records⟩ opener) :
    opener.remoteKey = first.identity ∨ archive.Has opener := by
  obtain ⟨place, _, _, ⟨_, earlier, later, split, _⟩, _⟩ := openedBy
  have stands : opener = state ∨
      ∃ record ∈ records, State.parse record = .ok opener := by
    have member :
        (place, opener) ∈ Archive.candidates ⟨some state, records⟩ := by
      rw [split]
      simp
    simp only [Archive.candidates, Option.map_some, Option.toList_some,
      List.singleton_append, List.mem_cons, Prod.mk.injEq] at member
    rcases member with ⟨_, rfl⟩ | shelved
    · exact Or.inl rfl
    · obtain ⟨front, back, split⟩ := List.append_of_mem shelved
      obtain ⟨_, record, _, rfl, _, isState, _⟩ := candidatesFrom_split split
      exact Or.inr ⟨record, by simp, isState⟩
  rcases stands with rfl | ⟨record, member, isState⟩
  · cases takenIn with
    | live isCurrent isFor => exact Or.inr (.live isCurrent)
    | shelved notLive stands => exact Or.inr stands.has
    | made notLive without answers => exact Or.inl answers.remoteKey
  · exact Or.inr (takenIn.has member isState)

/--
The live state has the named identity exactly when no state of the archive with
another one opens the inner message, in its place or behind the state that is
taken in.
-/
theorem openFirst_trusted_iff
    (draws : Nat → Block 32)
    (us : IdentityPair)
    (ourRegistrationId : Nat)
    (first : Opener)
    (offered : Offered)
    (binding : Option Binding)
    (archive : Archive) :
    OpenFirstTrusted draws us ourRegistrationId first offered binding archive ↔
      ∀ other,
        archive.Has other →
        other.remoteKey ≠ first.identity →
          ∀ state records inner,
            TakenIn us ourRegistrationId first offered archive state records →
            Whisper.parse first.inner = .ok inner →
              ¬ OpenedBy draws inner binding ⟨some state, records⟩ other := by
  constructor
  · intro trusted other _ differs state records inner takenIn parsed openedBy
    obtain ⟨consumed, takes⟩ :=
      sessionFor_eq_ok.mpr ⟨state, records, takenIn, rfl⟩
    obtain ⟨plain, after, advanced, opened, isLive, same⟩ := openedBy.opens
    obtain ⟨live, isCurrent, named⟩ := trusted ⟨plain, consumed⟩ after (by
      rw [openFirst_taken takes]
      simp only [parsed, opened]
      rfl)
    rw [isLive] at isCurrent
    cases isCurrent
    exact differs (same.remoteKey.symm.trans named)
  · intro noOther opened after succeeded
    obtain ⟨taken, inner, takes, parsed, innerOpened⟩ :=
      openFirst_eq_ok succeeded
    obtain ⟨state, records, takenIn, rfl⟩ :=
      sessionFor_eq_ok.mp ⟨_, takes⟩
    obtain ⟨opener, advanced, openedBy, isLive, same⟩ :=
      openedBy_of_ok innerOpened
    refine ⟨advanced, isLive, same.remoteKey.trans ?_⟩
    rcases has_of_openedBy takenIn openedBy with named | has
    · exact named
    · by_contra differs
      exact noOther opener has differs state records inner takenIn parsed
        openedBy

theorem not_trusted_of_other
    {draws : Nat → Block 32}
    {us : IdentityPair}
    {ourRegistrationId : Nat}
    {first : Opener}
    {offered : Offered}
    {binding : Option Binding}
    {archive : Archive}
    {opened : Opened}
    {remote : Curve.Public}
    (opens :
      (openFirst draws us ourRegistrationId first offered binding
        archive).1 = .ok opened)
    (isRemote :
      (openFirst draws us ourRegistrationId first offered binding
        archive).2.current.map State.remoteKey = some remote)
    (other : remote ≠ first.identity) :
    ¬ OpenFirstTrusted draws us ourRegistrationId first offered binding
      archive := by
  intro trusted
  obtain ⟨live, isLive, named⟩ := trusted opened _ (Prod.ext opens rfl)
  rw [isLive, Option.map_some, named] at isRemote
  exact other (Option.some.inj isRemote).symm

end Trust

section OtherIdentity

open Sample

attribute [local instance] hashes curves aes kem capsules

/-- The base key of a session that exists. -/
private def knownBase : Curve.Public :=
  ⟨Block.fill 32 21⟩

/-- An archive with that session live. -/
private def sessionArchive : Archive :=
  ⟨some { sampleState with base := knownBase.serialize }, []⟩

/-- The session's own message, wrapped under the name of somebody else. -/
private def otherIdentity : Opener.Wrap where
  version := 4
  registrationId := 1
  oneTimeId := none
  signedId := 5
  pqId := 6
  capsule := []
  base := knownBase
  identity := ⟨Block.fill 32 77⟩
  inner := sampleWhisper.bytes

set_option maxRecDepth 100000 in
/-- The first message of another identity parses. -/
private theorem otherIdentity_parses :
    Opener.parse otherIdentity.encode = .ok (openerOf otherIdentity) := by
  decide

set_option maxRecDepth 100000 in
/-- It is opened by a session with the first identity. -/
private theorem otherIdentity_opens :
    (openFirst (fun _ => Block.zero 32) ourPair 1 (openerOf otherIdentity)
        ⟨none, none, none⟩ none sessionArchive).1 =
        .ok ⟨[1], none⟩ ∧
      (openFirst (fun _ => Block.zero 32) ourPair 1 (openerOf otherIdentity)
        ⟨none, none, none⟩ none sessionArchive).2.current.map
          State.remoteKey = some ⟨Block.fill 32 2⟩ := by
  decide

/-- The session is with the sender of the inner message, not with the one named. -/
theorem otherIdentity_not_trusted :
    Opener.parse otherIdentity.encode = .ok (openerOf otherIdentity) ∧
      ¬ OpenFirstTrusted (fun _ => Block.zero 32) ourPair 1
        (openerOf otherIdentity) ⟨none, none, none⟩ none sessionArchive := by
  obtain ⟨opens, isRemote⟩ := otherIdentity_opens
  exact ⟨otherIdentity_parses,
    not_trusted_of_other opens isRemote (by decide)⟩

end OtherIdentity

end Gossveil.Ratchet
