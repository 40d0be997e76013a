import Gossveil.Engine

namespace Gossveil.Ratchet

/-!
# Which state opens a message

The live state is tried first, then the shelved ones, newest first.  A state
that is tried and fails leaves the archive as it was; the first that opens the
message becomes live in its advanced form.
-/

/-! ## What an opening keeps of a state -/

/-- Opening moves keys and chains; whose session it is stays. -/
structure SameSession (before after : State) : Prop where
  version : after.version = before.version
  localKey : after.localKey = before.localKey
  remoteKey : after.remoteKey = before.remoteKey
  base : after.base = before.base
  remoteRegistrationId :
    after.remoteRegistrationId = before.remoteRegistrationId
  localRegistrationId :
    after.localRegistrationId = before.localRegistrationId

theorem SameSession.refl (state : State) : SameSession state state :=
  ⟨rfl, rfl, rfl, rfl, rfl, rfl⟩

/-- Taking a kept key leaves the session. -/
theorem SameSession.takeSkipped
    {before state after : State}
    {theirRatchet : Curve.Public}
    {index : Nat}
    {slot : Slot}
    (same : SameSession before state)
    (takes : state.takeSkipped theirRatchet index = some (slot, after)) :
    SameSession before after := by
  simp only [State.takeSkipped, Option.bind_eq_bind,
    Option.bind_eq_some_iff, Option.pure_def, Option.some.injEq,
    Prod.mk.injEq] at takes
  obtain ⟨_, _, _, _, _, rfl⟩ := takes
  exact { same with }

/-- Keeping a key leaves the session. -/
theorem SameSession.keepSkipped
    {before state after : State}
    {theirRatchet : Curve.Public}
    {slot : Slot}
    (same : SameSession before state)
    (keeps : state.keepSkipped theirRatchet slot = .ok after) :
    SameSession before after := by
  simp only [State.keepSkipped, Outcome.bind_eq_ok] at keeps
  obtain ⟨_, _, done⟩ := keeps
  cases done
  exact { same with }

section Derivations

variable [Hashes]

/-- Skipping leaves the session. -/
theorem keepUpTo_keeps
    (before : State)
    (theirRatchet : Curve.Public)
    (count : Nat)
    (chain : Chain) :
    Call.Keeps (SameSession before) (keepUpTo theirRatchet count chain) := by
  induction count generalizing chain with
  | zero =>
      exact Call.Keeps.pure _
  | succ count inductionHypothesis =>
      apply Call.Triple.read
      intro state same
      apply Call.Triple.lift_bind fun _ isState => isState ▸ same
      intro kept isKept
      apply Call.Triple.set_bind (same.keepSkipped isKept)
      exact Call.Keeps.bind (Call.Keeps.lift _) inductionHypothesis

/-- Finding the keys leaves the session. -/
theorem slotFor_keeps
    (before : State)
    (theirRatchet : Curve.Public)
    (chain : Chain)
    (index : Nat) :
    Call.Keeps (SameSession before) (slotFor theirRatchet chain index) := by
  apply Call.Triple.read
  intro state same
  by_cases behind : index < chain.index
  · simp only [if_pos behind]
    apply Call.Triple.lift_bind fun _ isState => isState ▸ same
    rintro ⟨slot, after⟩ isTaken
    apply Call.Triple.set_bind
      (same.takeSkipped (Outcome.ofOption_eq_ok.mp isTaken))
    exact Call.Keeps.pure _
  · simp only [if_neg behind]
    refine Call.Triple.weaken (Call.Keeps.bind (Call.Keeps.lift _) ?_)
      fun current isState => isState ▸ same
    intro _
    apply Call.Keeps.bind (keepUpTo_keeps _ _ _ _)
    intro last
    apply Call.Keeps.bind (Call.Keeps.lift _)
    intro next
    apply Call.Triple.read
    intro current sameCurrent
    apply Call.Triple.lift_bind fun _ isState => isState ▸ sameCurrent
    intro _ _
    have sameChanged : SameSession before (current.changeLane theirRatchet
        fun lane => { lane with chain := next }) := { sameCurrent with }
    exact Call.Triple.set_bind sameChanged (Call.Keeps.pure _)

variable [Curves]

/-- A turn leaves the session. -/
theorem laneChain_keeps
    (before : State)
    (theirRatchet : Curve.Public)
    (draw : Block 32) :
    Call.Keeps (SameSession before) (laneChain theirRatchet draw) := by
  unfold laneChain
  apply Call.Keeps.bind Call.Keeps.get
  intro state
  cases state.receivingLane theirRatchet with
  | some lane =>
      exact Call.Keeps.pure _
  | none =>
      apply Call.Keeps.bind (Call.Keeps.lift _)
      intro ours
      apply Call.Keeps.bind (Call.Keeps.lift _)
      intro agreement
      apply Call.Keeps.bind (Call.Keeps.lift _)
      intro fresh
      apply Call.Keeps.bind (Call.Keeps.lift _)
      intro turned
      apply Call.Keeps.bind (Call.Keeps.modify fun _ same => { same with })
      intro _
      apply Call.Keeps.bind (Call.Keeps.modify fun _ same => { same with })
      intro _
      apply Call.Keeps.bind Call.Keeps.get
      intro _
      apply Call.Keeps.bind (Call.Keeps.lift _)
      intro _
      apply Call.Keeps.bind (Call.Keeps.modify fun _ same => { same with })
      intro _
      apply Call.Keeps.bind (Call.Keeps.modify fun _ same => { same with })
      intro _
      exact Call.Keeps.pure _

variable [Aes] [Kem]

/-- Opening leaves the session. -/
theorem openWithState_keeps
    (before : State)
    (draw : Block 32)
    (message : Whisper)
    (binding : Option Binding) :
    Call.Keeps (SameSession before)
      (openWithState draw message binding) := by
  unfold openWithState
  apply Call.Keeps.bind Call.Keeps.get
  intro state
  apply Call.Keeps.bind (Call.Keeps.lift _)
  intro _
  apply Call.Keeps.bind (Call.Keeps.lift _)
  intro _
  apply Call.Keeps.bind (Call.Keeps.lift _)
  intro _
  apply Call.Keeps.bind (laneChain_keeps _ _ _)
  intro chain
  apply Call.Keeps.bind (slotFor_keeps _ _ _ _)
  intro slot
  apply Call.Keeps.bind Call.Keeps.get
  intro _
  apply Call.Keeps.bind (Call.Keeps.lift _)
  intro received
  apply Call.Keeps.bind (Call.Keeps.modify fun _ same => { same with })
  intro _
  apply Call.Keeps.bind Call.Keeps.get
  intro _
  apply Call.Keeps.bind (Call.Keeps.lift _)
  intro _
  apply Call.Keeps.bind (Call.Keeps.lift _)
  intro plain
  apply Call.Keeps.bind (Call.Keeps.modify fun _ same => { same with })
  intro _
  exact Call.Keeps.pure _

/-- A state that has opened a message is still of the same session. -/
theorem openWithState_same
    {state advanced : State}
    {draw : Block 32}
    {message : Whisper}
    {binding : Option Binding}
    {plain : Bytes}
    (opens :
      openWithState draw message binding state = (.ok plain, advanced)) :
    SameSession state advanced :=
  (openWithState_keeps state draw message binding state
    (SameSession.refl state)).1 plain advanced opens

/-! ## The order in which states are tried -/

/-- Where a state of the archive stands. -/
inductive Place where
  | live
  | shelved (index : Nat)
  deriving DecidableEq, Repr

/-- The draw of an attempt. -/
def Place.draw (draws : Nat → Block 32) : Place → Block 32
  | .live => draws 0
  | .shelved index => draws (index + 1)

end Derivations

/-- The records from an index on that parse. -/
def candidatesFrom : (index : Nat) → List Bytes → List (Place × State)
  | _, [] => []
  | index, bytes :: rest =>
      match State.parse bytes with
      | .ok state => (.shelved index, state) :: candidatesFrom (index + 1) rest
      | _ => candidatesFrom (index + 1) rest

namespace Archive

/-- The states in the order they are tried. -/
def candidates (archive : Archive) : List (Place × State) :=
  (archive.current.map fun current => (Place.live, current)).toList ++
    candidatesFrom 0 archive.previous

/-- A state goes back to its place, or is promoted from it. -/
def settle (archive : Archive) (place : Place) (state : State) : Archive :=
  match place with
  | .live => { archive with current := some state }
  | .shelved index => archive.promoteShelved index state

end Archive

section Attempts

variable [Hashes] [Curves] [Aes] [Kem]

/-- An attempt that fails, but not on a replay, so that the next one is made. -/
def PassesOn
    (draws : Nat → Block 32)
    (message : Whisper)
    (binding : Option Binding)
    (candidate : Place × State) :
    Prop :=
  ∃ fault after,
    openWithState (candidate.1.draw draws) message binding candidate.2 =
        (.error fault, after) ∧
      fault ≠ .replay

/-- A candidate opens the message, and every candidate before it passes on. -/
structure FirstToOpen
    (draws : Nat → Block 32)
    (message : Whisper)
    (binding : Option Binding)
    (candidates : List (Place × State))
    (place : Place)
    (state : State)
    (plain : Bytes)
    (advanced : State) :
    Prop where
  opens :
    openWithState (place.draw draws) message binding state =
      (.ok plain, advanced)
  first :
    ∃ earlier later,
      candidates = earlier ++ (place, state) :: later ∧
        ∀ candidate ∈ earlier, PassesOn draws message binding candidate

/-- A candidate that passes on leaves it to the rest. -/
theorem FirstToOpen.cons
    {draws : Nat → Block 32}
    {message : Whisper}
    {binding : Option Binding}
    {candidate : Place × State}
    {rest : List (Place × State)}
    {place : Place}
    {state : State}
    {plain : Bytes}
    {advanced : State}
    (passes : PassesOn draws message binding candidate)
    (opened :
      FirstToOpen draws message binding rest place state plain advanced) :
    FirstToOpen draws message binding (candidate :: rest) place state plain
      advanced := by
  obtain ⟨opens, earlier, later, rfl, allPass⟩ := opened
  refine ⟨opens, candidate :: earlier, later, rfl, ?_⟩
  intro other member
  rcases List.mem_cons.mp member with rfl | inEarlier
  · exact passes
  · exact allPass other inEarlier

variable
  {draws : Nat → Block 32}
  {message : Whisper}
  {binding : Option Binding}
  {archive after : Archive}
  {plain : Bytes}
  {fault : Fault}

/-- If no shelved state opens, none has changed. -/
theorem openShelved_error
    {index : Nat}
    {records : List Bytes}
    (failed :
      openShelved draws message binding archive index records =
        (.error fault, after)) :
    after = archive := by
  induction records generalizing index with
  | nil =>
      cases failed
      rfl
  | cons bytes rest inductionHypothesis =>
      rw [openShelved] at failed
      rcases parsed : State.parse bytes with candidate | other | _ <;>
        simp only [parsed] at failed
      · rcases tried :
            openWithState (draws (index + 1)) message binding candidate with
          ⟨opened | other | _, advanced⟩ <;> simp only [tried] at failed
        · cases failed
        · split_ifs at failed
          · cases failed
            rfl
          · exact inductionHypothesis failed
        · cases failed
      · exact inductionHypothesis failed
      · cases failed

/-- The loop opens with the first record that does, and promotes it. -/
theorem openShelved_ok
    {index : Nat}
    {records : List Bytes}
    (opened :
      openShelved draws message binding archive index records =
        (.ok plain, after)) :
    ∃ found state advanced,
      found < index + records.length ∧
        FirstToOpen draws message binding (candidatesFrom index records)
          (.shelved found) state plain advanced ∧
        after = archive.promoteShelved found advanced := by
  induction records generalizing index with
  | nil =>
      cases opened
  | cons bytes rest inductionHypothesis =>
      rw [openShelved] at opened
      rw [candidatesFrom]
      rcases parsed : State.parse bytes with candidate | other | _ <;>
        simp only [parsed] at opened ⊢
      · rcases tried :
            openWithState (draws (index + 1)) message binding candidate with
          ⟨value | other | _, advanced⟩ <;> simp only [tried] at opened
        · cases opened
          refine ⟨index, candidate, advanced, ?_, ⟨tried, [], _, rfl, ?_⟩, rfl⟩
          · simp
          · simp
        · split_ifs at opened with isReplay
          · cases opened
          · obtain ⟨found, state, final, inside, isFirst, settled⟩ :=
              inductionHypothesis opened
            refine ⟨found, state, final, ?_, ?_, settled⟩
            · simp only [List.length_cons]
              omega
            · exact isFirst.cons ⟨other, advanced, tried, isReplay⟩
        · cases opened
      · obtain ⟨found, state, final, inside, isFirst, settled⟩ :=
          inductionHypothesis opened
        refine ⟨found, state, final, ?_, isFirst, settled⟩
        simp only [List.length_cons]
        omega
      · cases opened

/-- An error leaves the archive as it was. -/
theorem openWithArchive_error
    (failed :
      openWithArchive draws message binding archive = (.error fault, after)) :
    after = archive := by
  unfold openWithArchive at failed
  cases isCurrent : archive.current with
  | none =>
      simp only [isCurrent] at failed
      exact openShelved_error failed
  | some current =>
      simp only [isCurrent, State.clone_eq] at failed
      rcases tried : openWithState (draws 0) message binding current with
        ⟨opened | other | _, advanced⟩ <;> simp only [tried] at failed
      · cases failed
      · split_ifs at failed
        · cases failed
          rfl
        · exact openShelved_error failed
      · cases failed

/-- The first candidate that opens the message is settled in the archive. -/
theorem openWithArchive_ok
    (opened :
      openWithArchive draws message binding archive = (.ok plain, after)) :
    ∃ place state advanced,
      (∀ index, place = .shelved index → index < archive.previous.length) ∧
        FirstToOpen draws message binding archive.candidates place state plain
          advanced ∧
        after = archive.settle place advanced := by
  unfold openWithArchive at opened
  rw [Archive.candidates]
  cases isCurrent : archive.current with
  | none =>
      simp only [isCurrent] at opened
      obtain ⟨found, state, advanced, inside, isFirst, settled⟩ :=
        openShelved_ok opened
      refine ⟨.shelved found, state, advanced, ?_, isFirst, settled⟩
      rintro _ ⟨⟩
      simpa using inside
  | some current =>
      simp only [isCurrent, State.clone_eq] at opened
      rcases tried : openWithState (draws 0) message binding current with
        ⟨value | other | _, advanced⟩ <;> simp only [tried] at opened
      · cases opened
        refine ⟨.live, current, advanced, by simp, ⟨tried, [], _, rfl, ?_⟩,
          rfl⟩
        simp
      · split_ifs at opened with isReplay
        · cases opened
        · obtain ⟨found, state, final, inside, isFirst, settled⟩ :=
            openShelved_ok opened
          refine ⟨.shelved found, state, final, ?_, ?_, settled⟩
          · rintro _ ⟨⟩
            simpa using inside
          · exact isFirst.cons ⟨other, advanced, tried, isReplay⟩
      · cases opened

end Attempts

/-! ## The opening specification -/

namespace Archive

/-- The record of the live state, when another state becomes live. -/
def displaced (archive : Archive) : Place → List Bytes
  | .live => []
  | .shelved _ => (archive.current.map State.serialize).toList

/-- The shelved records but for the one at a place. -/
def others (archive : Archive) : Place → List Bytes
  | .live => archive.previous
  | .shelved index => archive.previous.eraseIdx index

/--
The others that stay shelved: all of them, but for the oldest of more than
forty when the live state joins them.
-/
def keptOthers (archive : Archive) : Place → List Bytes
  | .live => archive.previous
  | .shelved index =>
      if archive.current.isSome ∧ maxPrevious < archive.previous.length then
        (archive.previous.eraseIdx index).dropLast
      else
        archive.previous.eraseIdx index

/-- Settling displaces the live record and keeps the others. -/
theorem previous_settle
    {archive : Archive}
    {place : Place}
    (inside :
      ∀ index, place = .shelved index → index < archive.previous.length)
    (state : State) :
    (archive.settle place state).previous =
      archive.displaced place ++ archive.keptOthers place := by
  cases place with
  | live => rfl
  | shelved index =>
      have length :
          (archive.previous.eraseIdx index).length + 1 =
            archive.previous.length :=
        List.length_eraseIdx_add_one (inside index rfl)
      cases isCurrent : archive.current with
      | none =>
          simp [settle, promoteShelved, promote, shelve, displaced,
            keptOthers, isCurrent]
      | some current =>
          simp only [settle, promoteShelved, promote, shelve, displaced,
            keptOthers, isCurrent, ← length]
          simp

theorem current_settle
    (archive : Archive)
    (place : Place)
    (state : State) :
    (archive.settle place state).current = some state := by
  cases place <;> rfl

end Archive

/-- The archive after an opening, with what became of the other records. -/
structure Settles
    (archive after : Archive)
    (place : Place)
    (advanced : State)
    (others : List Bytes) :
    Prop where
  live : after.current = some advanced
  shelves : after.previous = archive.displaced place ++ others
  readsBack :
    ∀ current index,
      archive.current = some current →
      place = .shelved index →
      current.Sound →
      current.serialize.length < 2 ^ 64 →
      after.shelved 0 = .ok current

section Specification

variable [Hashes] [Curves] [Aes] [Kem]

/-- The specification of an opening, over what is to become of the others. -/
def OpensBeside
    (others : Archive → Place → List Bytes)
    (draws : Nat → Block 32)
    (message : Whisper)
    (binding : Option Binding)
    (archive : Archive) :
    Prop :=
  (∀ fault after,
    openWhisper draws message binding archive = (.error fault, after) →
      after = archive) ∧
    ∀ plain after,
      openWhisper draws message binding archive = (.ok plain, after) →
        ∃ place state advanced,
          FirstToOpen draws message binding archive.candidates place state
              plain advanced ∧
            Settles archive after place advanced (others archive place)

/--
An error leaves the archive unchanged; a success is the first candidate's that
opens the message, and of the other states only the oldest of more than forty
shelved ones can be lost.
-/
theorem openWhisper_opens
    (draws : Nat → Block 32)
    (message : Whisper)
    (binding : Option Binding)
    (archive : Archive) :
    OpensBeside Archive.keptOthers draws message binding archive := by
  refine ⟨fun fault after => openWithArchive_error, ?_⟩
  intro plain after opened
  obtain ⟨place, state, advanced, inside, isFirst, rfl⟩ :=
    openWithArchive_ok opened
  refine ⟨place, state, advanced, isFirst, ?_⟩
  have shelves := Archive.previous_settle inside advanced
  refine ⟨archive.current_settle place advanced, shelves, ?_⟩
  rintro current index isCurrent rfl sound short
  have front :
      (archive.settle (.shelved index) advanced).previous =
        current.serialize :: archive.keptOthers (.shelved index) := by
    rw [shelves, Archive.displaced, isCurrent]
    rfl
  rw [Archive.shelved, front]
  exact State.parse_serialize sound.fits sound.keyed short

/-- With a live state, a shelved list that got shorter has lost a record. -/
theorem not_opensBeside_of_shorter
    {draws : Nat → Block 32}
    {message : Whisper}
    {binding : Option Binding}
    {archive : Archive}
    {plain : Bytes}
    (isLive : archive.current ≠ none)
    (opens : (openWhisper draws message binding archive).1 = .ok plain)
    (shorter :
      (openWhisper draws message binding archive).2.previous.length <
        archive.previous.length) :
    ¬ OpensBeside Archive.others draws message binding archive := by
  rintro ⟨_, spec⟩
  obtain ⟨place, state, advanced, _, settled⟩ :=
    spec plain _ (Prod.ext opens rfl)
  rw [settled.shelves] at shorter
  obtain ⟨current, isCurrent⟩ := Option.ne_none_iff_exists'.mp isLive
  cases place with
  | live =>
      simp [Archive.displaced, Archive.others] at shorter
  | shelved index =>
      simp only [Archive.displaced, Archive.others, isCurrent,
        Option.map_some, Option.toList_some, List.length_append,
        List.length_singleton, List.length_eraseIdx] at shorter
      split_ifs at shorter <;> omega

end Specification

end Gossveil.Ratchet

namespace Gossveil.Ratchet

open Sample

attribute [local instance] hashes curves aes kem

/-- The ratchet key of the sample message. -/
def sampleRatchet : Curve.Public :=
  ⟨Block.fill 32 9⟩

/-- A state with one lane each way, both at index 0. -/
def sampleState : State :=
  { State.init 4 ⟨Block.fill 32 1⟩ ⟨Block.fill 32 2⟩ (Block.zero 32) [] []
    with
    sending :=
      some ⟨⟨Block.fill 32 3⟩, some (Curve.Secret.fromRaw (Block.zero 32)),
        ⟨Block.zero 32, 0⟩, []⟩
    receiving := [⟨sampleRatchet, none, ⟨Block.zero 32, 0⟩, []⟩] }

/-- A message on the receiving lane of that state. -/
def sampleSeal : Whisper.Seal :=
  let keys := (Chain.slot ⟨Block.zero 32, 0⟩).openKeys none
  { version := 4
    macKey := keys.mac
    binding := none
    ratchet := sampleRatchet
    index := 0
    previousIndex := 0
    body := Cipher.cbcSeal keys.cipher keys.iv [1]
    sender := ⟨Block.fill 32 2⟩
    recipient := ⟨Block.fill 32 1⟩
    pqPacket := [] }

/-- The same as a parsed message. -/
def sampleWhisper : Whisper :=
  ⟨4, sampleRatchet, 0, 0, sampleSeal.body, [], none, sampleSeal.encode,
    sampleSeal.longEnough⟩

/-- A state of a session with somebody else. -/
private def elsewhere : State :=
  { sampleState with remoteKey := ⟨Block.fill 32 8⟩ }

/--
The live state is of another version; of forty-one shelved records the first
opens the message, and the others are of another session.
-/
private def fullArchive : Archive :=
  ⟨some { sampleState with version := 3 },
    sampleState.serialize :: List.replicate 40 elsewhere.serialize⟩

set_option maxRecDepth 100000 in
/-- Opening with a full archive loses the last of its states. -/
private theorem fullArchive_opens :
    (openWhisper (fun _ => Block.zero 32) sampleWhisper none fullArchive).1 =
        .ok [1] ∧
      (openWhisper (fun _ => Block.zero 32) sampleWhisper none
          fullArchive).2.previous.length < fullArchive.previous.length := by
  decide +kernel

/-- One of the forty other shelved states is lost. -/
theorem fullArchive_not_opensBeside :
    ¬ OpensBeside Archive.others (fun _ => Block.zero 32) sampleWhisper none
      fullArchive := by
  obtain ⟨opens, shorter⟩ := fullArchive_opens
  exact not_opensBeside_of_shorter (by simp [fullArchive]) opens shorter

end Gossveil.Ratchet
