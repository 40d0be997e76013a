import Gossveil.CircleMembers
import Gossveil.CircleStore

namespace Gossveil.Circle

/-!
# Notes delivered in any order

A sender announces its chain and seals notes; a receiver admits announcements
and opens the notes in any order, lost and duplicated ones included, among
whatever it does with fewer than five other chains.

The sender does not depend on the receiver, so a receiver that is given
everything the sender makes in a run covers every interleaving of the two.
-/

/-! ## The sender -/

/-- A plaintext with the note it was sealed in. -/
structure Posted where
  plain : Bytes
  bytes : Bytes
  deriving DecidableEq

/-- What a call returned, if it did. -/
def returned {α : Type} : Outcome Fault α → List α
  | .ok value => [value]
  | _ => []

section Sender

variable [Curves]

/-- The chain a sender has created. -/
structure Sender where
  signing : Curve.Pair
  chainId : Nat
  seed : Block 32
  whole : signing.Whole
  chainFits : chainId < 2 ^ 32

variable [Hashes]

/-- What the sender keeps of its chain at a step. -/
def Sender.member (sender : Sender) (step : Nat) : Member :=
  { version := currentVersion
    chainId := sender.chainId
    link := linkAt sender.seed step
    signing := sender.signing.publicKey
    signingSecret := some sender.signing.secret
    skipped := [] }

/-- What a receiver keeps of the chain, as a store of skipped steps says. -/
def Sender.copy (sender : Sender) (store : SkipStore) : Member :=
  Member.movedTo
    { version := currentVersion
      chainId := sender.chainId
      link := linkAt sender.seed 0
      signing := sender.signing.publicKey
      signingSecret := none
      skipped := [] }
    sender.seed store

/-- An announcement the sender can have made. -/
structure Sender.Made (sender : Sender) (announcement : Announce) : Prop where
  version : announcement.version = currentVersion
  chain : announcement.chainId = sender.chainId
  link :
    (⟨announcement.step, announcement.seed⟩ : Link) =
      linkAt sender.seed announcement.step
  signing : announcement.signing = sender.signing.publicKey

variable [Aes]

/-- A note the sender can have sealed, and what it is parsed to. -/
structure Sender.Sealed
    (sender : Sender)
    (posted : Posted)
    (note : Note) :
    Prop where
  read : Note.parse posted.bytes = .ok note
  version : note.version = currentVersion
  chain : note.chainId = sender.chainId
  fits : note.step + 1 < 2 ^ 32
  body :
    note.body =
      Cipher.cbcSeal (yieldAt sender.seed note.step).keys.cipher
        (yieldAt sender.seed note.step).keys.iv posted.plain
  signed : note.signedBy sender.signing.publicKey = true

/-- The notes of a sender whose chain stands at a step, each of its own step. -/
structure Sender.Posts
    (sender : Sender)
    (step : Nat)
    (posted : List Posted) :
    Prop where
  sealed :
    ∀ entry ∈ posted, ∃ note, sender.Sealed entry note ∧ note.step < step
  ordered :
    posted.Pairwise fun newer older =>
      ∀ newerNote olderNote,
        sender.Sealed newer newerNote →
        sender.Sealed older olderNote →
        olderNote.step < newerNote.step

/--
The runs of a sender from the empty circle: what it has announced and what it
has posted, newest first.  A call that fails adds nothing.
-/
inductive Sends : List Announce → List Posted → Circle → Prop where
  | start : Sends [] [] init
  | announce
      {announced : List Announce}
      {posted : List Posted}
      {circle after : Circle}
      {circleId : Block 16}
      {draw : Draw}
      {answer : Outcome Fault Announce}
      (before : Sends announced posted circle)
      (ran : circle.announce circleId draw = (after, answer))
      (noTrap : answer ≠ .trap) :
      Sends (returned answer ++ announced) posted after
  | «seal»
      {announced : List Announce}
      {posted : List Posted}
      {circle after : Circle}
      {circleId : Block 16}
      {plain : Bytes}
      {nonce : Block 64}
      {answer : Outcome Fault Bytes}
      (before : Sends announced posted circle)
      (room : plain.length + 16 < 2 ^ 64)
      (ran : circle.seal circleId plain nonce = (after, answer))
      (noTrap : answer ≠ .trap) :
      Sends announced ((returned answer).map (Posted.mk plain) ++ posted)
        after

omit [Curves] [Hashes] [Aes] in
theorem intCast_currentVersion
    {version : Nat}
    (current : version = currentVersion) :
    (Outcome.intCast 8 version : Outcome Fault Nat) = .ok Post.version := by
  rw [current, Outcome.intCast_of_lt (by decide)]
  rfl

omit [Aes] in
/-- A member announces itself as it stands. -/
theorem announce_member
    {sender : Sender}
    {step : Nat}
    (circleId : Block 16)
    (draw : Draw)
    (stepFits : step < 2 ^ 32) :
    ∃ announcement,
      Circle.announce ⟨[sender.member step]⟩ circleId draw =
          (⟨[sender.member step]⟩, .ok announcement) ∧
        sender.Made announcement := by
  have made :=
    Announce.make_eq_ok circleId (linkAt sender.seed step).seed
      sender.signing.publicKey sender.chainFits stepFits
  have ran :
      Circle.announce ⟨[sender.member step]⟩ circleId draw =
        (⟨[sender.member step]⟩,
          Announce.make Post.version circleId sender.chainId step
            (linkAt sender.seed step).seed sender.signing.publicKey) := by
    simp only [Circle.announce, withChain, newest, List.head?_cons,
      Outcome.unwrap_some, Outcome.ok_bind]
    rw [intCast_currentVersion
      (show (sender.member step).version = currentVersion from rfl)]
    rfl
  rw [made] at ran
  exact ⟨_, ran, ⟨rfl, rfl, rfl, rfl⟩⟩

omit [Aes] in
/-- A first announcement makes the sender, or fails. -/
theorem announce_fresh
    {circleId : Block 16}
    {draw : Draw}
    {after : Circle}
    {answer : Outcome Fault Announce}
    (ran : Circle.announce init circleId draw = (after, answer)) :
    (after = init ∧ returned answer = []) ∨
      ∃ sender : Sender, ∃ announcement,
        after = ⟨[sender.member 0]⟩ ∧
          answer = .ok announcement ∧
          sender.Made announcement := by
  cases isPair : Curve.Pair.fromSeed draw.signing with
  | error fault =>
      have failed :
          Circle.announce init circleId draw = (init, .error fault) := by
        simp [Circle.announce, withChain, newest, init, isPair]
      obtain ⟨rfl, rfl⟩ := Prod.mk.inj (failed.symm.trans ran)
      exact .inl ⟨rfl, rfl⟩
  | trap => exact absurd isPair (Curve.Pair.fromSeed_ne_trap _)
  | ok pair =>
      have chainFits :
          Codec.Reader.littleEndian draw.chainId.bytes < 2 ^ 32 := by
        have bound := Codec.Reader.littleEndian_lt draw.chainId.bytes
        rwa [draw.chainId.length_bytes] at bound
      let sender : Sender :=
        { signing := pair
          chainId := Codec.Reader.littleEndian draw.chainId.bytes
          seed := draw.seed
          whole := Curve.Pair.whole_of_fromSeed isPair
          chainFits := chainFits }
      obtain ⟨announcement, made, isMade⟩ :=
        @announce_member _ _ sender 0 circleId draw (by decide)
      have same :
          Circle.announce init circleId draw =
            Circle.announce ⟨[sender.member 0]⟩ circleId draw := by
        simp only [Circle.announce, withChain, newest, init, List.head?_nil,
          List.head?_cons, isPair]
        rfl
      obtain ⟨rfl, rfl⟩ := Prod.mk.inj ((same.trans made).symm.trans ran)
      exact .inr ⟨sender, announcement, rfl, rfl, isMade⟩

/-- A seal that succeeds posts a note of the chain and advances it. -/
theorem seal_member
    (verifies : Curve.SignaturesVerify)
    {sender : Sender}
    {step : Nat}
    {circleId : Block 16}
    {plain bytes : Bytes}
    {nonce : Block 64}
    {after : Circle}
    (stepFits : step < 2 ^ 32)
    (room : plain.length + 16 < 2 ^ 64)
    (ran :
      Circle.seal ⟨[sender.member step]⟩ circleId plain nonce =
        (after, .ok bytes)) :
    step + 1 < 2 ^ 32 ∧
      after = ⟨[sender.member (step + 1)]⟩ ∧
      ∃ note, sender.Sealed ⟨plain, bytes⟩ note ∧ note.step = step := by
  have sealed :
      ∃ changed,
        sealFor (sender.member step) circleId plain nonce =
            .ok (bytes, changed) ∧
          after = Circle.store ⟨[sender.member step]⟩ changed := by
    simp only [Circle.seal, newest, List.head?_cons] at ran
    split at ran
    · rename_i found changed isSealed
      obtain ⟨rfl, answered⟩ := Prod.mk.inj ran
      obtain rfl := Outcome.ok.inj answered
      exact ⟨changed, isSealed, rfl⟩
    · cases (Prod.mk.inj ran).2
    · cases (Prod.mk.inj ran).2
  obtain ⟨changed, isSealed, rfl⟩ := sealed
  let body :=
    Cipher.cbcSeal (yieldAt sender.seed step).keys.cipher
      (yieldAt sender.seed step).keys.iv plain
  have bodyFits : body.length < 2 ^ 64 := by
    rw [Cipher.length_cbcSeal]
    omega
  obtain ⟨signer, isSigner, rest⟩ := Outcome.bind_eq_ok.mp isSealed
  cases isSigner
  obtain ⟨version, isVersion, rest⟩ := Outcome.bind_eq_ok.mp rest
  cases (intCast_currentVersion rfl).symm.trans isVersion
  obtain ⟨note, made, rest⟩ := Outcome.bind_eq_ok.mp rest
  obtain ⟨signature, isSigned, read⟩ := Outcome.bind_eq_ok.mp made
  obtain ⟨link, advanced, done⟩ := Outcome.bind_eq_ok.mp rest
  obtain ⟨longEnough, parsed⟩ :=
    Note.parse_signed circleId signature sender.chainFits stepFits bodyFits
  cases parsed.symm.trans read
  obtain ⟨fits, rfl⟩ := Link.advance_eq_ok.mp advanced
  cases done
  refine ⟨fits, ?_, _, ⟨parsed, rfl, rfl, fits, rfl, ?_⟩, rfl⟩
  · have onward :
        (⟨step + 1, Derive.chainNext (linkAt sender.seed step).seed⟩ : Link) =
          linkAt sender.seed (step + 1) := by
      simp [linkAt, Function.iterate_succ_apply']
    have isChanged :
        ({ sender.member step with
            link := ⟨step + 1,
              Derive.chainNext (linkAt sender.seed step).seed⟩ } : Member) =
          sender.member (step + 1) := by
      rw [onward]
      rfl
    have stored :
        Circle.store ⟨[sender.member step]⟩ (sender.member (step + 1)) =
          ⟨[sender.member (step + 1)]⟩ := by
      simp [Circle.store, Sender.member]
    exact (congrArg _ isChanged).trans stored
  · have limit :
        (Note.signed Post.version circleId sender.chainId step body ++
            signature.bytes).length - Curve.signatureLength =
          (Note.signed Post.version circleId sender.chainId step
            body).length := by
      simp [Curve.signatureLength]
    simp only [Note.signedBy, limit, List.take_left, Block.last_append]
    exact verifies sender.signing sender.whole _ _ _ isSigned

/-- A note that is not sealed changes nothing. -/
theorem seal_eq_self
    {circle after : Circle}
    {circleId : Block 16}
    {plain : Bytes}
    {nonce : Block 64}
    {answer : Outcome Fault Bytes}
    (ran : circle.seal circleId plain nonce = (after, answer))
    (failed : ∀ bytes, answer ≠ .ok bytes) :
    after = circle := by
  unfold Circle.seal at ran
  split at ran
  · exact (Prod.mk.inj ran).1.symm
  · split at ran
    · exact absurd (Prod.mk.inj ran).2.symm (failed _)
    · exact (Prod.mk.inj ran).1.symm
    · exact (Prod.mk.inj ran).1.symm

omit [Curves] [Hashes] [Aes] in
theorem mem_returned
    {α : Type}
    {answer : Outcome Fault α}
    {value : α} :
    value ∈ returned answer ↔ answer = .ok value := by
  cases answer with
  | ok other => simp [returned, eq_comm]
  | error fault => simp [returned]
  | trap => simp [returned]

omit [Curves] [Hashes] [Aes] in
theorem returned_eq_nil
    {α : Type}
    {answer : Outcome Fault α}
    (failed : ∀ value, answer ≠ .ok value) :
    returned answer = [] := by
  cases answer with
  | ok value => exact absurd rfl (failed value)
  | error fault => rfl
  | trap => rfl

namespace Sender.Posts

variable {sender : Sender} {step : Nat} {posted : List Posted}
variable {entry first second : Posted} {note firstNote secondNote : Note}

theorem nil (sender : Sender) (step : Nat) : sender.Posts step [] :=
  ⟨by simp, List.Pairwise.nil⟩

theorem cons
    (posts : sender.Posts step posted)
    (isSealed : sender.Sealed entry note)
    (isStep : note.step = step) :
    sender.Posts (step + 1) (entry :: posted) := by
  constructor
  · intro other given
    rcases List.mem_cons.mp given with rfl | earlier
    · exact ⟨note, isSealed, isStep ▸ Nat.lt_succ_self _⟩
    · obtain ⟨otherNote, otherSealed, below⟩ := posts.sealed other earlier
      exact ⟨otherNote, otherSealed, Nat.lt_succ_of_lt below⟩
  · refine List.Pairwise.cons ?_ posts.ordered
    intro older earlier newerNote olderNote newerSealed olderSealed
    obtain ⟨otherNote, otherSealed, below⟩ := posts.sealed older earlier
    cases newerSealed.read.symm.trans isSealed.read
    cases olderSealed.read.symm.trans otherSealed.read
    rwa [isStep]

/-- A step names at most one note. -/
theorem same_of_step
    (posts : sender.Posts step posted)
    (firstPosted : first ∈ posted)
    (secondPosted : second ∈ posted)
    (firstSealed : sender.Sealed first firstNote)
    (secondSealed : sender.Sealed second secondNote)
    (sameStep : firstNote.step = secondNote.step) :
    first = second := by
  have ordered := posts.ordered
  clear posts
  induction ordered with
  | nil =>
      cases firstPosted
  | cons newest _ inductionHypothesis =>
      rcases List.mem_cons.mp firstPosted with rfl | firstEarlier
      · rcases List.mem_cons.mp secondPosted with rfl | secondEarlier
        · rfl
        · have below :=
            newest second secondEarlier firstNote secondNote firstSealed
              secondSealed
          exact absurd sameStep.symm (Nat.ne_of_lt below)
      · rcases List.mem_cons.mp secondPosted with rfl | secondEarlier
        · have below :=
            newest first firstEarlier secondNote firstNote secondSealed
              firstSealed
          exact absurd sameStep (Nat.ne_of_lt below)
        · exact inductionHypothesis firstEarlier secondEarlier

end Sender.Posts

/-- All a sender makes is of the one chain it has created. -/
theorem Sends.sender
    (verifies : Curve.SignaturesVerify)
    {announced : List Announce}
    {posted : List Posted}
    {circle : Circle}
    (run : Sends announced posted circle) :
    (circle = init ∧ announced = [] ∧ posted = []) ∨
      ∃ sender : Sender, ∃ step,
        step < 2 ^ 32 ∧
          circle = ⟨[sender.member step]⟩ ∧
          (∀ announcement ∈ announced, sender.Made announcement) ∧
          sender.Posts step posted := by
  induction run with
  | start => exact .inl ⟨rfl, rfl, rfl⟩
  | @announce announced posted circle after circleId draw answer before ran
      noTrap inductionHypothesis =>
      rcases inductionHypothesis with
        ⟨rfl, rfl, rfl⟩ | ⟨sender, step, fits, rfl, made, posts⟩
      · rcases announce_fresh ran with
          ⟨rfl, nothing⟩ | ⟨sender, announcement, rfl, rfl, isMade⟩
        · exact .inl ⟨rfl, by rw [nothing]; rfl, rfl⟩
        · refine .inr ⟨sender, 0, by decide, rfl, ?_, .nil sender 0⟩
          simpa [returned] using isMade
      · obtain ⟨announcement, isAnnounced, isMade⟩ :=
          @announce_member _ _ sender step circleId draw fits
        obtain ⟨rfl, rfl⟩ := Prod.mk.inj (isAnnounced.symm.trans ran)
        refine .inr ⟨sender, step, fits, rfl, ?_, posts⟩
        intro other given
        rcases List.mem_cons.mp given with rfl | earlier
        · exact isMade
        · exact made other earlier
  | @«seal» announced posted circle after circleId plain nonce answer before
      room ran noTrap inductionHypothesis =>
      by_cases failed : ∀ bytes, answer ≠ .ok bytes
      · obtain rfl := seal_eq_self ran failed
        rw [returned_eq_nil failed]
        exact inductionHypothesis
      · obtain ⟨bytes, rfl⟩ : ∃ bytes, answer = .ok bytes := by
          simpa using failed
        rcases inductionHypothesis with
          ⟨rfl, rfl, rfl⟩ | ⟨sender, step, fits, rfl, made, posts⟩
        · cases (Prod.mk.inj ran).2
        · obtain ⟨fitsNext, rfl, note, isSealed, isStep⟩ :=
            seal_member verifies fits room ran
          exact .inr ⟨sender, step + 1, fitsNext, rfl, made,
            posts.cons isSealed isStep⟩

end Sender

/-! ## The receiver -/

/-- What a receiver has done with a chain, newest first. -/
structure History where
  admitted : List Announce
  deliveries : List (Note × Outcome Fault Bytes)
  jumped : List Nat

namespace History

/-- Before the first delivery. -/
def empty : History :=
  ⟨[], [], []⟩

/-- The notes that were opened. -/
def opened (history : History) : List Note :=
  history.deliveries.filterMap fun
    | (note, .ok _) => some note
    | _ => none

end History

/-- The steps the chain of a note moved over on the way to its step. -/
def jumpedOver (before after : Circle) (note : Note) : List Nat :=
  match before.byChain note.chainId, after.byChain note.chainId with
  | some old, some changed =>
      (SkipStore.passed old.link.step changed.link.step).filter
        (· ≠ note.step)
  | _, _ => []

section Receiver

variable [Curves] [Hashes] [Aes]

/--
The runs of a receiver from the empty circle.  It admits what was announced,
in any order and any number of times, and once it knows the chain any
announcement under its signing key; it admits other chains of some set and
opens notes of other chains; and it opens what was posted, in any order.
-/
inductive Receives
    (announced : List Announce)
    (posted : List Posted)
    (chainId : Nat)
    (signing : Curve.Public)
    (others : Finset Nat) :
    History →
    Circle →
    Prop where
  | start : Receives announced posted chainId signing others .empty init
  | introduce
      {history : History}
      {circle : Circle}
      {announcement : Announce}
      (before : Receives announced posted chainId signing others history circle)
      (made : announcement ∈ announced) :
      Receives announced posted chainId signing others
        { history with admitted := announcement :: history.admitted }
        (circle.admitAnnounce announcement)
  | readmit
      {history : History}
      {circle : Circle}
      {announcement : Announce}
      (before : Receives announced posted chainId signing others history circle)
      (known : history.admitted ≠ [])
      (sameChain : announcement.chainId = chainId)
      (sameSigning : announcement.signing = signing) :
      Receives announced posted chainId signing others
        { history with admitted := announcement :: history.admitted }
        (circle.admitAnnounce announcement)
  | admitOther
      {history : History}
      {circle : Circle}
      {announcement : Announce}
      (before : Receives announced posted chainId signing others history circle)
      (other : announcement.chainId ∈ others) :
      Receives announced posted chainId signing others history
        (circle.admitAnnounce announcement)
  | openOther
      {history : History}
      {circle : Circle}
      {note : Note}
      (before : Receives announced posted chainId signing others history circle)
      (other : note.chainId ≠ chainId) :
      Receives announced posted chainId signing others history
        (circle.open note).1
  | deliver
      {history : History}
      {circle after : Circle}
      {entry : Posted}
      {note : Note}
      {answer : Outcome Fault Bytes}
      (before : Receives announced posted chainId signing others history circle)
      (isPosted : entry ∈ posted)
      (read : Note.parse entry.bytes = .ok note)
      (ran : circle.open note = (after, answer)) :
      Receives announced posted chainId signing others
        { history with
          deliveries := (note, answer) :: history.deliveries
          jumped := jumpedOver circle after note ++ history.jumped }
        after

/-- A delivered note is answered as the store of the receiver answers. -/
theorem open_posted
    (correct : Cipher.AesCorrect)
    {sender : Sender}
    {entry : Posted}
    {note : Note}
    {circle : Circle}
    {store : SkipStore}
    (isSealed : sender.Sealed entry note)
    (ordered : store.Ordered maxSkipped)
    (found : circle.byChain sender.chainId = some (sender.copy store)) :
    (∃ refusal fault,
      store.request tooFar maxSkipped note.step = .error refusal ∧
        circle.open note = (circle, .error fault)) ∨
      ∃ moved,
        store.request tooFar maxSkipped note.step = .ok moved ∧
          circle.open note =
            (circle.store (sender.copy moved), .ok entry.plain) := by
  rw [← isSealed.chain] at found
  rw [open_eq found isSealed.version isSealed.signed]
  rcases yieldFor_movedTo ordered isSealed.fits with
    ⟨refusal, fault, refused, failed⟩ | ⟨moved, answered, drew⟩
  · refine .inl ⟨refusal, fault, refused, ?_⟩
    rw [show yieldFor (sender.copy store) note.step = .error fault from failed]
  · refine .inr ⟨moved, answered, ?_⟩
    rw [show yieldFor (sender.copy store) note.step =
        .ok (yieldAt sender.seed note.step, sender.copy moved) from drew]
    simp only [isSealed.body, Cipher.cbcOpen_cbcSeal correct]

/-- A note is sealed from one plaintext. -/
theorem Sender.Sealed.plain_eq
    (correct : Cipher.AesCorrect)
    {sender : Sender}
    {first second : Posted}
    {firstNote secondNote : Note}
    (firstSealed : sender.Sealed first firstNote)
    (secondSealed : sender.Sealed second secondNote)
    (same : first.bytes = second.bytes) :
    first.plain = second.plain := by
  have read := secondSealed.read
  rw [← same] at read
  cases firstSealed.read.symm.trans read
  have opened :=
    Cipher.cbcOpen_cbcSeal correct (yieldAt sender.seed firstNote.step).keys.cipher
      (yieldAt sender.seed firstNote.step).keys.iv
  have bodies := firstSealed.body.symm.trans secondSealed.body
  have plains := (opened first.plain).symm
  rw [bodies, opened second.plain] at plains
  exact (Outcome.ok.inj plains)

/-- The receiver does not know the chain yet, or follows it. -/
inductive Follows
    (sender : Sender)
    (history : History)
    (circle : Circle) :
    Prop where
  | unknown
      (nothing : history.admitted = [])
      (missing : circle.byChain sender.chainId = none)
      (unopened : history.opened = [])
      (still : history.jumped = [])
  | known
      {start : Nat}
      {store : SkipStore}
      (run :
        SkipStore.Run tooFar maxSkipped start
          (history.opened.map Note.step) history.jumped store)
      (found : circle.byChain sender.chainId = some (sender.copy store))

namespace Follows

variable {sender : Sender} {history : History} {circle : Circle}
variable {announcement : Announce}

omit [Aes] in
/-- What keeps the member of the chain keeps the receiver following it. -/
theorem of_byChain_eq
    {after : Circle}
    (follows : Follows sender history circle)
    (same :
      after.byChain sender.chainId = circle.byChain sender.chainId) :
    Follows sender history after := by
  cases follows with
  | unknown nothing missing unopened still =>
      exact .unknown nothing (same.trans missing) unopened still
  | known run found => exact .known run (same.trans found)

omit [Aes] in
/-- An announcement of a chain that is known leaves its member as it is. -/
theorem readmit
    (follows : Follows sender history circle)
    (known : history.admitted ≠ [])
    (sameChain : announcement.chainId = sender.chainId)
    (sameSigning : announcement.signing = sender.signing.publicKey) :
    Follows sender
      { history with admitted := announcement :: history.admitted }
      (circle.admitAnnounce announcement) := by
  cases follows with
  | unknown nothing => exact absurd nothing known
  | known run found =>
      exact .known run
        (byChain_admitAnnounce_known found sameChain sameSigning)

omit [Aes] in
/-- An announcement taken in is followed. -/
theorem introduce
    (follows : Follows sender history circle)
    (made : sender.Made announcement) :
    Follows sender
      { history with admitted := announcement :: history.admitted }
      (circle.admitAnnounce announcement) := by
  cases follows with
  | unknown nothing missing unopened still =>
      rw [← made.chain] at missing
      have fresh :=
        @byChain_admitMember_unknown circle (newcomer announcement) missing
      have isCopy :
          newcomer announcement =
            sender.copy ⟨announcement.step, []⟩ := by
        simp [newcomer, Sender.copy, Member.movedTo, made.version,
          made.chain, made.link, made.signing, keysOf]
      have run :
          SkipStore.Run tooFar maxSkipped announcement.step
            (history.opened.map Note.step) history.jumped
            ⟨announcement.step, []⟩ := by
        rw [unopened, still]
        exact .fresh
      refine .known run ?_
      rw [← made.chain, ← isCopy]
      exact fresh
  | known run found =>
      exact .known run
        (byChain_admitAnnounce_known found made.chain made.signing)

variable {after : Circle} {posted : List Posted} {entry : Posted}
variable {note : Note} {answer : Outcome Fault Bytes}

/-- A delivered note is followed, and opens to what was sealed. -/
theorem deliver
    (correct : Cipher.AesCorrect)
    (follows : Follows sender history circle)
    (isSealed : sender.Sealed entry note)
    (ran : circle.open note = (after, answer)) :
    Follows sender
        { history with
          deliveries := (note, answer) :: history.deliveries
          jumped := jumpedOver circle after note ++ history.jumped }
        after ∧
      ∀ plain, answer = .ok plain → plain = entry.plain := by
  cases follows with
  | unknown nothing missing unopened still =>
      have refused : circle.open note = (circle, .error .noSession) := by
        simp [Circle.open, isSealed.chain, missing]
      obtain ⟨rfl, rfl⟩ := Prod.mk.inj (refused.symm.trans ran)
      refine ⟨.unknown nothing missing unopened ?_, by simp⟩
      simp [jumpedOver, isSealed.chain, missing, still]
  | @known start store run found =>
      rcases open_posted correct isSealed run.ordered found with
        ⟨refusal, fault, _, failed⟩ | ⟨moved, answered, opened⟩
      · obtain ⟨rfl, rfl⟩ := Prod.mk.inj (failed.symm.trans ran)
        have still : jumpedOver circle circle note = [] := by
          simp [jumpedOver, isSealed.chain, found, SkipStore.passed]
        have stays :
            SkipStore.Run tooFar maxSkipped start
              (history.opened.map Note.step)
              (jumpedOver circle circle note ++ history.jumped) store := by
          rwa [still]
        exact ⟨.known stays found, by simp⟩
      · obtain ⟨rfl, rfl⟩ := Prod.mk.inj (opened.symm.trans ran)
        have stored :
            (circle.store (sender.copy moved)).byChain sender.chainId =
              some (sender.copy moved) :=
          @byChain_store circle (sender.copy moved) (sender.copy store) found
        have onward :
            jumpedOver circle (circle.store (sender.copy moved)) note =
              SkipStore.passed store.next note.step := by
          simp only [jumpedOver, isSealed.chain, found, stored]
          exact SkipStore.passed_filter answered
        have moves :
            SkipStore.Run tooFar maxSkipped start
              (note.step :: history.opened.map Note.step)
              (jumpedOver circle (circle.store (sender.copy moved)) note ++
                history.jumped)
              moved := by
          rw [onward]
          exact run.answer answered
        exact ⟨.known moves stored, by simp⟩

end Follows

section Runs

variable {sender : Sender} {announced : List Announce}
variable {posted : List Posted} {others : Finset Nat}
variable {step : Nat} {history : History} {circle : Circle}

/-- A run of the receiver follows the chain. -/
theorem Receives.follows
    (correct : Cipher.AesCorrect)
    (made : ∀ announcement ∈ announced, sender.Made announcement)
    (posts : sender.Posts step posted)
    (few : others.card < maxMembers)
    (ours : sender.chainId ∉ others)
    (run :
      Receives announced posted sender.chainId sender.signing.publicKey
        others history circle) :
    circle.Within (insert sender.chainId others) ∧
      Follows sender history circle ∧
      ∀ note plain,
        (note, .ok plain) ∈ history.deliveries →
        ∃ entry ∈ posted, sender.Sealed entry note ∧ plain = entry.plain := by
  have limit : (insert sender.chainId others).card ≤ maxMembers := by
    rw [Finset.card_insert_of_notMem ours]
    exact few
  induction run with
  | start =>
      exact ⟨Within.init _, .unknown rfl rfl rfl rfl, by simp [History.empty]⟩
  | @introduce history circle announcement before isMade inductionHypothesis =>
      obtain ⟨within, follows, answers⟩ := inductionHypothesis
      have isMade := made announcement isMade
      refine ⟨within.admitMember ?_, follows.introduce isMade, answers⟩
      exact Finset.mem_insert.mpr (.inl isMade.chain)
  | readmit before known sameChain sameSigning inductionHypothesis =>
      obtain ⟨within, follows, answers⟩ := inductionHypothesis
      refine ⟨within.admitMember ?_,
        follows.readmit known sameChain sameSigning, answers⟩
      exact Finset.mem_insert.mpr (.inl sameChain)
  | @admitOther history circle announcement before other
      inductionHypothesis =>
      obtain ⟨within, follows, answers⟩ := inductionHypothesis
      have inside :
          (newcomer announcement).chainId ∈ insert sender.chainId others :=
        Finset.mem_insert_of_mem other
      have isOther : (newcomer announcement).chainId ≠ sender.chainId :=
        fun same => ours (same ▸ other)
      exact ⟨within.admitMember inside,
        follows.of_byChain_eq
          (byChain_admitMember_other isOther (within.few limit inside)),
        answers⟩
  | @openOther history circle note before other inductionHypothesis =>
      obtain ⟨within, follows, answers⟩ := inductionHypothesis
      exact ⟨within.open note,
        follows.of_byChain_eq (byChain_open_other other), answers⟩
  | @deliver history circle after entry note answer before isPosted read ran
      inductionHypothesis =>
      obtain ⟨within, follows, answers⟩ := inductionHypothesis
      obtain ⟨_, isSealed, _⟩ := posts.sealed entry isPosted
      cases isSealed.read.symm.trans read
      obtain ⟨followsAfter, answered⟩ := follows.deliver correct isSealed ran
      refine ⟨?_, followsAfter, fun other plain given => ?_⟩
      · rw [show after = (circle.open note).1 by rw [ran]]
        exact within.open note
      · rcases List.mem_cons.mp given with now | earlier
        · obtain ⟨rfl, isAnswer⟩ := Prod.mk.inj now
          exact ⟨entry, isPosted, isSealed, answered plain isAnswer.symm⟩
        · exact answers other plain earlier

end Runs

/-- What holds of a receiver after any run. -/
structure Delivers
    (posted : List Posted)
    (chainId : Nat)
    (signing : Curve.Public)
    (others : Finset Nat)
    (history : History)
    (circle : Circle) :
    Prop where
  /-- An open that succeeds returns the plaintext sealed in the note. -/
  plaintexts :
    ∀ note plain,
      (note, .ok plain) ∈ history.deliveries →
      ∀ entry ∈ posted, entry.bytes = note.bytes → plain = entry.plain
  once : history.opened.Nodup
  /-- Once the chain was admitted the receiver keeps it. -/
  stays :
    history.admitted ≠ [] →
      ∃ member,
        circle.byChain chainId = some member ∧ member.signing = signing
  /-- No announcement of the chain changes its step or its skipped keys. -/
  readmits :
    ∀ announcement member,
      circle.byChain chainId = some member →
      announcement.chainId = chainId →
      announcement.signing = signing →
      (circle.admitAnnounce announcement).byChain chainId = some member
  /-- Other chains do not touch it either. -/
  apart :
    (∀ announcement,
      announcement.chainId ∈ others →
      (circle.admitAnnounce announcement).byChain chainId =
        circle.byChain chainId) ∧
      ∀ note,
        note.chainId ≠ chainId →
        (circle.open note).1.byChain chainId = circle.byChain chainId
  /--
  A note that was not opened yet opens when it lies near ahead of the chain,
  or when its step is among the newest that the chain has jumped over.
  -/
  opens :
    ∀ entry ∈ posted,
      ∃ note,
        Note.parse entry.bytes = .ok note ∧
          ∀ member,
            circle.byChain chainId = some member →
            note ∉ history.opened →
            (member.link.step ≤ note.step ∧
                note.step - member.link.step ≤ maxForwardJump ∨
              note.step ∈ history.jumped ∧
                (history.jumped.filter (note.step < ·)).length <
                  maxSkipped) →
            (circle.open note).2 = .ok entry.plain

section Runs

variable {announced : List Announce} {posted : List Posted}
variable {sender : Circle} {others : Finset Nat}
variable {history : History} {circle : Circle}

omit [Curves] [Hashes] [Aes] in
/-- A note is opened when it stands among the deliveries as such. -/
theorem mem_opened {note : Note} :
    note ∈ history.opened ↔
      ∃ plain, (note, .ok plain) ∈ history.deliveries := by
  simp only [History.opened, List.mem_filterMap]
  constructor
  · rintro ⟨⟨other, answer⟩, given, isNote⟩
    cases answer with
    | ok plain =>
        cases isNote
        exact ⟨plain, given⟩
    | error fault => cases isNote
    | trap => cases isNote
  · rintro ⟨plain, given⟩
    exact ⟨(note, .ok plain), given, rfl⟩

theorem Sender.Sealed.bytes_eq
    {sender : Sender}
    {entry : Posted}
    {note : Note}
    (isSealed : sender.Sealed entry note) :
    note.bytes = entry.bytes :=
  Note.bytes_of_parse isSealed.read

/-- A note near ahead, and one that was lately jumped over, is answered. -/
theorem Follows.opens
    (correct : Cipher.AesCorrect)
    {sender : Sender}
    {member : Member}
    {entry : Posted}
    {note : Note}
    (follows : Follows sender history circle)
    (isSealed : sender.Sealed entry note)
    (found : circle.byChain sender.chainId = some member)
    (unopened : note.step ∉ history.opened.map Note.step)
    (expected :
      member.link.step ≤ note.step ∧
          note.step - member.link.step ≤ maxForwardJump ∨
        note.step ∈ history.jumped ∧
          (history.jumped.filter (note.step < ·)).length < maxSkipped) :
    (circle.open note).2 = .ok entry.plain := by
  cases follows with
  | unknown _ missing => cases missing.symm.trans found
  | @known start store storeRun isCopy =>
      obtain rfl := Option.some.inj (isCopy.symm.trans found)
      have answerable :
          note.step ∈ store.kept ∨
            store.next ≤ note.step ∧ ¬ tooFar (note.step - store.next) := by
        rcases expected with ⟨ahead, near⟩ | ⟨skipped, recent⟩
        · exact .inr ⟨ahead, Nat.not_lt.mpr near⟩
        · exact .inl (storeRun.complete skipped unopened recent)
      rcases open_posted correct isSealed storeRun.ordered isCopy with
        ⟨refusal, _, refused, _⟩ | ⟨moved, _, opened⟩
      · exact absurd refused (storeRun.ordered.request_ne_error answerable)
      · rw [opened]

/--
Whatever the order in which the notes of a sender are delivered, an open that
succeeds returns what was sealed, no note opens twice, and the chain and its
skipped keys survive every announcement; a note opens on its first delivery
near ahead of the chain or among the newest steps that were jumped over.
-/
theorem circle_delivers
    (verifies : Curve.SignaturesVerify)
    (correct : Cipher.AesCorrect)
    {announcement : Announce}
    (sends : Sends announced posted sender)
    (isAnnounced : announcement ∈ announced)
    (few : others.card < 5)
    (ours : announcement.chainId ∉ others)
    (run :
      Receives announced posted announcement.chainId announcement.signing
        others history circle) :
    Delivers posted announcement.chainId announcement.signing others history
      circle := by
  rcases sends.sender verifies with
    ⟨_, rfl, _⟩ | ⟨chain, step, _, _, made, posts⟩
  · cases isAnnounced
  · have isMade := made announcement isAnnounced
    rw [isMade.chain, isMade.signing] at run ⊢
    rw [isMade.chain] at ours
    obtain ⟨within, follows, answers⟩ :=
      run.follows correct made posts few ours
    have limit : (insert chain.chainId others).card ≤ maxMembers := by
      rw [Finset.card_insert_of_notMem ours]
      exact few
    have plaintexts :
        ∀ note plain,
          (note, .ok plain) ∈ history.deliveries →
          ∀ entry ∈ posted, entry.bytes = note.bytes → plain = entry.plain := by
      intro note plain given entry isPosted sameBytes
      obtain ⟨other, _, isSealed, rfl⟩ := answers note plain given
      obtain ⟨entryNote, entrySealed, _⟩ := posts.sealed entry isPosted
      exact isSealed.plain_eq correct entrySealed
        (isSealed.bytes_eq.symm.trans sameBytes.symm)
    have once : history.opened.Nodup := by
      cases follows with
      | unknown _ _ unopened => simp [unopened]
      | known storeRun => exact storeRun.once.of_map
    have stays :
        ∀ member,
          circle.byChain chain.chainId = some member →
          member.signing = chain.signing.publicKey := by
      intro member found
      cases follows with
      | unknown _ missing => cases missing.symm.trans found
      | known _ isCopy =>
          obtain rfl := Option.some.inj (isCopy.symm.trans found)
          rfl
    refine ⟨plaintexts, once, ?_, ?_, ⟨?_, ?_⟩, ?_⟩
    · intro known
      cases follows with
      | unknown nothing => exact absurd nothing known
      | known _ isCopy => exact ⟨_, isCopy, rfl⟩
    · intro other member found sameChain sameSigning
      exact byChain_admitAnnounce_known found sameChain
        (sameSigning.trans (stays member found).symm)
    · intro other isOther
      have inside :
          (newcomer other).chainId ∈ insert chain.chainId others :=
        Finset.mem_insert_of_mem isOther
      have isElse : (newcomer other).chainId ≠ chain.chainId :=
        fun same => ours (same ▸ isOther)
      exact byChain_admitMember_other isElse (within.few limit inside)
    · exact fun note isElse => byChain_open_other isElse
    · intro entry isPosted
      obtain ⟨note, isSealed, _⟩ := posts.sealed entry isPosted
      refine ⟨note, isSealed.read, fun member found unopened expected => ?_⟩
      apply follows.opens correct isSealed found _ expected
      intro sameStep
      obtain ⟨other, isOpened, sameStep⟩ := List.mem_map.mp sameStep
      obtain ⟨plain, given⟩ := mem_opened.mp isOpened
      obtain ⟨otherEntry, otherPosted, otherSealed, _⟩ :=
        answers other plain given
      obtain rfl :=
        posts.same_of_step otherPosted isPosted otherSealed isSealed sameStep
      cases otherSealed.read.symm.trans isSealed.read
      exact unopened isOpened

end Runs

end Receiver

section Witness

attribute [local instance] Sample.hashes Sample.curves Sample.aes

/-- The draw of the sample chain. -/
private def drawnOnce : Draw :=
  ⟨Block.zero 4, Block.fill 32 5, Block.fill 32 6⟩

/-- The sample circle after its announcement. -/
private def announcing : Circle × Outcome Fault Announce :=
  init.announce (Block.zero 16) drawnOnce

/-- The same circle after its first note. -/
private def sealing : Circle × Outcome Fault Bytes :=
  announcing.1.seal (Block.zero 16) [1] (Block.fill 64 7)

/-- The same circle after its second note. -/
private def sealingAgain : Circle × Outcome Fault Bytes :=
  sealing.1.seal (Block.zero 16) [2, 3] (Block.fill 64 8)

/-- What a receiver answers that is handed the second note first. -/
private def answersLate
    (announcement : Announce)
    (first second : Note) :
    Outcome Fault Bytes × Outcome Fault Bytes :=
  let (circle, late) := (init.admitAnnounce announcement).open second
  (late, (circle.open first).2)

set_option maxRecDepth 100000 in
/-- Two notes delivered in the other order. -/
private theorem opening :
    (returned announcing.2).flatMap
        (fun announcement =>
          (returned sealing.2).flatMap fun bytes =>
            (returned sealingAgain.2).flatMap fun bytesAgain =>
              (returned (Note.parse bytes)).flatMap fun first =>
                (returned (Note.parse bytesAgain)).map fun second =>
                  (decide (announcement.chainId = 0),
                    answersLate announcement first second)) =
      [(true, .ok [2, 3], .ok [1])] := by
  decide +kernel

/-- Two notes; the second is delivered first, to a receiver that knows the chain. -/
theorem circle_delivers_two :
    ∃ announcement : Announce,
      ∃ entries first second history circle,
        entries.map Posted.plain = [[2, 3], [1]] ∧
          history.deliveries = [(first, .ok [1]), (second, .ok [2, 3])] ∧
          Delivers entries announcement.chainId announcement.signing {1}
            history circle := by
  have given :
      (true, Outcome.ok [2, 3], Outcome.ok [1]) ∈
        [(true, (Outcome.ok [2, 3] : Outcome Fault Bytes),
          (Outcome.ok [1] : Outcome Fault Bytes))] :=
    List.mem_singleton_self _
  rw [← opening] at given
  simp only [List.mem_flatMap, List.mem_map, mem_returned, Prod.mk.injEq,
    decide_eq_true_eq] at given
  obtain ⟨announcement, isAnnounced, bytes, isSealed, bytesAgain,
    isSealedAgain, first, read, second, readAgain, chain, answered⟩ := given
  obtain ⟨late, both⟩ := Prod.mk.inj answered
  have announces :
      init.announce (Block.zero 16) drawnOnce =
        (announcing.1, .ok announcement) :=
    Prod.ext rfl isAnnounced
  have seals :
      announcing.1.seal (Block.zero 16) [1] (Block.fill 64 7) =
        (sealing.1, .ok bytes) :=
    Prod.ext rfl isSealed
  have sealsAgain :
      sealing.1.seal (Block.zero 16) [2, 3] (Block.fill 64 8) =
        (sealingAgain.1, .ok bytesAgain) :=
    Prod.ext rfl isSealedAgain
  have sends :
      Sends [announcement] [⟨[2, 3], bytesAgain⟩, ⟨[1], bytes⟩]
        sealingAgain.1 :=
    .seal
      (.seal (.announce .start announces (by simp)) (by decide) seals (by simp))
      (by decide) sealsAgain (by simp)
  have admits :
      @Receives _ _ _ [announcement] [⟨[2, 3], bytesAgain⟩, ⟨[1], bytes⟩]
        announcement.chainId announcement.signing {1} ⟨[announcement], [], []⟩
        (init.admitAnnounce announcement) :=
    .introduce .start List.mem_cons_self
  have deliversLate :=
    Receives.deliver admits List.mem_cons_self readAgain
      (Prod.ext rfl late :
        (init.admitAnnounce announcement).open second = (_, .ok [2, 3]))
  have deliversBoth :=
    Receives.deliver deliversLate (List.mem_cons_of_mem _ List.mem_cons_self)
      read
      (Prod.ext rfl both :
        ((init.admitAnnounce announcement).open second).1.open first =
          (_, .ok [1]))
  exact ⟨announcement, _, first, second, _, _, rfl, rfl,
    circle_delivers Sample.signaturesVerify Cipher.sample_aesCorrect sends
      List.mem_cons_self (by decide) (by simp [chain]) deliversBoth⟩

end Witness

end Gossveil.Circle
