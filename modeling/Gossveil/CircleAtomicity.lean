import Gossveil.CircleMembers

namespace Gossveil.Circle

/-!
# What a refused note leaves behind

Every check in front of the message key returns the circle as it was.  The key
is drawn before the body is opened with it: a note that passes the checks and
whose body does not open has moved the chain, or used up a kept key.
-/

section Keys

variable [Hashes]

/-- The key a member has for a step, kept or ahead on its chain. -/
def Member.keyOf (member : Member) (step : Nat) : Option Yield :=
  if step < member.link.step then
    member.skipped.find? (·.step = step)
  else if step - member.link.step ≤ maxForwardJump ∧ step + 1 < 2 ^ 32 then
    some
      ⟨step,
        Derive.chainSeed
          (Derive.chainNext^[step - member.link.step] member.link.seed)⟩
  else
    none

/-- A walk reaches the link that many steps on. -/
theorem reached_of_walk
    {distance : Nat}
    {link reached : Link}
    {passed : List Link}
    (walked : link.walk distance = .ok (passed, reached)) :
    reached =
      ⟨link.step + distance, Derive.chainNext^[distance] link.seed⟩ := by
  induction distance generalizing link passed with
  | zero =>
      cases walked
      rfl
  | succ distance inductionHypothesis =>
      obtain ⟨next, advanced, rest⟩ := Outcome.bind_eq_ok.mp walked
      obtain ⟨⟨later, last⟩, walkedOn, done⟩ := Outcome.bind_eq_ok.mp rest
      obtain ⟨_, rfl⟩ := Link.advance_eq_ok.mp advanced
      cases done
      rw [inductionHypothesis walkedOn]
      simp [Nat.add_assoc, Nat.add_comm 1]

end Keys

section Drawing

variable [Curves] [Hashes]

omit [Curves] in
/-- A drawn key is the one the member has, and the member is not what it was. -/
theorem keyOf_of_yieldFor
    {member changed : Member}
    {step : Nat}
    {yielded : Yield}
    (drew : yieldFor member step = .ok (yielded, changed)) :
    member.keyOf step = some yielded ∧ changed ≠ member := by
  unfold yieldFor Member.takeSkipped at drew
  by_cases behind : step < member.link.step
  · simp only [if_pos behind] at drew
    cases search : member.skipped.find? (·.step = step) with
    | none => simp [search] at drew
    | some found =>
        simp only [search, Outcome.ok.injEq, Prod.mk.injEq] at drew
        obtain ⟨rfl, rfl⟩ := drew
        refine ⟨by rw [Member.keyOf, if_pos behind, search], ?_⟩
        intro same
        have shorter :=
          List.length_eraseP_of_mem (List.mem_of_find?_eq_some search)
            (List.find?_some search)
        have asBefore := congrArg Member.skipped same
        simp only at asBefore
        rw [asBefore] at shorter
        have present :=
          List.length_pos_of_mem (List.mem_of_find?_eq_some search)
        omega
  · simp only [if_neg behind] at drew
    split_ifs at drew with far
    obtain ⟨⟨passed, reached⟩, walked, rest⟩ := Outcome.bind_eq_ok.mp drew
    obtain ⟨next, advanced, done⟩ := Outcome.bind_eq_ok.mp rest
    obtain ⟨fits, isNext⟩ := Link.advance_eq_ok.mp advanced
    have isReached := reached_of_walk walked
    have atStep : member.link.step + (step - member.link.step) = step :=
      Nat.add_sub_of_le (Nat.le_of_not_lt behind)
    rw [atStep] at isReached
    simp only [Outcome.pure_eq, Outcome.ok.injEq, Prod.mk.injEq] at done
    obtain ⟨rfl, rfl⟩ := done
    rw [isReached] at fits isNext
    constructor
    · rw [Member.keyOf, if_neg behind,
        if_pos ⟨Nat.le_of_not_lt far, fits⟩, isReached]
      rfl
    · intro same
      have stands := congrArg (·.link.step) same
      simp only [isNext] at stands
      exact behind (by omega)

omit [Curves] in
/-- A key the member has can be drawn. -/
theorem yieldFor_of_keyOf
    {member : Member}
    {step : Nat}
    {yielded : Yield}
    (has : member.keyOf step = some yielded) :
    ∃ changed, yieldFor member step = .ok (yielded, changed) := by
  by_cases behind : step < member.link.step
  · rw [Member.keyOf, if_pos behind] at has
    refine ⟨(member.takeSkipped step).2, ?_⟩
    simp only [yieldFor, if_pos behind, Member.takeSkipped, has]
  · rw [Member.keyOf, if_neg behind] at has
    split_ifs at has with reach
    obtain ⟨near, fits⟩ := reach
    have ahead := Nat.le_of_not_lt behind
    obtain ⟨passed, last, skipped, _, _, lastStep, drew⟩ :=
      yieldFor_ahead ahead near (Nat.lt_of_succ_lt fits)
    have advanced :=
      Link.advance_eq_ok.mpr ⟨show last.step + 1 < 2 ^ 32 by rwa [lastStep],
        rfl⟩
    rw [advanced] at drew
    have drawn := (keyOf_of_yieldFor drew).1
    rw [Member.keyOf, if_neg behind, if_pos ⟨near, fits⟩, has] at drawn
    rw [Option.some.inj drawn]
    exact ⟨_, drew⟩

end Drawing

section Opening

variable [Curves] [Hashes] [Aes]

/-- Whenever the call returns an error, the circle is the one before it. -/
def OpensWhole (circle : Circle) (note : Note) : Prop :=
  ∀ fault,
    (circle.open note).2 = .error fault →
    (circle.open note).1 = circle

/--
The note is of a known chain and its version, its signature is good, the member
has a key for its step, and its body does not open under that key.
-/
structure Spoils
    (circle : Circle)
    (note : Note)
    (member : Member)
    (key : Yield) :
    Prop where
  known : circle.byChain note.chainId = some member
  version : note.version = member.version
  signed : note.signedBy member.signing = true
  held : member.keyOf note.step = some key
  unreadable :
    ∀ plain,
      Cipher.cbcOpen key.keys.cipher key.keys.iv note.body ≠ .ok plain

omit [Curves] [Aes] in
/-- A drawn key shows in the circle. -/
theorem store_ne_self
    {circle : Circle}
    {note : Note}
    {member changed : Member}
    {key : Yield}
    (known : circle.byChain note.chainId = some member)
    (drew : yieldFor member note.step = .ok (key, changed)) :
    circle.store changed ≠ circle := by
  intro same
  have chain : member.chainId = note.chainId := by
    simpa using List.find?_some known
  have changedChain := (chainId_of_yieldFor drew).trans chain
  rw [← changedChain] at known
  have stored := byChain_store known
  rw [same, known] at stored
  exact (keyOf_of_yieldFor drew).2 (Option.some.inj stored).symm

/--
An error leaves the circle as it was if and only if the note is not one that
passes every check with a body that does not open.
-/
theorem open_atomic_iff (circle : Circle) (note : Note) :
    OpensWhole circle note ↔
      ∀ member key, ¬ Spoils circle note member key := by
  constructor
  · intro whole member key spoils
    obtain ⟨changed, drew⟩ := yieldFor_of_keyOf spoils.held
    have opened := open_eq spoils.known spoils.version spoils.signed
    simp only [drew] at opened
    cases body :
        Cipher.cbcOpen key.keys.cipher key.keys.iv note.body with
    | ok plain => exact spoils.unreadable plain body
    | trap => exact Cipher.cbcOpen_ne_trap _ _ _ body
    | error fault =>
        have kept := whole fault (by rw [opened, body])
        rw [opened] at kept
        exact store_ne_self spoils.known drew kept
  · intro none_spoils fault failed
    cases known : circle.byChain note.chainId with
    | none => simp [Circle.open, known]
    | some member =>
        by_cases version : note.version = member.version
        · by_cases signed : note.signedBy member.signing = true
          · rw [open_eq known version signed] at failed ⊢
            cases drew : yieldFor member note.step with
            | error refused => rfl
            | trap => rfl
            | ok drawn =>
                obtain ⟨key, changed⟩ := drawn
                simp only [drew] at failed
                exact (none_spoils member key
                  ⟨known, version, signed, (keyOf_of_yieldFor drew).1, by
                    simp [failed]⟩).elim
          · simp [Circle.open, known, version, signed]
        · simp [Circle.open, known, version]

end Opening

/-! ## A signed note without a body -/

section Counterexample

open Sample

attribute [local instance] hashes curves aes

/-- A receiver that knows one chain from its first step on. -/
private def knowsOne : Circle :=
  init.admitAnnounce
    { version := Post.version
      circleId := Block.zero 16
      chainId := 7
      step := 0
      seed := Block.fill 32 2
      signing := ⟨Block.fill 32 1⟩
      bytes :=
        Announce.encode Post.version (Block.zero 16) 7 0 (Block.fill 32 2)
          ⟨Block.fill 32 1⟩ }

/-- A signed note of the first step with some body. -/
private def firstNote (body : Bytes) : Bytes :=
  Note.signed Post.version (Block.zero 16) 7 0 body ++ (Block.zero 64).bytes

/-- The body of a first note that opens. -/
private def firstBody : Bytes :=
  let keys := (Link.yield ⟨0, Block.fill 32 2⟩).keys
  Cipher.cbcSeal keys.cipher keys.iv [1, 2]

/-- What the receiver answers to the good note, before and after the other one. -/
private def answers (note good : Note) :
    Outcome Fault Bytes × Outcome Fault Bytes × Outcome Fault Bytes :=
  ((knowsOne.open good).2, (knowsOne.open note).2,
    ((knowsOne.open note).1.open good).2)

set_option maxRecDepth 100000 in
/-- A damaged note is refused, and the good one is a replay from then on. -/
private theorem answers_eq :
    (do
      let note ← Note.parse (firstNote [])
      let good ← Note.parse (firstNote firstBody)
      return answers note good) =
      (.ok (.ok [1, 2], .error .badMessage, .error .replay) :
        Outcome Fault _) := by
  decide

/--
A signed note without a body is refused and takes the key of its step: the good
note of that step, which opened before, is a replay afterwards.
-/
theorem emptyNote_not_opensWhole :
    ∃ note good,
      Note.parse (firstNote []) = .ok note ∧
        Note.parse (firstNote firstBody) = .ok good ∧
        (knowsOne.open note).2 = .error .badMessage ∧
        (knowsOne.open good).2 = .ok [1, 2] ∧
        ((knowsOne.open note).1.open good).2 = .error .replay ∧
        ¬ OpensWhole knowsOne note := by
  obtain ⟨note, noteParsed, rest⟩ := Outcome.bind_eq_ok.mp answers_eq
  obtain ⟨good, goodParsed, answered⟩ := Outcome.bind_eq_ok.mp rest
  simp only [answers, Outcome.pure_eq, Outcome.ok.injEq,
    Prod.mk.injEq] at answered
  obtain ⟨opened, refused, replayed⟩ := answered
  refine ⟨note, good, noteParsed, goodParsed, refused, opened, replayed, ?_⟩
  intro whole
  rw [whole .badMessage refused, opened] at replayed
  cases replayed

end Counterexample

end Gossveil.Circle
