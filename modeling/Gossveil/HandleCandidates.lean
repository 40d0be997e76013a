import Gossveil.HandleScalars

namespace Gossveil.Handle

open Numerals

/-!
# Candidates for a username

Twenty discriminators are drawn for a nickname, more of them from the short
ranges.  A candidate's nickname is checked against the caller's limits alone,
but the nickname of a username against a bound of its own as well.
-/

/-! ## Drawing -/

/-- The ranges of the discriminators. -/
def ranges : List (Nat × Nat) :=
  [(1, 100), (100, 1000), (1000, 10000), (10000, 100000), (100000, 1000000),
    (1000000, 10000000), (10000000, 100000000), (100000000, 1000000000)]

/-- How many are drawn from each. -/
def perRange : List Nat :=
  [4, 3, 3, 2, 2, 2, 2, 2]

/-- How many candidates are made. -/
def candidateCount : Nat := 20

/--
The loop that draws until a number is below the largest multiple of the bound,
over the draws of the entropy source; `none` while it has not ended.
-/
def below (bound : Nat) :
    List (Block 8) →
    Option (Nat × List (Block 8))
  | [] => none
  | draw :: draws =>
      let value := Codec.Reader.littleEndian draw.bytes
      if value < 2 ^ 64 - 1 - (2 ^ 64 - 1) % bound then
        some (value % bound, draws)
      else
        below bound draws

/-- One number from each of some ranges. -/
def drawFrom :
    List (Nat × Nat) →
    List (Block 8) →
    Option (List Nat × List (Block 8))
  | [], draws => some ([], draws)
  | range :: rest, draws => do
      let (offset, draws) ← below (range.2 - range.1) draws
      let (numbers, draws) ← drawFrom rest draws
      return ((range.1 + offset) :: numbers, draws)

/-- The range of each candidate in turn. -/
def schedule : List (Nat × Nat) :=
  (ranges.zip perRange).flatMap fun (range, count) =>
    List.replicate count range

/-- `"{s}.{s}{d}"` -/
def candidate (nickname : Bytes) (number : Nat) : Bytes :=
  nickname ++
    46 :: ((if number < 10 then [48] else []) ++ decimalText number)

/-- No strings are returned while one of the loops has not ended. -/
def candidates
    (nickname : Bytes)
    (limits : Limits)
    (draws : List (Block 8)) :
    Outcome NameError (Option (List Bytes)) := do
  checkNickname nickname limits
  return (drawFrom schedule draws).map fun (numbers, _) =>
    numbers.map (candidate nickname)

/-! ## What is drawn -/

/-- A number drawn lies below its bound. -/
theorem below_lt
    {bound value : Nat}
    {draws rest : List (Block 8)}
    (positive : 0 < bound)
    (drawn : below bound draws = some (value, rest)) :
    value < bound := by
  induction draws with
  | nil => cases drawn
  | cons draw draws inductionHypothesis =>
      simp only [below] at drawn
      split_ifs at drawn
      · cases drawn
        exact Nat.mod_lt _ positive
      · exact inductionHypothesis drawn

/-- As many numbers as ranges, each in one of them. -/
theorem drawFrom_inside
    {schedule : List (Nat × Nat)}
    {draws rest : List (Block 8)}
    {numbers : List Nat}
    (nonempty : ∀ range ∈ schedule, range.1 < range.2)
    (drawn : drawFrom schedule draws = some (numbers, rest)) :
    numbers.length = schedule.length ∧
      ∀ number ∈ numbers,
        ∃ range ∈ schedule, range.1 ≤ number ∧ number < range.2 := by
  induction schedule generalizing draws rest numbers with
  | nil =>
      cases drawn
      exact ⟨rfl, List.forall_mem_nil _⟩
  | cons range schedule inductionHypothesis =>
      simp only [drawFrom, Option.bind_eq_bind, Option.bind_eq_some_iff,
        Option.pure_def, Option.some.injEq, Prod.mk.injEq,
        Prod.exists] at drawn
      obtain ⟨offset, between, isOffset, others, last, isOthers, rfl, rfl⟩ :=
        drawn
      have less := nonempty range List.mem_cons_self
      have bound := below_lt (Nat.sub_pos_of_lt less) isOffset
      obtain ⟨length, inside⟩ := inductionHypothesis
        (fun other member => nonempty other (List.mem_cons_of_mem _ member))
        isOthers
      refine ⟨by rw [List.length_cons, List.length_cons, length], ?_⟩
      intro number member
      rcases List.mem_cons.mp member with rfl | later
      · exact ⟨range, List.mem_cons_self, by omega, by omega⟩
      · obtain ⟨other, inSchedule, between⟩ := inside number later
        exact ⟨other, List.mem_cons_of_mem _ inSchedule, between⟩

/-- Candidates are the nickname with numbers that fit. -/
theorem candidates_eq_ok
    {nickname : Bytes}
    {limits : Limits}
    {draws : List (Block 8)}
    {texts : List Bytes}
    (made : candidates nickname limits draws = .ok (some texts)) :
    checkNickname nickname limits = .ok () ∧
      ∃ numbers : List Nat,
        numbers.length = candidateCount ∧
          (∀ number ∈ numbers, 1 ≤ number ∧ number < 2 ^ 64) ∧
          texts = numbers.map (candidate nickname) := by
  obtain ⟨_, checked, made⟩ := Outcome.bind_eq_ok.mp made
  obtain ⟨⟨numbers, rest⟩, drawn, rfl⟩ :=
    Option.map_eq_some_iff.mp (Outcome.ok.inj made)
  obtain ⟨length, inside⟩ := drawFrom_inside (by decide) drawn
  refine ⟨checked, numbers, length, ?_, rfl⟩
  intro number member
  obtain ⟨range, inSchedule, low, high⟩ := inside number member
  have bounds :
      ∀ range ∈ schedule, 1 ≤ range.1 ∧ range.2 ≤ 1000000000 := by
    decide
  have bound := bounds range inSchedule
  omega

/-! ## What is accepted -/

/-- A number is written in digits. -/
theorem charOf_mem_decimalText
    {number : Nat}
    {char : UInt8}
    (member : char ∈ decimalText number) :
    isDigit char = true := by
  obtain ⟨digit, present, rfl⟩ := List.mem_map.mp member
  exact (digitOf_charOf (decimal_small present)).1

/-- The discriminator of a candidate is the spelling of its number. -/
theorem spelled_candidate
    {number : Nat}
    (positive : 1 ≤ number)
    (fits : number < 2 ^ 64) :
    Spelled ((if number < 10 then [48] else []) ++ decimalText number)
      number := by
  by_cases single : number < 10
  · have digit : decimalText number = [charOf number] := by
      rw [decimalText, decimal,
        Nat.digits_of_lt 10 number (Nat.ne_of_gt positive) single]
      rfl
    rw [if_pos single, digit]
    exact .inl ⟨positive, Nat.le_of_lt_succ single, rfl⟩
  · rw [if_neg single]
    exact .inr ⟨Nat.not_lt.mp single, fits, rfl⟩

/-- A spelling has no dot. -/
theorem Spelled.dot_not_mem
    {text : Bytes}
    {number : Nat}
    (spelled : Spelled text number) :
    46 ∉ text := by
  have notDigit : isDigit 46 = false := rfl
  have decimalOnly : ∀ char ∈ text, isDigit char = true := by
    rcases spelled with ⟨_, single, rfl⟩ | ⟨_, _, rfl⟩
    · have digit := (digitOf_charOf (Nat.lt_succ_of_le single)).1
      simp only [List.forall_mem_cons, List.not_mem_nil, false_implies,
        implies_true, and_true]
      exact ⟨rfl, digit⟩
    · exact fun char => charOf_mem_decimalText
  intro member
  rw [decimalOnly 46 member] at notDigit
  cases notDigit

/-- Splitting at the last dot. -/
theorem parts_append
    (nickname : Bytes)
    {discriminator : Bytes}
    (absent : 46 ∉ discriminator) :
    parts (nickname ++ 46 :: discriminator) =
      some (nickname, discriminator) := by
  have found :
      lastIndexOf 46 (nickname ++ 46 :: discriminator) =
        some nickname.length := by
    induction nickname with
    | nil => simp [lastIndexOf, lastIndexOf_eq_none.mpr absent]
    | cons char rest inductionHypothesis =>
        simp [lastIndexOf, inductionHypothesis]
  rw [parts, found]
  simp

/-- A checked nickname has codes and no leading digit. -/
theorem checkNickname_eq_ok
    {nickname : Bytes}
    {limits : Limits}
    (checked : checkNickname nickname limits = .ok ()) :
    ∃ first rest digits,
      nickname = first :: rest ∧ isDigit first = false ∧
        codes nickname = some digits := by
  cases nickname with
  | nil => cases checked
  | cons first rest =>
      obtain ⟨_, letter, checked⟩ := Outcome.bind_eq_ok.mp checked
      obtain ⟨digits, coded, _⟩ := Outcome.bind_eq_ok.mp checked
      exact ⟨first, rest, digits, rfl,
        by simpa using Outcome.require_eq_ok.mp letter,
        Outcome.ofOption_eq_ok.mp coded⟩

section Usernames

variable [Sha512]

/-- What becomes of a checked nickname and a spelled discriminator. -/
theorem fromPartsUnbounded_checked
    {nickname discriminator : Bytes}
    {limits : Limits}
    {number : Nat}
    (checked : checkNickname nickname limits = .ok ())
    (spelled : Spelled discriminator number) :
    (nickname.length ≤ maxNicknameLength →
        ∃ handle, fromPartsUnbounded nickname discriminator = .ok handle) ∧
      (maxNicknameLength < nickname.length →
        fromPartsUnbounded nickname discriminator =
          .error .nicknameTooLong) := by
  obtain ⟨first, rest, digits, rfl, letter, coded⟩ :=
    checkNickname_eq_ok checked
  have read := discriminatorOf_eq_ok.mpr spelled
  have shape :
      fromPartsUnbounded (first :: rest) discriminator =
        (nicknameScalar (first :: rest) >>= fun name =>
          .ok ⟨#v[digestScalar (first :: rest) number, name,
            small number]⟩) := by
    simp only [fromPartsUnbounded]
    rw [Outcome.require_of (by simp [letter]), Outcome.ok_bind, read,
      Outcome.ok_bind]
  rw [shape, nicknameScalar, Outcome.require_of (by simp), Outcome.ok_bind]
  constructor
  · intro short
    obtain ⟨code, codes, rfl, _⟩ := codes_cons.mp coded
    rw [Outcome.require_of short, Outcome.ok_bind, coded,
      Outcome.ofOption_some, Outcome.ok_bind, scalarOfCodes]
    exact ⟨_, rfl⟩
  · intro long
    rw [Outcome.require_not (Nat.not_le.mpr long)]
    rfl

/-- Each of the twenty strings is a username that splits into its parts. -/
structure AreUsernames
    (nickname : Bytes)
    (limits : Limits)
    (texts : List Bytes) :
    Prop where
  count : texts.length = candidateCount
  parsed : ∀ text ∈ texts, ∃ handle, parse text = .ok handle
  split :
    ∀ text ∈ texts, ∃ discriminator handle,
      parts text = some (nickname, discriminator) ∧
        fromParts nickname discriminator limits = .ok handle

/-- A candidate is parsed into its nickname and number. -/
theorem parse_candidate
    (nickname : Bytes)
    {number : Nat}
    (positive : 1 ≤ number)
    (fits : number < 2 ^ 64) :
    ∃ discriminator,
      Spelled discriminator number ∧
        parts (candidate nickname number) = some (nickname, discriminator) ∧
        parse (candidate nickname number) =
          fromPartsUnbounded nickname discriminator := by
  have spelled := spelled_candidate positive fits
  have split := parts_append nickname spelled.dot_not_mem
  refine ⟨_, spelled, split, ?_⟩
  rw [parse, candidate, split, Outcome.ofOption_some, Outcome.ok_bind]

/-- Behind a nickname that is too long there is no username. -/
theorem parse_candidate_long
    {nickname : Bytes}
    {limits : Limits}
    {number : Nat}
    (checked : checkNickname nickname limits = .ok ())
    (long : maxNicknameLength < nickname.length)
    (positive : 1 ≤ number)
    (fits : number < 2 ^ 64) :
    parse (candidate nickname number) = .error .nicknameTooLong := by
  obtain ⟨discriminator, spelled, _, parsed⟩ :=
    parse_candidate nickname positive fits
  rw [parsed]
  exact (fromPartsUnbounded_checked checked spelled).2 long

/--
What is returned are usernames exactly when the nickname is within the fixed
bound, whatever the caller's limits.
-/
theorem candidates_areUsernames_iff
    {nickname : Bytes}
    {limits : Limits}
    {draws : List (Block 8)}
    {texts : List Bytes}
    (made : candidates nickname limits draws = .ok (some texts)) :
    AreUsernames nickname limits texts ↔
      nickname.length ≤ maxNicknameLength := by
  obtain ⟨checked, numbers, count, bounds, rfl⟩ := candidates_eq_ok made
  constructor
  · intro usernames
    obtain ⟨number, rest, rfl⟩ :=
      List.exists_cons_of_length_eq_add_one count
    obtain ⟨positive, fits⟩ := bounds number List.mem_cons_self
    by_contra long
    obtain ⟨handle, parsed⟩ := usernames.parsed _ List.mem_cons_self
    rw [parse_candidate_long checked (Nat.not_le.mp long) positive fits]
      at parsed
    cases parsed
  · intro short
    refine ⟨by rw [List.length_map, count], ?parsed, ?split⟩
    case parsed =>
      intro text member
      obtain ⟨number, present, rfl⟩ := List.mem_map.mp member
      obtain ⟨positive, fits⟩ := bounds number present
      obtain ⟨discriminator, spelled, _, parsed⟩ :=
        parse_candidate nickname positive fits
      rw [parsed]
      exact (fromPartsUnbounded_checked checked spelled).1 short
    case split =>
      intro text member
      obtain ⟨number, present, rfl⟩ := List.mem_map.mp member
      obtain ⟨positive, fits⟩ := bounds number present
      obtain ⟨discriminator, spelled, split, _⟩ :=
        parse_candidate nickname positive fits
      obtain ⟨handle, made⟩ :=
        (fromPartsUnbounded_checked checked spelled).1 short
      refine ⟨discriminator, handle, split, ?_⟩
      rw [fromParts, made, Outcome.ok_bind, checked, Outcome.ok_bind]

end Usernames

section Witness

attribute [local instance] Sample.sha512

/-- Draws of zeroes. -/
private def zeroDraws : List (Block 8) :=
  List.replicate candidateCount (Block.zero 8)

/-- The discriminators that these draws give. -/
private def firstNumbers : List Nat :=
  schedule.map Prod.fst

private theorem drawFrom_zeroDraws :
    drawFrom schedule zeroDraws = some (firstNumbers, []) := by
  decide

private theorem candidates_zeroDraws
    {nickname : Bytes}
    {limits : Limits}
    (checked : checkNickname nickname limits = .ok ()) :
    candidates nickname limits zeroDraws =
      .ok (some (firstNumbers.map (candidate nickname))) := by
  rw [candidates, checked, Outcome.ok_bind, drawFrom_zeroDraws]
  rfl

/-- A nickname of one character more than its scalar holds. -/
private def longNickname : Bytes :=
  List.replicate 49 97

/-- Limits that allow it. -/
private def wideLimits : Limits :=
  ⟨3, 64⟩

private theorem longNickname_checked :
    checkNickname longNickname wideLimits = .ok () := by
  decide

/-- The condition at a nickname of the longest length. -/
theorem candidates_areUsernames_iff_longest :
    AreUsernames (List.replicate 48 97) wideLimits
        (firstNumbers.map (candidate (List.replicate 48 97))) ↔
      (List.replicate 48 97 : Bytes).length ≤ maxNicknameLength :=
  candidates_areUsernames_iff (candidates_zeroDraws (by decide))

/-- A nickname within the caller's limits alone. -/
theorem longNickname_not_areUsernames :
    candidates longNickname wideLimits zeroDraws =
        .ok (some (firstNumbers.map (candidate longNickname))) ∧
      ¬ AreUsernames longNickname wideLimits
        (firstNumbers.map (candidate longNickname)) := by
  refine ⟨candidates_zeroDraws longNickname_checked, fun usernames => ?_⟩
  have present :
      candidate longNickname 1 ∈
        firstNumbers.map (candidate longNickname) :=
    List.mem_map_of_mem (by decide)
  obtain ⟨handle, parsed⟩ := usernames.parsed _ present
  rw [parse_candidate_long longNickname_checked (by decide) (by decide)
    (by decide)] at parsed
  cases parsed

end Witness

end Gossveil.Handle
