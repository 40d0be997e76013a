import Gossveil.HandleName

namespace Gossveil

open Numerals

/-!
# The scalars of a username tell usernames apart

The nickname is a number whose first digit runs to 27 and whose others run to
37, and no nickname that is accepted reaches the group order, so nothing is
reduced.  A discriminator has one accepted spelling for each number.
-/

namespace Handle

/-- A small number is its scalar. -/
theorem toNat_small
    {value : Nat}
    (fits : value < 2 ^ 64) :
    Scalar.toNat (small value) = value := by
  unfold Scalar.toNat small
  rw [Scalar.littleEndian_append_zeros]
  exact Codec.littleEndian_write 8 value fits

@[simp] theorem toNat_zero : Scalar.toNat (Block.zero 32) = 0 := by
  decide

/-! ## Characters -/

theorem isDigit_eq_true {char : UInt8} :
    isDigit char = true ↔ 48 ≤ char.toNat ∧ char.toNat ≤ 57 := by
  simp [isDigit, UInt8.le_iff_toNat_le]

/-- An underscore, a small letter or a digit, and its code. -/
theorem code_eq_some
    {char : UInt8}
    {digit : Nat} :
    code char = some digit ↔
      (char.toNat = 95 ∧ digit = 1) ∨
        (97 ≤ char.toNat ∧ char.toNat ≤ 122 ∧ digit + 95 = char.toNat) ∨
          (48 ≤ char.toNat ∧ char.toNat ≤ 57 ∧
            digit + 20 = char.toNat) := by
  simp only [code, UInt8.le_iff_toNat_le, ← UInt8.toNat_inj,
    UInt8.reduceToNat]
  split_ifs with underscore letter decimal
  all_goals
    simp only [Option.some.injEq, false_iff]
    omega

theorem code_positive
    {char : UInt8}
    {digit : Nat}
    (coded : code char = some digit) :
    1 ≤ digit ∧ digit ≤ 37 := by
  have kinds := code_eq_some.mp coded
  omega

/-- A capital becomes a small letter, and every other character stays. -/
theorem toLower_cases (char : UInt8) :
    97 ≤ (toLower char).toNat ∨ toLower char = char := by
  have capitals :
      ∀ capital : Fin 26, 97 ≤ (UInt8.ofNat (65 + capital) ||| 32).toNat := by
    decide
  rw [toLower]
  split_ifs with capital
  · simp only [UInt8.le_iff_toNat_le, UInt8.reduceToNat] at capital
    have spelled : UInt8.ofNat (65 + (char.toNat - 65)) = char := by
      rw [Nat.add_sub_cancel' capital.1, UInt8.ofNat_toNat]
    have small := capitals ⟨char.toNat - 65, by omega⟩
    rw [spelled] at small
    exact .inl small
  · exact .inr rfl

/-- The characters up to 27 are the underscore and the letters. -/
theorem code_first
    {char : UInt8}
    {digit : Nat}
    (letter : isDigit char = false)
    (coded : code (toLower char) = some digit) :
    1 ≤ digit ∧ digit ≤ 27 := by
  have kinds := code_eq_some.mp coded
  rcases toLower_cases char with small | same
  · omega
  · have other : ¬(48 ≤ char.toNat ∧ char.toNat ≤ 57) := by
      rw [← isDigit_eq_true, letter]
      exact Bool.false_ne_true
    rw [same] at kinds
    omega

/-- The character of a code. -/
def decode (digit : Nat) : UInt8 :=
  if digit = 1 then 95
  else if digit ≤ 27 then UInt8.ofNat (digit - 2 + 97)
  else UInt8.ofNat (digit - 28 + 48)

/-- A code stands for one character. -/
theorem decode_code
    {char : UInt8}
    {digit : Nat}
    (coded : code char = some digit) :
    decode digit = char := by
  have spelled : UInt8.ofNat char.toNat = char := UInt8.ofNat_toNat
  rw [decode]
  rcases code_eq_some.mp coded with ⟨underscore, rfl⟩ |
    ⟨low, high, same⟩ | ⟨low, high, same⟩
  · rw [if_pos rfl, ← spelled, underscore]
    rfl
  · rw [if_neg (by omega), if_pos (by omega), ← spelled, ← same]
    congr 1
    omega
  · rw [if_neg (by omega), if_neg (by omega), ← spelled, ← same]
    congr 1
    omega

/-! ## Codes of a nickname -/

theorem codes_cons
    {char : UInt8}
    {rest : Bytes}
    {digits : List Nat} :
    codes (char :: rest) = some digits ↔
      ∃ first others,
        digits = first :: others ∧ code (toLower char) = some first ∧
          codes rest = some others := by
  simp only [codes, List.mapM_cons, Option.bind_eq_bind,
    Option.bind_eq_some_iff, Option.pure_def, Option.some.injEq]
  constructor
  · rintro ⟨first, coded, others, codedRest, rfl⟩
    exact ⟨first, others, rfl, coded, codedRest⟩
  · rintro ⟨first, others, rfl, coded, codedRest⟩
    exact ⟨first, coded, others, codedRest, rfl⟩

theorem length_codes
    {nickname : Bytes}
    {digits : List Nat}
    (coded : codes nickname = some digits) :
    digits.length = nickname.length := by
  induction nickname generalizing digits with
  | nil =>
      cases coded
      rfl
  | cons char rest inductionHypothesis =>
      obtain ⟨first, others, rfl, _, codedRest⟩ := codes_cons.mp coded
      rw [List.length_cons, List.length_cons, inductionHypothesis codedRest]

/-- Codes are the digits of a numeral without zeroes. -/
theorem codes_positive
    {nickname : Bytes}
    {digits : List Nat}
    (coded : codes nickname = some digits) :
    Positive 37 digits := by
  induction nickname generalizing digits with
  | nil =>
      cases coded
      exact List.forall_mem_nil _
  | cons char rest inductionHypothesis =>
      obtain ⟨first, others, rfl, codedFirst, codedRest⟩ :=
        codes_cons.mp coded
      exact Positive.cons.mpr
        ⟨code_positive codedFirst, inductionHypothesis codedRest⟩

/-- The codes are those of the nickname in lower case, and spell it out. -/
theorem map_decode_codes
    {nickname : Bytes}
    {digits : List Nat}
    (coded : codes nickname = some digits) :
    digits.map decode = nickname.map toLower := by
  induction nickname generalizing digits with
  | nil =>
      cases coded
      rfl
  | cons char rest inductionHypothesis =>
      obtain ⟨first, others, rfl, codedFirst, codedRest⟩ :=
        codes_cons.mp coded
      rw [List.map_cons, List.map_cons, decode_code codedFirst,
        inductionHypothesis codedRest]

/-- The nickname is coded in lower case. -/
theorem codes_eq_mapM (nickname : Bytes) :
    codes nickname = (nickname.map toLower).mapM code := by
  induction nickname with
  | nil => rfl
  | cons char rest inductionHypothesis =>
      rw [codes] at inductionHypothesis ⊢
      rw [List.mapM_cons, inductionHypothesis, List.map_cons, List.mapM_cons]

/-- Two nicknames with codes share them exactly up to case. -/
theorem codes_inj
    {nickname other : Bytes}
    {digits otherDigits : List Nat}
    (coded : codes nickname = some digits)
    (otherCoded : codes other = some otherDigits) :
    digits = otherDigits ↔ nickname.map toLower = other.map toLower := by
  constructor
  · rintro rfl
    rw [← map_decode_codes coded, map_decode_codes otherCoded]
  · intro same
    rw [codes_eq_mapM, same, ← codes_eq_mapM, otherCoded] at coded
    exact (Option.some.inj coded).symm

/-! ## The nickname's scalar -/

/-- No number of so many digits reaches the group order. -/
theorem digits_below_order
    {digits : List Nat}
    (positive : Positive 37 digits)
    (short : digits.length < maxNicknameLength) :
    27 + 27 * Nat.ofDigits 37 digits < Scalar.groupOrder := by
  have below := positive.ofDigits_lt (by decide)
  have power : 37 ^ digits.length ≤ 37 ^ 47 :=
    Nat.pow_le_pow_right (by decide) (Nat.le_of_lt_succ short)
  have order : 27 + 27 * (2 * 37 ^ 47) < Scalar.groupOrder := by
    decide
  omega

/-- Horner's rule computes the numeral, below the order of the group. -/
theorem toNat_horner
    {digits : List Nat}
    (positive : Positive 37 digits)
    (short : digits.length < maxNicknameLength) :
    Scalar.toNat
        (digits.foldr
          (fun digit acc => Scalar.mulAdd acc (small 37) (small digit))
          (Block.zero 32)) =
      Nat.ofDigits 37 digits := by
  induction digits with
  | nil => simp
  | cons digit digits inductionHypothesis =>
      have below := digits_below_order positive short
      obtain ⟨bound, positiveRest⟩ := Positive.cons.mp positive
      have rest := inductionHypothesis positiveRest
        (Nat.lt_of_succ_lt short)
      have value :
          Nat.ofDigits 37 (digit :: digits) =
            Nat.ofDigits 37 digits * 37 + digit := by
        rw [Nat.ofDigits_cons, Nat.mul_comm, Nat.add_comm]
      have digitSmall : Scalar.toNat (small digit) = digit :=
        toNat_small (Nat.lt_of_le_of_lt bound.2 (by decide))
      have baseSmall : Scalar.toNat (small 37) = 37 := toNat_small (by decide)
      rw [List.foldr_cons, Scalar.toNat_mulAdd, rest, digitSmall, baseSmall,
        value]
      rw [rest, digitSmall, baseSmall, ← value]
      omega

/-- The scalar of a list of codes is the number they make, unreduced. -/
theorem toNat_scalarOfCodes
    {first : Nat}
    {rest : List Nat}
    {scalar : Block 32}
    (firstBound : 1 ≤ first ∧ first ≤ 27)
    (positive : Positive 37 rest)
    (short : rest.length < maxNicknameLength)
    (made : scalarOfCodes (first :: rest) = .ok scalar) :
    Scalar.toNat scalar = first + 27 * Nat.ofDigits 37 rest := by
  have below := digits_below_order positive short
  have digitSmall : Scalar.toNat (small first) = first :=
    toNat_small (Nat.lt_of_le_of_lt firstBound.2 (by decide))
  have baseSmall : Scalar.toNat (small 27) = 27 := toNat_small (by decide)
  have horner := toNat_horner positive short
  rw [scalarOfCodes, Outcome.ok.injEq] at made
  rw [← made, Scalar.toNat_mulAdd, horner, digitSmall, baseSmall,
    Nat.mul_comm, Nat.add_comm]
  rw [horner, digitSmall, baseSmall]
  omega

/-! ## Discriminators -/

/-- The digit of a decimal character, and the character of a digit. -/
def digitOf (char : UInt8) : Nat :=
  char.toNat - 48

/-- The character of a decimal digit. -/
def charOf (digit : Nat) : UInt8 :=
  UInt8.ofNat (48 + digit)

theorem digitOf_lt
    {char : UInt8}
    (decimalChar : isDigit char = true) :
    digitOf char < 10 := by
  have bounds := isDigit_eq_true.mp decimalChar
  rw [digitOf]
  omega

/-- A digit is the character of its value. -/
theorem charOf_digitOf
    {char : UInt8}
    (decimalChar : isDigit char = true) :
    charOf (digitOf char) = char := by
  rw [charOf, digitOf,
    Nat.add_sub_cancel' (isDigit_eq_true.mp decimalChar).1, UInt8.ofNat_toNat]

theorem digitOf_charOf
    {digit : Nat}
    (small : digit < 10) :
    isDigit (charOf digit) = true ∧ digitOf (charOf digit) = digit := by
  have byte : (charOf digit).toNat = 48 + digit := by
    rw [charOf, UInt8.toNat_ofNat']
    omega
  constructor
  · rw [isDigit_eq_true, byte]
    omega
  · rw [digitOf, byte, Nat.add_sub_cancel_left]

/-- The decimal text of a number. -/
def decimalText (number : Nat) : Bytes :=
  (decimal number).map charOf

/-- A digit is added if the number still fits. -/
theorem addDigit_eq_ok
    {number result : Nat}
    {char : UInt8} :
    addDigit number char = .ok result ↔
      isDigit char = true ∧ number * 10 + digitOf char = result ∧
        result < 2 ^ 64 := by
  rw [addDigit]
  constructor
  · intro added
    obtain ⟨_, decimalChar, added⟩ := Outcome.bind_eq_ok.mp added
    obtain ⟨tens, isTens, added⟩ := Outcome.bind_eq_ok.mp added
    obtain ⟨_, rfl⟩ :=
      Outcome.castTo_eq_some.mp (Outcome.ofOption_eq_ok.mp isTens)
    obtain ⟨fits, rfl⟩ :=
      Outcome.castTo_eq_some.mp (Outcome.ofOption_eq_ok.mp added)
    exact ⟨Outcome.require_eq_ok.mp decimalChar, rfl, fits⟩
  · rintro ⟨decimalChar, rfl, fits⟩
    have tensFit : number * 10 < 2 ^ 64 :=
      Nat.lt_of_le_of_lt (Nat.le_add_right _ _) fits
    rw [Outcome.require_of decimalChar, Outcome.ok_bind,
      Outcome.castTo_of_lt tensFit, Outcome.ofOption_some, Outcome.ok_bind]
    rw [digitOf] at fits
    rw [Outcome.castTo_of_lt fits]
    rfl

/-- The loop returns the number of the digits, when it fits 64 bits. -/
theorem foldlM_addDigit
    {text : Bytes}
    {number : Nat} :
    text.foldlM addDigit 0 = .ok number ↔
      (∀ char ∈ text, isDigit char = true) ∧
        readDecimal (text.map digitOf) = number ∧ number < 2 ^ 64 := by
  induction text using List.reverseRecOn generalizing number with
  | nil =>
      simp only [List.foldlM_nil, Outcome.pure_eq, Outcome.ok.injEq,
        List.not_mem_nil, false_implies, implies_true, List.map_nil, true_and]
      constructor
      · rintro rfl
        exact ⟨rfl, by decide⟩
      · rintro ⟨rfl, _⟩
        rfl
  | append_singleton text char inductionHypothesis =>
      rw [List.foldlM_append, Outcome.bind_eq_ok, List.map_append,
        List.map_singleton, readDecimal_concat]
      simp only [List.foldlM_cons, List.foldlM_nil, bind_pure,
        addDigit_eq_ok, inductionHypothesis, List.mem_append,
        List.mem_singleton]
      constructor
      · rintro ⟨front, ⟨digits, rfl, _⟩, decimalChar, rfl, fits⟩
        refine ⟨?_, rfl, fits⟩
        rintro char (member | rfl)
        · exact digits char member
        · exact decimalChar
      · rintro ⟨digits, rfl, fits⟩
        exact ⟨_, ⟨fun char member => digits char (.inl member), rfl,
            Nat.lt_of_le_of_lt (by omega) fits⟩,
          digits char (.inr rfl), rfl, fits⟩

/-- The accepted spelling of a number. -/
def Spelled (text : Bytes) (number : Nat) : Prop :=
  (1 ≤ number ∧ number ≤ 9 ∧ text = [48, charOf number]) ∨
    (10 ≤ number ∧ number < 2 ^ 64 ∧ text = decimalText number)

/-- A number has one spelling. -/
theorem Spelled.unique
    {text other : Bytes}
    {number : Nat}
    (spelled : Spelled text number)
    (spelledOther : Spelled other number) :
    text = other := by
  rcases spelled with ⟨_, single, rfl⟩ | ⟨two, _, rfl⟩
  · rcases spelledOther with ⟨_, _, rfl⟩ | ⟨two, _, _⟩
    · rfl
    · exact absurd (two.trans single) (by decide)
  · rcases spelledOther with ⟨_, single, _⟩ | ⟨_, _, rfl⟩
    · exact absurd (two.trans single) (by decide)
    · rfl

theorem Spelled.lt
    {text : Bytes}
    {number : Nat}
    (spelled : Spelled text number) :
    number < 2 ^ 64 := by
  rcases spelled with ⟨_, single, _⟩ | ⟨_, fits, _⟩
  · exact Nat.lt_of_le_of_lt single (by decide)
  · exact fits

/-- Decimal characters are the text of the number they make. -/
theorem decimalText_readDecimal
    {first : UInt8}
    {rest : Bytes}
    (digits : ∀ char ∈ first :: rest, isDigit char = true)
    (nonzero : first ≠ 48) :
    decimalText (readDecimal ((first :: rest).map digitOf)) =
      first :: rest := by
  have firstDigit : digitOf first ≠ 0 := by
    intro zero
    have spelled := charOf_digitOf (digits first (List.mem_cons_self ..))
    rw [zero] at spelled
    exact nonzero spelled.symm
  have small :
      ∀ digit ∈ digitOf first :: rest.map digitOf, digit < 10 := by
    rw [← List.map_cons]
    intro digit member
    obtain ⟨char, present, rfl⟩ := List.mem_map.mp member
    exact digitOf_lt (digits char present)
  rw [decimalText, List.map_cons, decimal_readDecimal firstDigit small,
    ← List.map_cons, List.map_map]
  exact (List.map_congr_left fun char present =>
    charOf_digitOf (digits char present)).trans (List.map_id _)

/-- The text of a number is read as the number. -/
theorem foldlM_decimalText
    {number : Nat}
    (fits : number < 2 ^ 64) :
    (decimalText number).foldlM addDigit 0 = .ok number := by
  refine foldlM_addDigit.mpr ⟨?digits, ?read, fits⟩
  case digits =>
    intro char member
    obtain ⟨digit, present, rfl⟩ := List.mem_map.mp member
    exact (digitOf_charOf (decimal_small present)).1
  case read =>
    rw [decimalText, List.map_map]
    refine (congrArg readDecimal ?_).trans (readDecimal_decimal number)
    exact (List.map_congr_left fun digit present =>
      (digitOf_charOf (decimal_small present)).2).trans (List.map_id _)

/-- What is read is spelled out. -/
theorem discriminatorOf_ok
    {text : Bytes}
    {number : Nat}
    (read : discriminatorOf text = .ok number) :
    Spelled text number := by
  cases text with
  | nil => cases read
  | cons first rest =>
      rw [discriminatorOf] at read
      obtain ⟨_, _, read⟩ := Outcome.bind_eq_ok.mp read
      obtain ⟨value, folded, read⟩ := Outcome.bind_eq_ok.mp read
      obtain ⟨_, nonzero, read⟩ := Outcome.bind_eq_ok.mp read
      have positive := Outcome.require_eq_ok.mp nonzero
      obtain ⟨digits, made, fits⟩ := foldlM_addDigit.mp folded
      have decimalNumber : first ≠ 48 → rest ≠ [] → value = number →
          Spelled (first :: rest) number := by
        rintro leading longer rfl
        have whole := decimalText_readDecimal digits leading
        rw [made] at whole
        refine .inr ⟨?_, fits, whole.symm⟩
        rw [← two_le_length_decimal]
        have length := congrArg List.length whole
        rw [decimalText, List.length_map, List.length_cons] at length
        have some_rest := List.length_pos_of_ne_nil longer
        omega
      rcases rest with _ | ⟨second, rest⟩
      · cases read
      · by_cases leading : first = 48
        · subst leading
          rcases rest with _ | ⟨third, rest⟩
          · have same : value = number := Outcome.ok.inj read
            subst same
            have small := digitOf_lt (digits second (by simp))
            have spelled := charOf_digitOf (digits second (by simp))
            have isDigitOf : value = digitOf second := by
              rw [← made]
              simp [readDecimal, digitOf]
            subst isDigitOf
            exact .inl ⟨Nat.pos_of_ne_zero positive,
              Nat.le_of_lt_succ small, by rw [spelled]⟩
          · simp at read
        · refine decimalNumber leading (by simp) ?_
          rcases rest with _ | ⟨third, rest⟩
          · cases read
            rfl
          · simpa [leading] using read

/-- The decimal text of a number reads back. -/
theorem discriminatorOf_decimalText
    {number : Nat}
    (two : 10 ≤ number)
    (fits : number < 2 ^ 64) :
    discriminatorOf (decimalText number) = .ok number := by
  have nonzero : number ≠ 0 := Nat.ne_of_gt (Nat.lt_of_lt_of_le (by decide) two)
  have folded := foldlM_decimalText fits
  have longer := two_le_length_decimal.mpr two
  obtain ⟨first, digits, shape, leading⟩ := decimal_eq_cons nonzero
  have small : first < 10 := by
    refine decimal_small (?_ : first ∈ decimal number)
    rw [shape]
    exact List.mem_cons_self ..
  obtain ⟨isDecimal, spelled⟩ := digitOf_charOf small
  have notZero : charOf first ≠ 48 := by
    intro zero
    rw [zero] at spelled
    exact leading spelled.symm
  rw [decimalText, shape, List.map_cons] at folded ⊢
  rw [shape, List.length_cons] at longer
  rw [discriminatorOf, Outcome.require_of isDecimal, Outcome.ok_bind, folded,
    Outcome.ok_bind, Outcome.require_of nonzero, Outcome.ok_bind]
  rcases digits with _ | ⟨second, digits⟩
  · exact absurd longer (by decide)
  · rcases digits with _ | ⟨third, digits⟩
    · rfl
    · simp [notZero]

/-- A discriminator is read as the number it is the spelling of. -/
theorem discriminatorOf_eq_ok
    {text : Bytes}
    {number : Nat} :
    discriminatorOf text = .ok number ↔ Spelled text number := by
  constructor
  · exact discriminatorOf_ok
  · rintro (⟨positive, single, rfl⟩ | ⟨two, fits, rfl⟩)
    · have each :
          ∀ digit : Fin 10, 1 ≤ digit.val →
            discriminatorOf [48, charOf digit] = .ok digit.val := by
        decide
      exact each ⟨number, Nat.lt_succ_of_le single⟩ positive
    · exact discriminatorOf_decimalText two fits

/-! ## Parsed usernames -/

/-- There is no last place exactly if there is none. -/
theorem lastIndexOf_eq_none
    {value : UInt8}
    {text : Bytes} :
    lastIndexOf value text = none ↔ value ∉ text := by
  induction text with
  | nil => simp [lastIndexOf]
  | cons first rest inductionHypothesis =>
      rw [lastIndexOf, List.mem_cons]
      cases later : lastIndexOf value rest with
      | some index =>
          have present : value ∈ rest := by
            by_contra absent
            rw [inductionHypothesis.mpr absent] at later
            cases later
          simp [present]
      | none =>
          have absent := inductionHypothesis.mp later
          by_cases here : first = value
          · simp [here]
          · simp [here, absent, Ne.symm here]

/-- A nickname has a scalar if it is short enough and can be coded. -/
theorem nicknameScalar_eq_ok
    {nickname : Bytes}
    {scalar : Block 32}
    (made : nicknameScalar nickname = .ok scalar) :
    nickname.length ≤ maxNicknameLength ∧
      ∃ digits, codes nickname = some digits ∧
        scalarOfCodes digits = .ok scalar := by
  rw [nicknameScalar] at made
  obtain ⟨_, _, made⟩ := Outcome.bind_eq_ok.mp made
  obtain ⟨_, short, made⟩ := Outcome.bind_eq_ok.mp made
  obtain ⟨digits, coded, made⟩ := Outcome.bind_eq_ok.mp made
  exact ⟨Outcome.require_eq_ok.mp short, digits,
    Outcome.ofOption_eq_ok.mp coded, made⟩

/-- What the parts of an accepted text are, and the scalars made of them. -/
theorem parse_eq_ok
    [Sha512]
    {text nickname discriminator : Bytes}
    {handle : Handle}
    (split : parts text = some (nickname, discriminator))
    (accepted : parse text = .ok handle) :
    nickname.length ≤ maxNicknameLength ∧
      ∃ first rest number,
        codes nickname = some (first :: rest) ∧
          (1 ≤ first ∧ first ≤ 27) ∧
          scalarOfCodes (first :: rest) = .ok handle.scalars[1] ∧
          Spelled discriminator number ∧
          handle.scalars[2] = small number := by
  rw [parse, split, Outcome.ofOption_some, Outcome.ok_bind] at accepted
  cases nickname with
  | nil => cases accepted
  | cons char chars =>
      simp only [fromPartsUnbounded] at accepted
      obtain ⟨_, checked, accepted⟩ := Outcome.bind_eq_ok.mp accepted
      obtain ⟨number, read, accepted⟩ := Outcome.bind_eq_ok.mp accepted
      obtain ⟨name, made, accepted⟩ := Outcome.bind_eq_ok.mp accepted
      cases accepted
      obtain ⟨short, digits, coded, scalar⟩ := nicknameScalar_eq_ok made
      have letter := Outcome.require_eq_ok.mp checked
      obtain ⟨first, rest, rfl, codedFirst, codedRest⟩ :=
        codes_cons.mp coded
      exact ⟨short, first, rest, number, coded,
        code_first (by simpa using letter) codedFirst, scalar,
        discriminatorOf_eq_ok.mp read, rfl⟩

/--
The nickname's scalar is the number its codes make, unreduced; it tells
nicknames apart up to case, and the discriminator's scalar tells discriminators
apart.  Discriminators are `01` to `09` and the decimal numbers of 64 bits from
ten on, without a leading zero.
-/
theorem scalars_tell_apart
    [Sha512]
    {text other : Bytes}
    {nickname otherNickname discriminator otherDiscriminator : Bytes}
    {handle otherHandle : Handle}
    (split : parts text = some (nickname, discriminator))
    (splitOther : parts other = some (otherNickname, otherDiscriminator))
    (accepted : parse text = .ok handle)
    (acceptedOther : parse other = .ok otherHandle) :
    (nickname.length ≤ maxNicknameLength ∧
        ∃ first rest, codes nickname = some (first :: rest) ∧
          Scalar.toNat handle.scalars[1] =
            first +
              27 * (rest.mapIdx fun index digit => digit * 37 ^ index).sum) ∧
      (handle.scalars[1] = otherHandle.scalars[1] ↔
        nickname.map toLower = otherNickname.map toLower) ∧
      (handle.scalars[2] = otherHandle.scalars[2] ↔
        discriminator = otherDiscriminator) ∧
      ∀ candidate,
        (∃ number, discriminatorOf candidate = .ok number) ↔
          (∃ digit, 1 ≤ digit ∧ digit ≤ 9 ∧
            candidate = [48, charOf digit]) ∨
          ∃ number, 10 ≤ number ∧ number < 2 ^ 64 ∧
            candidate = decimalText number := by
  obtain ⟨short, first, rest, number, coded, firstBound, scalar, spelled,
    discriminatorScalar⟩ := parse_eq_ok split accepted
  obtain ⟨shortOther, otherFirst, otherRest, otherNumber, codedOther,
    otherBound, otherScalar, spelledOther, otherDiscriminatorScalar⟩ :=
      parse_eq_ok splitOther acceptedOther
  have positive := (Positive.cons.mp (codes_positive coded)).2
  have positiveOther := (Positive.cons.mp (codes_positive codedOther)).2
  have shortRest : rest.length < maxNicknameLength := by
    rw [← length_codes coded] at short
    exact short
  have shortOtherRest : otherRest.length < maxNicknameLength := by
    rw [← length_codes codedOther] at shortOther
    exact shortOther
  have value := toNat_scalarOfCodes firstBound positive shortRest scalar
  have otherValue :=
    toNat_scalarOfCodes otherBound positiveOther shortOtherRest otherScalar
  refine ⟨⟨short, first, rest, coded, ?value⟩, ?nicknames, ?discriminators,
    ?accepted⟩
  case value => rw [value, Nat.ofDigits_eq_sum_mapIdx]
  case nicknames =>
    rw [← codes_inj coded codedOther]
    constructor
    · intro same
      rw [same, otherValue] at value
      obtain ⟨rfl, sameRest⟩ := split_unique otherBound firstBound value
      rw [(Positive.ofDigits_inj positiveOther positive).mp sameRest]
    · intro same
      rw [same, otherScalar] at scalar
      exact (Outcome.ok.inj scalar).symm
  case discriminators =>
    rw [discriminatorScalar, otherDiscriminatorScalar]
    constructor
    · intro same
      have sameNumber := congrArg Scalar.toNat same
      rw [toNat_small spelled.lt, toNat_small spelledOther.lt] at sameNumber
      subst sameNumber
      exact spelled.unique spelledOther
    · rintro rfl
      have read := discriminatorOf_eq_ok.mpr spelled
      rw [discriminatorOf_eq_ok.mpr spelledOther] at read
      rw [Outcome.ok.inj read]
  case accepted =>
    intro candidate
    simp only [discriminatorOf_eq_ok, Spelled]
    constructor
    · rintro ⟨number, ⟨positive, single, shape⟩ | large⟩
      · exact .inl ⟨number, positive, single, shape⟩
      · exact .inr ⟨number, large⟩
    · rintro (⟨digit, positive, single, shape⟩ | ⟨number, large⟩)
      · exact ⟨digit, .inl ⟨positive, single, shape⟩⟩
      · exact ⟨number, .inr large⟩

section Witness

attribute [local instance] Sample.sha512

/-- A name in mixed case. -/
private def upperCase : Bytes :=
  ascii "Abc.01"

/-- A name with an underscore and a digit. -/
private def longer : Bytes :=
  ascii "abc_9.42"

/-- The handle of a nickname and a number, where there is one. -/
private def handleOf (nickname : Bytes) (number : Nat) : Handle :=
  match nicknameScalar nickname with
  | .ok scalar => ⟨#v[digestScalar nickname number, scalar, small number]⟩
  | _ => ⟨#v[Block.zero 32, Block.zero 32, Block.zero 32]⟩

private theorem upperCase_accepted :
    parts upperCase = some (ascii "Abc", ascii "01") ∧
      parse upperCase = .ok (handleOf (ascii "Abc") 1) := by
  decide +kernel

private theorem longer_accepted :
    parts longer = some (ascii "abc_9", ascii "42") ∧
      parse longer = .ok (handleOf (ascii "abc_9") 42) := by
  decide +kernel

/-- Two names that differ in both parts. -/
theorem scalars_tell_apart_longer :
    ((handleOf (ascii "Abc") 1).scalars[1] =
          (handleOf (ascii "abc_9") 42).scalars[1] ↔
        (ascii "Abc").map toLower = (ascii "abc_9").map toLower) ∧
      ((handleOf (ascii "Abc") 1).scalars[2] =
          (handleOf (ascii "abc_9") 42).scalars[2] ↔
        ascii "01" = ascii "42") :=
  have apart := scalars_tell_apart upperCase_accepted.1 longer_accepted.1
    upperCase_accepted.2 longer_accepted.2
  ⟨apart.2.1, apart.2.2.1⟩

end Witness

end Handle

end Gossveil
