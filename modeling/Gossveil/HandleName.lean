import Gossveil.Keys
import Gossveil.Numerals
import Gossveil.Scalars

namespace Gossveil

/-!
# Usernames

A username is a nickname, a dot and a discriminator.  It is turned into three
scalars: a digest of both, the nickname as a number, and the discriminator.
-/

namespace Handle

/-- The characters a nickname scalar can hold. -/
def maxNicknameLength : Nat := 48

/-- What is wrong with a name. -/
inductive NameError where
  | missingSeparator
  | nicknameCannotBeEmpty
  | nicknameCannotStartWithDigit
  | badNicknameCharacter
  | nicknameTooShort
  | nicknameTooLong
  | discriminatorCannotBeEmpty
  | badDiscriminatorCharacter
  | discriminatorCannotBeZero
  | discriminatorCannotBeSingleDigit
  | discriminatorCannotHaveLeadingZeros
  | discriminatorTooLarge
  | proofVerificationFailure
  deriving DecidableEq, Repr

/-- The lengths a nickname may have. -/
structure Limits where
  min : Nat := 3
  max : Nat := 32

/-! ## Characters -/

/-- `std.ascii.isDigit` -/
def isDigit (char : UInt8) : Bool :=
  48 ≤ char && char ≤ 57

/-- `std.ascii.toLower` -/
def toLower (char : UInt8) : UInt8 :=
  if 65 ≤ char ∧ char ≤ 90 then char ||| 32 else char

/-- The digit a character stands for: an underscore, a letter or a digit. -/
def code (char : UInt8) : Option Nat :=
  if char = 95 then some 1
  else if 97 ≤ char ∧ char ≤ 122 then some (char.toNat - 97 + 2)
  else if 48 ≤ char ∧ char ≤ 57 then some (char.toNat - 48 + 28)
  else none

/-! ## The scalars of a username -/

/-- A number of 64 bits as a scalar. -/
def small (value : Nat) : Block 32 :=
  ⟨Codec.Writer.littleEndian 8 value ++ List.replicate 24 0, by
    simp [Codec.length_littleEndian]⟩

/-- `codes[i]` for every character, or null where one has no code. -/
def codes (nickname : Bytes) : Option (List Nat) :=
  nickname.mapM fun char => code (toLower char)

/-- From the last code down to the second, then the first. -/
def scalarOfCodes : List Nat → Outcome NameError (Block 32)
  | [] => .trap
  | first :: rest =>
      let acc :=
        rest.foldr
          (fun digit acc => Scalar.mulAdd acc (small 37) (small digit))
          (Block.zero 32)
      .ok (Scalar.mulAdd acc (small 27) (small first))

/-- The nickname as a number in its alphabet, in thirty-two bytes. -/
def nicknameScalar (nickname : Bytes) : Outcome NameError (Block 32) := do
  Outcome.require .nicknameCannotBeEmpty (nickname.length ≠ 0)
  Outcome.require .nicknameTooLong (nickname.length ≤ maxNicknameLength)
  let digits ← Outcome.ofOption .badNicknameCharacter (codes nickname)
  scalarOfCodes digits

/-- The scalar of the whole name, as it was typed. -/
def digestScalar
    [Sha512]
    (nickname : Bytes)
    (discriminator : Nat) :
    Block 32 :=
  Scalar.reduce64
    (Sha512.hash (nickname ++ [0] ++ bigEndian 8 discriminator))

/-- One character of a discriminator, the number being of 64 bits. -/
def addDigit (number : Nat) (char : UInt8) : Outcome NameError Nat := do
  Outcome.require .badDiscriminatorCharacter (isDigit char)
  let number ←
    Outcome.ofOption .discriminatorTooLarge
      (Outcome.castTo 64 (number * 10))
  Outcome.ofOption .discriminatorTooLarge
    (Outcome.castTo 64 (number + (char.toNat - 48)))

/-- The number behind the dot, digit by digit. -/
def discriminatorOf : Bytes → Outcome NameError Nat
  | [] => .error .discriminatorCannotBeEmpty
  | first :: rest => do
      Outcome.require .badDiscriminatorCharacter (isDigit first)
      let number ← (first :: rest).foldlM addDigit 0
      Outcome.require .discriminatorCannotBeZero (number ≠ 0)
      match (first :: rest).length with
      | 1 => .error .discriminatorCannotBeSingleDigit
      | 2 => .ok number
      | _ =>
          if first ≠ 48 then .ok number
          else .error .discriminatorCannotHaveLeadingZeros

/-! ## Parsing -/

/-- `mem.lastIndexOfScalar` -/
def lastIndexOf (value : UInt8) : Bytes → Option Nat
  | [] => none
  | first :: rest =>
      match lastIndexOf value rest with
      | some index => some (index + 1)
      | none => if first = value then some 0 else none

/-- The nickname and the discriminator around the last dot. -/
def parts (text : Bytes) : Option (Bytes × Bytes) :=
  (lastIndexOf 46 text).map fun dot => (text.take dot, text.drop (dot + 1))

/-- `checkNickname` -/
def checkNickname
    (nickname : Bytes)
    (limits : Limits) :
    Outcome NameError Unit := do
  match nickname with
  | [] => .error .nicknameCannotBeEmpty
  | first :: _ =>
      Outcome.require .nicknameCannotStartWithDigit (¬ isDigit first)
  let _ ← Outcome.ofOption .badNicknameCharacter (codes nickname)
  Outcome.require .nicknameTooShort (limits.min ≤ nickname.length)
  Outcome.require .nicknameTooLong (nickname.length ≤ limits.max)

end Handle

/-- The three scalars of a username. -/
structure Handle where
  scalars : Vector (Block 32) 3
  deriving DecidableEq

namespace Handle

variable [Sha512]

/-- The scalars of a name of any length. -/
def fromPartsUnbounded
    (nickname discriminator : Bytes) :
    Outcome NameError Handle := do
  match nickname with
  | [] => .error .nicknameCannotBeEmpty
  | first :: _ =>
      Outcome.require .nicknameCannotStartWithDigit (¬ isDigit first)
  let number ← discriminatorOf discriminator
  let name ← nicknameScalar nickname
  .ok ⟨#v[digestScalar nickname number, name, small number]⟩

/-- The scalars of a name within the limits. -/
def fromParts
    (nickname discriminator : Bytes)
    (limits : Limits) :
    Outcome NameError Handle := do
  let handle ← fromPartsUnbounded nickname discriminator
  checkNickname nickname limits
  .ok handle

/-- The scalars of a name in one text. -/
def parse (text : Bytes) : Outcome NameError Handle := do
  let (nickname, discriminator) ←
    Outcome.ofOption .missingSeparator (parts text)
  fromPartsUnbounded nickname discriminator

end Handle

end Gossveil
