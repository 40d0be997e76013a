import Gossveil.CodeRecord
import Gossveil.Cipher
import Gossveil.HandleScalars

namespace Gossveil

/-!
# Username links

The name is written with a padding that brings the message to between fifty
and sixty-three bytes, so that every sealed link has the same length.
-/

namespace Codec

/-! ## The length of a field -/

theorem length_putVarint_pos (value : Nat) :
    1 ≤ (putVarint value).length :=
  List.length_pos_iff.mpr (putVarintInto_ne_nil 9 value)

theorem length_putVarint_small
    {value : Nat}
    (small : value < 128) :
    (putVarint value).length = 1 := by
  have single : value / 128 = 0 := Nat.div_eq_of_lt small
  rw [putVarint, putVarintInto, if_pos single, List.length_singleton]

/-- A field of a few bytes has two bytes in front. -/
theorem Writer.length_bytes_short
    {number : Nat}
    {data : Bytes}
    (small : number < 15)
    (short : data.length < 128) :
    (Writer.bytes number data).length = data.length + 2 := by
  have tagSmall : number * 8 + Kind.bytes.code < 128 := by
    have := Kind.code_lt .bytes
    omega
  simp only [Writer.bytes, Writer.tag, List.length_append,
    length_putVarint_small tagSmall, length_putVarint_small short]
  omega

theorem Writer.length_bytes_ge (number : Nat) (data : Bytes) :
    data.length + 2 ≤ (Writer.bytes number data).length := by
  have tag := length_putVarint_pos (number * 8 + Kind.bytes.code)
  have size := length_putVarint_pos data.length
  simp only [Writer.bytes, Writer.tag, List.length_append]
  omega

/-- A short byte field takes two bytes more than its value. -/
theorem Writer.length_bytesIfSet_short
    {number : Nat}
    {data : Bytes}
    (small : number < 15)
    (short : data.length < 128) :
    (Writer.bytesIfSet number data).length =
      if data.length = 0 then 0 else data.length + 2 := by
  unfold Writer.bytesIfSet
  by_cases empty : data.length = 0
  · rw [if_neg (not_not.mpr empty), if_pos empty, List.length_nil]
  · rw [if_pos empty, if_neg empty, Writer.length_bytes_short small short]

end Codec

namespace Handle

open Codec

/-! ## Parsing does not trap -/

theorem addDigit_ne_trap (number : Nat) (char : UInt8) :
    addDigit number char ≠ .trap := by
  simp [addDigit, Outcome.bind_eq_trap]

theorem foldlM_addDigit_ne_trap (text : Bytes) (number : Nat) :
    text.foldlM addDigit number ≠ .trap := by
  induction text generalizing number with
  | nil => simp
  | cons char rest inductionHypothesis =>
      rw [List.foldlM_cons]
      intro trapped
      rcases Outcome.bind_eq_trap.mp trapped with trapped | ⟨next, _, trapped⟩
      · exact addDigit_ne_trap number char trapped
      · exact inductionHypothesis next trapped

theorem discriminatorOf_ne_trap (text : Bytes) :
    discriminatorOf text ≠ .trap := by
  cases text with
  | nil => simp [discriminatorOf]
  | cons first rest =>
      intro trapped
      rw [discriminatorOf] at trapped
      simp only [Outcome.bind_eq_trap, Outcome.require_ne_trap,
        foldlM_addDigit_ne_trap, false_or] at trapped
      obtain ⟨_, _, number, _, _, _, trapped⟩ := trapped
      split at trapped
      · cases trapped
      · cases trapped
      · split_ifs at trapped

theorem nicknameScalar_ne_trap (nickname : Bytes) :
    nicknameScalar nickname ≠ .trap := by
  intro trapped
  simp only [nicknameScalar, Outcome.bind_eq_trap, Outcome.require_ne_trap,
    Outcome.ofOption_ne_trap, false_or] at trapped
  obtain ⟨_, nonempty, _, _, digits, coded, trapped⟩ := trapped
  have length := length_codes (Outcome.ofOption_eq_ok.mp coded)
  cases digits with
  | nil => exact Outcome.require_eq_ok.mp nonempty length.symm
  | cons first rest => cases trapped

/-- Parsing a name never traps. -/
theorem parse_ne_trap [Sha512] (text : Bytes) :
    parse text ≠ .trap := by
  intro trapped
  simp only [parse, Outcome.bind_eq_trap, Outcome.ofOption_ne_trap,
    false_or] at trapped
  obtain ⟨⟨nickname, discriminator⟩, _, trapped⟩ := trapped
  cases nickname with
  | nil => cases trapped
  | cons first rest =>
      simp only [fromPartsUnbounded, Outcome.bind_eq_trap,
        Outcome.require_ne_trap, discriminatorOf_ne_trap,
        nicknameScalar_ne_trap, false_or] at trapped
      obtain ⟨_, _, number, _, scalar, _, trapped⟩ := trapped
      cases trapped

/-- Without a separator there is no username. -/
theorem parse_nil [Sha512] : parse [] = .error .missingSeparator :=
  rfl

/-! ## Making and opening a link -/

/-- What is wrong with a link. -/
inductive LinkError where
  | badEntropy
  | badLink
  deriving DecidableEq, Repr

/-- A link: the entropy is in the address, the sealed name on the server. -/
structure Link where
  entropy : Block 32
  sealed : Bytes
  deriving DecidableEq

namespace Link

/-- The message that is sealed. -/
def body (name : Bytes) : Bytes :=
  Writer.bytesIfSet 1 name ++
    Writer.bytesIfSet 2 (List.replicate (16 * 3 - name.length) 0)

/-- The last name of the message, if its field holds bytes. -/
def readName (name : Option Bytes) (field : Field) :
    Outcome LinkError (Option Bytes) :=
  .ok (if field.number = 1 then field.bytes else name)

/-! ### The message -/

/--
A name with its padding: without a name fifty bytes, up to forty-seven bytes
fifty-two, and from there on two more than the name has.
-/
theorem length_body
    {name : Bytes}
    (short : name.length < 62) :
    50 ≤ (body name).length ∧ (body name).length < 64 := by
  rw [body, List.length_append,
    Writer.length_bytesIfSet_short (by decide) (by omega),
    Writer.length_bytesIfSet_short (by decide)
      (by rw [List.length_replicate]; omega), List.length_replicate]
  split_ifs <;> omega

/-- A long name fills more than sixty-three bytes. -/
theorem length_body_long
    {name : Bytes}
    (long : 62 ≤ name.length) :
    64 ≤ (body name).length := by
  have nonempty : name.length ≠ 0 := by
    omega
  have written : Writer.bytesIfSet 1 name = Writer.bytes 1 name :=
    if_pos nonempty
  have front := Writer.length_bytes_ge 1 name
  rw [body, written, List.length_append]
  omega

/-- What the opener reads from the message: the name, unless it is empty. -/
theorem fold_body
    {name : Bytes}
    (short : name.length < 62) :
    fold LinkError.badLink readName (body name) none =
      .ok (if name = [] then none else some name) := by
  have written :
      body name =
        encodeAll (Field.bytesIfSet 1 name ++
          Field.bytesIfSet 2 (List.replicate (16 * 3 - name.length) 0)) := by
    rw [encodeAll_append, encodeAll_bytesIfSet, encodeAll_bytesIfSet, body]
  have fits : (body name).length < 2 ^ 64 :=
    Nat.lt_trans (length_body short).2 (by decide)
  have readsName :
      (Field.bytesIfSet 1 name).foldlM readName none =
        .ok (if name = [] then none else some name) := by
    cases name with
    | nil => rfl
    | cons first rest => rfl
  rw [written] at fits ⊢
  rw [fold_plain _ _ ?plain fits, foldlM_append_ok readsName]
  case plain =>
    intro field member
    rcases List.mem_append.mp member with isName | isPadding
    · exact Field.Plain.bytesIfSet (by decide) (by decide) field isName
    · exact Field.Plain.bytesIfSet (by decide) (by decide) field isPadding
  apply foldlM_bytesIfSet
  · rfl
  · intro _
    rfl

/-! ### The calls -/

section Calls

variable [Hashes] [Aes]

/-- One of the keys of an entropy. -/
def key (entropy : Block 32) (label : String) : Block 32 :=
  Derive.hkdf 32 entropy.bytes none (ascii label)

/-- The vector and the sealed message, which the MAC covers. -/
def authedPart (entropy : Block 32) (iv : Block 16) (message : Bytes) : Bytes :=
  iv.bytes ++
    Cipher.cbcSeal (key entropy "Signal Username Link Encryption Key") iv
      message

/-- The code over all that comes before it. -/
def mac (entropy : Block 32) (authed : Bytes) : Block 32 :=
  Hashes.hmac (key entropy "Signal Username Link Authentication Key").bytes
    authed

/--
Both draws of the entropy source are arguments; the first is only made when
there is no entropy to reuse.
-/
def create
    (name : Bytes)
    (previous : Option (Block 32))
    (drawn : Block 32)
    (iv : Block 16) :
    Outcome Fault Link := do
  let entropy := previous.getD drawn
  Outcome.require .badArgument ((body name).length < 16 * 4)
  let authed := authedPart entropy iv (body name)
  return ⟨entropy, authed ++ (mac entropy authed).bytes⟩

/-- Opens a sealed name: lengths first, then the code. -/
def «open» [Sha512]
    (entropyBytes sealed : Bytes) :
    Outcome LinkError Bytes := do
  let entropy ← Outcome.ofOption .badEntropy (Block.ofBytes 32 entropyBytes)
  Outcome.require .badLink (16 + 16 + 32 ≤ sealed.length)
  let authed := sealed.take (sealed.length - 32)
  Outcome.require .badLink
    ((mac entropy authed).bytes = sealed.drop authed.length)
  let plain ←
    (Cipher.cbcOpen (key entropy "Signal Username Link Encryption Key")
      (Cipher.front authed) (authed.drop 16)).orElseFault .badLink
  let name ← fold .badLink readName plain none
  let name ← Outcome.ofOption .badLink name
  let _ ← (parse name).orElseFault .badLink
  return name

/-- All short names are sealed in eighty bytes. -/
theorem length_authedPart
    (entropy : Block 32)
    (iv : Block 16)
    {name : Bytes}
    (short : name.length < 62) :
    (authedPart entropy iv (body name)).length = 80 := by
  have bounds := length_body short
  rw [authedPart, List.length_append, Block.length_eq, Cipher.length_cbcSeal]
  omega

/-- A long name is refused. -/
theorem create_long
    {name : Bytes}
    (long : 62 ≤ name.length)
    (previous : Option (Block 32))
    (drawn : Block 32)
    (iv : Block 16) :
    create name previous drawn iv = .error .badArgument := by
  rw [create, Outcome.require_not (Nat.not_lt.mpr (length_body_long long))]
  rfl

/-- The link of a short name. -/
theorem create_short
    {name : Bytes}
    (short : name.length < 62)
    (previous : Option (Block 32))
    (drawn : Block 32)
    (iv : Block 16) :
    create name previous drawn iv =
      .ok ⟨previous.getD drawn,
        authedPart (previous.getD drawn) iv (body name) ++
          (mac (previous.getD drawn)
            (authedPart (previous.getD drawn) iv (body name))).bytes⟩ := by
  rw [create, Outcome.require_of (length_body short).2]
  rfl

/-- Opening what was sealed comes down to parsing the name. -/
theorem open_sealed [Sha512]
    (correct : Cipher.AesCorrect)
    (entropy : Block 32)
    (iv : Block 16)
    {name : Bytes}
    (short : name.length < 62) :
    «open» entropy.bytes
        (authedPart entropy iv (body name) ++
          (mac entropy (authedPart entropy iv (body name))).bytes) =
      (if name = [] then .error .badLink
      else do
        let _ ← (parse name).orElseFault .badLink
        return name) := by
  have length := length_authedPart entropy iv short
  have vector :
      Cipher.front (authedPart entropy iv (body name)) = iv :=
    Cipher.front_append iv _
  have opened :
      Cipher.cbcOpen (key entropy "Signal Username Link Encryption Key") iv
          ((authedPart entropy iv (body name)).drop 16) =
        .ok (body name) := by
    rw [authedPart, List.drop_left' (Block.length_eq iv)]
    exact Cipher.cbcOpen_cbcSeal correct _ iv (body name)
  generalize authedPart entropy iv (body name) = covered at *
  have sizes :
      (covered ++ (mac entropy covered).bytes).length = 112 := by
    rw [List.length_append, length, Block.length_eq]
  have front :
      (covered ++ (mac entropy covered).bytes).take (112 - 32) = covered :=
    List.take_left' length
  have back :
      (covered ++ (mac entropy covered).bytes).drop covered.length =
        (mac entropy covered).bytes :=
    List.drop_left' rfl
  simp only [«open», Block.ofBytes_bytes, Outcome.ofOption_some,
    Outcome.ok_bind, sizes, front, back, vector, opened,
    Outcome.orElseFault_ok, fold_body short]
  rw [Outcome.require_of (by decide), Outcome.ok_bind,
    Outcome.require_of trivial, Outcome.ok_bind]
  split_ifs
  · rfl
  · rfl

/-- A sealed link has one length, and opens to its name if that is a username. -/
structure Returns [Sha512] (name : Bytes) (link : Link) : Prop where
  length : link.sealed.length = 112
  accepted :
    (∃ handle, parse name = .ok handle) →
      «open» link.entropy.bytes link.sealed = .ok name
  refused :
    (¬ ∃ handle, parse name = .ok handle) →
      «open» link.entropy.bytes link.sealed = .error .badLink

/--
A name of sixty-two bytes or more has no link.  Every other has one of the
same length, and it returns the name if that is a username.
-/
theorem create_open [Sha512]
    (correct : Cipher.AesCorrect)
    (name : Bytes)
    (previous : Option (Block 32))
    (drawn : Block 32)
    (iv : Block 16) :
    (62 ≤ name.length →
        create name previous drawn iv = .error .badArgument) ∧
      (name.length < 62 →
        ∃ link,
          create name previous drawn iv = .ok link ∧
            link.entropy = previous.getD drawn ∧ Returns name link) := by
  refine ⟨fun long => create_long long previous drawn iv, fun short => ?_⟩
  refine ⟨⟨previous.getD drawn, _⟩, create_short short previous drawn iv,
    rfl, ?length, ?accepted, ?refused⟩
  case length =>
    rw [List.length_append, length_authedPart _ iv short, Block.length_eq]
  case accepted =>
    intro isUsername
    obtain ⟨handle, parsed⟩ := isUsername
    have nonempty : name ≠ [] := by
      rintro rfl
      rw [parse_nil] at parsed
      cases parsed
    rw [open_sealed correct _ iv short, if_neg nonempty, parsed]
    rfl
  case refused =>
    intro noUsername
    rw [open_sealed correct _ iv short]
    split_ifs
    · rfl
    · cases parsed : parse name with
      | ok handle => exact absurd ⟨handle, parsed⟩ noUsername
      | error fault => rfl
      | trap => exact absurd parsed (parse_ne_trap name)

end Calls

section Witness

attribute [local instance] Sample.hashes Sample.aes Sample.sha512

/-- The link of a plain name. -/
theorem create_open_plainUser :
    ∃ link,
      create (ascii "plain_user.42") none (Block.zero 32) (Block.zero 16) =
          .ok link ∧
        link.entropy = Block.zero 32 ∧
        Returns (ascii "plain_user.42") link :=
  (create_open Cipher.sample_aesCorrect (ascii "plain_user.42") none
    (Block.zero 32) (Block.zero 16)).2 (by decide)

end Witness

end Link

end Handle

end Gossveil
