import Mathlib.Algebra.Field.Basic
import Mathlib.Algebra.CharP.Basic
import Mathlib.Algebra.CharP.Two
import Gossveil.XorLinear

namespace Gossveil

/-!
# Arithmetic in GF(2^16)

Sixteen-bit words added by exclusive or and multiplied without carries,
reduced by `x^16 + x^12 + x^3 + x + 1`.  Multiplication is XOR-linear in each
argument, so the ring laws and the sixteen-fold squaring are checked on the
one-bit words.  Squaring fixes only zero and one besides; this makes every
word but zero invertible.
-/

/-- A sixteen-bit word, as a field element. -/
@[ext] structure Gf16 where
  bits : BitVec 16
  deriving DecidableEq, Repr

namespace Gf16

/-- The polynomial of the field, x^16 + x^12 + x^3 + x + 1. -/
def modulus : BitVec 32 := 0x1100b#32

/-- The element of sixteen bits of a number. -/
def ofNat (value : Nat) : Gf16 :=
  ⟨BitVec.ofNat 16 value⟩

/-- The sixteen bits of an element, as a number. -/
def toNat (word : Gf16) : Nat :=
  word.bits.toNat

/-- One turn of `reduce`: a set bit is cancelled by the shifted modulus. -/
def reduceBit (bit : Nat) (value : BitVec 32) : BitVec 32 :=
  if value.getLsbD bit then
    value ^^^ modulus <<< (bit - 16)
  else
    value

/-- The loop of `reduce`, from some bit above the lowest sixteen down. -/
def reduceFrom : (above : Nat) → BitVec 32 → BitVec 32
  | 0, value => reduceBit 16 value
  | above + 1, value => reduceFrom above (reduceBit (16 + (above + 1)) value)

/-- The remainder of a product of two elements. -/
def reduce (value : BitVec 32) : BitVec 16 :=
  (reduceFrom 15 value).setWidth 16

/-- The loop of `mul`: the first factor, shifted to each bit of the second. -/
def productOf
    (first second : BitVec 16) :
    (bits : List Nat) →
    (product : BitVec 32) →
    BitVec 32
  | [], product => product
  | bit :: rest, product =>
      productOf first second rest
        (if second.getLsbD bit then
          product ^^^ (first.setWidth 32) <<< bit
        else
          product)

/-- The product of two words, carryless and then reduced. -/
def mulBits (first second : BitVec 16) : BitVec 16 :=
  reduce (productOf first second (List.range 16) 0#32)

/-- Addition is the exclusive or. -/
def add (first second : Gf16) : Gf16 :=
  ⟨first.bits ^^^ second.bits⟩

/-- The product of two elements. -/
def mul (first second : Gf16) : Gf16 :=
  ⟨mulBits first.bits second.bits⟩

/-- The loop of `div`: multiply by the power and square it. -/
def divLoop : (turns : Nat) → (out power : Gf16) → Gf16
  | 0, out, _ => out
  | turns + 1, out, power => divLoop turns (mul out power) (mul power power)

/-- The dividend times the divisor's power `2^16 - 2`, fifteen squarings. -/
def div (first second : Gf16) : Gf16 :=
  divLoop 15 first (mul second second)

instance : Zero Gf16 := ⟨⟨0#16⟩⟩
instance : One Gf16 := ⟨⟨1#16⟩⟩
instance : Add Gf16 := ⟨add⟩
instance : Mul Gf16 := ⟨mul⟩
instance : Div Gf16 := ⟨div⟩

@[simp] theorem bits_zero : (0 : Gf16).bits = 0#16 :=
  rfl

@[simp] theorem bits_one : (1 : Gf16).bits = 1#16 :=
  rfl

@[simp] theorem bits_add (first second : Gf16) :
    (first + second).bits = first.bits ^^^ second.bits :=
  rfl

@[simp] theorem bits_mul (first second : Gf16) :
    (first * second).bits = mulBits first.bits second.bits :=
  rfl

/-! ## Linearity -/

/-- Reducing one bit is linear. -/
theorem reduceBit_linear (bit : Nat) : XorLinear (reduceBit bit) := by
  intro first second
  unfold reduceBit
  rw [BitVec.getLsbD_xor]
  cases first.getLsbD bit <;> cases second.getLsbD bit <;>
    simp only [Bool.xor_false, Bool.xor_true, Bool.not_false,
      Bool.not_true, if_true, Bool.false_eq_true, if_false]
  · ac_rfl
  · ac_rfl
  · calc
      first ^^^ second =
          first ^^^ second ^^^ 0#32 := (BitVec.xor_zero).symm
      _ = first ^^^ second ^^^
          (modulus <<< (bit - 16) ^^^ modulus <<< (bit - 16)) := by
        rw [BitVec.xor_self]
      _ = (first ^^^ modulus <<< (bit - 16)) ^^^
          (second ^^^ modulus <<< (bit - 16)) := by
        ac_rfl

theorem reduceFrom_linear (above : Nat) : XorLinear (reduceFrom above) := by
  induction above with
  | zero =>
      exact reduceBit_linear 16
  | succ above inductionHypothesis =>
      exact inductionHypothesis.comp (reduceBit_linear (16 + (above + 1)))

/-- Reducing a product is linear. -/
theorem reduce_linear : XorLinear reduce := by
  intro first second
  unfold reduce
  rw [reduceFrom_linear 15, BitVec.setWidth_xor]

/-- The product loop adds up over both accumulators and first factors. -/
theorem productOf_left
    (first other second : BitVec 16)
    (bits : List Nat)
    (product rest : BitVec 32) :
    productOf (first ^^^ other) second bits (product ^^^ rest) =
      productOf first second bits product ^^^
        productOf other second bits rest := by
  induction bits generalizing product rest with
  | nil =>
      rfl
  | cons bit bits inductionHypothesis =>
      simp only [productOf]
      cases second.getLsbD bit with
      | false =>
          simp only [Bool.false_eq_true, if_false]
          exact inductionHypothesis product rest
      | true =>
          simp only [if_true]
          rw [← inductionHypothesis, BitVec.setWidth_xor,
            BitVec.shiftLeft_xor_distrib]
          congr 1
          ac_rfl

/-- The product loop adds up over both accumulators and second factors. -/
theorem productOf_right
    (first second other : BitVec 16)
    (bits : List Nat)
    (product rest : BitVec 32) :
    productOf first (second ^^^ other) bits (product ^^^ rest) =
      productOf first second bits product ^^^
        productOf first other bits rest := by
  induction bits generalizing product rest with
  | nil =>
      rfl
  | cons bit bits inductionHypothesis =>
      simp only [productOf]
      rw [← inductionHypothesis, BitVec.getLsbD_xor]
      congr 1
      cases second.getLsbD bit <;> cases other.getLsbD bit <;>
        simp only [Bool.xor_false, Bool.xor_true, Bool.not_false,
          Bool.not_true, if_true, Bool.false_eq_true, if_false]
      · ac_rfl
      · ac_rfl
      · calc
          product ^^^ rest =
              product ^^^ rest ^^^ 0#32 := (BitVec.xor_zero).symm
          _ = product ^^^ rest ^^^
              (first.setWidth 32 <<< bit ^^^
                first.setWidth 32 <<< bit) := by
            rw [BitVec.xor_self]
          _ = (product ^^^ first.setWidth 32 <<< bit) ^^^
              (rest ^^^ first.setWidth 32 <<< bit) := by
            ac_rfl

/-- The product is linear in its first factor. -/
theorem mulBits_left (second : BitVec 16) :
    XorLinear fun first => mulBits first second := by
  intro first other
  have products :=
    productOf_left first other second (List.range 16) 0#32 0#32
  rw [BitVec.xor_self] at products
  simp only [mulBits]
  rw [products, reduce_linear]

/-- The product is linear in its second factor. -/
theorem mulBits_right (first : BitVec 16) :
    XorLinear fun second => mulBits first second := by
  intro second other
  have products :=
    productOf_right first second other (List.range 16) 0#32 0#32
  rw [BitVec.xor_self] at products
  simp only [mulBits]
  rw [products, reduce_linear]

/-! ## The ring laws -/

theorem mulBits_one (first : BitVec 16) : mulBits first 1#16 = first :=
  XorLinear.ext (mulBits_left 1#16) XorLinear.id
    (by decide +kernel) first

/-- The product commutes, as it does on the powers of x. -/
theorem mulBits_comm (first second : BitVec 16) :
    mulBits first second = mulBits second first :=
  XorLinear.ext (mulBits_left second) (mulBits_right second)
    (fun bit inside =>
      XorLinear.ext (mulBits_right (BitVec.twoPow 16 bit))
        (mulBits_left (BitVec.twoPow 16 bit))
        (by revert bit; decide +kernel) second)
    first

/-- Doubling a factor doubles the product. -/
theorem mulBits_two (first second : BitVec 16) :
    mulBits (mulBits first second) 2#16 =
      mulBits first (mulBits second 2#16) :=
  XorLinear.ext
    ((mulBits_left 2#16).comp (mulBits_left second))
    (mulBits_left (mulBits second 2#16))
    (fun bit inside =>
      XorLinear.ext
        ((mulBits_left 2#16).comp
          (mulBits_right (BitVec.twoPow 16 bit)))
        ((mulBits_right (BitVec.twoPow 16 bit)).comp
          (mulBits_left 2#16))
        (by revert bit; decide +kernel) second)
    first

/-- Each one-bit word is the doubled one before it. -/
theorem twoPow_succ :
    ∀ bit < 15,
      BitVec.twoPow 16 (bit + 1) = mulBits (BitVec.twoPow 16 bit) 2#16 := by
  decide +kernel

/-- The product is associative, as it is on the powers of x. -/
theorem mulBits_assoc (first second third : BitVec 16) :
    mulBits (mulBits first second) third =
      mulBits first (mulBits second third) := by
  refine
    XorLinear.ext (mulBits_right (mulBits first second))
      ((mulBits_right first).comp (mulBits_right second)) ?_ third
  intro bit inside
  induction bit with
  | zero =>
      have isOne : BitVec.twoPow 16 0 = 1#16 := rfl
      rw [isOne, mulBits_one, mulBits_one]
  | succ bit inductionHypothesis =>
      rw [twoPow_succ bit (by omega), ← mulBits_two, ← mulBits_two,
        ← mulBits_two, inductionHypothesis (by omega)]

/-- In characteristic two every word is its own negative. -/
instance : Neg Gf16 := ⟨fun word => word⟩

instance : CommRing Gf16 where
  add_assoc first second third :=
    Gf16.ext (BitVec.xor_assoc ..)
  zero_add first := Gf16.ext BitVec.zero_xor
  add_zero first := Gf16.ext BitVec.xor_zero
  add_comm first second := Gf16.ext (BitVec.xor_comm ..)
  neg_add_cancel first := Gf16.ext BitVec.xor_self
  mul_assoc first second third := Gf16.ext (mulBits_assoc ..)
  mul_comm first second := Gf16.ext (mulBits_comm ..)
  one_mul first :=
    Gf16.ext ((mulBits_comm ..).trans (mulBits_one _))
  mul_one first := Gf16.ext (mulBits_one _)
  left_distrib first second third := Gf16.ext (mulBits_right ..)
  right_distrib first second third := Gf16.ext (mulBits_left ..)
  zero_mul first := Gf16.ext (mulBits_left _).map_zero
  mul_zero first := Gf16.ext (mulBits_right _).map_zero
  nsmul := nsmulRec
  zsmul := zsmulRec

/-! ## Squaring and inverses -/

theorem add_self (word : Gf16) : word + word = 0 :=
  Gf16.ext BitVec.xor_self

instance : CharP Gf16 2 :=
  CharTwo.of_one_ne_zero_of_two_eq_zero (by decide) (add_self 1)

/-- A word times itself. -/
def squareBits (word : BitVec 16) : BitVec 16 :=
  mulBits word word

/-- Squaring is linear, the field being of characteristic two. -/
theorem squareBits_linear : XorLinear squareBits := by
  intro first second
  have squares : ((⟨first⟩ : Gf16) + ⟨second⟩) * (⟨first⟩ + ⟨second⟩) =
      ⟨first⟩ * ⟨first⟩ + ⟨second⟩ * ⟨second⟩ :=
    CharTwo.add_mul_self _ _
  exact congrArg bits squares

/-- Squaring some times over. -/
def squaredBits : (times : Nat) → BitVec 16 → BitVec 16
  | 0, word => word
  | times + 1, word => squaredBits times (squareBits word)

theorem squaredBits_linear (times : Nat) :
    XorLinear (squaredBits times) := by
  induction times with
  | zero => exact XorLinear.id
  | succ times inductionHypothesis =>
      exact inductionHypothesis.comp squareBits_linear

/-- Repeated squaring is a power of two. -/
theorem bits_pow_two_pow (times : Nat) (word : Gf16) :
    (word ^ 2 ^ times).bits = squaredBits times word.bits := by
  induction times generalizing word with
  | zero =>
      rw [pow_zero, pow_one]
      rfl
  | succ times inductionHypothesis =>
      have squared : word ^ 2 ^ (times + 1) = (word * word) ^ 2 ^ times := by
        rw [pow_succ', pow_mul, pow_two]
      rw [squared, inductionHypothesis]
      rfl

/-- Sixteen squarings give the word back. -/
theorem pow_card (word : Gf16) : word ^ 2 ^ 16 = word := by
  refine Gf16.ext ?_
  rw [bits_pow_two_pow]
  exact XorLinear.ext (squaredBits_linear 16) XorLinear.id
    (by decide +kernel) word.bits

/--
A linear map that undoes `word ↦ word * word + word` up to the lowest bit,
given by its values at the one-bit words.
-/
def undoColumns : List (BitVec 16) :=
  [0x015e#16, 0xa5b4#16, 0xa5b6#16, 0x1cf4#16,
    0xa5b2#16, 0x2820#16, 0x1cfc#16, 0x0530#16,
    0xa5a2#16, 0x96d2#16, 0x2800#16, 0x13cc#16,
    0x1cbc#16, 0x0000#16, 0x05b0#16, 0x55b0#16]

/-- The sum of the columns whose bit is set in the word. -/
def undoFrom :
    (columns : List (BitVec 16)) →
    (bit : Nat) →
    (word : BitVec 16) →
    BitVec 16
  | [], _, _ => 0#16
  | column :: rest, bit, word =>
      (if word.getLsbD bit then column else 0#16) ^^^
        undoFrom rest (bit + 1) word

theorem undoFrom_linear
    (columns : List (BitVec 16))
    (bit : Nat) :
    XorLinear (undoFrom columns bit) := by
  induction columns generalizing bit with
  | nil =>
      intro first second
      exact (BitVec.xor_self).symm
  | cons column rest inductionHypothesis =>
      refine XorLinear.xor ?_ (inductionHypothesis (bit + 1))
      intro first second
      simp only
      rw [BitVec.getLsbD_xor]
      cases first.getLsbD bit <;> cases second.getLsbD bit <;> simp

/-- The word without its lowest bit. -/
def clearLowest (word : BitVec 16) : BitVec 16 :=
  (word >>> 1) <<< 1

theorem clearLowest_linear : XorLinear clearLowest := by
  intro first second
  simp only [clearLowest, BitVec.ushiftRight_xor_distrib,
    BitVec.shiftLeft_xor_distrib]

/-- Squaring loses the lowest bit only. -/
theorem undoFrom_square (word : BitVec 16) :
    undoFrom undoColumns 0 (squareBits word ^^^ word) =
      clearLowest word :=
  XorLinear.ext
    ((undoFrom_linear undoColumns 0).comp
      (squareBits_linear.xor XorLinear.id))
    clearLowest_linear (by decide +kernel) word

/-- Only zero and one are their own squares. -/
theorem eq_zero_or_one_of_mul_self
    {word : Gf16}
    (idempotent : word * word = word) :
    word = 0 ∨ word = 1 := by
  have square : squareBits word.bits = word.bits :=
    congrArg bits idempotent
  have undone := undoFrom_square word.bits
  have nothing : undoFrom undoColumns 0 0#16 = 0#16 :=
    (undoFrom_linear undoColumns 0).map_zero
  rw [square, BitVec.xor_self, nothing] at undone
  have small : word.bits.toNat < 2 := by
    have shifted := congrArg BitVec.toNat undone
    have bound := word.bits.isLt
    simp only [clearLowest, BitVec.toNat_shiftLeft, BitVec.toNat_ushiftRight,
      BitVec.toNat_ofNat, Nat.shiftLeft_eq, Nat.shiftRight_eq_div_pow]
      at shifted
    omega
  have cases : word.bits.toNat = 0 ∨ word.bits.toNat = 1 := by
    omega
  rcases cases with isZero | isOne
  · exact Or.inl (Gf16.ext (BitVec.eq_of_toNat_eq isZero))
  · exact Or.inr (Gf16.ext (BitVec.eq_of_toNat_eq isOne))

/-- The exponent that inverts a word. -/
def inverseExponent : Nat :=
  2 ^ 16 - 2

/-- The exponent of the inverse, by Fermat. -/
theorem inverseExponent_add : inverseExponent + 2 = 2 ^ 16 := by
  decide

/-- A word other than zero times its inverting power is one. -/
theorem mul_pow_inverseExponent
    {word : Gf16}
    (nonzero : word ≠ 0) :
    word * word ^ inverseExponent = 1 := by
  have whole : word * (word * word ^ inverseExponent) = word := by
    calc
      word * (word * word ^ inverseExponent) =
          word ^ (inverseExponent + 2) := by
        rw [pow_add, pow_two, ← mul_assoc, mul_comm]
      _ = word := by
        rw [inverseExponent_add]
        exact pow_card word
  have idempotent :
      word * word ^ inverseExponent * (word * word ^ inverseExponent) =
        word * word ^ inverseExponent := by
    calc
      word * word ^ inverseExponent * (word * word ^ inverseExponent) =
          word * (word * word ^ inverseExponent) *
            word ^ inverseExponent := by
        ac_rfl
      _ = word * word ^ inverseExponent := by rw [whole]
  rcases eq_zero_or_one_of_mul_self idempotent with isZero | isOne
  · rw [isZero, mul_zero] at whole
    exact absurd whole.symm nonzero
  · exact isOne

/-- What the loop of `div` multiplies up. -/
theorem divLoop_eq
    (turns : Nat)
    (out power : Gf16) :
    divLoop turns out power = out * power ^ (2 ^ turns - 1) := by
  induction turns generalizing out power with
  | zero =>
      simp [divLoop]
  | succ turns inductionHypothesis =>
      have exponent :
          2 ^ (turns + 1) - 1 = 1 + 2 * (2 ^ turns - 1) := by
        have positive := Nat.two_pow_pos turns
        rw [Nat.pow_succ]
        omega
      calc
        divLoop (turns + 1) out power =
            divLoop turns (out * power) (power * power) := rfl
        _ = out * power * (power * power) ^ (2 ^ turns - 1) :=
          inductionHypothesis _ _
        _ = out * power ^ (2 ^ (turns + 1) - 1) := by
          rw [exponent, pow_add, pow_one, pow_mul, ← pow_two, mul_assoc]

/-- A quotient is a product with a power. -/
theorem div_eq (first second : Gf16) :
    first / second = first * second ^ inverseExponent := by
  have exponent : inverseExponent = 2 * (2 ^ 15 - 1) := by
    decide
  calc
    first / second = divLoop 15 first (second * second) := rfl
    _ = first * (second * second) ^ (2 ^ 15 - 1) := divLoop_eq ..
    _ = first * second ^ inverseExponent := by
      rw [exponent, pow_mul, ← pow_two]

instance : Inv Gf16 := ⟨fun word => word ^ inverseExponent⟩

instance : Field Gf16 where
  div_eq_mul_inv first second := div_eq first second
  exists_pair_ne := ⟨0, 1, by decide⟩
  mul_inv_cancel _ nonzero := mul_pow_inverseExponent nonzero
  inv_zero := zero_pow (by decide)
  nnqsmul := _
  qsmul := _

end Gf16

end Gossveil
