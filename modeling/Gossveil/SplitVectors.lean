import Gossveil.NoiseSpecs
import Gossveil.SplitKem
import Gossveil.UniformSpecs

namespace Gossveil.Lattice

/-!
# Vectors of ring elements

What holds of the entries of a new vector holds of the vector.  An inner
product is short of the factor that the inverse transform brings.
-/

variable {ε : Type}

open Gossveil.Lattice.Poly (Within Canonical)

namespace Vec

/-- The entries are within bounds and stand for the ring elements. -/
def Represents (Bounds : Poly → Prop) (g : Fin 3 → Rq) (v : Vec) : Prop :=
  ∀ i : Fin 3, Bounds (v.ps.get i) ∧ (v.ps.get i).element = g i

/-- A vector is built entry by entry. -/
theorem each_represents
    {Bounds : Poly → Prop}
    {g : Fin 3 → Rq}
    {entry : Fin 3 → Outcome ε Poly}
    (entries :
      ∀ i, (entry i).Delivers fun p : Poly => Bounds p ∧ p.element = g i) :
    (each entry).Delivers (Represents Bounds g) := by
  rw [each]
  refine (entries 0).bind fun first firstHolds => ?_
  refine (entries 1).bind fun second secondHolds => ?_
  refine (entries 2).bind fun third thirdHolds => ?_
  refine .ok fun i => ?_
  match i with
  | 0 => exact firstHolds
  | 1 => exact secondHolds
  | 2 => exact thirdHolds

/-- The noise of consecutive nonces. -/
def noiseOf [Sha3] (nonce : Nat) (seed : Bytes) (i : Fin 3) : Rq :=
  MlKem.samplePolyCbd 2 (MlKem.prf seed (nonce + i.val))

/-- The noise vector is the standard's. -/
theorem noise_represents
    [Sha3]
    (word : Word)
    {nonce : Nat}
    (few : nonce + 2 < 256)
    (seed : Bytes) :
    (noise word 2 nonce seed : Outcome ε Vec).Delivers
      (Represents (Within 2) (noiseOf nonce seed)) := by
  refine each_represents fun i => ?_
  have small : nonce + i.val < 2 ^ 8 := by
    omega
  rw [Outcome.add_of_lt small, Outcome.ok_bind]
  exact polyNoise_delivers word _ seed

theorem barrett_represents
    {Bounds : Poly → Prop}
    {g : Fin 3 → Rq}
    {v : Vec}
    (represents : Represents Bounds g v) :
    (v.barrett : Outcome ε Vec).Delivers (Represents (Within q) g) := by
  refine each_represents fun i => ?_
  refine (Poly.barrett_delivers _).imp fun p ⟨within, same⟩ => ⟨within, ?_⟩
  rw [same, (represents i).2]

theorem normalize_represents
    {Bounds : Poly → Prop}
    {g : Fin 3 → Rq}
    {v : Vec}
    (represents : Represents Bounds g v) :
    (v.normalize : Outcome ε Vec).Delivers (Represents Canonical g) := by
  refine each_represents fun i => ?_
  refine (Poly.normalize_delivers _).imp
    fun p ⟨canonical, same⟩ => ⟨canonical, ?_⟩
  rw [same, (represents i).2]

/-! ## The inner product -/

/-- One more product is added. -/
theorem dot_step
    [Checks]
    {bound : Int}
    (room : bound + 2 * q < 2 ^ 15)
    {out a b : Poly}
    (within : Within bound out)
    (aCanonical : Canonical a) :
    (do
        let product ← a.mulHat b
        Poly.add out product : Outcome ε Poly).Delivers fun p : Poly =>
      Within (bound + 2 * q) p ∧
        p.element = fun index =>
          out.element index + 169 * hatMul a.element b.element index := by
  refine (Poly.mulHat_delivers aCanonical b).bind
    fun product ⟨productWithin, isProduct⟩ => ?_
  refine (Poly.add_delivers room within productWithin).imp
    fun p ⟨sumWithin, isSum⟩ => ⟨sumWithin, ?_⟩
  rw [isSum, isProduct]

/-- The product of two transformed vectors. -/
theorem dotHat_delivers
    [Checks]
    {a : Vec}
    (aCanonical : ∀ i : Fin 3, Canonical (a.ps.get i))
    (b : Vec) :
    (dotHat a b : Outcome ε Poly).Delivers fun p : Poly =>
      p.element = fun index =>
        169 * (∑ i : Fin 3, hatMul (a.ps.get i).element (b.ps.get i).element) index := by
  have start : Within 0 Poly.zero := by
    intro index _
    rw [Poly.value_zero]
    decide
  have elements : List.finRange 3 = [0, 1, 2] := by
    decide
  simp only [dotHat, elements, List.foldlM_cons, List.foldlM_nil]
  refine (dot_step (by decide) start (aCanonical 0)).bind
    fun first ⟨firstWithin, isFirst⟩ => ?_
  refine (dot_step (by decide) firstWithin (aCanonical 1)).bind
    fun second ⟨secondWithin, isSecond⟩ => ?_
  refine (dot_step (by decide) secondWithin (aCanonical 2)).bind
    fun third ⟨_, isThird⟩ => ?_
  refine .ok ?_
  funext index
  have isZero : Poly.zero.element index = 0 := by
    rw [Poly.element, Poly.value_zero, Int.cast_zero]
  simp only [isThird, isSecond, isFirst, isZero, Finset.sum_apply,
    Fin.sum_univ_three]
  ring

end Vec

/-! ## Back to coefficients -/

theorem unhat_cancel (g : Rq) :
    (fun index => 65536 * unhat (fun place => 169 * g place) index) =
      unhat g := by
  have cancel : (65536 : Zq) * 169 = 1 := by
    decide
  funext index
  rw [unhat_smul, ← mul_assoc, cancel, one_mul]

/-- The inverse transform of a product cancels its factor. -/
theorem Poly.invNtt_product
    [Checks]
    {p : Poly}
    (within : Within q p)
    {g : Rq}
    (isProduct : p.element = fun index => 169 * g index) :
    (p.invNtt : Outcome ε Poly).Delivers fun p : Poly =>
      Within q p ∧ p.element = unhat g := by
  refine (Poly.invNtt_element within).imp
    fun p' ⟨within', isInverse⟩ => ⟨within', ?_⟩
  rw [isInverse, isProduct, unhat_cancel]

/-! ## Three calls in sequence -/

section Faults

variable {α β : Type} {entry : Fin 3 → Outcome ε α} {fault : ε}

/-- Three calls that return or fail with the fault do so in sequence. -/
theorem sequence_outcomes
    (outcomes : ∀ i, (∃ value, entry i = .ok value) ∨ entry i = .error fault)
    (result : α → α → α → β) :
    let sequence : Outcome ε β := do
      let first ← entry 0
      let second ← entry 1
      let third ← entry 2
      return result first second third
    (∃ value, sequence = .ok value) ∨ sequence = .error fault := by
  obtain ⟨first, isFirst⟩ | isFirst := outcomes 0
  · obtain ⟨second, isSecond⟩ | isSecond := outcomes 1
    · obtain ⟨third, isThird⟩ | isThird := outcomes 2
      · exact .inl ⟨result first second third, by
          simp [isFirst, isSecond, isThird]⟩
      · exact .inr (by simp [isFirst, isSecond, isThird])
    · exact .inr (by simp [isFirst, isSecond])
  · exact .inr (by simp [isFirst])

/-- A fault of one of them is the fault of the sequence. -/
theorem sequence_fault
    (outcomes : ∀ i, (∃ value, entry i = .ok value) ∨ entry i = .error fault)
    {i : Fin 3}
    (isFault : entry i = .error fault)
    (result : α → α → α → β) :
    (do
        let first ← entry 0
        let second ← entry 1
        let third ← entry 2
        return result first second third) =
      .error fault := by
  obtain ⟨first, isFirst⟩ | isFirst := outcomes 0
  · obtain ⟨second, isSecond⟩ | isSecond := outcomes 1
    · obtain ⟨third, isThird⟩ | isThird := outcomes 2
      · match i with
        | 0 => simp [isFirst] at isFault
        | 1 => simp [isSecond] at isFault
        | 2 => simp [isThird] at isFault
      · simp [isFirst, isSecond, isThird]
    · simp [isFirst, isSecond]
  · simp [isFirst]

end Faults

/-! ## The vectors of the encapsulation -/

section Encapsulation

variable [Sha3]

/-- The hidden vector is the standard's. -/
theorem hidden_represents [Checks] (word : Word) (seed : Bytes) :
    (hidden word seed : Outcome ε Vec).Delivers
      (Vec.Represents Canonical (MlKem.rHat seed)) := by
  refine (Vec.noise_represents word (by decide) seed).bind fun v noise => ?_
  have transformed :
      (v.ntt : Outcome ε Vec).Delivers
        (Vec.Represents (fun _ => True) (MlKem.rHat seed)) := by
    refine Vec.each_represents fun i => ?_
    obtain ⟨within, isNoise⟩ := noise i
    refine (Poly.ntt_element (by decide) within).imp
      fun p isHat => ⟨trivial, ?_⟩
    rw [isHat, isNoise, Vec.noiseOf, Nat.zero_add, MlKem.rHat]
  refine transformed.bind fun v isHat => ?_
  refine (Vec.barrett_represents isHat).bind fun v isHat => ?_
  exact Vec.normalize_represents isHat

/-- The streams of all the entries of the matrix are plentiful. -/
def Sampled (rho : Bytes) (blocks : Nat) : Prop :=
  ∀ row column : Fin 3,
    Plentiful
      (Sha3.shake128
        (rho ++ [UInt8.ofNat row.val, UInt8.ofNat column.val]))
      blocks

/-- The rows of the transposed matrix. -/
def IsMatrix (rho : Bytes) (at' : Matrix) : Prop :=
  ∀ row : Fin 3,
    Vec.Represents Canonical (fun column => MlKem.matrix rho column row)
      (at'.rows.get row)

/-- The matrix is the standard's. -/
theorem matrix_delivers
    {rho : Bytes}
    {blocks : Nat}
    (sampled : Sampled rho blocks) :
    (matrix blocks rho true).Delivers (IsMatrix rho) := by
  have rows :
      ∀ row : Fin 3,
        (Vec.each fun column : Fin 3 =>
          polyUniform blocks rho
            (UInt8.ofNat (if true then row.val else column.val))
            (UInt8.ofNat (if true then column.val else row.val))).Delivers
          (Vec.Represents Canonical
            fun column => MlKem.matrix rho column row) := by
    intro row
    exact Vec.each_represents fun column =>
      polyUniform_delivers (sampled row column)
  rw [matrix]
  refine (rows 0).bind fun first firstHolds => ?_
  refine (rows 1).bind fun second secondHolds => ?_
  refine (rows 2).bind fun third thirdHolds => ?_
  refine .ok fun row => ?_
  match row with
  | 0 => exact firstHolds
  | 1 => exact secondHolds
  | 2 => exact thirdHolds

/-- A stream with too few candidates leaves the matrix unfilled. -/
theorem matrix_unfilled
    {rho : Bytes}
    {blocks : Nat}
    (few : ¬ Sampled rho blocks) :
    matrix blocks rho true = .error .unfilled := by
  simp only [Sampled, not_forall] at few
  obtain ⟨row, column, few⟩ := few
  have entries :
      ∀ row column : Fin 3,
        (∃ p, polyUniform blocks rho (UInt8.ofNat row.val)
            (UInt8.ofNat column.val) = .ok p) ∨
          polyUniform blocks rho (UInt8.ofNat row.val)
            (UInt8.ofNat column.val) = .error .unfilled := by
    intro row column
    by_cases plentiful :
        Plentiful
          (Sha3.shake128
            (rho ++ [UInt8.ofNat row.val, UInt8.ofNat column.val]))
          blocks
    · obtain ⟨p, isOk, _⟩ := polyUniform_delivers plentiful
      exact .inl ⟨p, isOk⟩
    · exact .inr (polyUniform_unfilled plentiful)
  have rowFault :=
    sequence_fault (entries row) (polyUniform_unfilled few)
      fun first second third => (⟨#v[first, second, third]⟩ : Vec)
  exact sequence_fault
    (fun row => sequence_outcomes (entries row)
      fun first second third => (⟨#v[first, second, third]⟩ : Vec))
    rowFault fun first second third => (⟨#v[first, second, third]⟩ : Matrix)

end Encapsulation

/-! ## Bytes of vectors -/

/-- A compressed vector is the standard's. -/
theorem Vec.compress_delivers
    [Checks]
    {g : Fin 3 → Rq}
    {v : Vec}
    (represents : Represents Canonical g v) :
    (v.compress 10 : Outcome ε Bytes).Delivers
      (· = (List.finRange 3).flatMap fun i => MlKem.encode 10 (g i)) := by
  have entry : ∀ i : Fin 3,
      ((v.ps.get i).compress 10 : Outcome ε Bytes).Delivers
        (· = MlKem.encode 10 (g i)) := by
    intro i
    rw [← (represents i).2]
    exact @Lattice.compress_delivers ε _ 10 (by decide) (by decide) 4 5 64
      (by decide) (by decide) (by decide) (by decide) _ (represents i).1
  have elements : List.finRange 3 = [0, 1, 2] := by
    decide
  simp only [compress, elements, List.foldlM_cons, List.foldlM_nil,
    List.flatMap_cons, List.flatMap_nil]
  obtain ⟨_, isFirst, rfl⟩ := entry 0
  obtain ⟨_, isSecond, rfl⟩ := entry 1
  obtain ⟨_, isThird, rfl⟩ := entry 2
  simp only [isFirst, isSecond, isThird, Outcome.ok_bind, Outcome.pure_eq]
  refine .ok ?_
  simp

end Gossveil.Lattice
