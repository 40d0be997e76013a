import Gossveil.HandleProof
import Mathlib.Algebra.BigOperators.Fin

namespace Gossveil

/-!
# The proof of a username is accepted

A response is its scalar times the challenge, plus a nonce.  Taking the
challenge times the hash from what the responses make leaves the commitment,
so that the verifier finds the transcript of the prover.
-/

/-- The group has the order of its scalars, and decodes what it encodes. -/
structure Ristretto255.Laws (Point : Type) [Ristretto255 Point] : Prop where
  order : ∀ p : Point, Scalar.groupOrder • p = 0
  multiplied :
    ∀ (p : Point) (scalar : Block 32),
      Handle.Canonical scalar →
        Scalar.toNat scalar • p ≠ 0 →
          Ristretto255.mul p scalar = .ok (Scalar.toNat scalar • p)
  read :
    ∀ p : Point, Ristretto255.fromBytes (Ristretto255.toBytes p) = some p

namespace Handle

/-! ## Canonical scalars -/

theorem canonical_mulAdd (first second third : Block 32) :
    Canonical (Scalar.mulAdd first second third) :=
  Scalar.toNat_mulAdd_lt _ _ _

theorem canonical_reduce64 (wide : Block 64) :
    Canonical (Scalar.reduce64 wide) :=
  Scalar.toNat_reduce64_lt _

theorem canonical_small
    {value : Nat}
    (fits : value < 2 ^ 64) :
    Canonical (small value) := by
  rw [Canonical, toNat_small fits]
  exact Nat.lt_trans fits (by decide)

/-- Every scalar is below the order of the group. -/
def AllCanonical (scalars : Vector (Block 32) 3) : Prop :=
  ∀ scalar ∈ scalars.toList, Canonical scalar

/-- A parsed handle has canonical scalars. -/
theorem canonical_of_parse
    [Sha512]
    {text : Bytes}
    {handle : Handle}
    (accepted : parse text = .ok handle) :
    AllCanonical handle.scalars := by
  rw [parse] at accepted
  obtain ⟨⟨nickname, discriminator⟩, _, accepted⟩ :=
    Outcome.bind_eq_ok.mp accepted
  cases nickname with
  | nil => cases accepted
  | cons char chars =>
      simp only [fromPartsUnbounded] at accepted
      obtain ⟨_, _, accepted⟩ := Outcome.bind_eq_ok.mp accepted
      obtain ⟨number, read, accepted⟩ := Outcome.bind_eq_ok.mp accepted
      obtain ⟨name, made, accepted⟩ := Outcome.bind_eq_ok.mp accepted
      cases accepted
      obtain ⟨_, digits, coded, scalar⟩ := nicknameScalar_eq_ok made
      obtain ⟨first, rest, rfl, _, _⟩ := codes_cons.mp coded
      cases scalar
      have fits := (discriminatorOf_eq_ok.mp read).lt
      intro scalar member
      simp only [Vector.toList_mk, List.mem_cons, List.not_mem_nil,
        or_false] at member
      rcases member with rfl | rfl | rfl
      · exact canonical_reduce64 _
      · exact canonical_mulAdd _ _ _
      · exact canonical_small fits

theorem canonical_nonces (bytes : Block (3 * 64)) :
    AllCanonical (noncesOf bytes) := by
  intro scalar member
  simp only [noncesOf, Vector.toList_mk, List.mem_cons, List.not_mem_nil,
    or_false] at member
  rcases member with rfl | rfl | rfl
  all_goals exact canonical_reduce64 _

theorem canonical_responses
    (scalars nonces : Vector (Block 32) 3)
    (challenge : Block 32) :
    AllCanonical (responses scalars nonces challenge) := by
  intro scalar member
  simp only [responses, Vector.toList_mk, List.mem_cons, List.not_mem_nil,
    or_false] at member
  rcases member with rfl | rfl | rfl
  all_goals exact canonical_mulAdd _ _ _

/-- A proof is cut into its challenge and its responses. -/
theorem slices_proofBytes
    (challenge : Block 32)
    (response : Vector (Block 32) 3) :
    (proofBytes challenge response).slice 0 32 (by decide) = challenge ∧
      #v[(proofBytes challenge response).slice 32 32 (by decide),
          (proofBytes challenge response).slice 64 32 (by decide),
          (proofBytes challenge response).slice 96 32 (by decide)] =
        response := by
  constructor
  · ext1
    simp [proofBytes, Block.slice]
  · ext index inside
    obtain rfl | rfl | rfl : index = 0 ∨ index = 1 ∨ index = 2 := by
      omega
    all_goals
      simp [proofBytes, Block.slice, Vector.get, List.drop_append,
        List.drop_eq_nil_of_le, List.take_of_length_le]

/-- Each of the four scalars of a proof is canonical. -/
def HasCanonicalScalars (proof : Block 128) : Prop :=
  ∀ i : Fin 4, Canonical (proof.slice (i * 32) 32 (by omega))

/-- A proof of canonical scalars is read as such. -/
theorem hasCanonicalScalars_proofBytes
    {challenge : Block 32}
    {response : Vector (Block 32) 3}
    (canonicalChallenge : Canonical challenge)
    (canonicalResponse : AllCanonical response) :
    HasCanonicalScalars (proofBytes challenge response) := by
  obtain ⟨first, rest⟩ := slices_proofBytes challenge response
  rw [← rest] at canonicalResponse
  simp only [AllCanonical, Vector.toList_mk, List.forall_mem_cons]
    at canonicalResponse
  intro i
  fin_cases i
  · rw [← first] at canonicalChallenge
    exact canonicalChallenge
  · exact canonicalResponse.1
  · exact canonicalResponse.2.1
  · exact canonicalResponse.2.2.1

/-! ## Combinations of the generators -/

section Algebra

variable {Point : Type} [Ristretto255 Point]

/-- The sum of scalars times the generators. -/
def total (g : Vector Point 3) (scalars : Vector (Block 32) 3) : Point :=
  ∑ i : Fin 3, Scalar.toNat (scalars.get i) • g.get i

/-- No scalar takes its generator to the identity. -/
def Misses (g : Vector Point 3) (scalars : Vector (Block 32) 3) : Prop :=
  ∀ i : Fin 3, Scalar.toNat (scalars.get i) • g.get i ≠ 0

/-- The constants decode to some points. -/
def Decoded (g : Vector Point 3) : Prop :=
  ∀ i : Fin 3, Ristretto255.fromBytes (generatorsRaw.get i) = some (g.get i)

/-- The generators are the decoded points. -/
theorem generators_of_decoded
    {ε : Type}
    {g : Vector Point 3}
    (decoded : Decoded g) :
    (generators : Outcome ε (Vector Point 3)) = .ok g := by
  have whole : #v[g.get 0, g.get 1, g.get 2] = g := by
    ext index inside
    match index with
    | 0 | 1 | 2 => rfl
  have first : Ristretto255.fromBytes (generatorsRaw.get 0) = some (g.get 0) :=
    decoded 0
  have second : Ristretto255.fromBytes (generatorsRaw.get 1) = some (g.get 1) :=
    decoded 1
  have third : Ristretto255.fromBytes (generatorsRaw.get 2) = some (g.get 2) :=
    decoded 2
  rw [generators, first, second, third, Outcome.unwrap_some,
    Outcome.unwrap_some, Outcome.unwrap_some, Outcome.ok_bind,
    Outcome.ok_bind, Outcome.ok_bind, whole]
  rfl

/-- A canonical scalar multiplies as the group does. -/
theorem mul_of_canonical
    (laws : Ristretto255.Laws Point)
    {p : Point}
    {scalar : Block 32}
    (canonical : Canonical scalar)
    (misses : Scalar.toNat scalar • p ≠ 0) :
    mul p scalar = .ok (Scalar.toNat scalar • p) := by
  rw [mul, laws.multiplied p scalar canonical misses]
  rfl

section Combined

variable
  (laws : Ristretto255.Laws Point)
  {g : Vector Point 3}
  (decoded : Decoded g)
  {scalars : Vector (Block 32) 3}
  (canonical : AllCanonical scalars)
  (misses : Misses g scalars)

include laws canonical misses

/-- Each scalar multiplies its generator. -/
theorem mul_each :
    mul (g.get 0) (scalars.get 0) =
        .ok (Scalar.toNat (scalars.get 0) • g.get 0) ∧
      mul (g.get 1) (scalars.get 1) =
          .ok (Scalar.toNat (scalars.get 1) • g.get 1) ∧
        mul (g.get 2) (scalars.get 2) =
          .ok (Scalar.toNat (scalars.get 2) • g.get 2) := by
  have listed (i : Fin 3) : scalars.get i ∈ scalars.toList :=
    Vector.mem_toList_iff.mpr (Vector.getElem_mem i.isLt)
  have each :
      ∀ i : Fin 3,
        mul (g.get i) (scalars.get i) =
          .ok (Scalar.toNat (scalars.get i) • g.get i) :=
    fun i => mul_of_canonical laws (canonical _ (listed i)) (misses i)
  exact ⟨each 0, each 1, each 2⟩

include decoded

/-- Without a point the combination is the sum. -/
theorem combine_none (p : Option Point) :
    combine scalars none p = .ok (total g scalars) := by
  obtain ⟨first, second, third⟩ := mul_each laws canonical misses
  rw [combine, generators_of_decoded decoded, Outcome.ok_bind, first,
    Outcome.ok_bind, second, Outcome.ok_bind, third, Outcome.ok_bind, total,
    Fin.sum_univ_three]
  rfl

/-- With a point the combination takes the challenge off. -/
theorem combine_some
    {challenge : Block 32}
    {p : Point}
    (canonicalChallenge : Canonical challenge)
    (missesChallenge : Scalar.toNat challenge • p ≠ 0) :
    combine scalars (some challenge) (some p) =
      .ok (total g scalars - Scalar.toNat challenge • p) := by
  obtain ⟨first, second, third⟩ := mul_each laws canonical misses
  rw [combine, generators_of_decoded decoded, Outcome.ok_bind, first,
    Outcome.ok_bind, second, Outcome.ok_bind, third, Outcome.ok_bind, total,
    Fin.sum_univ_three]
  simp only [Outcome.unwrap_some, Outcome.ok_bind,
    mul_of_canonical laws canonicalChallenge missesChallenge]
  rfl

end Combined

/-- Multiples of a point depend on the scalar modulo the order alone. -/
theorem toNat_mulAdd_nsmul
    (laws : Ristretto255.Laws Point)
    (first second third : Block 32)
    (p : Point) :
    Scalar.toNat (Scalar.mulAdd first second third) • p =
      Scalar.toNat second • Scalar.toNat first • p +
        Scalar.toNat third • p := by
  rw [Scalar.mulAdd, Scalar.toNat_ofNat (Nat.mod_lt _ (by decide)),
    ← nsmul_eq_mod_nsmul _ (laws.order p), add_nsmul, mul_nsmul]

theorem get_responses
    (scalars nonces : Vector (Block 32) 3)
    (challenge : Block 32)
    (i : Fin 3) :
    (responses scalars nonces challenge).get i =
      Scalar.mulAdd (scalars.get i) challenge (nonces.get i) := by
  fin_cases i <;> rfl

/-- What the responses make is the challenge times the hash and the nonces. -/
theorem total_responses
    (laws : Ristretto255.Laws Point)
    (g : Vector Point 3)
    (scalars nonces : Vector (Block 32) 3)
    (challenge : Block 32) :
    total g (responses scalars nonces challenge) =
      Scalar.toNat challenge • total g scalars + total g nonces := by
  calc
    total g (responses scalars nonces challenge)
    _ = ∑ i : Fin 3,
          (Scalar.toNat challenge • Scalar.toNat (scalars.get i) • g.get i +
            Scalar.toNat (nonces.get i) • g.get i) := by
      refine Finset.sum_congr rfl fun i _ => ?_
      rw [get_responses, toNat_mulAdd_nsmul laws]
    _ = Scalar.toNat challenge • total g scalars + total g nonces := by
      rw [Finset.sum_add_distrib, ← Finset.smul_sum]
      rfl

end Algebra

/-! ## The honest prover -/

section Honest

variable {Point : Type} [Ristretto255 Point] [Hashes]

/-- The values an honest prover comes by. -/
structure Attempt (Point : Type) where
  p : Point
  nonces : Vector (Block 32) 3
  challenge : Block 32
  response : Vector (Block 32) 3

/-- The values of one run of the prover. -/
def attempt
    (g : Vector Point 3)
    (scalars : Vector (Block 32) 3)
    (randomness : Block 32) :
    Attempt Point :=
  let p := total g scalars
  let message := Ristretto255.toBytes p
  let transcript := statementOver g p
  let nonces :=
    noncesOf
      ((blinding transcript scalars randomness message).squeezed (3 * 64))
  let challenge :=
    Scalar.reduce64
      ((committed transcript (total g nonces) message).squeezed 64)
  ⟨p, nonces, challenge, responses scalars nonces challenge⟩

/-- None of the multiplications of an honest prover hits the identity. -/
structure NoIdentity
    (g : Vector Point 3)
    (scalars : Vector (Block 32) 3)
    (randomness : Block 32) :
    Prop where
  secrets : Misses g scalars
  nonces : Misses g (attempt g scalars randomness).nonces
  response : Misses g (attempt g scalars randomness).response
  challenge :
    Scalar.toNat (attempt g scalars randomness).challenge •
      (attempt g scalars randomness).p ≠ 0

/-- The statement is made over the decoded generators. -/
theorem statement_of_decoded
    {ε : Type}
    {g : Vector Point 3}
    (decoded : Decoded g)
    (p : Point) :
    (statement p : Outcome ε Sponge) = .ok (statementOver g p) := by
  rw [statement, generators_of_decoded decoded]
  rfl

@[simp] theorem absorbing_committed
    (transcript : Sponge)
    (commitment : Point)
    (message : Block 32) :
    (committed transcript commitment message).absorbing = false :=
  Sponge.absorbing_absorbRatchet _ _

@[simp] theorem absorbing_blinding
    (transcript : Sponge)
    (scalars : Vector (Block 32) 3)
    (randomness message : Block 32) :
    (blinding transcript scalars randomness message).absorbing = false :=
  Sponge.absorbing_absorbRatchet _ _

section Accepted

variable
  (laws : Ristretto255.Laws Point)
  {g : Vector Point 3}
  (decoded : Decoded g)
  {scalars : Vector (Block 32) 3}
  {randomness : Block 32}
  (free : NoIdentity g scalars randomness)

include laws decoded free

/-- The verifier finds the commitment of the prover. -/
theorem combine_attempt :
    combine (attempt g scalars randomness).response
        (some (attempt g scalars randomness).challenge)
        (some (attempt g scalars randomness).p) =
      .ok (total g (attempt g scalars randomness).nonces) := by
  have canonicalChallenge :
      Canonical (attempt g scalars randomness).challenge :=
    canonical_reduce64 _
  have canonicalResponse :
      AllCanonical (attempt g scalars randomness).response :=
    canonical_responses _ _ _
  have made :
      total g (attempt g scalars randomness).response =
        Scalar.toNat (attempt g scalars randomness).challenge •
            (attempt g scalars randomness).p +
          total g (attempt g scalars randomness).nonces :=
    total_responses laws _ _ _ _
  rw [combine_some laws decoded canonicalResponse free.response
    canonicalChallenge free.challenge, made, add_sub_cancel_left]

/-- An attempt at a proof is verified. -/
theorem verify_attempt :
    verify Point
        (proofBytes (attempt g scalars randomness).challenge
          (attempt g scalars randomness).response).bytes
        (Ristretto255.toBytes (attempt g scalars randomness).p) =
      .ok () := by
  have canonicalChallenge :
      Canonical (attempt g scalars randomness).challenge :=
    canonical_reduce64 _
  have canonicalResponse :
      ∀ scalar ∈ (attempt g scalars randomness).response.toList,
        Canonical scalar :=
    canonical_responses _ _ _
  obtain ⟨first, rest⟩ :=
    slices_proofBytes (attempt g scalars randomness).challenge
      (attempt g scalars randomness).response
  -- The transcript is the one the prover took its challenge from.
  obtain ⟨next, squeezed⟩ :
      ∃ next : Sponge,
        (committed (statementOver g (attempt g scalars randomness).p)
            (total g (attempt g scalars randomness).nonces)
            (Ristretto255.toBytes
              (attempt g scalars randomness).p)).scalarValue =
          (.ok ((attempt g scalars randomness).challenge, next) :
            Outcome NameError (Block 32 × Sponge)) :=
    Sponge.scalarValue_eq_ok (absorbing_committed _ _ _)
  simp only [verify, Block.ofBytes_bytes, Outcome.ofOption_some,
    Outcome.ok_bind, laws.read, first, rest]
  rw [Outcome.require_of canonicalChallenge, Outcome.ok_bind,
    Outcome.require_of canonicalResponse, Outcome.ok_bind,
    statement_of_decoded decoded, Outcome.ok_bind,
    combine_attempt laws decoded free, Outcome.orElseFault_ok,
    Outcome.ok_bind, squeezed, Outcome.ok_bind, Outcome.require_of rfl]

/-- The proof is an attempt. -/
theorem proof_attempt
    {handle : Handle}
    (own : handle.scalars = scalars)
    (canonical : AllCanonical scalars) :
    handle.proof Point randomness =
      .ok (proofBytes (attempt g scalars randomness).challenge
        (attempt g scalars randomness).response) := by
  have hashed : handle.point = .ok (attempt g scalars randomness).p := by
    rw [point, own]
    exact combine_none laws decoded canonical free.secrets none
  obtain ⟨_, squeezed⟩ :=
    Sponge.squeeze_eq_ok (ε := HandleError)
      (absorbing_blinding (statementOver g (attempt g scalars randomness).p)
        scalars randomness
        (Ristretto255.toBytes (attempt g scalars randomness).p)) (3 * 64)
  have combined :
      combine (attempt g scalars randomness).nonces none
          (some (attempt g scalars randomness).p) =
        .ok (total g (attempt g scalars randomness).nonces) :=
    combine_none laws decoded (canonical_nonces _) free.nonces _
  obtain ⟨_, challenged⟩ :
      ∃ next : Sponge,
        (committed (statementOver g (attempt g scalars randomness).p)
            (total g (attempt g scalars randomness).nonces)
            (Ristretto255.toBytes
              (attempt g scalars randomness).p)).scalarValue =
          (.ok ((attempt g scalars randomness).challenge, next) :
            Outcome HandleError (Block 32 × Sponge)) :=
    Sponge.scalarValue_eq_ok (absorbing_committed _ _ _)
  have isNonces :
      noncesOf
          ((blinding (statementOver g (attempt g scalars randomness).p)
            scalars randomness
            (Ristretto255.toBytes (attempt g scalars randomness).p)).squeezed
            (3 * 64)) =
        (attempt g scalars randomness).nonces :=
    rfl
  have isResponse :
      responses scalars (attempt g scalars randomness).nonces
          (attempt g scalars randomness).challenge =
        (attempt g scalars randomness).response :=
    rfl
  rw [proof, hashed, Outcome.ok_bind, statement_of_decoded decoded,
    Outcome.ok_bind, own, squeezed, Outcome.ok_bind]
  simp only [isNonces, combined, Outcome.ok_bind, challenged, isResponse,
    verify_attempt laws decoded free, Outcome.mapError_ok, Outcome.pure_eq]

end Accepted

/--
A proof made for an accepted text passes its own check, its scalars are
canonical, and it verifies against the hash of the text.
-/
theorem proofOf_complete
    [Sha512]
    (laws : Ristretto255.Laws Point)
    {g : Vector Point 3}
    (decoded : Decoded g)
    {text : Bytes}
    {handle : Handle}
    (accepted : parse text = .ok handle)
    {randomness : Block 32}
    (free : NoIdentity g handle.scalars randomness) :
    ∃ (proof : Block 128) (hash : Block 32),
      proofOf Point text randomness = .ok proof ∧
        HasCanonicalScalars proof ∧
        hashOf Point text = .ok hash ∧
        verify Point proof.bytes hash = .ok () := by
  have canonical := canonical_of_parse accepted
  have made :
      handle.proof Point randomness =
        .ok (proofBytes (attempt g handle.scalars randomness).challenge
          (attempt g handle.scalars randomness).response) :=
    proof_attempt laws decoded free rfl canonical
  have hashed : handle.point = .ok (total g handle.scalars) :=
    combine_none laws decoded canonical free.secrets none
  refine ⟨_, Ristretto255.toBytes (total g handle.scalars), ?made, ?canonical,
    ?hashed, verify_attempt laws decoded free⟩
  case made =>
    rw [proofOf, accepted]
    exact made
  case canonical =>
    exact hasCanonicalScalars_proofBytes (canonical_reduce64 _)
      (canonical_responses _ _ _)
  case hashed =>
    rw [hashOf, accepted, Outcome.mapError_ok, Outcome.ok_bind, hash, hashed]
    rfl

end Honest

end Handle

/-! ## A stand-in for the group -/

namespace Sample

open Scalar

attribute [local instance] groupOrder_neZero

/-- A stand-in group: residues modulo the order. -/
@[reducible] def ristretto255 : Ristretto255 (Fin groupOrder) :=
  { residues with
    basePoint := 1
    mul := fun p scalar =>
      let q := Fin.ofNat groupOrder (toNat scalar * p.val)
      if q = 0 then .error .identityElement else .ok q
    toBytes := fun p => ofNat p.val
    fromBytes := fun raw => some (Fin.ofNat groupOrder (toNat raw)) }

attribute [local instance] ristretto255

/-- The sample group satisfies the laws. -/
theorem ristretto255_laws : Ristretto255.Laws (Fin groupOrder) where
  order p := by
    apply Fin.ext
    change groupOrder * p.val % groupOrder = 0 % groupOrder
    rw [Nat.mul_mod_right, Nat.zero_mod]
  multiplied p scalar canonical misses := if_neg misses
  read p := by
    change some (Fin.ofNat groupOrder (toNat (ofNat p.val))) = some p
    rw [toNat_ofNat p.isLt, Fin.ofNat_val_eq_self]

end Sample

namespace Handle

section Witness

attribute [local instance] Sample.hashes Sample.sha512
  Sample.groupOrder_neZero Sample.ristretto255

/-- The generators in that group. -/
private def sampleGenerators : Vector (Fin Scalar.groupOrder) 3 :=
  Vector.ofFn fun i => Fin.ofNat _ (Scalar.toNat (generatorsRaw.get i))

/-- The username `abc.01`. -/
def abc : Handle :=
  ⟨#v[digestScalar (ascii "abc") 1, small 4079, small 1]⟩

set_option maxRecDepth 100000 in
theorem parse_abc : parse (ascii "abc.01") = .ok abc := by
  decide

private theorem sample_decoded : Decoded sampleGenerators := by
  unfold Decoded
  decide

set_option maxRecDepth 100000 in
/-- No product of the sample handle is the identity. -/
private theorem abc_noIdentity :
    NoIdentity sampleGenerators abc.scalars (Block.zero 32) := by
  constructor
  · unfold Misses
    decide
  · unfold Misses
    decide
  · unfold Misses
    decide
  · decide

/-- The proof of a sample handle. -/
theorem proofOf_complete_abc :
    ∃ (proof : Block 128) (hash : Block 32),
      proofOf (Fin Scalar.groupOrder) (ascii "abc.01") (Block.zero 32) =
          .ok proof ∧
        HasCanonicalScalars proof ∧
        hashOf (Fin Scalar.groupOrder) (ascii "abc.01") = .ok hash ∧
        verify (Fin Scalar.groupOrder) proof.bytes hash = .ok () :=
  proofOf_complete Sample.ristretto255_laws sample_decoded parse_abc
    abc_noIdentity

end Witness

end Handle

end Gossveil
