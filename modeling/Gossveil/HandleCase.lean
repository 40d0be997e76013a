import Gossveil.HandleComplete

namespace Gossveil.Handle

/-!
# Usernames up to case

The nickname's own scalar is made of its small letters, but the digest is
taken of the text as it is spelled.  Two spellings have the same hash only if
their digests agree.
-/

/-- The digests of two nicknames under one discriminator, as scalars. -/
def SameDigest
    [Sha512]
    (nickname other discriminator : Bytes) :
    Prop :=
  ∀ number,
    discriminatorOf discriminator = .ok number →
      Scalar.toNat (Sha512.hash (nickname ++ [0] ++ bigEndian 8 number)) ≡
        Scalar.toNat (Sha512.hash (other ++ [0] ++ bigEndian 8 number))
          [MOD Scalar.groupOrder]

/-- Two digests give one scalar when the hashes agree modulo the order. -/
theorem digestScalar_inj
    [Sha512]
    {nickname other : Bytes}
    {number : Nat} :
    digestScalar nickname number = digestScalar other number ↔
      Scalar.toNat (Sha512.hash (nickname ++ [0] ++ bigEndian 8 number)) ≡
        Scalar.toNat (Sha512.hash (other ++ [0] ++ bigEndian 8 number))
          [MOD Scalar.groupOrder] := by
  have positive : 0 < Scalar.groupOrder := by
    decide
  rw [digestScalar, digestScalar, Scalar.reduce64, Scalar.reduce64, Nat.ModEq]
  constructor
  · intro same
    have value := congrArg Scalar.toNat same
    rwa [Scalar.toNat_ofNat (Nat.mod_lt _ positive),
      Scalar.toNat_ofNat (Nat.mod_lt _ positive)] at value
  · exact congrArg Scalar.ofNat

/-- What an accepted text with known parts makes. -/
theorem scalars_of_parse
    [Sha512]
    {text nickname discriminator : Bytes}
    {handle : Handle}
    (split : parts text = some (nickname, discriminator))
    (accepted : parse text = .ok handle) :
    ∃ number name,
      discriminatorOf discriminator = .ok number ∧
        nicknameScalar nickname = .ok name ∧
          handle.scalars =
            #v[digestScalar nickname number, name, small number] := by
  rw [parse, split, Outcome.ofOption_some, Outcome.ok_bind] at accepted
  cases nickname with
  | nil => cases accepted
  | cons char chars =>
      simp only [fromPartsUnbounded] at accepted
      obtain ⟨_, _, accepted⟩ := Outcome.bind_eq_ok.mp accepted
      obtain ⟨number, read, accepted⟩ := Outcome.bind_eq_ok.mp accepted
      obtain ⟨name, made, accepted⟩ := Outcome.bind_eq_ok.mp accepted
      cases accepted
      exact ⟨number, name, read, made, rfl⟩

/-- The nickname's own scalar is that of its small letters. -/
theorem nicknameScalar_map_toLower
    {nickname other : Bytes}
    (same : nickname.map toLower = other.map toLower) :
    nicknameScalar nickname = nicknameScalar other := by
  have length : nickname.length = other.length := by
    rw [← List.length_map toLower, same, List.length_map]
  rw [nicknameScalar, nicknameScalar, length, codes_eq_mapM, codes_eq_mapM,
    same]

section Case

variable {Point : Type} [Ristretto255 Point] [Hashes]

/-- A proof that was made was checked against the hash of its username. -/
theorem verify_of_proof
    {handle : Handle}
    {randomness : Block 32}
    {proof : Block 128}
    (made : handle.proof Point randomness = .ok proof) :
    ∃ hash,
      handle.hash Point = .ok hash ∧
        verify Point proof.bytes hash = .ok () := by
  obtain ⟨p, hashed, made⟩ := Outcome.bind_eq_ok.mp made
  obtain ⟨transcript, _, made⟩ := Outcome.bind_eq_ok.mp made
  obtain ⟨⟨bytes, _⟩, _, made⟩ := Outcome.bind_eq_ok.mp made
  obtain ⟨commitment, _, made⟩ := Outcome.bind_eq_ok.mp made
  obtain ⟨⟨challenge, _⟩, _, made⟩ := Outcome.bind_eq_ok.mp made
  obtain ⟨_, checked, made⟩ := Outcome.bind_eq_ok.mp made
  cases made
  refine ⟨Ristretto255.toBytes p, ?_, Outcome.mapError_eq_ok.mp checked⟩
  rw [hash, hashed]
  rfl

variable [Sha512]

/-- Both texts stand for one username. -/
structure IgnoresCase
    (Point : Type)
    [Ristretto255 Point]
    (text other : Bytes) :
    Prop where
  scalars :
    ∀ handle otherHandle,
      parse text = .ok handle →
        parse other = .ok otherHandle →
          handle.scalars = otherHandle.scalars
  hash : hashOf Point text = hashOf Point other
  proof :
    ∀ randomness proof hash,
      proofOf Point text randomness = .ok proof →
        hashOf Point other = .ok hash →
          verify Point proof.bytes hash = .ok ()

/--
Two spellings of a nickname make one username exactly when the digests of
what was typed agree.
-/
theorem ignoresCase_iff
    {text other nickname otherNickname discriminator : Bytes}
    {handle otherHandle : Handle}
    (split : parts text = some (nickname, discriminator))
    (splitOther : parts other = some (otherNickname, discriminator))
    (accepted : parse text = .ok handle)
    (acceptedOther : parse other = .ok otherHandle)
    (sameUpToCase : nickname.map toLower = otherNickname.map toLower) :
    IgnoresCase Point text other ↔
      nickname = otherNickname ∨
        SameDigest nickname otherNickname discriminator := by
  obtain ⟨number, name, read, made, scalars⟩ :=
    scalars_of_parse split accepted
  obtain ⟨otherNumber, otherName, otherRead, otherMade, otherScalars⟩ :=
    scalars_of_parse splitOther acceptedOther
  have sameNumber : number = otherNumber :=
    Outcome.ok.inj (read.symm.trans otherRead)
  have sameName : name = otherName := by
    rw [nicknameScalar_map_toLower sameUpToCase] at made
    exact Outcome.ok.inj (made.symm.trans otherMade)
  subst sameNumber sameName
  constructor
  · intro ignores
    have same := ignores.scalars handle otherHandle accepted acceptedOther
    rw [scalars, otherScalars] at same
    have digests :
        digestScalar nickname number = digestScalar otherNickname number :=
      congrArg (fun values : Vector (Block 32) 3 => values[0]) same
    refine .inr fun found isFound => ?_
    obtain rfl := Outcome.ok.inj (read.symm.trans isFound)
    exact digestScalar_inj.mp digests
  · intro agree
    have digests :
        digestScalar nickname number = digestScalar otherNickname number := by
      rcases agree with same | collide
      · rw [same]
      · exact digestScalar_inj.mpr (collide number read)
    have sameHandle : handle = otherHandle := by
      obtain ⟨values⟩ := handle
      obtain ⟨otherValues⟩ := otherHandle
      simp only at scalars otherScalars
      rw [scalars, otherScalars, digests]
    subst sameHandle
    refine ⟨?scalars, ?hash, ?proof⟩
    case scalars =>
      intro first second isFirst isSecond
      rw [accepted] at isFirst
      rw [acceptedOther] at isSecond
      rw [Outcome.ok.inj (isFirst.symm.trans isSecond)]
    case hash => rw [hashOf, hashOf, accepted, acceptedOther]
    case proof =>
      intro randomness proof hash made hashed
      rw [proofOf, accepted, Outcome.mapError_ok, Outcome.ok_bind] at made
      rw [hashOf, acceptedOther, Outcome.mapError_ok, Outcome.ok_bind]
        at hashed
      obtain ⟨own, isOwn, verified⟩ := verify_of_proof made
      rw [hashed] at isOwn
      rw [Outcome.ok.inj isOwn]
      exact verified

end Case

section Witness

attribute [local instance] Sample.hashes Sample.sha512
  Sample.groupOrder_neZero Sample.ristretto255

/-- The handle of a name with a capital letter. -/
private def capital : Handle :=
  ⟨#v[digestScalar (ascii "Abc") 1, small 4079, small 1]⟩

set_option maxRecDepth 100000 in
private theorem parse_capital : parse (ascii "Abc.01") = .ok capital := by
  decide

/-- The condition at a capital letter. -/
theorem ignoresCase_iff_capital :
    IgnoresCase (Fin Scalar.groupOrder) (ascii "Abc.01") (ascii "abc.01") ↔
      ascii "Abc" = ascii "abc" ∨
        SameDigest (ascii "Abc") (ascii "abc") (ascii "01") :=
  ignoresCase_iff (by decide) (by decide) parse_capital parse_abc
    (by decide)

set_option maxRecDepth 100000 in
/-- One capital letter makes another username. -/
theorem capital_not_ignoresCase :
    (ascii "Abc").map toLower = (ascii "abc").map toLower ∧
      parts (ascii "Abc.01") = some (ascii "Abc", ascii "01") ∧
      parts (ascii "abc.01") = some (ascii "abc", ascii "01") ∧
      ¬ IgnoresCase (Fin Scalar.groupOrder) (ascii "Abc.01")
        (ascii "abc.01") := by
  refine ⟨by decide, by decide, by decide, ?_⟩
  intro ignores
  have same := ignores.scalars capital abc parse_capital parse_abc
  revert same
  decide

end Witness

end Gossveil.Handle
