import Gossveil.Safety

namespace Gossveil

open Codec

/-!
# Safety numbers match on both sides

Swapping the roles swaps the hashes; the display does not depend on their
order, and the record of one party names the hashes of the other crosswise.
-/

namespace Safety

/-! ## Digits -/

theorem length_slot (size x : Nat) : (slot size x).length = size := by
  induction size generalizing x with
  | zero => rfl
  | succ size inductionHypothesis =>
      rw [slot, List.length_append, inductionHypothesis, List.length_singleton]

/-- Every character of a slot is a decimal digit. -/
theorem slot_decimal
    {size x : Nat}
    {char : UInt8}
    (member : char ∈ slot size x) :
    48 ≤ char.toNat ∧ char.toNat ≤ 57 := by
  induction size generalizing x with
  | zero => cases member
  | succ size inductionHypothesis =>
      rcases List.mem_append.mp member with before | last
      · exact inductionHypothesis before
      · rw [List.mem_singleton.mp last, UInt8.toNat_ofNat']
        omega

theorem length_digits (half : Block 30) :
    (digits half).length = halfLength := by
  simp [digits, block, length_slot, halfLength]

/-- Every character is a decimal digit. -/
theorem digits_decimal
    {half : Block 30}
    {char : UInt8}
    (member : char ∈ digits half) :
    48 ≤ char.toNat ∧ char.toNat ≤ 57 := by
  obtain ⟨index, _, inBlock⟩ := List.mem_flatMap.mp member
  exact slot_decimal inBlock

namespace Display

variable (localHash remoteHash : Block 64)

/-- The display does not depend on whose hash is whose. -/
theorem of_comm : of localHash remoteHash = of remoteHash localHash := by
  simp only [of]
  generalize digits (localHash.slice 0 halfLength _) = ours
  generalize digits (remoteHash.slice 0 halfLength _) = theirs
  by_cases less : ours < theirs
  · rw [if_pos less, if_neg (List.lt_asymm less)]
  · by_cases greater : theirs < ours
    · rw [if_neg less, if_pos greater]
    · rw [if_neg less, if_neg greater,
        List.le_antisymm (List.not_lt.mp greater) (List.not_lt.mp less)]

/-- The display has sixty digits. -/
theorem length_of :
    (of localHash remoteHash).text.length = displayLength := by
  simp only [of]
  split_ifs <;> simp [length_digits, halfLength, displayLength]

/-- The display has decimal digits only. -/
theorem of_decimal
    {char : UInt8}
    (member : char ∈ (of localHash remoteHash).text) :
    48 ≤ char.toNat ∧ char.toNat ≤ 57 := by
  simp only [of] at member
  split_ifs at member <;>
    rcases List.mem_append.mp member with inHalf | inHalf <;>
    exact digits_decimal inHalf

end Display

/-! ## The record -/

namespace Scannable

/-- The fields of a record, and of one of its halves. -/
def fields (scannable : Scannable) : List Field :=
  [Field.ofUint 1 scannable.version,
    Field.ofBytes 2 (Field.ofBytes 1 scannable.localHash.bytes).encode,
    Field.ofBytes 3 (Field.ofBytes 1 scannable.remoteHash.bytes).encode]

/-- A scannable record writes the fields it lists. -/
theorem encodeAll_fields (scannable : Scannable) :
    encodeAll scannable.fields = scannable.serialize := by
  simp [fields, serialize, encodeAll, Writer.embed]

private theorem half_written (half : Block 32) :
    (Field.ofBytes 1 half.bytes).Written :=
  .bytes (by decide) (by decide) (by simp)

theorem inner_bytes (half : Block 32) :
    inner (Writer.bytes 1 half.bytes) = .ok half := by
  refine find_single Fault.badMessage (half_written half) ?_
  simp [known, List.take_of_length_le]

/-- A scannable record reads back. -/
theorem parse_serialize
    {scannable : Scannable}
    (versionFits : scannable.version < 2 ^ 32) :
    parse scannable.serialize = .ok scannable := by
  have short :
      ∀ half : Block 32,
        (Field.ofBytes 1 half.bytes).encode.length < 2 ^ 64 := by
    intro half
    refine Nat.lt_of_le_of_lt (Writer.length_bytes_le 1 half.bytes) ?_
    rw [half.length_eq]
    decide
  have written : ∀ field ∈ scannable.fields, field.Written := by
    simp only [fields, List.forall_mem_cons, List.not_mem_nil,
      false_implies, implies_true, and_true]
    exact ⟨.uint (by decide) (by decide) (Nat.lt_trans versionFits (by decide)),
      .bytes (by decide) (by decide) (short _),
      .bytes (by decide) (by decide) (short _)⟩
  rw [parse, ← encodeAll_fields, fold_encodeAll _ _ written, fields]
  simp [readField, Field.uint32_ofUint _ _ _ versionFits, inner_bytes]

/-- When a scanned record matches. -/
theorem matches_eq
    {scannable theirs : Scannable}
    {data : Bytes}
    (parsed : parse data = .ok theirs) :
    (theirs.version ≠ scannable.version →
        scannable.«matches» data = .error .badArgument) ∧
      (theirs.version = scannable.version →
        scannable.«matches» data =
          .ok (decide (theirs.localHash = scannable.remoteHash ∧
            theirs.remoteHash = scannable.localHash))) := by
  rw [«matches», parsed, Outcome.ok_bind]
  constructor
  · intro other
    rw [Outcome.require_not other]
    rfl
  · intro same
    rw [Outcome.require_of same, Outcome.ok_bind, ← Bool.decide_and]
    rfl

end Scannable

/-! ## Both parties -/

variable [Sha512]

/-- What a party sees of its own hash and the other one's. -/
def seen (version : Nat) (ours theirs : Block 64) : Safety :=
  ⟨Display.of ours theirs,
    ⟨version, ours.slice 0 32 (by decide), theirs.slice 0 32 (by decide)⟩⟩

/-- The iterated hash returns. -/
theorem iterated_returns
    {iterations : Nat}
    (several : 2 ≤ iterations)
    (few : iterations ≤ 1000000)
    (stableId key : Bytes) :
    ∃ digest, iterated iterations stableId key = .ok digest := by
  rw [iterated, Outcome.require_of ⟨several, few⟩]
  exact ⟨_, rfl⟩

/-- The safety number is made of both digests. -/
theorem of_eq_seen
    {version iterations : Nat}
    {localId remoteId : Bytes}
    {localIdentity remoteIdentity : Identity}
    {ours theirs : Block 64}
    (isOurs :
      iterated iterations localId localIdentity.key.serialize = .ok ours)
    (isTheirs :
      iterated iterations remoteId remoteIdentity.key.serialize =
        .ok theirs) :
    Safety.of version iterations localId localIdentity remoteId
        remoteIdentity =
      .ok (seen version ours theirs) := by
  rw [Safety.of, isOurs, Outcome.ok_bind, isTheirs]
  rfl

omit [Sha512] in
/-- The two parties' records match. -/
theorem seen_matches
    {version : Nat}
    (versionFits : version < 2 ^ 32)
    (ours theirs : Block 64) :
    (seen version ours theirs).scannable.«matches»
        (seen version theirs ours).scannable.serialize =
      .ok true := by
  have parsed :=
    @Scannable.parse_serialize (seen version theirs ours).scannable versionFits
  have answered :=
    @Scannable.matches_eq (seen version ours theirs).scannable _ _ parsed
  rw [answered.2 rfl]
  simp [seen]

/--
Both parties show the same sixty digits, and each one's record matches the
other's.  A record matches exactly when it is of our version and names our
hashes crosswise; one of another version is refused.
-/
theorem parties_match
    {version iterations : Nat}
    (versionFits : version < 2 ^ 32)
    (several : 2 ≤ iterations)
    (few : iterations ≤ 1000000)
    (localId remoteId : Bytes)
    (localIdentity remoteIdentity : Identity) :
    (∃ ours theirs,
        Safety.of version iterations localId localIdentity remoteId
            remoteIdentity =
          .ok ours ∧
        Safety.of version iterations remoteId remoteIdentity localId
            localIdentity =
          .ok theirs ∧
        ours.display = theirs.display ∧
        ours.display.text.length = displayLength ∧
        (∀ char ∈ ours.display.text,
          48 ≤ char.toNat ∧ char.toNat ≤ 57) ∧
        ours.scannable.«matches» theirs.scannable.serialize = .ok true ∧
        theirs.scannable.«matches» ours.scannable.serialize = .ok true) ∧
      ∀ (scannable theirs : Scannable) (data : Bytes),
        Scannable.parse data = .ok theirs →
          (theirs.version ≠ scannable.version →
              scannable.«matches» data = .error .badArgument) ∧
            (theirs.version = scannable.version →
              scannable.«matches» data =
                .ok (decide (theirs.localHash = scannable.remoteHash ∧
                  theirs.remoteHash = scannable.localHash))) := by
  refine ⟨?parties, fun scannable theirs data parsed =>
    Scannable.matches_eq parsed⟩
  case parties =>
    obtain ⟨ours, isOurs⟩ :=
      iterated_returns several few localId localIdentity.key.serialize
    obtain ⟨theirs, isTheirs⟩ :=
      iterated_returns several few remoteId remoteIdentity.key.serialize
    exact ⟨_, _, of_eq_seen isOurs isTheirs, of_eq_seen isTheirs isOurs,
      Display.of_comm ours theirs, Display.length_of ours theirs,
      fun char => Display.of_decimal ours theirs,
      seen_matches versionFits ours theirs,
      seen_matches versionFits theirs ours⟩

end Safety

namespace Safety

attribute [local instance] Sample.sha512

/-- Two parties with one and the same identifier. -/
theorem parties_match_oneIdentifier :
    ∃ ours theirs,
      Safety.of 2 1024 [43] ⟨⟨Block.fill 32 1⟩⟩ [43] ⟨⟨Block.fill 32 2⟩⟩ =
          .ok ours ∧
        Safety.of 2 1024 [43] ⟨⟨Block.fill 32 2⟩⟩ [43] ⟨⟨Block.fill 32 1⟩⟩ =
          .ok theirs ∧
        ours.display = theirs.display := by
  obtain ⟨⟨ours, theirs, isOurs, isTheirs, same, _⟩, _⟩ :=
    @parties_match _ 2 1024 (by decide) (by decide) (by decide) [43] [43]
      ⟨⟨Block.fill 32 1⟩⟩ ⟨⟨Block.fill 32 2⟩⟩
  exact ⟨ours, theirs, isOurs, isTheirs, same⟩

end Safety

end Gossveil
