import Gossveil.CodecTraps
import Gossveil.Session

namespace Gossveil

open Codec

/-!
# A session state survives its record

Every part of a state is read back as it was written, and whatever a parser
returns can be written again.  The secrets are clamped anew on every reading,
which leaves a clamped secret as it is.
-/

namespace Curve

/-- Clamping leaves a clamped scalar as it is. -/
theorem clamp_clamp (scalar : Block 32) :
    clamp (clamp scalar) = clamp scalar := by
  have byteLow : ∀ byte : UInt8, byte &&& 248 &&& 248 = byte &&& 248 := by
    intro byte
    rw [UInt8.and_assoc]
    rfl
  have byteHigh :
      ∀ byte : UInt8,
        (((byte &&& 127) ||| 64) &&& 127) ||| 64 = (byte &&& 127) ||| 64 := by
    intro byte
    apply UInt8.toBitVec_inj.1
    simp only [UInt8.toBitVec_or, UInt8.toBitVec_and]
    rw [BitVec.and_or_distrib_right, BitVec.and_assoc, BitVec.or_assoc]
    rfl
  ext1
  simp only [clamp, List.mapIdx_mapIdx]
  congr 1
  funext index byte
  simp only [Function.comp_apply]
  split_ifs <;> simp [byteLow, byteHigh]

namespace Secret

/-- A secret as `fromRaw` makes it. -/
def Clamped (secret : Secret) : Prop :=
  clamp secret.scalar = secret.scalar

theorem clamped_fromRaw (raw : Block 32) : (fromRaw raw).Clamped :=
  clamp_clamp raw

/-- A clamped secret reads back. -/
theorem parse_serialize
    {secret : Secret}
    (clamped : secret.Clamped) :
    parse secret.serialize = .ok secret := by
  simp only [parse, serialize, Block.ofBytes_bytes, fromRaw]
  rw [clamped]

/-- What is read is clamped. -/
theorem clamped_parse
    {data : Bytes}
    {secret : Secret}
    (read : parse data = .ok secret) :
    secret.Clamped := by
  unfold parse at read
  cases isRaw : Block.ofBytes 32 data with
  | none => simp [isRaw] at read
  | some raw =>
      simp only [isRaw, Outcome.ok.injEq] at read
      rw [← read]
      exact clamped_fromRaw raw

end Secret

end Curve

namespace Ratchet

/-! ## Chains -/

namespace Chain

/-- The index fits the record. -/
def Fits (chain : Chain) : Prop :=
  chain.index < 2 ^ 32

/-- The fields that `write` writes. -/
def fields (chain : Chain) : List Field :=
  Field.uintIfSet 1 chain.index ++ [Field.ofBytes 2 chain.key.bytes]

/-- The record is that of the fields. -/
theorem encodeAll_fields (chain : Chain) :
    encodeAll chain.fields = chain.write := by
  simp [fields, write]

/-- A chain survives its record. -/
theorem read_write
    {chain : Chain}
    (fits : chain.Fits)
    (short : chain.write.length < 2 ^ 64) :
    fold Fault.badSession readField chain.write ⟨Block.zero 32, 0⟩ =
      .ok chain := by
  have plain : ∀ field ∈ chain.fields, field.Plain := by
    simp only [fields, List.forall_mem_append]
    constructor
    · exact Field.Plain.uintIfSet (by decide) (by decide)
        (Nat.lt_trans fits (by decide))
    · simpa using Field.Plain.bytes (by decide) (by decide)
  have indexReads :
      (Field.uintIfSet 1 chain.index).foldlM readField ⟨Block.zero 32, 0⟩ =
        .ok ⟨Block.zero 32, chain.index⟩ := by
    apply foldlM_uintIfSet
    · simp [readField, Field.uint32OrZero_ofUint _ _ fits]
    · intro isZero
      rw [isZero]
  rw [← encodeAll_fields] at short ⊢
  rw [fold_plain _ readField plain short, fields,
    foldlM_append_ok indexReads]
  simp [readField]

/-- Reading keeps the index in range. -/
theorem readField_fits
    {chain next : Chain}
    {field : Field}
    (before : chain.Fits)
    (read : chain.readField field = .ok next) :
    next.Fits := by
  unfold readField at read
  split at read
  · obtain ⟨index, isIndex, done⟩ := Outcome.bind_eq_ok.mp read
    cases done
    exact Field.uint32OrZero_lt isIndex
  · obtain ⟨key, _, done⟩ := Outcome.bind_eq_ok.mp read
    cases done
    exact before
  · cases read
    exact before

end Chain

/-! ## Skipped keys -/

namespace Slot

/-- The index fits the record. -/
def Fits (slot : Slot) : Prop :=
  slot.index < 2 ^ 32

/-- The fields of the seed, or of the keys. -/
def keyFields : Slot → List Field
  | .seed value _ => [Field.ofBytes 5 value.bytes]
  | .keys derived =>
      [Field.ofBytes 2 derived.cipher.bytes,
        Field.ofBytes 3 derived.mac.bytes,
        Field.ofBytes 4 derived.iv.bytes]

/-- The fields that `write` writes. -/
def fields (slot : Slot) : List Field :=
  Field.uintIfSet 1 slot.index ++ slot.keyFields

/-- The record is that of the fields. -/
theorem encodeAll_fields (slot : Slot) :
    encodeAll slot.fields = slot.write := by
  cases slot <;> simp [fields, keyFields, index, write]

@[simp] theorem blockIfWhole_ofBytes
    {size : Nat}
    (number : Nat)
    (value : Block size) :
    blockIfWhole size (Field.ofBytes number value.bytes) = some value := by
  simp [blockIfWhole]

/-- A skipped key survives its record. -/
theorem parse_write
    {slot : Slot}
    (fits : slot.Fits)
    (short : slot.write.length < 2 ^ 64) :
    parse slot.write = .ok slot := by
  have plain : ∀ field ∈ slot.fields, field.Plain := by
    simp only [fields, List.forall_mem_append]
    constructor
    · exact Field.Plain.uintIfSet (by decide) (by decide)
        (Nat.lt_trans fits (by decide))
    · intro field member
      cases slot with
      | seed value index =>
          obtain rfl := List.mem_singleton.mp member
          exact .bytes (by decide) (by decide)
      | keys derived =>
          simp only [keyFields, List.mem_cons, List.not_mem_nil,
            or_false] at member
          rcases member with rfl | rfl | rfl <;>
            exact .bytes (by decide) (by decide)
  have indexReads :
      (Field.uintIfSet 1 slot.index).foldlM Draft.read Draft.empty =
        .ok { Draft.empty with index := slot.index } := by
    apply foldlM_uintIfSet
    · simp [Draft.read, Field.uint32OrZero_ofUint _ _ fits]
    · intro isZero
      rw [isZero]
      rfl
  rw [← encodeAll_fields] at short ⊢
  rw [parse, fold_plain _ Draft.read plain short, fields,
    foldlM_append_ok indexReads]
  cases slot <;>
    simp [keyFields, index, Draft.read, Draft.finish, Draft.empty]

/-- What is read fits. -/
theorem parse_fits
    {data : Bytes}
    {slot : Slot}
    (read : parse data = .ok slot) :
    slot.Fits := by
  obtain ⟨draft, folded, finished⟩ := Outcome.bind_eq_ok.mp read
  have indexFits : draft.index < 2 ^ 32 := by
    refine @fold_preserves _ _ _ _ (fun draft => draft.index < 2 ^ 32)
      ?_ data Draft.empty draft (by decide) folded
    intro before field next holds stepped
    unfold Draft.read at stepped
    split at stepped
    · obtain ⟨index, isIndex, done⟩ := Outcome.bind_eq_ok.mp stepped
      cases done
      exact Field.uint32OrZero_lt isIndex
    all_goals
      cases stepped
      exact holds
  unfold Draft.finish at finished
  split at finished
  · cases finished
    exact indexFits
  · simp only [Outcome.bind_eq_ok, Outcome.pure_eq] at finished
    obtain ⟨_, _, _, _, _, _, done⟩ := finished
    cases done
    exact indexFits

end Slot

/-! ## Lanes -/

namespace Lane

/-- Every index of the lane fits the record. -/
structure Fits (lane : Lane) : Prop where
  chain : lane.chain.Fits
  skipped : ∀ slot ∈ lane.skipped, slot.Fits

/-- A secret, if there is one, is held clamped. -/
def Clamped (lane : Lane) : Prop :=
  ∀ secret, lane.ratchetSecret = some secret → secret.Clamped

/-- The fields that `write` writes. -/
def fields (lane : Lane) : List Field :=
  [Field.ofBytes 1 lane.ratchet.serialize] ++
    ((lane.ratchetSecret.map fun secret =>
        Field.ofBytes 2 secret.serialize).toList ++
      ([Field.ofBytes 3 lane.chain.write] ++
        lane.skipped.map fun slot => Field.ofBytes 4 slot.write))

/-- The record is that of the fields. -/
theorem encodeAll_fields (lane : Lane) :
    encodeAll lane.fields = lane.write := by
  have slots :
      encodeAll (lane.skipped.map fun slot => Field.ofBytes 4 slot.write) =
        lane.skipped.flatMap fun slot => Writer.embed 4 slot.write := by
    rw [encodeAll, List.flatMap_map]
    rfl
  cases isSecret : lane.ratchetSecret <;>
    simp [fields, write, slots, isSecret, Writer.embed]

/-- A lane survives its record. -/
theorem parse_write
    {lane : Lane}
    (fits : lane.Fits)
    (clamped : lane.Clamped)
    (short : lane.write.length < 2 ^ 64) :
    parse lane.write = .ok lane := by
  have plain : ∀ field ∈ lane.fields, field.Plain := by
    simp only [fields, List.forall_mem_append]
    refine ⟨?_, Field.Plain.option fun _ _ => .bytes (by decide) (by decide),
      ?_, Field.Plain.repeated fun _ _ => .bytes (by decide) (by decide)⟩
    all_goals simpa using Field.Plain.bytes (by decide) (by decide)
  rw [← encodeAll_fields] at short ⊢
  have chainShort : lane.chain.write.length < 2 ^ 64 := by
    refine Nat.lt_of_le_of_lt (@length_byteValue_le _ 3 _ ?_) short
    simp [fields]
  have slotShort :
      ∀ slot ∈ lane.skipped, slot.write.length < 2 ^ 64 := by
    intro slot member
    refine Nat.lt_of_le_of_lt (@length_byteValue_le _ 4 _ ?_) short
    simp only [fields, List.mem_append, List.mem_map]
    exact Or.inr (Or.inr (Or.inr ⟨slot, member, rfl⟩))
  rcases lane with ⟨ratchet, ratchetSecret, chain, skipped⟩
  have ratchetReads :
      [Field.ofBytes 1 ratchet.serialize].foldlM Draft.read Draft.empty =
        .ok ⟨some ratchet, none, ⟨Block.zero 32, 0⟩, []⟩ := by
    simp [Draft.read, Draft.empty]
  have secretReads :
      (ratchetSecret.map fun secret =>
          Field.ofBytes 2 secret.serialize).toList.foldlM Draft.read
          ⟨some ratchet, none, ⟨Block.zero 32, 0⟩, []⟩ =
        .ok ⟨some ratchet, ratchetSecret, ⟨Block.zero 32, 0⟩, []⟩ := by
    apply foldlM_option Draft.read _
      (fun secret => ⟨some ratchet, secret, ⟨Block.zero 32, 0⟩, []⟩)
    · intro secret isSecret
      simp [Draft.read, Curve.Secret.parse_serialize (clamped secret isSecret)]
    · rfl
  have chainReads :
      [Field.ofBytes 3 chain.write].foldlM Draft.read
          ⟨some ratchet, ratchetSecret, ⟨Block.zero 32, 0⟩, []⟩ =
        .ok ⟨some ratchet, ratchetSecret, chain, []⟩ := by
    simp [Draft.read, Chain.read_write fits.chain chainShort]
  have slotsRead :
      (skipped.map fun slot => Field.ofBytes 4 slot.write).foldlM Draft.read
          ⟨some ratchet, ratchetSecret, chain, []⟩ =
        .ok ⟨some ratchet, ratchetSecret, chain, skipped⟩ := by
    refine foldlM_repeated Draft.read _
      (fun skipped => ⟨some ratchet, ratchetSecret, chain, skipped⟩) ?_ []
    intro slot member before
    simp [Draft.read,
      Slot.parse_write (fits.skipped slot member) (slotShort slot member)]
  rw [parse, fold_plain _ Draft.read plain short, fields,
    foldlM_append_ok ratchetReads, foldlM_append_ok secretReads,
    foldlM_append_ok chainReads, slotsRead]
  rfl

/-- What is read fits, and its secret is clamped. -/
theorem parse_keeps
    {data : Bytes}
    {lane : Lane}
    (read : parse data = .ok lane) :
    lane.Fits ∧ lane.Clamped := by
  obtain ⟨draft, folded, finished⟩ := Outcome.bind_eq_ok.mp read
  have kept :
      (draft.chain.Fits ∧ ∀ slot ∈ draft.skipped, slot.Fits) ∧
        ∀ secret, draft.ratchetSecret = some secret → secret.Clamped := by
    refine @fold_preserves _ _ _ _
      (fun draft : Draft =>
        (draft.chain.Fits ∧ ∀ slot ∈ draft.skipped, slot.Fits) ∧
          ∀ secret, draft.ratchetSecret = some secret → secret.Clamped)
      ?_ data Draft.empty draft
      ⟨⟨show 0 < 2 ^ 32 by decide, by simp [Draft.empty]⟩,
        by simp [Draft.empty]⟩ folded
    intro before field next holds stepped
    unfold Draft.read at stepped
    split at stepped
    · simp only [Outcome.bind_eq_ok, Outcome.pure_eq] at stepped
      obtain ⟨_, _, _, _, done⟩ := stepped
      cases done
      exact holds
    · simp only [Outcome.bind_eq_ok, Outcome.pure_eq] at stepped
      obtain ⟨_, _, secret, isSecret, done⟩ := stepped
      cases done
      refine ⟨holds.1, ?_⟩
      rintro _ ⟨⟩
      exact Curve.Secret.clamped_parse isSecret
    · simp only [Outcome.bind_eq_ok, Outcome.pure_eq] at stepped
      obtain ⟨_, _, chain, isChain, done⟩ := stepped
      cases done
      exact ⟨⟨fold_preserves Chain.readField_fits holds.1.1 isChain,
        holds.1.2⟩, holds.2⟩
    · simp only [Outcome.bind_eq_ok, Outcome.pure_eq] at stepped
      obtain ⟨_, _, slot, isSlot, done⟩ := stepped
      cases done
      refine ⟨⟨holds.1.1, ?_⟩, holds.2⟩
      simp only [List.forall_mem_append]
      exact ⟨holds.1.2, by simpa using Slot.parse_fits isSlot⟩
    · cases stepped
      exact holds
  simp only [Draft.finish, Outcome.bind_eq_ok, Outcome.pure_eq] at finished
  obtain ⟨_, _, done⟩ := finished
  cases done
  exact ⟨⟨kept.1.1, kept.1.2⟩, kept.2⟩

end Lane

/-! ## The pending handshake -/

namespace PendingHandshake

/-- The ids and the stamp fit the record. -/
structure Fits (pending : PendingHandshake) : Prop where
  oneTimeId : ∀ id, pending.oneTimeId = some id → id < 2 ^ 32
  signedId : pending.signedId < 2 ^ 32
  stampSecs : pending.stampSecs < 2 ^ 64

/-- The fields that `write` writes. -/
def fields (pending : PendingHandshake) : List Field :=
  (pending.oneTimeId.map (Field.ofUint 1)).toList ++
    ([Field.ofBytes 2 pending.base.serialize] ++
      (Field.uintIfSet 3 pending.signedId ++
        Field.uintIfSet 4 pending.stampSecs))

/-- The record is that of the fields. -/
theorem encodeAll_fields (pending : PendingHandshake) :
    encodeAll pending.fields = pending.write := by
  cases isId : pending.oneTimeId <;> simp [fields, write, isId]

/-- A pending handshake survives its record. -/
theorem parse_write
    {pending : PendingHandshake}
    (fits : pending.Fits)
    (short : pending.write.length < 2 ^ 64) :
    parse pending.write = .ok pending := by
  have plain : ∀ field ∈ pending.fields, field.Plain := by
    simp only [fields, List.forall_mem_append]
    refine ⟨Field.Plain.option fun id isId => ?_, ?_,
      Field.Plain.uintIfSet (by decide) (by decide)
        (Nat.lt_trans fits.signedId (by decide)),
      Field.Plain.uintIfSet (by decide) (by decide) fits.stampSecs⟩
    · exact .uint (by decide) (by decide)
        (Nat.lt_trans (fits.oneTimeId id isId) (by decide))
    · simpa using Field.Plain.bytes (by decide) (by decide)
  rw [← encodeAll_fields] at short ⊢
  rcases pending with ⟨oneTimeId, signedId, base, stampSecs⟩
  have idReads :
      (oneTimeId.map (Field.ofUint 1)).toList.foldlM Draft.read
          Draft.empty =
        .ok ⟨oneTimeId, 0, none, 0⟩ := by
    apply foldlM_option Draft.read _ (fun id => ⟨id, 0, none, 0⟩)
    · intro id isId
      simp [Draft.read, Draft.empty,
        Field.uint32OrZero_ofUint _ _ (fits.oneTimeId id isId)]
    · rfl
  have baseReads :
      [Field.ofBytes 2 base.serialize].foldlM Draft.read
          ⟨oneTimeId, 0, none, 0⟩ =
        .ok ⟨oneTimeId, 0, some base, 0⟩ := by
    simp [Draft.read]
  have signedReads :
      (Field.uintIfSet 3 signedId).foldlM Draft.read
          ⟨oneTimeId, 0, some base, 0⟩ =
        .ok ⟨oneTimeId, signedId, some base, 0⟩ := by
    apply foldlM_uintIfSet
    · simpa [Draft.read] using fits.signedId
    · intro isZero
      rw [isZero]
  have stampReads :
      (Field.uintIfSet 4 stampSecs).foldlM Draft.read
          ⟨oneTimeId, signedId, some base, 0⟩ =
        .ok ⟨oneTimeId, signedId, some base, stampSecs⟩ := by
    apply foldlM_uintIfSet
    · simp [Draft.read]
    · intro isZero
      rw [isZero]
  rw [parse, fold_plain _ Draft.read plain short, fields,
    foldlM_append_ok idReads, foldlM_append_ok baseReads,
    foldlM_append_ok signedReads, stampReads]
  rfl

/-- What the loop keeps of a draft. -/
structure Draft.Fits (draft : Draft) : Prop where
  oneTimeId : ∀ id, draft.oneTimeId = some id → id < 2 ^ 32
  signedId : draft.signedId < 2 ^ 32
  stampSecs : draft.stampSecs < 2 ^ 64

/-- Reading keeps the ids in range. -/
theorem Draft.read_fits
    {draft next : Draft}
    {field : Field}
    (before : draft.Fits)
    (isRead : field.IsRead)
    (read : draft.read field = .ok next) :
    next.Fits := by
  unfold Draft.read at read
  split at read
  · obtain ⟨id, isId, done⟩ := Outcome.bind_eq_ok.mp read
    cases done
    refine ⟨?_, before.signedId, before.stampSecs⟩
    rintro _ ⟨⟩
    exact Field.uint32OrZero_lt isId
  · simp only [Outcome.bind_eq_ok, Outcome.pure_eq] at read
    obtain ⟨_, _, _, _, done⟩ := read
    cases done
    exact ⟨before.oneTimeId, before.signedId, before.stampSecs⟩
  · cases read
    exact ⟨before.oneTimeId, Nat.mod_lt _ (by decide), before.stampSecs⟩
  · cases read
    exact ⟨before.oneTimeId, before.signedId, isRead.uintOrZero_lt⟩
  · cases read
    exact before

/-- What is read fits. -/
theorem parse_fits
    {data : Bytes}
    {pending : PendingHandshake}
    (read : parse data = .ok pending) :
    pending.Fits := by
  obtain ⟨draft, folded, finished⟩ := Outcome.bind_eq_ok.mp read
  have fits : draft.Fits :=
    fold_preserves_read Draft.read_fits
      ⟨by simp [Draft.empty], by decide, by decide⟩ folded
  obtain ⟨_, _, done⟩ := Outcome.bind_eq_ok.mp finished
  cases done
  exact ⟨fits.oneTimeId, fits.signedId, fits.stampSecs⟩

end PendingHandshake

/-! ## The pending capsule -/

namespace PendingCapsule

/-- The id fits the record. -/
def Fits (pending : PendingCapsule) : Prop :=
  pending.pqId < 2 ^ 32

/-- The fields that `write` writes. -/
def fields (pending : PendingCapsule) : List Field :=
  Field.uintIfSet 1 pending.pqId ++ Field.bytesIfSet 2 pending.capsule

/-- The record is that of the fields. -/
theorem encodeAll_fields (pending : PendingCapsule) :
    encodeAll pending.fields = pending.write := by
  simp [fields, write]

/-- A pending capsule survives its record. -/
theorem read_write
    {pending : PendingCapsule}
    (fits : pending.Fits)
    (short : pending.write.length < 2 ^ 64) :
    fold Fault.badSession readField pending.write ⟨0, []⟩ =
      .ok pending := by
  have plain : ∀ field ∈ pending.fields, field.Plain := by
    simp only [fields, List.forall_mem_append]
    exact ⟨Field.Plain.uintIfSet (by decide) (by decide)
        (Nat.lt_trans fits (by decide)),
      Field.Plain.bytesIfSet (by decide) (by decide)⟩
  have idReads :
      (Field.uintIfSet 1 pending.pqId).foldlM readField ⟨0, []⟩ =
        .ok ⟨pending.pqId, []⟩ := by
    apply foldlM_uintIfSet
    · simp [readField, Field.uint32OrZero_ofUint _ _ fits]
    · intro isZero
      rw [isZero]
  have capsuleReads :
      (Field.bytesIfSet 2 pending.capsule).foldlM readField
          ⟨pending.pqId, []⟩ =
        .ok pending := by
    apply foldlM_bytesIfSet
    · simp [readField]
    · intro isEmpty
      rw [← isEmpty]
  rw [← encodeAll_fields] at short ⊢
  rw [fold_plain _ readField plain short, fields,
    foldlM_append_ok idReads, capsuleReads]

/-- Reading keeps the id in range. -/
theorem readField_fits
    {pending next : PendingCapsule}
    {field : Field}
    (before : pending.Fits)
    (read : pending.readField field = .ok next) :
    next.Fits := by
  unfold readField at read
  split at read
  · obtain ⟨id, isId, done⟩ := Outcome.bind_eq_ok.mp read
    cases done
    exact Field.uint32OrZero_lt isId
  all_goals
    cases read
    exact before

end PendingCapsule

/-! ## States -/

namespace State

/-- The integers of a state fit their types. -/
structure Fits (state : State) : Prop where
  version : state.version < 2 ^ 32
  previousIndex : state.previousIndex < 2 ^ 32
  sending : ∀ lane, state.sending = some lane → lane.Fits
  receiving : ∀ lane ∈ state.receiving, lane.Fits
  pending : ∀ pending, state.pending = some pending → pending.Fits
  pendingCapsule :
    ∀ pending, state.pendingCapsule = some pending → pending.Fits
  remoteRegistrationId : state.remoteRegistrationId < 2 ^ 32
  localRegistrationId : state.localRegistrationId < 2 ^ 32

/-- Every secret is clamped, and a sending lane carries its secret. -/
structure Keyed (state : State) : Prop where
  carries :
    ∀ lane, state.sending = some lane → lane.ratchetSecret ≠ none
  sending : ∀ lane, state.sending = some lane → lane.Clamped
  receiving : ∀ lane ∈ state.receiving, lane.Clamped

/-- The fields behind the version and the two identity keys. -/
def innerFields (state : State) : List Field :=
  [Field.ofBytes 4 state.root.bytes] ++
    (Field.uintIfSet 5 state.previousIndex ++
      ((state.sending.map fun lane => Field.ofBytes 6 lane.write).toList ++
        ((state.receiving.map fun lane => Field.ofBytes 7 lane.write) ++
          ((state.pending.map fun pending =>
              Field.ofBytes 9 pending.write).toList ++
            (Field.uintIfSet 10 state.remoteRegistrationId ++
              (Field.uintIfSet 11 state.localRegistrationId ++
                (Field.bytesIfSet 13 state.base ++
                  ((state.pendingCapsule.map fun pending =>
                      Field.ofBytes 14 pending.write).toList ++
                    Field.bytesIfSet 15 state.pqState))))))))

/-- The fields that `serialize` writes. -/
def fields (state : State) : List Field :=
  Field.uintIfSet 1 state.version ++
    ([Field.ofBytes 2 state.localKey.serialize,
        Field.ofBytes 3 state.remoteKey.serialize] ++
      state.innerFields)

/-- The record is that of the fields. -/
theorem encodeAll_fields (state : State) :
    encodeAll state.fields = state.serialize := by
  have lanes :
      encodeAll (state.receiving.map fun lane =>
          Field.ofBytes 7 lane.write) =
        state.receiving.flatMap fun lane => Writer.embed 7 lane.write := by
    rw [encodeAll, List.flatMap_map]
    rfl
  cases isSending : state.sending <;> cases isPending : state.pending <;>
    cases isCapsule : state.pendingCapsule <;>
      simp [fields, innerFields, serialize, lanes, isSending, isPending,
        isCapsule, Writer.embed]

theorem innerFields_plain
    {state : State}
    (fits : state.Fits) :
    ∀ field ∈ state.innerFields, field.Plain := by
  simp only [innerFields, List.forall_mem_append]
  refine ⟨?_, ?_, ?_, ?_, ?_, ?_, ?_, ?_, ?_, ?_⟩
  · simpa using Field.Plain.bytes (by decide) (by decide)
  · exact Field.Plain.uintIfSet (by decide) (by decide)
      (Nat.lt_trans fits.previousIndex (by decide))
  · exact Field.Plain.option fun _ _ => .bytes (by decide) (by decide)
  · exact Field.Plain.repeated fun _ _ => .bytes (by decide) (by decide)
  · exact Field.Plain.option fun _ _ => .bytes (by decide) (by decide)
  · exact Field.Plain.uintIfSet (by decide) (by decide)
      (Nat.lt_trans fits.remoteRegistrationId (by decide))
  · exact Field.Plain.uintIfSet (by decide) (by decide)
      (Nat.lt_trans fits.localRegistrationId (by decide))
  · exact Field.Plain.bytesIfSet (by decide) (by decide)
  · exact Field.Plain.option fun _ _ => .bytes (by decide) (by decide)
  · exact Field.Plain.bytesIfSet (by decide) (by decide)

/-- Every field of a state that fits can be written. -/
theorem fields_plain
    {state : State}
    (fits : state.Fits) :
    ∀ field ∈ state.fields, field.Plain := by
  simp only [fields, List.forall_mem_append]
  refine ⟨?_, ?_, innerFields_plain fits⟩
  · exact Field.Plain.uintIfSet (by decide) (by decide)
      (Nat.lt_trans fits.version (by decide))
  · intro field member
    simp only [List.mem_cons, List.not_mem_nil, or_false] at member
    rcases member with rfl | rfl <;> exact .bytes (by decide) (by decide)

/-- A byte value of the record fits a slice when the record does. -/
private theorem part_short
    {state : State}
    {number : Nat}
    {value : Bytes}
    (short : state.serialize.length < 2 ^ 64)
    (member : Field.ofBytes number value ∈ state.innerFields) :
    value.length < 2 ^ 64 := by
  rw [← encodeAll_fields] at short
  apply Nat.lt_of_le_of_lt (length_byteValue_le _) short
  · exact number
  · simp only [fields, List.mem_append]
    exact Or.inr (Or.inr member)

/-- The fields behind the identity keys fill the state of a draft. -/
private theorem foldlM_read
    {fields : List Field}
    (others : ∀ field ∈ fields, 3 < field.number)
    {draft : Draft}
    {after : State}
    (reads : fields.foldlM readField draft.state = .ok after) :
    fields.foldlM Draft.read draft = .ok { draft with state := after } := by
  induction fields generalizing draft with
  | nil =>
      cases reads
      rfl
  | cons field rest inductionHypothesis =>
      obtain ⟨next, stepped, rested⟩ := Outcome.bind_eq_ok.mp reads
      have other := others field (List.mem_cons_self ..)
      have step : draft.read field = .ok { draft with state := next } := by
        unfold Draft.read
        split
        · omega
        · omega
        · simp [stepped]
      rw [List.foldlM_cons, step]
      exact inductionHypothesis
        (fun other member => others other (List.mem_cons_of_mem _ member))
        rested

/-- A field of a known number, whether it is written or left out. -/
private theorem uintIfSet_number
    {number value : Nat}
    {field : Field}
    (member : field ∈ Field.uintIfSet number value) :
    field.number = number := by
  unfold Field.uintIfSet at member
  split_ifs at member
  · rw [List.mem_singleton.mp member]
    rfl
  · cases member

private theorem bytesIfSet_number
    {number : Nat}
    {value : Bytes}
    {field : Field}
    (member : field ∈ Field.bytesIfSet number value) :
    field.number = number := by
  unfold Field.bytesIfSet at member
  split_ifs at member
  · rw [List.mem_singleton.mp member]
    rfl
  · cases member

/-- The identity keys are not among the other fields. -/
private theorem innerFields_number
    {state : State}
    {field : Field}
    (member : field ∈ state.innerFields) :
    3 < field.number := by
  simp only [innerFields, List.mem_append, List.mem_singleton,
    Option.mem_toList, Option.map_eq_some_iff, List.mem_map] at member
  rcases member with rfl | inPrevious | ⟨_, _, rfl⟩ | ⟨_, _, rfl⟩ |
    ⟨_, _, rfl⟩ | inRemote | inLocal | inBase | ⟨_, _, rfl⟩ | inPq
  · simp
  · simp [uintIfSet_number inPrevious]
  · simp
  · simp
  · simp
  · simp [uintIfSet_number inRemote]
  · simp [uintIfSet_number inLocal]
  · simp [bytesIfSet_number inBase]
  · simp
  · simp [bytesIfSet_number inPq]

/-! ### Each field on its own -/

section Reading

variable {state before : State}

/-- An integer field that is left out at zero. -/
private theorem reads_uint
    {number value : Nat}
    (set : Nat → State)
    (small : value < 2 ^ 32)
    (reads :
      readField before (Field.ofUint number value) =
        (do
          let value ← (Field.ofUint number value).uint32OrZero .badSession
          return set value))
    (unset : set 0 = before) :
    (Field.uintIfSet number value).foldlM readField before =
      .ok (set value) := by
  apply foldlM_uintIfSet
  · simp [reads, Field.uint32OrZero_ofUint _ _ small]
  · intro isZero
    rw [isZero, unset]

/-- A byte field that is left out when it is empty. -/
private theorem reads_bytes
    {number : Nat}
    {value : Bytes}
    (set : Bytes → State)
    (reads : readField before (Field.ofBytes number value) = .ok (set value))
    (unset : set [] = before) :
    (Field.bytesIfSet number value).foldlM readField before =
      .ok (set value) := by
  apply foldlM_bytesIfSet
  · exact reads
  · intro isEmpty
    rw [isEmpty, unset]

/-- The index of the lane before. -/
private theorem reads_previousIndex
    (fits : state.Fits)
    (unset : before.previousIndex = 0) :
    (Field.uintIfSet 5 state.previousIndex).foldlM readField before =
      .ok { before with previousIndex := state.previousIndex } :=
  reads_uint (fun value => { before with previousIndex := value })
    fits.previousIndex rfl (by rw [← unset])

/-- The registration id of the other end. -/
private theorem reads_remoteRegistrationId
    (fits : state.Fits)
    (unset : before.remoteRegistrationId = 0) :
    (Field.uintIfSet 10 state.remoteRegistrationId).foldlM readField before =
      .ok { before with remoteRegistrationId := state.remoteRegistrationId } :=
  reads_uint (fun value => { before with remoteRegistrationId := value })
    fits.remoteRegistrationId rfl (by rw [← unset])

/-- The own registration id. -/
private theorem reads_localRegistrationId
    (fits : state.Fits)
    (unset : before.localRegistrationId = 0) :
    (Field.uintIfSet 11 state.localRegistrationId).foldlM readField before =
      .ok { before with localRegistrationId := state.localRegistrationId } :=
  reads_uint (fun value => { before with localRegistrationId := value })
    fits.localRegistrationId rfl (by rw [← unset])

/-- The base key of the session. -/
private theorem reads_base (unset : before.base = []) :
    (Field.bytesIfSet 13 state.base).foldlM readField before =
      .ok { before with base := state.base } :=
  reads_bytes (fun base => { before with base := base }) (by simp [readField])
    (by rw [← unset])

/-- The post-quantum record. -/
private theorem reads_pqState (unset : before.pqState = []) :
    (Field.bytesIfSet 15 state.pqState).foldlM readField before =
      .ok { before with pqState := state.pqState } :=
  reads_bytes (fun pqState => { before with pqState := pqState })
    (by simp [readField]) (by rw [← unset])

/-- The lane to send on, if there is one. -/
private theorem reads_sending
    (fits : state.Fits)
    (keyed : state.Keyed)
    (short : state.serialize.length < 2 ^ 64)
    (absent : before.sending = none) :
    (state.sending.map fun lane => Field.ofBytes 6 lane.write).toList.foldlM
        readField before =
      .ok { before with sending := state.sending } := by
  apply foldlM_option readField _
    fun sending => { before with sending := sending }
  · intro lane isSending
    have laneShort : lane.write.length < 2 ^ 64 := by
      refine @part_short _ 6 _ short ?_
      simp [innerFields, isSending]
    simp [readField, keyed.carries lane isSending,
      Lane.parse_write (fits.sending lane isSending)
        (keyed.sending lane isSending) laneShort]
  · rw [← absent]

/-- The receiving lanes, one behind the other. -/
private theorem reads_receiving
    (fits : state.Fits)
    (keyed : state.Keyed)
    (short : state.serialize.length < 2 ^ 64)
    (absent : before.receiving = []) :
    (state.receiving.map fun lane => Field.ofBytes 7 lane.write).foldlM
        readField before =
      .ok { before with receiving := state.receiving } := by
  have whole : { before with receiving := [] } = before := by
    rw [← absent]
  have reads :
      (state.receiving.map fun lane => Field.ofBytes 7 lane.write).foldlM
          readField { before with receiving := [] } =
        .ok { before with receiving := state.receiving } := by
    refine foldlM_repeated readField _
      (fun receiving => { before with receiving := receiving }) ?_ []
    intro lane member earlier
    have laneShort : lane.write.length < 2 ^ 64 := by
      refine @part_short _ 7 _ short ?_
      simp only [innerFields, List.mem_append, List.mem_map]
      exact Or.inr (Or.inr (Or.inr (Or.inl ⟨lane, member, rfl⟩)))
    simp [readField, Lane.parse_write (fits.receiving lane member)
      (keyed.receiving lane member) laneShort]
  rwa [whole] at reads

/-- The pending handshake, if there is one. -/
private theorem reads_pending
    (fits : state.Fits)
    (short : state.serialize.length < 2 ^ 64)
    (absent : before.pending = none) :
    (state.pending.map fun pending =>
        Field.ofBytes 9 pending.write).toList.foldlM readField before =
      .ok { before with pending := state.pending } := by
  apply foldlM_option readField _
    fun pending => { before with pending := pending }
  · intro value isPending
    have valueShort : value.write.length < 2 ^ 64 := by
      refine @part_short _ 9 _ short ?_
      simp [innerFields, isPending]
    simp [readField,
      PendingHandshake.parse_write (fits.pending value isPending) valueShort]
  · rw [← absent]

/-- The pending capsule, if there is one. -/
private theorem reads_pendingCapsule
    (fits : state.Fits)
    (short : state.serialize.length < 2 ^ 64)
    (absent : before.pendingCapsule = none) :
    (state.pendingCapsule.map fun pending =>
        Field.ofBytes 14 pending.write).toList.foldlM readField before =
      .ok { before with pendingCapsule := state.pendingCapsule } := by
  apply foldlM_option readField _
    fun capsule => { before with pendingCapsule := capsule }
  · intro value isCapsule
    have valueShort : value.write.length < 2 ^ 64 := by
      refine @part_short _ 14 _ short ?_
      simp [innerFields, isCapsule]
    simp [readField, setPendingCapsule,
      PendingCapsule.read_write (fits.pendingCapsule value isCapsule)
        valueShort]
  · rw [← absent]

end Reading

/-- The fields behind the identity keys read back one after the other. -/
private theorem reads_innerFields
    {state : State}
    (fits : state.Fits)
    (keyed : state.Keyed)
    (short : state.serialize.length < 2 ^ 64)
    (localKey remoteKey : Curve.Public) :
    state.innerFields.foldlM readField
        (init state.version localKey remoteKey (Block.zero 32) [] []) =
      .ok { state with localKey := localKey, remoteKey := remoteKey } := by
  have rootReads :
      [Field.ofBytes 4 state.root.bytes].foldlM readField
          (init state.version localKey remoteKey (Block.zero 32) [] []) =
        .ok (init state.version localKey remoteKey state.root [] []) := by
    simp [readField, init]
  rw [innerFields, foldlM_append_ok rootReads,
    foldlM_append_ok (reads_previousIndex fits rfl),
    foldlM_append_ok (reads_sending fits keyed short rfl),
    foldlM_append_ok (reads_receiving fits keyed short rfl),
    foldlM_append_ok (reads_pending fits short rfl),
    foldlM_append_ok (reads_remoteRegistrationId fits rfl),
    foldlM_append_ok (reads_localRegistrationId fits rfl),
    foldlM_append_ok (reads_base rfl),
    foldlM_append_ok (reads_pendingCapsule fits short rfl),
    reads_pqState rfl]
  rfl

/-- A state survives its record. -/
theorem parse_serialize
    {state : State}
    (fits : state.Fits)
    (keyed : state.Keyed)
    (short : state.serialize.length < 2 ^ 64) :
    parse state.serialize = .ok state := by
  have plain := fields_plain fits
  have recordShort := short
  rw [← encodeAll_fields] at recordShort ⊢
  have versionReads :
      (Field.uintIfSet 1 state.version).foldlM Draft.read Draft.empty =
        .ok ⟨none, none, init state.version ⟨Block.zero 32⟩ ⟨Block.zero 32⟩
          (Block.zero 32) [] []⟩ := by
    apply foldlM_uintIfSet
    · simp [Draft.read, Draft.empty, readField, init,
        Field.uint32OrZero_ofUint _ _ fits.version]
    · intro isZero
      rw [isZero]
      rfl
  have keysRead :
      [Field.ofBytes 2 state.localKey.serialize,
          Field.ofBytes 3 state.remoteKey.serialize].foldlM Draft.read
          ⟨none, none, init state.version ⟨Block.zero 32⟩ ⟨Block.zero 32⟩
            (Block.zero 32) [] []⟩ =
        .ok ⟨state.localKey, state.remoteKey,
          init state.version ⟨Block.zero 32⟩ ⟨Block.zero 32⟩
            (Block.zero 32) [] []⟩ := by
    simp [Draft.read]
  have innerReads :=
    @foldlM_read state.innerFields (fun _ => innerFields_number)
      ⟨state.localKey, state.remoteKey,
        init state.version ⟨Block.zero 32⟩ ⟨Block.zero 32⟩
          (Block.zero 32) [] []⟩ _
      (reads_innerFields fits keyed short ⟨Block.zero 32⟩ ⟨Block.zero 32⟩)
  rw [parse, fold_plain _ Draft.read plain recordShort, fields,
    foldlM_append_ok versionReads, foldlM_append_ok keysRead, innerReads]
  rfl

/-! ## What a parser returns -/

/-- What a parser keeps of the state it fills. -/
structure Sound (state : State) : Prop where
  fits : state.Fits
  keyed : state.Keyed

/-- A new state can be written. -/
theorem sound_init
    {version : Nat}
    (localKey remoteKey : Curve.Public)
    (root : Block 32)
    (base pqState : Bytes)
    (small : version < 2 ^ 32) :
    (init version localKey remoteKey root base pqState).Sound where
  fits := {
    version := small
    previousIndex := Nat.two_pow_pos 32
    sending := by simp [init]
    receiving := by simp [init]
    pending := by simp [init]
    pendingCapsule := by simp [init]
    remoteRegistrationId := Nat.two_pow_pos 32
    localRegistrationId := Nat.two_pow_pos 32
  }
  keyed := {
    carries := by simp [init]
    sending := by simp [init]
    receiving := by simp [init]
  }

/-- Reading keeps a state that can be written. -/
theorem readField_sound
    {state next : State}
    {field : Field}
    (sound : state.Sound)
    (read : state.readField field = .ok next) :
    next.Sound := by
  obtain ⟨fits, keyed⟩ := sound
  unfold readField at read
  split at read <;>
    simp only [Outcome.bind_eq_ok, Outcome.pure_eq, Outcome.ok.injEq] at read
  · obtain ⟨version, isVersion, rfl⟩ := read
    exact ⟨{ fits with version := Field.uint32OrZero_lt isVersion },
      { keyed with }⟩
  · obtain ⟨root, _, rfl⟩ := read
    exact ⟨{ fits with }, { keyed with }⟩
  · obtain ⟨index, isIndex, rfl⟩ := read
    exact ⟨{ fits with previousIndex := Field.uint32OrZero_lt isIndex },
      { keyed with }⟩
  · obtain ⟨data, _, lane, isLane, rest⟩ := read
    obtain ⟨laneFits, laneClamped⟩ := Lane.parse_keeps isLane
    split_ifs at rest with noSecret
    cases rest
    refine ⟨{ fits with sending := ?_ },
      { keyed with carries := ?_, sending := ?_ }⟩
    all_goals
      rintro _ ⟨⟩
      assumption
  · obtain ⟨data, _, lane, isLane, rfl⟩ := read
    obtain ⟨laneFits, laneClamped⟩ := Lane.parse_keeps isLane
    refine ⟨{ fits with receiving := ?_ }, { keyed with receiving := ?_ }⟩
    · simpa [List.forall_mem_append, or_imp, forall_and] using
        ⟨fits.receiving, laneFits⟩
    · simpa [List.forall_mem_append, or_imp, forall_and] using
        ⟨keyed.receiving, laneClamped⟩
  · obtain ⟨data, _, pending, isPending, rfl⟩ := read
    refine ⟨{ fits with pending := ?_ }, { keyed with }⟩
    rintro _ ⟨⟩
    exact PendingHandshake.parse_fits isPending
  · obtain ⟨id, isId, rfl⟩ := read
    exact ⟨{ fits with remoteRegistrationId := Field.uint32OrZero_lt isId },
      { keyed with }⟩
  · obtain ⟨id, isId, rfl⟩ := read
    exact ⟨{ fits with localRegistrationId := Field.uint32OrZero_lt isId },
      { keyed with }⟩
  · obtain ⟨base, _, rfl⟩ := read
    exact ⟨{ fits with }, { keyed with }⟩
  · obtain ⟨data, _, pending, isPending, rfl⟩ := read
    have pendingFits : pending.Fits :=
      @fold_preserves _ _ _ _ PendingCapsule.Fits
        PendingCapsule.readField_fits _ ⟨0, []⟩ _
        (show 0 < 2 ^ 32 by decide) isPending
    refine ⟨{ fits with pendingCapsule := ?_ }, { keyed with }⟩
    rintro _ ⟨⟩
    exact pendingFits
  · obtain ⟨pqState, _, rfl⟩ := read
    exact ⟨{ fits with }, { keyed with }⟩
  · cases read
    exact ⟨fits, keyed⟩

/-- So does reading the identity keys aside. -/
theorem Draft.read_sound
    {draft next : Draft}
    {field : Field}
    (sound : draft.state.Sound)
    (read : draft.read field = .ok next) :
    next.state.Sound := by
  unfold Draft.read at read
  split at read <;>
    simp only [Outcome.bind_eq_ok, Outcome.pure_eq, Outcome.ok.injEq] at read
  · obtain ⟨_, _, _, _, rfl⟩ := read
    exact sound
  · obtain ⟨_, _, _, _, rfl⟩ := read
    exact sound
  · obtain ⟨state, stepped, rfl⟩ := read
    exact readField_sound sound stepped

/-- A parsed state can be written and read again. -/
theorem parse_sound
    {data : Bytes}
    {state : State}
    (read : parse data = .ok state) :
    state.Sound := by
  obtain ⟨draft, folded, finished⟩ := Outcome.bind_eq_ok.mp read
  have sound : draft.state.Sound :=
    @fold_preserves _ _ _ _ (fun draft => draft.state.Sound)
      Draft.read_sound data Draft.empty draft
      (sound_init _ _ _ _ _ (by decide)) folded
  simp only [Draft.finish, Outcome.bind_eq_ok, Outcome.pure_eq,
    Outcome.ok.injEq] at finished
  obtain ⟨localKey, _, remoteKey, _, rfl⟩ := finished
  exact ⟨{ sound.fits with }, { sound.keyed with }⟩

end State

end Ratchet

end Gossveil
