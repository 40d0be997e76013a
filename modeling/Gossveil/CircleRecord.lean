import Gossveil.CircleMembers
import Gossveil.SessionRecord

namespace Gossveil

open Codec

/-!
# A circle survives its record

The members are written newest first, each with its link, its signing keys and
the keys it has skipped, the oldest first.  Zero steps, chain ids and versions
are left out and are what a parser starts from.
-/

namespace Codec

/-- Parts of bounded size, one after the other. -/
theorem length_flatMap_le
    {α : Type}
    {items : List α}
    {write : α → Bytes}
    {bound : Nat}
    (each : ∀ item ∈ items, (write item).length ≤ bound) :
    (items.flatMap write).length ≤ items.length * bound := by
  rw [List.length_flatMap]
  have total := List.sum_le_card_nsmul (items.map fun item => (write item).length) bound
  simp only [List.length_map, smul_eq_mul] at total
  apply total
  intro size member
  obtain ⟨item, inside, rfl⟩ := List.mem_map.mp member
  exact each item inside

end Codec

namespace Circle

/-! ## Writing and parsing -/

/-- The nested message of a link and of a skipped key. -/
def writeStep (step : Nat) (seed : Block 32) : Bytes :=
  Writer.uintIfSet 1 step ++ Writer.bytes 2 seed.bytes

/-- One turn of the loop over a link or a skipped key. -/
def readStep
    (state : Nat × Block 32)
    (field : Field) :
    Outcome Fault (Nat × Block 32) :=
  match field.number with
  | 1 => do
      let step ← field.uint32OrZero .badSession
      return (step, state.2)
  | 2 => .ok (state.1, (Ratchet.Slot.blockIfWhole 32 field).getD state.2)
  | _ => .ok state

/-- The nested message of the signing keys. -/
def writeKeys
    (signing : Curve.Public)
    (signingSecret : Option Curve.Secret) :
    Bytes :=
  Writer.bytes 1 signing.serialize ++
    (match signingSecret with
      | some secret => Writer.bytes 2 secret.serialize
      | none => [])

/-- One turn of the loop over the signing keys. -/
def readKeys
    (state : Option Curve.Public × Option Curve.Secret)
    (field : Field) :
    Outcome Fault (Option Curve.Public × Option Curve.Secret) :=
  match field.number with
  | 1 => do
      let data ← field.bytesOr .badSession
      let signing ← Curve.Public.parse data
      return (some signing, state.2)
  | 2 =>
      match field.bytes with
      | none => .ok state
      | some data =>
          if data.length ≠ 0 then do
            let secret ← Curve.Secret.parse data
            return (state.1, some secret)
          else
            .ok state
  | _ => .ok state

namespace Member

/-- The record of a chain. -/
def write (member : Member) : Bytes :=
  Writer.uintIfSet 1 member.chainId ++
    Writer.embed 2 (writeStep member.link.step member.link.seed) ++
    Writer.embed 3 (writeKeys member.signing member.signingSecret) ++
    (member.skipped.flatMap fun yielded =>
      Writer.embed 4 (writeStep yielded.step yielded.seed)) ++
    Writer.uintIfSet 5 member.version

/-- What the fields of a chain have said so far. -/
structure Draft where
  version : Nat
  chainId : Nat
  link : Nat × Block 32
  keys : Option Curve.Public × Option Curve.Secret
  skipped : List Yield

/-- What is known before the first field. -/
def Draft.empty : Draft :=
  ⟨0, 0, (0, Block.zero 32), (none, none), []⟩

/-- A repeated link or key message is read over the one before it. -/
def Draft.read (draft : Draft) (field : Field) : Outcome Fault Draft :=
  match field.number with
  | 1 => do
      let chainId ← field.uint32OrZero .badSession
      return { draft with chainId := chainId }
  | 2 => do
      let data ← field.bytesOr .badSession
      let link ← Codec.fold .badSession readStep data draft.link
      return { draft with link := link }
  | 3 => do
      let data ← field.bytesOr .badSession
      let keys ← Codec.fold .badSession readKeys data draft.keys
      return { draft with keys := keys }
  | 4 => do
      let data ← field.bytesOr .badSession
      let (step, seed) ←
        Codec.fold .badSession readStep data (0, Block.zero 32)
      return { draft with skipped := draft.skipped ++ [⟨step, seed⟩] }
  | 5 => do
      let version ← field.uint32OrZero .badSession
      return { draft with version := version }
  | _ => .ok draft

/-- A chain has a signing key; its secret need not be there. -/
def Draft.finish (draft : Draft) : Outcome Fault Member := do
  let signing ← Outcome.ofOption .badSession draft.keys.1
  return ⟨draft.version, draft.chainId, ⟨draft.link.1, draft.link.2⟩,
    signing, draft.keys.2, draft.skipped⟩

/-- Reads a chain from its record. -/
def parse (data : Bytes) : Outcome Fault Member := do
  let draft ← Codec.fold .badSession Draft.read data Draft.empty
  draft.finish

end Member

/-- The record of a circle, chain by chain. -/
def serialize (circle : Circle) : Bytes :=
  circle.members.flatMap fun member => Writer.embed 1 member.write

/-- One turn of the loop over the members. -/
def readMember (circle : Circle) (field : Field) : Outcome Fault Circle :=
  if field.number ≠ 1 then
    .ok circle
  else do
    let data ← field.bytesOr .badSession
    let member ← Member.parse data
    return ⟨circle.members ++ [member]⟩

/-- Reads a circle from its record. -/
def parse (data : Bytes) : Outcome Fault Circle :=
  Codec.fold .badSession readMember data init

/-! ## What can be written -/

/-- The integers fit their types and a secret is held clamped. -/
structure Member.Storable (member : Member) : Prop where
  version : member.version < 2 ^ 32
  chainId : member.chainId < 2 ^ 32
  step : member.link.step < 2 ^ 32
  clamped :
    ∀ secret, member.signingSecret = some secret → secret.Clamped
  skippedSteps : ∀ yielded ∈ member.skipped, yielded.step < 2 ^ 32
  fewSkipped : member.skipped.length ≤ maxSkipped

/-- Every chain fits its record, and there are not too many. -/
structure Storable (circle : Circle) : Prop where
  members : ∀ member ∈ circle.members, member.Storable
  few : circle.members.length ≤ maxMembers

theorem length_writeStep_le (step : Nat) (seed : Block 32) :
    (writeStep step seed).length ≤ 72 := by
  have number := Writer.length_uintIfSet_le 1 step
  have block := Writer.length_bytes_le 2 seed.bytes
  rw [seed.length_bytes] at block
  rw [writeStep, List.length_append]
  omega

theorem length_writeKeys_le
    (signing : Curve.Public)
    (signingSecret : Option Curve.Secret) :
    (writeKeys signing signingSecret).length ≤ 105 := by
  have publicKey := Writer.length_bytes_le 1 signing.serialize
  rw [Curve.Public.length_serialize, Curve.serializedLength] at publicKey
  unfold writeKeys
  rw [List.length_append]
  cases signingSecret with
  | none =>
      simp only [List.length_nil]
      omega
  | some secret =>
      have secretKey := Writer.length_bytes_le 2 secret.serialize
      rw [Curve.Secret.serialize, secret.scalar.length_bytes] at secretKey
      simp only [Curve.Secret.serialize]
      omega

/-- The record of a chain is bounded. -/
theorem Member.length_write_le
    {member : Member}
    (storable : member.Storable) :
    member.write.length ≤ 2 ^ 20 := by
  have chain := Writer.length_uintIfSet_le 1 member.chainId
  have version := Writer.length_uintIfSet_le 5 member.version
  have link := length_writeStep_le member.link.step member.link.seed
  have linkEmbedded :=
    Writer.length_bytes_le 2 (writeStep member.link.step member.link.seed)
  have keys := length_writeKeys_le member.signing member.signingSecret
  have keysEmbedded :=
    Writer.length_bytes_le 3
      (writeKeys member.signing member.signingSecret)
  have skipped :
      (member.skipped.flatMap fun yielded =>
          Writer.embed 4 (writeStep yielded.step yielded.seed)).length ≤
        member.skipped.length * 92 := by
    apply length_flatMap_le
    intro yielded _
    have inner := length_writeStep_le yielded.step yielded.seed
    have outer :=
      Writer.length_bytes_le 4 (writeStep yielded.step yielded.seed)
    rw [Writer.embed]
    omega
  have few := storable.fewSkipped
  rw [maxSkipped] at few
  simp only [write, Writer.embed, List.length_append] at *
  omega

/-- So is that of a circle. -/
theorem length_serialize_le
    {circle : Circle}
    (storable : circle.Storable) :
    circle.serialize.length ≤ 2 ^ 24 := by
  have each :
      circle.serialize.length ≤ circle.members.length * (2 ^ 20 + 20) := by
    apply length_flatMap_le
    intro member inside
    exact Nat.le_trans (Writer.length_bytes_le 1 member.write)
      (Nat.add_le_add_right
        (Member.length_write_le (storable.members member inside)) 20)
  have few := storable.few
  rw [maxMembers] at few
  omega

/-! ## Reading back -/

/-- The fields of a step and its seed. -/
def stepFields (step : Nat) (seed : Block 32) : List Field :=
  Field.uintIfSet 1 step ++ [Field.ofBytes 2 seed.bytes]

/-- The record of a step is that of its fields. -/
theorem encodeAll_stepFields (step : Nat) (seed : Block 32) :
    encodeAll (stepFields step seed) = writeStep step seed := by
  simp [stepFields, writeStep]

/-- A step is read over the default, so a zero may be left out. -/
theorem readStep_writeStep
    {step : Nat}
    (fits : step < 2 ^ 32)
    (seed : Block 32) :
    Codec.fold Fault.badSession readStep (writeStep step seed)
        (0, Block.zero 32) =
      .ok (step, seed) := by
  have plain : ∀ field ∈ stepFields step seed, field.Plain := by
    simp only [stepFields, List.forall_mem_append]
    constructor
    · exact Field.Plain.uintIfSet (by decide) (by decide)
        (Nat.lt_trans fits (by decide))
    · simpa using Field.Plain.bytes (by decide) (by decide)
  have short : (encodeAll (stepFields step seed)).length < 2 ^ 64 := by
    rw [encodeAll_stepFields]
    exact Nat.lt_of_le_of_lt (length_writeStep_le step seed) (by decide)
  have stepReads :
      (Field.uintIfSet 1 step).foldlM readStep (0, Block.zero 32) =
        .ok (step, Block.zero 32) := by
    apply foldlM_uintIfSet
    · simp [readStep, Field.uint32OrZero_ofUint _ _ fits]
    · intro isZero
      rw [isZero]
  rw [← encodeAll_stepFields, fold_plain _ readStep plain short, stepFields,
    foldlM_append_ok stepReads]
  simp [readStep]

/-- The fields of the signing keys. -/
def keyFields
    (signing : Curve.Public)
    (signingSecret : Option Curve.Secret) :
    List Field :=
  [Field.ofBytes 1 signing.serialize] ++
    (signingSecret.map fun secret =>
      Field.ofBytes 2 secret.serialize).toList

/-- The record of the keys is that of their fields. -/
theorem encodeAll_keyFields
    (signing : Curve.Public)
    (signingSecret : Option Curve.Secret) :
    encodeAll (keyFields signing signingSecret) =
      writeKeys signing signingSecret := by
  cases signingSecret <;> simp [keyFields, writeKeys]

/-- The signing keys survive their record. -/
theorem readKeys_writeKeys
    (signing : Curve.Public)
    {signingSecret : Option Curve.Secret}
    (clamped : ∀ secret, signingSecret = some secret → secret.Clamped) :
    Codec.fold Fault.badSession readKeys (writeKeys signing signingSecret)
        (none, none) =
      .ok (some signing, signingSecret) := by
  have plain : ∀ field ∈ keyFields signing signingSecret, field.Plain := by
    simp only [keyFields, List.forall_mem_append]
    constructor
    · simpa using Field.Plain.bytes (by decide) (by decide)
    · exact Field.Plain.option fun _ _ => .bytes (by decide) (by decide)
  have short :
      (encodeAll (keyFields signing signingSecret)).length < 2 ^ 64 := by
    rw [encodeAll_keyFields]
    exact Nat.lt_of_le_of_lt (length_writeKeys_le signing signingSecret)
      (by decide)
  have signingReads :
      [Field.ofBytes 1 signing.serialize].foldlM readKeys (none, none) =
        .ok (some signing, none) := by
    simp [readKeys]
  have secretReads :
      (signingSecret.map fun secret =>
          Field.ofBytes 2 secret.serialize).toList.foldlM readKeys
          (some signing, none) =
        .ok (some signing, signingSecret) := by
    apply foldlM_option readKeys _ (fun secret => (some signing, secret))
    · intro secret isSecret
      have parses := Curve.Secret.parse_serialize (clamped secret isSecret)
      have whole : secret.serialize.length ≠ 0 := by
        rw [Curve.Secret.serialize, secret.scalar.length_bytes]
        decide
      simp only [readKeys, Field.number_ofBytes, Field.bytes_ofBytes,
        if_pos whole, parses]
      rfl
    · rfl
  rw [← encodeAll_keyFields, fold_plain _ readKeys plain short, keyFields,
    foldlM_append_ok signingReads, secretReads]

namespace Member

/-- The fields that `write` writes. -/
def fields (member : Member) : List Field :=
  Field.uintIfSet 1 member.chainId ++
    ([Field.ofBytes 2 (writeStep member.link.step member.link.seed),
        Field.ofBytes 3 (writeKeys member.signing member.signingSecret)] ++
      ((member.skipped.map fun yielded =>
          Field.ofBytes 4 (writeStep yielded.step yielded.seed)) ++
        Field.uintIfSet 5 member.version))

/-- The record is that of the fields. -/
theorem encodeAll_fields (member : Member) :
    encodeAll member.fields = member.write := by
  have skipped :
      encodeAll (member.skipped.map fun yielded =>
          Field.ofBytes 4 (writeStep yielded.step yielded.seed)) =
        member.skipped.flatMap fun yielded =>
          Writer.embed 4 (writeStep yielded.step yielded.seed) := by
    rw [encodeAll, List.flatMap_map]
    rfl
  simp [fields, write, skipped, Writer.embed]

/-- Every field of a chain that fits can be written. -/
theorem fields_plain
    {member : Member}
    (storable : member.Storable) :
    ∀ field ∈ member.fields, field.Plain := by
  simp only [fields, List.forall_mem_append, List.forall_mem_cons]
  refine ⟨?_, ⟨.bytes (by decide) (by decide),
    .bytes (by decide) (by decide), by simp⟩,
    Field.Plain.repeated fun _ _ => .bytes (by decide) (by decide), ?_⟩
  · exact Field.Plain.uintIfSet (by decide) (by decide)
      (Nat.lt_trans storable.chainId (by decide))
  · exact Field.Plain.uintIfSet (by decide) (by decide)
      (Nat.lt_trans storable.version (by decide))

/-- A member is read back with its skipped keys in their order. -/
theorem parse_write
    {member : Member}
    (storable : member.Storable) :
    parse member.write = .ok member := by
  have plain := fields_plain storable
  have short : (encodeAll member.fields).length < 2 ^ 64 := by
    rw [encodeAll_fields]
    exact Nat.lt_of_le_of_lt (length_write_le storable) (by decide)
  obtain ⟨version, chainId, ⟨step, seed⟩, signing, secret, skipped⟩ := member
  have chainReads :
      (Field.uintIfSet 1 chainId).foldlM Draft.read Draft.empty =
        .ok { Draft.empty with chainId := chainId } := by
    apply foldlM_uintIfSet
    · simp [Draft.read, Field.uint32OrZero_ofUint _ _ storable.chainId]
    · intro isZero
      rw [isZero]
      rfl
  have linkAndKeysRead :
      [Field.ofBytes 2 (writeStep step seed),
          Field.ofBytes 3 (writeKeys signing secret)].foldlM Draft.read
          { Draft.empty with chainId := chainId } =
        .ok ⟨0, chainId, (step, seed), (some signing, secret), []⟩ := by
    simp [Draft.read, Draft.empty,
      readStep_writeStep storable.step seed,
      readKeys_writeKeys signing storable.clamped]
  have skippedRead :
      (skipped.map fun yielded =>
          Field.ofBytes 4 (writeStep yielded.step yielded.seed)).foldlM
          Draft.read
          ⟨0, chainId, (step, seed), (some signing, secret), []⟩ =
        .ok ⟨0, chainId, (step, seed), (some signing, secret), skipped⟩ := by
    apply foldlM_repeated Draft.read _
      (fun skipped =>
        ⟨0, chainId, (step, seed), (some signing, secret), skipped⟩) _ []
    intro yielded inside before
    simp [Draft.read,
      readStep_writeStep (storable.skippedSteps yielded inside)]
  have versionReads :
      (Field.uintIfSet 5 version).foldlM Draft.read
          ⟨0, chainId, (step, seed), (some signing, secret), skipped⟩ =
        .ok ⟨version, chainId, (step, seed), (some signing, secret),
          skipped⟩ := by
    apply foldlM_uintIfSet
    · simp [Draft.read, Field.uint32OrZero_ofUint _ _ storable.version]
    · intro isZero
      rw [isZero]
  rw [← encodeAll_fields, parse, fold_plain _ Draft.read plain short, fields,
    foldlM_append_ok chainReads, foldlM_append_ok linkAndKeysRead,
    foldlM_append_ok skippedRead, versionReads]
  rfl

end Member

/-- A circle that can be written is read back, its members in their order. -/
theorem parse_serialize
    {circle : Circle}
    (storable : circle.Storable) :
    parse circle.serialize = .ok circle := by
  have shape :
      encodeAll (circle.members.map fun member =>
          Field.ofBytes 1 member.write) =
        circle.serialize := by
    rw [encodeAll, List.flatMap_map]
    rfl
  have plain :
      ∀ field ∈ circle.members.map fun member =>
          Field.ofBytes 1 member.write,
        field.Plain :=
    Field.Plain.repeated fun _ _ => .bytes (by decide) (by decide)
  have short :
      (encodeAll (circle.members.map fun member =>
        Field.ofBytes 1 member.write)).length < 2 ^ 64 := by
    rw [shape]
    exact Nat.lt_of_le_of_lt (length_serialize_le storable) (by decide)
  rw [parse, ← shape, fold_plain _ readMember plain short]
  apply foldlM_repeated readMember _ Circle.mk _ []
  intro member inside before
  simp [readMember, Member.parse_write (storable.members member inside)]

/-! ## Every circle of a run can be written -/

namespace Member.Storable

/-- A member whose chain moved to a step and that keeps some keys. -/
theorem moved
    {member : Member}
    (storable : member.Storable)
    {link : Link}
    {skipped : List Yield}
    (step : link.step < 2 ^ 32)
    (steps : ∀ yielded ∈ skipped, yielded.step < 2 ^ 32)
    (few : skipped.length ≤ maxSkipped) :
    { member with link := link, skipped := skipped }.Storable :=
  ⟨storable.version, storable.chainId, step, storable.clamped, steps, few⟩

/-- Keeping a key keeps a chain that can be written. -/
theorem keepSkipped
    {member : Member}
    (storable : member.Storable)
    {yielded : Yield}
    (fits : yielded.step < 2 ^ 32) :
    (member.keepSkipped yielded).Storable := by
  apply storable.moved storable.step
  · intro kept inside
    have inAll := List.mem_of_mem_drop inside
    rcases List.mem_append.mp inAll with before | isNew
    · exact storable.skippedSteps kept before
    · obtain rfl := List.mem_singleton.mp isNew
      exact fits
  · rw [List.length_drop]
    omega

theorem foldl_keepSkipped
    [Hashes]
    {passed : List Link}
    (fits : ∀ link ∈ passed, link.step < 2 ^ 32)
    {member : Member}
    (storable : member.Storable) :
    (passed.foldl (·.keepSkipped ·.yield) member).Storable := by
  induction passed generalizing member with
  | nil => exact storable
  | cons link rest inductionHypothesis =>
      obtain ⟨first, later⟩ := List.forall_mem_cons.mp fits
      rw [List.foldl_cons]
      apply inductionHypothesis later
      apply storable.keepSkipped
      simpa only [Link.yield] using first

end Member.Storable

/-- Every link a walk passes has a step before the last one. -/
theorem step_of_walk
    [Hashes]
    {distance : Nat}
    {link reached : Link}
    {passed : List Link}
    (walked : link.walk distance = .ok (passed, reached)) :
    ∀ between ∈ passed, between.step < 2 ^ 32 := by
  induction distance generalizing link passed with
  | zero =>
      cases walked
      simp
  | succ distance inductionHypothesis =>
      obtain ⟨next, advanced, rest⟩ := Outcome.bind_eq_ok.mp walked
      obtain ⟨⟨later, last⟩, walkedOn, done⟩ := Outcome.bind_eq_ok.mp rest
      have inRange := (Link.advance_eq_ok.mp advanced).1
      cases done
      simp only [List.forall_mem_cons]
      exact ⟨Nat.lt_of_succ_lt inRange, inductionHypothesis walkedOn⟩

section Runs

variable [Hashes] [Curves] [Aes]

omit [Curves] [Aes] in
/-- Drawing a key keeps a chain that can be written. -/
theorem yieldFor_storable
    {member changed : Member}
    (storable : member.Storable)
    {step : Nat}
    {yielded : Yield}
    (drew : yieldFor member step = .ok (yielded, changed)) :
    changed.Storable := by
  unfold yieldFor Member.takeSkipped at drew
  split_ifs at drew with behind far
  · cases search : member.skipped.find? (·.step = step) with
    | none => simp [search] at drew
    | some found =>
        simp only [search, Outcome.ok.injEq, Prod.mk.injEq] at drew
        obtain ⟨_, rfl⟩ := drew
        apply storable.moved storable.step
        · intro kept inside
          exact storable.skippedSteps kept (List.mem_of_mem_eraseP inside)
        · exact Nat.le_trans (List.length_eraseP_le ..) storable.fewSkipped
  · obtain ⟨⟨passed, reached⟩, walked, rest⟩ := Outcome.bind_eq_ok.mp drew
    obtain ⟨link, advanced, done⟩ := Outcome.bind_eq_ok.mp rest
    obtain ⟨inRange, rfl⟩ := Link.advance_eq_ok.mp advanced
    have kept := storable.foldl_keepSkipped (step_of_walk walked)
    simp only [Outcome.pure_eq, Outcome.ok.injEq, Prod.mk.injEq] at done
    obtain ⟨_, rfl⟩ := done
    exact kept.moved inRange kept.skippedSteps kept.fewSkipped

/-- Sealing keeps a chain that can be written. -/
theorem sealFor_storable
    {member changed : Member}
    (storable : member.Storable)
    {circleId : Block 16}
    {plain bytes : Bytes}
    {nonce : Block 64}
    (made : sealFor member circleId plain nonce = .ok (bytes, changed)) :
    changed.Storable ∧ changed.chainId = member.chainId := by
  obtain ⟨signer, _, rest⟩ := Outcome.bind_eq_ok.mp made
  obtain ⟨version, _, rest⟩ := Outcome.bind_eq_ok.mp rest
  obtain ⟨note, _, rest⟩ := Outcome.bind_eq_ok.mp rest
  obtain ⟨link, advanced, done⟩ := Outcome.bind_eq_ok.mp rest
  obtain ⟨inRange, rfl⟩ := Link.advance_eq_ok.mp advanced
  cases done
  exact ⟨storable.moved inRange storable.skippedSteps storable.fewSkipped,
    rfl⟩

namespace Storable

omit [Hashes] [Curves] [Aes] in
/-- Changing a chain keeps a circle that can be written. -/
theorem store
    {circle : Circle}
    (storable : circle.Storable)
    (sound : circle.Sound)
    {old changed : Member}
    (present : old ∈ circle.members)
    (same : changed.chainId = old.chainId)
    (changedStorable : changed.Storable) :
    (circle.store changed).Storable := by
  constructor
  · intro member inside
    rcases (replaceF_spec sound.chains present same).2 member inside with
      rfl | ⟨before, _⟩
    · exact changedStorable
    · exact storable.members member before
  · rw [Circle.store, List.length_replaceF]
    exact storable.few

omit [Hashes] [Curves] [Aes] in
/-- Admitting keeps a circle that can be written. -/
theorem admitMember
    {circle : Circle}
    (storable : circle.Storable)
    {fresh : Member}
    (freshStorable : fresh.Storable) :
    (circle.admitMember fresh).Storable := by
  have front : (circle.admitted fresh).Storable := by
    unfold admitted
    cases search : circle.members.find? fun member =>
        member.chainId = fresh.chainId ∧ member.signing = fresh.signing with
    | none => exact freshStorable
    | some kept =>
        exact storable.members kept (List.mem_of_find?_eq_some search)
  constructor
  · rw [members_admitMember]
    simp only [List.forall_mem_cons]
    refine ⟨front, ?_⟩
    intro member inside
    exact storable.members member
      (List.mem_of_mem_filter (List.mem_of_mem_take inside))
  · rw [members_admitMember, List.length_cons]
    exact Nat.succ_le_succ (List.length_take_le _ _)

omit [Hashes] [Aes] in
/-- Drawing a chain keeps a circle that can be written. -/
theorem withChain
    {circle reached : Circle}
    (storable : circle.Storable)
    {draw : Draw}
    (made : circle.withChain draw = .ok reached) :
    reached.Storable := by
  unfold Circle.withChain at made
  cases newest : circle.newest with
  | some member =>
      rw [newest] at made
      cases made
      exact storable
  | none =>
      rw [newest] at made
      obtain ⟨pair, drawn, done⟩ := Outcome.bind_eq_ok.mp made
      cases done
      obtain ⟨publicKey, _, isPair⟩ := Outcome.bind_eq_ok.mp drawn
      cases isPair
      apply storable.admitMember
      have chainFits := Codec.Reader.littleEndian_lt draw.chainId.bytes
      rw [draw.chainId.length_bytes] at chainFits
      refine ⟨show currentVersion < 2 ^ 32 by decide, chainFits,
        Nat.two_pow_pos 32, ?_, by simp, Nat.zero_le _⟩
      rintro secret ⟨⟩
      exact Curve.Secret.clamped_fromRaw draw.signing

/-- The step lemma: one call of a run keeps a circle one that can be written. -/
theorem perform
    {circle : Circle}
    (storable : circle.Storable)
    (sound : circle.Sound)
    {call : Call}
    (legal : call.Legal) :
    (circle.perform call).1.Storable := by
  cases call with
  | announce circleId draw =>
      simp only [Circle.perform, announce]
      cases made : circle.withChain draw with
      | ok reached => exact storable.withChain made
      | error fault => exact storable
      | trap => exact storable
  | admitAnnounce announcement =>
      obtain ⟨data, read⟩ := legal
      have parsed := Announce.parse_parsed read
      apply storable.admitMember
      refine ⟨?_, parsed.chainFits, parsed.stepFits, by simp, by simp,
        Nat.zero_le _⟩
      simp only [parsed.version]
      exact show Post.version < 2 ^ 32 by decide
  | «seal» circleId plain nonce =>
      simp only [Circle.perform, Circle.seal]
      cases newest : circle.newest with
      | none => exact storable
      | some member =>
          have present : member ∈ circle.members :=
            List.mem_of_mem_head? newest
          simp only
          cases made : sealFor member circleId plain nonce with
          | error fault => exact storable
          | trap => exact storable
          | ok result =>
              obtain ⟨changedStorable, same⟩ :=
                sealFor_storable (storable.members member present) made
              exact storable.store sound present same changedStorable
  | «open» note =>
      simp only [Circle.perform, Circle.open]
      cases found : circle.byChain note.chainId with
      | none => exact storable
      | some member =>
          have present : member ∈ circle.members :=
            List.mem_of_find?_eq_some found
          simp only
          split_ifs
          · exact storable
          · exact storable
          · cases drew : yieldFor member note.step with
            | error fault => exact storable
            | trap => exact storable
            | ok drawn =>
                exact storable.store sound present
                  (chainId_of_yieldFor drew)
                  (yieldFor_storable (storable.members member present) drew)

end Storable

/-- The run lemma. -/
theorem stateAt_storable
    {calls : List Call}
    (legal : ∀ call ∈ calls, call.Legal)
    (index : Nat) :
    (stateAt calls index).Storable := by
  induction index with
  | zero => exact ⟨by simp [stateAt, reached, init], Nat.zero_le _⟩
  | succ index inductionHypothesis =>
      cases made : calls[index]? with
      | none =>
          have same : stateAt calls (index + 1) = stateAt calls index := by
            simp [stateAt, List.take_add_one, made]
          rw [same]
          exact inductionHypothesis
      | some call =>
          rw [stateAt_succ made]
          exact inductionHypothesis.perform (stateAt_sound legal index)
            (legal call (List.mem_of_getElem? made))

/-- What a circle answers to each call. -/
structure Answers (before after : Circle) : Prop where
  announce :
    ∀ circleId draw,
      after.announce circleId draw = before.announce circleId draw
  admitAnnounce :
    ∀ announcement,
      after.admitAnnounce announcement = before.admitAnnounce announcement
  «seal» :
    ∀ circleId plain nonce,
      after.seal circleId plain nonce = before.seal circleId plain nonce
  «open» : ∀ note, after.open note = before.open note

/--
Whatever announcements, admissions, seals and openings led to a circle, its
record parses back to it, and the reloaded circle answers every later call the
same.
-/
theorem circle_records_survive
    {calls : List Call}
    (legal : ∀ call ∈ calls, call.Legal) :
    ∃ reloaded,
      parse (reached calls).serialize = .ok reloaded ∧
        reloaded = reached calls ∧
        Answers (reached calls) reloaded := by
  have storable := stateAt_storable legal calls.length
  rw [stateAt, List.take_length] at storable
  exact ⟨reached calls, parse_serialize storable, rfl,
    ⟨fun _ _ => rfl, fun _ => rfl, fun _ _ _ => rfl, fun _ => rfl⟩⟩

end Runs

section Witness

open Sample

attribute [local instance] hashes curves aes

/-- A chain of our own, and one note sealed on it. -/
theorem circle_records_survive_sampleRun :
    ∃ reloaded,
      parse (reached sampleRun).serialize = .ok reloaded ∧
        reloaded = reached sampleRun ∧
        Answers (reached sampleRun) reloaded :=
  circle_records_survive (by simp [sampleRun, Call.Legal])

end Witness

end Circle

end Gossveil
