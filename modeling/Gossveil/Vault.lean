import Gossveil.Address
import Gossveil.Keys
import Gossveil.Rejection
import Mathlib.Data.FinEnum

namespace Gossveil

/-!
# Account keys

The entropy pool a user holds, the keys that come out of it, and the keys that
come out of the backup key.  A pool is drawn character by character, each from
the first byte that is small enough, so that no pool is likelier than another.
Each key of a backup has a label of its own.
-/

/-- Sixteen bytes for an account, seventeen for a phone-number identity. -/
def ServiceId.compact (service : ServiceId) : Bytes :=
  match service.kind with
  | .aci => service.id.bytes.bytes
  | .pni => service.fixed.bytes

/-- Different service identifiers have different compact forms. -/
theorem ServiceId.compact_injective : Function.Injective ServiceId.compact := by
  rintro ⟨kind, ⟨id⟩⟩ ⟨otherKind, ⟨otherId⟩⟩ same
  have lengths := congrArg List.length same
  cases kind <;> cases otherKind <;>
    simp [compact, fixed, ServiceKind.code] at same lengths ⊢
  · exact Block.ext same
  · exact Block.ext same

theorem ServiceId.length_compact (service : ServiceId) :
    service.compact.length ≤ 17 := by
  unfold compact
  cases service.kind <;> simp

namespace Vault

/-- The characters of an entropy pool. -/
def poolLength : Nat := 64

/-- The characters a pool is made of. -/
def alphabet : Bytes :=
  ascii "0123456789abcdefghijklmnopqrstuvwxyz"

/-- `std.ascii.isDigit` or `std.ascii.isLower`. -/
def allowed (char : UInt8) : Bool :=
  (48 ≤ char && char ≤ 57) || (97 ≤ char && char ≤ 122)

/-- `EntropyPool.valid` -/
def valid (source : Bytes) : Bool :=
  source.length = poolLength && source.all allowed

/-- Sixty-four characters of the alphabet. -/
structure EntropyPool where
  chars : Bytes
  isValid : valid chars = true
  deriving DecidableEq

/-- The character a byte stands for, unless it is rejected. -/
def charOf (draw : UInt8) : Option UInt8 :=
  if draw < 252 then alphabet[draw.toNat % 36]? else none

/-! ## What is drawn -/

theorem all_charOf : ∀ draw, (charOf draw).all allowed = true := by
  decide +kernel

theorem allowed_of_charOf
    {draw char : UInt8}
    (isChar : charOf draw = some char) :
    allowed char = true := by
  have all := all_charOf draw
  rw [isChar] at all
  exact all

/-- A draw has a character when it lies below the last full round. -/
theorem charOf_isSome_iff :
    ∀ draw, (charOf draw).isSome ↔ draw < 252 := by
  decide +kernel

theorem exists_index_of_allowed :
    ∀ char, allowed char = true →
      ∃ index : Fin 36, alphabet.getD index 0 = char := by
  decide +kernel

/-- Seven bytes stand for each character. -/
theorem card_charOf :
    ∀ index : Fin 36,
      Fintype.card {draw // charOf draw = some (alphabet.getD index 0)} = 7 := by
  decide +kernel

/-- Every allowed character has a draw. -/
theorem exists_charOf
    {char : UInt8}
    (isAllowed : allowed char = true) :
    ∃ draw, charOf draw = some char := by
  obtain ⟨index, rfl⟩ := exists_index_of_allowed char isAllowed
  have positive := card_charOf index
  obtain ⟨draw⟩ := Fintype.card_pos_iff.mp (positive.trans_gt (by decide))
  exact ⟨draw.val, draw.property⟩

/-- Every character has seven draws. -/
theorem card_of_allowed
    {char : UInt8}
    (isAllowed : allowed char = true) :
    Fintype.card {draw // charOf draw = some char} = 7 := by
  obtain ⟨index, rfl⟩ := exists_index_of_allowed char isAllowed
  exact card_charOf index

namespace EntropyPool

theorem valid_of_each
    {draws chars rest : Bytes}
    (drawn :
      Rejection.each (List.replicate poolLength charOf) draws =
        some (chars, rest)) :
    valid chars = true := by
  obtain ⟨length, each⟩ := Rejection.mem_of_each_replicate drawn
  rw [valid, Bool.and_eq_true, decide_eq_true_eq, List.all_eq_true]
  refine ⟨length, fun char member => ?_⟩
  obtain ⟨draw, accepted⟩ := each char member
  exact allowed_of_charOf accepted

/-- A pool, and the drawn bytes that are left; `none` while a loop has not ended. -/
def random (draws : Bytes) : Option (EntropyPool × Bytes) :=
  match drawn : Rejection.each (List.replicate poolLength charOf) draws with
  | none => none
  | some (_, rest) => some (⟨_, valid_of_each drawn⟩, rest)

theorem random_of_each
    {draws chars rest : Bytes}
    (drawn :
      Rejection.each (List.replicate poolLength charOf) draws =
        some (chars, rest)) :
    random draws = some (⟨chars, valid_of_each drawn⟩, rest) := by
  unfold random
  split
  · next ended => simp [drawn] at ended
  · next ended =>
      cases drawn.symm.trans ended
      rfl

theorem random_eq_some_iff
    {draws rest : Bytes}
    {pool : EntropyPool} :
    random draws = some (pool, rest) ↔
      Rejection.each (List.replicate poolLength charOf) draws =
        some (pool.chars, rest) := by
  constructor
  · intro ended
    unfold random at ended
    split at ended
    · cases ended
    · next drawn =>
        cases ended
        exact drawn
  · exact random_of_each

/-- The loops end in a pool as soon as enough bytes are small enough. -/
theorem isSome_random_iff (draws : Bytes) :
    (random draws).isSome ↔
      poolLength ≤ draws.countP fun draw => draw < 252 := by
  have smalls :
      (draws.countP fun draw => (charOf draw).isSome) =
        draws.countP fun draw => draw < 252 :=
    List.countP_congr fun draw _ => by
      rw [charOf_isSome_iff, decide_eq_true_eq]
  rw [← smalls, ← Rejection.isSome_each_replicate]
  cases drawn : Rejection.each (List.replicate poolLength charOf) draws with
  | none =>
      have goesOn : random draws = none := by
        unfold random
        split
        · rfl
        · next ended => cases drawn.symm.trans ended
      simp [goesOn]
  | some ended =>
      rw [random_of_each drawn]
      exact iff_of_true rfl rfl

/-- The strings of bytes on which the loops stop with a pool. -/
def Stops (pool : EntropyPool) (size : Nat) : Set Bytes :=
  fun draws => draws.length = size ∧ random draws = some (pool, [])

theorem stops_eq (pool : EntropyPool) (size : Nat) :
    pool.Stops size =
      Rejection.Stops (List.replicate poolLength charOf) pool.chars size :=
  Set.ext fun _ => and_congr_right fun _ => random_eq_some_iff

theorem length_chars (pool : EntropyPool) : pool.chars.length = poolLength :=
  of_decide_eq_true (Bool.and_eq_true_iff.mp pool.isValid).1

theorem allowed_of_mem
    {pool : EntropyPool}
    {char : UInt8}
    (member : char ∈ pool.chars) :
    allowed char = true :=
  List.all_eq_true.mp (Bool.and_eq_true_iff.mp pool.isValid).2 char member

theorem alike (pool other : EntropyPool) :
    Rejection.Alike (List.replicate poolLength charOf) pool.chars
      other.chars := by
  have allowedHere := fun char => @allowed_of_mem pool char
  have allowedThere := fun char => @allowed_of_mem other char
  have length := pool.length_chars
  have otherLength := other.length_chars
  generalize pool.chars = chars at *
  generalize other.chars = others at *
  generalize poolLength = count at *
  induction count generalizing chars others with
  | zero =>
      rw [List.length_eq_zero_iff.mp length,
        List.length_eq_zero_iff.mp otherLength]
      exact .nil
  | succ count inductionHypothesis =>
      obtain ⟨char, chars, rfl⟩ := List.exists_cons_of_length_eq_add_one length
      obtain ⟨other, others, rfl⟩ :=
        List.exists_cons_of_length_eq_add_one otherLength
      rw [List.forall_mem_cons] at allowedHere allowedThere
      refine .cons ⟨Fintype.equivOfCardEq ?_⟩
        (inductionHypothesis chars allowedHere.2 others allowedThere.2
          (Nat.succ.inj length) (Nat.succ.inj otherLength))
      rw [card_of_allowed allowedHere.1, card_of_allowed allowedThere.1]

end EntropyPool

/--
A pool is drawn as soon as 64 bytes are small enough.  Of the strings of any
length, equally many end in each of the pools, and every pool is drawn.
-/
theorem random_uniform :
    (∀ draws,
      (EntropyPool.random draws).isSome ↔
        poolLength ≤ draws.countP fun draw => draw < 252) ∧
      ∀ pool : EntropyPool,
        (pool.Stops poolLength).Nonempty ∧
          ∀ (other : EntropyPool) (size : Nat),
            (pool.Stops size).ncard = (other.Stops size).ncard := by
  refine ⟨EntropyPool.isSome_random_iff, fun pool => ⟨?_, ?_⟩⟩
  · have stops := Rejection.nonempty_stops fun char member =>
      exists_charOf (pool.allowed_of_mem member)
    rw [pool.length_chars] at stops
    rw [EntropyPool.stops_eq]
    exact stops
  · intro other size
    rw [EntropyPool.stops_eq, EntropyPool.stops_eq]
    exact (pool.alike other).ncard_stops size

/-! ## The keys of a pool and of a backup key -/

/-- The key that all backup keys are derived from. -/
structure BackupKey where
  bytes : Block 32
  deriving DecidableEq

section Keys

variable [Hashes]

namespace BackupKey

/-- The label and the suffix are put together in a buffer of 256 bytes. -/
def expand
    (key : BackupKey)
    (size : Nat)
    (label suffix : Bytes) :
    Outcome Fault (Block size) := do
  Outcome.assert (label.length + suffix.length ≤ 256)
  return Derive.hkdf size key.bytes.bytes none (label ++ suffix)

/-- The id of an account's backup. -/
def backupId
    (key : BackupKey)
    (account : ServiceId) :
    Outcome Fault (Block 16) :=
  key.expand 16 (ascii "20241024_SIGNAL_BACKUP_ID:") account.compact

/-- The key that signs for an account's backup. -/
def signingKey
    (key : BackupKey)
    (account : ServiceId) :
    Outcome Fault Curve.Secret := do
  let out ←
    key.expand 32 (ascii "20241024_SIGNAL_BACKUP_ID_KEYPAIR:") account.compact
  return .fromRaw out

/-- The key of the metadata on the device. -/
def localMetadataKey (key : BackupKey) : Outcome Fault (Block 32) :=
  key.expand 32 (ascii "20241011_SIGNAL_LOCAL_BACKUP_METADATA_KEY") []

/-- The id of a medium by its name, which is bounded. -/
def mediaId (key : BackupKey) (mediaName : Bytes) : Outcome Fault (Block 15) := do
  Outcome.require .badArgument (mediaName.length ≤ 200)
  key.expand 15 (ascii "20241007_SIGNAL_BACKUP_MEDIA_ID:") mediaName

/-- A MAC key, then a cipher key. -/
def mediaKey (key : BackupKey) (mediaId : Block 15) : Outcome Fault (Block 64) :=
  key.expand 64 (ascii "20241007_SIGNAL_BACKUP_ENCRYPT_MEDIA:") mediaId.bytes

/-- The keys of a medium's thumbnail. -/
def thumbnailKey
    (key : BackupKey)
    (mediaId : Block 15) :
    Outcome Fault (Block 64) :=
  key.expand 64 (ascii "20241030_SIGNAL_BACKUP_ENCRYPT_THUMBNAIL:")
    mediaId.bytes

end BackupKey

end Keys

/-! ## Every key has a label of its own -/

/-- What a backup key is expanded for. -/
inductive Purpose where
  | backupId
  | signingKey
  | localMetadataKey
  | mediaId
  | mediaKey
  | thumbnailKey
  deriving DecidableEq

/-- The label of a purpose. -/
def Purpose.label : Purpose → Bytes
  | .backupId => ascii "20241024_SIGNAL_BACKUP_ID:"
  | .signingKey => ascii "20241024_SIGNAL_BACKUP_ID_KEYPAIR:"
  | .localMetadataKey => ascii "20241011_SIGNAL_LOCAL_BACKUP_METADATA_KEY"
  | .mediaId => ascii "20241007_SIGNAL_BACKUP_MEDIA_ID:"
  | .mediaKey => ascii "20241007_SIGNAL_BACKUP_ENCRYPT_MEDIA:"
  | .thumbnailKey => ascii "20241030_SIGNAL_BACKUP_ENCRYPT_THUMBNAIL:"

theorem Purpose.length_label (purpose : Purpose) :
    purpose.label.length ≤ 41 := by
  cases purpose <;> decide +kernel

/-- Every purpose. -/
def Purpose.all : List Purpose :=
  [.backupId, .signingKey, .localMetadataKey, .mediaId, .mediaKey,
    .thumbnailKey]

theorem Purpose.mem_all (purpose : Purpose) : purpose ∈ all := by
  cases purpose <;> simp [all]

/-- No label is the beginning of another. -/
theorem Purpose.eq_of_prefix
    (purpose other : Purpose)
    (begins : purpose.label <+: other.label) :
    purpose = other := by
  have checked :
      ∀ purpose ∈ all, ∀ other ∈ all,
        purpose.label.isPrefixOf other.label = true → purpose = other := by
    decide +kernel
  exact checked purpose purpose.mem_all other other.mem_all
    (List.isPrefixOf_iff_prefix.mpr begins)

/-- A use of a backup key. -/
inductive Derivation where
  | backupId (account : ServiceId)
  | signingKey (account : ServiceId)
  | localMetadataKey
  | mediaId (mediaName : Bytes)
  | mediaKey (mediaId : Block 15)
  | thumbnailKey (mediaId : Block 15)

namespace Derivation

/-- What a derivation is for. -/
def purpose : Derivation → Purpose
  | .backupId _ => .backupId
  | .signingKey _ => .signingKey
  | .localMetadataKey => .localMetadataKey
  | .mediaId _ => .mediaId
  | .mediaKey _ => .mediaKey
  | .thumbnailKey _ => .thumbnailKey

/-- What stands behind the label. -/
def suffix : Derivation → Bytes
  | .backupId account => account.compact
  | .signingKey account => account.compact
  | .localMetadataKey => []
  | .mediaId mediaName => mediaName
  | .mediaKey id => id.bytes
  | .thumbnailKey id => id.bytes

/-- The bytes a derivation is told apart by. -/
def info (derivation : Derivation) : Bytes :=
  derivation.purpose.label ++ derivation.suffix

theorem eq_of_suffix
    {derivation other : Derivation}
    (purposes : derivation.purpose = other.purpose)
    (suffixes : derivation.suffix = other.suffix) :
    derivation = other := by
  cases derivation <;> cases other <;> cases purposes
  case backupId.backupId.refl account otherAccount =>
    have same : account.compact = otherAccount.compact := suffixes
    rw [ServiceId.compact_injective same]
  case signingKey.signingKey.refl account otherAccount =>
    have same : account.compact = otherAccount.compact := suffixes
    rw [ServiceId.compact_injective same]
  case localMetadataKey.localMetadataKey.refl => rfl
  case mediaId.mediaId.refl name otherName =>
    have same : name = otherName := suffixes
    rw [same]
  case mediaKey.mediaKey.refl id otherId =>
    have same : id.bytes = otherId.bytes := suffixes
    rw [Block.ext same]
  case thumbnailKey.thumbnailKey.refl id otherId =>
    have same : id.bytes = otherId.bytes := suffixes
    rw [Block.ext same]

theorem info_injective : Function.Injective info := by
  intro derivation other same
  have begins : derivation.purpose.label <+: other.info :=
    ⟨derivation.suffix, same⟩
  have purposes : derivation.purpose = other.purpose := by
    rcases List.prefix_or_prefix_of_prefix begins ⟨other.suffix, rfl⟩ with
      shorter | longer
    · exact Purpose.eq_of_prefix _ _ shorter
    · exact (Purpose.eq_of_prefix _ _ longer).symm
  refine eq_of_suffix purposes ?_
  rw [info, info, purposes] at same
  exact List.append_cancel_left same

/-- The bytes a derivation gives. -/
def size : Derivation → Nat
  | .backupId _ => 16
  | .signingKey _ => 32
  | .localMetadataKey => 32
  | .mediaId _ => 15
  | .mediaKey _ => 64
  | .thumbnailKey _ => 64

/-- A signing key is clamped. -/
def finish : (derivation : Derivation) → Block derivation.size → Bytes
  | .backupId _, out => out.bytes
  | .signingKey _, out => (Curve.Secret.fromRaw out).serialize
  | .localMetadataKey, out => out.bytes
  | .mediaId _, out => out.bytes
  | .mediaKey _, out => out.bytes
  | .thumbnailKey _, out => out.bytes

variable [Hashes]

/-- The bytes of a derivation, as the functions above give them. -/
def run (key : BackupKey) : Derivation → Outcome Fault Bytes
  | .backupId account => do return (← key.backupId account).bytes
  | .signingKey account => do return (← key.signingKey account).serialize
  | .localMetadataKey => do return (← key.localMetadataKey).bytes
  | .mediaId mediaName => do return (← key.mediaId mediaName).bytes
  | .mediaKey id => do return (← key.mediaKey id).bytes
  | .thumbnailKey id => do return (← key.thumbnailKey id).bytes

end Derivation

/-- A suffix of 200 bytes fits the buffer behind every label. -/
theorem BackupKey.expand_label
    [Hashes]
    (key : BackupKey)
    (size : Nat)
    (purpose : Purpose)
    {suffix : Bytes}
    (fits : suffix.length ≤ 200) :
    key.expand size purpose.label suffix =
      .ok (Derive.hkdf size key.bytes.bytes none (purpose.label ++ suffix)) := by
  have labels := purpose.length_label
  have room : purpose.label.length + suffix.length ≤ 256 := by omega
  rw [BackupKey.expand, Outcome.assert_of room, Outcome.ok_bind]
  rfl

/-- A use takes its piece of the key, whatever the key is. -/
theorem Derivation.run_of_fits
    [Hashes]
    (key : BackupKey)
    (derivation : Derivation)
    (fits : derivation.suffix.length ≤ 200) :
    derivation.run key =
      .ok (derivation.finish
        (Derive.hkdf derivation.size key.bytes.bytes none derivation.info)) := by
  have out := key.expand_label derivation.size derivation.purpose fits
  cases derivation with
  | backupId account =>
      exact congrArg (fun made => made >>= fun out => .ok out.bytes) out
  | signingKey account =>
      exact congrArg
        (fun made =>
          (made >>= fun out => .ok (Curve.Secret.fromRaw out)) >>=
            fun secret => .ok secret.serialize)
        out
  | localMetadataKey =>
      exact congrArg (fun made => made >>= fun out => .ok out.bytes) out
  | mediaId mediaName =>
      have short : mediaName.length ≤ 200 := fits
      rw [run, BackupKey.mediaId, Outcome.require_of short, Outcome.ok_bind]
      exact congrArg (fun made => made >>= fun out => .ok out.bytes) out
  | mediaKey id =>
      exact congrArg (fun made => made >>= fun out => .ok out.bytes) out
  | thumbnailKey id =>
      exact congrArg (fun made => made >>= fun out => .ok out.bytes) out

/-- Only a media name can be too long. -/
theorem Derivation.run_of_long
    [Hashes]
    (key : BackupKey)
    (derivation : Derivation)
    (long : ¬ derivation.suffix.length ≤ 200) :
    derivation.run key = .error .badArgument := by
  cases derivation with
  | mediaId mediaName =>
      have tooLong : ¬ mediaName.length ≤ 200 := long
      rw [run, BackupKey.mediaId, Outcome.require_not tooLong]
      rfl
  | backupId account | signingKey account =>
      have short := account.length_compact
      exact absurd (short.trans (by decide)) long
  | localMetadataKey => exact absurd (Nat.zero_le _) long
  | mediaKey id | thumbnailKey id =>
      exact absurd (id.length_eq.le.trans (by decide)) long

/--
No two uses of a backup key expand the same label and suffix.  Every use takes
its own piece of the key and none stops the program; only a media name of more
than 200 bytes is turned down.
-/
theorem uses_separate [Hashes] :
    Function.Injective Derivation.info ∧
      ∀ (key : BackupKey) (derivation : Derivation),
        derivation.run key =
          if derivation.suffix.length ≤ 200 then
            .ok (derivation.finish
              (Derive.hkdf derivation.size key.bytes.bytes none
                derivation.info))
          else
            .error .badArgument := by
  refine ⟨Derivation.info_injective, fun key derivation => ?_⟩
  split_ifs with fits
  · exact derivation.run_of_fits key fits
  · exact derivation.run_of_long key fits

end Vault

end Gossveil
