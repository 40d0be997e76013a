import Gossveil.ChunkMac

namespace Gossveil.ChunkMac

open Chunking (chunks)

/-!
# Whole streams under chunk MACs

However a stream is cut into pieces, the tagger and the checker take one step
for each of its chunks, the last one filled up with zeros.  The tags are
therefore those of the chunks, and a checker accepts a stream exactly when its
chunks have the first of the tags it holds.
-/

/-! ## The buffer refines what is held -/

namespace Filling

variable {chunk : Nat} {σ : Type}

@[simp] theorem length_contents (filling : Filling chunk) :
    filling.contents.length = filling.filled := by
  rw [Filling.contents, List.length_take, Block.length_eq,
    Nat.min_eq_left (Nat.le_of_lt filling.filled_lt)]

/-- Behind a copy stand the old contents and what was taken. -/
theorem take_copyIn
    {filling : Filling chunk}
    {rest : Bytes} :
    (filling.copyIn rest).bytes.take (filling.filled + filling.take rest) =
      filling.contents ++ rest.take (filling.take rest) := by
  refine List.take_left' ?_
  rw [List.length_append, List.length_take, Block.length_eq,
    Nat.min_eq_left (Nat.le_of_lt filling.filled_lt),
    List.length_take_of_le take_le]

/-- The buffer of a completed chunk holds the chunk alone. -/
theorem bytes_copyIn
    {filling : Filling chunk}
    {rest : Bytes}
    (whole : filling.filled + filling.take rest = chunk) :
    (filling.copyIn rest).bytes =
      filling.contents ++ rest.take (filling.take rest) := by
  rw [← take_copyIn, whole,
    List.take_of_length_le (Nat.le_of_eq (Block.length_eq _))]

theorem clearFrom_whole
    {buf : Block chunk}
    {offset : Nat}
    (inside : offset ≤ chunk)
    (whole : offset = chunk) :
    clearFrom buf offset inside = buf := by
  subst whole
  ext1
  simp [clearFrom]

/-- The value the loop has, as seen without what is stale in the buffer. -/
def seen (current : σ × Filling chunk) : σ × Bytes :=
  (current.1, current.2.contents)

/-- The loop over a piece is the stream's own step over its bytes. -/
theorem update_feed
    {completed : σ → Bytes → Outcome Fault σ}
    {current : σ × Filling chunk}
    (data : Bytes) :
    seen <$> update completed current data =
      Chunking.feed chunk completed (seen current) data := by
  induction size_eq : data.length using Nat.strongRecOn
    generalizing current data with
  | ind size inductionHypothesis =>
      obtain ⟨state, filling⟩ := current
      rw [update]
      by_cases some_rest : 0 < data.length
      · rw [dif_pos some_rest]
        have advances : 0 < filling.take data := take_pos some_rest
        have taken : (data.take (filling.take data)).length =
            filling.take data :=
          List.length_take_of_le take_le
        have shorter : (data.drop (filling.take data)).length < size := by
          rw [List.length_drop, ← size_eq]
          exact Nat.sub_lt some_rest advances
        have some_items : data.take (filling.take data) ≠ [] :=
          List.ne_nil_of_length_pos (by rw [taken]; exact advances)
        conv => rhs; rw [← List.take_append_drop (filling.take data) data]
        rw [Chunking.feed_append]
        dsimp only [seen]
        by_cases whole : filling.filled + filling.take data = chunk
        · rw [dif_pos whole, clearFrom_whole _ whole, bytes_copyIn whole,
            Chunking.feed_full some_items
              (by rw [length_contents, taken, whole]),
            map_bind, bind_assoc]
          congr 1
          funext after
          rw [pure_bind]
          exact inductionHypothesis _ shorter _ rfl
        · have below : filling.filled + filling.take data < chunk :=
            Nat.lt_of_le_of_ne filled_add_take_le whole
          rw [dif_neg whole,
            Chunking.feed_short (by rw [length_contents, taken]; exact below),
            pure_bind]
          refine (inductionHypothesis _ shorter _ rfl).trans ?_
          rw [seen, contents, take_copyIn]
      · rw [dif_neg some_rest]
        have empty : data = [] :=
          List.eq_nil_of_length_eq_zero (Nat.eq_zero_of_not_pos some_rest)
        subst empty
        rfl

/-- The end of the stream clears what is stale and works on the rest. -/
theorem finish_feed
    {completed : σ → Bytes → Outcome Fault σ}
    {current : σ × Filling chunk} :
    finish completed current =
      Chunking.finish chunk 0 completed (seen current) := by
  obtain ⟨state, filling⟩ := current
  rw [finish, Chunking.finish]
  by_cases empty : filling.filled = 0
  · simp [seen, empty]
  · rw [if_pos (Nat.pos_of_ne_zero empty), if_neg (by simpa [seen] using empty)]
    simp [seen, Chunking.pad, clearFrom, contents,
      Nat.min_eq_left (Nat.le_of_lt filling.filled_lt)]

/-- Pieces fed one after the other. -/
theorem updates_feed
    {completed : σ → Bytes → Outcome Fault σ}
    {current : σ × Filling chunk}
    (pieces : List Bytes) :
    seen <$> pieces.foldlM (update completed) current =
      pieces.foldlM (Chunking.feed chunk completed) (seen current) := by
  induction pieces generalizing current with
  | nil => rfl
  | cons piece pieces inductionHypothesis =>
      rw [List.foldlM_cons, List.foldlM_cons, ← update_feed, map_bind,
        bind_map_left]
      congr 1
      funext between
      exact inductionHypothesis

/-- A whole stream is one step for each of its chunks, however it is cut. -/
theorem updates_finish
    {completed : σ → Bytes → Outcome Fault σ}
    {state : σ}
    {memory : Block chunk}
    (positive : 0 < chunk)
    (pieces : List Bytes) :
    (do
      let current ←
        pieces.foldlM (update completed) (state, init memory positive)
      finish completed current) =
      (chunks chunk 0 pieces.flatten).foldlM completed state := by
  have started : seen (state, init memory positive) = (state, []) := by
    simp [seen, init, contents]
  simp only [finish_feed]
  rw [← bind_map_left seen, updates_feed, started, Chunking.feed_flatten,
    Chunking.feed_finish positive]

end Filling

/-! ## The sender's and the receiver's run -/

section Streams

variable [Hashes]

/-- One MAC for each chunk. -/
def tags (key : Block 32) (parts : List Bytes) : Bytes :=
  (parts.map fun part => (macOf key part).bytes).flatten

theorem tags_cons
    {key : Block 32}
    {part : Bytes}
    {parts : List Bytes} :
    tags key (part :: parts) = (macOf key part).bytes ++ tags key parts :=
  rfl

/-- A stream filled up with zeros to whole chunks. -/
def padded (chunk : Nat) (data : Bytes) : Bytes :=
  data ++
    List.replicate (Chunking.count chunk data.length * chunk - data.length) 0

namespace Tagger

/-- Every `update`, then `finish`. -/
def run (tagger : Tagger) (pieces : List Bytes) : Outcome Fault Bytes := do
  let after ← pieces.foldlM update tagger
  after.finish

/-- Flushing chunks adds their tags. -/
theorem foldlM_flush
    {key : Block 32}
    {macs : Bytes}
    (parts : List Bytes) :
    parts.foldlM (flush key) macs = .ok (macs ++ tags key parts) := by
  induction parts generalizing macs with
  | nil => simp [tags]
  | cons part parts inductionHypothesis =>
      rw [List.foldlM_cons, flush, Outcome.ok_bind, inductionHypothesis]
      simp [tags]

/-- A tagger is a filling that flushes. -/
theorem run_eq
    {key : Block 32}
    {chunk : Nat}
    {filling : Filling chunk}
    {macs : Bytes}
    (pieces : List Bytes) :
    run ⟨key, chunk, filling, macs⟩ pieces = (do
      let current ← pieces.foldlM (Filling.update (flush key)) (macs, filling)
      Filling.finish (flush key) current) := by
  induction pieces generalizing filling macs with
  | nil => rfl
  | cons piece pieces inductionHypothesis =>
      rw [run, List.foldlM_cons, List.foldlM_cons, update, bind_assoc,
        bind_assoc, bind_assoc]
      congr 1
      funext current
      exact inductionHypothesis

/-- The tagger's MACs are those of the chunks, however the data arrives. -/
theorem run_init
    {key : Block 32}
    {chunk : Nat}
    {memory : Block chunk}
    (positive : 0 < chunk)
    (pieces : List Bytes) :
    (init key memory positive).run pieces =
      .ok (tags key (chunks chunk 0 pieces.flatten)) := by
  rw [init, run_eq, Filling.updates_finish positive, foldlM_flush,
    List.nil_append]

end Tagger

namespace Checker

/-- Every `update`, then `finish`. -/
def run (checker : Checker) (pieces : List Bytes) : Outcome Fault Unit := do
  let after ← pieces.foldlM update checker
  after.finish

/-- A chunk is accepted when its MAC is the next one expected. -/
theorem check_eq
    {key : Block 32}
    {expected : Bytes}
    {index : Nat}
    {buf : Bytes} :
    check key expected index buf =
      if (macOf key buf).bytes <+: expected.drop (index * macLength) then
        .ok (index + 1)
      else .error .badMessage := by
  have tagLength : (macOf key buf).bytes.length = macLength :=
    Block.length_eq _
  have starts :
      (macOf key buf).bytes <+: expected.drop (index * macLength) ↔
        (macOf key buf).bytes =
          (expected.drop (index * macLength)).take macLength := by
    rw [List.prefix_iff_eq_take, tagLength]
  rw [check]
  by_cases matching :
      (macOf key buf).bytes =
        (expected.drop (index * macLength)).take macLength
  · have inside : index * macLength + macLength ≤ expected.length := by
      have length := congrArg List.length matching
      rw [tagLength, List.length_take, List.length_drop] at length
      have few := length.le.trans (Nat.min_le_right _ _)
      have positive : 0 < macLength := by decide
      omega
    rw [Outcome.require_of inside, Outcome.ok_bind,
      Outcome.require_of matching, Outcome.ok_bind,
      if_pos (starts.mpr matching)]
  · rw [Outcome.require_not matching, if_neg fun prefixed =>
      matching (starts.mp prefixed)]
    by_cases inside : index * macLength + macLength ≤ expected.length
    · rw [Outcome.require_of inside]
      rfl
    · rw [Outcome.require_not inside]
      rfl

/-- Checking chunks compares their tags with the expected ones. -/
theorem foldlM_check
    {key : Block 32}
    {expected : Bytes}
    {index : Nat}
    (parts : List Bytes) :
    parts.foldlM (check key expected) index =
      if tags key parts <+: expected.drop (index * macLength) then
        .ok (index + parts.length)
      else .error .badMessage := by
  induction parts generalizing index with
  | nil => simp [tags]
  | cons part parts inductionHypothesis =>
      have tagLength : (macOf key part).bytes.length = macLength :=
        Block.length_eq _
      rw [List.foldlM_cons, check_eq]
      by_cases first :
          (macOf key part).bytes <+: expected.drop (index * macLength)
      · obtain ⟨later, split⟩ := first
        have follows :
            expected.drop ((index + 1) * macLength) = later := by
          rw [Nat.add_mul, Nat.one_mul, ← List.drop_drop, ← split,
            ← tagLength, List.drop_left]
        rw [← split, if_pos (List.prefix_append _ _), Outcome.ok_bind,
          inductionHypothesis, follows, List.length_cons,
          Nat.add_right_comm, Nat.add_assoc]
        simp only [tags_cons, List.prefix_append_right_inj]
      · have refused :
            ¬ tags key (part :: parts) <+:
              expected.drop (index * macLength) := by
          intro accepted
          exact first ((List.prefix_append _ _).trans accepted)
        rw [if_neg first, if_neg refused]
        rfl

/-- A checker is a filling that checks. -/
theorem run_eq
    {key : Block 32}
    {chunk : Nat}
    {expected : Bytes}
    {filling : Filling chunk}
    {index : Nat}
    (pieces : List Bytes) :
    run ⟨key, chunk, expected, filling, index⟩ pieces = (do
      let current ←
        pieces.foldlM (Filling.update (check key expected)) (index, filling)
      let _ ← Filling.finish (check key expected) current
      .ok ()) := by
  induction pieces generalizing filling index with
  | nil => rfl
  | cons piece pieces inductionHypothesis =>
      rw [run, List.foldlM_cons, List.foldlM_cons, update, bind_assoc,
        bind_assoc, bind_assoc]
      congr 1
      funext current
      exact inductionHypothesis

/-- A checker accepts a stream when it expects the MACs of its chunks first. -/
theorem run_init
    {key : Block 32}
    {chunk : Nat}
    {memory : Block chunk}
    {expected : Bytes}
    (positive : 0 < chunk)
    (pieces : List Bytes) :
    (init key memory positive expected).run pieces =
      if tags key (chunks chunk 0 pieces.flatten) <+: expected then .ok ()
      else .error .badMessage := by
  rw [init, run_eq, ← bind_assoc, Filling.updates_finish positive,
    foldlM_check, Nat.zero_mul, List.drop_zero]
  split <;> rfl

end Checker

/-! ## Sizes -/

theorem length_tags
    {key : Block 32}
    (parts : List Bytes) :
    (tags key parts).length = parts.length * macLength := by
  induction parts with
  | nil => simp [tags]
  | cons part parts inductionHypothesis =>
      rw [tags_cons, List.length_append, inductionHypothesis, Block.length_eq, List.length_cons,
        Nat.add_mul, Nat.add_comm, Nat.one_mul, macLength]

omit [Hashes] in
/-- What the size computation returns, or that a size does not fit. -/
theorem macBytesFor_eq
    {usizeBits total chunk : Nat}
    (positive : 0 < chunk) :
    macBytesFor usizeBits total chunk =
      if total = 0 ∨ total + chunk < 2 ^ usizeBits ∧
          Chunking.count chunk total * macLength < 2 ^ usizeBits then
        .ok (Chunking.count chunk total * macLength)
      else .trap := by
  by_cases empty : total = 0
  · subst empty
    have none_left : Chunking.count chunk 0 = 0 :=
      Nat.div_eq_of_lt (by simpa using positive)
    simp [macBytesFor, chunkCount, none_left]
  · by_cases fits : total + chunk < 2 ^ usizeBits
    · have counted : chunkCount usizeBits total chunk =
          .ok (Chunking.count chunk total) := by
        rw [chunkCount, if_neg empty, Outcome.add_of_lt fits, Outcome.ok_bind,
          Outcome.sub_of_le (Nat.le_add_left_of_le positive), Outcome.ok_bind,
          Outcome.assert_of (Nat.ne_of_gt positive), Outcome.ok_bind,
          Chunking.count]
      simp [macBytesFor, counted, empty, fits]
    · have trapped : chunkCount usizeBits total chunk = .trap := by
        rw [chunkCount, if_neg empty,
          Outcome.add_eq_trap.mpr (Nat.not_lt.mp fits)]
        rfl
      simp [macBytesFor, trapped, empty, fits]

/-! ## However the data arrives -/

/--
The MACs of a stream do not depend on how it is cut: they are one for each
chunk, as many bytes as the size computation says, and a checker given them
accepts the stream under every cut.
-/
theorem cut_independent
    (key : Block 32)
    {chunk : Nat}
    (positive : 0 < chunk)
    (data : Bytes) :
    (∀ memory pieces, pieces.flatten = data →
      (Tagger.init key memory positive).run pieces =
        .ok (tags key (chunks chunk 0 data))) ∧
      (∀ usizeBits,
        macBytesFor usizeBits data.length chunk =
          if data.length = 0 ∨ data.length + chunk < 2 ^ usizeBits ∧
              (tags key (chunks chunk 0 data)).length < 2 ^ usizeBits then
            .ok (tags key (chunks chunk 0 data)).length
          else .trap) ∧
      ∀ memory pieces, pieces.flatten = data →
        (Checker.init key memory positive (tags key (chunks chunk 0 data))).run
            pieces =
          .ok () := by
  refine ⟨?tagged, ?sized, ?accepted⟩
  case tagged =>
    rintro memory pieces rfl
    exact Tagger.run_init positive pieces
  case sized =>
    intro usizeBits
    rw [macBytesFor_eq positive, length_tags, Chunking.length_chunks]
  case accepted =>
    rintro memory pieces rfl
    rw [Checker.run_init positive, if_pos (List.prefix_refl _)]

/-! ## What a checker accepts -/

omit [Hashes] in
/-- The chunks together are the padded data. -/
theorem flatten_chunks_eq
    {chunk : Nat}
    (positive : 0 < chunk)
    (data : Bytes) :
    (chunks chunk 0 data).flatten = padded chunk data :=
  Chunking.flatten_chunks positive data

/-- Where MACs tell the chunks apart, their tags compare as they do. -/
theorem tags_prefix_iff
    {key : Block 32}
    {parts expected : List Bytes}
    (separates :
      Set.InjOn (macOf key) {part | part ∈ expected ++ parts}) :
    tags key parts <+: tags key expected ↔ parts <+: expected := by
  have sized :
      ∀ (some_parts : List Bytes),
        ∀ tag ∈ some_parts.map fun part => (macOf key part).bytes,
          tag.length = macLength := by
    intro some_parts tag member
    rw [List.mem_map] at member
    obtain ⟨part, _, rfl⟩ := member
    exact Block.length_eq _
  rw [tags, tags,
    Chunking.flatten_prefix_iff (by decide) (sized parts) (sized expected)]
  constructor
  · intro within
    have told : ∀ first ∈ parts, ∀ second ∈ expected,
        (macOf key first).bytes = (macOf key second).bytes →
          first = second := by
      intro first inParts second inExpected same
      exact separates (List.mem_append_right _ inParts)
        (List.mem_append_left _ inExpected) (Block.ext same)
    clear separates sized
    induction parts generalizing expected with
    | nil => exact List.nil_prefix
    | cons part parts inductionHypothesis =>
        cases expected with
        | nil => simp at within
        | cons other expected =>
            rw [List.map_cons, List.map_cons, List.cons_prefix_cons] at within
            have same : part = other :=
              told part (List.mem_cons_self ..) other (List.mem_cons_self ..)
                within.1
            subst same
            refine List.cons_prefix_cons.mpr ⟨rfl, ?_⟩
            refine inductionHypothesis within.2 ?_
            intro first inParts second inExpected
            exact told first (List.mem_cons_of_mem _ inParts) second
              (List.mem_cons_of_mem _ inExpected)
  · intro within
    exact within.map _

omit [Hashes] in
/-- Chunks stand before chunks when the padded data do. -/
theorem padded_prefix_iff
    {chunk : Nat}
    (positive : 0 < chunk)
    {data other : Bytes} :
    chunks chunk 0 other <+: chunks chunk 0 data ↔
      padded chunk other <+: padded chunk data := by
  rw [← flatten_chunks_eq positive, ← flatten_chunks_eq positive,
    Chunking.flatten_prefix_iff positive
      (fun _ => Chunking.length_of_mem_chunks)
      (fun _ => Chunking.length_of_mem_chunks)]

omit [Hashes] in
/-- Filled-up streams of as many chunks are prefixes only when equal. -/
theorem padded_eq_of_beginning
    {chunk : Nat}
    (positive : 0 < chunk)
    {data other : Bytes}
    (asMany :
      Chunking.count chunk other.length = Chunking.count chunk data.length)
    (within : padded chunk other <+: padded chunk data) :
    padded chunk other = padded chunk data := by
  rw [← padded_prefix_iff positive] at within
  have same := within.eq_of_length (by simp [asMany])
  rw [← flatten_chunks_eq positive, same, flatten_chunks_eq positive]

omit [Hashes] in
/-- Filling up keeps streams of one length apart. -/
theorem eq_of_padded_eq
    {chunk : Nat}
    {data other : Bytes}
    (sameLength : other.length = data.length)
    (same : padded chunk other = padded chunk data) :
    other = data :=
  (List.append_inj same sameLength).1

/--
A checker given the MACs of one stream accepts another only if, both filled up
with zeros to whole chunks, the other is a beginning of the first; of streams
with as many chunks it accepts those that fill up to the same, and of those with
the same length the first alone.
-/
theorem accepts_filled_up
    {key : Block 32}
    {chunk : Nat}
    (positive : 0 < chunk)
    {data other : Bytes}
    (separates :
      Set.InjOn (macOf key)
        {part | part ∈ chunks chunk 0 data ++ chunks chunk 0 other})
    {memory checkMemory : Block chunk}
    {pieces others : List Bytes}
    (cut : pieces.flatten = data)
    (cutOther : others.flatten = other)
    {macs : Bytes}
    (tagged : (Tagger.init key memory positive).run pieces = .ok macs)
    {verdict : Outcome Fault Unit}
    (checked :
      (Checker.init key checkMemory positive macs).run others = verdict) :
    (verdict = .ok () ∨ verdict = .error .badMessage) ∧
      (verdict = .ok () → padded chunk other <+: padded chunk data) ∧
      (Chunking.count chunk other.length = Chunking.count chunk data.length →
        (verdict = .ok () ↔ padded chunk other = padded chunk data)) ∧
      (other.length = data.length → (verdict = .ok () ↔ other = data)) := by
  rw [Tagger.run_init positive, cut, Outcome.ok.injEq] at tagged
  rw [Checker.run_init positive, cutOther, ← tagged] at checked
  have accepted :
      verdict = .ok () ↔ padded chunk other <+: padded chunk data := by
    rw [← checked, ← padded_prefix_iff positive, ← tags_prefix_iff separates]
    by_cases within :
        tags key (chunks chunk 0 other) <+: tags key (chunks chunk 0 data)
    · simp [within]
    · simp [within]
  have equal :
      Chunking.count chunk other.length = Chunking.count chunk data.length →
        (verdict = .ok () ↔ padded chunk other = padded chunk data) := by
    intro asMany
    rw [accepted]
    exact ⟨padded_eq_of_beginning positive asMany, fun same =>
      same ▸ List.prefix_refl _⟩
  refine ⟨?decided, accepted.mp, equal, ?exact⟩
  case decided =>
    rw [← checked]
    split
    · exact .inl rfl
    · exact .inr rfl
  case exact =>
    intro sameLength
    rw [equal (by rw [sameLength])]
    exact ⟨eq_of_padded_eq sameLength, fun same => same ▸ rfl⟩

end Streams

/-! ## A stripped zero and a missing chunk -/

section Counterexample

open Sample

attribute [local instance] hashes

/-- A key of zeroes. -/
private def zeroKey : Block 32 :=
  Block.zero 32

/-- Three bytes, in chunks of two. -/
private def threeBytes : Bytes :=
  [1, 0, 2]

private theorem chunks_threeBytes :
    chunks 2 0 threeBytes = [[1, 0], [2, 0]] := by
  decide

private theorem separates_both
    {parts : List Bytes}
    (both : ∀ part ∈ parts, part = [1, 0] ∨ part = [2, 0]) :
    Set.InjOn (macOf zeroKey) {part | part ∈ parts} := by
  have apart : macOf zeroKey [1, 0] ≠ macOf zeroKey [2, 0] := by
    decide
  intro first inFirst second inSecond same
  rcases both first inFirst with rfl | rfl <;>
    rcases both second inSecond with rfl | rfl
  · rfl
  · exact absurd same apart
  · exact absurd same.symm apart
  · rfl

/-- Three bytes have two tags. -/
private theorem threeBytes_tagged :
    (Tagger.init zeroKey (Block.zero 2) Nat.two_pos).run [[1], [0, 2]] =
      .ok (tags zeroKey [[1, 0], [2, 0]]) := by
  rw [Tagger.run_init Nat.two_pos, ← chunks_threeBytes]
  rfl

/-- The checker accepts data that leave a chunk out. -/
private theorem missingChunk_checked :
    (Checker.init zeroKey (Block.zero 2) Nat.two_pos
        (tags zeroKey [[1, 0], [2, 0]])).run [[1, 0]] =
      .ok () := by
  rw [Checker.run_init Nat.two_pos]
  decide

/-- The cutting does not matter for three bytes in two cuttings. -/
theorem cut_independent_threeBytes :
    (Tagger.init zeroKey (Block.zero 2) Nat.two_pos).run [[1], [], [0, 2]] =
        .ok (tags zeroKey [[1, 0], [2, 0]]) ∧
      macBytesFor 64 3 2 = .ok 64 ∧
      (Checker.init zeroKey (Block.zero 2) Nat.two_pos
          (tags zeroKey [[1, 0], [2, 0]])).run [[1, 0], [2]] =
        .ok () := by
  have independent := cut_independent zeroKey Nat.two_pos threeBytes
  rw [chunks_threeBytes] at independent
  exact ⟨independent.1 _ _ rfl,
    (independent.2.1 64).trans (by decide),
    independent.2.2 _ _ rfl⟩

/-- The accepted data of the counterexample are filled up. -/
theorem accepts_filled_up_missingChunk :
    padded 2 [1, 0] <+: padded 2 threeBytes :=
  (accepts_filled_up Nat.two_pos (separates_both (by decide)) (by rfl)
    (by rfl) threeBytes_tagged missingChunk_checked).2.1 rfl

/--
Two bytes of the three are accepted, the second chunk being missing, and so are
four, the last being the zero that fills up the second chunk.
-/
theorem threeBytes_not_alone :
    (Tagger.init zeroKey (Block.zero 2) Nat.two_pos).run [threeBytes] =
        .ok (tags zeroKey [[1, 0], [2, 0]]) ∧
      (Set.InjOn (macOf zeroKey)
          {part | part ∈ chunks 2 0 threeBytes ++ chunks 2 0 [1, 0]} ∧
        (Checker.init zeroKey (Block.zero 2) Nat.two_pos
            (tags zeroKey [[1, 0], [2, 0]])).run [[1, 0]] = .ok () ∧
        [1, 0] ≠ threeBytes) ∧
      Set.InjOn (macOf zeroKey)
          {part | part ∈ chunks 2 0 threeBytes ++ chunks 2 0 [1, 0, 2, 0]} ∧
        (Checker.init zeroKey (Block.zero 2) Nat.two_pos
            (tags zeroKey [[1, 0], [2, 0]])).run [[1, 0, 2, 0]] = .ok () ∧
        [1, 0, 2, 0] ≠ threeBytes := by
  refine ⟨?tagged,
    ⟨separates_both (by decide), missingChunk_checked, by decide⟩,
    separates_both (by decide), ?longer, by decide⟩
  case tagged =>
    rw [Tagger.run_init Nat.two_pos, ← chunks_threeBytes]
    rfl
  case longer =>
    rw [Checker.run_init Nat.two_pos]
    decide

end Counterexample

end Gossveil.ChunkMac
