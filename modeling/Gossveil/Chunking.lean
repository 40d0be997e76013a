import Mathlib.Tactic

namespace Gossveil.Chunking

/-!
# Chunks of a stream

A stream arrives in pieces and is worked on in chunks of one size.  What waits
for a whole chunk is held back, so the work does not depend on the pieces: it
is one step for each whole chunk, in order, and the rest stays held.

Nothing here mentions the program; items and steps are arbitrary.
-/

universe u v

variable {α : Type u} {σ : Type u} {m : Type u → Type v}

/-! ## Whole chunks and the rest -/

/-- The chunk at a place. -/
def chunkAt (size : Nat) (items : List α) (index : Nat) : List α :=
  (items.drop (index * size)).take size

/-- The whole chunks of a list, in order. -/
def whole (size : Nat) (items : List α) : List (List α) :=
  (List.range (items.length / size)).map (chunkAt size items)

/-- What follows the last whole chunk. -/
def rest (size : Nat) (items : List α) : List α :=
  items.drop (items.length / size * size)

theorem whole_of_short
    {size : Nat}
    {items : List α}
    (short : items.length < size) :
    whole size items = [] := by
  simp [whole, Nat.div_eq_of_lt short]

theorem rest_of_short
    {size : Nat}
    {items : List α}
    (short : items.length < size) :
    rest size items = items := by
  simp [rest, Nat.div_eq_of_lt short]

/-- The first chunk is what stands in front. -/
theorem chunkAt_append_zero
    {front later : List α} :
    chunkAt front.length (front ++ later) 0 = front := by
  simp [chunkAt]

/-- The later chunks are those behind the front. -/
theorem chunkAt_append_succ
    {front later : List α}
    (index : Nat) :
    chunkAt front.length (front ++ later) (index + 1) =
      chunkAt front.length later index := by
  rw [chunkAt, Nat.add_mul, Nat.one_mul, Nat.add_comm,
    List.drop_append, List.drop_eq_nil_of_le (by simp)]
  simp [chunkAt]

/-- A full front is one chunk more. -/
private theorem count_append
    {front later : List α}
    (positive : 0 < front.length) :
    (front ++ later).length / front.length =
      later.length / front.length + 1 := by
  rw [List.length_append, Nat.add_div_left _ positive]

/-- A first chunk stands in front of the chunks of what follows it. -/
theorem whole_append
    {front later : List α}
    (positive : 0 < front.length) :
    whole front.length (front ++ later) =
      front :: whole front.length later := by
  rw [whole, count_append positive, List.range_succ_eq_map, List.map_cons,
    chunkAt_append_zero, List.map_map]
  congr 1
  exact List.map_congr_left fun index _ => chunkAt_append_succ index

/-- A full front leaves the same rest. -/
theorem rest_append
    {front later : List α}
    (positive : 0 < front.length) :
    rest front.length (front ++ later) = rest front.length later := by
  rw [rest, count_append positive, Nat.add_mul, Nat.one_mul, Nat.add_comm,
    List.drop_append, List.drop_eq_nil_of_le (by simp)]
  simp [rest]

/-- Induction on a list chunk by chunk. -/
theorem chunk_induction
    {size : Nat}
    (positive : 0 < size)
    {motive : List α → Prop}
    (short : ∀ items, items.length < size → motive items)
    (longer :
      ∀ front later, front.length = size → motive later →
        motive (front ++ later))
    (items : List α) :
    motive items := by
  induction count : items.length using Nat.strongRecOn generalizing items with
  | ind count inductionHypothesis =>
      by_cases below : items.length < size
      · exact short items below
      · have reaches : size ≤ items.length := Nat.not_lt.mp below
        rw [← List.take_append_drop size items]
        exact longer _ _ (List.length_take_of_le reaches)
          (inductionHypothesis (items.drop size).length
            (by rw [List.length_drop, ← count]
                exact Nat.sub_lt (Nat.lt_of_lt_of_le positive reaches) positive)
            _ rfl)

/-! ## The last chunk filled up -/

/-- A chunk filled up to the size. -/
def pad (size : Nat) (filler : α) (items : List α) : List α :=
  items ++ List.replicate (size - items.length) filler

/-- How many chunks there are, the last one possibly short. -/
def count (size length : Nat) : Nat :=
  (length + size - 1) / size

/-- The chunks of a list, the last one filled up. -/
def chunks (size : Nat) (filler : α) (items : List α) : List (List α) :=
  (List.range (count size items.length)).map fun index =>
    pad size filler (chunkAt size items index)

theorem pad_of_full
    {size : Nat}
    {filler : α}
    {items : List α}
    (full : items.length = size) :
    pad size filler items = items := by
  simp [pad, full]

theorem length_pad
    {size : Nat}
    {filler : α}
    {items : List α}
    (fits : items.length ≤ size) :
    (pad size filler items).length = size := by
  rw [pad, List.length_append, List.length_replicate,
    Nat.add_sub_of_le fits]

@[simp] theorem length_chunks
    {size : Nat}
    {filler : α}
    {items : List α} :
    (chunks size filler items).length = count size items.length := by
  simp [chunks]

/-- Every chunk is full. -/
theorem length_of_mem_chunks
    {size : Nat}
    {filler : α}
    {items chunk : List α}
    (member : chunk ∈ chunks size filler items) :
    chunk.length = size := by
  rw [chunks, List.mem_map] at member
  obtain ⟨index, _, rfl⟩ := member
  exact length_pad (List.length_take_le _ _)

theorem chunks_nil
    {size : Nat}
    (positive : 0 < size)
    {filler : α} :
    chunks size filler [] = [] := by
  have none_left : count size 0 = 0 :=
    Nat.div_eq_of_lt (by simpa using positive)
  simp [chunks, none_left]

theorem chunks_of_short
    {size : Nat}
    {filler : α}
    {items : List α}
    (some_items : items ≠ [])
    (short : items.length < size) :
    chunks size filler items = [pad size filler items] := by
  have positive := List.length_pos_of_ne_nil some_items
  have single : count size items.length = 1 := by
    rw [count, Nat.add_sub_assoc (Nat.one_le_of_lt short),
      Nat.add_comm, ← Nat.sub_add_comm (Nat.one_le_of_lt short),
      Nat.add_sub_assoc positive, Nat.add_comm,
      Nat.add_div_right _ (Nat.lt_trans positive short),
      Nat.div_eq_of_lt (Nat.lt_of_le_of_lt (Nat.sub_le _ _) short)]
  simp [chunks, single, chunkAt, List.take_of_length_le (Nat.le_of_lt short)]

private theorem count_add
    {size : Nat}
    (positive : 0 < size)
    (length : Nat) :
    count size (size + length) = count size length + 1 := by
  rw [count, Nat.add_assoc,
    Nat.add_sub_assoc (Nat.le_add_left_of_le positive),
    Nat.add_div_left _ positive, count]

/-- A full front is the first chunk. -/
theorem chunks_append
    {filler : α}
    {front later : List α}
    (positive : 0 < front.length) :
    chunks front.length filler (front ++ later) =
      front :: chunks front.length filler later := by
  rw [chunks, List.length_append, count_add positive,
    List.range_succ_eq_map, List.map_cons, chunkAt_append_zero,
    pad_of_full rfl, List.map_map]
  congr 1
  exact List.map_congr_left fun index _ =>
    congrArg _ (chunkAt_append_succ index)

/-- The chunks are the whole ones and the rest filled up, if there is one. -/
theorem chunks_eq
    {size : Nat}
    (positive : 0 < size)
    {filler : α}
    (items : List α) :
    chunks size filler items =
      whole size items ++
        if (rest size items).length = 0 then []
        else [pad size filler (rest size items)] := by
  induction items using chunk_induction positive with
  | short items below =>
      rw [whole_of_short below, rest_of_short below, List.nil_append]
      by_cases empty : items = []
      · subst empty
        simp [chunks_nil positive]
      · rw [if_neg (by simpa using empty), chunks_of_short empty below]
  | longer front later isChunk inductionHypothesis =>
      subst isChunk
      rw [whole_append positive, rest_append positive, chunks_append positive,
        inductionHypothesis, List.cons_append]

/-- The chunks in a row are the list filled up to whole chunks. -/
theorem flatten_chunks
    {size : Nat}
    (positive : 0 < size)
    {filler : α}
    (items : List α) :
    (chunks size filler items).flatten =
      items ++
        List.replicate (count size items.length * size - items.length)
          filler := by
  induction items using chunk_induction positive with
  | short items below =>
      by_cases empty : items = []
      · subst empty
        have none_left : count size 0 = 0 :=
          Nat.div_eq_of_lt (by simpa using positive)
        simp [chunks_nil positive, none_left]
      · have chunk : chunks size filler items = [pad size filler items] :=
          chunks_of_short empty below
        have single := congrArg List.length chunk
        rw [length_chunks, List.length_singleton] at single
        rw [chunk, single, Nat.one_mul]
        simp [pad]
  | longer front later isChunk inductionHypothesis =>
      subst isChunk
      rw [chunks_append positive, List.flatten_cons, inductionHypothesis,
        List.length_append, count_add positive, Nat.add_mul, Nat.one_mul,
        Nat.add_comm front.length, Nat.add_sub_add_right, List.append_assoc]

/-- Lists of chunks of one size are prefixes as their concatenations are. -/
theorem flatten_prefix_iff
    {size : Nat}
    (positive : 0 < size)
    {front later : List (List α)}
    (sized : ∀ chunk ∈ front, chunk.length = size)
    (sizedLater : ∀ chunk ∈ later, chunk.length = size) :
    front.flatten <+: later.flatten ↔ front <+: later := by
  induction front generalizing later with
  | nil => simp
  | cons first front inductionHypothesis =>
      rw [List.forall_mem_cons] at sized
      cases later with
      | nil =>
          simp only [List.flatten_nil, List.prefix_nil, reduceCtorEq, iff_false]
          intro empty
          have length := congrArg List.length empty
          simp [sized.1, Nat.ne_of_gt positive] at length
      | cons other later =>
          rw [List.forall_mem_cons] at sizedLater
          rw [List.flatten_cons, List.flatten_cons, List.cons_prefix_cons,
            ← inductionHypothesis sized.2 sizedLater.2]
          constructor
          · intro within
            have same : first = other := by
              have starts := (List.prefix_append first _).trans within
              exact (List.prefix_of_prefix_length_le starts
                (List.prefix_append other _)
                (by rw [sized.1, sizedLater.1])).eq_of_length
                  (by rw [sized.1, sizedLater.1])
            subst same
            exact ⟨rfl, (List.prefix_append_right_inj first).mp within⟩
          · rintro ⟨rfl, within⟩
            exact (List.prefix_append_right_inj first).mpr within

/-! ## Feeding a stream -/

variable [Monad m] [LawfulMonad m]

/-- One item: it completes the held chunk, which is worked on, or is held. -/
def step
    (size : Nat)
    (act : σ → List α → m σ)
    (current : σ × List α)
    (item : α) :
    m (σ × List α) :=
  if current.2.length + 1 = size then do
    let state ← act current.1 (current.2 ++ [item])
    pure (state, [])
  else
    pure (current.1, current.2 ++ [item])

/-- A piece of the stream, item by item. -/
def feed
    (size : Nat)
    (act : σ → List α → m σ)
    (current : σ × List α)
    (items : List α) :
    m (σ × List α) :=
  items.foldlM (step size act) current

/-- Feeding two pieces is feeding their concatenation. -/
theorem feed_append
    {size : Nat}
    {act : σ → List α → m σ}
    {current : σ × List α}
    (front later : List α) :
    feed size act current (front ++ later) = (do
      let between ← feed size act current front
      feed size act between later) :=
  List.foldlM_append

/-- Pieces fed one after the other are fed as their concatenation. -/
theorem feed_flatten
    {size : Nat}
    {act : σ → List α → m σ}
    {current : σ × List α}
    (pieces : List (List α)) :
    pieces.foldlM (feed size act) current =
      feed size act current pieces.flatten := by
  induction pieces generalizing current with
  | nil => rfl
  | cons piece pieces inductionHypothesis =>
      rw [List.foldlM_cons, List.flatten_cons, feed_append]
      exact congrArg (feed size act current piece >>= ·)
        (funext fun between => inductionHypothesis)

/-- Items that do not complete the chunk are held. -/
theorem feed_short
    {size : Nat}
    {act : σ → List α → m σ}
    {state : σ}
    {held items : List α}
    (short : held.length + items.length < size) :
    feed size act (state, held) items = pure (state, held ++ items) := by
  induction items generalizing held with
  | nil => simp [feed]
  | cons item items inductionHypothesis =>
      simp only [List.length_cons] at short
      have unfinished : ¬ held.length + 1 = size := by
        intro full
        rw [← full] at short
        exact absurd short (by simp)
      have later :
          feed size act (state, held ++ [item]) items =
            pure (state, held ++ [item] ++ items) :=
        inductionHypothesis
          (by simpa [Nat.add_assoc, Nat.add_comm 1] using short)
      rw [feed, List.foldlM_cons, step, if_neg unfinished, pure_bind]
      simpa [feed] using later

/-- Items that complete the chunk exactly have it worked on. -/
theorem feed_full
    {size : Nat}
    {act : σ → List α → m σ}
    {state : σ}
    {held items : List α}
    (some_items : items ≠ [])
    (full : held.length + items.length = size) :
    feed size act (state, held) items = (do
      let after ← act state (held ++ items)
      pure (after, [])) := by
  obtain ⟨front, last, rfl⟩ :=
    (List.eq_nil_or_concat items).resolve_left some_items
  rw [List.length_concat, ← Nat.add_assoc] at full
  rw [List.concat_eq_append, feed_append,
    feed_short (by rw [← full]; exact Nat.lt_succ_self _), pure_bind, feed,
    List.foldlM_cons, step, if_pos (by simpa using full)]
  simp

/-- A stream is worked on chunk by chunk, and its rest is held. -/
theorem feed_eq
    {size : Nat}
    (positive : 0 < size)
    {act : σ → List α → m σ}
    {state : σ}
    (items : List α) :
    feed size act (state, []) items = (do
      let after ← (whole size items).foldlM act state
      pure (after, rest size items)) := by
  induction items using chunk_induction positive generalizing state with
  | short items below =>
      rw [whole_of_short below, rest_of_short below,
        feed_short (by simpa using below)]
      simp
  | longer front later isChunk inductionHypothesis =>
      subst isChunk
      have some_items : front ≠ [] := List.ne_nil_of_length_pos positive
      rw [feed_append, feed_full some_items (by simp), whole_append positive,
        rest_append positive, List.foldlM_cons]
      simp [inductionHypothesis]

/-- The end of the stream: what is held is filled up and worked on. -/
def finish
    (size : Nat)
    (filler : α)
    (act : σ → List α → m σ)
    (current : σ × List α) :
    m σ :=
  if current.2.length = 0 then pure current.1
  else act current.1 (pad size filler current.2)

/-- A whole stream is one step for each of its chunks. -/
theorem feed_finish
    {size : Nat}
    (positive : 0 < size)
    {filler : α}
    {act : σ → List α → m σ}
    {state : σ}
    (items : List α) :
    (do
      let current ← feed size act (state, []) items
      finish size filler act current) =
      (chunks size filler items).foldlM act state := by
  rw [feed_eq positive, chunks_eq positive, List.foldlM_append]
  simp only [bind_assoc, pure_bind, finish]
  congr 1
  funext after
  by_cases empty : (rest size items).length = 0
  · rw [if_pos empty, if_pos empty, List.foldlM_nil]
  · rw [if_neg empty, if_neg empty, List.foldlM_cons]
    simp

end Gossveil.Chunking
