import Gossveil.FlowKeys
import Gossveil.StreamRecord

namespace Gossveil.KeyStream

open TwoParty

/-!
# The keys of a stream

The secrets known so far fix the chains of every epoch.  A stream that follows
them sends and receives on those chains, keeps the epochs from the one it last
sent in, and yields no key of a received index twice.
-/

variable [Hashes]

/-! ## The chains of the epochs -/

/-- The keys of the epoch that some secrets lead to. -/
def keysAfter (initial : Bytes) (secrets : List (Block 32)) : Block 96 :=
  secrets.foldl
    (fun keys secret =>
      Stream.expand (Stream.rootOf keys).bytes secret.bytes
        Stream.addEpochLabel)
    (Stream.expand (Block.zero 32).bytes initial Stream.startLabel)

/-- The chain on which a side sends in an epoch. -/
def chainIn
    (initial : Bytes)
    (secrets : List (Block 32))
    (epoch : Nat)
    (side : Side) :
    Block 32 :=
  Stream.chainOf (keysAfter initial (secrets.take epoch)) side

/-- One more secret opens one more epoch. -/
theorem keysAfter_concat
    (initial : Bytes)
    (secrets : List (Block 32))
    (secret : Block 32) :
    keysAfter initial (secrets ++ [secret]) =
      Stream.expand (Stream.rootOf (keysAfter initial secrets)).bytes
        secret.bytes Stream.addEpochLabel := by
  rw [keysAfter, List.foldl_append]
  rfl

/-- Later secrets leave the chains of an epoch alone. -/
theorem chainIn_append
    (initial : Bytes)
    {secrets : List (Block 32)}
    (later : List (Block 32))
    {epoch : Nat}
    (known : epoch ≤ secrets.length)
    (side : Side) :
    chainIn initial (secrets ++ later) epoch side =
      chainIn initial secrets epoch side := by
  rw [chainIn, List.take_append_of_le_length known]
  rfl

/-! ## Streams -/

/-- The flows of an epoch are on its chains. -/
structure EpochFollows
    (sending receiving : Block 32)
    (taken : Nat → Prop)
    (isOpen : Prop)
    (flows : Epoch) :
    Prop where
  recv : Receives receiving taken flows.recv
  send :
    isOpen →
      flows.send.next = some (chainAt sending flows.send.counter)
  nothingHeld : flows.send.held = []
  sendFits : flows.send.counter < 2 ^ 32
  recvFits : flows.recv.counter < 2 ^ 32

/-- The stream knows the secrets and has yielded the taken keys. -/
structure Follows
    (initial : Bytes)
    (side : Side)
    (limits : Limits)
    (secrets : List (Block 32))
    (taken : Nat → Nat → Prop)
    (first : Nat)
    (stream : Stream) :
    Prop where
  sameSide : stream.side = side
  sameLimits : stream.limits = limits
  epoch : stream.epoch = secrets.length
  root : stream.nextRoot = Stream.rootOf (keysAfter initial secrets)
  aligned : first + stream.epochs.length = secrets.length + 1
  sendKept : first ≤ stream.sendEpoch
  sendKnown : stream.sendEpoch ≤ secrets.length
  flows :
    ∀ place flows, stream.epochs[place]? = some flows →
      EpochFollows (chainIn initial secrets (first + place) side)
        (chainIn initial secrets (first + place) side.other)
        (taken (first + place)) (stream.sendEpoch ≤ first + place) flows
  known : ∀ epoch index, taken epoch index → epoch ≤ secrets.length

/-- No flow counter is near the end of its range. -/
def CountersFit (stream : Stream) : Prop :=
  ∀ flows ∈ stream.epochs,
    flows.send.counter + stream.limits.skipped + 1 < 2 ^ 32 ∧
      flows.recv.counter + stream.limits.skipped + 1 < 2 ^ 32

namespace Follows

variable
  {initial : Bytes}
  {side : Side}
  {limits : Limits}
  {secrets : List (Block 32)}
  {taken : Nat → Nat → Prop}
  {first : Nat}
  {stream : Stream}

/-- A fresh flow has received nothing. -/
private theorem fresh_receives
    (start : Block 32)
    {taken : Nat → Prop}
    (none_ : ∀ index, ¬ taken index) :
    Receives start taken ⟨0, some start, []⟩ :=
  ⟨rfl, by simp, by simp, by simp, by simp, by simp,
    fun index isTaken => absurd isTaken (none_ index)⟩

/-- The flows of an epoch that nobody has used. -/
private theorem epochFrom_follows
    {keys : Block 96}
    {sending receiving : Block 32}
    (isSending : Stream.chainOf keys side = sending)
    (isReceiving : Stream.chainOf keys side.other = receiving)
    {taken : Nat → Prop}
    (unused : ∀ index, ¬ taken index)
    (isOpen : Prop) :
    EpochFollows sending receiving taken isOpen
      (Stream.epochFrom keys side) := by
  subst isSending isReceiving
  exact ⟨fresh_receives _ unused, fun _ => rfl, rfl, Nat.two_pow_pos 32,
    Nat.two_pow_pos 32⟩

/-- The stream before its first key. -/
theorem start
    (initial : Bytes)
    (side : Side)
    (limits : Limits) :
    Follows initial side limits [] (fun _ _ => False) 0
      (Stream.start initial side limits) := by
  refine ⟨rfl, rfl, rfl, rfl, rfl, Nat.le_refl 0, Nat.le_refl 0, ?_,
    fun _ _ isTaken => isTaken.elim⟩
  intro place flows found
  cases place with
  | zero =>
      cases found
      exact epochFrom_follows rfl rfl (fun _ => not_false) _
  | succ place => cases found

/-- Some epoch is always kept. -/
theorem epochs_ne_nil
    (follows : Follows initial side limits secrets taken first stream) :
    stream.epochs ≠ [] := by
  intro isEmpty
  have aligned := follows.aligned
  have sendKept := follows.sendKept
  have sendKnown := follows.sendKnown
  rw [isEmpty, List.length_nil] at aligned
  omega

/-- An unused epoch more keeps the counters in their bounds. -/
theorem nextEpoch_fit
    (follows : Follows initial side limits secrets taken first stream)
    {epoch : Nat}
    {secret : Bytes}
    {after : Stream}
    (fit : CountersFit stream)
    (opens : stream.nextEpoch epoch secret = .ok after) :
    CountersFit after := by
  obtain ⟨following, _, checked⟩ := Outcome.bind_eq_ok.mp opens
  obtain ⟨_, _, ⟨⟩⟩ := Outcome.bind_eq_ok.mp checked
  intro flows member
  rcases List.mem_append.mp member with inOld | isNew
  · exact fit flows inOld
  · rw [List.mem_singleton] at isNew
    subst isNew
    obtain ⟨old, inOld⟩ :=
      List.exists_mem_of_ne_nil _ follows.epochs_ne_nil
    have bound := (fit old inOld).1
    constructor <;> simp only [Stream.epochFrom] <;> omega

/-- A new secret opens the next epoch. -/
theorem nextEpoch
    (follows : Follows initial side limits secrets taken first stream)
    (secret : Block 32)
    (fits : secrets.length + 1 < 2 ^ 64) :
    ∃ after,
      stream.nextEpoch (secrets.length + 1) secret.bytes = .ok after ∧
        Follows initial side limits (secrets ++ [secret]) taken first
          after ∧
        after.sendEpoch = stream.sendEpoch := by
  have epochFits : stream.epoch + 1 < 2 ^ 64 := by
    rw [follows.epoch]
    exact fits
  rw [Stream.nextEpoch, Outcome.add_of_lt epochFits, Outcome.ok_bind,
    Outcome.assert_of (by rw [follows.epoch]), Outcome.ok_bind,
    follows.root, ← keysAfter_concat, follows.sameSide]
  refine ⟨_, rfl, ⟨rfl, follows.sameLimits, ?_, rfl, ?_, follows.sendKept, ?_,
    ?_, ?_⟩, rfl⟩
  · rw [List.length_append]
    rfl
  · have aligned := follows.aligned
    simp only [List.length_append, List.length_singleton]
    omega
  · rw [List.length_append]
    exact Nat.le_succ_of_le follows.sendKnown
  · intro place flows found
    rw [List.getElem?_append] at found
    split_ifs at found with inside
    · have known : first + place ≤ secrets.length := by
        have aligned := follows.aligned
        omega
      rw [chainIn_append initial _ known, chainIn_append initial _ known]
      exact follows.flows place flows found
    · have last : place = stream.epochs.length := by
        have bounded := (List.getElem?_eq_some_iff.mp found).1
        simp only [List.length_singleton] at bounded
        omega
      subst last
      rw [Nat.sub_self] at found
      cases found
      have isLast : first + stream.epochs.length = secrets.length + 1 :=
        follows.aligned
      have whole :
          (secrets ++ [secret]).take (secrets.length + 1) =
            secrets ++ [secret] :=
        List.take_of_length_le (by simp)
      rw [isLast]
      refine epochFrom_follows ?_ ?_ ?_ _
      · rw [chainIn, whole]
      · rw [chainIn, whole]
      · intro index isTaken
        exact Nat.not_succ_le_self _ (follows.known _ _ isTaken)
  · intro epoch index isTaken
    rw [List.length_append]
    exact Nat.le_succ_of_le (follows.known epoch index isTaken)

/-- Where an epoch that is kept stands. -/
theorem slotOf
    (follows : Follows initial side limits secrets taken first stream)
    {epoch : Nat}
    (kept : first ≤ epoch)
    (known : epoch ≤ secrets.length) :
    stream.slotOf epoch = .ok (epoch - first) := by
  have aligned := follows.aligned
  rw [Stream.slotOf, follows.epoch, if_neg (by omega), if_neg (by omega)]
  congr 1
  omega

/-- An epoch that is not kept, or not known yet, is refused. -/
theorem slotOf_eq_ok
    (follows : Follows initial side limits secrets taken first stream)
    {epoch slot : Nat}
    (found : stream.slotOf epoch = .ok slot) :
    first + slot = epoch ∧ epoch ≤ secrets.length := by
  have aligned := follows.aligned
  rw [Stream.slotOf, follows.epoch] at found
  split_ifs at found with ahead gone
  cases found
  constructor <;> omega

/-- A kept epoch has its flows. -/
theorem flowsInside
    (follows : Follows initial side limits secrets taken first stream)
    {epoch : Nat}
    (kept : first ≤ epoch)
    (known : epoch ≤ secrets.length) :
    epoch - first < stream.epochs.length := by
  have aligned := follows.aligned
  omega

/-- The flows of a kept epoch. -/
theorem flowsAt
    (follows : Follows initial side limits secrets taken first stream)
    {epoch : Nat}
    (kept : first ≤ epoch)
    (known : epoch ≤ secrets.length) :
    ∃ flows, stream.epochs[epoch - first]? = some flows :=
  ⟨_, List.getElem?_eq_getElem (follows.flowsInside kept known)⟩

/-- One epoch's flows change. -/
theorem set
    (follows : Follows initial side limits secrets taken first stream)
    {taken' : Nat → Nat → Prop}
    {slot : Nat}
    {changed : Epoch}
    (others : ∀ epoch, epoch ≠ first + slot → taken' epoch = taken epoch)
    (isChanged :
      EpochFollows (chainIn initial secrets (first + slot) side)
        (chainIn initial secrets (first + slot) side.other)
        (taken' (first + slot)) (stream.sendEpoch ≤ first + slot) changed)
    (known : ∀ index, taken' (first + slot) index →
      first + slot ≤ secrets.length) :
    Follows initial side limits secrets taken' first
      { stream with epochs := stream.epochs.set slot changed } := by
  refine ⟨follows.sameSide, follows.sameLimits, follows.epoch, follows.root, ?_,
    follows.sendKept, follows.sendKnown, ?_, ?_⟩
  · rw [List.length_set]
    exact follows.aligned
  · intro place flows found
    rw [List.getElem?_set] at found
    split_ifs at found with same inside
    · subst same
      cases found
      exact isChanged
    · rw [others _ (by omega)]
      exact follows.flows place flows found
  · intro epoch index isTaken
    by_cases same : epoch = first + slot
    · subst same
      exact known index isTaken
    · rw [others epoch same] at isTaken
      exact follows.known epoch index isTaken

/-- Sending in an epoch keeps it, and the one before it at most. -/
theorem pruned
    (follows : Follows initial side limits secrets taken first stream)
    {epoch : Nat}
    (notBack : stream.sendEpoch ≤ epoch)
    (known : epoch ≤ secrets.length) :
    ∃ after first',
      stream.pruned epoch (epoch - first) = (after, epoch - first') ∧
        first' ≤ epoch ∧
        after.sendEpoch = epoch ∧
        (∀ flows ∈ after.epochs, ∃ old ∈ stream.epochs,
          flows.send.counter = old.send.counter) ∧
        Follows initial side limits secrets taken first' after := by
  have aligned := follows.aligned
  have sendKept := follows.sendKept
  rw [Stream.pruned]
  split_ifs with same
  · exact ⟨stream, first, rfl, by omega, same,
      fun flows member => ⟨flows, member, rfl⟩, follows⟩
  · generalize isDropped :
      epoch - first - epochsKeptBeforeSend = dropped
    have droppedFirst : dropped + first ≤ epoch := by
      omega
    have slotShape : epoch - first - dropped = epoch - (first + dropped) := by
      omega
    simp only
    refine ⟨_, first + dropped, Prod.ext rfl slotShape, ?_⟩
    refine ⟨by omega, rfl, ?_,
      ⟨follows.sameSide, follows.sameLimits, follows.epoch, follows.root, ?_, ?_,
        known, ?_, follows.known⟩⟩
    · intro flows member
      rcases List.mem_append.mp member with inClosed | inOpen
      · rcases List.mem_map.mp inClosed with ⟨old, inTaken, rfl⟩
        exact ⟨old, List.mem_of_mem_drop (List.mem_of_mem_take inTaken),
          rfl⟩
      · exact ⟨flows,
          List.mem_of_mem_drop (List.mem_of_mem_drop inOpen), rfl⟩
    · simp only [List.length_append, List.length_map, List.length_take,
        List.length_drop]
      omega
    · simp only
      omega
    · intro place flows found
      rw [List.getElem?_append] at found
      split_ifs at found with inside
      · rw [List.getElem?_map] at found
        rcases Option.map_eq_some_iff.mp found with ⟨old, isOld, rfl⟩
        rw [List.length_map, List.length_take] at inside
        rw [List.getElem?_take_of_lt (by omega), List.getElem?_drop]
          at isOld
        have before := follows.flows _ _ isOld
        rw [← Nat.add_assoc] at before
        exact ⟨before.recv, fun isOpen => by
            simp only at isOpen
            omega,
          before.nothingHeld, before.sendFits, before.recvFits⟩
      · simp only [List.length_map, List.length_take, List.length_drop]
          at inside found
        rw [List.getElem?_drop, List.getElem?_drop] at found
        have before := follows.flows _ _ found
        have place' :
            first + (dropped + (epoch - first - dropped +
                (place - min (epoch - first - dropped)
                  (stream.epochs.length - dropped)))) =
              first + dropped + place := by
          omega
        rw [place'] at before
        exact ⟨before.recv, fun isOpen => before.send (by
            simp only at isOpen
            omega),
          before.nothingHeld, before.sendFits, before.recvFits⟩

/-- A send steps the flow of its epoch, once the older epochs are pruned. -/
private theorem keyToSend_steps
    (follows : Follows initial side limits secrets taken first stream)
    {epoch : Nat}
    (notBack : stream.sendEpoch ≤ epoch)
    (known : epoch ≤ secrets.length) :
    ∃ between first' flows,
      first' ≤ epoch ∧
        between.sendEpoch = epoch ∧
        (∃ old ∈ stream.epochs,
          flows.send.counter = old.send.counter) ∧
        between.epochs[epoch - first']? = some flows ∧
        EpochFollows (chainIn initial secrets epoch side)
          (chainIn initial secrets epoch side.other) (taken epoch)
          (epoch ≤ epoch) flows ∧
        Follows initial side limits secrets taken first' between ∧
        stream.keyToSend epoch = (do
          let (key, send) ← flows.send.step
          return (send.counter, key,
            { between with
              epochs :=
                between.epochs.set (epoch - first')
                  { flows with send := send } })) := by
  have kept : first ≤ epoch := follows.sendKept.trans notBack
  rcases follows.pruned notBack known with
    ⟨between, first', prunes, first'Kept, sendEpoch, counters,
      betweenFollows⟩
  rcases betweenFollows.flowsAt first'Kept known with ⟨flows, isFlows⟩
  have followed := betweenFollows.flows _ _ isFlows
  rw [Nat.add_sub_cancel' first'Kept, sendEpoch] at followed
  refine ⟨between, first', flows, first'Kept, sendEpoch,
    counters flows (List.mem_of_getElem? isFlows), isFlows, followed,
    betweenFollows, ?_⟩
  rw [Stream.keyToSend, if_neg (Nat.not_lt.mpr notBack),
    follows.slotOf kept known, Outcome.ok_bind, prunes]
  simp only
  rw [isFlows, Outcome.unwrap_some, Outcome.ok_bind,
    followed.send (Nat.le_refl epoch), if_neg (by simp)]

/-- The key of a send is the one of the next index on the sending chain. -/
theorem keyToSend_returns
    (follows : Follows initial side limits secrets taken first stream)
    {epoch : Nat}
    (notBack : stream.sendEpoch ≤ epoch)
    (known : epoch ≤ secrets.length) :
    Outcome.Returns
      (fun result =>
        result.2.1 =
            messageKey (chainIn initial secrets epoch side) result.1 ∧
          1 ≤ result.1 ∧
          result.1 < 2 ^ 32 ∧
          (∃ flows ∈ result.2.2.epochs, flows.send.counter = result.1) ∧
          result.2.2.sendEpoch = epoch ∧
          ∃ first',
            Follows initial side limits secrets taken first' result.2.2)
      (stream.keyToSend epoch) := by
  obtain ⟨between, first', flows, first'Kept, sendEpoch, _, isFlows,
    followed, betweenFollows, shape⟩ :=
    follows.keyToSend_steps notBack known
  rw [shape]
  refine .bind fun stepped steps => .ok ?_
  have counterFits : flows.send.counter + 1 < 2 ^ 32 := by
    rw [Flow.step, followed.send (Nat.le_refl epoch),
      Outcome.unwrap_some, Outcome.ok_bind] at steps
    obtain ⟨_, added, _⟩ := Outcome.bind_eq_ok.mp steps
    exact (Outcome.add_eq_ok.mp added).1
  rw [Flow.step_chain (followed.send (Nat.le_refl epoch)) counterFits]
    at steps
  cases steps
  refine ⟨rfl, Nat.succ_pos _, counterFits, ?_, sendEpoch, first', ?_⟩
  · exact ⟨_, List.mem_set (betweenFollows.flowsInside first'Kept known)
      _, rfl⟩
  · refine betweenFollows.set (fun _ _ => rfl) ?_ ?_
    · rw [Nat.add_sub_cancel' first'Kept]
      exact ⟨followed.recv, fun _ => rfl, followed.nothingHeld,
        counterFits, followed.recvFits⟩
    · intro index isTaken
      rw [Nat.add_sub_cancel' first'Kept]
      exact known

/-- A key to send in the epoch a side last sent in, or a later one it knows. -/
theorem keyToSend
    (follows : Follows initial side limits secrets taken first stream)
    (fit : CountersFit stream)
    {epoch : Nat}
    (notBack : stream.sendEpoch ≤ epoch)
    (known : epoch ≤ secrets.length) :
    ∃ result, stream.keyToSend epoch = .ok result := by
  obtain ⟨between, first', flows, _, _, ⟨old, inOld, same⟩, _, followed, _,
    shape⟩ := follows.keyToSend_steps notBack known
  have bound := (fit old inOld).1
  rw [shape, Flow.step_chain (followed.send (Nat.le_refl epoch))
    (by omega)]
  exact ⟨_, rfl⟩

/-- A key to receive is refused, or it is the sender's and was never taken. -/
theorem keyToReceive
    (follows : Follows initial side limits secrets taken first stream)
    (fit : CountersFit stream)
    (epoch : Nat)
    {index : Nat}
    (indexFits : index + limits.skipped < 2 ^ 32) :
    (∃ fault, stream.keyToReceive epoch index = .error fault) ∨
      ∃ after,
        stream.keyToReceive epoch index =
            .ok (messageKey (chainIn initial secrets epoch side.other) index,
              after) ∧
          epoch ≤ secrets.length ∧
          ¬ taken epoch index ∧
          after.sendEpoch = stream.sendEpoch ∧
          Follows initial side limits secrets
            (fun other place =>
              taken other place ∨ (other = epoch ∧ place = index))
            first after := by
  rw [Stream.keyToReceive]
  cases found : stream.slotOf epoch with
  | error fault => exact Or.inl ⟨fault, rfl⟩
  | trap =>
      rw [Stream.slotOf] at found
      split_ifs at found
  | ok slot =>
      rcases follows.slotOf_eq_ok found with ⟨isEpoch, known⟩
      rcases follows.flowsAt (Nat.le.intro isEpoch) known with
        ⟨flows, isFlows⟩
      have isSlot : epoch - first = slot := by
        omega
      rw [isSlot] at isFlows
      have followed := follows.flows slot flows isFlows
      rw [isEpoch] at followed
      have bound := (fit flows (List.mem_of_getElem? isFlows)).2
      rw [Outcome.ok_bind, isFlows, Outcome.unwrap_some, Outcome.ok_bind,
        if_neg (by rw [followed.recv.onChain]; simp)]
      rw [← follows.sameLimits] at indexFits
      rcases keyAt_yields followed.recv indexFits with
        ⟨fault, refused⟩ | ⟨key, recv, yielded, yields⟩
      · rw [refused]
        exact Or.inl ⟨fault, rfl⟩
      · rw [yielded, yields.isKey]
        refine Or.inr ⟨_, rfl, known, yields.notTaken, rfl, ?_⟩
        refine follows.set ?_ ?_ ?_
        · intro other different
          funext place
          rw [isEpoch] at different
          exact propext ⟨fun isTaken => isTaken.resolve_right fun same =>
            different same.1, Or.inl⟩
        · rw [isEpoch]
          refine ⟨?_, followed.send, followed.nothingHeld,
            followed.sendFits, ?_⟩
          · simpa using yields.receives
          · rw [yields.counter]
            exact Nat.max_lt.mpr ⟨followed.recvFits, by omega⟩
        · intro place isTaken
          rw [isEpoch]
          exact known

/-- A stream that follows its secrets fits its record. -/
theorem recordable
    (follows : Follows initial side limits secrets taken first stream)
    (limitsFit : limits.Fits)
    (epochsFit : secrets.length < 2 ^ 64) :
    stream.Recordable := by
  refine ⟨?_, Nat.lt_of_le_of_lt follows.sendKnown epochsFit, ?_, ?_⟩
  · rw [follows.epoch]
    exact epochsFit
  · intro flows member
    rcases List.getElem?_of_mem member with ⟨place, isFlows⟩
    have followed := follows.flows place flows isFlows
    refine ⟨⟨followed.sendFits, ?_⟩, followed.recvFits, ?_⟩
    · rw [followed.nothingHeld]
      simp
    · exact fun entry inHeld =>
        Nat.lt_of_le_of_lt (followed.recv.passed entry inHeld)
          followed.recvFits
  · rw [follows.sameLimits]
    exact limitsFit

end Follows

end Gossveil.KeyStream
