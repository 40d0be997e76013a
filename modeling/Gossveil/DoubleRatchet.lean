import Gossveil.TwoParty

namespace Gossveil.DoubleRatchet

open TwoParty

/-!
# A double ratchet over queues that lose nothing

Each half has a key pair and a chain it sends in, and has last heard one key of
the other half.  A key that is new turns the half twice: once to the chain of
that key, once, with a fresh pair of its own, to its next sending chain.  One
half is always one turn ahead of the other, and takes its turns with the other
in lockstep.
-/

/-- What the halves compute with. -/
structure Rules (Pair Public Root Chain : Type) where
  publicKey : Pair → Public
  /-- The next root and the chain that opens with it. -/
  turn : Root → Pair → Public → Option (Root × Chain)
  next : Chain → Chain

/-- One half, between two messages. -/
structure Half (Pair Public Root Chain : Type) where
  root : Root
  pair : Pair
  chain : Chain
  /-- The key of the other half that was last heard, and its next chain. -/
  heard : Option (Public × Chain)

variable {Pair Public Root Chain : Type}

/-- Turns of pairs from a domain succeed, and are the same from both sides. -/
def Rules.Shares
    (rules : Rules Pair Public Root Chain)
    (Whole : Pair → Prop) :
    Prop :=
  ∀ root first second,
    Whole first →
    Whole second →
    ∃ after,
      rules.turn root first (rules.publicKey second) = some after ∧
        rules.turn root second (rules.publicKey first) = some after

namespace Half

/-- What the next message is sent under. -/
def stamp
    (rules : Rules Pair Public Root Chain)
    (half : Half Pair Public Root Chain) :
    Public × Chain :=
  (rules.publicKey half.pair, half.chain)

/-- The chain moves on with every message. -/
def sent
    (rules : Rules Pair Public Root Chain)
    (half : Half Pair Public Root Chain) :
    Half Pair Public Root Chain :=
  { half with chain := rules.next half.chain }

@[simp] theorem pair_sent
    (rules : Rules Pair Public Root Chain)
    (half : Half Pair Public Root Chain) :
    (half.sent rules).pair = half.pair :=
  rfl

/-- The next message of the key that was last heard was received. -/
def moved
    (rules : Rules Pair Public Root Chain)
    (key : Public)
    (chain : Chain)
    (half : Half Pair Public Root Chain) :
    Half Pair Public Root Chain :=
  { half with heard := some (key, rules.next chain) }

/-- Turns on a key that is new, and receives its first message. -/
def turned
    (rules : Rules Pair Public Root Chain)
    (fresh : Pair)
    (key : Public)
    (half : Half Pair Public Root Chain) :
    Option (Chain × Half Pair Public Root Chain) := do
  let (root, receiving) ← rules.turn half.root half.pair key
  let (root, sending) ← rules.turn root fresh key
  return (receiving, ⟨root, fresh, sending, some (key, rules.next receiving)⟩)

end Half

/-! ## Messages on their way -/

/-- Messages under one key, each one chain on from the last, up to a chain. -/
inductive Row (next : Chain → Chain) (key : Public) :
    Chain → List (Public × Chain) → Chain → Prop where
  | nil (chain : Chain) : Row next key chain [] chain
  | cons
      {chain last : Chain}
      {stamps : List (Public × Chain)}
      (rest : Row next key (next chain) stamps last) :
      Row next key chain ((key, chain) :: stamps) last

/-- A sent stamp extends its row. -/
theorem Row.append
    {next : Chain → Chain}
    {key : Public}
    {chain last : Chain}
    {stamps : List (Public × Chain)}
    (row : Row next key chain stamps last) :
    Row next key chain (stamps ++ [(key, last)]) (next last) := by
  induction row with
  | nil chain => exact .cons (.nil (next chain))
  | cons _ inductionHypothesis => exact .cons inductionHypothesis

/--
The leader is one turn ahead: it has heard the follower's key, and the
follower's next turn, on the leader's, gives the leader's root.
-/
structure Ahead
    (rules : Rules Pair Public Root Chain)
    (Whole : Pair → Prop)
    (leader follower : Half Pair Public Root Chain)
    (toLeader toFollower : List (Public × Chain)) :
    Prop where
  leaderWhole : Whole leader.pair
  followerWhole : Whole follower.pair
  heard :
    ∃ chain,
      leader.heard = some (rules.publicKey follower.pair, chain) ∧
        Row rules.next (rules.publicKey follower.pair) chain toLeader
          follower.chain
  /-- What the leader sent under its last key comes before what it sends now. -/
  turns :
    ∃ earlier later opening,
      toFollower = earlier ++ later ∧
        rules.turn follower.root follower.pair (rules.publicKey leader.pair) =
          some (leader.root, opening) ∧
        Row rules.next (rules.publicKey leader.pair) opening later
          leader.chain ∧
        (earlier = [] ∨
          ∃ key chain last,
            follower.heard = some (key, chain) ∧
              Row rules.next key chain earlier last)
  unheard :
    ∀ chain, follower.heard ≠ some (rules.publicKey leader.pair, chain)

namespace Ahead

variable
  {rules : Rules Pair Public Root Chain}
  {Whole : Pair → Prop}
  {leader follower : Half Pair Public Root Chain}
  {toLeader toFollower rest : List (Public × Chain)}
  {stamp : Public × Chain}

/-- A send of the leader keeps it ahead. -/
theorem leader_sends
    (ahead : Ahead rules Whole leader follower toLeader toFollower) :
    Ahead rules Whole (leader.sent rules) follower toLeader
      (toFollower ++ [leader.stamp rules]) := by
  obtain ⟨earlier, later, opening, rfl, turns, row, before⟩ := ahead.turns
  refine ⟨ahead.leaderWhole, ahead.followerWhole, ahead.heard, ?_,
    ahead.unheard⟩
  exact ⟨earlier, later ++ [leader.stamp rules], opening,
    List.append_assoc .., turns, row.append, before⟩

/-- A send of the follower keeps the leader ahead. -/
theorem follower_sends
    (ahead : Ahead rules Whole leader follower toLeader toFollower) :
    Ahead rules Whole leader (follower.sent rules)
      (toLeader ++ [follower.stamp rules]) toFollower := by
  obtain ⟨chain, isHeard, row⟩ := ahead.heard
  exact ⟨ahead.leaderWhole, ahead.followerWhole, ⟨chain, isHeard, row.append⟩,
    ahead.turns, ahead.unheard⟩

/-- What the leader receives is under the key it has heard. -/
theorem leader_receives
    (ahead :
      Ahead rules Whole leader follower (stamp :: rest) toFollower) :
    leader.heard = some stamp ∧
      Ahead rules Whole (leader.moved rules stamp.1 stamp.2) follower rest
        toFollower := by
  obtain ⟨chain, isHeard, row⟩ := ahead.heard
  cases row with
  | cons row =>
      exact ⟨isHeard, ahead.leaderWhole, ahead.followerWhole,
        ⟨_, rfl, row⟩, ahead.turns, ahead.unheard⟩

/--
What the follower receives is under the key it has heard, or it is the first
message of the leader's key.  Then the follower turns, and leads.
-/
theorem follower_receives
    {fresh : Pair}
    (shares : rules.Shares Whole)
    (ahead :
      Ahead rules Whole leader follower toLeader (stamp :: rest))
    (whole : Whole fresh)
    (unused : ∀ chain, leader.heard ≠ some (rules.publicKey fresh, chain)) :
    (follower.heard = some stamp ∧
        Ahead rules Whole leader (follower.moved rules stamp.1 stamp.2)
          toLeader rest) ∨
      ∃ after,
        stamp.1 = rules.publicKey leader.pair ∧
          follower.turned rules fresh stamp.1 = some (stamp.2, after) ∧
          after.pair = fresh ∧
          after.heard = some (stamp.1, rules.next stamp.2) ∧
          Ahead rules Whole after leader rest toLeader := by
  obtain ⟨earlier, later, opening, shape, turns, row, before⟩ := ahead.turns
  cases earlier with
  | cons first earlier =>
      obtain ⟨rfl, rfl⟩ := List.cons.inj shape
      rcases before with none_ | ⟨key, chain, last, isHeard, old⟩
      · cases none_
      cases old with
      | cons old =>
          refine Or.inl ⟨isHeard, ahead.leaderWhole, ahead.followerWhole,
            ahead.heard, ⟨earlier, later, opening, rfl, turns, row,
              Or.inr ⟨_, _, _, rfl, old⟩⟩, ?_⟩
          intro other same
          have isKey : key = rules.publicKey leader.pair :=
            congrArg Prod.fst (Option.some.inj same)
          exact ahead.unheard chain (by rw [isHeard, isKey])
  | nil =>
      subst shape
      cases row with
      | cons row =>
          obtain ⟨⟨root, sending⟩, again, back⟩ :=
            shares leader.root fresh leader.pair whole ahead.leaderWhole
          obtain ⟨chain, isHeard, old⟩ := ahead.heard
          refine Or.inr ⟨⟨root, fresh, sending, _⟩, rfl, ?_, rfl, rfl, whole,
            ahead.leaderWhole, ⟨_, rfl, row⟩, ?_, unused⟩
          · simp only [Half.turned, turns, again, Option.bind_eq_bind,
              Option.bind_some]
            rfl
          · -- What the new follower has yet to receive is all under the old key.
            exact ⟨toLeader, [], sending, (List.append_nil _).symm, back,
              .nil sending, Or.inr ⟨_, _, _, isHeard, old⟩⟩

end Ahead

/-! ## Both halves -/

/-- One of the halves leads, with these messages on their way. -/
def Paired
    (rules : Rules Pair Public Root Chain)
    (Whole : Pair → Prop)
    (half : Side → Half Pair Public Root Chain)
    (underway : Side → List (Public × Chain)) :
    Prop :=
  ∃ leader : Side,
    Ahead rules Whole (half leader) (half leader.other) (underway leader)
      (underway leader.other)

/-- What a half does with the next message. -/
inductive Receives
    (rules : Rules Pair Public Root Chain)
    (fresh : Pair)
    (stamp : Public × Chain)
    (half other : Half Pair Public Root Chain) :
    Half Pair Public Root Chain → Prop where
  | heard
      (isHeard : half.heard = some stamp) :
      Receives rules fresh stamp half other
        (half.moved rules stamp.1 stamp.2)
  | new
      {after : Half Pair Public Root Chain}
      (isNew : ∀ chain, half.heard ≠ some (stamp.1, chain))
      (isKey : stamp.1 = rules.publicKey other.pair)
      (turns : half.turned rules fresh stamp.1 = some (stamp.2, after))
      (isFresh : after.pair = fresh)
      (nowHeard : after.heard = some (stamp.1, rules.next stamp.2)) :
      Receives rules fresh stamp half other after

namespace Paired

variable
  {rules : Rules Pair Public Root Chain}
  {Whole : Pair → Prop}
  {half : Side → Half Pair Public Root Chain}
  {underway : Side → List (Public × Chain)}
  {side : Side}

/-- A send of either side keeps the two paired. -/
theorem send
    (paired : Paired rules Whole half underway)
    (side : Side) :
    Paired rules Whole
      (Function.update half side ((half side).sent rules))
      (Function.update underway side.other
        (underway side.other ++ [(half side).stamp rules])) := by
  obtain ⟨leader, ahead⟩ := paired
  refine ⟨leader, ?_⟩
  rcases side.eq_or_eq_other leader with rfl | rfl
  · simpa using ahead.leader_sends
  · simpa using ahead.follower_sends

/-- The next message is received under the chain it was sent under. -/
theorem receive
    {fresh : Pair}
    {stamp : Public × Chain}
    {rest : List (Public × Chain)}
    (shares : rules.Shares Whole)
    (paired : Paired rules Whole half underway)
    (queued : underway side = stamp :: rest)
    (whole : Whole fresh)
    (unused :
      ∀ chain, (half side.other).heard ≠ some (rules.publicKey fresh, chain)) :
    ∃ after,
      Receives rules fresh stamp (half side) (half side.other) after ∧
        Paired rules Whole (Function.update half side after)
          (Function.update underway side rest) := by
  obtain ⟨leader, ahead⟩ := paired
  rcases side.eq_or_eq_other leader with rfl | rfl
  · rw [queued] at ahead
    obtain ⟨isHeard, next⟩ := ahead.leader_receives
    refine ⟨_, .heard isHeard, side, ?_⟩
    simpa using next
  · rw [queued] at ahead
    rw [Side.other_other] at unused
    rcases ahead.follower_receives shares whole unused with
      ⟨isHeard, next⟩ |
        ⟨after, isKey, turns, isFresh, nowHeard, next⟩
    · refine ⟨_, .heard isHeard, leader, ?_⟩
      simpa using next
    · refine ⟨after, .new ?_ (by simpa using isKey) turns isFresh nowHeard,
        leader.other, ?_⟩
      · rw [isKey]
        exact ahead.unheard
      · simpa using next

end Paired

end Gossveil.DoubleRatchet
