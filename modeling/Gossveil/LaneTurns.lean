import Gossveil.DoubleRatchet
import Gossveil.HandshakeAgreement
import Gossveil.SessionKeys

namespace Gossveil

/-!
# The lanes of a state are a half of a double ratchet

What a state sends in is the sending chain of the half, and the lane of the key
it has last heard stands at the chain the half has heard.  The next message of
that lane, or the first one of a new key, is opened with the slot of its chain.
-/

/-- Every secret has a public key, and such keys agree with every secret. -/
structure Curve.Total [Curves] : Prop where
  publicKey : ∀ secret : Curve.Secret, ∃ key, secret.publicKey = .ok key
  valid : ∀ pair : Curve.Pair, pair.Whole → pair.publicKey.Valid

/-- Every seed makes a whole pair. -/
theorem Curve.Total.fromSeed
    [Curves]
    (total : Curve.Total)
    (seed : Block 32) :
    ∃ pair, Curve.Pair.fromSeed seed = .ok pair ∧ pair.Whole := by
  obtain ⟨key, isKey⟩ := total.publicKey (.fromRaw seed)
  have made : Curve.Pair.fromSeed seed = .ok ⟨key, .fromRaw seed⟩ := by
    rw [Curve.Pair.fromSeed, isKey]
    rfl
  exact ⟨_, made, Curve.Pair.whole_of_fromSeed made⟩

namespace Ratchet

open DoubleRatchet

section Rules

variable [Hashes]

/-- The chain one message on, without the bound of its index. -/
def Chain.next (chain : Chain) : Chain :=
  ⟨Derive.chainNext chain.key, chain.index + 1⟩

/-- A chain with room advances by one key. -/
theorem Chain.advance_eq
    {chain : Chain}
    (room : chain.index + 1 < 2 ^ 32) :
    chain.advance = .ok chain.next := by
  rw [Chain.advance, Outcome.add_of_lt room]
  rfl

variable [Curves]

/-- The double ratchet of a session. -/
def turnRules : Rules Curve.Pair Curve.Public (Block 32) Chain where
  publicKey := Curve.Pair.publicKey
  turn root pair theirs :=
    match pair.secret.agree theirs with
    | .ok agreement =>
        some ((Derive.turn root agreement).root,
          ⟨(Derive.turn root agreement).chain, 0⟩)
    | _ => none
  next := Chain.next

/-- A turn derives its root and chain from an agreement. -/
theorem turnRules_turn_eq_some
    {root after : Block 32}
    {pair : Curve.Pair}
    {theirs : Curve.Public}
    {chain : Chain} :
    turnRules.turn root pair theirs = some (after, chain) ↔
      ∃ agreement,
        pair.secret.agree theirs = .ok agreement ∧
          (Derive.turn root agreement).root = after ∧
          ⟨(Derive.turn root agreement).chain, 0⟩ = chain := by
  simp only [turnRules]
  cases pair.secret.agree theirs <;> simp

/-- Both sides of an agreement turn alike. -/
theorem turnRules_shares
    (total : Curve.Total)
    (commutes : Curve.Commutes) :
    turnRules.Shares Curve.Pair.Whole := by
  intro root first second firstWhole secondWhole
  obtain ⟨agreement, agreed⟩ := total.valid second secondWhole first.secret
  have back := (firstWhole.agree_comm secondWhole commutes).symm.trans agreed
  exact ⟨_, turnRules_turn_eq_some.mpr ⟨agreement, agreed, rfl, rfl⟩,
    turnRules_turn_eq_some.mpr ⟨agreement, back, rfl, rfl⟩⟩

end Rules

/-- One half of a session's double ratchet. -/
abbrev TurnHalf :=
  Half Curve.Pair Curve.Public (Block 32) Chain

/-- A state stands where a half does. -/
structure Mirrors (state : State) (half : TurnHalf) : Prop where
  root : state.root = half.root
  pair : state.sendingPair = .ok half.pair
  chain : state.sendingChain = .ok half.chain
  heard :
    ∀ key chain, half.heard = some (key, chain) →
      ∃ lane, state.receivingLane key = some lane ∧ lane.chain = chain

/-- A key that the half has not heard last has no lane. -/
def NoLane (state : State) (half : TurnHalf) (key : Curve.Public) : Prop :=
  (∀ chain, half.heard ≠ some (key, chain)) →
    state.receivingLane key = none

/-- A receive leaves the pair and the chain, or draws both anew. -/
theorem same_or_fresh
    [Hashes]
    [Curves]
    {fresh : Curve.Pair}
    {stamp : Curve.Public × Chain}
    {half other after : TurnHalf}
    (receives : Receives turnRules fresh stamp half other after) :
    (after.pair = half.pair ∧ after.chain = half.chain) ∨
      (after.pair = fresh ∧ after.chain.index = 0) := by
  cases receives with
  | heard => exact Or.inl ⟨rfl, rfl⟩
  | new _ _ turns isFresh =>
      obtain ⟨⟨root, receiving⟩, _, rest⟩ := Option.bind_eq_some_iff.mp turns
      obtain ⟨⟨root', sending⟩, second, made⟩ :=
        Option.bind_eq_some_iff.mp rest
      obtain ⟨_, rfl⟩ := Prod.mk.inj (Option.some.inj made)
      obtain ⟨_, _, _, rfl⟩ := turnRules_turn_eq_some.mp second
      exact Or.inr ⟨isFresh, rfl⟩

section Mirroring

variable
  {state : State}
  {half : TurnHalf}
  {lane : Lane}

/-- What a state sends in. -/
theorem Mirrors.sending
    (mirrors : Mirrors state half)
    (isSending : state.sending = some lane) :
    lane.ratchet = half.pair.publicKey ∧ lane.chain = half.chain := by
  have isPair := mirrors.pair
  have isChain := mirrors.chain
  simp only [State.sendingPair, State.sendingChain, isSending,
    Outcome.ofOption_some, Outcome.ok_bind] at isPair isChain
  obtain ⟨secret, _, same⟩ := Outcome.bind_eq_ok.mp isPair
  exact ⟨congrArg Curve.Pair.publicKey (Outcome.ok.inj same),
    Outcome.ok.inj isChain⟩

/-- A mirrored state can send. -/
theorem Mirrors.canSend (mirrors : Mirrors state half) :
    state.canSend = true := by
  obtain ⟨lane, isSending, _⟩ := Outcome.bind_eq_ok.mp mirrors.chain
  rw [State.canSend, Outcome.ofOption_eq_ok.mp isSending]
  rfl

/-- Other parts of a state do not matter to its half. -/
theorem Mirrors.congr
    {other : State}
    (mirrors : Mirrors state half)
    (root : other.root = state.root)
    (sending : other.sending = state.sending)
    (receiving : other.receiving = state.receiving) :
    Mirrors other half := by
  refine ⟨root.trans mirrors.root, ?_, ?_, ?_⟩
  · rw [← mirrors.pair, State.sendingPair, State.sendingPair, sending]
  · rw [← mirrors.chain, State.sendingChain, State.sendingChain, sending]
  · intro key chain isHeard
    rw [State.receivingLane, receiving]
    exact mirrors.heard key chain isHeard

variable [Hashes] [Curves]

/-- A seal is a send of the half. -/
theorem Mirrors.advanced
    (mirrors : Mirrors state half)
    (isSending : state.sending = some lane)
    (pqState : Bytes) :
    Mirrors (state.advanced lane pqState) (half.sent turnRules) := by
  obtain ⟨_, isChain⟩ := mirrors.sending isSending
  refine ⟨mirrors.root, ?_, ?_, mirrors.heard⟩
  · rw [← show state.sendingPair = .ok (half.sent turnRules).pair
      from mirrors.pair]
    simp only [State.sendingPair, State.advanced, isSending]
    rfl
  · have next : (half.sent turnRules).chain = half.chain.next := rfl
    rw [next, ← isChain]
    rfl

end Mirroring

/-! ## The slot of the next message -/

section Slots

variable [Hashes] [Curves]
variable
  {state : State}
  {half : TurnHalf}
  {lane : Lane}
  {theirRatchet : Curve.Public}
  {draw : Block 32}

omit [Curves] in
/-- The next slot of a lane, without a jump. -/
theorem slotFor_next
    (found : state.receivingLane theirRatchet = some lane)
    (room : lane.chain.index + 1 < 2 ^ 32) :
    slotFor theirRatchet lane.chain lane.chain.index state =
      (.ok lane.chain.slot,
        state.changeLane theirRatchet fun other =>
          { other with chain := lane.chain.next }) := by
  apply (Call.bind_of_ok (Call.get_apply state)).trans
  simp only [lt_irrefl, if_false, Nat.sub_self, keepUpTo, pure_bind]
  apply (Call.bind_of_ok (by
    rw [Call.lift_apply, Outcome.require_of (by simp)])).trans
  apply (Call.bind_of_ok (by
    rw [Call.lift_apply, Chain.advance_eq room])).trans
  apply (Call.bind_of_ok (Call.get_apply state)).trans
  apply (Call.bind_of_ok (by
    rw [Call.lift_apply, found, Outcome.unwrap_some])).trans
  rfl

omit [Hashes] [Curves] in
/-- A change of one lane makes no lane of another key. -/
theorem receivingLane_changeLane_none
    {key : Curve.Public}
    {change : Lane → Lane}
    (same : ∀ lane, (change lane).ratchet = lane.ratchet)
    (missing : state.receivingLane key = none) :
    (state.changeLane theirRatchet change).receivingLane key = none := by
  apply List.find?_eq_none.mpr
  intro lane member
  obtain ⟨old, isOld, rfl | rfl⟩ := State.mem_changeLane member
  · exact List.find?_eq_none.mp missing _ isOld
  · rw [same]
    exact List.find?_eq_none.mp missing old isOld

/-- What a receive keeps of a state beside its lanes. -/
structure KeepsRest (state reached : State) : Prop where
  pqState : reached.pqState = state.pqState
  localKey : reached.localKey = state.localKey
  remoteKey : reached.remoteKey = state.remoteKey

/-- The lane of the key that was heard moves on by one. -/
theorem Mirrors.changeLane
    (mirrors : Mirrors state half)
    (found : state.receivingLane theirRatchet = some lane) :
    Mirrors
      (state.changeLane theirRatchet fun other =>
        { other with chain := lane.chain.next })
      (half.moved turnRules theirRatchet lane.chain) := by
  refine ⟨mirrors.root, mirrors.pair, mirrors.chain, ?_⟩
  rintro key moved ⟨⟩
  have changed :=
    @State.receivingLane_changeLane state theirRatchet
      (fun other => { other with chain := lane.chain.next }) fun _ => rfl
  rw [found] at changed
  exact ⟨_, changed, rfl⟩

omit [Hashes] [Curves] in
/-- A turn adds the lane it was asked for. -/
theorem receivingLane_turned
    (first second : Derive.Turn)
    (fresh : Curve.Pair)
    (missing : state.receivingLane theirRatchet = none) :
    (Handshake.turned state theirRatchet first second fresh).receivingLane
        theirRatchet =
      some ⟨theirRatchet, none, ⟨first.chain, 0⟩, []⟩ :=
  Handshake.receivingLane_addReceiving ⟨first.chain, 0⟩ missing

omit [Hashes] [Curves] in
/-- A turn on a new key, with the fresh pair of the half. -/
theorem Mirrors.turned
    {first second : Derive.Turn}
    {fresh : Curve.Pair}
    (missing : state.receivingLane theirRatchet = none) :
    Mirrors (Handshake.turned state theirRatchet first second fresh)
      ⟨second.root, fresh, ⟨second.chain, 0⟩,
        some (theirRatchet, ⟨first.chain, 0⟩)⟩ := by
  refine ⟨rfl, rfl, rfl, ?_⟩
  rintro key chain ⟨⟩
  exact ⟨_, receivingLane_turned first second fresh missing, rfl⟩

/-- The chain and the slot of the next message are those it was sent under. -/
theorem Mirrors.receives
    {other after : TurnHalf}
    {fresh : Curve.Pair}
    {stamp : Curve.Public × Chain}
    (mirrors : Mirrors state half)
    (receives : Receives turnRules fresh stamp half other after)
    (noLane : NoLane state half other.pair.publicKey)
    (drawn : Curve.Pair.fromSeed draw = .ok fresh)
    (room : stamp.2.index + 1 < 2 ^ 32) :
    ∃ turned reached,
      laneChain stamp.1 draw state = (.ok stamp.2, turned) ∧
        slotFor stamp.1 stamp.2 stamp.2.index turned =
          (.ok stamp.2.slot, reached) ∧
        Mirrors reached after ∧
        KeepsRest state reached ∧
        NoLane reached after other.pair.publicKey := by
  cases receives with
  | heard isHeard =>
      obtain ⟨ratchet, chain⟩ := stamp
      obtain ⟨lane, found, rfl⟩ := mirrors.heard ratchet chain isHeard
      refine ⟨state, _, ?_, slotFor_next found room,
        mirrors.changeLane found, ⟨rfl, rfl, rfl⟩, ?_⟩
      · apply (Call.bind_of_ok (Call.get_apply state)).trans
        simp only [found]
        rfl
      · intro isNew
        refine receivingLane_changeLane_none (by intro _; rfl) (noLane ?_)
        intro chain wasHeard
        rw [isHeard] at wasHeard
        obtain ⟨isKey, _⟩ := Prod.mk.inj (Option.some.inj wasHeard)
        exact isNew lane.chain.next (congrArg (fun key => some (key, _)) isKey)
  | new isNew isKey turns isFresh nowHeard =>
      obtain ⟨ratchet, chain⟩ := stamp
      obtain rfl : ratchet = other.pair.publicKey := isKey
      have missing : state.receivingLane other.pair.publicKey = none :=
        noLane isNew
      obtain ⟨⟨root, receiving⟩, first, rest⟩ :=
        Option.bind_eq_some_iff.mp turns
      obtain ⟨⟨root', sending⟩, second, made⟩ :=
        Option.bind_eq_some_iff.mp rest
      obtain ⟨rfl, rfl⟩ := Prod.mk.inj (Option.some.inj made)
      obtain ⟨agreement, agreed, rfl, rfl⟩ := turnRules_turn_eq_some.mp first
      obtain ⟨again, agreedAgain, rfl, rfl⟩ := turnRules_turn_eq_some.mp second
      have chains :=
        Handshake.laneChain_turns missing mirrors.pair agreed drawn agreedAgain
      rw [mirrors.root] at chains
      have found :=
        receivingLane_turned (Derive.turn half.root agreement)
          (Derive.turn (Derive.turn half.root agreement).root again) fresh
          missing
      exact ⟨_, _, chains, slotFor_next found room,
        (Mirrors.turned missing).changeLane found, ⟨rfl, rfl, rfl⟩,
        fun nowNew => absurd nowHeard (nowNew _)⟩

end Slots

/-! ## Opening the next message -/

section Opening

variable [Hashes] [Curves] [Kem]

/-- A call is given these names, or none. -/
def Given (names given : Option Binding) : Prop :=
  given = none ∨ given = names

/-- A message for a state: its version, and the keys of its two sides. -/
structure Addressed (state : State) (parts : Whisper.Seal) : Prop where
  version : parts.version = state.version
  sender : parts.sender = state.remoteKey
  recipient : parts.recipient = state.localKey

variable
  {text pqState : Bytes}
  {names binding ours : Option Binding}
  {sealer state : State}
  {lane : Lane}
  {sent : PqRecord.Sent}
  {message : Whisper}
  {half other after : TurnHalf}
  {fresh : Curve.Pair}
  {draw : Block 32}

omit [Curves] [Kem] in
/-- A message is bound to the names it is opened with, or one gives none. -/
theorem checkBinding_of_made
    [Aes]
    (made :
      Whisper.MadeFrom (sealParts text binding sealer lane sent) message)
    (sealGiven : Given names binding)
    (openGiven : Given names ours) :
    message.checkBinding ours = true := by
  unfold Whisper.checkBinding
  rw [made.binding]
  rcases sealGiven with rfl | rfl
  · rfl
  · rcases openGiven with rfl | rfl
    · cases (sealParts text binding sealer lane sent).bound <;> rfl
    · cases ours with
      | none => rfl
      | some both =>
          cases isBound : encodeBinding both <;>
            simp [Whisper.Seal.bound, sealParts, isBound]

/-- The keys of the next message are those it was sealed under. -/
theorem Mirrors.keysFor_eq
    [Aes]
    (made :
      Whisper.MadeFrom (sealParts text binding sealer lane sent) message)
    (sealGiven : Given names binding)
    (openGiven : Given names ours)
    (addressed : Addressed state (sealParts text binding sealer lane sent))
    (mirrors : Mirrors state half)
    (receives :
      Receives turnRules fresh (lane.ratchet, lane.chain) half other after)
    (noLane : NoLane state half other.pair.publicKey)
    (drawn : Curve.Pair.fromSeed draw = .ok fresh)
    (room : lane.chain.index + 1 < 2 ^ 32)
    (received :
      PqRecord.receive state.pqState sent.packet = .ok ⟨pqState, sent.key⟩) :
    ∃ reached,
      keysFor draw message ours state =
          (.ok (lane.chain.slot, sent.key), reached.setPqState pqState) ∧
        Mirrors reached after ∧
        KeepsRest state reached ∧
        NoLane reached after other.pair.publicKey := by
  obtain ⟨turned, reached, isChain, isSlot, mirrored, keeps, stillNoLane⟩ :=
    mirrors.receives receives noLane drawn room
  refine ⟨reached, ?_, mirrored, keeps, stillNoLane⟩
  unfold keysFor
  apply (Call.bind_of_ok (Call.get_apply state)).trans
  apply (Call.bind_of_ok (by
    rw [Call.lift_apply, Outcome.require_of mirrors.canSend])).trans
  apply (Call.bind_of_ok (by
    rw [Call.lift_apply,
      Outcome.require_of (made.version.trans addressed.version)])).trans
  apply (Call.bind_of_ok (by
    rw [Call.lift_apply,
      Outcome.require_of
        (checkBinding_of_made made sealGiven openGiven)])).trans
  rw [made.ratchet, made.index, made.pqPacket]
  apply (Call.bind_of_ok isChain).trans
  apply (Call.bind_of_ok isSlot).trans
  apply (Call.bind_of_ok (Call.get_apply reached)).trans
  have again :
      (PqRecord.receive reached.pqState sent.packet).orElseFault
          Fault.badMessage =
        .ok ⟨pqState, sent.key⟩ := by
    rw [keeps.pqState, received]
    rfl
  apply (Call.bind_of_ok (by
    rw [Call.lift_apply]
    exact congrArg (·, reached) again)).trans
  rfl

/-- The next message opens to what was sealed. -/
theorem Mirrors.opens
    [Aes]
    (correct : Cipher.AesCorrect)
    (made :
      Whisper.MadeFrom (sealParts text binding sealer lane sent) message)
    (sealGiven : Given names binding)
    (openGiven : Given names ours)
    (addressed : Addressed state (sealParts text binding sealer lane sent))
    (mirrors : Mirrors state half)
    (receives :
      Receives turnRules fresh (lane.ratchet, lane.chain) half other after)
    (noLane : NoLane state half other.pair.publicKey)
    (drawn : Curve.Pair.fromSeed draw = .ok fresh)
    (room : lane.chain.index + 1 < 2 ^ 32)
    (received :
      PqRecord.receive state.pqState sent.packet = .ok ⟨pqState, sent.key⟩) :
    ∃ opened,
      openWithState draw message ours state = (.ok text, opened) ∧
        Mirrors opened after ∧
        opened.pqState = pqState ∧
        NoLane opened after other.pair.publicKey := by
  obtain ⟨reached, derived, mirrored, keeps, stillNoLane⟩ :=
    mirrors.keysFor_eq made sealGiven openGiven addressed receives noLane drawn
      room received
  have checks :
      message.checkMac reached.remoteKey reached.localKey
          (lane.chain.slot.openKeys sent.key).mac = true := by
    rw [keeps.remoteKey, keeps.localKey, ← addressed.sender,
      ← addressed.recipient]
    exact made.checks
  have decrypts :
      Cipher.cbcOpen (lane.chain.slot.openKeys sent.key).cipher
          (lane.chain.slot.openKeys sent.key).iv message.body = .ok text := by
    rw [made.body]
    exact Cipher.cbcOpen_cbcSeal correct _ _ text
  exact ⟨_,
    openWithState_eq_ok.mpr ⟨_, _, _, derived, checks, decrypts, rfl⟩,
    mirrored.congr rfl rfl rfl, rfl, stillNoLane⟩

end Opening

end Ratchet

end Gossveil
