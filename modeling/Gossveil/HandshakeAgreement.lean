import Gossveil.LaneStore

namespace Gossveil

/-!
# Both sides of a handshake agree

Each agreement of the handshake is one of a secret of one side with a public
key of the other, and the two sides list them in the same order.  The lanes
they set up are one turn of the ratchet apart: the initiator has already turned
on its own fresh key, which the responder does when it first sees that key.
-/

/-- A correct KEM: what the public key encapsulates, the secret decapsulates. -/
def PostQuantum.Opens
    [Capsules]
    (publicKey : PostQuantum.Public)
    (secret : PostQuantum.Secret) :
    Prop :=
  secret.scheme = publicKey.scheme ∧
    ∀ seed capsule shared,
      Capsules.encapsulate publicKey.scheme publicKey.key seed =
          some (capsule, shared) →
        Capsules.decapsulate secret.scheme secret.key capsule = some shared

/-- A capsule made for a key opens to its shared secret. -/
theorem PostQuantum.Opens.openCapsule
    [Capsules]
    {publicKey : PostQuantum.Public}
    {secret : PostQuantum.Secret}
    {seed : Block 32}
    {capsule : PostQuantum.Capsule}
    (opens : PostQuantum.Opens publicKey secret)
    (made : publicKey.encapsulate seed = .ok capsule) :
    secret.openCapsule capsule.bytes = .ok capsule.shared := by
  obtain ⟨⟨body, shared⟩, isMade, rest⟩ := Outcome.bind_eq_ok.mp made
  obtain rfl := Outcome.ok.inj rest
  have decapsulated := opens.2 _ _ _ (Outcome.ofOption_eq_ok.mp isMade)
  simp [PostQuantum.Secret.openCapsule, opens.1] at decapsulated ⊢
  rw [decapsulated]
  rfl

namespace Handshake

open Ratchet

variable [Hashes] [Curves]

section Secrets

variable [Capsules]

/--
The two sides of one handshake: each names the public keys of the other, and
both use the matching one-time key or both none.
-/
structure Facing (ours : Initiator) (theirs : Responder) : Prop where
  us : ours.us.pair.Whole
  base : ours.ourBase.Whole
  identity : theirs.us.pair.Whole
  signed : theirs.ourSigned.Whole
  ratchet : theirs.ourRatchet.Whole
  oneTime : ∀ pair, theirs.ourOneTime = some pair → pair.Whole
  them : ours.them = theirs.us.identity
  theirSigned : ours.theirSigned = theirs.ourSigned.publicKey
  theirOneTime :
    ours.theirOneTime = theirs.ourOneTime.map Curve.Pair.publicKey
  theirRatchet : ours.theirRatchet = theirs.ourRatchet.publicKey
  theirPq : PostQuantum.Opens ours.theirPq theirs.ourPq
  themBack : theirs.them = ours.us.identity
  theirBase : theirs.theirBase = ours.ourBase.publicKey

variable {ours : Initiator} {theirs : Responder}

omit [Hashes] in
/-- The part of the one-time key is the same, or missing on both sides. -/
theorem Facing.oneTimePart_eq
    (facing : Facing ours theirs)
    (commutes : Curve.Commutes) :
    oneTimePart (ours.theirOneTime.map ours.ourBase.secret.agree) =
      oneTimePart
        (theirs.ourOneTime.map fun pair =>
          pair.secret.agree theirs.theirBase) := by
  rw [facing.theirOneTime, facing.theirBase]
  cases isPair : theirs.ourOneTime with
  | none =>
      rfl
  | some pair =>
      have whole := facing.oneTime pair isPair
      simp only [Option.map_some]
      rw [facing.base.agree_comm whole commutes]

/-- The responder opens what the initiator has opened. -/
theorem Facing.responderSecret_eq
    {seed : Block 32}
    {opened : Opened}
    (facing : Facing ours theirs)
    (commutes : Curve.Commutes)
    (initiated : initiatorSecret ours seed = .ok opened)
    (sent :
      ∀ capsule, opened.capsule = some capsule →
        theirs.theirCapsule = capsule.bytes) :
    responderSecret theirs = .ok ⟨opened.keys, none⟩ := by
  obtain ⟨first, isFirst, rest⟩ := Outcome.bind_eq_ok.mp initiated
  obtain ⟨second, isSecond, rest⟩ := Outcome.bind_eq_ok.mp rest
  obtain ⟨third, isThird, rest⟩ := Outcome.bind_eq_ok.mp rest
  obtain ⟨oneTime, isOneTime, rest⟩ := Outcome.bind_eq_ok.mp rest
  obtain ⟨capsule, isCapsule, rest⟩ := Outcome.bind_eq_ok.mp rest
  obtain rfl := Outcome.ok.inj rest
  -- each agreement, seen from the other side
  have firstBack : theirs.ourSigned.secret.agree theirs.them.key = .ok first := by
    rw [← isFirst, facing.theirSigned, facing.themBack]
    exact facing.signed.agree_comm facing.us commutes
  have secondBack : theirs.us.secret.agree theirs.theirBase = .ok second := by
    rw [← isSecond, facing.theirBase, facing.them]
    exact facing.identity.agree_comm facing.base commutes
  have thirdBack :
      theirs.ourSigned.secret.agree theirs.theirBase = .ok third := by
    rw [← isThird, facing.theirBase, facing.theirSigned]
    exact facing.signed.agree_comm facing.base commutes
  have oneTimeBack := (facing.oneTimePart_eq commutes).symm.trans isOneTime
  have sharedBack :
      theirs.ourPq.openCapsule theirs.theirCapsule = .ok capsule.shared := by
    rw [sent capsule rfl]
    exact facing.theirPq.openCapsule isCapsule
  simp only [responderSecret, firstBack, secondBack, thirdBack, oneTimeBack,
    sharedBack, Outcome.ok_bind]
  rfl

end Secrets

/-! ## The first lanes -/

omit [Hashes] [Curves] in
/-- A lane that is added under a new ratchet key is found under it. -/
theorem receivingLane_addReceiving
    {state : State}
    {theirRatchet : Curve.Public}
    (chain : Chain)
    (missing : state.receivingLane theirRatchet = none) :
    (state.addReceiving theirRatchet chain).receivingLane theirRatchet =
      some ⟨theirRatchet, none, chain, []⟩ := by
  have others := List.find?_eq_none.mp missing
  simp only [State.receivingLane, State.addReceiving]
  split_ifs with full
  · cases lanes : state.receiving with
    | nil => simp [lanes, maxReceivingLanes] at full
    | cons first rest =>
        rw [lanes] at others
        have none :
            (rest.find? fun lane => lane.ratchet = theirRatchet) = none :=
          List.find?_eq_none.mpr fun lane member =>
            others lane (List.mem_cons_of_mem first member)
        simp [List.find?_append, none]
  · have none :
        (state.receiving.find? fun lane => lane.ratchet = theirRatchet) =
          none :=
      missing
    simp [List.find?_append, none]

omit [Hashes] [Curves] in
/-- Sending does not touch the receiving lanes. -/
@[simp] theorem receivingLane_setSending
    (state : State)
    (pair : Curve.Pair)
    (chain : Chain)
    (theirRatchet : Curve.Public) :
    (state.setSending pair chain).receivingLane theirRatchet =
      state.receivingLane theirRatchet :=
  rfl

/-- What a turn of the ratchet leaves, after two agreements. -/
def turned
    (state : State)
    (theirRatchet : Curve.Public)
    (first second : Derive.Turn)
    (fresh : Curve.Pair) :
    State :=
  let lanes := state.addReceiving theirRatchet ⟨first.chain, 0⟩
  { lanes with
    root := second.root
    previousIndex :=
      match state.sending with
      | some lane => if 0 < lane.chain.index then lane.chain.index - 1 else 0
      | none => state.previousIndex
    sending :=
      some ⟨fresh.publicKey, some fresh.secret, ⟨second.chain, 0⟩, []⟩ }

/-- A new ratchet key of theirs turns the ratchet twice. -/
theorem laneChain_turns
    {state : State}
    {theirRatchet : Curve.Public}
    {ours fresh : Curve.Pair}
    {draw agreement again : Block 32}
    (missing : state.receivingLane theirRatchet = none)
    (sends : state.sendingPair = .ok ours)
    (agreed : ours.secret.agree theirRatchet = .ok agreement)
    (drawn : Curve.Pair.fromSeed draw = .ok fresh)
    (agreedAgain : fresh.secret.agree theirRatchet = .ok again) :
    laneChain theirRatchet draw state =
      (.ok ⟨(Derive.turn state.root agreement).chain, 0⟩,
        turned state theirRatchet (Derive.turn state.root agreement)
          (Derive.turn (Derive.turn state.root agreement).root again)
          fresh) := by
  cases isSending : state.sending with
  | none => simp [State.sendingPair, isSending] at sends
  | some lane =>
      have chain :
          ∀ root,
            (({ state with root := root } : State).addReceiving theirRatchet
                ⟨(Derive.turn state.root agreement).chain, 0⟩).sendingChain =
              .ok lane.chain := by
        intro root
        simp [State.sendingChain, State.addReceiving, isSending]
      apply (Call.bind_of_ok (Call.get_apply state)).trans
      simp only [missing]
      apply (Call.bind_of_ok (by rw [Call.lift_apply, sends])).trans
      apply (Call.bind_of_ok (by rw [Call.lift_apply, agreed])).trans
      apply (Call.bind_of_ok (by rw [Call.lift_apply, drawn])).trans
      apply (Call.bind_of_ok (by rw [Call.lift_apply, agreedAgain])).trans
      apply (Call.bind_of_ok (Call.modify_apply _ _)).trans
      apply (Call.bind_of_ok (Call.modify_apply _ _)).trans
      apply (Call.bind_of_ok (Call.get_apply _)).trans
      apply (Call.bind_of_ok (by rw [Call.lift_apply, chain])).trans
      apply (Call.bind_of_ok (Call.modify_apply _ _)).trans
      apply (Call.bind_of_ok (Call.modify_apply _ _)).trans
      simp [turned, State.setSending, State.addReceiving, isSending]

/--
The responder's state begins where the initiator's does: its sending lane is
the initiator's receiving lane, and the first turn on the initiator's ratchet
key goes through the initiator's root to the initiator's sending chain.
-/
structure Aligned (ours theirs : State) (theirRatchet : Curve.Public) : Prop where
  lane :
    ∃ lane,
      ours.receivingLane theirRatchet = some lane ∧
        theirs.sendingChain = .ok lane.chain
  turn :
    ∃ pair sending own agreement,
      ours.sendingPair = .ok pair ∧
        ours.sendingChain = .ok sending ∧
        theirs.sendingPair = .ok own ∧
        own.secret.agree pair.publicKey = .ok agreement ∧
        (Derive.turn theirs.root agreement).root = ours.root ∧
        (⟨(Derive.turn theirs.root agreement).chain, 0⟩ : Chain) = sending ∧
        ∀ later : State,
          later.root = theirs.root →
          later.sendingPair = theirs.sendingPair →
          later.receivingLane pair.publicKey = none →
          ∀ draw fresh again,
            Curve.Pair.fromSeed draw = .ok fresh →
            fresh.secret.agree pair.publicKey = .ok again →
            ∃ after,
              laneChain pair.publicKey draw later = (.ok sending, after) ∧
                after.receivingLane pair.publicKey =
                  some ⟨pair.publicKey, none, sending, []⟩ ∧
                after.root = (Derive.turn ours.root again).root ∧
                after.sendingChain =
                  .ok ⟨(Derive.turn ours.root again).chain, 0⟩

/-- The first state of the initiator and that of the responder. -/
theorem Facing.aligned
    [Capsules]
    {ours : Initiator}
    {theirs : Responder}
    {state : State}
    {draw : Block 32}
    {pqState : Bytes}
    {keys : Derive.Opening}
    (facing : Facing ours theirs)
    (commutes : Curve.Commutes)
    (begun : initiatorState ours keys pqState draw = .ok state)
    (theirPqState : Bytes) :
    Aligned state (responderState theirs keys theirPqState)
      ours.theirRatchet := by
  obtain ⟨pair, drawn, rest⟩ := Outcome.bind_eq_ok.mp begun
  obtain ⟨agreement, agreed, rest⟩ := Outcome.bind_eq_ok.mp rest
  obtain rfl := Outcome.ok.inj rest
  have whole := Curve.Pair.whole_of_fromSeed drawn
  have agreedBack :
      theirs.ourRatchet.secret.agree pair.publicKey = .ok agreement := by
    rw [← agreed, facing.theirRatchet]
    exact facing.ratchet.agree_comm whole commutes
  constructor
  · refine ⟨⟨ours.theirRatchet, none, ⟨keys.chain, 0⟩, []⟩, ?_, rfl⟩
    rw [receivingLane_setSending]
    exact receivingLane_addReceiving _ rfl
  · refine ⟨pair, ⟨(Derive.turn keys.root agreement).chain, 0⟩,
      theirs.ourRatchet, agreement, rfl, rfl, rfl, agreedBack, rfl, rfl, ?_⟩
    intro later sameRoot samePair missing draw fresh again drawnFresh agreedFresh
    have turns :=
      laneChain_turns missing samePair agreedBack drawnFresh agreedFresh
    rw [sameRoot] at turns
    refine ⟨_, turns, receivingLane_addReceiving _ missing, rfl, rfl⟩

/--
Both sides of a handshake derive the same opening, and their first states are
one turn of the ratchet apart.
-/
theorem handshake_agreement
    [Capsules]
    {ours : Initiator}
    {theirs : Responder}
    {seed : Block 32}
    {opened : Opened}
    (facing : Facing ours theirs)
    (commutes : Curve.Commutes)
    (initiated : initiatorSecret ours seed = .ok opened)
    (sent :
      ∀ capsule, opened.capsule = some capsule →
        theirs.theirCapsule = capsule.bytes) :
    responderSecret theirs = .ok ⟨opened.keys, none⟩ ∧
      ∀ pqState theirPqState draw state,
        initiatorState ours opened.keys pqState draw = .ok state →
        Aligned state (responderState theirs opened.keys theirPqState)
          ours.theirRatchet :=
  ⟨facing.responderSecret_eq commutes initiated sent,
    fun _ theirPqState _ _ begun =>
      facing.aligned commutes begun theirPqState⟩

end Handshake

section Witness

attribute [local instance] Sample.hashes Sample.curves Sample.capsules

namespace Handshake

/-- A pair under the stand-in, whose public keys are the secrets. -/
private def keyPair (byte : UInt8) : Curve.Pair :=
  ⟨⟨Block.fill 32 byte⟩, ⟨Block.fill 32 byte⟩⟩

/-- The starting side of a sample handshake, with a one-time key. -/
private def sampleInitiator : Initiator where
  us := ⟨⟨⟨Block.fill 32 1⟩⟩, ⟨Block.fill 32 1⟩⟩
  ourBase := keyPair 2
  them := ⟨⟨Block.fill 32 3⟩⟩
  theirSigned := ⟨Block.fill 32 4⟩
  theirOneTime := some ⟨Block.fill 32 5⟩
  theirRatchet := ⟨Block.fill 32 4⟩
  theirPq := ⟨.roundThree, Block.fill 1568 6⟩

/-- The answering side of the same handshake. -/
private def sampleResponder : Responder where
  us := ⟨⟨⟨Block.fill 32 3⟩⟩, ⟨Block.fill 32 3⟩⟩
  ourSigned := keyPair 4
  ourOneTime := some (keyPair 5)
  ourRatchet := keyPair 4
  ourPq := ⟨.roundThree, Block.fill 3168 6⟩
  them := ⟨⟨Block.fill 32 1⟩⟩
  theirBase := ⟨Block.fill 32 2⟩
  theirCapsule :=
    PostQuantum.Scheme.roundThree.code ::
      ((Block.fill 32 7).append (Block.zero 1536)).bytes

/-- Two sample parties face each other. -/
private theorem sample_facing :
    Facing sampleInitiator sampleResponder where
  us := rfl
  base := rfl
  identity := rfl
  signed := rfl
  ratchet := rfl
  oneTime := by
    rintro _ ⟨⟩
    rfl
  them := rfl
  theirSigned := rfl
  theirOneTime := rfl
  theirRatchet := rfl
  theirPq := by
    refine ⟨rfl, ?_⟩
    rintro seed _ _ ⟨⟩
    exact congrArg some (Block.slice_append_left _ _ _)
  themBack := rfl
  theirBase := rfl

/-- With a one-time key on both sides. -/
theorem handshake_agreement_oneTime :
    ∃ opened,
      initiatorSecret sampleInitiator (Block.fill 32 7) = .ok opened ∧
        responderSecret sampleResponder = .ok ⟨opened.keys, none⟩ := by
  refine ⟨_, rfl,
    (handshake_agreement sample_facing Sample.commutes rfl ?_).1⟩
  rintro _ ⟨⟩
  rfl

end Handshake

end Witness

end Gossveil
