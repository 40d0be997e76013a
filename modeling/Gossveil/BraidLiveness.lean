import Gossveil.BraidAcks
import Gossveil.PieceRuns

namespace Gossveil.Braid

open ErasureCode TwoParty

/-!
# Liveness of the braid

In a lossless alternation every packet arrives before the other side sends.
From every state of a run a rank bounds the rounds of it that are left until
both sides are past the epoch of the exchange: the packet of one side is due
and counts down the rank, and a packet of the other side leaves it alone.
-/

/-- The initiator and the responder in turn, with what each send draws. -/
def alternation (rounds : List (Draw × Draw)) : List (Side × Draw) :=
  rounds.flatMap fun round =>
    [(.initiator, round.1), (.responder, round.2)]

variable [Hashes] [Kem]

/-! ## One delivery -/

/-- A delivery is one send and one receive. -/
theorem deliver_parts
    {run later : Run}
    {side : Side}
    {draw : Draw}
    (delivered : run.deliver party side draw = .ok later) :
    ∃ sent secret,
      (run.state side).send draw = .ok (later.state side, sent) ∧
        (run.state side.other).receive sent.packet =
          .ok (later.state side.other, secret) := by
  obtain ⟨sender, packet, emitted, receiver, secret, sends, receives, rfl⟩ :=
    Joint.deliver_eq_ok delivered
  obtain ⟨⟨_, sent⟩, made, ⟨⟩⟩ := Outcome.bind_eq_ok.mp sends
  refine ⟨sent, secret, ?_, ?_⟩
  · have back :=
      @Joint.state_act_other _ _ _ _
        (run.act side sender (.sent sent.packet sent.secret)) side.other
        receiver (.received sent.packet secret)
    rw [Side.other_other] at back
    rw [back, Joint.state_act_self]
    exact made
  · rw [Joint.state_act_self]
    exact receives

/-- No delivery takes an epoch back. -/
theorem deliver_epochs
    {run later : Run}
    {side : Side}
    {draw : Draw}
    (delivered : run.deliver party side draw = .ok later)
    (either : Side) :
    (run.state either).epoch ≤ (later.state either).epoch := by
  obtain ⟨sent, secret, sends, receives⟩ := deliver_parts delivered
  rcases either.eq_or_eq_other side with rfl | rfl
  · exact Nat.le_of_eq (send_epoch sends).1.symm
  · exact receive_epoch _ _ _ receives

/-- A delivery in a run goes through, up to the end of the epochs. -/
theorem deliver_cases
    [LawfulKem]
    (generates : ∀ seed, ∃ keys, Kem.generate seed = some keys)
    {authKey : Bytes}
    {initiator responder : Braid}
    (startsInitiator : startInitiator authKey = .ok initiator)
    (startsResponder : startResponder authKey = .ok responder)
    {run : Run}
    (reachable : Reachable party (startSides initiator responder) run)
    (side : Side)
    (draw : Draw) :
    (∃ later, run.deliver party side draw = .ok later) ∨
      run.deliver party side draw = .trap ∧
        2 ^ 64 ≤ (run.state side.other).epoch + 1 := by
  obtain ⟨exchange, keySide, agreement⟩ :=
    agreement_of_reachable startsInitiator startsResponder reachable
  rcases agreement.send side draw with
    ⟨refused, _⟩ | ⟨after, sent, later, sends, _, _⟩
  · obtain ⟨keys, generated⟩ := generates draw.seed
    cases refused.symm.trans generated
  · have made :
        party.send (run.state side) draw =
          .ok (after, sent.packet, sent.secret) :=
      Outcome.bind_eq_ok.mpr ⟨_, sends, rfl⟩
    have onward :=
      Reachable.step reachable (.send side draw made)
    have hasSent :
        (run.act side after
          (.sent sent.packet sent.secret)).HasSent side.other.other
            sent.packet sent.secret := by
      simp [Joint.HasSent]
    obtain ⟨noError, ends⟩ :=
      receives_of_reachable startsInitiator startsResponder onward hasSent
    rw [Joint.state_act_other] at noError ends
    have delivery :
        run.deliver party side draw =
          (run.state side.other).receive sent.packet >>= fun result =>
            .ok ((run.act side after (.sent sent.packet sent.secret)).act
              side.other result.1 (.received sent.packet result.2)) := by
      rw [Joint.deliver, made]
      rfl
    cases received : (run.state side.other).receive sent.packet with
    | ok result =>
        rw [received] at delivery
        exact .inl ⟨_, delivery⟩
    | error fault => exact absurd received (noError fault)
    | trap =>
        rw [received] at delivery
        exact .inr ⟨delivery, ends received⟩

/-! ## The rank of a pair of states -/

/-- The packet of the first braid, the key side, is due. -/
inductive KeyDue (epoch : Nat) : Nat → Braid → Braid → Prop where
  | unsampled
      {auth other : Auth}
      {inHeader : Gather} :
      KeyDue epoch 79
        (.unsampled epoch auth)
        (.waiting epoch other inHeader)
  | sampled
      {count : Nat}
      {auth other : Auth}
      {encap : Block Kem.encapLength}
      {decap : Block Kem.decapLength}
      {outHeader : Spread}
      {inHeader : Gather}
      (feeds : Feeds outHeader inHeader (count + 1)) :
      KeyDue epoch (count + 76)
        (.sampled epoch auth encap decap outHeader)
        (.waiting epoch other inHeader)
  | firstIn
      {count : Nat}
      {auth other : Auth}
      {decap : Block Kem.decapLength}
      {header : Block Kem.headerLength}
      {carry : Block Kem.carryLength}
      {first seen : Block Kem.firstLength}
      {outEncap outFirst : Spread}
      {inEncap : Gather}
      (feeds : Feeds outEncap inEncap (count + 1)) :
      KeyDue epoch (count + 9)
        (.firstIn epoch auth decap seen outEncap)
        (.firstOut epoch other header carry first outFirst inEncap)
  | encapIn
      {auth other : Auth}
      {encap : Block Kem.encapLength}
      {decap : Block Kem.decapLength}
      {carry : Block Kem.carryLength}
      {first seen : Block Kem.firstLength}
      {outEncap outFirst : Spread} :
      KeyDue epoch 8
        (.firstIn epoch auth decap seen outEncap)
        (.encapInFirstOut epoch other carry encap first outFirst)
  | acked
      {count : Nat}
      {auth other : Auth}
      {decap : Block Kem.decapLength}
      {header : Block Kem.headerLength}
      {carry : Block Kem.carryLength}
      {first seen : Block Kem.firstLength}
      {outEncap : Spread}
      {inEncap : Gather}
      (feeds : Feeds outEncap inEncap (count + 1)) :
      KeyDue epoch (count + 8)
        (.firstIn epoch auth decap seen outEncap)
        (.firstAcked epoch other header carry first inEncap)

/-- The packet of the second braid, the capsule side, is due. -/
inductive CapsuleDue (epoch : Nat) : Nat → Braid → Braid → Prop where
  | late
      {earlier : Nat}
      {auth other : Auth}
      {outSecond : Spread}
      {inHeader : Gather}
      (before : earlier + 1 = epoch) :
      CapsuleDue epoch 80
        (.secondOut earlier auth outSecond)
        (.waiting epoch other inHeader)
  | headerIn
      {auth other : Auth}
      {encap : Block Kem.encapLength}
      {decap : Block Kem.decapLength}
      {header : Block Kem.headerLength}
      {outHeader : Spread}
      {inEncap : Gather} :
      CapsuleDue epoch 75
        (.sampled epoch auth encap decap outHeader)
        (.headerIn epoch other header inEncap)
  | firstOut
      {auth other : Auth}
      {encap : Block Kem.encapLength}
      {decap : Block Kem.decapLength}
      {header : Block Kem.headerLength}
      {carry : Block Kem.carryLength}
      {first : Block Kem.firstLength}
      {outHeader outFirst : Spread}
      {inEncap : Gather} :
      CapsuleDue epoch 75
        (.sampled epoch auth encap decap outHeader)
        (.firstOut epoch other header carry first outFirst inEncap)
  | encapInFirstOut
      {auth other : Auth}
      {encap known : Block Kem.encapLength}
      {decap : Block Kem.decapLength}
      {carry : Block Kem.carryLength}
      {first : Block Kem.firstLength}
      {outHeader outFirst : Spread} :
      CapsuleDue epoch 75
        (.sampled epoch auth encap decap outHeader)
        (.encapInFirstOut epoch other carry known first outFirst)
  | headerOut
      {count others : Nat}
      {auth other : Auth}
      {decap : Block Kem.decapLength}
      {header : Block Kem.headerLength}
      {carry : Block Kem.carryLength}
      {first : Block Kem.firstLength}
      {outEncap outFirst : Spread}
      {inFirst inEncap : Gather}
      (feedsFirst : Feeds outFirst inFirst (count + 1))
      (feedsEncap : Feeds outEncap inEncap (others + 1)) :
      CapsuleDue epoch (count + others + 10)
        (.headerOut epoch auth decap outEncap inFirst)
        (.firstOut epoch other header carry first outFirst inEncap)
  | headerOutEncapIn
      {count : Nat}
      {auth other : Auth}
      {encap : Block Kem.encapLength}
      {decap : Block Kem.decapLength}
      {carry : Block Kem.carryLength}
      {first : Block Kem.firstLength}
      {outEncap outFirst : Spread}
      {inFirst : Gather}
      (feeds : Feeds outFirst inFirst (count + 1)) :
      CapsuleDue epoch (count + 9)
        (.headerOut epoch auth decap outEncap inFirst)
        (.encapInFirstOut epoch other carry encap first outFirst)
  | answered
      {auth other : Auth}
      {decap : Block Kem.decapLength}
      {seen : Block Kem.firstLength}
      {outEncap outSecond : Spread} :
      CapsuleDue epoch 7
        (.firstIn epoch auth decap seen outEncap)
        (.secondOut epoch other outSecond)
  | second
      {count : Nat}
      {auth other : Auth}
      {decap : Block Kem.decapLength}
      {seen : Block Kem.firstLength}
      {outSecond : Spread}
      {inSecond : Gather}
      (feeds : Feeds outSecond inSecond (count + 1)) :
      CapsuleDue epoch (count + 2)
        (.encapOutFirstIn epoch auth decap seen inSecond)
        (.secondOut epoch other outSecond)
  | last
      {auth other : Auth}
      {outSecond : Spread}
      {inHeader : Gather} :
      CapsuleDue epoch 1
        (.secondOut epoch auth outSecond)
        (.waiting (epoch + 1) other inHeader)

/-- The two braids are the two sides of some exchange, either way around. -/
def Sided (first second : Braid) : Prop :=
  ∃ exchange,
    (KeySide exchange first ∧ CapsuleSide exchange second) ∨
      (KeySide exchange second ∧ CapsuleSide exchange first)

/-! ## What is left to deal -/

section Feeding

variable {epoch otherEpoch : Nat} {auth other : Auth}
variable {encap : Block Kem.encapLength} {decap : Block Kem.decapLength}
variable {header : Block Kem.headerLength} {carry : Block Kem.carryLength}
variable {first seen : Block Kem.firstLength}
variable {outHeader outEncap outFirst outSecond : Spread}
variable {inHeader inFirst inEncap inSecond : Gather}

/-- Three pieces make a header. -/
theorem feeds_header
    (sided :
      Sided (.sampled epoch auth encap decap outHeader)
        (.waiting otherEpoch other inHeader)) :
    Feeds outHeader inHeader 3 := by
  obtain ⟨exchange, ⟨key, capsule⟩ | ⟨key, _⟩⟩ := sided
  · cases key with
    | @sampled keys _ isKeys carries =>
        cases capsule with
        | waiting _ _ gathers =>
            have length := Exchange.length_headerText exchange keys
            rw [isKeys, Option.map_some, ← length] at gathers
            apply feeds_of_length carries gathers _ (by decide)
            rw [length]
            decide
  · cases key

/-- Thirty-six pieces make an encapsulation key. -/
theorem feeds_encap
    {key capsule : Braid}
    (sided : Sided key capsule)
    (isKey :
      (∃ inFirst, key = .headerOut epoch auth decap outEncap inFirst) ∨
        ∃ seen, key = .firstIn epoch auth decap seen outEncap)
    (isCapsule :
      (∃ outFirst,
        capsule =
          .firstOut otherEpoch other header carry first outFirst inEncap) ∨
        capsule = .firstAcked otherEpoch other header carry first inEncap) :
    Feeds outEncap inEncap 36 := by
  obtain ⟨exchange, ⟨keySide, capsuleSide⟩ | ⟨keySide, _⟩⟩ := sided
  · have carries :
        ∃ keys,
          exchange.keys = some keys ∧ outEncap.Carries keys.encap.bytes := by
      rcases isKey with ⟨inFirst, rfl⟩ | ⟨seen, rfl⟩
      · cases keySide with
        | headerOut isKeys _ carries => exact ⟨_, isKeys, carries⟩
      · cases keySide with
        | firstIn isKeys _ carries => exact ⟨_, isKeys, carries⟩
    have gathers :
        ∃ keys,
          exchange.keys = some keys ∧
            GathersAll inEncap keys.encap.bytes := by
      rcases isCapsule with ⟨outFirst, rfl⟩ | rfl
      · cases capsuleSide with
        | firstOut isKeys _ _ _ gathers => exact ⟨_, isKeys, gathers⟩
      · cases capsuleSide with
        | firstAcked isKeys _ _ gathers => exact ⟨_, isKeys, gathers⟩
    obtain ⟨keys, isKeys, carries⟩ := carries
    obtain ⟨others, isOthers, gathers⟩ := gathers
    obtain rfl := Option.some.inj (isKeys.symm.trans isOthers)
    apply feeds_of_length carries gathers _ (by decide)
    rw [keys.encap.length_bytes]
    decide
  · rcases isCapsule with ⟨outFirst, rfl⟩ | rfl
    · cases keySide
    · cases keySide

/-- Thirty pieces make a first half. -/
theorem feeds_first
    {capsule : Braid}
    (sided : Sided (.headerOut epoch auth decap outEncap inFirst) capsule)
    (isCapsule :
      (∃ header inEncap,
        capsule =
          .firstOut otherEpoch other header carry first outFirst inEncap) ∨
        ∃ encap,
          capsule =
            .encapInFirstOut otherEpoch other carry encap first outFirst) :
    Feeds outFirst inFirst 30 := by
  obtain ⟨exchange, ⟨key, capsuleSide⟩ | ⟨key, _⟩⟩ := sided
  · have carries :
        ∃ first,
          exchange.first = some first ∧
            outFirst.Carries first.capsule.bytes := by
      rcases isCapsule with ⟨header, inEncap, rfl⟩ | ⟨encap, rfl⟩
      · cases capsuleSide with
        | firstOut _ isFirst _ carries => exact ⟨_, isFirst, carries⟩
      · cases capsuleSide with
        | encapInFirstOut _ isFirst _ carries => exact ⟨_, isFirst, carries⟩
    cases key with
    | headerOut _ isFirst _ gathers =>
        obtain ⟨known, isKnown, carries⟩ := carries
        obtain rfl := Option.some.inj (isFirst.symm.trans isKnown)
        apply feeds_of_length carries gathers _ (by decide)
        rw [Block.length_bytes]
        decide
  · rcases isCapsule with ⟨header, inEncap, rfl⟩ | ⟨encap, rfl⟩
    · cases key
    · cases key

/-- Five pieces make a second half. -/
theorem feeds_second
    (sided :
      Sided (.encapOutFirstIn epoch auth decap seen inSecond)
        (.secondOut epoch other outSecond)) :
    Feeds outSecond inSecond 5 := by
  obtain ⟨exchange, ⟨key, capsule⟩ | ⟨_, capsule⟩⟩ := sided
  · cases key with
    | encapOutFirstIn isKeys isFirst _ gathers =>
        cases capsule with
        | secondOut isKeys' isFirst' _ carries =>
            obtain rfl := Option.some.inj (isKeys.symm.trans isKeys')
            obtain rfl := Option.some.inj (isFirst.symm.trans isFirst')
            apply feeds_of_length carries gathers _ (by decide)
            rw [Exchange.length_secondText]
            decide
  · cases capsule

end Feeding

/-! ## Packets of the key side -/

section KeyPackets

variable {epoch : Nat} {auth : Auth} {encap : Block Kem.encapLength}
variable {header : Block Kem.headerLength} {carry : Block Kem.carryLength}
variable {first : Block Kem.firstLength} {outFirst : Spread}
variable {inHeader inEncap : Gather} {piece : Piece}
variable {after : Braid} {secret : Option EpochSecret}

/-- A piece of the header completes it or is kept. -/
theorem waiting_header
    (receives :
      receiveCurrent (.waiting epoch auth inHeader) (.header piece) =
        .ok (after, secret)) :
    ((inHeader.add piece).message = .ok none ∧
        after = .waiting epoch auth (inHeader.add piece)) ∨
      ∃ header inEncap, after = .headerIn epoch auth header inEncap := by
  obtain ⟨whole, isWhole, rest⟩ := Outcome.bind_eq_ok.mp receives
  cases whole with
  | none =>
      cases rest
      exact .inl ⟨isWhole, rfl⟩
  | some whole =>
      obtain ⟨header, _, rest⟩ := Outcome.bind_eq_ok.mp rest
      obtain ⟨tag, _, rest⟩ := Outcome.bind_eq_ok.mp rest
      obtain ⟨_, _, rest⟩ := Outcome.bind_eq_ok.mp rest
      obtain ⟨inEncap, _, ⟨⟩⟩ := Outcome.bind_eq_ok.mp rest
      exact .inr ⟨header, inEncap, rfl⟩

/-- A piece of the key completes it or is kept. -/
theorem firstOut_encap
    (receives :
      receiveCurrent
          (.firstOut epoch auth header carry first outFirst inEncap)
          (.encap piece) =
        .ok (after, secret)) :
    ((inEncap.add piece).message = .ok none ∧
        after =
          .firstOut epoch auth header carry first outFirst
            (inEncap.add piece)) ∨
      ∃ encap,
        after = .encapInFirstOut epoch auth carry encap first outFirst := by
  obtain ⟨whole, isWhole, rest⟩ := Outcome.bind_eq_ok.mp receives
  cases whole with
  | none =>
      cases rest
      exact .inl ⟨isWhole, rfl⟩
  | some whole =>
      obtain ⟨encap, _, rest⟩ := Outcome.bind_eq_ok.mp rest
      obtain ⟨_, _, ⟨⟩⟩ := Outcome.bind_eq_ok.mp rest
      exact .inr ⟨encap, rfl⟩

/-- A piece that acknowledges is taken as it is after an acknowledgement. -/
theorem firstOut_encapAndAck :
    receiveCurrent
        (.firstOut epoch auth header carry first outFirst inEncap)
        (.encapAndAck piece) =
      receiveCurrent (.firstAcked epoch auth header carry first inEncap)
        (.encapAndAck piece) :=
  rfl

/-- A piece of the key completes it, or it is kept as well. -/
theorem firstAcked_encapAndAck
    (receives :
      receiveCurrent (.firstAcked epoch auth header carry first inEncap)
          (.encapAndAck piece) =
        .ok (after, secret)) :
    ((inEncap.add piece).message = .ok none ∧
        after =
          .firstAcked epoch auth header carry first (inEncap.add piece)) ∨
      ∃ outSecond, after = .secondOut epoch auth outSecond := by
  obtain ⟨whole, isWhole, rest⟩ := Outcome.bind_eq_ok.mp receives
  cases whole with
  | none =>
      cases rest
      exact .inl ⟨isWhole, rfl⟩
  | some whole =>
      obtain ⟨encap, _, rest⟩ := Outcome.bind_eq_ok.mp rest
      obtain ⟨_, _, rest⟩ := Outcome.bind_eq_ok.mp rest
      obtain ⟨outSecond, _, ⟨⟩⟩ := Outcome.bind_eq_ok.mp rest
      exact .inr ⟨outSecond, rfl⟩

end KeyPackets

/-- A packet that is due takes at least one off the rank. -/
def Onward (epoch rank : Nat) (key capsule : Braid) : Prop :=
  ∃ less,
    less < rank ∧
      (KeyDue epoch less key capsule ∨ CapsuleDue epoch less key capsule)

/-- A send of the key's side brings the exchange on. -/
theorem KeyDue.byKey
    {epoch rank : Nat}
    {key capsule key' capsule' : Braid}
    {draw : Draw}
    {sent : Sent}
    {secret : Option EpochSecret}
    (due : KeyDue epoch rank key capsule)
    (sends : key.send draw = .ok (key', sent))
    (receives : capsule.receive sent.packet = .ok (capsule', secret))
    (sided : Sided key' capsule') :
    Onward epoch rank key' capsule' := by
  cases due with
  | unsampled =>
      obtain ⟨keys, _, rest⟩ := Outcome.bind_eq_ok.mp sends
      obtain ⟨spread, _, rest⟩ := Outcome.bind_eq_ok.mp rest
      obtain ⟨⟨piece, outHeader⟩, _, ⟨⟩⟩ := Outcome.bind_eq_ok.mp rest
      rw [receive_same rfl] at receives
      rcases waiting_header receives with
        ⟨_, rfl⟩ | ⟨header, inEncap, rfl⟩
      · exact ⟨_, by decide, .inl (.sampled (feeds_header sided))⟩
      · exact ⟨_, by decide, .inr .headerIn⟩
  | @sampled auth other encap decap outHeader inHeader count feeds =>
      obtain ⟨⟨piece, spread⟩, dealt, ⟨⟩⟩ := Outcome.bind_eq_ok.mp sends
      rw [receive_same rfl] at receives
      rcases waiting_header receives with
        ⟨nothing, rfl⟩ | ⟨header, inEncap, rfl⟩
      · rcases feeds.deal dealt with
          ⟨_, found⟩ | ⟨fewer, rfl, _, feedsLess⟩
        · cases nothing.symm.trans found
        · exact ⟨_, by omega, .inl (.sampled feedsLess)⟩
      · exact ⟨_, by omega, .inr .headerIn⟩
  | @firstIn auth other decap header carry first seen outEncap outFirst
      inEncap count feeds =>
      obtain ⟨⟨piece, spread⟩, dealt, ⟨⟩⟩ := Outcome.bind_eq_ok.mp sends
      rw [receive_same rfl] at receives
      rcases firstAcked_encapAndAck (firstOut_encapAndAck ▸ receives) with
        ⟨nothing, rfl⟩ | ⟨outSecond, rfl⟩
      · rcases feeds.deal dealt with
          ⟨_, found⟩ | ⟨fewer, rfl, _, feedsLess⟩
        · cases nothing.symm.trans found
        · exact ⟨_, by omega, .inl (.acked feedsLess)⟩
      · exact ⟨_, by omega, .inr .answered⟩
  | encapIn =>
      obtain ⟨⟨piece, spread⟩, _, ⟨⟩⟩ := Outcome.bind_eq_ok.mp sends
      rw [receive_same rfl] at receives
      obtain ⟨outSecond, _, ⟨⟩⟩ := Outcome.bind_eq_ok.mp receives
      exact ⟨_, by decide, .inr .answered⟩
  | @acked auth other decap header carry first seen outEncap inEncap count
      feeds =>
      obtain ⟨⟨piece, spread⟩, dealt, ⟨⟩⟩ := Outcome.bind_eq_ok.mp sends
      rw [receive_same rfl] at receives
      rcases firstAcked_encapAndAck receives with
        ⟨nothing, rfl⟩ | ⟨outSecond, rfl⟩
      · rcases feeds.deal dealt with
          ⟨_, found⟩ | ⟨fewer, rfl, _, feedsLess⟩
        · cases nothing.symm.trans found
        · exact ⟨_, by omega, .inl (.acked feedsLess)⟩
      · exact ⟨_, by omega, .inr .answered⟩

/-- A packet of the key side leaves a rank alone that it does not count. -/
theorem CapsuleDue.byKey
    {epoch rank : Nat}
    {key capsule key' capsule' : Braid}
    {draw : Draw}
    {sent : Sent}
    {secret : Option EpochSecret}
    (due : CapsuleDue epoch rank key capsule)
    (sends : key.send draw = .ok (key', sent))
    (receives : capsule.receive sent.packet = .ok (capsule', secret)) :
    ∃ less, less ≤ rank ∧ CapsuleDue epoch less key' capsule' := by
  cases due with
  | @late earlier auth other outSecond inHeader before =>
      obtain ⟨⟨piece, spread⟩, _, ⟨⟩⟩ := Outcome.bind_eq_ok.mp sends
      have older : earlier < epoch := by omega
      rw [receive_older older] at receives
      cases receives
      exact ⟨_, Nat.le_refl _, .late before⟩
  | headerIn =>
      obtain ⟨⟨piece, spread⟩, _, ⟨⟩⟩ := Outcome.bind_eq_ok.mp sends
      rw [receive_same rfl] at receives
      cases receives
      exact ⟨_, Nat.le_refl _, .headerIn⟩
  | firstOut =>
      obtain ⟨⟨piece, spread⟩, _, ⟨⟩⟩ := Outcome.bind_eq_ok.mp sends
      rw [receive_same rfl] at receives
      cases receives
      exact ⟨_, Nat.le_refl _, .firstOut⟩
  | encapInFirstOut =>
      obtain ⟨⟨piece, spread⟩, _, ⟨⟩⟩ := Outcome.bind_eq_ok.mp sends
      rw [receive_same rfl] at receives
      cases receives
      exact ⟨_, Nat.le_refl _, .encapInFirstOut⟩
  | headerOut feedsFirst feedsEncap =>
      obtain ⟨⟨piece, spread⟩, dealt, ⟨⟩⟩ := Outcome.bind_eq_ok.mp sends
      rw [receive_same rfl] at receives
      rcases firstOut_encap receives with
        ⟨nothing, rfl⟩ | ⟨encap, rfl⟩
      · rcases feedsEncap.deal dealt with
          ⟨_, found⟩ | ⟨fewer, rfl, _, feedsLess⟩
        · cases nothing.symm.trans found
        · exact ⟨_, by omega, .headerOut feedsFirst feedsLess⟩
      · exact ⟨_, by omega, .headerOutEncapIn feedsFirst⟩
  | headerOutEncapIn feeds =>
      obtain ⟨⟨piece, spread⟩, _, ⟨⟩⟩ := Outcome.bind_eq_ok.mp sends
      rw [receive_same rfl] at receives
      cases receives
      exact ⟨_, Nat.le_refl _, .headerOutEncapIn feeds⟩
  | answered =>
      obtain ⟨⟨piece, spread⟩, _, ⟨⟩⟩ := Outcome.bind_eq_ok.mp sends
      rw [receive_same rfl] at receives
      cases receives
      exact ⟨_, Nat.le_refl _, .answered⟩
  | second feeds =>
      cases sends
      rw [receive_same rfl] at receives
      cases receives
      exact ⟨_, Nat.le_refl _, .second feeds⟩
  | last =>
      obtain ⟨⟨piece, spread⟩, _, ⟨⟩⟩ := Outcome.bind_eq_ok.mp sends
      rw [receive_older (Nat.lt_succ_self epoch)] at receives
      cases receives
      exact ⟨_, Nat.le_refl _, .last⟩

/-! ## Packets of the capsule side -/

/-- A packet of the capsule side leaves the rank of the key side alone. -/
theorem KeyDue.byCapsule
    {epoch rank : Nat}
    {key capsule key' capsule' : Braid}
    {draw : Draw}
    {sent : Sent}
    {secret : Option EpochSecret}
    (due : KeyDue epoch rank key capsule)
    (sends : capsule.send draw = .ok (capsule', sent))
    (receives : key.receive sent.packet = .ok (key', secret)) :
    KeyDue epoch rank key' capsule' := by
  cases due with
  | unsampled =>
      cases sends
      rw [receive_same rfl] at receives
      cases receives
      exact .unsampled
  | sampled feeds =>
      cases sends
      rw [receive_same rfl] at receives
      cases receives
      exact .sampled feeds
  | firstIn feeds =>
      obtain ⟨⟨piece, spread⟩, _, ⟨⟩⟩ := Outcome.bind_eq_ok.mp sends
      rw [receive_same rfl] at receives
      cases receives
      exact .firstIn feeds
  | encapIn =>
      obtain ⟨⟨piece, spread⟩, _, ⟨⟩⟩ := Outcome.bind_eq_ok.mp sends
      rw [receive_same rfl] at receives
      cases receives
      exact .encapIn
  | acked feeds =>
      cases sends
      rw [receive_same rfl] at receives
      cases receives
      exact .acked feeds

section CapsulePackets

variable {epoch : Nat} {auth : Auth} {encap : Block Kem.encapLength}
variable {decap : Block Kem.decapLength} {seen : Block Kem.firstLength}
variable {outHeader outEncap outSecond : Spread}
variable {inFirst inSecond : Gather} {piece : Piece}
variable {after : Braid} {secret : Option EpochSecret}

/-- The first piece of a capsule acknowledges the header. -/
theorem sampled_first
    (receives :
      receiveCurrent (.sampled epoch auth encap decap outHeader)
          (.first piece) =
        .ok (after, secret)) :
    ∃ outEncap inFirst,
      after = .headerOut epoch auth decap outEncap inFirst := by
  obtain ⟨inFirst, _, rest⟩ := Outcome.bind_eq_ok.mp receives
  obtain ⟨outEncap, _, ⟨⟩⟩ := Outcome.bind_eq_ok.mp rest
  exact ⟨_, _, rfl⟩

/-- A piece of the first half completes it or is kept. -/
theorem headerOut_first
    (receives :
      receiveCurrent (.headerOut epoch auth decap outEncap inFirst)
          (.first piece) =
        .ok (after, secret)) :
    ((inFirst.add piece).message = .ok none ∧
        after =
          .headerOut epoch auth decap outEncap (inFirst.add piece)) ∨
      ∃ seen, after = .firstIn epoch auth decap seen outEncap := by
  obtain ⟨whole, isWhole, rest⟩ := Outcome.bind_eq_ok.mp receives
  cases whole with
  | none =>
      cases rest
      exact .inl ⟨isWhole, rfl⟩
  | some whole =>
      obtain ⟨seen, _, ⟨⟩⟩ := Outcome.bind_eq_ok.mp rest
      exact .inr ⟨seen, rfl⟩

/-- The first piece of a second half acknowledges the key. -/
theorem firstIn_second
    (receives :
      receiveCurrent (.firstIn epoch auth decap seen outEncap)
          (.second piece) =
        .ok (after, secret)) :
    ∃ inSecond, after = .encapOutFirstIn epoch auth decap seen inSecond := by
  obtain ⟨inSecond, _, ⟨⟩⟩ := Outcome.bind_eq_ok.mp receives
  exact ⟨_, rfl⟩

/-- A piece of the second half ends the epoch or is kept. -/
theorem encapOutFirstIn_onSecond
    (receives :
      receiveCurrent (.encapOutFirstIn epoch auth decap seen inSecond)
          (.second piece) =
        .ok (after, secret)) :
    ((inSecond.add piece).message = .ok none ∧
        after =
          .encapOutFirstIn epoch auth decap seen (inSecond.add piece)) ∨
      ∃ auth inHeader, after = .waiting (epoch + 1) auth inHeader := by
  obtain ⟨whole, isWhole, rest⟩ := Outcome.bind_eq_ok.mp receives
  cases whole with
  | none =>
      cases rest
      exact .inl ⟨isWhole, rfl⟩
  | some whole =>
      obtain ⟨second, _, rest⟩ := Outcome.bind_eq_ok.mp rest
      obtain ⟨tag, _, rest⟩ := Outcome.bind_eq_ok.mp rest
      obtain ⟨shared, _, rest⟩ := Outcome.bind_eq_ok.mp rest
      obtain ⟨auth, _, rest⟩ := Outcome.bind_eq_ok.mp rest
      obtain ⟨_, _, rest⟩ := Outcome.bind_eq_ok.mp rest
      obtain ⟨inHeader, _, rest⟩ := Outcome.bind_eq_ok.mp rest
      obtain ⟨next, isNext, ⟨⟩⟩ := Outcome.bind_eq_ok.mp rest
      obtain rfl := (Outcome.add_eq_ok.mp isNext).2
      exact .inr ⟨auth, inHeader, rfl⟩

/-- The first packet of the next epoch ends the one of the second half. -/
theorem secondOut_next
    {payload : Payload}
    (receives :
      receive (.secondOut epoch auth outSecond) ⟨epoch + 1, payload⟩ =
        .ok (after, secret)) :
    after = .unsampled (epoch + 1) auth := by
  have ahead : epoch < epoch + 1 := Nat.lt_succ_self epoch
  simp only [receive, Braid.epoch, ahead, if_true] at receives
  cases receives
  rfl

end CapsulePackets

/-- A send of the capsule's side brings the exchange on. -/
theorem CapsuleDue.byCapsule
    {epoch rank : Nat}
    {key capsule key' capsule' : Braid}
    {draw : Draw}
    {sent : Sent}
    {secret : Option EpochSecret}
    (due : CapsuleDue epoch rank key capsule)
    (sends : capsule.send draw = .ok (capsule', sent))
    (receives : key.receive sent.packet = .ok (key', secret))
    (sided : Sided key' capsule') :
    (epoch < key'.epoch ∧ epoch < capsule'.epoch) ∨
      Onward epoch rank key' capsule' ∨
      Onward epoch rank capsule' key' := by
  cases due with
  | late before =>
      cases sends
      subst before
      obtain rfl := secondOut_next receives
      exact .inr (.inl ⟨_, by decide, .inl .unsampled⟩)
  | headerIn =>
      obtain ⟨advanced, _, rest⟩ := Outcome.bind_eq_ok.mp sends
      obtain ⟨spread, _, rest⟩ := Outcome.bind_eq_ok.mp rest
      obtain ⟨⟨piece, outFirst⟩, _, ⟨⟩⟩ := Outcome.bind_eq_ok.mp rest
      rw [receive_same rfl] at receives
      obtain ⟨outEncap, inFirst, rfl⟩ := sampled_first receives
      have feedsFirst := feeds_first sided (.inl ⟨_, _, rfl⟩)
      have feedsEncap :=
        feeds_encap sided (.inl ⟨_, rfl⟩) (.inl ⟨_, rfl⟩)
      exact .inr
        (.inl ⟨_, by decide, .inr (.headerOut feedsFirst feedsEncap)⟩)
  | firstOut =>
      obtain ⟨⟨piece, outFirst⟩, _, ⟨⟩⟩ := Outcome.bind_eq_ok.mp sends
      rw [receive_same rfl] at receives
      obtain ⟨outEncap, inFirst, rfl⟩ := sampled_first receives
      have feedsFirst := feeds_first sided (.inl ⟨_, _, rfl⟩)
      have feedsEncap :=
        feeds_encap sided (.inl ⟨_, rfl⟩) (.inl ⟨_, rfl⟩)
      exact .inr
        (.inl ⟨_, by decide, .inr (.headerOut feedsFirst feedsEncap)⟩)
  | encapInFirstOut =>
      obtain ⟨⟨piece, outFirst⟩, _, ⟨⟩⟩ := Outcome.bind_eq_ok.mp sends
      rw [receive_same rfl] at receives
      obtain ⟨outEncap, inFirst, rfl⟩ := sampled_first receives
      have feedsFirst := feeds_first sided (.inr ⟨_, rfl⟩)
      exact .inr
        (.inl ⟨_, by decide, .inr (.headerOutEncapIn feedsFirst)⟩)
  | headerOut feedsFirst feedsEncap =>
      obtain ⟨⟨piece, outFirst⟩, dealt, ⟨⟩⟩ := Outcome.bind_eq_ok.mp sends
      rw [receive_same rfl] at receives
      rcases headerOut_first receives with
        ⟨nothing, rfl⟩ | ⟨seen, rfl⟩
      · rcases feedsFirst.deal dealt with
          ⟨_, found⟩ | ⟨fewer, rfl, _, feedsLess⟩
        · cases nothing.symm.trans found
        · exact .inr
            (.inl ⟨_, by omega, .inr (.headerOut feedsLess feedsEncap)⟩)
      · exact .inr (.inl ⟨_, by omega, .inl (.firstIn feedsEncap)⟩)
  | headerOutEncapIn feeds =>
      obtain ⟨⟨piece, outFirst⟩, dealt, ⟨⟩⟩ := Outcome.bind_eq_ok.mp sends
      rw [receive_same rfl] at receives
      rcases headerOut_first receives with
        ⟨nothing, rfl⟩ | ⟨seen, rfl⟩
      · rcases feeds.deal dealt with
          ⟨_, found⟩ | ⟨fewer, rfl, _, feedsLess⟩
        · cases nothing.symm.trans found
        · exact .inr
            (.inl ⟨_, by omega, .inr (.headerOutEncapIn feedsLess)⟩)
      · exact .inr (.inl ⟨_, by omega, .inl .encapIn⟩)
  | answered =>
      obtain ⟨⟨piece, outSecond⟩, _, ⟨⟩⟩ := Outcome.bind_eq_ok.mp sends
      rw [receive_same rfl] at receives
      obtain ⟨inSecond, rfl⟩ := firstIn_second receives
      exact .inr (.inl ⟨_, by decide, .inr (.second (feeds_second sided))⟩)
  | second feeds =>
      obtain ⟨⟨piece, outSecond⟩, dealt, ⟨⟩⟩ := Outcome.bind_eq_ok.mp sends
      rw [receive_same rfl] at receives
      rcases encapOutFirstIn_onSecond receives with
        ⟨nothing, rfl⟩ | ⟨auth, inHeader, rfl⟩
      · rcases feeds.deal dealt with
          ⟨_, found⟩ | ⟨fewer, rfl, _, feedsLess⟩
        · cases nothing.symm.trans found
        · exact .inr (.inl ⟨_, by omega, .inr (.second feedsLess)⟩)
      · -- The key side begins the next epoch as its capsule side.
        exact .inr (.inr ⟨_, by omega, .inr .last⟩)
  | last =>
      cases sends
      obtain rfl := secondOut_next receives
      exact .inl ⟨Nat.lt_succ_self epoch, Nat.lt_succ_self epoch⟩

end Gossveil.Braid
