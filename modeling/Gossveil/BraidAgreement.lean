import Gossveil.BraidSteps
import Gossveil.TwoParty

namespace Gossveil.Braid

open ErasureCode TwoParty

/-!
# Safety and agreement of the braid

Two braids that started on one authentication key stay the two sides of one
exchange, whatever is sent and whatever arrives.  From this relation follow
the claims about whole runs: no receive fails, the epochs stay together, each
side emits the secret of each epoch once, and both emit the same one.
-/

variable [Hashes] [Kem]

variable {exchange : Exchange}

/-! ## Growth of the data -/

namespace Exchange

omit [Hashes] in
/-- Keys can join an exchange that has none. -/
theorem Sound.withKeys
    (sound : exchange.Sound)
    {keys : Kem.Keys}
    {seed : Block Kem.seedLength}
    (noKeys : exchange.keys = none)
    (generated : Kem.generate seed = some keys) :
    (exchange.withKeys keys).Sound := by
  refine ⟨sound.positive, sound.epochFits, ?_, ?_, sound.past⟩
  · rintro settled ⟨⟩
    exact ⟨seed, generated⟩
  · intro first isFirst
    rcases sound.encapsulated first isFirst with ⟨_, _, isKeys, _⟩
    rw [noKeys] at isKeys
    cases isKeys

omit [Hashes] in
/-- A first half can join the keys. -/
theorem Sound.withFirst
    (sound : exchange.Sound)
    {keys : Kem.Keys}
    (isKeys : exchange.keys = some keys)
    (message : Block 32) :
    (exchange.withFirst (Kem.firstHalf keys.header message)).Sound := by
  refine ⟨sound.positive, sound.epochFits, sound.generated, ?_,
    sound.past⟩
  rintro first ⟨⟩
  exact ⟨keys, message, isKeys, rfl⟩

omit [Hashes] in
/-- An answer can join the rest. -/
theorem Sound.withAnswer (sound : exchange.Sound) :
    exchange.withAnswer.Sound :=
  ⟨sound.positive, sound.epochFits, sound.generated, sound.encapsulated,
    sound.past⟩

omit [Hashes] in
/-- The epochs up to the current one: those before it, and itself. -/
theorem Sound.epochs_split (sound : exchange.Sound) :
    List.range' 1 exchange.epoch =
      List.range' 1 (exchange.epoch - 1) ++ [exchange.epoch] := by
  obtain ⟨before, isNext⟩ := Nat.exists_eq_add_of_le' sound.positive
  rw [isNext, Nat.add_sub_cancel, List.range'_concat, Nat.one_mul,
    Nat.add_comm 1]

/-- The next exchange is sound. -/
theorem Sound.following
    (sound : exchange.Sound)
    (fits : exchange.epoch + 1 < 2 ^ 64)
    (first : Kem.First) :
    (exchange.following first).Sound := by
  refine ⟨Nat.le_add_left .., fits, ?_, ?_, ?_⟩
  · rintro keys ⟨⟩
  · rintro first ⟨⟩
  · rw [Exchange.following, List.map_append, sound.past,
      Nat.add_sub_cancel, sound.epochs_split]
    rfl

end Exchange

/-- A first half does not concern the side of the keys. -/
theorem KeySide.withFirst
    {braid : Braid}
    (side : KeySide exchange braid)
    (noFirst : exchange.first = none)
    (first : Kem.First) :
    KeySide (exchange.withFirst first) braid := by
  cases side with
  | late before positive long noKeys carries =>
      exact .late before positive long noKeys carries
  | unsampled noKeys => exact .unsampled noKeys
  | sampled isKeys carries => exact .sampled isKeys carries
  | headerOut _ isFirst | firstIn _ isFirst | encapOutFirstIn _ isFirst =>
      rw [noFirst] at isFirst
      cases isFirst

/-- Neither does an answer. -/
theorem KeySide.withAnswer
    {braid : Braid}
    (side : KeySide exchange braid) :
    KeySide exchange.withAnswer braid := by
  cases side with
  | late before positive long noKeys carries =>
      exact .late before positive long noKeys carries
  | unsampled noKeys => exact .unsampled noKeys
  | sampled isKeys carries => exact .sampled isKeys carries
  | headerOut isKeys isFirst carries gathers =>
      exact .headerOut isKeys isFirst carries gathers
  | firstIn isKeys isFirst carries => exact .firstIn isKeys isFirst carries
  | encapOutFirstIn isKeys isFirst answered gathers =>
      exact .encapOutFirstIn isKeys isFirst rfl gathers

/-- Keys do not concern the side of the capsule. -/
theorem CapsuleSide.withKeys
    {braid : Braid}
    (side : CapsuleSide exchange braid)
    (noKeys : exchange.keys = none)
    (keys : Kem.Keys) :
    CapsuleSide (exchange.withKeys keys) braid := by
  cases side with
  | waiting noFirst unanswered gathers =>
      rw [noKeys] at gathers
      exact .waiting noFirst unanswered (gathers.of_none _)
  | headerIn isKeys | firstOut isKeys | encapInFirstOut isKeys
  | firstAcked isKeys | secondOut isKeys =>
      rw [noKeys] at isKeys
      cases isKeys

omit [Kem] in
/-- Payloads of the keys stay so when the keys are drawn. -/
theorem KeyPayload.withKeys
    {payload : Payload}
    (of : KeyPayload exchange payload)
    (noKeys : exchange.keys = none)
    (keys : Kem.Keys) :
    KeyPayload (exchange.withKeys keys) payload := by
  cases of with
  | ack => exact .ack
  | header isKeys | encap isKeys | encapAndAck isKeys =>
      rw [noKeys] at isKeys
      cases isKeys

omit [Kem] in
/-- What the key side sends is made of the keys and the header message. -/
theorem KeyPayload.of_same
    {payload : Payload}
    (of : KeyPayload exchange payload)
    {later : Exchange}
    (sameKeys : later.keys = exchange.keys)
    (sameText : later.headerText = exchange.headerText) :
    KeyPayload later payload := by
  cases of with
  | header isKeys index =>
      rw [← sameText]
      exact .header (sameKeys.trans isKeys) index
  | encap isKeys index => exact .encap (sameKeys.trans isKeys) index
  | encapAndAck isKeys index => exact .encapAndAck (sameKeys.trans isKeys) index
  | ack => exact .ack

/-- Payloads of the capsule stay so when the keys are drawn. -/
theorem CapsulePayload.withKeys
    {payload : Payload}
    (of : CapsulePayload exchange payload)
    (noKeys : exchange.keys = none)
    (keys : Kem.Keys) :
    CapsulePayload (exchange.withKeys keys) payload := by
  cases of with
  | empty => exact .empty
  | first isFirst index => exact .first (by exact isFirst) index
  | second isKeys =>
      rw [noKeys] at isKeys
      cases isKeys

/-- Payloads of the capsule stay so when the answer is there. -/
theorem CapsulePayload.withAnswer
    {payload : Payload}
    (of : CapsulePayload exchange payload) :
    CapsulePayload exchange.withAnswer payload := by
  cases of with
  | empty => exact .empty
  | first isFirst index => exact .first (by exact isFirst) index
  | second isKeys isFirst answered index =>
      exact .second (by exact isKeys) (by exact isFirst) rfl index

/-- Payloads of the capsule stay so when the first half is there. -/
theorem CapsulePayload.withFirst
    {payload : Payload}
    (of : CapsulePayload exchange payload)
    (noFirst : exchange.first = none)
    (first : Kem.First) :
    CapsulePayload (exchange.withFirst first) payload := by
  cases of with
  | empty => exact .empty
  | first isFirst | second _ isFirst =>
      rw [noFirst] at isFirst
      cases isFirst

/-- A later state of the same exchange. -/
structure Extends (exchange later : Exchange) : Prop where
  sound : later.Sound
  sameEpoch : later.epoch = exchange.epoch
  samePast : later.past = exchange.past
  keyPayload :
    ∀ {payload}, KeyPayload exchange payload → KeyPayload later payload
  capsulePayload :
    ∀ {payload},
      CapsulePayload exchange payload → CapsulePayload later payload

namespace Exchange

theorem Sound.extends_self (sound : exchange.Sound) :
    Extends exchange exchange :=
  ⟨sound, rfl, rfl, id, id⟩

/-- Drawing keys extends the exchange. -/
theorem Sound.extends_withKeys
    (sound : exchange.Sound)
    {keys : Kem.Keys}
    {seed : Block Kem.seedLength}
    (noKeys : exchange.keys = none)
    (generated : Kem.generate seed = some keys) :
    Extends exchange (exchange.withKeys keys) :=
  ⟨sound.withKeys noKeys generated, rfl, rfl,
    fun of => of.withKeys noKeys keys,
    fun of => of.withKeys noKeys keys⟩

/-- Encapsulating extends the exchange. -/
theorem Sound.extends_withFirst
    (sound : exchange.Sound)
    {keys : Kem.Keys}
    (isKeys : exchange.keys = some keys)
    (noFirst : exchange.first = none)
    (message : Block 32) :
    Extends exchange
      (exchange.withFirst (Kem.firstHalf keys.header message)) :=
  ⟨sound.withFirst isKeys message, rfl, rfl,
    fun of => of.of_same rfl rfl, fun of => of.withFirst noFirst _⟩

/-- Answering extends the exchange. -/
theorem Sound.extends_withAnswer (sound : exchange.Sound) :
    Extends exchange exchange.withAnswer :=
  ⟨sound.withAnswer, rfl, rfl, fun of => of.of_same rfl rfl,
    fun of => of.withAnswer⟩

end Exchange

/-! ## What two braids have done -/

/-- Both states, the packets sent and the secrets emitted so far. -/
structure Talk where
  state : Side → Braid
  packets : Side → List Packet
  emitted : Side → List EpochSecret

namespace Talk

/-- Both sides before anything is sent. -/
def init (state : Side → Braid) : Talk :=
  ⟨state, fun _ => [], fun _ => []⟩

/-- A side moves on, sends the packets and emits the secrets. -/
def act
    (talk : Talk)
    (side : Side)
    (braid : Braid)
    (packets : List Packet)
    (secret : Option EpochSecret) :
    Talk :=
  ⟨Function.update talk.state side braid,
    Function.update talk.packets side (talk.packets side ++ packets),
    Function.update talk.emitted side
      (talk.emitted side ++ secret.toList)⟩

section Act

variable
    (talk : Talk)
    (side : Side)
    (braid : Braid)
    (packets : List Packet)
    (secret : Option EpochSecret)

omit [Hashes] [Kem]

@[simp] theorem state_act_self :
    (talk.act side braid packets secret).state side = braid :=
  Function.update_self ..

@[simp] theorem packets_act_self :
    (talk.act side braid packets secret).packets side =
      talk.packets side ++ packets :=
  Function.update_self ..

@[simp] theorem emitted_act_self :
    (talk.act side braid packets secret).emitted side =
      talk.emitted side ++ secret.toList :=
  Function.update_self ..

@[simp] theorem state_act_other :
    (talk.act side braid packets secret).state side.other =
      talk.state side.other :=
  Function.update_of_ne (Side.other_ne side) _ _

@[simp] theorem packets_act_other :
    (talk.act side braid packets secret).packets side.other =
      talk.packets side.other :=
  Function.update_of_ne (Side.other_ne side) _ _

@[simp] theorem emitted_act_other :
    (talk.act side braid packets secret).emitted side.other =
      talk.emitted side.other :=
  Function.update_of_ne (Side.other_ne side) _ _

@[simp] theorem state_act_self_other :
    (talk.act side.other braid packets secret).state side =
      talk.state side :=
  Function.update_of_ne (Side.ne_other side) _ _

@[simp] theorem packets_act_self_other :
    (talk.act side.other braid packets secret).packets side =
      talk.packets side :=
  Function.update_of_ne (Side.ne_other side) _ _

@[simp] theorem emitted_act_self_other :
    (talk.act side.other braid packets secret).emitted side =
      talk.emitted side :=
  Function.update_of_ne (Side.ne_other side) _ _

end Act

end Talk

/-- The two braids are the two sides of the exchange. -/
structure Agreement
    (exchange : Exchange)
    (keySide : Side)
    (talk : Talk) :
    Prop where
  sound : exchange.Sound
  key : KeySide exchange (talk.state keySide)
  capsule : CapsuleSide exchange (talk.state keySide.other)
  keyPackets :
    ∀ packet ∈ talk.packets keySide, PacketOf KeyPayload exchange packet
  capsulePackets :
    ∀ packet ∈ talk.packets keySide.other,
      PacketOf CapsulePayload exchange packet
  keyEmitted : talk.emitted keySide = exchange.past
  capsuleEmitted :
    talk.emitted keySide.other = exchange.past ++ exchange.current

/-! ## One call -/

variable {keySide : Side} {talk : Talk}

omit [Hashes] [Kem] in
/-- The packets of a side once it has sent some more. -/
private theorem packets_extend
    {payload : Exchange → Payload → Prop}
    {later : Exchange}
    {before after : List Packet}
    (sameEpoch : later.epoch = exchange.epoch)
    (grows : ∀ {value}, payload exchange value → payload later value)
    (old : ∀ packet ∈ before, PacketOf payload exchange packet)
    (new : ∀ packet ∈ after, PacketOf payload later packet) :
    ∀ packet ∈ before ++ after, PacketOf payload later packet := by
  intro packet member
  rcases List.mem_append.mp member with inBefore | inAfter
  · exact (old packet inBefore).imp sameEpoch grows
  · exact new packet inAfter

/-- The key side moves within the exchange. -/
theorem Agreement.byKey
    (agreement : Agreement exchange keySide talk)
    {later : Exchange}
    (extends_ : Extends exchange later)
    (sameCurrent : later.current = exchange.current)
    {after : Braid}
    (key : KeySide later after)
    (capsule : CapsuleSide later (talk.state keySide.other))
    {packets : List Packet}
    (ofKey : ∀ packet ∈ packets, PacketOf KeyPayload later packet) :
    Agreement later keySide (talk.act keySide after packets none) := by
  refine ⟨extends_.sound, ?_, ?_, ?_, ?_, ?_, ?_⟩
  · rw [Talk.state_act_self]
    exact key
  · rw [Talk.state_act_other]
    exact capsule
  · rw [Talk.packets_act_self]
    exact packets_extend extends_.sameEpoch extends_.keyPayload
      agreement.keyPackets ofKey
  · rw [Talk.packets_act_other]
    exact fun packet sent =>
      (agreement.capsulePackets packet sent).imp extends_.sameEpoch
        extends_.capsulePayload
  · rw [Talk.emitted_act_self, Option.toList_none, List.append_nil,
      agreement.keyEmitted, extends_.samePast]
  · rw [Talk.emitted_act_other, agreement.capsuleEmitted,
      extends_.samePast, sameCurrent]

/-- The capsule side moves within the exchange. -/
theorem Agreement.byCapsule
    (agreement : Agreement exchange keySide talk)
    {later : Exchange}
    (extends_ : Extends exchange later)
    {secret : Option EpochSecret}
    (grownCurrent : later.current = exchange.current ++ secret.toList)
    {after : Braid}
    (key : KeySide later (talk.state keySide))
    (capsule : CapsuleSide later after)
    {packets : List Packet}
    (ofCapsule :
      ∀ packet ∈ packets, PacketOf CapsulePayload later packet) :
    Agreement later keySide
      (talk.act keySide.other after packets secret) := by
  refine ⟨extends_.sound, ?_, ?_, ?_, ?_, ?_, ?_⟩
  · rw [Talk.state_act_self_other]
    exact key
  · rw [Talk.state_act_self]
    exact capsule
  · rw [Talk.packets_act_self_other]
    exact fun packet sent =>
      (agreement.keyPackets packet sent).imp extends_.sameEpoch
        extends_.keyPayload
  · rw [Talk.packets_act_self]
    exact packets_extend extends_.sameEpoch extends_.capsulePayload
      agreement.capsulePackets ofCapsule
  · rw [Talk.emitted_act_self_other, agreement.keyEmitted,
      extends_.samePast]
  · rw [Talk.emitted_act_self, agreement.capsuleEmitted,
      extends_.samePast, grownCurrent, List.append_assoc]

/-- A send of either side keeps the agreement, or cannot make its key. -/
theorem Agreement.send
    (agreement : Agreement exchange keySide talk)
    (side : Side)
    (draw : Draw) :
    (Kem.generate draw.seed = none ∧
        (talk.state side).send draw = .error .badData) ∨
      ∃ after sent later,
        (talk.state side).send draw = .ok (after, sent) ∧
          sent.packet.epoch = after.epoch ∧
          Agreement later keySide
            (talk.act side after [sent.packet] sent.secret) := by
  have sound := agreement.sound
  rcases side.eq_or_eq_other keySide with rfl | rfl
  · rcases key_send sound agreement.key draw with
      refused | ⟨after, packet, later, sends, sent⟩
    · exact Or.inl refused
    · have ofKey : ∀ other ∈ [packet], PacketOf KeyPayload later other := by
        rintro other (_ | ⟨_, ⟨⟩⟩)
        exact sent.isPacket
      refine Or.inr ⟨after, _, later, sends, sent.epoch, ?_⟩
      rcases sent.grown with rfl | ⟨keys, seed, noKeys, generated, rfl⟩
      · exact agreement.byKey sound.extends_self rfl sent.state
          agreement.capsule ofKey
      · exact agreement.byKey (sound.extends_withKeys noKeys generated)
          rfl sent.state (agreement.capsule.withKeys noKeys keys) ofKey
  · rcases capsule_send sound agreement.capsule draw with
      ⟨after, sent, later, sends, did⟩
    have ofCapsule :
        ∀ other ∈ [sent.packet], PacketOf CapsulePayload later other := by
      rintro other (_ | ⟨_, ⟨⟩⟩)
      exact did.isPacket
    refine Or.inr ⟨after, sent, later, sends, did.epoch, ?_⟩
    rcases did.grown with
      ⟨rfl, silent⟩ | ⟨keys, message, isKeys, noFirst, rfl, emitted⟩
    · rw [silent]
      exact agreement.byCapsule sound.extends_self
        (List.append_nil _).symm agreement.key did.state ofCapsule
    · have grown :
          (exchange.withFirst (Kem.firstHalf keys.header message)).current =
            exchange.current ++ sent.secret.toList := by
        simp only [Exchange.current, noFirst, emitted]
        rfl
      exact agreement.byCapsule
        (sound.extends_withFirst isKeys noFirst message) grown
        (agreement.key.withFirst noFirst _) did.state ofCapsule

/-- Once the first half exists, the key side has reached the epoch. -/
private theorem KeySide.epoch_of_first
    {braid : Braid}
    (side : KeySide exchange braid)
    (sound : exchange.Sound)
    {first : Kem.First}
    (isFirst : exchange.first = some first) :
    braid.epoch = exchange.epoch := by
  cases side with
  | late _ _ _ noKeys =>
      rcases sound.encapsulated first isFirst with ⟨_, _, isKeys, _⟩
      rw [noKeys] at isKeys
      cases isKeys
  | unsampled | sampled | headerOut | firstIn | encapOutFirstIn => rfl

/-- A capsule side that answered is sending its second half. -/
private theorem CapsuleSide.late
    {braid : Braid}
    (side : CapsuleSide exchange braid)
    (positive : 1 ≤ exchange.epoch)
    (answered : exchange.answered = true)
    {first : Kem.First}
    (isFirst : exchange.first = some first) :
    KeySide (exchange.following first) braid := by
  cases side with
  | waiting _ unanswered | headerIn _ _ unanswered
  | firstOut _ _ unanswered | encapInFirstOut _ _ unanswered
  | firstAcked _ _ unanswered =>
      rw [unanswered] at answered
      cases answered
  | @secondOut keys first' outSecond isKeys isFirst' _ carries =>
      have sameFirst : first' = first :=
        Option.some.inj (isFirst'.symm.trans isFirst)
      subst sameFirst
      exact .late rfl positive
        (by rw [Exchange.length_secondText]; decide) rfl carries

/-- The exchange ends at the key side and the next begins. -/
theorem Agreement.rollover
    (agreement : Agreement exchange keySide talk)
    {first : Kem.First}
    {inHeader : Gather}
    (fits : exchange.epoch + 1 < 2 ^ 64)
    (isFirst : exchange.first = some first)
    (answered : exchange.answered = true)
    (fresh : inHeader.Gathers headerMessage none) :
    Agreement (exchange.following first) keySide.other
      (talk.act keySide
        (.waiting (exchange.epoch + 1) (exchange.nextAuth first) inHeader)
        [] (some (exchange.emission first))) := by
  refine ⟨agreement.sound.following fits first, ?_, ?_, ?_, ?_, ?_, ?_⟩
  · rw [Talk.state_act_other]
    exact agreement.capsule.late agreement.sound.positive answered isFirst
  · rw [Side.other_other, Talk.state_act_self]
    exact .waiting rfl rfl fresh
  · rw [Talk.packets_act_other]
    exact fun packet sent =>
      (agreement.capsulePackets packet sent).of_following rfl
  · rw [Side.other_other, Talk.packets_act_self, List.append_nil]
    exact fun packet sent =>
      (agreement.keyPackets packet sent).of_following rfl
  · rw [Talk.emitted_act_other, agreement.capsuleEmitted,
      Exchange.current, isFirst]
    rfl
  · rw [Side.other_other, Talk.emitted_act_self, agreement.keyEmitted,
      Option.toList_some, Exchange.current]
    exact (List.append_nil _).symm

/--
A receive of a packet of the other side keeps the agreement, unless it has to
count past the last epoch.
-/
theorem Agreement.receive
    [LawfulKem]
    (agreement : Agreement exchange keySide talk)
    (side : Side)
    {packet : Packet}
    (sent : packet ∈ talk.packets side.other) :
    (2 ^ 64 ≤ (talk.state side).epoch + 1 ∧
        (talk.state side).receive packet = .trap) ∨
      ∃ after secret later laterSide,
        (talk.state side).receive packet = .ok (after, secret) ∧
          Agreement later laterSide (talk.act side after [] secret) := by
  have sound := agreement.sound
  rcases side.eq_or_eq_other keySide with rfl | rfl
  · rcases key_receive sound agreement.key
        (agreement.capsulePackets packet sent) with
      ⟨after, receives, state⟩ |
        ⟨first, inHeader, isFirst, answered, fresh, receives⟩
    · refine Or.inr ⟨after, none, exchange, side, receives, ?_⟩
      exact agreement.byKey sound.extends_self rfl state
        agreement.capsule (by simp)
    · have sameEpoch := agreement.key.epoch_of_first sound isFirst
      by_cases fits : exchange.epoch + 1 < 2 ^ 64
      · rw [beginNext, Outcome.add_of_lt fits, Outcome.ok_bind] at receives
        exact Or.inr ⟨_, _, _, _, receives,
          agreement.rollover fits isFirst answered fresh⟩
      · have overflows :
            (Outcome.add 64 exchange.epoch 1 : Outcome RatchetError Nat) =
              .trap :=
          Outcome.add_eq_trap.mpr (Nat.not_lt.mp fits)
        rw [beginNext, overflows] at receives
        rw [sameEpoch]
        exact Or.inl ⟨Nat.not_lt.mp fits, receives⟩
  · rw [Side.other_other] at sent
    rcases capsule_receive sound agreement.capsule
        (agreement.keyPackets packet sent) with
      ⟨after, later, receives, state, rfl | ⟨hasKeys, hasFirst, rfl⟩⟩
    · refine Or.inr ⟨after, none, later, keySide, receives, ?_⟩
      exact agreement.byCapsule sound.extends_self
        (List.append_nil _).symm agreement.key state (by simp)
    · refine Or.inr
        ⟨after, none, exchange.withAnswer, keySide, receives, ?_⟩
      exact agreement.byCapsule sound.extends_withAnswer
        (List.append_nil _).symm agreement.key.withAnswer state (by simp)

/-! ## The start -/

/-- What both sides know before the first call. -/
def Exchange.start (auth : Auth) : Exchange :=
  { epoch := 1
    auth := auth
    keys := none
    first := none
    answered := false
    past := [] }

/-- Two braids before their first call. -/
def startSides (initiator responder : Braid) : Side → Braid
  | .initiator => initiator
  | .responder => responder

/-- Two braids that have just been started agree. -/
theorem Agreement.start
    {authKey : Bytes}
    {initiator responder : Braid}
    (startsInitiator : startInitiator authKey = .ok initiator)
    (startsResponder : startResponder authKey = .ok responder) :
    ∃ exchange,
      Agreement exchange .initiator
        (.init (startSides initiator responder)) := by
  rcases Outcome.bind_eq_ok.mp startsInitiator with
    ⟨auth, authenticates, ⟨⟩⟩
  rw [startResponder, authenticates, Outcome.ok_bind] at startsResponder
  rcases Outcome.bind_eq_ok.mp startsResponder with
    ⟨inHeader, makes, ⟨⟩⟩
  rcases fresh_header with ⟨gather, fresh, gathers⟩
  have sameGather : gather = inHeader :=
    Outcome.ok.inj (fresh.symm.trans makes)
  subst sameGather
  refine ⟨.start auth, ⟨?_, ?_, ?_, ?_, rfl⟩, .unsampled rfl,
    .waiting rfl rfl gathers, ?_, ?_, rfl, rfl⟩
  · exact Nat.le_refl 1
  · exact Nat.one_lt_two_pow (by decide)
  · rintro keys ⟨⟩
  · rintro first ⟨⟩
  · rintro packet ⟨⟩
  · rintro packet ⟨⟩

/-! ## What agreement says -/

/-- The side of the keys is at most one epoch behind. -/
theorem KeySide.epoch_near
    {braid : Braid}
    (side : KeySide exchange braid) :
    braid.epoch ≤ exchange.epoch ∧ exchange.epoch ≤ braid.epoch + 1 := by
  cases side with
  | late before =>
      constructor <;> simp only [epoch] <;> omega
  | unsampled | sampled | headerOut | firstIn | encapOutFirstIn =>
      exact ⟨Nat.le_refl _, Nat.le_succ _⟩

private theorem KeySide.positive
    {braid : Braid}
    (side : KeySide exchange braid)
    (started : 1 ≤ exchange.epoch) :
    1 ≤ braid.epoch := by
  cases side with
  | late _ positive => exact positive
  | unsampled | sampled | headerOut | firstIn | encapOutFirstIn =>
      exact started

/-- The epochs of the two sides differ by at most one. -/
theorem Agreement.epochs
    (agreement : Agreement exchange keySide talk)
    (side : Side) :
    (talk.state side).epoch ≤ (talk.state side.other).epoch + 1 := by
  rcases agreement.key.epoch_near with ⟨notAhead, near⟩
  have capsuleEpoch := agreement.capsule.epoch_eq
  rcases side.eq_or_eq_other keySide with rfl | rfl
  · omega
  · rw [Side.other_other]
    omega

/-- The secrets that both sides know so far. -/
def Exchange.emissions (exchange : Exchange) : List EpochSecret :=
  exchange.past ++ exchange.current

/-- Each side has emitted an initial part of one sequence. -/
theorem Agreement.emitted_prefix
    (agreement : Agreement exchange keySide talk)
    (side : Side) :
    talk.emitted side <+: exchange.emissions := by
  rcases side.eq_or_eq_other keySide with rfl | rfl
  · rw [agreement.keyEmitted]
    exact List.prefix_append _ _
  · rw [agreement.capsuleEmitted]
    exact List.prefix_refl _

omit [Kem] in
/-- The epochs of the sequence are consecutive from one. -/
theorem Exchange.Sound.emissions_epochs
    [Kem]
    (sound : exchange.Sound) :
    exchange.emissions.map EpochSecret.epoch <+:
      List.range' 1 exchange.epoch := by
  rw [emissions, List.map_append, sound.past, sound.epochs_split]
  refine (List.prefix_append_right_inj _).mpr ?_
  cases isFirst : exchange.first with
  | none =>
      rw [current, isFirst]
      exact List.nil_prefix
  | some first =>
      rw [current, isFirst]
      exact List.prefix_refl _

omit [Hashes] in
/-- Every epoch before has left its secret. -/
theorem Exchange.Sound.length_past (sound : exchange.Sound) :
    exchange.past.length = exchange.epoch - 1 := by
  have epochs := congrArg List.length sound.past
  rw [List.length_map, List.length_range'] at epochs
  exact epochs

/-- A braid's epoch follows those whose secrets its side has emitted. -/
theorem Agreement.epoch_known
    (agreement : Agreement exchange keySide talk)
    (side : Side) :
    1 ≤ (talk.state side).epoch ∧
      (talk.state side).epoch ≤ (talk.emitted side).length + 1 := by
  have positive := agreement.sound.positive
  have count := agreement.sound.length_past
  rcases side.eq_or_eq_other keySide with rfl | rfl
  · rw [agreement.keyEmitted, count]
    have near := agreement.key.epoch_near
    have started := agreement.key.positive positive
    omega
  · rw [agreement.capsule.epoch_eq, agreement.capsuleEmitted,
      List.length_append, count]
    omega

/-- No epoch outgrows 64 bits. -/
theorem Agreement.epoch_lt
    (agreement : Agreement exchange keySide talk)
    (side : Side) :
    (talk.state side).epoch < 2 ^ 64 := by
  have fits := agreement.sound.epochFits
  rcases side.eq_or_eq_other keySide with rfl | rfl
  · exact Nat.lt_of_le_of_lt agreement.key.epoch_near.1 fits
  · rw [agreement.capsule.epoch_eq]
    exact fits

/-- What a side has emitted, it has emitted for the epochs from one on. -/
theorem Agreement.emitted_epochs
    (agreement : Agreement exchange keySide talk)
    (side : Side) :
    (talk.emitted side).map EpochSecret.epoch =
      List.range' 1 (talk.emitted side).length := by
  have within :=
    ((agreement.emitted_prefix side).map EpochSecret.epoch).trans
      agreement.sound.emissions_epochs
  have taken := List.prefix_iff_eq_take.mp within
  have short := within.length_le
  rw [List.length_map, List.length_range'] at short
  rw [taken, List.length_map, List.take_range'_of_length_ge short]

/-- Neither do the secrets that came out. -/
theorem Agreement.length_emitted
    (agreement : Agreement exchange keySide talk)
    (side : Side) :
    (talk.emitted side).length < 2 ^ 64 := by
  have within :=
    ((agreement.emitted_prefix side).map EpochSecret.epoch).trans
      agreement.sound.emissions_epochs
  have short := within.length_le
  rw [List.length_map, List.length_range'] at short
  exact Nat.lt_of_le_of_lt short agreement.sound.epochFits

/-- Each side emits in increasing epoch order. -/
theorem Agreement.emitted_increasing
    (agreement : Agreement exchange keySide talk)
    (side : Side) :
    ((talk.emitted side).map EpochSecret.epoch).Pairwise (· < ·) := by
  have ordered : (List.range' 1 exchange.epoch).Pairwise (· < ·) :=
    List.pairwise_lt_range'
  have within :=
    ((agreement.emitted_prefix side).map EpochSecret.epoch).trans
      agreement.sound.emissions_epochs
  exact ordered.sublist within.sublist

/-- What two sides emitted for one epoch is the same. -/
theorem Agreement.emitted_agree
    (agreement : Agreement exchange keySide talk)
    {first second : Side}
    {one other : EpochSecret}
    (emitted : one ∈ talk.emitted first)
    (emitted' : other ∈ talk.emitted second)
    (sameEpoch : one.epoch = other.epoch) :
    one = other := by
  have ordered : (List.range' 1 exchange.epoch).Pairwise (· < ·) :=
    List.pairwise_lt_range'
  have distinct : (exchange.emissions.map EpochSecret.epoch).Nodup :=
    (ordered.sublist agreement.sound.emissions_epochs.sublist).imp
      Nat.ne_of_lt
  exact List.inj_on_of_nodup_map distinct
    ((agreement.emitted_prefix first).subset emitted)
    ((agreement.emitted_prefix second).subset emitted') sameEpoch

/-! ## Runs -/

/-- The braid as a party; a step that fails leaves the braid as it was. -/
def party :
    Party Braid Draw Packet (Option EpochSecret) (Option EpochSecret)
      RatchetError :=
  { send := fun braid draw => do
      let (after, sent) ← braid.send draw
      return (after, sent.packet, sent.secret)
    receive := receive }

/-- The secret that one call emitted. -/
def secretOf :
    Event Packet (Option EpochSecret) (Option EpochSecret) →
      Option EpochSecret
  | .sent _ secret => secret
  | .received _ secret => secret

/-- The packet that one call sent. -/
def packetOf :
    Event Packet (Option EpochSecret) (Option EpochSecret) → Option Packet
  | .sent packet _ => some packet
  | .received _ _ => none

/-- A run of two braids and what each side has sent and received. -/
abbrev Run :=
  Joint Braid Packet (Option EpochSecret) (Option EpochSecret)

/-- The secrets one side has emitted, in the order of its calls. -/
def emittedBy (run : Run) (side : Side) : List EpochSecret :=
  run.collect secretOf side

/-- What has been done in a run. -/
def talkOf (run : Run) : Talk :=
  ⟨run.state, run.collect packetOf, emittedBy run⟩

omit [Hashes] [Kem] in
/-- What a run says grows with each act. -/
theorem talkOf_act
    (run : Run)
    (side : Side)
    (braid : Braid)
    (event : Event Packet (Option EpochSecret) (Option EpochSecret)) :
    talkOf (run.act side braid event) =
      (talkOf run).act side braid (packetOf event).toList
        (secretOf event) := by
  have packets := Joint.collect_act packetOf run side braid event
  have emitted := Joint.collect_act secretOf run side braid event
  rw [talkOf, packets]
  unfold emittedBy
  rw [emitted]
  rfl

omit [Hashes] [Kem] in
/-- What a run has sent is among the packets of its talk. -/
theorem mem_packets_of_hasSent
    {run : Run}
    {side : Side}
    {packet : Packet}
    {secret : Option EpochSecret}
    (sent : run.HasSent side packet secret) :
    packet ∈ (talkOf run).packets side :=
  List.mem_filterMap.mpr ⟨_, sent, rfl⟩

/-- The two braids of a run are the two sides of some exchange. -/
def Agree (run : Run) : Prop :=
  ∃ exchange keySide, Agreement exchange keySide (talkOf run)

/-- The braids of a run that began together stay in agreement. -/
theorem agreement_of_reachable
    [LawfulKem]
    {authKey : Bytes}
    {initiator responder : Braid}
    (startsInitiator : startInitiator authKey = .ok initiator)
    (startsResponder : startResponder authKey = .ok responder)
    {run : Run}
    (reachable : Reachable party (startSides initiator responder) run) :
    Agree run := by
  refine reachable.invariant ?_ ?_
  · rcases Agreement.start startsInitiator startsResponder with
      ⟨exchange, agreement⟩
    exact ⟨exchange, .initiator, agreement⟩
  · rintro run next ⟨exchange, keySide, agreement⟩ step
    cases step with
    | send side draw sends =>
        rcases Outcome.bind_eq_ok.mp sends with ⟨result, sends', ⟨⟩⟩
        unfold Agree
        rw [talkOf_act]
        rcases agreement.send side draw with
          ⟨_, refused⟩ | ⟨after, sent, later, sends'', _, agreement'⟩
        · cases refused.symm.trans sends'
        · cases sends''.symm.trans sends'
          exact ⟨later, keySide, agreement'⟩
    | receive side offered receives =>
        unfold Agree
        rw [talkOf_act]
        rcases agreement.receive side (mem_packets_of_hasSent offered) with
          ⟨_, trapped⟩ |
            ⟨after, secret, later, laterSide, receives', agreement'⟩
        · cases trapped.symm.trans receives
        · cases receives'.symm.trans receives
          exact ⟨later, laterSide, agreement'⟩

/-- What is promised of a state of a run. -/
structure Safe (run : Run) : Prop where
  /-- A receive of a sent packet never fails and stops at the last epoch only. -/
  receives :
    ∀ side packet secret, run.HasSent side.other packet secret →
      (∀ fault, (run.state side).receive packet ≠ .error fault) ∧
        ((run.state side).receive packet = .trap →
          2 ^ 64 ≤ (run.state side).epoch + 1)
  epochs :
    ∀ side : Side,
      (run.state side).epoch ≤ (run.state side.other).epoch + 1
  increasing :
    ∀ side,
      ((emittedBy run side).map EpochSecret.epoch).Pairwise (· < ·)
  agree :
    ∀ one ∈ emittedBy run .initiator, ∀ other ∈ emittedBy run .responder,
      one.epoch = other.epoch → one.secret = other.secret

/-- A sent packet is received, up to the end of the epochs. -/
theorem receives_of_reachable
    [LawfulKem]
    {authKey : Bytes}
    {initiator responder : Braid}
    (startsInitiator : startInitiator authKey = .ok initiator)
    (startsResponder : startResponder authKey = .ok responder)
    {run : Run}
    (reachable : Reachable party (startSides initiator responder) run)
    {side : Side}
    {packet : Packet}
    {secret : Option EpochSecret}
    (sent : run.HasSent side.other packet secret) :
    (∀ fault, (run.state side).receive packet ≠ .error fault) ∧
      ((run.state side).receive packet = .trap →
        2 ^ 64 ≤ (run.state side).epoch + 1) := by
  obtain ⟨exchange, keySide, agreement⟩ :=
    agreement_of_reachable startsInitiator startsResponder reachable
  rcases agreement.receive side (mem_packets_of_hasSent sent) with
    ⟨exhausted, trapped⟩ | ⟨after, result, _, _, receives, _⟩
  · have trapped : (run.state side).receive packet = .trap := trapped
    rw [trapped]
    exact ⟨by simp, fun _ => exhausted⟩
  · have receives :
        (run.state side).receive packet = .ok (after, result) :=
      receives
    rw [receives]
    exact ⟨by simp, by simp⟩

/-- Every state of every run of two braids that began together is safe. -/
theorem safety_and_agreement
    [LawfulKem]
    {authKey : Bytes}
    {initiator responder : Braid}
    (startsInitiator : startInitiator authKey = .ok initiator)
    (startsResponder : startResponder authKey = .ok responder)
    {run : Run}
    (reachable : Reachable party (startSides initiator responder) run) :
    Safe run := by
  rcases agreement_of_reachable startsInitiator startsResponder
      reachable with
    ⟨exchange, keySide, agreement⟩
  refine ⟨fun side packet secret =>
    receives_of_reachable startsInitiator startsResponder reachable,
    agreement.epochs, agreement.emitted_increasing, ?_⟩
  intro one emitted other emitted' sameEpoch
  rw [agreement.emitted_agree emitted emitted' sameEpoch]

end Gossveil.Braid

namespace Gossveil.Braid

open ErasureCode TwoParty Sample

attribute [local instance] hashes kem

/-- The keys of the first epoch in the sample run. -/
def sampleAuth : Auth :=
  Auth.advanced ⟨Block.zero 32, Block.zero 32⟩ 1 (Block.fill 32 3).bytes

/-- The side that samples, at its start. -/
def sampleInitiator : Braid :=
  .unsampled 1 sampleAuth

/-- The side that waits, at its start. -/
def sampleResponder : Braid :=
  .waiting 1 sampleAuth ⟨headerMessage / 2, fun _ => [], false⟩

theorem starts_sampleInitiator :
    startInitiator (Block.fill 32 3).bytes = .ok sampleInitiator := by
  rfl

theorem starts_sampleResponder :
    startResponder (Block.fill 32 3).bytes = .ok sampleResponder := by
  rfl

/-- Packets to and fro, six each way. -/
def sampleTurns : List (Side × Draw) :=
  (List.replicate 6
    [(Side.initiator, ⟨Block.fill 64 5, Block.fill 32 6⟩),
      (Side.responder, ⟨Block.fill 64 7, Block.fill 32 8⟩)]).flatten

/-- The header has arrived and is answered with pieces of the capsule. -/
def answers (run : Run) : Bool :=
  match run.state .responder with
  | .firstOut .. => true
  | _ => false

set_option maxRecDepth 100000 in
private theorem sampleTurns_answered :
    (match
        (Joint.init (startSides sampleInitiator sampleResponder)).deliverAll
          party sampleTurns
      with
      | .ok run => answers run
      | _ => false) = true := by
  decide +kernel

/-- A run in which the header was carried, and pieces both ways after it. -/
theorem exists_answered :
    ∃ run,
      Reachable party (startSides sampleInitiator sampleResponder) run ∧
        answers run = true := by
  have answered := sampleTurns_answered
  cases delivered :
      (Joint.init (startSides sampleInitiator sampleResponder)).deliverAll
        party sampleTurns with
  | ok run =>
      rw [delivered] at answered
      exact ⟨run, Reachable.init.deliverAll delivered, answered⟩
  | error fault => rw [delivered] at answered; cases answered
  | trap => rw [delivered] at answered; cases answered

/-- Turns that carry a header and many pieces. -/
theorem safety_and_agreement_pieces :
    ∃ run,
      Reachable party (startSides sampleInitiator sampleResponder) run ∧
        answers run = true ∧ Safe run := by
  have lawful : LawfulKem := lawfulKem
  obtain ⟨run, reachable, answered⟩ := exists_answered
  exact ⟨run, reachable, answered,
    safety_and_agreement starts_sampleInitiator starts_sampleResponder
      reachable⟩

end Gossveil.Braid
