import Gossveil.BraidExchange

namespace Gossveil.Braid

open ErasureCode

/-!
# What a call does to an exchange

A send keeps the exchange, samples its key or encapsulates; a receive keeps it,
answers it, or ends it.  One lemma for each side and call says so, for every
state the exchange allows and every packet it can see.
-/

variable [Hashes] [Kem]

variable {exchange : Exchange}

/-! ## Rebuilt messages -/

omit [Hashes] [Kem] in
/-- The front of a message. -/
theorem part_append_left
    {size : Nat}
    (front : Block size)
    (back : Bytes) :
    part (front.bytes ++ back) 0 size = .ok front := by
  have taken : (front.bytes ++ back).take size = front.bytes :=
    List.take_left' front.length_bytes
  rw [part, List.drop_zero, taken, Block.ofBytes_bytes,
    Outcome.unwrap_some]

omit [Hashes] [Kem] in
/-- The back of a message. -/
theorem part_append_right
    {size count : Nat}
    (front : Block size)
    (back : Block count) :
    part (front.bytes ++ back.bytes) size count = .ok back := by
  have dropped : (front.bytes ++ back.bytes).drop size = back.bytes :=
    List.drop_left' front.length_bytes
  have taken : back.bytes.take count = back.bytes :=
    List.take_of_length_le (Nat.le_of_eq back.length_bytes)
  rw [part, dropped, taken, Block.ofBytes_bytes, Outcome.unwrap_some]

omit [Hashes] [Kem] in
theorem part_whole
    {size : Nat}
    (block : Block size) :
    part block.bytes 0 size = .ok block := by
  have read := part_append_left block []
  rw [List.append_nil] at read
  exact read

/-- The lengths of the messages suit the erasure code. -/
structure Codable (message : Bytes) : Prop where
  even : message.length % 2 = 0
  short : message.length ≤ 2 ^ 16 * polynomials

omit [Hashes] [Kem] in
/-- A message of even and bounded length can be spread. -/
theorem codable_of_length
    {message : Bytes}
    {length : Nat}
    (isLength : message.length = length)
    (even : length % 2 = 0)
    (short : length ≤ 2 ^ 16 * polynomials) :
    Codable message := by
  subst isLength
  exact ⟨even, short⟩

omit [Kem] in
/-- A header and its tag can be spread. -/
theorem headerText_codable (keys : Kem.Keys) :
    Codable (exchange.headerText keys) :=
  codable_of_length (Exchange.length_headerText ..) (by decide) (by decide)

/-- The second half and its tag can be spread. -/
theorem secondText_codable
    (keys : Kem.Keys)
    (first : Kem.First) :
    Codable (exchange.secondText keys first) :=
  codable_of_length (Exchange.length_secondText ..) (by decide)
    (by decide)

omit [Hashes] [Kem] in
/-- An encapsulation key can be spread. -/
theorem encap_codable (keys : Kem.Keys) : Codable keys.encap.bytes :=
  codable_of_length keys.encap.length_bytes (by decide) (by decide)

omit [Hashes] [Kem] in
/-- A first half can be spread. -/
theorem first_codable (first : Kem.First) : Codable first.capsule.bytes :=
  codable_of_length first.capsule.length_bytes (by decide) (by decide)

omit [Hashes] [Kem] in
/-- A fresh gather for a message. -/
theorem forLength_gathersAll
    {message : Bytes}
    {length : Nat}
    (isLength : message.length = length)
    (codable : Codable message) :
    ∃ gather, Gather.forLength length = .ok gather ∧
      GathersAll gather message := by
  subst isLength
  exact Gather.forLength_gathers codable.even (some message)

omit [Hashes] [Kem] in
/-- A fresh gather for a header that is not known yet. -/
theorem fresh_header :
    ∃ gather, Gather.forLength headerMessage = .ok gather ∧
      gather.Gathers headerMessage none :=
  Gather.forLength_gathers (by decide) none

omit [Hashes] [Kem] in
/-- A piece of the message either leaves the gather waiting or completes it. -/
theorem GathersAll.add
    {gather : Gather}
    {message : Bytes}
    (gathers : GathersAll gather message)
    (codable : Codable message)
    (index : Gf16) :
    GathersAll (gather.add (codeword message index)) message ∧
      ((gather.add (codeword message index)).message = .ok none ∨
        (gather.add (codeword message index)).message =
          .ok (some message)) := by
  have added := Gather.add_gathers gathers index
  exact ⟨added,
    Gather.message_of_gathers added codable.even codable.short⟩

/-! ## Packets of the exchange -/

omit [Hashes] [Kem] in
/-- A packet of a fixed exchange stays one as the payloads grow. -/
theorem PacketOf.imp
    {payload : Exchange → Payload → Prop}
    {later : Exchange}
    {packet : Packet}
    (sameEpoch : later.epoch = exchange.epoch)
    (grows : ∀ {value}, payload exchange value → payload later value)
    (of : PacketOf payload exchange packet) :
    PacketOf payload later packet := by
  rcases of with ⟨positive, older | ⟨same, isPayload⟩⟩
  · exact ⟨positive, Or.inl (by rw [sameEpoch]; exact older)⟩
  · exact ⟨positive,
      Or.inr ⟨by rw [sameEpoch]; exact same, grows isPayload⟩⟩

omit [Hashes] [Kem] in
/-- A packet of an exchange is an older one in the next. -/
theorem PacketOf.of_following
    {payload other : Exchange → Payload → Prop}
    {later : Exchange}
    {packet : Packet}
    (nextEpoch : later.epoch = exchange.epoch + 1)
    (of : PacketOf payload exchange packet) :
    PacketOf other later packet := by
  rcases of with ⟨positive, older | ⟨same, _⟩⟩
  · exact ⟨positive, Or.inl (by omega)⟩
  · exact ⟨positive, Or.inl (by omega)⟩

/-! ## Sending -/

omit [Hashes] [Kem] in
/-- The next piece of a carried message. -/
private theorem nextPiece_codeword
    {spread : Spread}
    {message : Bytes}
    (carries : spread.Carries message) :
    ∃ after index,
      spread.nextPiece = .ok (codeword message index, after) ∧
        after.Carries message := by
  rcases Spread.nextPiece_of_carries carries with
    ⟨after, made, afterCarries, _⟩
  exact ⟨after, _, made, afterCarries⟩

/-- What a send of the key side does to the exchange. -/
structure KeySent
    (exchange later : Exchange)
    (braid : Braid)
    (packet : Packet) :
    Prop where
  grown :
    later = exchange ∨
      ∃ keys seed,
        exchange.keys = none ∧
          Kem.generate seed = some keys ∧
          later = exchange.withKeys keys
  state : KeySide later braid
  isPacket : PacketOf KeyPayload later packet
  epoch : packet.epoch = braid.epoch

/-- A send of the key side returns a packet unless its key cannot be made. -/
theorem key_send
    (sound : exchange.Sound)
    {braid : Braid}
    (side : KeySide exchange braid)
    (draw : Draw) :
    (Kem.generate draw.seed = none ∧
        braid.send draw = .error .badData) ∨
      ∃ after packet later,
        braid.send draw = .ok (after, ⟨packet, none⟩) ∧
          KeySent exchange later after packet := by
  have positive := sound.positive
  cases side with
  | @late epoch outSecond message before oldPositive long noKeys carries =>
      rcases nextPiece_codeword carries with
        ⟨after, index, made, afterCarries⟩
      refine Or.inr ⟨_, ⟨epoch, .second (codeword message index)⟩,
        exchange, ?_, Or.inl rfl, .late before oldPositive long noKeys afterCarries,
        ⟨oldPositive, Or.inl ?_⟩, rfl⟩
      · rw [send, made]
        rfl
      · simp only
        omega
  | unsampled noKeys =>
      cases generated : Kem.generate draw.seed with
      | none =>
          refine Or.inl ⟨rfl, ?_⟩
          rw [send, generated]
          rfl
      | some keys =>
          rcases Spread.of_carries (headerText_codable keys).even
              (@headerText_codable _ exchange keys).short with
            ⟨outHeader, spreads, carries⟩
          rcases nextPiece_codeword carries with
            ⟨after, index, made, afterCarries⟩
          refine Or.inr ⟨_,
            ⟨exchange.epoch,
              .header (codeword (exchange.headerText keys) index)⟩,
            exchange.withKeys keys, ?_,
            Or.inr ⟨keys, draw.seed, noKeys, generated, rfl⟩,
            .sampled rfl afterCarries,
            ⟨positive, Or.inr ⟨rfl, .header rfl index⟩⟩, rfl⟩
          rw [send, generated]
          simp only [Outcome.ofOption_some, Outcome.ok_bind]
          rw [show keys.header.bytes ++
              (exchange.auth.tagHeader exchange.epoch keys.header).bytes =
              exchange.headerText keys from rfl, spreads,
            Outcome.ok_bind, made]
          rfl
  | @sampled keys outHeader isKeys carries =>
      rcases nextPiece_codeword carries with
        ⟨after, index, made, afterCarries⟩
      refine Or.inr ⟨_,
        ⟨exchange.epoch, .header (codeword (exchange.headerText keys) index)⟩,
        exchange, ?_, Or.inl rfl, .sampled isKeys afterCarries,
        ⟨positive, Or.inr ⟨rfl, .header isKeys index⟩⟩, rfl⟩
      rw [send, made]
      rfl
  | @headerOut keys first outEncap inFirst isKeys isFirst carries gathers =>
      rcases nextPiece_codeword carries with
        ⟨after, index, made, afterCarries⟩
      refine Or.inr ⟨_,
        ⟨exchange.epoch, .encap (codeword keys.encap.bytes index)⟩,
        exchange, ?_, Or.inl rfl, .headerOut isKeys isFirst afterCarries gathers,
        ⟨positive, Or.inr ⟨rfl, .encap isKeys index⟩⟩, rfl⟩
      rw [send, made]
      rfl
  | @firstIn keys first outEncap isKeys isFirst carries =>
      rcases nextPiece_codeword carries with
        ⟨after, index, made, afterCarries⟩
      refine Or.inr ⟨_,
        ⟨exchange.epoch, .encapAndAck (codeword keys.encap.bytes index)⟩,
        exchange, ?_, Or.inl rfl, .firstIn isKeys isFirst afterCarries,
        ⟨positive, Or.inr ⟨rfl, .encapAndAck isKeys index⟩⟩, rfl⟩
      rw [send, made]
      rfl
  | @encapOutFirstIn keys first inSecond isKeys isFirst answered gathers =>
      exact Or.inr ⟨_, ⟨exchange.epoch, .ack true⟩, exchange, rfl,
        Or.inl rfl, .encapOutFirstIn isKeys isFirst answered gathers,
        ⟨positive, Or.inr ⟨rfl, .ack⟩⟩, rfl⟩

/-- What a send of the capsule side does to the exchange. -/
structure CapsuleSent
    (exchange later : Exchange)
    (braid : Braid)
    (sent : Sent) :
    Prop where
  grown :
    (later = exchange ∧ sent.secret = none) ∨
      ∃ keys message,
        exchange.keys = some keys ∧
          exchange.first = none ∧
          later =
            exchange.withFirst (Kem.firstHalf keys.header message) ∧
          sent.secret =
            some (exchange.emission (Kem.firstHalf keys.header message))
  state : CapsuleSide later braid
  isPacket : PacketOf CapsulePayload later sent.packet
  epoch : sent.packet.epoch = braid.epoch

/-- A send of the capsule side always returns a packet. -/
theorem capsule_send
    (sound : exchange.Sound)
    {braid : Braid}
    (side : CapsuleSide exchange braid)
    (draw : Draw) :
    ∃ after sent later,
      braid.send draw = .ok (after, sent) ∧
        CapsuleSent exchange later after sent := by
  have positive := sound.positive
  cases side with
  | @waiting inHeader noFirst unanswered gathers =>
      exact ⟨_, _, exchange, rfl, Or.inl ⟨rfl, rfl⟩,
        .waiting noFirst unanswered gathers,
        ⟨positive, Or.inr ⟨rfl, .empty⟩⟩, rfl⟩
  | @headerIn keys inEncap isKeys noFirst unanswered gathers =>
      have codable := first_codable (Kem.firstHalf keys.header draw.message)
      rcases Spread.of_carries codable.even codable.short with
        ⟨outFirst, spreads, carries⟩
      rcases nextPiece_codeword carries with
        ⟨after, index, made, afterCarries⟩
      refine ⟨_,
        ⟨⟨exchange.epoch, .first (codeword
            (Kem.firstHalf keys.header draw.message).capsule.bytes index)⟩,
          some (exchange.emission
            (Kem.firstHalf keys.header draw.message))⟩,
        exchange.withFirst (Kem.firstHalf keys.header draw.message), ?_,
        Or.inr ⟨keys, draw.message, isKeys, noFirst, rfl, rfl⟩,
        .firstOut isKeys rfl unanswered afterCarries gathers,
        ⟨positive, Or.inr ⟨rfl, .first rfl index⟩⟩, rfl⟩
      simp only [send]
      rw [Auth.advance_block _ _ _ (by decide), Outcome.ok_bind, spreads,
        Outcome.ok_bind, made]
      rfl
  | @firstOut keys first outFirst inEncap isKeys isFirst unanswered carries
      gathers =>
      rcases nextPiece_codeword carries with
        ⟨after, index, made, afterCarries⟩
      refine ⟨_,
        ⟨⟨exchange.epoch, .first (codeword first.capsule.bytes index)⟩,
          none⟩,
        exchange, ?_, Or.inl ⟨rfl, rfl⟩,
        .firstOut isKeys isFirst unanswered afterCarries gathers,
        ⟨positive, Or.inr ⟨rfl, .first isFirst index⟩⟩, rfl⟩
      rw [send, made]
      rfl
  | @encapInFirstOut keys first outFirst isKeys isFirst unanswered
      carries =>
      rcases nextPiece_codeword carries with
        ⟨after, index, made, afterCarries⟩
      refine ⟨_,
        ⟨⟨exchange.epoch, .first (codeword first.capsule.bytes index)⟩,
          none⟩,
        exchange, ?_, Or.inl ⟨rfl, rfl⟩,
        .encapInFirstOut isKeys isFirst unanswered afterCarries,
        ⟨positive, Or.inr ⟨rfl, .first isFirst index⟩⟩, rfl⟩
      rw [send, made]
      rfl
  | @firstAcked keys first inEncap isKeys isFirst unanswered gathers =>
      exact ⟨_, _, exchange, rfl, Or.inl ⟨rfl, rfl⟩,
        .firstAcked isKeys isFirst unanswered gathers,
        ⟨positive, Or.inr ⟨rfl, .empty⟩⟩, rfl⟩
  | @secondOut keys first outSecond isKeys isFirst answered carries =>
      rcases nextPiece_codeword carries with
        ⟨after, index, made, afterCarries⟩
      refine ⟨_,
        ⟨⟨exchange.epoch,
            .second (codeword (exchange.secondText keys first) index)⟩,
          none⟩,
        exchange, ?_, Or.inl ⟨rfl, rfl⟩,
        .secondOut isKeys isFirst answered afterCarries,
        ⟨positive, Or.inr ⟨rfl, .second isKeys isFirst answered index⟩⟩,
        rfl⟩
      rw [send, made]
      rfl

/-! ## Receiving -/

/-- A packet of an earlier epoch changes nothing. -/
theorem receive_older
    {braid : Braid}
    {packet : Packet}
    (older : packet.epoch < braid.epoch) :
    braid.receive packet = .ok (braid, none) := by
  unfold receive
  rw [if_neg (Nat.lt_asymm older), if_pos older]

/-- A packet of the same epoch is its payload. -/
theorem receive_same
    {braid : Braid}
    {packet : Packet}
    (same : packet.epoch = braid.epoch) :
    braid.receive packet = braid.receiveCurrent packet.payload := by
  unfold receive
  rw [if_neg (Nat.not_lt.mpr (Nat.le_of_eq same)),
    if_neg (Nat.not_lt.mpr (Nat.le_of_eq same.symm))]

/-- The next exchange begins at the key side unless the epochs run out. -/
def beginNext
    (exchange : Exchange)
    (first : Kem.First)
    (inHeader : Gather) :
    Outcome RatchetError (Braid × Option EpochSecret) := do
  let next ← Outcome.add 64 exchange.epoch 1
  return (.waiting next (exchange.nextAuth first) inHeader,
    some (exchange.emission first))

/-- What a receive of the key side does: it stays, or it ends the exchange. -/
def KeyReceived
    (exchange : Exchange)
    (result : Outcome RatchetError (Braid × Option EpochSecret)) :
    Prop :=
  (∃ after, result = .ok (after, none) ∧ KeySide exchange after) ∨
    ∃ first inHeader,
      exchange.first = some first ∧
        exchange.answered = true ∧
        inHeader.Gathers headerMessage none ∧
        result = beginNext exchange first inHeader

/-- A packet that a key state has no use for. -/
private theorem KeyReceived.stay
    {braid : Braid}
    {result : Outcome RatchetError (Braid × Option EpochSecret)}
    (side : KeySide exchange braid)
    (stays : result = .ok (braid, none)) :
    KeyReceived exchange result :=
  Or.inl ⟨braid, stays, side⟩

omit [Hashes] in
/-- Opening both halves of a sound exchange gives the encapsulated secret. -/
private theorem open_exchange
    [LawfulKem]
    (sound : exchange.Sound)
    {keys : Kem.Keys}
    {first : Kem.First}
    (isKeys : exchange.keys = some keys)
    (isFirst : exchange.first = some first) :
    Kem.openHalves keys.decap first.capsule
        (Kem.secondHalf keys.encap first.carry) =
      some first.shared := by
  rcases sound.generated keys isKeys with ⟨seed, generated⟩
  rcases sound.encapsulated first isFirst with
    ⟨keys', message, isKeys', rfl⟩
  have sameKeys : keys' = keys :=
    Option.some.inj (isKeys'.symm.trans isKeys)
  subst sameKeys
  exact LawfulKem.open_halves message generated

/-- The last piece of the second message ends the exchange. -/
private theorem encapOutFirstIn_second
    [LawfulKem]
    (sound : exchange.Sound)
    {keys : Kem.Keys}
    {first : Kem.First}
    {inSecond : Gather}
    (isKeys : exchange.keys = some keys)
    (isFirst : exchange.first = some first)
    (answered : exchange.answered = true)
    (gathers : GathersAll inSecond (exchange.secondText keys first))
    (index : Gf16) :
    KeyReceived exchange
      (receiveCurrent
        (.encapOutFirstIn exchange.epoch exchange.auth keys.decap
          first.capsule inSecond)
        (.second (codeword (exchange.secondText keys first) index))) := by
  rcases gathers.add (secondText_codable keys first) index with
    ⟨after, incomplete | complete⟩
  · refine Or.inl ⟨_, ?_, .encapOutFirstIn isKeys isFirst answered after⟩
    simp only [receiveCurrent, incomplete, Outcome.ok_bind,
      Outcome.pure_eq]
  · rcases fresh_header with ⟨inHeader, fresh, freshGathers⟩
    refine Or.inr ⟨first, inHeader, isFirst, answered, freshGathers, ?_⟩
    have opened := open_exchange sound isKeys isFirst
    simp only [receiveCurrent, complete, Outcome.ok_bind]
    simp only [Exchange.secondText]
    rw [part_append_left, Outcome.ok_bind, part_append_right,
      Outcome.ok_bind, opened, Outcome.ofOption_some, Outcome.ok_bind,
      Auth.advance_block _ _ _ (by decide), Outcome.ok_bind]
    simp only [Exchange.nextAuth, Exchange.secretOf,
      Auth.checkCapsule_tagCapsule]
    rw [Outcome.require_of trivial, Outcome.ok_bind, fresh, Outcome.ok_bind]
    rfl

/-- A current packet of the capsule side arrives at the key side. -/
private theorem key_receiveCurrent
    [LawfulKem]
    (sound : exchange.Sound)
    {braid : Braid}
    (side : KeySide exchange braid)
    (same : braid.epoch = exchange.epoch)
    {payload : Payload}
    (isPayload : CapsulePayload exchange payload) :
    KeyReceived exchange (braid.receiveCurrent payload) := by
  cases isPayload with
  | empty =>
      refine .stay side ?_
      cases side <;> rfl
  | @first first isFirst index =>
      cases side with
      | late before => exact absurd same (by simp only [epoch]; omega)
      | unsampled | firstIn | encapOutFirstIn =>
          exact .stay (by constructor <;> assumption) rfl
      | @sampled keys outHeader isKeys carries =>
          rcases forLength_gathersAll first.capsule.length_bytes
              (first_codable first) with
            ⟨inFirst, fresh, gathers⟩
          rcases Spread.of_carries (encap_codable keys).even
              (encap_codable keys).short with
            ⟨outEncap, spreads, encapCarries⟩
          refine Or.inl ⟨_, ?_, .headerOut isKeys isFirst encapCarries
            (gathers.add (first_codable first) index).1⟩
          rw [receiveCurrent, fresh, Outcome.ok_bind, spreads]
          rfl
      | @headerOut keys first' outEncap inFirst isKeys isFirst' carries
          gathers =>
          have sameFirst : first' = first :=
            Option.some.inj (isFirst'.symm.trans isFirst)
          subst sameFirst
          rcases gathers.add (first_codable first') index with
            ⟨after, incomplete | complete⟩
          · refine Or.inl ⟨_, ?_,
              .headerOut isKeys isFirst carries after⟩
            simp only [receiveCurrent, incomplete, Outcome.ok_bind,
              Outcome.pure_eq]
          · refine Or.inl ⟨_, ?_, .firstIn isKeys isFirst carries⟩
            simp only [receiveCurrent, complete, Outcome.ok_bind]
            rw [part_whole]
            rfl
  | @second keys first isKeys isFirst answered index =>
      cases side with
      | late before => exact absurd same (by simp only [epoch]; omega)
      | unsampled | sampled | headerOut =>
          exact .stay (by constructor <;> assumption) rfl
      | @firstIn keys' first' outEncap isKeys' isFirst' carries =>
          have sameFirst : first' = first :=
            Option.some.inj (isFirst'.symm.trans isFirst)
          subst sameFirst
          rcases forLength_gathersAll
              (Exchange.length_secondText exchange keys first')
              (secondText_codable keys first') with
            ⟨inSecond, fresh, gathers⟩
          have sameKeys : keys' = keys :=
            Option.some.inj (isKeys'.symm.trans isKeys)
          subst sameKeys
          refine Or.inl ⟨_, ?_, .encapOutFirstIn isKeys isFirst answered
            (gathers.add (secondText_codable keys' first') index).1⟩
          rw [receiveCurrent, fresh]
          rfl
      | @encapOutFirstIn keys' first' inSecond isKeys' isFirst' _
          gathers =>
          have sameFirst : first' = first :=
            Option.some.inj (isFirst'.symm.trans isFirst)
          have sameKeys : keys' = keys :=
            Option.some.inj (isKeys'.symm.trans isKeys)
          subst sameFirst sameKeys
          exact encapOutFirstIn_second sound isKeys isFirst answered
            gathers index

/-- A packet of the capsule side arrives at the key side. -/
theorem key_receive
    [LawfulKem]
    (sound : exchange.Sound)
    {braid : Braid}
    (side : KeySide exchange braid)
    {packet : Packet}
    (of : PacketOf CapsulePayload exchange packet) :
    KeyReceived exchange (braid.receive packet) := by
  rcases of with ⟨positive, older | ⟨same, isPayload⟩⟩
  · cases side with
    | @late epoch outSecond message before oldPositive long noKeys carries =>
        have side : KeySide exchange
            (.secondOut epoch exchange.auth outSecond) :=
          .late before oldPositive long noKeys carries
        refine .stay side ?_
        rcases Nat.lt_or_ge packet.epoch epoch with earlier | atLeast
        · exact receive_older earlier
        · rw [receive_same (by simp only [Braid.epoch]; omega)]
          rfl
    | unsampled | sampled | headerOut | firstIn | encapOutFirstIn =>
        exact .stay (by constructor <;> assumption) (receive_older older)
  · cases side with
    | @late epoch outSecond message before oldPositive long noKeys carries =>
        refine Or.inl ⟨_, ?_, .unsampled noKeys⟩
        rw [receive, if_pos (by simp only [Braid.epoch]; omega),
          if_pos (by omega), before]
    | unsampled | sampled | headerOut | firstIn | encapOutFirstIn =>
        rw [receive_same same]
        exact key_receiveCurrent sound (by constructor <;> assumption) rfl
          isPayload

/-- What a receive of the capsule side does: it stays, or it answers. -/
def CapsuleReceived
    (exchange : Exchange)
    (result : Outcome RatchetError (Braid × Option EpochSecret)) :
    Prop :=
  ∃ after later,
    result = .ok (after, none) ∧
      CapsuleSide later after ∧
      (later = exchange ∨
        (exchange.keys ≠ none ∧ exchange.first ≠ none ∧
          later = exchange.withAnswer))

/-- A packet that a capsule state has no use for. -/
private theorem CapsuleReceived.stay
    {braid : Braid}
    {result : Outcome RatchetError (Braid × Option EpochSecret)}
    (side : CapsuleSide exchange braid)
    (stays : result = .ok (braid, none)) :
    CapsuleReceived exchange result :=
  ⟨braid, exchange, stays, side, Or.inl rfl⟩

/-- With the whole key and an acknowledgement the second half goes out. -/
private theorem CapsuleReceived.answer
    {keys : Kem.Keys}
    {first : Kem.First}
    (isKeys : exchange.keys = some keys)
    (isFirst : exchange.first = some first) :
    CapsuleReceived exchange (do
      let outSecond ←
        secondSpread (exchange.nextAuth first) exchange.epoch keys.encap
          first.carry first.capsule
      return (.secondOut exchange.epoch (exchange.nextAuth first) outSecond,
        none)) := by
  have codable := @secondText_codable _ _ exchange keys first
  rcases Spread.of_carries codable.even codable.short with
    ⟨outSecond, spreads, carries⟩
  have spreadsSecond :
      secondSpread (exchange.nextAuth first) exchange.epoch keys.encap
          first.carry first.capsule =
        .ok outSecond :=
    spreads
  refine ⟨.secondOut exchange.epoch (exchange.nextAuth first) outSecond,
    exchange.withAnswer, ?_, ?_, Or.inr ⟨?_, ?_, rfl⟩⟩
  · rw [spreadsSecond]
    rfl
  · exact .secondOut isKeys isFirst rfl carries
  · simp [isKeys]
  · simp [isFirst]

omit [Hashes] in
/-- The rebuilt encapsulation key passes its check. -/
private theorem key_matches
    [LawfulKem]
    (sound : exchange.Sound)
    {keys : Kem.Keys}
    (isKeys : exchange.keys = some keys) :
    Kem.keyMatchesHeader keys.encap keys.header = true := by
  rcases sound.generated keys isKeys with ⟨seed, generated⟩
  exact LawfulKem.key_matches generated

/-- A piece of the encapsulation key after the first half is acknowledged. -/
private theorem firstAcked_encap
    [LawfulKem]
    (sound : exchange.Sound)
    {keys : Kem.Keys}
    {first : Kem.First}
    {inEncap : Gather}
    (isKeys : exchange.keys = some keys)
    (isFirst : exchange.first = some first)
    (unanswered : exchange.answered = false)
    (gathers : GathersAll inEncap keys.encap.bytes)
    (index : Gf16) :
    CapsuleReceived exchange
      (receiveCurrent
        (.firstAcked exchange.epoch (exchange.nextAuth first) keys.header
          first.carry first.capsule inEncap)
        (.encap (codeword keys.encap.bytes index))) := by
  rcases gathers.add (encap_codable keys) index with
    ⟨after, incomplete | complete⟩
  · refine ⟨_, exchange, ?_,
      .firstAcked isKeys isFirst unanswered after, Or.inl rfl⟩
    simp only [receiveCurrent, incomplete, Outcome.ok_bind,
      Outcome.pure_eq]
  · simp only [receiveCurrent, complete, Outcome.ok_bind]
    rw [part_whole, Outcome.ok_bind,
      Outcome.require_of (key_matches sound isKeys)]
    exact .answer isKeys isFirst

/-- A piece of the header while the capsule side waits for it. -/
private theorem capsule_waiting_header
    {keys : Kem.Keys}
    {inHeader : Gather}
    (isKeys : exchange.keys = some keys)
    (noFirst : exchange.first = none)
    (unanswered : exchange.answered = false)
    (gathers :
      inHeader.Gathers headerMessage
        (exchange.keys.map exchange.headerText))
    (index : Gf16) :
    CapsuleReceived exchange
      (receiveCurrent (.waiting exchange.epoch exchange.auth inHeader)
        (.header (codeword (exchange.headerText keys) index))) := by
  rw [isKeys] at gathers
  have gathersAll : GathersAll inHeader (exchange.headerText keys) := by
    rw [GathersAll, Exchange.length_headerText]
    exact gathers
  rcases gathersAll.add (headerText_codable keys) index with
    ⟨after, incomplete | complete⟩
  · have still :
        (inHeader.add (codeword (exchange.headerText keys) index)).Gathers
          headerMessage (exchange.keys.map exchange.headerText) := by
      rw [GathersAll, Exchange.length_headerText] at after
      rw [isKeys]
      exact after
    refine ⟨_, exchange, ?_, .waiting noFirst unanswered still, Or.inl rfl⟩
    simp only [receiveCurrent, incomplete, Outcome.ok_bind, Outcome.pure_eq]
  · rcases forLength_gathersAll keys.encap.length_bytes
        (encap_codable keys) with
      ⟨inEncap, fresh, freshGathers⟩
    refine ⟨_, exchange, ?_,
      .headerIn isKeys noFirst unanswered freshGathers, Or.inl rfl⟩
    simp only [receiveCurrent, complete, Outcome.ok_bind]
    simp only [Exchange.headerText]
    rw [part_append_left, Outcome.ok_bind, part_append_right,
      Outcome.ok_bind]
    simp only [Auth.checkHeader_tagHeader]
    rw [Outcome.require_of trivial, Outcome.ok_bind, fresh]
    rfl

/-- A piece of the encapsulation key while the first half goes out. -/
private theorem capsule_firstOut_encap
    [LawfulKem]
    (sound : exchange.Sound)
    {keys : Kem.Keys}
    {first : Kem.First}
    {outFirst : Spread}
    {inEncap : Gather}
    (isKeys : exchange.keys = some keys)
    (isFirst : exchange.first = some first)
    (unanswered : exchange.answered = false)
    (carries : outFirst.Carries first.capsule.bytes)
    (gathers : GathersAll inEncap keys.encap.bytes)
    (index : Gf16) :
    CapsuleReceived exchange
      (receiveCurrent
        (.firstOut exchange.epoch (exchange.nextAuth first) keys.header
          first.carry first.capsule outFirst inEncap)
        (.encap (codeword keys.encap.bytes index))) := by
  rcases gathers.add (encap_codable keys) index with
    ⟨after, incomplete | complete⟩
  · refine ⟨_, exchange, ?_,
      .firstOut isKeys isFirst unanswered carries after, Or.inl rfl⟩
    simp only [receiveCurrent, incomplete, Outcome.ok_bind,
      Outcome.pure_eq]
  · refine ⟨_, exchange, ?_,
      .encapInFirstOut isKeys isFirst unanswered carries, Or.inl rfl⟩
    simp only [receiveCurrent, complete, Outcome.ok_bind]
    rw [part_whole, Outcome.ok_bind,
      Outcome.require_of (key_matches sound isKeys)]
    rfl

/-- A current packet of the key side arrives at the capsule side. -/
private theorem capsule_receiveCurrent
    [LawfulKem]
    (sound : exchange.Sound)
    {braid : Braid}
    (side : CapsuleSide exchange braid)
    {payload : Payload}
    (isPayload : KeyPayload exchange payload) :
    CapsuleReceived exchange (braid.receiveCurrent payload) := by
  cases isPayload with
  | @header keys isKeys index =>
      cases side with
      | @waiting inHeader noFirst unanswered gathers =>
          exact capsule_waiting_header isKeys noFirst unanswered gathers index
      | headerIn | firstOut | encapInFirstOut | firstAcked | secondOut =>
          exact .stay (by constructor <;> assumption) rfl
  | @encap keys isKeys index =>
      cases side with
      | @firstOut keys' first outFirst inEncap isKeys' isFirst unanswered
          carries gathers =>
          have sameKeys : keys' = keys :=
            Option.some.inj (isKeys'.symm.trans isKeys)
          subst sameKeys
          exact capsule_firstOut_encap sound isKeys isFirst unanswered carries
            gathers index
      | @firstAcked keys' first inEncap isKeys' isFirst unanswered
          gathers =>
          have sameKeys : keys' = keys :=
            Option.some.inj (isKeys'.symm.trans isKeys)
          subst sameKeys
          exact firstAcked_encap sound isKeys isFirst unanswered gathers
            index
      | waiting | headerIn | encapInFirstOut | secondOut =>
          exact .stay (by constructor <;> assumption) rfl
  | @encapAndAck keys isKeys index =>
      cases side with
      | @firstOut keys' first outFirst inEncap isKeys' isFirst unanswered
          carries gathers =>
          have sameKeys : keys' = keys :=
            Option.some.inj (isKeys'.symm.trans isKeys)
          subst sameKeys
          exact firstAcked_encap sound isKeys isFirst unanswered gathers
            index
      | @encapInFirstOut keys' first outFirst isKeys' isFirst unanswered
          carries =>
          exact .answer isKeys' isFirst
      | @firstAcked keys' first inEncap isKeys' isFirst unanswered
          gathers =>
          have sameKeys : keys' = keys :=
            Option.some.inj (isKeys'.symm.trans isKeys)
          subst sameKeys
          exact firstAcked_encap sound isKeys isFirst unanswered gathers
            index
      | waiting | headerIn | secondOut =>
          exact .stay (by constructor <;> assumption) rfl
  | ack =>
      cases side with
      | @encapInFirstOut keys first outFirst isKeys isFirst unanswered
          carries =>
          exact .answer isKeys isFirst
      | waiting | headerIn | firstOut | firstAcked | secondOut =>
          exact .stay (by constructor <;> assumption) rfl

/-- The side of the capsule works on the epoch of the exchange. -/
theorem CapsuleSide.epoch_eq
    {braid : Braid}
    (side : CapsuleSide exchange braid) :
    braid.epoch = exchange.epoch := by
  cases side <;> rfl

/-- A packet of the key side arrives at the capsule side. -/
theorem capsule_receive
    [LawfulKem]
    (sound : exchange.Sound)
    {braid : Braid}
    (side : CapsuleSide exchange braid)
    {packet : Packet}
    (of : PacketOf KeyPayload exchange packet) :
    CapsuleReceived exchange (braid.receive packet) := by
  rcases of with ⟨positive, older | ⟨same, isPayload⟩⟩
  · exact .stay side (receive_older (by rw [side.epoch_eq]; exact older))
  · rw [receive_same (by rw [side.epoch_eq]; exact same)]
    exact capsule_receiveCurrent sound side isPayload

end Gossveil.Braid
