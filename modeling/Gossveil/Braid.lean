import Gossveil.KemAuth
import Gossveil.Packet

namespace Gossveil

open ErasureCode

/-!
# The braid

Eleven states carry a header, an encapsulation key and two capsule halves
across the pieces of ordinary messages, one epoch at a time; the two sides swap
roles every epoch.  What a step draws from the entropy source is an argument.
-/

/-- The secret that opens the key epoch after it. -/
structure EpochSecret where
  epoch : Nat
  secret : Block 32
  deriving DecidableEq

/-- The state of one side: what it has, what it sends and what it waits for. -/
inductive Braid where
  -- The side that samples keys and sends the header and the encapsulation key.
  | unsampled (epoch : Nat) (auth : Auth)
  | sampled
      (epoch : Nat)
      (auth : Auth)
      (encap : Block Kem.encapLength)
      (decap : Block Kem.decapLength)
      (outHeader : Spread)
  | headerOut
      (epoch : Nat)
      (auth : Auth)
      (decap : Block Kem.decapLength)
      (outEncap : Spread)
      (inFirst : Gather)
  | firstIn
      (epoch : Nat)
      (auth : Auth)
      (decap : Block Kem.decapLength)
      (first : Block Kem.firstLength)
      (outEncap : Spread)
  | encapOutFirstIn
      (epoch : Nat)
      (auth : Auth)
      (decap : Block Kem.decapLength)
      (first : Block Kem.firstLength)
      (inSecond : Gather)
  -- The side that encapsulates and sends the two capsule halves.
  | waiting (epoch : Nat) (auth : Auth) (inHeader : Gather)
  | headerIn
      (epoch : Nat)
      (auth : Auth)
      (header : Block Kem.headerLength)
      (inEncap : Gather)
  | firstOut
      (epoch : Nat)
      (auth : Auth)
      (header : Block Kem.headerLength)
      (carry : Block Kem.carryLength)
      (first : Block Kem.firstLength)
      (outFirst : Spread)
      (inEncap : Gather)
  | encapInFirstOut
      (epoch : Nat)
      (auth : Auth)
      (carry : Block Kem.carryLength)
      (encap : Block Kem.encapLength)
      (first : Block Kem.firstLength)
      (outFirst : Spread)
  | firstAcked
      (epoch : Nat)
      (auth : Auth)
      (header : Block Kem.headerLength)
      (carry : Block Kem.carryLength)
      (first : Block Kem.firstLength)
      (inEncap : Gather)
  | secondOut (epoch : Nat) (auth : Auth) (outSecond : Spread)
  deriving DecidableEq

namespace Braid

/-- The bytes spread for a header: the header and its tag. -/
def headerMessage : Nat := Kem.headerLength + Auth.tagLength

/--
The bytes spread for the second half: the half and the tag over the capsule.
-/
def secondMessage : Nat := Kem.secondLength + Auth.tagLength

/-- The epoch a side works on. -/
def epoch : Braid → Nat
  | .unsampled epoch _
  | .sampled epoch _ _ _ _
  | .headerOut epoch _ _ _ _
  | .firstIn epoch _ _ _ _
  | .encapOutFirstIn epoch _ _ _ _
  | .waiting epoch _ _
  | .headerIn epoch _ _ _
  | .firstOut epoch _ _ _ _ _ _
  | .encapInFirstOut epoch _ _ _ _ _
  | .firstAcked epoch _ _ _ _ _
  | .secondOut epoch _ _ => epoch

/-- What one step may draw: a key seed and an encapsulated message. -/
structure Draw where
  seed : Block Kem.seedLength
  message : Block 32

/-- What a send returns besides the next state. -/
structure Sent where
  packet : Packet
  secret : Option EpochSecret
  deriving DecidableEq

/-- `whole[offset..][0..count]` of a rebuilt message. -/
def part
    (whole : Bytes)
    (offset count : Nat) :
    Outcome RatchetError (Block count) :=
  Outcome.unwrap (Block.ofBytes count ((whole.drop offset).take count))

section Steps

variable [Hashes]

/-- The secret of an epoch, from the shared secret of its exchange. -/
def epochSecret (shared : Block 32) (epoch : Nat) : Block 32 :=
  Hashes.hkdfExpand 32
    (ascii "Signal_PQCKA_V1_MLKEM768:SCKA Key" ++ bigEndian 8 epoch)
    (Hashes.hkdfExtract (Block.zero 32).bytes shared.bytes)

/-- The side that samples first. -/
def startInitiator (authKey : Bytes) : Outcome RatchetError Braid := do
  let auth ← Auth.init authKey 1
  return .unsampled 1 auth

/-- The side that waits for a header first. -/
def startResponder (authKey : Bytes) : Outcome RatchetError Braid := do
  let auth ← Auth.init authKey 1
  let inHeader ← Gather.forLength headerMessage
  return .waiting 1 auth inHeader

variable [Kem]

/-- Produces the next packet and moves the braid forward. -/
def send
    (braid : Braid)
    (draw : Draw) :
    Outcome RatchetError (Braid × Sent) :=
  match braid with
  | .unsampled epoch auth => do
      let keys ← Outcome.ofOption .badData (Kem.generate draw.seed)
      let tag := auth.tagHeader epoch keys.header
      let outHeader ← Spread.of (keys.header.bytes ++ tag.bytes)
      let (piece, outHeader) ← outHeader.nextPiece
      return (.sampled epoch auth keys.encap keys.decap outHeader,
        ⟨⟨epoch, .header piece⟩, none⟩)
  | .sampled epoch auth encap decap outHeader => do
      let (piece, outHeader) ← outHeader.nextPiece
      return (.sampled epoch auth encap decap outHeader,
        ⟨⟨epoch, .header piece⟩, none⟩)
  | .headerOut epoch auth decap outEncap inFirst => do
      let (piece, outEncap) ← outEncap.nextPiece
      return (.headerOut epoch auth decap outEncap inFirst,
        ⟨⟨epoch, .encap piece⟩, none⟩)
  | .firstIn epoch auth decap first outEncap => do
      let (piece, outEncap) ← outEncap.nextPiece
      return (.firstIn epoch auth decap first outEncap,
        ⟨⟨epoch, .encapAndAck piece⟩, none⟩)
  | .encapOutFirstIn epoch auth decap first inSecond =>
      .ok (.encapOutFirstIn epoch auth decap first inSecond,
        ⟨⟨epoch, .ack true⟩, none⟩)
  | .waiting epoch auth inHeader =>
      .ok (.waiting epoch auth inHeader, ⟨⟨epoch, .empty⟩, none⟩)
  | .headerIn epoch auth header inEncap => do
      let first := Kem.firstHalf header draw.message
      let secret := epochSecret first.shared epoch
      let auth ← auth.advance epoch secret.bytes
      let outFirst ← Spread.of first.capsule.bytes
      let (piece, outFirst) ← outFirst.nextPiece
      return (.firstOut epoch auth header first.carry first.capsule outFirst
          inEncap,
        ⟨⟨epoch, .first piece⟩, some ⟨epoch, secret⟩⟩)
  | .firstOut epoch auth header carry first outFirst inEncap => do
      let (piece, outFirst) ← outFirst.nextPiece
      return (.firstOut epoch auth header carry first outFirst inEncap,
        ⟨⟨epoch, .first piece⟩, none⟩)
  | .encapInFirstOut epoch auth carry encap first outFirst => do
      let (piece, outFirst) ← outFirst.nextPiece
      return (.encapInFirstOut epoch auth carry encap first outFirst,
        ⟨⟨epoch, .first piece⟩, none⟩)
  | .firstAcked epoch auth header carry first inEncap =>
      .ok (.firstAcked epoch auth header carry first inEncap,
        ⟨⟨epoch, .empty⟩, none⟩)
  | .secondOut epoch auth outSecond => do
      let (piece, outSecond) ← outSecond.nextPiece
      return (.secondOut epoch auth outSecond,
        ⟨⟨epoch, .second piece⟩, none⟩)

/-- The second half and its tag, ready to be sent in pieces. -/
def secondSpread
    (auth : Auth)
    (epoch : Nat)
    (encap : Block Kem.encapLength)
    (carry : Block Kem.carryLength)
    (first : Block Kem.firstLength) :
    Outcome RatchetError Spread :=
  let second := Kem.secondHalf encap carry
  let tag := auth.tagCapsule epoch (first.bytes ++ second.bytes)
  Spread.of (second.bytes ++ tag.bytes)

/-- Feeds a packet of the braid's own epoch to its state. -/
def receiveCurrent
    (braid : Braid)
    (payload : Payload) :
    Outcome RatchetError (Braid × Option EpochSecret) :=
  match braid, payload with
  | .sampled epoch auth encap decap _, .first piece => do
      let inFirst ← Gather.forLength Kem.firstLength
      let outEncap ← Spread.of encap.bytes
      return (.headerOut epoch auth decap outEncap (inFirst.add piece), none)
  | .headerOut epoch auth decap outEncap inFirst, .first piece => do
      let inFirst := inFirst.add piece
      match ← inFirst.message with
      | none => return (.headerOut epoch auth decap outEncap inFirst, none)
      | some whole => do
          let first ← part whole 0 Kem.firstLength
          return (.firstIn epoch auth decap first outEncap, none)
  | .firstIn epoch auth decap first _, .second piece => do
      let inSecond ← Gather.forLength secondMessage
      return (.encapOutFirstIn epoch auth decap first (inSecond.add piece),
        none)
  | .encapOutFirstIn epoch auth decap first inSecond, .second piece => do
      let inSecond := inSecond.add piece
      match ← inSecond.message with
      | none =>
          return (.encapOutFirstIn epoch auth decap first inSecond, none)
      | some whole => do
          let second ← part whole 0 Kem.secondLength
          let tag ← part whole Kem.secondLength Auth.tagLength
          let shared ←
            Outcome.ofOption .badData (Kem.openHalves decap first second)
          let secret := epochSecret shared epoch
          let auth ← auth.advance epoch secret.bytes
          Outcome.require .badTag
            (auth.checkCapsule epoch (first.bytes ++ second.bytes) tag = true)
          let inHeader ← Gather.forLength headerMessage
          let next ← Outcome.add 64 epoch 1
          return (.waiting next auth inHeader, some ⟨epoch, secret⟩)
  | .waiting epoch auth inHeader, .header piece => do
      let inHeader := inHeader.add piece
      match ← inHeader.message with
      | none => return (.waiting epoch auth inHeader, none)
      | some whole => do
          let header ← part whole 0 Kem.headerLength
          let tag ← part whole Kem.headerLength Auth.tagLength
          Outcome.require .badTag (auth.checkHeader epoch header tag = true)
          let inEncap ← Gather.forLength Kem.encapLength
          return (.headerIn epoch auth header inEncap, none)
  | .firstOut epoch auth header carry first outFirst inEncap,
      .encap piece => do
      let inEncap := inEncap.add piece
      match ← inEncap.message with
      | none =>
          return (.firstOut epoch auth header carry first outFirst inEncap,
            none)
      | some whole => do
          let encap ← part whole 0 Kem.encapLength
          Outcome.require .badData (Kem.keyMatchesHeader encap header = true)
          return (.encapInFirstOut epoch auth carry encap first outFirst, none)
  | .firstOut epoch auth header carry first _ inEncap,
      .encapAndAck piece => do
      let inEncap := inEncap.add piece
      match ← inEncap.message with
      | none =>
          return (.firstAcked epoch auth header carry first inEncap, none)
      | some whole => do
          let encap ← part whole 0 Kem.encapLength
          Outcome.require .badData (Kem.keyMatchesHeader encap header = true)
          let outSecond ← secondSpread auth epoch encap carry first
          return (.secondOut epoch auth outSecond, none)
  | .encapInFirstOut epoch auth carry encap first outFirst, .ack value => do
      if value then
        let outSecond ← secondSpread auth epoch encap carry first
        return (.secondOut epoch auth outSecond, none)
      else
        return (.encapInFirstOut epoch auth carry encap first outFirst, none)
  | .encapInFirstOut epoch auth carry encap first _, .encapAndAck _ => do
      let outSecond ← secondSpread auth epoch encap carry first
      return (.secondOut epoch auth outSecond, none)
  | .firstAcked epoch auth header carry first inEncap, .encap piece
  | .firstAcked epoch auth header carry first inEncap, .encapAndAck piece => do
      let inEncap := inEncap.add piece
      match ← inEncap.message with
      | none =>
          return (.firstAcked epoch auth header carry first inEncap, none)
      | some whole => do
          let encap ← part whole 0 Kem.encapLength
          Outcome.require .badData (Kem.keyMatchesHeader encap header = true)
          let outSecond ← secondSpread auth epoch encap carry first
          return (.secondOut epoch auth outSecond, none)
  | braid, _ => .ok (braid, none)

/-- Feeds one packet in; the secret, when present, opens the next epoch. -/
def receive
    (braid : Braid)
    (packet : Packet) :
    Outcome RatchetError (Braid × Option EpochSecret) :=
  if braid.epoch < packet.epoch then
    match braid with
    | .secondOut epoch auth _ =>
        if packet.epoch = epoch + 1 then
          .ok (.unsampled (epoch + 1) auth, none)
        else
          .error .epochOutOfRange
    | _ => .error .epochOutOfRange
  else if packet.epoch < braid.epoch then
    .ok (braid, none)
  else
    braid.receiveCurrent packet.payload

/-! ## What every call does to the epoch -/

/-- A send stays in its epoch and names it, with its secret if it has one. -/
theorem send_epoch
    {braid after : Braid}
    {draw : Draw}
    {sent : Sent}
    (sends : braid.send draw = .ok (after, sent)) :
    after.epoch = braid.epoch ∧
      sent.packet.epoch = braid.epoch ∧
      Packet.Sendable sent.packet.payload ∧
      ∀ secret, sent.secret = some secret → secret.epoch = braid.epoch := by
  cases braid with
  | encapOutFirstIn | waiting | firstAcked =>
      cases sends
      exact ⟨rfl, rfl, by simp [Packet.Sendable], by simp⟩
  | sampled | headerOut | firstIn | firstOut | encapInFirstOut
  | secondOut =>
      rcases Outcome.bind_eq_ok.mp sends with ⟨⟨piece, spread⟩, _, ⟨⟩⟩
      exact ⟨rfl, rfl, by simp [Packet.Sendable], by simp⟩
  | unsampled =>
      rcases Outcome.bind_eq_ok.mp sends with ⟨keys, _, rest⟩
      rcases Outcome.bind_eq_ok.mp rest with ⟨spread, _, rest⟩
      rcases Outcome.bind_eq_ok.mp rest with ⟨⟨piece, spread⟩, _, ⟨⟩⟩
      exact ⟨rfl, rfl, by simp [Packet.Sendable], by simp⟩
  | headerIn =>
      rcases Outcome.bind_eq_ok.mp sends with ⟨auth, _, rest⟩
      rcases Outcome.bind_eq_ok.mp rest with ⟨spread, _, rest⟩
      rcases Outcome.bind_eq_ok.mp rest with ⟨⟨piece, spread⟩, _, ⟨⟩⟩
      refine ⟨rfl, rfl, by simp [Packet.Sendable], ?_⟩
      rintro secret ⟨⟩
      rfl

/-- A receive stays in its epoch, or hands out its secret and goes on. -/
def EpochMoved
    (braid : Braid)
    (result : Braid × Option EpochSecret) :
    Prop :=
  (result.1.epoch = braid.epoch ∧ result.2 = none) ∨
    ∃ secret, result.2 = some secret ∧
      secret.epoch = braid.epoch ∧
      result.1.epoch = braid.epoch + 1

/-- A payload moves the epoch by one at most. -/
theorem receiveCurrent_epoch
    (braid : Braid)
    (payload : Payload) :
    Outcome.Returns braid.EpochMoved (braid.receiveCurrent payload) := by
  unfold receiveCurrent
  split
  case h_1 | h_3 =>
    repeat refine .bind fun _ _ => ?_
    exact .ok (Or.inl ⟨rfl, rfl⟩)
  case h_4 =>
    refine .bind fun whole _ => ?_
    cases whole with
    | none => exact .ok (Or.inl ⟨rfl, rfl⟩)
    | some whole =>
        iterate 6 refine .bind fun _ _ => ?_
        refine .bind fun next isNext => .ok (Or.inr ⟨_, rfl, rfl, ?_⟩)
        exact (Outcome.add_eq_ok.mp isNext).2.symm
  case h_2 | h_5 | h_6 | h_7 | h_10 | h_11 =>
    refine .bind fun whole _ => ?_
    cases whole with
    | none => exact .ok (Or.inl ⟨rfl, rfl⟩)
    | some whole =>
        repeat refine .bind fun _ _ => ?_
        exact .ok (Or.inl ⟨rfl, rfl⟩)
  case h_8 =>
    split_ifs
    · exact .bind fun _ _ => .ok (Or.inl ⟨rfl, rfl⟩)
    · exact .ok (Or.inl ⟨rfl, rfl⟩)
  case h_9 => exact .bind fun _ _ => .ok (Or.inl ⟨rfl, rfl⟩)
  case h_12 => exact .ok (Or.inl ⟨rfl, rfl⟩)

/-- A receive never goes back to an earlier epoch. -/
theorem receive_epoch
    (braid : Braid)
    (packet : Packet) :
    Outcome.Returns (fun result => braid.epoch ≤ result.1.epoch)
      (braid.receive packet) := by
  unfold receive
  split_ifs
  · split
    · split_ifs
      · exact .ok (Nat.le_succ _)
      · exact .error _
    · exact .error _
  · exact .ok (Nat.le_refl _)
  · intro result returned
    rcases receiveCurrent_epoch braid packet.payload result returned with
      ⟨same, _⟩ | ⟨_, _, _, next⟩
    · exact Nat.le_of_eq same.symm
    · exact Nat.le_of_lt (Nat.lt_of_lt_of_eq (Nat.lt_succ_self _) next.symm)

/-- A receive reaches its packet's epoch, and goes at most one past it. -/
theorem receive_reaches
    (braid : Braid)
    (packet : Packet) :
    Outcome.Returns
      (fun result =>
        packet.epoch ≤ result.1.epoch ∧
          result.1.epoch ≤ max braid.epoch (packet.epoch + 1))
      (braid.receive packet) := by
  unfold receive
  split_ifs with ahead older
  · split
    · split_ifs with follows
      · refine .ok ⟨Nat.le_of_eq follows, ?_⟩
        rw [follows]
        exact Nat.le_trans (Nat.le_succ _) (Nat.le_max_right _ _)
      · exact .error _
    · exact .error _
  · exact .ok ⟨Nat.le_of_lt older, Nat.le_max_left _ _⟩
  · have same : packet.epoch = braid.epoch :=
      Nat.le_antisymm (Nat.not_lt.mp ahead) (Nat.not_lt.mp older)
    intro result returned
    rcases receiveCurrent_epoch braid packet.payload result returned with
      ⟨stays, _⟩ | ⟨_, _, _, next⟩
    · rw [stays]
      exact ⟨Nat.le_of_eq same, Nat.le_max_left _ _⟩
    · rw [next, same]
      exact ⟨Nat.le_succ _, Nat.le_max_right _ _⟩

end Steps

end Braid

end Gossveil
