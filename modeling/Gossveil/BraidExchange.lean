import Gossveil.Braid

namespace Gossveil

open ErasureCode

/-!
# One exchange of the braid

In an exchange one side samples a key and the other encapsulates to it.  The
data of an exchange only grows: first the key, then the encapsulation, then the
fact that the second half is on its way.  Each side's state is determined by
the data up to its spreads and gathers, and every packet of the exchange is a
piece of one of its four messages.
-/

namespace Braid

/-- What an exchange has settled so far, and what came before it. -/
structure Exchange where
  epoch : Nat
  auth : Auth
  keys : Option Kem.Keys
  first : Option Kem.First
  answered : Bool
  past : List EpochSecret

namespace Exchange

section Texts

variable [Hashes]

/-- The header message: the header and its tag. -/
def headerText (exchange : Exchange) (keys : Kem.Keys) : Bytes :=
  keys.header.bytes ++
    (exchange.auth.tagHeader exchange.epoch keys.header).bytes

/-- The epoch secret that a first half stands for. -/
def secretOf (exchange : Exchange) (first : Kem.First) : Block 32 :=
  epochSecret first.shared exchange.epoch

/-- The authenticator once the secret is known. -/
def nextAuth (exchange : Exchange) (first : Kem.First) : Auth :=
  exchange.auth.advanced exchange.epoch (exchange.secretOf first).bytes

/-- The secret as both sides emit it. -/
def emission (exchange : Exchange) (first : Kem.First) : EpochSecret :=
  ⟨exchange.epoch, exchange.secretOf first⟩

/-- The secret the capsule side has emitted already. -/
def current (exchange : Exchange) : List EpochSecret :=
  (exchange.first.map exchange.emission).toList

variable [Kem]

/-- The second message: the second half and the tag over both halves. -/
def secondText
    (exchange : Exchange)
    (keys : Kem.Keys)
    (first : Kem.First) :
    Bytes :=
  let second := Kem.secondHalf keys.encap first.carry
  second.bytes ++
    ((exchange.nextAuth first).tagCapsule exchange.epoch
      (first.capsule.bytes ++ second.bytes)).bytes

omit [Kem] in
@[simp] theorem length_headerText
    (exchange : Exchange)
    (keys : Kem.Keys) :
    (exchange.headerText keys).length = headerMessage := by
  simp [headerText, headerMessage]

@[simp] theorem length_secondText
    (exchange : Exchange)
    (keys : Kem.Keys)
    (first : Kem.First) :
    (exchange.secondText keys first).length = secondMessage := by
  simp [secondText, secondMessage]

end Texts

section Laws

variable [Kem]

/-- What is settled is consistent. -/
structure Sound (exchange : Exchange) : Prop where
  positive : 1 ≤ exchange.epoch
  epochFits : exchange.epoch < 2 ^ 64
  generated :
    ∀ keys, exchange.keys = some keys →
      ∃ seed, Kem.generate seed = some keys
  encapsulated :
    ∀ first, exchange.first = some first →
      ∃ keys message, exchange.keys = some keys ∧
        first = Kem.firstHalf keys.header message
  past :
    exchange.past.map EpochSecret.epoch =
      List.range' 1 (exchange.epoch - 1)

end Laws

end Exchange

/-! ## How the data grows -/

/-- The key side has sampled its keys. -/
def Exchange.withKeys (exchange : Exchange) (keys : Kem.Keys) : Exchange :=
  { exchange with keys := some keys }

/-- The capsule side has encapsulated. -/
def Exchange.withFirst (exchange : Exchange) (first : Kem.First) : Exchange :=
  { exchange with first := some first }

/-- The capsule side has the whole key and sends the second half. -/
def Exchange.withAnswer (exchange : Exchange) : Exchange :=
  { exchange with answered := true }

section Following

variable [Hashes]

/-- The next exchange, in which the sides swap roles. -/
def Exchange.following (exchange : Exchange) (first : Kem.First) : Exchange :=
  { epoch := exchange.epoch + 1
    auth := exchange.nextAuth first
    keys := none
    first := none
    answered := false
    past := exchange.past ++ [exchange.emission first] }

end Following

/-! ## The packets and the two sides of an exchange -/

/-- A packet of the exchange, or of one before it. -/
def PacketOf
    (payload : Exchange → Payload → Prop)
    (exchange : Exchange)
    (packet : Packet) :
    Prop :=
  1 ≤ packet.epoch ∧
    (packet.epoch < exchange.epoch ∨
      (packet.epoch = exchange.epoch ∧ payload exchange packet.payload))

section Sides

variable [Hashes]

/-- A gather that waits for a whole known message. -/
def GathersAll (gather : Gather) (message : Bytes) : Prop :=
  gather.Gathers message.length (some message)

/-- What the key side sends. -/
inductive KeyPayload (exchange : Exchange) : Payload → Prop where
  | header
      {keys : Kem.Keys}
      (isKeys : exchange.keys = some keys)
      (index : Gf16) :
      KeyPayload exchange
        (.header (codeword (exchange.headerText keys) index))
  | encap
      {keys : Kem.Keys}
      (isKeys : exchange.keys = some keys)
      (index : Gf16) :
      KeyPayload exchange (.encap (codeword keys.encap.bytes index))
  | encapAndAck
      {keys : Kem.Keys}
      (isKeys : exchange.keys = some keys)
      (index : Gf16) :
      KeyPayload exchange (.encapAndAck (codeword keys.encap.bytes index))
  | ack : KeyPayload exchange (.ack true)

variable [Kem]

/-- What the capsule side sends. -/
inductive CapsulePayload (exchange : Exchange) : Payload → Prop where
  | empty : CapsulePayload exchange .empty
  | first
      {first : Kem.First}
      (isFirst : exchange.first = some first)
      (index : Gf16) :
      CapsulePayload exchange
        (.first (codeword first.capsule.bytes index))
  | second
      {keys : Kem.Keys}
      {first : Kem.First}
      (isKeys : exchange.keys = some keys)
      (isFirst : exchange.first = some first)
      (answered : exchange.answered = true)
      (index : Gf16) :
      CapsulePayload exchange
        (.second (codeword (exchange.secondText keys first) index))

/-- The states of the side that samples the key. -/
inductive KeySide (exchange : Exchange) : Braid → Prop where
  /-- Still sending the second half of the exchange before. -/
  | late
      {epoch : Nat}
      {outSecond : Spread}
      {message : Bytes}
      (before : epoch + 1 = exchange.epoch)
      (positive : 1 ≤ epoch)
      (long : 2 * polynomials ≤ message.length)
      (noKeys : exchange.keys = none)
      (carries : outSecond.Carries message) :
      KeySide exchange (.secondOut epoch exchange.auth outSecond)
  | unsampled
      (noKeys : exchange.keys = none) :
      KeySide exchange (.unsampled exchange.epoch exchange.auth)
  | sampled
      {keys : Kem.Keys}
      {outHeader : Spread}
      (isKeys : exchange.keys = some keys)
      (carries : outHeader.Carries (exchange.headerText keys)) :
      KeySide exchange
        (.sampled exchange.epoch exchange.auth keys.encap keys.decap
          outHeader)
  | headerOut
      {keys : Kem.Keys}
      {first : Kem.First}
      {outEncap : Spread}
      {inFirst : Gather}
      (isKeys : exchange.keys = some keys)
      (isFirst : exchange.first = some first)
      (carries : outEncap.Carries keys.encap.bytes)
      (gathers : GathersAll inFirst first.capsule.bytes) :
      KeySide exchange
        (.headerOut exchange.epoch exchange.auth keys.decap outEncap
          inFirst)
  | firstIn
      {keys : Kem.Keys}
      {first : Kem.First}
      {outEncap : Spread}
      (isKeys : exchange.keys = some keys)
      (isFirst : exchange.first = some first)
      (carries : outEncap.Carries keys.encap.bytes) :
      KeySide exchange
        (.firstIn exchange.epoch exchange.auth keys.decap first.capsule
          outEncap)
  | encapOutFirstIn
      {keys : Kem.Keys}
      {first : Kem.First}
      {inSecond : Gather}
      (isKeys : exchange.keys = some keys)
      (isFirst : exchange.first = some first)
      (answered : exchange.answered = true)
      (gathers : GathersAll inSecond (exchange.secondText keys first)) :
      KeySide exchange
        (.encapOutFirstIn exchange.epoch exchange.auth keys.decap
          first.capsule inSecond)

/-- The states of the side that encapsulates. -/
inductive CapsuleSide (exchange : Exchange) : Braid → Prop where
  | waiting
      {inHeader : Gather}
      (noFirst : exchange.first = none)
      (unanswered : exchange.answered = false)
      (gathers :
        inHeader.Gathers headerMessage
          (exchange.keys.map exchange.headerText)) :
      CapsuleSide exchange
        (.waiting exchange.epoch exchange.auth inHeader)
  | headerIn
      {keys : Kem.Keys}
      {inEncap : Gather}
      (isKeys : exchange.keys = some keys)
      (noFirst : exchange.first = none)
      (unanswered : exchange.answered = false)
      (gathers : GathersAll inEncap keys.encap.bytes) :
      CapsuleSide exchange
        (.headerIn exchange.epoch exchange.auth keys.header inEncap)
  | firstOut
      {keys : Kem.Keys}
      {first : Kem.First}
      {outFirst : Spread}
      {inEncap : Gather}
      (isKeys : exchange.keys = some keys)
      (isFirst : exchange.first = some first)
      (unanswered : exchange.answered = false)
      (carries : outFirst.Carries first.capsule.bytes)
      (gathers : GathersAll inEncap keys.encap.bytes) :
      CapsuleSide exchange
        (.firstOut exchange.epoch (exchange.nextAuth first) keys.header
          first.carry first.capsule outFirst inEncap)
  | encapInFirstOut
      {keys : Kem.Keys}
      {first : Kem.First}
      {outFirst : Spread}
      (isKeys : exchange.keys = some keys)
      (isFirst : exchange.first = some first)
      (unanswered : exchange.answered = false)
      (carries : outFirst.Carries first.capsule.bytes) :
      CapsuleSide exchange
        (.encapInFirstOut exchange.epoch (exchange.nextAuth first)
          first.carry keys.encap first.capsule outFirst)
  | firstAcked
      {keys : Kem.Keys}
      {first : Kem.First}
      {inEncap : Gather}
      (isKeys : exchange.keys = some keys)
      (isFirst : exchange.first = some first)
      (unanswered : exchange.answered = false)
      (gathers : GathersAll inEncap keys.encap.bytes) :
      CapsuleSide exchange
        (.firstAcked exchange.epoch (exchange.nextAuth first) keys.header
          first.carry first.capsule inEncap)
  | secondOut
      {keys : Kem.Keys}
      {first : Kem.First}
      {outSecond : Spread}
      (isKeys : exchange.keys = some keys)
      (isFirst : exchange.first = some first)
      (answered : exchange.answered = true)
      (carries : outSecond.Carries (exchange.secondText keys first)) :
      CapsuleSide exchange
        (.secondOut exchange.epoch (exchange.nextAuth first) outSecond)

end Sides

end Braid

end Gossveil
