import Gossveil.Session

namespace Gossveil

/-!
# The handshake

The initiator derives the shared secret from three or four curve agreements and
one post-quantum capsule; the responder derives the same from its side.  Both
open into a root key, a chain key and the authentication key of the
post-quantum ratchet, and each side sets up its first lanes.

The two lattice schemes come from the standard library and are a parameter.
-/

/-! ## Post-quantum keys -/

namespace PostQuantum

/-- The two forms of the capsule scheme. -/
inductive Scheme where
  | roundThree
  | standard
  deriving DecidableEq, Repr

/-- The byte before a key of the scheme. -/
def Scheme.code : Scheme → UInt8
  | .roundThree => 0x08
  | .standard => 0x0A

/-- The bytes of a public key. -/
def publicLength : Nat := 1568

/-- The bytes of a secret key. -/
def secretLength : Nat := 3168

/-- The bytes of a capsule. -/
def capsuleLength : Nat := 1568

/-- The bytes of a capsule behind its scheme. -/
def serializedCapsuleLength : Nat := 1 + capsuleLength

end PostQuantum

open PostQuantum in
/-- Key encapsulation in either scheme. -/
class Capsules where
  encapsulate :
    Scheme →
    Block publicLength →
    Block 32 →
    Option (Block capsuleLength × Block 32)
  decapsulate :
    Scheme → Block secretLength → Block capsuleLength → Option (Block 32)

namespace Sample

open PostQuantum in
/-- A stand-in whose capsule is the shared secret in the clear. -/
@[reducible] def capsules : Capsules where
  encapsulate _ _ seed := some (seed.append (Block.zero 1536), seed)
  decapsulate _ _ capsule := some (capsule.slice 0 32 (by decide))

end Sample

namespace PostQuantum

/-- A capsule travels with the scheme byte in front, like the keys do. -/
structure Capsule where
  bytes : Bytes
  shared : Block 32
  deriving DecidableEq

/-- A public key of one of the schemes. -/
structure Public where
  scheme : Scheme
  key : Block publicLength
  deriving DecidableEq

/-- A secret key of one of the schemes. -/
structure Secret where
  scheme : Scheme
  key : Block secretLength
  deriving DecidableEq

/-- The two halves of a key. -/
structure Pair where
  publicKey : Public
  secret : Secret
  deriving DecidableEq

/-- The key behind its scheme. -/
def Public.serialize (key : Public) : Bytes :=
  key.scheme.code :: key.key.bytes

section Encapsulation

variable [Capsules]

/-- A secret for the owner of the key, and the capsule that carries it. -/
def Public.encapsulate (key : Public) (seed : Block 32) : Outcome Fault Capsule := do
  let (capsule, shared) ←
    Outcome.ofOption .badKey (Capsules.encapsulate key.scheme key.key seed)
  return ⟨key.scheme.code :: capsule.bytes, shared⟩

/-- `Secret.open`: the serialised capsule, scheme byte first. -/
def Secret.openCapsule
    (secret : Secret)
    (capsule : Bytes) :
    Outcome Fault (Block 32) :=
  match capsule with
  | [] => .error .badArgument
  | scheme :: rest =>
      match Block.ofBytes capsuleLength rest with
      | none => .error .badArgument
      | some body =>
          if scheme ≠ secret.scheme.code then
            .error .unknownKeyType
          else
            Outcome.ofOption .badKey
              (Capsules.decapsulate secret.scheme secret.key body)

end Encapsulation

end PostQuantum

/-! ## The keys a device keeps and publishes -/

namespace Bundle

/-- A key for one session only. -/
structure OneTimeRecord where
  id : Nat
  pair : Curve.Pair
  deriving DecidableEq

/-- A key for many sessions, signed by its owner. -/
structure SignedRecord where
  id : Nat
  stamp : Nat
  pair : Curve.Pair
  signature : Block 64
  deriving DecidableEq

/-- A post-quantum key, signed by its owner. -/
structure PqRecord where
  id : Nat
  stamp : Nat
  pair : PostQuantum.Pair
  signature : Block 64
  deriving DecidableEq

/-- What a device publishes for others to start sessions with. -/
structure Published where
  registrationId : Nat
  device : Nat
  oneTimeId : Option Nat
  oneTime : Option Curve.Public
  signedId : Nat
  signed : Curve.Public
  signedSignature : Block 64
  identity : Identity
  pqId : Nat
  pqKey : PostQuantum.Public
  pqSignature : Block 64
  deriving DecidableEq

/-- Both signatures are over the serialised key, tag byte included. -/
def Published.check [Curves] (published : Published) : Outcome Fault Unit := do
  Outcome.require .badSignature
    (published.identity.key.verify published.signed.serialize
      published.signedSignature = true)
  Outcome.require .badSignature
    (published.identity.key.verify published.pqKey.serialize
      published.pqSignature = true)

end Bundle

/-! ## The shared secret -/

namespace Handshake

/-- The bytes before the agreements, which no key of the curve has. -/
def discontinuity : Block 32 :=
  Block.fill 32 0xFF

/-- What the side that starts a session brings. -/
structure Initiator where
  us : IdentityPair
  ourBase : Curve.Pair
  them : Identity
  theirSigned : Curve.Public
  theirOneTime : Option Curve.Public
  theirRatchet : Curve.Public
  theirPq : PostQuantum.Public
  deriving DecidableEq

/-- What the side that answers brings. -/
structure Responder where
  us : IdentityPair
  ourSigned : Curve.Pair
  ourOneTime : Option Curve.Pair
  ourRatchet : Curve.Pair
  ourPq : PostQuantum.Secret
  them : Identity
  theirBase : Curve.Public
  theirCapsule : Bytes
  deriving DecidableEq

/-- What an agreement comes to; one side also has a capsule to send. -/
structure Opened where
  keys : Derive.Opening
  capsule : Option PostQuantum.Capsule
  deriving DecidableEq

variable [Hashes] [Curves]

/-- The part a one-time key adds, when there is one. -/
def oneTimePart
    (agreement : Option (Outcome Fault (Block 32))) :
    Outcome Fault Bytes :=
  match agreement with
  | some agreement => do
      let shared ← agreement
      return shared.bytes
  | none => .ok []

section Secrets

variable [Capsules]

/-- The agreements of the starting side, in the order both sides use. -/
def initiatorSecret (parts : Initiator) (seed : Block 32) : Outcome Fault Opened := do
  let first ← parts.us.secret.agree parts.theirSigned
  let second ← parts.ourBase.secret.agree parts.them.key
  let third ← parts.ourBase.secret.agree parts.theirSigned
  let oneTime ← oneTimePart (parts.theirOneTime.map parts.ourBase.secret.agree)
  let capsule ← parts.theirPq.encapsulate seed
  return ⟨Derive.opening
      (discontinuity.bytes ++ first.bytes ++ second.bytes ++ third.bytes ++
        oneTime ++ capsule.shared.bytes),
    some capsule⟩

/-- The agreements of the answering side, each with the roles turned round. -/
def responderSecret (parts : Responder) : Outcome Fault Opened := do
  let first ← parts.ourSigned.secret.agree parts.them.key
  let second ← parts.us.secret.agree parts.theirBase
  let third ← parts.ourSigned.secret.agree parts.theirBase
  let oneTime ←
    oneTimePart
      (parts.ourOneTime.map fun pair => pair.secret.agree parts.theirBase)
  let shared ← parts.ourPq.openCapsule parts.theirCapsule
  return ⟨Derive.opening
      (discontinuity.bytes ++ first.bytes ++ second.bytes ++ third.bytes ++
        oneTime ++ shared.bytes),
    none⟩

end Secrets

open Ratchet

/--
The initiator's first state: a receiving lane on their ratchet key and a
sending lane on a fresh one, one turn ahead.
-/
def initiatorState
    (parts : Initiator)
    (keys : Derive.Opening)
    (pqState : Bytes)
    (draw : Block 32) :
    Outcome Fault State := do
  let sending ← Curve.Pair.fromSeed draw
  let agreement ← sending.secret.agree parts.theirRatchet
  let turn := Derive.turn keys.root agreement
  let state :=
    State.init currentVersion parts.us.identity.key parts.them.key turn.root
      parts.ourBase.publicKey.serialize pqState
  let state := state.addReceiving parts.theirRatchet ⟨keys.chain, 0⟩
  return state.setSending sending ⟨turn.chain, 0⟩

/-- The responder's first state: a sending lane on its own ratchet key. -/
def responderState
    (parts : Responder)
    (keys : Derive.Opening)
    (pqState : Bytes) :
    State :=
  let state :=
    State.init currentVersion parts.us.identity.key parts.them.key keys.root
      parts.theirBase.serialize pqState
  state.setSending parts.ourRatchet ⟨keys.chain, 0⟩

end Handshake

end Gossveil
