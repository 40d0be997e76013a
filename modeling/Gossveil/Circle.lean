import Gossveil.Cipher
import Gossveil.CirclePost

namespace Gossveil

/-!
# Group chains, the members of a circle and the group operations

A member's chain is a seed that steps once for each message; the key of a step
is drawn from the seed before it steps.  A circle keeps up to five members,
newest first, each with the keys of the steps its chain has jumped over.

The operations change the members in place, so they return the circle also
when they fail.  Allocation failures are not modelled, and what an operation
draws from the entropy source is an argument.
-/

namespace Circle

/-- A position of a chain. -/
structure Link where
  step : Nat
  seed : Block 32
  deriving DecidableEq

/-- The message key of one step. -/
structure Yield where
  step : Nat
  seed : Block 32
  deriving DecidableEq

section Chain

variable [Hashes]

/-- The chain one step on; the step is 32 bits wide. -/
def Link.advance (link : Link) : Outcome Fault Link := do
  let step ← Outcome.add 32 link.step 1
  return ⟨step, Derive.chainNext link.seed⟩

/-- The seed of the next note. -/
def Link.yield (link : Link) : Yield :=
  ⟨link.step, Derive.chainSeed link.seed⟩

/-- The keys of a note. -/
def Yield.keys (yielded : Yield) : Derive.CircleKeys :=
  Derive.circleKeys yielded.seed

/-- The links a chain moves over in some steps, and the one it reaches. -/
def Link.walk : (distance : Nat) → Link → Outcome Fault (List Link × Link)
  | 0, link => .ok ([], link)
  | distance + 1, link => do
      let next ← link.advance
      let (passed, reached) ← Link.walk distance next
      return (link :: passed, reached)

end Chain

/-- The chains a circle holds at most. -/
def maxMembers : Nat := 5

/-- The skipped keys a chain holds at most. -/
def maxSkipped : Nat := 2000

/-- How far ahead of its chain a note may be. -/
def maxForwardJump : Nat := 25000

/-- The version of a new chain. -/
def currentVersion : Nat := 3

/-- A chain under a signing key, with its skipped keys. -/
structure Member where
  version : Nat
  chainId : Nat
  link : Link
  signing : Curve.Public
  signingSecret : Option Curve.Secret
  skipped : List Yield
  deriving DecidableEq

namespace Member

/-- The oldest keys leave once there are more than the maximum. -/
def keepSkipped (member : Member) (yielded : Yield) : Member :=
  let kept := member.skipped ++ [yielded]
  { member with skipped := kept.drop (kept.length - maxSkipped) }

/-- The kept key of a step leaves the store. -/
def takeSkipped
    (member : Member)
    (step : Nat) :
    Option Yield × Member :=
  (member.skipped.find? (·.step = step),
    { member with
      skipped := member.skipped.eraseP (·.step = step) })

end Member

end Circle

/-- The members, newest first. -/
structure Circle where
  members : List Circle.Member
  deriving DecidableEq

namespace Circle

/-- A circle without chains. -/
def init : Circle :=
  ⟨[]⟩

/-- The chain admitted last. -/
def newest (circle : Circle) : Option Member :=
  circle.members.head?

/-- The chain of an id. -/
def byChain (circle : Circle) (chainId : Nat) : Option Member :=
  circle.members.find? (·.chainId = chainId)

/-- The changed member in the place of the first one of its chain. -/
def store (circle : Circle) (member : Member) : Circle :=
  ⟨circle.members.replaceF fun candidate =>
    if candidate.chainId = member.chainId then some member else none⟩

/--
The removal loop of `admit`: the first member of the chain under the same
signing key is kept aside, every other member of the chain is dropped.
-/
def sift
    (chainId : Nat)
    (signing : Curve.Public) :
    (kept : Option Member) →
    List Member →
    Option Member × List Member
  | kept, [] => (kept, [])
  | kept, member :: rest =>
      if member.chainId = chainId then
        if kept = none ∧ member.signing = signing then
          sift chainId signing (some member) rest
        else
          sift chainId signing kept rest
      else
        let (kept, others) := sift chainId signing kept rest
        (kept, member :: others)

/--
A member for a chain already known keeps its keys; a chain id under a
different signing key is replaced.  The list holds the newest five.
-/
def admitMember (circle : Circle) (fresh : Member) : Circle :=
  let (kept, others) :=
    sift fresh.chainId fresh.signing none circle.members
  ⟨kept.getD fresh :: others.take (maxMembers - 1)⟩

/-- Admits the chain of an announcement, which has no signing secret. -/
def admitAnnounce (circle : Circle) (announcement : Announce) : Circle :=
  circle.admitMember
    { version := announcement.version
      chainId := announcement.chainId
      link := ⟨announcement.step, announcement.seed⟩
      signing := announcement.signing
      signingSecret := none
      skipped := [] }

/-- What `announce` draws when it creates a chain. -/
structure Draw where
  chainId : Block 4
  signing : Block 32
  seed : Block 32

section Operations

variable [Curves]

/-- The circle with a chain of its own, created on first use. -/
def withChain (circle : Circle) (draw : Draw) : Outcome Fault Circle :=
  match circle.newest with
  | some _ => .ok circle
  | none => do
      let signing ← Curve.Pair.fromSeed draw.signing
      return circle.admitMember
        { version := currentVersion
          chainId := Codec.Reader.littleEndian draw.chainId.bytes
          link := ⟨0, draw.seed⟩
          signing := signing.publicKey
          signingSecret := some signing.secret
          skipped := [] }

/-- Announces the own chain; one is drawn if there is none yet. -/
def announce
    (circle : Circle)
    (circleId : Block 16)
    (draw : Draw) :
    Circle × Outcome Fault Announce :=
  match circle.withChain draw with
  | .error fault => (circle, .error fault)
  | .trap => (circle, .trap)
  | .ok circle =>
      (circle, do
        let member ← Outcome.unwrap circle.newest
        let version ← Outcome.intCast 8 member.version
        Announce.make version circleId member.chainId member.link.step
          member.link.seed member.signing)

variable [Hashes]

/-- The key for a step, and the member after it was drawn. -/
def yieldFor
    (member : Member)
    (step : Nat) :
    Outcome Fault (Yield × Member) :=
  if step < member.link.step then
    match member.takeSkipped step with
    | (some yielded, member) => .ok (yielded, member)
    | (none, _) => .error .replay
  else if maxForwardJump < step - member.link.step then
    .error .badMessage
  else do
    let (passed, reached) ← member.link.walk (step - member.link.step)
    let kept := passed.foldl (·.keepSkipped ·.yield) member
    let link ← reached.advance
    return (reached.yield, { kept with link := link })

variable [Aes]

/-- The sealed note and the member after it. -/
def sealFor
    (member : Member)
    (circleId : Block 16)
    (plain : Bytes)
    (nonce : Block 64) :
    Outcome Fault (Bytes × Member) := do
  let signer ← Outcome.ofOption .badSession member.signingSecret
  let yielded := member.link.yield
  let keys := yielded.keys
  let body := Cipher.cbcSeal keys.cipher keys.iv plain
  let version ← Outcome.intCast 8 member.version
  let note ←
    Note.make version circleId member.chainId yielded.step body signer nonce
  let link ← member.link.advance
  return (note.bytes, { member with link := link })

end Operations

end Circle

open Gossveil.Circle

section Operations

variable [Curves] [Hashes] [Aes]

/-- Seals a note on the newest chain. -/
def Circle.seal
    (circle : Circle)
    (circleId : Block 16)
    (plain : Bytes)
    (nonce : Block 64) :
    Circle × Outcome Fault Bytes :=
  match circle.newest with
  | none => (circle, .error .noSession)
  | some member =>
      match sealFor member circleId plain nonce with
      | .ok (bytes, member) => (circle.store member, .ok bytes)
      | .error fault => (circle, .error fault)
      | .trap => (circle, .trap)

/-- The chain has moved before the body is opened. -/
def Circle.open
    (circle : Circle)
    (note : Note) :
    Circle × Outcome Fault Bytes :=
  match circle.byChain note.chainId with
  | none => (circle, .error .noSession)
  | some member =>
      if note.version ≠ member.version then
        (circle, .error .unknownVersion)
      else if note.signedBy member.signing = false then
        (circle, .error .badSignature)
      else
        match yieldFor member note.step with
        | .error fault => (circle, .error fault)
        | .trap => (circle, .trap)
        | .ok (yielded, member) =>
            (circle.store member,
              Cipher.cbcOpen yielded.keys.cipher yielded.keys.iv note.body)

end Operations

end Gossveil
