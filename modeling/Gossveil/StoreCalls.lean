import Gossveil.CircleRecord
import Gossveil.Interleaving
import Gossveil.ServiceIdTexts
import Gossveil.WasmClient
import Mathlib.Data.Finset.Lattice.Basic

namespace Gossveil

open Abi Ratchet Interleaving

/-!
# The calls over the in-memory store

A host keeps its sessions, identities and keys in one object.  Its methods are
asynchronous, so every call of the client runs in pieces that end with one look
at the store or one change of it, and other calls may run in between.
-/

/-! ## The calls of the bridge on circles -/

namespace Abi

/-- No record is an empty circle. -/
def circleFrom (data : Bytes) : Outcome Fault Circle :=
  if data.length = 0 then .ok Circle.init else Circle.parse data

/-- `circleAdmit`: the chain of an announcement is admitted. -/
def admitCircle
    (record announcement : Bytes)
    (allocates : Cell → Bool) :
    Call Handed AbiError Unit := do
  let circle ← Call.lift ((circleFrom record).mapError AbiError.fault)
  let announced ←
    Call.lift ((Circle.Announce.parse announcement).mapError AbiError.fault)
  give (allocates .outRecord) .outRecord
    (circle.admitAnnounce announced).serialize

/-- Admitting performs the steps of its call. -/
theorem admitCircle_performs
    (record announcement : Bytes)
    (allocates : Cell → Bool) :
    Performs allocates Abi.circleAdmit.steps
      (admitCircle record announcement allocates) := by
  apply Performs.attempt
  intro circle
  apply Performs.attempt
  intro announced
  iterate 2 apply Performs.silent
  exact Performs.giveLast _

section Circles

variable [Curves]

/-- `circleAnnounce`: the own chain is announced. -/
def announceCircle
    (record circleId : Bytes)
    (draw : Circle.Draw)
    (allocates : Cell → Bool) :
    Call Handed AbiError Unit := do
  let circle ← Call.lift ((circleFrom record).mapError AbiError.fault)
  let circleId ←
    Call.lift
      (Outcome.ofOption (.fault .badArgument) (Block.ofBytes 16 circleId))
  let (circle, result) := circle.announce circleId draw
  let announced ← Call.lift (result.mapError AbiError.fault)
  give (allocates .outRecord) .outRecord circle.serialize
  give (allocates .announce) .announce announced.bytes

/-- The announcement follows its step list. -/
theorem announceCircle_performs
    (record circleId : Bytes)
    (draw : Circle.Draw)
    (allocates : Cell → Bool) :
    Performs allocates Abi.circleAnnounce.steps
      (announceCircle record circleId draw allocates) := by
  apply Performs.attempt
  intro circle
  apply Performs.attempt
  intro circleId
  apply Performs.attempt
  intro announced
  apply Performs.silent
  apply Performs.give _ (by decide)
  exact Performs.giveLast _

variable [Hashes] [Aes]

/-- `circleSeal`: a note is sealed, and the record moves on. -/
def sealCircle
    (record circleId plain : Bytes)
    (nonce : Block 64)
    (allocates : Cell → Bool) :
    Call Handed AbiError Unit := do
  let circle ← Call.lift ((circleFrom record).mapError AbiError.fault)
  let circleId ←
    Call.lift
      (Outcome.ofOption (.fault .badArgument) (Block.ofBytes 16 circleId))
  let (circle, result) := circle.seal circleId plain nonce
  let note ← Call.lift (result.mapError AbiError.fault)
  give (allocates .note) .note note
  give (allocates .outRecord) .outRecord circle.serialize

/-- Sealing a circle note follows its step list. -/
theorem sealCircle_performs
    (record circleId plain : Bytes)
    (nonce : Block 64)
    (allocates : Cell → Bool) :
    Performs allocates Abi.circleSeal.steps
      (sealCircle record circleId plain nonce allocates) := by
  apply Performs.attempt
  intro circle
  apply Performs.attempt
  intro circleId
  apply Performs.attempt
  intro note
  apply Performs.give note (by decide)
  apply Performs.silent
  exact Performs.giveLast _

/-- `circleOpen`: a record without any chain is refused first. -/
def openCircle
    (record note : Bytes)
    (allocates : Cell → Bool) :
    Call Handed AbiError Unit := do
  let circle ← Call.lift ((circleFrom record).mapError AbiError.fault)
  Call.lift
    (Outcome.require (.fault .noSession) (circle.newest.isSome = true))
  let note ← Call.lift ((Circle.Note.parse note).mapError AbiError.fault)
  let (circle, result) := circle.open note
  let text ← Call.lift (result.mapError AbiError.fault)
  give (allocates .plain) .plain text
  give (allocates .outRecord) .outRecord circle.serialize

/-- Opening a note performs the steps of its call. -/
theorem openCircle_performs
    (record note : Bytes)
    (allocates : Cell → Bool) :
    Performs allocates Abi.circleOpen.steps
      (openCircle record note allocates) := by
  apply Performs.attempt
  intro circle
  apply Performs.attempt
  intro _
  apply Performs.attempt
  intro note
  apply Performs.attempt
  intro text
  apply Performs.give text (by decide)
  apply Performs.silent
  exact Performs.giveLast _

end Circles

end Abi

namespace Bridge

/-- Reads an announcement or throws. -/
def announceParse (announcement : Bytes) : Outcome GossveilError Circle.Announce :=
  check ((Circle.Announce.parse announcement).mapError AbiError.fault)

/-- Reads a note or throws. -/
def noteParse (note : Bytes) : Outcome GossveilError Circle.Note :=
  check ((Circle.Note.parse note).mapError AbiError.fault)

/-- The record after an announcement. -/
def circleAdmit (record announcement : Bytes) : Outcome GossveilError Bytes :=
  finish (admitCircle record announcement fun _ => true)
    fun cells _ => cells .outRecord

/-- The record, then the announcement. -/
def circleAnnounce
    [Curves]
    (record circleId : Bytes)
    (draw : Circle.Draw) :
    Outcome GossveilError (Bytes × Bytes) :=
  finish (announceCircle record circleId draw fun _ => true)
    fun cells _ => (cells .outRecord, cells .announce)

/-- The note, then the record. -/
def circleSeal
    [Curves] [Hashes] [Aes]
    (record circleId plain : Bytes)
    (nonce : Block 64) :
    Outcome GossveilError (Bytes × Bytes) :=
  finish (sealCircle record circleId plain nonce fun _ => true)
    fun cells _ => (cells .note, cells .outRecord)

/-- The text, then the record. -/
def circleOpen
    [Curves] [Hashes] [Aes]
    (record note : Bytes) :
    Outcome GossveilError (Bytes × Bytes) :=
  finish (openCircle record note fun _ => true)
    fun cells _ => (cells .plain, cells .outRecord)

end Bridge

namespace Api

/-! ## Addresses and texts -/

/-- `String.prototype.toLowerCase` -/
class LowerCase where
  toLowerCase : Text → Text

/-- A decimal numeral, as a template string writes it. -/
def numeral (value : Nat) : Text :=
  ascii (toString value)

/-- A name and a device number; the name is not empty. -/
structure ProtocolAddress where
  name : Text
  deviceId : Nat
  named : name.length ≠ 0
  small : deviceId < 2 ^ 32

namespace ProtocolAddress

theorem one_lt : 1 < 2 ^ 32 := by
  decide

/-- The address as a key of the stores. -/
def toText (address : ProtocolAddress) : Text :=
  address.name ++ ascii "." ++ numeral address.deviceId

end ProtocolAddress

/-- Thrown when another identity is known for the address. -/
def untrusted (address : ProtocolAddress) : Thrown :=
  ⟨.untrustedIdentity, ascii "untrusted identity for " ++ address.toText⟩

/-- Thrown when there is no record for the address. -/
def sessionNotFound (address : ProtocolAddress) : Thrown :=
  ⟨.noSession, ascii "no session for " ++ address.toText⟩

/-- Thrown when there is no circle for the sender. -/
def senderKeyNotFound
    (sender : ProtocolAddress)
    (distributionId : Text) :
    Thrown :=
  ⟨.noSession,
    ascii "no sender key for " ++ sender.toText ++ ascii " in " ++
      distributionId⟩

/-- Thrown when a key is not in its store. -/
def invalidKeyId (what : String) (id : Nat) : Thrown :=
  ⟨.unknownKeyId, ascii "no " ++ ascii what ++ ascii " " ++ numeral id⟩

/-- A name that is not given is passed as an empty one. -/
def binding (sender recipient : Option ProtocolAddress) : Option Binding :=
  let name (address : Option ProtocolAddress) : Bytes :=
    (address.map fun address => encode address.name).getD []
  let device (address : Option ProtocolAddress) : Nat :=
    (address.map ProtocolAddress.deviceId).getD 0
  bindingFrom (name sender) (device sender) (name recipient)
    (device recipient)

/-- A hexadecimal digit in lower case. -/
def hexUnit (digit : Nat) : UInt16 :=
  UInt16.ofNat (if digit < 10 then 48 + digit else 87 + digit)

/-- The text of an id, in lower case and with its hyphens. -/
def bytesToUuid (bytes : Bytes) : Outcome Thrown Text :=
  if bytes.length ≠ 16 then
    .error ⟨.badArgument, ascii "a uuid is 16 bytes"⟩
  else
    let hex :=
      bytes.flatMap fun byte =>
        [hexUnit (byte.toNat / 16), hexUnit (byte.toNat % 16)]
    let part (first last : Nat) : Text := (hex.take last).drop first
    .ok (part 0 8 ++ ascii "-" ++ part 8 12 ++ ascii "-" ++ part 12 16 ++
      ascii "-" ++ part 16 20 ++ ascii "-" ++ part 20 32)

/-! ## The store -/

/--
The private key and the registration id stay what they are; the id crosses the
bridge as 32 bits.
-/
structure InMemoryProtocolStore where
  identity : Bytes
  registrationId : Nat
  identities : Text → Option Bytes
  sessions : Text → Option Bytes
  preKeys : Nat → Option Bytes
  signedPreKeys : Nat → Option Bytes
  kyberPreKeys : Nat → Option Bytes
  kyberUsed : Finset Nat
  senderKeys : Text → Option Bytes
  small : registrationId < 2 ^ 32

namespace InMemoryProtocolStore

theorem seven_lt : 7 < 2 ^ 32 := by
  decide

variable (store : InMemoryProtocolStore)

/-- Replaces the session record of an address. -/
def saveSession (name : ProtocolAddress) (record : Bytes) : InMemoryProtocolStore :=
  { store with
    sessions := Function.update store.sessions name.toText (some record) }

/-- The session record of an address. -/
def getSession (name : ProtocolAddress) : Option Bytes :=
  store.sessions name.toText

/-- Replaces the identity known for an address. -/
def saveIdentity (name : ProtocolAddress) (key : Bytes) : InMemoryProtocolStore :=
  { store with
    identities := Function.update store.identities name.toText (some key) }

/-- Unknown is trusted, and so is a key that is known. -/
def isTrustedIdentity (name : ProtocolAddress) (key : Bytes) : Bool :=
  match store.identities name.toText with
  | none => true
  | some known => WasmApi.bytesEqual known key

/-- Replaces the record of a one-time key. -/
def savePreKey (id : Nat) (record : Bytes) : InMemoryProtocolStore :=
  { store with preKeys := Function.update store.preKeys id (some record) }

/-- The record of a one-time key, or it throws. -/
def getPreKey (id : Nat) : Outcome Thrown Bytes :=
  Outcome.ofOption (invalidKeyId "prekey" id) (store.preKeys id)

/-- Deletes a one-time key. -/
def removePreKey (id : Nat) : InMemoryProtocolStore :=
  { store with preKeys := Function.update store.preKeys id none }

/-- Replaces the record of a signed key. -/
def saveSignedPreKey (id : Nat) (record : Bytes) : InMemoryProtocolStore :=
  { store with
    signedPreKeys := Function.update store.signedPreKeys id (some record) }

/-- The record of a signed key, or it throws. -/
def getSignedPreKey (id : Nat) : Outcome Thrown Bytes :=
  Outcome.ofOption (invalidKeyId "signed prekey" id) (store.signedPreKeys id)

/-- Replaces the record of a post-quantum key. -/
def saveKyberPreKey (id : Nat) (record : Bytes) : InMemoryProtocolStore :=
  { store with
    kyberPreKeys := Function.update store.kyberPreKeys id (some record) }

/-- The record of a post-quantum key, or it throws. -/
def getKyberPreKey (id : Nat) : Outcome Thrown Bytes :=
  Outcome.ofOption (invalidKeyId "kyber prekey" id) (store.kyberPreKeys id)

/-- Only the host looks at what is marked. -/
def markKyberPreKeyUsed (id : Nat) : InMemoryProtocolStore :=
  { store with kyberUsed := store.kyberUsed ∪ {id} }

end InMemoryProtocolStore

section SenderKeys

variable [LowerCase]

/--
The key of a circle in the store: the sender and the distribution id in lower
case.
-/
def senderKeyName (sender : ProtocolAddress) (distributionId : Text) : Text :=
  sender.toText ++ ascii "|" ++ LowerCase.toLowerCase distributionId

namespace InMemoryProtocolStore

/-- Replaces the circle of a sender. -/
def saveSenderKey
    (store : InMemoryProtocolStore)
    (sender : ProtocolAddress)
    (distributionId : Text)
    (record : Bytes) :
    InMemoryProtocolStore :=
  { store with
    senderKeys :=
      Function.update store.senderKeys (senderKeyName sender distributionId)
        (some record) }

/-- The circle of a sender. -/
def getSenderKey
    (store : InMemoryProtocolStore)
    (sender : ProtocolAddress)
    (distributionId : Text) :
    Option Bytes :=
  store.senderKeys (senderKeyName sender distributionId)

end InMemoryProtocolStore

end SenderKeys

/-! ## What awaits -/

/-- An asynchronous function; what it throws ends it. -/
def Async (α : Type) : Type :=
  Routine InMemoryProtocolStore (Outcome Thrown α)

namespace Async

/-- What goes on with a value, and not with what was thrown. -/
def follow {α β : Type} (next : α → Async β) : Outcome Thrown α → Async β
  | .ok value => next value
  | .error thrown => Routine.done (.error thrown)
  | .trap => Routine.done .trap

instance : Monad Async where
  pure value := Routine.done (.ok value)
  bind first next := Routine.bind first (follow next)

/-- What is computed between two awaits. -/
def lift {α : Type} (outcome : Outcome Thrown α) : Async α :=
  Routine.done outcome

/-- What the core computes; its texts are ASCII. -/
def core {α : Type} (outcome : Outcome GossveilError α) : Async α :=
  lift (outcome.mapError fun error => ⟨error.status, ascii error.message⟩)

/-- A method that looks at the store is called and awaited. -/
def read {α : Type} (look : InMemoryProtocolStore → Outcome Thrown α) : Async α :=
  Routine.piece id fun store => Routine.done (look store)

/-- A method that changes the store is called and awaited. -/
def write (change : InMemoryProtocolStore → InMemoryProtocolStore) : Async Unit :=
  Routine.piece change fun _ => Routine.done (.ok ())

end Async

/-! ## Messages -/

/-- A sealed message, as the client hands it on. -/
structure CiphertextMessage where
  messageType : Nat
  bytes : Bytes
  deriving DecidableEq

/-- The bytes of a message that parses. -/
structure WhisperMessage where
  bytes : Bytes
  isParsed : ∃ message, Whisper.parse bytes = .ok message

/-- The bytes of a first message that parses, and what they say. -/
structure PreKeyMessage where
  bytes : Bytes
  info : Bridge.OpenerInfo
  inner : Bytes
  isParsed : Bridge.openerParse bytes = .ok (info, inner)

/-- The message says of itself what it parses to. -/
theorem PreKeyMessage.info_eq
    {message : PreKeyMessage}
    {first : Opener}
    (parsed : Opener.parse message.bytes = .ok first) :
    message.info =
      ⟨first.version, first.registrationId, first.oneTimeId, first.signedId,
        first.pqId, first.base.serialize, first.identity.serialize⟩ := by
  obtain ⟨again, isAgain, same⟩ := Outcome.bind_eq_ok.mp message.isParsed
  have isAgain := Outcome.mapError_eq_ok.mp (Outcome.mapError_eq_ok.mp isAgain)
  obtain rfl := Outcome.ok.inj (parsed.symm.trans isAgain)
  exact (Prod.mk.inj (Outcome.ok.inj same)).1.symm

/-- The bytes of an announcement that parses, and the id of its circle. -/
structure SenderKeyDistributionMessage where
  bytes : Bytes
  announced : Circle.Announce
  distributionId : Text
  isParsed : Bridge.announceParse bytes = .ok announced
  isText : bytesToUuid announced.circleId.bytes = .ok distributionId

/-- What a peer published; a one-time key goes with its id. -/
structure PreKeyBundle where
  registrationId : Nat
  deviceId : Nat
  preKeyId : Option Nat
  preKey : Option Bytes
  signedPreKeyId : Nat
  signedPreKey : Bytes
  signedPreKeySignature : Bytes
  identityKey : Bytes
  kyberPreKeyId : Nat
  kyberPreKey : Bytes
  kyberPreKeySignature : Bytes

/-- The bundle as the bridge lays it out; ids are cut to their fields. -/
def PreKeyBundle.published (bundle : PreKeyBundle) : GvPublished where
  registrationId := bundle.registrationId % 2 ^ 32
  device := bundle.deviceId % 2 ^ 32
  oneTimeId :=
    match bundle.preKeyId with
    | none => -1
    | some id => Int.bmod id (2 ^ 64)
  oneTime := bundle.preKey.getD []
  signedId := bundle.signedPreKeyId % 2 ^ 32
  signedKey := bundle.signedPreKey
  signedSignature := bundle.signedPreKeySignature
  identity := bundle.identityKey
  pqId := bundle.kyberPreKeyId % 2 ^ 32
  pqKey := bundle.kyberPreKey
  pqSignature := bundle.kyberPreKeySignature

/-- What one call draws, and the date it is given or its clock shows. -/
structure Draws where
  nowSecs : Nat
  start : StartDraws
  sealing : Braid.Draw
  opening : Nat → Block 32
  chain : Circle.Draw
  note : Block 64

/-! ## The calls -/

/-- The identity of the record's live state is checked, saved, and the record too. -/
def commit
    (draws : Draws)
    (record : Bytes)
    (address : ProtocolAddress) :
    Async Unit := do
  let info ← Async.core (Bridge.sessionInfo record draws.nowSecs)
  let theirIdentity := info.remoteIdentity
  let trusted ← Async.read fun store =>
    .ok (store.isTrustedIdentity address theirIdentity)
  Async.lift (Outcome.require (untrusted address) (trusted = true))
  Async.write (·.saveIdentity address theirIdentity)
  Async.write (·.saveSession address record)

section Sessions

variable [Hashes] [Curves] [Aes] [Kem]

/--
Trust is checked first; then the session starts, and the identity and the
record are saved.
-/
def processBundle
    [Capsules]
    (draws : Draws)
    (bundle : PreKeyBundle)
    (address : ProtocolAddress) :
    Async Unit := do
  let trusted ← Async.read fun store =>
    .ok (store.isTrustedIdentity address bundle.identityKey)
  Async.lift (Outcome.require (untrusted address) (trusted = true))
  let identity ← Async.read fun store => .ok store.identity
  let registrationId ← Async.read fun store => .ok store.registrationId
  let existing ← Async.read fun store => .ok (store.getSession address)
  let record ←
    Async.core
      (Bridge.sessionStart draws.start identity registrationId
        (existing.getD []) bundle.published draws.nowSecs)
  Async.write (·.saveIdentity address bundle.identityKey)
  Async.write (·.saveSession address record)

/--
Seals on the record of the address; the core comes before the trust check.
-/
def sessionEncrypt
    (draws : Draws)
    (message : Bytes)
    (address : ProtocolAddress)
    (localAddress : Option ProtocolAddress) :
    Async CiphertextMessage := do
  let session ← Async.read fun store => .ok (store.getSession address)
  let session ←
    Async.lift (Outcome.ofOption (sessionNotFound address) session)
  let (kind, sealed, record) ←
    Async.core
      (Bridge.sessionSeal session message draws.nowSecs
        (binding localAddress (some address)) draws.sealing)
  let info ← Async.core (Bridge.sessionInfo record draws.nowSecs)
  let trusted ← Async.read fun store =>
    .ok (store.isTrustedIdentity address info.remoteIdentity)
  Async.lift (Outcome.require (untrusted address) (trusted = true))
  Async.write (·.saveSession address record)
  return ⟨kind, sealed⟩

/--
Opens on the record of the address; the core comes before the trust check.
-/
def sessionDecrypt
    (draws : Draws)
    (message : WhisperMessage)
    (address : ProtocolAddress)
    (localAddress : Option ProtocolAddress) :
    Async Bytes := do
  let session ← Async.read fun store => .ok (store.getSession address)
  let session ←
    Async.lift (Outcome.ofOption (sessionNotFound address) session)
  let (plain, record) ←
    Async.core
      (Bridge.sessionOpen draws.opening session message.bytes
        (binding (some address) localAddress))
  commit draws record address
  return plain

/-- The record of a key the message may name; none is passed as no bytes. -/
def named
    (get : InMemoryProtocolStore → Nat → Outcome Thrown Bytes)
    (id : Option Nat) :
    Async Bytes :=
  match id with
  | none => return []
  | some id => Async.read fun store => get store id

/-- A change for a key that is named. -/
def change
    (update : InMemoryProtocolStore → Nat → InMemoryProtocolStore)
    (id : Option Nat) :
    Async Unit :=
  match id with
  | none => return ()
  | some id => Async.write fun store => update store id

/--
Trust is checked first; then the keys are looked up, and those used up are
deleted.
-/
def sessionDecryptPreKey
    [Capsules]
    (draws : Draws)
    (message : PreKeyMessage)
    (address : ProtocolAddress)
    (localAddress : Option ProtocolAddress) :
    Async Bytes := do
  let trusted ← Async.read fun store =>
    .ok (store.isTrustedIdentity address message.info.identity)
  Async.lift (Outcome.require (untrusted address) (trusted = true))
  let identity ← Async.read fun store => .ok store.identity
  let registrationId ← Async.read fun store => .ok store.registrationId
  let existing ← Async.read fun store => .ok (store.getSession address)
  let signed ← Async.read fun store =>
    store.getSignedPreKey message.info.signedId
  let oneTime ←
    named InMemoryProtocolStore.getPreKey message.info.oneTimeId
  let pqId := message.info.pqId
  let pq ← named InMemoryProtocolStore.getKyberPreKey pqId
  let (plain, record, consumed) ←
    Async.core
      (Bridge.sessionOpenFirst draws.opening identity registrationId
        (existing.getD []) message.bytes signed oneTime pq
        (binding (some address) localAddress))
  commit draws record address
  match consumed with
  | none => return plain
  | some consumed =>
      change InMemoryProtocolStore.removePreKey consumed.oneTimeId
      change InMemoryProtocolStore.markKyberPreKeyUsed pqId
      return plain

end Sessions

section Groups

variable [LowerCase]

/-- Admits a chain to the circle of the sender. -/
def processSenderKeyDistributionMessage
    (sender : ProtocolAddress)
    (message : SenderKeyDistributionMessage) :
    Async Unit := do
  let existing ← Async.read fun store =>
    .ok (store.getSenderKey sender message.distributionId)
  let record ←
    Async.core (Bridge.circleAdmit (existing.getD []) message.bytes)
  Async.write (·.saveSenderKey sender message.distributionId record)

variable [Curves]

/-- `SenderKeyDistributionMessage.create` -/
def createDistribution
    (draws : Draws)
    (sender : ProtocolAddress)
    (distributionId : Text) :
    Async Bytes := do
  let existing ← Async.read fun store =>
    .ok (store.getSenderKey sender distributionId)
  let circleId ← Async.lift (uuidToBytes distributionId)
  let (record, announcement) ←
    Async.core
      (Bridge.circleAnnounce (existing.getD []) circleId.bytes draws.chain)
  Async.write (·.saveSenderKey sender distributionId record)
  let _ ← Async.core (Bridge.announceParse announcement)
  return announcement

variable [Hashes] [Aes]

/-- Seals a note on the circle of the sender, which has to be there. -/
def groupEncrypt
    (draws : Draws)
    (sender : ProtocolAddress)
    (distributionId : Text)
    (message : Bytes) :
    Async CiphertextMessage := do
  let record ← Async.read fun store =>
    .ok (store.getSenderKey sender distributionId)
  let record ←
    Async.lift
      (Outcome.ofOption (senderKeyNotFound sender distributionId) record)
  let circleId ← Async.lift (uuidToBytes distributionId)
  let (note, updated) ←
    Async.core (Bridge.circleSeal record circleId.bytes message draws.note)
  Async.write (·.saveSenderKey sender distributionId updated)
  return ⟨7, note⟩

/-- The circle a note names is looked up first. -/
def groupDecrypt (sender : ProtocolAddress) (message : Bytes) : Async Bytes := do
  let note ← Async.core (Bridge.noteParse message)
  let distributionId ← Async.lift (bytesToUuid note.circleId.bytes)
  let record ← Async.read fun store =>
    .ok (store.getSenderKey sender distributionId)
  let record ←
    Async.lift
      (Outcome.ofOption (senderKeyNotFound sender distributionId) record)
  let (plain, updated) ← Async.core (Bridge.circleOpen record message)
  Async.write (·.saveSenderKey sender distributionId updated)
  return plain

end Groups

end Api

end Gossveil
