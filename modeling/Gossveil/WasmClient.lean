import Gossveil.Bridge

namespace Gossveil.WasmApi

open Abi Bridge Ratchet

/-!
# The in-memory client

The stores of the web client and its calls on them.  A call runs until it
awaits one of the stores; what it goes on with is kept until it is resumed, and
other calls may run in between.  Each part of a call that runs in one piece
ends before it writes when it throws.

The stores are objects and stand here under the numbers of their handles.
-/

/-! ## Addresses and stores -/

/-- A name and a device number; the name is not empty. -/
structure WasmProtocolAddress where
  name : String
  deviceId : Nat
  named : name.length ≠ 0
  small : deviceId < 2 ^ 32

namespace WasmProtocolAddress

/-- The address as a key of the stores. -/
def toText (address : WasmProtocolAddress) : String :=
  address.name ++ "." ++ toString address.deviceId

end WasmProtocolAddress

/-- The names of both sides, as the core is passed them. -/
def binding (sender recipient : WasmProtocolAddress) : Option Binding :=
  bindingFrom sender.name.toUTF8.toList sender.deviceId
    recipient.name.toUTF8.toList recipient.deviceId

/-- Thrown when another identity is known for the address. -/
def untrusted (address : WasmProtocolAddress) : GossveilError :=
  ⟨.untrustedIdentity, "untrusted identity for " ++ address.toText⟩

/-- Thrown when there is no record to send on. -/
def sessionNotFound (address : WasmProtocolAddress) : GossveilError :=
  ⟨.noSession, "no session for " ++ address.toText⟩

/-- Thrown when a key is not in its store. -/
def invalidKeyId (what : String) (id : Nat) : GossveilError :=
  ⟨.unknownKeyId, "no " ++ what ++ " " ++ toString id⟩

/-- Equal lengths, and no byte that differs. -/
def bytesEqual (a b : Bytes) : Bool :=
  if a.length ≠ b.length then
    false
  else
    (List.zipWith (· ^^^ ·) a b).foldl (· ||| ·) 0 = 0

/-- The own identity and those known of others. -/
structure WasmInMemIdentityKeyStore where
  privateKey : Bytes
  registrationId : Nat
  known : String → Option Bytes
  small : registrationId < 2 ^ 32

namespace WasmInMemIdentityKeyStore

/-- Trust on first use: unknown is trusted, a changed key is not. -/
def isTrusted
    (store : WasmInMemIdentityKeyStore)
    (address : WasmProtocolAddress)
    (identity : Bytes) :
    Bool :=
  match store.known address.toText with
  | none => true
  | some known => bytesEqual known identity

/-- Whether a known identity was replaced is returned as well. -/
def save
    (store : WasmInMemIdentityKeyStore)
    (address : WasmProtocolAddress)
    (identity : Bytes) :
    Bool × WasmInMemIdentityKeyStore :=
  let changed :=
    match store.known address.toText with
    | none => false
    | some known => !bytesEqual known identity
  (changed,
    { store with
      known := Function.update store.known address.toText (some identity) })

end WasmInMemIdentityKeyStore

/-- The records of a store by their ids. -/
abbrev RecordStore :=
  Nat → Option Bytes

/-- The record of an id, which is taken as 32 bits. -/
def RecordStore.get (store : RecordStore) (id : Nat) : Option Bytes :=
  store (id % 2 ^ 32)

/-- Deletes the record of an id. -/
def RecordStore.drop (store : RecordStore) (id : Nat) : RecordStore :=
  Function.update store (id % 2 ^ 32) none

/-- The post-quantum records, and which of them have been used. -/
structure WasmInMemKyberPreKeyStore where
  records : RecordStore
  used : Nat → Bool

/-- Marks an id as used; its record stays. -/
def WasmInMemKyberPreKeyStore.markUsed
    (store : WasmInMemKyberPreKeyStore)
    (id : Nat) :
    WasmInMemKyberPreKeyStore :=
  { store with used := Function.update store.used (id % 2 ^ 32) true }

/-- The session records by address. -/
abbrev WasmInMemSessionStore :=
  String → Option Bytes

/-- The record of an address, empty if there is none. -/
def WasmInMemSessionStore.load
    (store : WasmInMemSessionStore)
    (address : WasmProtocolAddress) :
    Bytes :=
  (store address.toText).getD []

/-- Replaces the record of an address. -/
def WasmInMemSessionStore.store
    (store : WasmInMemSessionStore)
    (address : WasmProtocolAddress)
    (record : Bytes) :
    WasmInMemSessionStore :=
  Function.update store address.toText (some record)

/-- All stores, each kind by its handles. -/
structure Stores where
  sessions : Nat → WasmInMemSessionStore
  identities : Nat → WasmInMemIdentityKeyStore
  preKeys : Nat → RecordStore
  signedPreKeys : Nat → RecordStore
  kyberPreKeys : Nat → WasmInMemKyberPreKeyStore

namespace Stores

/-- Replaces one session store. -/
def setSessions
    (stores : Stores)
    (handle : Nat)
    (store : WasmInMemSessionStore) :
    Stores :=
  { stores with sessions := Function.update stores.sessions handle store }

/-- Replaces one identity store. -/
def setIdentities
    (stores : Stores)
    (handle : Nat)
    (store : WasmInMemIdentityKeyStore) :
    Stores :=
  { stores with identities := Function.update stores.identities handle store }

/-- Replaces one store of one-time keys. -/
def setPreKeys (stores : Stores) (handle : Nat) (store : RecordStore) : Stores :=
  { stores with preKeys := Function.update stores.preKeys handle store }

/-- Replaces one store of post-quantum keys. -/
def setKyberPreKeys
    (stores : Stores)
    (handle : Nat)
    (store : WasmInMemKyberPreKeyStore) :
    Stores :=
  { stores with
    kyberPreKeys := Function.update stores.kyberPreKeys handle store }

/-- The identity pinned for an address in one of the identity stores. -/
def pinned
    (stores : Stores)
    (handle : Nat)
    (address : WasmProtocolAddress) :
    Option Bytes :=
  (stores.identities handle).known address.toText

end Stores

/-! ## The calls -/

/-- What one part of a call may draw, and the clock it reads. -/
structure Host where
  nowSecs : Nat
  start : StartDraws
  sealing : Braid.Draw
  opening : Nat → Block 32

/-- `commit`: the identity of the record's live state is checked and pinned. -/
def commit
    (host : Host)
    (stores : Stores)
    (record : Bytes)
    (sender : WasmProtocolAddress)
    (sessions identities : Nat) :
    Outcome GossveilError Stores := do
  let info ← sessionInfo record host.nowSecs
  let theirIdentity := info.remoteIdentity
  let store := stores.identities identities
  Outcome.require (untrusted sender)
    (store.isTrusted sender theirIdentity = true)
  let stores :=
    stores.setIdentities identities (store.save sender theirIdentity).2
  return stores.setSessions sessions
    ((stores.sessions sessions).store sender record)

/-- What `processPreKeyBundle` is passed. -/
structure BundleArguments where
  recipient : WasmProtocolAddress
  registrationId : Nat
  identityKey : Bytes
  signedPrekeyId : Nat
  signedPrekey : Bytes
  signedPrekeySignature : Bytes
  prekeyId : Option Nat
  prekey : Option Bytes
  kyberPrekeyId : Nat
  kyberPrekey : Bytes
  kyberPrekeySignature : Bytes
  sessionStore : Nat
  identityStore : Nat

/-- The bundle as the bridge lays it out; ids are cut to their fields. -/
def BundleArguments.published (arguments : BundleArguments) : GvPublished where
  registrationId := arguments.registrationId % 2 ^ 32
  device := arguments.recipient.deviceId
  oneTimeId :=
    match arguments.prekeyId with
    | none => -1
    | some id => Int.bmod id (2 ^ 64)
  oneTime := arguments.prekey.getD []
  signedId := arguments.signedPrekeyId % 2 ^ 32
  signedKey := arguments.signedPrekey
  signedSignature := arguments.signedPrekeySignature
  identity := arguments.identityKey
  pqId := arguments.kyberPrekeyId % 2 ^ 32
  pqKey := arguments.kyberPrekey
  pqSignature := arguments.kyberPrekeySignature

/-- What `encryptMessage` is passed. -/
structure EncryptArguments where
  plaintext : Bytes
  recipient : WasmProtocolAddress
  localAddress : WasmProtocolAddress
  sessionStore : Nat
  identityStore : Nat

/-- A sealed message, as the client hands it on. -/
structure WasmCiphertext where
  messageType : Nat
  body : Bytes
  deriving DecidableEq

/-- What `decryptMessage` is passed. -/
structure DecryptArguments where
  ciphertext : Bytes
  messageType : Nat
  sender : WasmProtocolAddress
  localAddress : WasmProtocolAddress
  sessionStore : Nat
  identityStore : Nat
  prekeyStore : Nat
  signedPrekeyStore : Nat
  kyberPrekeyStore : Nat

/--
Where `decryptMessage` awaits a store, with what it has read so far.  A store
answers when it is asked, so its answer is part of the state.
-/
inductive Awaiting where
  | signedPreKey
      (existing : Bytes)
      (info : OpenerInfo)
      (answer : Option Bytes)
  | preKey
      (existing : Bytes)
      (info : OpenerInfo)
      (signed : Bytes)
      (id : Nat)
      (answer : Option Bytes)
  | kyberPreKey
      (existing : Bytes)
      (info : OpenerInfo)
      (signed oneTime : Bytes)
      (id : Nat)
      (answer : Option Bytes)
  | removal (info : OpenerInfo) (plain : Bytes)

/-- How far a call has got. -/
inductive Progress where
  | awaits (point : Awaiting)
  | returns (plain : Bytes)

section Calls

variable [Hashes] [Curves] [Aes] [Kem] [Capsules]

/--
Trust is checked first; then the session starts, and the identity and the
record are saved.
-/
def processPreKeyBundle
    (host : Host)
    (stores : Stores)
    (arguments : BundleArguments) :
    Outcome GossveilError Stores := do
  let store := stores.identities arguments.identityStore
  let identity := arguments.identityKey
  Outcome.require (untrusted arguments.recipient)
    (store.isTrusted arguments.recipient identity = true)
  let sessions := stores.sessions arguments.sessionStore
  let record ←
    sessionStart host.start store.privateKey store.registrationId
      (sessions.load arguments.recipient) arguments.published host.nowSecs
  let stores :=
    stores.setIdentities arguments.identityStore
      (store.save arguments.recipient identity).2
  return stores.setSessions arguments.sessionStore
    (sessions.store arguments.recipient record)

omit [Capsules] in
/--
Seals on the record of the recipient, which has to be there, and saves it.
-/
def encryptMessage
    (host : Host)
    (stores : Stores)
    (arguments : EncryptArguments) :
    Outcome GossveilError (Stores × WasmCiphertext) := do
  let sessions := stores.sessions arguments.sessionStore
  let existing := sessions.load arguments.recipient
  Outcome.require (sessionNotFound arguments.recipient) (existing.length ≠ 0)
  let (kind, sealed, record) ←
    sessionSeal existing arguments.plaintext host.nowSecs
      (binding arguments.localAddress arguments.recipient) host.sealing
  let info ← sessionInfo record host.nowSecs
  let store := stores.identities arguments.identityStore
  Outcome.require (untrusted arguments.recipient)
    (store.isTrusted arguments.recipient info.remoteIdentity = true)
  let stores :=
    stores.setSessions arguments.sessionStore
      (sessions.store arguments.recipient record)
  return (stores, ⟨kind, sealed⟩)

/-- The end of `decryptMessage` on a first message, from its last record on. -/
def openFirstMessage
    (host : Host)
    (stores : Stores)
    (arguments : DecryptArguments)
    (existing : Bytes)
    (info : OpenerInfo)
    (signed oneTime pq : Bytes) :
    Outcome GossveilError (Stores × Progress) := do
  let store := stores.identities arguments.identityStore
  let (plain, record, consumed) ←
    sessionOpenFirst host.opening store.privateKey store.registrationId
      existing arguments.ciphertext signed oneTime pq
      (binding arguments.sender arguments.localAddress)
  let stores ←
    commit host stores record arguments.sender arguments.sessionStore
      arguments.identityStore
  match consumed with
  | none => return (stores, .returns plain)
  | some consumed =>
      match consumed.oneTimeId with
      | some id =>
          let preKeys := stores.preKeys arguments.prekeyStore
          return (stores.setPreKeys arguments.prekeyStore (preKeys.drop id),
            .awaits (.removal info plain))
      | none =>
          let kyber := stores.kyberPreKeys arguments.kyberPrekeyStore
          return (match info.pqId with
            | some id =>
                stores.setKyberPreKeys arguments.kyberPrekeyStore
                  (kyber.markUsed id)
            | none => stores, .returns plain)

/-- `decryptMessage` once the one-time key is known. -/
def askKyberPreKey
    (host : Host)
    (stores : Stores)
    (arguments : DecryptArguments)
    (existing : Bytes)
    (info : OpenerInfo)
    (signed oneTime : Bytes) :
    Outcome GossveilError (Stores × Progress) :=
  match info.pqId with
  | some id =>
      .ok (stores, .awaits (.kyberPreKey existing info signed oneTime id
        ((stores.kyberPreKeys arguments.kyberPrekeyStore).records.get id)))
  | none => openFirstMessage host stores arguments existing info signed oneTime []

/-- `decryptMessage` up to its first await. -/
def decryptMessage
    (host : Host)
    (stores : Stores)
    (arguments : DecryptArguments) :
    Outcome GossveilError (Stores × Progress) := do
  let sessions := stores.sessions arguments.sessionStore
  let existing := sessions.load arguments.sender
  if arguments.messageType = Kind.first.code then
    let (info, _) ← openerParse arguments.ciphertext
    let store := stores.identities arguments.identityStore
    Outcome.require (untrusted arguments.sender)
      (store.isTrusted arguments.sender info.identity = true)
    return (stores, .awaits (.signedPreKey existing info
      ((stores.signedPreKeys arguments.signedPrekeyStore).get info.signedId)))
  else if arguments.messageType = Kind.whisper.code then
    Outcome.require (sessionNotFound arguments.sender) (existing.length ≠ 0)
    let (plain, record) ←
      sessionOpen host.opening existing arguments.ciphertext
        (binding arguments.sender arguments.localAddress)
    let stores ←
      commit host stores record arguments.sender arguments.sessionStore
        arguments.identityStore
    return (stores, .returns plain)
  else
    .error ⟨.badMessage,
      "unknown message type " ++ toString arguments.messageType⟩

/-- `decryptMessage` from one await to the next. -/
def resumeDecrypt
    (host : Host)
    (stores : Stores)
    (arguments : DecryptArguments) :
    Awaiting → Outcome GossveilError (Stores × Progress)
  | .signedPreKey existing info answer => do
      let signed ←
        Outcome.ofOption (invalidKeyId "signed prekey" info.signedId) answer
      match info.oneTimeId with
      | some id =>
          return (stores, .awaits (.preKey existing info signed id
            ((stores.preKeys arguments.prekeyStore).get id)))
      | none => askKyberPreKey host stores arguments existing info signed []
  | .preKey existing info signed id answer => do
      let oneTime ← Outcome.ofOption (invalidKeyId "prekey" id) answer
      askKyberPreKey host stores arguments existing info signed oneTime
  | .kyberPreKey existing info signed oneTime id answer => do
      let pq ← Outcome.ofOption (invalidKeyId "kyber prekey" id) answer
      openFirstMessage host stores arguments existing info signed oneTime pq
  | .removal info plain =>
      let kyber := stores.kyberPreKeys arguments.kyberPrekeyStore
      .ok (match info.pqId with
        | some id =>
            stores.setKyberPreKeys arguments.kyberPrekeyStore
              (kyber.markUsed id)
        | none => stores, .returns plain)

end Calls

/-- `import_identity`. -/
def importIdentity
    (stores : Stores)
    (identities : Nat)
    (address : WasmProtocolAddress)
    (identity : Bytes) :
    Outcome GossveilError Stores := do
  curveCheck identity
  let store := stores.identities identities
  return stores.setIdentities identities
    { store with
      known := Function.update store.known address.toText (some identity) }

/-! ## Interleavings -/

/-- What a host does next. -/
inductive Action where
  | importIdentity
      (identities : Nat)
      (address : WasmProtocolAddress)
      (identity : Bytes)
  | processPreKeyBundle (arguments : BundleArguments)
  | encryptMessage (arguments : EncryptArguments)
  | decryptMessage (arguments : DecryptArguments)
  /-- A call that awaits a store goes on. -/
  | resume (index : Nat)

/-- What is remembered of a run. -/
inductive Event where
  | imported (identities : Nat) (address : WasmProtocolAddress)
  /-- The core opened a message, with the record the call had loaded. -/
  | opened
      (arguments : DecryptArguments)
      (record plain : Bytes)
      (pinned : Option Bytes)
  | returned
      (arguments : DecryptArguments)
      (plain : Bytes)
      (pinned : Option Bytes)

/-- The stores, the calls that wait and what has happened. -/
structure Client where
  stores : Stores
  pending : List (DecryptArguments × Awaiting)
  log : List Event

/-- The record a call has loaded and not opened its message with yet. -/
def Awaiting.existing : Awaiting → Option Bytes
  | .signedPreKey existing _ _
  | .preKey existing _ _ _ _
  | .kyberPreKey existing _ _ _ _ _ => some existing
  | .removal _ _ => none

/-- The plaintext of a call whose message is open. -/
def Progress.opened : Progress → Option Bytes
  | .returns plain
  | .awaits (.removal _ plain) => some plain
  | .awaits _ => none

namespace Client

/-- A client on these stores, before its first call. -/
def start (stores : Stores) : Client :=
  ⟨stores, [], []⟩

/-- What a part of a call adds to what is remembered. -/
def events
    (arguments : DecryptArguments)
    (record : Option Bytes)
    (pinned : Option Bytes)
    (progress : Progress) :
    List Event :=
  (match record, progress.opened with
    | some record, some plain => [.opened arguments record plain pinned]
    | _, _ => []) ++
    match progress with
    | .returns plain => [.returned arguments plain pinned]
    | .awaits _ => []

/-- The end of a part of `decryptMessage`; what throws is gone. -/
def settle
    (client : Client)
    (arguments : DecryptArguments)
    (record : Option Bytes) :
    Outcome GossveilError (Stores × Progress) →
    Client
  | .ok (stores, progress) =>
      let pinned := stores.pinned arguments.identityStore arguments.sender
      ⟨stores,
        client.pending ++
          (match progress with
            | .awaits point => [(arguments, point)]
            | .returns _ => []),
        client.log ++ events arguments record pinned progress⟩
  | _ => client

/-- The stores after a call that runs in one piece. -/
def write (client : Client) : Outcome GossveilError Stores → Client
  | .ok stores => { client with stores := stores }
  | _ => client

variable [Hashes] [Curves] [Aes] [Kem] [Capsules]

/-- Performs one action. -/
def step (host : Host) (client : Client) : Action → Client
  | .importIdentity identities address identity =>
      match importIdentity client.stores identities address identity with
      | .ok stores =>
          { client with
            stores := stores
            log := client.log ++ [.imported identities address] }
      | _ => client
  | .processPreKeyBundle arguments =>
      client.write (processPreKeyBundle host client.stores arguments)
  | .encryptMessage arguments =>
      client.write
        (Prod.fst <$> encryptMessage host client.stores arguments)
  | .decryptMessage arguments =>
      client.settle arguments
        (some ((client.stores.sessions arguments.sessionStore).load
          arguments.sender))
        (decryptMessage host client.stores arguments)
  | .resume index =>
      match client.pending[index]? with
      | none => client
      | some (arguments, point) =>
          { client with pending := client.pending.eraseIdx index }.settle
            arguments point.existing
            (resumeDecrypt host client.stores arguments point)

/-- The actions one after the other. -/
def run (client : Client) (actions : List (Host × Action)) : Client :=
  actions.foldl (fun client turn => client.step turn.1 turn.2) client

end Client

end Gossveil.WasmApi
