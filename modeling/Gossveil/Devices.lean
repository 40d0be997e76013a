import Gossveil.BridgeRuns
import Gossveil.InOrder
import Gossveil.WasmTrust

namespace Gossveil

open Abi Ratchet TwoParty

/-!
# Two devices that talk in order

Each device keeps its sessions in a store of its own and calls the client.  One
of them has processed the bundle of the other; from then on both encrypt, and
each decrypts the messages of the other in the order they were encrypted.  What
the stores hold are the records of a session of the core that is in step, so
every call returns what it promises, or there was no room for its record.
-/

namespace Api

/-- Both devices, and the address each is known by. -/
structure Setting where
  parties : Parties
  address : Side → ProtocolAddress

/-- Two stores, and what each device has sent and read. -/
structure Devices where
  store : Side → InMemoryProtocolStore
  sent : Side → List (Bytes × CiphertextMessage)
  read : Side → List Bytes

namespace Devices

/-- Two stores before anything is sent. -/
def start (store : Side → InMemoryProtocolStore) : Devices :=
  ⟨store, fun _ => [], fun _ => []⟩

/-- The message a device decrypts next. -/
def next (devices : Devices) (side : Side) : Option (Bytes × CiphertextMessage) :=
  (devices.sent side.other)[(devices.read side).length]?

/-- A device keeps a new store. -/
def keep
    (devices : Devices)
    (side : Side)
    (store : InMemoryProtocolStore) :
    Devices :=
  { devices with store := Function.update devices.store side store }

/-- Remembers what a device has sent. -/
def logSent
    (devices : Devices)
    (side : Side)
    (letter : Bytes × CiphertextMessage) :
    Devices :=
  { devices with
    sent :=
      Function.update devices.sent side (devices.sent side ++ [letter]) }

/-- Remembers what a device has read. -/
def logRead (devices : Devices) (side : Side) (text : Bytes) : Devices :=
  { devices with
    read := Function.update devices.read side (devices.read side ++ [text]) }

section Fields

variable
  (devices : Devices)
  (side : Side)
  (store : InMemoryProtocolStore)
  (letter : Bytes × CiphertextMessage)
  (text : Bytes)

omit devices in
/-- A device begins with the store it is given. -/
theorem store_start_update (stores : Side → InMemoryProtocolStore) :
    (start (Function.update stores side store)).store side = store := by
  simp only [start, Function.update_self]

@[simp] theorem store_keep_self : (devices.keep side store).store side = store :=
  Function.update_self ..

@[simp] theorem store_keep_other :
    (devices.keep side store).store side.other = devices.store side.other :=
  Function.update_of_ne (Side.other_ne side) _ _

@[simp] theorem sent_keep : (devices.keep side store).sent = devices.sent :=
  rfl

@[simp] theorem read_keep : (devices.keep side store).read = devices.read :=
  rfl

@[simp] theorem store_logSent :
    (devices.logSent side letter).store = devices.store :=
  rfl

@[simp] theorem sent_logSent_self :
    (devices.logSent side letter).sent side = devices.sent side ++ [letter] :=
  Function.update_self ..

@[simp] theorem sent_logSent_other :
    (devices.logSent side letter).sent side.other = devices.sent side.other :=
  Function.update_of_ne (Side.other_ne side) _ _

@[simp] theorem read_logSent :
    (devices.logSent side letter).read = devices.read :=
  rfl

@[simp] theorem store_logRead :
    (devices.logRead side text).store = devices.store :=
  rfl

@[simp] theorem sent_logRead : (devices.logRead side text).sent = devices.sent :=
  rfl

@[simp] theorem read_logRead_self :
    (devices.logRead side text).read side = devices.read side ++ [text] :=
  Function.update_self ..

@[simp] theorem read_logRead_other :
    (devices.logRead side text).read side.other = devices.read side.other :=
  Function.update_of_ne (Side.other_ne side) _ _

end Fields

end Devices

/-- The call that decrypts a message of a type. -/
inductive Decrypts
    [Hashes] [Curves] [Aes] [Kem] [Capsules]
    (draws : Draws)
    (address : ProtocolAddress)
    (localAddress : Option ProtocolAddress) :
    CiphertextMessage → Async Bytes → Prop where
  | whisper (message : WhisperMessage) :
      Decrypts draws address localAddress ⟨2, message.bytes⟩
        (sessionDecrypt draws message address localAddress)
  | preKey (message : PreKeyMessage) :
      Decrypts draws address localAddress ⟨3, message.bytes⟩
        (sessionDecryptPreKey draws message address localAddress)

namespace Setting

variable (setting : Setting)

/-- A device passes its own address, or none. -/
def Local (side : Side) (localAddress : Option ProtocolAddress) : Prop :=
  localAddress = none ∨ localAddress = some (setting.address side)

/-- The names a message of a side is bound to. -/
def names (side : Side) : Option Binding :=
  binding (some (setting.address side)) (some (setting.address side.other))

/-- The store holds the records of the keys that the bundle names. -/
def Holds (store : InMemoryProtocolStore) : Prop :=
  ∃ signed oneTime pq,
    store.getSignedPreKey setting.parties.published.signedId = .ok signed ∧
      setting.parties.published.oneTimeId.elim (.ok []) store.getPreKey =
          .ok oneTime ∧
        store.getKyberPreKey setting.parties.published.pqId = .ok pq ∧
          offeredFrom signed oneTime pq = .ok setting.parties.offered

/-- What another call of the host may do to a store meanwhile. -/
structure Spares
    (side : Side)
    (store after : InMemoryProtocolStore) :
    Prop where
  identity : after.identity = store.identity
  registrationId : after.registrationId = store.registrationId
  sessions :
    after.getSession (setting.address side.other) =
      store.getSession (setting.address side.other)
  identities :
    after.identities (setting.address side.other).toText =
      store.identities (setting.address side.other).toText

/-- The key a device would draw has no lane in the other's record. -/
def Unused
    [Curves]
    (devices : Devices)
    (side : Side)
    (draw : Block 32) :
    Prop :=
  ∀ record archive state fresh,
    (devices.store side.other).getSession (setting.address side) =
        some record →
      archiveFrom record = .ok archive →
        archive.current = some state →
          Curve.Pair.fromSeed draw = .ok fresh →
            state.receivingLane fresh.publicKey = none

/-- The record says that its session may be sealed with. -/
def Usable (devices : Devices) (side : Side) (nowSecs : Nat) : Prop :=
  ∃ record info,
    (devices.store side).getSession (setting.address side.other) =
        some record ∧
      Bridge.sessionInfo record nowSecs = .ok info ∧ info.usable = true

variable [Hashes] [Curves] [Aes] [Kem] [Capsules]

/-- One call that ends, or what a host does meanwhile. -/
inductive Step (devices : Devices) : Devices → Prop where
  | encrypts
      (side : Side)
      {draws : Draws}
      {text : Bytes}
      {localAddress : Option ProtocolAddress}
      {message : CiphertextMessage}
      {after : InMemoryProtocolStore}
      (room : text.length < 2 ^ 53)
      (isLocal : setting.Local side localAddress)
      (ran :
        Async.run
            (sessionEncrypt draws text (setting.address side.other)
              localAddress)
            (devices.store side) =
          (after, .ok message)) :
      Step devices ((devices.keep side after).logSent side (text, message))
  | encryptThrows
      (side : Side)
      {draws : Draws}
      {text : Bytes}
      {localAddress : Option ProtocolAddress}
      {thrown : Thrown}
      {after : InMemoryProtocolStore}
      (room : text.length < 2 ^ 53)
      (isLocal : setting.Local side localAddress)
      (ran :
        Async.run
            (sessionEncrypt draws text (setting.address side.other)
              localAddress)
            (devices.store side) =
          (after, .error thrown)) :
      Step devices (devices.keep side after)
  | decrypts
      (side : Side)
      {draws : Draws}
      {text plain : Bytes}
      {localAddress : Option ProtocolAddress}
      {message : CiphertextMessage}
      {decryption : Async Bytes}
      {after : InMemoryProtocolStore}
      (isNext : devices.next side = some (text, message))
      (unused : setting.Unused devices side (draws.opening 0))
      (holds : message.messageType = 3 → setting.Holds (devices.store side))
      (isLocal : setting.Local side localAddress)
      (isCall :
        Decrypts draws (setting.address side.other) localAddress message
          decryption)
      (ran : Async.run decryption (devices.store side) = (after, .ok plain)) :
      Step devices ((devices.keep side after).logRead side plain)
  | decryptThrows
      (side : Side)
      {draws : Draws}
      {text : Bytes}
      {localAddress : Option ProtocolAddress}
      {message : CiphertextMessage}
      {decryption : Async Bytes}
      {thrown : Thrown}
      {after : InMemoryProtocolStore}
      (isNext : devices.next side = some (text, message))
      (unused : setting.Unused devices side (draws.opening 0))
      (holds : message.messageType = 3 → setting.Holds (devices.store side))
      (isLocal : setting.Local side localAddress)
      (isCall :
        Decrypts draws (setting.address side.other) localAddress message
          decryption)
      (ran :
        Async.run decryption (devices.store side) = (after, .error thrown)) :
      Step devices (devices.keep side after)
  | meanwhile
      (side : Side)
      {after : InMemoryProtocolStore}
      (spares : setting.Spares side (devices.store side) after) :
      Step devices (devices.keep side after)

/-- The messages are few. -/
def Few (devices : Devices) : Prop :=
  (devices.sent .initiator).length + (devices.sent .responder).length < 2 ^ 31

/-- The states of all runs in which few messages are sent. -/
inductive Reachable (store : Side → InMemoryProtocolStore) : Devices → Prop where
  | start : Reachable store (Devices.start store)
  | step
      {devices next : Devices}
      (before : Reachable store devices)
      (step : setting.Step devices next)
      (few : Few next) :
      Reachable store next

/-- What is promised of two devices that talk in order. -/
structure Complete (devices : Devices) : Prop where
  /-- While its session is usable a device encrypts, if there is room. -/
  encrypts :
    ∀ side draws text localAddress,
      text.length < 2 ^ 53 →
      setting.Local side localAddress →
      setting.Usable devices side draws.nowSecs →
      (∃ after message,
        Async.run
            (sessionEncrypt draws text (setting.address side.other)
              localAddress)
            (devices.store side) =
          (after, .ok message)) ∨
        Async.run
            (sessionEncrypt draws text (setting.address side.other)
              localAddress)
            (devices.store side) =
          (devices.store side, .error outOfMemory)
  /-- The next message has a call that decrypts it. -/
  called :
    ∀ side text message draws localAddress,
      devices.next side = some (text, message) →
      ∃ decryption,
        Decrypts draws (setting.address side.other) localAddress message
          decryption
  /-- That call returns what was encrypted, if there is room. -/
  decrypts :
    ∀ side text message draws localAddress decryption,
      devices.next side = some (text, message) →
      setting.Unused devices side (draws.opening 0) →
      (message.messageType = 3 → setting.Holds (devices.store side)) →
      setting.Local side localAddress →
      Decrypts draws (setting.address side.other) localAddress message
        decryption →
      (∃ after,
        Async.run decryption (devices.store side) = (after, .ok text)) ∨
        Async.run decryption (devices.store side) =
          (devices.store side, .error outOfMemory)
  /-- What was decrypted so far is what was encrypted first, in its order. -/
  read :
    ∀ side, devices.read side <+: (devices.sent side.other).map Prod.fst

end Setting

/-! ## What a store keeps of a session -/

section Keeps

/-- The archive's live state can be written, read, and asked for its identity. -/
def Speaks (parties : Parties) (side : Side) (archive : Archive) : Prop :=
  ∃ live,
    archive.current = some live ∧
      live.Sound ∧
      live.remoteKey = (parties.identity side.other).identity.key ∧
      ¬ live.StampOverflows

/-- A store keeps the record of an archive, if it has a live state. -/
structure Keeps
    [Curves]
    (parties : Parties)
    (side : Side)
    (address : ProtocolAddress)
    (store : InMemoryProtocolStore)
    (archive : Archive) :
    Prop where
  owns : Listing.usFrom store.identity = .ok (parties.identity side)
  registrationId : store.registrationId = parties.registrationId side
  pins :
    store.identities address.toText = none ∨
      store.identities address.toText =
        some (parties.identity side.other).identity.key.serialize
  session :
    store.getSession address = archive.current.map fun _ => archive.serialize
  short : archive.current ≠ none → archive.serialize.length < 2 ^ 32
  speaks : archive.current ≠ none → Speaks parties side archive

variable
  {parties : Parties}
  {side : Side}
  {address : ProtocolAddress}
  {store after : InMemoryProtocolStore}
  {archive settled : Archive}
  {nowSecs : Nat}

/-- An archive that speaks is sound. -/
theorem Speaks.sound
    (speaks : Speaks parties side archive) :
    archive.Sound := by
  obtain ⟨live, isLive, sound, _⟩ := speaks
  intro current isCurrent
  obtain rfl := Option.some.inj (isLive.symm.trans isCurrent)
  exact sound

/-- An archive that speaks reads back. -/
theorem Speaks.archiveFrom
    (speaks : Speaks parties side archive)
    (short : archive.serialize.length < 2 ^ 32) :
    archiveFrom archive.serialize = .ok archive := by
  have sound := speaks.sound
  obtain ⟨live, isLive, _⟩ := speaks
  exact Bridge.archiveFrom_serialize isLive sound short

theorem bytesEqual_self (data : Bytes) : WasmApi.bytesEqual data data = true := by
  have zeroes : List.zipWith (· ^^^ ·) data data = data.map fun _ => 0 := by
    rw [List.zipWith_self]
    simp
  rw [WasmApi.bytesEqual, if_neg (not_not.mpr rfl), zeroes]
  exact decide_eq_true (WasmApi.foldl_or_eq_zero.mpr ⟨rfl, by simp⟩)

variable [Curves]

/-- The identity of the other device is trusted. -/
theorem Keeps.isTrusted
    (keeps : Keeps parties side address store archive) :
    store.isTrustedIdentity address
        (parties.identity side.other).identity.key.serialize =
      true := by
  unfold InMemoryProtocolStore.isTrustedIdentity
  rcases keeps.pins with unknown | known
  · rw [unknown]
  · rw [known]
    exact bytesEqual_self _

/-- The identity a record names is the one that is known, or the first. -/
theorem Keeps.trusted
    (keeps : Keeps parties side address store archive)
    (speaks : Speaks parties side settled)
    (short : settled.serialize.length < 2 ^ 32) :
    Trusted store address nowSecs
      (parties.identity side.other).identity.key.serialize
      settled.serialize := by
  have sound := speaks.sound
  obtain ⟨live, isLive, _, remote, timely⟩ := speaks
  obtain ⟨info, answers, isRemote, _⟩ :=
    Bridge.sessionInfo_returns nowSecs isLive sound short timely
  exact ⟨info, answers, by rw [isRemote, remote], keeps.isTrusted⟩

/-- A record that is not there reads as an empty archive. -/
theorem Keeps.archiveFrom
    (keeps : Keeps parties side address store archive)
    (empty : archive.current = none → archive = Archive.empty) :
    archiveFrom ((store.getSession address).getD []) = .ok archive := by
  rw [keeps.session]
  cases isCurrent : archive.current with
  | none =>
      rw [empty isCurrent]
      rfl
  | some live =>
      have isSome : archive.current ≠ none := by simp [isCurrent]
      exact (keeps.speaks isSome).archiveFrom (keeps.short isSome)

/-- The record of a later archive takes the place of the one before. -/
theorem Keeps.settle
    (keeps : Keeps parties side address store archive)
    (speaks : Speaks parties side settled)
    (short : settled.serialize.length < 2 ^ 32)
    (identity : after.identity = store.identity)
    (registrationId : after.registrationId = store.registrationId)
    (saved : after.getSession address = some settled.serialize)
    (pins :
      after.identities address.toText = store.identities address.toText ∨
        after.identities address.toText =
          some (parties.identity side.other).identity.key.serialize) :
    Keeps parties side address after settled where
  owns := by
    rw [identity]
    exact keeps.owns
  registrationId := registrationId.trans keeps.registrationId
  pins := by
    rcases pins with same | known
    · rw [same]
      exact keeps.pins
    · exact Or.inr known
  session := by
    obtain ⟨live, isLive, _⟩ := speaks
    rw [saved, isLive, Option.map_some]
  short := fun _ => short
  speaks := fun _ => speaks

/-- After an encryption the store keeps the record. -/
theorem Keeps.encrypted
    (keeps : Keeps parties side address store archive)
    (speaks : Speaks parties side settled)
    (short : settled.serialize.length < 2 ^ 32) :
    Keeps parties side address (store.saveSession address settled.serialize)
      settled :=
  keeps.settle speaks short rfl rfl (Function.update_self ..) (Or.inl rfl)

omit [Curves] in
/-- What the first message used up is kept elsewhere. -/
theorem settleKeys_same
    (consumed : Option Consumed)
    (pqId : Option Nat)
    (store : InMemoryProtocolStore) :
    let after := settleKeys consumed pqId store
    after.identity = store.identity ∧
      after.registrationId = store.registrationId ∧
        after.sessions = store.sessions ∧
          after.identities = store.identities := by
  cases consumed with
  | none => exact ⟨rfl, rfl, rfl, rfl⟩
  | some consumed =>
      cases isConsumed : consumed.oneTimeId <;> cases pqId <;>
        simp [settleKeys, isConsumed, InMemoryProtocolStore.removePreKey,
          InMemoryProtocolStore.markKyberPreKeyUsed]

/-- After a decryption the store keeps the record and the identity. -/
theorem Keeps.decrypted
    (keeps : Keeps parties side address store archive)
    (speaks : Speaks parties side settled)
    (short : settled.serialize.length < 2 ^ 32)
    (consumed : Option Consumed)
    (pqId : Option Nat) :
    Keeps parties side address
      (settleKeys consumed pqId
        ((store.saveIdentity address
            (parties.identity side.other).identity.key.serialize).saveSession
          address settled.serialize))
      settled := by
  obtain ⟨identity, registrationId, sessions, identities⟩ :=
    settleKeys_same consumed pqId
      ((store.saveIdentity address
          (parties.identity side.other).identity.key.serialize).saveSession
        address settled.serialize)
  refine keeps.settle speaks short identity registrationId ?_ (Or.inr ?_)
  · rw [InMemoryProtocolStore.getSession, sessions]
    exact Function.update_self ..
  · rw [identities]
    exact Function.update_self ..

end Keeps

/-! ## A session in step behind both stores -/

section Linked

variable [Hashes] [Curves] [Aes] [Kem] [Capsules]

/-- A sealed message as it is handed out. -/
def wire (letter : Bytes × Sealed) : Bytes × CiphertextMessage :=
  (letter.1, ⟨letter.2.kind.code, letter.2.bytes⟩)

/-- Both stores keep the records of one session of the core. -/
structure Linked
    (setting : Setting)
    (beginning : Beginning)
    (devices : Devices)
    (session : Session) :
    Prop where
  inStep :
    ∃ line half posts,
      InStep setting.parties beginning setting.names session line half posts
  within : Session.InOrder.Within session
  keeps :
    ∀ side,
      Keeps setting.parties side (setting.address side.other)
        (devices.store side) (session.archive side)
  sent : ∀ side, devices.sent side = (session.sealed side).map wire
  read : ∀ side, devices.read side = (session.opened side).map Prod.snd

variable
  {setting : Setting}
  {beginning : Beginning}
  {devices : Devices}
  {session : Session}
  {side : Side}
  {parties : Parties}
  {archive settled : Archive}
  {names : Side → Option Binding}
  {line : PqRecord.Line}
  {half : Side → TurnHalf}
  {posts : Side → List Post}

omit [Hashes] [Curves] [Aes] [Kem] [Capsules] in
/-- A party that stands in the session speaks. -/
theorem speaks_of_stands
    {live : State}
    {seat : TurnHalf}
    {theirs : Curve.Public}
    (stands : Stands parties beginning side live seat theirs)
    (isLive : settled.current = some live)
    (timely : ¬ live.StampOverflows) :
    Speaks parties side settled :=
  ⟨live, isLive, stands.live.sealable.sound, stands.remoteKey, timely⟩

omit [Capsules] in
/-- A record that was sealed with speaks as the one before. -/
theorem speaks_of_sealed
    {plain : Bytes}
    {nowSecs : Nat}
    {given : Option Binding}
    {draw : Braid.Draw}
    {message : Sealed}
    (inStep : InStep parties beginning names session line half posts)
    (room : plain.length + 4096 < 2 ^ 64)
    (isGiven : Given (names side) given)
    (speaks : Speaks parties side (session.archive side))
    (seals :
      (session.archive side).seal plain nowSecs given draw =
        (.ok message, settled)) :
    Speaks parties side settled := by
  obtain ⟨state, previous, lane, sent, inner, advanced, isArchive, _, stands,
    sealed, rfl⟩ := (inStep.seated side).seals room seals
  obtain ⟨advancedStands, _⟩ := stands.seals room isGiven sealed
  refine speaks_of_stands advancedStands rfl ?_
  obtain ⟨live, isLive, _, _, timely⟩ := speaks
  rw [isArchive] at isLive
  obtain rfl := Option.some.inj isLive
  rw [sealed.after_eq]
  exact timely

omit [Hashes] [Curves] [Aes] [Kem] [Capsules] in
/-- What is sealed with a short record leaves a session within its bounds. -/
theorem within_of_short
    {next : Session}
    (within : Session.InOrder.Within session)
    (isNext :
      ∀ side, next.archive side = session.archive side ∨
        (next.archive side).serialize.length < 2 ^ 32)
    (few :
      (next.sealed .initiator).length + (next.sealed .responder).length <
        2 ^ 31) :
    Session.InOrder.Within next := by
  refine ⟨fun side current isCurrent => ?_, few⟩
  rcases isNext side with same | short
  · rw [same] at isCurrent
    exact within.short side current isCurrent
  · have inside :=
      current.length_pqState_le.trans (Archive.length_current_le isCurrent)
    exact inside.trans_lt (short.trans (by decide))

omit [Hashes] [Curves] [Aes] [Kem] [Capsules] in
/-- The binding a sender gives. -/
theorem given_encrypting
    {localAddress : Option ProtocolAddress}
    (isLocal : setting.Local side localAddress) :
    Given (setting.names side)
      (binding localAddress (some (setting.address side.other))) := by
  rcases isLocal with rfl | rfl
  · exact Or.inl (by simp [binding, bindingFrom])
  · exact Or.inr rfl

omit [Hashes] [Curves] [Aes] [Kem] [Capsules] in
/-- The binding a recipient gives. -/
theorem given_decrypting
    {localAddress : Option ProtocolAddress}
    (isLocal : setting.Local side localAddress) :
    Given (setting.names side.other)
      (binding (some (setting.address side.other)) localAddress) := by
  rcases isLocal with rfl | rfl
  · exact Or.inl (by simp [binding, bindingFrom])
  · exact Or.inr (by rw [Setting.names, Side.other_other])

omit [Hashes] [Curves] [Aes] [Kem] [Capsules] in
/-- What a host asks of a record is what the session may do. -/
theorem Keeps.canSendAt
    [Curves]
    {live : State}
    {nowSecs : Nat}
    (keeps :
      Keeps setting.parties side (setting.address side.other)
        (devices.store side) archive)
    (isLive : archive.current = some live)
    (usable : setting.Usable devices side nowSecs) :
    live.canSendAt nowSecs = .ok true := by
  have isSession := keeps.session
  have short := keeps.short (by simp [isLive])
  have speaks := keeps.speaks (by simp [isLive])
  have sound := speaks.sound
  obtain ⟨again, isAgain, _, _, timely⟩ := speaks
  obtain rfl := Option.some.inj (isLive.symm.trans isAgain)
  obtain ⟨record, info, isRecord, answers, isUsable⟩ := usable
  rw [isLive, Option.map_some, isRecord] at isSession
  obtain rfl := Option.some.inj isSession
  obtain ⟨same, isSame, _, may⟩ :=
    Bridge.sessionInfo_returns nowSecs isLive sound short timely
  obtain rfl := Outcome.ok.inj (answers.symm.trans isSame)
  rw [may, isUsable]

omit [Capsules] in
/-- The bridge seals with the session, and then the record is kept. -/
theorem Linked.encrypt_run
    {draws : Draws}
    {text : Bytes}
    {localAddress : Option ProtocolAddress}
    (linked : Linked setting beginning devices session)
    (isLive : (session.archive side).current ≠ none)
    (room : text.length < 2 ^ 53)
    (isLocal : setting.Local side localAddress) :
    Async.run
        (sessionEncrypt draws text (setting.address side.other) localAddress)
        (devices.store side) =
      serve
        (Bridge.sessionSeal (session.archive side).serialize text draws.nowSecs
          (binding localAddress (some (setting.address side.other)))
          draws.sealing)
        (devices.store side)
        fun made =>
          ((devices.store side).saveSession (setting.address side.other)
            made.2.2, ⟨made.1, made.2.1⟩) := by
  obtain ⟨line, half, posts, inStep⟩ := linked.inStep
  have keeps := linked.keeps side
  have speaks := keeps.speaks isLive
  have isSession := keeps.session
  obtain ⟨live, isCurrent⟩ := Option.ne_none_iff_exists'.mp isLive
  rw [isCurrent, Option.map_some] at isSession
  refine @sessionEncrypt_run _ _ _ _
    (setting.parties.identity side.other).identity.key.serialize _ _ _ _ _
    isSession fun kind sealed after made => ?_
  obtain ⟨made, settled, seals, _, _, rfl, short⟩ :=
    Bridge.sealed_of_sessionSeal (speaks.archiveFrom (keeps.short isLive)) made
  exact keeps.trusted
    (speaks_of_sealed inStep (by omega) (given_encrypting isLocal) speaks seals)
    short

/-- Where the session may seal, only the room can be missing. -/
theorem Linked.seal_returns
    {live : State}
    {text : Bytes}
    {nowSecs : Nat}
    {given : Option Binding}
    {draw : Braid.Draw}
    (generates : ∀ seed, ∃ keys, Kem.generate seed = some keys)
    (begins : setting.parties.Begins beginning)
    (linked : Linked setting beginning devices session)
    (isLive : (session.archive side).current = some live)
    (room : text.length < 2 ^ 53)
    (usable : setting.Usable devices side nowSecs) :
    ∃ value,
      Bridge.Returns
        (Bridge.sessionSeal (session.archive side).serialize text nowSecs given
          draw)
        value := by
  have isSome : (session.archive side).current ≠ none := by simp [isLive]
  have keeps := linked.keeps side
  have isArchive := (keeps.speaks isSome).archiveFrom (keeps.short isSome)
  obtain ⟨_, _, _, inStep⟩ := linked.inStep
  have roomy : text.length + 4096 < 2 ^ 64 := by omega
  obtain ⟨message, settled, seals⟩ :
      ∃ message settled,
        (session.archive side).seal text nowSecs given draw =
          (.ok message, settled) :=
    inStep.sealable generates begins linked.within isLive roomy
      (keeps.canSendAt isLive usable)
  exact ⟨_, Bridge.sessionSeal_returns isArchive seals⟩

/-- A message is encrypted, or nothing has changed. -/
theorem Linked.encrypts
    {draws : Draws}
    {text : Bytes}
    {localAddress : Option ProtocolAddress}
    (generates : ∀ seed, ∃ keys, Kem.generate seed = some keys)
    (begins : setting.parties.Begins beginning)
    (linked : Linked setting beginning devices session)
    (room : text.length < 2 ^ 53)
    (isLocal : setting.Local side localAddress) :
    (∃ message settled,
      Async.run
          (sessionEncrypt draws text (setting.address side.other) localAddress)
          (devices.store side) =
        ((devices.store side).saveSession (setting.address side.other)
          settled.serialize, .ok ⟨message.kind.code, message.bytes⟩) ∧
      (session.archive side).seal text draws.nowSecs
          (binding localAddress (some (setting.address side.other)))
          draws.sealing =
        (.ok message, settled) ∧
      settled.serialize.length < 2 ^ 32) ∨
    ∃ refused,
      Async.run
          (sessionEncrypt draws text (setting.address side.other) localAddress)
          (devices.store side) =
        (devices.store side, refused) ∧
      (∀ message, refused ≠ .ok message) ∧
      (setting.Usable devices side draws.nowSecs →
        refused = .error outOfMemory) := by
  have keeps := linked.keeps side
  cases isLive : (session.archive side).current with
  | none =>
      have noSession := keeps.session
      rw [isLive, Option.map_none] at noSession
      refine Or.inr ⟨.error (sessionNotFound (setting.address side.other)),
        ?_, by simp, ?_⟩
      · simp only [sessionEncrypt, Async.run_read_bind, Async.run_lift_bind,
          noSession]
        rfl
      · rintro ⟨record, _, isSession, _⟩
        rw [noSession] at isSession
        cases isSession
  | some live =>
      have isSome : (session.archive side).current ≠ none := by simp [isLive]
      have isArchive := (keeps.speaks isSome).archiveFrom (keeps.short isSome)
      have ran :=
        @Linked.encrypt_run _ _ _ _ setting beginning devices session side draws
          text localAddress linked isSome room isLocal
      have noRoom
          (usable : setting.Usable devices side draws.nowSecs)
          (fails :
            ∀ value,
              Bridge.sessionSeal (session.archive side).serialize text
                  draws.nowSecs
                  (binding localAddress (some (setting.address side.other)))
                  draws.sealing ≠
                .ok value) :
          Bridge.sessionSeal (session.archive side).serialize text draws.nowSecs
              (binding localAddress (some (setting.address side.other)))
              draws.sealing =
            .error (Bridge.thrown .outOfMemory) := by
        obtain ⟨value, returns⟩ :=
          linked.seal_returns generates begins isLive room usable
        exact returns.resolve_left (fails value)
      rcases made :
          Bridge.sessionSeal (session.archive side).serialize text draws.nowSecs
            (binding localAddress (some (setting.address side.other)))
            draws.sealing with ⟨kind, message, after⟩ | error | _ <;>
        rw [made] at ran
      · obtain ⟨made', settled, seals, rfl, rfl, rfl, short⟩ :=
          Bridge.sealed_of_sessionSeal isArchive made
        exact Or.inl ⟨made', settled, ran, seals, short⟩
      · refine Or.inr ⟨_, ran, by simp, fun usable => ?_⟩
        have isError := noRoom usable (by simp [made])
        rw [Outcome.error.inj (made.symm.trans isError)]
        rfl
      · refine Or.inr ⟨_, ran, by simp, fun usable => ?_⟩
        cases made.symm.trans (noRoom usable (by simp [made]))

/-- The message that was encrypted is on its way. -/
theorem Linked.encrypted
    {draws : Draws}
    {text : Bytes}
    {localAddress : Option ProtocolAddress}
    {message : Sealed}
    (begins : setting.parties.Begins beginning)
    (linked : Linked setting beginning devices session)
    (room : text.length < 2 ^ 53)
    (isLocal : setting.Local side localAddress)
    (seals :
      (session.archive side).seal text draws.nowSecs
          (binding localAddress (some (setting.address side.other)))
          draws.sealing =
        (.ok message, settled))
    (short : settled.serialize.length < 2 ^ 32)
    (few :
      Setting.Few
        ((devices.keep side
            ((devices.store side).saveSession (setting.address side.other)
              settled.serialize)).logSent side
          (wire (text, message)))) :
    Linked setting beginning
      ((devices.keep side
          ((devices.store side).saveSession (setting.address side.other)
            settled.serialize)).logSent side
        (wire (text, message)))
      ((session.settle side settled).logSealed side text message) := by
  obtain ⟨line, half, posts, inStep⟩ := linked.inStep
  have keeps := linked.keeps side
  have isGiven := given_encrypting isLocal
  have isSome : (session.archive side).current ≠ none := by
    intro empty
    simp only [Archive.seal, empty] at seals
    cases seals
  have roomy : text.length + 4096 < 2 ^ 64 := by omega
  have speaks :=
    speaks_of_sealed inStep roomy isGiven (keeps.speaks isSome) seals
  have sent :
      ∀ actor,
        ((devices.keep side
            ((devices.store side).saveSession (setting.address side.other)
              settled.serialize)).logSent side
          (wire (text, message))).sent actor =
          (((session.settle side settled).logSealed side text message).sealed
            actor).map wire := by
    intro actor
    rcases actor.eq_or_eq_other side with rfl | rfl
    · simp [linked.sent actor]
    · simp [linked.sent side.other]
  have within :
      Session.InOrder.Within
        ((session.settle side settled).logSealed side text message) := by
    refine within_of_short linked.within (fun actor => ?_) ?_
    · rcases actor.eq_or_eq_other side with rfl | rfl
      · exact Or.inr (by simpa using short)
      · exact Or.inl (by simp)
    · have counted := few
      rw [Setting.Few, sent, sent, List.length_map, List.length_map] at counted
      exact counted
  refine ⟨inStep.seals begins linked.within roomy isGiven seals within, within,
    fun actor => ?_, sent, fun actor => linked.read actor⟩
  rcases actor.eq_or_eq_other side with rfl | rfl
  · simpa using keeps.encrypted speaks short
  · simpa using linked.keeps side.other

omit [Capsules] in
/-- The next message, as the session has it. -/
theorem Linked.next
    {text : Bytes}
    {message : CiphertextMessage}
    (linked : Linked setting beginning devices session)
    (isNext : devices.next side = some (text, message)) :
    ∃ sealed,
      session.next side = some (text, sealed) ∧
        message = ⟨sealed.kind.code, sealed.bytes⟩ := by
  rw [Devices.next, linked.sent, linked.read, List.length_map,
    List.getElem?_map] at isNext
  obtain ⟨⟨_, sealed⟩, isSealed, same⟩ := Option.map_eq_some_iff.mp isNext
  obtain ⟨rfl, rfl⟩ := Prod.mk.inj same
  exact ⟨sealed, isSealed, rfl⟩

omit [Capsules] in
/-- What the devices have not used the session has not. -/
theorem Linked.unused
    {draw : Block 32}
    (linked : Linked setting beginning devices session)
    (unused : setting.Unused devices side draw) :
    session.Unused side draw := by
  intro state fresh isCurrent drawn
  have keeps := linked.keeps side.other
  rw [Side.other_other] at keeps
  have isSome : (session.archive side.other).current ≠ none := by
    simp [isCurrent]
  have isSession := keeps.session
  rw [isCurrent, Option.map_some] at isSession
  exact unused _ _ state fresh isSession
    ((keeps.speaks isSome).archiveFrom (keeps.short isSome)) isCurrent drawn

/-- The session opens the next message, and a store that keeps it is linked. -/
theorem Linked.opens
    [LawfulKem]
    {text : Bytes}
    {message : Sealed}
    {draws : Nat → Block 32}
    {given : Option Binding}
    (total : Curve.Total)
    (commutes : Curve.Commutes)
    (correct : Cipher.AesCorrect)
    (publishes : setting.parties.Publishes)
    (begins : setting.parties.Begins beginning)
    (linked : Linked setting beginning devices session)
    (isNext : session.next side = some (text, message))
    (unused : session.Unused side (draws 0))
    (isGiven : Given (setting.names side.other) given) :
    ∃ settled,
      setting.parties.openSealed side draws given message
          (session.archive side) =
        (.ok text, settled) ∧
      (settled.serialize.length < 2 ^ 32 →
        Speaks setting.parties side settled ∧
          ∀ after,
            Keeps setting.parties side (setting.address side.other) after
              settled →
            Linked setting beginning ((devices.keep side after).logRead side text)
              ((session.settle side settled).logOpened side
                (session.opened side).length text)) := by
  obtain ⟨line, half, posts, inStep⟩ := linked.inStep
  obtain ⟨settled, opens, ⟨live, isLive, noPending⟩, next⟩ :=
    inStep.opens total publishes commutes correct begins linked.within isNext
      unused isGiven
  refine ⟨settled, opens, fun short => ?_⟩
  have within :
      Session.InOrder.Within
        ((session.settle side settled).logOpened side
          (session.opened side).length text) := by
    refine within_of_short linked.within (fun actor => ?_) linked.within.few
    rcases actor.eq_or_eq_other side with rfl | rfl
    · exact Or.inr (by simpa using short)
    · exact Or.inl (by simp)
  obtain ⟨line, half, posts, inStepNext⟩ := next within
  have stands := (inStepNext.seated side).stands (by simpa using isLive)
  have timely : ¬ live.StampOverflows := by
    rintro ⟨pending, isPending, _⟩
    rw [noPending] at isPending
    cases isPending
  refine ⟨speaks_of_stands stands isLive timely, fun after keeps => ?_⟩
  refine ⟨⟨line, half, posts, inStepNext⟩, within, fun actor => ?_,
    linked.sent, fun actor => ?_⟩
  · rcases actor.eq_or_eq_other side with rfl | rfl
    · simpa using keeps
    · simpa using linked.keeps side.other
  · rcases actor.eq_or_eq_other side with rfl | rfl
    · simp [linked.read actor]
    · simp [linked.read side.other]

/-- A session opens a ratchet message with its archive. -/
theorem whisper_of_openSealed
    {bytes text : Bytes}
    {inner : Whisper}
    {draws : Nat → Block 32}
    {given : Option Binding}
    (parsed : Whisper.parse bytes = .ok inner)
    (opens :
      parties.openSealed side draws given ⟨.whisper, bytes⟩ archive =
        (.ok text, settled)) :
    openWhisper draws inner given archive = (.ok text, settled) := by
  have takes :
      parties.takeIn side ⟨.whisper, bytes⟩ archive = (.ok inner, archive) := by
    rw [Parties.takeIn_whisper, parsed]
    rfl
  rw [Parties.openSealed_eq, Call.bind_of_ok takes, liftM_call_apply] at opens
  obtain ⟨isText, isSettled⟩ := Prod.mk.inj opens
  exact Prod.ext (Outcome.mapError_eq_ok.mp isText) isSettled

/-- A session opens a first message with the records the bundle names. -/
theorem first_of_openSealed
    {bytes text : Bytes}
    {first : Opener}
    {draws : Nat → Block 32}
    {given : Option Binding}
    (parsed : Opener.parse bytes = .ok first)
    (opens :
      parties.openSealed side draws given ⟨.first, bytes⟩ archive =
        (.ok text, settled)) :
    ∃ consumed,
      openFirst draws (parties.identity side) (parties.registrationId side)
          first parties.offered given archive =
        (.ok ⟨text, consumed⟩, settled) := by
  have parses :
      (liftM (Opener.parse bytes) : Call Archive EngineError Opener) archive =
        (.ok first, archive) := by
    rw [liftM_fault_apply, parsed]
    rfl
  have opens := (Call.bind_of_ok parses).symm.trans opens
  obtain ⟨⟨plain, consumed⟩, middle, opened, done⟩ := Call.bind_eq_ok.mp opens
  cases done
  exact ⟨consumed, opened⟩

/-- What a decryption of the next message comes to. -/
def Reads
    (setting : Setting)
    (beginning : Beginning)
    (devices : Devices)
    (side : Side)
    (text : Bytes)
    (decryption : Async Bytes) :
    Prop :=
  (∃ after session,
    Async.run decryption (devices.store side) = (after, .ok text) ∧
      Linked setting beginning ((devices.keep side after).logRead side text)
        session) ∨
    Async.run decryption (devices.store side) =
      (devices.store side, .error outOfMemory)

/-- A ratchet message is opened with the record the store keeps. -/
theorem Linked.decrypts_whisper
    [LawfulKem]
    {text : Bytes}
    {draws : Draws}
    {localAddress : Option ProtocolAddress}
    {message : WhisperMessage}
    (total : Curve.Total)
    (commutes : Curve.Commutes)
    (correct : Cipher.AesCorrect)
    (publishes : setting.parties.Publishes)
    (begins : setting.parties.Begins beginning)
    (linked : Linked setting beginning devices session)
    (isNext : session.next side = some (text, ⟨.whisper, message.bytes⟩))
    (isLive : (session.archive side).current ≠ none)
    (unused : session.Unused side (draws.opening 0))
    (isLocal : setting.Local side localAddress) :
    Reads setting beginning devices side text
      (sessionDecrypt draws message (setting.address side.other)
        localAddress) := by
  obtain ⟨settled, opens, follows⟩ :=
    linked.opens total commutes correct publishes begins isNext unused
      (given_decrypting isLocal)
  have keeps := linked.keeps side
  have isSession := keeps.session
  have isArchive := (keeps.speaks isLive).archiveFrom (keeps.short isLive)
  obtain ⟨live, isCurrent⟩ := Option.ne_none_iff_exists'.mp isLive
  rw [isCurrent, Option.map_some] at isSession
  obtain ⟨inner, parsed⟩ := message.isParsed
  have opensWhisper := whisper_of_openSealed parsed opens
  have settles {plain after : Bytes}
      (made :
        Bridge.sessionOpen draws.opening (session.archive side).serialize
            message.bytes
            (binding (some (setting.address side.other)) localAddress) =
          .ok (plain, after)) :
      after = settled.serialize ∧ after.length < 2 ^ 32 := by
    obtain ⟨_, opened, isAfter, short⟩ :=
      Bridge.opened_of_sessionOpen isArchive parsed made
    obtain ⟨_, rfl⟩ := Prod.mk.inj (opensWhisper.symm.trans opened)
    exact ⟨isAfter, short⟩
  have ran :=
    @sessionDecrypt_run (devices.store side) draws (setting.address side.other)
      localAddress (setting.parties.identity side.other).identity.key.serialize
      _ _ _ _ _ message isSession fun plain after made => by
        obtain ⟨rfl, short⟩ := settles made
        exact keeps.trusted (follows short).1 short
  rcases Bridge.sessionOpen_returns isArchive isCurrent parsed opensWhisper with
    made | made
  · obtain ⟨_, short⟩ := settles made
    obtain ⟨speaks, linkedNext⟩ := follows short
    rw [made] at ran
    exact Or.inl ⟨_, _, ran,
      linkedNext _ (keeps.decrypted speaks short none none)⟩
  · rw [made] at ran
    exact Or.inr ran

/-- A first message is opened with the records its bundle names. -/
theorem Linked.decrypts_preKey
    [LawfulKem]
    {text : Bytes}
    {draws : Draws}
    {localAddress : Option ProtocolAddress}
    {message : PreKeyMessage}
    {first : Opener}
    (total : Curve.Total)
    (commutes : Curve.Commutes)
    (correct : Cipher.AesCorrect)
    (publishes : setting.parties.Publishes)
    (begins : setting.parties.Begins beginning)
    (linked : Linked setting beginning devices session)
    (isResponder : side = .responder)
    (isNext : session.next side = some (text, ⟨.first, message.bytes⟩))
    (parsed : Opener.parse message.bytes = .ok first)
    (names : setting.parties.Names beginning first)
    (unused : session.Unused side (draws.opening 0))
    (holds : setting.Holds (devices.store side))
    (isLocal : setting.Local side localAddress) :
    Reads setting beginning devices side text
      (sessionDecryptPreKey draws message (setting.address side.other)
        localAddress) := by
  obtain ⟨settled, opens, follows⟩ :=
    linked.opens total commutes correct publishes begins isNext unused
      (given_decrypting isLocal)
  have keeps := linked.keeps side
  have isArchive : archiveFrom (((devices.store side).getSession
      (setting.address side.other)).getD []) = .ok (session.archive side) := by
    obtain ⟨line, half, posts, inStep⟩ := linked.inStep
    exact keeps.archiveFrom (inStep.seated side).eq_empty
  obtain ⟨consumed, opensFirst⟩ := first_of_openSealed parsed opens
  obtain ⟨signed, oneTime, pq, isSigned, isOneTime, isPq, isOffered⟩ := holds
  have isInfo := PreKeyMessage.info_eq parsed
  have isTrusted :
      (devices.store side).isTrustedIdentity (setting.address side.other)
          message.info.identity =
        true := by
    rw [isInfo]
    simp only [names.identity]
    have trusted := keeps.isTrusted
    subst isResponder
    exact trusted
  rw [← names.signedId] at isSigned
  rw [← names.oneTimeId] at isOneTime
  have isPq :
      first.pqId.elim (.ok []) (devices.store side).getKyberPreKey = .ok pq := by
    rw [names.pqId]
    exact isPq
  rw [← keeps.registrationId] at opensFirst
  have settles {plain after : Bytes} {taken : Option Consumed}
      (made :
        Bridge.sessionOpenFirst draws.opening (devices.store side).identity
            (devices.store side).registrationId
            (((devices.store side).getSession
              (setting.address side.other)).getD [])
            message.bytes signed oneTime pq
            (binding (some (setting.address side.other)) localAddress) =
          .ok (plain, after, taken)) :
      after = settled.serialize ∧ after.length < 2 ^ 32 := by
    obtain ⟨_, opened, isAfter, short⟩ :=
      Bridge.opened_of_sessionOpenFirst isArchive parsed isOffered keeps.owns
        made
    obtain ⟨_, rfl⟩ := Prod.mk.inj (opensFirst.symm.trans opened)
    exact ⟨isAfter, short⟩
  have ran :=
    @sessionDecryptPreKey_run (devices.store side) draws
      (setting.address side.other) localAddress
      (setting.parties.identity side.other).identity.key.serialize _ _ _ _ _
      message signed oneTime pq isTrusted (by rw [isInfo]; exact isSigned)
      (by rw [isInfo]; exact isOneTime) (by rw [isInfo]; exact isPq)
      fun plain after taken made => by
        obtain ⟨rfl, short⟩ := settles made
        exact keeps.trusted (follows short).1 short
  rcases Bridge.sessionOpenFirst_returns isArchive parsed isOffered keeps.owns
      opensFirst with made | made
  · obtain ⟨_, short⟩ := settles made
    obtain ⟨speaks, linkedNext⟩ := follows short
    rw [made] at ran
    exact Or.inl ⟨_, _, ran,
      linkedNext _ (keeps.decrypted speaks short consumed message.info.pqId)⟩
  · rw [made] at ran
    exact Or.inr ran

omit [Capsules] in
/-- How the next message was sealed. -/
theorem Linked.carries
    {text : Bytes}
    {message : Sealed}
    (linked : Linked setting beginning devices session)
    (isNext : session.next side = some (text, message)) :
    ∃ inner,
      Whisper.parse inner.bytes = .ok inner ∧
        Carries setting.parties beginning inner side.other message ∧
        ((session.archive side).current = none → message.kind = .first) := by
  obtain ⟨line, half, posts, inStep⟩ := linked.inStep
  obtain ⟨post, rest, queued, isPost, _⟩ := inStep.queued isNext
  obtain ⟨_, _, _, _, inner, posted⟩ :=
    inStep.posted side post (by rw [queued]; exact List.mem_cons_self)
  have isMessage : post.letter.2 = message := congrArg Prod.snd isPost
  have carries := posted.carries
  rw [isMessage] at carries
  refine ⟨inner, posted.made.parsed, carries, fun empty => ?_⟩
  rw [← isMessage]
  exact inStep.next_first queued empty

omit [Hashes] [Curves] [Aes] [Kem] [Capsules] in
/-- Only the initiator sends first messages, and they name its bundle's records. -/
theorem names_of_carries
    {inner : Whisper}
    {bytes : Bytes}
    (carries : Carries parties beginning inner side.other ⟨.first, bytes⟩) :
    side = .responder ∧
      ∃ first, Opener.parse bytes = .ok first ∧ parties.Names beginning first := by
  generalize isOther : side.other = sender at carries
  cases carries with
  | first parses _ names =>
      refine ⟨?_, _, parses, names⟩
      cases side with
      | initiator => cases isOther
      | responder => rfl

/-- The next message has a call that decrypts it. -/
theorem Linked.called
    {text : Bytes}
    {message : CiphertextMessage}
    (linked : Linked setting beginning devices session)
    (isNext : devices.next side = some (text, message))
    (draws : Draws)
    (localAddress : Option ProtocolAddress) :
    ∃ decryption,
      Decrypts draws (setting.address side.other) localAddress message
        decryption := by
  obtain ⟨sealed, isSealed, rfl⟩ := linked.next isNext
  obtain ⟨inner, parsed, carries, _⟩ := linked.carries isSealed
  generalize side.other = sender at carries
  cases carries with
  | whisper => exact ⟨_, .whisper ⟨inner.bytes, inner, parsed⟩⟩
  | @first opener parses isInner names =>
      have isParsed :
          Bridge.openerParse opener.bytes =
            .ok (⟨opener.version, opener.registrationId, opener.oneTimeId,
              opener.signedId, opener.pqId, opener.base.serialize,
              opener.identity.serialize⟩, opener.inner) := by
        rw [Bridge.openerParse, parses]
        rfl
      exact ⟨_, .preKey ⟨opener.bytes, _, _, isParsed⟩⟩

/-- The call that decrypts the next message returns what was encrypted. -/
theorem Linked.decrypts
    [LawfulKem]
    {text : Bytes}
    {message : CiphertextMessage}
    {draws : Draws}
    {localAddress : Option ProtocolAddress}
    {decryption : Async Bytes}
    (total : Curve.Total)
    (commutes : Curve.Commutes)
    (correct : Cipher.AesCorrect)
    (publishes : setting.parties.Publishes)
    (begins : setting.parties.Begins beginning)
    (linked : Linked setting beginning devices session)
    (isNext : devices.next side = some (text, message))
    (unused : setting.Unused devices side (draws.opening 0))
    (holds : message.messageType = 3 → setting.Holds (devices.store side))
    (isLocal : setting.Local side localAddress)
    (isCall :
      Decrypts draws (setting.address side.other) localAddress message
        decryption) :
    Reads setting beginning devices side text decryption := by
  obtain ⟨⟨kind, bytes⟩, isSealed, rfl⟩ := linked.next isNext
  obtain ⟨inner, parsed, carries, waits⟩ := linked.carries isSealed
  have unused := linked.unused unused
  generalize isWire : CiphertextMessage.mk kind.code bytes = message at isCall
  cases isCall with
  | whisper message =>
      obtain ⟨isKind, rfl⟩ := CiphertextMessage.mk.inj isWire
      obtain rfl : kind = .whisper := by
        cases kind <;> cases isKind
        rfl
      refine linked.decrypts_whisper total commutes correct publishes begins
        isSealed (fun empty => ?_) unused isLocal
      cases waits empty
  | preKey message =>
      obtain ⟨isKind, rfl⟩ := CiphertextMessage.mk.inj isWire
      obtain rfl : kind = .first := by
        cases kind <;> cases isKind
        rfl
      obtain ⟨isResponder, first, parses, names⟩ := names_of_carries carries
      exact linked.decrypts_preKey total commutes correct publishes begins
        isResponder isSealed parses names unused (holds isKind) isLocal

/-- A call that ends, or what a host does meanwhile, leaves the stores linked. -/
theorem Linked.step
    [LawfulKem]
    {next : Devices}
    (generates : ∀ seed, ∃ keys, Kem.generate seed = some keys)
    (total : Curve.Total)
    (commutes : Curve.Commutes)
    (correct : Cipher.AesCorrect)
    (publishes : setting.parties.Publishes)
    (begins : setting.parties.Begins beginning)
    (linked : Linked setting beginning devices session)
    (step : setting.Step devices next)
    (few : Setting.Few next) :
    ∃ session, Linked setting beginning next session := by
  have unchanged (actor : Side) :
      devices.keep actor (devices.store actor) = devices := by
    rw [Devices.keep, Function.update_eq_self]
  cases step with
  | encrypts actor room isLocal ran =>
      rcases linked.encrypts generates begins room isLocal with
        ⟨message, settled, ends, seals, short⟩ | ⟨refused, ends, fails, _⟩
      · obtain ⟨rfl, isMessage⟩ := Prod.mk.inj (ends.symm.trans ran)
        obtain rfl := Outcome.ok.inj isMessage
        exact ⟨_, linked.encrypted begins room isLocal seals short few⟩
      · obtain ⟨_, isMessage⟩ := Prod.mk.inj (ends.symm.trans ran)
        exact absurd isMessage (fails _)
  | encryptThrows actor room isLocal ran =>
      rcases linked.encrypts generates begins room isLocal with
        ⟨message, settled, ends, _, _⟩ | ⟨refused, ends, _, _⟩
      · cases ends.symm.trans ran
      · obtain ⟨rfl, _⟩ := Prod.mk.inj (ends.symm.trans ran)
        rw [unchanged]
        exact ⟨session, linked⟩
  | decrypts actor isNext unused holds isLocal isCall ran =>
      rcases linked.decrypts total commutes correct publishes begins isNext
          unused holds isLocal isCall with ⟨after, session, ends, linked⟩ | ends
      · obtain ⟨rfl, isText⟩ := Prod.mk.inj (ends.symm.trans ran)
        obtain rfl := Outcome.ok.inj isText
        exact ⟨session, linked⟩
      · cases ends.symm.trans ran
  | decryptThrows actor isNext unused holds isLocal isCall ran =>
      rcases linked.decrypts total commutes correct publishes begins isNext
          unused holds isLocal isCall with ⟨after, session, ends, _⟩ | ends
      · cases ends.symm.trans ran
      · obtain ⟨rfl, _⟩ := Prod.mk.inj (ends.symm.trans ran)
        rw [unchanged]
        exact ⟨session, linked⟩
  | @meanwhile actor after spares =>
      refine ⟨session, linked.inStep, linked.within, fun side => ?_, linked.sent,
        linked.read⟩
      rcases side.eq_or_eq_other actor with rfl | rfl
      · have keeps := linked.keeps side
        rw [Devices.store_keep_self]
        refine ⟨?_, ?_, ?_, ?_, keeps.short, keeps.speaks⟩
        · rw [spares.identity]
          exact keeps.owns
        · exact spares.registrationId.trans keeps.registrationId
        · rw [spares.identities]
          exact keeps.pins
        · exact spares.sessions.trans keeps.session
      · rw [Devices.store_keep_other]
        exact linked.keeps actor.other

/-! ## From the bundle on -/

omit [Hashes] [Curves] [Aes] [Kem] [Capsules] in
/-- The identity of a bundle is kept as it is written. -/
theorem identityKey_of_published
    [Curves]
    {bundle : PreKeyBundle}
    {published : Bundle.Published}
    (isPublished : bundle.published.init = .ok published) :
    published.identity.key.serialize = bundle.identityKey := by
  unfold GvPublished.init at isPublished
  dsimp only at isPublished
  have identified
      {α : Type}
      {oneTime : Outcome Fault α}
      {oneTimeId : Option Nat}
      {keyOf : α → Option Curve.Public}
      (made :
        (do
          let key ← oneTime
          let signed ← Curve.Public.parse bundle.published.signedKey
          let identity ← Curve.Public.parse bundle.published.identity
          let pqKey ← PostQuantum.Public.parse bundle.published.pqKey
          Bundle.Published.init bundle.published.registrationId
            bundle.published.device oneTimeId (keyOf key)
            bundle.published.signedId signed bundle.published.signedSignature
            ⟨identity⟩ bundle.published.pqId pqKey
            bundle.published.pqSignature) =
          .ok published) :
      published.identity.key.serialize = bundle.identityKey := by
    obtain ⟨_, _, rest⟩ := Outcome.bind_eq_ok.mp made
    obtain ⟨_, _, rest⟩ := Outcome.bind_eq_ok.mp rest
    obtain ⟨identity, isIdentity, rest⟩ := Outcome.bind_eq_ok.mp rest
    obtain ⟨_, _, rest⟩ := Outcome.bind_eq_ok.mp rest
    obtain ⟨_, _, rest⟩ := Outcome.bind_eq_ok.mp rest
    obtain ⟨_, _, rest⟩ := Outcome.bind_eq_ok.mp rest
    obtain ⟨_, _, ⟨⟩⟩ := Outcome.bind_eq_ok.mp rest
    exact Curve.Public.serialize_of_parse isIdentity
  split_ifs at isPublished <;>
    obtain ⟨_, _, rest⟩ := Outcome.bind_eq_ok.mp isPublished <;>
    exact identified rest

/-- A device is who it is, and knows no other identity of its peer. -/
structure Setting.Owns
    (setting : Setting)
    (side : Side)
    (store : InMemoryProtocolStore) :
    Prop where
  identity :
    Listing.usFrom store.identity = .ok (setting.parties.identity side)
  registrationId : store.registrationId = setting.parties.registrationId side
  pins :
    store.identities (setting.address side.other).toText = none ∨
      store.identities (setting.address side.other).toText =
        some (setting.parties.identity side.other).identity.key.serialize

/-- Once the bundle is processed, the stores keep a session that begins. -/
theorem linked_start
    {bundle : PreKeyBundle}
    {draws : Draws}
    {store : Side → InMemoryProtocolStore}
    {after : InMemoryProtocolStore}
    (commutes : Curve.Commutes)
    (publishes : setting.parties.Publishes)
    (isPublished : bundle.published.init = .ok setting.parties.published)
    (owns : ∀ side, setting.Owns side (store side))
    (unmet :
      (store .responder).getSession (setting.address .initiator) = none)
    (now : draws.nowSecs + unacknowledgedLifetimeSecs < 2 ^ 64)
    (processed :
      Async.run (processBundle draws bundle (setting.address .responder))
          (store .initiator) =
        (after, .ok ())) :
    ∃ beginning session,
      setting.parties.Begins beginning ∧
        Linked setting beginning
          (Devices.start (Function.update store .initiator after)) session := by
  obtain ⟨record, starts, rfl⟩ := processBundle_eq_ok processed
  obtain ⟨published, earlier, us, settled, isSame, _, isUs, started, rfl,
    short⟩ := Bridge.sessionStart_eq_ok starts
  obtain rfl := Outcome.ok.inj (isPublished.symm.trans isSame)
  obtain rfl := Outcome.ok.inj ((owns .initiator).identity.symm.trans isUs)
  rw [(owns .initiator).registrationId] at started
  obtain ⟨beginning, state, begins, made, rfl⟩ :=
    Parties.start_begins publishes started
  have nowSecs : draws.nowSecs < 2 ^ 64 := by omega
  obtain ⟨line, half, posts, inStep⟩ :=
    @Parties.Begins.init_inStep _ _ _ _ _ setting.parties beginning setting.names
      draws.start.sending draws.nowSecs earlier state publishes commutes begins
      nowSecs made
  have stands := (inStep.seated .initiator).stands rfl
  have timely :
      ¬ (setting.parties.opening beginning draws.nowSecs state).StampOverflows := by
    rintro ⟨pending, isPending, late⟩
    obtain rfl := Option.some.inj isPending
    exact absurd late (Nat.not_le.mpr now)
  have speaks :
      Speaks setting.parties .initiator
        (earlier.promote
          (setting.parties.opening beginning draws.nowSecs state)) :=
    speaks_of_stands stands rfl timely
  refine ⟨beginning, _, begins, ⟨line, half, posts, inStep⟩, ?_, fun side => ?_,
    fun side => rfl, fun side => rfl⟩
  · refine ⟨fun side current isCurrent => ?_, Nat.two_pow_pos 31⟩
    cases side with
    | initiator =>
        have inside :=
          current.length_pqState_le.trans (Archive.length_current_le isCurrent)
        exact inside.trans_lt (short.trans (by decide))
    | responder => cases isCurrent
  · cases side with
    | initiator =>
        have named :
            (setting.parties.identity .responder).identity.key.serialize =
              bundle.identityKey := by
          rw [← identityKey_of_published isPublished, publishes.identity]
          rfl
        have keeps :
            Keeps setting.parties .initiator (setting.address .responder)
              (((store .initiator).saveIdentity (setting.address .responder)
                  bundle.identityKey).saveSession (setting.address .responder)
                (earlier.promote
                  (setting.parties.opening beginning draws.nowSecs
                    state)).serialize)
              (earlier.promote
                (setting.parties.opening beginning draws.nowSecs state)) := by
          refine ⟨(owns .initiator).identity, (owns .initiator).registrationId,
            Or.inr ?_, Function.update_self .., fun _ => short, fun _ => speaks⟩
          rw [← named]
          exact Function.update_self ..
        exact keeps
    | responder =>
        exact ⟨(owns .responder).identity, (owns .responder).registrationId,
          (owns .responder).pins, unmet, fun isSome => absurd rfl isSome,
          fun isSome => absurd rfl isSome⟩

/--
Once one device has processed the other's bundle, both may encrypt while their
records say so, and each reads the messages of the other in their order.
-/
theorem devices_complete
    [LawfulKem]
    {bundle : PreKeyBundle}
    {draws : Draws}
    {store : Side → InMemoryProtocolStore}
    {after : InMemoryProtocolStore}
    (generates : ∀ seed, ∃ keys, Kem.generate seed = some keys)
    (total : Curve.Total)
    (commutes : Curve.Commutes)
    (correct : Cipher.AesCorrect)
    (publishes : setting.parties.Publishes)
    (isPublished : bundle.published.init = .ok setting.parties.published)
    (owns : ∀ side, setting.Owns side (store side))
    (unmet :
      (store .responder).getSession (setting.address .initiator) = none)
    (now : draws.nowSecs + unacknowledgedLifetimeSecs < 2 ^ 64)
    (processed :
      Async.run (processBundle draws bundle (setting.address .responder))
          (store .initiator) =
        (after, .ok ()))
    (reachable :
      setting.Reachable (Function.update store .initiator after) devices) :
    setting.Complete devices := by
  obtain ⟨beginning, session, begins, linkedStart⟩ :=
    linked_start commutes publishes isPublished owns unmet now processed
  have linked : ∃ session, Linked setting beginning devices session := by
    induction reachable with
    | start => exact ⟨session, linkedStart⟩
    | step before step few inductionHypothesis =>
        obtain ⟨session, linked⟩ := inductionHypothesis
        exact linked.step generates total commutes correct publishes begins step
          few
  obtain ⟨session, linked⟩ := linked
  refine ⟨?_, ?_, ?_, ?_⟩
  · intro side draws text localAddress room isLocal usable
    rcases linked.encrypts generates begins room isLocal with
      ⟨message, settled, ends, _, _⟩ | ⟨refused, ends, _, noRoom⟩
    · exact Or.inl ⟨_, _, ends⟩
    · rw [noRoom usable] at ends
      exact Or.inr ends
  · intro side text message draws localAddress isNext
    exact linked.called isNext draws localAddress
  · intro side text message draws localAddress decryption isNext unused holds
      isLocal isCall
    rcases linked.decrypts total commutes correct publishes begins isNext unused
        holds isLocal isCall with ⟨after, _, ends, _⟩ | ends
    · exact Or.inl ⟨after, ends⟩
    · exact Or.inr ends
  · intro side
    obtain ⟨line, half, posts, inStep⟩ := linked.inStep
    have front := inStep.opened side
    rw [linked.read, linked.sent, List.map_map]
    exact front

end Linked

section Witness

open Sample

attribute [local instance] hashes curves aes kem capsules

/-- The address of one device. -/
private def nearAddress : ProtocolAddress :=
  ⟨[97], 1, Nat.one_ne_zero, ProtocolAddress.one_lt⟩

/-- The address of the other. -/
private def farAddress : ProtocolAddress :=
  ⟨[98], 1, Nat.one_ne_zero, ProtocolAddress.one_lt⟩

/-- The two devices of the sample run. -/
private def letterSetting : Setting where
  parties := letterParties
  address := fun side =>
    match side with
    | .initiator => nearAddress
    | .responder => farAddress

/-- What the answering device has published. -/
private def letterBundle : PreKeyBundle where
  registrationId := 7
  deviceId := 1
  preKeyId := some 4
  preKey := some (letterPair 12).publicKey.serialize
  signedPreKeyId := 5
  signedPreKey := (letterPair 11).publicKey.serialize
  signedPreKeySignature := (Block.zero 64).bytes
  identityKey := (letterPair 1).publicKey.serialize
  kyberPreKeyId := 6
  kyberPreKey := letterPq.publicKey.serialize
  kyberPreKeySignature := (Block.zero 64).bytes

/-- The store of a device before the run. -/
private def letterStore (side : Side) : InMemoryProtocolStore where
  identity := (letterParties.identity side).pair.secret.serialize
  registrationId := 7
  identities := fun _ => none
  sessions := fun _ => none
  preKeys := fun _ => none
  signedPreKeys := fun _ => none
  kyberPreKeys := fun _ => none
  kyberUsed := ∅
  senderKeys := fun _ => none
  small := InMemoryProtocolStore.seven_lt

/-- What the sample calls draw. -/
private def deviceDraws : Draws :=
  ⟨1000, Ratchet.letterDraws, Ratchet.letterDraw, fun _ => Block.zero 32,
    ⟨Block.zero 4, Block.zero 32, Block.zero 32⟩, Block.zero 64⟩

/-- The starting device after its start. -/
private def deviceStart :
    InMemoryProtocolStore × Outcome Thrown Unit :=
  Async.run (processBundle deviceDraws letterBundle farAddress)
    (letterStore .initiator)

/-- The starting device after its first message. -/
private def deviceSend :
    InMemoryProtocolStore × Outcome Thrown CiphertextMessage :=
  Async.run (sessionEncrypt deviceDraws [1] farAddress none) deviceStart.1

/-- The first message. -/
@[irreducible] private def deviceMessage : CiphertextMessage :=
  match deviceSend.2 with
  | .ok message => message
  | _ => ⟨0, []⟩

set_option maxRecDepth 100000 in
/-- The steps of the sample devices. -/
private theorem device_steps :
    letterBundle.published.init = .ok letterParties.published ∧
      deviceStart.2 = .ok () ∧ deviceSend.2 = .ok deviceMessage := by
  decide +kernel

/-- A sample device processes the other's bundle. -/
private theorem device_starts :
    Async.run (processBundle deviceDraws letterBundle farAddress)
        (letterStore .initiator) =
      (deviceStart.1, .ok ()) := by
  rw [← device_steps.2.1]
  exact (Prod.mk.eta : (deviceStart.1, deviceStart.2) = deviceStart).symm

/-- A sample device sends a letter. -/
private theorem device_sends :
    Async.run (sessionEncrypt deviceDraws [1] farAddress none) deviceStart.1 =
      (deviceSend.1, .ok deviceMessage) := by
  rw [← device_steps.2.2]
  exact (Prod.mk.eta : (deviceSend.1, deviceSend.2) = deviceSend).symm

/-- The sample stores hold their parties' identities. -/
private theorem letterSetting_owns (side : Side) :
    letterSetting.Owns side (letterStore side) := by
  cases side with
  | initiator => exact ⟨by decide, rfl, Or.inl rfl⟩
  | responder => exact ⟨by decide, rfl, Or.inl rfl⟩

private theorem devices_total : Curve.Total := by
  refine ⟨fun _ => ⟨_, rfl⟩, fun _ _ secret => ⟨_, rfl⟩⟩

/-- Completeness of the run that sends the sample letter. -/
theorem devices_complete_sent :
    letterSetting.Complete
      (((Devices.start
          (Function.update letterStore .initiator deviceStart.1)).keep
        .initiator deviceSend.1).logSent .initiator ([1], deviceMessage)) := by
  have lawful : LawfulKem := lawfulKem
  have sends :
      letterSetting.Step
        (Devices.start (Function.update letterStore .initiator deviceStart.1))
        (((Devices.start
            (Function.update letterStore .initiator deviceStart.1)).keep
          .initiator deviceSend.1).logSent .initiator ([1], deviceMessage)) := by
    refine @Setting.Step.encrypts letterSetting _ _ _ _ _ _ .initiator
      deviceDraws [1] none deviceMessage deviceSend.1 (by decide) (Or.inl rfl) ?_
    rw [Devices.store_start_update]
    exact device_sends
  refine @devices_complete hashes curves aes kem capsules letterSetting _ lawful
    letterBundle deviceDraws letterStore deviceStart.1 (fun seed => ⟨_, rfl⟩)
    devices_total commutes Cipher.sample_aesCorrect letterParties_publishes
    device_steps.1 letterSetting_owns rfl
    (by simp [deviceDraws, unacknowledgedLifetimeSecs]) device_starts ?_
  exact .step .start sends (by
    rw [Setting.Few, Devices.sent_logSent_self]
    decide)

end Witness

end Api

end Gossveil
