import Gossveil.StoreRuns
import Gossveil.WasmTrust

namespace Gossveil

/-!
# A known identity stays

Once the identity of an address is known, no run of calls replaces it, however
they interleave.  Every bundle processed for the address is then of that
identity, and so is every session that a message to it was sealed with or a
message from it opened by.
-/

open Abi Ratchet Interleaving

namespace Api

/-- The identity that is known for an address. -/
def Pinned
    (address : ProtocolAddress)
    (key : Bytes)
    (store : InMemoryProtocolStore) :
    Prop :=
  store.identities address.toText = some key

/-- If a call is for the address, the identity is the one that is known. -/
def Agrees
    (address : ProtocolAddress)
    (key : Bytes)
    (other : ProtocolAddress)
    (identity : Bytes) :
    Prop :=
  other.toText = address.toText → identity = key

/-- The record is of an identity that agrees. -/
def RecordAgrees
    (address : ProtocolAddress)
    (key : Bytes)
    (other : ProtocolAddress)
    (record : Bytes)
    (nowSecs : Nat) :
    Prop :=
  ∃ info,
    Bridge.sessionInfo record nowSecs = .ok info ∧
      Agrees address key other info.remoteIdentity

section Upholds

variable
  {α β : Type}
  {address other : ProtocolAddress}
  {key identity : Bytes}
  {store : InMemoryProtocolStore}
  {holds : α → Prop}
  {holdsNext : β → Prop}

/-- Only the known identity is trusted. -/
theorem agrees_of_isTrusted
    (pinned : Pinned address key store)
    (trusted : store.isTrustedIdentity other identity = true) :
    Agrees address key other identity := by
  intro same
  rw [InMemoryProtocolStore.isTrustedIdentity, same, pinned] at trusted
  exact (WasmApi.eq_of_bytesEqual trusted).symm

/-- Saving the identity a pin names keeps the pin. -/
theorem pinned_saveIdentity
    (agrees : Agrees address key other identity)
    (pinned : Pinned address key store) :
    Pinned address key (store.saveIdentity other identity) := by
  by_cases same : address.toText = other.toText
  · rw [← agrees same.symm, Pinned, same]
    exact Function.update_self ..
  · exact (Function.update_of_ne same _ _).trans pinned

/-- Each piece keeps the known identity; what is returned satisfies a predicate. -/
abbrev Upholds
    (address : ProtocolAddress)
    (key : Bytes)
    (holds : α → Prop)
    (routine : Async α) :
    Prop :=
  Routine.Relies (Pinned address key) (fun _ after => Pinned address key after)
    (fun result => ∀ value, result = .ok value → holds value)
    routine

/-- Computing keeps the pin. -/
theorem upholds_lift
    {outcome : Outcome Thrown α}
    (each : ∀ value, outcome = .ok value → holds value) :
    Upholds address key holds (Async.lift outcome) :=
  .done each

/-- Reading keeps the pin. -/
theorem upholds_read
    {look : InMemoryProtocolStore → Outcome Thrown α}
    (each :
      ∀ store value,
        Pinned address key store →
        look store = .ok value →
        holds value) :
    Upholds address key holds (Async.read look) :=
  .piece (fun _ pinned => pinned) fun store pinned =>
    .done fun value => each store value pinned

/-- A look whose result is not relied on. -/
theorem upholds_look (look : InMemoryProtocolStore → Outcome Thrown α) :
    Upholds address key (fun _ => True) (Async.read look) :=
  upholds_read fun _ _ _ _ => trivial

/-- A write that keeps the pin. -/
theorem upholds_write
    {change : InMemoryProtocolStore → InMemoryProtocolStore}
    (keeps :
      ∀ store, Pinned address key store → Pinned address key (change store)) :
    Upholds address key (fun _ => True) (Async.write change) :=
  .piece keeps fun _ _ => .done fun _ _ => trivial

/-- The session is saved last. -/
theorem upholds_saveSession
    {holds : Unit → Prop}
    {record : Bytes}
    (here : holds ()) :
    Upholds address key holds (Async.write (·.saveSession other record)) :=
  .piece (fun _ pinned => pinned) fun _ _ => .done fun _ _ => here

/-- A sequence keeps the pin when its parts do. -/
theorem upholds_bind
    {first : Async α}
    {next : α → Async β}
    (upholds : Upholds address key holds first)
    (follows :
      ∀ value, holds value → Upholds address key holdsNext (next value)) :
    Upholds address key holdsNext (first >>= next) :=
  relies_bind upholds (fun value each => follows value (each value rfl))
    (by rintro _ _ _ ⟨⟩) (by rintro _ _ ⟨⟩)

/-- Answering keeps the pin. -/
theorem upholds_pure
    {value : α}
    (here : holds value) :
    Upholds address key holds (pure value : Async α) :=
  .done (by
    rintro _ ⟨⟩
    exact here)

/-- Under a pin only its identity is trusted. -/
theorem upholds_isTrusted :
    Upholds address key
      (fun trusted => trusted = true → Agrees address key other identity)
      (Async.read fun store => .ok (store.isTrustedIdentity other identity)) :=
  upholds_read fun store trusted pinned isTrusted trusts => by
    obtain rfl := Outcome.ok.inj isTrusted
    exact agrees_of_isTrusted pinned trusts

/-- What is trusted agrees, or the call has ended. -/
theorem upholds_require
    {condition : Prop}
    [Decidable condition]
    {thrown : Thrown} :
    Upholds address key (fun _ => condition)
      (Async.lift (Outcome.require thrown condition)) :=
  upholds_lift fun _ isTrue => Outcome.require_eq_ok.mp isTrue

/-- Reading a named key keeps the pin. -/
theorem upholds_named
    (get : InMemoryProtocolStore → Nat → Outcome Thrown Bytes)
    (id : Option Nat) :
    Upholds address key (fun _ => True) (named get id) := by
  cases id with
  | none => exact upholds_pure trivial
  | some id => exact upholds_look _

/-- Changing a named key keeps the pin when the change does. -/
theorem upholds_change
    {update : InMemoryProtocolStore → Nat → InMemoryProtocolStore}
    (keeps :
      ∀ store id,
        Pinned address key store →
        Pinned address key (update store id))
    (id : Option Nat) :
    Upholds address key (fun _ => True) (change update id) := by
  cases id with
  | none => exact upholds_pure trivial
  | some id => exact upholds_write fun store => keeps store id

/-- A commit keeps the pin, and its record agrees with it. -/
theorem upholds_commit
    (draws : Draws)
    (record : Bytes) :
    Upholds address key
      (fun _ => RecordAgrees address key other record draws.nowSecs)
      (commit draws record other) := by
  refine upholds_bind
    (upholds_lift fun info isInfo => Outcome.mapError_eq_ok.mp isInfo)
    fun info isInfo => ?_
  refine upholds_bind upholds_isTrusted fun trusted agrees => ?_
  refine upholds_bind upholds_require fun _ isTrusted => ?_
  have agrees := agrees isTrusted
  refine upholds_bind
    (upholds_write fun _ => pinned_saveIdentity agrees) fun _ _ => ?_
  exact upholds_saveSession ⟨info, isInfo, agrees⟩

/-- The known identity stays when the cell it is kept in is not changed. -/
theorem upholds_of_confined
    {uses writes : Set StoreCell}
    {routine : Async α}
    (confined : Confined uses writes routine)
    (notWritten : .identities address.toText ∉ writes)
    (each : ∀ value, holds value) :
    Upholds address key holds routine :=
  (Within.relies confined notWritten (some key)).mono (fun _ _ => trivial)
    (fun _ _ pinned keeps => keeps pinned) fun _ _ value _ => each value

end Upholds

/-! ## The calls -/

section Calls

variable {address other : ProtocolAddress} {key : Bytes}

section Seals

variable [Hashes] [Aes] [Kem]

/-- A session of an agreeing identity has sealed what is sent. -/
def SealedFor
    (address : ProtocolAddress)
    (key : Bytes)
    (draws : Draws)
    (message : Bytes)
    (other : ProtocolAddress)
    (localAddress : Option ProtocolAddress)
    (sent : CiphertextMessage) :
    Prop :=
  ∃ record after,
    Bridge.sessionSeal record message draws.nowSecs
          (binding localAddress (some other)) draws.sealing =
        .ok (sent.messageType, sent.bytes, after) ∧
      RecordAgrees address key other after draws.nowSecs

/-- Encrypting keeps the pin. -/
theorem upholds_sessionEncrypt
    (draws : Draws)
    (message : Bytes)
    (localAddress : Option ProtocolAddress) :
    Upholds address key (SealedFor address key draws message other localAddress)
      (sessionEncrypt draws message other localAddress) := by
  refine upholds_bind (upholds_look _) fun session _ => ?_
  refine upholds_bind (upholds_lift fun _ _ => trivial)
    fun record (_ : True) => ?_
  refine upholds_bind
    (upholds_lift fun made seals => Outcome.mapError_eq_ok.mp seals)
    fun made seals => ?_
  obtain ⟨kind, sealed, after⟩ := made
  refine upholds_bind
    (upholds_lift fun info isInfo => Outcome.mapError_eq_ok.mp isInfo)
    fun info isInfo => ?_
  refine upholds_bind upholds_isTrusted fun trusted agrees => ?_
  refine upholds_bind upholds_require fun _ isTrusted => ?_
  refine upholds_bind (upholds_write fun _ pinned => pinned) fun _ _ => ?_
  exact upholds_pure ⟨record, after, seals, info, isInfo, agrees isTrusted⟩

variable [Curves]

/-- A session of an agreeing identity has opened what is returned. -/
def OpenedFrom
    (address : ProtocolAddress)
    (key : Bytes)
    (draws : Draws)
    (message : WhisperMessage)
    (other : ProtocolAddress)
    (localAddress : Option ProtocolAddress)
    (plain : Bytes) :
    Prop :=
  ∃ record after,
    Bridge.sessionOpen draws.opening record message.bytes
          (binding (some other) localAddress) =
        .ok (plain, after) ∧
      RecordAgrees address key other after draws.nowSecs

/-- Decrypting keeps the pin. -/
theorem upholds_sessionDecrypt
    (draws : Draws)
    (message : WhisperMessage)
    (localAddress : Option ProtocolAddress) :
    Upholds address key
      (OpenedFrom address key draws message other localAddress)
      (sessionDecrypt draws message other localAddress) := by
  refine upholds_bind (upholds_look _) fun session _ => ?_
  refine upholds_bind (upholds_lift fun _ _ => trivial)
    fun record (_ : True) => ?_
  refine upholds_bind
    (upholds_lift fun opened opens => Outcome.mapError_eq_ok.mp opens)
    fun opened opens => ?_
  obtain ⟨plain, after⟩ := opened
  refine upholds_bind (upholds_commit draws after) fun _ agrees => ?_
  exact upholds_pure ⟨record, after, opens, agrees⟩

variable [Capsules]

/--
A first message of an agreeing identity was opened by a session of an agreeing
identity.
-/
def FirstOpenedFrom
    (address : ProtocolAddress)
    (key : Bytes)
    (draws : Draws)
    (message : PreKeyMessage)
    (other : ProtocolAddress)
    (localAddress : Option ProtocolAddress)
    (plain : Bytes) :
    Prop :=
  Agrees address key other message.info.identity ∧
    ∃ identity registrationId record signed oneTime pq after consumed,
      Bridge.sessionOpenFirst draws.opening identity registrationId record
            message.bytes signed oneTime pq (binding (some other) localAddress) =
          .ok (plain, after, consumed) ∧
        RecordAgrees address key other after draws.nowSecs

/-- Decrypting a first message keeps the pin. -/
theorem upholds_sessionDecryptPreKey
    (draws : Draws)
    (message : PreKeyMessage)
    (localAddress : Option ProtocolAddress) :
    Upholds address key
      (FirstOpenedFrom address key draws message other localAddress)
      (sessionDecryptPreKey draws message other localAddress) := by
  refine upholds_bind upholds_isTrusted fun trusted agrees => ?_
  refine upholds_bind upholds_require fun _ isTrusted => ?_
  refine upholds_bind (upholds_look _) fun identity _ => ?_
  refine upholds_bind (upholds_look _) fun registrationId _ => ?_
  refine upholds_bind (upholds_look _) fun existing _ => ?_
  refine upholds_bind (upholds_look _) fun signed _ => ?_
  refine upholds_bind (upholds_named ..) fun oneTime _ => ?_
  refine upholds_bind (upholds_named ..) fun pq _ => ?_
  refine upholds_bind
    (upholds_lift fun opened opens => Outcome.mapError_eq_ok.mp opens)
    fun opened opens => ?_
  obtain ⟨plain, after, consumed⟩ := opened
  refine upholds_bind (upholds_commit draws after) fun _ recordAgrees => ?_
  have opened :
      FirstOpenedFrom address key draws message other localAddress plain :=
    ⟨agrees isTrusted, identity, registrationId, _, signed, oneTime, pq, after,
      consumed, opens, recordAgrees⟩
  cases consumed with
  | none => exact upholds_pure opened
  | some consumed =>
      refine upholds_bind (upholds_change ?_ _) fun _ _ =>
        upholds_bind (upholds_change ?_ _) fun _ _ => upholds_pure opened
      · exact fun _ _ pinned => pinned
      · exact fun _ _ pinned => pinned

omit [Aes] [Kem] in
/-- Processing a bundle keeps the pin. -/
theorem upholds_processBundle
    (draws : Draws)
    (bundle : PreKeyBundle) :
    Upholds address key (fun _ => Agrees address key other bundle.identityKey)
      (processBundle draws bundle other) := by
  refine upholds_bind upholds_isTrusted fun trusted agrees => ?_
  refine upholds_bind upholds_require fun _ isTrusted => ?_
  have agrees := agrees isTrusted
  refine upholds_bind (upholds_look _) fun identity _ => ?_
  refine upholds_bind (upholds_look _) fun registrationId _ => ?_
  refine upholds_bind (upholds_look _) fun existing _ => ?_
  refine upholds_bind (upholds_lift fun _ _ => trivial)
    fun record (_ : True) => ?_
  refine upholds_bind
    (upholds_write fun _ => pinned_saveIdentity agrees) fun _ _ => ?_
  exact upholds_saveSession agrees

/-- What the answer of a call says of the identity of its address. -/
def Vouched
    (address : ProtocolAddress)
    (key : Bytes)
    (request : Request) :
    Answer →
    Prop
  | .nothing =>
      match request.action with
      | .processBundle bundle other =>
          Agrees address key other bundle.identityKey
      | _ => True
  | .ciphertext sent =>
      match request.action with
      | .sessionEncrypt message other localAddress =>
          SealedFor address key request.draws message other localAddress sent
      | _ => True
  | .bytes plain =>
      match request.action with
      | .sessionDecrypt message other localAddress =>
          OpenedFrom address key request.draws message other localAddress plain
      | .sessionDecryptPreKey message other localAddress =>
          FirstOpenedFrom address key request.draws message other localAddress
            plain
      | _ => True

omit [Hashes] [Curves] [Aes] [Kem] [Capsules] in
/-- Naming the answer keeps the pin. -/
theorem upholds_answering
    {α : Type}
    {holds : α → Prop}
    {vouches : Answer → Prop}
    {answer : α → Answer}
    {routine : Async α}
    (upholds : Upholds address key holds routine)
    (follows : ∀ value, holds value → vouches (answer value)) :
    Upholds address key vouches (answering answer routine) :=
  upholds_bind upholds fun value here => upholds_pure (follows value here)

variable [LowerCase]

/-- Every request keeps the pin, and its answer is vouched for. -/
theorem upholds_routine (request : Request) :
    Upholds address key (Vouched address key request)
      (service.routine request) := by
  have confined := service.within request
  obtain ⟨draws, action⟩ := request
  cases action with
  | processBundle bundle other =>
      exact upholds_answering (upholds_processBundle draws bundle)
        fun _ agrees => agrees
  | sessionEncrypt message other localAddress =>
      exact upholds_answering
        (upholds_sessionEncrypt draws message localAddress)
        fun _ isSealed => isSealed
  | sessionDecrypt message other localAddress =>
      exact upholds_answering
        (upholds_sessionDecrypt draws message localAddress)
        fun _ isOpened => isOpened
  | sessionDecryptPreKey message other localAddress =>
      exact upholds_answering
        (upholds_sessionDecryptPreKey draws message localAddress)
        fun _ isOpened => isOpened
  | groupDecrypt sender message =>
      refine upholds_of_confined confined (fun member => ?_) fun answer => ?_
      · obtain ⟨name, ⟨⟩⟩ := eq_senderKeys_of_mem member
      · cases answer <;> trivial
  | _ =>
      refine upholds_of_confined confined (by simp [service, Action.writes])
        fun answer => ?_
      cases answer <;> trivial

/-! ## Runs -/

/-- What every call that was made has left keeps to its footprint. -/
theorem confined_run
    (store : InMemoryProtocolStore)
    (turns : List (Turn Request)) :
    ((Going.start store).run service turns).Relying (fun _ => True)
      (fun _ request routine =>
        Confined (service.uses request) (service.writes request) routine) := by
  refine Going.Relying.run ⟨trivial, by rintro place request routine ⟨⟩⟩ ?_
    (Nat.zero_le 0) fun request _ _ store _ _ =>
      ⟨trivial, (service.within request).next store⟩
  rintro place request routine store confined _
  exact ⟨trivial, confined.next store⟩

/--
The identity is known, and the answers of the calls made from a place on vouch
for it.
-/
structure PinnedFrom
    (address : ProtocolAddress)
    (key : Bytes)
    (earlier : Nat)
    (client : Client) :
    Prop where
  pinned : Pinned address key client.store
  vouched :
    ∀ place request routine answer,
      earlier ≤ place →
      client.calls[place]? = some (request, routine) →
      routine.answer = some (.ok answer) →
      Vouched address key request answer

/-- What is left of a call keeps the identity; later ones vouch for it. -/
def LeftVouching
    (address : ProtocolAddress)
    (key : Bytes)
    (earlier place : Nat)
    (request : Request)
    (routine : Async Answer) :
    Prop :=
  Upholds address key
    (fun answer => earlier ≤ place → Vouched address key request answer)
    routine

omit [LowerCase] in
/-- Every resumed piece keeps the pin. -/
theorem leftVouching_moves (earlier : Nat) :
    Going.Moves (Pinned address key) (LeftVouching address key earlier) := by
  rintro place request routine store upholds pinned
  exact ⟨Routine.Relies.write upholds pinned pinned,
    Routine.Relies.next upholds pinned⟩

/--
Once the identity of an address is known and no call that could save one for it
is going, it stays known in every run, and what the calls made from then on
return comes of bundles, messages and sessions of this identity alone.
-/
theorem known_identity_pinned
    {store : InMemoryProtocolStore}
    {before turns : List (Turn Request)}
    {client : Client}
    (isClient : client = (Going.start store).run service before)
    (known : Pinned address key client.store)
    (idle :
      ∀ call ∈ client.calls,
        call.2.answer = none →
        .identities address.toText ∉ call.1.action.writes) :
    PinnedFrom address key client.calls.length (client.run service turns) := by
  have left :
      client.Relying (Pinned address key)
        (LeftVouching address key client.calls.length) := by
    refine ⟨known, fun {place request routine} isCall => ?_⟩
    have isEarlier : place < client.calls.length :=
      (List.getElem?_eq_some_iff.mp isCall).1
    cases routine with
    | done result => exact .done fun _ _ isLater => by omega
    | piece write next =>
        have made := isCall
        rw [isClient] at made
        exact upholds_of_confined ((confined_run store before).calls made)
          (idle _ (List.mem_of_getElem? isCall) rfl)
          fun _ isLater => by omega
  have relying :
      (client.run service turns).Relying (Pinned address key)
        (LeftVouching address key client.calls.length) := by
    refine left.run (leftVouching_moves _) (Nat.le_refl _) ?_
    intro request _ place store _ pinned
    have upholds :
        LeftVouching address key client.calls.length place request
          (service.routine request) :=
      (upholds_routine request).mono (fun _ same => same)
        (fun _ _ _ stays => stays)
        fun _ each answer isAnswer _ => each answer isAnswer
    exact leftVouching_moves _ upholds pinned
  exact ⟨relying.store, fun place request routine answer isLater isCall ended =>
    Routine.Relies.answer (relying.calls isCall) ended answer rfl isLater⟩

end Seals

end Calls

section Witness

open Sample

attribute [local instance] hashes curves aes kem capsules

/-- Lower case already. -/
@[reducible] private def pinnedLowerCase : LowerCase :=
  ⟨id⟩

attribute [local instance] pinnedLowerCase

/-- The address of a known peer. -/
private def pinnedAddress : ProtocolAddress :=
  ⟨[97], 1, Nat.one_ne_zero, ProtocolAddress.one_lt⟩

/-- A store that knows an identity for every address. -/
private def pinnedStore : InMemoryProtocolStore :=
  ⟨[], 1, fun _ => some [1], fun _ => none, fun _ => none, fun _ => none,
    fun _ => none, ∅, fun _ => none, ProtocolAddress.one_lt⟩

/-- Draws of zeroes. -/
private def pinnedDraws : Draws :=
  ⟨0, ⟨Block.zero 32, Block.zero 32, Block.zero 32⟩,
    ⟨Block.zero 64, Block.zero 32⟩, fun _ => Block.zero 32,
    ⟨Block.zero 4, Block.zero 32, Block.zero 32⟩, Block.zero 64⟩

/-- A bundle of another identity. -/
private def pinnedBundle : PreKeyBundle :=
  ⟨1, 1, none, none, 1, [], [], [2], 1, [], []⟩

/-- The bundle is processed while a message is encrypted. -/
private def pinnedTurns : List (Turn Request) :=
  [.call ⟨pinnedDraws, .processBundle pinnedBundle pinnedAddress⟩,
    .call ⟨pinnedDraws, .sessionEncrypt [3] pinnedAddress none⟩,
    .resume 0, .resume 1]

/-- The pin of an identity known before a bundle. -/
theorem known_identity_pinned_bundle :
    PinnedFrom pinnedAddress [1] 0
      ((Going.start pinnedStore).run service pinnedTurns) :=
  @known_identity_pinned pinnedAddress [1] hashes aes kem curves capsules
    pinnedLowerCase pinnedStore [] pinnedTurns (Going.start pinnedStore) rfl rfl
    (by rintro call ⟨⟩)

end Witness

end Api

end Gossveil
