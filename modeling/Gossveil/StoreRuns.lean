import Gossveil.FirstMessages
import Gossveil.StoreCalls

namespace Gossveil.Api

open Abi Ratchet Interleaving

/-!
# Which calls may overlap

A call looks at the cells of its address, of its group or of the keys it names.
As long as none is made that shares a changed cell with one still going, the
interleaving of all of them comes to the calls made one after the other.
-/

/-! ## The cells of the store -/

/-- A place of the store that a call can read or write. -/
inductive StoreCell where
  | own
  | identities (name : Text)
  | sessions (name : Text)
  | preKeys (id : Nat)
  | signedPreKeys (id : Nat)
  | kyberPreKeys (id : Nat)
  | senderKeys (name : Text)
  deriving DecidableEq

/-- What a place holds. -/
def StoreCell.Value : StoreCell → Type
  | .own => Bytes × Nat
  | .identities _ => Option Bytes
  | .sessions _ => Option Bytes
  | .preKeys _ => Option Bytes
  | .signedPreKeys _ => Option Bytes
  | .kyberPreKeys _ => Option Bytes
  | .senderKeys _ => Option Bytes

/-- What a store holds in a place. -/
def InMemoryProtocolStore.view
    (store : InMemoryProtocolStore) :
    (cell : StoreCell) →
    cell.Value
  | .own => (store.identity, store.registrationId)
  | .identities name => store.identities name
  | .sessions name => store.sessions name
  | .preKeys id => store.preKeys id
  | .signedPreKeys id => store.signedPreKeys id
  | .kyberPreKeys id => store.kyberPreKeys id
  | .senderKeys name => store.senderKeys name

/-- What is marked as used is the log. -/
def layout :
    Layout InMemoryProtocolStore StoreCell StoreCell.Value (Finset Nat) where
  view := InMemoryProtocolStore.view
  log := InMemoryProtocolStore.kyberUsed
  ext := by
    rintro ⟨⟩ ⟨⟩ views logs
    obtain ⟨identity, registrationId⟩ := Prod.mk.inj (views .own)
    have identities := funext fun name => views (.identities name)
    have sessions := funext fun name => views (.sessions name)
    have preKeys := funext fun id => views (.preKeys id)
    have signedPreKeys := funext fun id => views (.signedPreKeys id)
    have kyberPreKeys := funext fun id => views (.kyberPreKeys id)
    have senderKeys := funext fun name => views (.senderKeys name)
    simp only [InMemoryProtocolStore.view] at *
    simp_all

/-! ## What is asked for -/

/-- The calls of the client, with their arguments. -/
inductive Action where
  | processBundle (bundle : PreKeyBundle) (address : ProtocolAddress)
  | sessionEncrypt
      (message : Bytes)
      (address : ProtocolAddress)
      (localAddress : Option ProtocolAddress)
  | sessionDecrypt
      (message : WhisperMessage)
      (address : ProtocolAddress)
      (localAddress : Option ProtocolAddress)
  | sessionDecryptPreKey
      (message : PreKeyMessage)
      (address : ProtocolAddress)
      (localAddress : Option ProtocolAddress)
  | processSenderKeyDistributionMessage
      (sender : ProtocolAddress)
      (message : SenderKeyDistributionMessage)
  | createDistribution (sender : ProtocolAddress) (distributionId : Text)
  | groupEncrypt
      (sender : ProtocolAddress)
      (distributionId : Text)
      (message : Bytes)
  | groupDecrypt (sender : ProtocolAddress) (message : Bytes)
  | savePreKey (id : Nat) (record : Bytes)
  | saveSignedPreKey (id : Nat) (record : Bytes)
  | saveKyberPreKey (id : Nat) (record : Bytes)

/-- What a call returns. -/
inductive Answer where
  | nothing
  | ciphertext (message : CiphertextMessage)
  | bytes (data : Bytes)
  deriving DecidableEq

/-- A call and what it draws. -/
structure Request where
  draws : Draws
  action : Action

section Footprints

variable [LowerCase]

/-- The cell of the group a note names. -/
def groupCells (sender : ProtocolAddress) (message : Bytes) : List StoreCell :=
  match Bridge.noteParse message with
  | .ok note =>
      match bytesToUuid note.circleId.bytes with
      | .ok distributionId =>
          [.senderKeys (senderKeyName sender distributionId)]
      | .error _ => []
      | .trap => []
  | .error _ => []
  | .trap => []

theorem eq_senderKeys_of_mem
    {sender : ProtocolAddress}
    {message : Bytes}
    {cell : StoreCell}
    (member : cell ∈ groupCells sender message) :
    ∃ name, cell = .senderKeys name := by
  unfold groupCells at member
  split at member
  · split at member
    · exact ⟨_, List.mem_singleton.mp member⟩
    · cases member
    · cases member
  · cases member
  · cases member

/-- The cells a call changes. -/
def Action.writes : Action → List StoreCell
  | .processBundle _ address =>
      [.identities address.toText, .sessions address.toText]
  | .sessionEncrypt _ address _ => [.sessions address.toText]
  | .sessionDecrypt _ address _ =>
      [.identities address.toText, .sessions address.toText]
  | .sessionDecryptPreKey message address _ =>
      .identities address.toText :: .sessions address.toText ::
        message.info.oneTimeId.toList.map .preKeys
  | .processSenderKeyDistributionMessage sender message =>
      [.senderKeys (senderKeyName sender message.distributionId)]
  | .createDistribution sender distributionId =>
      [.senderKeys (senderKeyName sender distributionId)]
  | .groupEncrypt sender distributionId _ =>
      [.senderKeys (senderKeyName sender distributionId)]
  | .groupDecrypt sender message => groupCells sender message
  | .savePreKey id _ => [.preKeys id]
  | .saveSignedPreKey id _ => [.signedPreKeys id]
  | .saveKyberPreKey id _ => [.kyberPreKeys id]

/-- The cells a call looks at and does not change. -/
def Action.reads : Action → List StoreCell
  | .processBundle _ _ => [.own]
  | .sessionEncrypt _ address _ => [.identities address.toText]
  | .sessionDecrypt _ _ _ => []
  | .sessionDecryptPreKey message _ _ =>
      .own :: .signedPreKeys message.info.signedId ::
        message.info.pqId.toList.map .kyberPreKeys
  | .processSenderKeyDistributionMessage _ _ => []
  | .createDistribution _ _ => []
  | .groupEncrypt _ _ _ => []
  | .groupDecrypt _ _ => []
  | .savePreKey _ _ => []
  | .saveSignedPreKey _ _ => []
  | .saveKyberPreKey _ _ => []

/-- The places a call reads or writes. -/
def Action.uses (action : Action) : List StoreCell :=
  action.reads ++ action.writes

end Footprints

/-- An answer as what it is. -/
def answering {α : Type} (answer : α → Answer) (routine : Async α) : Async Answer := do
  let value ← routine
  return answer value

section Routines

variable [Hashes] [Curves] [Aes] [Kem] [Capsules] [LowerCase]

/-- The routine that a call runs. -/
def Request.routine (request : Request) : Async Answer :=
  match request.action with
  | .processBundle bundle address =>
      answering (fun _ => .nothing)
        (processBundle request.draws bundle address)
  | .sessionEncrypt message address localAddress =>
      answering .ciphertext
        (sessionEncrypt request.draws message address localAddress)
  | .sessionDecrypt message address localAddress =>
      answering .bytes
        (sessionDecrypt request.draws message address localAddress)
  | .sessionDecryptPreKey message address localAddress =>
      answering .bytes
        (sessionDecryptPreKey request.draws message address localAddress)
  | .processSenderKeyDistributionMessage sender message =>
      answering (fun _ => .nothing)
        (processSenderKeyDistributionMessage sender message)
  | .createDistribution sender distributionId =>
      answering .bytes
        (createDistribution request.draws sender distributionId)
  | .groupEncrypt sender distributionId message =>
      answering .ciphertext
        (groupEncrypt request.draws sender distributionId message)
  | .groupDecrypt sender message =>
      answering .bytes (groupDecrypt sender message)
  | .savePreKey id record =>
      answering (fun _ => .nothing)
        (Async.write (·.savePreKey id record))
  | .saveSignedPreKey id record =>
      answering (fun _ => .nothing)
        (Async.write (·.saveSignedPreKey id record))
  | .saveKyberPreKey id record =>
      answering (fun _ => .nothing)
        (Async.write (·.saveKyberPreKey id record))

/-! ## The footprints hold -/

section Within

variable {α β : Type} {uses writes : Set StoreCell}

/-- An asynchronous function that looks at and changes these cells only. -/
abbrev Confined (uses writes : Set StoreCell) (routine : Async α) : Prop :=
  Within layout uses writes routine

omit [Hashes] [Curves] [Aes] [Kem] [Capsules] [LowerCase]

/-- Computing uses no cell. -/
theorem confined_lift (outcome : Outcome Thrown α) :
    Confined uses writes (Async.lift outcome) :=
  .done outcome

/-- A sequence of confined steps is confined. -/
theorem confined_bind
    {first : Async α}
    {next : α → Async β}
    (confined : Confined uses writes first)
    (follows : ∀ value, Confined uses writes (next value)) :
    Confined uses writes (first >>= next) := by
  refine Within.bind confined fun result => ?_
  cases result with
  | ok value => exact follows value
  | error thrown => exact .done _
  | trap => exact .done _

/-- Only what the computation comes to is gone on with. -/
theorem confined_lift_bind
    {outcome : Outcome Thrown α}
    {next : α → Async β}
    (follows : ∀ value, outcome = .ok value → Confined uses writes (next value)) :
    Confined uses writes (Async.lift outcome >>= next) := by
  cases outcome with
  | ok value => exact follows value rfl
  | error thrown => exact .done _
  | trap => exact .done _

/-- Answering uses no cell. -/
theorem confined_pure (value : α) :
    Confined uses writes (pure value : Async α) :=
  .done _

/-- Naming the answer uses no cell. -/
theorem confined_answering
    {answer : α → Answer}
    {routine : Async α}
    (confined : Confined uses writes routine) :
    Confined uses writes (answering answer routine) :=
  confined_bind confined fun _ => confined_pure _

/-- A look at one cell. -/
theorem confined_read
    (isPart : writes ⊆ uses)
    {cell : StoreCell}
    (member : cell ∈ uses)
    {look : InMemoryProtocolStore → Outcome Thrown α}
    (looks :
      ∀ {store other : InMemoryProtocolStore},
        store.view cell = other.view cell →
        look store = look other) :
    Confined uses writes (Async.read look) :=
  Within.read isPart fun agree => looks (agree cell member)

/-- One cell is set. -/
theorem confined_write
    (isPart : writes ⊆ uses)
    {cell : StoreCell}
    (member : cell ∈ writes)
    {change : InMemoryProtocolStore → InMemoryProtocolStore}
    (sets : Sets layout cell change) :
    Confined uses writes (Async.write change) :=
  Within.set isPart sets member _

end Within

omit [Hashes] [Curves] [Aes] [Kem] [Capsules] [LowerCase] in
/-- What was thrown is passed on, and only what was returned gone on with. -/
theorem relies_bind
    {invariant : InMemoryProtocolStore → Prop}
    {allowed : InMemoryProtocolStore → InMemoryProtocolStore → Prop}
    {α β : Type}
    {holds : Outcome Thrown α → Prop}
    {holdsNext : Outcome Thrown β → Prop}
    {first : Async α}
    {next : α → Async β}
    (relies : Routine.Relies invariant allowed holds first)
    (follows :
      ∀ value,
        holds (.ok value) →
        Routine.Relies invariant allowed holdsNext (next value))
    (throws : ∀ thrown, holds (.error thrown) → holdsNext (.error thrown))
    (traps : holds .trap → holdsNext .trap) :
    Routine.Relies invariant allowed holdsNext (first >>= next : Async β) := by
  refine Routine.Relies.bind relies fun result here => ?_
  cases result with
  | ok value => exact follows value here
  | error thrown => exact .done (throws thrown here)
  | trap => exact .done (traps here)

/-! ### What is set -/

section Saves

omit [Hashes] [Curves] [Aes] [Kem] [Capsules] [LowerCase]

/-- A cell is set; what is the store's own stays. -/
def InMemoryProtocolStore.put
    (store : InMemoryProtocolStore) :
    (cell : StoreCell) →
    cell.Value →
    InMemoryProtocolStore
  | .own, _ => store
  | .identities name, value =>
      { store with identities := Function.update store.identities name value }
  | .sessions name, value =>
      { store with sessions := Function.update store.sessions name value }
  | .preKeys id, value =>
      { store with preKeys := Function.update store.preKeys id value }
  | .signedPreKeys id, value =>
      { store with
        signedPreKeys := Function.update store.signedPreKeys id value }
  | .kyberPreKeys id, value =>
      { store with
        kyberPreKeys := Function.update store.kyberPreKeys id value }
  | .senderKeys name, value =>
      { store with senderKeys := Function.update store.senderKeys name value }

/-- A cell that is put holds what was put. -/
theorem view_put_self
    (store : InMemoryProtocolStore)
    {cell : StoreCell}
    (notOwn : cell ≠ .own)
    (value : cell.Value) :
    (store.put cell value).view cell = value := by
  cases cell with
  | own => exact absurd rfl notOwn
  | identities name | sessions name | senderKeys name =>
      exact Function.update_self ..
  | preKeys id | signedPreKeys id | kyberPreKeys id =>
      exact Function.update_self ..

/-- Putting a cell leaves the others. -/
theorem view_put_of_ne
    (store : InMemoryProtocolStore)
    {cell other : StoreCell}
    (differs : other ≠ cell)
    (value : cell.Value) :
    (store.put cell value).view other = store.view other := by
  -- Only a cell of the same kind needs the names or ids to differ.
  cases cell <;> cases other <;>
    first
    | rfl
    | exact Function.update_of_ne (fun same => differs (congrArg _ same)) ..

/-- Every save and every removal sets one cell. -/
theorem sets_put
    (cell : StoreCell)
    (notOwn : cell ≠ .own)
    (value : cell.Value) :
    Sets layout cell (·.put cell value) where
  same store other :=
    (view_put_self store notOwn value).trans
      (view_put_self other notOwn value).symm
  others store _ differs := view_put_of_ne store differs value
  log _ := by cases cell <;> rfl

end Saves

/-! ### What is consumed -/

section Consumes

omit [LowerCase]

omit [Aes] [Kem] in
/-- What is consumed is what the message names. -/
theorem consumed_of_sessionFor
    {us : IdentityPair}
    {registrationId : Nat}
    {first : Opener}
    {offered : Offered}
    {archive taken : Archive}
    {consumed : Consumed}
    (takes :
      sessionFor us registrationId first offered archive =
        (.ok (some consumed), taken)) :
    consumed.oneTimeId = first.oneTimeId := by
  obtain ⟨found, _, _, rest⟩ := Call.bind_eq_ok.mp takes
  cases found with
  | true => cases rest
  | false =>
      obtain ⟨⟨state, other⟩, _, made, rest⟩ := Call.bind_eq_ok.mp rest
      cases rest
      have made := (Prod.mk.inj made).1
      unfold newSession at made
      cases named : responderOf us first offered with
      | trap => rw [named] at made; cases made
      | error fault => rw [named] at made; cases made
      | ok parts =>
          rw [named] at made
          obtain ⟨_, _, made⟩ := Outcome.bind_eq_ok.mp made
          obtain ⟨_, _, ⟨⟩⟩ := Outcome.bind_eq_ok.mp made
          rfl

/-- The one-time key used up is the one the message names. -/
theorem consumed_of_sessionOpenFirst
    {draws : Nat → Block 32}
    {identity existing signed oneTime pq plain record : Bytes}
    {registrationId : Nat}
    {binding : Option Binding}
    {consumed : Consumed}
    (message : PreKeyMessage)
    (opened :
      Bridge.sessionOpenFirst draws identity registrationId existing
          message.bytes signed oneTime pq binding =
        .ok (plain, record, some consumed)) :
    consumed.oneTimeId = message.info.oneTimeId := by
  obtain ⟨archive, first, offered, us, settled, _, isFirst, _, opens, _⟩ :=
    Bridge.sessionOpenFirst_eq_ok opened
  obtain ⟨taken, _, takes, _⟩ := openFirst_eq_ok opens
  rw [consumed_of_sessionFor takes, PreKeyMessage.info_eq isFirst]

end Consumes

/-! ### The calls -/

section Calls

variable {uses writes : Set StoreCell} {address sender : ProtocolAddress}

section Looks

omit [Hashes] [Curves] [Aes] [Kem] [Capsules] [LowerCase]

/-- Asking for trust uses one identity. -/
theorem confined_isTrusted
    (isPart : writes ⊆ uses)
    (member : .identities address.toText ∈ uses)
    (key : Bytes) :
    Confined uses writes
      (Async.read fun store => .ok (store.isTrustedIdentity address key)) := by
  refine confined_read isPart member fun {store other} same => ?_
  have same :
      store.identities address.toText = other.identities address.toText :=
    same
  rw [InMemoryProtocolStore.isTrustedIdentity,
    InMemoryProtocolStore.isTrustedIdentity, same]

/-- Reading a session uses its cell. -/
theorem confined_getSession
    (isPart : writes ⊆ uses)
    (member : .sessions address.toText ∈ uses) :
    Confined uses writes
      (Async.read fun store => .ok (store.getSession address)) :=
  confined_read isPart member fun same => congrArg Outcome.ok same

/-- Reading the own identity uses the own cell. -/
theorem confined_identity
    (isPart : writes ⊆ uses)
    (member : .own ∈ uses) :
    Confined uses writes (Async.read fun store => .ok store.identity) :=
  confined_read isPart member fun same =>
    congrArg Outcome.ok (Prod.mk.inj same).1

/-- Reading the registration identifier uses the own cell. -/
theorem confined_registrationId
    (isPart : writes ⊆ uses)
    (member : .own ∈ uses) :
    Confined uses writes (Async.read fun store => .ok store.registrationId) :=
  confined_read isPart member fun same =>
    congrArg Outcome.ok (Prod.mk.inj same).2

/-- Reading a sender key uses its cell. -/
theorem confined_getSenderKey
    [LowerCase]
    (isPart : writes ⊆ uses)
    {distributionId : Text}
    (member : .senderKeys (senderKeyName sender distributionId) ∈ uses) :
    Confined uses writes
      (Async.read fun store =>
        .ok (store.getSenderKey sender distributionId)) :=
  confined_read isPart member fun same => congrArg Outcome.ok same

/-- Reading a named key uses its cell, if one is named. -/
theorem confined_named
    {get : InMemoryProtocolStore → Nat → Outcome Thrown Bytes}
    {id : Option Nat}
    (confined :
      ∀ key ∈ id,
        Confined uses writes (Async.read fun store => get store key)) :
    Confined uses writes (named get id) := by
  cases id with
  | none => exact confined_pure _
  | some key => exact confined key rfl

/-- Changing a named key uses its cell, if one is named. -/
theorem confined_change
    {update : InMemoryProtocolStore → Nat → InMemoryProtocolStore}
    {id : Option Nat}
    (confined :
      ∀ key ∈ id,
        Confined uses writes (Async.write fun store => update store key)) :
    Confined uses writes (change update id) := by
  cases id with
  | none => exact confined_pure _
  | some key => exact confined key rfl

/-- A commit uses the identity and the session of its address. -/
theorem confined_commit
    (isPart : writes ⊆ uses)
    (identity : .identities address.toText ∈ writes)
    (session : .sessions address.toText ∈ writes)
    (draws : Draws)
    (record : Bytes) :
    Confined uses writes (commit draws record address) := by
  refine confined_bind (confined_lift _) fun info => ?_
  refine confined_bind
    (confined_isTrusted isPart (isPart identity) _) fun trusted => ?_
  refine confined_bind (confined_lift _) fun _ => ?_
  refine confined_bind
    (confined_write isPart identity
      (sets_put (.identities _) nofun (some _))) fun _ => ?_
  exact confined_write isPart session (sets_put (.sessions _) nofun (some _))

end Looks

section Sessions

variable (draws : Draws)

omit [LowerCase]

omit [Aes] [Kem] in
/-- The cells that processing a bundle uses. -/
theorem confined_processBundle
    (isPart : writes ⊆ uses)
    (own : .own ∈ uses)
    (identity : .identities address.toText ∈ writes)
    (session : .sessions address.toText ∈ writes)
    (bundle : PreKeyBundle) :
    Confined uses writes (processBundle draws bundle address) := by
  refine confined_bind
    (confined_isTrusted isPart (isPart identity) _) fun trusted => ?_
  refine confined_bind (confined_lift _) fun _ => ?_
  refine confined_bind (confined_identity isPart own) fun _ => ?_
  refine confined_bind (confined_registrationId isPart own) fun _ => ?_
  refine confined_bind
    (confined_getSession isPart (isPart session)) fun existing => ?_
  refine confined_bind (confined_lift _) fun record => ?_
  refine confined_bind
    (confined_write isPart identity
      (sets_put (.identities _) nofun (some _))) fun _ => ?_
  exact confined_write isPart session (sets_put (.sessions _) nofun (some _))

omit [Capsules]

omit [Curves] in
/-- The cells that encrypting uses. -/
theorem confined_sessionEncrypt
    (isPart : writes ⊆ uses)
    (identity : .identities address.toText ∈ uses)
    (session : .sessions address.toText ∈ writes)
    (message : Bytes)
    (localAddress : Option ProtocolAddress) :
    Confined uses writes
      (sessionEncrypt draws message address localAddress) := by
  refine confined_bind
    (confined_getSession isPart (isPart session)) fun found => ?_
  refine confined_bind (confined_lift _) fun existing => ?_
  refine confined_bind (confined_lift _) fun made => ?_
  refine confined_bind (confined_lift _) fun info => ?_
  refine confined_bind
    (confined_isTrusted isPart identity _) fun trusted => ?_
  refine confined_bind (confined_lift _) fun _ => ?_
  refine confined_bind
    (confined_write isPart session (sets_put (.sessions _) nofun (some _))) fun _ => ?_
  exact confined_pure _

/-- The cells that decrypting uses. -/
theorem confined_sessionDecrypt
    (isPart : writes ⊆ uses)
    (identity : .identities address.toText ∈ writes)
    (session : .sessions address.toText ∈ writes)
    (message : WhisperMessage)
    (localAddress : Option ProtocolAddress) :
    Confined uses writes
      (sessionDecrypt draws message address localAddress) := by
  refine confined_bind
    (confined_getSession isPart (isPart session)) fun existing => ?_
  refine confined_bind (confined_lift _) fun existing => ?_
  refine confined_bind (confined_lift _) fun opened => ?_
  refine confined_bind
    (confined_commit isPart identity session _ _) fun _ => ?_
  exact confined_pure _

/-- The cells that decrypting a first message uses. -/
theorem confined_sessionDecryptPreKey
    [Capsules]
    {message : PreKeyMessage}
    (isPart : writes ⊆ uses)
    (own : .own ∈ uses)
    (identity : .identities address.toText ∈ writes)
    (session : .sessions address.toText ∈ writes)
    (signed : .signedPreKeys message.info.signedId ∈ uses)
    (oneTime : ∀ id ∈ message.info.oneTimeId, .preKeys id ∈ writes)
    (pq : ∀ id ∈ message.info.pqId, .kyberPreKeys id ∈ uses)
    (localAddress : Option ProtocolAddress) :
    Confined uses writes
      (sessionDecryptPreKey draws message address localAddress) := by
  refine confined_bind
    (confined_isTrusted isPart (isPart identity) _) fun trusted => ?_
  refine confined_bind (confined_lift _) fun _ => ?_
  refine confined_bind (confined_identity isPart own) fun _ => ?_
  refine confined_bind (confined_registrationId isPart own) fun _ => ?_
  refine confined_bind
    (confined_getSession isPart (isPart session)) fun existing => ?_
  refine confined_bind (confined_read isPart signed fun same =>
    congrArg (Outcome.ofOption _) same) fun _ => ?_
  refine confined_bind
    (confined_named fun id isId =>
      confined_read isPart (isPart (oneTime id isId)) fun same =>
        congrArg (Outcome.ofOption _) same)
    fun _ => ?_
  refine confined_bind
    (confined_named fun id isId =>
      confined_read isPart (pq id isId) fun same =>
        congrArg (Outcome.ofOption _) same)
    fun _ => ?_
  refine confined_lift_bind fun opened isOpened => ?_
  obtain ⟨plain, record, consumed⟩ := opened
  refine confined_bind
    (confined_commit isPart identity session _ _) fun _ => ?_
  cases consumed with
  | none => exact confined_pure _
  | some consumed =>
      have named :=
        consumed_of_sessionOpenFirst message (Outcome.mapError_eq_ok.mp isOpened)
      refine confined_bind ?_ fun _ =>
        confined_bind ?_ fun _ => confined_pure _
      · rw [named]
        exact confined_change fun id isId =>
          confined_write isPart (oneTime id isId)
            (sets_put (.preKeys id) nofun none)
      · exact confined_change fun id isId =>
          Within.mark isPart (fun store cell => by cases cell <;> rfl)
            (fun store => rfl) _

end Sessions

section Groups

variable {distributionId : Text} {message : Bytes}

omit [Hashes] [Aes] [Kem] [Capsules]

omit [Curves] in
/-- The cell that taking in a sender key uses. -/
theorem confined_processSenderKeyDistributionMessage
    (isPart : writes ⊆ uses)
    {message : SenderKeyDistributionMessage}
    (member :
      .senderKeys (senderKeyName sender message.distributionId) ∈ writes) :
    Confined uses writes
      (processSenderKeyDistributionMessage sender message) := by
  refine confined_bind
    (confined_getSenderKey isPart (isPart member)) fun existing => ?_
  refine confined_bind (confined_lift _) fun record => ?_
  exact confined_write isPart member (sets_put (.senderKeys _) nofun (some _))

/-- The cell that handing out a sender key uses. -/
theorem confined_createDistribution
    (isPart : writes ⊆ uses)
    (member : .senderKeys (senderKeyName sender distributionId) ∈ writes)
    (draws : Draws) :
    Confined uses writes (createDistribution draws sender distributionId) := by
  refine confined_bind
    (confined_getSenderKey isPart (isPart member)) fun existing => ?_
  refine confined_bind (confined_lift _) fun circleId => ?_
  refine confined_bind (confined_lift _) fun made => ?_
  refine confined_bind
    (confined_write isPart member (sets_put (.senderKeys _) nofun (some _))) fun _ => ?_
  exact confined_bind (confined_lift _) fun _ => confined_pure _

variable [Hashes] [Aes]

/-- The cell that encrypting for a group uses. -/
theorem confined_groupEncrypt
    (isPart : writes ⊆ uses)
    (member : .senderKeys (senderKeyName sender distributionId) ∈ writes)
    (draws : Draws) :
    Confined uses writes
      (groupEncrypt draws sender distributionId message) := by
  refine confined_bind
    (confined_getSenderKey isPart (isPart member)) fun found => ?_
  refine confined_bind (confined_lift _) fun record => ?_
  refine confined_bind (confined_lift _) fun circleId => ?_
  refine confined_bind (confined_lift _) fun made => ?_
  refine confined_bind
    (confined_write isPart member (sets_put (.senderKeys _) nofun (some _))) fun _ => ?_
  exact confined_pure _

/-- The cells that decrypting from a group uses. -/
theorem confined_groupDecrypt
    (isPart : writes ⊆ uses)
    (members : ∀ cell ∈ groupCells sender message, cell ∈ writes) :
    Confined uses writes (groupDecrypt sender message) := by
  refine confined_lift_bind fun note isNote => ?_
  refine confined_lift_bind fun distributionId isText => ?_
  have member :
      .senderKeys (senderKeyName sender distributionId) ∈ writes := by
    refine members _ ?_
    rw [groupCells, Outcome.mapError_eq_ok.mp isNote]
    simp only [isText, List.mem_singleton]
  refine confined_bind
    (confined_getSenderKey isPart (isPart member)) fun found => ?_
  refine confined_bind (confined_lift _) fun record => ?_
  refine confined_bind (confined_lift _) fun opened => ?_
  refine confined_bind
    (confined_write isPart member (sets_put (.senderKeys _) nofun (some _))) fun _ => ?_
  exact confined_pure _

end Groups

end Calls

/-! ## Runs -/

/-- Every request stays within its cells. -/
theorem Request.confined (request : Request) :
    Confined {cell | cell ∈ request.action.uses}
      {cell | cell ∈ request.action.writes} request.routine := by
  have isPart :
      {cell | cell ∈ request.action.writes} ⊆
        {cell | cell ∈ request.action.uses} :=
    fun cell member => List.mem_append_right _ member
  obtain ⟨draws, action⟩ := request
  cases action with
  | processBundle bundle address =>
      exact confined_answering (confined_processBundle draws isPart
        (by simp [Action.uses, Action.reads]) (by simp [Action.writes])
        (by simp [Action.writes]) bundle)
  | sessionEncrypt message address localAddress =>
      exact confined_answering (confined_sessionEncrypt draws isPart
        (by simp [Action.uses, Action.reads]) (by simp [Action.writes])
        message localAddress)
  | sessionDecrypt message address localAddress =>
      exact confined_answering (confined_sessionDecrypt draws isPart
        (by simp [Action.writes]) (by simp [Action.writes]) message
        localAddress)
  | sessionDecryptPreKey message address localAddress =>
      exact confined_answering (confined_sessionDecryptPreKey draws isPart
        (by simp [Action.uses, Action.reads]) (by simp [Action.writes])
        (by simp [Action.writes]) (by simp [Action.uses, Action.reads])
        (by simp [Action.writes])
        (fun id isId => by simp [Action.uses, Action.reads, Option.mem_def.mp isId])
        localAddress)
  | processSenderKeyDistributionMessage sender message =>
      exact confined_answering
        (confined_processSenderKeyDistributionMessage isPart
          (by simp [Action.writes]))
  | createDistribution sender distributionId =>
      exact confined_answering
        (confined_createDistribution isPart (by simp [Action.writes]) draws)
  | groupEncrypt sender distributionId message =>
      exact confined_answering
        (confined_groupEncrypt isPart (by simp [Action.writes]) draws)
  | groupDecrypt sender message =>
      exact confined_answering
        (confined_groupDecrypt isPart fun cell member => member)
  | savePreKey id record =>
      exact confined_answering (confined_write isPart
        (by simp [Action.writes]) (sets_put (.preKeys id) nofun (some record)))
  | saveSignedPreKey id record =>
      exact confined_answering (confined_write isPart
        (by simp [Action.writes]) (sets_put (.signedPreKeys id) nofun (some record)))
  | saveKyberPreKey id record =>
      exact confined_answering (confined_write isPart
        (by simp [Action.writes]) (sets_put (.kyberPreKeys id) nofun (some record)))

/-- The calls with their footprints. -/
def service : Service layout Request (Outcome Thrown Answer) where
  routine := Request.routine
  uses request := {cell | cell ∈ request.action.uses}
  writes request := {cell | cell ∈ request.action.writes}
  isPart _ _ member := List.mem_append_right _ member
  within := Request.confined

/-- Neither of two calls changes a cell the other one looks at. -/
def Action.Apart (action other : Action) : Prop :=
  (∀ cell ∈ action.writes, cell ∉ other.uses) ∧
    ∀ cell ∈ other.writes, cell ∉ action.uses

instance (action other : Action) : Decidable (action.Apart other) :=
  inferInstanceAs (Decidable (_ ∧ _))

/-- The store, and every call that was made with what is left of it. -/
abbrev Client : Type :=
  Going InMemoryProtocolStore Request (Outcome Thrown Answer)

/-- What is called is apart from every call that is still going. -/
def Admits (client : Client) : Turn Request → Prop
  | .call request =>
      ∀ call ∈ client.calls,
        call.2.answer = none →
        call.1.action.Apart request.action
  | .resume _ => True

/-- A run in which every call is admitted when it is made. -/
def AdmitsAll (client : Client) : List (Turn Request) → Prop
  | [] => True
  | turn :: turns =>
      Admits client turn ∧ AdmitsAll (client.step service turn) turns

/-- Requests apart from each other use different cells. -/
theorem Action.Apart.service
    {request other : Request}
    (apart : request.action.Apart other.action) :
    service.Apart request other :=
  ⟨apart.1, apart.2⟩

theorem admitsAll_service
    {client : Client}
    {turns : List (Turn Request)}
    (admits : AdmitsAll client turns) :
    service.AdmitsAll client turns := by
  induction turns generalizing client with
  | nil => trivial
  | cons turn turns inductionHypothesis =>
      refine ⟨?_, inductionHypothesis admits.2⟩
      cases turn with
      | resume index => trivial
      | call request =>
          exact fun call member going =>
            (admits.1 call member going).service

theorem run_resumes
    (client : Client)
    (indices : List Nat) :
    client.run service (indices.map .resume) = client.resumeAll indices := by
  rw [Going.run, List.foldl_map]
  rfl

/--
Where no call is made that shares a changed cell with a call still going, every
run can be brought to its end, and a run at its end has left the store and
given the answers of the same calls made one after the other.
-/
theorem calls_serial
    (store : InMemoryProtocolStore)
    {turns : List (Turn Request)}
    (admits : AdmitsAll (Going.start store) turns) :
    (∃ (indices : List Nat) (answers : List (Outcome Thrown Answer)),
        ((Going.start store).run service
            (turns ++ indices.map .resume)).answers =
          some answers) ∧
      ∀ answers,
        ((Going.start store).run service turns).answers = some answers →
          (((Going.start store).run service turns).store, answers) =
            serially ((called turns).map Request.routine) store := by
  refine ⟨?_, fun answers isEnd =>
    service.run_serial (admitsAll_service admits) isEnd⟩
  obtain ⟨indices, answers, isEnd⟩ :=
    ((Going.start store).run service turns).exists_end
  refine ⟨indices, answers, ?_⟩
  rw [Going.run, List.foldl_append]
  change (((Going.start store).run service turns).run service _).answers = _
  rw [run_resumes]
  exact isEnd

end Routines

section Witness

open Sample

attribute [local instance] hashes curves aes kem capsules

/-- Lower case already. -/
@[reducible] private def sampleLowerCase : LowerCase :=
  ⟨id⟩

attribute [local instance] sampleLowerCase

/-- An address with a name of one character. -/
private def sampleAddress (unit : UInt16) : ProtocolAddress :=
  ⟨[unit], 1, Nat.one_ne_zero, ProtocolAddress.one_lt⟩

/-- A session with each of two addresses. -/
private def sampleStore : InMemoryProtocolStore where
  identity := []
  registrationId := 1
  identities := fun _ => none
  sessions := fun name =>
    if name = (sampleAddress 97).toText ∨ name = (sampleAddress 98).toText then
      some (Ratchet.Archive.serialize ⟨some Ratchet.sampleState, []⟩)
    else
      none
  preKeys := fun _ => none
  signedPreKeys := fun _ => none
  kyberPreKeys := fun _ => none
  kyberUsed := ∅
  senderKeys := fun _ => none
  small := ProtocolAddress.one_lt

/-- Draws of zeroes. -/
private def sampleDraws : Draws :=
  ⟨0, ⟨Block.zero 32, Block.zero 32, Block.zero 32⟩, ⟨Block.zero 64, Block.zero 32⟩,
    fun _ => Block.zero 32, ⟨Block.zero 4, Block.zero 32, Block.zero 32⟩,
    Block.zero 64⟩

/-- A send to each of two addresses, and a key saved in between. -/
private def sampleTurns : List (Turn Request) :=
  [.call ⟨sampleDraws, .sessionEncrypt [1] (sampleAddress 97) none⟩,
    .call ⟨sampleDraws, .savePreKey 1 [2]⟩,
    .call ⟨sampleDraws, .sessionEncrypt [3] (sampleAddress 98) none⟩,
    .resume 2, .resume 0, .resume 0, .resume 2]

/-- What the calls of the sample run answer. -/
private def sampleAnswers : Option (List (Outcome Thrown Answer)) :=
  ((Going.start sampleStore).run service sampleTurns).answers

/-- What the send at a place has answered. -/
@[irreducible] private def sampleSent (place : Nat) : CiphertextMessage :=
  match sampleAnswers.bind (·[place]?) with
  | some (.ok (.ciphertext sent)) => sent
  | _ => ⟨0, []⟩

set_option maxRecDepth 100000 in
/-- The sample calls, their pieces in turn, answer. -/
private theorem samples_sent :
    ((Going.start sampleStore).run service sampleTurns).answers =
      some
        [.ok (.ciphertext (sampleSent 0)), .ok .nothing,
          .ok (.ciphertext (sampleSent 2))] := by
  decide +kernel

/-- The sample calls end as they do one after another. -/
theorem calls_serial_sends :
    (∃ (indices : List Nat) (answers : List (Outcome Thrown Answer)),
        ((Going.start sampleStore).run service
            (sampleTurns ++ indices.map .resume)).answers =
          some answers) ∧
      (((Going.start sampleStore).run service sampleTurns).store,
          [.ok (.ciphertext (sampleSent 0)), .ok .nothing,
            .ok (.ciphertext (sampleSent 2))]) =
        serially ((called sampleTurns).map Request.routine) sampleStore := by
  have first :
      (Action.sessionEncrypt [1] (sampleAddress 97) none).Apart
        (.savePreKey 1 [2]) := by
    decide
  have second :
      (Action.sessionEncrypt [1] (sampleAddress 97) none).Apart
        (.sessionEncrypt [3] (sampleAddress 98) none) := by
    decide
  have third :
      (Action.savePreKey 1 [2]).Apart
        (.sessionEncrypt [3] (sampleAddress 98) none) := by
    decide
  obtain ⟨ends, isSerial⟩ :=
    @calls_serial hashes curves aes kem capsules sampleLowerCase sampleStore
      sampleTurns (by
        refine ⟨?_, ?_, ?_, trivial, trivial, trivial, trivial, trivial⟩
        · rintro call ⟨⟩
        · intro call member _
          rw [Going.call_calls] at member
          obtain rfl := List.mem_singleton.mp member
          exact first
        · intro call member _
          rw [Going.call_calls, Going.call_calls] at member
          rcases List.mem_cons.mp member with rfl | member
          · exact second
          · obtain rfl := List.mem_singleton.mp member
            exact third)
  exact ⟨ends, isSerial _ samples_sent⟩

end Witness

end Gossveil.Api
