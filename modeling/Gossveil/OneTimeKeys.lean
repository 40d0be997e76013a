import Gossveil.BridgeRuns
import Gossveil.SessionSafety
import Gossveil.StoreRuns

namespace Gossveil

/-!
# A one-time key opens one session

A first message that opens a new session takes the one-time key it names out of
the store.  As long as no record is saved under its id again, no call made from
then on that names the key opens a message or changes the store, whatever runs
in between.
-/

open Abi Ratchet Interleaving

/-! ## New sessions -/

namespace Ratchet

/-- What is revived was held. -/
theorem Archive.holds_of_revive
    {archive after : Archive}
    {version : Nat}
    {base : Bytes}
    (found : archive.revive version base = .ok (true, after)) :
    archive.Holds version base := by
  unfold revive at found
  split_ifs at found with isLive
  · exact .inl isLive
  · obtain ⟨place, state, stands, isFor, _⟩ :=
      reviveFrom_true List.drop_zero found
    cases place with
    | live => exact .inl ⟨state, stands, isFor⟩
    | shelved index =>
        obtain ⟨record, isRecord, isState⟩ := stands
        exact .inr ⟨record, List.mem_of_getElem? isRecord, state, isState, isFor⟩

/-- Where nothing is consumed the session was there. -/
theorem holds_of_sessionFor
    [Hashes] [Curves] [Capsules]
    {us : IdentityPair}
    {registrationId : Nat}
    {first : Opener}
    {offered : Offered}
    {archive taken : Archive}
    (takes :
      sessionFor us registrationId first offered archive =
        (.ok none, taken)) :
    archive.Holds first.version first.base.serialize := by
  rw [sessionFor_eq] at takes
  rcases revived : archive.revive first.version first.base.serialize with
    ⟨_ | _, after⟩ | fault | _ <;> simp only [revived] at takes
  · rcases made : newSession us registrationId first offered with
      ⟨state, consumed⟩ | error | _ <;> simp only [made] at takes <;> cases takes
  · exact Archive.holds_of_revive revived
  · cases takes
  · cases takes

end Ratchet

namespace Api

/-- The record has no session under the message's base key. -/
def PreKeyMessage.Begins (message : PreKeyMessage) (record : Option Bytes) : Prop :=
  ∀ archive first,
    archiveFrom (record.getD []) = .ok archive →
    Opener.parse message.bytes = .ok first →
    ¬ archive.Holds first.version first.base.serialize

/-- The one-time key is not in the store. -/
def Gone (id : Nat) (store : InMemoryProtocolStore) : Prop :=
  store.preKeys id = none

section Opens

variable [Hashes] [Curves] [Aes] [Kem] [Capsules]
variable
  {store after : InMemoryProtocolStore}
  {draws : Draws}
  {message : PreKeyMessage}
  {address : ProtocolAddress}
  {localAddress : Option ProtocolAddress}
  {plain : Bytes}
  {id : Nat}

omit [Hashes] [Curves] [Aes] [Kem] [Capsules] in
/-- A removed key is gone. -/
theorem gone_removePreKey : Gone id (store.removePreKey id) :=
  Function.update_self ..

/-- The first message of a new session uses up the key it names. -/
theorem gone_of_opened
    (isNamed : message.info.oneTimeId = some id)
    (begins : message.Begins (store.getSession address))
    (opened :
      Async.run (sessionDecryptPreKey draws message address localAddress)
          store =
        (after, .ok plain)) :
    Gone id after := by
  obtain ⟨_, _, ⟨⟩, opened⟩ := Async.run_bind_eq_ok.mp opened
  obtain ⟨middle, _, isTrusted, opened⟩ := Async.run_bind_eq_ok.mp opened
  obtain ⟨rfl, _⟩ := Prod.mk.inj isTrusted
  obtain ⟨_, _, ⟨⟩, opened⟩ := Async.run_bind_eq_ok.mp opened
  obtain ⟨_, _, ⟨⟩, opened⟩ := Async.run_bind_eq_ok.mp opened
  obtain ⟨_, _, ⟨⟩, opened⟩ := Async.run_bind_eq_ok.mp opened
  obtain ⟨_, signed, _, opened⟩ := Async.run_bind_eq_ok.mp opened
  obtain ⟨_, oneTime, _, opened⟩ := Async.run_bind_eq_ok.mp opened
  obtain ⟨_, pq, _, opened⟩ := Async.run_bind_eq_ok.mp opened
  obtain ⟨_, ⟨text, record, consumed⟩, opens, opened⟩ :=
    Async.run_bind_eq_ok.mp opened
  have opens := Outcome.mapError_eq_ok.mp (Prod.mk.inj opens).2
  obtain ⟨saved, _, _, opened⟩ := Async.run_bind_eq_ok.mp opened
  cases consumed with
  | none =>
      obtain ⟨archive, first, offered, us, settled, isArchive, isFirst, _,
        takes, _⟩ := Bridge.sessionOpenFirst_eq_ok opens
      obtain ⟨taken, _, takes, _⟩ := openFirst_eq_ok takes
      exact absurd (holds_of_sessionFor takes)
        (begins archive first isArchive isFirst)
  | some consumed =>
      have isConsumed := consumed_of_sessionOpenFirst message opens
      simp only [isConsumed, isNamed] at opened
      rw [Async.run_bind_of_ok (change_run ..),
        Async.run_bind_of_ok (change_run ..)] at opened
      obtain ⟨rfl, _⟩ := Prod.mk.inj opened
      cases message.info.pqId with
      | none => exact gone_removePreKey
      | some pqId => exact gone_removePreKey

end Opens

/-! ## No piece brings the key back -/

section Leaves

variable {α β : Type} {id : Nat}

/-- Where the one-time key is gone, it is gone after each piece. -/
abbrev LeavesGone (id : Nat) (routine : Async α) : Prop :=
  Routine.Relies (fun _ => True)
    (fun store after => Gone id store → Gone id after)
    (fun _ => True)
    routine

/-- Computing brings no key back. -/
theorem leavesGone_lift (outcome : Outcome Thrown α) :
    LeavesGone id (Async.lift outcome) :=
  .done trivial

/-- Reading brings no key back. -/
theorem leavesGone_read (look : InMemoryProtocolStore → Outcome Thrown α) :
    LeavesGone id (Async.read look) :=
  .piece (fun _ _ isGone => isGone) fun _ _ => .done trivial

/-- A write that brings no key back. -/
theorem leavesGone_write
    {change : InMemoryProtocolStore → InMemoryProtocolStore}
    (leaves : ∀ store, Gone id store → Gone id (change store)) :
    LeavesGone id (Async.write change) :=
  .piece (fun store _ => leaves store) fun _ _ => .done trivial

/-- A sequence brings no key back when its parts do not. -/
theorem leavesGone_bind
    {first : Async α}
    {next : α → Async β}
    (leaves : LeavesGone id first)
    (follows : ∀ value, LeavesGone id (next value)) :
    LeavesGone id (first >>= next) :=
  relies_bind leaves (fun value _ => follows value) (fun _ _ => trivial)
    fun _ => trivial

/-- Reading a named key brings none back. -/
theorem leavesGone_named
    (get : InMemoryProtocolStore → Nat → Outcome Thrown Bytes)
    (key : Option Nat) :
    LeavesGone id (named get key) := by
  cases key with
  | none => exact .done trivial
  | some key => exact leavesGone_read _

/-- Changing a named key brings none back when the change does not. -/
theorem leavesGone_change
    {update : InMemoryProtocolStore → Nat → InMemoryProtocolStore}
    (leaves : ∀ store key, Gone id store → Gone id (update store key))
    (key : Option Nat) :
    LeavesGone id (change update key) := by
  cases key with
  | none => exact .done trivial
  | some key => exact leavesGone_write fun store => leaves store key

/-- Removing a key brings none back. -/
theorem leavesGone_removePreKey
    (store : InMemoryProtocolStore)
    (key : Nat)
    (isGone : Gone id store) :
    Gone id (store.removePreKey key) := by
  by_cases here : id = key
  · rw [here]
    exact gone_removePreKey
  · exact (Function.update_of_ne here _ _).trans isGone

/-- A commit brings no key back. -/
theorem leavesGone_commit
    (draws : Draws)
    (record : Bytes)
    (address : ProtocolAddress) :
    LeavesGone id (commit draws record address) := by
  refine leavesGone_bind (leavesGone_lift _) fun _ => ?_
  refine leavesGone_bind (leavesGone_read _) fun _ => ?_
  refine leavesGone_bind (leavesGone_lift _) fun _ => ?_
  refine leavesGone_bind (leavesGone_write fun _ isGone => isGone) fun _ => ?_
  exact leavesGone_write fun _ isGone => isGone

/-- Nothing is brought back by a call that does not change the key's cell. -/
theorem leavesGone_of_confined
    {uses writes : Set StoreCell}
    {routine : Async α}
    (confined : Confined uses writes routine)
    (notWritten : .preKeys id ∉ writes) :
    LeavesGone id routine :=
  Within.relies confined notWritten none

variable [Hashes] [Curves] [Aes] [Kem] [Capsules]

/-- Decrypting a first message brings no key back. -/
theorem leavesGone_sessionDecryptPreKey
    (draws : Draws)
    (message : PreKeyMessage)
    (address : ProtocolAddress)
    (localAddress : Option ProtocolAddress) :
    LeavesGone id
      (sessionDecryptPreKey draws message address localAddress) := by
  refine leavesGone_bind (leavesGone_read _) fun _ => ?_
  refine leavesGone_bind (leavesGone_lift _) fun _ => ?_
  refine leavesGone_bind (leavesGone_read _) fun _ => ?_
  refine leavesGone_bind (leavesGone_read _) fun _ => ?_
  refine leavesGone_bind (leavesGone_read _) fun _ => ?_
  refine leavesGone_bind (leavesGone_read _) fun _ => ?_
  refine leavesGone_bind (leavesGone_named ..) fun _ => ?_
  refine leavesGone_bind (leavesGone_named ..) fun _ => ?_
  refine leavesGone_bind (leavesGone_lift _) fun opened => ?_
  obtain ⟨plain, record, consumed⟩ := opened
  refine leavesGone_bind (leavesGone_commit ..) fun _ => ?_
  cases consumed with
  | none => exact .done trivial
  | some consumed =>
      refine leavesGone_bind
        (leavesGone_change leavesGone_removePreKey _) fun _ => ?_
      refine leavesGone_bind (leavesGone_change ?_ _) fun _ => .done trivial
      exact fun _ _ isGone => isGone

end Leaves

/-! ## A call that names a key that is gone -/

section Refuses

variable {α β : Type} {id : Nat}

/-- While the one-time key is gone nothing is changed, and an error thrown. -/
abbrev Refuses (id : Nat) (routine : Async α) : Prop :=
  Routine.Relies (Gone id) Eq (fun result => ∃ thrown, result = .error thrown)
    routine

/-- A call refuses when what follows a computation does. -/
theorem refuses_lift_bind
    {outcome : Outcome Thrown α}
    {next : α → Async β}
    (noTrap : outcome ≠ .trap)
    (follows : ∀ value, outcome = .ok value → Refuses id (next value)) :
    Refuses id (Async.lift outcome >>= next) := by
  cases outcome with
  | ok value => exact follows value rfl
  | error thrown => exact .done ⟨thrown, rfl⟩
  | trap => exact absurd rfl noTrap

/-- A call refuses when what follows a read does. -/
theorem refuses_read_bind
    {look : InMemoryProtocolStore → Outcome Thrown α}
    {next : α → Async β}
    (noTrap : ∀ store, look store ≠ .trap)
    (follows :
      ∀ store value,
        Gone id store →
        look store = .ok value →
        Refuses id (next value)) :
    Refuses id (Async.read look >>= next) :=
  .piece (fun _ _ => rfl) fun store isGone =>
    refuses_lift_bind (noTrap store) fun value => follows store value isGone

/-- Naming the answer keeps a refusal. -/
theorem refuses_answering
    {answer : α → Answer}
    {routine : Async α}
    (refuses : Refuses id routine) :
    Refuses id (answering answer routine) := by
  refine Routine.Relies.bind refuses ?_
  rintro _ ⟨thrown, rfl⟩
  exact .done ⟨thrown, rfl⟩

variable [Hashes] [Curves] [Aes] [Kem] [Capsules]

/-- A first message that names a key gone is refused. -/
theorem refuses_sessionDecryptPreKey
    {message : PreKeyMessage}
    (isNamed : message.info.oneTimeId = some id)
    (draws : Draws)
    (address : ProtocolAddress)
    (localAddress : Option ProtocolAddress) :
    Refuses id
      (sessionDecryptPreKey draws message address localAddress) := by
  refine refuses_read_bind (by simp) fun _ trusted _ _ => ?_
  refine refuses_lift_bind (by simp) fun _ _ => ?_
  refine refuses_read_bind (by simp) fun _ identity _ _ => ?_
  refine refuses_read_bind (by simp) fun _ registrationId _ _ => ?_
  refine refuses_read_bind (by simp) fun _ existing _ _ => ?_
  refine refuses_read_bind (by simp [InMemoryProtocolStore.getSignedPreKey])
    fun _ signed _ _ => ?_
  rw [isNamed]
  refine refuses_read_bind (by simp [InMemoryProtocolStore.getPreKey])
    fun store oneTime isGone isKey => ?_
  -- The key's record is not there to be returned.
  rw [InMemoryProtocolStore.getPreKey, isGone, Outcome.ofOption_none] at isKey
  cases isKey

end Refuses

/-! ## The calls -/

/-- The call is to open a first message that names the one-time key. -/
def Action.Names (id : Nat) : Action → Prop
  | .sessionDecryptPreKey message _ _ => message.info.oneTimeId = some id
  | _ => False

/-- The call saves a record under the one-time key's id. -/
def Action.Saves (id : Nat) : Action → Prop
  | .savePreKey other _ => other = id
  | _ => False

section Calls

variable [LowerCase]

/-- A call that changes the key's cell names the key, or saves it. -/
theorem Action.preKeys_mem_writes
    {action : Action}
    {id : Nat}
    (member : .preKeys id ∈ action.writes) :
    action.Names id ∨ action.Saves id := by
  cases action with
  | sessionDecryptPreKey message address localAddress =>
      exact Or.inl (by simpa [Action.writes, Names] using member)
  | savePreKey other record =>
      exact Or.inr (by simpa [Action.writes, Saves, eq_comm] using member)
  | groupDecrypt sender message =>
      obtain ⟨name, ⟨⟩⟩ := eq_senderKeys_of_mem member
  | _ => simp [Action.writes] at member

variable [Hashes] [Curves] [Aes] [Kem] [Capsules]
variable {request : Request} {id : Nat}

/-- A request that saves no such key brings it not back. -/
theorem leavesGone_routine (unsaved : ¬ request.action.Saves id) :
    LeavesGone id (service.routine request) := by
  by_cases names : request.action.Names id
  · obtain ⟨draws, action⟩ := request
    cases action with
    | sessionDecryptPreKey message address localAddress =>
        exact leavesGone_bind (leavesGone_sessionDecryptPreKey ..)
          fun _ => .done trivial
    | _ => cases names
  · exact leavesGone_of_confined (service.within request) fun member =>
      (Action.preKeys_mem_writes member).elim names unsaved

/-- A save is done after its first piece. -/
theorem leavesGone_next
    (request : Request)
    (store : InMemoryProtocolStore) :
    LeavesGone id ((service.routine request).next store) := by
  by_cases saves : request.action.Saves id
  · obtain ⟨draws, action⟩ := request
    cases action with
    | savePreKey other record => exact .done trivial
    | _ => cases saves
  · exact (leavesGone_routine saves).next trivial

/-- A request that names a key gone is refused. -/
theorem refuses_routine (names : request.action.Names id) :
    Refuses id (service.routine request) := by
  obtain ⟨draws, action⟩ := request
  cases action with
  | sessionDecryptPreKey message address localAddress =>
      exact refuses_answering (refuses_sessionDecryptPreKey names ..)
  | _ => cases names

/-! ## Runs -/

/-- What is left of a call: it brings nothing back, and later ones refuse. -/
def LeftOver
    (id earlier : Nat)
    (place : Nat)
    (request : Request)
    (routine : Async Answer) :
    Prop :=
  LeavesGone id routine ∧
    (earlier ≤ place → request.action.Names id → Refuses id routine)

omit [LowerCase] [Hashes] [Curves] [Aes] [Kem] [Capsules] in
/-- Every resumed piece keeps the key gone. -/
theorem leftOver_moves (id earlier : Nat) :
    Going.Moves (Gone id) (LeftOver id earlier) := by
  rintro place request routine store ⟨leaves, refuses⟩ isGone
  refine ⟨leaves.write (fun same => same) trivial isGone,
    leaves.next trivial, fun isLater names => ?_⟩
  exact (refuses isLater names).next isGone

/-- What every call that was made has left brings nothing back. -/
theorem leavesGone_run
    (store : InMemoryProtocolStore)
    (turns : List (Turn Request)) :
    ((Going.start store).run service turns).Relying (fun _ => True)
      (fun _ _ routine => LeavesGone id routine) := by
  refine Going.Relying.run ⟨trivial, by rintro place request routine ⟨⟩⟩ ?_
    (Nat.zero_le 0) fun request _ _ store _ _ =>
      ⟨trivial, leavesGone_next request store⟩
  rintro place request routine store leaves _
  exact ⟨trivial, leaves.next trivial⟩

/--
The one-time key is gone, and a call made from a place on that names it changes
nothing, with its first piece or a later one, and answers with an error.
-/
structure Spent (id earlier : Nat) (client : Client) : Prop where
  gone : Gone id client.store
  begun :
    ∀ request,
      request.action.Names id →
      (client.step service (.call request)).store = client.store
  unmoved :
    ∀ place request routine,
      earlier ≤ place →
      client.calls[place]? = some (request, routine) →
      request.action.Names id →
      (client.resume place).store = client.store
  refused :
    ∀ place request routine answer,
      earlier ≤ place →
      client.calls[place]? = some (request, routine) →
      request.action.Names id →
      routine.answer = some answer →
      ∃ thrown, answer = .error thrown

/-- A key is spent while every call relies on its being gone. -/
theorem spent_of_relying
    {client : Client}
    {earlier : Nat}
    (relying : client.Relying (Gone id) (LeftOver id earlier)) :
    Spent id earlier client where
  gone := relying.store
  begun request names := by
    have same :
        client.store = (service.routine request).write client.store :=
      (refuses_routine names).write rfl relying.store
    rw [Going.call_calls]
    exact same.symm
  unmoved place request routine isLater isCall names := by
    have refuses := (relying.calls isCall).2 isLater names
    have same : client.store = routine.write client.store :=
      refuses.write rfl relying.store
    simp only [Going.resume, isCall]
    exact same.symm
  refused place request routine answer isLater isCall names isAnswer :=
    ((relying.calls isCall).2 isLater names).answer isAnswer

/--
Once a first message that names a one-time key has opened a new session, and as
long as no record is saved under the key's id, the key is gone whatever the
calls do that were going and those that are made, and of these none that names
the key opens anything.
-/
theorem one_time_key_spent
    {store after : InMemoryProtocolStore}
    {before turns : List (Turn Request)}
    {draws : Draws}
    {message : PreKeyMessage}
    {address : ProtocolAddress}
    {localAddress : Option ProtocolAddress}
    {plain : Bytes}
    {client : Client}
    (isClient : client = (Going.start store).run service before)
    (isNamed : message.info.oneTimeId = some id)
    (begins : message.Begins (client.store.getSession address))
    (opened :
      Async.run (sessionDecryptPreKey draws message address localAddress)
          client.store =
        (after, .ok plain))
    (unsaved : ∀ request ∈ called turns, ¬ request.action.Saves id) :
    Spent id client.calls.length
      ((⟨after, client.calls⟩ : Client).run service turns) := by
  have isGone : Gone id after := gone_of_opened isNamed begins opened
  have left :
      (⟨after, client.calls⟩ : Client).Relying (Gone id)
        (LeftOver id client.calls.length) := by
    refine ⟨isGone, fun {place request routine} isCall => ?_⟩
    have made := isCall
    rw [isClient] at made
    refine ⟨(leavesGone_run store before).calls made, fun isLater => ?_⟩
    -- No call made so far is at a later place.
    have inRange : place < client.calls.length :=
      (List.getElem?_eq_some_iff.mp isCall).1
    omega
  refine spent_of_relying
    (left.run (leftOver_moves id _) (Nat.le_refl _) ?_)
  intro request isCalled place store _ isGone
  have leaves := leavesGone_routine (unsaved request isCalled)
  refine ⟨leaves.write (fun same => same) trivial isGone,
    leaves.next trivial, fun _ names => ?_⟩
  exact (refuses_routine names).next isGone

end Calls

section Witness

open Codec Sample

attribute [local instance] hashes curves aes kem capsules

/-- Lower case already. -/
@[reducible] private def keyLowerCase : LowerCase :=
  ⟨id⟩

attribute [local instance] keyLowerCase

/-- The address of the sample sender. -/
private def keyAddress : ProtocolAddress :=
  ⟨[97], 1, Nat.one_ne_zero, ProtocolAddress.one_lt⟩

/-- The record of two keys under an id. -/
private def keyRecord (id : Nat) (publicKey secret : Bytes) : Bytes :=
  Writer.uint 1 id ++ Writer.bytes 2 publicKey ++ Writer.bytes 3 secret ++
    Writer.bytes 4 (Block.zero 64).bytes

/-- The record of a one-time key. -/
private def curveRecord (id : Nat) (pair : Curve.Pair) : Bytes :=
  keyRecord id pair.publicKey.serialize pair.secret.serialize

/-- A store with one one-time key, a signed one and a post-quantum one. -/
private def keyStore : InMemoryProtocolStore where
  identity := (letterParties.identity .responder).pair.secret.serialize
  registrationId := 7
  identities := fun _ => none
  sessions := fun _ => none
  preKeys := fun id =>
    if id = 4 then some (curveRecord 4 (letterPair 12)) else none
  signedPreKeys := fun id =>
    if id = 5 then some (curveRecord 5 (letterPair 11)) else none
  kyberPreKeys := fun id =>
    if id = 6 then
      some (keyRecord 6 letterPq.publicKey.serialize
        (10 :: (Block.zero 3168).bytes))
    else
      none
  kyberUsed := ∅
  senderKeys := fun _ => none
  small := InMemoryProtocolStore.seven_lt

/-- What the sample call draws. -/
private def keyDraws : Draws :=
  ⟨1000, Ratchet.letterDraws, Ratchet.letterDraw, fun _ => Block.zero 32,
    ⟨Block.zero 4, Block.zero 32, Block.zero 32⟩, Block.zero 64⟩

/-- What the sample message says before it is opened. -/
@[irreducible] private def keyParsed : Bridge.OpenerInfo × Bytes :=
  match Bridge.openerParse letterMessage.bytes with
  | .ok parsed => parsed
  | _ => (⟨0, 0, none, 0, none, [], []⟩, [])

set_option maxRecDepth 100000 in
private theorem keyParsed_eq :
    Bridge.openerParse letterMessage.bytes =
      .ok (keyParsed.1, keyParsed.2) := by
  decide +kernel

/-- A first message for the one-time key. -/
private def keyMessage : PreKeyMessage :=
  ⟨letterMessage.bytes, keyParsed.1, keyParsed.2, keyParsed_eq⟩

/-- The store after it has been opened. -/
private def keyOpened : InMemoryProtocolStore × Outcome Thrown Bytes :=
  Async.run (sessionDecryptPreKey keyDraws keyMessage keyAddress none) keyStore

set_option maxRecDepth 100000 in
private theorem key_steps :
    keyMessage.info.oneTimeId = some 4 ∧ keyOpened.2 = .ok [1] := by
  decide +kernel

/-- The first message is opened with the key. -/
private theorem key_opens :
    Async.run (sessionDecryptPreKey keyDraws keyMessage keyAddress none)
        keyStore =
      (keyOpened.1, .ok [1]) := by
  rw [← key_steps.2]
  exact (Prod.mk.eta : (keyOpened.1, keyOpened.2) = keyOpened).symm

/-- The first message begins a session. -/
private theorem keyMessage_begins :
    keyMessage.Begins (keyStore.getSession keyAddress) := by
  rintro archive first ⟨⟩ _ (⟨_, ⟨⟩, _⟩ | ⟨_, member, _⟩)
  cases member

/-- The message once more, and another key saved in between. -/
private def keyTurns : List (Turn Request) :=
  [.call ⟨keyDraws, .sessionDecryptPreKey keyMessage keyAddress none⟩,
    .call ⟨keyDraws, .savePreKey 3 [2]⟩, .resume 0]

/-- The key is spent when the message is replayed. -/
theorem one_time_key_spent_replayed :
    Spent 4 0
      ((⟨keyOpened.1, []⟩ : Client).run service keyTurns) := by
  refine @one_time_key_spent keyLowerCase hashes curves aes kem capsules 4
    keyStore keyOpened.1 [] keyTurns keyDraws keyMessage keyAddress none [1]
    (Going.start keyStore) rfl key_steps.1 keyMessage_begins key_opens ?_
  intro request member
  rcases List.mem_cons.mp member with rfl | member
  · exact id
  · obtain rfl := List.mem_singleton.mp member
    exact fun saves : 3 = 4 => absurd saves (by decide)

end Witness

end Api

end Gossveil
