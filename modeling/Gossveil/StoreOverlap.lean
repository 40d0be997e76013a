import Gossveil.SealPlaces
import Gossveil.StoreRuns

namespace Gossveil

/-!
# What overlapping sends share

A send reads the session, seals with it and stores it again.  A second send
that reads before the first has stored seals with the same chain, and its
message takes the place of the first one's.
-/

open Abi Ratchet Interleaving

namespace Api

/-- `WhisperMessage.deserialize`, or the message a first one wraps. -/
def CiphertextMessage.whisper (message : CiphertextMessage) : Outcome Fault Whisper :=
  if message.messageType = Kind.whisper.code then
    whisperIn .whisper message.bytes
  else if message.messageType = Kind.first.code then
    whisperIn .first message.bytes
  else
    .error .badMessage

/-- The message was sealed on the lane of a record. -/
def SentFrom (record : Bytes) (message : CiphertextMessage) : Prop :=
  ∃ lane inner,
    SendsOn record lane ∧ message.whisper = .ok inner ∧ At lane inner

theorem sentFrom_of_sessionSeal
    [Hashes] [Aes] [Kem]
    {record plain sealed after : Bytes}
    {nowSecs kind : Nat}
    {binding : Option Binding}
    {draw : Braid.Draw}
    (done :
      Bridge.sessionSeal record plain nowSecs binding draw =
        .ok (kind, sealed, after)) :
    SentFrom record ⟨kind, sealed⟩ := by
  obtain ⟨kind, lane, inner, _, rfl, sends, isInner, isAt, _⟩ :=
    Bridge.place_of_sessionSeal done
  refine ⟨lane, inner, sends, ?_, isAt⟩
  rw [← isInner]
  cases kind with
  | whisper => simp [CiphertextMessage.whisper]
  | first => simp [CiphertextMessage.whisper, Kind.code]
  | circle | plain => cases isInner

/-- Two messages from one record are at one place of one chain. -/
theorem SentFrom.same_place
    {record : Bytes}
    {message other : CiphertextMessage}
    (sent : SentFrom record message)
    (otherSent : SentFrom record other) :
    ∃ inner otherInner,
      message.whisper = .ok inner ∧ other.whisper = .ok otherInner ∧
        inner.ratchet = otherInner.ratchet ∧
          inner.index = otherInner.index := by
  obtain ⟨lane, inner, sends, isInner, ratchet, index⟩ := sent
  obtain ⟨other, otherInner, otherSends, isOther, otherRatchet, otherIndex⟩ :=
    otherSent
  obtain rfl := sends.unique otherSends
  exact ⟨inner, otherInner, isInner, isOther,
    ratchet.trans otherRatchet.symm, index.trans otherIndex.symm⟩

/-! ## What an asynchronous function returns -/

section Yields

variable {α β : Type} {holds : α → Prop} {holdsNext : β → Prop}

/-- Every value it returns, whatever runs in between. -/
def Yields (holds : α → Prop) (routine : Async α) : Prop :=
  Routine.Always (fun result => ∀ value, result = .ok value → holds value)
    routine

/-- Computing yields what it returns. -/
theorem yields_lift
    {outcome : Outcome Thrown α}
    (each : ∀ value, outcome = .ok value → holds value) :
    Yields holds (Async.lift outcome) :=
  .done each

/-- Of a read nothing is asked. -/
theorem yields_read (look : InMemoryProtocolStore → Outcome Thrown α) :
    Yields (fun _ => True) (Async.read look) :=
  .piece fun _ => .done fun _ _ => trivial

/-- Of a write nothing is asked. -/
theorem yields_write (change : InMemoryProtocolStore → InMemoryProtocolStore) :
    Yields (fun _ => True) (Async.write change) :=
  .piece fun _ => .done fun _ _ => trivial

/-- A sequence yields what its last part does. -/
theorem yields_bind
    {first : Async α}
    {next : α → Async β}
    (yields : Yields holds first)
    (follows : ∀ value, holds value → Yields holdsNext (next value)) :
    Yields holdsNext (first >>= next) := by
  refine Routine.Always.bind yields fun result each => ?_
  cases result with
  | ok value => exact follows value (each value rfl)
  | error thrown => exact .done (by rintro _ ⟨⟩)
  | trap => exact .done (by rintro _ ⟨⟩)

end Yields

section Sends

variable [Hashes] [Aes] [Kem]

/-- What is sent after the session was read comes of what was read. -/
theorem yields_sessionEncrypt
    (draws : Draws)
    (message : Bytes)
    (address : ProtocolAddress)
    (localAddress : Option ProtocolAddress)
    (store : InMemoryProtocolStore) :
    Yields
      (fun sent =>
        ∃ record,
          store.getSession address = some record ∧ SentFrom record sent)
      (Routine.next (sessionEncrypt draws message address localAddress)
        store) := by
  change
    Yields _
      (Async.lift
          (Outcome.ofOption (sessionNotFound address)
            (store.getSession address)) >>=
        _)
  refine yields_bind
    (yields_lift fun record isRecord => Outcome.ofOption_eq_ok.mp isRecord)
    fun record isRecord => ?_
  refine yields_bind (yields_lift fun made seals =>
      sentFrom_of_sessionSeal (Outcome.mapError_eq_ok.mp seals))
    fun made sent => ?_
  refine yields_bind (yields_lift fun _ _ => trivial)
    fun info (_ : True) => ?_
  refine yields_bind (yields_read _) fun trusted _ => ?_
  refine yields_bind (yields_lift fun _ _ => trivial) fun _ (_ : True) => ?_
  refine yields_bind (yields_write _) fun _ _ => ?_
  exact yields_lift fun _ isSent =>
    ⟨record, isRecord, Outcome.ok.inj isSent ▸ sent⟩

variable [Curves] [Capsules] [LowerCase]

/-- What the call at a place has returned or thrown. -/
def answered (client : Client) (place : Nat) : Option (Outcome Thrown Answer) :=
  client.calls[place]?.bind fun call => call.2.answer

/-- The request to send a message to an address. -/
def sending
    (draws : Draws)
    (message : Bytes)
    (address : ProtocolAddress)
    (localAddress : Option ProtocolAddress) :
    Request :=
  ⟨draws, .sessionEncrypt message address localAddress⟩

/-- What a send answers in the end comes of the session it has read. -/
theorem sentFrom_of_answered
    {client : Client}
    {draws : Draws}
    {message : Bytes}
    {address : ProtocolAddress}
    {localAddress : Option ProtocolAddress}
    {turns : List (Turn Request)}
    {sent : CiphertextMessage}
    (isAnswer :
      answered
          (client.run service
            (.call (sending draws message address localAddress) :: turns))
          client.calls.length =
        some (.ok (.ciphertext sent))) :
    ∃ record,
      client.store.getSession address = some record ∧ SentFrom record sent := by
  let request := sending draws message address localAddress
  have yields :
      Yields
        (fun answer =>
          ∀ sent,
            answer = .ciphertext sent →
            ∃ record,
              client.store.getSession address = some record ∧
                SentFrom record sent)
        (Routine.next (service.routine request) client.store) :=
    yields_bind
      (yields_sessionEncrypt draws message address localAddress client.store)
      fun made isSent => yields_lift fun _ isAnswer other isOther => by
        cases isAnswer
        cases isOther
        exact isSent
  have isCall :
      (client.step service (.call request)).calls[client.calls.length]? =
        some (request, (service.routine request).next client.store) := by
    rw [Going.call_calls]
    exact List.getElem?_concat_length
  obtain ⟨rest, isRest, always⟩ :
      ∃ rest,
        ((client.step service (.call request)).run service
            turns).calls[client.calls.length]? =
          some (request, rest) ∧ rest.Always _ :=
    Going.run_always isCall yields turns
  have ended : rest.answer = some (.ok (.ciphertext sent)) := by
    rw [answered, Going.run, List.foldl_cons] at isAnswer
    rw [Going.run] at isRest
    rw [isRest] at isAnswer
    exact isAnswer
  exact always.answer ended _ rfl _ rfl

/--
Two sends to one address of which the second reads the session as the first
has read it hand out messages with one ratchet key and one index, in whatever
order they and all other calls go on.
-/
theorem overlapping_sends_share
    {client : Client}
    {draws otherDraws : Draws}
    {message otherMessage : Bytes}
    {address : ProtocolAddress}
    {localAddress otherLocal : Option ProtocolAddress}
    {between after : List (Turn Request)}
    {sent otherSent : CiphertextMessage}
    (unchanged :
      (client.run service
            (.call (sending draws message address localAddress) ::
              between)).store.getSession address =
        client.store.getSession address)
    (isSent :
      answered
          (client.run service
            (.call (sending draws message address localAddress) :: between ++
              .call (sending otherDraws otherMessage address otherLocal) ::
                after))
          client.calls.length =
        some (.ok (.ciphertext sent)))
    (isOtherSent :
      answered
          (client.run service
            (.call (sending draws message address localAddress) :: between ++
              .call (sending otherDraws otherMessage address otherLocal) ::
                after))
          (client.run service
            (.call (sending draws message address localAddress) ::
              between)).calls.length =
        some (.ok (.ciphertext otherSent))) :
    ∃ inner otherInner,
      sent.whisper = .ok inner ∧ otherSent.whisper = .ok otherInner ∧
        inner.ratchet = otherInner.ratchet ∧
          inner.index = otherInner.index := by
  rw [List.cons_append] at isSent
  obtain ⟨record, isRecord, isFrom⟩ := sentFrom_of_answered isSent
  rw [Going.run, List.foldl_append] at isOtherSent
  obtain ⟨otherRecord, isOther, otherFrom⟩ := sentFrom_of_answered isOtherSent
  have same : (some otherRecord : Option Bytes) = some record :=
    isOther.symm.trans (unchanged.trans isRecord)
  cases same
  exact isFrom.same_place otherFrom

end Sends

section Witness

open Sample

attribute [local instance] hashes curves aes kem capsules

/-- Lower case already. -/
@[reducible] private def letterLowerCase : LowerCase :=
  ⟨id⟩

attribute [local instance] letterLowerCase

/-- The address that both sends are for. -/
private def letterAddress : ProtocolAddress :=
  ⟨[97], 1, Nat.one_ne_zero, ProtocolAddress.one_lt⟩

/-- Draws of zeroes. -/
private def letterDraws : Draws :=
  ⟨0, ⟨Block.zero 32, Block.zero 32, Block.zero 32⟩,
    ⟨Block.zero 64, Block.zero 32⟩, fun _ => Block.zero 32,
    ⟨Block.zero 4, Block.zero 32, Block.zero 32⟩, Block.zero 64⟩

/-- A client with a session for the address. -/
private def letterClient : Client :=
  .start
    ⟨[], 1, fun _ => none, fun name =>
      if name = letterAddress.toText then
        some (Archive.serialize ⟨some sampleState, []⟩)
      else
        none, fun _ => none, fun _ => none, fun _ => none, ∅, fun _ => none,
      ProtocolAddress.one_lt⟩

/-- A send of a message to the address. -/
private def letterSend (message : Bytes) : Turn Request :=
  .call (sending letterDraws message letterAddress none)

/-- The pieces of two sends in turn. -/
private def letterRests : List (Turn Request) :=
  [.resume 1, .resume 0, .resume 0, .resume 1]

/-- Both sends go on once both have read. -/
@[irreducible] private def letterSent (place : Nat) : CiphertextMessage :=
  match
    answered
      (letterClient.run service
        ([letterSend [1]] ++ letterSend [2] :: letterRests))
      place
  with
  | some (.ok (.ciphertext sent)) => sent
  | _ => ⟨0, []⟩

set_option maxRecDepth 100000 in
/-- Two sends from one stored session. -/
private theorem letters_sent :
    (letterClient.run service [letterSend [1]]).store.getSession
          letterAddress =
        letterClient.store.getSession letterAddress ∧
      (letterClient.run service [letterSend [1]]).calls.length = 1 ∧
      ∀ place ∈ [0, 1],
        answered
            (letterClient.run service
              ([letterSend [1]] ++ letterSend [2] :: letterRests))
            place =
          some (.ok (.ciphertext (letterSent place))) := by
  decide +kernel

/-- Both letters carry one ratchet key and index. -/
theorem overlapping_sends_share_letters :
    ∃ inner otherInner,
      (letterSent 0).whisper = .ok inner ∧
        (letterSent 1).whisper = .ok otherInner ∧
          inner.ratchet = otherInner.ratchet ∧
            inner.index = otherInner.index := by
  have isFirst := letters_sent.2.2 0 (by simp)
  have isSecond := letters_sent.2.2 1 (by simp)
  rw [← letters_sent.2.1] at isSecond
  exact @overlapping_sends_share hashes aes kem curves capsules
    letterLowerCase letterClient letterDraws letterDraws [1] [2] letterAddress
    none none [] letterRests (letterSent 0) (letterSent 1) letters_sent.1
    isFirst isSecond

end Witness

end Api

end Gossveil
