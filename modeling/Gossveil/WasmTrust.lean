import Gossveil.WasmClient
import Gossveil.FirstMessages

namespace Gossveil.WasmApi

open Abi Bridge Ratchet

/-!
# Trust on first use in the in-memory client

Whatever calls are interleaved, only an import changes an identity that is
pinned, and a message is opened by a session with the pinned identity.
-/

/-! ## Addresses and identities -/

/-- What stands before and after the last dot. -/
theorem append_dot_inj
    {first second digits digits' : List Char}
    (none : '.' ∉ digits)
    (none' : '.' ∉ digits')
    (same : first ++ '.' :: digits = second ++ '.' :: digits') :
    first = second ∧ digits = digits' := by
  rcases List.append_eq_append_iff.mp same with
    ⟨rest, rfl, tail⟩ | ⟨rest, rfl, tail⟩
  · cases rest with
    | nil =>
        obtain ⟨_, rfl⟩ := List.cons.inj tail
        simp
    | cons char rest =>
        obtain ⟨rfl, rfl⟩ := List.cons.inj tail
        exact absurd (by simp) none
  · cases rest with
    | nil =>
        obtain ⟨_, rfl⟩ := List.cons.inj tail
        simp
    | cons char rest =>
        obtain ⟨rfl, rfl⟩ := List.cons.inj tail
        exact absurd (by simp) none'

/-- A number is written without a dot. -/
theorem dot_not_mem_toDigits (value : Nat) :
    '.' ∉ Nat.toDigits 10 value := by
  intro member
  have digit :=
    Nat.isDigit_of_mem_toDigits (by decide) (by decide) member
  exact absurd digit (by decide)

namespace WasmProtocolAddress

/-- An address is written as its name, a dot and its device. -/
theorem toList_toText (address : WasmProtocolAddress) :
    address.toText.toList =
      address.name.toList ++ '.' :: Nat.toDigits 10 address.deviceId := by
  simp [toText]

/-- Two addresses are stored under one text only when they are the same. -/
theorem toText_inj
    {address other : WasmProtocolAddress}
    (same : address.toText = other.toText) :
    address = other := by
  have sameList := congrArg String.toList same
  rw [toList_toText, toList_toText] at sameList
  obtain ⟨sameName, sameDigits⟩ :=
    append_dot_inj (dot_not_mem_toDigits _) (dot_not_mem_toDigits _) sameList
  have sameDevice : address.deviceId = other.deviceId := by
    rw [← @Nat.ofDigitChars_ten_toDigits address.deviceId, sameDigits,
      Nat.ofDigitChars_ten_toDigits]
  have sameName := String.toList_injective sameName
  cases address
  cases other
  cases sameName
  cases sameDevice
  rfl

end WasmProtocolAddress

/-- An or of bytes is zero exactly when all are. -/
theorem foldl_or_eq_zero
    {bytes : List UInt8}
    {first : UInt8} :
    bytes.foldl (· ||| ·) first = 0 ↔ first = 0 ∧ ∀ byte ∈ bytes, byte = 0 := by
  induction bytes generalizing first with
  | nil => simp
  | cons byte bytes inductionHypothesis =>
      rw [List.foldl_cons, inductionHypothesis, UInt8.or_eq_zero_iff]
      simp [and_assoc]

/-- Bytes that do not differ anywhere are the same. -/
theorem zipWith_xor_zero
    {first second : Bytes}
    (sameLength : first.length = second.length)
    (zeroes : ∀ byte ∈ List.zipWith (· ^^^ ·) first second, byte = 0) :
    first = second := by
  induction first generalizing second with
  | nil => simpa using sameLength.symm
  | cons head rest inductionHypothesis =>
      cases second with
      | nil => cases sameLength
      | cons head' rest' =>
          rw [List.zipWith_cons_cons, List.forall_mem_cons,
            UInt8.xor_eq_zero_iff] at zeroes
          rw [zeroes.1, inductionHypothesis (Nat.succ.inj sameLength) zeroes.2]

/-- Bytes compared as equal are. -/
theorem eq_of_bytesEqual
    {first second : Bytes}
    (same : bytesEqual first second = true) :
    first = second := by
  unfold bytesEqual at same
  split_ifs at same with lengths
  have none := foldl_or_eq_zero.mp (of_decide_eq_true same)
  exact zipWith_xor_zero (not_not.mp lengths) none.2

namespace WasmInMemIdentityKeyStore

variable {store : WasmInMemIdentityKeyStore} {address : WasmProtocolAddress}
variable {identity : Bytes}

/-- A saved identity is known. -/
theorem known_save_self :
    (store.save address identity).2.known address.toText = some identity :=
  Function.update_self ..

/-- Saving leaves the other addresses. -/
theorem known_save_other
    {text : String}
    (other : text ≠ address.toText) :
    (store.save address identity).2.known text = store.known text :=
  Function.update_of_ne other ..

/-- Saving an identity that is trusted changes no other that is known. -/
theorem known_save
    (trusted : store.isTrusted address identity = true)
    {text : String}
    {known : Bytes}
    (isKnown : store.known text = some known) :
    (store.save address identity).2.known text = some known := by
  by_cases same : text = address.toText
  · subst same
    rw [isTrusted, isKnown] at trusted
    rw [known_save_self, eq_of_bytesEqual trusted]
  · rwa [known_save_other same]

end WasmInMemIdentityKeyStore

/-! ## What the calls do to the pins -/

namespace Stores

variable {stores : Stores} {handle : Nat} {store : WasmInMemIdentityKeyStore}
variable {address : WasmProtocolAddress}

/-- A store set under its handle pins what it knows. -/
theorem pinned_setIdentities_self :
    (stores.setIdentities handle store).pinned handle address =
      store.known address.toText := by
  simp [pinned, setIdentities]

/-- Setting a store leaves the other handles. -/
theorem pinned_setIdentities_other
    {other : Nat}
    (differs : other ≠ handle) :
    (stores.setIdentities handle store).pinned other address =
      stores.pinned other address := by
  simp [pinned, setIdentities, differs]

end Stores

/-- What is pinned stays pinned. -/
def PinsKept (before after : Stores) : Prop :=
  ∀ handle address identity,
    before.pinned handle address = some identity →
    after.pinned handle address = some identity

namespace PinsKept

theorem refl (stores : Stores) : PinsKept stores stores :=
  fun _ _ _ => id

/-- Saving a session keeps the pins. -/
theorem setSessions
    {before after : Stores}
    (kept : PinsKept before after)
    (handle : Nat)
    (store : WasmInMemSessionStore) :
    PinsKept before (after.setSessions handle store) :=
  kept

/-- Saving a trusted identity keeps the pins. -/
theorem save
    {stores : Stores}
    {handle : Nat}
    {address : WasmProtocolAddress}
    {identity : Bytes}
    (trusted :
      (stores.identities handle).isTrusted address identity = true) :
    PinsKept stores
      (stores.setIdentities handle
        ((stores.identities handle).save address identity).2) := by
  intro other name known isPinned
  by_cases same : other = handle
  · subst same
    rw [Stores.pinned_setIdentities_self]
    exact WasmInMemIdentityKeyStore.known_save trusted isPinned
  · rwa [Stores.pinned_setIdentities_other same]

end PinsKept

/-- A commit that succeeds leaves the session's identity pinned. -/
theorem commit_eq_ok
    {host : Host}
    {stores after : Stores}
    {record : Bytes}
    {sender : WasmProtocolAddress}
    {sessions identities : Nat}
    (commits :
      commit host stores record sender sessions identities = .ok after) :
    PinsKept stores after ∧
      ∃ info,
        sessionInfo record host.nowSecs = .ok info ∧
          after.pinned identities sender = some info.remoteIdentity := by
  obtain ⟨info, isInfo, rest⟩ := Outcome.bind_eq_ok.mp commits
  obtain ⟨_, trusted, ⟨⟩⟩ := Outcome.bind_eq_ok.mp rest
  have trusted := Outcome.require_eq_ok.mp trusted
  refine ⟨(PinsKept.save trusted).setSessions sessions _, info, isInfo, ?_⟩
  exact Stores.pinned_setIdentities_self.trans
    WasmInMemIdentityKeyStore.known_save_self

/-! ## What a part of a call adds to the log -/

/-- A plaintext is opened before it is returned. -/
theorem mem_events_opened
    {arguments other : DecryptArguments}
    {record : Option Bytes}
    {loaded plain : Bytes}
    {pinned atOpening : Option Bytes}
    {progress : Progress} :
    .opened other loaded plain atOpening ∈
        Client.events arguments record pinned progress ↔
      other = arguments ∧ record = some loaded ∧
        progress.opened = some plain ∧ atOpening = pinned := by
  cases record with
  | none => cases progress <;> simp [Client.events]
  | some record =>
      cases progress with
      | returns text =>
          simp only [Client.events, Progress.opened, List.mem_append,
            List.mem_singleton, Event.opened.injEq, reduceCtorEq, or_false,
            Option.some.injEq]
          constructor
          · rintro ⟨rfl, rfl, rfl, rfl⟩
            exact ⟨rfl, rfl, rfl, rfl⟩
          · rintro ⟨rfl, rfl, rfl, rfl⟩
            exact ⟨rfl, rfl, rfl, rfl⟩
      | awaits point =>
          cases hasOpened : (Progress.awaits point).opened with
          | none => simp [Client.events, hasOpened]
          | some text =>
              simp only [Client.events, hasOpened, List.append_nil,
                List.mem_singleton, Event.opened.injEq, Option.some.injEq]
              constructor
              · rintro ⟨rfl, rfl, rfl, rfl⟩
                exact ⟨rfl, rfl, rfl, rfl⟩
              · rintro ⟨rfl, rfl, rfl, rfl⟩
                exact ⟨rfl, rfl, rfl, rfl⟩

/-- A plaintext is returned once the call has. -/
theorem mem_events_returned
    {arguments other : DecryptArguments}
    {record : Option Bytes}
    {plain : Bytes}
    {pinned atReturn : Option Bytes}
    {progress : Progress}
    (member :
      .returned other plain atReturn ∈
        Client.events arguments record pinned progress) :
    other = arguments ∧ progress = .returns plain ∧ atReturn = pinned := by
  rcases List.mem_append.mp member with opened | returned
  · split at opened <;> simp at opened
  · cases progress with
    | awaits point => cases returned
    | returns text =>
        obtain ⟨⟩ := List.mem_singleton.mp returned
        exact ⟨rfl, rfl, rfl⟩

/-! ## The calls and the pins -/

section Calls

variable [Hashes] [Curves] [Aes] [Kem] [Capsules]
variable {host : Host} {stores after : Stores}

omit [Aes] [Kem] in
/-- Processing a bundle keeps the pins. -/
theorem processPreKeyBundle_keeps
    {arguments : BundleArguments}
    (done : processPreKeyBundle host stores arguments = .ok after) :
    PinsKept stores after := by
  obtain ⟨_, trusted, rest⟩ := Outcome.bind_eq_ok.mp done
  obtain ⟨record, _, ⟨⟩⟩ := Outcome.bind_eq_ok.mp rest
  exact (PinsKept.save (Outcome.require_eq_ok.mp trusted)).setSessions _ _

omit [Curves] [Capsules] in
/-- Encrypting keeps the pins. -/
theorem encryptMessage_keeps
    {arguments : EncryptArguments}
    {sealed : WasmCiphertext}
    (done : encryptMessage host stores arguments = .ok (after, sealed)) :
    PinsKept stores after := by
  obtain ⟨_, _, rest⟩ := Outcome.bind_eq_ok.mp done
  obtain ⟨⟨kind, body, record⟩, _, rest⟩ := Outcome.bind_eq_ok.mp rest
  obtain ⟨info, _, rest⟩ := Outcome.bind_eq_ok.mp rest
  obtain ⟨_, _, ⟨⟩⟩ := Outcome.bind_eq_ok.mp rest
  exact (PinsKept.refl stores).setSessions _ _

/-! ## Which session opens a message -/

/-- A session of the record, or the one it begins, opens the message first. -/
inductive OpensFor
    (arguments : DecryptArguments)
    (record : Bytes)
    (session : State)
    (plain : Bytes) :
    Prop where
  | whisper
      {archive : Archive}
      {message : Whisper}
      {draws : Nat → Block 32}
      {place : Place}
      {advanced : State}
      (isArchive : archiveFrom record = .ok archive)
      (isMessage : Whisper.parse arguments.ciphertext = .ok message)
      (opens :
        FirstToOpen draws message
          (binding arguments.sender arguments.localAddress)
          archive.candidates place session plain advanced)
  | first
      {archive taken : Archive}
      {us : IdentityPair}
      {registrationId : Nat}
      {first : Opener}
      {offered : Offered}
      {consumed : Option Consumed}
      {message : Whisper}
      {draws : Nat → Block 32}
      {place : Place}
      {advanced : State}
      (isArchive : archiveFrom record = .ok archive)
      (isFirst : Opener.parse arguments.ciphertext = .ok first)
      (takes :
        sessionFor us registrationId first offered archive =
          (.ok consumed, taken))
      (isMessage : Whisper.parse first.inner = .ok message)
      (opens :
        FirstToOpen draws message
          (binding arguments.sender arguments.localAddress)
          taken.candidates place session plain advanced)

omit [Capsules] in
/-- The session that opens a message stays the same one, and is live then. -/
theorem openWithArchive_live
    {draws : Nat → Block 32}
    {message : Whisper}
    {names : Option Binding}
    {archive settled : Archive}
    {plain : Bytes}
    (opened :
      openWithArchive draws message names archive = (.ok plain, settled)) :
    ∃ place session advanced,
      FirstToOpen draws message names archive.candidates place session plain
          advanced ∧
        settled.current = some advanced ∧
        advanced.remoteKey = session.remoteKey := by
  obtain ⟨place, session, advanced, _, isFirst, rfl⟩ :=
    openWithArchive_ok opened
  exact ⟨place, session, advanced, isFirst,
    archive.current_settle place advanced,
    (openWithState_same isFirst.opens).remoteKey⟩

/-! ## The parts of a decryption -/

/-- The message is open, and the pinned identity is its session's. -/
def Opened
    (arguments : DecryptArguments)
    (record plain : Bytes)
    (stores : Stores) :
    Prop :=
  ∃ session,
    OpensFor arguments record session plain ∧
      stores.pinned arguments.identityStore arguments.sender =
        some session.remoteKey.serialize

/-- A committed plaintext is opened under the pinned identity. -/
theorem opened_of_commit
    {arguments : DecryptArguments}
    {record plain : Bytes}
    {session live : State}
    {settled : Archive}
    (commits :
      commit host stores settled.serialize arguments.sender
          arguments.sessionStore arguments.identityStore =
        .ok after)
    (opens : OpensFor arguments record session plain)
    (isLive : settled.current = some live)
    (same : live.remoteKey = session.remoteKey)
    (sound : settled.Sound)
    (short : settled.serialize.length < 2 ^ 32) :
    PinsKept stores after ∧ Opened arguments record plain after := by
  obtain ⟨kept, info, isInfo, isPinned⟩ := commit_eq_ok commits
  refine ⟨kept, session, opens, ?_⟩
  rw [isPinned, sessionInfo_remoteIdentity isLive sound short isInfo, same]

/-- Opening a first message keeps the pins. -/
theorem openFirstMessage_eq_ok
    {arguments : DecryptArguments}
    {existing signed oneTime pq : Bytes}
    {info : OpenerInfo}
    {progress : Progress}
    (done :
      openFirstMessage host stores arguments existing info signed oneTime pq =
        .ok (after, progress)) :
    PinsKept stores after ∧
      ∃ plain,
        progress.opened = some plain ∧
          Opened arguments existing plain after := by
  obtain ⟨⟨plain, record, consumed⟩, opened, rest⟩ :=
    Outcome.bind_eq_ok.mp done
  obtain ⟨committed, commits, ends⟩ := Outcome.bind_eq_ok.mp rest
  obtain ⟨archive, first, offered, us, settled, isArchive, isFirst, isOffered,
    opens, rfl, short⟩ := sessionOpenFirst_eq_ok opened
  obtain ⟨taken, message, takes, isMessage, innerOpens⟩ := openFirst_eq_ok opens
  obtain ⟨place, session, live, isOpener, isLive, same⟩ :=
    openWithArchive_live innerOpens
  have sound : settled.Sound :=
    (openFirst_sound host.opening _ (offeredFrom_clamped isOffered)
      (stores.identities arguments.identityStore).small
      (Opener.registrationId_of_parse isFirst) archive
      (archiveFrom_sound isArchive)).1 _ _ opens
  obtain ⟨kept, isOpened⟩ :=
    opened_of_commit commits
      (.first isArchive isFirst takes isMessage isOpener) isLive same sound
      short
  -- What is written after the commit leaves the identities alone.
  cases consumed with
  | none =>
      cases ends
      exact ⟨kept, plain, rfl, isOpened⟩
  | some consumed =>
      simp only at ends
      cases isId : consumed.oneTimeId with
      | some id =>
          rw [isId] at ends
          cases ends
          exact ⟨kept, plain, rfl, isOpened⟩
      | none =>
          rw [isId] at ends
          cases isPq : info.pqId with
          | some id =>
              rw [isPq] at ends
              cases ends
              exact ⟨kept, plain, rfl, isOpened⟩
          | none =>
              rw [isPq] at ends
              cases ends
              exact ⟨kept, plain, rfl, isOpened⟩

/-- Asking for a key keeps the pins. -/
theorem askKyberPreKey_eq_ok
    {arguments : DecryptArguments}
    {existing signed oneTime : Bytes}
    {info : OpenerInfo}
    {progress : Progress}
    (done :
      askKyberPreKey host stores arguments existing info signed oneTime =
        .ok (after, progress)) :
    PinsKept stores after ∧
      ∀ plain,
        progress.opened = some plain →
          Opened arguments existing plain after := by
  unfold askKyberPreKey at done
  cases isPq : info.pqId with
  | some id =>
      rw [isPq] at done
      cases done
      exact ⟨.refl stores, nofun⟩
  | none =>
      rw [isPq] at done
      obtain ⟨kept, plain, isPlain, opened⟩ := openFirstMessage_eq_ok done
      refine ⟨kept, fun other isOther => ?_⟩
      cases isPlain.symm.trans isOther
      exact opened

/-- Up to its first await a call can open a ratchet message only. -/
theorem decryptMessage_eq_ok
    {arguments : DecryptArguments}
    {progress : Progress}
    (done : decryptMessage host stores arguments = .ok (after, progress)) :
    PinsKept stores after ∧
      ∀ plain,
        progress.opened = some plain →
          Opened arguments
            ((stores.sessions arguments.sessionStore).load arguments.sender)
            plain after := by
  unfold decryptMessage at done
  simp only at done
  split_ifs at done with isFirst isWhisper
  · obtain ⟨⟨info, inner⟩, _, rest⟩ := Outcome.bind_eq_ok.mp done
    obtain ⟨_, _, ⟨⟩⟩ := Outcome.bind_eq_ok.mp rest
    refine ⟨.refl stores, fun plain isOpened => ?_⟩
    cases isOpened
  · obtain ⟨_, _, rest⟩ := Outcome.bind_eq_ok.mp done
    obtain ⟨⟨plain, record⟩, opened, rest⟩ := Outcome.bind_eq_ok.mp rest
    obtain ⟨committed, commits, ends⟩ := Outcome.bind_eq_ok.mp rest
    cases ends
    obtain ⟨archive, message, settled, isArchive, isMessage, opens, rfl,
      short⟩ := sessionOpen_eq_ok opened
    obtain ⟨place, session, live, isOpener, isLive, same⟩ :=
      openWithArchive_live opens
    have sound : settled.Sound :=
      (openWithArchive_sound _ _ _ archive (archiveFrom_sound isArchive)).1 _ _
        opens
    obtain ⟨kept, isOpened⟩ :=
      opened_of_commit commits (.whisper isArchive isMessage isOpener) isLive
        same sound short
    refine ⟨kept, fun other isOther => ?_⟩
    cases isOther
    exact isOpened

/-- A call that goes on opens its message, or has it open already. -/
theorem resumeDecrypt_eq_ok
    {arguments : DecryptArguments}
    {point : Awaiting}
    {progress : Progress}
    (done :
      resumeDecrypt host stores arguments point = .ok (after, progress)) :
    PinsKept stores after ∧
      ∀ plain,
        progress.opened = some plain →
          (∃ record,
            point.existing = some record ∧
              Opened arguments record plain after) ∨
            ∃ info, point = .removal info plain := by
  cases point with
  | signedPreKey existing info answer =>
      obtain ⟨signed, _, rest⟩ := Outcome.bind_eq_ok.mp done
      cases isId : info.oneTimeId with
      | some id =>
          rw [isId] at rest
          cases rest
          exact ⟨.refl stores, nofun⟩
      | none =>
          rw [isId] at rest
          obtain ⟨kept, opens⟩ := askKyberPreKey_eq_ok rest
          exact ⟨kept, fun plain isPlain =>
            .inl ⟨existing, rfl, opens plain isPlain⟩⟩
  | preKey existing info signed id answer =>
      obtain ⟨oneTime, _, rest⟩ := Outcome.bind_eq_ok.mp done
      obtain ⟨kept, opens⟩ := askKyberPreKey_eq_ok rest
      exact ⟨kept, fun plain isPlain =>
        .inl ⟨existing, rfl, opens plain isPlain⟩⟩
  | kyberPreKey existing info signed oneTime id answer =>
      obtain ⟨pq, _, rest⟩ := Outcome.bind_eq_ok.mp done
      obtain ⟨kept, plain, isPlain, opened⟩ := openFirstMessage_eq_ok rest
      refine ⟨kept, fun other isOther => .inl ⟨existing, rfl, ?_⟩⟩
      cases isPlain.symm.trans isOther
      exact opened
  | removal info plain =>
      cases isPq : info.pqId with
      | some id =>
          simp only [resumeDecrypt, isPq] at done
          cases done
          exact ⟨.refl stores, fun other isOther =>
            .inr ⟨info, by rw [Option.some.inj isOther]⟩⟩
      | none =>
          simp only [resumeDecrypt, isPq] at done
          cases done
          exact ⟨.refl stores, fun other isOther =>
            .inr ⟨info, by rw [Option.some.inj isOther]⟩⟩

/-! ## Runs -/

/-- What was opened and returned, against what is pinned. -/
structure LogKept (client : Client) : Prop where
  opened :
    ∀ arguments record plain pinned,
      .opened arguments record plain pinned ∈ client.log →
      (∃ session,
        OpensFor arguments record session plain ∧
          pinned = some session.remoteKey.serialize) ∧
        (client.stores.pinned arguments.identityStore arguments.sender =
            pinned ∨
          .imported arguments.identityStore arguments.sender ∈ client.log)
  pending :
    ∀ arguments info plain,
      (arguments, Awaiting.removal info plain) ∈ client.pending →
      ∃ record pinned,
        .opened arguments record plain pinned ∈ client.log
  returned :
    ∀ arguments plain pinned,
      .returned arguments plain pinned ∈ client.log →
      ∃ record atOpening,
        .opened arguments record plain atOpening ∈ client.log ∧
          (pinned = atOpening ∨
            .imported arguments.identityStore arguments.sender ∈ client.log)

/-- An empty log is kept. -/
theorem logKept_start : LogKept (Client.start stores) :=
  ⟨nofun, nofun, nofun⟩

/-- A call that only keeps the pins keeps what the log says. -/
theorem LogKept.write
    {client : Client}
    (kept : LogKept client)
    (pins : PinsKept client.stores after) :
    LogKept { client with stores := after } := by
  refine ⟨?_, kept.pending, kept.returned⟩
  intro arguments record plain pinned isOpened
  obtain ⟨⟨session, opens, isPinned⟩, stays⟩ :=
    kept.opened arguments record plain pinned isOpened
  refine ⟨⟨session, opens, isPinned⟩, ?_⟩
  rcases stays with still | imported
  · rw [isPinned] at still ⊢
    exact .inl (pins _ _ _ still)
  · exact .inr imported

/-- Importing an identity keeps the log. -/
theorem LogKept.imports
    {client : Client}
    {identities : Nat}
    {address : WasmProtocolAddress}
    {identity : Bytes}
    (kept : LogKept client)
    (done :
      importIdentity client.stores identities address identity = .ok after) :
    LogKept
      { client with
        stores := after
        log := client.log ++ [.imported identities address] } := by
  obtain ⟨_, _, ⟨⟩⟩ := Outcome.bind_eq_ok.mp done
  refine ⟨?_, ?_, ?_⟩
  · intro arguments record plain pinned isOpened
    have before :
        .opened arguments record plain pinned ∈ client.log := by
      simpa using isOpened
    obtain ⟨session, stays⟩ :=
      kept.opened arguments record plain pinned before
    refine ⟨session, ?_⟩
    rcases stays with still | imported
    · by_cases same :
          arguments.identityStore = identities ∧ arguments.sender = address
      · rw [same.1, same.2]
        exact .inr (List.mem_append_right _ (List.mem_singleton_self _))
      · left
        rw [← still]
        by_cases sameStore : arguments.identityStore = identities
        · rw [sameStore, Stores.pinned_setIdentities_self]
          have otherText : arguments.sender.toText ≠ address.toText :=
            fun sameText =>
              same ⟨sameStore, WasmProtocolAddress.toText_inj sameText⟩
          exact Function.update_of_ne otherText ..
        · exact Stores.pinned_setIdentities_other sameStore
    · exact .inr (List.mem_append_left _ imported)
  · intro arguments info plain isPending
    obtain ⟨record, pinned, isOpened⟩ :=
      kept.pending arguments info plain isPending
    exact ⟨record, pinned, List.mem_append_left _ isOpened⟩
  · intro arguments plain pinned isReturned
    have before : .returned arguments plain pinned ∈ client.log := by
      simpa using isReturned
    obtain ⟨record, atOpening, isOpened, same | imported⟩ :=
      kept.returned arguments plain pinned before
    · exact ⟨record, atOpening, List.mem_append_left _ isOpened, .inl same⟩
    · exact ⟨record, atOpening, List.mem_append_left _ isOpened,
        .inr (List.mem_append_left _ imported)⟩

/-- A part of a call whose message is open, now or since an earlier part. -/
theorem LogKept.settle
    {client : Client}
    {arguments : DecryptArguments}
    {record : Option Bytes}
    {progress : Progress}
    (kept : LogKept client)
    (pins : PinsKept client.stores after)
    (opens :
      ∀ plain,
        progress.opened = some plain →
          (∃ loaded,
            record = some loaded ∧ Opened arguments loaded plain after) ∨
            record = none ∧
              ∃ loaded pinned,
                .opened arguments loaded plain pinned ∈ client.log) :
    LogKept (client.settle arguments record (.ok (after, progress))) := by
  have written := kept.write pins
  -- The message of a call that has got this far was opened by its session.
  have wasOpened : ∀ plain, progress.opened = some plain →
      ∃ loaded atOpening,
        .opened arguments loaded plain atOpening ∈
            (client.settle arguments record (.ok (after, progress))).log ∧
          (after.pinned arguments.identityStore arguments.sender =
              atOpening ∨
            .imported arguments.identityStore arguments.sender ∈
              client.log) := by
    intro plain isPlain
    rcases opens plain isPlain with
      ⟨loaded, rfl, _⟩ | ⟨_, loaded, pinned, before⟩
    · exact ⟨loaded, _, List.mem_append_right _
        (mem_events_opened.mpr ⟨rfl, rfl, isPlain, rfl⟩), .inl rfl⟩
    · exact ⟨loaded, pinned, List.mem_append_left _ before,
        (written.opened arguments loaded plain pinned before).2⟩
  refine ⟨?_, ?_, ?_⟩
  · intro other loaded plain pinned isOpened
    rcases List.mem_append.mp isOpened with before | now
    · obtain ⟨session, still | imported⟩ :=
        written.opened other loaded plain pinned before
      · exact ⟨session, .inl still⟩
      · exact ⟨session, .inr (List.mem_append_left _ imported)⟩
    · obtain ⟨rfl, rfl, isPlain, rfl⟩ := mem_events_opened.mp now
      rcases opens plain isPlain with
        ⟨_, isLoaded, session, opener, isPinned⟩ | ⟨isNone, _⟩
      · obtain rfl := Option.some.inj isLoaded
        exact ⟨⟨session, opener, isPinned⟩, .inl rfl⟩
      · cases isNone
  · intro other info plain isPending
    rcases List.mem_append.mp isPending with before | now
    · obtain ⟨loaded, pinned, isOpened⟩ :=
        kept.pending other info plain before
      exact ⟨loaded, pinned, List.mem_append_left _ isOpened⟩
    · cases progress with
      | returns text => cases now
      | awaits point =>
          obtain ⟨⟩ := List.mem_singleton.mp now
          obtain ⟨loaded, pinned, isOpened, _⟩ := wasOpened plain rfl
          exact ⟨loaded, pinned, isOpened⟩
  · intro other plain pinned isReturned
    rcases List.mem_append.mp isReturned with before | now
    · obtain ⟨loaded, atOpening, isOpened, same | imported⟩ :=
        kept.returned other plain pinned before
      · exact ⟨loaded, atOpening, List.mem_append_left _ isOpened,
          .inl same⟩
      · exact ⟨loaded, atOpening, List.mem_append_left _ isOpened,
          .inr (List.mem_append_left _ imported)⟩
    · obtain ⟨rfl, rfl, rfl⟩ := mem_events_returned now
      obtain ⟨loaded, atOpening, isOpened, same | imported⟩ :=
        wasOpened plain rfl
      · exact ⟨loaded, atOpening, isOpened, .inl same⟩
      · exact ⟨loaded, atOpening, isOpened,
          .inr (List.mem_append_left _ imported)⟩

/-- Every action keeps the log. -/
theorem LogKept.step
    {client : Client}
    (kept : LogKept client)
    (host : Host)
    (action : Action) :
    LogKept (client.step host action) := by
  cases action with
  | importIdentity identities address identity =>
      simp only [Client.step]
      split
      · rename_i done
        exact kept.imports done
      · exact kept
  | processPreKeyBundle arguments =>
      simp only [Client.step]
      cases done : processPreKeyBundle host client.stores arguments with
      | ok stores => exact kept.write (processPreKeyBundle_keeps done)
      | error _ => exact kept
      | trap => exact kept
  | encryptMessage arguments =>
      simp only [Client.step]
      cases done : encryptMessage host client.stores arguments with
      | ok result => exact kept.write (encryptMessage_keeps done)
      | error _ => exact kept
      | trap => exact kept
  | decryptMessage arguments =>
      simp only [Client.step]
      cases done : decryptMessage host client.stores arguments with
      | ok result =>
          obtain ⟨pins, opens⟩ := decryptMessage_eq_ok done
          exact kept.settle pins fun plain isPlain =>
            .inl ⟨_, rfl, opens plain isPlain⟩
      | error _ => exact kept
      | trap => exact kept
  | resume index =>
      simp only [Client.step]
      cases isPending : client.pending[index]? with
      | none => exact kept
      | some found =>
          obtain ⟨arguments, point⟩ := found
          have without :
              LogKept
                { client with pending := client.pending.eraseIdx index } :=
            ⟨kept.opened, fun other info plain waits =>
              kept.pending other info plain (List.mem_of_mem_eraseIdx waits),
              kept.returned⟩
          simp only
          cases done : resumeDecrypt host client.stores arguments point with
          | ok result =>
              obtain ⟨pins, opens⟩ := resumeDecrypt_eq_ok done
              refine without.settle pins fun plain isPlain => ?_
              rcases opens plain isPlain with
                ⟨record, isRecord, opened⟩ | ⟨info, rfl⟩
              · exact .inl ⟨record, isRecord, opened⟩
              · exact .inr ⟨rfl, kept.pending arguments info plain
                  (List.mem_of_getElem? isPending)⟩
          | error _ => exact without
          | trap => exact without

/-- The action is an import of an identity for the address. -/
def Action.Imports
    (handle : Nat)
    (address : WasmProtocolAddress) :
    Action → Prop
  | .importIdentity identities other _ =>
      identities = handle ∧ other = address
  | _ => False

/-- A pin stays, imports under its address apart. -/
theorem pinned_step
    {client : Client}
    {host : Host}
    {action : Action}
    {handle : Nat}
    {address : WasmProtocolAddress}
    {identity : Bytes}
    (isPinned : client.stores.pinned handle address = some identity)
    (noImport : ¬ action.Imports handle address) :
    (client.step host action).stores.pinned handle address =
      some identity := by
  cases action with
  | importIdentity identities other bytes =>
      simp only [Client.step]
      split
      · rename_i done
        obtain ⟨_, _, ⟨⟩⟩ := Outcome.bind_eq_ok.mp done
        by_cases sameStore : handle = identities
        · subst sameStore
          have otherText : address.toText ≠ other.toText :=
            fun sameText =>
              noImport ⟨rfl, (WasmProtocolAddress.toText_inj sameText).symm⟩
          rw [Stores.pinned_setIdentities_self]
          exact (Function.update_of_ne otherText ..).trans isPinned
        · rwa [Stores.pinned_setIdentities_other sameStore]
      · exact isPinned
  | processPreKeyBundle arguments =>
      simp only [Client.step]
      cases done : processPreKeyBundle host client.stores arguments with
      | ok stores => exact processPreKeyBundle_keeps done _ _ _ isPinned
      | error _ => exact isPinned
      | trap => exact isPinned
  | encryptMessage arguments =>
      simp only [Client.step]
      cases done : encryptMessage host client.stores arguments with
      | ok result => exact encryptMessage_keeps done _ _ _ isPinned
      | error _ => exact isPinned
      | trap => exact isPinned
  | decryptMessage arguments =>
      simp only [Client.step]
      cases done : decryptMessage host client.stores arguments with
      | ok result => exact (decryptMessage_eq_ok done).1 _ _ _ isPinned
      | error _ => exact isPinned
      | trap => exact isPinned
  | resume index =>
      simp only [Client.step]
      cases client.pending[index]? with
      | none => exact isPinned
      | some found =>
          obtain ⟨arguments, point⟩ := found
          simp only
          cases done : resumeDecrypt host client.stores arguments point with
          | ok result => exact (resumeDecrypt_eq_ok done).1 _ _ _ isPinned
          | error _ => exact isPinned
          | trap => exact isPinned

/-- A pin stays through a whole run without such imports. -/
theorem pinned_run
    {client : Client}
    {actions : List (Host × Action)}
    {handle : Nat}
    {address : WasmProtocolAddress}
    {identity : Bytes}
    (isPinned : client.stores.pinned handle address = some identity)
    (noImport : ∀ turn ∈ actions, ¬ turn.2.Imports handle address) :
    (client.run actions).stores.pinned handle address = some identity := by
  induction actions generalizing client with
  | nil => exact isPinned
  | cons turn actions inductionHypothesis =>
      have first := noImport turn (by simp)
      have later : ∀ turn ∈ actions, ¬ turn.2.Imports handle address :=
        fun turn member => noImport turn (List.mem_cons_of_mem _ member)
      exact inductionHypothesis (pinned_step isPinned first) later

/-- Every run keeps the log. -/
theorem LogKept.run
    {client : Client}
    (kept : LogKept client)
    (actions : List (Host × Action)) :
    LogKept (client.run actions) := by
  induction actions generalizing client with
  | nil => exact kept
  | cons turn actions inductionHypothesis =>
      exact inductionHypothesis (kept.step turn.1 turn.2)

/-- What is promised of the client after a run. -/
structure TrustKept (client : Client) : Prop where
  /-- Only an import changes what is pinned. -/
  pinned :
    ∀ actions handle address identity,
      client.stores.pinned handle address = some identity →
      (∀ turn ∈ actions, ¬ turn.2.Imports handle address) →
      (client.run actions).stores.pinned handle address = some identity
  /-- A session that opens a message has the identity pinned by then. -/
  opened :
    ∀ arguments record plain pinned,
      .opened arguments record plain pinned ∈ client.log →
      ∃ session,
        OpensFor arguments record session plain ∧
          pinned = some session.remoteKey.serialize
  /-- What is returned has been opened, and what was pinned is pinned still. -/
  returned :
    ∀ arguments plain pinned,
      .returned arguments plain pinned ∈ client.log →
      ∃ record atOpening,
        .opened arguments record plain atOpening ∈ client.log ∧
          (pinned = atOpening ∨
            .imported arguments.identityStore arguments.sender ∈ client.log)

/-- Every interleaving of calls keeps trust on first use. -/
theorem trust_on_first_use
    (stores : Stores)
    (actions : List (Host × Action)) :
    TrustKept ((Client.start stores).run actions) := by
  have kept :=
    (logKept_start : LogKept (Client.start stores)).run actions
  refine ⟨fun _ _ _ _ => pinned_run, ?_, kept.returned⟩
  intro arguments record plain pinned isOpened
  exact (kept.opened arguments record plain pinned isOpened).1

end Calls

end Gossveil.WasmApi
