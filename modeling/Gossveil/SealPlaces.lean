import Gossveil.Bridge
import Gossveil.SealTotality

namespace Gossveil

/-!
# The place of a sealed message

A message that is sealed can be read by anyone: it names the ratchet key of
the lane that has sealed it and how many messages of the lane came before it.
-/

namespace Ratchet

/-- A parsed message keeps its bytes. -/
theorem Whisper.bytes_of_parse
    {data : Bytes}
    {message : Whisper}
    (parsed : Whisper.parse data = .ok message) :
    message.bytes = data := by
  unfold Whisper.parse at parsed
  split_ifs at parsed
  obtain ⟨_, _, rest⟩ := Outcome.bind_eq_ok.mp parsed
  obtain ⟨_, _, rest⟩ := Outcome.bind_eq_ok.mp rest
  obtain ⟨_, _, rest⟩ := Outcome.bind_eq_ok.mp rest
  obtain ⟨_, _, rest⟩ := Outcome.bind_eq_ok.mp rest
  obtain ⟨_, _, ⟨⟩⟩ := Outcome.bind_eq_ok.mp rest
  rfl

/-- A parsed first message keeps its bytes. -/
theorem Opener.bytes_of_parse
    {data : Bytes}
    {first : Opener}
    (parsed : Opener.parse data = .ok first) :
    first.bytes = data := by
  cases data with
  | nil => cases parsed
  | cons byte content =>
      obtain ⟨_, _, rest⟩ := Outcome.bind_eq_ok.mp parsed
      obtain ⟨_, _, rest⟩ := Outcome.bind_eq_ok.mp rest
      obtain ⟨_, _, rest⟩ := Outcome.bind_eq_ok.mp rest
      obtain ⟨_, _, rest⟩ := Outcome.bind_eq_ok.mp rest
      obtain ⟨_, _, rest⟩ := Outcome.bind_eq_ok.mp rest
      obtain ⟨_, _, rest⟩ := Outcome.bind_eq_ok.mp rest
      obtain ⟨_, _, rest⟩ := Outcome.bind_eq_ok.mp rest
      obtain ⟨_, _, ⟨⟩⟩ := Outcome.bind_eq_ok.mp rest
      rfl

/-- The ratchet message of what is sent: itself, or the one it wraps. -/
def whisperIn (kind : Kind) (bytes : Bytes) : Outcome Fault Whisper :=
  match kind with
  | .whisper => Whisper.parse bytes
  | .first => do
      let first ← Opener.parse bytes
      Whisper.parse first.inner
  | .circle => .error .badMessage
  | .plain => .error .badMessage

/-- A message at a place of a sending lane. -/
def At (lane : Lane) (message : Whisper) : Prop :=
  message.ratchet = lane.ratchet ∧ message.index = lane.chain.index

section Places

variable [Hashes]

/-- A message that is built has the parts it is built from. -/
theorem Whisper.place_of_seal
    {parts : Whisper.Seal}
    {message : Whisper}
    (built : Whisper.seal parts = .ok message)
    (index : parts.index < 2 ^ 32)
    (previousIndex : parts.previousIndex < 2 ^ 32)
    (short : message.bytes.length < 2 ^ 64) :
    Whisper.parse message.bytes = .ok message ∧
      message.ratchet = parts.ratchet ∧ message.index = parts.index := by
  have isBytes : message.bytes = parts.encode := Whisper.bytes_of_parse built
  have fits : parts.Fits := by
    refine ⟨index, previousIndex, ?_⟩
    rw [isBytes, Whisper.Seal.encode, List.length_append] at short
    omega
  have parsed : Whisper.parse message.bytes = .ok message := by
    rw [isBytes]
    exact built
  rcases known :
      Frame.messageVersion (Frame.versionByte (parts.version % 16)) with
    version | fault | _
  · have again := Whisper.seal_eq_ok fits known
    obtain rfl := Outcome.ok.inj (again.symm.trans built)
    exact ⟨parsed, rfl, rfl⟩
  · rw [Whisper.seal_eq_error known] at built
    cases built
  · simp only [Frame.messageVersion] at known
    split_ifs at known

omit [Hashes] in
/-- A first message that is built wraps what it is built from. -/
theorem Opener.inner_of_wrap
    {parts : Opener.Wrap}
    {first : Opener}
    (built : Opener.wrap parts = .ok first)
    (oneTimeId : ∀ id, parts.oneTimeId = some id → id < 2 ^ 32)
    (registrationId : parts.registrationId < 2 ^ 32)
    (signedId : parts.signedId < 2 ^ 32)
    (pqId : parts.pqId < 2 ^ 32)
    (short : first.bytes.length < 2 ^ 64) :
    Opener.parse first.bytes = .ok first ∧
      first.inner = parts.inner ∧
        parts.inner.length ≤ first.bytes.length := by
  have isBytes : first.bytes = parts.encode := Opener.bytes_of_parse built
  rw [isBytes] at short
  have fits : parts.Fits := ⟨oneTimeId, registrationId, signedId, pqId, short⟩
  have parsed : Opener.parse first.bytes = .ok first := by
    rw [isBytes]
    exact built
  have inside : parts.inner.length ≤ first.bytes.length := by
    rw [isBytes]
    simp only [Opener.Wrap.encode, Codec.Writer.bytes, List.length_cons,
      List.length_append]
    omega
  rcases known :
      Frame.messageVersion (Frame.versionByte (parts.version % 16)) with
    version | fault | _
  · have again := Opener.wrap_eq_ok fits known
    obtain rfl := Outcome.ok.inj (again.symm.trans built)
    exact ⟨parsed, rfl, inside⟩
  · rw [Opener.wrap, Opener.Wrap.encode_eq, Opener.parse, known] at built
    cases built
  · simp only [Frame.messageVersion] at known
    split_ifs at known

omit [Hashes] in
/-- What is finished is the message itself, or it is wrapped. -/
theorem whisperIn_of_finished
    {version : Nat}
    {inner : Whisper}
    {state : State}
    {message : Sealed}
    (finishes : finished version inner state = .ok message)
    (sound : state.Sound)
    (short : message.bytes.length < 2 ^ 64) :
    whisperIn message.kind message.bytes = Whisper.parse inner.bytes ∧
      inner.bytes.length ≤ message.bytes.length := by
  unfold finished at finishes
  cases isPending : state.pending with
  | none =>
      rw [isPending] at finishes
      cases finishes
      exact ⟨rfl, le_rfl⟩
  | some pending =>
      rw [isPending] at finishes
      obtain ⟨capsule, isCapsule, finishes⟩ := Outcome.bind_eq_ok.mp finishes
      obtain ⟨wrapped, isWrapped, ⟨⟩⟩ := Outcome.bind_eq_ok.mp finishes
      have isCapsule : state.pendingCapsule = some capsule :=
        Outcome.ofOption_eq_ok.mp isCapsule
      have fits := sound.fits.pending pending isPending
      obtain ⟨parsed, isInner, inside⟩ :=
        Opener.inner_of_wrap isWrapped fits.oneTimeId
          sound.fits.localRegistrationId fits.signedId
          (sound.fits.pendingCapsule capsule isCapsule) short
      refine ⟨?_, inside⟩
      rw [whisperIn, parsed, Outcome.ok_bind, isInner]

variable [Aes] [Kem]

/--
What a state seals is at the place its sending lane has got to, and the lane
goes on under the same ratchet key.
-/
theorem place_of_sealWithState
    {plain : Bytes}
    {nowSecs : Nat}
    {binding : Option Binding}
    {draw : Braid.Draw}
    {state after : State}
    {message : Sealed}
    (sound : state.Sound)
    (ran :
      sealWithState plain nowSecs binding draw state = (.ok message, after))
    (short : message.bytes.length < 2 ^ 64) :
    ∃ lane inner next,
      state.sending = some lane ∧
        whisperIn message.kind message.bytes = .ok inner ∧
          At lane inner ∧
            after.sending = some next ∧
              next.ratchet = lane.ratchet ∧ after.Sound := by
  rcases may : state.canSendAt nowSecs with (_ | _) | fault | _
  · rw [sealWithState_stale may] at ran
    cases ran
  · obtain ⟨lane, isSending⟩ := State.sending_of_canSendAt may
    obtain ⟨secret, isSecret⟩ :=
      Option.ne_none_iff_exists'.mp (sound.keyed.carries lane isSending)
    have sends : ∃ sent, PqRecord.send state.pqState draw = .ok sent := by
      by_contra unsent
      push Not at unsent
      rcases @sealWithState_unsent _ _ _ plain _ binding _ _ may unsent with
        ⟨_, ends⟩ | ⟨_, error, ends⟩
      · rw [ends] at ran
        cases ran
      · rw [ends] at ran
        cases ran
    obtain ⟨sent, isSent⟩ := sends
    rw [sealWithState_sent may isSending isSecret isSent] at ran
    obtain ⟨version, _, isVersion, ran⟩ := Call.bind_eq_ok.mp ran
    obtain ⟨inner, _, isInner, ran⟩ := Call.bind_eq_ok.mp ran
    rw [liftM_fault_apply] at isVersion isInner
    obtain ⟨_, rfl⟩ := Prod.mk.inj isVersion
    obtain ⟨made, rfl⟩ := Prod.mk.inj isInner
    have built := Outcome.mapError_eq_ok.mp made
    by_cases room : lane.chain.index + 1 < 2 ^ 32
    · rw [sealWritten_advanced room isSending] at ran
      obtain ⟨finishes, rfl⟩ := Prod.mk.inj ran
      obtain ⟨same, inside⟩ :=
        whisperIn_of_finished (Outcome.mapError_eq_ok.mp finishes)
          (sound.advanced isSending room) short
      obtain ⟨parsed, ratchet, index⟩ :=
        Whisper.place_of_seal built
          (sound.fits.sending lane isSending).chain
          sound.fits.previousIndex (inside.trans_lt short)
      exact ⟨lane, inner, _, isSending, same.trans parsed, ⟨ratchet, index⟩,
        rfl, rfl, sound.advanced isSending room⟩
    · rw [sealWritten_spent (Nat.not_lt.mp room)] at ran
      cases ran
  · exact absurd may (state.canSendAt_ne_error nowSecs fault)
  · rw [sealWithState_stampTrap may] at ran
    cases ran

end Places

end Ratchet

open Abi Ratchet

/-! ## What the client is handed -/

/-- What two cells hold that have been filled one after the other. -/
theorem Bridge.take_sealed
    {sealed record : Bytes}
    {handed : Handed}
    (filled :
      handed =
        ⟨Function.update
          (Function.update (fun _ => .empty) .sealed (.holding sealed))
          .outRecord (.holding record), [.sealed, .outRecord]⟩)
    (inMemory : InMemory handed) :
    take (handed.cells .sealed) = sealed ∧
      take (handed.cells .outRecord) = record ∧
        sealed.length < 2 ^ 32 ∧ record.length < 2 ^ 32 := by
  subst filled
  refine ⟨by simp [take_holding], by simp [take_holding], ?_, ?_⟩
  · have short := inMemory .sealed (by simp)
    simpa [len_holding] using short
  · have short := inMemory .outRecord (by simp)
    simpa [len_holding] using short

/-- What a sealed message says of the core. -/
theorem Bridge.sessionSeal_eq_ok
    [Hashes] [Aes] [Kem]
    {record plain sealed after : Bytes}
    {nowSecs kind : Nat}
    {binding : Option Binding}
    {draw : Braid.Draw}
    (done :
      Bridge.sessionSeal record plain nowSecs binding draw =
        .ok (kind, sealed, after)) :
    ∃ archive made settled,
      archiveFrom record = .ok archive ∧
        archive.seal plain nowSecs binding draw = (.ok made, settled) ∧
        kind = made.kind.code ∧ sealed = made.bytes ∧
        after = settled.serialize ∧
        sealed.length < 2 ^ 32 ∧ after.length < 2 ^ 32 := by
  obtain ⟨taken, handed, calls, inMemory, isRead⟩ := finish_eq_ok done
  obtain ⟨archive, isArchive, calls⟩ := Call.lift_bind_eq_ok.mp calls
  obtain ⟨made, isMade, calls⟩ := Call.lift_bind_eq_ok.mp calls
  rw [Call.bind_of_ok (give_allocated ..),
    Call.bind_of_ok (give_allocated ..)] at calls
  obtain ⟨isTaken, filled⟩ := Prod.mk.inj calls
  obtain rfl := Outcome.ok.inj isTaken
  obtain ⟨isSealed, isAfter, short⟩ := Bridge.take_sealed filled.symm inMemory
  simp only [isSealed, isAfter, Prod.mk.injEq] at isRead
  obtain ⟨rfl, rfl, rfl⟩ := isRead
  exact ⟨archive, made, _, Outcome.mapError_eq_ok.mp isArchive,
    Prod.ext (Outcome.mapError_eq_ok.mp isMade) rfl, rfl, rfl, rfl, short⟩

/-- The lane that the live state of a record would seal on. -/
def SendsOn (record : Bytes) (lane : Lane) : Prop :=
  ∃ archive live,
    archiveFrom record = .ok archive ∧
      archive.current = some live ∧ live.sending = some lane

/-- A record sends on one lane. -/
theorem SendsOn.unique
    {record : Bytes}
    {lane other : Lane}
    (sends : SendsOn record lane)
    (otherSends : SendsOn record other) :
    lane = other := by
  obtain ⟨archive, live, isArchive, isLive, isSending⟩ := sends
  obtain ⟨again, liveAgain, isAgain, isLiveAgain, isOther⟩ := otherSends
  obtain rfl := Outcome.ok.inj (isArchive.symm.trans isAgain)
  obtain rfl := Option.some.inj (isLive.symm.trans isLiveAgain)
  exact Option.some.inj (isSending.symm.trans isOther)

/-- A call that seals does so at the place of the record's lane. -/
theorem Bridge.place_of_sessionSeal
    [Hashes] [Aes] [Kem]
    {record plain sealed after : Bytes}
    {nowSecs code : Nat}
    {binding : Option Binding}
    {draw : Braid.Draw}
    (done :
      Bridge.sessionSeal record plain nowSecs binding draw =
        .ok (code, sealed, after)) :
    ∃ kind lane inner next,
      code = kind.code ∧
        SendsOn record lane ∧
          whisperIn kind sealed = .ok inner ∧
            At lane inner ∧
              SendsOn after next ∧ next.ratchet = lane.ratchet := by
  obtain ⟨archive, made, settled, isArchive, seals, rfl, rfl, rfl, short,
    afterShort⟩ := Bridge.sessionSeal_eq_ok done
  have sound := Bridge.archiveFrom_sound isArchive
  unfold Archive.seal at seals
  cases isLive : archive.current with
  | none =>
      rw [isLive] at seals
      cases seals
  | some live =>
      simp only [isLive] at seals
      obtain ⟨ran, rfl⟩ := Prod.mk.inj seals
      obtain ⟨lane, inner, next, isSending, isInner, isAt, isNext, ratchet,
        nextSound⟩ :=
        place_of_sealWithState (sound live isLive) (Prod.ext ran rfl)
          (short.trans (by decide))
      refine ⟨made.kind, lane, inner, next, rfl,
        ⟨archive, live, isArchive, isLive, isSending⟩, isInner, isAt,
        ⟨_, _, Bridge.archiveFrom_serialize rfl ?_ afterShort, rfl, isNext⟩,
        ratchet⟩
      rintro _ ⟨⟩
      exact nextSound

end Gossveil
