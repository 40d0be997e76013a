import Gossveil.PqTotality
import Gossveil.SessionReach

namespace Gossveil

open Codec

/-!
# When a seal leaves the archive whole

A seal changes the live state in place, first the post-quantum state and then
the sending chain, before the last steps that can fail.  On a parsed archive
the steps that do fail are these: an addition or a cast that overflows, a
version the message format refuses, a chain at its last index, and a pending
handshake without its capsule.  A `usize` has 64 bits here, as in all the
parsers.
-/

/-! ## Sizes -/

/-- A packet takes sixty-four bytes at most. -/
theorem Packet.length_serialize_le (packet : Packet) (index : Nat) :
    (packet.serialize index).length ≤ 64 := by
  have epochLength := putVarintInto_length 10 packet.epoch
  have indexLength := putVarintInto_length 10 index
  simp only [serialize, putVarint, List.length_cons, List.length_append]
  cases packet.payload.piece with
  | none =>
      simp only [List.length_nil]
      omega
  | some piece =>
      have pieceLength := putVarintInto_length 10 piece.index.toNat
      simp only [pieceBytes, putVarint, List.length_append, Block.length_eq]
      omega

/-- So does every packet that is sent. -/
theorem PqRecord.length_packet_le
    [Hashes] [Kem]
    {state : Bytes}
    {draw : Braid.Draw}
    {sent : Sent}
    (sends : send state draw = .ok sent) :
    sent.packet.length ≤ 64 := by
  unfold send at sends
  split_ifs at sends
  · cases sends
    simp
  · obtain ⟨record, _, rest⟩ := Outcome.bind_eq_ok.mp sends
    cases isBraid : record.braid with
    | none =>
        rw [isBraid] at rest
        cases rest
        simp
    | some data =>
        simp only [isBraid, Outcome.bind_eq_ok, Outcome.pure_eq] at rest
        obtain ⟨_, _, _, _, _, _, _, _, _, _, _, _, done⟩ := rest
        cases done
        exact Packet.length_serialize_le _ _

namespace Ratchet

/-- The content is little longer than its body and its packet. -/
theorem Whisper.Seal.length_content_le (parts : Seal) :
    parts.content.length ≤ parts.body.length + parts.pqPacket.length + 210 := by
  have ratchetLength := Writer.length_bytes_le 1 parts.ratchet.serialize
  have indexLength := Writer.length_uint_le 2 parts.index
  have previousLength := Writer.length_uint_le 3 parts.previousIndex
  have bodyLength := Writer.length_bytes_le 4 parts.body
  have packetLength := Writer.length_bytesIfSet_le 5 parts.pqPacket
  rw [Curve.Public.length_serialize, Curve.serializedLength] at ratchetLength
  simp only [Seal.content, List.length_cons, List.length_append]
  cases parts.bound with
  | none =>
      simp only [List.length_nil]
      omega
  | some bound =>
      have boundLength := Writer.length_bytes_le 6 bound.bytes
      rw [Block.length_eq] at boundLength
      simp only
      omega

/-- A first message is little longer than its parts. -/
theorem Opener.Wrap.length_encode_le (parts : Wrap) :
    parts.encode.length ≤
      parts.inner.length + parts.capsule.length + 300 := by
  have baseLength := Writer.length_bytes_le 2 parts.base.serialize
  have identityLength := Writer.length_bytes_le 3 parts.identity.serialize
  have innerLength := Writer.length_bytes_le 4 parts.inner
  have registrationLength := Writer.length_uint_le 5 parts.registrationId
  have signedLength := Writer.length_uint_le 6 parts.signedId
  have pqLength := Writer.length_uint_le 7 parts.pqId
  have capsuleLength := Writer.length_bytes_le 8 parts.capsule
  rw [Curve.Public.length_serialize, Curve.serializedLength]
    at baseLength identityLength
  simp only [Wrap.encode, List.length_cons, List.length_append]
  cases parts.oneTimeId with
  | none =>
      simp only [List.length_nil]
      omega
  | some id =>
      have oneTimeLength := Writer.length_uint_le 1 id
      simp only
      omega

/-! ## What a parsed state holds -/

/-- The byte strings that go into messages are no longer than a limit. -/
structure State.Within (limit : Nat) (state : State) : Prop where
  pqState : state.pqState.length ≤ limit
  capsule :
    ∀ pending,
      state.pendingCapsule = some pending → pending.capsule.length ≤ limit

theorem PendingCapsule.readField_within
    {limit : Nat}
    {pending next : PendingCapsule}
    {field : Field}
    (before : pending.capsule.length ≤ limit)
    (within : field.Within limit)
    (read : pending.readField field = .ok next) :
    next.capsule.length ≤ limit := by
  unfold readField at read
  split at read
  · obtain ⟨id, _, done⟩ := Outcome.bind_eq_ok.mp read
    cases done
    exact before
  · cases read
    cases isBytes : field.bytes with
    | none => simp
    | some data => simpa using within data isBytes
  · cases read
    exact before

theorem State.readField_within
    {limit : Nat}
    {state next : State}
    {field : Field}
    (before : state.Within limit)
    (within : field.Within limit)
    (read : state.readField field = .ok next) :
    next.Within limit := by
  have bytesWithin :
      ∀ {data : Bytes},
        field.bytesOr Fault.badSession = .ok data → data.length ≤ limit :=
    fun isData => within _ (Outcome.ofOption_eq_ok.mp isData)
  unfold readField at read
  split at read <;>
    simp only [Outcome.bind_eq_ok, Outcome.pure_eq, Outcome.ok.injEq] at read
  · obtain ⟨version, _, rfl⟩ := read
    exact { before with }
  · obtain ⟨root, _, rfl⟩ := read
    exact { before with }
  · obtain ⟨index, _, rfl⟩ := read
    exact { before with }
  · obtain ⟨data, _, lane, _, rest⟩ := read
    split_ifs at rest
    cases rest
    exact { before with }
  · obtain ⟨data, _, lane, _, rfl⟩ := read
    exact { before with }
  · obtain ⟨data, _, pending, _, rfl⟩ := read
    exact { before with }
  · obtain ⟨id, _, rfl⟩ := read
    exact { before with }
  · obtain ⟨id, _, rfl⟩ := read
    exact { before with }
  · obtain ⟨base, _, rfl⟩ := read
    exact { before with }
  · obtain ⟨data, isData, pending, folded, rfl⟩ := read
    refine { before with capsule := ?_ }
    rintro _ ⟨⟩
    exact @fold_preserves_within _ _ _ _
      (fun pending : PendingCapsule => pending.capsule.length ≤ limit) limit
      PendingCapsule.readField_within data ⟨0, []⟩ pending
      (bytesWithin isData) (Nat.zero_le _) folded
  · obtain ⟨pqState, isData, rfl⟩ := read
    exact { before with pqState := bytesWithin isData }
  · cases read
    exact before

/-- The parts of a state are no longer than its record. -/
theorem State.parse_within
    {limit : Nat}
    {data : Bytes}
    {state : State}
    (fits : data.length ≤ limit)
    (read : parse data = .ok state) :
    state.Within limit := by
  obtain ⟨draft, folded, finished⟩ := Outcome.bind_eq_ok.mp read
  have within : draft.state.Within limit := by
    refine @fold_preserves_within _ _ _ _
      (fun draft : Draft => draft.state.Within limit) limit
      ?_ data Draft.empty draft fits
      ⟨Nat.zero_le _, by simp [Draft.empty, init]⟩ folded
    intro before field next holds fieldWithin stepped
    unfold Draft.read at stepped
    split at stepped <;>
      simp only [Outcome.bind_eq_ok, Outcome.pure_eq,
        Outcome.ok.injEq] at stepped
    · obtain ⟨_, _, _, _, rfl⟩ := stepped
      exact holds
    · obtain ⟨_, _, _, _, rfl⟩ := stepped
      exact holds
    · obtain ⟨state, isState, rfl⟩ := stepped
      exact readField_within holds fieldWithin isState
  simp only [Draft.finish, Outcome.bind_eq_ok, Outcome.pure_eq,
    Outcome.ok.injEq] at finished
  obtain ⟨localKey, _, remoteKey, _, rfl⟩ := finished
  exact { within with }

/-- The parts of a live state are no longer than the archive. -/
theorem Archive.parse_within
    {data : Bytes}
    {archive : Archive}
    (read : parse data = .ok archive) :
    ∀ current,
      archive.current = some current → current.Within data.length := by
  refine @fold_preserves_within _ _ _ _
    (fun archive : Archive =>
      ∀ current,
        archive.current = some current → current.Within data.length)
    data.length ?_ data empty archive (Nat.le_refl _) (by simp [empty]) read
  intro before field next holds within stepped
  unfold readField at stepped
  split at stepped <;>
    simp only [Outcome.bind_eq_ok, Outcome.pure_eq,
      Outcome.ok.injEq] at stepped
  · obtain ⟨bytes, isBytes, state, isState, rfl⟩ := stepped
    rintro _ ⟨⟩
    exact State.parse_within
      (within bytes (Outcome.ofOption_eq_ok.mp isBytes)) isState
  · obtain ⟨_, _, rfl⟩ := stepped
    exact holds
  · subst stepped
    exact holds

/-! ## When a live state may send -/

/-- The stamp of the pending handshake is too close to the last second. -/
def State.StampOverflows (state : State) : Prop :=
  ∃ pending,
    state.pending = some pending ∧
      2 ^ 64 ≤ pending.stampSecs + unacknowledgedLifetimeSecs

/-- Asking whether to send traps exactly when the stamp overflows. -/
theorem State.canSendAt_eq_trap
    {state : State}
    {nowSecs : Nat} :
    state.canSendAt nowSecs = .trap ↔
      state.sending ≠ none ∧ state.StampOverflows := by
  unfold canSendAt StampOverflows
  split_ifs with noSending
  · simp [noSending]
  · cases state.pending <;> simp [noSending, Outcome.bind_eq_trap]

/-- Asking whether to send never fails. -/
theorem State.canSendAt_ne_error
    (state : State)
    (nowSecs : Nat)
    (fault : Fault) :
    state.canSendAt nowSecs ≠ .error fault := by
  unfold canSendAt
  split_ifs
  · simp
  · cases state.pending with
    | none => simp
    | some pending =>
        simp only [Outcome.add]
        split_ifs <;> simp

theorem State.sending_of_canSendAt
    {state : State}
    {nowSecs : Nat}
    (fresh : state.canSendAt nowSecs = .ok true) :
    ∃ lane, state.sending = some lane := by
  unfold canSendAt at fresh
  split_ifs at fresh with noSending
  · cases fresh
  · exact Option.ne_none_iff_exists'.mp noSending

/-! ## Behind the ratchet message -/

/-- The message a seal returns for its advanced state. -/
def finished
    (version : Nat)
    (inner : Whisper)
    (advanced : State) :
    Outcome Fault Sealed :=
  match advanced.pending with
  | none => .ok ⟨.whisper, inner.bytes⟩
  | some pending => do
      let capsule ← Outcome.ofOption Fault.badSession advanced.pendingCapsule
      let wrapped ←
        Opener.wrap {
          version := version
          registrationId := advanced.localRegistrationId
          oneTimeId := pending.oneTimeId
          signedId := pending.signedId
          pqId := capsule.pqId
          capsule := capsule.capsule
          base := pending.base
          identity := advanced.localKey
          inner := inner.bytes
        }
      return ⟨.first, wrapped.bytes⟩

/-- A pending handshake with its capsule is wrapped. -/
theorem finished_ok
    {state : State}
    {inner : Whisper}
    {limit : Nat}
    (sound : state.Sound)
    (within :
      ∀ pending,
        state.pendingCapsule = some pending → pending.capsule.length ≤ limit)
    (room : limit + inner.bytes.length + 400 < 2 ^ 64)
    (known : Frame.Known state.version)
    (complete : state.pending = none ∨ state.pendingCapsule ≠ none) :
    ∃ message, finished state.version inner state = .ok message := by
  unfold finished
  cases isPending : state.pending with
  | none => exact ⟨_, rfl⟩
  | some pending =>
      obtain ⟨capsule, isCapsule⟩ : ∃ capsule,
          state.pendingCapsule = some capsule := by
        rcases complete with none | some
        · rw [isPending] at none
          cases none
        · exact Option.ne_none_iff_exists'.mp some
      have pendingFits := sound.fits.pending pending isPending
      have capsuleFits := sound.fits.pendingCapsule capsule isCapsule
      have capsuleLength := within capsule isCapsule
      have parses :
          Frame.messageVersion (Frame.versionByte (state.version % 16)) =
            .ok (state.version % 16) := by
        rw [messageVersion_versionByte]
        rcases known with isThree | isFour
        · simp [isThree]
        · simp [isFour]
      let parts : Opener.Wrap :=
        ⟨state.version, state.localRegistrationId, pending.oneTimeId,
          pending.signedId, capsule.pqId, capsule.capsule, pending.base,
          state.localKey, inner.bytes⟩
      have encodeLength := parts.length_encode_le
      have fits : parts.Fits := {
        oneTimeId := pendingFits.oneTimeId
        registrationId := sound.fits.localRegistrationId
        signedId := pendingFits.signedId
        pqId := capsuleFits
        short := Nat.lt_of_le_of_lt encodeLength (by
          simp only [parts]
          omega)
      }
      have wraps := Opener.wrap_eq_ok fits parses
      simp only [isCapsule, Outcome.ofOption_some, Outcome.ok_bind]
      rw [wraps]
      exact ⟨_, rfl⟩

section Steps

variable [Hashes]

/-- What is left of a seal behind the ratchet message. -/
def sealWritten
    (version : Nat)
    (lane : Lane)
    (inner : Whisper)
    (state : State) :
    Call State EngineError Sealed := do
  let next ← lane.chain.advance
  let advanced ← state.setSendingChain next
  Call.set advanced
  match advanced.pending with
  | none => return ⟨.whisper, inner.bytes⟩
  | some pending =>
      let capsule ← Outcome.ofOption Fault.badSession advanced.pendingCapsule
      let wrapped ←
        Opener.wrap {
          version := version
          registrationId := advanced.localRegistrationId
          oneTimeId := pending.oneTimeId
          signedId := pending.signedId
          pqId := capsule.pqId
          capsule := capsule.capsule
          base := pending.base
          identity := advanced.localKey
          inner := inner.bytes
        }
      return ⟨.first, wrapped.bytes⟩

variable
  {state : State}
  {lane : Lane}
  {sent : PqRecord.Sent}

/-- The state with its sending chain one step on and a new post-quantum state. -/
def State.advanced
    (state : State)
    (lane : Lane)
    (pqState : Bytes) :
    State :=
  { state with
    sending :=
      some
        { lane with
          chain :=
            ⟨Derive.chainNext lane.chain.key, lane.chain.index + 1⟩ }
    pqState := pqState }

theorem State.Sound.advanced
    {pqState : Bytes}
    (sound : state.Sound)
    (isSending : state.sending = some lane)
    (room : lane.chain.index + 1 < 2 ^ 32) :
    (state.advanced lane pqState).Sound := by
  have fits :
      Chain.Fits
        ⟨Derive.chainNext lane.chain.key, lane.chain.index + 1⟩ :=
    room
  apply (sound.setPqState pqState).setSendingChain fits
  simp [State.setSendingChain, State.setPqState, State.advanced, isSending]

/-- At the end of its range the chain traps. -/
theorem sealWritten_spent
    {version : Nat}
    {inner : Whisper}
    (spent : 2 ^ 32 ≤ lane.chain.index + 1) :
    sealWritten version lane inner state state = (.trap, state) := by
  have trapped : lane.chain.advance = .trap :=
    Outcome.bind_eq_trap.mpr (Or.inl (Outcome.add_eq_trap.mpr spent))
  unfold sealWritten
  apply Call.bind_of_trap
  rw [liftM_fault_apply, trapped]
  rfl

/-- Before it the message is written on the advanced state. -/
theorem sealWritten_advanced
    {version : Nat}
    {inner : Whisper}
    (room : lane.chain.index + 1 < 2 ^ 32)
    (isSending : state.sending = some lane) :
    sealWritten version lane inner (state.setPqState sent.state)
        (state.setPqState sent.state) =
      ((finished version inner (state.advanced lane sent.state)).mapError
          .fault,
        state.advanced lane sent.state) := by
  have advances :
      lane.chain.advance =
        .ok ⟨Derive.chainNext lane.chain.key, lane.chain.index + 1⟩ := by
    simp [Chain.advance, Outcome.add_of_lt room]
  have steps :
      (state.setPqState sent.state).setSendingChain
          ⟨Derive.chainNext lane.chain.key, lane.chain.index + 1⟩ =
        .ok (state.advanced lane sent.state) := by
    simp [State.setSendingChain, State.setPqState, State.advanced, isSending]
  unfold sealWritten finished
  rw [Call.bind_of_ok (by rw [liftM_fault_apply, advances]; rfl),
    Call.bind_of_ok (by rw [liftM_fault_apply, steps]; rfl),
    Call.bind_of_ok (Call.set_apply _ _)]
  cases (state.advanced lane sent.state).pending with
  | none => rfl
  | some pending =>
      cases (state.advanced lane sent.state).pendingCapsule with
      | none => exact Call.bind_of_error rfl
      | some capsule =>
          have goesOn :
              ∀ (outcome : Outcome Fault Opener) (after : State),
                (liftM outcome >>= fun wrapped =>
                    pure ⟨.first, wrapped.bytes⟩ :
                  Call State EngineError Sealed) after =
                  ((outcome >>= fun wrapped =>
                      .ok ⟨.first, wrapped.bytes⟩ :
                    Outcome Fault Sealed).mapError .fault, after) := by
            intro outcome after
            cases outcome <;> rfl
          exact goesOn _ _

/-- A message of any other version is refused. -/
theorem seal_refused
    {parts : Whisper.Seal}
    (unknown : ¬ Frame.Known parts.version) :
    ∃ fault, Whisper.seal parts = .error fault := by
  have refuses :
      ∃ fault,
        Frame.messageVersion (Frame.versionByte (parts.version % 16)) =
          .error fault := by
    rw [messageVersion_versionByte]
    unfold Frame.Known at unknown
    split_ifs with low high
    · exact ⟨_, rfl⟩
    · exact ⟨_, rfl⟩
    · omega
  obtain ⟨fault, refused⟩ := refuses
  exact ⟨fault, Whisper.seal_eq_error refused⟩

/-- The chain of an advanced state has moved. -/
theorem State.advanced_ne
    {pqState : Bytes}
    (isSending : state.sending = some lane) :
    state.advanced lane pqState ≠ state := by
  intro same
  have lanes := congrArg State.sending same
  rw [isSending] at lanes
  have index := congrArg (fun lane : Lane => lane.chain.index)
    (Option.some.inj lanes)
  simp at index

end Steps

/-! ## Up to the ratchet message -/

section Sealing

variable [Hashes] [Aes] [Kem]

/-- The ratchet message a seal makes. -/
def sealParts
    (plain : Bytes)
    (binding : Option Binding)
    (state : State)
    (lane : Lane)
    (sent : PqRecord.Sent) :
    Whisper.Seal :=
  let keys := lane.chain.slot.openKeys sent.key
  { version := state.version
    macKey := keys.mac
    binding := binding
    ratchet := lane.ratchet
    index := lane.chain.index
    previousIndex := state.previousIndex
    body := Cipher.cbcSeal keys.cipher keys.iv plain
    sender := state.localKey
    recipient := state.remoteKey
    pqPacket := sent.packet }

variable
  {plain : Bytes}
  {nowSecs : Nat}
  {binding : Option Binding}
  {draw : Braid.Draw}
  {state : State}
  {lane : Lane}
  {secret : Curve.Secret}
  {sent : PqRecord.Sent}

/-- A seal up to the version's cast, when the post-quantum ratchet has sent. -/
theorem sealWithState_sent
    (fresh : state.canSendAt nowSecs = .ok true)
    (isSending : state.sending = some lane)
    (isSecret : lane.ratchetSecret = some secret)
    (sends : PqRecord.send state.pqState draw = .ok sent) :
    sealWithState plain nowSecs binding draw state =
      (do
        let version ←
          (Outcome.intCast 8 state.version : Outcome Fault Nat)
        let inner ←
          Whisper.seal
            { sealParts plain binding state lane sent with version := version }
        sealWritten version lane inner (state.setPqState sent.state) :
        Call State EngineError Sealed) (state.setPqState sent.state) := by
  have isChain : state.sendingChain = .ok lane.chain := by
    simp [State.sendingChain, isSending]
  have isPair :
      (state.setPqState sent.state).sendingPair =
        .ok ⟨lane.ratchet, secret⟩ := by
    simp [State.sendingPair, State.setPqState, isSending, isSecret]
  unfold sealWithState
  rw [Call.bind_of_ok (Call.get_apply state),
    Call.bind_of_ok (by rw [liftM_fault_apply, fresh]; rfl),
    Call.bind_of_ok (by rw [liftM_fault_apply, Outcome.require_of rfl]; rfl),
    Call.bind_of_ok (by rw [liftM_fault_apply, isChain]; rfl),
    Call.bind_of_ok (by rw [liftM_ratchet_apply, sends]; rfl),
    Call.bind_of_ok (Call.modify_apply _ state),
    Call.bind_of_ok (Call.get_apply _),
    Call.bind_of_ok (by rw [liftM_fault_apply, isPair]; rfl)]
  rfl

/-- A known version's ratchet message is made, and is not much longer than the plaintext. -/
theorem seal_sealParts
    (sound : state.Sound)
    (room : plain.length + 1024 < 2 ^ 64)
    (isSending : state.sending = some lane)
    (sends : PqRecord.send state.pqState draw = .ok sent)
    (known : Frame.Known state.version) :
    ∃ inner,
      Whisper.seal (sealParts plain binding state lane sent) = .ok inner ∧
        inner.bytes.length ≤ plain.length + 400 := by
  have bodyLength :
      (sealParts plain binding state lane sent).body.length ≤
        plain.length + 16 := by
    simp only [sealParts, Cipher.length_cbcSeal]
    omega
  have packetLength :
      (sealParts plain binding state lane sent).pqPacket.length ≤ 64 :=
    PqRecord.length_packet_le sends
  have contentLength :=
    (sealParts plain binding state lane sent).length_content_le
  have fits : (sealParts plain binding state lane sent).Fits := {
    index := (sound.fits.sending lane isSending).chain
    previousIndex := sound.fits.previousIndex
    short := by omega
  }
  have parses :
      Frame.messageVersion (Frame.versionByte (state.version % 16)) =
        .ok (state.version % 16) := by
    rw [messageVersion_versionByte]
    rcases known with isThree | isFour
    · simp [isThree]
    · simp [isFour]
  refine ⟨_, Whisper.seal_eq_ok fits parses, ?_⟩
  simp only [Whisper.Seal.encode, List.length_append, Block.length_eq]
  omega

end Sealing

/-! ## Total and atomic -/

/-- A seal returns a message and advances the live state, or changes nothing. -/
def SealsWhole
    [Hashes] [Aes] [Kem]
    (plain : Bytes)
    (nowSecs : Nat)
    (binding : Option Binding)
    (draw : Braid.Draw)
    (archive : Archive) :
    Prop :=
  (∃ message current lane pqState,
    archive.current = some current ∧
      current.sending = some lane ∧
      archive.seal plain nowSecs binding draw =
        (.ok message,
          { archive with current := some (current.advanced lane pqState) })) ∨
    ∃ error,
      archive.seal plain nowSecs binding draw = (.error error, archive)

/-- What goes wrong behind the post-quantum send. -/
inductive SentWedged (state : State) (sent : PqRecord.Sent) : Prop where
  | version :
      2 ^ 8 ≤ state.version →
      SentWedged state sent
  | refused :
      ¬ Frame.Known state.version →
      sent.state ≠ state.pqState →
      SentWedged state sent
  | chain
      {lane : Lane} :
      Frame.Known state.version →
      state.sending = some lane →
      2 ^ 32 ≤ lane.chain.index + 1 →
      SentWedged state sent
  | capsule :
      Frame.Known state.version →
      state.pending ≠ none →
      state.pendingCapsule = none →
      SentWedged state sent

/-- A live state that a seal does not bring to a whole end. -/
inductive Wedged
    [Hashes] [Kem]
    (state : State)
    (nowSecs : Nat)
    (draw : Braid.Draw) :
    Prop where
  | stamp :
      state.sending ≠ none →
      state.StampOverflows →
      Wedged state nowSecs draw
  | ratchet :
      state.canSendAt nowSecs = .ok true →
      PqRecord.SendTraps state.pqState draw →
      Wedged state nowSecs draw
  | sent
      {sent : PqRecord.Sent} :
      state.canSendAt nowSecs = .ok true →
      PqRecord.send state.pqState draw = .ok sent →
      SentWedged state sent →
      Wedged state nowSecs draw

section Ends

variable [Hashes] [Aes] [Kem]
variable
  {plain : Bytes}
  {nowSecs : Nat}
  {binding : Option Binding}
  {draw : Braid.Draw}
  {state : State}
  {lane : Lane}
  {sent : PqRecord.Sent}

/-! ### The early exits -/

/-- An overflowing stamp traps before anything is changed. -/
theorem sealWithState_stampTrap
    (traps : state.canSendAt nowSecs = .trap) :
    sealWithState plain nowSecs binding draw state = (.trap, state) := by
  unfold sealWithState
  rw [Call.bind_of_ok (Call.get_apply state)]
  apply Call.bind_of_trap
  rw [liftM_fault_apply, traps]
  rfl

/-- A stale session is refused unchanged. -/
theorem sealWithState_stale
    (stale : state.canSendAt nowSecs = .ok false) :
    sealWithState plain nowSecs binding draw state =
      (.error (.fault .noSession), state) := by
  unfold sealWithState
  rw [Call.bind_of_ok (Call.get_apply state),
    Call.bind_of_ok (by rw [liftM_fault_apply, stale]; rfl)]
  exact Call.bind_of_error rfl

/-- If no packet can be sent, nothing is changed. -/
theorem sealWithState_unsent
    (fresh : state.canSendAt nowSecs = .ok true)
    (unsent : ∀ sent, PqRecord.send state.pqState draw ≠ .ok sent) :
    (PqRecord.send state.pqState draw = .trap ∧
        sealWithState plain nowSecs binding draw state = (.trap, state)) ∨
      (PqRecord.send state.pqState draw ≠ .trap ∧
        ∃ error,
          sealWithState plain nowSecs binding draw state =
            (.error error, state)) := by
  obtain ⟨lane, isSending⟩ := State.sending_of_canSendAt fresh
  have isChain : state.sendingChain = .ok lane.chain := by
    simp [State.sendingChain, isSending]
  unfold sealWithState
  rw [Call.bind_of_ok (Call.get_apply state),
    Call.bind_of_ok (by rw [liftM_fault_apply, fresh]; rfl),
    Call.bind_of_ok (by rw [liftM_fault_apply, Outcome.require_of rfl]; rfl),
    Call.bind_of_ok (by rw [liftM_fault_apply, isChain]; rfl)]
  rcases shape : PqRecord.send state.pqState draw with sent | error | _
  · exact absurd shape (unsent sent)
  · right
    refine ⟨by simp, .ratchet error, ?_⟩
    exact Call.bind_of_error rfl
  · left
    exact ⟨rfl, Call.bind_of_trap rfl⟩

/-! ### The live state -/

/-- A seal of the live state returns and advances it, or leaves it alone. -/
def State.SealsWhole
    (plain : Bytes)
    (nowSecs : Nat)
    (binding : Option Binding)
    (draw : Braid.Draw)
    (state : State) :
    Prop :=
  (∃ message lane pqState,
    state.sending = some lane ∧
      sealWithState plain nowSecs binding draw state =
        (.ok message, state.advanced lane pqState)) ∨
    ∃ error,
      sealWithState plain nowSecs binding draw state = (.error error, state)

/-- A trap is not whole. -/
theorem State.not_sealsWhole_of_trap
    {after : State}
    (traps :
      sealWithState plain nowSecs binding draw state = (.trap, after)) :
    ¬ state.SealsWhole plain nowSecs binding draw := by
  rintro (⟨_, _, _, _, returned⟩ | ⟨_, failed⟩)
  · rw [traps] at returned
    cases returned
  · rw [traps] at failed
    cases failed

/-- A failure is whole exactly if the state is unchanged. -/
theorem State.sealsWhole_of_error
    {error : EngineError}
    {after : State}
    (fails :
      sealWithState plain nowSecs binding draw state =
        (.error error, after)) :
    state.SealsWhole plain nowSecs binding draw ↔ after = state := by
  constructor
  · rintro (⟨_, _, _, _, returned⟩ | ⟨_, failed⟩)
    · rw [fails] at returned
      cases returned
    · rw [fails] at failed
      cases failed
      rfl
  · rintro rfl
    exact Or.inr ⟨error, fails⟩

/-- The ends of a seal behind a post-quantum send. -/
theorem State.sealsWhole_sent
    {limit : Nat}
    (sound : state.Sound)
    (within : state.Within limit)
    (room : limit + plain.length + 1024 < 2 ^ 64)
    (fresh : state.canSendAt nowSecs = .ok true)
    (sends : PqRecord.send state.pqState draw = .ok sent) :
    state.SealsWhole plain nowSecs binding draw ↔ ¬ SentWedged state sent := by
  obtain ⟨lane, isSending⟩ := State.sending_of_canSendAt fresh
  obtain ⟨secret, isSecret⟩ :=
    Option.ne_none_iff_exists'.mp (sound.keyed.carries lane isSending)
  have runs :=
    @sealWithState_sent _ _ _ plain nowSecs binding draw state lane secret sent
      fresh isSending isSecret sends
  by_cases wide : 2 ^ 8 ≤ state.version
  · refine iff_of_false ?_ (not_not_intro (.version wide))
    refine @State.not_sealsWhole_of_trap _ _ _ _ _ _ _ _
      (state.setPqState sent.state) ?_
    rw [runs]
    apply Call.bind_of_trap
    rw [liftM_fault_apply, Outcome.intCast_eq_trap.mpr wide]
    rfl
  have isByte :
      (Outcome.intCast 8 state.version : Outcome Fault Nat) =
        .ok state.version :=
    Outcome.intCast_of_lt (Nat.not_le.mp wide)
  rw [Call.bind_of_ok (by rw [liftM_fault_apply, isByte]; rfl)] at runs
  by_cases known : Frame.Known state.version
  · obtain ⟨inner, makes, innerLength⟩ :=
      @seal_sealParts _ _ _ plain binding draw state lane sent sound
        (by omega) isSending sends known
    have wrote :
        sealWithState plain nowSecs binding draw state =
          sealWritten state.version lane inner (state.setPqState sent.state)
            (state.setPqState sent.state) := by
      rw [runs]
      exact Call.bind_of_ok (by
        rw [liftM_fault_apply]
        exact congrArg (fun made => (Outcome.mapError EngineError.fault made, _))
          makes)
    by_cases spent : 2 ^ 32 ≤ lane.chain.index + 1
    · refine iff_of_false ?_ (not_not_intro (.chain known isSending spent))
      exact State.not_sealsWhole_of_trap
        (wrote.trans (sealWritten_spent spent))
    have advancedSound :=
      @State.Sound.advanced _ _ _ sent.state sound isSending
        (Nat.not_le.mp spent)
    rw [sealWritten_advanced (Nat.not_le.mp spent) isSending] at wrote
    by_cases complete : state.pending = none ∨ state.pendingCapsule ≠ none
    · obtain ⟨message, finishes⟩ :=
        @finished_ok _ inner limit advancedSound within.capsule (by omega)
          known complete
      have notWedged : ¬ SentWedged state sent := by
        rintro (isWide | ⟨unknown, _⟩ | ⟨_, isLane, isSpent⟩ | ⟨_, some, none⟩)
        · exact wide isWide
        · exact unknown known
        · rw [isSending] at isLane
          cases isLane
          exact spent isSpent
        · exact complete.elim some (fun notNone => notNone none)
      refine iff_of_true (Or.inl ⟨message, lane, sent.state, isSending, ?_⟩)
        notWedged
      rw [wrote]
      exact congrArg (fun made => (Outcome.mapError EngineError.fault made, _))
        finishes
    · push Not at complete
      obtain ⟨isPending, noCapsule⟩ := complete
      obtain ⟨pending, isSome⟩ := Option.ne_none_iff_exists'.mp isPending
      have fails :
          finished state.version inner (state.advanced lane sent.state) =
            .error .badSession := by
        simp [finished, State.advanced, isSome, noCapsule]
      rw [fails] at wrote
      refine iff_of_false ?_
        (not_not_intro (.capsule known isPending noCapsule))
      rw [State.sealsWhole_of_error wrote]
      exact State.advanced_ne isSending
  · obtain ⟨fault, refused⟩ :=
      @seal_refused _ (sealParts plain binding state lane sent) known
    have failed :
        sealWithState plain nowSecs binding draw state =
          (.error (.fault fault), state.setPqState sent.state) := by
      rw [runs]
      exact Call.bind_of_error (by
        rw [liftM_fault_apply]
        exact congrArg (fun made => (Outcome.mapError EngineError.fault made, _))
          refused)
    rw [State.sealsWhole_of_error failed]
    constructor
    · rintro same (isWide | ⟨_, changed⟩ | ⟨isKnown, _, _⟩ | ⟨isKnown, _, _⟩)
      · exact wide isWide
      · exact changed (congrArg State.pqState same)
      · exact known isKnown
      · exact known isKnown
    · intro notWedged
      have same : sent.state = state.pqState := by
        by_contra changed
        exact notWedged (.refused known changed)
      rw [State.setPqState, same]

/-- A live state is sealed with as a whole exactly when it is not wedged. -/
theorem State.sealsWhole_iff
    {limit : Nat}
    (plain : Bytes)
    (nowSecs : Nat)
    (binding : Option Binding)
    (draw : Braid.Draw)
    (sound : state.Sound)
    (within : state.Within limit)
    (room : limit + plain.length + 1024 < 2 ^ 64) :
    state.SealsWhole plain nowSecs binding draw ↔
      ¬ Wedged state nowSecs draw := by
  have pqShort : state.pqState.length < 2 ^ 64 :=
    Nat.lt_of_le_of_lt within.pqState (by omega)
  rcases may : state.canSendAt nowSecs with (_ | _) | fault | _
  · have notWedged : ¬ Wedged state nowSecs draw := by
      rintro (⟨isSending, overflows⟩ | ⟨fresh, _⟩ | ⟨fresh, _, _⟩)
      · rw [State.canSendAt_eq_trap.mpr ⟨isSending, overflows⟩] at may
        cases may
      · rw [may] at fresh
        cases fresh
      · rw [may] at fresh
        cases fresh
    exact iff_of_true (Or.inr ⟨_, sealWithState_stale may⟩) notWedged
  · by_cases sends : ∃ sent, PqRecord.send state.pqState draw = .ok sent
    · obtain ⟨sent, isSent⟩ := sends
      rw [State.sealsWhole_sent sound within room may isSent, not_iff_not]
      constructor
      · exact Wedged.sent may isSent
      · rintro (⟨isSending, overflows⟩ | ⟨_, traps⟩ | ⟨_, isOther, wedged⟩)
        · rw [State.canSendAt_eq_trap.mpr ⟨isSending, overflows⟩] at may
          cases may
        · rw [(PqRecord.send_eq_trap pqShort draw).mpr traps] at isSent
          cases isSent
        · rw [isSent] at isOther
          cases isOther
          exact wedged
    · push Not at sends
      rcases @sealWithState_unsent _ _ _ plain _ binding _ _ may sends with
        ⟨traps, ends⟩ | ⟨noTrap, error, ends⟩
      · refine iff_of_false (State.not_sealsWhole_of_trap ends)
          (not_not_intro ?_)
        exact .ratchet may ((PqRecord.send_eq_trap pqShort draw).mp traps)
      · have notWedged : ¬ Wedged state nowSecs draw := by
          rintro (⟨isSending, overflows⟩ | ⟨_, traps⟩ | ⟨_, isSent, _⟩)
          · rw [State.canSendAt_eq_trap.mpr ⟨isSending, overflows⟩] at may
            cases may
          · exact noTrap ((PqRecord.send_eq_trap pqShort draw).mpr traps)
          · exact sends _ isSent
        exact iff_of_true (Or.inr ⟨error, ends⟩) notWedged
  · exact absurd may (state.canSendAt_ne_error nowSecs fault)
  · obtain ⟨isSending, overflows⟩ := State.canSendAt_eq_trap.mp may
    exact iff_of_false
      (State.not_sealsWhole_of_trap (sealWithState_stampTrap may))
      (not_not_intro (.stamp isSending overflows))

/-- The archive is sealed with through its live state. -/
theorem sealsWhole_live
    {archive : Archive}
    {current : State}
    (isCurrent : archive.current = some current) :
    SealsWhole plain nowSecs binding draw archive ↔
      current.SealsWhole plain nowSecs binding draw := by
  have runs :
      archive.seal plain nowSecs binding draw =
        ((sealWithState plain nowSecs binding draw current).1,
          { archive with
            current :=
              some (sealWithState plain nowSecs binding draw current).2 }) := by
    simp [Archive.seal, isCurrent]
  unfold SealsWhole State.SealsWhole
  rw [runs]
  constructor
  · rintro (⟨message, other, lane, pqState, isOther, isSending, sealed⟩ |
      ⟨error, failed⟩)
    · rw [isCurrent] at isOther
      cases isOther
      obtain ⟨returned, archives⟩ := Prod.mk.inj sealed
      have after := Option.some.inj (congrArg Archive.current archives)
      exact Or.inl ⟨message, lane, pqState, isSending, Prod.ext returned after⟩
    · obtain ⟨isError, archives⟩ := Prod.mk.inj failed
      have after := (congrArg Archive.current archives).trans isCurrent
      exact Or.inr ⟨error, Prod.ext isError (Option.some.inj after)⟩
  · rintro (⟨message, lane, pqState, isSending, sealed⟩ | ⟨error, failed⟩)
    · rw [sealed]
      exact Or.inl ⟨message, current, lane, pqState, isCurrent, isSending, rfl⟩
    · rw [failed, ← isCurrent]
      exact Or.inr ⟨error, rfl⟩

/--
On a parsed archive a seal returns a message and advances the live state, or
fails and changes nothing, exactly when the live state is not wedged.
-/
theorem seal_whole_iff
    {data : Bytes}
    {archive : Archive}
    (plain : Bytes)
    (nowSecs : Nat)
    (binding : Option Binding)
    (draw : Braid.Draw)
    (parsed : Archive.parse data = .ok archive)
    (room : data.length + plain.length + 1024 < 2 ^ 64) :
    SealsWhole plain nowSecs binding draw archive ↔
      ∀ current,
        archive.current = some current → ¬ Wedged current nowSecs draw := by
  cases isCurrent : archive.current with
  | none =>
      refine iff_of_true (Or.inr ⟨.fault .noSession, ?_⟩) (by simp)
      simp [Archive.seal, isCurrent]
  | some current =>
      have sound := Archive.parse_sound parsed current isCurrent
      have within := Archive.parse_within parsed current isCurrent
      have stateWhole :=
        State.sealsWhole_iff plain nowSecs binding draw sound within room
      simp only [Option.some.injEq, forall_eq']
      exact (sealsWhole_live isCurrent).trans stateWhole

/-- A failure that changes the archive is not whole. -/
theorem not_sealsWhole_of_changed
    {archive : Archive}
    {error : EngineError}
    (failed : (archive.seal plain nowSecs binding draw).1 = .error error)
    (changed : (archive.seal plain nowSecs binding draw).2 ≠ archive) :
    ¬ SealsWhole plain nowSecs binding draw archive := by
  rintro (⟨_, _, _, _, _, _, sealed⟩ | ⟨_, whole⟩)
  · rw [sealed] at failed
    cases failed
  · rw [whole] at changed
    exact changed rfl

end Ends

section Counterexample

open Sample

attribute [local instance] hashes curves aes kem capsules

/-- A live state with a pending handshake and no capsule. -/
private def uncapsuledArchive : Archive :=
  ⟨some
    { sampleState with
      pending := some ⟨none, 5, ⟨Block.fill 32 21⟩, 1000⟩ }, []⟩

/-- A draw of zeroes. -/
private def zeroDraw : Braid.Draw :=
  ⟨Block.zero 64, Block.zero 32⟩

set_option maxRecDepth 100000 in
private theorem uncapsuledArchive_parses :
    Archive.parse uncapsuledArchive.serialize = .ok uncapsuledArchive := by
  decide

set_option maxRecDepth 100000 in
/-- A state without its capsule fails with the chain advanced. -/
private theorem uncapsuledArchive_seal :
    (uncapsuledArchive.seal [1] 0 none zeroDraw).1 =
        .error (.fault .badSession) ∧
      (uncapsuledArchive.seal [1] 0 none zeroDraw).2 ≠
        uncapsuledArchive := by
  decide

set_option maxRecDepth 100000 in
private theorem uncapsuledArchive_room :
    uncapsuledArchive.serialize.length + [(1 : UInt8)].length + 1024 <
      2 ^ 64 := by
  decide

/-- The same archive under the condition. -/
theorem seal_whole_iff_uncapsuled :
    SealsWhole [1] 0 none zeroDraw uncapsuledArchive ↔
      ∀ current,
        uncapsuledArchive.current = some current →
          ¬ Wedged current 0 zeroDraw :=
  seal_whole_iff [1] 0 none zeroDraw uncapsuledArchive_parses
    uncapsuledArchive_room

/-- An error is returned behind the step of the sending chain. -/
theorem uncapsuledArchive_not_sealsWhole :
    Archive.parse uncapsuledArchive.serialize = .ok uncapsuledArchive ∧
      ¬ SealsWhole [1] 0 none zeroDraw uncapsuledArchive := by
  obtain ⟨failed, changed⟩ := uncapsuledArchive_seal
  exact ⟨uncapsuledArchive_parses, not_sealsWhole_of_changed failed changed⟩

end Counterexample

end Ratchet

end Gossveil
