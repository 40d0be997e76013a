import Gossveil.ErasureCodeCorrectness

namespace Gossveil

open ErasureCode

/-!
# The packet of the post-quantum ratchet

One packet travels with each session message: a version byte, the epoch, the
key index, a payload kind and, for most kinds, one piece of the erasure-coded
payload.
-/

/-- What a packet carries besides its epoch. -/
inductive Payload where
  | empty
  | header (piece : Piece)
  | encap (piece : Piece)
  | encapAndAck (piece : Piece)
  | ack (value : Bool)
  | first (piece : Piece)
  | second (piece : Piece)
  deriving DecidableEq

namespace Payload

/-- The tag of a payload on the wire. -/
def kind : Payload → UInt8
  | .empty => 0
  | .header _ => 1
  | .encap _ => 2
  | .encapAndAck _ => 3
  | .ack _ => 4
  | .first _ => 5
  | .second _ => 6

/-- The piece of a payload, if its kind has one. -/
def piece : Payload → Option Piece
  | .header piece | .encap piece | .encapAndAck piece
  | .first piece | .second piece => some piece
  | .empty | .ack _ => none

end Payload

/-- A packet of the braid. -/
structure Packet where
  epoch : Nat
  payload : Payload
  deriving DecidableEq

namespace Packet

/-- The byte every packet begins with. -/
def version : UInt8 := 1

/-- The loop of `putVarint`; ten bytes hold any 64-bit value. -/
def putVarint (value : Nat) : Bytes :=
  Codec.putVarintInto 10 value

/-- The number of a piece, then its data. -/
def pieceBytes (piece : Piece) : Bytes :=
  putVarint piece.index.toNat ++ piece.data.bytes

/-- The bytes of a packet, with the index of the key it travels with. -/
def serialize (packet : Packet) (index : Nat) : Bytes :=
  version ::
    (putVarint packet.epoch ++ putVarint index ++
      packet.payload.kind ::
        match packet.payload.piece with
        | some piece => pieceBytes piece
        | none => [])

/-- The loop of `getVarint`: the value and the bytes behind it. -/
def getVarintLoop :
    (turns : Nat) →
    (ahead : Bytes) →
    (shift value : Nat) →
    Outcome RatchetError (Nat × Bytes)
  | 0, _, _, _ => .error .badPacket
  | _ + 1, [], _, _ => .error .badPacket
  | turns + 1, byte :: ahead, shift, value =>
      let value := value ||| (byte.toNat % 128) <<< shift % 2 ^ 64
      if byte.toNat < 128 then
        .ok (value, ahead)
      else
        getVarintLoop turns ahead (shift + 7) value

/-- Reads a varint of at most ten bytes. -/
def getVarint (ahead : Bytes) : Outcome RatchetError (Nat × Bytes) :=
  getVarintLoop 10 ahead 0 0

/-- One piece and the bytes behind it. -/
def getPiece (ahead : Bytes) : Outcome RatchetError (Piece × Bytes) := do
  let (index, ahead) ← getVarint ahead
  Outcome.require .badPacket (index ≤ 65535)
  let data ←
    Outcome.ofOption .badPacket (Block.ofBytes pieceSize (ahead.take pieceSize))
  return (⟨Gf16.ofNat index, data⟩, ahead.drop pieceSize)

/-- The payload behind its tag. -/
def getPayload (kind : UInt8) (ahead : Bytes) : Outcome RatchetError Payload :=
  if kind = 0 then
    .ok .empty
  else if kind = 1 then
    (fun (piece, _) => .header piece) <$> getPiece ahead
  else if kind = 2 then
    (fun (piece, _) => .encap piece) <$> getPiece ahead
  else if kind = 3 then
    (fun (piece, _) => .encapAndAck piece) <$> getPiece ahead
  else if kind = 4 then
    .ok (.ack true)
  else if kind = 5 then
    (fun (piece, _) => .first piece) <$> getPiece ahead
  else if kind = 6 then
    (fun (piece, _) => .second piece) <$> getPiece ahead
  else
    .error .badPacket

/-- The packet and its key index; bytes behind the payload are ignored. -/
def parse (data : Bytes) : Outcome RatchetError (Packet × Nat) :=
  match data with
  | [] => .error .badPacket
  | first :: ahead => do
      Outcome.require .badPacket (first = version)
      let (epoch, ahead) ← getVarint ahead
      Outcome.require .badPacket (epoch ≠ 0)
      let (index, ahead) ← getVarint ahead
      let index ← Outcome.ofOption .badPacket (Outcome.castTo 32 index)
      match ahead with
      | [] => .error .badPacket
      | kind :: ahead => do
          let payload ← getPayload kind ahead
          return (⟨epoch, payload⟩, index)

/-! ## Parsing never traps -/

theorem getVarintLoop_ne_trap
    (turns : Nat)
    (ahead : Bytes)
    (shift value : Nat) :
    getVarintLoop turns ahead shift value ≠ .trap := by
  induction turns generalizing ahead shift value with
  | zero =>
      simp [getVarintLoop]
  | succ turns inductionHypothesis =>
      cases ahead with
      | nil =>
          simp [getVarintLoop]
      | cons byte ahead =>
          simp only [getVarintLoop]
          split_ifs
          · simp
          · exact inductionHypothesis _ _ _

/-- Reading a varint never traps. -/
theorem getVarint_ne_trap (ahead : Bytes) : getVarint ahead ≠ .trap :=
  getVarintLoop_ne_trap 10 ahead 0 0

/-- Reading a piece never traps. -/
theorem getPiece_ne_trap (ahead : Bytes) : getPiece ahead ≠ .trap := by
  intro trapped
  simp only [getPiece, Outcome.bind_eq_trap] at trapped
  rcases trapped with read | ⟨_, _, checked | ⟨_, _, taken | ⟨_, _, done⟩⟩⟩
  · exact getVarint_ne_trap ahead read
  · exact Outcome.require_ne_trap checked
  · exact Outcome.ofOption_ne_trap _ _ taken
  · cases done

/-- Reading a payload never traps. -/
theorem getPayload_ne_trap
    (kind : UInt8)
    (ahead : Bytes) :
    getPayload kind ahead ≠ .trap := by
  unfold getPayload
  split_ifs <;> simp [getPiece_ne_trap]

/-- Parsing a packet never traps. -/
theorem parse_ne_trap (data : Bytes) : parse data ≠ .trap := by
  cases data with
  | nil =>
      simp [parse]
  | cons first ahead =>
      intro trapped
      simp only [parse, Outcome.bind_eq_trap] at trapped
      rcases trapped with
        checked | ⟨_, _, read | ⟨⟨epoch, ahead⟩, _,
          checked | ⟨_, _, read | ⟨⟨index, ahead⟩, _,
            cast | ⟨_, _, rest⟩⟩⟩⟩⟩
      · exact Outcome.require_ne_trap checked
      · exact getVarint_ne_trap _ read
      · exact Outcome.require_ne_trap checked
      · exact getVarint_ne_trap _ read
      · exact Outcome.ofOption_ne_trap _ _ cast
      · cases ahead with
        | nil => cases rest
        | cons kind ahead =>
            rcases Outcome.bind_eq_trap.mp rest with
              payload | ⟨_, _, done⟩
            · exact getPayload_ne_trap _ _ payload
            · cases done

/-! ## What is parsed is in range -/

/-- What is read fits 64 bits. -/
theorem getVarintLoop_fits
    {turns : Nat}
    {ahead : Bytes}
    {shift value : Nat}
    (fits : value < 2 ^ 64) :
    Outcome.Returns (fun result => result.1 < 2 ^ 64)
      (getVarintLoop turns ahead shift value) := by
  induction turns generalizing ahead shift value with
  | zero => exact .error _
  | succ turns inductionHypothesis =>
      cases ahead with
      | nil => exact .error _
      | cons byte ahead =>
          have taken :
              value ||| (byte.toNat % 128) <<< shift % 2 ^ 64 < 2 ^ 64 :=
            Nat.or_lt_two_pow fits
              (Nat.mod_lt _ (Nat.two_pow_pos 64))
          simp only [getVarintLoop]
          split_ifs
          · exact .ok taken
          · exact inductionHypothesis taken

/-- The epoch of a parsed packet fits 64 bits. -/
theorem parse_epochFits (data : Bytes) :
    Outcome.Returns (fun result => result.1.epoch < 2 ^ 64)
      (parse data) := by
  cases data with
  | nil => exact .error _
  | cons first ahead =>
      refine .bind fun _ _ => .bind fun read reads => .bind fun _ _ =>
        .bind fun _ _ => .bind fun _ _ => ?_
      split
      · exact .error _
      · exact .bind fun _ _ => .ok
          (getVarintLoop_fits (Nat.two_pow_pos 64) read reads)

/-! ## Round trip -/

/-- On its success the codec's loop and the packet's agree. -/
theorem getVarintLoop_of_varintLoop
    {turns : Nat}
    {ahead : Bytes}
    {shift value taken after result : Nat}
    (aligned : shift + 7 * (turns + 1) = 70)
    (read :
      Codec.varintLoop ahead shift value taken = (after, .ok result)) :
    taken ≤ after ∧
      getVarintLoop (turns + 1) ahead shift value =
        .ok (result, ahead.drop (after - taken)) := by
  induction turns generalizing ahead shift value taken with
  | zero =>
      cases ahead with
      | nil => simp [Codec.varintLoop] at read
      | cons byte ahead =>
          simp only [Codec.varintLoop] at read
          simp only [getVarintLoop]
          by_cases last : byte.toNat < 128
          · rw [if_pos last] at read ⊢
            simp only [Prod.mk.injEq, Outcome.ok.injEq] at read
            rcases read with ⟨rfl, rfl⟩
            exact ⟨Nat.le_succ taken, by simp⟩
          · rw [if_neg last, if_pos (by omega)] at read
            simp at read
  | succ turns inductionHypothesis =>
      cases ahead with
      | nil => simp [Codec.varintLoop] at read
      | cons byte ahead =>
          simp only [Codec.varintLoop] at read
          rw [getVarintLoop]
          by_cases last : byte.toNat < 128
          · rw [if_pos last] at read
            simp only [Prod.mk.injEq, Outcome.ok.injEq] at read
            rcases read with ⟨rfl, rfl⟩
            refine ⟨Nat.le_succ taken, ?_⟩
            simp [last]
          · rw [if_neg last, if_neg (by omega), if_pos (by omega)] at read
            rcases inductionHypothesis (by omega) read with
              ⟨forward, found⟩
            have step : after - taken = after - (taken + 1) + 1 := by
              omega
            refine ⟨by omega, ?_⟩
            simp only [last, if_false]
            rw [found, step, List.drop_succ_cons]

/-- A written varint reads back, whatever follows it. -/
theorem getVarint_putVarint
    {value : Nat}
    (rest : Bytes)
    (small : value < 2 ^ 64) :
    getVarint (putVarint value ++ rest) = .ok (value, rest) := by
  rcases @getVarintLoop_of_varintLoop 9 _ 0 0 0 _ _ rfl
      (Codec.varintLoop_putVarint rest small) with
    ⟨_, found⟩
  rw [getVarint, putVarint]
  refine found.trans ?_
  congr 2
  exact List.drop_left

/-- A written piece reads back, whatever follows it. -/
theorem getPiece_pieceBytes
    (piece : Piece)
    (rest : Bytes) :
    getPiece (pieceBytes piece ++ rest) = .ok (piece, rest) := by
  have small := piece.index.toNat_lt
  have taken :
      (piece.data.bytes ++ rest).take pieceSize = piece.data.bytes :=
    List.take_left' piece.data.length_bytes
  have dropped : (piece.data.bytes ++ rest).drop pieceSize = rest :=
    List.drop_left' piece.data.length_bytes
  have data :
      Block.ofBytes pieceSize piece.data.bytes = some piece.data :=
    Block.ofBytes_bytes piece.data
  rw [getPiece, pieceBytes, List.append_assoc,
    getVarint_putVarint _ (by omega)]
  simp only [Outcome.ok_bind,
    Outcome.require_of (show piece.index.toNat ≤ 65535 by omega), taken,
    dropped, data, Gf16.ofNat_toNat]
  rfl

/-- The payloads the braid sends: an acknowledgement is always positive. -/
def Sendable (payload : Payload) : Prop :=
  payload ≠ .ack false

/-- A serialised packet parses back. -/
theorem parse_serialize
    {packet : Packet}
    {index : Nat}
    (positive : packet.epoch ≠ 0)
    (epochFits : packet.epoch < 2 ^ 64)
    (indexFits : index < 2 ^ 32)
    (sendable : Sendable packet.payload) :
    parse (packet.serialize index) = .ok (packet, index) := by
  rcases packet with ⟨epoch, payload⟩
  have payloadRead :
      getPayload payload.kind
          (match payload.piece with
            | some piece => pieceBytes piece
            | none => []) =
        .ok payload := by
    have pieceRead :
        ∀ piece : Piece, getPiece (pieceBytes piece) = .ok (piece, []) := by
      intro piece
      have read := getPiece_pieceBytes piece []
      rw [List.append_nil] at read
      exact read
    cases payload with
    | empty => rfl
    | header piece => simp [getPayload, Payload.kind, Payload.piece, pieceRead]
    | encap piece => simp [getPayload, Payload.kind, Payload.piece, pieceRead]
    | encapAndAck piece =>
        simp [getPayload, Payload.kind, Payload.piece, pieceRead]
    | ack value =>
        cases value with
        | true => rfl
        | false => exact absurd rfl sendable
    | first piece => simp [getPayload, Payload.kind, Payload.piece, pieceRead]
    | second piece => simp [getPayload, Payload.kind, Payload.piece, pieceRead]
  simp only [serialize, parse, Outcome.require, if_true, Outcome.ok_bind]
  rw [List.append_assoc, getVarint_putVarint _ epochFits]
  simp only [Outcome.ok_bind]
  rw [if_pos positive, Outcome.ok_bind,
    getVarint_putVarint _ (Nat.lt_trans indexFits (by decide)),
    Outcome.ok_bind]
  simp only [Outcome.castTo_of_lt indexFits, Outcome.ofOption_some,
    Outcome.ok_bind]
  rw [payloadRead]
  rfl

end Packet

end Gossveil
