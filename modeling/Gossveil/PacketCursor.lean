import Gossveil.Delivers
import Gossveil.Packet

namespace Gossveil.PacketCursor

open ErasureCode
open Packet (version)

/-!
# Parsing a packet in place

The parser walks the input with a cursor.  Every access and every cast is
checked here: what it returns is what the parser over the remaining bytes
returns, so no access leaves the input and no shift is too wide.
-/

/-- The byte at an index; behind the end it traps. -/
def byteAt (data : Bytes) (index : Nat) : Outcome RatchetError UInt8 :=
  Outcome.unwrap data[index]?

/-- The loop of `getVarint`; the last of eleven turns finds `i` at ten. -/
def getVarintLoop (data : Bytes) (start : Nat) :
    (turns i out : Nat) → Outcome RatchetError (Nat × Nat)
  | 0, _, _ => .error .badPacket
  | turns + 1, i, out =>
      if i < 10 ∧ start + i < data.length then do
        let byte ← byteAt data (start + i)
        let shift ← Outcome.intCast 6 (7 * i)
        let out := out ||| (byte.toNat % 128) <<< shift % 2 ^ 64
        if byte.toNat < 128 then
          return (out, start + i + 1)
        else
          getVarintLoop data start turns (i + 1) out
      else
        .error .badPacket

/-- The value at the cursor, and the cursor behind it. -/
def getVarint (data : Bytes) (start : Nat) :
    Outcome RatchetError (Nat × Nat) :=
  getVarintLoop data start 11 0 0

/-- Reads the number of a piece and its data. -/
def getPiece (data : Bytes) (start : Nat) :
    Outcome RatchetError (Piece × Nat) := do
  let (index, start) ← getVarint data start
  if 65535 < index ∨ data.length < start + pieceSize then
    .error .badPacket
  else
    let index ← Outcome.intCast 16 index
    let bytes ←
      Outcome.unwrap
        (Block.ofBytes pieceSize ((data.drop start).take pieceSize))
    return (⟨Gf16.ofNat index, bytes⟩, start + pieceSize)

/-- The payload behind its tag. -/
def getPayload (data : Bytes) (kind : UInt8) (start : Nat) :
    Outcome RatchetError Payload :=
  if kind = 0 then
    .ok .empty
  else if kind = 1 then
    (fun (piece, _) => .header piece) <$> getPiece data start
  else if kind = 2 then
    (fun (piece, _) => .encap piece) <$> getPiece data start
  else if kind = 3 then
    (fun (piece, _) => .encapAndAck piece) <$> getPiece data start
  else if kind = 4 then
    .ok (.ack true)
  else if kind = 5 then
    (fun (piece, _) => .first piece) <$> getPiece data start
  else if kind = 6 then
    (fun (piece, _) => .second piece) <$> getPiece data start
  else
    .error .badPacket

/-- Reads a packet from its bytes, by index. -/
def parse (data : Bytes) : Outcome RatchetError (Packet × Nat) :=
  if data.length = 0 then
    .error .badPacket
  else do
    let first ← byteAt data 0
    Outcome.require .badPacket (first = version)
    let (epoch, start) ← getVarint data 1
    Outcome.require .badPacket (epoch ≠ 0)
    let (value, start) ← getVarint data start
    let index ← Outcome.ofOption .badPacket (Outcome.castTo 32 value)
    if data.length ≤ start then
      .error .badPacket
    else
      let kind ← byteAt data start
      let payload ← getPayload data kind (start + 1)
      return (⟨epoch, payload⟩, index)

/-! ## The cursor and the remaining bytes -/

/-- A result with its cursor, as one with the remaining bytes. -/
def rest {α : Type} (data : Bytes) (result : α × Nat) : α × Bytes :=
  (result.1, data.drop result.2)

/-- A byte within the packet is read. -/
theorem byteAt_of_lt
    {data : Bytes}
    {index : Nat}
    (inside : index < data.length) :
    byteAt data index = .ok data[index] := by
  rw [byteAt, List.getElem?_eq_getElem inside]
  rfl

/-- The loop on the packet is the loop on its rest. -/
theorem getVarintLoop_rest
    (data : Bytes)
    (start : Nat)
    {turns i : Nat}
    (aligned : i + turns = 11)
    (out : Nat) :
    rest data <$> getVarintLoop data start turns i out =
      Packet.getVarintLoop (10 - i) (data.drop (start + i)) (7 * i) out := by
  induction turns generalizing i out with
  | zero =>
      obtain rfl : i = 11 := by
        omega
      rfl
  | succ turns inductionHypothesis =>
      rw [getVarintLoop]
      by_cases few : i < 10
      · obtain ⟨left, isLeft⟩ := Nat.exists_eq_add_of_lt few
        rw [show 10 - i = left + 1 by omega]
        by_cases inside : start + i < data.length
        · rw [if_pos ⟨few, inside⟩, byteAt_of_lt inside, Outcome.ok_bind,
            Outcome.intCast_of_lt (by omega), Outcome.ok_bind,
            List.drop_eq_getElem_cons inside, Packet.getVarintLoop]
          dsimp only
          by_cases last : data[start + i].toNat < 128
          · rw [if_pos last, if_pos last]
            rfl
          · have next := @inductionHypothesis (i + 1) (by omega)
            rw [if_neg last, if_neg last, next,
              show 10 - (i + 1) = left by omega, Nat.mul_succ, ← Nat.add_assoc]
        · rw [if_neg (fun both => inside both.2),
            List.drop_eq_nil_of_le (Nat.not_lt.mp inside)]
          rfl
      · obtain rfl : i = 10 := by
          omega
        rw [if_neg (fun both => few both.1)]
        rfl

/-- A varint of the packet is one of its rest. -/
theorem getVarint_rest (data : Bytes) (start : Nat) :
    rest data <$> getVarint data start =
      Packet.getVarint (data.drop start) :=
  getVarintLoop_rest data start rfl 0

/-- A varint ends within the input. -/
theorem getVarintLoop_inside
    (data : Bytes)
    (start : Nat)
    {turns i : Nat}
    (aligned : i + turns = 11)
    {out : Nat}
    (fits : out < 2 ^ 64) :
    (getVarintLoop data start turns i out).ReturnsOr .badPacket
      fun result => result.1 < 2 ^ 64 ∧ result.2 ≤ data.length := by
  induction turns generalizing i out with
  | zero => exact .refused
  | succ turns inductionHypothesis =>
      rw [getVarintLoop]
      by_cases turn : i < 10 ∧ start + i < data.length
      · obtain ⟨few, inside⟩ := turn
        have taken :
            out ||| (data[start + i].toNat % 128) <<< (7 * i) % 2 ^ 64 <
              2 ^ 64 :=
          Nat.or_lt_two_pow fits (Nat.mod_lt _ (Nat.two_pow_pos 64))
        rw [if_pos ⟨few, inside⟩, byteAt_of_lt inside, Outcome.ok_bind,
          Outcome.intCast_of_lt (by omega), Outcome.ok_bind]
        dsimp only
        by_cases last : data[start + i].toNat < 128
        · rw [if_pos last]
          exact .ok ⟨taken, inside⟩
        · rw [if_neg last]
          exact inductionHypothesis (by omega) taken
      · rw [if_neg turn]
        exact .refused

/-- A varint fits a word and ends within the packet. -/
theorem getVarint_inside (data : Bytes) (start : Nat) :
    (getVarint data start).ReturnsOr .badPacket
      fun result => result.1 < 2 ^ 64 ∧ result.2 ≤ data.length :=
  getVarintLoop_inside data start rfl (Nat.two_pow_pos 64)

/-- The two readings of a varint, of which one knows the other. -/
theorem getVarint_cases (data : Bytes) (start : Nat) :
    getVarint data start = .error .badPacket ∧
        Packet.getVarint (data.drop start) = .error .badPacket ∨
      ∃ value next,
        getVarint data start = .ok (value, next) ∧
          Packet.getVarint (data.drop start) =
            .ok (value, data.drop next) ∧
          value < 2 ^ 64 ∧ next ≤ data.length := by
  have same := getVarint_rest data start
  obtain refused | ⟨⟨value, next⟩, read, fits, inside⟩ :=
    getVarint_inside data start
  · rw [refused] at same
    exact .inl ⟨refused, same.symm⟩
  · rw [read] at same
    exact .inr ⟨value, next, read, same.symm, fits, inside⟩

/-! ## Pieces -/

/-- The piece lies inside the input. -/
def PieceInside (data : Bytes) (piece : Piece) : Prop :=
  piece.index.toNat < 65536 ∧
    ∃ start, start + pieceSize ≤ data.length ∧
      piece.data.bytes = (data.drop start).take pieceSize

/-- A piece is refused, or is one of the packet's rest and lies within it. -/
theorem getPiece_cases (data : Bytes) (start : Nat) :
    getPiece data start = .error .badPacket ∧
        Packet.getPiece (data.drop start) = .error .badPacket ∨
      ∃ piece next,
        getPiece data start = .ok (piece, next) ∧
          Packet.getPiece (data.drop start) = .ok (piece, data.drop next) ∧
          PieceInside data piece := by
  rw [getPiece, Packet.getPiece]
  obtain ⟨refused, refused'⟩ | ⟨index, next, read, read', _, inside⟩ :=
    getVarint_cases data start
  · rw [refused, refused']
    exact .inl ⟨rfl, rfl⟩
  · rw [read, read', Outcome.ok_bind, Outcome.ok_bind]
    dsimp only
    by_cases small : index ≤ 65535
    · rw [Outcome.require_of small, Outcome.ok_bind]
      by_cases room : next + pieceSize ≤ data.length
      · have length : ((data.drop next).take pieceSize).length = pieceSize := by
          rw [List.length_take, List.length_drop]
          omega
        rw [if_neg (by omega), Outcome.intCast_of_lt (by omega),
          Block.ofBytes, dif_pos length]
        refine .inr ⟨_, _, rfl, ?_, ?_⟩
        · rw [← List.drop_drop]
          rfl
        · exact ⟨(Gf16.ofNat index).toNat_lt, next, room, rfl⟩
      · have short :
            ((data.drop next).take pieceSize).length ≠ pieceSize := by
          rw [List.length_take, List.length_drop]
          omega
        rw [if_pos (by omega), Block.ofBytes, dif_neg short]
        exact .inl ⟨rfl, rfl⟩
    · rw [if_pos (by omega), Outcome.require_not small]
      exact .inl ⟨rfl, rfl⟩

/-! ## Payloads -/

/-- A payload that can be sent, with its piece inside the input. -/
def PayloadInside (data : Bytes) (payload : Payload) : Prop :=
  Packet.Sendable payload ∧
    ∀ piece, payload.piece = some piece → PieceInside data piece

section Pieces

variable
  {make : Piece → Payload}
  (isPiece : ∀ piece, (make piece).piece = some piece)
  (data : Bytes)
  (start : Nat)

/-- A payload of one piece is one of the packet's rest. -/
theorem make_getPiece :
    (fun (piece, _) => make piece) <$> getPiece data start =
      (fun (piece, _) => make piece) <$> Packet.getPiece (data.drop start) := by
  obtain ⟨refused, refused'⟩ | ⟨piece, next, read, read', _⟩ :=
    getPiece_cases data start
  · rw [refused, refused']
    rfl
  · rw [read, read']
    rfl

include isPiece in
/-- The piece of a payload lies within the packet. -/
theorem make_getPiece_inside :
    ((fun (piece, _) => make piece) <$> getPiece data start).ReturnsOr
      .badPacket (PayloadInside data) := by
  obtain ⟨refused, _⟩ | ⟨piece, next, read, _, inside⟩ :=
    getPiece_cases data start
  · rw [refused]
    exact .refused
  · rw [read]
    refine .ok ⟨?_, fun other isOther => ?_⟩
    · intro isAck
      have absent := isPiece piece
      rw [show make piece = .ack false from isAck] at absent
      cases absent
    · rw [isPiece] at isOther
      cases isOther
      exact inside

end Pieces

/-- A payload of the packet is one of its rest. -/
theorem getPayload_eq (data : Bytes) (kind : UInt8) (start : Nat) :
    getPayload data kind start =
      Packet.getPayload kind (data.drop start) := by
  rw [getPayload, Packet.getPayload]
  simp only [make_getPiece]

/-- A payload lies within the packet. -/
theorem getPayload_inside (data : Bytes) (kind : UInt8) (start : Nat) :
    (getPayload data kind start).ReturnsOr .badPacket
      (PayloadInside data) := by
  rw [getPayload]
  split_ifs
  · exact .ok ⟨nofun, nofun⟩
  · exact make_getPiece_inside (fun _ => rfl) data start
  · exact make_getPiece_inside (fun _ => rfl) data start
  · exact make_getPiece_inside (fun _ => rfl) data start
  · exact .ok ⟨nofun, nofun⟩
  · exact make_getPiece_inside (fun _ => rfl) data start
  · exact make_getPiece_inside (fun _ => rfl) data start
  · exact .refused

/-! ## Packets -/

/-- What the parser promises of a packet and its key index. -/
structure Accepted (data : Bytes) (result : Packet × Nat) : Prop where
  epochPositive : 1 ≤ result.1.epoch
  epochFits : result.1.epoch < 2 ^ 64
  indexFits : result.2 < 2 ^ 32
  payload : PayloadInside data result.1.payload

/-- A packet is refused, or what is parsed lies within it. -/
theorem parse_accepted (data : Bytes) :
    (parse data).ReturnsOr .badPacket (Accepted data) := by
  rw [parse]
  by_cases empty : data.length = 0
  · rw [if_pos empty]
    exact .refused
  · rw [if_neg empty, byteAt_of_lt (Nat.pos_of_ne_zero empty),
      Outcome.ok_bind]
    refine Outcome.ReturnsOr.require.bind fun _ _ => ?_
    refine (getVarint_inside data 1).bind fun ⟨epoch, start⟩ ⟨fits, _⟩ => ?_
    refine Outcome.ReturnsOr.require.bind fun _ positive => ?_
    refine (getVarint_inside data start).bind fun ⟨value, start⟩ _ => ?_
    have cast :
        (Outcome.ofOption .badPacket (Outcome.castTo 32 value)).ReturnsOr
          RatchetError.badPacket (· < 2 ^ 32) := by
      by_cases small : value < 2 ^ 32
      · rw [Outcome.castTo_of_lt small]
        exact .ok small
      · rw [Outcome.castTo, if_neg small]
        exact .refused
    refine cast.bind fun index small => ?_
    by_cases ended : data.length ≤ start
    · rw [if_pos ended]
      exact .refused
    · rw [if_neg ended, byteAt_of_lt (Nat.not_le.mp ended), Outcome.ok_bind]
      refine (getPayload_inside data _ _).bind fun payload inside => ?_
      exact .ok ⟨Nat.one_le_iff_ne_zero.mpr positive, fits, small, inside⟩

/-- The cursor stands where the remaining bytes begin. -/
theorem parse_eq (data : Bytes) : parse data = Packet.parse data := by
  rw [parse]
  cases data with
  | nil => rfl
  | cons first ahead =>
      have filled : (first :: ahead).length ≠ 0 := Nat.succ_ne_zero _
      rw [if_neg filled, byteAt_of_lt (Nat.pos_of_ne_zero filled),
        Outcome.ok_bind, Packet.parse]
      refine congrArg _ (funext fun _ => ?_)
      obtain ⟨refused, refused'⟩ | ⟨epoch, start, read, read', _⟩ :=
        getVarint_cases (first :: ahead) 1
      · rw [List.drop_one, List.tail_cons] at refused'
        rw [refused, refused']
        rfl
      · rw [List.drop_one, List.tail_cons] at read'
        rw [read, read', Outcome.ok_bind, Outcome.ok_bind]
        dsimp only
        refine congrArg _ (funext fun _ => ?_)
        obtain ⟨refused, refused'⟩ | ⟨value, next, read, read', _⟩ :=
          getVarint_cases (first :: ahead) start
        · rw [refused, refused']
          rfl
        · rw [read, read', Outcome.ok_bind, Outcome.ok_bind]
          dsimp only
          refine congrArg _ (funext fun index => ?_)
          by_cases ended : (first :: ahead).length ≤ next
          · rw [if_pos ended, List.drop_eq_nil_of_le ended]
          · have inside := Nat.not_le.mp ended
            rw [if_neg ended, byteAt_of_lt inside, Outcome.ok_bind,
              List.drop_eq_getElem_cons inside, getPayload_eq]

/--
A packet parses back from its bytes, and any other input is refused or gives a
packet within the ranges, its piece inside the input: nothing is read past the
end and no shift overflows.
-/
theorem parse_round_trip :
    (∀ (packet : Packet) (index : Nat),
        1 ≤ packet.epoch → packet.epoch < 2 ^ 64 → index < 2 ^ 32 →
          packet.payload ≠ .ack false →
            parse (packet.serialize index) = .ok (packet, index)) ∧
      ∀ data : Bytes,
        parse data = .error .badPacket ∨
          ∃ packet index,
            parse data = .ok (packet, index) ∧ 1 ≤ packet.epoch ∧
              packet.epoch < 2 ^ 64 ∧ index < 2 ^ 32 ∧
              packet.payload ≠ .ack false ∧
              ∀ piece, packet.payload.piece = some piece →
                piece.index.toNat < 65536 ∧
                  ∃ start, start + pieceSize ≤ data.length ∧
                    piece.data.bytes = (data.drop start).take pieceSize := by
  constructor
  · intro packet index positive epochFits indexFits sendable
    rw [parse_eq]
    exact Packet.parse_serialize (Nat.one_le_iff_ne_zero.mp positive)
      epochFits indexFits sendable
  · intro data
    obtain refused | ⟨⟨packet, index⟩, read, accepted⟩ := parse_accepted data
    · exact .inl refused
    · exact .inr ⟨packet, index, read, accepted.epochPositive,
        accepted.epochFits, accepted.indexFits, accepted.payload⟩

theorem parse_round_trip_empty :
    parse ((⟨300, .empty⟩ : Packet).serialize 5) = .ok (⟨300, .empty⟩, 5) :=
  parse_round_trip.1 ⟨300, .empty⟩ 5 (by decide) (by decide) (by decide)
    (by decide)

end Gossveil.PacketCursor
