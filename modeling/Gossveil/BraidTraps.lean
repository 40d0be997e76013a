import Gossveil.BraidSteps
import Gossveil.RecordTraps

namespace Gossveil

open ErasureCode Codec

/-!
# When the braid traps

A braid read from a record traps on a send when its outgoing columns cannot be
fitted, and on a receive when the last epoch ends.  Apart from these, every
call returns or refuses, and here it is said which.
-/

namespace ErasureCode

open Interpolation

namespace Spread

/-- A column of message words has run out, and another is too long to fit. -/
def Overfull (spread : Spread) : Prop :=
  spread.fitted = false ∧
    (∃ column, (spread.columns column).length ≤ spread.next % 2 ^ 16) ∧
      ∃ column, 2 ^ 16 < (spread.columns column).length

/-- A word of the message is looked up. -/
theorem point_present
    {spread : Spread}
    {column : Fin polynomials}
    {x : Gf16}
    (raw : spread.fitted = false)
    (present : x.toNat < (spread.columns column).length) :
    ∃ word, spread.point column x = .ok (word, spread) := by
  rw [point, if_neg (by simp [raw]), List.getElem?_eq_getElem present]
  exact ⟨_, rfl⟩

/-- Behind the words the polynomials are fitted. -/
theorem point_missing
    {spread : Spread}
    {column : Fin polynomials}
    {x : Gf16}
    (raw : spread.fitted = false)
    (missing : (spread.columns column).length ≤ x.toNat) :
    spread.point column x =
      fitColumns spread.columns >>= fun columns =>
        .ok (evaluate (columns column) x,
          { spread with columns := columns, fitted := true }) := by
  rw [point, if_neg (by simp [raw]), List.getElem?_eq_none missing]
  rfl

/-- Fitted columns yield every point. -/
theorem pointsAt_fitted
    (x : Gf16)
    (rest : List (Fin polynomials))
    (words : Fin polynomials → Gf16)
    {spread : Spread}
    (fitted : spread.fitted = true) :
    ∃ result, pointsAt x rest words spread = .ok result := by
  induction rest generalizing words with
  | nil => exact ⟨_, rfl⟩
  | cons column rest inductionHypothesis =>
      rw [pointsAt, point, if_pos fitted]
      exact inductionHypothesis _

/-- The first missing word makes the loop fit all columns. -/
theorem pointsAt_raw
    (x : Gf16)
    (rest : List (Fin polynomials))
    (words : Fin polynomials → Gf16)
    {spread : Spread}
    (raw : spread.fitted = false) :
    pointsAt x rest words spread = .trap ∧
        (∃ column ∈ rest, (spread.columns column).length ≤ x.toNat) ∧
        (∃ column, 2 ^ 16 < (spread.columns column).length) ∨
      (∃ result, pointsAt x rest words spread = .ok result) ∧
        ¬ ((∃ column ∈ rest, (spread.columns column).length ≤ x.toNat) ∧
          ∃ column, 2 ^ 16 < (spread.columns column).length) := by
  induction rest generalizing words with
  | nil =>
      refine Or.inr ⟨⟨_, rfl⟩, ?_⟩
      rintro ⟨⟨column, member, _⟩, _⟩
      cases member
  | cons column rest inductionHypothesis =>
      rw [pointsAt]
      by_cases missing : (spread.columns column).length ≤ x.toNat
      · have first :
            ∃ other ∈ column :: rest,
              (spread.columns other).length ≤ x.toNat :=
          ⟨column, List.mem_cons_self .., missing⟩
        rw [point_missing raw missing, fitColumns]
        split_ifs with short
        · refine Or.inr ⟨pointsAt_fitted x rest _ rfl, ?_⟩
          rintro ⟨_, other, long⟩
          exact absurd (short other) (Nat.not_le.mpr long)
        · push Not at short
          exact Or.inl ⟨rfl, first, short⟩
      · obtain ⟨word, present⟩ :=
          point_present raw (Nat.not_le.mp missing)
        have rests :
            (∃ other ∈ column :: rest,
                (spread.columns other).length ≤ x.toNat) ↔
              ∃ other ∈ rest,
                (spread.columns other).length ≤ x.toNat := by
          simp [missing]
        rw [present, Outcome.ok_bind, rests]
        exact inductionHypothesis _

/-- The next piece is made, or the columns cannot be fitted. -/
theorem nextPiece_outcome (spread : Spread) :
    spread.nextPiece = .trap ∧ spread.Overfull ∨
      (∃ result, spread.nextPiece = .ok result) ∧ ¬ spread.Overfull := by
  have made :
      ∀ {result},
        pointsAt (Gf16.ofNat spread.next) (List.finRange polynomials)
            (fun _ => 0) spread = .ok result →
          ∃ result, spread.nextPiece = .ok result := by
    intro result points
    rw [nextPiece, pieceAt, points]
    exact ⟨_, rfl⟩
  cases fitted : spread.fitted with
  | true =>
      obtain ⟨result, points⟩ :=
        pointsAt_fitted (Gf16.ofNat spread.next)
          (List.finRange polynomials) (fun _ => 0) fitted
      refine Or.inr ⟨made points, ?_⟩
      rintro ⟨raw, _⟩
      rw [fitted] at raw
      cases raw
  | false =>
      have place :
          (Gf16.ofNat spread.next).toNat = spread.next % 2 ^ 16 := rfl
      rcases pointsAt_raw (Gf16.ofNat spread.next)
          (List.finRange polynomials) (fun _ => 0) fitted with
        ⟨points, ⟨column, _, missing⟩, long⟩ | ⟨⟨result, points⟩, fits⟩
      · refine Or.inl ⟨?_, fitted, ⟨column, missing⟩, long⟩
        rw [nextPiece, pieceAt, points]
        rfl
      · refine Or.inr ⟨made points, ?_⟩
        rintro ⟨_, ⟨column, missing⟩, long⟩
        exact fits ⟨⟨column, List.mem_finRange column, missing⟩, long⟩

/-- A fresh spread of a short message is not overfull. -/
theorem of_outcome
    {message : Bytes}
    (codable : Braid.Codable message) :
    ∃ spread result,
      Spread.of message = .ok spread ∧ spread.nextPiece = .ok result := by
  obtain ⟨spread, isSpread, carries⟩ :=
    of_carries codable.even codable.short
  obtain ⟨after, piece, _⟩ := nextPiece_of_carries carries
  exact ⟨spread, _, isSpread, piece⟩

end Spread

namespace Gather

/-- A word of the message can be evaluated. -/
theorem wordAt_eq_ok
    (gather : Gather)
    {place : Nat}
    (short : place / polynomials < 2 ^ 16) :
    ∃ word, gather.wordAt place = .ok word := by
  rw [wordAt, Outcome.intCast_of_lt short, Outcome.ok_bind]
  split
  · exact ⟨_, rfl⟩
  · exact ⟨_, rfl⟩

theorem words_eq_ok
    (gather : Gather)
    {places : List Nat}
    (short : ∀ place ∈ places, place / polynomials < 2 ^ 16) :
    ∃ words : List Gf16,
      places.mapM gather.wordAt = .ok words ∧
        words.length = places.length := by
  induction places with
  | nil => exact ⟨[], rfl, rfl⟩
  | cons place rest inductionHypothesis =>
      obtain ⟨word, isWord⟩ :=
        gather.wordAt_eq_ok (short place (List.mem_cons_self ..))
      obtain ⟨words, areWords, length⟩ :=
        inductionHypothesis fun other member =>
          short other (List.mem_cons_of_mem _ member)
      rw [List.mapM_cons, isWord, Outcome.ok_bind, areWords]
      exact ⟨word :: words, rfl, congrArg Nat.succ length⟩

/-- A message of usual length is still incomplete, or rebuilt in full. -/
theorem message_outcome
    {gather : Gather}
    (short : gather.needed ≤ 2 ^ 16 * polynomials) :
    gather.message = .ok none ∨
      ∃ whole : Bytes, gather.message = .ok (some whole) ∧
        whole.length = 2 * gather.needed := by
  rw [message]
  split_ifs
  · exact Or.inl rfl
  · exact Or.inl rfl
  · obtain ⟨words, areWords, length⟩ :=
      @words_eq_ok gather (List.range gather.needed) fun place member =>
        (Nat.div_lt_iff_lt_mul (by decide)).mpr
          (Nat.lt_of_lt_of_le (List.mem_range.mp member) short)
    rw [areWords]
    refine Or.inr ⟨bytesOf words, rfl, ?_⟩
    rw [length_bytesOf, length, List.length_range]

end Gather

end ErasureCode

namespace Codec

/-- A search returns what a field it knows says. -/
theorem find_eq_ok
    {ε α : Type}
    {fault : ε}
    {known : Field → Option (Outcome ε α)}
    {data : Bytes}
    {value : α}
    (found : find fault known data = .ok value) :
    ∃ field, known field = some (.ok value) := by
  have findFrom_eq_ok :
      ∀ turns reader,
        findFrom fault known turns reader = .ok value →
          ∃ field, known field = some (.ok value) := by
    intro turns
    induction turns with
    | zero =>
        intro reader found
        cases found
    | succ turns inductionHypothesis =>
        intro reader found
        rw [findFrom] at found
        split at found
        · cases found
        · cases found
        · cases found
        · split at found
          · rename_i field _ _ _ isKnown
            exact ⟨_, isKnown.trans (congrArg some found)⟩
          · exact inductionHypothesis _ found
  exact findFrom_eq_ok _ _ found

end Codec

namespace Braid

/-! ## What a braid that has been read keeps to -/

/-- Every gather is for the length of its message. -/
def Gathers : Braid → Prop
  | .headerOut _ _ _ _ inFirst => inFirst.needed = Kem.firstLength / 2
  | .encapOutFirstIn _ _ _ _ inSecond =>
      inSecond.needed = secondMessage / 2
  | .waiting _ _ inHeader => inHeader.needed = headerMessage / 2
  | .headerIn _ _ _ inEncap
  | .firstOut _ _ _ _ _ _ inEncap
  | .firstAcked _ _ _ _ _ inEncap => inEncap.needed = Kem.encapLength / 2
  | _ => True

theorem gather_needed (coder : Option Bytes) (expected : Nat) :
    Outcome.Returns (fun gather => gather.needed = expected / 2)
      (gather coder expected) :=
  .bind fun _ _ => .bind fun _ _ => .bind fun _ required =>
    .ok (Outcome.require_eq_ok.mp required)

theorem readState_gathers (number : Nat) (data : Bytes) :
    Outcome.Returns Gathers (readState number data) := by
  refine .bind fun parts _ => .bind fun fixed _ => .bind fun auth _ => ?_
  split
  · exact .ok trivial
  · exact .bind fun _ _ => .bind fun _ _ => .bind fun _ _ => .ok trivial
  · exact .bind fun _ _ => .bind fun _ _ => .bind fun inFirst reads =>
      .ok (gather_needed _ _ inFirst reads)
  · exact .bind fun _ _ => .bind fun _ _ => .bind fun _ _ => .ok trivial
  · exact .bind fun _ _ => .bind fun _ _ => .bind fun inSecond reads =>
      .ok (gather_needed _ _ inSecond reads)
  · exact .bind fun inHeader reads =>
      .ok (gather_needed _ _ inHeader reads)
  · exact .bind fun _ _ => .bind fun inEncap reads =>
      .ok (gather_needed _ _ inEncap reads)
  · exact .bind fun _ _ => .bind fun _ _ => .bind fun _ _ =>
      .bind fun _ _ => .bind fun inEncap reads =>
        .ok (gather_needed _ _ inEncap reads)
  · exact .bind fun _ _ => .bind fun _ _ => .bind fun _ _ =>
      .bind fun _ _ => .ok trivial
  · exact .bind fun _ _ => .bind fun _ _ => .bind fun _ _ =>
      .bind fun inEncap reads => .ok (gather_needed _ _ inEncap reads)
  · exact .bind fun _ _ => .ok trivial
  · rintro _ ⟨⟩

/-- The gathers of a braid that is read need what its state expects. -/
theorem read_gathers (data : Bytes) :
    Outcome.Returns Gathers (read data) := by
  intro braid reads
  obtain ⟨field, isKnown⟩ := find_eq_ok reads
  unfold known at isKnown
  split_ifs at isKnown
  exact readState_gathers _ _ braid (Option.some.inj isKnown)

/-! ## Sending -/

/-- The spread whose pieces a send takes. -/
def outgoing : Braid → Option Spread
  | .sampled _ _ _ _ out
  | .headerOut _ _ _ out _
  | .firstIn _ _ _ _ out
  | .firstOut _ _ _ _ _ out _
  | .encapInFirstOut _ _ _ _ _ out
  | .secondOut _ _ out => some out
  | _ => none

/-- The next piece cannot be made. -/
def Overfull (braid : Braid) : Prop :=
  ∃ out, braid.outgoing = some out ∧ out.Overfull

/-- A send encapsulates, and has a secret. -/
def Encapsulates : Braid → Prop
  | .headerIn _ _ _ _ => True
  | _ => False

variable [Hashes] [Kem]

omit [Hashes] in
/-- A send samples a key, and the seed yields none. -/
def LacksKeys (braid : Braid) (draw : Draw) : Prop :=
  match braid with
  | .unsampled _ _ => Kem.generate draw.seed = none
  | _ => False

/-- What a send comes to. -/
inductive SendOutcome
    (braid : Braid)
    (draw : Draw)
    (result : Outcome RatchetError (Braid × Sent)) :
    Prop where
  | overfull (is : braid.Overfull) (traps : result = .trap)
  | lacksKeys
      (fits : ¬ braid.Overfull)
      (is : braid.LacksKeys draw)
      (fails : ∃ fault, result = .error fault)
  | sends
      (fits : ¬ braid.Overfull)
      (hasKeys : ¬ braid.LacksKeys draw)
      (returns :
        ∃ after sent, result = .ok (after, sent) ∧
          (sent.secret ≠ none ↔ braid.Encapsulates))

private theorem send_piece
    {braid : Braid}
    {draw : Draw}
    {out : Spread}
    {state : Spread → Braid}
    {payload : Piece → Payload}
    (isOut : braid.outgoing = some out)
    (hasKeys : ¬ braid.LacksKeys draw)
    (encapsulates : ¬ braid.Encapsulates)
    (sends :
      braid.send draw = (do
        let (piece, out) ← out.nextPiece
        return (state out, ⟨⟨braid.epoch, payload piece⟩, none⟩))) :
    SendOutcome braid draw (braid.send draw) := by
  rw [sends]
  rcases out.nextPiece_outcome with
    ⟨traps, overfull⟩ | ⟨⟨⟨piece, after⟩, made⟩, fits⟩
  · rw [traps]
    exact .overfull ⟨out, isOut, overfull⟩ rfl
  · rw [made]
    refine .sends ?_ hasKeys ⟨_, _, rfl, by simp [encapsulates]⟩
    rintro ⟨other, isOther, overfull⟩
    rw [isOut] at isOther
    cases isOther
    exact fits overfull

/-- What a send comes to, state by state. -/
theorem send_outcome (braid : Braid) (draw : Draw) :
    SendOutcome braid draw (braid.send draw) := by
  have noOut :
      ∀ {braid : Braid}, braid.outgoing = none → ¬ braid.Overfull := by
    rintro braid isNone ⟨out, isOut, _⟩
    rw [isNone] at isOut
    cases isOut
  cases braid with
  | unsampled epoch auth =>
      cases generated : Kem.generate draw.seed with
      | none =>
          refine .lacksKeys (noOut rfl) generated ⟨.badData, ?_⟩
          rw [send, generated]
          rfl
      | some keys =>
          obtain ⟨spread, ⟨piece, after⟩, isSpread, made⟩ :=
            @Spread.of_outcome
              (keys.header.bytes ++ (auth.tagHeader epoch keys.header).bytes)
              (codable_of_length
                (by rw [List.length_append, keys.header.length_bytes,
                  Block.length_bytes])
                (by decide) (by decide))
          have hasKeys : ¬ (unsampled epoch auth).LacksKeys draw := by
            intro isNone
            rw [LacksKeys, generated] at isNone
            cases isNone
          refine .sends (noOut rfl) hasKeys ?_
          rw [send, generated, Outcome.ofOption_some, Outcome.ok_bind]
          simp only [isSpread, made, Outcome.ok_bind]
          exact ⟨_, _, rfl, by simp [Encapsulates]⟩
  | headerIn epoch auth header inEncap =>
      obtain ⟨spread, ⟨piece, after⟩, isSpread, made⟩ :=
        Spread.of_outcome
          (first_codable (Kem.firstHalf header draw.message))
      refine .sends (noOut rfl) id ?_
      simp only [send, Auth.advance_block _ _ _ (show 32 ≤ 64 by decide),
        Outcome.ok_bind, isSpread, made]
      exact ⟨_, _, rfl, by simp [Encapsulates]⟩
  | encapOutFirstIn | waiting | firstAcked =>
      exact .sends (noOut rfl) id ⟨_, _, rfl, by simp [Encapsulates]⟩
  | headerOut epoch auth decap outEncap inFirst =>
      exact @send_piece _ _ _ _ _
        (fun out => .headerOut epoch auth decap out inFirst) .encap rfl id
        id rfl
  | firstOut epoch auth header carry first outFirst inEncap =>
      exact @send_piece _ _ _ _ _
        (fun out => .firstOut epoch auth header carry first out inEncap)
        .first rfl id id rfl
  | sampled | firstIn | encapInFirstOut | secondOut =>
      exact send_piece rfl id id rfl

/-! ## Receiving -/

/-- A rebuilt encapsulation key is not the one its header is for. -/
def Mismatch
    (header : Block Kem.headerLength)
    (inEncap : Gather)
    (piece : Piece) :
    Prop :=
  ∃ whole encap,
    (inEncap.add piece).message = .ok (some whole) ∧
      part whole 0 Kem.encapLength = .ok encap ∧
        Kem.keyMatchesHeader encap header = false

/-- The piece completes the second message, which opens and checks. -/
def Completes (braid : Braid) (payload : Payload) : Prop :=
  match braid, payload with
  | .encapOutFirstIn epoch auth decap first inSecond, .second piece =>
      ∃ whole second tag shared,
        (inSecond.add piece).message = .ok (some whole) ∧
          part whole 0 Kem.secondLength = .ok second ∧
          part whole Kem.secondLength Auth.tagLength = .ok tag ∧
          Kem.openHalves decap first second = some shared ∧
          (auth.advanced epoch
              (epochSecret shared epoch).bytes).checkCapsule epoch
            (first.bytes ++ second.bytes) tag = true
  | _, _ => False

/-- The piece completes a message that does not check. -/
def Rejects (braid : Braid) (payload : Payload) : Prop :=
  match braid, payload with
  | .encapOutFirstIn epoch auth decap first inSecond, .second piece =>
      (∃ whole, (inSecond.add piece).message = .ok (some whole)) ∧
        ¬ Completes (.encapOutFirstIn epoch auth decap first inSecond)
          (.second piece)
  | .waiting epoch auth inHeader, .header piece =>
      ∃ whole header tag,
        (inHeader.add piece).message = .ok (some whole) ∧
          part whole 0 Kem.headerLength = .ok header ∧
          part whole Kem.headerLength Auth.tagLength = .ok tag ∧
          auth.checkHeader epoch header tag = false
  | .firstOut _ _ header _ _ _ inEncap, .encap piece
  | .firstOut _ _ header _ _ _ inEncap, .encapAndAck piece
  | .firstAcked _ _ header _ _ inEncap, .encap piece
  | .firstAcked _ _ header _ _ inEncap, .encapAndAck piece =>
      Mismatch header inEncap piece
  | _, _ => False

/-- What a receive of a packet of the braid's epoch comes to. -/
inductive ReceiveOutcome
    (braid : Braid)
    (payload : Payload)
    (result : Outcome RatchetError (Braid × Option EpochSecret)) :
    Prop where
  | rejects
      (is : braid.Rejects payload)
      (fails : ∃ fault, result = .error fault)
  | lastEpoch
      (accepts : ¬ braid.Rejects payload)
      (completes : braid.Completes payload)
      (last : 2 ^ 64 ≤ braid.epoch + 1)
      (traps : result = .trap)
  | completes
      (accepts : ¬ braid.Rejects payload)
      (completes : braid.Completes payload)
      (more : braid.epoch + 1 < 2 ^ 64)
      (returns :
        ∃ after secret, result = .ok (after, some secret) ∧
          secret.epoch = braid.epoch)
  | stays
      (accepts : ¬ braid.Rejects payload)
      (waits : ¬ braid.Completes payload)
      (returns : ∃ after, result = .ok (after, none))

omit [Hashes] [Kem] in
/-- A part of a rebuilt message that is long enough. -/
theorem part_eq_ok
    {whole : Bytes}
    {offset count : Nat}
    (inside : offset + count ≤ whole.length) :
    ∃ block, part whole offset count = .ok block := by
  have length : ((whole.drop offset).take count).length = count := by
    rw [List.length_take, List.length_drop]
    omega
  rw [part, Block.ofBytes, dif_pos length, Outcome.unwrap_some]
  exact ⟨_, rfl⟩

/-- The second message can be spread. -/
theorem secondSpread_eq_ok
    (auth : Auth)
    (epoch : Nat)
    (encap : Block Kem.encapLength)
    (carry : Block Kem.carryLength)
    (first : Block Kem.firstLength) :
    ∃ spread, secondSpread auth epoch encap carry first = .ok spread := by
  obtain ⟨spread, _, isSpread, _⟩ :=
    @Spread.of_outcome
      ((Kem.secondHalf encap carry).bytes ++
        (auth.tagCapsule epoch
          (first.bytes ++ (Kem.secondHalf encap carry).bytes)).bytes)
      (codable_of_length
        (by rw [List.length_append, Block.length_bytes,
          Block.length_bytes])
        (by decide) (by decide))
  exact ⟨spread, isSpread⟩

omit [Hashes] [Kem] in
/-- A gather of one of the messages is incomplete, or rebuilds it in full. -/
theorem rebuilt_outcome
    {gather : Gather}
    (piece : Piece)
    {length : Nat}
    (isLength : gather.needed = length / 2)
    (even : length % 2 = 0)
    (short : length / 2 ≤ 2 ^ 16 * polynomials) :
    (gather.add piece).message = .ok none ∨
      ∃ whole : Bytes, (gather.add piece).message = .ok (some whole) ∧
        whole.length = length := by
  have needed : (gather.add piece).needed = length / 2 := isLength
  rcases Gather.message_outcome (needed ▸ short) with
    missing | ⟨whole, rebuilt, wholeLength⟩
  · exact Or.inl missing
  · refine Or.inr ⟨whole, rebuilt, ?_⟩
    rw [wholeLength, needed]
    omega

/-- What a completed encapsulation key leads to. -/
private theorem encap_outcome
    {braid : Braid}
    {payload : Payload}
    {header : Block Kem.headerLength}
    {inEncap : Gather}
    {piece : Piece}
    (rejects : braid.Rejects payload ↔ Mismatch header inEncap piece)
    (waits : ¬ braid.Completes payload)
    (length : inEncap.needed = Kem.encapLength / 2)
    {incomplete : Outcome RatchetError (Braid × Option EpochSecret)}
    {complete :
      Block Kem.encapLength →
        Outcome RatchetError (Braid × Option EpochSecret)}
    (incompleteReturns : ∃ after, incomplete = .ok (after, none))
    (completeReturns : ∀ encap, ∃ after, complete encap = .ok (after, none))
    {result : Outcome RatchetError (Braid × Option EpochSecret)}
    (isResult :
      result = (do
        match ← (inEncap.add piece).message with
        | none => incomplete
        | some whole => do
            let encap ← part whole 0 Kem.encapLength
            Outcome.require .badData
              (Kem.keyMatchesHeader encap header = true)
            complete encap)) :
    ReceiveOutcome braid payload result := by
  subst isResult
  rcases rebuilt_outcome piece length (by decide) (by decide) with
    missing | ⟨whole, rebuilt, wholeLength⟩
  · rw [missing]
    refine .stays ?_ waits incompleteReturns
    rw [rejects]
    rintro ⟨whole, encap, isWhole, _⟩
    rw [missing] at isWhole
    cases isWhole
  · have enough : 0 + Kem.encapLength ≤ whole.length :=
      Nat.le_of_eq ((Nat.zero_add _).trans wholeLength.symm)
    obtain ⟨encap, isEncap⟩ := part_eq_ok enough
    simp only [rebuilt, Outcome.ok_bind, isEncap]
    cases isMatch : Kem.keyMatchesHeader encap header with
    | false =>
        refine .rejects
          (rejects.mpr ⟨whole, encap, rebuilt, isEncap, isMatch⟩) ?_
        exact ⟨.badData, rfl⟩
    | true =>
        rw [Outcome.require_of rfl, Outcome.ok_bind]
        refine .stays ?_ waits (completeReturns encap)
        rw [rejects]
        rintro ⟨other, otherEncap, isOther, isOtherEncap, mismatch⟩
        rw [rebuilt] at isOther
        cases isOther
        rw [isEncap] at isOtherEncap
        cases isOtherEncap
        rw [isMatch] at mismatch
        cases mismatch

omit [Hashes] [Kem] in
theorem forLength_eq_ok
    {length : Nat}
    (even : length % 2 = 0) :
    ∃ gather, Gather.forLength length = .ok gather := by
  rw [Gather.forLength, if_neg (not_not.mpr even)]
  exact ⟨_, rfl⟩

/-- The last piece of the second message ends the exchange, if it checks. -/
private theorem second_outcome
    {epoch : Nat}
    {auth : Auth}
    {decap : Block Kem.decapLength}
    {first : Block Kem.firstLength}
    {inSecond : Gather}
    (gathers : inSecond.needed = secondMessage / 2)
    (piece : Piece) :
    ReceiveOutcome (.encapOutFirstIn epoch auth decap first inSecond)
      (.second piece)
      (receiveCurrent (.encapOutFirstIn epoch auth decap first inSecond)
        (.second piece)) := by
  rcases rebuilt_outcome piece gathers (by decide) (by decide) with
    missing | ⟨whole, rebuilt, length⟩
  · have notWhole :
        ¬ ∃ whole, (inSecond.add piece).message = .ok (some whole) := by
      rintro ⟨whole, isWhole⟩
      rw [missing] at isWhole
      cases isWhole
    refine .stays (fun rejects => notWhole rejects.1) ?_ ?_
    · rintro ⟨whole, _, _, _, isWhole, _⟩
      exact notWhole ⟨whole, isWhole⟩
    · simp only [receiveCurrent, missing, Outcome.ok_bind]
      exact ⟨_, rfl⟩
  · obtain ⟨second, isSecond⟩ :=
      @part_eq_ok whole 0 Kem.secondLength (by rw [length]; decide)
    obtain ⟨tag, isTag⟩ :=
      @part_eq_ok whole Kem.secondLength Auth.tagLength
        (by rw [length]; decide)
    have completesIff :
        Completes (.encapOutFirstIn epoch auth decap first inSecond)
            (.second piece) ↔
          ∃ shared, Kem.openHalves decap first second = some shared ∧
            (auth.advanced epoch
                (epochSecret shared epoch).bytes).checkCapsule epoch
              (first.bytes ++ second.bytes) tag = true := by
      constructor
      · rintro ⟨other, otherSecond, otherTag, shared, isWhole,
          isOtherSecond, isOtherTag, opens, checks⟩
        rw [rebuilt] at isWhole
        cases isWhole
        rw [isSecond] at isOtherSecond
        cases isOtherSecond
        rw [isTag] at isOtherTag
        cases isOtherTag
        exact ⟨shared, opens, checks⟩
      · rintro ⟨shared, opens, checks⟩
        exact ⟨whole, second, tag, shared, rebuilt, isSecond, isTag,
          opens, checks⟩
    obtain ⟨inHeader, fresh⟩ :=
      @forLength_eq_ok headerMessage (by decide)
    simp only [receiveCurrent, rebuilt, Outcome.ok_bind, isSecond, isTag]
    cases opened : Kem.openHalves decap first second with
    | none =>
        refine .rejects ⟨⟨whole, rebuilt⟩, ?_⟩ ⟨.badData, rfl⟩
        rw [completesIff, opened]
        rintro ⟨shared, opens, _⟩
        cases opens
    | some shared =>
        simp only [Outcome.ofOption_some, Outcome.ok_bind,
          Auth.advance_block _ _ _ (show 32 ≤ 64 by decide)]
        by_cases checks :
            (auth.advanced epoch
                (epochSecret shared epoch).bytes).checkCapsule epoch
              (first.bytes ++ second.bytes) tag = true
        · have completes := completesIff.mpr ⟨shared, opened, checks⟩
          have accepts :
              ¬ Rejects (.encapOutFirstIn epoch auth decap first inSecond)
                (.second piece) :=
            fun rejects => rejects.2 completes
          rw [Outcome.require_of checks, Outcome.ok_bind, fresh,
            Outcome.ok_bind]
          by_cases more : epoch + 1 < 2 ^ 64
          · rw [Outcome.add_of_lt more]
            exact .completes accepts completes more ⟨_, _, rfl, rfl⟩
          · refine .lastEpoch accepts completes (Nat.not_lt.mp more) ?_
            exact Outcome.bind_eq_trap.mpr
              (Or.inl (Outcome.add_eq_trap.mpr (Nat.not_lt.mp more)))
        · refine .rejects ⟨⟨whole, rebuilt⟩, ?_⟩ ⟨.badTag, ?_⟩
          · rw [completesIff]
            rintro ⟨other, opens, otherChecks⟩
            rw [opened] at opens
            cases opens
            exact checks otherChecks
          · rw [Outcome.require_not checks]
            rfl

/-- The last piece of the header begins the answer, if it checks. -/
private theorem header_outcome
    {epoch : Nat}
    {auth : Auth}
    {inHeader : Gather}
    (gathers : inHeader.needed = headerMessage / 2)
    (piece : Piece) :
    ReceiveOutcome (.waiting epoch auth inHeader) (.header piece)
      (receiveCurrent (.waiting epoch auth inHeader)
        (.header piece)) := by
  rcases rebuilt_outcome piece gathers (by decide) (by decide) with
    missing | ⟨whole, rebuilt, length⟩
  · refine .stays ?_ id ?_
    · rintro ⟨whole, _, _, isWhole, _⟩
      rw [missing] at isWhole
      cases isWhole
    · simp only [receiveCurrent, missing, Outcome.ok_bind]
      exact ⟨_, rfl⟩
  · obtain ⟨header, isHeader⟩ :=
      @part_eq_ok whole 0 Kem.headerLength (by rw [length]; decide)
    obtain ⟨tag, isTag⟩ :=
      @part_eq_ok whole Kem.headerLength Auth.tagLength
        (by rw [length]; decide)
    obtain ⟨inEncap, fresh⟩ :=
      @forLength_eq_ok Kem.encapLength (by decide)
    simp only [receiveCurrent, rebuilt, Outcome.ok_bind, isHeader, isTag]
    cases checks : auth.checkHeader epoch header tag with
    | false =>
        exact .rejects
          ⟨whole, header, tag, rebuilt, isHeader, isTag, checks⟩
          ⟨.badTag, rfl⟩
    | true =>
        rw [Outcome.require_of rfl, Outcome.ok_bind, fresh,
          Outcome.ok_bind]
        refine .stays ?_ id ⟨_, rfl⟩
        rintro ⟨other, otherHeader, otherTag, isWhole, isOtherHeader,
          isOtherTag, fails⟩
        rw [rebuilt] at isWhole
        cases isWhole
        rw [isHeader] at isOtherHeader
        cases isOtherHeader
        rw [isTag] at isOtherTag
        cases isOtherTag
        rw [checks] at fails
        cases fails

/-- The first message has no check of its own. -/
private theorem first_outcome
    {epoch : Nat}
    {auth : Auth}
    {decap : Block Kem.decapLength}
    {outEncap : Spread}
    {inFirst : Gather}
    (gathers : inFirst.needed = Kem.firstLength / 2)
    (piece : Piece) :
    ReceiveOutcome (.headerOut epoch auth decap outEncap inFirst)
      (.first piece)
      (receiveCurrent (.headerOut epoch auth decap outEncap inFirst)
        (.first piece)) := by
  refine .stays id id ?_
  rcases rebuilt_outcome piece gathers (by decide) (by decide) with
    missing | ⟨whole, rebuilt, length⟩
  · simp only [receiveCurrent, missing, Outcome.ok_bind]
    exact ⟨_, rfl⟩
  · obtain ⟨first, isFirst⟩ :=
      @part_eq_ok whole 0 Kem.firstLength (by rw [length]; decide)
    simp only [receiveCurrent, rebuilt, Outcome.ok_bind, isFirst]
    exact ⟨_, rfl⟩

/-- The second message is spread once the key is known. -/
private theorem answer_returns
    (auth : Auth)
    (epoch : Nat)
    (encap : Block Kem.encapLength)
    (carry : Block Kem.carryLength)
    (first : Block Kem.firstLength) :
    ∃ after,
      (do
        let outSecond ← secondSpread auth epoch encap carry first
        return (Braid.secondOut epoch auth outSecond,
          (none : Option EpochSecret))) = .ok (after, none) := by
  obtain ⟨spread, isSpread⟩ :=
    secondSpread_eq_ok auth epoch encap carry first
  rw [isSpread]
  exact ⟨_, rfl⟩

/-- What a payload comes to, state by state. -/
theorem receiveCurrent_outcome
    {braid : Braid}
    (gathers : braid.Gathers)
    (payload : Payload) :
    ReceiveOutcome braid payload (braid.receiveCurrent payload) := by
  cases braid with
  | unsampled | secondOut | headerIn =>
      exact .stays (by cases payload <;> exact id)
        (by cases payload <;> exact id)
        (by cases payload <;> exact ⟨_, rfl⟩)
  | sampled epoch auth encap decap outHeader =>
      cases payload with
      | first piece =>
          obtain ⟨inFirst, fresh⟩ :=
            @forLength_eq_ok Kem.firstLength (by decide)
          obtain ⟨outEncap, _, isSpread, _⟩ :=
            Spread.of_outcome
              (codable_of_length encap.length_bytes (by decide)
                (by decide))
          refine .stays id id ?_
          simp only [receiveCurrent, fresh, Outcome.ok_bind, isSpread]
          exact ⟨_, rfl⟩
      | _ => exact .stays id id ⟨_, rfl⟩
  | headerOut epoch auth decap outEncap inFirst =>
      cases payload with
      | first piece => exact first_outcome gathers piece
      | _ => exact .stays id id ⟨_, rfl⟩
  | firstIn epoch auth decap first outEncap =>
      cases payload with
      | second piece =>
          obtain ⟨inSecond, fresh⟩ :=
            @forLength_eq_ok secondMessage (by decide)
          refine .stays id id ?_
          simp only [receiveCurrent, fresh, Outcome.ok_bind]
          exact ⟨_, rfl⟩
      | _ => exact .stays id id ⟨_, rfl⟩
  | encapOutFirstIn epoch auth decap first inSecond =>
      cases payload with
      | second piece => exact second_outcome gathers piece
      | _ => exact .stays id id ⟨_, rfl⟩
  | waiting epoch auth inHeader =>
      cases payload with
      | header piece => exact header_outcome gathers piece
      | _ => exact .stays id id ⟨_, rfl⟩
  | firstOut epoch auth header carry first outFirst inEncap =>
      cases payload with
      | encap piece =>
          exact encap_outcome Iff.rfl id gathers ⟨_, rfl⟩
            (fun _ => ⟨_, rfl⟩) rfl
      | encapAndAck piece =>
          exact encap_outcome Iff.rfl id gathers ⟨_, rfl⟩
            (answer_returns auth epoch · carry first) rfl
      | _ => exact .stays id id ⟨_, rfl⟩
  | encapInFirstOut epoch auth carry encap first outFirst =>
      cases payload with
      | encapAndAck piece =>
          exact .stays id id (answer_returns auth epoch encap carry first)
      | ack value =>
          refine .stays id id ?_
          cases value with
          | false => exact ⟨_, rfl⟩
          | true => exact answer_returns auth epoch encap carry first
      | _ => exact .stays id id ⟨_, rfl⟩
  | firstAcked epoch auth header carry first inEncap =>
      cases payload with
      | encap piece | encapAndAck piece =>
          exact encap_outcome Iff.rfl id gathers ⟨_, rfl⟩
            (answer_returns auth epoch · carry first) rfl
      | _ => exact .stays id id ⟨_, rfl⟩

/-- A packet from ahead that is not the one a finished exchange waits for. -/
def TooFarAhead (braid : Braid) (packet : Packet) : Prop :=
  braid.epoch < packet.epoch ∧
    match braid with
    | .secondOut epoch _ _ => packet.epoch ≠ epoch + 1
    | _ => True

/-- The packet is refused. -/
def Refuses (braid : Braid) (packet : Packet) : Prop :=
  braid.TooFarAhead packet ∨
    (packet.epoch = braid.epoch ∧ braid.Rejects packet.payload)

/-- The packet ends the exchange of the braid's epoch. -/
def Ends (braid : Braid) (packet : Packet) : Prop :=
  packet.epoch = braid.epoch ∧ braid.Completes packet.payload

/-- A packet from ahead is refused, or begins the next exchange. -/
private theorem receive_ahead
    {braid : Braid}
    {packet : Packet}
    (ahead : braid.epoch < packet.epoch) :
    (braid.TooFarAhead packet ∧
        ∃ fault, braid.receive packet = .error fault) ∨
      (¬ braid.TooFarAhead packet ∧
        ∃ after, braid.receive packet = .ok (after, none)) := by
  unfold receive
  rw [if_pos ahead]
  cases braid with
  | secondOut epoch auth outSecond =>
      by_cases follows : packet.epoch = epoch + 1
      · refine Or.inr ⟨fun ⟨_, other⟩ => other follows, ?_⟩
        simp only [if_pos follows]
        exact ⟨_, rfl⟩
      · refine Or.inl ⟨⟨ahead, follows⟩, ?_⟩
        simp only [if_neg follows]
        exact ⟨_, rfl⟩
  | _ => exact Or.inl ⟨⟨ahead, trivial⟩, ⟨_, rfl⟩⟩

/-- What a receive of any packet comes to. -/
inductive PacketOutcome
    (braid : Braid)
    (packet : Packet)
    (result : Outcome RatchetError (Braid × Option EpochSecret)) :
    Prop where
  | refuses
      (is : braid.Refuses packet)
      (fails : ∃ fault, result = .error fault)
  | lastEpoch
      (accepts : ¬ braid.Refuses packet)
      (ends : braid.Ends packet)
      (last : 2 ^ 64 ≤ braid.epoch + 1)
      (traps : result = .trap)
  | ends
      (accepts : ¬ braid.Refuses packet)
      (ends : braid.Ends packet)
      (more : braid.epoch + 1 < 2 ^ 64)
      (returns :
        ∃ after secret, result = .ok (after, some secret) ∧
          secret.epoch = braid.epoch)
  | goesOn
      (accepts : ¬ braid.Refuses packet)
      (more : ¬ braid.Ends packet)
      (returns : ∃ after, result = .ok (after, none))

/-- What a packet comes to, state by state. -/
theorem receive_outcome
    {braid : Braid}
    (gathers : braid.Gathers)
    (packet : Packet) :
    PacketOutcome braid packet (braid.receive packet) := by
  rcases Nat.lt_trichotomy packet.epoch braid.epoch with
    older | same | ahead
  · rw [receive_older older]
    refine .goesOn ?_ (fun ends => absurd ends.1 (Nat.ne_of_lt older))
      ⟨_, rfl⟩
    rintro (⟨ahead, _⟩ | ⟨isSame, _⟩)
    · exact Nat.lt_asymm older ahead
    · exact Nat.ne_of_lt older isSame
  · have refuses : braid.Refuses packet ↔ braid.Rejects packet.payload := by
      constructor
      · rintro (⟨ahead, _⟩ | ⟨_, rejects⟩)
        · exact absurd same.symm (Nat.ne_of_lt ahead)
        · exact rejects
      · exact fun rejects => Or.inr ⟨same, rejects⟩
    rw [receive_same same]
    cases receiveCurrent_outcome gathers packet.payload with
    | rejects is fails => exact .refuses (refuses.mpr is) fails
    | lastEpoch accepts completes last traps =>
        exact .lastEpoch (fun is => accepts (refuses.mp is))
          ⟨same, completes⟩ last traps
    | completes accepts completes more returns =>
        exact .ends (fun is => accepts (refuses.mp is))
          ⟨same, completes⟩ more returns
    | stays accepts waits returns =>
        exact .goesOn (fun is => accepts (refuses.mp is))
          (fun ends => waits ends.2) returns
  · have notSame : packet.epoch ≠ braid.epoch := Nat.ne_of_gt ahead
    rcases receive_ahead ahead with ⟨far, fails⟩ | ⟨near, returns⟩
    · exact .refuses (Or.inl far) fails
    · refine .goesOn ?_ (fun ends => notSame ends.1) returns
      rintro (far | ⟨same, _⟩)
      · exact near far
      · exact notSame same

/-- What a state refuses is an error. -/
theorem refuses_fails
    {braid : Braid}
    (gathers : braid.Gathers)
    {packet : Packet}
    (refuses : braid.Refuses packet) :
    ∃ fault, braid.receive packet = .error fault := by
  cases receive_outcome gathers packet with
  | refuses _ fails => exact fails
  | lastEpoch accepts => exact absurd refuses accepts
  | ends accepts => exact absurd refuses accepts
  | goesOn accepts => exact absurd refuses accepts

end Braid

end Gossveil
