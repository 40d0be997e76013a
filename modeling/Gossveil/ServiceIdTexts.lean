import Gossveil.Bridge

namespace Gossveil.Api

open Abi Ratchet

/-!
# The text of a service id on both sides

The web client drops the hyphens of an identifier wherever they stand.  The
core, which gets the same text in UTF-8, wants them at their four places.
-/

/-- A string of the client, in its code units. -/
abbrev Text :=
  List UInt16

/-- The code units of an ASCII label. -/
def ascii (label : String) : Text :=
  label.toList.map fun char => UInt16.ofNat char.toNat

/-! ## What the core is passed -/

/-- The first unit of a surrogate pair. -/
def isHigh (unit : UInt16) : Bool :=
  0xd800 ≤ unit.toNat && unit.toNat < 0xdc00

/-- The second unit of a surrogate pair. -/
def isLow (unit : UInt16) : Bool :=
  0xdc00 ≤ unit.toNat && unit.toNat < 0xe000

/-- A unit by itself; half a pair becomes the replacement character. -/
def encodeUnit (unit : UInt16) : Bytes :=
  let code := unit.toNat
  if code < 0x80 then
    [UInt8.ofNat code]
  else if code < 0x800 then
    [UInt8.ofNat (0xc0 + code / 64), UInt8.ofNat (0x80 + code % 64)]
  else if isHigh unit || isLow unit then
    [0xef, 0xbf, 0xbd]
  else
    [UInt8.ofNat (0xe0 + code / 4096), UInt8.ofNat (0x80 + code / 64 % 64),
      UInt8.ofNat (0x80 + code % 64)]

/-- The four bytes of a surrogate pair. -/
def encodePair (high low : UInt16) : Bytes :=
  let code :=
    0x10000 + (high.toNat - 0xd800) * 0x400 + (low.toNat - 0xdc00)
  [UInt8.ofNat (0xf0 + code / 262144), UInt8.ofNat (0x80 + code / 4096 % 64),
    UInt8.ofNat (0x80 + code / 64 % 64), UInt8.ofNat (0x80 + code % 64)]

/-- `textEncoder.encode(s)` -/
def encode : Text → Bytes
  | [] => []
  | [unit] => encodeUnit unit
  | unit :: next :: rest =>
      if isHigh unit && isLow next then
        encodePair unit next ++ encode rest
      else
        encodeUnit unit ++ encode (next :: rest)

/-! ## The client's parser -/

/-- What the client throws. -/
structure Thrown where
  status : Status
  message : Text
  deriving DecidableEq

/-- `[0-9a-fA-F]` -/
def isHexUnit (unit : UInt16) : Bool :=
  (48 ≤ unit.toNat && unit.toNat ≤ 57) ||
    (97 ≤ unit.toNat && unit.toNat ≤ 102) ||
      (65 ≤ unit.toNat && unit.toNat ≤ 70)

/-- The value of a hexadecimal digit. -/
def hexValue (unit : UInt16) : Nat :=
  if unit.toNat ≤ 57 then unit.toNat - 48
  else if unit.toNat ≤ 70 then unit.toNat - 55
  else unit.toNat - 87

/-- `parseInt(digits, 16)`, of hexadecimal digits. -/
def parseInt (digits : Text) : Nat :=
  digits.foldl (fun number unit => number * 16 + hexValue unit) 0

/-- Every hyphen is replaced by nothing. -/
def withoutHyphens (s : Text) : Text :=
  s.filter (· ≠ 45)

/-- Thirty-two hexadecimal digits from end to end. -/
def IsHex (hex : Text) : Prop :=
  hex.length = 32 ∧ ∀ unit ∈ hex, isHexUnit unit = true

instance (hex : Text) : Decidable (IsHex hex) :=
  decidable_of_iff (hex.length = 32 ∧ hex.all isHexUnit = true)
    (and_congr_right fun _ => List.all_eq_true)

/-- The bytes of an id; hyphens are taken out wherever they stand. -/
def uuidToBytes (s : Text) : Outcome Thrown (Block 16) :=
  let hex := withoutHyphens s
  if IsHex hex then
    .ok ⟨(List.range 16).map fun i =>
      UInt8.ofNat (parseInt ((hex.drop (i * 2)).take 2)), by simp⟩
  else
    .error ⟨.badArgument, ascii "not a uuid: " ++ s⟩

/-- Reads a service id as the client does. -/
def parseFromServiceIdString (s : Text) : Outcome Thrown ServiceId :=
  if (ascii "PNI:").isPrefixOf s then do
    let raw ← uuidToBytes (s.drop 4)
    return ⟨.pni, ⟨raw⟩⟩
  else do
    let raw ← uuidToBytes s
    return ⟨.aci, ⟨raw⟩⟩

/-! ## Plain ASCII -/

/-- Every unit is below 128. -/
def Plain (s : Text) : Prop :=
  ∀ unit ∈ s, unit.toNat < 128

/-- A text of single bytes. -/
def narrow (s : Text) : Bytes :=
  s.map fun unit => UInt8.ofNat unit.toNat

/-- A plain text is encoded unit by unit. -/
theorem encode_plain
    {s : Text}
    (plain : Plain s) :
    encode s = narrow s := by
  fun_induction encode s with
  | case1 => rfl
  | case2 unit =>
      have small := plain unit (List.mem_singleton_self unit)
      simp [encodeUnit, narrow, small]
  | case3 unit next rest pair inductionHypothesis =>
      have small := plain unit List.mem_cons_self
      simp only [isHigh, Bool.and_eq_true, decide_eq_true_eq] at pair
      omega
  | case4 unit next rest pair inductionHypothesis =>
      have small := plain unit List.mem_cons_self
      rw [inductionHypothesis fun other member =>
        plain other (List.mem_cons_of_mem _ member)]
      simp [encodeUnit, narrow, small]

/-- Outside of ASCII every byte has its top bit. -/
theorem encodeUnit_wide
    {unit : UInt16}
    (wide : 128 ≤ unit.toNat) :
    ∃ byte ∈ encodeUnit unit, 128 ≤ byte.toNat := by
  have bound := unit.toNat_lt
  rw [encodeUnit, if_neg (Nat.not_lt.mpr wide)]
  split_ifs with two half
  · exact ⟨_, List.mem_cons_self, by rw [UInt8.toNat_ofNat']; omega⟩
  · exact ⟨_, List.mem_cons_self, by decide⟩
  · exact ⟨_, List.mem_cons_self, by rw [UInt8.toNat_ofNat']; omega⟩

/-- A text whose encoding is ASCII is plain. -/
theorem plain_of_encode
    {s : Text}
    (plain : ∀ byte ∈ encode s, byte.toNat < 128) :
    Plain s := by
  have single :
      ∀ unit : UInt16, (∀ byte ∈ encodeUnit unit, byte.toNat < 128) →
        unit.toNat < 128 := by
    intro unit all
    by_contra wide
    obtain ⟨byte, member, top⟩ := encodeUnit_wide (Nat.not_lt.mp wide)
    exact absurd (all byte member) (Nat.not_lt.mpr top)
  fun_induction encode s with
  | case1 => exact List.forall_mem_nil _
  | case2 unit =>
      intro other member
      rw [List.mem_singleton.mp member]
      exact single unit plain
  | case3 unit next rest pair inductionHypothesis =>
      have first := plain _ (List.mem_append_left _ List.mem_cons_self)
      simp only [isHigh, isLow, Bool.and_eq_true, decide_eq_true_eq] at pair
      rw [UInt8.toNat_ofNat'] at first
      omega
  | case4 unit next rest pair inductionHypothesis =>
      have front := single unit fun byte member =>
        plain byte (List.mem_append_left _ member)
      have back := inductionHypothesis fun byte member =>
        plain byte (List.mem_append_right _ member)
      intro other member
      rcases List.mem_cons.mp member with rfl | later
      · exact front
      · exact back other later

/-! ## The parsers on plain text -/

/-- A digit has the same value for both. -/
theorem hexDigit_narrow
    {unit : UInt16}
    (plain : unit.toNat < 128) :
    Uuid.hexDigit (UInt8.ofNat unit.toNat) =
      if isHexUnit unit then some (hexValue unit) else none := by
  have byte : (UInt8.ofNat unit.toNat).toNat = unit.toNat := by
    rw [UInt8.toNat_ofNat']
    omega
  simp only [Uuid.hexDigit, byte, isHexUnit, hexValue, Bool.or_eq_true,
    Bool.and_eq_true, decide_eq_true_eq]
  split_ifs
  all_goals first | rfl | omega

/-- Two digits at a time, as both read them. -/
theorem hexBytes_narrow
    {hex : Text}
    {count : Nat}
    (plain : Plain hex)
    (length : hex.length = count * 2) :
    Uuid.hexBytes (narrow hex) =
      if hex.all isHexUnit then
        some ((List.range count).map fun i =>
          UInt8.ofNat (parseInt ((hex.drop (i * 2)).take 2)))
      else
        none := by
  induction count generalizing hex with
  | zero =>
      rw [List.length_eq_zero_iff.mp (length.trans (Nat.zero_mul 2))]
      rfl
  | succ count inductionHypothesis =>
      match hex with
      | [] | [_] =>
          simp only [List.length_nil, List.length_singleton] at length
          omega
      | high :: low :: rest =>
          have highPlain := plain high List.mem_cons_self
          have lowPlain :=
            plain low (List.mem_cons_of_mem _ List.mem_cons_self)
          have restPlain : Plain rest := fun unit member =>
            plain unit
              (List.mem_cons_of_mem _ (List.mem_cons_of_mem _ member))
          have restLength : rest.length = count * 2 := by
            simp only [List.length_cons] at length
            omega
          have others := inductionHypothesis restPlain restLength
          rw [narrow] at others
          have shifted :
              ∀ i, (high :: low :: rest).drop ((i + 1) * 2) =
                rest.drop (i * 2) := by
            intro i
            rw [Nat.add_mul, Nat.one_mul]
            rfl
          simp only [narrow, List.map_cons, Uuid.hexBytes,
            hexDigit_narrow highPlain, hexDigit_narrow lowPlain, others,
            List.all_cons, List.range_succ_eq_map, List.map_map,
            Function.comp_def, Nat.succ_eq_add_one, shifted]
          cases isHexUnit high with
          | false => rfl
          | true =>
              cases isHexUnit low with
              | false => rfl
              | true =>
                  cases rest.all isHexUnit with
                  | false => rfl
                  | true => simp [parseInt]

/-- What stands between the four hyphens. -/
def cut {α : Type} (s : List α) : List α :=
  s.take 8 ++ (s.drop 9).take 4 ++ (s.drop 14).take 4 ++
    (s.drop 19).take 4 ++ s.drop 24

section Hyphens

variable {α : Type} [DecidableEq α] {hyphen fallback : α}

/-- One hyphen can be left out before the others are removed. -/
theorem filter_skip
    (distinct : fallback ≠ hyphen)
    {s : List α}
    {index : Nat}
    (place : s.getD index fallback = hyphen) :
    s.filter (· ≠ hyphen) =
      (s.take index).filter (· ≠ hyphen) ++
        (s.drop (index + 1)).filter (· ≠ hyphen) := by
  have inside : index < s.length := by
    by_contra outside
    rw [List.getD_eq_default _ _ (Nat.not_lt.mp outside)] at place
    exact distinct place
  have found : s[index] = hyphen := by
    rw [← List.getD_eq_getElem s fallback inside, place]
  conv_lhs =>
    rw [← List.take_append_drop index s, List.drop_eq_getElem_cons inside,
      found]
  rw [List.filter_append, List.filter_cons_of_neg (by simp)]

/-- Dropping the hyphens is cutting at their places, when they stand there. -/
theorem filter_cut
    (distinct : fallback ≠ hyphen)
    {s : List α}
    (places : ∀ index ∈ Uuid.hyphens, s.getD index fallback = hyphen) :
    s.filter (· ≠ hyphen) = (cut s).filter (· ≠ hyphen) := by
  have dropped :
      ∀ count index, (s.drop count).getD index fallback =
        s.getD (count + index) fallback := by
    intro count index
    rw [List.getD_eq_getElem?_getD, List.getElem?_drop,
      List.getD_eq_getElem?_getD]
  have first := places 8 (by decide)
  have second : (s.drop 9).getD 4 fallback = hyphen := by
    rw [dropped]
    exact places 13 (by decide)
  have third : (s.drop 14).getD 4 fallback = hyphen := by
    rw [dropped]
    exact places 18 (by decide)
  have fourth : (s.drop 19).getD 4 fallback = hyphen := by
    rw [dropped]
    exact places 23 (by decide)
  rw [filter_skip distinct first, filter_skip distinct second,
    List.drop_drop, filter_skip distinct third, List.drop_drop,
    filter_skip distinct fourth, List.drop_drop, cut]
  simp only [List.filter_append, List.append_assoc]

end Hyphens

/-- The hyphens of a text of thirty-six units stand at their places. -/
def Canonical (s : Text) : Prop :=
  s.length = Uuid.textLength ∧ ∀ index ∈ Uuid.hyphens, s.getD index 0 = 45

instance (s : Text) : Decidable (Canonical s) :=
  inferInstanceAs (Decidable (_ ∧ _))

/-- A cut text has the thirty-two digits. -/
theorem length_cut
    {α : Type}
    {s : List α}
    (length : s.length = Uuid.textLength) :
    (cut s).length = 32 := by
  rw [Uuid.textLength] at length
  simp only [cut, List.length_append, List.length_take, List.length_drop]
  omega

/-- A hex digit is ASCII and no hyphen. -/
theorem isHexUnit_ne_hyphen
    {unit : UInt16}
    (digit : isHexUnit unit = true) :
    unit.toNat < 128 ∧ unit ≠ 45 := by
  simp only [isHexUnit, Bool.or_eq_true, Bool.and_eq_true,
    decide_eq_true_eq] at digit
  refine ⟨by omega, ?_⟩
  rintro rfl
  revert digit
  decide

/-- With the hyphens at their places both see the same digits. -/
theorem withoutHyphens_of_canonical
    {s : Text}
    (canonical : Canonical s) :
    (IsHex (withoutHyphens s) ↔ ∀ unit ∈ cut s, isHexUnit unit = true) ∧
      (IsHex (withoutHyphens s) → withoutHyphens s = cut s) := by
  have same : withoutHyphens s = (cut s).filter (· ≠ 45) :=
    filter_cut (by decide) canonical.2
  have length := length_cut canonical.1
  have whole : IsHex (withoutHyphens s) → withoutHyphens s = cut s := by
    intro hex
    rw [same] at hex ⊢
    exact List.filter_sublist.eq_of_length (hex.1.trans length.symm)
  refine ⟨⟨fun hex => whole hex ▸ hex.2, fun digits => ?_⟩, whole⟩
  have kept : (cut s).filter (· ≠ 45) = cut s :=
    List.filter_eq_self.mpr fun unit member => by
      simpa using (isHexUnit_ne_hyphen (digits unit member)).2
  rw [same, kept]
  exact ⟨length, digits⟩

theorem narrow_getD
    {s : Text}
    (plain : Plain s)
    (index : Nat) :
    (narrow s).getD index 0 = 45 ↔ s.getD index 0 = 45 := by
  simp only [narrow, List.getD_eq_getElem?_getD, List.getElem?_map]
  cases found : s[index]? with
  | none => decide
  | some unit =>
      have small := plain unit (List.mem_of_getElem? found)
      simp only [Option.map_some, Option.getD_some, ← UInt8.toNat_inj,
        ← UInt16.toNat_inj, UInt8.toNat_ofNat']
      rw [Nat.mod_eq_of_lt (Nat.lt_trans small (by decide))]
      rfl

/-- The core's parser accepts exactly the right length, places and digits. -/
theorem uuid_parse_eq_ok
    {source : Bytes}
    {uuid : Uuid} :
    Uuid.parse source = .ok uuid ↔
      (source.length = Uuid.textLength ∧
          ∀ index ∈ Uuid.hyphens, source.getD index 0 = 45) ∧
        Uuid.hexBytes (Uuid.digits source) = some uuid.bytes.bytes := by
  rw [Uuid.parse]
  by_cases length : source.length = Uuid.textLength
  · rw [if_neg (not_not.mpr length)]
    by_cases places :
        ∀ index ∈ Uuid.hyphens, source.getD index 0 = 45
    · rw [if_neg (not_not.mpr places)]
      constructor
      · intro parsed
        obtain ⟨bytes, read, made⟩ := Outcome.bind_eq_ok.mp parsed
        cases made
        obtain ⟨raw, isRaw, fits⟩ :=
          Option.bind_eq_some_iff.mp (Outcome.ofOption_eq_ok.mp read)
        rw [Block.ofBytes_eq_some.mp fits]
        exact ⟨⟨length, places⟩, isRaw⟩
      · intro read
        rw [read.2, Option.bind_some, Block.ofBytes_bytes]
        rfl
    · rw [if_pos places]
      exact ⟨nofun, fun read => absurd read.1.2 places⟩
  · rw [if_pos length]
    exact ⟨nofun, fun read => absurd read.1.1 length⟩

/-- The core's parser on plain text. -/
theorem uuid_parse_narrow
    {s : Text}
    (plain : Plain s)
    (raw : Block 16) :
    Uuid.parse (narrow s) = .ok ⟨raw⟩ ↔
      Canonical s ∧ uuidToBytes s = .ok raw := by
  have shape :
      ((narrow s).length = Uuid.textLength ∧
          ∀ index ∈ Uuid.hyphens, (narrow s).getD index 0 = 45) ↔
        Canonical s := by
    rw [narrow, List.length_map, ← narrow, Canonical]
    exact and_congr_right fun _ =>
      forall₂_congr fun index _ => narrow_getD plain index
  rw [uuid_parse_eq_ok, shape]
  refine and_congr_right fun canonical => ?_
  have cutPlain : Plain (cut s) := by
    intro unit member
    have inside : unit ∈ s := by
      simp only [cut, List.mem_append] at member
      rcases member with (((first | second) | third) | fourth) | fifth
      · exact List.mem_of_mem_take first
      · exact List.mem_of_mem_drop (List.mem_of_mem_take second)
      · exact List.mem_of_mem_drop (List.mem_of_mem_take third)
      · exact List.mem_of_mem_drop (List.mem_of_mem_take fourth)
      · exact List.mem_of_mem_drop fifth
    exact plain unit inside
  have digits : Uuid.digits (narrow s) = narrow (cut s) := by
    simp only [Uuid.digits, cut, narrow, List.map_append, List.map_take,
      List.map_drop]
  have sixteen : (cut s).length = 16 * 2 := length_cut canonical.1
  have read := hexBytes_narrow cutPlain sixteen
  obtain ⟨hexIff, same⟩ := withoutHyphens_of_canonical canonical
  rw [← List.all_eq_true] at hexIff
  rw [digits, read, uuidToBytes]
  by_cases hex : IsHex (withoutHyphens s)
  · rw [if_pos hex, if_pos (hexIff.mp hex), Option.some.injEq,
      Outcome.ok.injEq, Block.ext_iff, same hex]
  · rw [if_neg hex, if_neg fun digits => hex (hexIff.mpr digits)]
    exact ⟨nofun, nofun⟩

/-! ## What is accepted is plain -/

/-- A text of digits and hyphens is plain. -/
theorem plain_of_isHex
    {s : Text}
    (hex : IsHex (withoutHyphens s)) :
    Plain s := by
  intro unit member
  by_cases hyphen : unit = 45
  · rw [hyphen]
    decide
  · have kept : unit ∈ withoutHyphens s :=
      List.mem_filter.mpr ⟨member, by simpa using hyphen⟩
    exact (isHexUnit_ne_hyphen (hex.2 unit kept)).1

theorem hexDigit_lt
    {char : UInt8}
    {digit : Nat}
    (read : Uuid.hexDigit char = some digit) :
    char.toNat < 128 := by
  rw [Uuid.hexDigit] at read
  split_ifs at read
  all_goals omega

theorem hexBytes_plain
    {count : Nat}
    {text bytes : Bytes}
    (length : text.length = count * 2)
    (read : Uuid.hexBytes text = some bytes) :
    ∀ char ∈ text, char.toNat < 128 := by
  induction count generalizing text bytes with
  | zero =>
      rw [List.length_eq_zero_iff.mp (length.trans (Nat.zero_mul 2))]
      exact List.forall_mem_nil _
  | succ count inductionHypothesis =>
      match text with
      | [] | [_] =>
          simp only [List.length_nil, List.length_singleton] at length
          omega
      | high :: low :: rest =>
          have restLength : rest.length = count * 2 := by
            simp only [List.length_cons] at length
            omega
          simp only [Uuid.hexBytes, Option.bind_eq_bind,
            Option.bind_eq_some_iff] at read
          obtain ⟨_, highRead, _, lowRead, others, restRead, _⟩ := read
          simp only [List.forall_mem_cons]
          exact ⟨hexDigit_lt highRead, hexDigit_lt lowRead,
            inductionHypothesis restLength restRead⟩

/-- What the core's UUID parser accepts is ASCII. -/
theorem plain_of_uuid_parse
    {source : Bytes}
    {uuid : Uuid}
    (parsed : Uuid.parse source = .ok uuid) :
    ∀ byte ∈ source, byte.toNat < 128 := by
  obtain ⟨⟨length, places⟩, read⟩ := uuid_parse_eq_ok.mp parsed
  have sixteen : (cut source).length = 16 * 2 := length_cut length
  have digits := hexBytes_plain sixteen read
  intro byte member
  by_cases hyphen : byte = 45
  · rw [hyphen]
    decide
  · have kept : byte ∈ source.filter (· ≠ 45) :=
      List.mem_filter.mpr ⟨member, by simpa using hyphen⟩
    rw [filter_cut (by decide) places] at kept
    exact digits byte (List.mem_of_mem_filter kept)

/-- What the core's service identifier parser accepts is ASCII. -/
theorem plain_of_service_parse
    {source : Bytes}
    {service : ServiceId}
    (parsed : ServiceId.parse source = .ok service) :
    ∀ byte ∈ source, byte.toNat < 128 := by
  rw [ServiceId.parse] at parsed
  split_ifs at parsed with mark
  · obtain ⟨id, isId, _⟩ := Outcome.bind_eq_ok.mp parsed
    obtain ⟨rest, rfl⟩ := List.isPrefixOf_iff_prefix.mp mark
    intro byte member
    rcases List.mem_append.mp member with inMark | inRest
    · have small : ServiceId.pniMark.all (·.toNat < 128) = true := by
        decide
      exact of_decide_eq_true (List.all_eq_true.mp small byte inMark)
    · exact plain_of_uuid_parse isId byte inRest
  · obtain ⟨id, isId, _⟩ := Outcome.bind_eq_ok.mp parsed
    exact plain_of_uuid_parse isId

/-! ## Both parsers -/

/-- Whether a text is marked, and what stands behind the mark. -/
def kindOf (s : Text) : ServiceKind :=
  if (ascii "PNI:").isPrefixOf s then .pni else .aci

/-- The text behind the mark of a phone number identity. -/
def body (s : Text) : Text :=
  if (ascii "PNI:").isPrefixOf s then s.drop 4 else s

/--
The SDK's parser takes the kind from the mark and the bytes from the rest.
-/
theorem parseFromServiceIdString_eq_ok
    {s : Text}
    {service : ServiceId} :
    parseFromServiceIdString s = .ok service ↔
      service.kind = kindOf s ∧
        uuidToBytes (body s) = .ok service.id.bytes := by
  obtain ⟨kind, raw⟩ := service
  rw [parseFromServiceIdString, kindOf, body]
  split_ifs
  all_goals
    rw [Outcome.bind_eq_ok]
    constructor
    · rintro ⟨found, isFound, made⟩
      cases made
      exact ⟨rfl, isFound⟩
    · rintro ⟨rfl, isRaw⟩
      exact ⟨raw.bytes, isRaw, rfl⟩

/-- Plain texts with the same bytes are the same. -/
theorem narrow_inj
    {first second : Text}
    (firstPlain : Plain first)
    (secondPlain : Plain second)
    (same : narrow first = narrow second) :
    first = second := by
  induction first generalizing second with
  | nil => exact (List.map_eq_nil_iff.mp same.symm).symm
  | cons unit rest inductionHypothesis =>
      cases second with
      | nil => cases same
      | cons other others =>
          simp only [Plain, List.forall_mem_cons] at firstPlain secondPlain
          simp only [narrow, List.map_cons, List.cons.injEq,
            ← UInt8.toNat_inj, UInt8.toNat_ofNat'] at same
          have small : unit.toNat = other.toNat := by
            omega
          rw [UInt16.toNat_inj.mp small,
            inductionHypothesis firstPlain.2 secondPlain.2 same.2]

theorem Plain.take
    {s : Text}
    (plain : Plain s)
    (count : Nat) :
    Plain (s.take count) :=
  fun unit member => plain unit (List.mem_of_mem_take member)

theorem Plain.drop
    {s : Text}
    (plain : Plain s)
    (count : Nat) :
    Plain (s.drop count) :=
  fun unit member => plain unit (List.mem_of_mem_drop member)

theorem plain_mark : Plain (ascii "PNI:") := by
  have small : (ascii "PNI:").all (·.toNat < 128) = true := by
    decide
  exact fun unit member =>
    of_decide_eq_true (List.all_eq_true.mp small unit member)

/-- The mark is read alike in units and in bytes. -/
theorem mark_narrow
    {s : Text}
    (plain : Plain s) :
    ServiceId.pniMark.isPrefixOf (narrow s) =
      (ascii "PNI:").isPrefixOf s := by
  have mark : ServiceId.pniMark = narrow (ascii "PNI:") := by
    decide
  have length : (ascii "PNI:").length = 4 := by
    decide
  rw [Bool.eq_iff_iff, List.isPrefixOf_iff_prefix, List.isPrefixOf_iff_prefix,
    List.prefix_iff_eq_take, List.prefix_iff_eq_take, mark, length, narrow,
    narrow, List.length_map, length, ← List.map_take]
  constructor
  · exact narrow_inj plain_mark (plain.take 4)
  · exact congrArg narrow

/-- The core's parser on a plain text reads its kind and its UUID. -/
theorem service_parse_narrow
    {s : Text}
    (plain : Plain s)
    {service : ServiceId} :
    ServiceId.parse (narrow s) = .ok service ↔
      service.kind = kindOf s ∧
        Uuid.parse (narrow (body s)) = .ok service.id := by
  obtain ⟨kind, id⟩ := service
  have dropped : (narrow s).drop 4 = narrow (s.drop 4) := List.map_drop.symm
  rw [ServiceId.parse, mark_narrow plain, dropped, kindOf, body]
  split_ifs
  all_goals
    rw [Outcome.bind_eq_ok]
    constructor
    · rintro ⟨found, isFound, made⟩
      cases made
      exact ⟨rfl, isFound⟩
    · rintro ⟨rfl, isId⟩
      exact ⟨id, isId, rfl⟩

theorem plain_body
    {s : Text}
    (plain : Plain s) :
    Plain (body s) := by
  rw [body]
  split_ifs
  · exact plain.drop 4
  · exact plain

/-- A text the client accepts is plain. -/
theorem plain_of_isHex_body
    {s : Text}
    (hex : IsHex (withoutHyphens (body s))) :
    Plain s := by
  have bodyPlain := plain_of_isHex hex
  rw [body] at bodyPlain
  split_ifs at bodyPlain with mark
  · obtain ⟨rest, rfl⟩ := List.isPrefixOf_iff_prefix.mp mark
    intro unit member
    rcases List.mem_append.mp member with inMark | inRest
    · exact plain_mark unit inMark
    · exact bodyPlain unit inRest
  · exact bodyPlain

/-- What the SDK's parser accepts is hex without its hyphens. -/
theorem uuidToBytes_eq_ok
    {s : Text}
    {raw : Block 16}
    (read : uuidToBytes s = .ok raw) :
    IsHex (withoutHyphens s) := by
  rw [uuidToBytes] at read
  split_ifs at read with hex
  exact hex

/-- Hex without its hyphens is accepted by the SDK's parser. -/
theorem uuidToBytes_of_isHex
    {s : Text}
    (hex : IsHex (withoutHyphens s)) :
    ∃ raw, uuidToBytes s = .ok raw := by
  rw [uuidToBytes, if_pos hex]
  exact ⟨_, rfl⟩

/-- What the core accepts the client accepts, and it has its hyphens. -/
theorem service_parse_encode
    {s : Text}
    {service : ServiceId} :
    ServiceId.parse (encode s) = .ok service ↔
      Canonical (body s) ∧ parseFromServiceIdString s = .ok service := by
  have onPlain :
      Plain s →
        (ServiceId.parse (encode s) = .ok service ↔
          Canonical (body s) ∧ parseFromServiceIdString s = .ok service) := by
    intro plain
    rw [encode_plain plain, service_parse_narrow plain,
      uuid_parse_narrow (plain_body plain), parseFromServiceIdString_eq_ok,
      and_left_comm]
  constructor
  · intro parsed
    have plain := plain_of_encode (plain_of_service_parse parsed)
    exact (onPlain plain).mp parsed
  · intro both
    have read := (parseFromServiceIdString_eq_ok.mp both.2).2
    have plain := plain_of_isHex_body (uuidToBytes_eq_ok read)
    exact (onPlain plain).mpr both

/-- A binding is built when both names are account identifiers. -/
theorem binding_isSome
    {sender recipient : Bytes}
    {senderDevice recipientDevice : Nat} :
    ((bindingFrom sender senderDevice recipient
        recipientDevice).bind encodeBinding).isSome ↔
      (∃ service, ServiceId.parse sender = .ok service) ∧
        ∃ service, ServiceId.parse recipient = .ok service := by
  have nonempty :
      ∀ source, (∃ service, ServiceId.parse source = .ok service) →
        source.length ≠ 0 := by
    intro source isService empty
    obtain ⟨service, parsed⟩ := isService
    rw [List.length_eq_zero_iff.mp empty] at parsed
    cases parsed
  rw [bindingFrom]
  by_cases empty : sender.length = 0 ∨ recipient.length = 0
  · rw [if_pos empty]
    constructor
    · intro built
      cases built
    · intro both
      rcases empty with noSender | noRecipient
      · exact absurd noSender (nonempty _ both.1)
      · exact absurd noRecipient (nonempty _ both.2)
  · rw [if_neg empty, Option.bind_some, encodeBinding]
    cases ServiceId.parse sender with
    | ok service =>
        cases ServiceId.parse recipient <;> simp
    | error fault => simp
    | trap => simp

/--
Both sides read a name alike, and the client takes it for a service id exactly
when the core builds a binding with it.
-/
structure Agree (s : Text) : Prop where
  parsed :
    ∀ service,
      parseFromServiceIdString s = .ok service ↔
        ServiceId.parse (encode s) = .ok service
  bound :
    ∀ (peer : Bytes) (device peerDevice : Nat),
      (∃ service, ServiceId.parse peer = .ok service) →
        ((∃ service, parseFromServiceIdString s = .ok service) ↔
            ((bindingFrom (encode s) device peer
              peerDevice).bind encodeBinding).isSome) ∧
          ((∃ service, parseFromServiceIdString s = .ok service) ↔
            ((bindingFrom peer peerDevice (encode s)
              device).bind encodeBinding).isSome)

/--
They agree on every text but those of thirty-two digits whose hyphens do not
stand at their places.
-/
theorem agree_iff (s : Text) :
    Agree s ↔
      (IsHex (withoutHyphens (body s)) → Canonical (body s)) := by
  constructor
  · intro agree hex
    obtain ⟨raw, read⟩ := uuidToBytes_of_isHex hex
    have accepted :
        parseFromServiceIdString s = .ok ⟨kindOf s, ⟨raw⟩⟩ :=
      parseFromServiceIdString_eq_ok.mpr ⟨rfl, read⟩
    exact (service_parse_encode.mp ((agree.parsed _).mp accepted)).1
  · intro places
    have parsed :
        ∀ service,
          parseFromServiceIdString s = .ok service ↔
            ServiceId.parse (encode s) = .ok service := by
      intro service
      rw [service_parse_encode]
      constructor
      · intro accepted
        have read := (parseFromServiceIdString_eq_ok.mp accepted).2
        exact ⟨places (uuidToBytes_eq_ok read), accepted⟩
      · exact And.right
    refine ⟨parsed, ?_⟩
    intro peer device peerDevice isService
    simp only [parsed, binding_isSome, isService, and_true, true_and,
      and_self]

/-- Thirty-two zeroes without a hyphen. -/
private def bare : Text :=
  List.replicate 32 48

/-- Thirty-two digits and no hyphen at all. -/
theorem bare_not_agree : ¬ Agree bare := by
  intro agree
  have hex : IsHex (withoutHyphens (body bare)) := by
    decide
  obtain ⟨raw, read⟩ := uuidToBytes_of_isHex hex
  have accepted :
      parseFromServiceIdString bare = .ok ⟨kindOf bare, ⟨raw⟩⟩ :=
    parseFromServiceIdString_eq_ok.mpr ⟨rfl, read⟩
  have places : ¬ Canonical (body bare) := by
    decide
  exact places
    (service_parse_encode.mp ((agree.parsed _).mp accepted)).1

end Gossveil.Api
