import Gossveil.HandleScalars
import Gossveil.SealPlaces

namespace Gossveil

open Abi Ratchet
open Codec hiding Kind

/-!
# Decryption reports

A device that cannot open a message tells its sender so.  The report names the
ratchet key of the message, and it travels unencrypted: framed between an
identifier byte and a boundary byte, with padding after it.  The sender archives
its session if that session still seals under the key.
-/

/-! ## Plain content -/

namespace PostContent

/-- The byte plain content begins with. -/
def identifierByte : UInt8 := 0xC0

/-- The byte between the body and its padding. -/
def boundaryByte : UInt8 := 0x80

/-- The number of the report among the fields of a body. -/
def reportField : Nat := 8

/-- Everything after the identifier byte, padding included. -/
structure Plain where
  body : Bytes
  bytes : Bytes
  deriving DecidableEq

/-- Reads plain content by its first byte. -/
def Plain.parse (data : Bytes) : Outcome Fault Plain :=
  if data.length < 2 ∨ data.head? ≠ some identifierByte then
    .error .badMessage
  else
    .ok ⟨data.tail, data⟩

/-- Frames a serialised report as content. -/
def fromReport (report : Bytes) : Bytes :=
  [identifierByte] ++ Writer.bytes reportField report ++ [boundaryByte]

/-- The first byte field with the report's number. -/
def readReport (field : Field) : Option (Outcome Fault Bytes) :=
  if field.number = reportField then field.bytes.map .ok else none

/-- The report inside a content body, padding stripped. -/
def reportIn (body : Bytes) : Outcome Fault Bytes := do
  let boundary ←
    Outcome.ofOption .badMessage (Handle.lastIndexOf boundaryByte body)
  find .badMessage readReport (body.take boundary)

/-- The last place of a value that does not come after it. -/
theorem lastIndexOf_append
    {value : UInt8}
    (before : Bytes)
    {after : Bytes}
    (absent : value ∉ after) :
    Handle.lastIndexOf value (before ++ value :: after) =
      some before.length := by
  induction before with
  | nil => simp [Handle.lastIndexOf, Handle.lastIndexOf_eq_none.mpr absent]
  | cons first rest inductionHypothesis =>
      simp [Handle.lastIndexOf, inductionHypothesis]

/-- A framed report is found again, whatever padding follows. -/
theorem reportIn_fromReport
    {report padding : Bytes}
    (short : report.length < 2 ^ 64)
    (unmarked : boundaryByte ∉ padding) :
    reportIn ((fromReport report).tail ++ padding) = .ok report := by
  have shape :
      (fromReport report).tail ++ padding =
        (Field.ofBytes reportField report).encode ++
          boundaryByte :: padding := by
    simp [fromReport, Field.encode]
  rw [shape, reportIn, lastIndexOf_append _ unmarked, Outcome.ofOption,
    Outcome.ok_bind, List.take_left]
  have written : (Field.ofBytes reportField report).Written :=
    .bytes (by decide) (by decide) short
  exact find_single Fault.badMessage written rfl

/-- A report in a plaintext reads back behind its mark, with the padding. -/
theorem parse_fromReport (report padding : Bytes) :
    Plain.parse (fromReport report ++ padding) =
      .ok ⟨(fromReport report).tail ++ padding,
        fromReport report ++ padding⟩ := by
  rw [Plain.parse, if_neg (by simp [fromReport])]
  simp [fromReport]

end PostContent

/-! ## Reports -/

/-- What a recipient reports of a message it could not open. -/
structure Report where
  ratchet : Option Curve.Public
  stampMs : Nat
  device : Nat
  deriving DecidableEq

namespace Report

/-- A message of a session names its ratchet key; the other kinds have none. -/
def forOriginal
    (original : Bytes)
    (kind : Kind)
    (stampMs device : Nat) :
    Outcome Fault Report :=
  match kind with
  | .whisper => do
      let w ← Whisper.parse original
      return ⟨some w.ratchet, stampMs, device⟩
  | .first => do
      let o ← Opener.parse original
      let w ← Whisper.parse o.inner
      return ⟨some w.ratchet, stampMs, device⟩
  | .circle => .ok ⟨none, stampMs, device⟩
  | .plain => .ok ⟨none, stampMs, device⟩

/-- The record of a report. -/
def serialize (report : Report) : Bytes :=
  (match report.ratchet with
    | some key => Writer.bytes 1 key.serialize
    | none => []) ++
    Writer.uint 2 report.stampMs ++ Writer.uint 3 report.device

/-- One turn of the parsing loop. -/
def readField (report : Report) (field : Field) : Outcome Fault Report :=
  match field.number with
  | 1 => do
      let data ← field.bytesOr .badMessage
      let key ← Curve.Public.parse data
      return { report with ratchet := some key }
  | 2 => do
      let stampMs ← Outcome.ofOption .badMessage field.uint
      return { report with stampMs := stampMs }
  | 3 => do
      let device ← field.uint32 .badMessage
      return { report with device := device }
  | _ => .ok report

/-- Reads a report from its record. -/
def parse (data : Bytes) : Outcome Fault Report :=
  fold .badMessage readField data ⟨none, 0, 0⟩

/-! ### The record -/

/-- The fields that `serialize` writes. -/
def fields (report : Report) : List Field :=
  (report.ratchet.map fun key => Field.ofBytes 1 key.serialize).toList ++
    [Field.ofUint 2 report.stampMs, Field.ofUint 3 report.device]

/-- A report writes the fields it lists. -/
theorem encodeAll_fields (report : Report) :
    encodeAll report.fields = report.serialize := by
  unfold fields serialize encodeAll
  cases report.ratchet <;>
    simp [Field.encode, Field.ofBytes, Field.ofUint]

/-- A report is short. -/
theorem length_serialize (report : Report) : report.serialize.length < 2 ^ 8 := by
  have stampLength := Writer.length_uint_le 2 report.stampMs
  have deviceLength := Writer.length_uint_le 3 report.device
  unfold serialize
  cases report.ratchet with
  | none =>
      simp only [List.length_append, List.length_nil]
      omega
  | some key =>
      have keyLength := Writer.length_bytes_le 1 key.serialize
      rw [Curve.Public.length_serialize, Curve.serializedLength] at keyLength
      simp only [List.length_append]
      omega

/-- A report survives its record. -/
theorem parse_serialize
    {report : Report}
    (stampFits : report.stampMs < 2 ^ 64)
    (deviceFits : report.device < 2 ^ 32) :
    parse report.serialize = .ok report := by
  have plain : ∀ field ∈ report.fields, field.Plain := by
    simp only [fields, List.forall_mem_append]
    refine ⟨Field.Plain.option fun _ _ => .bytes (by decide) (by decide), ?_⟩
    rintro field (_ | ⟨_, _ | ⟨_, ⟨⟩⟩⟩)
    · exact .uint (by decide) (by decide) stampFits
    · exact .uint (by decide) (by decide) (deviceFits.trans (by decide))
  have short : (encodeAll report.fields).length < 2 ^ 64 := by
    rw [encodeAll_fields]
    exact report.length_serialize.trans (by decide)
  have ratchetReads :
      (report.ratchet.map fun key =>
          Field.ofBytes 1 key.serialize).toList.foldlM readField ⟨none, 0, 0⟩ =
        .ok ⟨report.ratchet, 0, 0⟩ :=
    foldlM_option readField _ (fun ratchet => ⟨ratchet, 0, 0⟩)
      (fun key _ => by simp [readField]) rfl
  rw [← encodeAll_fields, parse, fold_plain _ readField plain short,
    fields, foldlM_append_ok ratchetReads]
  simp [readField, Field.uint32_ofUint _ _ _ deviceFits]

end Report

/-! ## The calls of the surface -/

namespace Abi

/-- The kind of a number that the host passes. -/
def kindIn (value : Nat) : Outcome Fault Kind :=
  match value with
  | 2 => .ok .whisper
  | 3 => .ok .first
  | 7 => .ok .circle
  | 8 => .ok .plain
  | _ => .error .badArgument

@[simp] theorem kindIn_code (kind : Kind) : kindIn kind.code = .ok kind := by
  cases kind <;> rfl

/-- `reportMake`. -/
def makeReport
    (original : Bytes)
    (kind stampMs device : Nat)
    (allocates : Cell → Bool) :
    Call Handed AbiError Unit := do
  let kind ← Call.lift ((kindIn kind).mapError AbiError.fault)
  let report ←
    Call.lift
      ((Report.forOriginal original kind stampMs device).mapError
        AbiError.fault)
  give (allocates .report) .report report.serialize

/-- Making a report follows its step list. -/
theorem makeReport_performs
    (original : Bytes)
    (kind stampMs device : Nat)
    (allocates : Cell → Bool) :
    Performs allocates reportMake.steps
      (makeReport original kind stampMs device allocates) := by
  apply Performs.attempt
  intro kind
  apply Performs.attempt
  intro report
  apply Performs.silent
  exact Performs.giveLast _

/-- What the host is told of a report. -/
structure GvReportInfo where
  stampMs : Nat
  device : Nat
  hasRatchet : Bool
  ratchet : Bytes

/-- `reportParse`. -/
def parseReport (report : Bytes) : Outcome Fault GvReportInfo := do
  let r ← Report.parse report
  return ⟨r.stampMs, r.device, r.ratchet.isSome,
    match r.ratchet with
    | some key => key.serialize
    | none => List.replicate 33 0⟩

/-- `reportInBody`. -/
def bodyReport
    (body : Bytes)
    (allocates : Cell → Bool) :
    Call Handed AbiError Unit := do
  let report ←
    Call.lift ((PostContent.reportIn body).mapError AbiError.fault)
  give (allocates .report) .report report

/-- Taking a report off a body follows its step list. -/
theorem bodyReport_performs (body : Bytes) (allocates : Cell → Bool) :
    Performs allocates reportInBody.steps (bodyReport body allocates) :=
  Performs.attempt fun _ => Performs.giveLast _

/-- `plainFromReport`. -/
def reportPlain
    (report : Bytes)
    (allocates : Cell → Bool) :
    Call Handed AbiError Unit :=
  give (allocates .plain) .plain (PostContent.fromReport report)

/-- Putting a report in a plaintext follows its step list. -/
theorem reportPlain_performs (report : Bytes) (allocates : Cell → Bool) :
    Performs allocates plainFromReport.steps (reportPlain report allocates) :=
  Performs.silent (Performs.giveLast _)

/-- `plainBody`. -/
def bodyOfPlain
    (plain : Bytes)
    (allocates : Cell → Bool) :
    Call Handed AbiError Unit := do
  let plain ←
    Call.lift ((PostContent.Plain.parse plain).mapError AbiError.fault)
  give (allocates .body) .body plain.body

/-- Taking the body off a plaintext follows its step list. -/
theorem bodyOfPlain_performs (plain : Bytes) (allocates : Cell → Bool) :
    Performs allocates plainBody.steps (bodyOfPlain plain allocates) :=
  Performs.attempt fun _ => Performs.giveLast _

/-- `sessionShelve`. -/
def shelveSession
    (record : Bytes)
    (allocates : Cell → Bool) :
    Call Handed AbiError Unit := do
  let archive ← Call.lift ((archiveFrom record).mapError AbiError.fault)
  give (allocates .outRecord) .outRecord archive.shelve.serialize

/-- Shelving a session follows its step list. -/
theorem shelveSession_performs (record : Bytes) (allocates : Cell → Bool) :
    Performs allocates sessionShelve.steps (shelveSession record allocates) :=
  Performs.attempt fun _ =>
    Performs.silent (Performs.silent (Performs.giveLast _))

end Abi

namespace Ratchet.Archive

/-- Whether the live state sends under this key. -/
def sendingRatchetIs (archive : Archive) (key : Curve.Public) : Bool :=
  match archive.current with
  | none => false
  | some current =>
      match current.sending with
      | none => false
      | some lane => decide (lane.ratchet = key)

end Ratchet.Archive

namespace Abi

/-- The same, of a record and the bytes of a key. -/
def sessionRatchetIs (record key : Bytes) : Outcome Fault Bool := do
  let archive ← archiveFrom record
  let key ← Curve.Public.parse key
  return archive.sendingRatchetIs key

end Abi

/-! ## The calls of the bridge -/

namespace Bridge

/-- The bytes of a report on a message. -/
def report
    (original : Bytes)
    (kind stampMs device : Nat) :
    Outcome GossveilError Bytes :=
  finish (makeReport original kind stampMs device fun _ => true)
    fun cells _ => cells .report

/-- What is known of a report. -/
structure ReportInfo where
  stampMs : Nat
  device : Nat
  ratchet : Option Bytes
  deriving DecidableEq

/-- Reads a report or throws. -/
def reportParse (report : Bytes) : Outcome GossveilError ReportInfo := do
  let info ← check ((parseReport report).mapError AbiError.fault)
  return ⟨info.stampMs, info.device,
    if info.hasRatchet then some info.ratchet else none⟩

/-- The report in the body of a content. -/
def reportInBody (body : Bytes) : Outcome GossveilError Bytes :=
  finish (bodyReport body fun _ => true) fun cells _ => cells .report

/-- Plain content that carries a report. -/
def plainFromReport (report : Bytes) : Outcome GossveilError Bytes :=
  finish (reportPlain report fun _ => true) fun cells _ => cells .plain

/-- The body of plain content. -/
def plainBody (plain : Bytes) : Outcome GossveilError Bytes :=
  finish (bodyOfPlain plain fun _ => true) fun cells _ => cells .body

/-- The record after its live state has been shelved. -/
def sessionShelve (record : Bytes) : Outcome GossveilError Bytes :=
  finish (shelveSession record fun _ => true) fun cells _ => cells .outRecord

/-- Whether a record sends under this key. -/
def sessionRatchetIs (record key : Bytes) : Outcome GossveilError Bool :=
  check ((Abi.sessionRatchetIs record key).mapError AbiError.fault)

end Bridge

/-! ## The classes of the client -/

namespace Api

/-- A report, as the client hands it on. -/
structure DecryptionErrorMessage where
  bytes : Bytes
  stampMs : Nat
  device : Nat
  ratchet : Option Bytes
  deriving DecidableEq

namespace DecryptionErrorMessage

/-- The constructor, which the class keeps to itself. -/
def new (bytes : Bytes) : Outcome GossveilError DecryptionErrorMessage := do
  let parsed ← Bridge.reportParse bytes
  return ⟨bytes, parsed.stampMs, parsed.device, parsed.ratchet⟩

/-- The time is taken modulo 2^64 and the device modulo 2^32. -/
def forOriginal
    (bytes : Bytes)
    (type : Nat)
    (timestamp originalSenderDeviceId : Int) :
    Outcome GossveilError DecryptionErrorMessage := do
  let report ←
    Bridge.report bytes type (timestamp % 2 ^ 64).toNat
      (originalSenderDeviceId % 2 ^ 32).toNat
  new report

/-- The report in the body of a content. -/
def extractFromSerializedBody
    (body : Bytes) :
    Outcome GossveilError DecryptionErrorMessage := do
  let report ← Bridge.reportInBody body
  new report

end DecryptionErrorMessage

/-- Plain content, as the client hands it on. -/
structure PlaintextContent where
  bytes : Bytes
  body : Bytes
  deriving DecidableEq

namespace PlaintextContent

/-- The constructor, which the class keeps to itself. -/
def new (bytes : Bytes) : Outcome GossveilError PlaintextContent := do
  let body ← Bridge.plainBody bytes
  return ⟨bytes, body⟩

/-- `from`. -/
def ofMessage
    (message : DecryptionErrorMessage) :
    Outcome GossveilError PlaintextContent := do
  let plain ← Bridge.plainFromReport message.bytes
  new plain

/-- Reads plain content or throws. -/
def deserialize (data : Bytes) : Outcome GossveilError PlaintextContent :=
  new data

end PlaintextContent

end Api

/-! ## What a report comes to -/

/-- The report of a message names the key that the message is read with. -/
theorem Report.forOriginal_of_whisperIn
    {kind : Kind}
    {original : Bytes}
    {inner : Whisper}
    (isInner : whisperIn kind original = .ok inner)
    (stampMs device : Nat) :
    forOriginal original kind stampMs device =
      .ok ⟨some inner.ratchet, stampMs, device⟩ := by
  cases kind with
  | whisper =>
      rw [whisperIn] at isInner
      rw [forOriginal, isInner]
      rfl
  | first =>
      obtain ⟨first, isFirst, isInner⟩ := Outcome.bind_eq_ok.mp isInner
      rw [forOriginal, isFirst, Outcome.ok_bind, isInner]
      rfl
  | circle => cases isInner
  | plain => cases isInner

namespace Bridge

/-- A call that comes to filling one cell returns what it holds. -/
theorem finish_give
    (cell : Cell)
    {data : Bytes}
    (short : data.length < 2 ^ 32) :
    finish (give true cell data) (fun cells _ => cells cell) = .ok data := by
  have inMemory :
      InMemory
        ⟨Function.update (fun _ => .empty) cell (.holding data),
          [] ++ [cell]⟩ := by
    intro other isOther
    obtain rfl := List.mem_singleton.mp isOther
    simpa [len_holding] using short
  rw [finish, give_allocated]
  simp only [if_pos inMemory, Function.update_self, take_holding]

/-- A serialized report reads back through the bridge. -/
theorem reportParse_serialize
    {report : Report}
    (stampFits : report.stampMs < 2 ^ 64)
    (deviceFits : report.device < 2 ^ 32) :
    reportParse report.serialize =
      .ok ⟨report.stampMs, report.device,
        report.ratchet.map Curve.Public.serialize⟩ := by
  rw [reportParse, parseReport, Report.parse_serialize stampFits deviceFits]
  obtain ⟨_ | key, stampMs, device⟩ := report
  · rfl
  · rfl

/-- A record is asked for the key of the lane it would seal on. -/
theorem sessionRatchetIs_of_sendsOn
    {record : Bytes}
    {lane : Lane}
    (sends : SendsOn record lane)
    (key : Curve.Public) :
    sessionRatchetIs record key.serialize =
      .ok (decide (lane.ratchet = key)) := by
  obtain ⟨archive, live, isArchive, isLive, isSending⟩ := sends
  rw [sessionRatchetIs, Abi.sessionRatchetIs, isArchive, Outcome.ok_bind,
    Curve.Public.parse_serialize, Outcome.ok_bind, Archive.sendingRatchetIs,
    isLive]
  simp only [isSending]
  rfl

/-- An archive with no live state is read back from its record. -/
theorem archiveFrom_shelved
    {archive : Archive}
    (noLive : archive.current = none)
    (short : archive.serialize.length < 2 ^ 64) :
    archiveFrom archive.serialize = .ok archive := by
  have readsBack : Archive.parse archive.serialize = .ok archive := by
    refine Archive.parse_serialize ?_ short
    rw [noLive]
    rintro _ ⟨⟩
  unfold archiveFrom
  split_ifs with none
  · rw [List.length_eq_zero_iff.mp none] at readsBack
    exact readsBack
  · exact readsBack

/-- A record that has been shelved seals under no key. -/
theorem sessionRatchetIs_shelved
    {record shelved : Bytes}
    (shelves : sessionShelve record = .ok shelved)
    (key : Curve.Public) :
    sessionRatchetIs shelved key.serialize = .ok false := by
  obtain ⟨_, handed, calls, inMemory, isRead⟩ := finish_eq_ok shelves
  obtain ⟨archive, isArchive, calls⟩ := Call.lift_bind_eq_ok.mp calls
  rw [give_allocated] at calls
  obtain ⟨_, rfl⟩ := Prod.mk.inj calls
  have short := inMemory .outRecord (by simp)
  simp only [Function.update_self, take_holding, len_holding] at isRead short
  have noLive : archive.shelve.current = none := by
    unfold Archive.shelve
    cases isLive : archive.current with
    | none => exact isLive
    | some live => rfl
  have readsBack : archiveFrom archive.shelve.serialize = .ok archive.shelve :=
    archiveFrom_shelved noLive (short.trans (by decide))
  rw [isRead, sessionRatchetIs, Abi.sessionRatchetIs, readsBack,
    Outcome.ok_bind, Curve.Public.parse_serialize, Outcome.ok_bind,
    Archive.sendingRatchetIs, noLive]
  rfl

/-- The records that sealing leads to. -/
inductive SealsTo [Hashes] [Aes] [Kem] (record : Bytes) : Bytes → Prop where
  | refl : SealsTo record record
  | step
      {before plain sealed after : Bytes}
      {nowSecs kind : Nat}
      {binding : Option Binding}
      {draw : Braid.Draw}
      (seals : SealsTo record before)
      (done :
        sessionSeal before plain nowSecs binding draw =
          .ok (kind, sealed, after)) :
      SealsTo record after

/-- Sealing goes on under the same ratchet key. -/
theorem SealsTo.sendsOn
    [Hashes] [Aes] [Kem]
    {record last : Bytes}
    {lane : Lane}
    (seals : SealsTo record last)
    (sends : SendsOn record lane) :
    ∃ next, SendsOn last next ∧ next.ratchet = lane.ratchet := by
  induction seals with
  | refl => exact ⟨lane, sends, rfl⟩
  | step _ done inductionHypothesis =>
      obtain ⟨before, isBefore, ratchet⟩ := inductionHypothesis
      obtain ⟨_, same, _, next, _, isSame, _, _, isNext, nextRatchet⟩ :=
        place_of_sessionSeal done
      obtain rfl := isBefore.unique isSame
      exact ⟨next, isNext, nextRatchet.trans ratchet⟩

end Bridge

namespace Api

/-- The message that is made of a report has its parts. -/
theorem DecryptionErrorMessage.new_serialize
    {report : Report}
    (stampFits : report.stampMs < 2 ^ 64)
    (deviceFits : report.device < 2 ^ 32) :
    new report.serialize =
      .ok ⟨report.serialize, report.stampMs, report.device,
        report.ratchet.map Curve.Public.serialize⟩ := by
  rw [new, Bridge.reportParse_serialize stampFits deviceFits]
  rfl

/-- The SDK's report is the core's. -/
theorem DecryptionErrorMessage.forOriginal_eq
    {bytes : Bytes}
    {kind : Kind}
    {timestamp originalSenderDeviceId : Int}
    {report : Report}
    (isReport :
      Report.forOriginal bytes kind (timestamp % 2 ^ 64).toNat
          (originalSenderDeviceId % 2 ^ 32).toNat =
        .ok report) :
    forOriginal bytes kind.code timestamp originalSenderDeviceId =
      new report.serialize := by
  have made :
      Bridge.report bytes kind.code (timestamp % 2 ^ 64).toNat
          (originalSenderDeviceId % 2 ^ 32).toNat =
        .ok report.serialize := by
    rw [Bridge.report, makeReport, kindIn_code]
    simp only [Outcome.mapError, Call.lift_ok_bind, isReport]
    exact Bridge.finish_give .report
      (report.length_serialize.trans (by decide))
  rw [forOriginal, made, Outcome.ok_bind]

/-- Content with padding after it is read, and the message in it is found. -/
theorem PlaintextContent.extract_padded
    {report padding : Bytes}
    (short : (PostContent.fromReport report ++ padding).length < 2 ^ 32)
    (unmarked : PostContent.boundaryByte ∉ padding) :
    ∃ content,
      deserialize (PostContent.fromReport report ++ padding) = .ok content ∧
        content.bytes = PostContent.fromReport report ++ padding ∧
          DecryptionErrorMessage.extractFromSerializedBody content.body =
            DecryptionErrorMessage.new report := by
  have inside : report.length < 2 ^ 32 := by
    simp only [PostContent.fromReport, Writer.bytes, List.length_append] at short
    omega
  have bodyShort :
      ((PostContent.fromReport report).tail ++ padding).length < 2 ^ 32 := by
    simp only [List.length_append, List.length_tail] at short ⊢
    omega
  have takesBody :
      Bridge.plainBody (PostContent.fromReport report ++ padding) =
        .ok ((PostContent.fromReport report).tail ++ padding) := by
    rw [Bridge.plainBody, bodyOfPlain, PostContent.parse_fromReport]
    exact Bridge.finish_give .body bodyShort
  have takesReport :
      Bridge.reportInBody ((PostContent.fromReport report).tail ++ padding) =
        .ok report := by
    rw [Bridge.reportInBody, bodyReport,
      PostContent.reportIn_fromReport (inside.trans (by decide)) unmarked]
    exact Bridge.finish_give .report inside
  refine
    ⟨⟨PostContent.fromReport report ++ padding,
        (PostContent.fromReport report).tail ++ padding⟩, ?_, rfl, ?_⟩
  · rw [deserialize, new, takesBody]
    rfl
  · rw [DecryptionErrorMessage.extractFromSerializedBody, takesReport,
      Outcome.ok_bind]

/--
The device that cannot open what a session has sealed reports it: the sender
finds the report in the content, whatever padding follows, with the time and
the device.  Its ratchet key is the one the session seals under, now and after
any further messages, until the session is archived and no key matches.
-/
theorem report_returns
    [Hashes] [Aes] [Kem]
    {record plain sealed after : Bytes}
    {nowSecs kind : Nat}
    {binding : Option Binding}
    {draw : Braid.Draw}
    (isSealed :
      Bridge.sessionSeal record plain nowSecs binding draw =
        .ok (kind, sealed, after))
    (timestamp originalSenderDeviceId : Int) :
    ∃ report content key,
      DecryptionErrorMessage.forOriginal sealed kind timestamp
          originalSenderDeviceId =
        .ok report ∧
      (report.stampMs = (timestamp % 2 ^ 64).toNat ∧
        report.device = (originalSenderDeviceId % 2 ^ 32).toNat ∧
          report.ratchet = some key) ∧
      PlaintextContent.ofMessage report = .ok content ∧
      (∀ padding : Bytes,
        PostContent.boundaryByte ∉ padding → padding.length < 2 ^ 31 →
          ∃ received,
            PlaintextContent.deserialize (content.bytes ++ padding) =
              .ok received ∧
            DecryptionErrorMessage.extractFromSerializedBody received.body =
              .ok report) ∧
      ∀ last, Bridge.SealsTo after last →
        (∀ other : Curve.Public,
          Bridge.sessionRatchetIs last other.serialize =
            .ok (decide (other.serialize = key))) ∧
        ∀ shelved,
          Bridge.sessionShelve last = .ok shelved →
            ∀ other : Curve.Public,
              Bridge.sessionRatchetIs shelved other.serialize = .ok false := by
  obtain ⟨kind, lane, inner, next, rfl, _, isInner, isAt, sends, isRatchet⟩ :=
    Bridge.place_of_sessionSeal isSealed
  let report : Report :=
    ⟨some inner.ratchet, (timestamp % 2 ^ 64).toNat,
      (originalSenderDeviceId % 2 ^ 32).toNat⟩
  have stampFits : report.stampMs < 2 ^ 64 := by
    change (timestamp % 2 ^ 64).toNat < 2 ^ 64
    omega
  have deviceFits : report.device < 2 ^ 32 := by
    change (originalSenderDeviceId % 2 ^ 32).toNat < 2 ^ 32
    omega
  have made :=
    (DecryptionErrorMessage.forOriginal_eq
        (Report.forOriginal_of_whisperIn isInner _ _)).trans
      (DecryptionErrorMessage.new_serialize stampFits deviceFits)
  have framedShort :
      (PostContent.fromReport report.serialize).length < 2 ^ 10 := by
    have bound := Writer.length_bytes_le 8 report.serialize
    have inside := report.length_serialize
    simp only [PostContent.fromReport, PostContent.reportField,
      List.length_append, List.length_singleton]
    omega
  have framed :
      PlaintextContent.ofMessage
          ⟨report.serialize, report.stampMs, report.device,
            report.ratchet.map Curve.Public.serialize⟩ =
        PlaintextContent.new (PostContent.fromReport report.serialize) := by
    have given :
        Bridge.plainFromReport report.serialize =
          .ok (PostContent.fromReport report.serialize) :=
      Bridge.finish_give .plain (framedShort.trans (by decide))
    rw [PlaintextContent.ofMessage, given, Outcome.ok_bind]
  obtain ⟨content, isContent, isFramed, _⟩ :=
    @PlaintextContent.extract_padded report.serialize []
      (by simpa using framedShort.trans (by decide)) (by simp)
  rw [List.append_nil] at isContent isFramed
  refine ⟨_, content, inner.ratchet.serialize, made, ⟨rfl, rfl, rfl⟩,
    framed.trans isContent, ?_, ?_⟩
  · intro padding unmarked short
    have wholeShort :
        (PostContent.fromReport report.serialize ++ padding).length <
          2 ^ 32 := by
      rw [List.length_append]
      omega
    obtain ⟨received, isReceived, _, extracts⟩ :=
      PlaintextContent.extract_padded wholeShort unmarked
    rw [isFramed]
    exact ⟨received, isReceived, extracts.trans
      (DecryptionErrorMessage.new_serialize stampFits deviceFits)⟩
  · intro last seals
    obtain ⟨now, sendsNow, sameRatchet⟩ := seals.sendsOn sends
    refine ⟨fun other => ?_, fun shelved shelves other =>
      Bridge.sessionRatchetIs_shelved shelves other⟩
    rw [Bridge.sessionRatchetIs_of_sendsOn sendsNow, sameRatchet, isRatchet,
      ← isAt.1]
    congr 1
    rw [decide_eq_decide]
    exact ⟨fun same => same ▸ rfl,
      fun same => (Curve.Public.serialize_injective same).symm⟩

section Witness

open Sample

attribute [local instance] hashes aes kem

/-- What the sample send draws. -/
private def noteDraw : Braid.Draw :=
  ⟨Block.zero 64, Block.zero 32⟩

/-- A message of the sample session. -/
@[irreducible] private def noteSealed : Nat × Bytes × Bytes :=
  match
    Bridge.sessionSeal (Archive.serialize ⟨some sampleState, []⟩) [1] 0 none
      noteDraw
  with
  | .ok sealed => sealed
  | _ => (0, [], [])

set_option maxRecDepth 100000 in
/-- The sample note is sealed. -/
private theorem note_sealed :
    Bridge.sessionSeal (Archive.serialize ⟨some sampleState, []⟩) [1] 0 none
        noteDraw =
      .ok (noteSealed.1, noteSealed.2.1, noteSealed.2.2) := by
  decide +kernel

/-- The report on the sample note. -/
theorem report_returns_note :
    ∃ report content key,
      DecryptionErrorMessage.forOriginal noteSealed.2.1 noteSealed.1 5 2 =
        .ok report ∧
      (report.stampMs = ((5 : Int) % 2 ^ 64).toNat ∧
        report.device = ((2 : Int) % 2 ^ 32).toNat ∧
          report.ratchet = some key) ∧
      PlaintextContent.ofMessage report = .ok content ∧
      (∀ padding : Bytes,
        PostContent.boundaryByte ∉ padding → padding.length < 2 ^ 31 →
          ∃ received,
            PlaintextContent.deserialize (content.bytes ++ padding) =
              .ok received ∧
            DecryptionErrorMessage.extractFromSerializedBody received.body =
              .ok report) ∧
      ∀ last, Bridge.SealsTo noteSealed.2.2 last →
        (∀ other : Curve.Public,
          Bridge.sessionRatchetIs last other.serialize =
            .ok (decide (other.serialize = key))) ∧
        ∀ shelved,
          Bridge.sessionShelve last = .ok shelved →
            ∀ other : Curve.Public,
              Bridge.sessionRatchetIs shelved other.serialize = .ok false :=
  @report_returns hashes aes kem _ _ _ _ _ _ _ _ note_sealed 5 2

end Witness

end Api

end Gossveil
