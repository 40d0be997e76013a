import Gossveil.Engine

namespace Gossveil.Abi

/-!
# The calls of the C surface

A call hands bytes over in cells the host passes in.  It fills them one at a
time, and when a later step fails it takes back those it has filled.

The calls differ in their parts and in the order of their steps.  Each is given
here as that order: the computations that can fail and the cells that are
handed over between them.  What the computations come to is an argument, so a
call stands for all inputs and all places where it can fail.
-/

/-! ## Statuses -/

/-- What a call returns to the host. -/
inductive Status where
  | ok
  | badArgument
  | badState
  | badKey
  | badSignature
  | badMessage
  | unknownKeyId
  | untrustedIdentity
  | noSession
  | replay
  | legacyVersion
  | unknownVersion
  | outOfMemory
  | verifyFailed
  | internal
  deriving DecidableEq, Repr

/-- What is wrong with a name. -/
inductive NameError where
  | missingSeparator
  | nicknameCannotBeEmpty
  | nicknameCannotStartWithDigit
  | badNicknameCharacter
  | nicknameTooShort
  | nicknameTooLong
  | discriminatorCannotBeEmpty
  | badDiscriminatorCharacter
  | discriminatorCannotBeZero
  | discriminatorCannotBeSingleDigit
  | discriminatorCannotHaveLeadingZeros
  | discriminatorTooLarge
  | proofVerificationFailure
  deriving DecidableEq, Repr

/-- The errors a call can end with: the areas' own and the libraries'. -/
inductive AbiError where
  | fault (fault : Fault)
  | ratchet (error : RatchetError)
  | name (error : NameError)
  | wrongLength
  | badEntropy
  | badLink
  | truncated
  | identityElement
  | nonCanonical
  | weakPublicKey
  | encodingError
  | authenticationFailed
  | other
  deriving DecidableEq, Repr

/-- The status of an error that the areas share. -/
def faultStatus : Fault → Status
  | .outOfMemory => .outOfMemory
  | .badArgument | .badText => .badArgument
  | .badState | .badSession => .badState
  | .badKey | .unknownKeyType => .badKey
  | .badSignature => .badSignature
  | .badMessage | .badPadding | .overflow => .badMessage
  | .unknownKeyId => .unknownKeyId
  | .untrustedIdentity => .untrustedIdentity
  | .noSession => .noSession
  | .replay => .replay
  | .legacyVersion => .legacyVersion
  | .unknownVersion => .unknownVersion
  | .verifyFailed => .verifyFailed
  | .unsupported => .internal

/-- The status of an error. -/
def statusFor : AbiError → Status
  | .name .proofVerificationFailure => .verifyFailed
  | .name _ => .badArgument
  | .fault fault => faultStatus fault
  | .ratchet .badRecord | .ratchet .badPacket | .ratchet .badTag => .badMessage
  | .ratchet _ => .internal
  | .wrongLength | .badEntropy => .badArgument
  | .identityElement | .nonCanonical | .weakPublicKey | .encodingError =>
      .badKey
  | .truncated | .badLink | .authenticationFailed => .badMessage
  | .other => .internal

/-- An error never comes out as success. -/
theorem statusFor_ne_ok (error : AbiError) : statusFor error ≠ .ok := by
  cases error with
  | fault fault => cases fault <;> simp [statusFor, faultStatus]
  | ratchet error => cases error <;> simp [statusFor]
  | name error => cases error <;> simp [statusFor]
  | _ => simp [statusFor]

/-! ## Cells -/

/-- A cell: the bytes its pointer leads to, unless it is null, and its length. -/
structure GvBuffer where
  ptr : Option Bytes
  len : Nat
  deriving DecidableEq

namespace GvBuffer

/-- No bytes: a null pointer and no length. -/
def empty : GvBuffer :=
  ⟨none, 0⟩

/-- Bytes in a buffer of their own; no bytes take no buffer. -/
def holding (data : Bytes) : GvBuffer :=
  if data = [] then empty else ⟨some data, data.length⟩

end GvBuffer

/-! ## Calls by their steps -/

/-- The computations of the calls that can fail. -/
inductive Part where
  | generate
  | secretParse
  | secretPublic
  | sign
  | publicParse
  | agree
  | schemeFromByte
  | encapsulate
  | openCapsule
  | serialize
  | usFrom
  | identityPairParse
  | identityParse
  | vouch
  | fromSecret
  | oneTimeRecordParse
  | fixed
  | signedRecordParse
  | pqRecordParse
  | archiveFrom
  | shelve
  | publishedInit
  | start
  | sealOne
  | hasSession
  | whisperParse
  | openWhisper
  | openerParse
  | openFirst
  | circleFrom
  | announce
  | announceParse
  | takeAnnounce
  | noteParse
  | openOne
  | make
  | serverCertParse
  | senderCertParse
  | kindIn
  | contentParse
  | takeRecipients
  | takeExcluded
  | sealForMany
  | forSingle
  | serviceIdFromFixed
  | forRecipient
  | safetyOf
  | hashOf
  | proofOf
  | candidates
  | append
  | fromParts
  | allocPrint
  | linkCreate
  | linkOpen
  | entropyPoolParse
  | backupKeyIn
  | serviceIdParse
  | checkArgument
  | mediaId
  | masterKeyParse
  | secretParams
  | secretParamsParse
  | alloc
  | sivSeal
  | sivOpen
  | taggerInit
  | update
  | finish
  | forOriginal
  | reportIn
  | fromReport
  | plainParse
  deriving DecidableEq, Repr

/-- The cells the calls are passed. -/
inductive Cell where
  | secret
  | publicKey
  | signature
  | shared
  | capsule
  | serialized
  | record
  | outRecord
  | sealed
  | plain
  | inner
  | body
  | announce
  | note
  | cert
  | senderId
  | phone
  | serverCert
  | content
  | senderCert
  | circleId
  | envelope
  | sent
  | received
  | display
  | scannable
  | hash
  | proof
  | newlineSeparated
  | handle
  | outEntropy
  | pool
  | recoveryKey
  | backupKey
  | key
  | backupId
  | signingKey
  | metadataKey
  | mediaId
  | mediaKey
  | thumbnailKey
  | master
  | secretParams
  | identifier
  | publicParams
  | out
  | tags
  | report
  deriving DecidableEq, Repr

/-- What the cells hold. -/
abbrev Cells := Cell → GvBuffer

/-- A call: the cells, and those handed over so far. -/
structure Handed where
  cells : Cells
  given : List Cell

/--
Fills a cell with a copy of the bytes.  The cell is emptied and remembered
first; whether the copy can be allocated is an argument.
-/
def give
    (allocates : Bool)
    (cell : Cell)
    (data : Bytes) :
    Call Handed AbiError Unit := do
  Call.modify fun handed =>
    ⟨Function.update handed.cells cell .empty, handed.given ++ [cell]⟩
  if data = [] then
    return
  else if allocates then
    Call.modify fun handed =>
      { handed with
        cells :=
          Function.update handed.cells cell ⟨some data, data.length⟩ }
  else
    Call.lift (.error (.fault .outOfMemory))

/-- An error empties the cells that have been handed over. -/
def close : Outcome AbiError Unit × Handed → Option (Status × Cells)
  | (.ok _, handed) => some (.ok, handed.cells)
  | (.error error, handed) =>
      some (statusFor error,
        handed.given.foldl (fun cells cell => Function.update cells cell .empty)
          handed.cells)
  | (.trap, _) => none

/-- A step of a call: a computation that may fail, or a cell that is filled. -/
inductive Step where
  | attempt (part : Part)
  | give (cell : Cell)
  deriving DecidableEq, Repr

/-- A call: the cells it is passed, and what it does in order. -/
structure EntryPoint where
  cells : List Cell
  steps : List Step
  deriving DecidableEq, Repr

/--
What the steps of a call come to: the ends of the computations, in order, the
bytes for each cell and whether they can be copied.
-/
structure Answers where
  outcome : Nat → Outcome AbiError Unit
  data : Cell → Bytes
  allocates : Cell → Bool

/-- The steps, the next computation being the one with the given number. -/
def perform (answers : Answers) :
    (number : Nat) →
    List Step →
    Call Handed AbiError Unit
  | _, [] => pure ()
  | number, .attempt _ :: rest => do
      Call.lift (answers.outcome number)
      perform answers (number + 1) rest
  | number, .give cell :: rest => do
      give (answers.allocates cell) cell (answers.data cell)
      perform answers number rest

/-- A call on cells with any contents; nothing is returned from a trap. -/
def EntryPoint.call
    (entry : EntryPoint)
    (answers : Answers)
    (cells : Cells) :
    Option (Status × Cells) :=
  close (perform answers 0 entry.steps ⟨cells, []⟩)

/-! ## The calls of the surface -/

/-! ### Keys -/

/-- A new pair of curve keys. -/
def curvePair : EntryPoint where
  cells := [.secret, .publicKey]
  steps := [.attempt .generate, .give .secret, .give .publicKey]

/-- The public key of a secret. -/
def curvePublic : EntryPoint where
  cells := [.publicKey]
  steps := [.attempt .secretParse, .attempt .secretPublic, .give .publicKey]

/-- A signature over a message. -/
def curveSign : EntryPoint where
  cells := [.signature]
  steps := [.attempt .secretParse, .attempt .sign, .give .signature]

/-- The secret that two keys share. -/
def curveAgree : EntryPoint where
  cells := [.shared]
  steps :=
    [.attempt .secretParse, .attempt .publicParse, .attempt .agree,
      .give .shared]

/-- A new pair of capsule keys. -/
def pqPair : EntryPoint where
  cells := [.publicKey, .secret]
  steps :=
    [.attempt .schemeFromByte, .attempt .generate, .give .publicKey,
      .give .secret]

/-- A capsule and the secret it carries. -/
def pqEncapsulate : EntryPoint where
  cells := [.capsule, .shared]
  steps :=
    [.attempt .publicParse, .attempt .encapsulate, .give .capsule,
      .give .shared]

/-- The secret in a capsule. -/
def pqOpen : EntryPoint where
  cells := [.shared]
  steps := [.attempt .secretParse, .attempt .openCapsule, .give .shared]

/-- A new identity, as a record. -/
def identityPair : EntryPoint where
  cells := [.serialized]
  steps := [.attempt .generate, .attempt .serialize, .give .serialized]

/-- The record of an identity. -/
def identitySerialize : EntryPoint where
  cells := [.serialized]
  steps := [.attempt .usFrom, .attempt .serialize, .give .serialized]

/-- The two keys of an identity's record. -/
def identityParse : EntryPoint where
  cells := [.publicKey, .secret]
  steps := [.attempt .identityPairParse, .give .publicKey, .give .secret]

/-- A signature over another identity. -/
def identityVouch : EntryPoint where
  cells := [.signature]
  steps :=
    [.attempt .usFrom, .attempt .identityParse, .attempt .vouch,
      .give .signature]

/-! ### Published key records -/

/-- The record of a one-time key. -/
def oneTimeRecord : EntryPoint where
  cells := [.record]
  steps :=
    [.attempt .secretParse, .attempt .fromSecret, .attempt .serialize,
      .give .record]

/-- The parts of a one-time key's record. -/
def oneTimeParse : EntryPoint where
  cells := [.publicKey, .secret]
  steps := [.attempt .oneTimeRecordParse, .give .publicKey, .give .secret]

/-- The record of a signed key. -/
def signedRecord : EntryPoint where
  cells := [.record]
  steps :=
    [.attempt .secretParse, .attempt .fromSecret, .attempt .fixed,
      .attempt .serialize, .give .record]

/-- The parts of a signed key's record. -/
def signedParse : EntryPoint where
  cells := [.publicKey, .secret, .signature]
  steps :=
    [.attempt .signedRecordParse, .give .publicKey, .give .secret,
      .give .signature]

/-- The record of a post-quantum key. -/
def pqRecord : EntryPoint where
  cells := [.record]
  steps :=
    [.attempt .publicParse, .attempt .secretParse, .attempt .fixed,
      .attempt .serialize, .give .record]

/-- The parts of a post-quantum key's record. -/
def pqRecordParse : EntryPoint where
  cells := [.publicKey, .secret, .signature]
  steps :=
    [.attempt .pqRecordParse, .give .publicKey, .give .secret,
      .give .signature]

/-! ### Sessions -/

/-- The live state of a record is shelved. -/
def sessionShelve : EntryPoint where
  cells := [.outRecord]
  steps :=
    [.attempt .archiveFrom, .attempt .shelve, .attempt .serialize,
      .give .outRecord]

/-- A session is started from published keys. -/
def sessionStart : EntryPoint where
  cells := [.outRecord]
  steps :=
    [.attempt .publicParse, .attempt .publicParse, .attempt .identityParse,
      .attempt .publicParse, .attempt .publishedInit, .attempt .archiveFrom,
      .attempt .usFrom, .attempt .start, .attempt .serialize, .give .outRecord]

/-- A message is sealed. -/
def sessionSeal : EntryPoint where
  cells := [.sealed, .outRecord]
  steps :=
    [.attempt .archiveFrom, .attempt .sealOne, .give .sealed,
      .attempt .serialize, .give .outRecord]

/-- A message of an established session is opened. -/
def sessionOpen : EntryPoint where
  cells := [.plain, .outRecord]
  steps :=
    [.attempt .archiveFrom, .attempt .hasSession, .attempt .whisperParse,
      .attempt .openWhisper, .give .plain, .attempt .serialize,
      .give .outRecord]

/-- A first message is opened. -/
def sessionOpenFirst : EntryPoint where
  cells := [.plain, .outRecord]
  steps :=
    [.attempt .archiveFrom, .attempt .openerParse, .attempt .signedRecordParse,
      .attempt .oneTimeRecordParse, .attempt .pqRecordParse, .attempt .usFrom,
      .attempt .openFirst, .give .plain, .attempt .serialize, .give .outRecord]

/-- The message inside a first message. -/
def openerParse : EntryPoint where
  cells := [.inner]
  steps := [.attempt .openerParse, .give .inner]

/-- The body of a message. -/
def whisperParse : EntryPoint where
  cells := [.body]
  steps := [.attempt .whisperParse, .give .body]

/-! ### Circles -/

/-- The own chain of a circle is announced. -/
def circleAnnounce : EntryPoint where
  cells := [.outRecord, .announce]
  steps :=
    [.attempt .circleFrom, .attempt .fixed, .attempt .announce,
      .attempt .serialize, .give .outRecord, .give .announce]

/-- A chain is admitted to a circle. -/
def circleAdmit : EntryPoint where
  cells := [.outRecord]
  steps :=
    [.attempt .circleFrom, .attempt .announceParse, .attempt .takeAnnounce,
      .attempt .serialize, .give .outRecord]

/-- A note is sealed. -/
def circleSeal : EntryPoint where
  cells := [.note, .outRecord]
  steps :=
    [.attempt .circleFrom, .attempt .fixed, .attempt .sealOne, .give .note,
      .attempt .serialize, .give .outRecord]

/-- A note is opened. -/
def circleOpen : EntryPoint where
  cells := [.plain, .outRecord]
  steps :=
    [.attempt .circleFrom, .attempt .hasSession, .attempt .noteParse,
      .attempt .openOne, .give .plain, .attempt .serialize, .give .outRecord]

/-- The body of a note. -/
def noteParse : EntryPoint where
  cells := [.body]
  steps := [.attempt .noteParse, .give .body]

/-! ### Envelopes -/

/-- A new server certificate. -/
def serverCert : EntryPoint where
  cells := [.cert]
  steps :=
    [.attempt .publicParse, .attempt .secretParse, .attempt .make, .give .cert]

/-- The parts of a server certificate. -/
def serverCertParse : EntryPoint where
  cells := [.body, .signature]
  steps := [.attempt .serverCertParse, .give .body, .give .signature]

/-- A new sender certificate. -/
def senderCert : EntryPoint where
  cells := [.cert]
  steps :=
    [.attempt .serverCertParse, .attempt .publicParse, .attempt .secretParse,
      .attempt .make, .give .cert]

/-- The parts of a sender certificate. -/
def senderCertParse : EntryPoint where
  cells := [.senderId, .phone, .serverCert, .body, .signature]
  steps :=
    [.attempt .senderCertParse, .give .senderId, .give .phone,
      .give .serverCert, .give .body, .give .signature]

/-- A new content of an envelope. -/
def contentMake : EntryPoint where
  cells := [.content]
  steps :=
    [.attempt .senderCertParse, .attempt .kindIn, .attempt .make,
      .give .content]

/-- The parts of a content. -/
def contentParse : EntryPoint where
  cells := [.body, .senderCert, .circleId]
  steps :=
    [.attempt .contentParse, .give .body, .give .senderCert, .give .circleId]

/-- An envelope for one recipient. -/
def envelopeSeal : EntryPoint where
  cells := [.envelope]
  steps :=
    [.attempt .contentParse, .attempt .usFrom, .attempt .publicParse,
      .attempt .sealOne, .give .envelope]

/-- The content of an envelope. -/
def envelopeOpen : EntryPoint where
  cells := [.content]
  steps := [.attempt .usFrom, .attempt .openOne, .give .content]

/-- A message for many recipients. -/
def envelopeSealMany : EntryPoint where
  cells := [.sent]
  steps :=
    [.attempt .takeRecipients, .attempt .takeExcluded, .attempt .contentParse,
      .attempt .usFrom, .attempt .sealForMany, .give .sent]

/-- What the only recipient of a message is handed. -/
def envelopeForSingle : EntryPoint where
  cells := [.received]
  steps := [.attempt .forSingle, .give .received]

/-- What one of the recipients is handed. -/
def envelopeForRecipient : EntryPoint where
  cells := [.received]
  steps :=
    [.attempt .fixed, .attempt .serviceIdFromFixed, .attempt .forRecipient,
      .give .received]

/-! ### Safety numbers -/

/-- The safety number of two parties. -/
def safetyOf : EntryPoint where
  cells := [.display, .scannable]
  steps :=
    [.attempt .identityParse, .attempt .identityParse, .attempt .safetyOf,
      .give .display, .attempt .serialize, .give .scannable]

/-! ### Handles -/

/-- The hash of a name. -/
def handleHash : EntryPoint where
  cells := [.hash]
  steps := [.attempt .hashOf, .give .hash]

/-- The proof of a name. -/
def handleProof : EntryPoint where
  cells := [.proof]
  steps := [.attempt .proofOf, .give .proof]

/-- Names to choose from, line by line. -/
def handleCandidates : EntryPoint where
  cells := [.newlineSeparated]
  steps := [.attempt .candidates, .attempt .append, .give .newlineSeparated]

/-- A name from its parts, and its hash. -/
def handleFromParts : EntryPoint where
  cells := [.handle, .hash]
  steps :=
    [.attempt .fromParts, .attempt .allocPrint, .give .handle,
      .attempt .hashOf, .give .hash]

/-- A link to a name. -/
def handleLink : EntryPoint where
  cells := [.outEntropy, .sealed]
  steps := [.attempt .linkCreate, .give .outEntropy, .give .sealed]

/-- The name in a link. -/
def handleLinkOpen : EntryPoint where
  cells := [.handle]
  steps := [.attempt .linkOpen, .give .handle]

/-! ### The vault -/

/-- A new entropy pool. -/
def poolRandom : EntryPoint where
  cells := [.pool]
  steps := [.give .pool]

/-- The two keys of an entropy pool. -/
def poolDerive : EntryPoint where
  cells := [.recoveryKey, .backupKey]
  steps := [.attempt .entropyPoolParse, .give .recoveryKey, .give .backupKey]

/-- A new backup key. -/
def backupKeyRandom : EntryPoint where
  cells := [.key]
  steps := [.give .key]

/-- The id and the signing key of an account's backup. -/
def backupKeyForAccount : EntryPoint where
  cells := [.backupId, .signingKey]
  steps :=
    [.attempt .backupKeyIn, .attempt .serviceIdParse, .attempt .checkArgument,
      .give .backupId, .give .signingKey]

/-- The key of the metadata on the device. -/
def backupKeyLocalMetadata : EntryPoint where
  cells := [.metadataKey]
  steps := [.attempt .backupKeyIn, .give .metadataKey]

/-- The id and the keys of a medium. -/
def backupKeyMedia : EntryPoint where
  cells := [.mediaId, .mediaKey, .thumbnailKey]
  steps :=
    [.attempt .backupKeyIn, .attempt .mediaId, .give .mediaId, .give .mediaKey,
      .give .thumbnailKey]

/-- The keys of a medium whose id is known. -/
def backupKeyMediaKeys : EntryPoint where
  cells := [.mediaKey, .thumbnailKey]
  steps :=
    [.attempt .backupKeyIn, .attempt .fixed, .give .mediaKey,
      .give .thumbnailKey]

/-- A new master key of a group. -/
def circleMasterRandom : EntryPoint where
  cells := [.master]
  steps := [.give .master]

/-- The secret parameters of a master key. -/
def circleSecretParams : EntryPoint where
  cells := [.secretParams]
  steps :=
    [.attempt .masterKeyParse, .attempt .secretParams, .give .secretParams]

/-- The parts of the secret parameters. -/
def circleParamsInfo : EntryPoint where
  cells := [.master, .identifier, .publicParams]
  steps :=
    [.attempt .secretParamsParse, .give .master, .give .identifier,
      .give .publicParams]

/-! ### Streams, primitives, reports -/

/-- Derived bytes. -/
def hkdfOut : EntryPoint where
  cells := [.out]
  steps := [.attempt .checkArgument, .attempt .alloc, .give .out]

/-- A text under a key and a nonce. -/
def sivSeal : EntryPoint where
  cells := [.sealed]
  steps := [.attempt .fixed, .attempt .fixed, .attempt .sivSeal, .give .sealed]

/-- The text under a key and a nonce. -/
def sivOpen : EntryPoint where
  cells := [.plain]
  steps := [.attempt .fixed, .attempt .fixed, .attempt .sivOpen, .give .plain]

/-- Random bytes. -/
def randomOut : EntryPoint where
  cells := [.out]
  steps := [.attempt .alloc, .give .out]

/-- The tags of a stream's chunks. -/
def chunkTags : EntryPoint where
  cells := [.tags]
  steps :=
    [.attempt .checkArgument, .attempt .fixed, .attempt .taggerInit,
      .attempt .update, .attempt .finish, .give .tags]

/-- A report on a message. -/
def reportMake : EntryPoint where
  cells := [.report]
  steps :=
    [.attempt .kindIn, .attempt .forOriginal, .attempt .serialize,
      .give .report]

/-- The report in the body of a content. -/
def reportInBody : EntryPoint where
  cells := [.report]
  steps := [.attempt .reportIn, .give .report]

/-- Plain content that carries a report. -/
def plainFromReport : EntryPoint where
  cells := [.plain]
  steps := [.attempt .fromReport, .give .plain]

/-- The body of plain content. -/
def plainBody : EntryPoint where
  cells := [.body]
  steps := [.attempt .plainParse, .give .body]

/-- The calls that are passed cells. -/
def entryPoints : List EntryPoint :=
  [curvePair, curvePublic, curveSign, curveAgree, pqPair, pqEncapsulate,
    pqOpen, identityPair, identitySerialize, identityParse, identityVouch,
    oneTimeRecord, oneTimeParse, signedRecord, signedParse, pqRecord,
    pqRecordParse, sessionShelve, sessionStart, sessionSeal, sessionOpen,
    sessionOpenFirst, openerParse, whisperParse, circleAnnounce, circleAdmit,
    circleSeal, circleOpen, noteParse, serverCert, serverCertParse,
    senderCert, senderCertParse, contentMake, contentParse, envelopeSeal,
    envelopeOpen, envelopeSealMany, envelopeForSingle, envelopeForRecipient,
    safetyOf, handleHash, handleProof, handleCandidates, handleFromParts,
    handleLink, handleLinkOpen, poolRandom, poolDerive, backupKeyRandom,
    backupKeyForAccount, backupKeyLocalMetadata, backupKeyMedia,
    backupKeyMediaKeys, circleMasterRandom, circleSecretParams,
    circleParamsInfo, hkdfOut, sivSeal, sivOpen, randomOut, chunkTags,
    reportMake, reportInBody, plainFromReport, plainBody]

end Gossveil.Abi
