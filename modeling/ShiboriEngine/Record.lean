import Mathlib
import ShiboriEngine.Integrity
import ShiboriEngine.Endian
import ShiboriEngine.Resource

/-! # Record envelopes, verified records and their sequence

    Every record starts with a 32-byte envelope: sync bytes, type, flags,
    extension length, payload length, sequence number, the CRC-32C of those 24
    bytes, and the CRC-32C of extension and payload.  Only `verifyRecord`
    makes a `VerifiedRecord`, and the tracker accepts verified records in
    order. -/

namespace ShiboriRecord

open ShiboriError ShiboriIntegrity ShiboriEndian ShiboriResource Spans

/-- The bytes of an envelope. -/
def recordEnvelopeSize : Nat := 32

/-- The flag of a record that readers must understand. -/
def recordMandatoryFlag : UInt8 := 0x01

/-- The flags that format 1 keeps at zero. -/
def recordReservedFlags : UInt8 := 0xfe

/-- `SHR1`. -/
def recordSync : List UInt8 := [0x53, 0x48, 0x52, 0x31]

/-- The enumeration's underlying byte: every byte is representable, known or
    not. -/
structure RecordType where
  value : UInt8
deriving DecidableEq, Repr

namespace RecordType

/-- The type of a file header. -/
def fileHeader : RecordType := ⟨0x01⟩

/-- The type of a schema. -/
def schema : RecordType := ⟨0x02⟩

/-- The type of a block of data. -/
def dataBlock : RecordType := ⟨0x03⟩

/-- The type of an index of blocks. -/
def blockIndex : RecordType := ⟨0x04⟩

/-- The type of a file footer. -/
def fileFooter : RecordType := ⟨0x05⟩

/-- The type of user metadata. -/
def userMetadata : RecordType := ⟨0x06⟩

end RecordType

/-- The types of format 1. -/
def isKnownRecordType (type : RecordType) : Bool :=
  type = .fileHeader || type = .schema || type = .dataBlock
    || type = .blockIndex || type = .fileFooter || type = .userMetadata

/-- What an envelope says of its record. -/
structure RecordEnvelope where
  type : RecordType
  flags : UInt8
  extensionLength : UInt16
  payloadLength : UInt64
  sequence : UInt64
  payloadChecksum : Crc32c
deriving DecidableEq, Repr

/-- Readers must understand the record. -/
def RecordEnvelope.mandatory (self : RecordEnvelope) : Bool :=
  self.flags &&& recordMandatoryFlag ≠ 0

/-- The longest extension and payload a reader takes. -/
structure RecordEnvelopeLimits where
  maximumExtensionLength : UInt16
  maximumPayloadLength : UInt64
deriving DecidableEq, Repr

/-- The fields in place, then their checksum and that of the payload. -/
def encodeRecordEnvelope (envelope : RecordEnvelope) : Result (List UInt8) :=
  if envelope.flags &&& recordReservedFlags ≠ 0 then
    fail .invalidRecord .encode
      "record envelope uses reserved format 1 flag bits"
  else
    let output := List.replicate recordEnvelopeSize 0
    let output := overwrite output 0 recordSync
    let output := output.set 4 envelope.type.value
    let output := output.set 5 envelope.flags
    let output := overwrite output 6 (encodeU16Le envelope.extensionLength)
    let output := overwrite output 8 (encodeU64Le envelope.payloadLength)
    let output := overwrite output 16 (encodeU64Le envelope.sequence)
    let checksum := (Crc32cHasher.create .portable).update (output.take 24)
    let output := overwrite output 24 checksum.finalize.littleEndianBytes
    .ok (overwrite output 28 envelope.payloadChecksum.littleEndianBytes)

/-- The checks in the order of the source. -/
def parseRecordEnvelope (bytes : List UInt8) (limits : RecordEnvelopeLimits) :
    Result RecordEnvelope :=
  if h : bytes.length < recordEnvelopeSize then
    fail .unexpectedEnd .parse "record envelope is truncated"
  else
    have hsize : 32 ≤ bytes.length := Nat.not_lt.mp h
    if bytes.take 4 ≠ recordSync then
      fail .invalidMagic .parse "record envelope sync does not match SHR1"
    else
      let flags := bytes[5]
      if flags &&& recordReservedFlags ≠ 0 then
        fail .invalidRecord .parse
          "record envelope uses reserved format 1 flag bits"
      else do
        let extensionLength ←
          decodeU16Le (subspan bytes 6 2) .parse "record extension length"
        let payloadLength ←
          decodeU64Le (subspan bytes 8 8) .parse "record payload length"
        let sequence ←
          decodeU64Le (subspan bytes 16 8) .parse "record sequence"
        if extensionLength > limits.maximumExtensionLength then
          fail .limitExceeded .parse
            "record extension length exceeds the configured limit"
        else if payloadLength > limits.maximumPayloadLength then
          fail .limitExceeded .parse
            "record payload length exceeds the configured limit"
        else do
          let contentLength ← checkedAdd extensionLength.toUInt64
            payloadLength .parse "record content length"
          let _ ← checkedAdd (UInt64.ofNat recordEnvelopeSize) contentLength
            .parse "complete record length"
          let storedChecksum := Crc32c.fromLittleEndian (subspan bytes 24 4)
            (subspan_length (by omega))
          let checksum :=
            (Crc32cHasher.create .portable).update (bytes.take 24)
          if storedChecksum ≠ checksum.finalize then
            fail .checksumMismatch .parse
              "record envelope CRC32C does not match"
          else
            .ok
              { type := ⟨bytes[4]⟩
                flags := flags
                extensionLength := extensionLength
                payloadLength := payloadLength
                sequence := sequence
                payloadChecksum :=
                  Crc32c.fromLittleEndian (subspan bytes 28 4)
                    (subspan_length (by omega)) }

/-! ## Verification -/

/-- An envelope whose content was checked; made by `verifyRecord` only. -/
structure VerifiedRecord where
  envelope : RecordEnvelope
deriving DecidableEq, Repr

/-- The envelope, then the lengths of the content and its checksum. -/
def verifyRecord (envelopeBytes extension payload : List UInt8)
    (limits : RecordEnvelopeLimits) : Result VerifiedRecord := do
  let envelope ← parseRecordEnvelope envelopeBytes limits
  if extension.length ≠ envelope.extensionLength.toNat
      ∨ payload.length ≠ envelope.payloadLength.toNat then
    fail .invalidRecord .verify
      "record content does not match the envelope lengths"
  else
    let checksum := Crc32cHasher.create .portable
    let checksum := checksum.update extension
    let checksum := checksum.update payload
    if checksum.finalize ≠ envelope.payloadChecksum then
      fail .checksumMismatch .verify "record payload CRC32C does not match"
    else .ok { envelope := envelope }

/-! ## The sequence tracker -/

/-- What to do with a record. -/
inductive RecordDisposition where
  | process
  | skip
deriving DecidableEq, Repr

/-- The sequence number that is expected next. -/
structure RecordSequenceTracker where
  expectedSequence : UInt64 := 0
deriving DecidableEq, Repr

/-- A record in sequence is processed or skipped, or refused as unsupported.
    -/
def RecordSequenceTracker.accept (self : RecordSequenceTracker)
    (record : VerifiedRecord) :
    Result RecordDisposition × RecordSequenceTracker :=
  let envelope := record.envelope
  if envelope.sequence ≠ self.expectedSequence then
    (fail .invalidRecord .parse
      "record sequence does not match the expected value", self)
  else if !isKnownRecordType envelope.type && envelope.mandatory then
    (.error (Error.withComponentId
      { code := .unsupportedFeature, operation := .parse,
        message := "unknown mandatory record type" }
      envelope.type.value.toUInt32), self)
  else
    match checkedAdd self.expectedSequence 1 .parse "next record sequence" with
    | .error error => (.error error, self)
    | .ok nextSequence =>
        (.ok (if isKnownRecordType envelope.type then .process else .skip),
          { self with expectedSequence := nextSequence })

/-- A parsed envelope whose content has the declared lengths is judged by the
    content checksum. -/
theorem verifyRecord_of_parse {env ext pay : List UInt8}
    {limits : RecordEnvelopeLimits} {e : RecordEnvelope}
    (hparse : parseRecordEnvelope env limits = .ok e)
    (hext : ext.length = e.extensionLength.toNat)
    (hpay : pay.length = e.payloadLength.toNat) :
    verifyRecord env ext pay limits
      = if crc32c (ext ++ pay) ≠ e.payloadChecksum then
          fail .checksumMismatch .verify "record payload CRC32C does not match"
        else .ok { envelope := e } := by
  have hlens : ¬ (ext.length ≠ e.extensionLength.toNat
      ∨ pay.length ≠ e.payloadLength.toNat) := by
    rintro (h | h)
    · exact h hext
    · exact h hpay
  rw [verifyRecord, hparse]
  show (if _ then _ else _) = _
  rw [if_neg hlens, ← finalize_update_update]

/-- **VERIFICATION**: a verified record is a parsed envelope whose lengths and
    checksum fit the content. -/
theorem verifyRecord_eq_ok {env ext pay : List UInt8}
    {limits : RecordEnvelopeLimits} {record : VerifiedRecord} :
    verifyRecord env ext pay limits = .ok record
      ↔ parseRecordEnvelope env limits = .ok record.envelope
        ∧ ext.length = record.envelope.extensionLength.toNat
        ∧ pay.length = record.envelope.payloadLength.toNat
        ∧ crc32c (ext ++ pay) = record.envelope.payloadChecksum := by
  constructor
  · intro h
    -- Parse, lengths and checksum are tested in this order.
    obtain ⟨e, hparse, htests⟩ := bind_eq_ok.mp h
    by_cases hlens : ext.length ≠ e.extensionLength.toNat
        ∨ pay.length ≠ e.payloadLength.toNat
    · rw [if_pos hlens] at htests
      exact (fail_ne_ok _ _ _ _ htests).elim
    obtain ⟨hext, hpay⟩ := not_or.mp hlens
    rw [verifyRecord_of_parse hparse (not_not.mp hext) (not_not.mp hpay)] at h
    by_cases hsum : crc32c (ext ++ pay) ≠ e.payloadChecksum
    · rw [if_pos hsum] at h
      exact (fail_ne_ok _ _ _ _ h).elim
    rw [if_neg hsum] at h
    cases h
    exact ⟨hparse, not_not.mp hext, not_not.mp hpay, not_not.mp hsum⟩
  · rintro ⟨hparse, hext, hpay, hsum⟩
    rw [verifyRecord_of_parse hparse hext hpay, if_neg (not_not.mpr hsum)]

/-! ## Layout -/

/-- The 24 covered bytes of an envelope, field by field. -/
def envelopeHead (e : RecordEnvelope) : List UInt8 :=
  recordSync ++ ([e.type.value] ++ ([e.flags]
    ++ (encodeU16Le e.extensionLength ++ (encodeU64Le e.payloadLength
      ++ encodeU64Le e.sequence))))

/-- All 32 bytes of an envelope. -/
def envelopeBytes (e : RecordEnvelope) : List UInt8 :=
  envelopeHead e ++ ((crc32c (envelopeHead e)).littleEndianBytes
    ++ e.payloadChecksum.littleEndianBytes)

/-- The checksum covers 24 bytes. -/
@[simp] theorem envelopeHead_length (e : RecordEnvelope) :
    (envelopeHead e).length = 24 := rfl

/-- An envelope has its size. -/
@[simp] theorem envelopeBytes_length (e : RecordEnvelope) :
    (envelopeBytes e).length = 32 := rfl

/-- The encoder refuses reserved flags and lays out every other envelope. -/
theorem encodeRecordEnvelope_eq (e : RecordEnvelope) :
    encodeRecordEnvelope e
      = if e.flags &&& recordReservedFlags ≠ 0 then
          fail .invalidRecord .encode
            "record envelope uses reserved format 1 flag bits"
        else .ok (envelopeBytes e) := by
  rw [encodeRecordEnvelope]
  rfl

/-- Encoding succeeds exactly without reserved flags. -/
theorem encodeRecordEnvelope_eq_ok {e : RecordEnvelope} {out : List UInt8} :
    encodeRecordEnvelope e = .ok out
      ↔ e.flags &&& recordReservedFlags = 0 ∧ out = envelopeBytes e := by
  rw [encodeRecordEnvelope_eq]
  by_cases h : e.flags &&& recordReservedFlags = 0
  · rw [if_neg (not_not.mpr h)]
    exact ⟨fun hc => ⟨h, (Except.ok.inj hc).symm⟩, fun hc => by rw [hc.2]⟩
  · rw [if_pos h]
    exact ⟨fun hc => (fail_ne_ok _ _ _ _ hc).elim, fun hc => (h hc.1).elim⟩

/-- The fields of a 32-byte prefix are read where the encoder puts them. -/
theorem take_eq_envelopeBytes_iff {bytes : List UInt8} {e : RecordEnvelope} :
    bytes.take 32 = envelopeBytes e
      ↔ bytes.take 4 = recordSync ∧ subspan bytes 4 1 = [e.type.value]
        ∧ subspan bytes 5 1 = [e.flags]
        ∧ subspan bytes 6 2 = encodeU16Le e.extensionLength
        ∧ subspan bytes 8 8 = encodeU64Le e.payloadLength
        ∧ subspan bytes 16 8 = encodeU64Le e.sequence
        ∧ subspan bytes 24 4 = (crc32c (bytes.take 24)).littleEndianBytes
        ∧ subspan bytes 28 4 = e.payloadChecksum.littleEndianBytes := by
  -- Cut the covered bytes field by field; the checksum covers what is before it.
  have hhead : bytes.take 24 = envelopeHead e
      ↔ bytes.take 4 = recordSync ∧ subspan bytes 4 1 = [e.type.value]
        ∧ subspan bytes 5 1 = [e.flags]
        ∧ subspan bytes 6 2 = encodeU16Le e.extensionLength
        ∧ subspan bytes 8 8 = encodeU64Le e.payloadLength
        ∧ subspan bytes 16 8 = encodeU64Le e.sequence := by
    rw [← subspan_zero, ← subspan_zero, envelopeHead]
    rw [subspan_eq_append_iff (a := 4) (b := 20) rfl]
    rw [subspan_eq_append_iff (a := 1) (b := 19) rfl]
    rw [subspan_eq_append_iff (a := 1) (b := 18) rfl]
    rw [subspan_eq_append_iff (a := 2) (b := 16) rfl]
    rw [subspan_eq_append_iff (a := 8) (b := 8) rfl]
  have hall : bytes.take 32 = envelopeBytes e
      ↔ bytes.take 24 = envelopeHead e
        ∧ subspan bytes 24 4
          = (crc32c (envelopeHead e)).littleEndianBytes
        ∧ subspan bytes 28 4 = e.payloadChecksum.littleEndianBytes := by
    rw [← subspan_zero, ← subspan_zero, envelopeBytes]
    rw [subspan_eq_append_iff (a := 24) (b := 8) rfl]
    rw [subspan_eq_append_iff (a := 4) (b := 4) rfl]
  rw [hall]
  constructor
  · rintro ⟨hh, hc, hp⟩
    rw [← hh] at hc
    obtain ⟨h1, h2, h3, h4, h5, h6⟩ := hhead.mp hh
    exact ⟨h1, h2, h3, h4, h5, h6, hc, hp⟩
  · rintro ⟨h1, h2, h3, h4, h5, h6, hc, hp⟩
    have hh := hhead.mpr ⟨h1, h2, h3, h4, h5, h6⟩
    rw [hh] at hc
    exact ⟨hh, hc, hp⟩

end ShiboriRecord
