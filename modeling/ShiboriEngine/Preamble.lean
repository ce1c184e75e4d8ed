import Mathlib
import ShiboriEngine.Integrity
import ShiboriEngine.Endian

/-! # The file preamble

    Sixteen bytes: the magic, a major and a minor version, and the CRC-32C of
    the twelve bytes before it.  Parsing tests the length, the magic, the
    checksum and the major version, in that order. -/

namespace ShiboriPreamble

open ShiboriError ShiboriIntegrity ShiboriEndian Spans

/-- The bytes of a preamble. -/
def filePreambleSize : Nat := 16

/-- The format that is written and read. -/
def currentFormatMajor : UInt16 := 1

/-- `SHIBORI` and a zero byte. -/
def fileMagic : List UInt8 :=
  [0x53, 0x48, 0x49, 0x42, 0x4f, 0x52, 0x49, 0x00]

/-- What a preamble says. -/
structure FilePreamble where
  major : UInt16
  minor : UInt16
  checksum : Crc32c
deriving DecidableEq, Repr

/-- Magic, version, and the checksum of both. -/
def encodeFilePreamble (major minor : UInt16) : List UInt8 :=
  let output := List.replicate filePreambleSize 0
  let output := overwrite output 0 fileMagic
  let output := overwrite output 8 (encodeU16Le major)
  let output := overwrite output 10 (encodeU16Le minor)
  let checksum := (Crc32cHasher.create .portable).update (output.take 12)
  overwrite output 12 checksum.finalize.littleEndianBytes

/-- The checks in the order of the source. -/
def parseFilePreamble (bytes : List UInt8) : Result FilePreamble :=
  if h : bytes.length < filePreambleSize then
    fail .unexpectedEnd .parse "file preamble is truncated"
  else if bytes.take 8 ≠ fileMagic then
    fail .invalidMagic .parse "file preamble magic does not match SHIBORI"
  else do
    let major ← decodeU16Le (subspan bytes 8 2) .parse "major version"
    let minor ← decodeU16Le (subspan bytes 10 2) .parse "minor version"
    let storedChecksum := Crc32c.fromLittleEndian (subspan bytes 12 4)
      (subspan_length (Nat.not_lt.mp h))
    let checksum := (Crc32cHasher.create .portable).update (bytes.take 12)
    if storedChecksum ≠ checksum.finalize then
      fail .checksumMismatch .parse "file preamble CRC32C does not match"
    else if major ≠ currentFormatMajor then
      fail .unsupportedFormatVersion .parse
        "file preamble uses an unsupported major version"
    else
      .ok { major := major, minor := minor, checksum := storedChecksum }

/-- The covered bytes: everything before the checksum. -/
def preambleHead (major minor : UInt16) : List UInt8 :=
  fileMagic ++ encodeU16Le major ++ encodeU16Le minor

/-- The checksum covers twelve bytes. -/
@[simp] theorem preambleHead_length (major minor : UInt16) :
    (preambleHead major minor).length = 12 := rfl

/-- The encoder lays the fields out in order, then their checksum. -/
theorem encodeFilePreamble_eq (major minor : UInt16) :
    encodeFilePreamble major minor
      = preambleHead major minor
        ++ (crc32c (preambleHead major minor)).littleEndianBytes := rfl

/-- A preamble has its size. -/
@[simp] theorem encodeFilePreamble_length (major minor : UInt16) :
    (encodeFilePreamble major minor).length = 16 := rfl

/-- The stored checksum of sixteen bytes matches the twelve before it. -/
def PreambleChecked (bytes : List UInt8) : Prop :=
  subspan bytes 12 4 = (crc32c (bytes.take 12)).littleEndianBytes

/-! ## The parser's branches, in order -/

/-- Fewer bytes than a preamble are truncated. -/
theorem parseFilePreamble_short {bytes : List UInt8}
    (hlen : bytes.length < 16) :
    codeOf (parseFilePreamble bytes) = some .unexpectedEnd := by
  have hsize : bytes.length < filePreambleSize := hlen
  rw [parseFilePreamble, dif_pos hsize]
  rfl

/-- Then the magic is looked at. -/
theorem parseFilePreamble_magic {bytes : List UInt8}
    (hlen : 16 ≤ bytes.length) (hmagic : bytes.take 8 ≠ fileMagic) :
    codeOf (parseFilePreamble bytes) = some .invalidMagic := by
  have hsize : ¬ bytes.length < filePreambleSize := Nat.not_lt.mpr hlen
  rw [parseFilePreamble, dif_neg hsize, if_pos hmagic]
  rfl

/-- Past the length and the magic, only the two tests are left. -/
theorem parseFilePreamble_body {bytes : List UInt8} {major minor : UInt16}
    (hlen : 16 ≤ bytes.length) (hmagic : bytes.take 8 = fileMagic)
    (hmajor : subspan bytes 8 2 = encodeU16Le major)
    (hminor : subspan bytes 10 2 = encodeU16Le minor) :
    parseFilePreamble bytes
      = let storedChecksum :=
          Crc32c.fromLittleEndian (subspan bytes 12 4) (subspan_length hlen)
        if storedChecksum ≠ crc32c (bytes.take 12) then
          fail .checksumMismatch .parse "file preamble CRC32C does not match"
        else if major ≠ currentFormatMajor then
          fail .unsupportedFormatVersion .parse
            "file preamble uses an unsupported major version"
        else
          .ok { major := major, minor := minor, checksum := storedChecksum } := by
  have hsize : ¬ bytes.length < filePreambleSize := Nat.not_lt.mpr hlen
  rw [parseFilePreamble, dif_neg hsize, if_neg (not_not.mpr hmagic), hmajor,
    hminor, decodeU16Le_encode, decodeU16Le_encode]
  rfl

/-- Both versions of a long enough input can be read. -/
theorem exists_versions {bytes : List UInt8} (hlen : 16 ≤ bytes.length) :
    ∃ major minor, subspan bytes 8 2 = encodeU16Le major
      ∧ subspan bytes 10 2 = encodeU16Le minor := by
  obtain ⟨major, hmajor⟩ := exists_encodeU16Le
    (subspan_length (by omega : 8 + 2 ≤ bytes.length))
  obtain ⟨minor, hminor⟩ := exists_encodeU16Le
    (subspan_length (by omega : 10 + 2 ≤ bytes.length))
  exact ⟨major, minor, hmajor, hminor⟩

/-- Then the checksum is. -/
theorem parseFilePreamble_checksum {bytes : List UInt8}
    (hlen : 16 ≤ bytes.length) (hmagic : bytes.take 8 = fileMagic)
    (hcheck : ¬ PreambleChecked bytes) :
    codeOf (parseFilePreamble bytes) = some .checksumMismatch := by
  obtain ⟨major, minor, hmajor, hminor⟩ := exists_versions hlen
  rw [parseFilePreamble_body hlen hmagic hmajor hminor]
  -- whatever the major version is: the checksum is tested before it
  have hstored : Crc32c.fromLittleEndian (subspan bytes 12 4)
      (subspan_length hlen) ≠ crc32c (bytes.take 12) :=
    fun h => hcheck ((fromLittleEndian_eq_iff _ _ _).mp h)
  show codeOf (if _ then _ else _) = _
  rw [if_pos hstored]
  rfl

/-- A checked preamble is judged by its major version alone. -/
theorem parseFilePreamble_checked {bytes : List UInt8} {major minor : UInt16}
    (hlen : 16 ≤ bytes.length) (hmagic : bytes.take 8 = fileMagic)
    (hmajor : subspan bytes 8 2 = encodeU16Le major)
    (hminor : subspan bytes 10 2 = encodeU16Le minor)
    (hcheck : PreambleChecked bytes) :
    parseFilePreamble bytes
      = if major ≠ currentFormatMajor then
          fail .unsupportedFormatVersion .parse
            "file preamble uses an unsupported major version"
        else .ok { major := major, minor := minor,
                   checksum := crc32c (bytes.take 12) } := by
  have hstored : Crc32c.fromLittleEndian (subspan bytes 12 4)
      (subspan_length hlen) = crc32c (bytes.take 12) :=
    (fromLittleEndian_eq_iff _ _ _).mpr hcheck
  rw [parseFilePreamble_body hlen hmagic hmajor hminor, hstored]
  exact if_neg (not_not.mpr rfl)

end ShiboriPreamble
