import Mathlib
import ShiboriEngine.Preamble

/-! # The verdict on a preamble

    An input either is too short, or starts with the preamble of exactly one
    pair of versions, or starts with none.  `startsWithPreamble_iff` cuts the
    middle case into the four tests the parser makes, and the verdict is read
    off from there: the parser reports a version only for bytes the encoder
    writes for it. -/

namespace ShiboriPreambleVerdict

open ShiboriError ShiboriIntegrity ShiboriEndian ShiboriPreamble Spans

/-- The first sixteen bytes are the preamble of the two versions. -/
def StartsWithPreamble (bytes : List UInt8) (major minor : UInt16) : Prop :=
  bytes.take filePreambleSize = encodeFilePreamble major minor

/-! ## The parser's tests, one field at a time -/

/-- What starts with a preamble is as long as one. -/
theorem StartsWithPreamble.length_le {bytes : List UInt8}
    {major minor : UInt16} (h : StartsWithPreamble bytes major minor) :
    filePreambleSize ≤ bytes.length := by
  have hlen := congrArg List.length h
  rw [List.length_take, encodeFilePreamble_length] at hlen
  exact min_eq_left_iff.mp hlen

/-- The covered bytes are the magic and both versions. -/
private theorem take_head_iff {bytes : List UInt8} {major minor : UInt16} :
    bytes.take 12 = preambleHead major minor
      ↔ bytes.take 8 = fileMagic ∧ subspan bytes 8 2 = encodeU16Le major
        ∧ subspan bytes 10 2 = encodeU16Le minor := by
  have hmajor : (fileMagic ++ encodeU16Le major).length = 10 := rfl
  have hmagic : fileMagic.length = 8 := rfl
  rw [← subspan_zero, ← subspan_zero, preambleHead,
    subspan_eq_append_iff (a := 10) (b := 2) hmajor,
    subspan_eq_append_iff (a := 8) (b := 2) hmagic, and_assoc]

/-- **FIELD BY FIELD**: the encoder's bytes are the ones that pass the tests of
    the magic and of the checksum and hold the two versions. -/
theorem startsWithPreamble_iff {bytes : List UInt8} {major minor : UInt16} :
    StartsWithPreamble bytes major minor
      ↔ bytes.take 8 = fileMagic ∧ subspan bytes 8 2 = encodeU16Le major
        ∧ subspan bytes 10 2 = encodeU16Le minor ∧ PreambleChecked bytes := by
  have hhead := preambleHead_length major minor
  have hsplit : StartsWithPreamble bytes major minor
      ↔ bytes.take 12 = preambleHead major minor
        ∧ subspan bytes 12 4
          = (crc32c (preambleHead major minor)).littleEndianBytes := by
    rw [StartsWithPreamble, encodeFilePreamble_eq, ← subspan_zero,
      ← subspan_zero]
    exact subspan_eq_append_iff (a := 12) (b := 4) hhead
  rw [hsplit]
  constructor
  · rintro ⟨htake, hstored⟩
    obtain ⟨hmagic, hmajor, hminor⟩ := take_head_iff.mp htake
    refine ⟨hmagic, hmajor, hminor, ?_⟩
    rw [PreambleChecked, htake]
    exact hstored
  · rintro ⟨hmagic, hmajor, hminor, hcheck⟩
    have htake := take_head_iff.mpr ⟨hmagic, hmajor, hminor⟩
    rw [PreambleChecked, htake] at hcheck
    exact ⟨htake, hcheck⟩

/-- At most one pair of versions fits. -/
theorem StartsWithPreamble.unique {bytes : List UInt8}
    {major minor major' minor' : UInt16}
    (h : StartsWithPreamble bytes major minor)
    (h' : StartsWithPreamble bytes major' minor') :
    major = major' ∧ minor = minor' := by
  obtain ⟨_, hmajor, hminor, _⟩ := startsWithPreamble_iff.mp h
  obtain ⟨_, hmajor', hminor', _⟩ := startsWithPreamble_iff.mp h'
  exact ⟨encodeU16Le_inj (hmajor.symm.trans hmajor'),
    encodeU16Le_inj (hminor.symm.trans hminor')⟩

/-! ## The three kinds of input -/

/-- What the parser says of a preamble of the two versions. -/
theorem StartsWithPreamble.parse {bytes : List UInt8} {major minor : UInt16}
    (h : StartsWithPreamble bytes major minor) :
    parseFilePreamble bytes
      = if major ≠ currentFormatMajor then
          fail .unsupportedFormatVersion .parse
            "file preamble uses an unsupported major version"
        else .ok { major := major, minor := minor,
                   checksum := crc32c (bytes.take 12) } := by
  obtain ⟨hmagic, hmajor, hminor, hcheck⟩ := startsWithPreamble_iff.mp h
  exact parseFilePreamble_checked h.length_le hmagic hmajor hminor hcheck

/-- Long enough bytes that are no preamble fail the magic or the checksum. -/
theorem parse_of_no_preamble {bytes : List UInt8}
    (hlen : filePreambleSize ≤ bytes.length)
    (hnone : ∀ major minor, ¬ StartsWithPreamble bytes major minor) :
    codeOf (parseFilePreamble bytes) = some .invalidMagic
      ∨ codeOf (parseFilePreamble bytes) = some .checksumMismatch := by
  by_cases hmagic : bytes.take 8 = fileMagic
  · right
    refine parseFilePreamble_checksum hlen hmagic ?_
    intro hcheck
    -- any two bytes are some version, so only the checksum can be wrong
    obtain ⟨major, minor, hmajor, hminor⟩ := exists_versions hlen
    exact hnone major minor
      (startsWithPreamble_iff.mpr ⟨hmagic, hmajor, hminor, hcheck⟩)
  · left
    exact parseFilePreamble_magic hlen hmagic

/-- Every input is of one kind. -/
theorem input_cases (bytes : List UInt8) :
    bytes.length < filePreambleSize
      ∨ (∃ major minor, StartsWithPreamble bytes major minor)
      ∨ filePreambleSize ≤ bytes.length
        ∧ ∀ major minor, ¬ StartsWithPreamble bytes major minor := by
  rcases Nat.lt_or_ge bytes.length filePreambleSize with hshort | hlen
  · exact Or.inl hshort
  · by_cases hsome : ∃ major minor, StartsWithPreamble bytes major minor
    · exact Or.inr (Or.inl hsome)
    · refine Or.inr (Or.inr ⟨hlen, ?_⟩)
      intro major minor h
      exact hsome ⟨major, minor, h⟩

/-! ## The verdicts -/

/-- The stored checksum of a preamble is the one of its covered bytes. -/
theorem StartsWithPreamble.stored_eq {bytes : List UInt8}
    {major minor : UInt16} (h : StartsWithPreamble bytes major minor)
    (checksum : Crc32c) :
    checksum.littleEndianBytes = subspan bytes 12 4
      ↔ checksum = crc32c (bytes.take 12) := by
  have hcheck : subspan bytes 12 4
      = (crc32c (bytes.take 12)).littleEndianBytes :=
    (startsWithPreamble_iff.mp h).2.2.2
  rw [hcheck]
  constructor
  · intro heq
    have hread := (fromLittleEndian_eq_iff checksum.littleEndianBytes rfl
      (crc32c (bytes.take 12))).mpr heq
    rw [← hread]
    exact ((fromLittleEndian_eq_iff checksum.littleEndianBytes rfl
      checksum).mpr rfl).symm
  · intro heq
    rw [heq]

/-- What is accepted, and what is read. -/
theorem parse_eq_ok_iff (bytes : List UInt8) (preamble : FilePreamble) :
    parseFilePreamble bytes = .ok preamble
      ↔ filePreambleSize ≤ bytes.length
        ∧ bytes.take filePreambleSize = encodeFilePreamble 1 preamble.minor
        ∧ preamble.major = 1
        ∧ preamble.checksum.littleEndianBytes = subspan bytes 12 4 := by
  constructor
  · intro hok
    rcases input_cases bytes with hshort | ⟨major, minor, hstart⟩
      | ⟨hlen, hnone⟩
    · have hcode := parseFilePreamble_short hshort
      rw [hok] at hcode
      cases hcode
    · rw [hstart.parse] at hok
      by_cases hmajor : major = currentFormatMajor
      · rw [if_neg (not_not.mpr hmajor)] at hok
        cases hok
        subst hmajor
        exact ⟨hstart.length_le, hstart, rfl, (hstart.stored_eq _).mpr rfl⟩
      · rw [if_pos hmajor] at hok
        cases hok
    · rcases parse_of_no_preamble hlen hnone with hcode | hcode
      · rw [hok] at hcode
        cases hcode
      · rw [hok] at hcode
        cases hcode
  · rintro ⟨_, htake, hmajor, hsum⟩
    have hstart : StartsWithPreamble bytes 1 preamble.minor := htake
    obtain ⟨major, minor, checksum⟩ := preamble
    have hcurrent : (1 : UInt16) = currentFormatMajor := rfl
    rw [hstart.parse, if_neg (not_not.mpr hcurrent),
      ← (hstart.stored_eq checksum).mp hsum, ← hmajor]

/-- What is refused for its version. -/
theorem parse_unsupported_iff (bytes : List UInt8) :
    codeOf (parseFilePreamble bytes) = some .unsupportedFormatVersion
      ↔ ∃ major minor, major ≠ 1
        ∧ bytes.take filePreambleSize = encodeFilePreamble major minor := by
  constructor
  · intro hcode
    rcases input_cases bytes with hshort | ⟨major, minor, hstart⟩
      | ⟨hlen, hnone⟩
    · rw [parseFilePreamble_short hshort] at hcode
      cases hcode
    · refine ⟨major, minor, ?_, hstart⟩
      intro hmajor
      have hcurrent : major = currentFormatMajor := hmajor
      rw [hstart.parse, if_neg (not_not.mpr hcurrent)] at hcode
      cases hcode
    · rcases parse_of_no_preamble hlen hnone with hother | hother
      · rw [hother] at hcode
        cases hcode
      · rw [hother] at hcode
        cases hcode
  · rintro ⟨major, minor, hmajor, htake⟩
    have hstart : StartsWithPreamble bytes major minor := htake
    have hcurrent : major ≠ currentFormatMajor := hmajor
    rw [hstart.parse, if_pos hcurrent]
    rfl

/-- What is refused as truncated. -/
theorem parse_unexpectedEnd_iff (bytes : List UInt8) :
    codeOf (parseFilePreamble bytes) = some .unexpectedEnd
      ↔ bytes.length < filePreambleSize := by
  constructor
  · intro hcode
    rcases input_cases bytes with hshort | ⟨major, minor, hstart⟩
      | ⟨hlen, hnone⟩
    · exact hshort
    · rw [hstart.parse] at hcode
      by_cases hmajor : major = currentFormatMajor
      · rw [if_neg (not_not.mpr hmajor)] at hcode
        cases hcode
      · rw [if_pos hmajor] at hcode
        cases hcode
    · rcases parse_of_no_preamble hlen hnone with hother | hother
      · rw [hother] at hcode
        cases hcode
      · rw [hother] at hcode
        cases hcode
  · intro hshort
    exact parseFilePreamble_short hshort

/-- Bytes after the first sixteen never matter. -/
theorem parse_take (bytes : List UInt8) :
    parseFilePreamble (bytes.take filePreambleSize)
      = parseFilePreamble bytes := by
  rcases Nat.lt_or_ge bytes.length filePreambleSize with hshort | hlen
  · rw [List.take_of_length_le (Nat.le_of_lt hshort)]
  · have hcut : filePreambleSize ≤ (bytes.take filePreambleSize).length :=
      Nat.le_of_eq (List.length_take_of_le hlen).symm
    have hmagic : (bytes.take filePreambleSize).take 8 = bytes.take 8 := by
      rw [List.take_take]
      rfl
    by_cases h : bytes.take 8 = fileMagic
    · obtain ⟨major, minor, hmajor, hminor⟩ := exists_versions hlen
      have hhead : (bytes.take filePreambleSize).take 12 = bytes.take 12 := by
        rw [List.take_take]
        rfl
      have hstored : subspan (bytes.take filePreambleSize) 12 4
          = subspan bytes 12 4 := subspan_take (by decide)
      rw [parseFilePreamble_body hlen h hmajor hminor,
        parseFilePreamble_body hcut (hmagic.trans h)
          ((subspan_take (by decide)).trans hmajor)
          ((subspan_take (by decide)).trans hminor)]
      simp only [hhead, hstored]
    · have hother : (bytes.take filePreambleSize).take 8 ≠ fileMagic :=
        fun heq => h (hmagic.symm.trans heq)
      rw [parseFilePreamble, dif_neg (Nat.not_lt.mpr hcut), if_pos hother,
        parseFilePreamble, dif_neg (Nat.not_lt.mpr hlen), if_pos h]

/-- **EXACT CLASSIFICATION** of the inputs by the parser's verdict. -/
theorem parseFilePreamble_classification (bytes : List UInt8) :
    (∀ preamble, parseFilePreamble bytes = .ok preamble
      ↔ filePreambleSize ≤ bytes.length
        ∧ bytes.take filePreambleSize = encodeFilePreamble 1 preamble.minor
        ∧ preamble.major = 1
        ∧ preamble.checksum.littleEndianBytes = subspan bytes 12 4)
    ∧ (codeOf (parseFilePreamble bytes) = some .unsupportedFormatVersion
      ↔ ∃ major minor, major ≠ 1
        ∧ bytes.take filePreambleSize = encodeFilePreamble major minor)
    ∧ (codeOf (parseFilePreamble bytes) = some .unexpectedEnd
      ↔ bytes.length < filePreambleSize)
    ∧ (filePreambleSize ≤ bytes.length
      → (∀ major minor,
          bytes.take filePreambleSize ≠ encodeFilePreamble major minor)
      → codeOf (parseFilePreamble bytes) = some .invalidMagic
        ∨ codeOf (parseFilePreamble bytes) = some .checksumMismatch)
    ∧ ∀ bytes', bytes'.take filePreambleSize = bytes.take filePreambleSize
      → parseFilePreamble bytes' = parseFilePreamble bytes := by
  refine ⟨parse_eq_ok_iff bytes, parse_unsupported_iff bytes,
    parse_unexpectedEnd_iff bytes, ?_, ?_⟩
  · intro hlen hnone
    exact parse_of_no_preamble hlen hnone
  · intro bytes' htake
    rw [← parse_take bytes', htake, parse_take]

end ShiboriPreambleVerdict
