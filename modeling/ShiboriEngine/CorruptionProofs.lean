import Mathlib
import ShiboriEngine.Preamble
import ShiboriEngine.RecordCodecProofs

/-! # Corruption of up to four consecutive bytes is detected

    Data followed by its stored CRC-32C is a codeword: the table walk over
    both ends in one fixed residue.  Two codewords never differ within a
    window of four bytes, wherever the window lies, so a damaged preamble,
    envelope or content is never taken for a sound one. -/

namespace ShiboriCorruption

open ShiboriError ShiboriIntegrity ShiboriEndian ShiboriPreamble
open ShiboriRecord ShiboriRecordCodec Spans Words

/-! ## Codewords -/

/-- The walk over data and stored checksum ends in the residue of the final
    inversion. -/
def IsCodeword (bytes : List UInt8) : Prop :=
  ReflectedCrc.update crc32cPolynomial.toBitVec (0xffffffff : UInt32).toBitVec
      bytes
    = ReflectedCrc.bitSteps crc32cPolynomial.toBitVec 32
        (0xffffffff : UInt32).toBitVec

/-- The checksum is the reference update with the masks around it. -/
theorem crc32c_toBitVec (bytes : List UInt8) :
    (crc32c bytes).value.toBitVec
      = ReflectedCrc.update crc32cPolynomial.toBitVec
          (0xffffffff : UInt32).toBitVec bytes
        ^^^ (0xffffffff : UInt32).toBitVec := by
  rw [crc32c, UInt32.toBitVec_xor, portableCrc32cUpdate_toBitVec]

/-- Appending four bytes gives a codeword exactly when they are the stored
    checksum of the data. -/
theorem isCodeword_append_iff {data check : List UInt8}
    (hlen : check.length = 4) :
    IsCodeword (data ++ check) ↔ check = (crc32c data).littleEndianBytes := by
  -- Four bytes fill the register, so nothing of the stored value is cut off.
  have hbound : ofLittleEndian check < 2 ^ 32 := by
    have hlt := ofLittleEndian_lt check
    rw [hlen] at hlt
    exact hlt
  rw [IsCodeword, ReflectedCrc.update_append,
    ReflectedCrc.update_check_iff _ crc32cPolynomial_top _ _ (by rw [hlen]),
    ← fromLittleEndian_eq_iff check hlen, ← crc32c_toBitVec]
  constructor
  · intro h
    have hnat := congrArg BitVec.toNat h
    rw [ReflectedCrc.wordOf, BitVec.toNat_ofNat, Nat.mod_eq_of_lt hbound] at hnat
    have hvalue : (Crc32c.fromLittleEndian check hlen).value
        = (crc32c data).value := by
      apply UInt32.toNat_inj.mp
      rw [fromLittleEndian_toNat]
      exact hnat
    show Crc32c.mk _ = Crc32c.mk _
    exact congrArg Crc32c.mk hvalue
  · intro h
    apply BitVec.eq_of_toNat_eq
    rw [ReflectedCrc.wordOf, BitVec.toNat_ofNat, Nat.mod_eq_of_lt hbound, ← h]
    exact (fromLittleEndian_toNat check hlen).symm

/-- **WINDOWS**: the walk separates byte strings that differ within four
    bytes. -/
theorem update_ne_of_differs {xs ys : List UInt8} (s : BitVec 32)
    (h : DiffersWithin 4 xs ys) :
    ReflectedCrc.update crc32cPolynomial.toBitVec s xs
      ≠ ReflectedCrc.update crc32cPolynomial.toBitVec s ys := by
  obtain ⟨before, us, vs, after, rfl, rfl, hlen, hwidth, hne⟩ := h.split
  intro heq
  exact hne (ReflectedCrc.update_window_inj _ crc32cPolynomial_top s hlen
    (by omega) heq)

/-- Damage within four bytes breaks a codeword. -/
theorem not_isCodeword_of_differs {xs ys : List UInt8}
    (h : DiffersWithin 4 xs ys) (hx : IsCodeword xs) : ¬ IsCodeword ys :=
  fun hy => update_ne_of_differs _ h (hx.trans hy.symm)

/-- Contents that differ within four bytes have different checksums. -/
theorem crc32c_ne_of_differs {xs ys : List UInt8}
    (h : DiffersWithin 4 xs ys) : crc32c xs ≠ crc32c ys := by
  intro heq
  have hbits := congrArg (fun c => c.value.toBitVec) heq
  rw [crc32c_toBitVec, crc32c_toBitVec] at hbits
  exact update_ne_of_differs _ h ((BitVec.xor_left_inj _).mp hbits)

/-! ## The preamble -/

/-- A preamble passes its check exactly when it is a codeword. -/
theorem preambleChecked_iff {bytes : List UInt8} (hlen : bytes.length = 16) :
    PreambleChecked bytes ↔ IsCodeword bytes := by
  have hcut : bytes = bytes.take 12 ++ subspan bytes 12 4 := by
    have hadd := subspan_add bytes 0 12 4
    rw [subspan_zero, subspan_zero, List.take_of_length_le (by omega)] at hadd
    exact hadd
  have hstored : (subspan bytes 12 4).length = 4 :=
    subspan_length (Nat.le_of_eq hlen.symm)
  rw [PreambleChecked, ← isCodeword_append_iff hstored, ← hcut]

/-- The encoder's preamble is a codeword. -/
theorem encodeFilePreamble_codeword (major minor : UInt16) :
    IsCodeword (encodeFilePreamble major minor) := by
  rw [encodeFilePreamble_eq]
  exact (isCodeword_append_iff rfl).mpr rfl

/-- A damaged preamble is refused for its magic or its checksum. -/
theorem parseFilePreamble_of_damage {minor : UInt16} {bytes : List UInt8}
    (h : DiffersWithin 4 (encodeFilePreamble currentFormatMajor minor) bytes) :
    codeOf (parseFilePreamble bytes) = some .invalidMagic
      ∨ codeOf (parseFilePreamble bytes) = some .checksumMismatch := by
  have hlen : bytes.length = 16 := h.length_eq.symm
  -- The version is only looked at once the checksum matches, so damage to it
  -- is reported as a mismatch.
  by_cases hmagic : bytes.take 8 = fileMagic
  · right
    refine parseFilePreamble_checksum (Nat.le_of_eq hlen.symm) hmagic ?_
    rw [preambleChecked_iff hlen]
    exact not_isCodeword_of_differs h (encodeFilePreamble_codeword _ _)
  · left
    exact parseFilePreamble_magic (Nat.le_of_eq hlen.symm) hmagic

/-! ## The envelope -/

/-- The first 28 bytes of an envelope: the fields and their checksum. -/
def sealedHead (e : RecordEnvelope) : List UInt8 :=
  envelopeHead e ++ (crc32c (envelopeHead e)).littleEndianBytes

/-- The head and its checksum take 28 bytes. -/
theorem sealedHead_length (e : RecordEnvelope) :
    (sealedHead e).length = 28 := rfl

/-- The head and its checksum are a codeword. -/
theorem sealedHead_codeword (e : RecordEnvelope) :
    IsCodeword (sealedHead e) :=
  (isCodeword_append_iff rfl).mpr rfl

/-- The checksum of the payload comes last. -/
theorem envelopeBytes_eq_sealedHead (e : RecordEnvelope) :
    envelopeBytes e = sealedHead e ++ e.payloadChecksum.littleEndianBytes :=
  (List.append_assoc _ _ _).symm

/-- Two envelopes with one payload checksum never differ within four bytes. -/
theorem envelopeBytes_not_differ {e e' : RecordEnvelope}
    (hsum : e.payloadChecksum = e'.payloadChecksum) :
    ¬ DiffersWithin 4 (envelopeBytes e) (envelopeBytes e') := by
  intro h
  rw [envelopeBytes_eq_sealedHead, envelopeBytes_eq_sealedHead, hsum] at h
  have hhead : DiffersWithin 4 (sealedHead e) (sealedHead e') :=
    DiffersWithin.of_append (by rw [sealedHead_length, sealedHead_length]) h
  exact not_isCodeword_of_differs hhead (sealedHead_codeword e)
    (sealedHead_codeword e')

/-- A record with a damaged envelope is refused. -/
theorem verifyRecord_of_envelope_damage {env env' ext pay : List UInt8}
    {limits limits' : RecordEnvelopeLimits} {record : VerifiedRecord}
    (hok : verifyRecord env ext pay limits = .ok record)
    (h : DiffersWithin 4 (env.take 32) (env'.take 32)) :
    ∃ err, verifyRecord env' ext pay limits' = .error err := by
  cases hverify : verifyRecord env' ext pay limits' with
  | error err => exact ⟨err, rfl⟩
  | ok record' =>
      exfalso
      obtain ⟨hparse, _, _, hsum⟩ := verifyRecord_eq_ok.mp hok
      obtain ⟨hparse', _, _, hsum'⟩ := verifyRecord_eq_ok.mp hverify
      rw [(parseRecordEnvelope_eq_ok.mp hparse).2.1,
        (parseRecordEnvelope_eq_ok.mp hparse').2.1] at h
      -- Both envelopes carry the checksum of the one content, so they can only
      -- differ in their sealed heads.
      exact envelopeBytes_not_differ (hsum.symm.trans hsum') h

/-! ## The content -/

/-- A record with damaged content is refused. -/
theorem verifyRecord_of_content_damage {env ext pay ext' pay' : List UInt8}
    {limits : RecordEnvelopeLimits} {record : VerifiedRecord}
    (hok : verifyRecord env ext pay limits = .ok record)
    (hext : ext'.length = ext.length) (hpay : pay'.length = pay.length)
    (h : DiffersWithin 4 (ext ++ pay) (ext' ++ pay')) :
    codeOf (verifyRecord env ext' pay' limits) = some .checksumMismatch := by
  obtain ⟨hparse, hext0, hpay0, hsum⟩ := verifyRecord_eq_ok.mp hok
  have hne : crc32c (ext' ++ pay') ≠ record.envelope.payloadChecksum := by
    rw [← hsum]
    exact (crc32c_ne_of_differs h).symm
  rw [verifyRecord_of_parse hparse (hext.trans hext0) (hpay.trans hpay0),
    if_pos hne]
  rfl

/-- **CORRUPTION IS DETECTED** in the preamble, the envelope and the
    content. -/
theorem framing_detects_corruption :
    (∀ minor bytes,
      DiffersWithin 4 (encodeFilePreamble currentFormatMajor minor) bytes
        → codeOf (parseFilePreamble bytes) = some .invalidMagic
          ∨ codeOf (parseFilePreamble bytes) = some .checksumMismatch)
    ∧ (∀ env env' ext pay limits limits' record,
        verifyRecord env ext pay limits = .ok record
        → DiffersWithin 4 (env.take recordEnvelopeSize)
            (env'.take recordEnvelopeSize)
        → ∃ err, verifyRecord env' ext pay limits' = .error err)
    ∧ (∀ env ext pay ext' pay' limits record,
        verifyRecord env ext pay limits = .ok record
        → ext'.length = ext.length → pay'.length = pay.length
        → DiffersWithin 4 (ext ++ pay) (ext' ++ pay')
        → codeOf (verifyRecord env ext' pay' limits)
          = some .checksumMismatch) := by
  refine ⟨?_, ?_, ?_⟩
  · intro minor bytes h
    exact parseFilePreamble_of_damage h
  · intro env env' ext pay limits limits' record hok h
    exact verifyRecord_of_envelope_damage hok h
  · intro env ext pay ext' pay' limits record hok hext hpay h
    exact verifyRecord_of_content_damage hok hext hpay h

end ShiboriCorruption
