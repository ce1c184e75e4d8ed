import Mathlib
import ShiboriEngine.Record

/-! # The record envelope codec is exact

    The parser accepts a byte string as an envelope exactly when its first 32
    bytes are what the encoder writes for that envelope and the envelope is
    within the limits.  Injectivity, the round trip and re-encoding follow. -/

namespace ShiboriRecordCodec

open ShiboriError ShiboriIntegrity ShiboriEndian ShiboriResource
open ShiboriRecord Spans Words

/-! ## What the parser admits -/

/-- The limits of a parse, and the 64-bit range of the whole record. -/
structure WithinLimits (e : RecordEnvelope) (limits : RecordEnvelopeLimits) :
    Prop where
  extension : e.extensionLength ≤ limits.maximumExtensionLength
  payload : e.payloadLength ≤ limits.maximumPayloadLength
  total : 32 + e.extensionLength.toNat + e.payloadLength.toNat < 2 ^ 64

/-- Fewer bytes than an envelope are truncated. -/
theorem parseRecordEnvelope_short {bytes : List UInt8}
    {limits : RecordEnvelopeLimits} (hlen : bytes.length < 32) :
    codeOf (parseRecordEnvelope bytes limits) = some .unexpectedEnd := by
  have hsize : bytes.length < recordEnvelopeSize := hlen
  rw [parseRecordEnvelope, dif_pos hsize]
  rfl

/-- Then the sync bytes are looked at. -/
theorem parseRecordEnvelope_sync {bytes : List UInt8}
    {limits : RecordEnvelopeLimits} (hlen : 32 ≤ bytes.length)
    (hsync : bytes.take 4 ≠ recordSync) :
    codeOf (parseRecordEnvelope bytes limits) = some .invalidMagic := by
  have hsize : ¬ bytes.length < recordEnvelopeSize := Nat.not_lt.mpr hlen
  rw [parseRecordEnvelope, dif_neg hsize, if_pos hsync]
  rfl

/-- Then the reserved flags are. -/
theorem parseRecordEnvelope_flags {bytes : List UInt8}
    {limits : RecordEnvelopeLimits} (hlen : bytes.length ≥ 32)
    (hsync : bytes.take 4 = recordSync)
    (hflags : bytes[5] &&& recordReservedFlags ≠ 0) :
    codeOf (parseRecordEnvelope bytes limits) = some .invalidRecord := by
  have hsize : ¬ bytes.length < recordEnvelopeSize := Nat.not_lt.mpr hlen
  rw [parseRecordEnvelope, dif_neg hsize, if_neg (not_not.mpr hsync)]
  show codeOf (if _ then _ else _) = _
  rw [if_pos hflags]
  rfl

/-- Past the length, the sync bytes and the flags, the parser reads three
    integers and runs the limit, overflow and checksum tests on them. -/
theorem parseRecordEnvelope_body {bytes : List UInt8}
    {limits : RecordEnvelopeLimits} {ext : UInt16} {pay seq : UInt64}
    (hlen : bytes.length ≥ 32) (hsync : bytes.take 4 = recordSync)
    (hflags : bytes[5] &&& recordReservedFlags = 0)
    (hext : subspan bytes 6 2 = encodeU16Le ext)
    (hpay : subspan bytes 8 8 = encodeU64Le pay)
    (hseq : subspan bytes 16 8 = encodeU64Le seq) :
    parseRecordEnvelope bytes limits
      = if ext > limits.maximumExtensionLength then
          fail .limitExceeded .parse
            "record extension length exceeds the configured limit"
        else if pay > limits.maximumPayloadLength then
          fail .limitExceeded .parse
            "record payload length exceeds the configured limit"
        else (do
          let contentLength ← checkedAdd ext.toUInt64 pay .parse
            "record content length"
          let _ ← checkedAdd (UInt64.ofNat recordEnvelopeSize) contentLength
            .parse "complete record length"
          if Crc32c.fromLittleEndian (subspan bytes 24 4)
              (subspan_length (by omega)) ≠ crc32c (bytes.take 24) then
            fail .checksumMismatch .parse
              "record envelope CRC32C does not match"
          else
            .ok
              { type := ⟨bytes[4]⟩
                flags := bytes[5]
                extensionLength := ext
                payloadLength := pay
                sequence := seq
                payloadChecksum :=
                  Crc32c.fromLittleEndian (subspan bytes 28 4)
                    (subspan_length (by omega)) }) := by
  have hsize : ¬ bytes.length < recordEnvelopeSize := Nat.not_lt.mpr hlen
  rw [parseRecordEnvelope, dif_neg hsize, if_neg (not_not.mpr hsync)]
  show (if _ then _ else _) = _
  rw [if_neg (not_not.mpr hflags), hext, hpay, hseq, decodeU16Le_encode,
    decodeU64Le_encode, decodeU64Le_encode]
  rfl

/-- Two checked additions bound the whole record. -/
theorem checkedTotal_iff {ext : UInt16} {pay : UInt64} :
    (∃ content total,
      checkedAdd ext.toUInt64 pay .parse "record content length" = .ok content
        ∧ checkedAdd (UInt64.ofNat recordEnvelopeSize) content .parse
            "complete record length" = .ok total)
      ↔ 32 + ext.toNat + pay.toNat < 2 ^ 64 := by
  have hsize : (UInt64.ofNat recordEnvelopeSize).toNat = 32 := rfl
  have hext : ext.toUInt64.toNat = ext.toNat := UInt16.toNat_toUInt64 ext
  constructor
  · rintro ⟨content, total, hc, ht⟩
    obtain ⟨_, hcontent⟩ := checkedAdd_eq_ok.mp hc
    obtain ⟨hfit, _⟩ := checkedAdd_eq_ok.mp ht
    rw [hsize, hcontent, hext] at hfit
    omega
  · intro h
    have hc : (ext.toUInt64 + pay).toNat = ext.toNat + pay.toNat := by
      rw [toNat_add_of_lt (by rw [hext]; omega), hext]
    have ht : (UInt64.ofNat recordEnvelopeSize + (ext.toUInt64 + pay)).toNat
        = 32 + (ext.toNat + pay.toNat) := by
      rw [toNat_add_of_lt (by rw [hsize, hc]; omega), hsize, hc]
    refine ⟨ext.toUInt64 + pay,
      UInt64.ofNat recordEnvelopeSize + (ext.toUInt64 + pay),
      checkedAdd_eq_ok.mpr ⟨?_, ?_⟩, checkedAdd_eq_ok.mpr ⟨?_, ?_⟩⟩
    · rw [hext]; omega
    · rw [hc, hext]
    · rw [hsize, hc]; omega
    · rw [hsize, hc, ht]

/-! ## Exactness -/

/-- The three integers of a long enough input can be read. -/
theorem exists_integers {bytes : List UInt8} (hlen : 32 ≤ bytes.length) :
    ∃ ext pay seq, subspan bytes 6 2 = encodeU16Le ext
      ∧ subspan bytes 8 8 = encodeU64Le pay
      ∧ subspan bytes 16 8 = encodeU64Le seq := by
  obtain ⟨ext, hext⟩ := exists_encodeU16Le
    (subspan_length (by omega : 6 + 2 ≤ bytes.length))
  obtain ⟨pay, hpay⟩ := exists_encodeU64Le
    (subspan_length (by omega : 8 + 8 ≤ bytes.length))
  obtain ⟨seq, hseq⟩ := exists_encodeU64Le
    (subspan_length (by omega : 16 + 8 ≤ bytes.length))
  exact ⟨ext, pay, seq, hext, hpay, hseq⟩

/-- **ACCEPTANCE**: parsing succeeds with an envelope exactly on inputs that
    start with its 32 bytes, within the limits. -/
theorem parseRecordEnvelope_eq_ok {bytes : List UInt8}
    {limits : RecordEnvelopeLimits} {e : RecordEnvelope} :
    parseRecordEnvelope bytes limits = .ok e
      ↔ 32 ≤ bytes.length ∧ bytes.take 32 = envelopeBytes e
        ∧ e.flags &&& recordReservedFlags = 0 ∧ WithinLimits e limits := by
  constructor
  · intro h
    have hcode : codeOf (parseRecordEnvelope bytes limits) = none := by
      rw [h]; rfl
    have hlen : 32 ≤ bytes.length := by
      by_contra hc
      rw [parseRecordEnvelope_short (by omega)] at hcode
      cases hcode
    have hsync : bytes.take 4 = recordSync := by
      by_contra hc
      rw [parseRecordEnvelope_sync hlen hc] at hcode
      cases hcode
    have hflags : bytes[5] &&& recordReservedFlags = 0 := by
      by_contra hc
      rw [parseRecordEnvelope_flags hlen hsync hc] at hcode
      cases hcode
    obtain ⟨ext, pay, seq, hext, hpay, hseq⟩ := exists_integers hlen
    rw [parseRecordEnvelope_body hlen hsync hflags hext hpay hseq] at h
    by_cases he : ext > limits.maximumExtensionLength
    · rw [if_pos he] at h
      exact (fail_ne_ok _ _ _ _ h).elim
    by_cases hp : pay > limits.maximumPayloadLength
    · rw [if_neg he, if_pos hp] at h
      exact (fail_ne_ok _ _ _ _ h).elim
    rw [if_neg he, if_neg hp] at h
    obtain ⟨content, hcontent, h⟩ := bind_eq_ok.mp h
    obtain ⟨total, htotal, h⟩ := bind_eq_ok.mp h
    by_cases hcrc : Crc32c.fromLittleEndian (subspan bytes 24 4)
        (subspan_length (by omega)) ≠ crc32c (bytes.take 24)
    · rw [if_pos hcrc] at h
      exact (fail_ne_ok _ _ _ _ h).elim
    rw [if_neg hcrc] at h
    cases h
    have hstored := (fromLittleEndian_eq_iff _ _ _).mp (not_not.mp hcrc)
    have hsum := (fromLittleEndian_bytes (subspan bytes 28 4)
      (subspan_length (by omega))).symm
    refine ⟨hlen, take_eq_envelopeBytes_iff.mpr ⟨hsync,
      subspan_one bytes 4 (by omega), subspan_one bytes 5 (by omega), hext,
      hpay, hseq, hstored, hsum⟩, hflags, ?_⟩
    exact ⟨UInt16.not_lt.mp he, UInt64.not_lt.mp hp,
      checkedTotal_iff.mp ⟨content, total, hcontent, htotal⟩⟩
  · rintro ⟨hlen, hbytes, hflags, hwithin⟩
    obtain ⟨hsync, htype, hflag, hext, hpay, hseq, hcrc, hsum⟩ :=
      take_eq_envelopeBytes_iff.mp hbytes
    rw [subspan_one bytes 4 (by omega)] at htype
    rw [subspan_one bytes 5 (by omega)] at hflag
    have htype : bytes[4] = e.type.value := (List.cons.inj htype).1
    have hflag : bytes[5] = e.flags := (List.cons.inj hflag).1
    have hstored : Crc32c.fromLittleEndian (subspan bytes 24 4)
        (subspan_length (by omega)) = crc32c (bytes.take 24) :=
      (fromLittleEndian_eq_iff _ _ _).mpr hcrc
    have hpayload : Crc32c.fromLittleEndian (subspan bytes 28 4)
        (subspan_length (by omega)) = e.payloadChecksum :=
      (fromLittleEndian_eq_iff _ _ _).mpr hsum
    obtain ⟨content, total, hcontent, htotal⟩ :=
      checkedTotal_iff.mpr hwithin.total
    rw [parseRecordEnvelope_body hlen hsync (by rw [hflag]; exact hflags)
      hext hpay hseq, if_neg (UInt16.not_lt.mpr hwithin.extension),
      if_neg (UInt64.not_lt.mpr hwithin.payload), hcontent]
    show (checkedAdd _ content _ _ >>= _) = _
    rw [htotal]
    show (if _ then _ else _) = _
    rw [if_neg (not_not.mpr hstored), htype, hflag, hpayload]

/-- The bytes of an envelope determine it. -/
theorem envelopeBytes_inj {e e' : RecordEnvelope}
    (h : envelopeBytes e = envelopeBytes e') : e = e' := by
  have hself : ∀ f : RecordEnvelope, (envelopeBytes f).take 32 = envelopeBytes f :=
    fun f => List.take_of_length_le (Nat.le_of_eq (envelopeBytes_length f))
  obtain ⟨_, htype, hflag, hext, hpay, hseq, _, hsum⟩ :=
    take_eq_envelopeBytes_iff.mp (hself e)
  obtain ⟨_, htype', hflag', hext', hpay', hseq', _, hsum'⟩ :=
    take_eq_envelopeBytes_iff.mp ((hself e).trans h)
  have h1 := (List.cons.inj (htype.symm.trans htype')).1
  have h2 := (List.cons.inj (hflag.symm.trans hflag')).1
  have h3 := encodeU16Le_inj (hext.symm.trans hext')
  have h4 := encodeU64Le_inj (hpay.symm.trans hpay')
  have h5 := encodeU64Le_inj (hseq.symm.trans hseq')
  have hlen : (subspan (envelopeBytes e) 28 4).length = 4 :=
    subspan_length (Nat.le_refl 32)
  have h6 := ((fromLittleEndian_eq_iff _ hlen _).mpr hsum).symm.trans
    ((fromLittleEndian_eq_iff _ hlen _).mpr hsum')
  obtain ⟨⟨type⟩, flags, ext, pay, seq, sum⟩ := e
  obtain ⟨⟨type'⟩, flags', ext', pay', seq', sum'⟩ := e'
  cases h1; cases h2; cases h3; cases h4; cases h5; cases h6
  rfl

/-- Encoding fails exactly on reserved flags. -/
theorem encodeRecordEnvelope_eq_error {e : RecordEnvelope} :
    (∃ err, encodeRecordEnvelope e = .error err)
      ↔ e.flags &&& recordReservedFlags ≠ 0 := by
  rw [encodeRecordEnvelope_eq]
  by_cases h : e.flags &&& recordReservedFlags ≠ 0
  · rw [if_pos h]
    exact ⟨fun _ => h, fun _ => ⟨_, rfl⟩⟩
  · rw [if_neg h]
    exact ⟨fun ⟨_, hc⟩ => (nomatch hc), fun hc => (h hc).elim⟩

/-- **THE ENVELOPE CODEC**: parsing inverts encoding on every input, and the
    encoder's only failure is a reserved flag. -/
theorem record_envelope_codec :
    (∀ bytes limits e, parseRecordEnvelope bytes limits = .ok e
      ↔ 32 ≤ bytes.length ∧ encodeRecordEnvelope e = .ok (bytes.take 32)
        ∧ e.extensionLength ≤ limits.maximumExtensionLength
        ∧ e.payloadLength ≤ limits.maximumPayloadLength
        ∧ 32 + e.extensionLength.toNat + e.payloadLength.toNat < 2 ^ 64)
    ∧ (∀ e e' out, encodeRecordEnvelope e = .ok out
        → encodeRecordEnvelope e' = .ok out → e = e')
    ∧ (∀ e limits out rest, encodeRecordEnvelope e = .ok out
        → e.extensionLength ≤ limits.maximumExtensionLength
        → e.payloadLength ≤ limits.maximumPayloadLength
        → 32 + e.extensionLength.toNat + e.payloadLength.toNat < 2 ^ 64
        → parseRecordEnvelope (out ++ rest) limits = .ok e)
    ∧ (∀ bytes limits e, parseRecordEnvelope bytes limits = .ok e
        → encodeRecordEnvelope e = .ok (bytes.take 32))
    ∧ (∀ e, (∃ err, encodeRecordEnvelope e = .error err)
        ↔ e.flags &&& recordReservedFlags ≠ 0) := by
  have hexact : ∀ bytes limits e, parseRecordEnvelope bytes limits = .ok e
      ↔ 32 ≤ bytes.length ∧ encodeRecordEnvelope e = .ok (bytes.take 32)
        ∧ WithinLimits e limits := by
    intro bytes limits e
    rw [parseRecordEnvelope_eq_ok, encodeRecordEnvelope_eq_ok]
    constructor
    · rintro ⟨hlen, hbytes, hflags, hwithin⟩
      exact ⟨hlen, ⟨hflags, hbytes⟩, hwithin⟩
    · rintro ⟨hlen, ⟨hflags, hbytes⟩, hwithin⟩
      exact ⟨hlen, hbytes, hflags, hwithin⟩
  refine ⟨?_, ?_, ?_, ?_, fun e => encodeRecordEnvelope_eq_error⟩
  · intro bytes limits e
    rw [hexact]
    constructor
    · rintro ⟨hlen, henc, hwithin⟩
      exact ⟨hlen, henc, hwithin.extension, hwithin.payload, hwithin.total⟩
    · rintro ⟨hlen, henc, hext, hpay, htotal⟩
      exact ⟨hlen, henc, hext, hpay, htotal⟩
  · intro e e' out h h'
    have hout := (encodeRecordEnvelope_eq_ok.mp h).2
    have hout' := (encodeRecordEnvelope_eq_ok.mp h').2
    exact envelopeBytes_inj (hout.symm.trans hout')
  · intro e limits out rest henc hext hpay htotal
    have hout := (encodeRecordEnvelope_eq_ok.mp henc).2
    have hsize : out.length = 32 := by
      rw [hout, envelopeBytes_length]
    refine (hexact _ limits e).mpr ⟨?_, ?_, hext, hpay, htotal⟩
    · rw [List.length_append]
      omega
    · rw [List.take_left' hsize]
      exact henc
  · intro bytes limits e h
    exact ((hexact bytes limits e).mp h).2.1

end ShiboriRecordCodec
