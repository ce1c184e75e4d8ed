import Mathlib
import ShiboriEngine.Library.PrefixCode
import ShiboriEngine.CorruptionProofs
import ShiboriEngine.PreambleProofs
import ShiboriEngine.StreamProofs
import ShiboriEngine.StoredBytesProofs

/-! # Records back to back

    A record lies in a file as its envelope, its extension and its payload,
    with nothing between it and the next one.  A verified record states its own
    end, so a reader reads bytes as records in one way, and readers with other
    limits only stop earlier or later; a cut leaves the first records, damage
    leaves the records before it, and so does a writer that breaks off. -/

namespace ShiboriFraming

open ShiboriError ShiboriIntegrity ShiboriPreamble ShiboriRecord
open ShiboriRecordCodec ShiboriCorruption ShiboriPreambleVerdict
open ShiboriSequence ShiboriStream ShiboriCrc32cX86 ShiboriCrc32c
open ShiboriByteIo ShiboriFileIo ShiboriBufferedIo ShiboriFaultyRead
open ShiboriFaultyWrite ShiboriStoredBytes PrefixCode Spans

/-- The bytes of one record. -/
structure Content where
  envelope : List UInt8
  extension : List UInt8
  payload : List UInt8
deriving DecidableEq, Repr

/-- The record as it lies in a file. -/
def Content.bytes (self : Content) : List UInt8 :=
  self.envelope ++ (self.extension ++ self.payload)

/-- An envelope that verifies with its content. -/
def Content.Verified (limits : RecordEnvelopeLimits) (self : Content) :
    Prop :=
  self.envelope.length = recordEnvelopeSize
    ∧ ∃ record, verifyRecord self.envelope self.extension self.payload limits
      = .ok record

/-- A record that some reader verifies. -/
def Content.Sealed (self : Content) : Prop :=
  ∃ limits, self.Verified limits

/-- Records that are verified under the limits, and then bytes that no such
    record starts. -/
def Reads (limits : RecordEnvelopeLimits) (bytes : List UInt8)
    (contents : List Content) (rest : List UInt8) : Prop :=
  Reading (Content.Verified limits) Content.bytes bytes contents rest

/-! ## A record states its end -/

/-- What the envelope of a verified record is, and what it says. -/
theorem Content.Sealed.exists_envelope {content : Content}
    (h : content.Sealed) :
    ∃ e : RecordEnvelope, content.envelope = envelopeBytes e
      ∧ content.extension.length = e.extensionLength.toNat
      ∧ content.payload.length = e.payloadLength.toNat
      ∧ crc32c (content.extension ++ content.payload) = e.payloadChecksum := by
  obtain ⟨limits, hlen, record, hok⟩ := h
  obtain ⟨hparse, hext, hpay, hsum⟩ := verifyRecord_eq_ok.mp hok
  obtain ⟨_, htake, _, _⟩ := parseRecordEnvelope_eq_ok.mp hparse
  have hwhole : content.envelope.take 32 = content.envelope :=
    List.take_of_length_le (Nat.le_of_eq hlen)
  exact ⟨record.envelope, hwhole.symm.trans htake, hext, hpay, hsum⟩

section
variable {content content' : Content} {more rest : List UInt8}

/-- Records with envelopes of one length share the envelope. -/
theorem envelope_of_bytes
    (hlen : content.envelope.length = content'.envelope.length)
    (heq : content.bytes ++ more = content'.bytes ++ rest) :
    content.envelope = content'.envelope := by
  simp only [Content.bytes, List.append_assoc] at heq
  exact (List.append_inj heq hlen).1

/-- Records with parts of one length are the same. -/
theorem parts_of_bytes
    (hlen : content.envelope.length = content'.envelope.length)
    (hext : content.extension.length = content'.extension.length)
    (hpay : content.payload.length = content'.payload.length)
    (heq : content.bytes ++ more = content'.bytes ++ rest) :
    content = content' ∧ more = rest := by
  have hbytes : content.bytes.length = content'.bytes.length := by
    simp only [Content.bytes, List.length_append, hlen, hext, hpay]
  obtain ⟨hsame, hmore⟩ := List.append_inj heq hbytes
  obtain ⟨henvelope, hcontent⟩ := List.append_inj hsame hlen
  obtain ⟨hextension, hpayload⟩ := List.append_inj hcontent hext
  cases content
  cases content'
  cases henvelope
  cases hextension
  cases hpayload
  exact ⟨rfl, hmore⟩

end

/-- A sealed record has a whole envelope. -/
theorem Content.Sealed.length {content : Content} (h : content.Sealed) :
    content.envelope.length = recordEnvelopeSize := by
  obtain ⟨_, hlen, _⟩ := h
  exact hlen

/-- **SELF-DELIMITING**: no sealed record continues another one. -/
theorem sealed_selfDelimiting :
    SelfDelimiting Content.Sealed Content.bytes := by
  intro content content' rest rest' h h' heq
  obtain ⟨e, henvelope, hext, hpay, _⟩ := h.exists_envelope
  obtain ⟨e', henvelope', hext', hpay', _⟩ := h'.exists_envelope
  have hlen := h.length.trans h'.length.symm
  have hsame := envelope_of_bytes hlen heq
  have he : e = e' := by
    rw [henvelope, henvelope'] at hsame
    exact envelopeBytes_inj hsame
  subst he
  exact parts_of_bytes hlen (hext.trans hext'.symm) (hpay.trans hpay'.symm) heq

/-- A sealed record is not empty. -/
theorem sealed_bytes_ne_nil (content : Content) (h : content.Sealed) :
    content.bytes ≠ [] := by
  intro hnil
  have hlen := congrArg List.length hnil
  rw [Content.bytes, List.length_append, h.length] at hlen
  have hsize : recordEnvelopeSize = 32 := rfl
  rw [hsize, List.length_nil] at hlen
  omega

section
variable {limits : RecordEnvelopeLimits}

/-- What verifies is sealed. -/
theorem sealed_of_verified (limits : RecordEnvelopeLimits) (content : Content)
    (h : content.Verified limits) : content.Sealed :=
  ⟨limits, h⟩

/-- Records that verify delimit themselves. -/
theorem verified_selfDelimiting :
    SelfDelimiting (Content.Verified limits) Content.bytes :=
  sealed_selfDelimiting.mono (sealed_of_verified limits)

/-- A reading is the only one. -/
theorem reads_iff {bytes rest : List UInt8} {contents : List Content}
    (h : Reads limits bytes contents rest) :
    ∀ contents' rest', Reads limits bytes contents' rest'
      ↔ contents' = contents ∧ rest' = rest := by
  intro contents' rest'
  constructor
  · intro h'
    exact h'.unique verified_selfDelimiting h
  · rintro ⟨rfl, rfl⟩
    exact h

end

/-- **ONE READING OF EVERY FILE**: under given limits bytes are verified
    records and a rest in one way, and a cut of them is the first records and a
    rest; records verified at one place are the same under all limits, so of
    two readings one is the beginning of the other. -/
theorem framing_exact :
    (∀ limits bytes, ∃ contents rest, Reads limits bytes contents rest
      ∧ ∀ contents' rest', Reads limits bytes contents' rest' →
        contents' = contents ∧ rest' = rest)
    ∧ (∀ limits bytes contents rest cut, Reads limits bytes contents rest →
      cut <+: bytes → ∃ n left, Reads limits cut (contents.take n) left)
    ∧ (∀ (content content' : Content) limits limits' record record' more more',
      content.envelope.length = recordEnvelopeSize →
      content'.envelope.length = recordEnvelopeSize →
      verifyRecord content.envelope content.extension content.payload limits
        = .ok record →
      verifyRecord content'.envelope content'.extension content'.payload
        limits' = .ok record' →
      content.bytes ++ more = content'.bytes ++ more' →
        content = content' ∧ record = record' ∧ more = more')
    ∧ ∀ limits limits' bytes contents contents' rest rest',
      Reads limits bytes contents rest → Reads limits' bytes contents' rest' →
        contents <+: contents' ∨ contents' <+: contents := by
  refine ⟨?_, ?_, ?_, ?_⟩
  · intro limits bytes
    obtain ⟨contents, rest, hread⟩ := exists_reading
      (fun content h => sealed_bytes_ne_nil content
        (sealed_of_verified limits content h)) bytes
    exact ⟨contents, rest, hread, fun contents' rest' =>
      (reads_iff hread contents' rest').mp⟩
  · intro limits bytes contents rest cut hread hcut
    exact hread.cut verified_selfDelimiting (fun _ h => h) hcut
  · intro content content' limits limits' record record' more more' hlen hlen'
      hok hok' heq
    have h : content.Sealed := ⟨limits, hlen, record, hok⟩
    have h' : content'.Sealed := ⟨limits', hlen', record', hok'⟩
    obtain ⟨rfl, hmore⟩ := sealed_selfDelimiting h h' heq
    refine ⟨rfl, ?_, hmore⟩
    -- both parses read the one envelope
    obtain ⟨hparse, _, _, _⟩ := verifyRecord_eq_ok.mp hok
    obtain ⟨hparse', _, _, _⟩ := verifyRecord_eq_ok.mp hok'
    have hbytes := (parseRecordEnvelope_eq_ok.mp hparse).2.1
    have hbytes' := (parseRecordEnvelope_eq_ok.mp hparse').2.1
    have he := envelopeBytes_inj (hbytes.symm.trans hbytes')
    cases record
    cases record'
    cases he
    rfl
  · intro limits limits' bytes contents contents' rest rest' hread hread'
    exact hread.comparable sealed_selfDelimiting sealed_bytes_ne_nil
      (sealed_of_verified limits) (sealed_of_verified limits') hread'

/-! ## The records of a stream -/

/-- The record of a call as it lies in the file. -/
def contentOf (call : Call) : Content :=
  ⟨call.envelopeBytes, call.extension, call.payload⟩

/-- The limits leave room for every record. -/
def RoomFor (deliveries : List Delivery) (limits : RecordEnvelopeLimits) : Prop :=
  ∀ delivery ∈ deliveries,
    delivery.record.extension.length ≤ limits.maximumExtensionLength.toNat
      ∧ delivery.record.payload.length ≤ limits.maximumPayloadLength.toNat

section
variable {hasher : WriterHasher} {deliveries : List Delivery}

instance (deliveries : List Delivery) (limits : RecordEnvelopeLimits) :
    Decidable (RoomFor deliveries limits) :=
  inferInstanceAs (Decidable (∀ delivery ∈ deliveries, _ ∧ _))

/-- A reader that has room for the records of a stream verifies them. -/
theorem stream_verified (h : ShiboriStream.Sound hasher)
    (hcount : deliveries.length < 2 ^ 64) (limits : RecordEnvelopeLimits)
    (hroom : RoomFor deliveries limits) :
    ∀ content ∈ (deliveries.zipIdx.map (callOf hasher)).map contentOf,
      content.Verified limits := by
  intro content hmem
  rw [List.map_map, List.mem_map] at hmem
  obtain ⟨⟨delivery, position⟩, hentry, rfl⟩ := hmem
  have hposition : position < deliveries.length :=
    List.snd_lt_of_mem_zipIdx hentry
  obtain ⟨hext, hpay⟩ := hroom delivery (List.fst_mem_of_mem_zipIdx hentry)
  exact ⟨envelopeBytes_length _, _, verify_callOf h
    ⟨delivery.record, limits, hext, hpay⟩ (Nat.lt_trans hposition hcount)⟩

/-- The records of a stream are sealed: each reader's own limits leave room. -/
theorem stream_sealed (h : ShiboriStream.Sound hasher)
    (hcount : deliveries.length < 2 ^ 64) :
    ∀ content ∈ (deliveries.zipIdx.map (callOf hasher)).map contentOf,
      content.Sealed := by
  intro content hmem
  rw [List.map_map, List.mem_map] at hmem
  obtain ⟨⟨delivery, position⟩, hentry, rfl⟩ := hmem
  have hposition : position < deliveries.length :=
    List.snd_lt_of_mem_zipIdx hentry
  exact ⟨delivery.limits, envelopeBytes_length _, _,
    verify_callOf h delivery (Nat.lt_trans hposition hcount)⟩

end

/-- Sealed records are read as they are by a reader that tries every limit. -/
theorem sealed_all {contents : List Content}
    (h : ∀ content ∈ contents, content.Sealed) :
    Reading Content.Sealed Content.bytes (contents.flatMap Content.bytes)
      contents [] :=
  ⟨h, (List.append_nil _).symm, Stuck.nil sealed_bytes_ne_nil⟩

/-- Verified records are read as they are. -/
theorem reads_all {contents : List Content} {limits : RecordEnvelopeLimits}
    (h : ∀ content ∈ contents, content.Verified limits) :
    Reads limits (contents.flatMap Content.bytes) contents [] :=
  ⟨h, (List.append_nil _).symm, Stuck.nil fun content h =>
    sealed_bytes_ne_nil content (sealed_of_verified _ content h)⟩

/-- The calls of a stream of three records. -/
def mixedCalls : List Call :=
  mixedStream.zipIdx.map
    (callOf ⟨.portable, buildBackend softwareIntrinsics none⟩)

/-! ## Damage -/

/-- Damage of at most four consecutive bytes, in the envelope or in the
    content. -/
inductive Damaged (content content' : Content) : Prop where
  | envelope : DiffersWithin 4 content.envelope content'.envelope →
      content'.extension = content.extension →
      content'.payload = content.payload → Damaged content content'
  | content : content'.envelope = content.envelope →
      content'.extension.length = content.extension.length →
      content'.payload.length = content.payload.length →
      DiffersWithin 4 (content.extension ++ content.payload)
        (content'.extension ++ content'.payload) → Damaged content content'

/-- Envelopes whose sealed heads agree differ in the payload checksum at
    most. -/
theorem lengths_of_sealedHead {e e' : RecordEnvelope}
    (h : sealedHead e = sealedHead e') :
    e.extensionLength = e'.extensionLength
      ∧ e.payloadLength = e'.payloadLength := by
  have hswap : envelopeBytes { e' with payloadChecksum := e.payloadChecksum }
      = envelopeBytes e := by
    rw [envelopeBytes_eq_sealedHead, envelopeBytes_eq_sealedHead, h]
    rfl
  have heq := envelopeBytes_inj hswap
  rw [← heq]
  exact ⟨rfl, rfl⟩

/-- **DAMAGE STOPS A READER**: no verified record starts where one was damaged,
    under any limits and whatever comes after. -/
theorem damaged_stuck {content content' : Content} (h : content.Sealed)
    (hdamage : Damaged content content') (after : List UInt8) :
    Stuck Content.Sealed Content.bytes (content'.bytes ++ after) := by
  rintro other hother ⟨more, heq⟩
  obtain ⟨e, henvelope, hext, hpay, hsum⟩ := h.exists_envelope
  obtain ⟨e', henvelope', hext', hpay', hsum'⟩ := hother.exists_envelope
  have hlen : other.envelope.length = content'.envelope.length := by
    cases hdamage with
    | envelope hdiffers _ _ =>
        exact hother.length.trans (h.length.symm.trans hdiffers.length_eq)
    | content hkept _ _ _ => rw [hkept, hother.length, h.length]
  have hsame := envelope_of_bytes hlen heq
  cases hdamage with
  | envelope hdiffers hextension hpayload =>
      rw [← hsame, henvelope, henvelope', envelopeBytes_eq_sealedHead,
        envelopeBytes_eq_sealedHead] at hdiffers
      by_cases hsealed : sealedHead e = sealedHead e'
      -- only the payload checksum was hit, and the content is the old one
      · obtain ⟨hextlen, hpaylen⟩ := lengths_of_sealedHead hsealed
        have hextends : other.extension.length = content'.extension.length := by
          rw [hextension, hext, hext', hextlen]
        have hpayends : other.payload.length = content'.payload.length := by
          rw [hpayload, hpay, hpay', hpaylen]
        obtain ⟨rfl, _⟩ := parts_of_bytes hlen hextends hpayends heq
        have hsums : e.payloadChecksum = e'.payloadChecksum := by
          rw [← hsum, ← hsum', hextension, hpayload]
        exact hdiffers.ne (by rw [hsealed, hsums])
      · exact not_isCodeword_of_differs
          (hdiffers.of_starts (by rw [sealedHead_length, sealedHead_length])
            hsealed) (sealedHead_codeword e) (sealedHead_codeword e')
  | content hkept hextension hpayload hdiffers =>
      have he : e' = e := by
        rw [hkept, henvelope', henvelope] at hsame
        exact envelopeBytes_inj hsame
      subst he
      obtain ⟨rfl, _⟩ := parts_of_bytes hlen
        (hext'.trans (hextension.trans hext).symm)
        (hpay'.trans (hpayload.trans hpay).symm) heq
      exact crc32c_ne_of_differs hdiffers (hsum.trans hsum'.symm)

/-- **READING PAST DAMAGE**: in a file with one damaged record a reader reads
    the first records, whatever its limits, and never the damaged one or one
    behind it; all the records before it if its limits leave room for them. -/
theorem reading_stops_at_damage (limits : RecordEnvelopeLimits)
    (before : List Content) (content content' : Content) (after : List UInt8)
    (hbefore : ∀ other ∈ before, other.Sealed) (h : content.Sealed)
    (hdamage : Damaged content content') :
    ∃ n rest, (∀ contents rest',
        Reads limits (before.flatMap Content.bytes
          ++ (content'.bytes ++ after)) contents rest'
        ↔ contents = before.take n ∧ rest' = rest)
      ∧ ((∀ other ∈ before, other.Verified limits) →
        before.take n = before ∧ rest = content'.bytes ++ after) := by
  have hstuck := damaged_stuck h hdamage after
  have hwhole : Reading Content.Sealed Content.bytes
      (before.flatMap Content.bytes ++ (content'.bytes ++ after)) before
      (content'.bytes ++ after) := ⟨hbefore, rfl, hstuck⟩
  obtain ⟨n, rest, hread⟩ := hwhole.cut sealed_selfDelimiting
    (sealed_of_verified limits) List.prefix_rfl
  refine ⟨n, rest, reads_iff hread, ?_⟩
  intro hverified
  have hall : Reads limits (before.flatMap Content.bytes
      ++ (content'.bytes ++ after)) before (content'.bytes ++ after) :=
    ⟨hverified, rfl, fun other hother =>
      hstuck other (sealed_of_verified limits other hother)⟩
  exact hread.unique verified_selfDelimiting hall

/-- The second record loses its extension byte; a reader with room reads the
    first one. -/
theorem reading_stops_at_damage_at_mixedCalls :
    let damaged : Content :=
      { contentOf mixedCalls[1] with extension := [0x00] }
    ∀ contents rest,
      Reads ⟨16, 1⟩ ([contentOf mixedCalls[0]].flatMap Content.bytes
        ++ (damaged.bytes ++ (contentOf mixedCalls[2]).bytes)) contents rest
      ↔ contents = [contentOf mixedCalls[0]]
        ∧ rest = damaged.bytes ++ (contentOf mixedCalls[2]).bytes := by
  have hsealed : ∀ content ∈ mixedCalls.map contentOf, content.Sealed :=
    stream_sealed (Or.inl rfl) (by decide)
  have hverified : ∀ content ∈ mixedCalls.map contentOf,
      content.Verified ⟨16, 1⟩ :=
    stream_verified (Or.inl rfl) (by decide) _ (by decide)
  obtain ⟨n, rest, hreads, hall⟩ := reading_stops_at_damage ⟨16, 1⟩
    [contentOf mixedCalls[0]] (contentOf mixedCalls[1])
    { contentOf mixedCalls[1] with extension := [0x00] }
    (contentOf mixedCalls[2]).bytes
    (by
      intro other hother
      rw [List.mem_singleton.mp hother]
      exact hsealed _ (List.mem_map_of_mem (List.getElem_mem _)))
    (hsealed _ (List.mem_map_of_mem (List.getElem_mem _)))
    (.content rfl rfl rfl
      (DiffersWithin.of_length_le rfl (by decide) (by decide)))
  obtain ⟨hn, hrest⟩ := hall (by
    intro other hother
    rw [List.mem_singleton.mp hother]
    exact hverified _ (List.mem_map_of_mem (List.getElem_mem _)))
  rw [hn, hrest] at hreads
  exact hreads

/-! ## A writer that breaks off -/

section
variable {platform : Platform} {conditions : Nat → WriteConditions}

/-- **RUN**: writes that all succeed lie one after the other. -/
theorem appends {world : Timed BufferedSink} {written : List UInt8}
    {parts : List (List UInt8)} (h : Appending written world.adapter)
    (hdone : ∀ status ∈ Machine.outputs (writeStep platform conditions) world
      (parts.map .writeAll), status = .ok ()) :
    Appending (written ++ parts.flatten)
      (Machine.finalState (writeStep platform conditions) world
        (parts.map .writeAll)).adapter := by
  induction parts generalizing world written with
  | nil =>
      rw [List.flatten_nil, List.append_nil]
      exact h
  | cons part parts ih =>
      rw [List.map_cons, Machine.outputs_cons, List.forall_mem_cons] at hdone
      obtain ⟨hok, hrest⟩ := hdone
      obtain ⟨m, l, hk⟩ := writeAll_written platform conditions h.sound part
      have hsafe : ¬ writeFailed (writeStep platform conditions world
          (.writeAll part)).1 := by
        rw [hok]
        exact not_writeFailed_ok
      obtain ⟨piece, hpiece, hnext⟩ := h.write hk hsafe
      rw [hpiece.2 hok] at hnext
      rw [List.flatten_cons, ← List.append_assoc]
      exact ih hnext hrest

/-- Undisturbed and with room, all writes succeed. -/
theorem appends_succeed (hclear : Undisturbed conditions)
    {world : Timed BufferedSink} {parts : List (List UInt8)}
    (h : Clear world.adapter parts.flatten.length) :
    ∀ status ∈ Machine.outputs (writeStep platform conditions) world
      (parts.map .writeAll), status = .ok () := by
  induction parts generalizing world with
  | nil => exact fun _ hmem => (List.not_mem_nil hmem).elim
  | cons part parts ih =>
      rw [List.flatten_cons, List.length_append] at h
      obtain ⟨hok, hnext⟩ := writeAll_succeeds platform hclear h
      rw [List.map_cons, Machine.outputs_cons, List.forall_mem_cons]
      exact ⟨hok, ih hnext⟩

/-- One request more and the closing, whatever becomes of them, leave a first
    part of the data. -/
theorem breaks_off {world : Timed BufferedSink} {parts : List (List UInt8)}
    (h : Appending [] world.adapter) (n : Nat) (closing : WriteOut)
    (hdone : ∀ status ∈ Machine.outputs (writeStep platform conditions) world
      ((parts.take n).map .writeAll), status = .ok ()) :
    let file := (Machine.finalState (writeStep platform conditions) world
      ((parts.take (n + 1)).map .writeAll)).adapter.close closing
    file <+: parts.flatten
      ∧ (parts.length ≤ n → closing.fails = false → file = parts.flatten) := by
  intro file
  have hbefore := appends h hdone
  rw [List.nil_append] at hbefore
  rcases Nat.lt_or_ge n parts.length with hn | hn
  · have hfile : file = (Machine.finalState (writeStep platform conditions)
        world ((parts.take n ++ [parts[n]]).map .writeAll)).adapter.close
          closing := by
      rw [List.take_append_getElem hn]
    rw [List.map_append, List.map_singleton, Machine.finalState_concat]
      at hfile
    obtain ⟨m, l, hk⟩ := writeAll_written platform conditions hbefore.sound
      parts[n]
    obtain ⟨whole, hends, hwhole⟩ := hbefore.leaves hk
    refine ⟨?_, fun hc => absurd hn (Nat.not_lt.mpr hc)⟩
    have hleft : file <+: (parts.take n).flatten ++ parts[n] := by
      rw [hfile]
      exact (close_ends hends closing).1.trans hwhole
    have hsplit : parts.flatten
        = ((parts.take n).flatten ++ parts[n])
          ++ (parts.drop (n + 1)).flatten := by
      rw [List.append_assoc, ← List.flatten_cons,
        ← List.drop_eq_getElem_cons hn, ← List.flatten_append,
        List.take_append_drop]
    rw [hsplit]
    exact hleft.trans (List.prefix_append _ _)
  · rw [List.take_of_length_le hn] at hbefore
    have hends := hbefore.ends
    have hfile : file = (Machine.finalState (writeStep platform conditions)
        world (parts.map .writeAll)).adapter.close closing := by
      simp only [file, List.take_of_length_le (Nat.le_succ_of_le hn)]
    rw [hfile]
    exact ⟨(close_ends hends closing).1, fun _ => (close_ends hends closing).2⟩

end

/-- A file that was cut behind its preamble. -/
theorem cut_behind_preamble {minor : UInt16} {file records : List UInt8}
    (hcut : file <+: encodeFilePreamble currentFormatMajor minor ++ records)
    (hlong : filePreambleSize ≤ file.length) :
    ∃ preamble left, parseFilePreamble file = .ok preamble
      ∧ preamble.minor = minor ∧ left <+: records
      ∧ file = encodeFilePreamble currentFormatMajor minor ++ left
      ∧ file.drop filePreambleSize = left := by
  obtain ⟨left, rfl⟩ := List.prefix_of_prefix_length_le
    (List.prefix_append _ _) hcut hlong
  have hstarts : StartsWithPreamble
      (encodeFilePreamble currentFormatMajor minor ++ left)
      currentFormatMajor minor :=
    List.take_left' (encodeFilePreamble_length _ _)
  have hparse := hstarts.parse
  rw [if_neg (not_not.mpr rfl)] at hparse
  exact ⟨_, left, hparse, rfl, (List.prefix_append_right_inj _).mp hcut, rfl,
    List.drop_left' (encodeFilePreamble_length _ _)⟩

/-- **BREAKING OFF LEAVES WHOLE RECORDS**: a writer sends the preamble and a
    stream of records to a fresh file, in any portions, breaks off at any
    request and closes the file, whatever becomes of the closing.  The file is
    shorter than a preamble, or it holds the preamble and a reader, whatever
    its limits, reads the first records of the stream; all of them when nothing
    failed and its limits leave room. -/
theorem crash_leaves_whole_records (intrinsics : X86Intrinsics)
    (mode : Crc32cMode) (build : Option X86Build)
    (deliveries : List Delivery) (minor : UInt16) (calls : List Call)
    (platform : Platform) (conditions : Nat → WriteConditions)
    (path : String) (content : List UInt8)
    (maximumSize maximumWriteSize : UInt64)
    (opened ended rewound : CallFault) (sink : BufferedSink)
    (parts : List (List UInt8)) (n : Nat) (closing : WriteOut)
    (limits : RecordEnvelopeLimits)
    (hhasher : mode = .portable ∨ intrinsics.Castagnoli)
    (hcount : deliveries.length < 2 ^ 64)
    (hcalls : makeStream ⟨mode, buildBackend intrinsics build⟩ deliveries
      = .ok calls)
    (hopen : BufferedSink.open' path content maximumSize true maximumWriteSize
      opened ended rewound = .ok sink)
    (hparts : parts.flatten = encodeFilePreamble currentFormatMajor minor
      ++ (calls.map contentOf).flatMap Content.bytes)
    (hdone : ∀ status ∈ Machine.outputs (writeStep platform conditions)
      { adapter := sink } ((parts.take n).map .writeAll), status = .ok ()) :
    let world := Machine.finalState (writeStep platform conditions)
      { adapter := sink } ((parts.take (n + 1)).map .writeAll)
    let file := world.adapter.close closing
    (file.length < filePreambleSize
        ∧ ¬ (parts.length ≤ n ∧ closing.fails = false)
        ∧ codeOf (parseFilePreamble file) = some .unexpectedEnd)
      ∨ ∃ preamble whole rest, parseFilePreamble file = .ok preamble
        ∧ preamble.minor = minor
        ∧ (parts.length ≤ n → closing.fails = false →
          RoomFor deliveries limits → whole = calls.length ∧ rest = [])
        ∧ ∀ contents rest',
          Reads limits (file.drop filePreambleSize) contents rest'
          ↔ contents = (calls.take whole).map contentOf ∧ rest' = rest := by
  intro world file
  have hsound : ShiboriStream.Sound ⟨mode, buildBackend intrinsics build⟩ := by
    rcases hhasher with hportable | hintrinsics
    · exact Or.inl hportable
    · exact Or.inr (buildBackend_agrees hintrinsics build)
  rw [makeStream_eq] at hcalls
  cases hcalls
  have hsealed := stream_sealed hsound hcount
  have hverified := stream_verified hsound hcount limits
  generalize hc : deliveries.zipIdx.map
    (callOf ⟨mode, buildBackend intrinsics build⟩) = calls at *
  have hstart : Appending [] (Timed.adapter { adapter := sink }) :=
    open_truncated hopen
  obtain ⟨hcut, hall⟩ := breaks_off hstart n closing hdone
  rw [hparts] at hcut hall
  rcases Nat.lt_or_ge file.length filePreambleSize with hshort | hlong
  · refine Or.inl ⟨hshort, ?_, parseFilePreamble_short hshort⟩
    rintro ⟨hn, hclosing⟩
    have hwhole := congrArg List.length (hall hn hclosing)
    rw [List.length_append, encodeFilePreamble_length] at hwhole
    have hsize : filePreambleSize = 16 := rfl
    have hlength : file.length = _ := hwhole
    omega
  · obtain ⟨preamble, records, hparse, hminor, hrecords, hfile, hdrop⟩ :=
      cut_behind_preamble hcut hlong
    rw [hdrop]
    obtain ⟨whole, rest, hread⟩ := (sealed_all hsealed).cut
      sealed_selfDelimiting (sealed_of_verified limits) hrecords
    by_cases hgood : parts.length ≤ n ∧ closing.fails = false
        ∧ RoomFor deliveries limits
    · obtain ⟨hn, hclosing, hroom⟩ := hgood
      have hsame : records = (calls.map contentOf).flatMap Content.bytes :=
        List.append_cancel_left (hfile.symm.trans (hall hn hclosing))
      refine Or.inr ⟨preamble, calls.length, [], hparse, hminor,
        fun _ _ _ => ⟨rfl, rfl⟩, reads_iff ?_⟩
      rw [List.take_length, hsame]
      exact reads_all (hverified hroom)
    · rw [← List.map_take] at hread
      exact Or.inr ⟨preamble, whole, rest, hparse, hminor,
        fun hn hclosing hroom => (hgood ⟨hn, hclosing, hroom⟩).elim,
        reads_iff hread⟩

/-- The sink that a fresh file of a thousand bytes opens as. -/
def emptySink : BufferedSink where
  file := { buffer := { stored := [] } }
  maximumSize := 1000
  extent := 0
  maximumWriteSize := 4096

/-- A writer that gets through to the end; the file is read as all of it by a
    reader with just enough room. -/
theorem crash_leaves_whole_records_at_mixedStream :
    let parts := [encodeFilePreamble currentFormatMajor 0,
      (mixedCalls.map contentOf).flatMap Content.bytes]
    let world := Machine.finalState (writeStep offset64 slowWrites)
      { adapter := emptySink } (parts.map .writeAll)
    let file := world.adapter.close { moved := 0, fails := false }
    ∃ preamble, parseFilePreamble file = .ok preamble ∧ preamble.minor = 0
      ∧ ∀ contents rest,
        Reads ⟨16, 1⟩ (file.drop filePreambleSize) contents rest
        ↔ contents = mixedCalls.map contentOf ∧ rest = [] := by
  intro parts world file
  have hdone : ∀ status ∈ Machine.outputs (writeStep offset64 slowWrites)
      { adapter := emptySink } ((parts.take 2).map .writeAll),
      status = .ok () := by
    have hopen : BufferedSink.open' "records" [] 1000 true 4096 noFault
        noFault noFault = .ok emptySink := rfl
    have hlength : parts.flatten.length ≤ 1000 := by decide +kernel
    refine appends_succeed (fun _ => ⟨rfl, rfl⟩)
      ⟨ShiboriBufferedView.opened_sound (by decide) hopen, by decide, ?_⟩
    show 0 + parts.flatten.length ≤ 1000
    omega
  rcases crash_leaves_whole_records softwareIntrinsics .portable none
    mixedStream 0 mixedCalls offset64 slowWrites "records" [] 1000 4096
    noFault noFault noFault emptySink parts 2 { moved := 0, fails := false }
    ⟨16, 1⟩ (Or.inl rfl) (by decide) (makeStream_eq _ _) rfl
    (by rw [List.flatten_cons, List.flatten_cons, List.flatten_nil,
      List.append_nil]) hdone
    with ⟨_, hbroken, _⟩ | ⟨preamble, whole, rest, hparse, hminor, hall, hreads⟩
  · exact (hbroken ⟨Nat.le_refl 2, rfl⟩).elim
  · obtain ⟨rfl, rfl⟩ := hall (Nat.le_refl 2) rfl (by decide)
    rw [List.take_length] at hreads
    exact ⟨preamble, hparse, hminor, hreads⟩

end ShiboriFraming
