import Mathlib
import ShiboriEngine.Crc32cProofs
import ShiboriEngine.RecordCodecProofs
import ShiboriEngine.SequenceProofs

/-! # A record stream from writer to reader

    A writer numbers its records from zero, checksums extension and payload
    and encodes the envelopes; a reader feeds them to one fresh tracker.  The
    tracker expects the position of the next record until a record it must
    understand but does not know; there it stops for good (`tracker_live`,
    `tracker_stalled`). -/

namespace ShiboriStream

open ShiboriError ShiboriIntegrity ShiboriCrc32cX86 ShiboriCrc32c
open ShiboriResource ShiboriRecord ShiboriRecordCodec ShiboriSequence
open Machine Words

/-! ## Records on their way -/

/-- A record a writer may send: only the mandatory flag, and lengths that the
    envelope can state. -/
structure StreamRecord where
  type : UInt8
  flags : UInt8
  extension : List UInt8
  payload : List UInt8
  flags_le : flags = 0 ∨ flags = 1
  extension_lt : extension.length < 2 ^ 16
  total_lt : 32 + extension.length + payload.length < 2 ^ 64

/-- A record with the limits its reader applies, which leave room for it. -/
structure Delivery where
  record : StreamRecord
  limits : RecordEnvelopeLimits
  extension_le : record.extension.length ≤ limits.maximumExtensionLength.toNat
  payload_le : record.payload.length ≤ limits.maximumPayloadLength.toNat

/-- A type outside 0x01 to 0x06 that the reader is told to understand. -/
def StreamRecord.Unreadable (record : StreamRecord) : Prop :=
  (record.type.toNat = 0 ∨ 6 < record.type.toNat) ∧ record.flags = 1

/-- The writer's hasher: its mode, and the backend of its build. -/
structure WriterHasher where
  mode : Crc32cMode
  x86 : Option X86Crc32c

/-- The checksum the writer computes, extension first. -/
def payloadChecksum (hasher : WriterHasher) (record : StreamRecord) : Crc32c :=
  let checksum := Crc32cHasher.create hasher.mode hasher.x86
  let checksum := checksum.update record.extension hasher.x86
  let checksum := checksum.update record.payload hasher.x86
  checksum.finalize

/-- The envelope the writer makes. -/
def makeEnvelope (hasher : WriterHasher) (record : StreamRecord)
    (sequence : UInt64) : RecordEnvelope where
  type := ⟨record.type⟩
  flags := record.flags
  extensionLength := UInt16.ofNat record.extension.length
  payloadLength := UInt64.ofNat record.payload.length
  sequence := sequence
  payloadChecksum := payloadChecksum hasher record

/-- One record as the reader receives it. -/
def makeCall (hasher : WriterHasher) (entry : Delivery × Nat) : Result Call :=
  do
  let (delivery, position) := entry
  let envelopeBytes ← encodeRecordEnvelope
    (makeEnvelope hasher delivery.record (UInt64.ofNat position))
  .ok
    { envelopeBytes := envelopeBytes
      extension := delivery.record.extension
      payload := delivery.record.payload
      limits := delivery.limits }

/-- The stream, numbered from zero. -/
def makeStream (hasher : WriterHasher) (deliveries : List Delivery) :
    Result (List Call) :=
  deliveries.zipIdx.mapM (makeCall hasher)

/-- What the writer's checksum is, when its hasher is the table walk. -/
def Sound (hasher : WriterHasher) : Prop :=
  hasher.mode = .portable ∨ BackendAgrees hasher.x86

/-- An envelope that states a record and its position. -/
structure Carries (e : RecordEnvelope) (record : StreamRecord)
    (position : Nat) : Prop where
  type : e.type.value = record.type
  flags : e.flags = record.flags
  extension : e.extensionLength.toNat = record.extension.length
  payload : e.payloadLength.toNat = record.payload.length
  sequence : e.sequence.toNat = position

/-! ## The writer -/

/-- The writer computes the checksum the reader expects. -/
theorem payloadChecksum_eq {hasher : WriterHasher} (h : Sound hasher)
    (record : StreamRecord) :
    payloadChecksum hasher record
      = crc32c (record.extension ++ record.payload) := by
  have hrun := (hasher_refines (create_hashesAs h)
    [.update record.extension, .update record.payload]).2
  have hbytes : finalState referenceStep []
      [.update record.extension, .update record.payload]
        = record.extension ++ record.payload := rfl
  rw [hbytes] at hrun
  rw [crc32c_eq_reference]
  exact hrun.finalize_eq

/-- The envelope carries the record and its position. -/
theorem makeEnvelope_carries (hasher : WriterHasher) (record : StreamRecord)
    {position : Nat} (h : position < 2 ^ 64) :
    Carries (makeEnvelope hasher record (UInt64.ofNat position)) record
      position where
  type := rfl
  flags := rfl
  extension := UInt16.toNat_ofNat_of_lt' record.extension_lt
  payload := by
    have htotal := record.total_lt
    exact UInt64.toNat_ofNat_of_lt' (by
      show record.payload.length < 2 ^ 64
      omega)
  sequence := UInt64.toNat_ofNat_of_lt' h

/-- The call the reader gets for a record. -/
def callOf (hasher : WriterHasher) (entry : Delivery × Nat) : Call where
  envelopeBytes := envelopeBytes
    (makeEnvelope hasher entry.1.record (UInt64.ofNat entry.2))
  extension := entry.1.record.extension
  payload := entry.1.record.payload
  limits := entry.1.limits

/-- The writer sets no reserved flag. -/
theorem flags_admitted (record : StreamRecord) :
    record.flags &&& recordReservedFlags = 0 := by
  rcases record.flags_le with h | h
  · rw [h]
    rfl
  · rw [h]
    rfl

/-- Writing never fails. -/
theorem makeCall_eq (hasher : WriterHasher) (entry : Delivery × Nat) :
    makeCall hasher entry = .ok (callOf hasher entry) := by
  obtain ⟨delivery, position⟩ := entry
  have hflags : (makeEnvelope hasher delivery.record
      (UInt64.ofNat position)).flags &&& recordReservedFlags = 0 :=
    flags_admitted delivery.record
  have hencode := encodeRecordEnvelope_eq_ok.mpr ⟨hflags, rfl⟩
  rw [makeCall]
  show (encodeRecordEnvelope _ >>= _) = _
  rw [hencode]
  rfl

/-- A map that never fails is a plain map. -/
private theorem mapM_of_ok {α β : Type} {f : α → Result β} {g : α → β}
    (h : ∀ a, f a = .ok (g a)) (as : List α) :
    as.mapM f = .ok (as.map g) := by
  induction as with
  | nil => rfl
  | cons a as ih =>
      rw [List.mapM_cons, h, ih]
      rfl

/-- The writer never fails. -/
theorem makeStream_eq (hasher : WriterHasher) (deliveries : List Delivery) :
    makeStream hasher deliveries
      = .ok (deliveries.zipIdx.map (callOf hasher)) :=
  mapM_of_ok (makeCall_eq hasher) deliveries.zipIdx

/-! ## One record at the reader -/

/-- **VERIFICATION**: the reader gets back the envelope that was written. -/
theorem verify_callOf {hasher : WriterHasher} (h : Sound hasher)
    (delivery : Delivery) {position : Nat} (hposition : position < 2 ^ 64) :
    verifyRecord (callOf hasher (delivery, position)).envelopeBytes
        delivery.record.extension delivery.record.payload delivery.limits
      = .ok ⟨makeEnvelope hasher delivery.record (UInt64.ofNat position)⟩ := by
  obtain ⟨_, _, hext, hpay, _⟩ :=
    makeEnvelope_carries hasher delivery.record hposition
  refine verifyRecord_eq_ok.mpr ⟨?_, hext.symm, hpay.symm,
    (payloadChecksum_eq h delivery.record).symm⟩
  refine parseRecordEnvelope_eq_ok.mpr ⟨Nat.le_refl 32, ?_,
    flags_admitted delivery.record, ?_, ?_, ?_⟩
  · exact List.take_of_length_le (Nat.le_refl 32)
  · rw [UInt16.le_iff_toNat_le, hext]
    exact delivery.extension_le
  · rw [le_toNat, hpay]
    exact delivery.payload_le
  · rw [hext, hpay]
    exact delivery.record.total_lt

/-- The error of a record out of sequence. -/
def sequenceMismatch : Error where
  code := .invalidRecord
  operation := .parse
  message := "record sequence does not match the expected value"

/-- The error of a record the reader must understand and does not know. -/
def unknownMandatory (type : UInt8) : Error :=
  Error.withComponentId
    { code := .unsupportedFeature, operation := .parse,
      message := "unknown mandatory record type" } type.toUInt32

/-- Process what is known, skip the rest. -/
def dispositionOf (type : UInt8) : RecordDisposition :=
  if 1 ≤ type.toNat ∧ type.toNat ≤ 6 then .process else .skip

/-- The reader's word on an unreadable record is the source's. -/
theorem unreadable_iff {e : RecordEnvelope} {record : StreamRecord}
    {position : Nat} (h : Carries e record position) :
    UnknownMandatory e ↔ record.Unreadable := by
  have hmandatory : e.mandatory = true ↔ record.flags = 1 := by
    rw [RecordEnvelope.mandatory, h.flags]
    rcases record.flags_le with hflags | hflags
    · rw [hflags]
      decide
    · rw [hflags]
      decide
  have hknown := isKnownRecordType_iff e.type
  rw [h.type] at hknown
  rw [UnknownMandatory, StreamRecord.Unreadable, hmandatory,
    ← Bool.not_eq_true, hknown]
  refine and_congr_left ?_
  intro _
  omega

/-- The type decides what the reader does. -/
theorem disposition_eq {e : RecordEnvelope} {record : StreamRecord}
    {position : Nat} (h : Carries e record position) :
    (if isKnownRecordType e.type then RecordDisposition.process else .skip)
      = dispositionOf record.type := by
  have hknown := isKnownRecordType_iff e.type
  rw [h.type] at hknown
  by_cases hrange : 1 ≤ record.type.toNat ∧ record.type.toNat ≤ 6
  · rw [dispositionOf, if_pos hrange, if_pos (hknown.mpr hrange)]
  · rw [dispositionOf, if_neg hrange, if_neg (fun hc => hrange (hknown.mp hc))]

section Feed

variable {hasher : WriterHasher} {delivery : Delivery} {position : Nat}
  {tracker : RecordSequenceTracker}

/-- The verified record of a delivery. -/
def recordOf (hasher : WriterHasher) (delivery : Delivery) (position : Nat) :
    VerifiedRecord :=
  ⟨makeEnvelope hasher delivery.record (UInt64.ofNat position)⟩

/-- What becomes of a verified record, by the tracker's answer. -/
def judged (record : VerifiedRecord) :
    Result RecordDisposition × RecordSequenceTracker →
      Outcome × RecordSequenceTracker
  | (.error error, tracker) => (.refused record error, tracker)
  | (.ok disposition, tracker) => (.accepted record disposition, tracker)

/-- The tracker's answer decides, since the record is verified. -/
theorem feed_callOf (h : Sound hasher) (hposition : position < 2 ^ 64) :
    feed tracker (callOf hasher (delivery, position))
      = judged (recordOf hasher delivery position)
          (tracker.accept (recordOf hasher delivery position)) := by
  have hverify : verifyRecord (callOf hasher (delivery, position)).envelopeBytes
      (callOf hasher (delivery, position)).extension
      (callOf hasher (delivery, position)).payload
      (callOf hasher (delivery, position)).limits
        = .ok (recordOf hasher delivery position) :=
    verify_callOf h delivery hposition
  rcases haccept : tracker.accept (recordOf hasher delivery position)
    with ⟨error | disposition, next⟩
  · simp only [feed, hverify, haccept, judged]
  · simp only [feed, hverify, haccept, judged]

/-- In sequence and readable: accepted, and the tracker moves on. -/
theorem feed_live (h : Sound hasher) (hposition : position + 1 < 2 ^ 64)
    (hseq : tracker.expectedSequence.toNat = position)
    (hread : ¬ delivery.record.Unreadable) :
    (feed tracker (callOf hasher (delivery, position))).1
        = .accepted (recordOf hasher delivery position)
            (dispositionOf delivery.record.type)
      ∧ (feed tracker (callOf hasher (delivery, position))).2.expectedSequence
          = UInt64.ofNat (position + 1) := by
  have hcarries := makeEnvelope_carries hasher delivery.record
    (Nat.lt_of_succ_lt hposition)
  have hexpected : (recordOf hasher delivery position).envelope.sequence
      = tracker.expectedSequence :=
    UInt64.toNat_inj.mp (hcarries.sequence.trans hseq.symm)
  have hknown : ¬ UnknownMandatory
      (recordOf hasher delivery position).envelope :=
    fun hc => hread ((unreadable_iff hcarries).mp hc)
  have hnext : checkedAdd tracker.expectedSequence 1 .parse
      "next record sequence" = .ok (UInt64.ofNat (position + 1)) := by
    have hone : (1 : UInt64).toNat = 1 := rfl
    refine checkedAdd_eq_ok.mpr ⟨?_, ?_⟩
    · rw [hone, hseq]
      exact hposition
    · rw [hone, hseq]
      exact UInt64.toNat_ofNat_of_lt' hposition
  rw [feed_callOf h (Nat.lt_of_succ_lt hposition),
    accept_body hexpected hknown, hnext, ← disposition_eq hcarries]
  exact ⟨rfl, rfl⟩

/-- In sequence but unreadable: refused by its type, the tracker stays. -/
theorem feed_unreadable (h : Sound hasher) (hposition : position < 2 ^ 64)
    (hseq : tracker.expectedSequence.toNat = position)
    (hread : delivery.record.Unreadable) :
    feed tracker (callOf hasher (delivery, position))
      = (.refused (recordOf hasher delivery position)
          (unknownMandatory delivery.record.type), tracker) := by
  have hcarries := makeEnvelope_carries hasher delivery.record hposition
  have hexpected : (recordOf hasher delivery position).envelope.sequence
      = tracker.expectedSequence :=
    UInt64.toNat_inj.mp (hcarries.sequence.trans hseq.symm)
  obtain ⟨htype, hflag⟩ := (unreadable_iff hcarries).mpr hread
  have hguard : (!isKnownRecordType
        (recordOf hasher delivery position).envelope.type
      && (recordOf hasher delivery position).envelope.mandatory) = true := by
    rw [recordOf, htype, hflag]
    rfl
  rw [feed_callOf h hposition, RecordSequenceTracker.accept,
    if_neg (not_not.mpr hexpected), if_pos hguard]
  rfl

/-- Out of sequence: refused, the tracker stays. -/
theorem feed_mismatch (h : Sound hasher) (hposition : position < 2 ^ 64)
    (hseq : tracker.expectedSequence.toNat ≠ position) :
    feed tracker (callOf hasher (delivery, position))
      = (.refused (recordOf hasher delivery position) sequenceMismatch,
          tracker) := by
  have hcarries := makeEnvelope_carries hasher delivery.record hposition
  have hexpected : (recordOf hasher delivery position).envelope.sequence
      ≠ tracker.expectedSequence := by
    intro hc
    exact hseq ((congrArg UInt64.toNat hc).symm.trans hcarries.sequence)
  rw [feed_callOf h hposition, RecordSequenceTracker.accept,
    if_pos hexpected]
  rfl

end Feed

/-! ## The whole stream -/

section Stream

variable {hasher : WriterHasher} {deliveries : List Delivery}

/-- The tracker after the first `i` records. -/
def trackerAfter (hasher : WriterHasher) (deliveries : List Delivery)
    (i : Nat) : RecordSequenceTracker :=
  finalState feed {} ((deliveries.zipIdx.map (callOf hasher)).take i)

/-- The reader's outcomes of the stream. -/
def outcomes (hasher : WriterHasher) (deliveries : List Delivery) :
    List Outcome :=
  outputs feed {} (deliveries.zipIdx.map (callOf hasher))

/-- What is sent at a position. -/
theorem call_getElem? {i : Nat} (hi : i < deliveries.length) :
    (deliveries.zipIdx.map (callOf hasher))[i]?
      = some (callOf hasher (deliveries[i], i)) := by
  rw [List.getElem?_map, List.getElem?_zipIdx, List.getElem?_eq_getElem hi,
    Nat.zero_add]
  rfl

/-- One record more. -/
theorem trackerAfter_succ {i : Nat} (hi : i < deliveries.length) :
    trackerAfter hasher deliveries (i + 1)
      = (feed (trackerAfter hasher deliveries i)
          (callOf hasher (deliveries[i], i))).2 := by
  rw [trackerAfter, List.take_add_one, call_getElem? hi]
  exact finalState_concat feed {} _ _

/-- What is made of it. -/
theorem outcome_getElem? {i : Nat} (hi : i < deliveries.length) :
    (outcomes hasher deliveries)[i]?
      = some (feed (trackerAfter hasher deliveries i)
          (callOf hasher (deliveries[i], i))).1 := by
  rw [outcomes, outputs_getElem?, call_getElem? hi]
  rfl

/-- While all records are readable the tracker expects the position. -/
theorem tracker_live (h : Sound hasher)
    (hcount : deliveries.length < 2 ^ 64) {i : Nat} (hi : i ≤ deliveries.length)
    (hread : ∀ j, (hj : j < i) → ¬ deliveries[j].record.Unreadable) :
    (trackerAfter hasher deliveries i).expectedSequence.toNat = i := by
  induction i with
  | zero => rfl
  | succ i ih =>
      have hbefore := ih (Nat.le_of_succ_le hi) fun j hj =>
        hread j (Nat.lt_succ_of_lt hj)
      have hbound : i + 1 < 2 ^ 64 := Nat.lt_of_le_of_lt hi hcount
      obtain ⟨_, hnext⟩ := feed_live h hbound hbefore
        (hread i (Nat.lt_succ_self i))
      rw [trackerAfter_succ hi, hnext]
      exact UInt64.toNat_ofNat_of_lt' hbound

/-- After an unreadable record the tracker stays where it was. -/
theorem tracker_stalled (h : Sound hasher)
    (hcount : deliveries.length < 2 ^ 64) {stop i : Nat} (hlt : stop < i)
    (hi : i ≤ deliveries.length)
    (hread : ∀ j, (hj : j < stop) → ¬ deliveries[j].record.Unreadable)
    (hstop : deliveries[stop].record.Unreadable) :
    (trackerAfter hasher deliveries i).expectedSequence.toNat = stop := by
  induction i with
  | zero => exact absurd hlt (Nat.not_lt_zero stop)
  | succ i ih =>
      have hbound : i < 2 ^ 64 := Nat.lt_trans hi hcount
      rw [trackerAfter_succ hi]
      rcases Nat.lt_succ_iff_lt_or_eq.mp hlt with hbefore | hhere
      · have hstays := ih hbefore (Nat.le_of_succ_le hi) hread hstop
        -- a later position is never the expected one
        rw [feed_mismatch h hbound (by rw [hstays]; exact Nat.ne_of_lt hbefore)]
        exact hstays
      · subst hhere
        have hhere := tracker_live h hcount (Nat.le_of_succ_le hi) hread
        rw [feed_unreadable h hbound hhere hstop]
        exact hhere

/-- A position with an unreadable record before it has a first one before
    it. -/
theorem exists_first_unreadable {deliveries : List Delivery} {i j : Nat}
    (hi : i < deliveries.length) (hj : j < i)
    (hread : deliveries[j].record.Unreadable) :
    ∃ stop, ∃ hstop : stop < i, deliveries[stop].record.Unreadable
      ∧ ∀ k, (hk : k < stop) → ¬ deliveries[k].record.Unreadable := by
  induction j using Nat.strongRecOn with
  | ind j ih =>
      by_cases hearlier : ∃ k, ∃ hk : k < j, deliveries[k].record.Unreadable
      · obtain ⟨k, hk, hbad⟩ := hearlier
        exact ih k hk (Nat.lt_trans hk hj) hbad
      · refine ⟨j, hj, hread, ?_⟩
        intro k hk hbad
        exact hearlier ⟨k, hk, hbad⟩

/-- A record is accepted while all before it were readable. -/
theorem outcome_live (h : Sound hasher) (hcount : deliveries.length < 2 ^ 64)
    {i : Nat} (hi : i < deliveries.length)
    (hread : ∀ j, (hj : j ≤ i) → ¬ deliveries[j].record.Unreadable) :
    (outcomes hasher deliveries)[i]?
      = some (.accepted (recordOf hasher deliveries[i] i)
          (dispositionOf deliveries[i].record.type)) := by
  have hseq := tracker_live h hcount (Nat.le_of_lt hi)
    fun j hj => hread j (Nat.le_of_lt hj)
  obtain ⟨hout, _⟩ := feed_live h (Nat.lt_of_le_of_lt hi hcount) hseq
    (hread i (Nat.le_refl i))
  rw [outcome_getElem? hi, hout]

/-- The first unreadable record is refused. -/
theorem outcome_unreadable (h : Sound hasher)
    (hcount : deliveries.length < 2 ^ 64) {i : Nat}
    (hi : i < deliveries.length) (hbad : deliveries[i].record.Unreadable)
    (hread : ∀ j, (hj : j < i) → ¬ deliveries[j].record.Unreadable) :
    (outcomes hasher deliveries)[i]?
      = some (.refused (recordOf hasher deliveries[i] i)
          (unknownMandatory deliveries[i].record.type)) := by
  have hseq := tracker_live h hcount (Nat.le_of_lt hi) hread
  rw [outcome_getElem? hi,
    feed_unreadable h (Nat.lt_trans hi hcount) hseq hbad]

/-- What follows it is out of sequence. -/
theorem outcome_after (h : Sound hasher) (hcount : deliveries.length < 2 ^ 64)
    {i j : Nat} (hi : i < deliveries.length) (hj : j < i)
    (hbad : deliveries[j].record.Unreadable) :
    (outcomes hasher deliveries)[i]?
      = some (.refused (recordOf hasher deliveries[i] i)
          sequenceMismatch) := by
  obtain ⟨stop, hlt, hstop, hread⟩ := exists_first_unreadable hi hj hbad
  have hseq := tracker_stalled h hcount hlt (Nat.le_of_lt hi) hread hstop
  have hne : (trackerAfter hasher deliveries i).expectedSequence.toNat ≠ i := by
    rw [hseq]
    exact Nat.ne_of_lt hlt
  rw [outcome_getElem? hi, feed_mismatch h (Nat.lt_trans hi hcount) hne]

end Stream

/-- **ROUND TRIP OF A STREAM**: every record before the first unreadable one
    is accepted as it was written, that one is refused by its type, and
    everything after it is out of sequence. -/
theorem stream_round_trip (intrinsics : X86Intrinsics)
    (mode : Crc32cMode) (build : Option X86Build)
    (deliveries : List Delivery)
    (hhasher : mode = .portable ∨ intrinsics.Castagnoli)
    (hcount : deliveries.length < 2 ^ 64) :
    ∃ calls, makeStream ⟨mode, buildBackend intrinsics build⟩ deliveries
        = .ok calls
      ∧ calls.length = deliveries.length
      ∧ ∀ i, (hi : i < deliveries.length) →
        ∃ record, Carries record.envelope deliveries[i].record i
          ∧ ((∀ j, (hj : j ≤ i) → ¬ deliveries[j].record.Unreadable)
            → (outputs feed {} calls)[i]? = some (.accepted record
                (dispositionOf deliveries[i].record.type)))
          ∧ (deliveries[i].record.Unreadable
            → (∀ j, (hj : j < i) → ¬ deliveries[j].record.Unreadable)
            → (outputs feed {} calls)[i]? = some (.refused record
                (unknownMandatory deliveries[i].record.type)))
          ∧ ((∃ j, ∃ hj : j < i, deliveries[j].record.Unreadable)
            → (outputs feed {} calls)[i]?
              = some (.refused record sequenceMismatch)) := by
  have hsound : Sound ⟨mode, buildBackend intrinsics build⟩ := by
    rcases hhasher with hportable | hintrinsics
    · exact Or.inl hportable
    · exact Or.inr (buildBackend_agrees hintrinsics build)
  refine ⟨_, makeStream_eq _ deliveries, ?_, ?_⟩
  · rw [List.length_map, List.length_zipIdx]
  intro i hi
  refine ⟨recordOf ⟨mode, buildBackend intrinsics build⟩ deliveries[i] i,
    makeEnvelope_carries _ _ (Nat.lt_trans hi hcount), ?_, ?_, ?_⟩
  · intro hread
    exact outcome_live hsound hcount hi hread
  · intro hbad hread
    exact outcome_unreadable hsound hcount hi hbad hread
  · rintro ⟨j, hj, hbad⟩
    exact outcome_after hsound hcount hi hj hbad

/-- A file header, an unknown record to skip, an unknown one to understand and
    a schema. -/
def mixedStream : List Delivery :=
  let limits : RecordEnvelopeLimits := ⟨16, 64⟩
  [⟨⟨0x01, 1, [], [0x64], Or.inr rfl, by decide, by decide⟩, limits,
      by decide, by decide⟩,
    ⟨⟨0x40, 0, [0x01], [], Or.inl rfl, by decide, by decide⟩, limits,
      by decide, by decide⟩,
    ⟨⟨0x41, 1, [], [], Or.inr rfl, by decide, by decide⟩, limits,
      by decide, by decide⟩,
    ⟨⟨0x02, 1, [], [], Or.inr rfl, by decide, by decide⟩, limits,
      by decide, by decide⟩]

/-- One record is skipped, and one refused. -/
theorem stream_round_trip_at_mixedStream :
    ∃ calls, makeStream ⟨.portable, buildBackend softwareIntrinsics none⟩
        mixedStream = .ok calls
      ∧ (∃ record, (outputs feed {} calls)[1]?
          = some (.accepted record .skip))
      ∧ (∃ record, (outputs feed {} calls)[2]?
          = some (.refused record (unknownMandatory 0x41)))
      ∧ ∃ record, (outputs feed {} calls)[3]?
          = some (.refused record sequenceMismatch) := by
  obtain ⟨calls, hmake, _, hreads⟩ := stream_round_trip softwareIntrinsics
    .portable none mixedStream (Or.inl rfl) (by decide)
  have hone : ¬ mixedStream[0].record.Unreadable := by
    rintro ⟨htype, _⟩
    revert htype
    decide
  have htwo : ¬ mixedStream[1].record.Unreadable := by
    rintro ⟨_, hflag⟩
    revert hflag
    decide
  have hthree : mixedStream[2].record.Unreadable :=
    ⟨Or.inr (by decide), rfl⟩
  have hbefore : ∀ j, (hlen : j < mixedStream.length) → j < 2 →
      ¬ mixedStream[j].record.Unreadable := by
    intro j hlen hj
    rcases Nat.lt_succ_iff_lt_or_eq.mp hj with hzero | rfl
    · cases Nat.lt_one_iff.mp hzero
      exact hone
    · exact htwo
  obtain ⟨first, _, hskip, _, _⟩ := hreads 1 (by decide)
  obtain ⟨second, _, _, hrefuse, _⟩ := hreads 2 (by decide)
  obtain ⟨third, _, _, _, hlate⟩ := hreads 3 (by decide)
  exact ⟨calls, hmake,
    ⟨first, hskip fun j hj => hbefore j _ (Nat.lt_succ_of_le hj)⟩,
    ⟨second, hrefuse hthree fun j hj => hbefore j _ hj⟩,
    ⟨third, hlate ⟨2, by decide, hthree⟩⟩⟩

end ShiboriStream
