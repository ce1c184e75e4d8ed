import Mathlib
import ShiboriEngine.Library.Machine
import ShiboriEngine.RecordCodecProofs

/-! # Reader-side sequencing over whole runs

    A reader verifies each record it is handed and offers the verified ones to
    its tracker.  `feed` is one such call and a run is a list of calls from a
    fresh tracker.  The run invariant is that the accepted sequence numbers
    are `0, 1, …, k - 1` and the tracker expects `k`. -/

namespace ShiboriSequence

open ShiboriError ShiboriIntegrity ShiboriResource ShiboriRecord
open ShiboriRecordCodec Words

/-! ## One call -/

/-- A record as it is offered, and the reader's limits. -/
structure Call where
  envelopeBytes : List UInt8
  extension : List UInt8
  payload : List UInt8
  limits : RecordEnvelopeLimits

/-- What the reader makes of a record. -/
inductive Outcome where
  | unverified (error : Error)
  | refused (record : VerifiedRecord) (error : Error)
  | accepted (record : VerifiedRecord) (disposition : RecordDisposition)

/-- `verifyRecord`, and `accept` when that succeeds. -/
def feed : Machine.Step RecordSequenceTracker Call Outcome :=
  fun tracker call =>
    match verifyRecord call.envelopeBytes call.extension call.payload
        call.limits with
    | .error error => (.unverified error, tracker)
    | .ok record =>
        match tracker.accept record with
        | (.error error, tracker) => (.refused record error, tracker)
        | (.ok disposition, tracker) => (.accepted record disposition, tracker)

/-- The sequence number of an accepted record. -/
def Outcome.sequence : Outcome → Option UInt64
  | .accepted record _ => some record.envelope.sequence
  | _ => none

/-- The sequence numbers a run accepted, in acceptance order. -/
def acceptedSequences (outcomes : List Outcome) : List Nat :=
  outcomes.filterMap fun outcome => outcome.sequence.map UInt64.toNat

/-- A record the format requires a reader to understand, of unknown type. -/
def UnknownMandatory (e : RecordEnvelope) : Prop :=
  isKnownRecordType e.type = false ∧ e.mandatory = true

/-- The known types are those from 1 to 6. -/
theorem isKnownRecordType_iff (type : RecordType) :
    isKnownRecordType type = true
      ↔ 1 ≤ type.value.toNat ∧ type.value.toNat ≤ 6 := by
  obtain ⟨value⟩ := type
  have hcode : ∀ c : UInt8, RecordType.mk value = RecordType.mk c
      ↔ value.toNat = c.toNat := by
    intro c
    rw [RecordType.mk.injEq, UInt8.toNat_inj]
  simp only [isKnownRecordType, RecordType.fileHeader, RecordType.schema,
    RecordType.dataBlock, RecordType.blockIndex, RecordType.fileFooter,
    RecordType.userMetadata, Bool.or_eq_true, decide_eq_true_eq, hcode]
  -- The six named types are the codes one to six, with no gap between them.
  show ((((value.toNat = 1 ∨ value.toNat = 2) ∨ value.toNat = 3)
    ∨ value.toNat = 4) ∨ value.toNat = 5) ∨ value.toNat = 6 ↔ _
  omega

/-! ## What `accept` can do -/

/-- A record out of sequence is refused. -/
theorem accept_sequence {tracker : RecordSequenceTracker}
    {record : VerifiedRecord}
    (h : record.envelope.sequence ≠ tracker.expectedSequence) :
    (∃ error, (tracker.accept record).1 = .error error)
      ∧ (tracker.accept record).2 = tracker := by
  rw [RecordSequenceTracker.accept, if_pos h]
  exact ⟨⟨_, rfl⟩, rfl⟩

/-- So is a mandatory one of an unknown type. -/
theorem accept_mandatory {tracker : RecordSequenceTracker}
    {record : VerifiedRecord}
    (hseq : record.envelope.sequence = tracker.expectedSequence)
    (h : UnknownMandatory record.envelope) :
    (∃ error, (tracker.accept record).1 = .error error)
      ∧ (tracker.accept record).2 = tracker := by
  have hguard : (!isKnownRecordType record.envelope.type
      && record.envelope.mandatory) = true := by
    rw [h.1, h.2]
    rfl
  rw [RecordSequenceTracker.accept, if_neg (not_not.mpr hseq), if_pos hguard]
  exact ⟨⟨_, rfl⟩, rfl⟩

/-- Past both guards only the counter itself can refuse a record. -/
theorem accept_body {tracker : RecordSequenceTracker}
    {record : VerifiedRecord}
    (hseq : record.envelope.sequence = tracker.expectedSequence)
    (h : ¬ UnknownMandatory record.envelope) :
    tracker.accept record
      = match checkedAdd tracker.expectedSequence 1 .parse
            "next record sequence" with
        | .error error => (.error error, tracker)
        | .ok nextSequence =>
            (.ok (if isKnownRecordType record.envelope.type then .process
              else .skip), { tracker with expectedSequence := nextSequence }) := by
  have hguard : ¬ (!isKnownRecordType record.envelope.type
      && record.envelope.mandatory) = true := by
    intro hc
    rw [Bool.and_eq_true, Bool.not_eq_true'] at hc
    exact h hc
  rw [RecordSequenceTracker.accept, if_neg (not_not.mpr hseq)]
  cases checkedAdd tracker.expectedSequence 1 .parse "next record sequence" with
  | error error => exact if_neg hguard
  | ok next => exact if_neg hguard

/-- **ACCEPTANCE**: all three guards passed, the disposition follows the type
    and the counter advances by one. -/
theorem accept_eq_ok {tracker : RecordSequenceTracker}
    {record : VerifiedRecord} {disposition : RecordDisposition}
    (h : (tracker.accept record).1 = .ok disposition) :
    record.envelope.sequence = tracker.expectedSequence
      ∧ ¬ UnknownMandatory record.envelope
      ∧ disposition = (if isKnownRecordType record.envelope.type then .process
          else .skip)
      ∧ (tracker.accept record).2.expectedSequence.toNat
        = tracker.expectedSequence.toNat + 1 := by
  by_cases hseq : record.envelope.sequence = tracker.expectedSequence
  case neg =>
    obtain ⟨⟨_, herr⟩, _⟩ := accept_sequence hseq
    rw [herr] at h
    exact nomatch h
  by_cases hmandatory : UnknownMandatory record.envelope
  case pos =>
    obtain ⟨⟨_, herr⟩, _⟩ := accept_mandatory hseq hmandatory
    rw [herr] at h
    exact nomatch h
  rw [accept_body hseq hmandatory] at h ⊢
  cases hnext : checkedAdd tracker.expectedSequence 1 .parse
      "next record sequence" with
  | error error =>
      rw [hnext] at h
      exact nomatch h
  | ok next =>
      rw [hnext] at h
      exact ⟨hseq, hmandatory, (Except.ok.inj h).symm,
        (checkedAdd_eq_ok.mp hnext).2⟩

/-- **REFUSAL**: one of three reasons, and the tracker is as before. -/
theorem accept_eq_error {tracker : RecordSequenceTracker}
    {record : VerifiedRecord} :
    (∃ error, (tracker.accept record).1 = .error error)
      ↔ record.envelope.sequence ≠ tracker.expectedSequence
        ∨ UnknownMandatory record.envelope
        ∨ tracker.expectedSequence.toNat = 2 ^ 64 - 1 := by
  by_cases hseq : record.envelope.sequence = tracker.expectedSequence
  case neg => exact ⟨fun _ => Or.inl hseq, fun _ => (accept_sequence hseq).1⟩
  by_cases hmandatory : UnknownMandatory record.envelope
  case pos =>
    exact ⟨fun _ => Or.inr (Or.inl hmandatory),
      fun _ => (accept_mandatory hseq hmandatory).1⟩
  have hlt := tracker.expectedSequence.toNat_lt
  have hone : (1 : UInt64).toNat = 1 := rfl
  -- Past both guards only the counter's last value is left as a reason.
  rw [accept_body hseq hmandatory]
  cases hnext : checkedAdd tracker.expectedSequence 1 .parse
      "next record sequence" with
  | error error =>
      obtain ⟨hfull, _⟩ := checkedAdd_eq_error.mp hnext
      rw [hone] at hfull
      exact ⟨fun _ => Or.inr (Or.inr (by omega)), fun _ => ⟨error, rfl⟩⟩
  | ok next =>
      obtain ⟨hfit, _⟩ := checkedAdd_eq_ok.mp hnext
      rw [hone] at hfit
      constructor
      · rintro ⟨_, hc⟩
        exact nomatch hc
      · rintro (hc | hc | hc)
        · exact (hc hseq).elim
        · exact (hmandatory hc).elim
        · omega

/-- A refusal leaves the tracker. -/
theorem accept_error_unchanged {tracker : RecordSequenceTracker}
    {record : VerifiedRecord} {error : Error}
    (h : (tracker.accept record).1 = .error error) :
    (tracker.accept record).2 = tracker := by
  by_cases hseq : record.envelope.sequence = tracker.expectedSequence
  case neg => exact (accept_sequence hseq).2
  by_cases hmandatory : UnknownMandatory record.envelope
  case pos => exact (accept_mandatory hseq hmandatory).2
  rw [accept_body hseq hmandatory] at h ⊢
  cases hnext : checkedAdd tracker.expectedSequence 1 .parse
      "next record sequence" with
  | error error => rfl
  | ok next =>
      rw [hnext] at h
      exact nomatch h

/-! ## What one call can do -/

/-- The three outcomes of a call, each with what led to it. -/
theorem feed_cases (tracker : RecordSequenceTracker) (call : Call) :
    (∃ error, feed tracker call = (.unverified error, tracker)
      ∧ verifyRecord call.envelopeBytes call.extension call.payload
          call.limits = .error error)
    ∨ (∃ record error, feed tracker call = (.refused record error, tracker)
      ∧ verifyRecord call.envelopeBytes call.extension call.payload
          call.limits = .ok record
      ∧ (tracker.accept record).1 = .error error)
    ∨ (∃ record disposition, feed tracker call
        = (.accepted record disposition, (tracker.accept record).2)
      ∧ verifyRecord call.envelopeBytes call.extension call.payload
          call.limits = .ok record
      ∧ (tracker.accept record).1 = .ok disposition) := by
  cases hverify : verifyRecord call.envelopeBytes call.extension call.payload
      call.limits with
  | error error =>
      left
      refine ⟨error, ?_, rfl⟩
      rw [feed, hverify]
  | ok record =>
      right
      rcases haccept : tracker.accept record with ⟨error | disposition, next⟩
      · left
        -- `feed` takes the tracker `accept` hands back: on a refusal, the old one.
        have hsame := accept_error_unchanged (congrArg Prod.fst haccept)
        rw [haccept] at hsame
        refine ⟨record, error, ?_, rfl, congrArg Prod.fst haccept⟩
        simp only [feed, hverify, haccept]
        rw [show next = tracker from hsame]
      · right
        refine ⟨record, disposition, ?_, rfl, congrArg Prod.fst haccept⟩
        simp only [feed, hverify, haccept]

/-! ## Runs -/

/-- The accepted numbers are `0, 1, …, k - 1` and the tracker expects `k`. -/
def InOrder (tracker : RecordSequenceTracker) (outcomes : List Outcome) :
    Prop :=
  acceptedSequences outcomes
    = List.range tracker.expectedSequence.toNat

/-- What the last outcome adds. -/
theorem acceptedSequences_concat (outcomes : List Outcome)
    (outcome : Outcome) :
    acceptedSequences (outcomes ++ [outcome])
      = acceptedSequences outcomes
        ++ (outcome.sequence.map UInt64.toNat).toList := by
  rw [acceptedSequences, List.filterMap_append]
  refine congrArg (acceptedSequences outcomes ++ ·) ?_
  cases outcome <;> rfl

/-- **STEP**: a call either leaves the tracker alone and accepts nothing, or
    accepts the expected number and advances. -/
theorem feed_inOrder (tracker : RecordSequenceTracker)
    (outcomes : List Outcome) (call : Call) (h : InOrder tracker outcomes) :
    InOrder (feed tracker call).2 (outcomes ++ [(feed tracker call).1]) := by
  rw [InOrder, acceptedSequences_concat, h]
  rcases feed_cases tracker call with ⟨error, hfeed, _⟩
    | ⟨record, error, hfeed, _⟩ | ⟨record, disposition, hfeed, _, haccept⟩
  · rw [hfeed]
    exact List.append_nil _
  · rw [hfeed]
    exact List.append_nil _
  -- the accepted number is the expected one, hence the next in the range
  · obtain ⟨hseq, _, _, hnext⟩ := accept_eq_ok haccept
    rw [hfeed, hnext, List.range_succ, ← hseq]
    rfl

/-- **RUN**: the accepted numbers count up from zero. -/
theorem run_inOrder (calls : List Call) :
    InOrder (Machine.finalState feed {} calls)
      (Machine.outputs feed {} calls) := by
  have hfresh : InOrder {} [] := by
    rw [InOrder]
    rfl
  exact Machine.run_invariant feed_inOrder hfresh calls

/-- What holds of one accepted record. -/
structure SoundlyAccepted (call : Call) (record : VerifiedRecord)
    (disposition : RecordDisposition) : Prop where
  extension : call.extension.length = record.envelope.extensionLength.toNat
  payload : call.payload.length = record.envelope.payloadLength.toNat
  checksum : crc32c (call.extension ++ call.payload)
    = record.envelope.payloadChecksum
  understood : ¬ UnknownMandatory record.envelope
  processed : disposition = .process
    ↔ 1 ≤ record.envelope.type.value.toNat
      ∧ record.envelope.type.value.toNat ≤ 6
  skipped : disposition = .skip
    ↔ isKnownRecordType record.envelope.type = false
      ∧ record.envelope.mandatory = false

/-- What is accepted was verified, in sequence and readable. -/
theorem feed_accepted {tracker : RecordSequenceTracker} {call : Call}
    {record : VerifiedRecord} {disposition : RecordDisposition}
    (h : (feed tracker call).1 = .accepted record disposition) :
    SoundlyAccepted call record disposition := by
  rcases feed_cases tracker call with ⟨error, hfeed, _⟩
    | ⟨record', error, hfeed, _⟩
    | ⟨record', disposition', hfeed, hverify, haccept⟩
  · rw [hfeed] at h
    exact nomatch h
  · rw [hfeed] at h
    exact nomatch h
  · rw [hfeed] at h
    cases h
    obtain ⟨_, hext, hpay, hsum⟩ := verifyRecord_eq_ok.mp hverify
    obtain ⟨_, hmandatory, hdisposition, _⟩ := accept_eq_ok haccept
    refine ⟨hext, hpay, hsum, hmandatory, ?_, ?_⟩
    · rw [← isKnownRecordType_iff, hdisposition]
      -- the disposition is read off the type alone
      cases isKnownRecordType record.envelope.type <;> decide
    · rw [UnknownMandatory] at hmandatory
      rw [hdisposition]
      cases hknown : isKnownRecordType record.envelope.type with
      | true =>
          exact ⟨fun hc => (nomatch hc), fun hc => (nomatch hc.1)⟩
      | false =>
          refine ⟨fun _ => ⟨rfl, ?_⟩, fun _ => rfl⟩
          cases hflag : record.envelope.mandatory with
          -- a skipped record passed the second guard, so it is not mandatory
          | false => rfl
          | true => exact (hmandatory ⟨hknown, hflag⟩).elim

/-- **SEQUENCING OVER WHOLE RUNS**: after any calls from a fresh tracker, the
    accepted numbers are consecutive from zero, and the next call behaves as
    the count of accepted records says. -/
theorem reader_sequencing (calls : List Call) :
    let tracker := Machine.finalState feed {} calls
    let accepted := acceptedSequences (Machine.outputs feed {} calls)
    accepted = List.range accepted.length
    ∧ tracker.expectedSequence.toNat = accepted.length
    ∧ (∀ call, (∀ record disposition,
          (feed tracker call).1 ≠ .accepted record disposition)
        → (feed tracker call).2 = tracker)
    ∧ (∀ call record disposition,
        (feed tracker call).1 = .accepted record disposition
        → SoundlyAccepted call record disposition)
    ∧ (∀ record, (∃ error, (tracker.accept record).1 = .error error)
        ↔ record.envelope.sequence.toNat ≠ accepted.length
          ∨ UnknownMandatory record.envelope
          ∨ accepted.length = 2 ^ 64 - 1) := by
  intro tracker accepted
  have horder : accepted = List.range tracker.expectedSequence.toNat :=
    run_inOrder calls
  have hcount : tracker.expectedSequence.toNat = accepted.length := by
    rw [horder, List.length_range]
  refine ⟨?_, hcount, ?_, ?_, ?_⟩
  · rw [← hcount]
    exact horder
  · intro call hnone
    rcases feed_cases tracker call with ⟨error, hfeed, _⟩
      | ⟨record, error, hfeed, _⟩ | ⟨record, disposition, hfeed, _⟩
    · rw [hfeed]
    · rw [hfeed]
    · exact (hnone record disposition (congrArg Prod.fst hfeed)).elim
  · intro call record disposition h
    exact feed_accepted h
  · intro record
    rw [accept_eq_error, ← hcount, ne_eq, ne_eq, UInt64.toNat_inj]

/-- The envelope of an empty schema record at the start of a stream. -/
def schemaEnvelope : RecordEnvelope where
  type := .schema
  flags := 1
  extensionLength := 0
  payloadLength := 0
  sequence := 0
  payloadChecksum := crc32c []

/-- An empty schema record, as it is written. -/
def schemaCall : Call where
  envelopeBytes := envelopeBytes schemaEnvelope
  extension := []
  payload := []
  limits := ⟨16, 64⟩

/-- The first record is accepted and processed. -/
theorem reader_sequencing_at_schemaCall :
    Machine.outputs feed {} [schemaCall]
        = [.accepted ⟨schemaEnvelope⟩ .process]
      ∧ (Machine.finalState feed {} [schemaCall]).expectedSequence.toNat
        = 1 := by
  have hparse : parseRecordEnvelope (envelopeBytes schemaEnvelope) ⟨16, 64⟩
      = .ok schemaEnvelope :=
    parseRecordEnvelope_eq_ok.mpr ⟨Nat.le_refl 32,
      List.take_of_length_le (Nat.le_refl 32), by decide, by decide, by decide,
      by decide⟩
  have hverify : verifyRecord schemaCall.envelopeBytes schemaCall.extension
      schemaCall.payload schemaCall.limits = .ok ⟨schemaEnvelope⟩ :=
    verifyRecord_eq_ok.mpr ⟨hparse, rfl, rfl, rfl⟩
  have hfeed : (feed {} schemaCall).1 = .accepted ⟨schemaEnvelope⟩ .process := by
    rw [feed, hverify]
    rfl
  have houtputs : Machine.outputs feed {} [schemaCall]
      = [.accepted ⟨schemaEnvelope⟩ .process] := by
    rw [Machine.outputs_cons, Machine.outputs_nil, hfeed]
  refine ⟨houtputs, ?_⟩
  have hcount := (reader_sequencing [schemaCall]).2.1
  rw [houtputs] at hcount
  exact hcount

end ShiboriSequence
