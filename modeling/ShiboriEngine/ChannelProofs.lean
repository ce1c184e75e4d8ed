import Mathlib
import ShiboriEngine.Library.InOrder
import ShiboriEngine.FramingProofs

/-! # A record stream over an unreliable channel

    Between writer and reader records are lost, repeated, reordered and
    damaged, and the reader applies limits of its own.  What the reader accepts
    is still the beginning of what was written, each record once and in order,
    and it accepts as much as any reader of the order could. -/

namespace ShiboriChannel

open ShiboriError ShiboriIntegrity ShiboriResource ShiboriRecord
open ShiboriRecordCodec ShiboriSequence ShiboriStream ShiboriFraming
open ShiboriCrc32cX86 ShiboriCrc32c InOrder Spans

/-! ## What the channel hands over -/

/-- A copy of the record written at a position, with the limits it is read
    under; one with damage of at most four bytes; or any other call that does
    not verify. -/
inductive Arrival where
  | copy (position : Nat) (limits : RecordEnvelopeLimits)
  | damaged (position : Nat)
  | noise
deriving DecidableEq, Repr

/-- A call that a channel may hand over for what the writer made. -/
def Arrival.Hands (written : List Call) : Arrival → Call → Prop
  | .copy position limits, call => ∃ original,
      written[position]? = some original
        ∧ call = { original with limits := limits }
  | .damaged position, call => ∃ original,
      written[position]? = some original
        ∧ Damaged (contentOf original) (contentOf call)
  | .noise, call => ∀ record, verifyRecord call.envelopeBytes call.extension
      call.payload call.limits ≠ .ok record

/-- The limits leave room for the record. -/
def Fits (record : StreamRecord) (limits : RecordEnvelopeLimits) : Prop :=
  record.extension.length ≤ limits.maximumExtensionLength.toNat
    ∧ record.payload.length ≤ limits.maximumPayloadLength.toNat

instance (record : StreamRecord) (limits : RecordEnvelopeLimits) :
    Decidable (Fits record limits) :=
  inferInstanceAs (Decidable (_ ∧ _))

instance (record : StreamRecord) : Decidable record.Unreadable :=
  inferInstanceAs (Decidable (_ ∧ _))

/-- The position that a reader learns from an arrival. -/
def Arrival.position (deliveries : List Delivery) : Arrival → Option Nat
  | .copy position limits =>
      deliveries[position]?.bind fun delivery =>
        if Fits delivery.record limits then some position else none
  | .damaged _ => none
  | .noise => none

/-- A position with a record that the reader understands or may skip. -/
def Readable (deliveries : List Delivery) (position : Nat) : Prop :=
  ∃ hlen : position < deliveries.length,
    ¬ deliveries[position].record.Unreadable

instance (deliveries : List Delivery) :
    DecidablePred (Readable deliveries) :=
  fun _ => inferInstanceAs (Decidable (∃ _, _))

/-! ## What the reader accepts -/

/-- The content of a call, if the call is accepted. -/
def acceptedContent (call : Call) : Outcome → Option Content
  | .accepted _ _ => some (contentOf call)
  | _ => none

/-- What a reader accepts of its calls, in the order of acceptance. -/
def acceptedContents (tracker : RecordSequenceTracker) (calls : List Call) :
    List Content :=
  Machine.collect feed acceptedContent tracker calls

section Step

variable {hasher : WriterHasher} {deliveries : List Delivery}
  {tracker : RecordSequenceTracker} {call : Call}

/-- Nothing is accepted, and the tracker stays. -/
def Dropped (tracker : RecordSequenceTracker) (call : Call) : Prop :=
  acceptedContent call (feed tracker call).1 = none
    ∧ (feed tracker call).2 = tracker

/-- What does not verify is dropped. -/
theorem dropped_of_unverified
    (h : ∀ record, verifyRecord call.envelopeBytes call.extension call.payload
      call.limits ≠ .ok record) : Dropped tracker call := by
  rcases feed_cases tracker call with ⟨error, hfeed, _⟩
    | ⟨record, error, _, hverify, _⟩ | ⟨record, disposition, _, hverify, _⟩
  · rw [Dropped, hfeed]
    exact ⟨rfl, rfl⟩
  · exact (h record hverify).elim
  · exact (h record hverify).elim

/-- A verified record has room in the limits it was verified under. -/
theorem not_verified_of_not_fits {delivery : Delivery} {position : Nat}
    {limits : RecordEnvelopeLimits} (h : ¬ Fits delivery.record limits)
    (record : VerifiedRecord) :
    verifyRecord (callOf hasher (delivery, position)).envelopeBytes
      delivery.record.extension delivery.record.payload limits
        ≠ .ok record := by
  intro hverify
  obtain ⟨hparse, hext, hpay, _⟩ := verifyRecord_eq_ok.mp hverify
  obtain ⟨_, _, _, hwithin⟩ := parseRecordEnvelope_eq_ok.mp hparse
  refine h ⟨?_, ?_⟩
  · rw [hext]
    exact UInt16.le_iff_toNat_le.mp hwithin.extension
  · rw [hpay]
    exact UInt64.le_iff_toNat_le.mp hwithin.payload

/-- A damaged record does not verify. -/
theorem not_verified_of_damaged {original : Call}
    (h : (contentOf original).Sealed)
    (hdamage : Damaged (contentOf original) (contentOf call))
    (record : VerifiedRecord) :
    verifyRecord call.envelopeBytes call.extension call.payload call.limits
      ≠ .ok record := by
  intro hverify
  have hlen : call.envelopeBytes.length = recordEnvelopeSize := by
    cases hdamage with
    | envelope hdiffers _ _ => exact hdiffers.length_eq.symm.trans h.length
    | content hkept _ _ _ =>
        exact (congrArg List.length hkept).trans h.length
  exact damaged_stuck h hdamage [] (contentOf call)
    ⟨call.limits, hlen, record, hverify⟩ (List.prefix_append _ [])

/-- The calls of the writer's records. -/
def writtenCalls (hasher : WriterHasher) (deliveries : List Delivery) :
    List Call :=
  deliveries.zipIdx.map (callOf hasher)

/-- What the writer sends at a position. -/
theorem writtenCalls_getElem? {position : Nat} {original : Call}
    (h : (writtenCalls hasher deliveries)[position]? = some original) :
    ∃ hlen : position < deliveries.length,
      original = callOf hasher (deliveries[position], position) := by
  obtain ⟨hposition, _⟩ := List.getElem?_eq_some_iff.mp h
  have hlen : position < deliveries.length := by
    rw [writtenCalls, List.length_map, List.length_zipIdx] at hposition
    exact hposition
  rw [writtenCalls, call_getElem? hlen] at h
  exact ⟨hlen, (Option.some.inj h).symm⟩

/-- What the reader does with a copy that its limits leave room for: it accepts
    the expected record if it is readable, and drops every other one. -/
theorem feed_copy (h : ShiboriStream.Sound hasher)
    (tracker : RecordSequenceTracker) (delivery : Delivery)
    {position : Nat} (hnext : position + 1 < 2 ^ 64)
    (hcall : call = callOf hasher (delivery, position)) :
    (position = tracker.expectedSequence.toNat
        ∧ ¬ delivery.record.Unreadable
        ∧ acceptedContent call (feed tracker call).1 = some (contentOf call)
        ∧ (feed tracker call).2.expectedSequence.toNat = position + 1)
      ∨ (¬ (position = tracker.expectedSequence.toNat
          ∧ ¬ delivery.record.Unreadable)
        ∧ Dropped tracker call) := by
  have hpos : position < 2 ^ 64 := Nat.lt_of_succ_lt hnext
  subst hcall
  by_cases hseq : tracker.expectedSequence.toNat = position
  case neg =>
    refine Or.inr ⟨fun hc => hseq hc.1.symm, ?_⟩
    rw [Dropped, feed_mismatch h hpos hseq]
    exact ⟨rfl, rfl⟩
  by_cases hread : delivery.record.Unreadable
  case pos =>
    refine Or.inr ⟨fun hc => hc.2 hread, ?_⟩
    rw [Dropped, feed_unreadable h hpos hseq hread]
    exact ⟨rfl, rfl⟩
  obtain ⟨hout, hafter⟩ := feed_live h hnext hseq hread
  refine Or.inl ⟨hseq.symm, hread, ?_, ?_⟩
  · rw [hout]
    rfl
  · rw [hafter]
    exact UInt64.toNat_ofNat_of_lt' hnext

/-- What the writer sends is sealed. -/
theorem writtenCalls_sealed (h : ShiboriStream.Sound hasher)
    (hcount : deliveries.length < 2 ^ 64) {position : Nat} {original : Call}
    (hget : (writtenCalls hasher deliveries)[position]? = some original) :
    (contentOf original).Sealed :=
  stream_sealed h hcount _
    (List.mem_map_of_mem (List.mem_of_getElem? hget))

/-- **STEP**: the reader takes an arrival exactly when the receiver in order
    takes its position, and what it accepts is what was written there. -/
theorem feed_arrival (h : ShiboriStream.Sound hasher)
    (hcount : deliveries.length < 2 ^ 64) {arrival : Arrival}
    (hhands : arrival.Hands (writtenCalls hasher deliveries) call) :
    (arrival.position deliveries = some tracker.expectedSequence.toNat
        ∧ Readable deliveries tracker.expectedSequence.toNat
        ∧ (∃ original, (writtenCalls hasher deliveries)[
            tracker.expectedSequence.toNat]? = some original
          ∧ acceptedContent call (feed tracker call).1
            = some (contentOf original))
        ∧ (feed tracker call).2.expectedSequence.toNat
          = tracker.expectedSequence.toNat + 1)
      ∨ (¬ (arrival.position deliveries = some tracker.expectedSequence.toNat
          ∧ Readable deliveries tracker.expectedSequence.toNat)
        ∧ Dropped tracker call) := by
  cases arrival with
  | noise =>
      refine Or.inr ⟨?_, dropped_of_unverified hhands⟩
      rintro ⟨hposition, _⟩
      cases hposition
  | damaged position =>
      obtain ⟨original, hget, hdamage⟩ := hhands
      refine Or.inr ⟨?_, dropped_of_unverified (not_verified_of_damaged
        (writtenCalls_sealed h hcount hget) hdamage)⟩
      rintro ⟨hposition, _⟩
      cases hposition
  | copy position limits =>
      obtain ⟨original, hget, rfl⟩ := hhands
      obtain ⟨hlen, rfl⟩ := writtenCalls_getElem? hget
      have hposition : (Arrival.copy position limits).position deliveries
          = if Fits deliveries[position].record limits then some position
            else none := by
        rw [Arrival.position, List.getElem?_eq_getElem hlen]
        rfl
      by_cases hfits : Fits deliveries[position].record limits
      case neg =>
        rw [hposition, if_neg hfits]
        refine Or.inr ⟨?_,
          dropped_of_unverified (not_verified_of_not_fits hfits)⟩
        rintro ⟨hnone, _⟩
        cases hnone
      rw [hposition, if_pos hfits, Option.some.injEq]
      rcases feed_copy h tracker
        ⟨deliveries[position].record, limits, hfits.1, hfits.2⟩
        (Nat.lt_of_le_of_lt hlen hcount) rfl
        with ⟨hseq, hread, hout, hafter⟩ | ⟨hno, hdropped⟩
      · subst hseq
        exact Or.inl ⟨rfl, ⟨hlen, hread⟩, ⟨_, hget, hout⟩, hafter⟩
      · refine Or.inr ⟨?_, hdropped⟩
        rintro ⟨hseq, _, hread⟩
        subst hseq
        exact hno ⟨rfl, hread⟩

end Step

/-! ## Whole receptions -/

section Run

variable {hasher : WriterHasher} {deliveries : List Delivery}

/-- Where the receiver in order gets to from a position. -/
def reached (deliveries : List Delivery) (expected : Nat)
    (arrivals : List Arrival) : Nat :=
  Machine.finalState (receive (Readable deliveries)) expected
    (arrivals.map (Arrival.position deliveries))

/-- **RUN**: the tracker is where the receiver in order is, and what was
    accepted on the way is what was written on the way. -/
theorem run_arrivals (h : ShiboriStream.Sound hasher)
    (hcount : deliveries.length < 2 ^ 64) {arrivals : List Arrival}
    {calls : List Call}
    (hhands : List.Forall₂ (Arrival.Hands (writtenCalls hasher deliveries))
      arrivals calls) (tracker : RecordSequenceTracker) :
    let expected := tracker.expectedSequence.toNat
    let after := reached deliveries expected arrivals
    (Machine.finalState feed tracker calls).expectedSequence.toNat = after
      ∧ ((writtenCalls hasher deliveries).take expected).map contentOf
          ++ acceptedContents tracker calls
        = ((writtenCalls hasher deliveries).take after).map contentOf := by
  intro expected after
  induction hhands generalizing tracker with
  | nil => exact ⟨rfl, List.append_nil _⟩
  | @cons arrival call arrivals calls hhere _ ih =>
      obtain ⟨hfinal, haccepted⟩ := ih (feed tracker call).2
      have hstep : acceptedContents tracker (call :: calls)
          = (acceptedContent call (feed tracker call).1).toList
            ++ acceptedContents (feed tracker call).2 calls := rfl
      have hafter : after = reached deliveries
          (receive (Readable deliveries) expected
            (arrival.position deliveries)).2 arrivals := rfl
      rcases feed_arrival h hcount hhere with
        ⟨hposition, hread, ⟨original, hget, hout⟩, hnext⟩
        | ⟨hno, hnone, hkept⟩
      · rw [receive_taken hposition hread] at hafter
        rw [hnext] at hfinal haccepted
        refine ⟨hfinal.trans hafter.symm, ?_⟩
        rw [hstep, hout, hafter, ← haccepted, List.take_add_one, hget,
          ← List.append_assoc, List.map_append]
        rfl
      · rw [receive_dropped hno] at hafter
        rw [hkept] at hfinal haccepted
        refine ⟨?_, ?_⟩
        · rw [Machine.finalState_cons, hkept, hafter]
          exact hfinal
        · rw [hstep, hnone, hkept, hafter, ← haccepted]
          rfl

end Run

/-- **UNRELIABLE CHANNEL**: whatever is lost, repeated, reordered, damaged or
    beyond the limits on the way, the reader accepts the beginning of what was
    written, in order and once; and it gets as far as `n` exactly when all
    records below `n` are readable and come in order, under limits with room
    for them. -/
theorem unreliable_channel (intrinsics : X86Intrinsics) (mode : Crc32cMode)
    (build : Option X86Build) (deliveries : List Delivery)
    (hhasher : mode = .portable ∨ intrinsics.Castagnoli)
    (hcount : deliveries.length < 2 ^ 64) :
    ∃ written, makeStream ⟨mode, buildBackend intrinsics build⟩ deliveries
        = .ok written
      ∧ ∀ arrivals calls, List.Forall₂ (Arrival.Hands written) arrivals calls
        → ∃ accepted, accepted ≤ deliveries.length
          ∧ acceptedContents {} calls
            = (written.take accepted).map contentOf
          ∧ (Machine.finalState feed {} calls).expectedSequence.toNat
            = accepted
          ∧ ∀ n, n ≤ accepted
            ↔ (∀ j, j < n → Readable deliveries j)
              ∧ ((List.range n).map some).Sublist
                (arrivals.map (Arrival.position deliveries)) := by
  have hsound : ShiboriStream.Sound ⟨mode, buildBackend intrinsics build⟩ := by
    rcases hhasher with hportable | hintrinsics
    · exact Or.inl hportable
    · exact Or.inr (buildBackend_agrees hintrinsics build)
  refine ⟨_, makeStream_eq _ deliveries, ?_⟩
  intro arrivals calls hhands
  obtain ⟨hfinal, haccepted⟩ := run_arrivals hsound hcount hhands {}
  have hreach : ∀ n, n ≤ reached deliveries 0 arrivals
      ↔ (∀ j, j < n → Readable deliveries j)
        ∧ ((List.range n).map some).Sublist
          (arrivals.map (Arrival.position deliveries)) := by
    intro n
    rw [reached, le_finalState_iff, Comes, missing, Nat.sub_zero,
      ← List.range_eq_range']
    refine and_congr_left ?_
    intro _
    exact forall_congr' fun j => forall_prop_of_true (Nat.zero_le j)
  refine ⟨reached deliveries 0 arrivals, ?_, haccepted, hfinal, hreach⟩
  -- past the last record nothing is readable
  refine Nat.not_lt.mp ?_
  intro hpast
  obtain ⟨hread, _⟩ := (hreach _).mp hpast
  obtain ⟨hlen, _⟩ := hread deliveries.length (Nat.lt_succ_self _)
  exact Nat.lt_irrefl _ hlen

/-- The second record comes early and later again, the first one comes
    damaged, whole and twice, and the third one is unreadable. -/
def mixedArrivals : List Arrival :=
  [.copy 1 ⟨16, 64⟩, .damaged 0, .noise, .copy 0 ⟨16, 64⟩, .copy 0 ⟨16, 64⟩,
    .copy 1 ⟨0, 64⟩, .copy 1 ⟨16, 64⟩, .copy 2 ⟨16, 64⟩, .copy 3 ⟨16, 64⟩]

/-- The calls of `mixedArrivals`. -/
def mixedReception : List Call :=
  [mixedCalls[1], { mixedCalls[0] with payload := [0x65] },
    ⟨[], [], [], ⟨16, 64⟩⟩, mixedCalls[0], mixedCalls[0],
    { mixedCalls[1] with limits := ⟨0, 64⟩ }, mixedCalls[1], mixedCalls[2],
    mixedCalls[3]]

/-- Two records of a stream come through. -/
theorem unreliable_channel_at_mixedStream :
    ∃ written, makeStream ⟨.portable, buildBackend softwareIntrinsics none⟩
        mixedStream = .ok written
      ∧ acceptedContents {} mixedReception
        = (written.take 2).map contentOf := by
  obtain ⟨written, hmake, hchannel⟩ := unreliable_channel softwareIntrinsics
    .portable none mixedStream (Or.inl rfl) (by decide)
  have hwritten : written = mixedCalls :=
    Except.ok.inj (hmake.symm.trans (makeStream_eq _ mixedStream))
  subst hwritten
  have hdamage : Damaged (contentOf mixedCalls[0])
      (contentOf { mixedCalls[0] with payload := [0x65] }) :=
    .content rfl rfl rfl
      (DiffersWithin.of_length_le rfl (by decide) (by decide))
  have hnoise : ∀ record, verifyRecord [] [] [] ⟨16, 64⟩ ≠ .ok record := by
    intro record hverify
    cases hverify
  have hhands : List.Forall₂ (Arrival.Hands mixedCalls) mixedArrivals
      mixedReception :=
    .cons ⟨_, rfl, rfl⟩ (.cons ⟨_, rfl, hdamage⟩ (.cons hnoise
      (.cons ⟨_, rfl, rfl⟩ (.cons ⟨_, rfl, rfl⟩ (.cons ⟨_, rfl, rfl⟩
        (.cons ⟨_, rfl, rfl⟩ (.cons ⟨_, rfl, rfl⟩ (.cons ⟨_, rfl, rfl⟩
          .nil))))))))
  obtain ⟨accepted, _, haccepted, _, hreach⟩ :=
    hchannel mixedArrivals mixedReception hhands
  have htwo : 2 ≤ accepted := (hreach 2).mpr ⟨by decide, by decide⟩
  have hstop : ¬ 3 ≤ accepted := by
    intro hthree
    obtain ⟨hread, _⟩ := (hreach 3).mp hthree
    exact absurd (hread 2 (by decide)) (by decide)
  have hcount : accepted = 2 := by omega
  subst hcount
  exact ⟨mixedCalls, hmake, haccepted⟩

end ShiboriChannel
