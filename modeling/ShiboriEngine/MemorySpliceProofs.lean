import Mathlib
import ShiboriEngine.Buffer
import ShiboriEngine.ExactTransferProofs
import ShiboriEngine.AdapterRefinementProofs

/-! # The memory adapters splice byte arrays

    A sink behaves as an array with a position: writing replaces a span, as
    far as the bound allows, and seeking stays within what was written.  The
    reference array knows nothing of the size of one operation, so that size
    is unobservable.  Reading back takes a span of the content. -/

namespace ShiboriMemorySplice

open ShiboriError ShiboriBuffer ShiboriByteIo ShiboriMemoryIo
open ShiboriExactTransfer ShiboriAdapterRefinement Machine Transfer Spans Words

/-! ## The array -/

/-- The bytes so far and where the next ones go. -/
structure SplicedArray where
  bytes : List UInt8 := []
  position : Nat := 0

/-- What a write beyond the bound fails with. -/
def limitReached : Error :=
  { code := .limitExceeded, operation := .write
    message := "memory sink maximum size was reached" }

/-- What a seek beyond the bytes fails with. -/
def beyondWritten : Error :=
  { code := .ioWriteFailed, operation := .write
    message := "memory sink cannot seek beyond written bytes" }

namespace SplicedArray

/-- Replaces the span at the position; only its part within `maximumSize` when
    it runs over. -/
def write (self : SplicedArray) (maximumSize : Nat) (data : List UInt8) :
    Status × SplicedArray :=
  if self.position + data.length ≤ maximumSize then
    (.ok (), { bytes := overwrite self.bytes self.position data
               position := self.position + data.length })
  else
    (.error limitReached,
      { bytes := overwrite self.bytes self.position
          (data.take (maximumSize - self.position))
        position := maximumSize })

/-- Stands at a position up to the end. -/
def seek (self : SplicedArray) (position : Nat) : Status × SplicedArray :=
  if position ≤ self.bytes.length then
    (.ok (), { self with position := position })
  else (.error beyondWritten, self)

/-- **REPLACING**: data that fits replaces its span; what stands before and
    after the span stays. -/
theorem write_replaces {self : SplicedArray} {maximumSize : Nat}
    {data : List UInt8} (hwithin : self.position ≤ self.bytes.length)
    (hfit : self.position + data.length ≤ maximumSize) :
    let bytes := (self.write maximumSize data).2.bytes
    (self.write maximumSize data).1 = .ok ()
      ∧ bytes.take self.position = self.bytes.take self.position
      ∧ subspan bytes self.position data.length = data
      ∧ bytes.drop (self.position + data.length)
        = self.bytes.drop (self.position + data.length) := by
  rw [write, if_pos hfit]
  exact ⟨rfl, overwrite_take hwithin, overwrite_subspan hwithin,
    overwrite_drop hwithin⟩

/-- A refused position writes nothing. -/
def writeAt (self : SplicedArray) (maximumSize position : Nat)
    (data : List UInt8) : Status × SplicedArray :=
  match self.seek position with
  | (.error error, self) => (.error error, self)
  | (.ok (), self) => self.write maximumSize data

end SplicedArray

/-! ## Calls -/

/-- A request on a memory sink. -/
inductive SpliceCall where
  | writeAll (data : List UInt8)
  | writeAllAt (position : UInt64) (data : List UInt8)
  | seek (position : UInt64)

/-- The memory sink as a machine. -/
def sinkStep : Step MemoryByteSink SpliceCall Status
  | sink, .writeAll data => writeAll memorySink uncancelled sink data
  | sink, .writeAllAt position data =>
      writeAllAt memorySink uncancelled sink position data
  | sink, .seek position => sink.seek position false

/-- The array as a machine. -/
def arrayStep (maximumSize : Nat) : Step SplicedArray SpliceCall Status
  | array, .writeAll data => array.write maximumSize data
  | array, .writeAllAt position data =>
      array.writeAt maximumSize position.toNat data
  | array, .seek position => array.seek position.toNat

/-! ## One operation -/

/-- The position is within the bytes and the bytes within the bound. -/
structure Bounded (maximumSize : UInt64) (sink : MemoryByteSink) : Prop where
  within : sink.position.toNat ≤ sink.bytes.length
  bounded : sink.bytes.length ≤ maximumSize.toNat

/-- What a write leaves when it transfers `count` bytes. -/
def wrote (sink : MemoryByteSink) (data : List UInt8) (count : Nat) :
    MemoryByteSink :=
  { sink with
    bytes := overwrite sink.bytes sink.position.toNat (data.take count)
    position := sink.position + UInt64.ofNat count }

/-- **ONE WRITE** on a bounded sink: refused at the bound, or a part of the
    data that fits. -/
theorem write_spec {sink : MemoryByteSink}
    (h : Bounded sink.maximumSize sink) (data : List UInt8) :
    (data ≠ [] ∧ sink.position = sink.maximumSize
        ∧ sink.write data false = (.error limitReached, sink))
      ∨ (data ≠ [] → sink.position ≠ sink.maximumSize)
        ∧ ∃ count, count = allowed sink.maximumSize sink.maximumWriteSize
          sink.position data.length
        ∧ count ≤ data.length
        ∧ (wrote sink data count).position.toNat
          = sink.position.toNat + count
        ∧ Bounded sink.maximumSize (wrote sink data count)
        ∧ sink.write data false = (.ok count, wrote sink data count) := by
  obtain ⟨hwithin, hbounded⟩ := h
  have hle : sink.position ≤ sink.maximumSize :=
    le_toNat.mpr (Nat.le_trans hwithin hbounded)
  have hsub := UInt64.toNat_sub_of_le _ _ hle
  by_cases hroom : ¬ data.isEmpty ∧ sink.maximumSize - sink.position = 0
  · obtain ⟨hsome, hnone⟩ := hroom
    rw [List.isEmpty_iff] at hsome
    refine Or.inl ⟨hsome, ?_, ?_⟩
    · rw [hnone] at hsub
      have hzero : (0 : UInt64).toNat = 0 := rfl
      rw [le_toNat] at hle
      apply UInt64.toNat_inj.mp
      omega
    · rw [MemoryByteSink.write, if_neg Bool.false_ne_true,
        if_neg (UInt64.not_lt.mpr hle)]
      show (if _ then _ else _) = _
      rw [if_pos ⟨by rwa [List.isEmpty_iff], hnone⟩]
      rfl
  · have hfew := allowed_le_count sink.maximumSize sink.maximumWriteSize
      sink.position data.length
    have hfit := allowed_le_room sink.maximumSize sink.maximumWriteSize
      sink.position data.length
    have hwrite := memorySink_write hwithin hbounded hroom
    have hmore : data ≠ [] → sink.position ≠ sink.maximumSize := by
      intro hsome hfull
      refine hroom ⟨by rwa [List.isEmpty_iff], ?_⟩
      rw [hfull, UInt64.sub_self]
    refine Or.inr ⟨hmore, _, rfl, hfew, ?_⟩
    dsimp only at hwrite
    generalize allowed sink.maximumSize sink.maximumWriteSize sink.position
      data.length = count at hfew hfit hwrite
    have hmax := sink.maximumSize.toNat_lt
    have hword : (UInt64.ofNat count).toNat = count := toNat_ofNat_of_le hfit
    have hsum : (sink.position + UInt64.ofNat count).toNat
        = sink.position.toNat + count := by
      rw [toNat_add_of_lt (by omega), hword]
    have hgrown := @overwrite_length _ sink.bytes (data.take count) _ hwithin
    rw [List.length_take_of_le hfew] at hgrown
    rw [le_toNat] at hle
    refine ⟨hsum, ⟨?_, ?_⟩, hwrite⟩
    · dsimp only [wrote]
      omega
    · dsimp only [wrote]
      omega

/-- The sink with these bounds stands for the array. -/
structure StandsFor (maximumSize maximumWriteSize : UInt64)
    (sink : MemoryByteSink) (array : SplicedArray) : Prop where
  maximumSize_eq : sink.maximumSize = maximumSize
  maximumWriteSize_eq : sink.maximumWriteSize = maximumWriteSize
  bytes_eq : sink.bytes = array.bytes
  position_eq : sink.position.toNat = array.position
  within : array.position ≤ array.bytes.length
  bounded : array.bytes.length ≤ maximumSize.toNat

/-- A sink that stands for an array keeps to its bound. -/
theorem StandsFor.keeps {M w : UInt64} {sink : MemoryByteSink}
    {array : SplicedArray} (h : StandsFor M w sink array) : Bounded M sink := by
  obtain ⟨_, _, hbytes, hposition, hwithin, hbounded⟩ := h
  rw [← hbytes, ← hposition] at hwithin
  rw [← hbytes] at hbounded
  exact ⟨hwithin, hbounded⟩

section Sinks

variable {M w : UInt64} {sink : MemoryByteSink} {array : SplicedArray}

/-! ## Writing -/

/-- **CHUNKS**: what fits can be written in two parts. -/
theorem write_append {bound : Nat} (hwithin : array.position ≤ array.bytes.length)
    (xs ys : List UInt8) (hfit : array.position + xs.length ≤ bound) :
    array.write bound (xs ++ ys) = (array.write bound xs).2.write bound ys := by
  have hxs : (array.write bound xs).2
      = { bytes := overwrite array.bytes array.position xs
          position := array.position + xs.length } := by
    rw [SplicedArray.write, if_pos hfit]
  have hsize : array.position + (xs ++ ys).length
      = array.position + xs.length + ys.length := by
    rw [List.length_append, Nat.add_assoc]
  rw [hxs, SplicedArray.write, SplicedArray.write, hsize]
  by_cases hall : array.position + xs.length + ys.length ≤ bound
  · rw [if_pos hall, if_pos hall, overwrite_append hwithin]
  · have htake : (xs ++ ys).take (bound - array.position)
        = xs ++ ys.take (bound - (array.position + xs.length)) := by
      rw [List.take_append, List.take_of_length_le (by omega), Nat.sub_sub]
    rw [if_neg hall, if_neg hall, htake, overwrite_append hwithin]

/-- One operation with room writes part of what it is offered. -/
theorem write_chunk (h : StandsFor M w sink array) (hw : w ≠ 0)
    {rest : List UInt8} (hsome : rest ≠ [])
    (hroom : array.position < M.toNat) :
    ∃ count, 1 ≤ count ∧ count ≤ rest.length
      ∧ array.position + count ≤ M.toNat
      ∧ (sink.write rest false).1 = .ok count
      ∧ StandsFor M w (sink.write rest false).2
          (array.write M.toNat (rest.take count)).2 := by
  have hkeeps := h.keeps
  obtain ⟨bytes, position⟩ := array
  obtain ⟨rfl, rfl, rfl, rfl, _, _⟩ := h
  dsimp only at hroom ⊢
  rcases write_spec hkeeps rest with
    ⟨_, hfull, _⟩ | ⟨_, count, hcount, hfew, hnext, hafter, hwrite⟩
  · rw [hfull] at hroom
    exact (Nat.lt_irrefl _ hroom).elim
  have htaken : (rest.take count).length = count := List.length_take_of_le hfew
  have hfit : sink.position.toNat + count ≤ sink.maximumSize.toNat := by
    rw [← hnext]
    exact Nat.le_trans hafter.within hafter.bounded
  have hpos : 1 ≤ count := by
    have hlength := List.length_pos_iff.mpr hsome
    have hwpos : sink.maximumWriteSize.toNat ≠ 0 := fun hzero =>
      hw (UInt64.toNat_inj.mp hzero)
    have hle : sink.position ≤ sink.maximumSize :=
      le_toNat.mpr (Nat.le_trans hkeeps.within hkeeps.bounded)
    have hsub := UInt64.toNat_sub_of_le _ _ hle
    rw [hcount, allowed]
    omega
  refine ⟨count, hpos, hfew, hfit, ?_, ?_⟩
  · rw [hwrite]
  · have hwithin := hafter.within
    rw [hnext] at hwithin
    rw [hwrite, SplicedArray.write, htaken, if_pos hfit]
    exact ⟨rfl, rfl, rfl, hnext, hwithin, hafter.bounded⟩

/-- At its bound the sink takes nothing more. -/
theorem write_full (h : StandsFor M w sink array) {rest : List UInt8}
    (hsome : rest ≠ []) (hfull : array.position = M.toNat) :
    sink.write rest false = (.error limitReached, sink)
      ∧ array.write M.toNat rest = (.error limitReached, array) := by
  have hkeeps := h.keeps
  obtain ⟨rfl, rfl, _, hposition, _, _⟩ := h
  constructor
  · rcases write_spec hkeeps rest with ⟨_, _, hrefused⟩ | ⟨hmore, _⟩
    · exact hrefused
    · have hstands := UInt64.toNat_inj.mp (hposition.trans hfull)
      exact (hmore hsome hstands).elim
  · have hlength := List.length_pos_iff.mpr hsome
    rw [SplicedArray.write, if_neg (by omega), hfull, Nat.sub_self,
      List.take_zero, overwrite_nil, ← hfull]

/-- What is left to write of the data is written as one span. -/
theorem writeAllLoop_splices (h : StandsFor M w sink array) (hw : w ≠ 0)
    (data : List UInt8) (completed : Nat) :
    (writeAllLoop memorySink uncancelled sink data completed).1
        = (array.write M.toNat (data.drop completed)).1
      ∧ StandsFor M w
          (writeAllLoop memorySink uncancelled sink data completed).2
          (array.write M.toNat (data.drop completed)).2 := by
  rw [writeAllLoop_eq]
  dsimp only
  have hpoll : ∀ world, ((writeChannel memorySink uncancelled).poll world).1
      = false := fun _ => rfl
  -- By induction on what is left to write; the array moves along.
  induction hn : data.length - completed using Nat.strong_induction_on
    generalizing sink array completed with
  | _ n ih =>
      by_cases hmore : completed < data.length
      · have hsome : data.drop completed ≠ [] := by
          rw [ne_eq, List.drop_eq_nil_iff]
          omega
        have hlength : (data.drop completed).length = data.length - completed :=
          List.length_drop
        by_cases hroom : array.position < M.toNat
        · obtain ⟨count, hpos, hfew, hfit, hreply, hnext⟩ :=
            write_chunk h hw hsome hroom
          have hjudge : writeRules.judge (data.length - completed) count
              = none := judgeWrite_none.mpr ⟨hpos, by omega⟩
          rw [run_step hmore (hpoll sink) rfl hreply hjudge]
          show (run writeRules _ (sink.write (data.drop completed) false).2
              (data.take completed ++ data.drop completed)
              (completed + count)).1 = _ ∧ StandsFor M w
            (run writeRules _ (sink.write (data.drop completed) false).2
              (data.take completed ++ data.drop completed)
              (completed + count)).2.2 _
          have hsplit : data.drop completed
              = (data.drop completed).take count
                ++ data.drop (completed + count) := by
            rw [← List.drop_drop, List.take_append_drop]
          have htaken : ((data.drop completed).take count).length = count :=
            List.length_take_of_le hfew
          have hinside : array.position + ((data.drop completed).take count).length
              ≤ M.toNat := by
            rw [htaken]
            exact hfit
          have hchunks := write_append h.within _
            (data.drop (completed + count)) hinside
          rw [← hsplit] at hchunks
          rw [List.take_append_drop]
          rw [hchunks]
          exact ih (data.length - (completed + count)) (by omega) hnext _ rfl
        · have hfull : array.position = M.toNat :=
            Nat.le_antisymm (Nat.le_trans h.within h.bounded)
              (Nat.le_of_not_lt hroom)
          obtain ⟨hrefused, harray⟩ := write_full h hsome hfull
          have hreply : (sink.write (data.drop completed) false).1
              = .error limitReached := by rw [hrefused]
          rw [run_failed hmore (hpoll sink) rfl hreply, harray]
          refine ⟨rfl, ?_⟩
          show StandsFor M w (sink.write (data.drop completed) false).2 array
          rw [hrefused]
          exact h
      · have hdone : data.length ≤ completed := Nat.le_of_not_lt hmore
        rw [run_done hdone, List.drop_eq_nil_of_le hdone]
        have hfit : array.position + 0 ≤ M.toNat :=
          Nat.le_trans h.within h.bounded
        rw [SplicedArray.write, List.length_nil, if_pos hfit, overwrite_nil]
        exact ⟨rfl, h⟩

/-- `write_all` splices. -/
theorem writeAll_splices (h : StandsFor M w sink array) (hw : w ≠ 0)
    (data : List UInt8) :
    (writeAll memorySink uncancelled sink data).1
        = (array.write M.toNat data).1
      ∧ StandsFor M w (writeAll memorySink uncancelled sink data).2
          (array.write M.toNat data).2 :=
  writeAllLoop_splices h hw data 0

/-! ## Seeking -/

/-- A seek moves the array too. -/
theorem seek_splices (h : StandsFor M w sink array) (position : UInt64) :
    (sink.seek position false).1 = (array.seek position.toNat).1
      ∧ StandsFor M w (sink.seek position false).2
          (array.seek position.toNat).2 := by
  rw [MemoryByteSink.seek, if_neg Bool.false_ne_true, SplicedArray.seek,
    h.bytes_eq]
  by_cases hwithin : position.toNat ≤ array.bytes.length
  · rw [if_neg (Nat.not_lt.mpr hwithin), if_pos hwithin]
    exact ⟨rfl, h.maximumSize_eq, h.maximumWriteSize_eq, rfl, rfl, hwithin,
      h.bounded⟩
  · rw [if_pos (Nat.lt_of_not_le hwithin), if_neg hwithin]
    exact ⟨rfl, h⟩

/-- `write_all_at` splices at its position. -/
theorem writeAllAt_splices (h : StandsFor M w sink array) (hw : w ≠ 0)
    (position : UInt64) (data : List UInt8) :
    (writeAllAt memorySink uncancelled sink position data).1
        = (array.writeAt M.toNat position.toNat data).1
      ∧ StandsFor M w
          (writeAllAt memorySink uncancelled sink position data).2
          (array.writeAt M.toNat position.toNat data).2 := by
  have hcapable : requireSinkCapabilities (memorySink.capabilities sink)
      ⟨false, true, false⟩ = .ok () := rfl
  obtain ⟨hstatus, hnext⟩ := seek_splices h position
  rcases hsink : sink.seek position false with ⟨status, sink'⟩
  rcases harray : array.seek position.toNat with ⟨status', array'⟩
  rw [hsink, harray] at hstatus hnext
  dsimp only at hstatus hnext
  subst hstatus
  have hseek : memorySink.seek sink position = (status, sink') := hsink
  rw [writeAllAt, hcapable, SplicedArray.writeAt, harray]
  dsimp only [uncancelled]
  rw [hseek]
  cases status with
  | error error => exact ⟨rfl, hnext⟩
  | ok _ => exact writeAll_splices hnext hw data

/-- **ONE CALL** is answered as the array answers it. -/
theorem sinkStep_splices (h : StandsFor M w sink array) (hw : w ≠ 0)
    (call : SpliceCall) :
    (sinkStep sink call).1 = (arrayStep M.toNat array call).1
      ∧ StandsFor M w (sinkStep sink call).2
          (arrayStep M.toNat array call).2 := by
  cases call with
  | writeAll data => exact writeAll_splices h hw data
  | writeAllAt position data => exact writeAllAt_splices h hw position data
  | seek position => exact seek_splices h position

end Sinks

/-! ## Reading -/

/-- What a read beyond the end fails with. -/
def endedEarly : Error :=
  { code := .unexpectedEnd, operation := .read
    message := "byte source ended before the requested bytes" }

/-- What a seek beyond the end fails with. -/
def beyondEnd : Error :=
  { code := .ioReadFailed, operation := .read
    message := "memory source seek is beyond the end" }

/-- Overwriting the rest of a list. -/
theorem take_append_overwrite_drop {α : Type} (xs ys : List α) (offset : Nat) :
    xs.take offset ++ overwrite (xs.drop offset) 0 ys
      = overwrite xs offset ys := by
  rw [overwrite, overwrite, List.take_zero, List.nil_append, Nat.zero_add,
    List.drop_drop, List.append_assoc]

/-- A span past the end stops at the end. -/
theorem subspan_eq_of_le {α : Type} {xs : List α} {offset a b : Nat}
    (ha : xs.length ≤ offset + a) (hb : xs.length ≤ offset + b) :
    subspan xs offset a = subspan xs offset b := by
  rw [subspan, subspan, List.take_of_length_le, List.take_of_length_le]
  · rw [List.length_drop]
    omega
  · rw [List.length_drop]
    omega

/-- A report that the content ended inside the span offends. -/
theorem judge_ended {remaining count stop size : Nat} (hfew : count ≤ remaining)
    (hends : stop = size) (hshort : count ≠ remaining) :
    judgeRead remaining { bytesRead := count, eof := stop = size }
      = some endedEarly := by
  rw [judgeRead, if_neg (Nat.not_lt.mpr hfew), decide_eq_true hends]
  dsimp only
  by_cases hnone : count = 0
  · rw [if_pos hnone]
    rfl
  · rw [if_neg hnone, if_pos ⟨rfl, hshort⟩]
    rfl

/-- The source reads this content from this position on. -/
structure ReadsFrom (content : List UInt8) (source : MemoryByteSource)
    (position : Nat) : Prop where
  bytes_eq : source.bytes = content
  position_eq : source.position.toNat = position
  readSize_ne_zero : source.maximumReadSize ≠ 0
  within : position ≤ content.length
  size_lt : content.length < 2 ^ 64

section Sources

variable {content : List UInt8} {source : MemoryByteSource} {position : Nat}

/-- One operation reads part of what it is asked for, at the end nothing. -/
theorem read_chunk (h : ReadsFrom content source position)
    (span : List UInt8) :
    ∃ count after, count ≤ span.length
      ∧ (count = 0 → span ≠ [] → position = content.length)
      ∧ ReadsFrom content after (position + count)
      ∧ memorySource.read source span
        = (.ok { bytesRead := count
                 eof := position + count = content.length },
            overwrite span 0 (subspan content position count), after) := by
  obtain ⟨rfl, rfl, hr, hwithin, hsize⟩ := h
  have hsizeWord : source.size.toNat = source.bytes.length :=
    UInt64.toNat_ofNat_of_lt' hsize
  have hposition : source.position ≤ source.size := by
    rw [le_toNat, hsizeWord]
    exact hwithin
  have hsub := UInt64.toNat_sub_of_le _ _ hposition
  have hrpos : 0 < source.maximumReadSize.toNat := by
    rw [Nat.pos_iff_ne_zero]
    intro hzero
    exact hr (UInt64.toNat_inj.mp hzero)
  have hcall : memorySource.read source span = source.read span false := rfl
  rw [memorySource_read] at hcall
  dsimp only at hcall
  have hfew := allowed_le_count source.size source.maximumReadSize
    source.position span.length
  have hfit := allowed_le_room source.size source.maximumReadSize
    source.position span.length
  have hzero : allowed source.size source.maximumReadSize source.position
      span.length = 0 → span ≠ [] →
        source.position.toNat = source.bytes.length := by
    intro hnone hspan
    have hlength := List.length_pos_iff.mpr hspan
    rw [allowed] at hnone
    omega
  generalize allowed source.size source.maximumReadSize source.position
    span.length = count at hcall hfew hfit hzero
  have hword : (UInt64.ofNat count).toNat = count := toNat_ofNat_of_le hfit
  have hsum : (source.position + UInt64.ofNat count).toNat
      = source.position.toNat + count := by
    rw [toNat_add_of_lt (by omega), hword]
  rw [hsum] at hcall
  refine ⟨count, _, hfew, hzero, ?_, hcall⟩
  exact ⟨rfl, hsum, hr, by omega, hsize⟩

/-- What is left to read is read as one span, as far as the content goes. -/
theorem readExactLoop_spans (h : ReadsFrom content source position)
    {destination : List UInt8} {completed : Nat}
    (hle : completed ≤ destination.length) :
    let result := readExactLoop memorySource uncancelled source destination
      completed
    result.1
        = (if position + (destination.length - completed) ≤ content.length then
            .ok ()
          else .error endedEarly)
      ∧ result.2.1 = overwrite destination completed
          (subspan content position (destination.length - completed)) := by
  rw [readExactLoop_eq]
  dsimp only
  have hpoll : ∀ world, ((readChannel memorySource uncancelled).poll world).1
      = false := fun _ => rfl
  -- By induction on what is left to read; the source moves along.
  induction hn : destination.length - completed using Nat.strong_induction_on
    generalizing source position destination completed with
  | _ n ih =>
      by_cases hmore : completed < destination.length
      · have hrest : (destination.drop completed).length = n := by
          rw [List.length_drop]
          exact hn
        have hsome : destination.drop completed ≠ [] := by
          rw [ne_eq, List.drop_eq_nil_iff]
          omega
        obtain ⟨count, after, hfew, hzero, hafter, hcall⟩ :=
          read_chunk h (destination.drop completed)
        rw [hrest] at hfew
        have hlast := hafter.within
        by_cases hshort : position + count = content.length ∧ count ≠ n
        · -- The content ends inside the span, so the report offends.
          have hbeyond : ¬ position + n ≤ content.length := by omega
          have hjudge : readRules.judge (destination.length - completed)
              { bytesRead := count
                eof := position + count = content.length }
              = some endedEarly := by
            rw [hn]
            exact judge_ended hfew hshort.1 hshort.2
          rw [run_refused hmore (hpoll source) hcall rfl hjudge,
            if_neg hbeyond]
          have hcut : subspan content position count
              = subspan content position n :=
            subspan_eq_of_le (by omega) (by omega)
          refine ⟨rfl, ?_⟩
          dsimp only
          rw [take_append_overwrite_drop, hcut]
        · have hpos : 1 ≤ count := by
            by_contra hnone
            have hzero := hzero (by omega) hsome
            omega
          have hjudge : readRules.judge (destination.length - completed)
              { bytesRead := count
                eof := position + count = content.length } = none := by
            refine judgeRead_none.mpr ⟨hpos, ?_, ?_⟩
            · dsimp only
              omega
            · intro heof
              have hends : position + count = content.length :=
                of_decide_eq_true heof
              dsimp only
              omega
          have hspan : (subspan content position count).length = count :=
            subspan_length hlast
          have hlength : (overwrite destination completed
              (subspan content position count)).length
              = destination.length := by
            rw [overwrite_length hle, hspan]
            omega
          have hsplit : subspan content position n
              = subspan content position count
                ++ subspan content (position + count) (n - count) := by
            rw [← subspan_add, Nat.add_sub_cancel' hfew]
          have hrun := ih (n - count) (by omega) hafter
            (show completed + count ≤ (overwrite destination completed
              (subspan content position count)).length by omega) (by omega)
          rw [run_step hmore (hpoll source) hcall rfl hjudge]
          dsimp only
          rw [take_append_overwrite_drop, hsplit, ← overwrite_append hle, hspan]
          have hsame : position + count + (n - count) = position + n := by omega
          rw [hsame] at hrun
          exact hrun
      · have hzero : n = 0 := by omega
        subst hzero
        have hspan : subspan content position 0 = [] := rfl
        rw [run_done (Nat.le_of_not_lt hmore), Nat.add_zero,
          if_pos h.within, hspan, overwrite_nil]
        exact ⟨rfl, rfl⟩

end Sources

/-- What a read of a span of the content gives: the status and the
    destination afterwards. -/
def readSpan (content : List UInt8) (position : Nat)
    (destination : List UInt8) : Status × List UInt8 :=
  if position > content.length then (.error beyondEnd, destination)
  else if position + destination.length ≤ content.length then
    (.ok (), subspan content position destination.length)
  else
    (.error endedEarly, overwrite destination 0 (content.drop position))

/-- **POSITIONED READS** are spans of the content, wherever the source stood
    and however little one operation may read. -/
theorem readExactAt_spans {source : MemoryByteSource}
    (hr : source.maximumReadSize ≠ 0) (hsize : source.bytes.length < 2 ^ 64)
    (position : UInt64) (destination : List UInt8) :
    let result := readExactAt memorySource uncancelled source position
      destination
    (result.1, result.2.1)
      = readSpan source.bytes position.toNat destination := by
  have hcapable : requireSourceCapabilities (memorySource.capabilities source)
      ⟨false, false, true⟩ = .ok () := rfl
  rw [readExactAt, hcapable, readSpan]
  dsimp only [uncancelled]
  by_cases hbeyond : position.toNat > source.bytes.length
  · have hseek : memorySource.seek source position
        = (.error beyondEnd, source) := by
      show source.seek position false = _
      rw [MemoryByteSource.seek, if_neg Bool.false_ne_true, if_pos hbeyond]
      rfl
    rw [hseek, if_pos hbeyond]
  · have hseek : memorySource.seek source position
        = (.ok (), { source with position := position }) := by
      show source.seek position false = _
      rw [MemoryByteSource.seek, if_neg Bool.false_ne_true, if_neg hbeyond]
    have hreads : ReadsFrom source.bytes { source with position := position }
        position.toNat := ⟨rfl, rfl, hr, Nat.le_of_not_lt hbeyond, hsize⟩
    obtain ⟨hstatus, hbuffer⟩ :=
      readExactLoop_spans hreads (Nat.zero_le destination.length)
    rw [hseek, if_neg hbeyond]
    dsimp only [readExact]
    rw [Nat.sub_zero] at hstatus hbuffer
    by_cases hfits : position.toNat + destination.length ≤ source.bytes.length
    · have hlength : (subspan source.bytes position.toNat
          destination.length).length = destination.length :=
        subspan_length hfits
      rw [if_pos hfits] at hstatus ⊢
      refine Prod.ext hstatus (hbuffer.trans ?_)
      rw [overwrite, List.take_zero, List.nil_append, hlength, Nat.zero_add,
        List.drop_length, List.append_nil]
    · have hrest : subspan source.bytes position.toNat destination.length
          = source.bytes.drop position.toNat := by
        rw [subspan, List.take_of_length_le]
        rw [List.length_drop]
        omega
      rw [if_neg hfits] at hstatus ⊢
      refine Prod.ext hstatus (hbuffer.trans ?_)
      rw [hrest]

/-! ## Any operation keeps the bound -/

/-- One operation of a bounded sink, cancelled or not: the sink stays bounded
    and does not report the violated invariant. -/
theorem operation_bounded {M : UInt64} {sink : MemoryByteSink}
    (hM : sink.maximumSize = M) (h : Bounded M sink) (action : SinkAction) :
    ((memorySinkStep sink action).2.maximumSize = M
        ∧ Bounded M (memorySinkStep sink action).2)
      ∧ (memorySinkStep sink action).1
        ≠ .wrote (.error .invariantViolation) := by
  subst hM
  cases action with
  | write source cancelled =>
      cases cancelled with
      | true =>
          refine ⟨⟨rfl, h⟩, ?_⟩
          intro hc
          cases hc
      | false =>
          rw [memorySinkStep]
          rcases write_spec h source with
            ⟨_, _, hrefused⟩ | ⟨_, count, _, _, _, hafter, hwrite⟩
          · rw [hrefused]
            refine ⟨⟨rfl, h⟩, ?_⟩
            intro hc
            cases hc
          · rw [hwrite]
            refine ⟨⟨rfl, hafter⟩, ?_⟩
            intro hc
            cases hc
  | seek position cancelled =>
      refine ⟨?_, SinkAnswer.noConfusion⟩
      rw [memorySinkStep, MemoryByteSink.seek]
      cases cancelled with
      | true => exact ⟨rfl, h⟩
      | false =>
          rw [if_neg Bool.false_ne_true]
          by_cases hbeyond : position.toNat > sink.bytes.length
          · rw [if_pos hbeyond]
            exact ⟨rfl, h⟩
          · rw [if_neg hbeyond]
            exact ⟨rfl, Nat.le_of_not_lt hbeyond, h.bounded⟩
  | flush cancelled =>
      refine ⟨?_, SinkAnswer.noConfusion⟩
      rw [memorySinkStep, MemoryByteSink.flush]
      cases cancelled with
      | true => exact ⟨rfl, h⟩
      | false => exact ⟨rfl, h⟩
  | position => exact ⟨⟨rfl, h⟩, SinkAnswer.noConfusion⟩

/-! ## Runs -/

/-- A run of calls on a sink with these bounds is the run on the array. -/
structure Splices (maximumSize : UInt64) (sink : MemoryByteSink)
    (calls : List SpliceCall) : Prop where
  answers : outputs sinkStep sink calls
    = outputs (arrayStep maximumSize.toNat) {} calls
  bytes_eq : (finalState sinkStep sink calls).bytes
    = (finalState (arrayStep maximumSize.toNat) {} calls).bytes
  position_eq : (finalState sinkStep sink calls).position.toNat
    = (finalState (arrayStep maximumSize.toNat) {} calls).position
  bounded : Bounded maximumSize (finalState sinkStep sink calls)

/-- A sink is made with any bound. -/
theorem create_eq_ok {M w : UInt64} (hw : w ≠ 0) :
    MemoryByteSink.create M w
      = .ok { maximumSize := M, maximumWriteSize := w } := by
  have hmax : ¬ M > ShiboriResource.u64Max := by
    rw [gt_iff_lt, lt_toNat]
    have hlt := M.toNat_lt
    have hlast : ShiboriResource.u64Max.toNat = 2 ^ 64 - 1 := rfl
    omega
  rw [MemoryByteSink.create, if_neg]
  rintro (hzero | hlarge)
  · exact hw hzero
  · exact hmax hlarge

/-- **RUNS**: the size of one operation never shows. -/
theorem run_splices {M w : UInt64} (hw : w ≠ 0) (calls : List SpliceCall) :
    Splices M { maximumSize := M, maximumWriteSize := w } calls := by
  have hnew : StandsFor M w { maximumSize := M, maximumWriteSize := w } {} :=
    ⟨rfl, rfl, rfl, rfl, Nat.le_refl _, Nat.zero_le _⟩
  have hstep : ∀ sink array call, StandsFor M w sink array → True →
      (sinkStep sink call).1 = (arrayStep M.toNat array call).1
        ∧ StandsFor M w (sinkStep sink call).2
            (arrayStep M.toNat array call).2 :=
    fun _ _ call h _ => sinkStep_splices h hw call
  obtain ⟨hanswers, hfinal⟩ := simulation hstep hnew
    (along_of_forall (fun _ _ => trivial) _ calls)
  exact ⟨hanswers, hfinal.bytes_eq, hfinal.position_eq, hfinal.keeps⟩

/-- **RUN**: single operations keep to the bound. -/
theorem operations_bounded {M w : UInt64} (actions : List SinkAction) :
    Bounded M (finalState memorySinkStep
        { maximumSize := M, maximumWriteSize := w } actions)
      ∧ SinkAnswer.wrote (.error .invariantViolation)
        ∉ outputs memorySinkStep
          { maximumSize := M, maximumWriteSize := w } actions := by
  have hnew : Bounded M { maximumSize := M, maximumWriteSize := w } :=
    ⟨Nat.le_refl _, Nat.zero_le _⟩
  have hkeep : ∀ sink action, (sink.maximumSize = M ∧ Bounded M sink) →
      (memorySinkStep sink action).2.maximumSize = M
        ∧ Bounded M (memorySinkStep sink action).2 :=
    fun _ action h => (operation_bounded h.1 h.2 action).1
  constructor
  · exact (finalState_invariant hkeep ⟨rfl, hnew⟩ actions).2
  · intro hmem
    obtain ⟨before, action, _, hanswer⟩ := mem_outputs_iff.mp hmem
    have hstate := finalState_invariant hkeep ⟨rfl, hnew⟩ before
    exact (operation_bounded hstate.1 hstate.2 action).2 hanswer

/-- What a positioned read of a source gives. -/
def positionedRead (source : MemoryByteSource) (position : UInt64)
    (destination : List UInt8) : Status × List UInt8 :=
  let result := readExactAt memorySource uncancelled source position
    destination
  (result.1, result.2.1)

/-- Which positioned reads of a content succeed, and how the others fail. -/
structure ReadsBack (content : List UInt8) (position count : Nat)
    (answer : Status × List UInt8) : Prop where
  ok_iff : answer.1 = .ok () ↔ position + count ≤ content.length
  span : answer.1 = .ok () → answer.2 = subspan content position count
  unexpectedEnd_iff : codeOf answer.1 = some .unexpectedEnd
    ↔ position ≤ content.length ∧ content.length < position + count
  ioReadFailed_iff : codeOf answer.1 = some .ioReadFailed
    ↔ content.length < position

/-- What a read delivers is the span it asked for. -/
theorem readSpan_readsBack (content : List UInt8) (position : Nat)
    (destination : List UInt8) :
    ReadsBack content position destination.length
      (readSpan content position destination) := by
  rw [readSpan]
  by_cases hbeyond : position > content.length
  · rw [if_pos hbeyond]
    refine ⟨⟨nofun, fun h => ?_⟩, nofun, ⟨nofun, fun h => ?_⟩,
      ⟨fun _ => hbeyond, fun _ => rfl⟩⟩
    · omega
    · omega
  rw [if_neg hbeyond]
  by_cases hfits : position + destination.length ≤ content.length
  · rw [if_pos hfits]
    refine ⟨⟨fun _ => hfits, fun _ => rfl⟩, fun _ => rfl,
      ⟨nofun, fun h => ?_⟩, ⟨nofun, fun h => ?_⟩⟩
    · omega
    · omega
  · rw [if_neg hfits]
    refine ⟨⟨nofun, fun h => (hfits h).elim⟩, nofun,
      ⟨fun _ => ⟨?_, ?_⟩, fun _ => rfl⟩, ⟨nofun, fun h => ?_⟩⟩
    · omega
    · omega
    · omega

/-- **SPLICING**: the memory adapters are array splicing.  A new sink answers
    every run of calls as the array does and stands for it afterwards, and no
    run of single operations breaks its bound or reports that.  A source gives
    spans of its content, wherever it stands.  The sizes of single operations
    do not show. -/
theorem memory_adapters_splice :
    (∀ M w : UInt64, w ≠ 0 →
      ∃ sink, MemoryByteSink.create M w = .ok sink
        ∧ (∀ calls, Splices M sink calls)
        ∧ ∀ actions, Bounded M (finalState memorySinkStep sink actions)
          ∧ SinkAnswer.wrote (.error .invariantViolation)
            ∉ outputs memorySinkStep sink actions)
    ∧ ∀ (content : Bytes) (r : UInt64), r ≠ 0 →
      ∀ standing position destination,
        positionedRead ⟨content.elems, r, standing⟩ position destination
            = readSpan content.elems position.toNat destination
          ∧ ReadsBack content.elems position.toNat destination.length
            (positionedRead ⟨content.elems, r, standing⟩ position
              destination) := by
  constructor
  · intro M w hw
    exact ⟨_, create_eq_ok hw, run_splices hw, operations_bounded⟩
  · intro content r hr standing position destination
    have hread : positionedRead ⟨content.elems, r, standing⟩ position
        destination = readSpan content.elems position.toNat destination :=
      readExactAt_spans hr content.size_lt position destination
    refine ⟨hread, ?_⟩
    rw [hread]
    exact readSpan_readsBack content.elems position.toNat destination

/-- A run that hits the bound in the middle of its second write. -/
def overrunCalls : List SpliceCall :=
  [.writeAll [1, 2, 3], .seek 1, .writeAll [9, 9, 9, 9], .seek 5]

/-- A write over the bound takes what fits. -/
theorem memory_adapters_splice_at_overrunCalls :
    ∃ sink, MemoryByteSink.create 4 2 = .ok sink
      ∧ outputs sinkStep sink overrunCalls
        = [.ok (), .ok (), .error limitReached, .error beyondWritten]
      ∧ (finalState sinkStep sink overrunCalls).bytes = [1, 9, 9, 9]
      ∧ positionedRead ⟨[1, 9, 9, 9], 2, 4⟩ 1 [0, 0, 0]
        = (.ok (), [9, 9, 9]) := by
  obtain ⟨hsinks, hsources⟩ := memory_adapters_splice
  obtain ⟨sink, hcreate, hruns, _⟩ := hsinks 4 2 (by decide)
  obtain ⟨hread, _⟩ := hsources ⟨[1, 9, 9, 9], by decide⟩ 2 (by decide) 4 1
    [0, 0, 0]
  refine ⟨sink, hcreate, ?_, ?_, ?_⟩
  · rw [(hruns overrunCalls).answers]
    rfl
  · rw [(hruns overrunCalls).bytes_eq]
    rfl
  · exact hread.trans rfl

end ShiboriMemorySplice
