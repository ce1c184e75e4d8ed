import Mathlib
import ShiboriEngine.Library.Words
import ShiboriEngine.MemoryIo
import ShiboriEngine.FileIo

/-! # The file adapters refine the memory adapters

    On a stream without faults a file sink that truncated its file and a memory
    sink answer every run of calls alike, and so do a file source and a memory
    source over the same bytes.  The two sides keep different state; the
    relations `SinkAlike` and `SourceAlike` say how they correspond, and every
    call keeps them.  No vector of bytes is longer than the 64-bit offset
    range, so a run is compared as long as its bytes fit one. -/

namespace ShiboriAdapterRefinement

open ShiboriError ShiboriByteIo ShiboriMemoryIo ShiboriFileIo Spans Words

/-- A result up to the wording of its error. -/
def coded {α : Type} (result : Result α) : Except ErrorCode α :=
  result.mapError Error.code

/-! ## Calls -/

/-- A call on a sink. -/
inductive SinkAction where
  | write (source : List UInt8) (cancelled : Bool)
  | seek (position : UInt64) (cancelled : Bool)
  | flush (cancelled : Bool)
  | position
deriving DecidableEq, Repr

/-- What a call on a sink answers, errors by their codes. -/
inductive SinkAnswer where
  | wrote (result : Except ErrorCode Nat)
  | done (status : Except ErrorCode Unit)
  | stands (position : UInt64)
deriving DecidableEq

/-- The memory sink as a machine. -/
def memorySinkStep : Machine.Step MemoryByteSink SinkAction SinkAnswer
  | sink, .write source cancelled =>
      let (result, sink) := sink.write source cancelled
      (.wrote (coded result), sink)
  | sink, .seek position cancelled =>
      let (status, sink) := sink.seek position cancelled
      (.done (coded status), sink)
  | sink, .flush cancelled =>
      let (status, sink) := sink.flush cancelled
      (.done (coded status), sink)
  | sink, .position => (.stands sink.position, sink)

/-- The same calls on a stream that transfers all it is asked for. -/
def fileSinkStep : Machine.Step FileByteSink SinkAction SinkAnswer
  | sink, .write source cancelled =>
      let (result, sink) :=
        sink.write source cancelled (fullTransfer source.length)
      (.wrote (coded result), sink)
  | sink, .seek position cancelled =>
      let (status, sink) := sink.seek offset64 position cancelled noFault
      (.done (coded status), sink)
  | sink, .flush cancelled =>
      let (status, sink) := sink.flush cancelled noFault false
      (.done (coded status), sink)
  | sink, .position => (.stands sink.position, sink)

/-- A call on a source. -/
inductive SourceAction where
  | read (destination : List UInt8) (cancelled : Bool)
  | seek (position : UInt64) (cancelled : Bool)
  | position
  | size
deriving DecidableEq, Repr

/-- A read is answered by its outcome and the destination afterwards. -/
inductive SourceAnswer where
  | gave (result : Except ErrorCode ReadOutcome) (destination : List UInt8)
  | done (status : Except ErrorCode Unit)
  | stands (position : UInt64)
  | measures (size : UInt64)
deriving DecidableEq

/-- The memory source as a machine. -/
def memorySourceStep : Machine.Step MemoryByteSource SourceAction SourceAnswer
  | source, .read destination cancelled =>
      let (result, destination, source) := source.read destination cancelled
      (.gave (coded result) destination, source)
  | source, .seek position cancelled =>
      let (status, source) := source.seek position cancelled
      (.done (coded status), source)
  | source, .position => (.stands source.position, source)
  | source, .size => (.measures source.size, source)

/-- The file source, on a file without faults, as a machine. -/
def fileSourceStep : Machine.Step FileByteSource SourceAction SourceAnswer
  | source, .read destination cancelled =>
      let (result, destination, source) :=
        source.read destination cancelled (fullTransfer destination.length)
      (.gave (coded result) destination, source)
  | source, .seek position cancelled =>
      let (status, source) := source.seek offset64 position cancelled noFault
      (.done (coded status), source)
  | source, .position => (.stands source.position, source)
  | source, .size => (.measures source.size, source)

/-! ## Sinks -/

/-- The file holds the bytes of the memory sink, and both stand at one place.
    -/
structure SinkAlike (memory : MemoryByteSink) (file : FileByteSink) :
    Prop where
  content : file.file.content = memory.bytes
  offset : file.file.offset = memory.position.toNat
  error : file.file.error = false
  position : file.position = memory.position
  extent : file.extent.toNat = memory.bytes.length
  maximumSize : file.maximumSize = memory.maximumSize
  maximumWriteSize : file.maximumWriteSize = memory.maximumWriteSize
  within : memory.position.toNat ≤ memory.bytes.length
  bounded : memory.bytes.length ≤ memory.maximumSize.toNat

/-- The bytes one operation may transfer. -/
def allowed (maximumSize maximumWriteSize position : UInt64) (count : Nat) :
    Nat :=
  min count (min maximumWriteSize.toNat (maximumSize - position).toNat)

/-- No more is moved than was asked for. -/
theorem allowed_le_count (maximumSize maximumWriteSize position : UInt64)
    (count : Nat) :
    allowed maximumSize maximumWriteSize position count ≤ count :=
  Nat.min_le_left _ _

/-- No more is moved than there is room for. -/
theorem allowed_le_room (maximumSize maximumWriteSize position : UInt64)
    (count : Nat) :
    allowed maximumSize maximumWriteSize position count
      ≤ (maximumSize - position).toNat := by
  rw [allowed]
  omega

/-- Growing first and copying then is one overwrite. -/
theorem grow_copy {sink : MemoryByteSink} {source : List UInt8} {count : Nat}
    (hwithin : sink.position.toNat ≤ sink.bytes.length)
    (hfit : sink.position.toNat + count < 2 ^ 64)
    (hcount : count ≤ source.length) :
    (let last := sink.position + UInt64.ofNat count
     let bytes :=
       if last.toNat > sink.bytes.length then
         MemoryByteSink.resize sink.bytes last.toNat
       else sink.bytes
     if count ≠ 0 then
       ((.ok count : Result Nat),
         { sink with
           bytes := overwrite bytes sink.position.toNat (source.take count)
           position := last })
     else (.ok count, { sink with bytes := bytes }))
      = (.ok count,
          { sink with
            bytes := overwrite sink.bytes sink.position.toNat
              (source.take count)
            position := sink.position + UInt64.ofNat count }) := by
  have hword : (UInt64.ofNat count).toNat = count :=
    UInt64.toNat_ofNat_of_lt' (Nat.lt_of_le_of_lt (Nat.le_add_left _ _) hfit)
  have hsum : (sink.position + UInt64.ofNat count).toNat
      = sink.position.toNat + count := by
    rw [toNat_add_of_lt (by omega), hword]
  dsimp only
  -- The source skips the copy of nothing; the grown size is then the old one.
  by_cases hzero : count = 0
  · subst hzero
    have hstays : sink.position + UInt64.ofNat 0 = sink.position := by
      apply UInt64.toNat_inj.mp
      omega
    rw [if_neg (fun h => h rfl), hstays, if_neg (by omega), List.take_zero,
      overwrite_nil]
  · rw [if_pos hzero]
    by_cases hgrow : (sink.position + UInt64.ofNat count).toNat
        > sink.bytes.length
    · have htaken := List.length_take_of_le hcount
      rw [if_pos hgrow, MemoryByteSink.resize,
        overwrite_append_covered hwithin]
      rw [List.length_replicate, htaken]
      omega
    · rw [if_neg hgrow]

/-- A write with room on a memory sink within its bounds. -/
theorem memorySink_write {sink : MemoryByteSink} {source : List UInt8}
    (hwithin : sink.position.toNat ≤ sink.bytes.length)
    (hbounded : sink.bytes.length ≤ sink.maximumSize.toNat)
    (hroom : ¬ (¬ source.isEmpty ∧ sink.maximumSize - sink.position = 0)) :
    sink.write source false
      = let count := allowed sink.maximumSize sink.maximumWriteSize
          sink.position source.length
        (.ok count,
          { sink with
            bytes := overwrite sink.bytes sink.position.toNat
              (source.take count)
            position := sink.position + UInt64.ofNat count }) := by
  have hle : sink.position ≤ sink.maximumSize := by
    rw [le_toNat]
    omega
  have hsub := UInt64.toNat_sub_of_le _ _ hle
  have hcount := allowed_le_room sink.maximumSize sink.maximumWriteSize
    sink.position source.length
  have hmax := sink.maximumSize.toNat_lt
  rw [MemoryByteSink.write, if_neg Bool.false_ne_true,
    if_neg (UInt64.not_lt.mpr hle)]
  show (if _ then _ else _) = _
  rw [if_neg hroom]
  exact grow_copy hwithin (by omega) (allowed_le_count _ _ _ _)

/-- A transfer without a fault stores all it is given. -/
theorem fwrite_full (file : Stream) {source : List UInt8} {count : Nat}
    (hcount : count ≤ source.length) :
    (if count = 0 then (0, file)
      else file.fwrite (source.take count) (fullTransfer source.length))
      = (count,
          { file with
            content := overwrite file.content file.offset (source.take count)
            offset := file.offset + count }) := by
  by_cases hzero : count = 0
  · rw [if_pos hzero, hzero, List.take_zero, overwrite_nil, Nat.add_zero]
  · have htaken : (source.take count).length = count :=
      List.length_take_of_le hcount
    have hmoved : min count (fullTransfer source.length).moved = count :=
      Nat.min_eq_left hcount
    rw [if_neg hzero, Stream.fwrite, htaken, hmoved, List.take_take,
      Nat.min_self, decide_eq_false (Nat.lt_irrefl count), Bool.false_and,
      Bool.or_false]

/-- A write with room on a file sink whose stream has no fault. -/
theorem fileSink_write {sink : FileByteSink} {source : List UInt8}
    (hroom : ¬ (¬ source.isEmpty ∧ sink.maximumSize - sink.position = 0)) :
    sink.write source false (fullTransfer source.length)
      = let count := allowed sink.maximumSize sink.maximumWriteSize
          sink.position source.length
        (.ok count,
          { sink with
            file := { sink.file with
              content := overwrite sink.file.content sink.file.offset
                (source.take count)
              offset := sink.file.offset + count }
            position := sink.position + UInt64.ofNat count
            extent := max sink.extent
              (sink.position + UInt64.ofNat count) }) := by
  have hmoved := fwrite_full sink.file
    (allowed_le_count sink.maximumSize sink.maximumWriteSize sink.position
      source.length)
  rw [allowed] at hmoved
  simp only [FileByteSink.write, Bool.false_eq_true, if_false, if_neg hroom,
    hmoved, Nat.lt_irrefl, false_and, allowed]

/-- Two sinks that were just made are alike. -/
theorem opened_alike {path : String} (found : List UInt8)
    (maximumSize : UInt64) {maximumWriteSize : UInt64}
    (hpath : path.isEmpty = false) (hcap : maximumWriteSize ≠ 0) :
    ∃ memory file,
      MemoryByteSink.create maximumSize maximumWriteSize = .ok memory
        ∧ FileByteSink.open' path found maximumSize true maximumWriteSize
            noFault noFault noFault = .ok file
        ∧ SinkAlike memory file := by
  -- With a 64-bit `size_t` the second test of the source never refuses.
  have hsizes : ¬ (maximumWriteSize = 0
      ∨ maximumSize > ShiboriResource.u64Max) := by
    rintro (hzero | hbig)
    · exact hcap hzero
    · have hword := maximumSize.toNat_lt
      have hmax : ShiboriResource.u64Max.toNat = 2 ^ 64 - 1 := rfl
      rw [gt_iff_lt, lt_toNat] at hbig
      omega
  have hargs : ¬ (path.isEmpty = true ∨ maximumWriteSize = 0) := by
    rw [hpath]
    rintro (hempty | hzero)
    · exact nomatch hempty
    · exact hcap hzero
  refine ⟨_, _, if_neg hsizes, if_neg hargs, ?_⟩
  exact ⟨rfl, rfl, rfl, rfl, rfl, rfl, rfl, Nat.le_refl _, Nat.zero_le _⟩

/-- A write answers alike and keeps the sinks alike. -/
theorem write_alike {memory : MemoryByteSink} {file : FileByteSink}
    (h : SinkAlike memory file) (source : List UInt8) (cancelled : Bool) :
    coded (memory.write source cancelled).1
        = coded (file.write source cancelled (fullTransfer source.length)).1
      ∧ SinkAlike (memory.write source cancelled).2
          (file.write source cancelled (fullTransfer source.length)).2 := by
  by_cases hc : cancelled = true
  · rw [MemoryByteSink.write, if_pos hc, FileByteSink.write, if_pos hc]
    exact ⟨rfl, h⟩
  rw [Bool.not_eq_true] at hc
  subst hc
  have hwithin := h.within
  have hbounded := h.bounded
  have hle : memory.position ≤ memory.maximumSize := by
    rw [le_toNat]
    omega
  by_cases hfull : ¬ source.isEmpty ∧ memory.maximumSize - memory.position = 0
  · have hfile : ¬ source.isEmpty ∧ file.maximumSize - file.position = 0 := by
      rw [h.maximumSize, h.position]
      exact hfull
    rw [MemoryByteSink.write, if_neg Bool.false_ne_true,
      if_neg (UInt64.not_lt.mpr hle), FileByteSink.write,
      if_neg Bool.false_ne_true]
    show coded (Prod.fst (if _ then _ else _))
        = coded (Prod.fst (if _ then _ else _))
      ∧ SinkAlike (Prod.snd (if _ then _ else _))
          (Prod.snd (if _ then _ else _))
    rw [if_pos hfull, if_pos hfile]
    exact ⟨rfl, h⟩
  · have hfile : ¬ (¬ source.isEmpty
        ∧ file.maximumSize - file.position = 0) := by
      rw [h.maximumSize, h.position]
      exact hfull
    have hsub := UInt64.toNat_sub_of_le _ _ hle
    have hcount := allowed_le_count memory.maximumSize memory.maximumWriteSize
      memory.position source.length
    have hroom := allowed_le_room memory.maximumSize memory.maximumWriteSize
      memory.position source.length
    rw [memorySink_write hwithin hbounded hfull, fileSink_write hfile,
      h.maximumSize, h.maximumWriteSize, h.position]
    dsimp only
    generalize allowed memory.maximumSize memory.maximumWriteSize
      memory.position source.length = count at hcount hroom
    have hword := toNat_ofNat_of_le hroom
    have hadd : UInt64.ofNat count ≤ memory.maximumSize - memory.position := by
      rw [le_toNat, hword]
      exact hroom
    have hsum := toNat_add_of_room hle hadd
    rw [hword] at hsum
    -- Both contents are one overwrite, whose length is the larger of the old
    -- length and the new position.
    have hlength : (overwrite memory.bytes memory.position.toNat
        (source.take count)).length
        = max memory.bytes.length (memory.position.toNat + count) := by
      rw [overwrite_length hwithin, List.length_take_of_le hcount]
    refine ⟨rfl, ?_, ?_, h.error, rfl, ?_, rfl, rfl, ?_, ?_⟩
    · show overwrite file.file.content file.file.offset _ = _
      rw [h.content, h.offset]
    · show file.file.offset + count = _
      rw [h.offset, hsum]
    · show (max file.extent _).toNat = (overwrite _ _ _).length
      rw [UInt64.toNat_max, h.extent, hsum, hlength]
    · show (memory.position + UInt64.ofNat count).toNat
        ≤ (overwrite _ _ _).length
      rw [hsum, hlength]
      exact Nat.le_max_right _ _
    · show (overwrite _ _ _).length ≤ memory.maximumSize.toNat
      rw [hlength]
      omega

/-- So does a seek. -/
theorem seek_alike {memory : MemoryByteSink} {file : FileByteSink}
    (h : SinkAlike memory file)
    (hrange : memory.bytes.length ≤ offset64.offsetMax.toNat)
    (position : UInt64) (cancelled : Bool) :
    coded (memory.seek position cancelled).1
        = coded (file.seek offset64 position cancelled noFault).1
      ∧ SinkAlike (memory.seek position cancelled).2
          (file.seek offset64 position cancelled noFault).2 := by
  by_cases hc : cancelled = true
  · rw [MemoryByteSink.seek, if_pos hc, FileByteSink.seek, if_pos hc]
    exact ⟨rfl, h⟩
  rw [MemoryByteSink.seek, if_neg hc, FileByteSink.seek, if_neg hc]
  have hextent := h.extent
  by_cases hbeyond : position.toNat > memory.bytes.length
  · have hfile : position > file.extent := by
      rw [gt_iff_lt, lt_toNat]
      omega
    rw [if_pos hbeyond, if_pos hfile]
    exact ⟨rfl, h⟩
  · have hfile : ¬ position > file.extent := by
      rw [gt_iff_lt, lt_toNat]
      omega
    have hoffset : ¬ position > offset64.offsetMax := by
      rw [gt_iff_lt, lt_toNat]
      omega
    rw [if_neg hbeyond, if_neg hfile, checkedOffset, if_neg hoffset]
    exact ⟨rfl, h.content, rfl, rfl, rfl, hextent, h.maximumSize,
      h.maximumWriteSize, Nat.le_of_not_lt hbeyond, h.bounded⟩

/-- So does a flush. -/
theorem flush_alike {memory : MemoryByteSink} {file : FileByteSink}
    (h : SinkAlike memory file) (cancelled : Bool) :
    coded (memory.flush cancelled).1
        = coded (file.flush cancelled noFault false).1
      ∧ SinkAlike (memory.flush cancelled).2
          (file.flush cancelled noFault false).2 := by
  cases cancelled with
  | true => exact ⟨rfl, h⟩
  | false => exact ⟨rfl, h⟩

/-- **ONE CALL** on two sinks that are alike: the same answer, and they stay
    alike. -/
theorem sinkStep_alike (memory : MemoryByteSink) (file : FileByteSink)
    (action : SinkAction) (h : SinkAlike memory file)
    (hrange : memory.bytes.length ≤ offset64.offsetMax.toNat) :
    (memorySinkStep memory action).1 = (fileSinkStep file action).1
      ∧ SinkAlike (memorySinkStep memory action).2
          (fileSinkStep file action).2 := by
  cases action with
  | write source cancelled =>
      obtain ⟨hresult, halike⟩ := write_alike h source cancelled
      exact ⟨congrArg SinkAnswer.wrote hresult, halike⟩
  | seek position cancelled =>
      obtain ⟨hstatus, halike⟩ := seek_alike h hrange position cancelled
      exact ⟨congrArg SinkAnswer.done hstatus, halike⟩
  | flush cancelled =>
      obtain ⟨hstatus, halike⟩ := flush_alike h cancelled
      exact ⟨congrArg SinkAnswer.done hstatus, halike⟩
  | position => exact ⟨congrArg SinkAnswer.stands h.position.symm, h⟩

/-- Growing a vector never shortens it. -/
theorem grown_length (bytes : List UInt8) (size : Nat) :
    bytes.length ≤ (if size > bytes.length then
        MemoryByteSink.resize bytes size
      else bytes).length := by
  split
  · rw [MemoryByteSink.resize, List.length_append]
    exact Nat.le_add_right _ _
  · exact Nat.le_refl _

/-- No call shortens what a memory sink holds. -/
theorem memorySink_grows (memory : MemoryByteSink) (action : SinkAction) :
    memory.bytes.length ≤ (memorySinkStep memory action).2.bytes.length := by
  cases action with
  | write source cancelled =>
      show _ ≤ (memory.write source cancelled).2.bytes.length
      rw [MemoryByteSink.write]
      by_cases hc : cancelled = true
      · rw [if_pos hc]
      rw [if_neg hc]
      by_cases hpast : memory.position > memory.maximumSize
      · rw [if_pos hpast]
      rw [if_neg hpast]
      show _ ≤ (MemoryByteSink.bytes (Prod.snd (if _ then _ else _))).length
      by_cases hfull : ¬ source.isEmpty
          ∧ memory.maximumSize - memory.position = 0
      · rw [if_pos hfull]
      rw [if_neg hfull]
      show _ ≤ (MemoryByteSink.bytes (Prod.snd (if _ then _ else _))).length
      by_cases hsome : min source.length (min memory.maximumWriteSize.toNat
          (memory.maximumSize - memory.position).toNat) ≠ 0
      · rw [if_pos hsome]
        exact Nat.le_trans (grown_length _ _) (le_overwrite_length _ _ _)
      · rw [if_neg hsome]
        exact grown_length _ _
  | seek position cancelled =>
      show _ ≤ (memory.seek position cancelled).2.bytes.length
      rw [MemoryByteSink.seek]
      split_ifs
      all_goals exact Nat.le_refl _
  | flush cancelled =>
      cases cancelled with
      | true => exact Nat.le_refl _
      | false => exact Nat.le_refl _
  | position => exact Nat.le_refl _

/-! ## Sources -/

/-- The file has the bytes of the memory source, and both stand at one place.
    -/
structure SourceAlike (memory : MemoryByteSource) (file : FileByteSource) :
    Prop where
  content : file.file.content = memory.bytes
  offset : file.file.offset = memory.position.toNat
  eof : file.file.eof = false
  error : file.file.error = false
  position : file.position = memory.position
  size : file.size.toNat = memory.bytes.length
  maximumReadSize : file.maximumReadSize = memory.maximumReadSize
  within : memory.position.toNat ≤ memory.bytes.length
  range : memory.bytes.length ≤ offset64.offsetMax.toNat

/-- The sources have one size. -/
theorem SourceAlike.size_eq {memory : MemoryByteSource}
    {file : FileByteSource} (h : SourceAlike memory file) :
    memory.size = file.size := by
  apply UInt64.toNat_inj.mp
  rw [MemoryByteSource.size, toNat_ofNat_of_le h.range, h.size]

/-- Two sources that were just made over the same bytes are alike. -/
theorem copied_alike {path : String} {content : List UInt8}
    {maximumReadSize : UInt64} (hpath : path.isEmpty = false)
    (hcap : maximumReadSize ≠ 0)
    (hrange : content.length ≤ offset64.offsetMax.toNat) :
    ∃ memory file,
      MemoryByteSource.copy content maximumReadSize = .ok memory
        ∧ FileByteSource.open' path content maximumReadSize noFault noFault
            noFault = .ok file
        ∧ SourceAlike memory file := by
  have hargs : ¬ (path.isEmpty = true ∨ maximumReadSize = 0) := by
    rw [hpath]
    rintro (hempty | hzero)
    · exact nomatch hempty
    · exact hcap hzero
  refine ⟨_, _, if_neg hcap, if_neg hargs, ?_⟩
  exact ⟨rfl, rfl, rfl, rfl, rfl, toNat_ofNat_of_le hrange, rfl,
    Nat.zero_le _, hrange⟩

/-- A transfer without a fault reads all that is asked for and there. -/
theorem fread_full (file : Stream) {count wanted : Nat}
    (hcount : count ≤ wanted)
    (hthere : file.offset + count ≤ file.content.length) :
    (if count = 0 then ([], file)
      else file.fread count (fullTransfer wanted))
      = (subspan file.content file.offset count,
          { file with offset := file.offset + count }) := by
  have hlength := subspan_length hthere
  by_cases hzero : count = 0
  · rw [if_pos hzero, hzero, subspan, List.take_zero, Nat.add_zero]
  · have htaken : (subspan file.content file.offset count).take
        (fullTransfer wanted).moved = subspan file.content file.offset count :=
      List.take_of_length_le (Nat.le_trans (Nat.le_of_eq hlength) hcount)
    -- The request stops at the end of the stream and never asks past it, so the
    -- end-of-file indicator stays clear.
    have hend : ¬ (file.content.length < file.offset + count
        ∧ count = file.content.length - file.offset) := by omega
    rw [if_neg hzero, Stream.fread, htaken, hlength, decide_eq_false hend,
      decide_eq_false (Nat.lt_irrefl count), Bool.false_and, Bool.or_false,
      Bool.or_false]

/-- A read that stays within the stream, on a source without a fault. -/
theorem fileSource_read {source : FileByteSource} {destination : List UInt8}
    (hthere : source.file.offset + allowed source.size source.maximumReadSize
      source.position destination.length ≤ source.file.content.length) :
    source.read destination false (fullTransfer destination.length)
      = let count := allowed source.size source.maximumReadSize
          source.position destination.length
        let last := source.position + UInt64.ofNat count
        (.ok { bytesRead := count
               eof := last = source.size || source.file.eof },
          overwrite destination 0
            (subspan source.file.content source.file.offset count),
          { source with
            file := { source.file with offset := source.file.offset + count }
            position := last }) := by
  have hmoved := fread_full source.file
    (allowed_le_count source.size source.maximumReadSize source.position
      destination.length) hthere
  have hlength := subspan_length hthere
  rw [allowed] at hmoved hlength
  simp only [FileByteSource.read, Bool.false_eq_true, if_false, hmoved,
    hlength, Nat.lt_irrefl, false_and, allowed]
  rfl

/-- A read that nobody cancels. -/
theorem memorySource_read (source : MemoryByteSource)
    (destination : List UInt8) :
    source.read destination false
      = let count := allowed source.size source.maximumReadSize
          source.position destination.length
        let last := source.position + UInt64.ofNat count
        (.ok { bytesRead := count
               eof := last.toNat = source.bytes.length },
          overwrite destination 0
            (subspan source.bytes source.position.toNat count),
          { source with position := last }) := rfl

/-- A read answers alike, fills alike and keeps the sources alike. -/
theorem read_alike {memory : MemoryByteSource} {file : FileByteSource}
    (h : SourceAlike memory file) (destination : List UInt8)
    (cancelled : Bool) :
    coded (memory.read destination cancelled).1
        = coded (file.read destination cancelled
            (fullTransfer destination.length)).1
      ∧ (memory.read destination cancelled).2.1
        = (file.read destination cancelled
            (fullTransfer destination.length)).2.1
      ∧ SourceAlike (memory.read destination cancelled).2.2
          (file.read destination cancelled
            (fullTransfer destination.length)).2.2 := by
  by_cases hc : cancelled = true
  · rw [MemoryByteSource.read, if_pos hc, FileByteSource.read, if_pos hc]
    exact ⟨rfl, rfl, h⟩
  rw [Bool.not_eq_true] at hc
  subst hc
  have hwithin := h.within
  have hsize := h.size
  have hlength : memory.size = file.size := h.size_eq
  have hle : memory.position ≤ file.size := by
    rw [le_toNat]
    omega
  have hsub := UInt64.toNat_sub_of_le _ _ hle
  have hroom := allowed_le_room file.size memory.maximumReadSize
    memory.position destination.length
  have hthere : file.file.offset + allowed file.size file.maximumReadSize
      file.position destination.length ≤ file.file.content.length := by
    rw [h.offset, h.content, h.maximumReadSize, h.position]
    omega
  rw [fileSource_read hthere, h.content, h.offset, h.maximumReadSize,
    h.position, h.eof, memorySource_read, hlength]
  dsimp only
  generalize allowed file.size memory.maximumReadSize memory.position
    destination.length = count at hroom
  have hword := toNat_ofNat_of_le hroom
  have hadd : UInt64.ofNat count ≤ file.size - memory.position := by
    rw [le_toNat, hword]
    exact hroom
  have hsum := toNat_add_of_room hle hadd
  rw [hword] at hsum
  -- The memory source compares with the vector's size, the file source with
  -- the size it measured on opening.
  have hend : (memory.position + UInt64.ofNat count).toNat
      = memory.bytes.length
        ↔ memory.position + UInt64.ofNat count = file.size := by
    rw [← hsize, UInt64.toNat_inj]
  refine ⟨?_, rfl, h.content, ?_, h.eof, h.error, rfl, hsize, rfl, ?_,
    h.range⟩
  · rw [Bool.or_false, decide_eq_decide.mpr hend]
  · exact hsum.symm
  · show (memory.position + UInt64.ofNat count).toNat ≤ memory.bytes.length
    omega

/-- So does a seek. -/
theorem sourceSeek_alike {memory : MemoryByteSource} {file : FileByteSource}
    (h : SourceAlike memory file) (position : UInt64) (cancelled : Bool) :
    coded (memory.seek position cancelled).1
        = coded (file.seek offset64 position cancelled noFault).1
      ∧ SourceAlike (memory.seek position cancelled).2
          (file.seek offset64 position cancelled noFault).2 := by
  by_cases hc : cancelled = true
  · rw [MemoryByteSource.seek, if_pos hc, FileByteSource.seek, if_pos hc]
    exact ⟨rfl, h⟩
  rw [MemoryByteSource.seek, if_neg hc, FileByteSource.seek, if_neg hc]
  have hsize := h.size
  have hrange := h.range
  by_cases hbeyond : position.toNat > memory.bytes.length
  · have hfile : position > file.size := by
      rw [gt_iff_lt, lt_toNat]
      omega
    rw [if_pos hbeyond, if_pos hfile]
    exact ⟨rfl, h⟩
  · have hfile : ¬ position > file.size := by
      rw [gt_iff_lt, lt_toNat]
      omega
    have hoffset : ¬ position > offset64.offsetMax := by
      rw [gt_iff_lt, lt_toNat]
      omega
    rw [if_neg hbeyond, if_neg hfile, checkedOffset, if_neg hoffset]
    exact ⟨rfl, h.content, rfl, rfl, rfl, rfl, hsize, h.maximumReadSize,
      Nat.le_of_not_lt hbeyond, hrange⟩

/-- **ONE CALL** on two sources that are alike: the same answer, and they stay
    alike. -/
theorem sourceStep_alike (memory : MemoryByteSource) (file : FileByteSource)
    (action : SourceAction) (h : SourceAlike memory file) :
    (memorySourceStep memory action).1 = (fileSourceStep file action).1
      ∧ SourceAlike (memorySourceStep memory action).2
          (fileSourceStep file action).2 := by
  cases action with
  | read destination cancelled =>
      obtain ⟨hresult, hfilled, halike⟩ := read_alike h destination cancelled
      exact ⟨congrArg₂ SourceAnswer.gave hresult hfilled, halike⟩
  | seek position cancelled =>
      obtain ⟨hstatus, halike⟩ := sourceSeek_alike h position cancelled
      exact ⟨congrArg SourceAnswer.done hstatus, halike⟩
  | position => exact ⟨congrArg SourceAnswer.stands h.position.symm, h⟩
  | size =>
      exact ⟨congrArg SourceAnswer.measures h.size_eq, h⟩

/-! ## Runs -/

/-- **RUN**: as long as the bytes fit the offsets, the sinks answer alike. -/
theorem sink_refines {memory : MemoryByteSink} {file : FileByteSink}
    (h : SinkAlike memory file) {actions : List SinkAction}
    (hfits : (Machine.finalState memorySinkStep memory actions).bytes.length
      ≤ offset64.offsetMax.toNat) :
    Machine.outputs memorySinkStep memory actions
        = Machine.outputs fileSinkStep file actions
      ∧ SinkAlike (Machine.finalState memorySinkStep memory actions)
          (Machine.finalState fileSinkStep file actions) :=
  Machine.simulation sinkStep_alike h
    (Machine.along_of_finalState_le memorySink_grows hfits)

/-- **RUN**: the sources answer alike. -/
theorem source_refines {memory : MemoryByteSource} {file : FileByteSource}
    (h : SourceAlike memory file) (actions : List SourceAction) :
    Machine.outputs memorySourceStep memory actions
        = Machine.outputs fileSourceStep file actions
      ∧ SourceAlike (Machine.finalState memorySourceStep memory actions)
          (Machine.finalState fileSourceStep file actions) := by
  have hany : Machine.Along memorySourceStep (fun _ _ => True) memory actions :=
    Machine.along_of_forall (fun _ _ => trivial) memory actions
  exact Machine.simulation (fun memory file action halike _ =>
    sourceStep_alike memory file action halike) h hany

/-- **REFINEMENT**: over a stream without faults the file adapters answer
    every run of calls as the memory adapters do, and after every call of a
    run a sink's position and file are those of the memory sink. -/
theorem file_adapters_refine_memory_adapters :
    (∀ (path : String) (found : List UInt8)
        (maximumSize maximumWriteSize : UInt64),
      path.isEmpty = false → maximumWriteSize ≠ 0 →
      ∃ memory file,
        MemoryByteSink.create maximumSize maximumWriteSize = .ok memory
          ∧ FileByteSink.open' path found maximumSize true maximumWriteSize
              noFault noFault noFault = .ok file
          ∧ ∀ actions : List SinkAction,
              (Machine.finalState memorySinkStep memory actions).bytes.length
                ≤ offset64.offsetMax.toNat →
              Machine.outputs fileSinkStep file actions
                = Machine.outputs memorySinkStep memory actions
              ∧ ∀ before, before <+: actions →
                (Machine.finalState fileSinkStep file before).position
                    = (Machine.finalState memorySinkStep memory
                        before).position
                  ∧ (Machine.finalState fileSinkStep file before).file.content
                    = (Machine.finalState memorySinkStep memory before).bytes)
    ∧ ∀ (path : String) (content : List UInt8) (maximumReadSize : UInt64),
      path.isEmpty = false → maximumReadSize ≠ 0 →
      content.length ≤ offset64.offsetMax.toNat →
      ∃ memory file,
        MemoryByteSource.copy content maximumReadSize = .ok memory
          ∧ FileByteSource.open' path content maximumReadSize noFault noFault
              noFault = .ok file
          ∧ ∀ actions : List SourceAction,
              Machine.outputs fileSourceStep file actions
                = Machine.outputs memorySourceStep memory actions := by
  constructor
  · intro path found maximumSize maximumWriteSize hpath hcap
    obtain ⟨memory, file, hmemory, hfile, halike⟩ :=
      opened_alike found maximumSize hpath hcap
    refine ⟨memory, file, hmemory, hfile, ?_⟩
    intro actions hfits
    refine ⟨(sink_refines halike hfits).1.symm, ?_⟩
    intro before hbefore
    -- a prefix holds no more bytes than the whole run
    have hearlier := Nat.le_trans
      (Machine.measure_prefix_le memorySink_grows memory hbefore) hfits
    have hstill := (sink_refines halike hearlier).2
    exact ⟨hstill.position, hstill.content⟩
  · intro path content maximumReadSize hpath hcap hrange
    obtain ⟨memory, file, hmemory, hfile, halike⟩ :=
      copied_alike hpath hcap hrange
    refine ⟨memory, file, hmemory, hfile, ?_⟩
    intro actions
    exact (source_refines halike actions).1.symm

/-- Short writes up to a bound of four bytes, an overwrite and a rejected
    seek. -/
def overwriteRun : List SinkAction :=
  [.write [1, 2, 3] false, .write [3] false, .seek 1 false,
    .write [7, 8, 9, 10] false, .seek 4 false, .flush true, .position]

/-- A run that overwrites what it wrote. -/
theorem file_adapters_refine_at_overwriteRun :
    ∃ memory file,
      MemoryByteSink.create 4 2 = .ok memory
        ∧ FileByteSink.open' "records" [9] 4 true 2 noFault noFault noFault
            = .ok file
        ∧ Machine.outputs fileSinkStep file overwriteRun
            = Machine.outputs memorySinkStep memory overwriteRun := by
  obtain ⟨memory, file, hmemory, hfile, hrun⟩ :=
    file_adapters_refine_memory_adapters.1 "records" [9] 4 2 rfl (by decide)
  refine ⟨memory, file, hmemory, hfile, (hrun overwriteRun ?_).1⟩
  cases hmemory
  decide

end ShiboriAdapterRefinement
