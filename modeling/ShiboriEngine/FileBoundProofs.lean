import Mathlib
import ShiboriEngine.Library.Words
import ShiboriEngine.FileIo

/-! # Tracked position and size bound of the file sink

    A sink is tracked when its position is the stream's offset, its extent the
    file's length, and both stay within the maximum size.  Every call keeps
    this except one: a write that stores some but not all of its bytes while
    the error indicator is set returns before it accounts for them.  A run is
    tracked throughout exactly when no write is torn in this way. -/

namespace ShiboriFileBound

open ShiboriError ShiboriByteIo ShiboriFileIo Spans Words

/-! ## Tracking -/

/-- The sink knows where its file stands and where it ends. -/
structure Tracked (sink : FileByteSink) : Prop where
  position : sink.position.toNat = sink.file.offset
  extent : sink.extent.toNat = sink.file.content.length
  bounded : sink.file.content.length ≤ sink.maximumSize.toNat
  room : sink.position ≤ sink.maximumSize

/-- The inductive form: the position also lies within the file. -/
structure Sound (sink : FileByteSink) : Prop extends Tracked sink where
  within : sink.position ≤ sink.extent

/-- The bytes a write hands to `fwrite`. -/
def attempted (sink : FileByteSink) (source : List UInt8) : Nat :=
  min source.length (min sink.maximumWriteSize.toNat
    (sink.maximumSize - sink.position).toNat)

/-- A write that stores part of its bytes with the error indicator set, by
    this write or before it. -/
def Torn (sink : FileByteSink) : SinkCall → Prop
  | .write source cancelled fault =>
      cancelled = false ∧ 0 < fault.moved
        ∧ fault.moved < attempted sink source
        ∧ (fault.fails = true ∨ sink.file.error = true)
  | _ => False

/-! ## One write -/

/-- A write that does not touch the file. -/
theorem write_refused {sink : FileByteSink} {source : List UInt8}
    {cancelled : Bool} {fault : TransferFault}
    (h : cancelled = true
      ∨ (¬ source.isEmpty ∧ sink.maximumSize - sink.position = 0)) :
    (sink.write source cancelled fault).2 = sink := by
  rw [FileByteSink.write]
  by_cases hc : cancelled = true
  · rw [if_pos hc]
  · rw [if_neg hc]
    show Prod.snd (if _ then _ else _) = _
    rw [if_pos (h.resolve_left hc)]

/-- What a write hands to the stream: nothing at all when it has nothing to
    write. -/
def moved (sink : FileByteSink) (source : List UInt8)
    (fault : TransferFault) : Nat × Stream :=
  if attempted sink source = 0 then (0, sink.file)
  else sink.file.fwrite (source.take (attempted sink source)) fault

/-- A write that is let through. -/
theorem write_body {sink : FileByteSink} {source : List UInt8}
    {fault : TransferFault}
    (hroom : ¬ (¬ source.isEmpty ∧ sink.maximumSize - sink.position = 0)) :
    (sink.write source false fault).2
      = let written := (moved sink source fault).1
        let file := (moved sink source fault).2
        if written < attempted sink source ∧ file.error then
          { sink with file := file }
        else
          let position := sink.position + UInt64.ofNat written
          { sink with
            file := file
            position := position
            extent := max sink.extent position } := by
  rw [FileByteSink.write, if_neg Bool.false_ne_true]
  show Prod.snd (if _ then _ else _) = _
  rw [if_neg hroom]
  exact apply_ite Prod.snd _ _ _

/-- The file after a write, and how much it stored. -/
theorem moved_spec {sink : FileByteSink} (h : Sound sink)
    (source : List UInt8) (fault : TransferFault) :
    (moved sink source fault).1 = min (attempted sink source) fault.moved
      ∧ (moved sink source fault).2.offset
        = sink.file.offset + (moved sink source fault).1
      ∧ (moved sink source fault).2.content.length
        = max sink.file.content.length
            (sink.file.offset + (moved sink source fault).1)
      ∧ (moved sink source fault).2.error
        = (sink.file.error || (decide ((moved sink source fault).1
            < attempted sink source) && fault.fails)) := by
  have hwithin := le_toNat.mp h.within
  have hposition := h.position
  have hextent := h.extent
  rw [moved]
  -- With nothing to write the source never reaches `fwrite`.
  by_cases hnone : attempted sink source = 0
  · rw [if_pos hnone, hnone]
    refine ⟨(Nat.zero_min _).symm, rfl, ?_, ?_⟩
    · show sink.file.content.length
        = max sink.file.content.length sink.file.offset
      omega
    · exact (Bool.or_false _).symm
  · rw [if_neg hnone]
    have hlength : (source.take (attempted sink source)).length
        = attempted sink source := by
      rw [List.length_take, attempted]
      omega
    have hstored : (sink.file.fwrite (source.take (attempted sink source))
        fault).1 = min (attempted sink source) fault.moved := by
      rw [Stream.fwrite, hlength]
    refine ⟨hstored, rfl, ?_, ?_⟩
    · show (overwrite _ _ _).length = _
      rw [overwrite_length (by omega), List.length_take, hlength, hstored]
      omega
    · rw [hstored, Stream.fwrite, hlength]

/-- **A WRITE** keeps the sink tracked unless it is torn. -/
theorem write_sound {sink : FileByteSink} (h : Sound sink)
    {source : List UInt8} {cancelled : Bool} {fault : TransferFault}
    (hclean : ¬ Torn sink (.write source cancelled fault)) :
    Sound (sink.write source cancelled fault).2 := by
  by_cases hrefused : cancelled = true
      ∨ (¬ source.isEmpty ∧ sink.maximumSize - sink.position = 0)
  · rw [write_refused hrefused]
    exact h
  obtain ⟨hlive, hroom⟩ := not_or.mp hrefused
  rw [Bool.not_eq_true] at hlive
  subst hlive
  obtain ⟨hstored, hoffset, hlength, herror⟩ := moved_spec h source fault
  have hmax := le_toNat.mp h.room
  have hwithin := le_toNat.mp h.within
  have hposition := h.position
  have hextent := h.extent
  have hbounded := h.bounded
  have havailable := UInt64.toNat_sub_of_le _ _ h.room
  have hattempted : attempted sink source
      ≤ sink.maximumSize.toNat - sink.position.toNat := by
    rw [attempted]
    omega
  rw [write_body hroom]
  show Sound (if _ then _ else _)
  by_cases hshort : (moved sink source fault).1 < attempted sink source
      ∧ (moved sink source fault).2.error = true
  · -- An early return is only harmless when nothing was stored.
    have hzero : (moved sink source fault).1 = 0 := by
      by_contra hpos
      refine hclean ⟨rfl, by omega, by omega, ?_⟩
      have hset := hshort.2
      rw [herror, Bool.or_eq_true, Bool.and_eq_true] at hset
      rcases hset with hset | hset
      · exact Or.inr hset
      · exact Or.inl hset.2
    rw [if_pos hshort]
    rw [hzero] at hoffset hlength
    refine ⟨⟨?_, ?_, ?_, h.room⟩, h.within⟩
    · exact hposition.trans hoffset.symm
    · show sink.extent.toNat = (moved sink source fault).2.content.length
      omega
    · show (moved sink source fault).2.content.length
        ≤ sink.maximumSize.toNat
      omega
  · rw [if_neg hshort]
    -- What was stored fits the room that was left, so the position neither
    -- wraps nor passes the maximum.
    have hfit : (moved sink source fault).1
        ≤ (sink.maximumSize - sink.position).toNat := by omega
    have hword := toNat_ofNat_of_le hfit
    have hadd : UInt64.ofNat (moved sink source fault).1
        ≤ sink.maximumSize - sink.position := by
      rw [le_toNat, hword]
      exact hfit
    have hsum := toNat_add_of_room h.room hadd
    rw [hword] at hsum
    refine ⟨⟨?_, ?_, ?_, add_le_of_room h.room hadd⟩, ?_⟩
    · show (sink.position + _).toNat = (moved sink source fault).2.offset
      omega
    · show (max sink.extent (sink.position + _)).toNat
        = (moved sink source fault).2.content.length
      rw [UInt64.toNat_max]
      omega
    · show (moved sink source fault).2.content.length
        ≤ sink.maximumSize.toNat
      omega
    · show sink.position + _ ≤ max sink.extent _
      rw [le_toNat, UInt64.toNat_max]
      exact Nat.le_max_right _ _

/-- A torn write leaves the position behind the stream. -/
theorem write_torn {sink : FileByteSink} (h : Sound sink)
    {source : List UInt8} {cancelled : Bool} {fault : TransferFault}
    (htorn : Torn sink (.write source cancelled fault)) :
    ¬ Tracked (sink.write source cancelled fault).2 := by
  obtain ⟨rfl, hpos, hpart, hset⟩ := htorn
  obtain ⟨hstored, hoffset, _, herror⟩ := moved_spec h source fault
  have hroom : ¬ (¬ source.isEmpty
      ∧ sink.maximumSize - sink.position = 0) := by
    rintro ⟨_, hfull⟩
    have hzero : (sink.maximumSize - sink.position).toNat = 0 := by
      rw [hfull]
      rfl
    rw [attempted] at hpart
    omega
  have hshort : (moved sink source fault).1 < attempted sink source
      ∧ (moved sink source fault).2.error = true := by
    have hless : (moved sink source fault).1 < attempted sink source := by
      omega
    refine ⟨hless, ?_⟩
    rw [herror, decide_eq_true hless, Bool.true_and, Bool.or_eq_true]
    exact hset.symm
  rw [write_body hroom]
  show ¬ Tracked (if _ then _ else _)
  rw [if_pos hshort]
  intro hc
  -- the stream has moved on, the position has not
  have hbehind : sink.position.toNat = (moved sink source fault).2.offset :=
    hc.position
  have hposition := h.position
  omega

/-! ## Seeks, flushes and opening -/

/-- **STEP**: a seek. -/
theorem seek_sound {sink : FileByteSink} (h : Sound sink)
    (platform : Platform) (position : UInt64) (cancelled : Bool)
    (fault : CallFault) :
    Sound (sink.seek platform position cancelled fault).2 := by
  rw [FileByteSink.seek]
  by_cases hc : cancelled = true
  · rw [if_pos hc]
    exact h
  rw [if_neg hc]
  by_cases hbeyond : position > sink.extent
  · rw [if_pos hbeyond]
    exact h
  rw [if_neg hbeyond]
  have hle : position ≤ sink.extent := UInt64.not_lt.mp hbeyond
  have hnat := le_toNat.mp hle
  have hextent := h.extent
  have hbounded := h.bounded
  rw [checkedOffset]
  by_cases hrange : position > platform.offsetMax
  · rw [if_pos hrange]
    exact h
  rw [if_neg hrange]
  -- A failed `fseek` leaves the stream where it was.
  cases hfail : fault.fails with
  | true =>
      simp only [Stream.fseek, hfail, if_true]
      exact h
  | false =>
      simp only [Stream.fseek, hfail, Bool.false_eq_true, if_false]
      refine ⟨⟨rfl, hextent, hbounded, ?_⟩, hle⟩
      show position ≤ sink.maximumSize
      rw [le_toNat]
      omega

/-- **STEP**: a flush. -/
theorem flush_sound {sink : FileByteSink} (h : Sound sink) (cancelled : Bool)
    (fault : CallFault) (sets : Bool) :
    Sound (sink.flush cancelled fault sets).2 := by
  rw [FileByteSink.flush]
  by_cases hc : cancelled = true
  · rw [if_pos hc]
    exact h
  rw [if_neg hc]
  cases hfail : fault.fails with
  | true =>
      simp only [Stream.fflush, hfail, if_true]
      exact ⟨⟨h.position, h.extent, h.bounded, h.room⟩, h.within⟩
  | false =>
      simp only [Stream.fflush, hfail, Bool.false_eq_true, if_false]
      exact h

/-- Opening a file that fits gives a sound sink at its start. -/
theorem open_sound {path : String} {content : List UInt8}
    {maximumSize maximumWriteSize : UInt64} {truncate : Bool}
    {opened ended rewound : CallFault} {sink : FileByteSink}
    (hfit : content.length ≤ maximumSize.toNat)
    (hopen : FileByteSink.open' path content maximumSize truncate
      maximumWriteSize opened ended rewound = .ok sink) : Sound sink := by
  have hzero : ∀ m : UInt64, (0 : UInt64) ≤ m := fun m => by
    rw [le_toNat]
    exact Nat.zero_le _
  rw [FileByteSink.open'] at hopen
  by_cases hinvalid : path.isEmpty = true ∨ maximumWriteSize = 0
  · rw [if_pos hinvalid] at hopen
    exact nomatch hopen
  rw [if_neg hinvalid] at hopen
  by_cases ho : opened.fails = true
  · rw [if_pos ho] at hopen
    exact nomatch hopen
  rw [if_neg ho] at hopen
  by_cases ht : truncate = true
  · rw [if_pos ht] at hopen
    cases hopen
    exact ⟨⟨rfl, rfl, Nat.zero_le _, hzero _⟩, hzero _⟩
  rw [if_neg ht] at hopen
  -- Without truncation the extent is measured by a seek to the end.
  by_cases he : ended.fails = true
  · rw [if_pos he] at hopen
    exact nomatch hopen
  rw [if_neg he] at hopen
  by_cases hr : rewound.fails = true
  · rw [if_pos hr] at hopen
    exact nomatch hopen
  rw [if_neg hr] at hopen
  by_cases hbig : UInt64.ofNat content.length > maximumSize
  · exact nomatch (if_pos hbig).symm.trans hopen
  · have hsink := (if_neg hbig).symm.trans hopen
    cases hsink
    exact ⟨⟨rfl, toNat_ofNat_of_le hfit, hfit, hzero _⟩, hzero _⟩

/-! ## Runs -/

/-- **STEP**: every call that is not torn keeps the sink sound. -/
theorem sinkStep_sound (platform : Platform) (sink : FileByteSink)
    (call : SinkCall) (h : Sound sink) (hclean : ¬ Torn sink call) :
    Sound (sinkStep platform sink call).2 := by
  cases call with
  | write source cancelled fault => exact write_sound h hclean
  | seek position cancelled fault =>
      exact seek_sound h platform position cancelled fault
  | flush cancelled fault sets => exact flush_sound h cancelled fault sets

/-- Where the sink stays tracked, no write was torn. -/
theorem sinkStep_torn (platform : Platform) (sink : FileByteSink)
    (call : SinkCall) (h : Sound sink)
    (hnext : Tracked (sinkStep platform sink call).2) : ¬ Torn sink call := by
  intro htorn
  cases call with
  | write source cancelled fault => exact write_torn h htorn hnext
  | seek position cancelled fault => exact htorn
  | flush cancelled fault sets => exact htorn

/-- **TRACKING**: a run from an opened sink is tracked in every state exactly
    when no write of it is torn. -/
theorem file_sink_tracked_iff (platform : Platform) (path : String)
    (content : List UInt8) (maximumSize maximumWriteSize : UInt64)
    (truncate : Bool) (opened ended rewound : CallFault)
    (sink : FileByteSink) (calls : List SinkCall)
    (hfit : content.length ≤ maximumSize.toNat)
    (hopen : FileByteSink.open' path content maximumSize truncate
      maximumWriteSize opened ended rewound = .ok sink) :
    Machine.Always (sinkStep platform) Tracked sink calls
      ↔ Machine.Along (sinkStep platform)
          (fun sink call => ¬ Torn sink call) sink calls :=
  Machine.always_iff_along (fun _ h => h.toTracked)
    (sinkStep_sound platform) (sinkStep_torn platform)
    (open_sound hfit hopen) calls

/-- Six bytes offered, five stored and the error indicator set; then a retry
    of ten bytes, all stored. -/
def tornRun : List SinkCall :=
  [.write (List.replicate 6 1) false { moved := 5, fails := true },
    .write (List.replicate 10 2) false { moved := 10, fails := false }]

/-- The sink that a fresh ten-byte file opens as. -/
def tenByteSink : FileByteSink where
  file := { content := [] }
  maximumSize := 10
  extent := 0
  maximumWriteSize := 4096

/-- A run whose first write is torn. -/
theorem file_sink_tracked_iff_at_tornRun :
    Machine.Always (sinkStep offset64) Tracked tenByteSink tornRun
      ↔ Machine.Along (sinkStep offset64)
          (fun sink call => ¬ Torn sink call) tenByteSink tornRun :=
  file_sink_tracked_iff offset64 "records" [] 10 4096 true noFault noFault
    noFault tenByteSink tornRun (Nat.zero_le _) rfl

/-- The retry takes a ten-byte sink to fifteen bytes; the position was wrong
    before it. -/
theorem file_sink_torn_write :
    FileByteSink.open' "records" [] 10 true 4096 noFault noFault noFault
        = .ok tenByteSink
      ∧ (Machine.finalState (sinkStep offset64) tenByteSink
          (tornRun.take 1)).position.toNat = 0
      ∧ (Machine.finalState (sinkStep offset64) tenByteSink
          (tornRun.take 1)).file.offset = 5
      ∧ (Machine.finalState (sinkStep offset64) tenByteSink
          tornRun).file.content.length = 15
      ∧ ¬ Machine.Always (sinkStep offset64) Tracked tenByteSink tornRun := by
  refine ⟨rfl, by decide, by decide, by decide, ?_⟩
  intro h
  have hlast := (h tornRun List.prefix_rfl).bounded
  exact absurd hlast (by decide)

end ShiboriFileBound
