import Mathlib
import ShiboriEngine.BufferedIo
import ShiboriEngine.FileBoundProofs

/-! # Buffering cannot be seen until it fails

    A buffered sink is viewed as a sink whose file already holds what is
    pending.  As long as every writing out succeeds it answers each call as
    that sink does on a stream without faults; and what was pending is in the
    file when the sink is closed. -/

namespace ShiboriBufferedView

open ShiboriError ShiboriByteIo ShiboriFileIo ShiboriFileBound
open ShiboriBufferedIo Spans Words WriteBehind

/-! ## The view -/

/-- The stream with everything written out. -/
def streamView (file : BufferedStream) : Stream where
  content := file.buffer.holds
  offset := file.buffer.offset
  error := file.error

/-- The sink with everything written out. -/
def view (sink : BufferedSink) : FileByteSink where
  file := streamView sink.file
  position := sink.position
  maximumSize := sink.maximumSize
  extent := sink.extent
  maximumWriteSize := sink.maximumWriteSize

/-- The call on a stream without faults of its own. -/
def plain : BufferedCall → SinkCall
  | .write source cancelled _ _ =>
      .write source cancelled (fullTransfer source.length)
  | .seek position cancelled _ fault => .seek position cancelled fault
  | .flush cancelled _ => .flush cancelled noFault false

/-- No writing out fails at the call. -/
def Quiet : BufferedCall → Prop
  | .write _ _ _ out => out.fails = false
  | .seek _ _ out _ => out.fails = false
  | .flush _ out => out.fails = false

/-! ## The stream -/

section
variable {file : BufferedStream} {out : WriteOut}

/-- A writing out without an error leaves nothing pending. -/
theorem writeOut_quiet (hquiet : out.fails = false) :
    file.writeOut out = (true, { file with buffer := file.buffer.flush }) := by
  rw [BufferedStream.writeOut, if_neg (by rw [hquiet]; exact Bool.false_ne_true)]

/-- Writing everything out cannot be seen. -/
theorem streamView_flush (file : BufferedStream) :
    streamView { file with buffer := file.buffer.flush } = streamView file := by
  obtain ⟨hholds, hoffset, _, _⟩ := flush_spec file.buffer
  rw [streamView, streamView, hholds, hoffset]

/-- An `fseeko` whose writing out succeeds. -/
theorem fseek_view (file : BufferedStream) (hquiet : out.fails = false)
    (offset : Nat) (fault : CallFault) :
    let reply := file.fseek offset out fault
    (streamView file).fseek offset fault = (reply.1, streamView reply.2)
      ∧ reply.2.buffer.stored = file.buffer.holds
      ∧ reply.2.buffer.pending = [] := by
  obtain ⟨hholds, hoffset, hstored, hpending⟩ := flush_spec file.buffer
  rw [BufferedStream.fseek, writeOut_quiet hquiet, Stream.fseek]
  dsimp only
  by_cases hfails : fault.fails = true
  · rw [if_pos hfails, if_pos hfails, streamView_flush]
    exact ⟨rfl, hstored, hpending⟩
  · rw [if_neg hfails, if_neg hfails]
    refine ⟨?_, hstored, hpending⟩
    have hmoved : (file.buffer.flush.moveTo offset).holds
        = file.buffer.holds := by
      rw [Buffer.holds, Buffer.moveTo, hpending, overwrite_nil, hstored]
    have hat : (file.buffer.flush.moveTo offset).offset = offset := by
      rw [Buffer.offset, Buffer.moveTo, hpending]
      rfl
    simp only [streamView, hmoved, hat]

/-- An `fwrite` without an error, seen as one that stores everything. -/
theorem fwrite_view (hplaced : file.buffer.Placed)
    (hquiet : out.fails = false) (data : List UInt8) (taken : Nat)
    {count : Nat} (hcount : data.length ≤ count) :
    let reply := file.fwrite data taken out
    (streamView file).fwrite data (fullTransfer count)
        = (reply.1, streamView reply.2)
      ∧ reply.2.buffer.Placed := by
  have hmoves := moves_put_drain file.buffer (Nat.le_refl data.length) out.moved
  obtain ⟨hholds, hoffset⟩ := hmoves.holds_append hplaced
  rw [List.take_length] at hmoves hholds hoffset
  rw [BufferedStream.fwrite, if_neg (by rw [hquiet]; exact Bool.false_ne_true)]
  refine ⟨?_, hmoves.placed hplaced⟩
  have hstored : min data.length (fullTransfer count).moved = data.length :=
    Nat.min_eq_left hcount
  simp only [Stream.fwrite, hstored, streamView, hholds, hoffset,
    List.take_length, Nat.lt_irrefl, decide_false, Bool.false_and,
    Bool.or_false]

end

/-! ## The calls -/

section
variable {sink : BufferedSink} {out : WriteOut}

/-- What a write hands to the stream: nothing at all when it has nothing to
    write. -/
def handed (sink : BufferedSink) (source : List UInt8) (taken : Nat)
    (out : WriteOut) : Nat × BufferedStream :=
  if attempted (view sink) source = 0 then (0, sink.file)
  else sink.file.fwrite (source.take (attempted (view sink) source)) taken out

/-- A write that is let through hands its bytes to the stream and accounts for
    what was taken. -/
theorem write_handed (out : WriteOut) {source : List UInt8} (taken : Nat)
    (hroom : ¬ (¬ source.isEmpty ∧ sink.maximumSize - sink.position = 0)) :
    sink.write source false taken out
      = let written := (handed sink source taken out).1
        let file := (handed sink source taken out).2
        if written < attempted (view sink) source ∧ file.error then
          (.error (fileError .ioWriteFailed .write "file write failed"
            out.errno), { sink with file := file })
        else
          let position := sink.position + UInt64.ofNat written
          (.ok written,
            { sink with
              file := file
              position := position
              extent := max sink.extent position }) := by
  rw [BufferedSink.write, if_neg Bool.false_ne_true]
  exact if_neg hroom

/-- The plain write in the same words. -/
theorem write_moved {sink : FileByteSink} {source : List UInt8}
    {fault : TransferFault}
    (hroom : ¬ (¬ source.isEmpty ∧ sink.maximumSize - sink.position = 0)) :
    sink.write source false fault
      = let written := (moved sink source fault).1
        let file := (moved sink source fault).2
        if written < attempted sink source ∧ file.error then
          (.error (fileError .ioWriteFailed .write "file write failed"
            fault.errno), { sink with file := file })
        else
          let position := sink.position + UInt64.ofNat written
          (.ok written,
            { sink with
              file := file
              position := position
              extent := max sink.extent position }) := by
  rw [FileByteSink.write, if_neg Bool.false_ne_true]
  exact if_neg hroom

/-- Handing bytes over looks like writing them. -/
theorem handed_view (hplaced : sink.file.buffer.Placed)
    (hquiet : out.fails = false) (source : List UInt8) (taken : Nat) :
    let reply := handed sink source taken out
    moved (view sink) source (fullTransfer source.length)
        = (reply.1, streamView reply.2)
      ∧ reply.1 = attempted (view sink) source
      ∧ reply.2.buffer.Placed := by
  have hle : attempted (view sink) source ≤ source.length := Nat.min_le_left _ _
  have hlength : (source.take (attempted (view sink) source)).length
      = attempted (view sink) source := List.length_take_of_le hle
  rw [handed, moved]
  by_cases hnone : attempted (view sink) source = 0
  · rw [if_pos hnone, if_pos hnone]
    exact ⟨rfl, hnone.symm, hplaced⟩
  · rw [if_neg hnone, if_neg hnone]
    obtain ⟨hsame, hafter⟩ := fwrite_view hplaced hquiet
      (source.take (attempted (view sink) source)) taken
      (hlength.trans_le hle)
    refine ⟨hsame, ?_, hafter⟩
    rw [BufferedStream.fwrite, if_neg (by rw [hquiet]; exact Bool.false_ne_true)]
    exact hlength

/-- A write without an error is a plain one. -/
theorem write_view (hplaced : sink.file.buffer.Placed)
    (hquiet : out.fails = false) (source : List UInt8) (cancelled : Bool)
    (taken : Nat) :
    let reply := sink.write source cancelled taken out
    (view sink).write source cancelled (fullTransfer source.length)
        = (reply.1, view reply.2)
      ∧ reply.2.file.buffer.Placed := by
  cases cancelled with
  | true => exact ⟨rfl, hplaced⟩
  | false =>
      by_cases hroom : ¬ source.isEmpty ∧ sink.maximumSize - sink.position = 0
      · have hrefused : sink.write source false taken out
            = (fail .limitExceeded .write "file sink maximum size was reached",
              sink) := by
          rw [BufferedSink.write, if_neg Bool.false_ne_true]
          exact if_pos hroom
        have hview : (view sink).write source false
            (fullTransfer source.length)
            = (fail .limitExceeded .write "file sink maximum size was reached",
              view sink) := by
          rw [FileByteSink.write, if_neg Bool.false_ne_true]
          exact if_pos hroom
        rw [hrefused, hview]
        exact ⟨rfl, hplaced⟩
      · obtain ⟨hsame, hall, hafter⟩ := handed_view hplaced hquiet source taken
        have hshort : ¬ ((handed sink source taken out).1
            < attempted (view sink) source
            ∧ (handed sink source taken out).2.error = true) := by
          rintro ⟨hless, _⟩
          omega
        have hshort' : ¬ ((handed sink source taken out).1
            < attempted (view sink) source
            ∧ (streamView (handed sink source taken out).2).error = true) :=
          hshort
        have hview : ¬ (¬ source.isEmpty
            ∧ (view sink).maximumSize - (view sink).position = 0) := hroom
        rw [write_handed out taken hroom, write_moved hview, hsame]
        dsimp only
        rw [if_neg hshort, if_neg hshort']
        exact ⟨rfl, hafter⟩

/-- A seek whose writing out succeeds is a plain one; it does nothing or leaves
    nothing pending. -/
theorem seek_view (sink : BufferedSink) (hquiet : out.fails = false)
    (platform : Platform) (position : UInt64) (cancelled : Bool) (fault : CallFault) :
    let reply := sink.seek platform position cancelled out fault
    (view sink).seek platform position cancelled fault
        = (reply.1, view reply.2)
      ∧ ((∃ error, reply.1 = .error error) ∧ reply.2 = sink
        ∨ reply.2.file.buffer.stored = sink.file.buffer.holds
          ∧ reply.2.file.buffer.pending = []) := by
  intro reply
  have hreply : reply = sink.seek platform position cancelled out fault := rfl
  rw [BufferedSink.seek] at hreply
  rw [FileByteSink.seek]
  by_cases hc : cancelled = true
  · rw [if_pos hc] at hreply ⊢
    rw [hreply]
    exact ⟨rfl, Or.inl ⟨⟨_, rfl⟩, rfl⟩⟩
  rw [if_neg hc] at hreply ⊢
  by_cases hbeyond : position > sink.extent
  · have hview : position > (view sink).extent := hbeyond
    rw [if_pos hbeyond] at hreply
    rw [if_pos hview, hreply]
    exact ⟨rfl, Or.inl ⟨⟨_, rfl⟩, rfl⟩⟩
  have hview : ¬ position > (view sink).extent := hbeyond
  rw [if_neg hbeyond] at hreply
  rw [if_neg hview]
  rw [checkedOffset] at hreply ⊢
  by_cases hrange : position > platform.offsetMax
  · rw [if_pos hrange] at hreply ⊢
    rw [hreply]
    exact ⟨rfl, Or.inl ⟨⟨_, rfl⟩, rfl⟩⟩
  rw [if_neg hrange] at hreply ⊢
  obtain ⟨hsame, hstored, hpending⟩ :=
    fseek_view sink.file hquiet position.toNat fault
  have hsame' : (view sink).file.fseek position.toNat fault = _ := hsame
  dsimp only at hreply ⊢
  rw [hsame']
  rcases hseek : sink.file.fseek position.toNat out fault with ⟨moved, file⟩
  rw [hseek] at hreply hstored hpending
  cases moved with
  | false =>
      rw [hreply, hquiet]
      exact ⟨rfl, Or.inr ⟨hstored, hpending⟩⟩
  | true =>
      rw [hreply]
      exact ⟨rfl, Or.inr ⟨hstored, hpending⟩⟩

/-- A flush that succeeds is a plain one. -/
theorem flush_view (sink : BufferedSink) (hquiet : out.fails = false)
    (cancelled : Bool) :
    let reply := sink.flush cancelled out
    (view sink).flush cancelled noFault false = (reply.1, view reply.2)
      ∧ ((∃ error, reply.1 = .error error) ∧ reply.2 = sink
        ∨ reply.2.file.buffer.stored = sink.file.buffer.holds
          ∧ reply.2.file.buffer.pending = []) := by
  cases cancelled with
  | true => exact ⟨rfl, Or.inl ⟨⟨_, rfl⟩, rfl⟩⟩
  | false =>
      have hflush : sink.flush false out = (.ok (),
          { sink with file :=
            { sink.file with buffer := sink.file.buffer.flush } }) := by
        rw [BufferedSink.flush, if_neg Bool.false_ne_true,
          BufferedStream.fflush, writeOut_quiet hquiet]
      obtain ⟨_, _, hstored, hpending⟩ := flush_spec sink.file.buffer
      rw [hflush]
      refine ⟨?_, Or.inr ⟨hstored, hpending⟩⟩
      have hview : view { sink with file :=
          { sink.file with buffer := sink.file.buffer.flush } } = view sink := by
        rw [view, view, streamView_flush]
      rw [hview]
      rfl

end

/-! ## Soundness -/

/-- The view is sound, and the file has no gap behind it. -/
structure Sound (sink : BufferedSink) : Prop where
  view : ShiboriFileBound.Sound (view sink)
  placed : sink.file.buffer.Placed

/-- A sink with nothing pending is sound when its view is. -/
theorem sound_of_empty {sink : BufferedSink}
    (h : ShiboriFileBound.Sound (view sink))
    (hpending : sink.file.buffer.pending = []) : Sound sink := by
  refine ⟨h, ?_⟩
  have hposition := h.position
  have hextent := h.extent
  have hwithin := le_toNat.mp h.within
  have hoffset : (view sink).file.offset = sink.file.buffer.start := by
    show sink.file.buffer.start + sink.file.buffer.pending.length = _
    rw [hpending]
    rfl
  have hcontent : (view sink).file.content = sink.file.buffer.stored := by
    show overwrite _ _ sink.file.buffer.pending = _
    rw [hpending, overwrite_nil]
  rw [hoffset] at hposition
  rw [hcontent] at hextent
  show sink.file.buffer.start ≤ sink.file.buffer.stored.length
  omega

/-- A plain call that stores everything is not torn. -/
theorem plain_clean (sink : FileByteSink) (call : BufferedCall) :
    ¬ Torn sink (plain call) := by
  cases call with
  | write source cancelled taken out =>
      rintro ⟨_, _, hpart, _⟩
      have hle : attempted sink source ≤ source.length := Nat.min_le_left _ _
      exact absurd hle (Nat.not_le.mpr hpart)
  | seek position cancelled out fault => exact id
  | flush cancelled out => exact id

/-- **STEP**: a call that no error meets is answered as the plain one, and
    leaves a sound sink whose view is the plain one's. -/
theorem bufferedStep_view (platform : Platform) {sink : BufferedSink}
    (h : Sound sink) {call : BufferedCall} (hquiet : Quiet call) :
    let reply := bufferedStep platform sink call
    sinkStep platform (view sink) (plain call) = (reply.1, view reply.2)
      ∧ Sound reply.2 := by
  intro reply
  have hsound := sinkStep_sound platform (view sink) (plain call) h.view
    (plain_clean (view sink) call)
  cases call with
  | write source cancelled taken out =>
      obtain ⟨hsame, hplaced⟩ :=
        write_view h.placed hquiet source cancelled taken
      have hstep : sinkStep platform (view sink)
          (plain (.write source cancelled taken out))
          = (reply.1, view reply.2) := by
        rw [plain, sinkStep, hsame]
        rfl
      rw [hstep] at hsound
      exact ⟨hstep, hsound, hplaced⟩
  | seek position cancelled out fault =>
      obtain ⟨hsame, hrest⟩ :=
        seek_view sink hquiet platform position cancelled fault
      have hstep : sinkStep platform (view sink)
          (plain (.seek position cancelled out fault))
          = (reply.1, view reply.2) := by
        rw [plain, sinkStep, hsame]
        rfl
      rw [hstep] at hsound
      refine ⟨hstep, ?_⟩
      rcases hrest with ⟨_, hsink⟩ | ⟨_, hpending⟩
      · have hafter : reply.2 = sink := hsink
        rw [hafter]
        exact h
      · exact sound_of_empty hsound hpending
  | flush cancelled out =>
      obtain ⟨hsame, hrest⟩ := flush_view sink hquiet cancelled
      have hstep : sinkStep platform (view sink)
          (plain (.flush cancelled out)) = (reply.1, view reply.2) := by
        rw [plain, sinkStep, hsame]
        rfl
      rw [hstep] at hsound
      refine ⟨hstep, ?_⟩
      rcases hrest with ⟨_, hsink⟩ | ⟨_, hpending⟩
      · have hafter : reply.2 = sink := hsink
        rw [hafter]
        exact h
      · exact sound_of_empty hsound hpending

/-! ## Opening and closing -/

/-- Opening is the plain one, and nothing is pending then; a file that is kept
    fits the bound. -/
theorem open_view {path : String} {content : List UInt8}
    {maximumSize maximumWriteSize : UInt64} {truncate : Bool}
    {opened ended rewound : CallFault} {sink : BufferedSink}
    (hopen : BufferedSink.open' path content maximumSize truncate
      maximumWriteSize opened ended rewound = .ok sink) :
    FileByteSink.open' path content maximumSize truncate maximumWriteSize
        opened ended rewound = .ok (view sink)
      ∧ sink.file.buffer.pending = []
      ∧ (truncate = true ∨ UInt64.ofNat content.length ≤ maximumSize) := by
  rw [BufferedSink.open'] at hopen
  rw [FileByteSink.open']
  by_cases hinvalid : path.isEmpty = true ∨ maximumWriteSize = 0
  · rw [if_pos hinvalid] at hopen
    cases hopen
  rw [if_neg hinvalid] at hopen ⊢
  by_cases ho : opened.fails = true
  · rw [if_pos ho] at hopen
    cases hopen
  rw [if_neg ho] at hopen ⊢
  by_cases ht : truncate = true
  · rw [if_pos ht] at hopen ⊢
    cases hopen
    exact ⟨rfl, rfl, Or.inl ht⟩
  rw [if_neg ht] at hopen ⊢
  by_cases he : ended.fails = true
  · rw [if_pos he] at hopen
    cases hopen
  rw [if_neg he] at hopen ⊢
  by_cases hr : rewound.fails = true
  · rw [if_pos hr] at hopen
    cases hopen
  rw [if_neg hr] at hopen ⊢
  dsimp only at hopen ⊢
  by_cases hbig : UInt64.ofNat content.length > maximumSize
  · rw [if_pos hbig] at hopen
    cases hopen
  · rw [if_neg hbig] at hopen ⊢
    cases hopen
    refine ⟨?_, rfl, Or.inr (UInt64.not_lt.mp hbig)⟩
    simp only [view, streamView, Buffer.holds, Buffer.offset, overwrite_nil,
      List.length_nil, Nat.add_zero]

/-- Opening gives a sound sink. -/
theorem opened_sound {path : String} {content : List UInt8}
    {maximumSize maximumWriteSize : UInt64} {truncate : Bool}
    {opened ended rewound : CallFault} {sink : BufferedSink}
    (hfit : content.length < 2 ^ 64)
    (hopen : BufferedSink.open' path content maximumSize truncate
      maximumWriteSize opened ended rewound = .ok sink) : Sound sink := by
  obtain ⟨hplain, hpending, hkept⟩ := open_view hopen
  refine sound_of_empty ?_ hpending
  rcases hkept with rfl | hwithin
  · have hempty : FileByteSink.open' path [] maximumSize true
        maximumWriteSize opened ended rewound = .ok (view sink) := hplain
    exact open_sound (Nat.zero_le _) hempty
  · refine open_sound ?_ hplain
    rw [le_toNat, UInt64.toNat_ofNat_of_lt' hfit] at hwithin
    exact hwithin

/-- Closing without an error leaves the file as it was viewed. -/
theorem close_view {sink : BufferedSink} {out : WriteOut}
    (hquiet : out.fails = false) :
    sink.close out = (view sink).file.content := by
  obtain ⟨_, _, hstored, _⟩ := flush_spec sink.file.buffer
  rw [BufferedSink.close, BufferedStream.fclose, writeOut_quiet hquiet]
  exact hstored

/-- **RUN**: calls that no error meets are answered as the plain ones, and the
    view stays the plain sink. -/
theorem quiet_run (platform : Platform) {sink : BufferedSink} (h : Sound sink)
    {calls : List BufferedCall} (hquiet : ∀ call ∈ calls, Quiet call) :
    Machine.outputs (bufferedStep platform) sink calls
        = Machine.outputs (sinkStep platform) (view sink) (calls.map plain)
      ∧ view (Machine.finalState (bufferedStep platform) sink calls)
        = Machine.finalState (sinkStep platform) (view sink)
            (calls.map plain) := by
  induction calls generalizing sink with
  | nil => exact ⟨rfl, rfl⟩
  | cons call calls ih =>
      obtain ⟨hcall, hcalls⟩ := List.forall_mem_cons.mp hquiet
      obtain ⟨hsame, hnext⟩ := bufferedStep_view platform h hcall
      obtain ⟨houts, hfinal⟩ := ih hnext hcalls
      rw [List.map_cons, Machine.outputs_cons, Machine.outputs_cons,
        Machine.finalState_cons, Machine.finalState_cons, hsame]
      exact ⟨congrArg _ houts, hfinal⟩

/-- **BUFFERING CANNOT BE SEEN**: in a run from opening in which no writing out
    fails, however much each call writes out, a buffered sink answers as one
    without a buffer does on a stream without transfer faults, stands where
    that one stands, and leaves the same file when it is closed. -/
theorem buffering_unseen (platform : Platform) (path : String)
    (content : List UInt8) (maximumSize maximumWriteSize : UInt64)
    (truncate : Bool) (opened ended rewound : CallFault)
    (sink : BufferedSink) (calls : List BufferedCall) (closing : WriteOut)
    (hfit : content.length < 2 ^ 64)
    (hopen : BufferedSink.open' path content maximumSize truncate
      maximumWriteSize opened ended rewound = .ok sink)
    (hquiet : ∀ call ∈ calls, Quiet call) (hclosing : closing.fails = false) :
    ∃ plainSink, FileByteSink.open' path content maximumSize truncate
        maximumWriteSize opened ended rewound = .ok plainSink
      ∧ Machine.outputs (bufferedStep platform) sink calls
        = Machine.outputs (sinkStep platform) plainSink (calls.map plain)
      ∧ (Machine.finalState (bufferedStep platform) sink calls).position
        = (Machine.finalState (sinkStep platform) plainSink
            (calls.map plain)).position
      ∧ (Machine.finalState (bufferedStep platform) sink calls).close closing
        = (Machine.finalState (sinkStep platform) plainSink
            (calls.map plain)).file.content := by
  obtain ⟨hplain, _, _⟩ := open_view hopen
  obtain ⟨houts, hfinal⟩ :=
    quiet_run platform (opened_sound hfit hopen) hquiet
  refine ⟨view sink, hplain, houts, ?_, ?_⟩
  · rw [← hfinal]
    rfl
  · rw [close_view hclosing, hfinal]

/-- Nothing is written out before the seek, and one byte after it. -/
def pendingRun : List BufferedCall :=
  [.write [1, 2, 3] false 0 { moved := 0, fails := false },
    .seek 1 false { moved := 0, fails := false } noFault,
    .write [7, 8, 9] false 0 { moved := 1, fails := false }]

/-- The buffered sink that a fresh ten-byte file opens as. -/
def tenByteBuffer : BufferedSink where
  file := { buffer := { stored := [] } }
  maximumSize := 10
  extent := 0
  maximumWriteSize := 4096

/-- Two bytes are still pending at the end; the closing writes them out. -/
theorem buffering_unseen_at_pendingRun :
    (Machine.finalState (bufferedStep offset64) tenByteBuffer
        pendingRun).file.buffer = ⟨[1, 7, 3], 2, [8, 9]⟩
      ∧ (Machine.finalState (bufferedStep offset64) tenByteBuffer
        pendingRun).close { moved := 0, fails := false } = [1, 7, 8, 9] := by
  obtain ⟨plainSink, hplain, _, _, hfile⟩ := buffering_unseen offset64
    "records" [] 10 4096 true noFault noFault noFault tenByteBuffer pendingRun
    { moved := 0, fails := false } (by decide) rfl (by
      intro call hmem
      simp only [pendingRun, List.mem_cons, List.not_mem_nil, or_false] at hmem
      rcases hmem with rfl | rfl | rfl
      all_goals rfl) rfl
  cases hplain
  exact ⟨by decide, hfile.trans (by decide)⟩

end ShiboriBufferedView
