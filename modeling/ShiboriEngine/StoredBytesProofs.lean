import Mathlib
import ShiboriEngine.FaultyWriteProofs

/-! # What becomes of a stored byte

    Every request on a file sink aims at a span of the file.  In a run in which
    no write fails, a byte of a request that succeeded is in the file once a
    later seek or flush succeeded, or the sink was closed without an error; it
    stays there and later readers get it, until a request aims at it again.
    An error at closing may lose what is still pending. -/

namespace ShiboriStoredBytes

open ShiboriError ShiboriByteIo ShiboriFileIo ShiboriBufferedIo
open ShiboriBufferedView ShiboriFaultyRead ShiboriFaultyWrite Machine Spans
open WriteBehind

/-! ## What requests aim at -/

/-- Where the bytes of a request are to go, and the bytes. -/
def target (sink : BufferedSink) : WriteRequest → Nat × List UInt8
  | .writeAll data => (sink.position.toNat, data)
  | .writeAllAt position data => (position.toNat, data)
  | .seek _ => (sink.position.toNat, [])
  | .flush => (sink.position.toNat, [])

/-- The request aims at the byte at a position. -/
def AimsAt (sink : BufferedSink) (request : WriteRequest) (i : Nat) : Prop :=
  (target sink request).1 ≤ i
    ∧ i < (target sink request).1 + (target sink request).2.length

/-- The request writes out what was pending. -/
def WritesOut : WriteRequest → Prop
  | .writeAll _ => False
  | .writeAllAt _ _ => True
  | .seek _ => True
  | .flush => True

/-- Where a request reads, and how much. -/
def wanted (source : FileByteSource) : ReadRequest → Nat × Nat
  | .readExact destination => (source.position.toNat, destination.length)
  | .readExactAt position destination => (position.toNat, destination.length)
  | .seek _ => (source.position.toNat, 0)

/-! ## One request -/

/-- What a request without a failed write does: a first part of its bytes, all
    of them if it succeeds, is put where it aims; and the file has, beside
    them, what it had or was to have. -/
structure Puts (before after : BufferedSink) (start : Nat)
    (data : List UInt8) (status : Status) (k : Nat) : Prop where
  sound : Sound after
  holds : after.file.buffer.holds
    = overwrite before.file.buffer.holds start (data.take k)
  inside : k = 0 ∨ start ≤ before.file.buffer.holds.length
  success : status = .ok () → k = data.length
  beside : ∀ i, ¬ (start ≤ i ∧ i < start + data.length) →
    after.file.buffer.stored[i]? = before.file.buffer.stored[i]?
      ∨ after.file.buffer.stored[i]? = before.file.buffer.holds[i]?

section Puts

variable {before after : BufferedSink} {start k : Nat} {data : List UInt8}
  {status : Status}

/-- A transfer that did not fail. -/
theorem puts_of_written {m l : Nat} (hbefore : Sound before)
    (h : Written before after data m l status)
    (hsafe : ¬ writeFailed status) :
    ∃ k, Puts before after before.file.buffer.offset data status k := by
  obtain ⟨hsound, k, _, _, hholds, hsuccess⟩ := h.holds hbefore hsafe
  have hwithin := UInt64.le_iff_toNat_le.mp hbefore.view.within
  have hposition := hbefore.view.position
  have hextent := hbefore.view.extent
  refine ⟨k, hsound, hholds, Or.inr ?_, hsuccess, ?_⟩
  · show (view before).file.offset ≤ (view before).file.content.length
    omega
  · intro i hi
    exact h.moves.stored_or_holds hbefore.placed hi

/-- A request that is refused without a failed write. -/
theorem puts_of_refused (hbefore : Sound before)
    (h : Refused before after status) (hsafe : ¬ writeFailed status) :
    Puts before after start data status 0 := by
  obtain ⟨error, herror⟩ := h.error
  have hsame := h.kept.resolve_left hsafe
  subst hsame
  refine ⟨hbefore, ?_, Or.inl rfl, fun hok => ?_, fun _ _ => Or.inl rfl⟩
  · rw [List.take_zero, overwrite_nil]
  · cases hok.symm.trans herror

/-- Writing everything out puts nothing new. -/
theorem puts_of_through {position : Nat} (h : Through before after position) :
    Puts before after start [] status 0 := by
  refine ⟨h.sound, ?_, Or.inl rfl, fun _ => rfl, fun i _ => Or.inr ?_⟩
  · rw [List.take_zero, overwrite_nil]
    exact h.holds.1
  · rw [h.stored]

/-- Writing out first, and a transfer then. -/
theorem puts_through {sought : BufferedSink} {position : Nat}
    (hthrough : Through before sought position)
    (h : Puts sought after position data status k) :
    Puts before after position data status k := by
  have hsame := hthrough.holds.1
  refine ⟨h.sound, ?_, ?_, h.success, fun i hi => Or.inr ?_⟩
  · rw [← hsame]
    exact h.holds
  · rw [← hsame]
    exact h.inside
  · rcases h.beside i hi with hstored | hholds
    · rw [hstored, hthrough.stored]
    · rw [hholds, hsame]

/-- A byte outside the span that is aimed at stays. -/
theorem Puts.outside (h : Puts before after start data status k) {i : Nat}
    (hi : ¬ (start ≤ i ∧ i < start + data.length)) :
    after.file.buffer.holds[i]? = before.file.buffer.holds[i]? := by
  rw [h.holds]
  rcases h.inside with rfl | hinside
  · rw [List.take_zero, overwrite_nil]
  · refine overwrite_getElem?_outside hinside ?_
    rw [List.length_take]
    omega

/-- A byte of a request that succeeds is in the file or on its way. -/
theorem Puts.taken (h : Puts before after start data status k)
    (hok : status = .ok ()) {j : Nat} (hj : j < data.length) :
    after.file.buffer.holds[start + j]? = data[j]? := by
  have hall := h.success hok
  have hinside : start ≤ before.file.buffer.holds.length := by
    rcases h.inside with hnone | hinside
    · omega
    · exact hinside
  have hwhole : data.take k = data := List.take_of_length_le (by omega)
  rw [h.holds, hwhole]
  exact overwrite_getElem?_inside hinside hj

end Puts

/-- **STEP**: every request without a failed write puts a part of its bytes
    where it aims and leaves the rest alone; one that writes out and succeeds
    leaves the rest in the file. -/
theorem writeStep_puts (platform : Platform)
    (conditions : Nat → WriteConditions) {world : Timed BufferedSink}
    (h : Sound world.adapter) (request : WriteRequest) :
    let reply := writeStep platform conditions world request
    let start := (target world.adapter request).1
    let data := (target world.adapter request).2
    ¬ writeFailed reply.1 →
      (∃ k, Puts world.adapter reply.2.adapter start data reply.1 k)
      ∧ (WritesOut request → reply.1 = .ok () →
        ∀ i, ¬ (start ≤ i ∧ i < start + data.length) →
          reply.2.adapter.file.buffer.stored[i]?
            = world.adapter.file.buffer.holds[i]?) := by
  intro reply start data hsafe
  cases request with
  | writeAll data =>
      obtain ⟨m, l, hwritten⟩ := writeAll_written platform conditions h data
      obtain ⟨k, hputs⟩ := puts_of_written h hwritten hsafe
      rw [(sound_offset h).1] at hputs
      exact ⟨⟨k, hputs⟩, fun hout => hout.elim⟩
  | writeAllAt position data =>
      rcases writeAllAt_written platform conditions h position data
        with hrefused | ⟨sought, m, l, hthrough, hwritten⟩
      · refine ⟨⟨0, puts_of_refused h hrefused hsafe⟩, fun _ hok => ?_⟩
        obtain ⟨error, herror⟩ := hrefused.error
        cases hok.symm.trans herror
      · obtain ⟨k, hputs⟩ := puts_of_written hthrough.sound hwritten hsafe
        rw [hthrough.holds.2] at hputs
        refine ⟨⟨k, puts_through hthrough hputs⟩, fun _ _ i hi => ?_⟩
        rcases hputs.beside i hi with hstored | hholds
        · exact hstored.trans (by rw [hthrough.stored])
        · exact hholds.trans (by rw [hthrough.holds.1])
  | seek position =>
      rcases sinkSeek_spec h platform position
        (conditions world.time).cancelled (conditions world.time).out
        (conditions world.time).call with ⟨_, hthrough⟩ | hrefused
      · refine ⟨⟨0, puts_of_through hthrough⟩, fun _ _ i _ => ?_⟩
        exact congrArg (·[i]?) hthrough.stored
      · refine ⟨⟨0, puts_of_refused h hrefused hsafe⟩, fun _ hok => ?_⟩
        obtain ⟨error, herror⟩ := hrefused.error
        cases hok.symm.trans herror
  | flush =>
      rcases sinkFlush_spec h (conditions world.time).cancelled
        (conditions world.time).out with ⟨_, hthrough⟩ | hrefused
      · refine ⟨⟨0, puts_of_through hthrough⟩, fun _ _ i _ => ?_⟩
        exact congrArg (·[i]?) hthrough.stored
      · refine ⟨⟨0, puts_of_refused h hrefused hsafe⟩, fun _ hok => ?_⟩
        obtain ⟨error, herror⟩ := hrefused.error
        cases hok.symm.trans herror

/-- A read that succeeds gives the bytes of the file. -/
theorem readStep_reads (platform : Platform) (conditions : Nat → Conditions)
    {content : List UInt8} {world : Timed FileByteSource}
    (h : ShiboriFaultyRead.Tracked content world.adapter)
    (request : ReadRequest) :
    let reply := readStep platform conditions world request
    reply.1.1 = .ok () → ∀ m, m < (wanted world.adapter request).2 →
      reply.1.2[m]? = content[(wanted world.adapter request).1 + m]? := by
  intro reply hok m hm
  have hdelivers : ∀ {start k : Nat} {destination final : List UInt8}
      {status : Status}, status = .ok () → m < destination.length →
      Delivers content start destination k status final →
      final[m]? = content[start + m]? := by
    intro start k destination final status hstatus hlt hk
    have hall := hk.success.mp hstatus
    subst hall
    rw [hk.delivered, List.drop_length, List.append_nil, subspan_getElem? hlt]
  cases request with
  | readExact destination =>
      obtain ⟨k, hk, _, _⟩ :=
        readExact_delivers platform conditions h destination
      rw [← h.position] at hk
      exact hdelivers hok hm hk
  | readExactAt position destination =>
      obtain ⟨_, hrefused | ⟨k, hk, _⟩⟩ :=
        readExactAt_delivers platform conditions h position destination
      · obtain ⟨error, hstatus, _⟩ := hrefused
        cases hstatus.symm.trans hok
      · exact hdelivers hok hm hk
  | seek position => exact (Nat.not_lt_zero m hm).elim

/-! ## Whole runs -/

/-- A run from opening that wrote out what its earlier requests took: a later
    request did, or the sink was closed without an error. -/
def WrittenOut (step : Step (Timed BufferedSink) WriteRequest Status)
    (world : Timed BufferedSink) (later : List WriteRequest)
    (closing : WriteOut) : Prop :=
  closing.fails = false
    ∨ ∃ before request after, later = before ++ request :: after
      ∧ WritesOut request
      ∧ (step (finalState step world before) request).1 = .ok ()

/-- The byte at a position is in the file or on its way. -/
structure Held (i : Nat) (byte : Option UInt8) (sink : BufferedSink) :
    Prop where
  sound : Sound sink
  held : sink.file.buffer.holds[i]? = byte

/-- The byte at a position is in the file. -/
structure Filed (i : Nat) (byte : Option UInt8) (sink : BufferedSink) : Prop
    extends Held i byte sink where
  filed : sink.file.buffer.stored[i]? = byte

section
variable {platform : Platform} {conditions : Nat → WriteConditions} {i : Nat}
  {byte : Option UInt8} {world : Timed BufferedSink} {request : WriteRequest}

/-- A file that was closed fits the offset range. -/
theorem close_length {sink : BufferedSink} (h : Sound sink)
    (closing : WriteOut) : (sink.close closing).length < 2 ^ 64 := by
  obtain ⟨m, hm, hfile, _⟩ := close_spec sink closing
  obtain ⟨hoffset, hbounded, hmax⟩ := sound_offset h
  have hword := sink.maximumSize.toNat_lt
  have hstored : sink.file.buffer.stored.length
      ≤ sink.file.buffer.holds.length := le_overwrite_length _ _ _
  rw [Buffer.offset] at hoffset
  rw [hfile, overwrite_length h.placed, List.length_take_of_le hm]
  omega

/-- **STEP**: a request that spares the byte keeps it where it is. -/
theorem held_step (h : Held i byte world.adapter)
    (haim : ¬ AimsAt world.adapter request i)
    (hsafe : ¬ writeFailed (writeStep platform conditions world request).1) :
    Held i byte (writeStep platform conditions world request).2.adapter := by
  obtain ⟨⟨k, hputs⟩, _⟩ :=
    writeStep_puts platform conditions h.sound request hsafe
  exact ⟨hputs.sound, (hputs.outside haim).trans h.held⟩

/-- **STEP**: a byte in the file stays. -/
theorem filed_step (h : Filed i byte world.adapter)
    (haim : ¬ AimsAt world.adapter request i)
    (hsafe : ¬ writeFailed (writeStep platform conditions world request).1) :
    Filed i byte (writeStep platform conditions world request).2.adapter := by
  obtain ⟨⟨k, hputs⟩, _⟩ :=
    writeStep_puts platform conditions h.sound request hsafe
  refine ⟨held_step h.toHeld haim hsafe, ?_⟩
  rcases hputs.beside i haim with hstored | hholds
  · exact hstored.trans h.filed
  · exact hholds.trans h.held

/-- Writing out puts the byte into the file. -/
theorem filed_of_writesOut (h : Held i byte world.adapter)
    (haim : ¬ AimsAt world.adapter request i)
    (hsafe : ¬ writeFailed (writeStep platform conditions world request).1)
    (hout : WritesOut request)
    (hok : (writeStep platform conditions world request).1 = .ok ()) :
    Filed i byte (writeStep platform conditions world request).2.adapter := by
  obtain ⟨_, hthrough⟩ :=
    writeStep_puts platform conditions h.sound request hsafe
  exact ⟨held_step h haim hsafe, (hthrough hout hok i haim).trans h.held⟩

/-- No closing takes a byte out of the file. -/
theorem Filed.close {sink : BufferedSink} (h : Filed i byte sink)
    (closing : WriteOut) : (sink.close closing)[i]? = byte := by
  obtain ⟨m, l, hmoves⟩ := writeOut_moves sink.file closing
  rw [← List.append_nil sink.file.buffer.pending] at hmoves
  rcases hmoves.stored_or_holds h.sound.placed (i := i) (by
      rw [List.length_nil]
      omega) with hstored | hholds
  · exact hstored.trans h.filed
  · exact hholds.trans h.held

/-- **RUN**: a byte that is spared by a run that writes out is in the file it
    leaves. -/
theorem written_out {later : List WriteRequest} {closing : WriteOut}
    (h : Held i byte world.adapter)
    (hspared : Along (writeStep platform conditions)
      (fun world request => ¬ AimsAt world.adapter request i
        ∧ ¬ writeFailed (writeStep platform conditions world request).1)
      world later)
    (hout : WrittenOut (writeStep platform conditions) world later closing) :
    ((finalState (writeStep platform conditions) world later).adapter.close
      closing)[i]? = byte := by
  rcases hout with hquiet | ⟨before, request, after, rfl, hrequest, hok⟩
  · have hheld := hspared.invariant
      (P := fun world : Timed BufferedSink => Held i byte world.adapter)
      (fun _ _ hworld hguard => held_step hworld hguard.1 hguard.2) h
    rw [close_view hquiet]
    exact hheld.held
  · obtain ⟨hbefore, hrest⟩ := along_append.mp hspared
    have hheld := hbefore.invariant
      (P := fun world : Timed BufferedSink => Held i byte world.adapter)
      (fun _ _ hworld hguard => held_step hworld hguard.1 hguard.2) h
    have hfiled :=
      filed_of_writesOut hheld hrest.1.1 hrest.1.2 hrequest hok
    have hlast := hrest.2.invariant
      (P := fun world : Timed BufferedSink => Filed i byte world.adapter)
      (fun _ _ hworld hguard => filed_step hworld hguard.1 hguard.2) hfiled
    rw [finalState_append, finalState_cons]
    exact hlast.close closing

end

/-- **STORED BYTES STAY**: after a request that succeeded, in a run in which no
    write failed and that wrote out what it took, each of its bytes that no
    later request aims at is in the file that closing leaves, and is what every
    read of that file that succeeds gets there. -/
theorem stored_bytes_stay (platform platform' : Platform)
    (conditions : Nat → WriteConditions) (conditions' : Nat → Conditions)
    (path : String) (content : List UInt8)
    (maximumSize maximumWriteSize : UInt64) (truncate : Bool)
    (opened ended rewound : CallFault) (sink : BufferedSink)
    (before : List WriteRequest) (request : WriteRequest)
    (later : List WriteRequest) (closing : WriteOut)
    (hfit : content.length < 2 ^ 64)
    (hopen : BufferedSink.open' path content maximumSize truncate
      maximumWriteSize opened ended rewound = .ok sink)
    (hsafe : ∀ status ∈ outputs (writeStep platform conditions)
      { adapter := sink } (before ++ request :: later),
      ¬ writeFailed status) :
    let step := writeStep platform conditions
    let now := finalState step { adapter := sink } before
    let reply := step now request
    let start := (target now.adapter request).1
    let data := (target now.adapter request).2
    let file := (finalState step reply.2 later).adapter.close closing
    reply.1 = .ok () → WrittenOut step reply.2 later closing →
      ∀ j, j < data.length →
      Along step (fun world other => ¬ AimsAt world.adapter other (start + j))
        reply.2 later →
      file[start + j]? = data[j]?
        ∧ ∀ (maximumReadSize : UInt64) (opened ended rewound : CallFault)
            (source : FileByteSource) (reads : List ReadRequest)
            (read : ReadRequest) (m : Nat),
          FileByteSource.open' path file maximumReadSize opened ended rewound
            = .ok source →
          let world := finalState (readStep platform' conditions')
            { adapter := source } reads
          let answer := readStep platform' conditions' world read
          answer.1.1 = .ok () → m < (wanted world.adapter read).2 →
            (wanted world.adapter read).1 + m = start + j →
            answer.1.2[m]? = data[j]? := by
  intro step now reply start data file hok hout j hj haims
  have hsound : ∀ (world : Timed BufferedSink) (other : WriteRequest),
      Sound world.adapter → ¬ writeFailed (step world other).1 →
      Sound (step world other).2.adapter := by
    intro world other hworld hsafe
    exact (writeStep_sound platform conditions world other hworld).resolve_right
      hsafe
  rw [outputs_append] at hsafe
  obtain ⟨hbefore, hrest⟩ := List.forall_mem_append.mp hsafe
  obtain ⟨hhere, hlater⟩ := List.forall_mem_cons.mp hrest
  have hnow : Sound now.adapter :=
    (along_of_outputs hbefore).invariant (P := fun world : Timed BufferedSink =>
      Sound world.adapter) hsound (opened_sound hfit hopen)
  obtain ⟨⟨k, hputs⟩, _⟩ :=
    writeStep_puts platform conditions hnow request hhere
  have hheld : Held (start + j) data[j]? reply.2.adapter :=
    ⟨hputs.sound, hputs.taken hok hj⟩
  have hbyte : file[start + j]? = data[j]? :=
    written_out hheld (haims.and (along_of_outputs hlater)) hout
  refine ⟨hbyte, ?_⟩
  intro maximumReadSize opened ended rewound source reads read m hread world
    answer hanswer hm hplace
  have hfinal : Sound (finalState step reply.2 later).adapter :=
    (along_of_outputs hlater).invariant (P := fun world : Timed BufferedSink =>
      Sound world.adapter) hsound hputs.sound
  have htracked : ShiboriFaultyRead.Tracked file world.adapter :=
    finalState_invariant
      (P := fun now : Timed FileByteSource =>
        ShiboriFaultyRead.Tracked file now.adapter)
      (readStep_tracked platform' conditions')
      (open_tracked (close_length hfinal closing) hread).1 reads
  rw [readStep_reads platform' conditions' htracked read hanswer m hm, hplace]
  exact hbyte

/-- One byte at a time reaches the file, and no call fails. -/
def slowWrites (_ : Nat) : WriteConditions where
  cancelled := false
  taken := 0
  out := { moved := 1, fails := false }
  call := noFault

/-- A write of two bytes that leaves one of them pending. -/
theorem slow_write : writeStep offset64 slowWrites { adapter := tenByteBuffer }
    (.writeAll [1, 2]) = (.ok (),
      { adapter := { tenByteBuffer with
          file := { buffer := ⟨[1], 1, [2]⟩ }, position := 2, extent := 2 }
        time := 2 }) := by
  rw [writeStep, writeAll, writeAllLoop]
  show writeAllLoop _ _ _ _ _ = _
  rw [writeAllLoop]
  rfl

/-- After a flush the second byte stays, though the first one is written again
    and nothing gets through any more. -/
theorem stored_bytes_stay_at_tenByteBuffer :
    ((finalState (writeStep offset64 slowWrites) { adapter := tenByteBuffer }
      [.writeAll [1, 2], .flush, .writeAllAt 0 [9]]).adapter.close
      { moved := 0, fails := true })[1]? = some 2 := by
  have hfirst := slow_write
  have hflush : writeStep offset64 slowWrites
      { adapter := { tenByteBuffer with
          file := { buffer := ⟨[1], 1, [2]⟩ }, position := 2, extent := 2 }
        time := 2 } .flush = (.ok (),
        { adapter := { tenByteBuffer with
            file := { buffer := ⟨[1, 2], 2, []⟩ }, position := 2, extent := 2 }
          time := 3 }) := rfl
  have hsecond : (writeStep offset64 slowWrites
      { adapter := { tenByteBuffer with
          file := { buffer := ⟨[1, 2], 2, []⟩ }, position := 2, extent := 2 }
        time := 3 } (.writeAllAt 0 [9])).1 = .ok () := by
    show (writeAllLoop _ _ _ _ _).1 = _
    rw [writeAllLoop]
    show (writeAllLoop _ _ _ _ _).1 = _
    rw [writeAllLoop]
    rfl
  have hsafe : ∀ status ∈ outputs (writeStep offset64 slowWrites)
      { adapter := tenByteBuffer }
      [.writeAll [1, 2], .flush, .writeAllAt 0 [9]],
      ¬ writeFailed status := by
    rw [outputs_cons, outputs_cons, outputs_cons, outputs_nil, hfirst, hflush,
      hsecond]
    intro status hmem
    simp only [List.mem_cons, List.not_mem_nil, or_false, or_self] at hmem
    rw [hmem]
    exact not_writeFailed_ok
  obtain ⟨hbyte, _⟩ := stored_bytes_stay offset64 offset64 slowWrites
    flakyConditions "records" [] 10 4096 true noFault noFault noFault
    tenByteBuffer [] (.writeAll [1, 2]) [.flush, .writeAllAt 0 [9]]
    { moved := 0, fails := true } (by decide) rfl hsafe
    (congrArg Prod.fst hfirst)
    (Or.inr ⟨[], .flush, [.writeAllAt 0 [9]], rfl, trivial, by
      show (writeStep offset64 slowWrites
        (writeStep offset64 slowWrites { adapter := tenByteBuffer }
          (.writeAll [1, 2])).2 .flush).1 = _
      rw [hfirst, hflush]⟩) 1 (by decide)
    ⟨fun haims => absurd haims.2 (Nat.not_lt.mpr haims.1), by
      intro haims
      exact absurd haims.2 (by decide), trivial⟩
  exact hbyte

/-! ## One transfer after the other -/

/-- A first part of the data, and all of it after a success. -/
def FirstPart (data : List UInt8) (status : Status) (piece : List UInt8) :
    Prop :=
  piece <+: data ∧ (status = .ok () → piece = data)

/-- A sink behind the end of what it holds. -/
structure Appending (written : List UInt8) (sink : BufferedSink) : Prop where
  sound : Sound sink
  ends : Ends sink.file.buffer written

/-- Opening a file afresh drops what it held. -/
theorem open_truncated {path : String} {content : List UInt8}
    {maximumSize maximumWriteSize : UInt64} {opened ended rewound : CallFault}
    {sink : BufferedSink}
    (hopen : BufferedSink.open' path content maximumSize true maximumWriteSize
      opened ended rewound = .ok sink) : Appending [] sink := by
  have hempty : BufferedSink.open' path [] maximumSize true maximumWriteSize
      opened ended rewound = .ok sink := hopen
  have hsound := opened_sound (by decide) hempty
  rw [BufferedSink.open'] at hopen
  by_cases hinvalid : path.isEmpty = true ∨ maximumWriteSize = 0
  · rw [if_pos hinvalid] at hopen
    cases hopen
  rw [if_neg hinvalid] at hopen
  by_cases hfails : opened.fails = true
  · rw [if_pos hfails] at hopen
    cases hopen
  · rw [if_neg hfails, if_pos rfl] at hopen
    cases hopen
    exact ⟨hsound, rfl, rfl⟩

section Appending

variable {written data : List UInt8} {before after : BufferedSink} {m l : Nat}
  {status : Status}

/-- Whatever becomes of a write at the end, a first part follows. -/
theorem Appending.leaves (h : Appending written before)
    (hwritten : Written before after data m l status) :
    ∃ whole, Ends after.file.buffer whole ∧ whole <+: written ++ data := by
  obtain ⟨_, hends⟩ := hwritten.moves.ends h.ends.start
  refine ⟨_, hends, ?_⟩
  rw [← h.ends.whole, List.append_assoc]
  exact (List.prefix_append_right_inj _).mpr (List.take_prefix _ _)

/-- A write that did not fail is at the end again, behind a first part. -/
theorem Appending.write (h : Appending written before)
    (hwritten : Written before after data m l status)
    (hsafe : ¬ writeFailed status) :
    ∃ piece, FirstPart data status piece
      ∧ Appending (written ++ piece) after := by
  obtain ⟨hsound, k, _, rfl, _, hsuccess⟩ := hwritten.holds h.sound hsafe
  obtain ⟨_, hends⟩ := hwritten.moves.ends h.ends.start
  rw [List.take_length_add_append, ← List.append_assoc, h.ends.whole] at hends
  refine ⟨data.take k, ⟨List.take_prefix k data, ?_⟩, hsound, hends⟩
  intro hok
  rw [hsuccess hok, List.take_length]

/-- Closing leaves a first part of what was written; all of it without an
    error. -/
theorem close_ends {sink : BufferedSink} (h : Ends sink.file.buffer written)
    (closing : WriteOut) :
    sink.close closing <+: written
      ∧ (closing.fails = false → sink.close closing = written) := by
  obtain ⟨m, _, hfile, hquiet⟩ := close_spec sink closing
  rw [h.start, overwrite_end] at hfile
  constructor
  · rw [hfile, ← h.whole]
    exact (List.prefix_append_right_inj _).mpr (List.take_prefix _ _)
  · intro hclosing
    rw [hquiet hclosing]
    exact h.holds.1

end Appending

/-- **RUN**: writes of which none failed lie one after the other, each with a
    first part of its data. -/
theorem appends_pieces {platform : Platform}
    {conditions : Nat → WriteConditions} {world : Timed BufferedSink}
    {written : List UInt8} {datas : List (List UInt8)}
    (h : Appending written world.adapter)
    (hsafe : ∀ status ∈ outputs (writeStep platform conditions) world
      (datas.map .writeAll), ¬ writeFailed status) :
    ∃ pieces, List.Forall₂ (fun entry piece =>
        FirstPart (Prod.fst entry) (Prod.snd entry) piece)
        (datas.zip (outputs (writeStep platform conditions) world
          (datas.map .writeAll))) pieces
      ∧ Appending (written ++ pieces.flatten)
        (finalState (writeStep platform conditions) world
          (datas.map .writeAll)).adapter := by
  induction datas generalizing world written with
  | nil =>
      refine ⟨[], .nil, ?_⟩
      rw [List.flatten_nil, List.append_nil]
      exact h
  | cons data datas ih =>
      rw [List.map_cons, outputs_cons, List.forall_mem_cons] at hsafe
      obtain ⟨hhere, hrest⟩ := hsafe
      obtain ⟨m, l, hk⟩ := writeAll_written platform conditions h.sound data
      obtain ⟨piece, hpiece, hnext⟩ := h.write hk hhere
      obtain ⟨pieces, hpieces, hafter⟩ := ih hnext hrest
      refine ⟨piece :: pieces, ?_, ?_⟩
      · rw [List.map_cons, outputs_cons, List.zip_cons_cons]
        exact .cons hpiece hpieces
      · rw [List.flatten_cons, ← List.append_assoc]
        exact hafter

/-- **RUN**: reads go through the file one after the other, each with a first
    part of its buffer; one that ends early has seen the end. -/
theorem reads_pieces (platform : Platform) (conditions : Nat → Conditions)
    {content : List UInt8} {world : Timed FileByteSource}
    (h : ShiboriFaultyRead.Tracked content world.adapter)
    (destinations : List (List UInt8)) :
    let replies := outputs (readStep platform conditions) world
      (destinations.map .readExact)
    let after := finalState (readStep platform conditions) world
      (destinations.map .readExact)
    ∃ pieces, List.Forall₂ (fun reply piece =>
        FirstPart (Prod.snd reply) (Prod.fst reply) piece) replies pieces
      ∧ ShiboriFaultyRead.Tracked content after.adapter
      ∧ content.take world.adapter.file.offset ++ pieces.flatten
        = content.take after.adapter.file.offset
      ∧ ((∃ reply ∈ replies, ∃ error, reply.1 = .error error
          ∧ error.code = .unexpectedEnd)
        → content.length ≤ after.adapter.file.offset) := by
  induction destinations generalizing world with
  | nil =>
      refine ⟨[], .nil, h, ?_, ?_⟩
      · rw [List.flatten_nil, List.append_nil]
        rfl
      · rintro ⟨reply, hmem, _⟩
        cases hmem
  | cons destination destinations ih =>
      obtain ⟨k, hk, hnext, hoffset⟩ :=
        readExact_delivers platform conditions h destination
      obtain ⟨pieces, hpieces, hafter, hread, hend⟩ := ih hnext
      have hpiece : (subspan content world.adapter.file.offset k).length = k :=
        subspan_length hk.there
      refine ⟨subspan content world.adapter.file.offset k :: pieces,
        .cons ⟨?_, ?_⟩ hpieces, hafter, ?_, ?_⟩
      · show _ <+: (readExact _ _ world destination).2.1
        rw [hk.delivered]
        exact List.prefix_append _ _
      · intro hok
        have hall := hk.success.mp hok
        show _ = (readExact _ _ world destination).2.1
        rw [hk.delivered, hall, List.drop_length, List.append_nil]
      · rw [List.flatten_cons, ← List.append_assoc]
        have htake : content.take world.adapter.file.offset
            ++ subspan content world.adapter.file.offset k
            = content.take (world.adapter.file.offset + k) :=
          List.take_add.symm
        rw [htake, ← hoffset]
        exact hread
      · rintro ⟨reply, hmem, error, herror, hcode⟩
        rcases List.mem_cons.mp hmem with rfl | hrest
        -- from the end on there is nothing more to go through
        · have hends := hk.ended error herror hcode
          have hlength := congrArg List.length hread
          rw [hoffset, hends, List.take_length, List.length_append,
            List.length_take] at hlength
          have hle := Nat.le_add_right content.length pieces.flatten.length
          rw [hlength] at hle
          exact Nat.le_trans hle (Nat.min_le_left _ _)
        · exact hend ⟨reply, hrest, error, herror, hcode⟩

/-- **NOTHING LOST BETWEEN A WRITER AND A READER**: a writer fills a fresh file
    by writes of which none fails, though they may stop short, and closes it;
    a reader goes through it by reads that may stop short.  What was written is
    a first part of every write, in order, and the file is all of it, or a
    first part if there was an error at closing; the reader gets a first part
    of the file, in order, and the whole file when one of its reads has met the
    end. -/
theorem file_pipe (platform platform' : Platform)
    (conditions : Nat → WriteConditions) (conditions' : Nat → Conditions)
    (path : String) (content : List UInt8)
    (maximumSize maximumWriteSize : UInt64)
    (opened ended rewound : CallFault) (sink : BufferedSink)
    (datas : List (List UInt8)) (closing : WriteOut)
    (hopen : BufferedSink.open' path content maximumSize true maximumWriteSize
      opened ended rewound = .ok sink)
    (hsafe : ∀ status ∈ outputs (writeStep platform conditions)
      { adapter := sink } (datas.map .writeAll), ¬ writeFailed status) :
    let statuses := outputs (writeStep platform conditions)
      { adapter := sink } (datas.map .writeAll)
    let file := (finalState (writeStep platform conditions)
      { adapter := sink } (datas.map .writeAll)).adapter.close closing
    ∃ pieces, List.Forall₂ (fun entry piece =>
        FirstPart (Prod.fst entry) (Prod.snd entry) piece)
        (datas.zip statuses) pieces
      ∧ file <+: pieces.flatten
      ∧ (closing.fails = false → file = pieces.flatten)
      ∧ ∀ (maximumReadSize : UInt64) (opened ended rewound : CallFault)
          (source : FileByteSource) (destinations : List (List UInt8)),
        FileByteSource.open' path file maximumReadSize opened ended rewound
          = .ok source →
        let replies := outputs (readStep platform' conditions')
          { adapter := source } (destinations.map .readExact)
        ∃ got, List.Forall₂ (fun reply piece =>
            FirstPart (Prod.snd reply) (Prod.fst reply) piece) replies got
          ∧ got.flatten <+: file
          ∧ ((∃ reply ∈ replies, ∃ error, reply.1 = .error error
              ∧ error.code = .unexpectedEnd) → got.flatten = file) := by
  intro statuses file
  have hfresh : Appending [] (Timed.adapter { adapter := sink }) :=
    open_truncated hopen
  obtain ⟨pieces, hpieces, hafter⟩ := appends_pieces hfresh hsafe
  obtain ⟨hfirst, hall⟩ := close_ends hafter.ends closing
  refine ⟨pieces, hpieces, hfirst, hall, ?_⟩
  intro maximumReadSize opened ended rewound source destinations hread replies
  obtain ⟨htracked, hstart⟩ :=
    open_tracked (close_length hafter.sound closing) hread
  have hworld : ShiboriFaultyRead.Tracked file
    ({ adapter := source } : Timed FileByteSource).adapter := htracked
  obtain ⟨got, hgot, _, hparts, hend⟩ :=
    reads_pieces platform' conditions' hworld destinations
  have hzero : source.file.offset = 0 := by
    rw [← htracked.position, hstart]
    rfl
  rw [hzero, List.take_zero, List.nil_append] at hparts
  refine ⟨got, hgot, ?_, ?_⟩
  · rw [hparts]
    exact List.take_prefix _ _
  · intro hmet
    rw [hparts]
    exact List.take_of_length_le (hend hmet)

/-- The file holds both bytes when it is closed without an error; one of them
    when nothing gets through any more. -/
theorem file_pipe_at_tenByteBuffer :
    let sink := (finalState (writeStep offset64 slowWrites)
      { adapter := tenByteBuffer } [.writeAll [1, 2]]).adapter
    let torn := sink.close { moved := 0, fails := true }
    sink.close { moved := 0, fails := false } = [1, 2]
      ∧ torn = [1] ∧ torn <+: [1, 2] := by
  intro sink torn
  have houtputs : outputs (writeStep offset64 slowWrites)
      { adapter := tenByteBuffer } ([[1, 2]].map .writeAll) = [.ok ()] := by
    rw [List.map_singleton, outputs_cons, outputs_nil, slow_write]
  have hsafe : ∀ status ∈ outputs (writeStep offset64 slowWrites)
      { adapter := tenByteBuffer } ([[1, 2]].map .writeAll),
      ¬ writeFailed status := by
    rw [houtputs]
    intro status hmem
    rw [List.mem_singleton.mp hmem]
    exact not_writeFailed_ok
  have hpipe := fun closing => file_pipe offset64 offset64 slowWrites
    flakyConditions "records" [] 10 4096 noFault noFault noFault tenByteBuffer
    [[1, 2]] closing rfl hsafe
  have hwhole : ∀ pieces : List (List UInt8),
      List.Forall₂ (fun entry piece =>
        FirstPart (Prod.fst entry) (Prod.snd entry) piece)
        ([[1, 2]].zip (outputs (writeStep offset64 slowWrites)
          { adapter := tenByteBuffer } ([[1, 2]].map .writeAll))) pieces →
      pieces.flatten = [1, 2] := by
    intro pieces hpieces
    rw [houtputs] at hpieces
    cases hpieces with
    | cons hpiece hrest =>
        cases hrest
        rw [hpiece.2 rfl]
        rfl
  refine ⟨?_, ?_, ?_⟩
  · obtain ⟨pieces, hpieces, _, hall, _⟩ := hpipe { moved := 0, fails := false }
    exact (hall rfl).trans (hwhole pieces hpieces)
  · have hsink : sink = { tenByteBuffer with
        file := { buffer := ⟨[1], 1, [2]⟩ }, position := 2, extent := 2 } := by
      show (writeStep _ _ _ _).2.adapter = _
      rw [slow_write]
    show sink.close _ = _
    rw [hsink]
    rfl
  · obtain ⟨pieces, hpieces, hfirst, _⟩ := hpipe { moved := 0, fails := true }
    exact (hwhole pieces hpieces) ▸ hfirst

end ShiboriStoredBytes
