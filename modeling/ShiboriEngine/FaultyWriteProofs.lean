import Mathlib
import ShiboriEngine.BufferedIoProofs
import ShiboriEngine.FaultyReadProofs

/-! # Writing a file whatever the system does

    Whatever is cancelled and wherever writing out fails, a request moves a
    first part of what was pending and of its own data to the file, in order
    and in place, and never passes the maximum size.  A request that does not
    report a failed write lost nothing: what it took is in the file or still
    pending.  One that does may have lost bytes of earlier requests that
    succeeded. -/

namespace ShiboriFaultyWrite

open ShiboriError ShiboriByteIo ShiboriFileIo ShiboriBufferedIo
open ShiboriBufferedView ShiboriExactTransfer ShiboriFaultyRead
open Spans Words Transfer WriteBehind
open ShiboriFileBound (attempted)

/-! ## The sink among faults -/

/-- What the token answers and the system does at one call. -/
structure WriteConditions where
  cancelled : Bool
  taken : Nat
  out : WriteOut
  call : CallFault

/-- A token of which each answer takes a step of time. -/
def sinkToken (conditions : Nat → WriteConditions) :
    CancellationToken (Timed BufferedSink) where
  isCancelled world :=
    ((conditions world.time).cancelled, { world with time := world.time + 1 })

/-- `FileByteSink::capabilities`. -/
def sinkCapabilities (_ : BufferedSink) : ByteSinkCapabilities :=
  ⟨true, true, true⟩

/-- The sink, each call under the conditions of its time. -/
def timedSink (platform : Platform) (conditions : Nat → WriteConditions) :
    ByteSink (Timed BufferedSink) where
  write world source :=
    let now := conditions world.time
    let reply := world.adapter.write source now.cancelled now.taken now.out
    (reply.1, ⟨reply.2, world.time + 1⟩)
  capabilities world := sinkCapabilities world.adapter
  seek world position :=
    let now := conditions world.time
    let reply :=
      world.adapter.seek platform position now.cancelled now.out now.call
    (reply.1, ⟨reply.2, world.time + 1⟩)

/-- The request reports that a write failed. -/
def writeFailed (status : Status) : Prop :=
  ∃ error, status = .error error ∧ error.code = .ioWriteFailed

/-- An error is no success. -/
theorem error_ne_ok (error : Error) : (.error error : Status) ≠ .ok () := by
  intro h
  cases h

/-- A success reports no failed write. -/
theorem not_writeFailed_ok : ¬ writeFailed (.ok ()) := by
  rintro ⟨error, herror, _⟩
  cases herror

/-! ## Writing out -/

/-- Writing out moves a first part of what is pending. -/
theorem writeOut_moves (file : BufferedStream) (out : WriteOut) :
    ∃ m l, Moves file.buffer (file.writeOut out).2.buffer file.buffer.pending
      m l := by
  rw [BufferedStream.writeOut]
  by_cases hfails : out.fails = true
  · rw [if_pos hfails]
    have hmoves := moves_drain file.buffer out.moved
    dsimp only
    by_cases hloses : out.loses = true
    · rw [if_pos hloses]
      exact ⟨_, _, hmoves.discard⟩
    · rw [if_neg hloses]
      exact ⟨_, _, hmoves⟩
  · rw [if_neg hfails]
    exact ⟨_, _, moves_drain file.buffer file.buffer.pending.length⟩

/-- An `fwrite` that fails takes less than it was offered. -/
theorem fwrite_failing (file : BufferedStream) {data : List UInt8}
    (hdata : data ≠ []) (taken : Nat) {out : WriteOut}
    (hfails : out.fails = true) :
    let reply := file.fwrite data taken out
    reply.1 < data.length ∧ reply.2.error = true
      ∧ ∃ m l, l ≤ file.buffer.pending.length + reply.1
        ∧ Moves file.buffer reply.2.buffer (file.buffer.pending ++ data)
          m l := by
  have hlength := List.length_pos_iff.mpr hdata
  have hcount : min taken (data.length - 1) ≤ data.length := by omega
  have hmoves := moves_put_drain file.buffer hcount out.moved
  rw [BufferedStream.fwrite, if_pos hfails]
  dsimp only
  rw [BufferedStream.writeOut, if_pos hfails]
  refine ⟨by omega, rfl, ?_⟩
  dsimp only
  by_cases hloses : out.loses = true
  · rw [if_pos hloses]
    exact ⟨_, _, Nat.min_le_right _ _, hmoves.discard⟩
  · rw [if_neg hloses]
    exact ⟨_, _, Nat.le_refl _, hmoves⟩

/-- An `fwrite` without an error takes everything. -/
theorem fwrite_moves (file : BufferedStream) (data : List UInt8) (taken : Nat)
    {out : WriteOut} (hquiet : out.fails = false) :
    let reply := file.fwrite data taken out
    reply.1 = data.length
      ∧ ∃ m, Moves file.buffer reply.2.buffer (file.buffer.pending ++ data) m
        (file.buffer.pending.length + data.length) := by
  have hmoves :=
    moves_put_drain file.buffer (Nat.le_refl data.length) out.moved
  rw [List.take_length] at hmoves
  rw [BufferedStream.fwrite, if_neg (by rw [hquiet]; exact Bool.false_ne_true)]
  exact ⟨rfl, _, hmoves⟩

/-! ## Bounds -/

section
variable {sink : BufferedSink}

/-- What the numbers of a sound sink say. -/
theorem sound_offset (h : Sound sink) :
    sink.file.buffer.offset = sink.position.toNat
      ∧ sink.file.buffer.holds.length ≤ sink.maximumSize.toNat
      ∧ sink.position.toNat ≤ sink.maximumSize.toNat :=
  ⟨h.view.position.symm, h.view.bounded, le_toNat.mp h.view.room⟩

/-- The file stays within the bound when what is moved does. -/
theorem moves_bounded (h : Sound sink) {after : BufferedSink}
    {ahead : List UInt8} {m l : Nat}
    (hmoves : Moves sink.file.buffer after.file.buffer ahead m l)
    (hroom : sink.file.buffer.start + l ≤ sink.maximumSize.toNat) :
    after.file.buffer.stored.length ≤ sink.maximumSize.toNat := by
  obtain ⟨_, hbounded, _⟩ := sound_offset h
  have hstored : sink.file.buffer.stored.length
      ≤ sink.file.buffer.holds.length := le_overwrite_length _ _ _
  have horder := hmoves.order
  have hplaced := h.placed
  rw [hmoves.stored, overwrite_length hplaced,
    List.length_take_of_le (Nat.le_trans horder hmoves.taken)]
  omega

end

/-! ## One write -/

section
variable {sink : BufferedSink}

/-- What is handed to the stream moves; all of it, or an error shows. -/
theorem handed_moves (sink : BufferedSink) (source : List UInt8) (taken : Nat)
    (out : WriteOut) :
    let reply := handed sink source taken out
    let offered := attempted (view sink) source
    ∃ m l, Moves sink.file.buffer reply.2.buffer
        (sink.file.buffer.pending ++ source) m l
      ∧ (reply.1 = offered ∧ l = sink.file.buffer.pending.length + offered
          ∧ (offered = 0 ∨ out.fails = false)
        ∨ reply.1 < offered ∧ reply.2.error = true
          ∧ l ≤ sink.file.buffer.pending.length + reply.1) := by
  intro reply offered
  have hreply : reply = handed sink source taken out := rfl
  have hle : offered ≤ source.length := Nat.min_le_left _ _
  have hlength : (source.take offered).length = offered :=
    List.length_take_of_le hle
  have hahead : sink.file.buffer.pending ++ source.take offered
      ++ source.drop offered = sink.file.buffer.pending ++ source := by
    rw [List.append_assoc, List.take_append_drop]
  rw [handed] at hreply
  by_cases hnone : attempted (view sink) source = 0
  · rw [if_pos hnone] at hreply
    rw [hreply]
    exact ⟨_, _, Moves.refl _ _, Or.inl ⟨hnone.symm,
      (congrArg (sink.file.buffer.pending.length + ·) hnone).symm,
      Or.inl hnone⟩⟩
  rw [if_neg hnone] at hreply
  rw [hreply]
  cases hfails : out.fails with
  | false =>
      obtain ⟨hall, m, hmoves⟩ :=
        fwrite_moves sink.file (source.take offered) taken hfails
      have hmore := hmoves.append (source.drop offered)
      rw [hahead] at hmore
      refine ⟨m, _, hmore, Or.inl ⟨hall.trans hlength, ?_, Or.inr rfl⟩⟩
      rw [hlength]
  | true =>
      have hsome : source.take offered ≠ [] := by
        intro hempty
        rw [hempty] at hlength
        exact hnone hlength.symm
      obtain ⟨hless, herror, m, l, hl, hmoves⟩ :=
        fwrite_failing sink.file hsome taken hfails
      have hmore := hmoves.append (source.drop offered)
      rw [hahead] at hmore
      rw [hlength] at hless
      exact ⟨m, l, hmore, Or.inr ⟨hless, herror, hl⟩⟩

/-- A write that hands on everything, or nothing, keeps the sink sound. -/
theorem write_all_sound (h : Sound sink) (source : List UInt8) (taken : Nat)
    {out : WriteOut}
    (hroom : ¬ (¬ source.isEmpty ∧ sink.maximumSize - sink.position = 0))
    (hall : attempted (view sink) source = 0 ∨ out.fails = false) :
    Sound (sink.write source false taken out).2 := by
  have hquiet : ∀ out : WriteOut, out.fails = false →
      Sound (sink.write source false taken out).2 := by
    intro out hfails
    have hcall : Quiet (.write source false taken out) := hfails
    exact (bufferedStep_view offset64 h hcall).2
  rcases hall with hnone | hall
  · have hsame : handed sink source taken out
        = handed sink source taken { moved := 0, fails := false } := by
      rw [handed, handed, if_pos hnone, if_pos hnone]
    have hnext := hquiet { moved := 0, fails := false } rfl
    have hnothing : ∀ out, (handed sink source taken out).1
        = attempted (view sink) source := by
      intro out
      rw [handed, if_pos hnone, hnone]
    have hshort : ∀ out, ¬ ((handed sink source taken out).1
        < attempted (view sink) source
        ∧ (handed sink source taken out).2.error = true) := by
      rintro out ⟨hless, _⟩
      rw [hnothing] at hless
      omega
    rw [write_handed _ taken hroom] at hnext ⊢
    dsimp only at hnext ⊢
    rw [if_neg (hshort _)] at hnext ⊢
    rw [hsame]
    exact hnext
  · exact hquiet out hall

/-- **ONE WRITE** from a sound sink: it takes some bytes and reports them; or
    there is no room; or it fails, and may lose what was pending. -/
theorem write_spec (h : Sound sink) (source : List UInt8) (taken : Nat)
    (out : WriteOut) :
    ∃ m l result after, sink.write source false taken out = (result, after)
      ∧ Moves sink.file.buffer after.file.buffer
        (sink.file.buffer.pending ++ source) m l
      ∧ after.maximumSize = sink.maximumSize
      ∧ after.file.buffer.stored.length ≤ sink.maximumSize.toNat
      ∧ ((∃ k, result = .ok k ∧ l = sink.file.buffer.pending.length + k
          ∧ Sound after)
        ∨ (∃ error, result = .error error ∧ error.code = .limitExceeded
          ∧ after = sink ∧ sink.position = sink.maximumSize
          ∧ l = sink.file.buffer.pending.length ∧ source ≠ [])
        ∨ (∃ error, result = .error error ∧ error.code = .ioWriteFailed
          ∧ l < sink.file.buffer.pending.length + source.length)) := by
  obtain ⟨hoffset, hbounded, hmax⟩ := sound_offset h
  rw [Buffer.offset] at hoffset
  have hsub := UInt64.toNat_sub_of_le _ _ h.view.room
  by_cases hroom : ¬ source.isEmpty ∧ sink.maximumSize - sink.position = 0
  · have hwrite : sink.write source false taken out
        = (fail .limitExceeded .write "file sink maximum size was reached",
          sink) := by
      rw [BufferedSink.write, if_neg Bool.false_ne_true]
      exact if_pos hroom
    have hmoves := Moves.refl sink.file.buffer source
    have hfull : sink.position = sink.maximumSize := by
      refine (UInt64.toNat_inj.mp ?_)
      have hzero : (sink.maximumSize - sink.position).toNat = 0 := by
        rw [hroom.2]
        rfl
      have hsub' : (sink.maximumSize - sink.position).toNat
          = sink.maximumSize.toNat - sink.position.toNat := hsub
      omega
    have hsome : source ≠ [] := by
      intro hempty
      rw [hempty] at hroom
      exact hroom.1 rfl
    exact ⟨0, _, _, sink, hwrite, hmoves, rfl,
      moves_bounded h hmoves (by omega),
      Or.inr (Or.inl ⟨_, rfl, rfl, rfl, hfull, rfl, hsome⟩)⟩
  obtain ⟨m, l, hmoves, hhow⟩ := handed_moves sink source taken out
  have hle : attempted (view sink) source ≤ source.length := Nat.min_le_left _ _
  have hfit : attempted (view sink) source
      ≤ (sink.maximumSize - sink.position).toNat := by
    rw [attempted]
    exact Nat.le_trans (Nat.min_le_right _ _) (Nat.min_le_right _ _)
  have hsub' : (sink.maximumSize - sink.position).toNat
      = sink.maximumSize.toNat - sink.position.toNat := hsub
  have hspace : sink.file.buffer.start + l ≤ sink.maximumSize.toNat := by
    rcases hhow with ⟨_, hl, _⟩ | ⟨_, _, hl⟩
    · omega
    · omega
  rcases hhow with ⟨hwritten, hl, hall⟩ | ⟨hless, herror, hl⟩
  · have hshort : ¬ ((handed sink source taken out).1
        < attempted (view sink) source
        ∧ (handed sink source taken out).2.error = true) := by
      rintro ⟨hless, _⟩
      omega
    have hsound := write_all_sound h source taken hroom hall
    have hwrite := write_handed out taken hroom
    dsimp only at hwrite
    rw [if_neg hshort] at hwrite
    rw [hwrite] at hsound
    exact ⟨m, l, _, _, hwrite, hmoves, rfl, moves_bounded h hmoves hspace,
      Or.inl ⟨_, rfl, hl.trans (congrArg _ hwritten.symm), hsound⟩⟩
  · have hwrite := write_handed out taken hroom
    dsimp only at hwrite
    rw [if_pos ⟨hless, herror⟩] at hwrite
    exact ⟨m, l, _, _, hwrite, hmoves, rfl, moves_bounded h hmoves hspace,
      Or.inr (Or.inr ⟨_, rfl, rfl, by omega⟩)⟩

end

/-! ## Writing everything -/

/-- The errors of a transfer that are not the adapter's fault. -/
def writeFailures : List ErrorCode :=
  [.operationCancelled, .ioWriteFailed, .ioNoProgress, .limitExceeded]

/-- **WHAT A TRANSFER WROTE**: of what was pending and the data after it, a
    first part of `l` bytes was kept, and `m` of these are in the file.  It is
    all when the transfer succeeds, and nothing that was pending is missing
    unless a write failed. -/
structure Written (before after : BufferedSink) (data : List UInt8)
    (m l : Nat) (status : Status) : Prop where
  moves : Moves before.file.buffer after.file.buffer
    (before.file.buffer.pending ++ data) m l
  maximum : after.maximumSize = before.maximumSize
  bounded : after.file.buffer.stored.length ≤ before.maximumSize.toNat
  success : status = .ok ()
    ↔ l = before.file.buffer.pending.length + data.length
  failures : ∀ error, status = .error error → error.code ∈ writeFailures
  full : ∀ error, status = .error error → error.code = .limitExceeded →
    after.position = after.maximumSize
  kept : writeFailed status
    ∨ Sound after ∧ before.file.buffer.pending.length ≤ l

/-- **NOTHING LOST**: a transfer that does not report a failed write kept a
    first part of its data, at the position, and goes on behind it. -/
theorem Written.holds {before after : BufferedSink} {data : List UInt8}
    {m l : Nat} {status : Status} (hbefore : Sound before)
    (h : Written before after data m l status)
    (hsafe : ¬ writeFailed status) :
    Sound after ∧ ∃ k, k ≤ data.length
      ∧ l = before.file.buffer.pending.length + k
      ∧ after.file.buffer.holds = overwrite before.file.buffer.holds
        before.file.buffer.offset (data.take k)
      ∧ (status = .ok () → k = data.length) := by
  obtain ⟨hsound, hkept⟩ := h.kept.resolve_left hsafe
  obtain ⟨k, rfl⟩ := Nat.exists_eq_add_of_le hkept
  have htaken := h.moves.taken
  rw [List.length_append] at htaken
  refine ⟨hsound, k, by omega, rfl, (h.moves.holds_append hbefore.placed).1, ?_⟩
  intro hok
  have hall := h.success.mp hok
  omega

/-- What a transfer of everything has done so far. -/
structure Writing (before : BufferedSink) (data : List UInt8)
    (world : Timed BufferedSink) (completed : Nat) : Prop where
  sound : Sound world.adapter
  moves : ∃ m, Moves before.file.buffer world.adapter.file.buffer
    (before.file.buffer.pending ++ data) m
    (before.file.buffer.pending.length + completed)
  maximum : world.adapter.maximumSize = before.maximumSize

section
variable {before : BufferedSink} {data : List UInt8}

/-- No more is written than there is. -/
theorem Writing.fits {world : Timed BufferedSink} {completed : Nat}
    (h : Writing before data world completed) : completed ≤ data.length := by
  obtain ⟨m, hmoves⟩ := h.moves
  have htaken := hmoves.taken
  rw [List.length_append] at htaken
  omega

/-- A transfer that stopped in good order. -/
theorem Writing.written {world : Timed BufferedSink} {completed : Nat}
    (h : Writing before data world completed) (status : Status)
    (hsuccess : status = .ok () ↔ completed = data.length)
    (hfailures : ∀ error, status = .error error →
      error.code ∈ writeFailures ∧ (error.code = .limitExceeded →
        world.adapter.position = world.adapter.maximumSize)) :
    ∃ m l, Written before world.adapter data m l status := by
  obtain ⟨m, hmoves⟩ := h.moves
  obtain ⟨_, hbounded, _⟩ := sound_offset h.sound
  refine ⟨m, _, hmoves, h.maximum, ?_, ?_, fun error herror =>
    (hfailures error herror).1, fun error herror =>
    (hfailures error herror).2, Or.inr ⟨h.sound, Nat.le_add_right _ _⟩⟩
  · rw [← h.maximum]
    exact Nat.le_trans (le_overwrite_length _ _ _) hbounded
  · rw [hsuccess]
    omega

/-- Waiting changes nothing. -/
theorem Writing.later {world : Timed BufferedSink} {completed : Nat}
    (h : Writing before data world completed) (time : Nat) :
    Writing before data { world with time := time } completed :=
  ⟨h.sound, h.moves, h.maximum⟩

/-- **ONE CALL** of a transfer takes more, or ends it. -/
theorem Writing.call (hbefore : Sound before) (platform : Platform)
    (conditions : Nat → WriteConditions) {world after : Timed BufferedSink}
    {completed : Nat} {result : Result Nat}
    (h : Writing before data world completed)
    (hmore : completed < data.length)
    (hcall : (timedSink platform conditions).write world
      (data.drop completed) = (result, after)) :
    (∃ n, result = .ok n ∧ Writing before data after (completed + n))
      ∨ ∃ error m l, result = .error error
        ∧ Written before after.adapter data m l (.error error) := by
  cases hc : (conditions world.time).cancelled with
  | true =>
      have hwrite : (timedSink platform conditions).write world
          (data.drop completed)
          = (.error (fileCancelled .write),
            ⟨world.adapter, world.time + 1⟩) := by
        simp only [timedSink, hc, BufferedSink.write, if_true]
      rw [hwrite] at hcall
      cases hcall
      obtain ⟨m, l, hwritten⟩ :=
        h.written (.error (fileCancelled .write))
          (iff_of_false (error_ne_ok _) (Nat.ne_of_lt hmore)) (by
            intro error herror
            cases herror
            exact ⟨List.mem_cons_self, fun hcode =>
              absurd hcode (by decide)⟩)
      exact Or.inr ⟨_, m, l, rfl, hwritten⟩
  | false =>
      obtain ⟨m', l', written, sink, hwrite, hmoved, hmaximum, hbounded,
        hresult⟩ := write_spec h.sound (data.drop completed)
          (conditions world.time).taken (conditions world.time).out
      have hwrite' : (timedSink platform conditions).write world
          (data.drop completed) = (written, ⟨sink, world.time + 1⟩) := by
        simp only [timedSink, hc, hwrite]
      rw [hwrite'] at hcall
      cases hcall
      obtain ⟨m, hmoves⟩ := h.moves
      have hfits := h.fits
      have horder := hmoves.order
      have htaken := hmoves.taken
      have hpending : world.adapter.file.buffer.pending.length
          = before.file.buffer.pending.length + completed - m := by
        rw [hmoves.pending, List.length_drop, List.length_take_of_le htaken]
      have hahead : (before.file.buffer.pending ++ data).drop
          (before.file.buffer.pending.length + completed)
          = data.drop completed := by
        rw [← List.drop_drop, List.drop_left]
      rw [← hahead] at hmoved
      have hboth := hmoves.trans hbefore.placed hmoved
      have hmaximum' := hmaximum.trans h.maximum
      rw [h.maximum] at hbounded
      rcases hresult with ⟨k, rfl, hl, hsound⟩
        | ⟨error, rfl, hcode, rfl, hfull, hl, hsome⟩
        | ⟨error, rfl, hcode, hl⟩
      · refine Or.inl ⟨k, rfl, hsound, ⟨m + m', ?_⟩, hmaximum'⟩
        have hend : m + l'
            = before.file.buffer.pending.length + (completed + k) := by
          omega
        rw [← hend]
        exact hboth
      · obtain ⟨m, l, hwritten⟩ :=
          h.written (.error error)
            (iff_of_false (error_ne_ok _) (Nat.ne_of_lt hmore)) (by
              intro other hother
              cases hother
              rw [hcode]
              exact ⟨by decide, fun _ => hfull⟩)
        exact Or.inr ⟨error, m, l, rfl, hwritten⟩
      · rw [List.length_drop] at hl
        refine Or.inr ⟨error, m + m', m + l', rfl, hboth, hmaximum', hbounded,
          iff_of_false (error_ne_ok _) (by omega), ?_, ?_, Or.inl ⟨error, rfl, hcode⟩⟩
        · intro other hother
          cases hother
          rw [hcode]
          decide
        · intro other hother hlimit
          cases hother
          rw [hcode] at hlimit
          cases hlimit

end

/-- What ends the loop is no progress. -/
theorem judgeWrite_some {remaining written : Nat} {error : Error}
    (hfew : written ≤ remaining)
    (h : judgeWrite remaining written = some error) :
    written = 0 ∧ error.code = .ioNoProgress := by
  rw [judgeWrite, if_neg (by omega)] at h
  by_cases hzero : written = 0
  · rw [if_pos hzero] at h
    cases h
    exact ⟨hzero, rfl⟩
  · rw [if_neg hzero] at h
    cases h

/-- **WRITING EVERYTHING**, whatever the token answers and the system does. -/
theorem writeAll_written (platform : Platform)
    (conditions : Nat → WriteConditions) {world : Timed BufferedSink}
    (h : Sound world.adapter) (data : List UInt8) :
    let run := writeAll (timedSink platform conditions)
      (sinkToken conditions) world data
    ∃ m l, Written world.adapter run.2.adapter data m l run.1 := by
  intro run
  have hstart : Writing world.adapter data world 0 :=
    ⟨h, ⟨0, Moves.refl _ _⟩, rfl⟩
  refine writeAll_rule (I := Writing world.adapter data)
    (Q := fun status after =>
      ∃ m l, Written world.adapter after.adapter data m l status)
    ?_ ?_ ?_ ?_ ?_ hstart
  · intro now completed hnow hdone
    have hfits := hnow.fits
    refine hnow.written _ (iff_of_true rfl (by omega)) ?_
    intro error herror
    cases herror
  · intro now completed hnow hmore hpoll
    refine (hnow.later (now.time + 1)).written _
      (iff_of_false (error_ne_ok _) (Nat.ne_of_lt hmore)) ?_
    intro error herror
    cases herror
    exact ⟨List.mem_cons_self, fun hcode => absurd hcode (by decide)⟩
  · intro now completed error after hnow hmore hpoll hwrite
    rcases (hnow.later (now.time + 1)).call h platform conditions hmore
        hwrite with ⟨n, hok, _⟩ | ⟨other, m, l, hother, hwritten⟩
    · cases hok
    · cases hother
      exact ⟨m, l, hwritten⟩
  · intro now completed written after error hnow hmore hpoll hwrite hjudge
    rcases (hnow.later (now.time + 1)).call h platform conditions hmore
        hwrite with ⟨n, hok, hnext⟩ | ⟨other, m, l, hother, _⟩
    · cases hok
      have hfits := hnext.fits
      obtain ⟨hzero, hcode⟩ := judgeWrite_some (by omega) hjudge
      refine hnext.written _ (iff_of_false (error_ne_ok _) (by omega)) ?_
      intro other hother
      cases hother
      rw [hcode]
      exact ⟨by decide, fun hlimit => absurd hlimit (by decide)⟩
    · cases hother
  · intro now completed written after hnow hmore hpoll hwrite hjudge
    rcases (hnow.later (now.time + 1)).call h platform conditions hmore
        hwrite with ⟨n, hok, hnext⟩ | ⟨other, m, l, hother, _⟩
    · cases hok
      exact hnext
    · cases hother

/-! ## When nothing interferes -/

/-- A sink with room for more bytes, which it takes in some portions. -/
structure Clear (sink : BufferedSink) (room : Nat) : Prop where
  sound : Sound sink
  portion : sink.maximumWriteSize ≠ 0
  room : sink.position.toNat + room ≤ sink.maximumSize.toNat

/-- No call is cancelled, and no writing out fails. -/
def Undisturbed (conditions : Nat → WriteConditions) : Prop :=
  ∀ time, (conditions time).cancelled = false
    ∧ (conditions time).out.fails = false

/-- A write with room takes some of its bytes. -/
theorem write_goes_on {sink : BufferedSink} {source : List UInt8} {more : Nat}
    (h : Clear sink (source.length + more)) (hsome : source ≠ [])
    (taken : Nat) {out : WriteOut} (hquiet : out.fails = false) :
    ∃ n after, sink.write source false taken out = (.ok n, after)
      ∧ 0 < n ∧ n ≤ source.length
      ∧ Clear after (source.length - n + more) := by
  have hlength := List.length_pos_iff.mpr hsome
  have hroom' := h.room
  have hportion : 0 < sink.maximumWriteSize.toNat := by
    refine Nat.pos_of_ne_zero fun hzero => h.portion ?_
    exact UInt64.toNat_inj.mp hzero
  have hsub : (sink.maximumSize - sink.position).toNat
      = sink.maximumSize.toNat - sink.position.toNat :=
    UInt64.toNat_sub_of_le _ _ h.sound.view.room
  have hroom : ¬ (¬ source.isEmpty
      ∧ sink.maximumSize - sink.position = 0) := by
    rintro ⟨_, hfull⟩
    rw [hfull] at hsub
    have hzero : (0 : UInt64).toNat = 0 := rfl
    omega
  obtain ⟨_, hall, _⟩ := handed_view h.sound.placed hquiet source taken
  have hsound := write_all_sound h.sound source taken hroom (Or.inr hquiet)
  have hwrite := write_handed out taken hroom
  have hshort : ¬ ((handed sink source taken out).1
      < attempted (view sink) source
      ∧ (handed sink source taken out).2.error = true) := by
    rintro ⟨hless, _⟩
    omega
  dsimp only at hwrite
  rw [if_neg hshort] at hwrite
  rw [hwrite] at hsound
  have hattempted : attempted (view sink) source
      = min source.length (min sink.maximumWriteSize.toNat
        (sink.maximumSize - sink.position).toNat) := rfl
  have hfit : (handed sink source taken out).1
      ≤ (sink.maximumSize - sink.position).toNat := by omega
  have hword := toNat_ofNat_of_le hfit
  have hadd : UInt64.ofNat (handed sink source taken out).1
      ≤ sink.maximumSize - sink.position := by
    rw [le_toNat, hword]
    exact hfit
  have hsum := toNat_add_of_room h.sound.view.room hadd
  rw [hword] at hsum
  refine ⟨_, _, hwrite, by omega, by omega, hsound, h.portion, ?_⟩
  show (sink.position + _).toNat + _ ≤ sink.maximumSize.toNat
  have hposition : (sink.position
      + UInt64.ofNat (handed sink source taken out).1).toNat
      = sink.position.toNat + (handed sink source taken out).1 := hsum
  omega

/-- One call of a transfer that nothing interferes with. -/
theorem Clear.call (platform : Platform) {conditions : Nat → WriteConditions}
    (hclear : Undisturbed conditions) {world after : Timed BufferedSink}
    {data : List UInt8} {completed more : Nat} {result : Result Nat}
    (h : Clear world.adapter (data.length - completed + more))
    (hmore : completed < data.length)
    (hcall : (timedSink platform conditions).write
      ((sinkToken conditions).isCancelled world).2 (data.drop completed)
      = (result, after)) :
    ∃ n, result = .ok n ∧ 0 < n ∧ n ≤ data.length - completed
      ∧ Clear after.adapter (data.length - (completed + n) + more) := by
  obtain ⟨hlive, hquiet⟩ := hclear (world.time + 1)
  have hsome : data.drop completed ≠ [] := by
    intro hempty
    have hlength := congrArg List.length hempty
    rw [List.length_drop, List.length_nil] at hlength
    omega
  rw [← List.length_drop] at h
  obtain ⟨n, sink, hsink, hpos, hle, hnext⟩ :=
    write_goes_on h hsome (conditions (world.time + 1)).taken hquiet
  have hwrite : (timedSink platform conditions).write
      { world with time := world.time + 1 } (data.drop completed)
      = (.ok n, ⟨sink, world.time + 1 + 1⟩) := by
    simp only [timedSink, hlive, hsink]
  cases hwrite.symm.trans hcall
  rw [List.length_drop] at hle hnext
  rw [← Nat.sub_add_eq] at hnext
  exact ⟨n, rfl, hpos, hle, hnext⟩

/-- **A TRANSFER SUCCEEDS** when nothing interferes and there is room. -/
theorem writeAll_succeeds (platform : Platform)
    {conditions : Nat → WriteConditions} (hclear : Undisturbed conditions)
    {world : Timed BufferedSink} {data : List UInt8} {more : Nat}
    (h : Clear world.adapter (data.length + more)) :
    let run := writeAll (timedSink platform conditions)
      (sinkToken conditions) world data
    run.1 = .ok () ∧ Clear run.2.adapter more := by
  intro run
  refine writeAll_rule (I := fun now completed => completed ≤ data.length
      ∧ Clear (Timed.adapter now) (data.length - completed + more))
    (Q := fun status after => status = .ok () ∧ Clear after.adapter more)
    ?_ ?_ ?_ ?_ ?_ ⟨Nat.zero_le _, h⟩
  · rintro now completed ⟨_, hnow⟩ hdone
    rw [Nat.sub_eq_zero_of_le hdone, Nat.zero_add] at hnow
    exact ⟨rfl, hnow⟩
  · intro now completed _ _ hpoll
    have hstop : (conditions now.time).cancelled = true := hpoll
    rw [(hclear now.time).1] at hstop
    cases hstop
  · rintro now completed error after ⟨_, hnow⟩ hmore _ hwrite
    obtain ⟨n, hok, _⟩ := hnow.call platform hclear hmore hwrite
    cases hok
  · rintro now completed written after error ⟨_, hnow⟩ hmore _ hwrite hjudge
    obtain ⟨n, hok, hpos, hfew, _⟩ := hnow.call platform hclear hmore hwrite
    cases hok
    have hzero := (judgeWrite_some hfew hjudge).1
    omega
  · rintro now completed written after ⟨_, hnow⟩ hmore _ hwrite _
    obtain ⟨n, hok, _, hfew, hnext⟩ := hnow.call platform hclear hmore hwrite
    cases hok
    exact ⟨by omega, hnext⟩

/-! ## Seeks and flushes -/

/-- **WHAT A REFUSED REQUEST DID**: what was pending may have moved; and
    nothing happened unless it reports a failed write. -/
structure Refused (before after : BufferedSink) (status : Status) : Prop where
  error : ∃ error, status = .error error
  moves : ∃ m l, Moves before.file.buffer after.file.buffer
    before.file.buffer.pending m l
  bounded : after.file.buffer.stored.length ≤ before.maximumSize.toNat
  kept : writeFailed status ∨ after = before

/-- Everything is in the file, and the sink goes on at a position. -/
structure Through (before after : BufferedSink) (position : Nat) : Prop where
  sound : Sound after
  stored : after.file.buffer.stored = before.file.buffer.holds
  pending : after.file.buffer.pending = []
  start : after.file.buffer.start = position
  maximum : after.maximumSize = before.maximumSize

/-- What is written out is held, and the sink stands where it was put. -/
theorem Through.holds {before after : BufferedSink} {position : Nat}
    (h : Through before after position) :
    after.file.buffer.holds = before.file.buffer.holds
      ∧ after.file.buffer.offset = position := by
  rw [Buffer.holds, Buffer.offset, h.pending, overwrite_nil, h.stored, h.start]
  exact ⟨rfl, rfl⟩

section
variable {sink : BufferedSink}

/-- A call that fails refuses all that is new. -/
theorem refused_of_moves (h : Sound sink) {after : BufferedSink}
    {error : Error} {m l : Nat} (hcode : error.code = .ioWriteFailed)
    (hmoves : Moves sink.file.buffer after.file.buffer
      sink.file.buffer.pending m l) : Refused sink after (.error error) := by
  obtain ⟨hoffset, _, hmax⟩ := sound_offset h
  have htaken := hmoves.taken
  rw [Buffer.offset] at hoffset
  exact ⟨⟨error, rfl⟩, ⟨m, l, hmoves⟩, moves_bounded h hmoves (by omega),
    Or.inl ⟨error, rfl, hcode⟩⟩

/-- So does a call that does nothing. -/
theorem refused_unchanged (h : Sound sink) (error : Error) :
    Refused sink sink (.error error) := by
  obtain ⟨hoffset, _, hmax⟩ := sound_offset h
  have hmoves := Moves.refl sink.file.buffer []
  rw [List.append_nil] at hmoves
  rw [Buffer.offset] at hoffset
  exact ⟨⟨error, rfl⟩, ⟨_, _, hmoves⟩, moves_bounded h hmoves (by omega),
    Or.inr rfl⟩

/-- An `fseeko` writes out, and moves when no error shows. -/
theorem fseek_cases (file : BufferedStream) (offset : Nat) (out : WriteOut)
    (fault : CallFault) :
    file.fseek offset out fault = (false, (file.writeOut out).2)
      ∨ out.fails = false ∧ file.fseek offset out fault
        = (true, { file with buffer := file.buffer.flush.moveTo offset }) := by
  rw [BufferedStream.fseek]
  cases hfails : out.fails with
  | true =>
      rw [BufferedStream.writeOut, if_pos hfails]
      exact Or.inl rfl
  | false =>
      rw [writeOut_quiet hfails]
      dsimp only
      by_cases hcall : fault.fails = true
      · rw [if_pos hcall]
        exact Or.inl rfl
      · rw [if_neg hcall]
        exact Or.inr ⟨rfl, rfl⟩

/-- **ONE SEEK** puts everything into the file and moves, or is refused. -/
theorem sinkSeek_spec (h : Sound sink) (platform : Platform)
    (position : UInt64) (cancelled : Bool) (out : WriteOut)
    (fault : CallFault) :
    let reply := sink.seek platform position cancelled out fault
    reply.1 = .ok () ∧ Through sink reply.2 position.toNat
      ∨ Refused sink reply.2 reply.1 := by
  intro reply
  have hreply : reply = sink.seek platform position cancelled out fault := rfl
  have hquiet : out.fails = false → Sound reply.2 := by
    intro hfails
    have hcall : Quiet (.seek position cancelled out fault) := hfails
    exact (bufferedStep_view platform h hcall).2
  rw [BufferedSink.seek] at hreply
  by_cases hc : cancelled = true
  · rw [if_pos hc] at hreply
    rw [hreply]
    exact Or.inr (refused_unchanged h _)
  rw [if_neg hc] at hreply
  by_cases hbeyond : position > sink.extent
  · rw [if_pos hbeyond] at hreply
    rw [hreply]
    exact Or.inr (refused_unchanged h _)
  rw [if_neg hbeyond, checkedOffset] at hreply
  by_cases hrange : position > platform.offsetMax
  · rw [if_pos hrange] at hreply
    rw [hreply]
    exact Or.inr (refused_unchanged h _)
  rw [if_neg hrange] at hreply
  dsimp only at hreply
  rcases fseek_cases sink.file position.toNat out fault
    with hstill | ⟨hfails, hmoved⟩
  · rw [hstill] at hreply
    rw [hreply]
    obtain ⟨m, l, hmoves⟩ := writeOut_moves sink.file out
    exact Or.inr (refused_of_moves h rfl hmoves)
  · have hsound := hquiet hfails
    rw [hmoved] at hreply
    rw [hreply] at hsound ⊢
    obtain ⟨_, _, hstored, hpending⟩ := flush_spec sink.file.buffer
    exact Or.inl ⟨rfl, hsound, hstored, hpending, rfl, rfl⟩

/-- **ONE FLUSH** puts everything into the file, or is refused. -/
theorem sinkFlush_spec (h : Sound sink) (cancelled : Bool) (out : WriteOut) :
    let reply := sink.flush cancelled out
    reply.1 = .ok () ∧ Through sink reply.2 sink.position.toNat
      ∨ Refused sink reply.2 reply.1 := by
  intro reply
  have hreply : reply = sink.flush cancelled out := rfl
  rw [BufferedSink.flush] at hreply
  by_cases hc : cancelled = true
  · rw [if_pos hc] at hreply
    rw [hreply]
    exact Or.inr (refused_unchanged h _)
  rw [if_neg hc, BufferedStream.fflush] at hreply
  cases hfails : out.fails with
  | true =>
      obtain ⟨m, l, hmoves⟩ := writeOut_moves sink.file out
      rw [BufferedStream.writeOut, if_pos hfails] at hreply hmoves
      rw [hreply]
      exact Or.inr (refused_of_moves h rfl hmoves)
  | false =>
      have hcall : Quiet (.flush cancelled out) := hfails
      have hsound : Sound reply.2 := (bufferedStep_view offset64 h hcall).2
      rw [writeOut_quiet hfails] at hreply
      rw [hreply] at hsound ⊢
      obtain ⟨_, hoffset, hstored, hpending⟩ := flush_spec sink.file.buffer
      refine Or.inl ⟨rfl, hsound, hstored, hpending, ?_, rfl⟩
      rw [← (sound_offset h).1, ← hoffset, Buffer.offset, hpending]
      rfl

end

/-- Writing at a position: refused, or everything from there. -/
theorem writeAllAt_written (platform : Platform)
    (conditions : Nat → WriteConditions) {world : Timed BufferedSink}
    (h : Sound world.adapter) (position : UInt64) (data : List UInt8) :
    let run := writeAllAt (timedSink platform conditions)
      (sinkToken conditions) world position data
    Refused world.adapter run.2.adapter run.1
      ∨ ∃ sought m l, Through world.adapter sought position.toNat
        ∧ Written sought run.2.adapter data m l run.1 := by
  intro run
  obtain ⟨_, hstopped, hunsought, hplaced⟩ :=
    writeAllAt_exits (timedSink platform conditions) (sinkToken conditions)
      world position data
  have hseek := sinkSeek_spec h platform position
    (conditions (world.time + 1)).cancelled (conditions (world.time + 1)).out
    (conditions (world.time + 1)).call
  cases hstop : (conditions world.time).cancelled with
  | true =>
      rw [show run = _ from hstopped rfl hstop]
      exact Or.inl (refused_unchanged h _)
  | false =>
      rcases hseek with ⟨hok, hthrough⟩ | hrefused
      · rw [show run = _ from hplaced rfl hstop hok]
        let sought := ((timedSink platform conditions).seek
          { world with time := world.time + 1 } position).2
        have hsought : Sound sought.adapter := hthrough.sound
        obtain ⟨m, l, hwritten⟩ :=
          writeAll_written platform conditions hsought data
        exact Or.inr ⟨_, m, l, hthrough, hwritten⟩
      · obtain ⟨error, herror⟩ := hrefused.error
        rw [show run = _ from hunsought rfl hstop error herror, ← herror]
        exact Or.inl hrefused

/-! ## Runs -/

/-- What a caller asks of the sink. -/
inductive WriteRequest where
  | writeAll (data : List UInt8)
  | writeAllAt (position : UInt64) (data : List UInt8)
  | seek (position : UInt64)
  | flush

/-- One request. -/
def writeStep (platform : Platform) (conditions : Nat → WriteConditions) :
    Machine.Step (Timed BufferedSink) WriteRequest Status
  | world, .writeAll data =>
      writeAll (timedSink platform conditions) (sinkToken conditions) world
        data
  | world, .writeAllAt position data =>
      writeAllAt (timedSink platform conditions) (sinkToken conditions) world
        position data
  | world, .seek position =>
      (timedSink platform conditions).seek world position
  | world, .flush =>
      let now := conditions world.time
      let reply := world.adapter.flush now.cancelled now.out
      (reply.1, ⟨reply.2, world.time + 1⟩)

/-- A refused request leaves a sound sink or reports a failed write. -/
theorem Refused.sound {before after : BufferedSink} {status : Status}
    (h : Refused before after status) (hsound : Sound before) :
    Sound after ∨ writeFailed status := by
  rcases h.kept with hfailed | rfl
  · exact Or.inr hfailed
  · exact Or.inl hsound

/-- **STEP**: a request leaves the sink sound or says that a write failed. -/
theorem writeStep_sound (platform : Platform)
    (conditions : Nat → WriteConditions) (world : Timed BufferedSink)
    (request : WriteRequest) (h : Sound world.adapter) :
    Sound (writeStep platform conditions world request).2.adapter
      ∨ writeFailed (writeStep platform conditions world request).1 := by
  have hwritten : ∀ {before after : BufferedSink} {data : List UInt8}
      {m l : Nat} {status : Status}, Written before after data m l status →
      Sound after ∨ writeFailed status := by
    intro before after data m l status hk
    rcases hk.kept with hfailed | ⟨hsound, _⟩
    · exact Or.inr hfailed
    · exact Or.inl hsound
  cases request with
  | writeAll data =>
      obtain ⟨m, l, hk⟩ := writeAll_written platform conditions h data
      exact hwritten hk
  | writeAllAt position data =>
      rcases writeAllAt_written platform conditions h position data
        with hrefused | ⟨sought, m, l, _, hk⟩
      · exact hrefused.sound h
      · exact hwritten hk
  | seek position =>
      rcases sinkSeek_spec h platform position
        (conditions world.time).cancelled (conditions world.time).out
        (conditions world.time).call with ⟨_, hthrough⟩ | hrefused
      · exact Or.inl hthrough.sound
      · exact hrefused.sound h
  | flush =>
      rcases sinkFlush_spec h (conditions world.time).cancelled
        (conditions world.time).out with ⟨_, hthrough⟩ | hrefused
      · exact Or.inl hthrough.sound
      · exact hrefused.sound h

/-- **CLOSING** puts a first part of what is pending into the file; all of it
    without an error. -/
theorem close_spec (sink : BufferedSink) (closing : WriteOut) :
    ∃ m, m ≤ sink.file.buffer.pending.length
      ∧ sink.close closing = overwrite sink.file.buffer.stored
        sink.file.buffer.start (sink.file.buffer.pending.take m)
      ∧ (closing.fails = false →
        sink.close closing = sink.file.buffer.holds) := by
  obtain ⟨m, l, hmoves⟩ := writeOut_moves sink.file closing
  exact ⟨m, Nat.le_trans hmoves.order hmoves.taken, hmoves.stored, close_view⟩

/-- **FILE WRITES UNDER FAULTS**: in every run from opening the sink is sound
    until a request reports a failed write; and from a sound sink each request
    and the closing move what is pending, then their data, in order, in place
    and within the bound.  With room and undisturbed, a write succeeds. -/
theorem file_writes_under_faults (platform : Platform)
    (conditions : Nat → WriteConditions) (path : String)
    (content : List UInt8) (maximumSize maximumWriteSize : UInt64)
    (truncate : Bool) (opened ended rewound : CallFault)
    (sink : BufferedSink) (requests : List WriteRequest)
    (hfit : content.length < 2 ^ 64)
    (hopen : BufferedSink.open' path content maximumSize truncate
      maximumWriteSize opened ended rewound = .ok sink) :
    let step := writeStep platform conditions
    let world := Machine.finalState step { adapter := sink } requests
    let buffer := world.adapter.file.buffer
    (Sound world.adapter
        ∨ ∃ status ∈ Machine.outputs step { adapter := sink } requests,
          writeFailed status)
      ∧ (Sound world.adapter →
        (∀ data, ∃ m l,
          let reply := step world (.writeAll data)
          Written world.adapter reply.2.adapter data m l reply.1)
        ∧ (Undisturbed conditions → ∀ data, Clear world.adapter data.length →
          (step world (.writeAll data)).1 = .ok ())
        ∧ (∀ position data,
          let reply := step world (.writeAllAt position data)
          Refused world.adapter reply.2.adapter reply.1
            ∨ ∃ sought m l,
              Through world.adapter sought position.toNat
              ∧ Written sought reply.2.adapter data m l reply.1)
        ∧ (let reply := step world .flush
          reply.1 = .ok () ∧ Through world.adapter reply.2.adapter
              world.adapter.position.toNat
            ∨ Refused world.adapter reply.2.adapter reply.1)
        ∧ ∀ closing, ∃ m, m ≤ buffer.pending.length
          ∧ world.adapter.close closing
            = overwrite buffer.stored buffer.start (buffer.pending.take m)
          ∧ (closing.fails = false →
            world.adapter.close closing = buffer.holds)) := by
  intro step world buffer
  refine ⟨?_, fun hsound => ⟨?_, ?_, ?_, ?_, ?_⟩⟩
  · refine Machine.run_invariant (P := fun now statuses =>
      Sound (Timed.adapter now) ∨ ∃ status ∈ statuses, writeFailed status)
      ?_ (Or.inl (opened_sound hfit hopen)) requests
    rintro now statuses request (hsound | ⟨status, hmem, hfailed⟩)
    · rcases writeStep_sound platform conditions now request hsound
        with hsound' | hfailed
      · exact Or.inl hsound'
      · exact Or.inr ⟨_, List.mem_append_right _ List.mem_cons_self, hfailed⟩
    · exact Or.inr ⟨status, List.mem_append_left _ hmem, hfailed⟩
  · exact writeAll_written platform conditions hsound
  · intro hclear data hroom
    have hroom' : Clear world.adapter (data.length + 0) := hroom
    exact (writeAll_succeeds platform hclear hroom').1
  · exact writeAllAt_written platform conditions hsound
  · exact sinkFlush_spec hsound (conditions world.time).cancelled
      (conditions world.time).out
  · exact close_spec world.adapter

/-- Two bytes at most reach the file, and the fourth call fails. -/
def flakyWrites (time : Nat) : WriteConditions where
  cancelled := false
  taken := 1
  out := { moved := 2, fails := time = 3, errno := "I/O error" }
  call := noFault

/-- A first write succeeds with one byte still pending; then one fails, and an
    error at closing leaves less than was acknowledged. -/
theorem file_writes_under_faults_at_tenByteBuffer :
    let step := writeStep offset64 flakyWrites
    let world :=
      Machine.finalState step { adapter := tenByteBuffer } [.writeAll [1, 2, 3]]
    let torn := world.adapter.close { moved := 0, fails := true }
    world.adapter.file.buffer = ⟨[1, 2], 2, [3]⟩ ∧ torn = [1, 2]
      ∧ ∃ m, m ≤ 1 ∧ torn = overwrite [1, 2] 2 ([3].take m) := by
  intro step world torn
  have hrun : writeStep offset64 flakyWrites { adapter := tenByteBuffer }
      (.writeAll [1, 2, 3]) = (.ok (),
        { adapter := { tenByteBuffer with
            file := { buffer := ⟨[1, 2], 2, [3]⟩ }, position := 3, extent := 3 }
          time := 2 }) := by
    rw [writeStep, writeAll, writeAllLoop]
    show writeAllLoop _ _ _ _ _ = _
    rw [writeAllLoop]
    rfl
  have hadapter : world.adapter = { tenByteBuffer with
      file := { buffer := ⟨[1, 2], 2, [3]⟩ }, position := 3, extent := 3 } := by
    show (writeStep _ _ _ _).2.adapter = _
    rw [hrun]
  obtain ⟨hsafe, hsound⟩ := file_writes_under_faults offset64 flakyWrites
    "records" [] 10 4096 true noFault noFault noFault tenByteBuffer
    [.writeAll [1, 2, 3]] (by decide) rfl
  rcases hsafe with hworld | ⟨status, hmem, hfailed⟩
  · obtain ⟨_, _, _, _, hclose⟩ := hsound hworld
    obtain ⟨m, hm, htorn, _⟩ := hclose { moved := 0, fails := true }
    have hbuffer : world.adapter.file.buffer = ⟨[1, 2], 2, [3]⟩ := by
      rw [hadapter]
    refine ⟨hbuffer, ?_, m, ?_, ?_⟩
    · show world.adapter.close _ = _
      rw [hadapter]
      rfl
    · have hlength : world.adapter.file.buffer.pending.length = 1 := by
        rw [hbuffer]
        rfl
      rw [← hlength]
      exact hm
    · have hplace : torn = overwrite world.adapter.file.buffer.stored
          world.adapter.file.buffer.start
          (world.adapter.file.buffer.pending.take m) := htorn
      rw [hbuffer] at hplace
      exact hplace
  · have houtputs : Machine.outputs step { adapter := tenByteBuffer }
        [.writeAll [1, 2, 3]] = [.ok ()] := by
      rw [Machine.outputs_cons, Machine.outputs_nil]
      show [(writeStep _ _ _ _).1] = _
      rw [hrun]
    have hstatus := List.mem_singleton.mp (houtputs ▸ hmem)
    rw [hstatus] at hfailed
    exact (not_writeFailed_ok hfailed).elim

end ShiboriFaultyWrite
