import Mathlib
import ShiboriEngine.Library.Words
import ShiboriEngine.FileIo
import ShiboriEngine.ExactTransferProofs

/-! # Reading a file whatever the system does

    Every call may be cancelled, move less than it was asked for, and fail.
    Unlike the sink, the source accounts for what it read before it looks at
    the error indicator, so its position is the stream's in every state, and an
    exact read always fills a prefix of its buffer with the bytes at the
    position it started from. -/

namespace ShiboriFaultyRead

open ShiboriError ShiboriByteIo ShiboriFileIo ShiboriExactTransfer
open Spans Words Transfer

/-! ## The source among faults -/

/-- What the token answers and the system does at one call. -/
structure Conditions where
  cancelled : Bool
  transfer : TransferFault
  call : CallFault

/-- An adapter and the number of calls so far. -/
structure Timed (α : Type) where
  adapter : α
  time : Nat := 0

/-- A token asked once each tick. -/
def timedToken {α : Type} (conditions : Nat → Conditions) :
    CancellationToken (Timed α) where
  isCancelled world :=
    ((conditions world.time).cancelled, { world with time := world.time + 1 })

/-- `FileByteSource::capabilities`. -/
def sourceCapabilities (_ : FileByteSource) : ByteSourceCapabilities :=
  ⟨true, true, true⟩

/-- What a read asks of the stream. -/
def wanted (source : FileByteSource) (destination : List UInt8) : Nat :=
  min destination.length (min source.maximumReadSize.toNat
    (source.size - source.position).toNat)

/-- What the stream gives: nothing at all when it is asked for nothing. -/
def fetched (source : FileByteSource) (destination : List UInt8)
    (fault : TransferFault) : List UInt8 × Stream :=
  if wanted source destination = 0 then ([], source.file)
  else source.file.fread (wanted source destination) fault

/-- A read that is not cancelled. -/
theorem read_body (source : FileByteSource) (destination : List UInt8)
    (fault : TransferFault) :
    source.read destination false fault
      = let data := (fetched source destination fault).1
        let file := (fetched source destination fault).2
        let after := { source with
          file := file
          position := source.position + UInt64.ofNat data.length }
        (if data.length < wanted source destination ∧ file.error then
          .error (fileError .ioReadFailed .read "file read failed" fault.errno)
        else
          .ok { bytesRead := data.length
                eof := after.position = source.size || file.eof },
        overwrite destination 0 data, after) := by
  rw [FileByteSource.read, if_neg Bool.false_ne_true]
  dsimp only
  rw [apply_ite (fun result =>
    (result, overwrite destination 0 (fetched source destination fault).1, _))]
  rfl

/-- A read fetches no more than it wants. -/
theorem fetched_length_le (source : FileByteSource)
    (destination : List UInt8) (fault : TransferFault) :
    (fetched source destination fault).1.length
      ≤ wanted source destination := by
  rw [fetched]
  by_cases hzero : wanted source destination = 0
  · rw [if_pos hzero]
    exact Nat.zero_le _
  · rw [if_neg hzero, Stream.fread, subspan, List.length_take,
      List.length_take]
    omega

/-- A read keeps the size of the destination. -/
theorem read_length (source : FileByteSource) (destination : List UInt8)
    (cancelled : Bool) (fault : TransferFault) :
    (source.read destination cancelled fault).2.1.length
      = destination.length := by
  cases cancelled with
  | true => rw [FileByteSource.read, if_pos rfl]
  | false =>
      have hfetched := fetched_length_le source destination fault
      have hwanted : wanted source destination ≤ destination.length :=
        Nat.min_le_left _ _
      rw [read_body]
      show (overwrite destination 0 _).length = _
      rw [overwrite_length (Nat.zero_le _), Nat.zero_add]
      exact Nat.max_eq_left (Nat.le_trans hfetched hwanted)

/-- The source, with one tick for every call. -/
def timedSource (platform : Platform) (conditions : Nat → Conditions) :
    ByteSource (Timed FileByteSource) where
  read world destination :=
    let now := conditions world.time
    let reply := world.adapter.read destination now.cancelled now.transfer
    (reply.1, reply.2.1, ⟨reply.2.2, world.time + 1⟩)
  read_length world destination := read_length world.adapter destination _ _
  capabilities world := sourceCapabilities world.adapter
  seek world position :=
    let now := conditions world.time
    let reply := world.adapter.seek platform position now.cancelled now.call
    (reply.1, ⟨reply.2, world.time + 1⟩)

/-! ## Tracking -/

/-- The source stands at the stream's offset within `content`. -/
structure Tracked (content : List UInt8) (source : FileByteSource) :
    Prop where
  bytes : source.file.content = content
  position : source.position.toNat = source.file.offset
  size : source.size.toNat = content.length
  within : source.position ≤ source.size
  unended : source.file.eof = false

variable {content : List UInt8}

/-- Opening a file gives a tracked source at its start. -/
theorem open_tracked {path : String} {maximumReadSize : UInt64}
    {opened ended rewound : CallFault} {source : FileByteSource}
    (hfit : content.length < 2 ^ 64)
    (hopen : FileByteSource.open' path content maximumReadSize opened ended
      rewound = .ok source) :
    Tracked content source ∧ source.position = 0 := by
  rw [FileByteSource.open'] at hopen
  by_cases hinvalid : path.isEmpty = true ∨ maximumReadSize = 0
  · rw [if_pos hinvalid] at hopen
    cases hopen
  rw [if_neg hinvalid] at hopen
  by_cases ho : opened.fails = true
  · rw [if_pos ho] at hopen
    cases hopen
  rw [if_neg ho] at hopen
  by_cases he : ended.fails = true
  · rw [if_pos he] at hopen
    cases hopen
  rw [if_neg he] at hopen
  by_cases hr : rewound.fails = true
  · rw [if_pos hr] at hopen
    cases hopen
  rw [if_neg hr] at hopen
  cases hopen
  refine ⟨⟨rfl, rfl, ?_, ?_, rfl⟩, rfl⟩
  · exact UInt64.toNat_ofNat_of_lt' hfit
  · rw [le_toNat]
    exact Nat.zero_le _

/-- The stream of a tracked source gives the bytes that come next, and never
    reaches its end. -/
theorem fetched_spec {source : FileByteSource} (h : Tracked content source)
    (destination : List UInt8) (fault : TransferFault) :
    ∃ n error, n ≤ wanted source destination
      ∧ source.file.offset + n ≤ content.length
      ∧ fetched source destination fault
        = (subspan content source.file.offset n,
          { source.file with
            offset := source.file.offset + n, error := error }) := by
  have hbytes := h.bytes
  subst hbytes
  have hposition := h.position
  have hsize := h.size
  have hwithin := le_toNat.mp h.within
  have hroom := UInt64.toNat_sub_of_le _ _ h.within
  have hwanted : source.file.offset + wanted source destination
      ≤ source.file.content.length := by
    rw [wanted]
    omega
  rw [fetched]
  by_cases hzero : wanted source destination = 0
  · refine ⟨0, source.file.error, Nat.zero_le _, by omega, ?_⟩
    rw [if_pos hzero, subspan, List.take_zero, Nat.add_zero]
  · have hlength := subspan_length hwanted
    have hmoved : (subspan source.file.content source.file.offset
        (wanted source destination)).take fault.moved
        = subspan source.file.content source.file.offset
            (min fault.moved (wanted source destination)) := by
      rw [subspan, subspan, List.take_take]
    have hcount : (subspan source.file.content source.file.offset
        (min fault.moved (wanted source destination))).length
        = min fault.moved (wanted source destination) :=
      subspan_length (by omega)
    -- the request stops at the end of the file and never asks past it
    have hend : ¬ (source.file.content.length
        < source.file.offset + wanted source destination
          ∧ min fault.moved (wanted source destination)
            = source.file.content.length - source.file.offset) := by
      omega
    refine ⟨min fault.moved (wanted source destination),
      source.file.error || (decide (min fault.moved
        (wanted source destination) < wanted source destination)
          && fault.fails), Nat.min_le_right _ _, by omega, ?_⟩
    rw [if_neg hzero, Stream.fread, hmoved, hcount, decide_eq_false hend,
      Bool.or_false]

/-- **ONE READ**: it moves some bytes, accounts for them, and reports them
    unless it fails; the end is reported where the file ends. -/
theorem read_spec {source : FileByteSource} (h : Tracked content source)
    (destination : List UInt8) (fault : TransferFault) :
    ∃ n result after,
      source.read destination false fault
        = (result, overwrite destination 0
            (subspan content source.file.offset n), after)
      ∧ n ≤ destination.length
      ∧ Tracked content after
      ∧ after.file.offset = source.file.offset + n
      ∧ ((n < destination.length ∧ result
            = .error (fileError .ioReadFailed .read "file read failed"
                fault.errno))
        ∨ result
            = .ok { bytesRead := n
                    eof := decide (after.file.offset = content.length) }) := by
  obtain ⟨n, error, hn, hthere, hfetched⟩ :=
    fetched_spec h destination fault
  have hposition := h.position
  have hsize := h.size
  have hwithin := le_toNat.mp h.within
  have hroom := UInt64.toNat_sub_of_le _ _ h.within
  have hlength := subspan_length hthere
  have hwanted : wanted source destination ≤ destination.length :=
    Nat.min_le_left _ _
  have hfit : n ≤ (source.size - source.position).toNat := by
    rw [wanted] at hn
    omega
  have hword := toNat_ofNat_of_le hfit
  have hadd : UInt64.ofNat n ≤ source.size - source.position := by
    rw [le_toNat, hword]
    exact hfit
  have hsum := toNat_add_of_room h.within hadd
  rw [hword] at hsum
  rw [read_body, hfetched]
  dsimp only
  rw [hlength]
  refine ⟨n, _, _, rfl, by omega, ⟨h.bytes, ?_, h.size, ?_, h.unended⟩,
    rfl, ?_⟩
  · show (source.position + UInt64.ofNat n).toNat = source.file.offset + n
    omega
  · exact add_le_of_room h.within hadd
  · by_cases hshort : n < wanted source destination ∧ error = true
    · exact Or.inl ⟨by omega, if_pos hshort⟩
    · refine Or.inr ((if_neg hshort).trans ?_)
      have hend : source.position + UInt64.ofNat n = source.size
          ↔ source.file.offset + n = content.length := by
        rw [← UInt64.toNat_inj]
        omega
      rw [h.unended, Bool.or_false, decide_eq_decide.mpr hend]

/-- **ONE SEEK** moves the source where it says, or leaves it there. -/
theorem seek_spec {source : FileByteSource} (h : Tracked content source)
    (platform : Platform) (position : UInt64) (cancelled : Bool)
    (fault : CallFault) :
    Tracked content (source.seek platform position cancelled fault).2
      ∧ ((source.seek platform position cancelled fault).1 = .ok ()
          ∧ (source.seek platform position cancelled fault).2.file.offset
            = position.toNat
        ∨ (∃ error, (source.seek platform position cancelled fault).1
            = .error error)
          ∧ (source.seek platform position cancelled fault).2 = source) := by
  rw [FileByteSource.seek]
  by_cases hc : cancelled = true
  · rw [if_pos hc]
    exact ⟨h, Or.inr ⟨⟨_, rfl⟩, rfl⟩⟩
  rw [if_neg hc]
  by_cases hbeyond : position > source.size
  · rw [if_pos hbeyond]
    exact ⟨h, Or.inr ⟨⟨_, rfl⟩, rfl⟩⟩
  rw [if_neg hbeyond, checkedOffset]
  by_cases hrange : position > platform.offsetMax
  · rw [if_pos hrange]
    exact ⟨h, Or.inr ⟨⟨_, rfl⟩, rfl⟩⟩
  rw [if_neg hrange]
  dsimp only
  rw [Stream.fseek]
  by_cases hfail : fault.fails = true
  · rw [if_pos hfail]
    exact ⟨h, Or.inr ⟨⟨_, rfl⟩, rfl⟩⟩
  · rw [if_neg hfail]
    exact ⟨⟨h.bytes, rfl, h.size, UInt64.not_lt.mp hbeyond, rfl⟩,
      Or.inl ⟨rfl, rfl⟩⟩

/-! ## Reading exactly -/

/-- The errors of a transfer that are not the adapter's fault. -/
def readFailures : List ErrorCode :=
  [.operationCancelled, .ioReadFailed, .ioNoProgress, .unexpectedEnd]

/-- **WHAT A READ DELIVERS** from `start`: `k` bytes of the file, all that was
    asked for exactly when it succeeds, all there are when it ends early. -/
structure Delivers (content : List UInt8) (start : Nat)
    (destination : List UInt8) (k : Nat) (status : Status)
    (final : List UInt8) : Prop where
  fits : k ≤ destination.length
  there : start + k ≤ content.length
  delivered : final = subspan content start k ++ destination.drop k
  success : status = .ok () ↔ k = destination.length
  failures : ∀ error, status = .error error → error.code ∈ readFailures
  ended : ∀ error, status = .error error → error.code = .unexpectedEnd →
    start + k = content.length

/-- What an exact read has done so far. -/
structure Reading (content : List UInt8) (start : Nat)
    (destination : List UInt8) (world : Timed FileByteSource)
    (buffer : List UInt8) (completed : Nat) : Prop where
  tracked : Tracked content world.adapter
  offset : world.adapter.file.offset = start + completed
  fits : completed ≤ destination.length
  there : start + completed ≤ content.length
  buffer : buffer
    = subspan content start completed ++ destination.drop completed

variable {start : Nat} {destination : List UInt8}

/-- The destination keeps its size while it is filled. -/
theorem Reading.length {world : Timed FileByteSource} {buffer : List UInt8}
    {completed : Nat}
    (h : Reading content start destination world buffer completed) :
    buffer.length = destination.length := by
  have hfits := h.fits
  rw [h.buffer, List.length_append, subspan_length h.there, List.length_drop]
  omega

/-- One read more. -/
theorem Reading.extend {world after : Timed FileByteSource}
    {buffer : List UInt8} {completed n : Nat}
    (h : Reading content start destination world buffer completed)
    (hn : n ≤ (buffer.drop completed).length)
    (htracked : Tracked content after.adapter)
    (hoffset : after.adapter.file.offset = world.adapter.file.offset + n)
    (hthere : after.adapter.file.offset ≤ content.length) :
    Reading content start destination after
      (buffer.take completed ++ overwrite (buffer.drop completed) 0
        (subspan content world.adapter.file.offset n)) (completed + n) := by
  have hold := h.offset
  have hfits := h.fits
  have hlength := h.length
  rw [List.length_drop] at hn
  have hnew : start + (completed + n) ≤ content.length := by omega
  refine ⟨htracked, by omega, by omega, hnew, ?_⟩
  have hdone := subspan_length h.there
  have hcount : (subspan content (start + completed) n).length = n :=
    subspan_length (by omega)
  have htake : buffer.take completed = subspan content start completed := by
    rw [h.buffer, List.take_left' hdone]
  have hdrop : buffer.drop completed = destination.drop completed := by
    rw [h.buffer, List.drop_left' hdone]
  rw [htake, hdrop, hold, overwrite, List.take_zero, List.nil_append, hcount,
    Nat.zero_add, List.drop_drop, subspan_add, List.append_assoc]

/-- What a transfer that stopped has delivered. -/
theorem Reading.delivers {world : Timed FileByteSource} {buffer : List UInt8}
    {completed : Nat} {status : Status}
    (h : Reading content start destination world buffer completed)
    (hsuccess : status = .ok () ↔ completed = destination.length)
    (hfailures : ∀ error, status = .error error →
      error.code ∈ readFailures
        ∧ (error.code = .unexpectedEnd →
          start + completed = content.length)) :
    ∃ k, Delivers content start destination k status buffer
      ∧ Tracked content world.adapter
      ∧ world.adapter.file.offset = start + k :=
  ⟨completed, ⟨h.fits, h.there, h.buffer, hsuccess,
    fun error herror => (hfailures error herror).1,
    fun error herror => (hfailures error herror).2⟩, h.tracked, h.offset⟩

/-- What ends the loop is the end or no progress. -/
theorem judgeRead_some {remaining : Nat} {outcome : ReadOutcome}
    {error : Error} (hfew : outcome.bytesRead ≤ remaining)
    (h : judgeRead remaining outcome = some error) :
    (error.code = .unexpectedEnd ∧ outcome.eof = true)
      ∨ error.code = .ioNoProgress := by
  rw [judgeRead, if_neg (by omega)] at h
  by_cases hzero : outcome.bytesRead = 0
  · rw [if_pos hzero] at h
    cases h
    cases heof : outcome.eof with
    | true => exact Or.inl ⟨rfl, rfl⟩
    | false => exact Or.inr rfl
  rw [if_neg hzero] at h
  by_cases hend : outcome.eof = true ∧ outcome.bytesRead ≠ remaining
  · rw [if_pos hend] at h
    cases h
    exact Or.inl ⟨rfl, hend.1⟩
  · rw [if_neg hend] at h
    cases h

/-- The time has no part in what has been read. -/
theorem Reading.later {world : Timed FileByteSource} {buffer : List UInt8}
    {completed : Nat}
    (h : Reading content start destination world buffer completed)
    (time : Nat) :
    Reading content start destination { world with time := time } buffer
      completed :=
  ⟨h.tracked, h.offset, h.fits, h.there, h.buffer⟩

/-- **ONE CALL** of an exact read adds what it moved; a call that fails did not
    move all that remained. -/
theorem Reading.call (platform : Platform) (conditions : Nat → Conditions)
    {world after : Timed FileByteSource} {buffer span : List UInt8}
    {completed : Nat} {result : Result ReadOutcome}
    (h : Reading content start destination world buffer completed)
    (hmore : completed < destination.length)
    (hcall : (timedSource platform conditions).read world
      (buffer.drop completed) = (result, span, after)) :
    ∃ n, Reading content start destination after
        (buffer.take completed ++ span) (completed + n)
      ∧ ((∃ error, result = .error error ∧ error.code ∈ readFailures
          ∧ error.code ≠ .unexpectedEnd
          ∧ completed + n < destination.length)
        ∨ result = .ok { bytesRead := n
                         eof := decide (start + (completed + n)
                           = content.length) }) := by
  have hbuffer := h.length
  have hrest : (buffer.drop completed).length
      = destination.length - completed := by
    rw [List.length_drop, hbuffer]
  cases hc : (conditions world.time).cancelled with
  | true =>
      have hread : (timedSource platform conditions).read world
          (buffer.drop completed)
          = (.error (fileCancelled .read), buffer.drop completed,
            ⟨world.adapter, world.time + 1⟩) := by
        simp only [timedSource, hc, FileByteSource.read, if_true]
      rw [hread] at hcall
      cases hcall
      refine ⟨0, ?_, Or.inl ⟨_, rfl, List.mem_cons_self, ?_, hmore⟩⟩
      · rw [List.take_append_drop]
        exact h.later (world.time + 1)
      · intro hcode
        cases hcode
  | false =>
      obtain ⟨n, moved, source, hread, hn, htracked, hoffset, hresult⟩ :=
        read_spec h.tracked (buffer.drop completed)
          (conditions world.time).transfer
      have hread' : (timedSource platform conditions).read world
          (buffer.drop completed) = (moved, overwrite (buffer.drop completed) 0
            (subspan content world.adapter.file.offset n),
            ⟨source, world.time + 1⟩) := by
        simp only [timedSource, hc, hread]
      rw [hread'] at hcall
      cases hcall
      have hthere : source.file.offset ≤ content.length := by
        have hposition := htracked.position
        have hsize := htracked.size
        have hwithin := le_toNat.mp htracked.within
        omega
      refine ⟨n, h.extend hn htracked hoffset hthere, ?_⟩
      rcases hresult with ⟨hshort, rfl⟩ | rfl
      · refine Or.inl ⟨_, rfl, ?_, ?_, by omega⟩
        · exact List.mem_cons_of_mem _ List.mem_cons_self
        · intro hcode
          cases hcode
      · refine Or.inr ?_
        rw [hoffset, h.offset, Nat.add_assoc]

/-- **READING EXACTLY**, whatever the token answers and the system does. -/
theorem readExact_delivers (platform : Platform)
    (conditions : Nat → Conditions) {world : Timed FileByteSource}
    (h : Tracked content world.adapter) (destination : List UInt8) :
    let run := readExact (timedSource platform conditions)
      (timedToken conditions) world destination
    ∃ k, Delivers content world.adapter.file.offset destination k run.1
        run.2.1
      ∧ Tracked content run.2.2.adapter
      ∧ run.2.2.adapter.file.offset = world.adapter.file.offset + k := by
  intro run
  have hposition := h.position
  have hsize := h.size
  have hwithin := le_toNat.mp h.within
  have hstart : Reading content world.adapter.file.offset destination world
      destination 0 :=
    ⟨h, rfl, Nat.zero_le _, by omega, rfl⟩
  have hrun : run = Transfer.run readRules (readChannel
      (timedSource platform conditions) (timedToken conditions)) world
      destination 0 := readExactLoop_eq _ _ _ _ _
  rw [hrun]
  refine run_rule (I := Reading content world.adapter.file.offset destination)
    (Q := fun status final after =>
      ∃ k, Delivers content world.adapter.file.offset destination k status
          final
        ∧ Tracked content after.adapter
        ∧ after.adapter.file.offset = world.adapter.file.offset + k)
    ?_ ?_ ?_ ?_ ?_ hstart
  · intro now buffer completed hnow hdone
    have hfits := hnow.fits
    rw [hnow.length] at hdone
    refine hnow.delivers (iff_of_true rfl (by omega)) ?_
    intro error herror
    cases herror
  · intro now buffer completed hnow hmore hpoll
    rw [hnow.length] at hmore
    refine (hnow.later (now.time + 1)).delivers ?_ ?_
    · refine iff_of_false ?_ (by omega)
      intro hok
      cases hok
    · intro error herror
      cases herror
      refine ⟨List.mem_cons_self, fun hcode => ?_⟩
      cases hcode
  · intro now buffer completed error span after hnow hmore hpoll hcall
    rw [hnow.length] at hmore
    obtain ⟨n, hnext, hresult⟩ :=
      (hnow.later (now.time + 1)).call platform conditions hmore hcall
    rcases hresult with ⟨failure, hfailure, hcode, hend, hshort⟩ | hok
    · cases hfailure
      refine hnext.delivers (iff_of_false ?_ (by omega)) ?_
      · intro hok
        cases hok
      · intro other hother
        cases hother
        exact ⟨hcode, fun hc => (hend hc).elim⟩
    · cases hok
  · intro now buffer completed report span after error hnow hmore hpoll hcall
      hjudge
    have hlength := hnow.length
    rw [hlength] at hmore hjudge
    obtain ⟨n, hnext, hresult⟩ :=
      (hnow.later (now.time + 1)).call platform conditions hmore hcall
    rcases hresult with ⟨failure, hfailure, _⟩ | hok
    · cases hfailure
    cases hok
    have hfits := hnext.fits
    have hfew : n ≤ destination.length - completed := by omega
    refine hnext.delivers (iff_of_false ?_ ?_) ?_
    · intro hok
      cases hok
    · -- a report of all that remained is accepted, unless nothing was left
      intro hall
      have hn : n = destination.length - completed := by omega
      have hpos : 1 ≤ n := by omega
      have haccepted : judgeRead (destination.length - completed)
          { bytesRead := n
            eof := decide (world.adapter.file.offset + (completed + n)
              = content.length) } = none :=
        judgeRead_none.mpr ⟨hpos, hfew, fun _ => hn⟩
      rw [show readRules.judge = judgeRead from rfl, haccepted] at hjudge
      cases hjudge
    · intro other hother
      cases hother
      rcases judgeRead_some hfew hjudge with ⟨hcode, heof⟩ | hcode
      · refine ⟨?_, fun _ => of_decide_eq_true heof⟩
        rw [hcode]
        decide
      · rw [hcode]
        refine ⟨by decide, fun hc => ?_⟩
        cases hc
  · intro now buffer completed report span after hnow hmore hpoll hcall hjudge
    rw [hnow.length] at hmore
    obtain ⟨n, hnext, hresult⟩ :=
      (hnow.later (now.time + 1)).call platform conditions hmore hcall
    rcases hresult with ⟨failure, hfailure, _⟩ | hok
    · cases hfailure
    · cases hok
      exact hnext

/-- The exits of a read at a position, against a source that seeks. -/
theorem readExactAt_cases {σ : Type} (source : ByteSource σ)
    (token : CancellationToken σ) (world : σ) (position : UInt64)
    (destination : List UInt8)
    (hcapable : (source.capabilities world).seek = true) :
    let polled := (token.isCancelled world).2
    let sought := source.seek polled position
    readExactAt source token world position destination
        = (.error (cancelledError .read), destination, polled)
      ∨ (∃ error, sought.1 = .error error
        ∧ readExactAt source token world position destination
          = (.error error, destination, sought.2))
      ∨ (sought.1 = .ok ()
        ∧ readExactAt source token world position destination
          = readExact source token sought.2 destination) := by
  obtain ⟨_, hstopped, hunsought, hplaced⟩ :=
    readExactAt_exits source token world position destination
  cases hstop : (token.isCancelled world).1 with
  | true => exact Or.inl (hstopped hcapable hstop)
  | false =>
      cases hsought : (source.seek (token.isCancelled world).2 position).1 with
      | error error =>
          exact Or.inr (Or.inl ⟨error, hsought,
            hunsought hcapable hstop error hsought⟩)
      | ok _ =>
          exact Or.inr (Or.inr ⟨hsought, hplaced hcapable hstop hsought⟩)

/-- Reading at a position: refused with nothing done, or from there. -/
theorem readExactAt_delivers (platform : Platform)
    (conditions : Nat → Conditions) {world : Timed FileByteSource}
    (h : Tracked content world.adapter) (position : UInt64)
    (destination : List UInt8) :
    let run := readExactAt (timedSource platform conditions)
      (timedToken conditions) world position destination
    Tracked content run.2.2.adapter
      ∧ ((∃ error, run.1 = .error error ∧ run.2.1 = destination
          ∧ run.2.2.adapter = world.adapter)
        ∨ ∃ k, Delivers content position.toNat destination k run.1 run.2.1
          ∧ run.2.2.adapter.file.offset = position.toNat + k) := by
  intro run
  obtain ⟨htracked, hseek⟩ := seek_spec h platform position
    (conditions (world.time + 1)).cancelled
    (conditions (world.time + 1)).call
  rcases readExactAt_cases (timedSource platform conditions)
      (timedToken conditions) world position destination rfl
    with hstopped | ⟨error, hstatus, hrefused⟩ | ⟨hstatus, hread⟩
  · rw [show run = _ from hstopped]
    exact ⟨h, Or.inl ⟨_, rfl, rfl, rfl⟩⟩
  · rw [show run = _ from hrefused]
    refine ⟨htracked, Or.inl ⟨error, rfl, rfl, ?_⟩⟩
    rcases hseek with ⟨hok, _⟩ | ⟨_, hsame⟩
    · cases hok.symm.trans hstatus
    · exact hsame
  · rw [show run = _ from hread]
    rcases hseek with ⟨_, hoffset⟩ | ⟨⟨error, hfailed⟩, _⟩
    · have hsought : Tracked content ((timedSource platform conditions).seek
          { world with time := world.time + 1 } position).2.adapter := htracked
      obtain ⟨k, hdelivers, hafter, hend⟩ :=
        readExact_delivers platform conditions hsought destination
      refine ⟨hafter, Or.inr ⟨k, ?_, ?_⟩⟩
      · rw [← hoffset]
        exact hdelivers
      · rw [← hoffset]
        exact hend
    · cases hfailed.symm.trans hstatus

/-! ## Runs -/

/-- A request on a source. -/
inductive ReadRequest where
  | readExact (destination : List UInt8)
  | readExactAt (position : UInt64) (destination : List UInt8)
  | seek (position : UInt64)

/-- A request answers with its status and its buffer. -/
def readStep (platform : Platform) (conditions : Nat → Conditions) :
    Machine.Step (Timed FileByteSource) ReadRequest (Status × List UInt8)
  | world, .readExact destination =>
      let run := readExact (timedSource platform conditions)
        (timedToken conditions) world destination
      ((run.1, run.2.1), run.2.2)
  | world, .readExactAt position destination =>
      let run := readExactAt (timedSource platform conditions)
        (timedToken conditions) world position destination
      ((run.1, run.2.1), run.2.2)
  | world, .seek position =>
      let reply := (timedSource platform conditions).seek world position
      ((reply.1, []), reply.2)

/-- **STEP**: every request leaves the source tracked. -/
theorem readStep_tracked (platform : Platform)
    (conditions : Nat → Conditions) (world : Timed FileByteSource)
    (request : ReadRequest) (h : Tracked content world.adapter) :
    Tracked content (readStep platform conditions world request).2.adapter := by
  cases request with
  | readExact destination =>
      obtain ⟨_, _, htracked, _⟩ :=
        readExact_delivers platform conditions h destination
      exact htracked
  | readExactAt position destination =>
      exact (readExactAt_delivers platform conditions h position
        destination).1
  | seek position => exact (seek_spec h platform position _ _).1

/-- **FILE READS UNDER FAULTS**: in every run from opening, whatever is
    cancelled and whatever the system does, the position the source reports is
    the stream's, and a read delivers the bytes of the file from there, as many
    as the position moves. -/
theorem file_reads_under_faults (platform : Platform)
    (conditions : Nat → Conditions) (path : String) (content : List UInt8)
    (maximumReadSize : UInt64) (opened ended rewound : CallFault)
    (source : FileByteSource) (requests : List ReadRequest)
    (hfit : content.length < 2 ^ 64)
    (hopen : FileByteSource.open' path content maximumReadSize opened ended
      rewound = .ok source) :
    let step := readStep platform conditions
    let world := Machine.finalState step { adapter := source } requests
    let position := world.adapter.position.toNat
    Tracked content world.adapter
      ∧ (∀ destination,
        let reply := step world (.readExact destination)
        ∃ k, Delivers content position destination k reply.1.1 reply.1.2
          ∧ reply.2.adapter.position.toNat = position + k)
      ∧ ∀ target destination,
        let reply := step world (.readExactAt target destination)
        (∃ error, reply.1 = (.error error, destination)
            ∧ reply.2.adapter = world.adapter)
          ∨ ∃ k, Delivers content target.toNat destination k reply.1.1
              reply.1.2
            ∧ reply.2.adapter.position.toNat = target.toNat + k := by
  intro step world position
  have htracked : Tracked content world.adapter :=
    Machine.finalState_invariant
      (P := fun now : Timed FileByteSource => Tracked content now.adapter)
      (readStep_tracked platform conditions) (open_tracked hfit hopen).1
      requests
  refine ⟨htracked, ?_, ?_⟩
  · intro destination
    obtain ⟨k, hdelivers, hafter, hoffset⟩ :=
      readExact_delivers platform conditions htracked destination
    rw [← htracked.position] at hdelivers hoffset
    exact ⟨k, hdelivers, hafter.position.trans hoffset⟩
  · intro target destination
    obtain ⟨hafter, hreply⟩ :=
      readExactAt_delivers platform conditions htracked target destination
    rcases hreply with ⟨error, hstatus, hbuffer, hsame⟩ | ⟨k, hk, hoffset⟩
    · exact Or.inl ⟨error, Prod.ext hstatus hbuffer, hsame⟩
    · exact Or.inr ⟨k, hk, hafter.position.trans hoffset⟩

/-- Two bytes at a time, and an error at the fourth call. -/
def flakyConditions (time : Nat) : Conditions where
  cancelled := false
  transfer := { moved := 2, fails := time = 3, errno := "I/O error" }
  call := noFault

/-- A source over five bytes that has gone through `offset` of them. -/
def fiveByteSource (offset : Nat) : FileByteSource where
  file := { content := [1, 2, 3, 4, 5], offset := offset }
  position := UInt64.ofNat offset
  size := 5
  maximumReadSize := 4096

/-- Three bytes take two calls, the fault comes too late. -/
theorem file_reads_under_faults_at_fiveByteSource :
    let step := readStep offset64 flakyConditions
    let world := Machine.finalState step { adapter := fiveByteSource 0 }
      [.seek 1]
    let reply := step world (.readExact [0, 0, 0])
    reply.1 = (.ok (), [2, 3, 4])
      ∧ ∃ k, Delivers [1, 2, 3, 4, 5] 1 [0, 0, 0] k reply.1.1 reply.1.2
        ∧ reply.2.adapter.position.toNat = 1 + k := by
  intro step world reply
  have hrun : readExact (timedSource offset64 flakyConditions)
      (timedToken flakyConditions) ⟨fiveByteSource 1, 1⟩ [0, 0, 0]
      = (.ok (), [2, 3, 4], ⟨fiveByteSource 4, 5⟩) := by
    rw [readExact, readExactLoop]
    show readExactLoop (timedSource offset64 flakyConditions)
      (timedToken flakyConditions) ⟨fiveByteSource 3, 3⟩ [2, 3, 0] 2 = _
    rw [readExactLoop]
    show readExactLoop (timedSource offset64 flakyConditions)
      (timedToken flakyConditions) ⟨fiveByteSource 4, 5⟩ [2, 3, 4] 3 = _
    rw [readExactLoop]
    rfl
  refine ⟨congrArg (fun run => (run.1, run.2.1)) hrun, ?_⟩
  exact (file_reads_under_faults offset64 flakyConditions "records"
    [1, 2, 3, 4, 5] 4096 noFault noFault noFault (fiveByteSource 0) [.seek 1]
    (by decide) rfl).2.1 [0, 0, 0]

end ShiboriFaultyRead
