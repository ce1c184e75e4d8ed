import Mathlib
import ShiboriEngine.Library.Transfer
import ShiboriEngine.ByteIo

/-! # `readExact` and `writeAll` against any adapter

    Both loops are exact transfers: `readExactLoop_eq` and `writeAllLoop_eq`
    identify them with `Transfer.run`.  The adapters and the token are then
    replaced by ones that record what they are asked, and everything the loops
    promise is read off the record. -/

namespace ShiboriExactTransfer

open ShiboriError ShiboriByteIo Transfer

variable {σ : Type}

/-! ## The rules of reading and of writing -/

/-- What is wrong with a report of `outcome` when `remaining` bytes were
    offered. -/
def judgeRead (remaining : Nat) (outcome : ReadOutcome) : Option Error :=
  if outcome.bytesRead > remaining then
    some { code := .pluginContractViolation, operation := .read,
           message := "byte source reported more bytes than requested" }
  else if outcome.bytesRead = 0 then
    some { code := if outcome.eof then .unexpectedEnd else .ioNoProgress
           operation := .read
           message :=
             if outcome.eof then "byte source ended before the requested bytes"
             else "byte source made no progress" }
  else if outcome.eof ∧ outcome.bytesRead ≠ remaining then
    some { code := .unexpectedEnd, operation := .read,
           message := "byte source ended before the requested bytes" }
  else none

/-- What `write_all` makes of a count. -/
def judgeWrite (remaining written : Nat) : Option Error :=
  if written > remaining then
    some { code := .pluginContractViolation, operation := .write,
           message := "byte sink reported more bytes than supplied" }
  else if written = 0 then
    some { code := .ioNoProgress, operation := .write,
           message := "byte sink made no progress" }
  else none

/-- When a read lets the loop go on. -/
theorem judgeRead_none {remaining : Nat} {outcome : ReadOutcome} :
    judgeRead remaining outcome = none
      ↔ 1 ≤ outcome.bytesRead ∧ outcome.bytesRead ≤ remaining
        ∧ (outcome.eof = true → outcome.bytesRead = remaining) := by
  rw [judgeRead]
  by_cases hover : outcome.bytesRead > remaining
  · rw [if_pos hover]
    exact ⟨fun h => (nomatch h), fun h => by omega⟩
  rw [if_neg hover]
  by_cases hzero : outcome.bytesRead = 0
  · rw [if_pos hzero]
    exact ⟨fun h => (nomatch h), fun h => by omega⟩
  rw [if_neg hzero]
  by_cases hend : outcome.eof = true ∧ outcome.bytesRead ≠ remaining
  · rw [if_pos hend]
    exact ⟨fun h => (nomatch h), fun h => (hend.2 (h.2.2 hend.1)).elim⟩
  · rw [if_neg hend]
    refine ⟨fun _ => ⟨by omega, by omega, fun heof => ?_⟩, fun _ => rfl⟩
    by_contra hne
    exact hend ⟨heof, hne⟩

/-- When a write does. -/
theorem judgeWrite_none {remaining written : Nat} :
    judgeWrite remaining written = none
      ↔ 1 ≤ written ∧ written ≤ remaining := by
  rw [judgeWrite]
  by_cases hover : written > remaining
  · rw [if_pos hover]
    exact ⟨fun h => (nomatch h), fun h => by omega⟩
  rw [if_neg hover]
  by_cases hzero : written = 0
  · rw [if_pos hzero]
    exact ⟨fun h => (nomatch h), fun h => by omega⟩
  · rw [if_neg hzero]
    exact ⟨fun _ => by omega, fun _ => rfl⟩

/-- The rules of `read_exact`. -/
def readRules : Rules ReadOutcome Error where
  stopped := cancelledError .read
  count := ReadOutcome.bytesRead
  judge := judgeRead
  progress := fun _ _ h =>
    ⟨(judgeRead_none.mp h).1, (judgeRead_none.mp h).2.1⟩

/-- The rules of `write_all`. -/
def writeRules : Rules Nat Error where
  stopped := cancelledError .write
  count := id
  judge := judgeWrite
  progress := fun _ _ h => judgeWrite_none.mp h

/-! ## The loops are exact transfers -/

/-- A source as a channel. -/
def readChannel (source : ByteSource σ) (token : CancellationToken σ) :
    Channel σ ReadOutcome UInt8 Error where
  poll := token.isCancelled
  call := source.read
  call_length := source.read_length

/-- A sink leaves the span it is given alone. -/
def writeChannel (sink : ByteSink σ) (token : CancellationToken σ) :
    Channel σ Nat UInt8 Error where
  poll := token.isCancelled
  call world span :=
    let reply := sink.write world span
    (reply.1, span, reply.2)
  call_length _ _ := rfl

/-- The read loop is a transfer. -/
theorem readExactLoop_eq (source : ByteSource σ) (token : CancellationToken σ)
    (world : σ) (destination : List UInt8) (completed : Nat) :
    readExactLoop source token world destination completed
      = run readRules (readChannel source token) world destination
          completed := by
  induction hn : destination.length - completed using Nat.strong_induction_on
    generalizing world destination completed with
  | _ n ih =>
      -- Each branch of the body is one way a run of the transfer goes on or ends.
      rw [readExactLoop]
      by_cases hmore : completed < destination.length
      case neg =>
        rw [dif_neg hmore, run_done (by omega)]
      rw [dif_pos hmore]
      rcases hpoll : token.isCancelled world with ⟨stop, world'⟩
      cases stop with
      | true =>
          have hflag : ((readChannel source token).poll world).1 = true :=
            congrArg Prod.fst hpoll
          rw [run_stopped hmore hflag]
          show (_, _, world') = (_, _, (token.isCancelled world).2)
          rw [hpoll]
          rfl
      | false =>
          have hflag : ((readChannel source token).poll world).1 = false :=
            congrArg Prod.fst hpoll
          have hnext : ((readChannel source token).poll world).2 = world' :=
            congrArg Prod.snd hpoll
          rcases hread : source.read world' (destination.drop completed) with
            ⟨result, span, after⟩
          have hcall : (readChannel source token).call
              ((readChannel source token).poll world).2
              (destination.drop completed) = (result, span, after) := by
            rw [hnext]
            exact hread
          simp only [hread]
          cases result with
          | error error => rw [run_failed hmore hflag hcall rfl]
          | ok report =>
              dsimp only
              -- A source fills the span it was given, so the buffer keeps its length.
              have hlength : (destination.take completed ++ span).length
                  = destination.length := by
                have hspan := source.read_length world'
                  (destination.drop completed)
                rw [hread] at hspan
                have hspan' : span.length
                    = (destination.drop completed).length := hspan
                rw [List.length_append, hspan', List.length_take,
                  List.length_drop]
                omega
              by_cases hover : report.bytesRead
                  > destination.length - completed
              · rw [if_pos hover, run_refused hmore hflag hcall rfl
                  (if_pos hover)]
                rfl
              by_cases hzero : report.bytesRead = 0
              · rw [if_neg hover, dif_pos hzero, run_refused hmore hflag hcall
                  rfl ((if_neg hover).trans (if_pos hzero))]
                rfl
              by_cases hend : report.eof = true
                  ∧ completed + report.bytesRead ≠ destination.length
              -- The source compares the running total with the whole destination, the
              -- rules compare the report with what remained.
              · have hend' : report.eof = true ∧ report.bytesRead
                    ≠ destination.length - completed :=
                  ⟨hend.1, fun h => hend.2 (by omega)⟩
                rw [if_neg hover, dif_neg hzero, if_pos hend,
                  run_refused hmore hflag hcall rfl ((if_neg hover).trans
                    ((if_neg hzero).trans (if_pos hend')))]
                rfl
              · have hend' : ¬ (report.eof = true ∧ report.bytesRead
                    ≠ destination.length - completed) :=
                  fun h => hend ⟨h.1, fun hc => h.2 (by omega)⟩
                rw [if_neg hover, dif_neg hzero, if_neg hend,
                  run_step hmore hflag hcall rfl ((if_neg hover).trans
                    ((if_neg hzero).trans (if_neg hend')))]
                exact ih (destination.length - (completed + report.bytesRead))
                  (by omega) after _ _ (by rw [hlength])

/-- The write loop is a transfer that leaves its buffer alone. -/
theorem writeAllLoop_eq (sink : ByteSink σ) (token : CancellationToken σ)
    (world : σ) (source : List UInt8) (completed : Nat) :
    writeAllLoop sink token world source completed
      = let result := run writeRules (writeChannel sink token) world source
          completed
        (result.1, result.2.2) := by
  induction hn : source.length - completed using Nat.strong_induction_on
    generalizing world completed with
  | _ n ih =>
      rw [writeAllLoop]
      by_cases hmore : completed < source.length
      case neg =>
        rw [dif_neg hmore, run_done (by omega)]
      rw [dif_pos hmore]
      rcases hpoll : token.isCancelled world with ⟨stop, world'⟩
      cases stop with
      | true =>
          have hflag : ((writeChannel sink token).poll world).1 = true :=
            congrArg Prod.fst hpoll
          rw [run_stopped hmore hflag]
          show (_, world') = (_, (token.isCancelled world).2)
          rw [hpoll]
          rfl
      | false =>
          have hflag : ((writeChannel sink token).poll world).1 = false :=
            congrArg Prod.fst hpoll
          have hnext : ((writeChannel sink token).poll world).2 = world' :=
            congrArg Prod.snd hpoll
          rcases hwrite : sink.write world' (source.drop completed) with
            ⟨result, after⟩
          have hcall : (writeChannel sink token).call
              ((writeChannel sink token).poll world).2 (source.drop completed)
              = (result, source.drop completed, after) := by
            rw [hnext, writeChannel]
            simp only [hwrite]
          -- The span comes back as it was, so the buffer never changes.
          have hsame : source.take completed ++ source.drop completed = source :=
            List.take_append_drop completed source
          simp only [hwrite]
          cases result with
          | error error => rw [run_failed hmore hflag hcall rfl]
          | ok written =>
              dsimp only
              by_cases hover : written > source.length - completed
              · rw [if_pos hover, run_refused hmore hflag hcall rfl
                  (if_pos hover)]
                rfl
              by_cases hzero : written = 0
              · rw [if_neg hover, dif_pos hzero, run_refused hmore hflag hcall
                  rfl ((if_neg hover).trans (if_pos hzero))]
                rfl
              · rw [if_neg hover, dif_neg hzero, run_step hmore hflag hcall
                  rfl ((if_neg hover).trans (if_neg hzero)), hsame]
                exact ih (source.length - (completed + written)) (by omega)
                  after _ rfl

/-- A sink's call, seen as a channel's. -/
theorem writeChannel_call {sink : ByteSink σ} {token : CancellationToken σ}
    {world after : σ} {offered span : List UInt8} {result : Result Nat}
    (h : (writeChannel sink token).call world offered
      = (result, span, after)) :
    sink.write world offered = (result, after) ∧ span = offered := by
  obtain ⟨hresult, hrest⟩ := Prod.ext_iff.mp h
  obtain ⟨hspan, hafter⟩ := Prod.ext_iff.mp hrest
  exact ⟨Prod.ext hresult hafter, hspan.symm⟩

/-- **RULE**: what holds before a write and is kept by each of its calls
    decides how it ends. -/
theorem writeAll_rule {sink : ByteSink σ} {token : CancellationToken σ}
    {data : List UInt8} {I : σ → Nat → Prop} {Q : Status → σ → Prop}
    (hdone : ∀ world completed, I world completed →
      data.length ≤ completed → Q (.ok ()) world)
    (hstopped : ∀ world completed, I world completed →
      completed < data.length → (token.isCancelled world).1 = true →
      Q (.error (cancelledError .write)) (token.isCancelled world).2)
    (hfailed : ∀ world completed error after, I world completed →
      completed < data.length → (token.isCancelled world).1 = false →
      sink.write (token.isCancelled world).2 (data.drop completed)
        = (.error error, after) → Q (.error error) after)
    (hrefused : ∀ world completed written after error, I world completed →
      completed < data.length → (token.isCancelled world).1 = false →
      sink.write (token.isCancelled world).2 (data.drop completed)
        = (.ok written, after) →
      judgeWrite (data.length - completed) written = some error →
      Q (.error error) after)
    (hstep : ∀ world completed written after, I world completed →
      completed < data.length → (token.isCancelled world).1 = false →
      sink.write (token.isCancelled world).2 (data.drop completed)
        = (.ok written, after) →
      judgeWrite (data.length - completed) written = none →
      I after (completed + written))
    {world : σ} (h : I world 0) :
    Q (writeAll sink token world data).1
      (writeAll sink token world data).2 := by
  rw [writeAll, writeAllLoop_eq]
  -- The buffer stays the data throughout.
  refine run_rule (I := fun now buffer completed => buffer = data
      ∧ I now completed) (Q := fun status _ after => Q status after)
    ?_ ?_ ?_ ?_ ?_ ⟨rfl, h⟩
  · rintro now buffer completed ⟨rfl, hnow⟩ hend
    exact hdone now completed hnow hend
  · rintro now buffer completed ⟨rfl, hnow⟩ hmore hpoll
    exact hstopped now completed hnow hmore hpoll
  · rintro now buffer completed error span after ⟨rfl, hnow⟩ hmore hpoll hcall
    exact hfailed now completed error after hnow hmore hpoll
      (writeChannel_call hcall).1
  · rintro now buffer completed written span after error ⟨rfl, hnow⟩ hmore hpoll
      hcall hjudge
    exact hrefused now completed written after error hnow hmore hpoll
      (writeChannel_call hcall).1 hjudge
  · rintro now buffer completed written span after ⟨rfl, hnow⟩ hmore hpoll hcall
      hjudge
    obtain ⟨hwrite, hspan⟩ := writeChannel_call hcall
    rw [hspan, List.take_append_drop]
    exact ⟨rfl, hstep now completed written after hnow hmore hpoll hwrite
      hjudge⟩

/-! ## Recording adapters -/

/-- What a transfer from a source did. -/
abbrev ReadLog := List (Event ReadOutcome UInt8 Error)

/-- What a transfer to a sink did. -/
abbrev WriteLog := List (Event Nat UInt8 Error)

/-- The source, recording every call. -/
def recordedSource (source : ByteSource σ) : ByteSource (σ × ReadLog) where
  read world destination :=
    let reply := source.read world.1 destination
    (reply.1, reply.2.1, reply.2.2,
      world.2 ++ [.called destination reply.1 reply.2.1])
  read_length world destination := source.read_length world.1 destination
  capabilities world := source.capabilities world.1
  seek world position :=
    let reply := source.seek world.1 position
    (reply.1, reply.2, world.2)

/-- The sink, recording every call. -/
def recordedSink (sink : ByteSink σ) : ByteSink (σ × WriteLog) where
  write world span :=
    let reply := sink.write world.1 span
    (reply.1, reply.2, world.2 ++ [.called span reply.1 span])
  capabilities world := sink.capabilities world.1
  seek world position :=
    let reply := sink.seek world.1 position
    (reply.1, reply.2, world.2)

/-- The token, recording every poll in the same log. -/
def recordedToken {α : Type} (token : CancellationToken σ) :
    CancellationToken (σ × List (Event α UInt8 Error)) where
  isCancelled world :=
    let polled := token.isCancelled world.1
    (polled.1, polled.2, world.2 ++ [.polled polled.1])

/-! ## What the record of a transfer shows -/

/-- What the record of a transfer shows, in either direction. -/
structure Exact {α : Type} (rules : Rules α Error) (buffer : List UInt8)
    (events : List (Event α UInt8 Error)) (status : Status)
    (final : List UInt8) : Prop where
  calls_le : calls events ≤ buffer.length
  offers : ∀ before offered result span after,
    events = before ++ .called offered result span :: after →
      offered = (replay rules buffer 0 before).drop (reported rules before)
      ∧ offered.length = buffer.length - reported rules before
  keeps : ∀ before event after, events = before ++ event :: after →
    (replay rules buffer 0 before).take (reported rules before)
      = delivered rules before
  heeds : ∀ before offered result span after,
    events = before ++ .called offered result span :: after →
      ∃ earlier, before = earlier ++ [.polled false]
  quiet : ∀ before after, events = before ++ .polled true :: after →
    after = []
  success : status = .ok ()
    ↔ (∀ before event after, events = before ++ event :: after →
        offence rules (buffer.length - reported rules before) event = none)
      ∧ reported rules events = buffer.length
  failure : ∀ error, status = .error error
    ↔ ∃ before event, events = before ++ [event]
      ∧ (∀ earlier other later, before = earlier ++ other :: later →
          offence rules (buffer.length - reported rules earlier) other = none)
      ∧ offence rules (buffer.length - reported rules before) event
        = some error
  delivers : status = .ok () → final = delivered rules events

/-- A trace that takes turns is exact. -/
theorem exact_of_trace {α : Type} {rules : Rules α Error}
    {buffer final : List UInt8} {events : List (Event α UInt8 Error)}
    {status : Status} (h : Trace rules buffer 0 events status final)
    (hturns : Alternating events) : Exact rules buffer events status final := by
  have hfine : ∀ list : List (Event α UInt8 Error),
      Fine rules buffer.length 0 list
        ↔ ∀ before event after, list = before ++ event :: after →
          offence rules (buffer.length - reported rules before) event
            = none := by
    intro list
    rw [fine_iff]
    simp only [Nat.zero_add]
  refine ⟨h.calls_le, ?_, ?_, ?_, ?_, ?_, ?_, ?_⟩
  · rintro before offered result span after rfl
    obtain ⟨_, hlength, _⟩ := h.suffix
    obtain ⟨hmore, hoffered, _⟩ := h.offers
    rw [Nat.zero_add] at hmore hoffered
    refine ⟨hoffered, ?_⟩
    rw [hoffered, List.length_drop, hlength]
  · rintro before event after rfl
    have hkept := h.kept
    rw [Nat.zero_add] at hkept
    exact hkept
  · rintro before offered result span after rfl
    exact hturns.before_call
  · rintro before after rfl
    exact (h.stops rfl).1
  · rw [h.ok_iff, hfine, Nat.zero_add]
  · intro error
    rw [h.error_iff]
    simp only [hfine, Nat.zero_add]
  · rintro rfl
    exact h.delivers

/-- Fine events of one kind, polls and calls apart. -/
theorem all_fine_iff {α : Type} {rules : Rules α Error}
    {events : List (Event α UInt8 Error)} {n : Nat} :
    (∀ before event after, events = before ++ event :: after →
        offence rules (n - reported rules before) event = none)
      ↔ .polled true ∉ events
        ∧ ∀ before offered result span after,
          events = before ++ .called offered result span :: after →
            ∃ report, result = .ok report
              ∧ rules.judge (n - reported rules before) report = none := by
  constructor
  · intro h
    constructor
    · intro hmem
      obtain ⟨before, after, rfl⟩ := List.append_of_mem hmem
      exact nomatch h before _ after rfl
    · intro before offered result span after heq
      -- a call is fine exactly when it succeeds and its report is in order
      have hfine := h before _ after heq
      cases result with
      | error error => exact nomatch hfine
      | ok report => exact ⟨report, rfl, hfine⟩
  · rintro ⟨hpolls, hcalls⟩ before event after rfl
    match event with
    | .polled true =>
        exact (hpolls (List.mem_append_right before List.mem_cons_self)).elim
    | .polled false => rfl
    | .called offered result span =>
        obtain ⟨report, rfl, hjudge⟩ := hcalls before _ _ _ after rfl
        exact hjudge

private theorem effect_write {sink : ByteSink σ}
    {token : CancellationToken σ} {buffer : List UInt8} {completed : Nat}
    {event : Event Nat UInt8 Error} (hoffered : Offered buffer completed event)
    (hgenuine : Genuine (writeChannel sink token) event) :
    event.effect buffer completed = buffer := by
  cases event with
  | polled stop => rfl
  | called offered result span =>
      obtain ⟨world, after, hcall⟩ := hgenuine
      have hspan : offered = span :=
        congrArg (fun reply => reply.2.1) hcall
      obtain ⟨hdrop, _⟩ := hoffered
      rw [Event.effect, ← hspan, hdrop, List.take_append_drop]

/-- Writing never changes the buffer, whatever is replayed. -/
theorem replay_write {sink : ByteSink σ} {token : CancellationToken σ}
    {buffer final : List UInt8} {completed : Nat} {status : Status}
    {events : List (Event Nat UInt8 Error)}
    (h : Trace writeRules buffer completed events status final)
    (hgenuine : ∀ event, event ∈ events →
      Genuine (writeChannel sink token) event) :
    final = buffer ∧ ∀ before event after,
      events = before ++ event :: after →
        replay writeRules buffer completed before = buffer := by
  induction h with
  | done _ =>
      refine ⟨rfl, fun before event after heq => ?_⟩
      exact (List.append_ne_nil_of_right_ne_nil before
        (List.cons_ne_nil event after) heq.symm).elim
  | stop _ hoffered _ =>
      have hsame := effect_write hoffered
        (hgenuine _ List.mem_cons_self)
      refine ⟨hsame, fun before event after heq => ?_⟩
      cases before with
      | nil => rfl
      | cons first before =>
          exact (List.append_ne_nil_of_right_ne_nil before
            (List.cons_ne_nil event after) (List.cons.inj heq).2.symm).elim
  -- A write leaves the buffer as it was, so every later step replays it.
  | step _ hoffered _ _ ih =>
      have hsame := effect_write hoffered
        (hgenuine _ List.mem_cons_self)
      rw [hsame] at ih
      obtain ⟨hfinal, hreplay⟩ :=
        ih fun event h => hgenuine event (List.mem_cons_of_mem _ h)
      refine ⟨hfinal, fun before event after heq => ?_⟩
      cases before with
      | nil => rfl
      | cons first before =>
          obtain ⟨rfl, hrest⟩ := List.cons.inj heq
          rw [replay, hsame]
          exact hreplay before event after hrest

/-- **READING EXACTLY**, against any source and any token; the record is kept
    behind an older one. -/
theorem readExact_exact (source : ByteSource σ) (token : CancellationToken σ)
    (world : σ) (log : ReadLog) (buffer : List UInt8) :
    ∃ events status final after,
      readExact (recordedSource source) (recordedToken token) (world, log)
          buffer = (status, final, after, log ++ events)
        ∧ readExact source token world buffer = (status, final, after)
        ∧ final.length = buffer.length
        ∧ Exact readRules buffer events status final := by
  obtain ⟨trace, status, final, after, hrun, hplain, htrace, hturns, _⟩ :=
    run_trace readRules (readChannel source token) world log buffer 0
      (Nat.zero_le _)
  -- The recording adapters write down what the channel itself would log.
  exact ⟨trace, status, final, after, (readExactLoop_eq _ _ _ _ _).trans hrun,
    (readExactLoop_eq _ _ _ _ _).trans hplain, htrace.final_length,
    exact_of_trace htrace hturns⟩

/-- **WRITING EVERYTHING**, against any sink and any token. -/
theorem writeAll_exact (sink : ByteSink σ) (token : CancellationToken σ)
    (world : σ) (log : WriteLog) (buffer : List UInt8) :
    ∃ events status after,
      writeAll (recordedSink sink) (recordedToken token) (world, log) buffer
          = (status, after, log ++ events)
        ∧ writeAll sink token world buffer = (status, after)
        ∧ Exact writeRules buffer events status buffer
        ∧ ∀ before offered result span rest,
          events = before ++ .called offered result span :: rest →
            offered = buffer.drop (reported writeRules before) := by
  obtain ⟨trace, status, final, after, hrun, hplain, htrace, hturns,
    hgenuine⟩ := run_trace writeRules (writeChannel sink token) world log
      buffer 0 (Nat.zero_le _)
  obtain ⟨hfinal, hreplay⟩ := replay_write htrace hgenuine
  rw [hfinal] at htrace
  refine ⟨trace, status, after, ?_, ?_, exact_of_trace htrace hturns, ?_⟩
  · exact (writeAllLoop_eq _ _ _ _ _).trans
      (congrArg (fun result => (result.1, result.2.2)) hrun)
  · exact (writeAllLoop_eq _ _ _ _ _).trans
      (congrArg (fun result => (result.1, result.2.2)) hplain)
  · intro before offered result span rest heq
    rw [((exact_of_trace htrace hturns).offers before offered result span rest
      heq).1, hreplay before _ rest heq]

/-! ## Transfers at a position -/

/-- What the record of a transfer at a position shows: it is refused before
    any call, or it is an exact transfer from where the seek leads. -/
inductive Placed {α : Type} (rules : Rules α Error) (buffer : List UInt8)
    (capable : Bool) (incapable sought : Status) :
    List (Event α UInt8 Error) → Status → List UInt8 → Prop where
  | unable (hcapable : capable = false) :
      Placed rules buffer capable incapable sought [] incapable buffer
  | stopped (hcapable : capable = true) :
      Placed rules buffer capable incapable sought [.polled true]
        (.error rules.stopped) buffer
  | unsought {error : Error} (hcapable : capable = true)
      (hsought : sought = .error error) :
      Placed rules buffer capable incapable sought [.polled false]
        (.error error) buffer
  | placed {events : List (Event α UInt8 Error)} {status : Status}
      {final : List UInt8} (hcapable : capable = true)
      (hsought : sought = .ok ())
      (hexact : Exact rules buffer events status final) :
      Placed rules buffer capable incapable sought (.polled false :: events)
        status final

/-- The exits of a read at a position. -/
theorem readExactAt_exits (source : ByteSource σ)
    (token : CancellationToken σ) (world : σ) (position : UInt64)
    (destination : List UInt8) :
    let polled := token.isCancelled world
    let sought := source.seek polled.2 position
    let run := readExactAt source token world position destination
    let capable := (source.capabilities world).seek
    (capable = false → run = (unsupported "source seek", destination, world))
      ∧ (capable = true → polled.1 = true →
        run = (.error (cancelledError .read), destination, polled.2))
      ∧ (capable = true → polled.1 = false → ∀ error,
        sought.1 = .error error → run = (.error error, destination, sought.2))
      ∧ (capable = true → polled.1 = false → sought.1 = .ok () →
        run = readExact source token sought.2 destination) := by
  intro polled sought run capable
  have hable : capable = true → requireSourceCapabilities
      (source.capabilities world) ⟨false, false, true⟩ = .ok () := by
    intro hcapable
    have hseek : (source.capabilities world).seek = true := hcapable
    simp [requireSourceCapabilities, hseek]
  refine ⟨?_, ?_, ?_, ?_⟩
  · intro hcapable
    have hseek : (source.capabilities world).seek = false := hcapable
    simp [run, readExactAt, requireSourceCapabilities, hseek, unsupported,
      fail]
  · intro hcapable hstop
    have hpoll : token.isCancelled world = (true, polled.2) :=
      Prod.ext hstop rfl
    simp only [run, readExactAt, hable hcapable, hpoll]
  · intro hcapable hno error herror
    have hpoll : token.isCancelled world = (false, polled.2) :=
      Prod.ext hno rfl
    have hseek : source.seek polled.2 position = (.error error, sought.2) :=
      Prod.ext herror rfl
    simp only [run, readExactAt, hable hcapable, hpoll, hseek]
  · intro hcapable hno hok
    have hpoll : token.isCancelled world = (false, polled.2) :=
      Prod.ext hno rfl
    have hseek : source.seek polled.2 position = (.ok (), sought.2) :=
      Prod.ext hok rfl
    simp only [run, readExactAt, hable hcapable, hpoll, hseek]

/-- The exits of a write at a position. -/
theorem writeAllAt_exits (sink : ByteSink σ) (token : CancellationToken σ)
    (world : σ) (position : UInt64) (data : List UInt8) :
    let polled := token.isCancelled world
    let sought := sink.seek polled.2 position
    let run := writeAllAt sink token world position data
    let capable := (sink.capabilities world).seek
    (capable = false → run = (unsupported "sink seek", world))
      ∧ (capable = true → polled.1 = true →
        run = (.error (cancelledError .write), polled.2))
      ∧ (capable = true → polled.1 = false → ∀ error,
        sought.1 = .error error → run = (.error error, sought.2))
      ∧ (capable = true → polled.1 = false → sought.1 = .ok () →
        run = writeAll sink token sought.2 data) := by
  intro polled sought run capable
  have hable : capable = true → requireSinkCapabilities
      (sink.capabilities world) ⟨false, true, false⟩ = .ok () := by
    intro hcapable
    have hseek : (sink.capabilities world).seek = true := hcapable
    simp [requireSinkCapabilities, hseek]
  refine ⟨?_, ?_, ?_, ?_⟩
  · intro hcapable
    have hseek : (sink.capabilities world).seek = false := hcapable
    simp [run, writeAllAt, requireSinkCapabilities, hseek, unsupported, fail]
  · intro hcapable hstop
    have hpoll : token.isCancelled world = (true, polled.2) :=
      Prod.ext hstop rfl
    simp only [run, writeAllAt, hable hcapable, hpoll]
  · intro hcapable hno error herror
    have hpoll : token.isCancelled world = (false, polled.2) :=
      Prod.ext hno rfl
    have hseek : sink.seek polled.2 position = (.error error, sought.2) :=
      Prod.ext herror rfl
    simp only [run, writeAllAt, hable hcapable, hpoll, hseek]
  · intro hcapable hno hok
    have hpoll : token.isCancelled world = (false, polled.2) :=
      Prod.ext hno rfl
    have hseek : sink.seek polled.2 position = (.ok (), sought.2) :=
      Prod.ext hok rfl
    simp only [run, writeAllAt, hable hcapable, hpoll, hseek]

/-- **READING AT A POSITION**, against any source and any token. -/
theorem readExactAt_placed (source : ByteSource σ)
    (token : CancellationToken σ) (world : σ) (position : UInt64)
    (buffer : List UInt8) :
    let run := readExactAt (recordedSource source) (recordedToken token)
      (world, []) position buffer
    readExactAt source token world position buffer
        = (run.1, run.2.1, run.2.2.1)
      ∧ Placed readRules buffer (source.capabilities world).seek
        (unsupported "source seek")
        (source.seek (token.isCancelled world).2 position).1 run.2.2.2 run.1
        run.2.1 := by
  obtain ⟨hunable, hstopped, hunsought, hplaced⟩ :=
    readExactAt_exits source token world position buffer
  obtain ⟨hunable', hstopped', hunsought', hplaced'⟩ :=
    readExactAt_exits (recordedSource source) (recordedToken token)
      (world, []) position buffer
  cases hcapable : (source.capabilities world).seek with
  | false =>
      rw [hunable hcapable, hunable' hcapable]
      exact ⟨rfl, .unable rfl⟩
  | true =>
      cases hstop : (token.isCancelled world).1 with
      | true =>
          rw [hstopped hcapable hstop, hstopped' hcapable hstop]
          have hlog : ((recordedToken token).isCancelled
              ((world, []) : σ × ReadLog)).2.2 = [.polled true] := by
            rw [← hstop]
            rfl
          refine ⟨rfl, ?_⟩
          dsimp only
          rw [hlog]
          exact .stopped rfl
      | false =>
          have hlog : ((recordedToken token).isCancelled
              ((world, []) : σ × ReadLog)).2.2 = [.polled false] := by
            rw [← hstop]
            rfl
          cases hsought : (source.seek (token.isCancelled world).2
              position).1 with
          | error error =>
              rw [hunsought hcapable hstop error hsought,
                hunsought' hcapable hstop error hsought]
              refine ⟨rfl, ?_⟩
              show Placed _ _ _ _ _ ((recordedToken token).isCancelled
                ((world, []) : σ × ReadLog)).2.2 _ _
              rw [hlog]
              exact .unsought rfl rfl
          | ok _ =>
              obtain ⟨events, status, final, after, hlogged, hsame, _,
                hexact⟩ := readExact_exact source token
                  (source.seek (token.isCancelled world).2 position).2
                  [.polled false] buffer
              have hafter : ((recordedSource source).seek ((recordedToken
                  token).isCancelled ((world, []) : σ × ReadLog)).2 position).2
                  = ((source.seek (token.isCancelled world).2 position).2,
                    [.polled false]) := Prod.ext rfl hlog
              rw [hplaced hcapable hstop hsought,
                hplaced' hcapable hstop hsought, hafter, hsame, hlogged]
              exact ⟨rfl, .placed rfl rfl hexact⟩

/-- **WRITING AT A POSITION**, against any sink and any token. -/
theorem writeAllAt_placed (sink : ByteSink σ) (token : CancellationToken σ)
    (world : σ) (position : UInt64) (buffer : List UInt8) :
    let run := writeAllAt (recordedSink sink) (recordedToken token)
      (world, []) position buffer
    writeAllAt sink token world position buffer = (run.1, run.2.1)
      ∧ Placed writeRules buffer (sink.capabilities world).seek
        (unsupported "sink seek")
        (sink.seek (token.isCancelled world).2 position).1 run.2.2 run.1
        buffer := by
  obtain ⟨hunable, hstopped, hunsought, hplaced⟩ :=
    writeAllAt_exits sink token world position buffer
  obtain ⟨hunable', hstopped', hunsought', hplaced'⟩ :=
    writeAllAt_exits (recordedSink sink) (recordedToken token)
      (world, []) position buffer
  cases hcapable : (sink.capabilities world).seek with
  | false =>
      rw [hunable hcapable, hunable' hcapable]
      exact ⟨rfl, .unable rfl⟩
  | true =>
      cases hstop : (token.isCancelled world).1 with
      | true =>
          rw [hstopped hcapable hstop, hstopped' hcapable hstop]
          have hlog : ((recordedToken token).isCancelled
              ((world, []) : σ × WriteLog)).2.2 = [.polled true] := by
            rw [← hstop]
            rfl
          refine ⟨rfl, ?_⟩
          dsimp only
          rw [hlog]
          exact .stopped rfl
      | false =>
          have hlog : ((recordedToken token).isCancelled
              ((world, []) : σ × WriteLog)).2.2 = [.polled false] := by
            rw [← hstop]
            rfl
          cases hsought : (sink.seek (token.isCancelled world).2
              position).1 with
          | error error =>
              rw [hunsought hcapable hstop error hsought,
                hunsought' hcapable hstop error hsought]
              refine ⟨rfl, ?_⟩
              show Placed _ _ _ _ _ ((recordedToken token).isCancelled
                ((world, []) : σ × WriteLog)).2.2 _ _
              rw [hlog]
              exact .unsought rfl rfl
          | ok _ =>
              obtain ⟨events, status, after, hlogged, hsame, hexact, _⟩ :=
                writeAll_exact sink token
                  (sink.seek (token.isCancelled world).2 position).2
                  [.polled false] buffer
              have hafter : ((recordedSink sink).seek ((recordedToken
                  token).isCancelled ((world, []) : σ × WriteLog)).2 position).2
                  = ((sink.seek (token.isCancelled world).2 position).2,
                    [.polled false]) := Prod.ext rfl hlog
              rw [hplaced hcapable hstop hsought,
                hplaced' hcapable hstop hsought, hafter, hsame, hlogged]
              exact ⟨rfl, .placed rfl rfl hexact⟩

/-- **EXACT TRANSFERS**: at most one call per byte, each right after a poll
    that said to go on and offered exactly what is left; success and the first
    offending event as the reports say.  A transfer at a position is refused
    before any call or is exact from there. -/
theorem exact_transfers (source : ByteSource σ) (sink : ByteSink σ)
    (token : CancellationToken σ) (world : σ) (buffer : List UInt8) :
    (let run := readExact (recordedSource source) (recordedToken token)
        (world, []) buffer
      let events := run.2.2.2
      readExact source token world buffer = (run.1, run.2.1, run.2.2.1)
      ∧ run.2.1.length = buffer.length
      ∧ Exact readRules buffer events run.1 run.2.1
      ∧ (run.1 = .ok ()
        ↔ .polled true ∉ events
          ∧ (∀ before offered result span after,
            events = before ++ .called offered result span :: after →
              ∃ outcome, result = .ok outcome ∧ 1 ≤ outcome.bytesRead
                ∧ outcome.bytesRead
                  ≤ buffer.length - reported readRules before
                ∧ (outcome.eof = true → outcome.bytesRead
                  = buffer.length - reported readRules before))
          ∧ reported readRules events = buffer.length))
    ∧ (let run := writeAll (recordedSink sink) (recordedToken token)
        (world, []) buffer
      let events := run.2.2
      writeAll sink token world buffer = (run.1, run.2.1)
      ∧ Exact writeRules buffer events run.1 buffer
      ∧ (∀ before offered result span after,
          events = before ++ .called offered result span :: after →
            offered = buffer.drop (reported writeRules before))
      ∧ (run.1 = .ok ()
        ↔ .polled true ∉ events
          ∧ (∀ before offered result span after,
            events = before ++ .called offered result span :: after →
              ∃ written, result = .ok written ∧ 1 ≤ written
                ∧ written ≤ buffer.length - reported writeRules before)
          ∧ reported writeRules events = buffer.length))
    ∧ (∀ position,
      let run := readExactAt (recordedSource source) (recordedToken token)
        (world, []) position buffer
      readExactAt source token world position buffer
          = (run.1, run.2.1, run.2.2.1)
        ∧ Placed readRules buffer (source.capabilities world).seek
          (unsupported "source seek")
          (source.seek (token.isCancelled world).2 position).1 run.2.2.2
          run.1 run.2.1)
    ∧ ∀ position,
      let run := writeAllAt (recordedSink sink) (recordedToken token)
        (world, []) position buffer
      writeAllAt sink token world position buffer = (run.1, run.2.1)
        ∧ Placed writeRules buffer (sink.capabilities world).seek
          (unsupported "sink seek")
          (sink.seek (token.isCancelled world).2 position).1 run.2.2 run.1
          buffer := by
  refine ⟨?_, ?_,
    fun position => readExactAt_placed source token world position buffer,
    fun position => writeAllAt_placed sink token world position buffer⟩
  · obtain ⟨events, status, final, after, hrun, hplain, hlength, hexact⟩ :=
      readExact_exact source token world [] buffer
    rw [List.nil_append] at hrun
    rw [hrun]
    refine ⟨hplain, hlength, hexact, ?_⟩
    rw [hexact.success, all_fine_iff, and_assoc]
    simp only [show ∀ n o, readRules.judge n o = none ↔ _ from
      fun _ _ => judgeRead_none]
  · obtain ⟨events, status, after, hrun, hplain, hexact, hoffers⟩ :=
      writeAll_exact sink token world [] buffer
    rw [List.nil_append] at hrun
    rw [hrun]
    refine ⟨hplain, hexact, hoffers, ?_⟩
    rw [hexact.success, all_fine_iff, and_assoc]
    simp only [show ∀ n w, writeRules.judge n w = none ↔ _ from
      fun _ _ => judgeWrite_none]

end ShiboriExactTransfer
