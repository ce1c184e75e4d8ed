import Mathlib

/-! # Exact transfers over an unreliable channel

    A buffer is moved through a channel that may transfer less than it is
    offered, fail or misreport.  Before every call a flag is polled.  `run`
    repeats calls until the buffer is done or an event offends; the rules say
    which reports offend.  A channel that records its own events
    (`Channel.logged`) shows what a run did: `run_trace` describes the record
    exactly, and the consequences below are read off it. -/

namespace Transfer

variable {σ α β ε : Type}

/-- What a transfer drives: a question whether to stop, and a call on the part
    of the buffer that is left. -/
structure Channel (σ α β ε : Type) where
  poll : σ → Bool × σ
  call : σ → List β → Except ε α × List β × σ
  call_length : ∀ world span, (call world span).2.1.length = span.length

/-- What a report amounts to.  An accepted report is progress within what was
    offered. -/
structure Rules (α ε : Type) where
  stopped : ε
  count : α → Nat
  judge : Nat → α → Option ε
  progress : ∀ remaining a, judge remaining a = none →
    1 ≤ count a ∧ count a ≤ remaining

/-- The loop: poll, call, judge the report, go on behind what was moved. -/
def run (rules : Rules α ε) (channel : Channel σ α β ε) (world : σ)
    (buffer : List β) (completed : Nat) : Except ε Unit × List β × σ :=
  if _hmore : completed < buffer.length then
    let polled := channel.poll world
    if polled.1 then (.error rules.stopped, buffer, polled.2)
    else
      let reply := channel.call polled.2 (buffer.drop completed)
      let filled := buffer.take completed ++ reply.2.1
      match reply.1 with
      | .error error => (.error error, filled, reply.2.2)
      | .ok report =>
          match _hjudge : rules.judge (buffer.length - completed) report with
          | some error => (.error error, filled, reply.2.2)
          | none =>
              run rules channel reply.2.2 filled
                (completed + rules.count report)
  else (.ok (), buffer, world)
termination_by buffer.length - completed
decreasing_by
  have hprogress := (rules.progress _ _ _hjudge).1
  rw [List.length_append, channel.call_length, List.length_take,
    List.length_drop]
  omega

section
variable {rules : Rules α ε} {channel : Channel σ α β ε} {world : σ}
variable {buffer : List β} {completed : Nat}

/-- A full buffer ends the loop. -/
theorem run_done (hdone : buffer.length ≤ completed) :
    run rules channel world buffer completed = (.ok (), buffer, world) := by
  rw [run, dif_neg (Nat.not_lt.mpr hdone)]

/-- A poll that says stop ends it. -/
theorem run_stopped (hmore : completed < buffer.length)
    (hpoll : (channel.poll world).1 = true) :
    run rules channel world buffer completed
      = (.error rules.stopped, buffer, (channel.poll world).2) := by
  rw [run, dif_pos hmore]
  exact if_pos hpoll

variable {reply : Except ε α × List β × σ}

/-- A call that fails ends it. -/
theorem run_failed {error : ε} (hmore : completed < buffer.length)
    (hpoll : (channel.poll world).1 = false)
    (hcall : channel.call (channel.poll world).2 (buffer.drop completed)
      = reply) (hreply : reply.1 = .error error) :
    run rules channel world buffer completed
      = (.error error, buffer.take completed ++ reply.2.1, reply.2.2) := by
  rw [run, dif_pos hmore]
  simp only [hpoll, hcall, hreply, Bool.false_eq_true, if_false]

/-- A report that is refused ends it. -/
theorem run_refused {report : α} {error : ε}
    (hmore : completed < buffer.length)
    (hpoll : (channel.poll world).1 = false)
    (hcall : channel.call (channel.poll world).2 (buffer.drop completed)
      = reply) (hreply : reply.1 = .ok report)
    (hjudge : rules.judge (buffer.length - completed) report = some error) :
    run rules channel world buffer completed
      = (.error error, buffer.take completed ++ reply.2.1, reply.2.2) := by
  rw [run, dif_pos hmore]
  simp only [hpoll, hcall, hreply, Bool.false_eq_true, if_false]
  split
  · rename_i hsome
    rw [hjudge] at hsome
    rw [Option.some.inj hsome]
  · rename_i hnone
    rw [hjudge] at hnone
    exact nomatch hnone

/-- Anything else goes on. -/
theorem run_step {report : α} (hmore : completed < buffer.length)
    (hpoll : (channel.poll world).1 = false)
    (hcall : channel.call (channel.poll world).2 (buffer.drop completed)
      = reply) (hreply : reply.1 = .ok report)
    (hjudge : rules.judge (buffer.length - completed) report = none) :
    run rules channel world buffer completed
      = run rules channel reply.2.2 (buffer.take completed ++ reply.2.1)
          (completed + rules.count report) := by
  rw [run, dif_pos hmore]
  simp only [hpoll, hcall, hreply, Bool.false_eq_true, if_false]
  split
  · rename_i hsome
    rw [hjudge] at hsome
    exact nomatch hsome
  · rfl

end

/-! ## Events -/

/-- A poll or a call, with what came of it. -/
inductive Event (α β ε : Type) where
  | polled (stop : Bool)
  | called (offered : List β) (result : Except ε α) (span : List β)

/-- The same channel, keeping a record of everything asked of it. -/
def Channel.logged (channel : Channel σ α β ε) :
    Channel (σ × List (Event α β ε)) α β ε where
  poll world :=
    let polled := channel.poll world.1
    (polled.1, polled.2, world.2 ++ [.polled polled.1])
  call world span :=
    let reply := channel.call world.1 span
    (reply.1, reply.2.1, reply.2.2,
      world.2 ++ [.called span reply.1 reply.2.1])
  call_length world span := channel.call_length world.1 span

/-- What an event reports as transferred. -/
def Event.reported (rules : Rules α ε) : Event α β ε → Nat
  | .called _ (.ok report) _ => rules.count report
  | _ => 0

/-- The buffer after an event: a call may rewrite the span it was offered. -/
def Event.effect (buffer : List β) (completed : Nat) :
    Event α β ε → List β
  | .polled _ => buffer
  | .called _ _ span => buffer.take completed ++ span

/-- The error an event calls for, if it offends. -/
def offence (rules : Rules α ε) (remaining : Nat) :
    Event α β ε → Option ε
  | .polled true => some rules.stopped
  | .polled false => none
  | .called _ (.error error) _ => some error
  | .called _ (.ok report) _ => rules.judge remaining report

/-- The number of calls among the events. -/
def calls : List (Event α β ε) → Nat
  | [] => 0
  | .polled _ :: events => calls events
  | .called _ _ _ :: events => calls events + 1

/-- The total reported by the calls. -/
def reported (rules : Rules α ε) : List (Event α β ε) → Nat
  | [] => 0
  | event :: events => event.reported rules + reported rules events

/-- The buffer after a record of events. -/
def replay (rules : Rules α ε) (buffer : List β) (completed : Nat) :
    List (Event α β ε) → List β
  | [] => buffer
  | event :: events =>
      replay rules (event.effect buffer completed)
        (completed + event.reported rules) events

/-- The elements reported as transferred, call by call. -/
def delivered (rules : Rules α ε) : List (Event α β ε) → List β
  | [] => []
  | .called _ (.ok report) span :: events =>
      span.take (rules.count report) ++ delivered rules events
  | _ :: events => delivered rules events

/-- A call is offered exactly the part of the buffer still to do. -/
def Offered (buffer : List β) (completed : Nat) : Event α β ε → Prop
  | .polled _ => True
  | .called offered _ span =>
      offered = buffer.drop completed ∧ span.length = offered.length

/-- The record of a run: events that do not offend, until the buffer is done
    or one does. -/
inductive Trace (rules : Rules α ε) :
    List β → Nat → List (Event α β ε) → Except ε Unit → List β → Prop where
  | done {buffer : List β} {completed : Nat}
      (hdone : completed = buffer.length) :
      Trace rules buffer completed [] (.ok ()) buffer
  | stop {buffer : List β} {completed : Nat} {event : Event α β ε} {error : ε}
      (hmore : completed < buffer.length)
      (hoffered : Offered buffer completed event)
      (hoffence : offence rules (buffer.length - completed) event
        = some error) :
      Trace rules buffer completed [event] (.error error)
        (event.effect buffer completed)
  | step {buffer : List β} {completed : Nat} {event : Event α β ε}
      {events : List (Event α β ε)} {status : Except ε Unit} {final : List β}
      (hmore : completed < buffer.length)
      (hoffered : Offered buffer completed event)
      (hfine : offence rules (buffer.length - completed) event = none)
      (hrest : Trace rules (event.effect buffer completed)
        (completed + event.reported rules) events status final) :
      Trace rules buffer completed (event :: events) status final

/-- Every call comes right after a poll that said to go on, and nothing comes
    after one that said to stop. -/
inductive Alternating : List (Event α β ε) → Prop where
  | done : Alternating []
  | stopped : Alternating [.polled true]
  | called {offered : List β} {result : Except ε α} {span : List β}
      {events : List (Event α β ε)} (hrest : Alternating events) :
      Alternating (.polled false :: .called offered result span :: events)

/-- What a call comes after. -/
theorem Alternating.before_call {before after : List (Event α β ε)}
    {offered : List β} {result : Except ε α} {span : List β}
    (h : Alternating (before ++ .called offered result span :: after)) :
    ∃ earlier, before = earlier ++ [.polled false] := by
  generalize heq : before ++ .called offered result span :: after = events at h
  induction h generalizing before with
  | done =>
      exact (List.append_ne_nil_of_right_ne_nil before
        (List.cons_ne_nil _ after) heq).elim
  | stopped =>
      cases before with
      | nil => cases heq
      | cons first before =>
          exact (List.append_ne_nil_of_right_ne_nil before
            (List.cons_ne_nil _ after) (List.cons.inj heq).2).elim
  | called _ ih =>
      cases before with
      | nil => cases heq
      | cons first before =>
          obtain ⟨rfl, hmore⟩ := List.cons.inj heq
          cases before with
          | nil => exact ⟨[], rfl⟩
          | cons second before =>
              obtain ⟨rfl, hrest⟩ := List.cons.inj hmore
              obtain ⟨earlier, rfl⟩ := ih hrest
              exact ⟨_ :: _ :: earlier, rfl⟩

/-- The channel really answered so. -/
def Genuine (channel : Channel σ α β ε) : Event α β ε → Prop
  | .polled stop => ∃ world, (channel.poll world).1 = stop
  | .called offered result span =>
      ∃ world after, channel.call world offered = (result, span, after)

variable {rules : Rules α ε}

/-- An event keeps the length of the buffer. -/
theorem effect_length {buffer : List β} {completed : Nat}
    {event : Event α β ε} (hmore : completed < buffer.length)
    (h : Offered buffer completed event) :
    (event.effect buffer completed).length = buffer.length := by
  cases event with
  | polled stop => rfl
  | called offered result span =>
      obtain ⟨rfl, hlength⟩ := h
      rw [Event.effect, List.length_append, hlength, List.length_take,
        List.length_drop]
      omega

/-- A call of a channel is an offer of the rest, and of the right length. -/
theorem offered_of_call {channel : Channel σ α β ε} {world after : σ}
    {buffer span : List β} {completed : Nat} {result : Except ε α}
    (hcall : channel.call world (buffer.drop completed)
      = (result, span, after)) :
    Offered buffer completed (.called (buffer.drop completed) result span) := by
  have hlength := channel.call_length world (buffer.drop completed)
  rw [hcall] at hlength
  exact ⟨rfl, hlength⟩

/-- A poll and a call as the logging channel sees them. -/
theorem logged_call {channel : Channel σ α β ε} {world after : σ}
    (log : List (Event α β ε)) {offered span : List β} {result : Except ε α}
    (hcall : channel.call (channel.poll world).2 offered
      = (result, span, after)) :
    channel.logged.call (channel.logged.poll (world, log)).2 offered
      = (result, span, after, log ++ [.polled (channel.poll world).1]
        ++ [.called offered result span]) := by
  show ((channel.call (channel.poll world).2 _).1,
    (channel.call (channel.poll world).2 _).2.1,
    (channel.call (channel.poll world).2 _).2.2,
    _ ++ [Event.called _ (channel.call (channel.poll world).2 _).1
      (channel.call (channel.poll world).2 _).2.1]) = _
  rw [hcall]
  rfl

/-- **THE RECORD OF A RUN** is a trace in which polls and calls alternate, it
    is all that logging adds, and the run without logging does the same. -/
theorem run_trace (rules : Rules α ε) (channel : Channel σ α β ε) (world : σ)
    (log : List (Event α β ε)) (buffer : List β) (completed : Nat)
    (hle : completed ≤ buffer.length) :
    ∃ events status final world',
      run rules channel.logged (world, log) buffer completed
        = (status, final, world', log ++ events)
      ∧ run rules channel world buffer completed = (status, final, world')
      ∧ Trace rules buffer completed events status final
      ∧ Alternating events
      ∧ ∀ event, event ∈ events → Genuine channel event := by
  induction hn : buffer.length - completed using Nat.strong_induction_on
    generalizing world log buffer completed with
  | _ n ih =>
      by_cases hmore : completed < buffer.length
      case neg =>
        refine ⟨[], .ok (), buffer, world, ?_, ?_, Trace.done (by omega),
          .done, fun _ h => nomatch h⟩
        · rw [run_done (by omega), List.append_nil]
        · exact run_done (by omega)
      have hflag : Genuine channel (.polled (channel.poll world).1) :=
        ⟨world, rfl⟩
      cases hpoll : (channel.poll world).1 with
      | true =>
          refine ⟨[.polled true], .error rules.stopped, buffer,
            (channel.poll world).2, ?_, run_stopped hmore hpoll,
            Trace.stop hmore trivial rfl, .stopped, ?_⟩
          case refine_2 =>
            rw [← hpoll]
            exact List.forall_mem_singleton.mpr hflag
          have hpoll' : (channel.logged.poll (world, log)).1 = true := hpoll
          rw [run_stopped hmore hpoll', ← hpoll]
          rfl
      | false =>
          rcases hcall : channel.call (channel.poll world).2
            (buffer.drop completed) with ⟨result, span, after⟩
          have hpoll' : (channel.logged.poll (world, log)).1 = false := hpoll
          have hlogged := logged_call log hcall
          rw [hpoll] at hlogged
          have hoffered := offered_of_call hcall
          have hanswer : Genuine channel
              (.called (buffer.drop completed) result span) :=
            ⟨(channel.poll world).2, after, hcall⟩
          rw [hpoll] at hflag
          have hboth : ∀ event, event ∈ [Event.polled false,
              .called (buffer.drop completed) result span] →
              Genuine channel event :=
            List.forall_mem_cons.mpr ⟨hflag,
              List.forall_mem_singleton.mpr hanswer⟩
          cases result with
          | error error =>
              refine ⟨[.polled false,
                .called (buffer.drop completed) (.error error) span],
                .error error, buffer.take completed ++ span, after, ?_,
                run_failed hmore hpoll hcall rfl, ?_, .called .done, hboth⟩
              · rw [run_failed hmore hpoll' hlogged
                  rfl, List.append_assoc]
                rfl
              · exact Trace.step hmore trivial rfl
                  (Trace.stop hmore hoffered rfl)
          | ok report =>
              cases hjudge : rules.judge (buffer.length - completed) report with
              | some error =>
                  refine ⟨[.polled false,
                    .called (buffer.drop completed) (.ok report) span],
                    .error error, buffer.take completed ++ span, after, ?_,
                    run_refused hmore hpoll hcall rfl hjudge, ?_,
                    .called .done, hboth⟩
                  · rw [run_refused hmore hpoll'
                      hlogged rfl hjudge, List.append_assoc]
                    rfl
                  · exact Trace.step hmore trivial rfl
                      (Trace.stop hmore hoffered hjudge)
              | none =>
                  obtain ⟨hpos, hfit⟩ := rules.progress _ _ hjudge
                  have hfilled : (buffer.take completed ++ span).length
                      = buffer.length := effect_length hmore hoffered
                  obtain ⟨events, status, final, world', hrun, hplain, htrace,
                    hturns, hgenuine⟩ := ih (buffer.length - (completed + rules.count report))
                      (by omega) after (log ++ [.polled false]
                        ++ [.called (buffer.drop completed) (.ok report) span])
                      (buffer.take completed ++ span)
                      (completed + rules.count report) (by omega)
                      (by rw [hfilled])
                  refine ⟨.polled false
                    :: .called (buffer.drop completed) (.ok report) span
                    :: events, status, final, world', ?_, ?_, ?_,
                    .called hturns, ?_⟩
                  · rw [run_step hmore hpoll'
                      hlogged rfl hjudge]
                    refine hrun.trans ?_
                    rw [List.append_assoc, List.append_assoc]
                    rfl
                  · exact (run_step hmore hpoll hcall rfl hjudge).trans hplain
                  · exact Trace.step hmore trivial rfl
                      (Trace.step hmore hoffered hjudge htrace)
                  · exact List.forall_mem_cons.mpr ⟨hflag,
                      List.forall_mem_cons.mpr ⟨hanswer, hgenuine⟩⟩

/-! ## What a record shows -/

/-- No event of the record offends, counting from `completed`. -/
def Fine (rules : Rules α ε) (size : Nat) : Nat → List (Event α β ε) → Prop
  | _, [] => True
  | completed, event :: events =>
      offence rules (size - completed) event = none
        ∧ Fine rules size (completed + event.reported rules) events

section
variable {buffer final : List β} {completed : Nat}
variable {events : List (Event α β ε)} {status : Except ε Unit}

/-- A run changes no size. -/
theorem Trace.final_length
    (h : Trace rules buffer completed events status final) :
    final.length = buffer.length := by
  induction h with
  | done _ => rfl
  | stop hmore hoffered _ => exact effect_length hmore hoffered
  | step hmore hoffered _ _ ih => exact ih.trans (effect_length hmore hoffered)

/-- **CALLS**: never more than elements still to do. -/
theorem Trace.calls_le
    (h : Trace rules buffer completed events status final) :
    calls events ≤ buffer.length - completed := by
  induction h with
  | done _ => exact Nat.zero_le _
  | @stop buffer completed event error hmore _ _ =>
      cases event with
      | polled stop => exact Nat.zero_le _
      | called offered result span =>
          show 0 + 1 ≤ _
          omega
  | @step buffer completed event events _ _ hmore hoffered hfine _ ih =>
      rw [effect_length hmore hoffered] at ih
      match event, hfine with
      | .polled _, _ => exact ih
      | .called _ (.error error) _, hfine => exact nomatch hfine
      | .called _ (.ok report) _, hfine =>
          obtain ⟨hpos, _⟩ := rules.progress _ _ hfine
          have hcalls : calls events
              ≤ buffer.length - (completed + rules.count report) := ih
          show calls events + 1 ≤ _
          omega

/-- The rest of a record is the record of the rest, from the replayed
    buffer. -/
theorem Trace.suffix {before after : List (Event α β ε)}
    {event : Event α β ε}
    (h : Trace rules buffer completed (before ++ event :: after) status
      final) :
    Fine rules buffer.length completed before
      ∧ (replay rules buffer completed before).length = buffer.length
      ∧ Trace rules (replay rules buffer completed before)
          (completed + reported rules before) (event :: after) status final := by
  induction before generalizing buffer completed with
  | nil => exact ⟨trivial, rfl, h⟩
  | cons first before ih =>
      rw [List.cons_append] at h
      generalize htail : before ++ event :: after = tail at h
      cases h with
      | stop hmore hoffered hoffence =>
          exact (List.append_ne_nil_of_right_ne_nil before
            (List.cons_ne_nil event after) htail).elim
      | step hmore hoffered hfine hrest =>
          rw [← htail] at hrest
          obtain ⟨hall, hlength, htrace⟩ := ih hrest
          rw [effect_length hmore hoffered] at hall hlength
          refine ⟨⟨hfine, hall⟩, hlength, ?_⟩
          rw [reported, ← Nat.add_assoc]
          exact htrace

/-- **OFFERS**: each event is offered what remains of the replayed buffer. -/
theorem Trace.offers {before after : List (Event α β ε)}
    {event : Event α β ε}
    (h : Trace rules buffer completed (before ++ event :: after) status
      final) :
    completed + reported rules before < buffer.length
      ∧ Offered (replay rules buffer completed before)
          (completed + reported rules before) event := by
  obtain ⟨_, hlength, htrace⟩ := h.suffix
  rw [← hlength]
  cases htrace with
  | stop hmore hoffered _ => exact ⟨hmore, hoffered⟩
  | step hmore hoffered _ _ => exact ⟨hmore, hoffered⟩

/-- **STOPPING**: an offending event is the last one and names the error. -/
theorem Trace.stops {before after : List (Event α β ε)}
    {event : Event α β ε} {error : ε}
    (h : Trace rules buffer completed (before ++ event :: after) status final)
    (hoffence : offence rules
      (buffer.length - (completed + reported rules before)) event
        = some error) : after = [] ∧ status = .error error := by
  obtain ⟨_, hlength, htrace⟩ := h.suffix
  rw [← hlength] at hoffence
  cases htrace with
  | stop _ _ hstop =>
      rw [hstop] at hoffence
      exact ⟨rfl, congrArg Except.error (Option.some.inj hoffence)⟩
  | step _ _ hfine _ =>
      rw [hfine] at hoffence
      exact nomatch hoffence

/-- **SUCCESS**: exactly when no event offends and the reports add up. -/
theorem Trace.ok_iff
    (h : Trace rules buffer completed events status final) :
    status = .ok ()
      ↔ Fine rules buffer.length completed events
        ∧ completed + reported rules events = buffer.length := by
  induction h with
  | done hdone => exact ⟨fun _ => ⟨trivial, hdone⟩, fun _ => rfl⟩
  | stop _ _ hoffence =>
      refine ⟨fun hc => (nomatch hc), fun hc => ?_⟩
      have hfine := hc.1.1
      rw [hoffence] at hfine
      exact nomatch hfine
  | step hmore hoffered hfine _ ih =>
      rw [ih, effect_length hmore hoffered, Fine, reported, Nat.add_assoc]
      exact ⟨fun hc => ⟨⟨hfine, hc.1⟩, hc.2⟩, fun hc => ⟨hc.1.2, hc.2⟩⟩

/-- **FAILURE**: with the error of the first offending event. -/
theorem Trace.error_iff
    (h : Trace rules buffer completed events status final) {error : ε} :
    status = .error error
      ↔ ∃ before event, events = before ++ [event]
        ∧ Fine rules buffer.length completed before
        ∧ offence rules (buffer.length - (completed + reported rules before))
            event = some error := by
  constructor
  · intro hstatus
    induction h with
    | done _ => exact nomatch hstatus
    | @stop buffer completed event error' _ _ hoffence =>
        cases hstatus
        exact ⟨[], event, rfl, trivial, hoffence⟩
    | @step buffer completed event events _ _ hmore hoffered hfine _ ih =>
        obtain ⟨before, last, rfl, hall, hlast⟩ := ih hstatus
        rw [effect_length hmore hoffered] at hall hlast
        refine ⟨event :: before, last, rfl, ⟨hfine, hall⟩, ?_⟩
        rw [reported, ← Nat.add_assoc]
        exact hlast
  · rintro ⟨before, event, rfl, _, hoffence⟩
    exact (h.stops hoffence).2

/-- One fine event extends what has been delivered. -/
private theorem effect_take {event : Event α β ε}
    (hmore : completed < buffer.length)
    (hfine : offence rules (buffer.length - completed) event = none) :
    (event.effect buffer completed).take (completed + event.reported rules)
      = buffer.take completed ++ delivered rules [event] := by
  match event, hfine with
  | .polled _, _ => exact (List.append_nil _).symm
  | .called _ (.error error) _, hfine => exact nomatch hfine
  | .called _ (.ok report) span, _ =>
      have hlength : (buffer.take completed).length = completed := by
        rw [List.length_take]
        omega
      show (buffer.take completed ++ span).take (completed + _)
        = _ ++ (span.take _ ++ [])
      rw [List.append_nil, List.take_append, hlength,
        List.take_of_length_le (by omega), Nat.add_sub_cancel_left]
      rfl

private theorem delivered_cons (event : Event α β ε)
    (rest : List (Event α β ε)) :
    delivered rules (event :: rest)
      = delivered rules [event] ++ delivered rules rest := by
  match event with
  | .polled _ => rfl
  | .called _ (.error _) _ => rfl
  | .called _ (.ok report) span =>
      show _ = span.take _ ++ [] ++ _
      rw [List.append_nil]
      rfl

/-- **KEEPING**: what has been reported so far stays in place, in order. -/
theorem Trace.kept {before after : List (Event α β ε)} {event : Event α β ε}
    (h : Trace rules buffer completed (before ++ event :: after) status
      final) :
    (replay rules buffer completed before).take
        (completed + reported rules before)
      = buffer.take completed ++ delivered rules before := by
  induction before generalizing buffer completed with
  | nil => exact (List.append_nil _).symm
  | cons first before ih =>
      rw [List.cons_append] at h
      generalize htail : before ++ event :: after = tail at h
      cases h with
      | stop hmore hoffered hoffence =>
          exact (List.append_ne_nil_of_right_ne_nil before
            (List.cons_ne_nil event after) htail).elim
      | step hmore hoffered hfine hrest =>
          rw [← htail] at hrest
          have hkept := ih hrest
          rw [effect_take hmore hfine] at hkept
          rw [reported, ← Nat.add_assoc, delivered_cons first before,
            ← List.append_assoc]
          exact hkept

/-- **DELIVERY**: a successful run leaves exactly the reported elements, in
    order. -/
theorem Trace.delivers
    (h : Trace rules buffer completed events (.ok ()) final) :
    final = buffer.take completed ++ delivered rules events := by
  generalize hstatus : (Except.ok () : Except ε Unit) = status at h
  induction h with
  | done hdone =>
      rw [List.take_of_length_le (by omega)]
      exact (List.append_nil _).symm
  | stop _ _ _ => exact nomatch hstatus
  | @step buffer completed event events _ _ hmore hoffered hfine _ ih =>
      rw [ih hstatus, effect_take hmore hfine, delivered_cons event events,
        List.append_assoc]

/-- No event offends exactly when none offends in its place. -/
theorem fine_iff {size : Nat} :
    Fine rules size completed events
      ↔ ∀ before event after, events = before ++ event :: after →
          offence rules (size - (completed + reported rules before)) event
            = none := by
  induction events generalizing completed with
  | nil =>
      refine ⟨fun _ before event after h => ?_, fun _ => trivial⟩
      exact (List.append_ne_nil_of_right_ne_nil before
        (List.cons_ne_nil event after) h.symm).elim
  | cons first events ih =>
      constructor
      · rintro ⟨hfirst, hrest⟩ before event after h
        cases before with
        | nil =>
            cases h
            exact hfirst
        | cons b before =>
            cases h
            rw [reported, ← Nat.add_assoc]
            exact ih.mp hrest before event after rfl
      · intro h
        refine ⟨h [] first events rfl, ih.mpr ?_⟩
        rintro before event after rfl
        have hnone := h (first :: before) event after rfl
        rw [reported, ← Nat.add_assoc] at hnone
        exact hnone

end

/-! ## A rule for runs -/

/-- **RULE**: an invariant of a run, kept by every accepted report, and what
    it gives where the run ends. -/
theorem run_rule {channel : Channel σ α β ε} {I : σ → List β → Nat → Prop}
    {Q : Except ε Unit → List β → σ → Prop}
    (hdone : ∀ world buffer completed, I world buffer completed →
      buffer.length ≤ completed → Q (.ok ()) buffer world)
    (hstopped : ∀ world buffer completed, I world buffer completed →
      completed < buffer.length → (channel.poll world).1 = true →
      Q (.error rules.stopped) buffer (channel.poll world).2)
    (hfailed : ∀ world buffer completed error span after,
      I world buffer completed → completed < buffer.length →
      (channel.poll world).1 = false →
      channel.call (channel.poll world).2 (buffer.drop completed)
        = (.error error, span, after) →
      Q (.error error) (buffer.take completed ++ span) after)
    (hrefused : ∀ world buffer completed report span after error,
      I world buffer completed → completed < buffer.length →
      (channel.poll world).1 = false →
      channel.call (channel.poll world).2 (buffer.drop completed)
        = (.ok report, span, after) →
      rules.judge (buffer.length - completed) report = some error →
      Q (.error error) (buffer.take completed ++ span) after)
    (hstep : ∀ world buffer completed report span after,
      I world buffer completed → completed < buffer.length →
      (channel.poll world).1 = false →
      channel.call (channel.poll world).2 (buffer.drop completed)
        = (.ok report, span, after) →
      rules.judge (buffer.length - completed) report = none →
      I after (buffer.take completed ++ span)
        (completed + rules.count report))
    {world : σ} {buffer : List β} {completed : Nat}
    (h : I world buffer completed) :
    Q (run rules channel world buffer completed).1
      (run rules channel world buffer completed).2.1
      (run rules channel world buffer completed).2.2 := by
  induction hn : buffer.length - completed using Nat.strong_induction_on
    generalizing world buffer completed with
  | _ n ih =>
      by_cases hmore : completed < buffer.length
      case neg =>
        rw [run_done (by omega)]
        exact hdone world buffer completed h (by omega)
      cases hpoll : (channel.poll world).1 with
      | true =>
          rw [run_stopped hmore hpoll]
          exact hstopped world buffer completed h hmore hpoll
      | false =>
          rcases hreply : channel.call (channel.poll world).2
            (buffer.drop completed) with ⟨result, span, after⟩
          cases result with
          | error error =>
              rw [run_failed hmore hpoll hreply rfl]
              exact hfailed world buffer completed error span after h hmore
                hpoll hreply
          | ok report =>
              cases hjudge : rules.judge (buffer.length - completed) report with
              | some error =>
                  rw [run_refused hmore hpoll hreply rfl hjudge]
                  exact hrefused world buffer completed report span after
                    error h hmore hpoll hreply hjudge
              | none =>
                  rw [run_step hmore hpoll hreply rfl hjudge]
                  have hpos := (rules.progress _ _ hjudge).1
                  have hspan := channel.call_length (channel.poll world).2
                    (buffer.drop completed)
                  rw [hreply] at hspan
                  refine ih _ ?_ (hstep world buffer completed report span
                    after h hmore hpoll hreply hjudge) rfl
                  rw [List.length_append, show span.length = _ from hspan,
                    List.length_take, List.length_drop]
                  omega

/-! ## Agreement -/

section
variable {channel channel' : Channel σ α β ε} {P : σ → Prop}
variable {world : σ} {buffer : List β} {completed : Nat}

/-- What holds of a later world holds of an earlier one. -/
structure Backward (channel : Channel σ α β ε) (P : σ → Prop) : Prop where
  poll : ∀ world, P (channel.poll world).2 → P world
  call : ∀ world span, P (channel.call world span).2.2 → P world

/-- The end of a run says as much about its start. -/
theorem Backward.run (h : Backward channel P)
    (hfinal : P (run rules channel world buffer completed).2.2) :
    P world := by
  induction hn : buffer.length - completed using Nat.strong_induction_on
    generalizing world buffer completed with
  | _ n ih =>
      by_cases hmore : completed < buffer.length
      case neg =>
        rw [run_done (by omega)] at hfinal
        exact hfinal
      refine h.poll world ?_
      cases hpoll : (channel.poll world).1 with
      | true =>
          rw [run_stopped hmore hpoll] at hfinal
          exact hfinal
      | false =>
          refine h.call _ (buffer.drop completed) ?_
          cases hreply : (channel.call (channel.poll world).2
              (buffer.drop completed)).1 with
          | error error =>
              rw [run_failed hmore hpoll rfl hreply] at hfinal
              exact hfinal
          | ok report =>
              cases hjudge : rules.judge (buffer.length - completed) report with
              | some error =>
                  rw [run_refused hmore hpoll rfl hreply hjudge] at hfinal
                  exact hfinal
              | none =>
                  rw [run_step hmore hpoll rfl hreply hjudge] at hfinal
                  have hpos := (rules.progress _ _ hjudge).1
                  refine ih _ ?_ hfinal rfl
                  rw [List.length_append, channel.call_length,
                    List.length_take, List.length_drop]
                  omega

/-- **AGREEMENT**: two channels do the same in a run if they agree wherever
    the run gets.  `P` tells of a world that the run may get there. -/
theorem run_congr (hback : Backward channel P)
    (hpoll : ∀ world, P (channel.poll world).2 →
      channel'.poll world = channel.poll world)
    (hcall : ∀ world span, (channel.poll world).1 = false →
      P (channel.poll world).2 →
      channel'.call (channel.poll world).2 span
        = channel.call (channel.poll world).2 span)
    (hfinal : P (run rules channel world buffer completed).2.2) :
    run rules channel' world buffer completed
      = run rules channel world buffer completed := by
  induction hn : buffer.length - completed using Nat.strong_induction_on
    generalizing world buffer completed with
  | _ n ih =>
      by_cases hmore : completed < buffer.length
      case neg => rw [run_done (by omega), run_done (by omega)]
      cases hstop : (channel.poll world).1 with
      | true =>
          have hfinal' := hfinal
          rw [run_stopped hmore hstop] at hfinal'
          have hsame := hpoll world hfinal'
          rw [run_stopped hmore hstop,
            run_stopped hmore (hsame ▸ hstop), hsame]
      | false =>
          rcases hreply : channel.call (channel.poll world).2
            (buffer.drop completed) with ⟨result, span, after⟩
          -- what the rest of the run ends with goes back to this call
          have hafter : P after := by
            cases result with
            | error error =>
                rw [run_failed hmore hstop hreply rfl] at hfinal
                exact hfinal
            | ok report =>
                cases hjudge : rules.judge (buffer.length - completed)
                    report with
                | some error =>
                    rw [run_refused hmore hstop hreply rfl hjudge] at hfinal
                    exact hfinal
                | none =>
                    rw [run_step hmore hstop hreply rfl hjudge] at hfinal
                    exact hback.run hfinal
          have hpolled : P (channel.poll world).2 := by
            refine hback.call _ (buffer.drop completed) ?_
            rw [hreply]
            exact hafter
          have hsame := hpoll world hpolled
          have hstop' : (channel'.poll world).1 = false := hsame ▸ hstop
          have hreply' : channel'.call (channel'.poll world).2
              (buffer.drop completed) = (result, span, after) := by
            rw [hsame, hcall world _ hstop hpolled, hreply]
          cases result with
          | error error =>
              rw [run_failed hmore hstop hreply rfl,
                run_failed hmore hstop' hreply' rfl]
          | ok report =>
              cases hjudge : rules.judge (buffer.length - completed) report with
              | some error =>
                  rw [run_refused hmore hstop hreply rfl hjudge,
                    run_refused hmore hstop' hreply' rfl hjudge]
              | none =>
                  rw [run_step hmore hstop hreply rfl hjudge] at hfinal
                  rw [run_step hmore hstop hreply rfl hjudge,
                    run_step hmore hstop' hreply' rfl hjudge]
                  have hpos := (rules.progress _ _ hjudge).1
                  have hspan := channel.call_length (channel.poll world).2
                    (buffer.drop completed)
                  rw [hreply] at hspan
                  refine ih _ ?_ hfinal rfl
                  rw [List.length_append, show span.length = _ from hspan,
                    List.length_take, List.length_drop]
                  omega

end

end Transfer
