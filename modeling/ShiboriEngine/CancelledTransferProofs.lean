import Mathlib
import ShiboriEngine.CancellationProofs
import ShiboriEngine.ExactTransferProofs

/-! # Transfers and cancellation together

    A transfer polls a token while other parties create, move and destroy
    sources and tokens and request cancellations: before the token answers,
    between its answer and the call that follows, and during calls.  The world
    keeps the history of all their actions, so that what the token answers is
    what the history says. -/

namespace ShiboriCancelledTransfer

open ShiboriError ShiboriByteIo ShiboriCancellation ShiboriCancellationFacts
open ShiboriExactTransfer Machine Transfer

variable {σ : Type}

/-- The world of a transfer among other parties.  `starts` is ghost: the
    history at the start of every adapter call. -/
structure Concurrent (σ : Type) where
  history : List Action
  inner : σ
  starts : List (List Action) := []

/-- The state of the token has been requested. -/
def Cancelled (history : List Action) (held : StatePtr) : Prop :=
  ∃ n, held = some n ∧ RequestedOn history n

/-- A token that holds `held` for as long as a transfer polls it.  The others
    act before it answers and, the answer being given, before the transfer
    goes on. -/
def polledToken (before after : Concurrent σ → List Action)
    (held : StatePtr) : CancellationToken (Concurrent σ) where
  isCancelled world :=
    let history := world.history ++ before world
    ((finalState step {} history).isCancelled held,
      { world with history := history ++ after world })

/-- The same with a token that is never cancelled. -/
def deafToken (before after : Concurrent σ → List Action) :
    CancellationToken (Concurrent σ) where
  isCancelled world :=
    (false,
      { world with history := world.history ++ before world ++ after world })

/-- A source that notes the start of every call; the others may act during
    it. -/
structure ConcurrentSource (σ : Type) extends ByteSource (Concurrent σ) where
  forward : ∀ world destination,
    world.history <+: (read world destination).2.2.history
  noted : ∀ world destination,
    (read world destination).2.2.starts = world.starts ++ [world.history]

/-- A sink of the same kind. -/
structure ConcurrentSink (σ : Type) extends ByteSink (Concurrent σ) where
  forward : ∀ world source, world.history <+: (write world source).2.history
  noted : ∀ world source,
    (write world source).2.starts = world.starts ++ [world.history]

/-! ## Histories -/

/-- What was requested stays requested. -/
theorem Cancelled.of_prefix {history later : List Action} {held : StatePtr}
    (h : Cancelled history held) (hearlier : history <+: later) :
    Cancelled later held := by
  obtain ⟨n, rfl, hrequested⟩ := h
  obtain ⟨more, rfl⟩ := hearlier
  exact ⟨n, rfl, hrequested.append more⟩

/-- The flag a token reads tells whether its state was requested. -/
theorem isCancelled_iff (history : List Action) (held : StatePtr) :
    (finalState step {} history).isCancelled held = true
      ↔ Cancelled history held := by
  cases held with
  | none =>
      constructor
      · intro h
        cases h
      · rintro ⟨n, hn, _⟩
        cases hn
  | some n =>
      have hflag := flag_iff_requestedOn history n
      constructor
      · intro h
        exact ⟨n, rfl, hflag.mp h⟩
      · rintro ⟨m, hm, hrequested⟩
        cases hm
        exact hflag.mpr hrequested

section
variable {before after : Concurrent σ → List Action} {held : StatePtr}

/-- A poll after the request says stop. -/
theorem isCancelled_true {world : Concurrent σ}
    (h : Cancelled (world.history ++ before world) held) :
    ((polledToken before after held).isCancelled world).1 = true :=
  (isCancelled_iff _ held).mpr h

/-- A poll before it does not. -/
theorem isCancelled_false {world : Concurrent σ}
    (h : ¬ Cancelled (world.history ++ before world) held) :
    ((polledToken before after held).isCancelled world).1 = false := by
  rw [← Bool.not_eq_true]
  exact fun hc => h ((isCancelled_iff _ held).mp hc)

/-- A poll moves the history on. -/
theorem poll_forward (world : Concurrent σ) :
    world.history
      <+: ((polledToken before after held).isCancelled world).2.history :=
  (List.prefix_append world.history (before world)).trans
    (List.prefix_append _ (after world))

/-- What a channel of a concurrent adapter does. -/
structure Concurs {α : Type} (channel : Channel (Concurrent σ) α UInt8 Error)
    (before after : Concurrent σ → List Action) (held : StatePtr) : Prop where
  poll : channel.poll = (polledToken before after held).isCancelled
  forward : ∀ world span,
    world.history <+: (channel.call world span).2.2.history
  noted : ∀ world span,
    (channel.call world span).2.2.starts = world.starts ++ [world.history]

/-- A history that is not cancelled has not been before. -/
theorem Concurs.backward {α : Type}
    {channel : Channel (Concurrent σ) α UInt8 Error}
    (h : Concurs channel before after held) :
    Backward channel fun world => ¬ Cancelled world.history held where
  poll world hfine := by
    rw [h.poll] at hfine
    exact fun hc => hfine (hc.of_prefix (poll_forward world))
  call world span hfine := fun hc => hfine (hc.of_prefix (h.forward world span))

/-- Of the calls of a transfer at most the last one started after the
    request. -/
def LateCalls (world final : Concurrent σ) (held : StatePtr) : Prop :=
  ∃ starts, final.starts = world.starts ++ starts
    ∧ ∀ start ∈ starts.dropLast, ¬ Cancelled start held

/-- The invariant of a transfer: if a call started after the request, the
    next poll will see it. -/
structure Noticed (world now : Concurrent σ) (held : StatePtr)
    (starts : List (List Action)) : Prop where
  noted : now.starts = world.starts ++ starts
  early : ∀ start ∈ starts.dropLast, ¬ Cancelled start held
  late : ∀ start ∈ starts, Cancelled start held → Cancelled now.history held

/-- A poll that answers no: no call so far started after the request. -/
theorem Noticed.polled_false {world now : Concurrent σ}
    {starts : List (List Action)} (h : Noticed world now held starts)
    (hno : ((polledToken before after held).isCancelled now).1 = false) :
    ∀ start ∈ starts, ¬ Cancelled start held := by
  intro start hmem hcancelled
  have hnow := h.late start hmem hcancelled
  rw [isCancelled_true (hnow.of_prefix (List.prefix_append _ _))] at hno
  cases hno

/-- One call more. -/
theorem Noticed.call {world now next : Concurrent σ}
    {starts : List (List Action)} {start : List Action}
    (hstarts : now.starts = world.starts ++ starts)
    (hearly : ∀ start ∈ starts, ¬ Cancelled start held)
    (hnoted : next.starts = now.starts ++ [start])
    (hforward : start <+: next.history) :
    Noticed world next held (starts ++ [start]) := by
  refine ⟨?_, ?_, ?_⟩
  · rw [hnoted, hstarts, List.append_assoc]
  · rw [List.dropLast_concat]
    exact hearly
  · intro other hmem hcancelled
    rcases List.mem_append.mp hmem with hold | hnew
    · exact (hearly other hold hcancelled).elim
    · rw [List.mem_singleton.mp hnew] at hcancelled
      exact hcancelled.of_prefix hforward

/-- **ONCE REQUESTED**, at most one call starts, and none after it. -/
theorem run_lateCalls {α : Type} (rules : Rules α Error)
    {channel : Channel (Concurrent σ) α UInt8 Error}
    (h : Concurs channel before after held) (world : Concurrent σ)
    (buffer : List UInt8) :
    LateCalls world (run rules channel world buffer 0).2.2 held := by
  -- a poll leaves the starts alone, a call adds its own
  have hcall : ∀ (now : Concurrent σ) (span : List UInt8) result filled next,
      (∃ starts, Noticed world now held starts) →
      (channel.poll now).1 = false →
      channel.call (channel.poll now).2 span = (result, filled, next) →
      ∃ starts, Noticed world next held starts := by
    rintro now span result filled next ⟨starts, hnow⟩ hno hreply
    have hnext := congrArg (fun reply => reply.2.2) hreply
    have hnoted := h.noted (channel.poll now).2 span
    have hforward := h.forward (channel.poll now).2 span
    rw [show (channel.call _ span).2.2 = next from hnext] at hnoted hforward
    rw [h.poll] at hno hnoted hforward
    exact ⟨_, Noticed.call hnow.noted (hnow.polled_false hno) hnoted hforward⟩
  have hlate : ∀ now : Concurrent σ,
      (∃ starts, Noticed world now held starts) → LateCalls world now held :=
    fun now ⟨starts, hnow⟩ => ⟨starts, hnow.noted, hnow.early⟩
  refine run_rule
    (I := fun now _ _ => ∃ starts, Noticed world now held starts)
    (Q := fun _ _ final => LateCalls world final held) ?_ ?_ ?_ ?_ ?_ ?_
  · intro now buffer completed hnow _
    exact hlate now hnow
  · intro now buffer completed hnow _ _
    obtain ⟨starts, hstarts, hearly, _⟩ := hnow
    rw [h.poll]
    exact ⟨starts, hstarts, hearly⟩
  · intro now buffer completed error span next hnow _ hno hreply
    exact hlate next (hcall now _ _ _ _ hnow hno hreply)
  · intro now buffer completed report span next error hnow _ hno hreply _
    exact hlate next (hcall now _ _ _ _ hnow hno hreply)
  · intro now buffer completed report span next hnow _ hno hreply _
    exact hcall now _ _ _ _ hnow hno hreply
  · refine ⟨[], (List.append_nil _).symm, ?_, ?_⟩
    · intro start hmem
      cases hmem
    · intro start hmem
      cases hmem

/-- **NEVER REQUESTED**, the token is of no account. -/
theorem run_never_requested {α : Type} (rules : Rules α Error)
    (channel channel' : Channel (Concurrent σ) α UInt8 Error)
    (hconcurs : Concurs channel before after held)
    (hpoll' : channel'.poll = (deafToken before after).isCancelled)
    (hcall : channel'.call = channel.call)
    {world : Concurrent σ} {buffer : List UInt8}
    (h : ¬ Cancelled (run rules channel world buffer 0).2.2.history held) :
    run rules channel' world buffer 0 = run rules channel world buffer 0 := by
  refine run_congr hconcurs.backward ?_ ?_ h
  · intro world hfine
    rw [hconcurs.poll] at hfine ⊢
    rw [hpoll']
    have hearlier : ¬ Cancelled (world.history ++ before world) held :=
      fun hc => hfine (hc.of_prefix (List.prefix_append _ _))
    exact Prod.ext (isCancelled_false hearlier).symm rfl
  · intro world span _ _
    rw [hcall]

end

/-- **CANCELLATION REACHES A TRANSFER**, whatever the other parties do and
    whenever they do it: one already requested fails it before any call; once
    requested, at most one call starts, and it is the last; and never
    requested, the token changes nothing. -/
theorem transfers_stop_on_request (source : ConcurrentSource σ)
    (sink : ConcurrentSink σ) (before after : Concurrent σ → List Action)
    (held : StatePtr) (world : Concurrent σ) (buffer : List UInt8) :
    let token := polledToken before after held
    let read := readExact source.toByteSource token world buffer
    let written := writeAll sink.toByteSink token world buffer
    let polled := world.history ++ before world
    (buffer ≠ [] → Cancelled polled held →
      read = (.error (cancelledError .read), buffer,
          { world with history := polled ++ after world })
        ∧ written = (.error (cancelledError .write),
          { world with history := polled ++ after world }))
      ∧ LateCalls world read.2.2 held
      ∧ LateCalls world written.2 held
      ∧ (¬ Cancelled read.2.2.history held →
        readExact source.toByteSource (deafToken before after) world buffer
          = read)
      ∧ (¬ Cancelled written.2.history held →
        writeAll sink.toByteSink (deafToken before after) world buffer
          = written) := by
  intro token read written polled
  have hread : Concurs (readChannel source.toByteSource token) before after
      held := ⟨rfl, source.forward, source.noted⟩
  have hwrite : Concurs (writeChannel sink.toByteSink token) before after
      held := ⟨rfl, sink.forward, sink.noted⟩
  simp only [read, written, readExact, writeAll, readExactLoop_eq,
    writeAllLoop_eq]
  refine ⟨?_, ?_, ?_, ?_, ?_⟩
  · intro hbuffer hcancelled
    have hmore : 0 < buffer.length := List.length_pos_of_ne_nil hbuffer
    have hstop : (token.isCancelled world).1 = true :=
      isCancelled_true hcancelled
    constructor
    · exact run_stopped hmore hstop
    · rw [run_stopped hmore hstop]
      rfl
  · exact run_lateCalls readRules hread world buffer
  · exact run_lateCalls writeRules hwrite world buffer
  · intro hfine
    exact run_never_requested readRules _
      (readChannel source.toByteSource (deafToken before after)) hread rfl rfl
      hfine
  · intro hfine
    rw [run_never_requested writeRules _
      (writeChannel sink.toByteSink (deafToken before after)) hwrite rfl rfl
      hfine]

/-- A source that delivers one byte each time. -/
def oneByteSource : ConcurrentSource Unit where
  read world destination :=
    (.ok { bytesRead := 1, eof := false }, destination,
      { world with starts := world.starts ++ [world.history] })
  read_length _ _ := rfl
  capabilities _ := ⟨false, false, false⟩
  seek world _ := (.ok (), world)
  forward _ _ := List.prefix_rfl
  noted _ _ := rfl

/-- A sink that takes one byte each time. -/
def oneByteSink : ConcurrentSink Unit where
  write world _ :=
    (.ok 1, { world with starts := world.starts ++ [world.history] })
  capabilities _ := ⟨false, false, false⟩
  seek world _ := (.ok (), world)
  forward _ _ := List.prefix_rfl
  noted _ _ := rfl

/-- A request between a poll and its call: that call starts, and no other. -/
theorem transfers_stop_on_request_at_oneByteSink :
    let world : Concurrent Unit := ⟨[.createSource, .token 0], (), []⟩
    let written := writeAll oneByteSink.toByteSink
      (polledToken (fun _ => []) (fun _ => [.requestCancel 0]) (some 0)) world
      [1, 2, 3]
    written.1 = .error (cancelledError .write)
      ∧ written.2.starts = [[.createSource, .token 0, .requestCancel 0]]
      ∧ LateCalls world written.2 (some 0) := by
  intro world written
  have hrun : written = (.error (cancelledError .write),
      ⟨[.createSource, .token 0, .requestCancel 0, .requestCancel 0], (),
        [[.createSource, .token 0, .requestCancel 0]]⟩) := by
    simp only [written]
    rw [writeAll, writeAllLoop]
    show writeAllLoop _ _ _ _ _ = _
    rw [writeAllLoop]
    rfl
  refine ⟨congrArg Prod.fst hrun, congrArg (·.2.starts) hrun, ?_⟩
  exact (transfers_stop_on_request oneByteSource oneByteSink (fun _ => [])
    (fun _ => [.requestCancel 0]) (some 0) world [1, 2, 3]).2.2.1

end ShiboriCancelledTransfer
