import Mathlib
import ShiboriEngine.Library.Machine
import ShiboriEngine.ColumnShapeProofs
import ShiboriEngine.LifecycleProofs

/-! # What the column builders publish

    A column builder has a slot for every component, filled by the first
    setter that succeeds, and gives out its slots once. -/

namespace ShiboriColumnBuilders

open ShiboriError ShiboriLogicalType ShiboriColumn ShiboriBlock
open ShiboriColumnShape ShiboriLifecycle Machine

/-! ## Components -/

/-- What a setter is given. -/
inductive Component where
  | validity (value : Validity)
  | values (value : ByteBuffer)
  | offsets (value : OffsetBuffer)
  | payload (value : ByteBuffer)

namespace Component

/-- The bitmap, if it is one. -/
def validity? : Component → Option Validity
  | .validity value => some value
  | _ => none

/-- The values, if they are. -/
def values? : Component → Option ByteBuffer
  | .values value => some value
  | _ => none

/-- The offsets, if they are. -/
def offsets? : Component → Option OffsetBuffer
  | .offsets value => some value
  | _ => none

/-- The payload, if it is. -/
def payload? : Component → Option ByteBuffer
  | .payload value => some value
  | _ => none

end Component

/-- Everything a column holds besides its storage kind. -/
structure Contents where
  type : LogicalType
  rowCount : UInt64
  validity : Option Validity
  values : Option ByteBuffer
  offsets : Option OffsetBuffer
  payload : Option ByteBuffer

/-- What a column holds. -/
def contentsOf (column : Column) : Contents where
  type := column.type
  rowCount := column.rowCount
  validity := column.validity
  values := column.values
  offsets := column.offsets
  payload := column.payload

namespace Contents

/-- The slot of the component is empty. -/
def RoomFor (contents : Contents) : Component → Prop
  | .validity _ => contents.validity = none
  | .values _ => contents.values = none
  | .offsets _ => contents.offsets = none
  | .payload _ => contents.payload = none

/-- The contents with one component more. -/
def put (contents : Contents) : Component → Contents
  | .validity value => { contents with validity := some value }
  | .values value => { contents with values := some value }
  | .offsets value => { contents with offsets := some value }
  | .payload value => { contents with payload := some value }

/-- The first component of each kind. -/
def firsts (type : LogicalType) (rowCount : UInt64)
    (components : List Component) : Contents where
  type := type
  rowCount := rowCount
  validity := components.findSome? Component.validity?
  values := components.findSome? Component.values?
  offsets := components.findSome? Component.offsets?
  payload := components.findSome? Component.payload?

/-- **FIRST COME**: a component that finds its slot empty is the first of its
    kind. -/
theorem firsts_concat {type : LogicalType} {rowCount : UInt64}
    {components : List Component} {component : Component}
    (h : (firsts type rowCount components).RoomFor component) :
    firsts type rowCount (components ++ [component])
      = (firsts type rowCount components).put component := by
  cases component <;>
    (simp only [firsts, RoomFor] at h
     simp only [firsts, put, h, List.findSome?_append,
      List.findSome?_singleton, Component.validity?, Component.values?,
      Component.offsets?, Component.payload?, Option.or_none, Option.none_or])

end Contents

/-! ## One call -/

/-- The column a reply carries. -/
def columnIn : Result (Option Column) → Option Column
  | .ok product => product
  | .error _ => none

section Outcomes

variable {σ : Type}

/-- A setter fills its slot or hands the builder back. -/
inductive SetterOutcome (s filled : σ) (accepts : Prop) :
    Result (Option Column) × σ → Prop where
  | accepted (h : accepts) : SetterOutcome s filled accepts (.ok none, filled)
  | refused {error : Error} (h : ¬ accepts) :
      SetterOutcome s filled accepts (.error error, s)

/-- `finish` hands the builder back unless it is ready; then it consumes it,
    for a column if the validity has the builder's rows. -/
inductive FinishOutcome (s consumed : σ) (ready : Prop)
    (kind : ColumnStorageKind) (contents : Contents) :
    Result (Option Column) × σ → Prop where
  | refused {error : Error} (h : ¬ ready) :
      FinishOutcome s consumed ready kind contents (.error error, s)
  | failed {error : Error} (h : ready)
      (hrows : ¬ ∀ v ∈ contents.validity, v.rowCount = contents.rowCount) :
      FinishOutcome s consumed ready kind contents (.error error, consumed)
  | made {column : Column} (h : ready)
      (hrows : ∀ v ∈ contents.validity, v.rowCount = contents.rowCount)
      (hkind : column.storageKind = kind)
      (hcontents : contentsOf column = contents) :
      FinishOutcome s consumed ready kind contents
        (.ok (some column), consumed)

end Outcomes

/-! ## Runs of a column builder -/

/-- What the three builders have in common: setters that fill a slot each, and
    one call that consumes the builder. -/
structure ColumnBuilder (σ α : Type) where
  step : Step σ α (Result (Option Column))
  finished : σ → Bool
  contents : σ → Contents
  /-- What a setter is given; `finish` is given nothing. -/
  given : α → Option Component
  finishCall : α
  filled : σ → α → σ
  consumed : σ → σ
  /-- Every component is there. -/
  complete : σ → Prop
  typeFits : σ → Prop
  kind : ColumnStorageKind
  finishCall_of_given : ∀ call, given call = none → call = finishCall
  setter : ∀ s call component, given call = some component →
    SetterOutcome s (filled s call)
      (finished s = false ∧ (contents s).RoomFor component) (step s call)
  finish : ∀ s, FinishOutcome s (consumed s)
    (finished s = false ∧ complete s ∧ typeFits s) kind (contents s)
    (step s finishCall)
  filled_finished : ∀ s call, finished (filled s call) = finished s
  filled_contents : ∀ s call component, given call = some component →
    contents (filled s call) = (contents s).put component
  consumed_finished : ∀ s, finished (consumed s) = true
  consumed_contents : ∀ s, contents (consumed s) = contents s
  consumed_complete : ∀ s, complete s → complete (consumed s)

namespace ColumnBuilder

section Runs

variable {σ α : Type} (builder : ColumnBuilder σ α)

/-- What the successful setters of a run were given. -/
def granted (s : σ) (calls : List α) : List Component :=
  collect builder.step
    (fun call reply =>
      if (errorOf reply).isNone then builder.given call else none) s calls

/-- The columns that the successful `finish` calls of a run give out. -/
def published (s : σ) (calls : List α) : List Column :=
  collect builder.step (fun _ reply => columnIn reply) s calls

/-- Everything a call can do. -/
inductive Outcome (s : σ) (call : α) : Result (Option Column) × σ → Prop where
  | refused {error : Error} : Outcome s call (.error error, s)
  | filled {component : Component}
      (hgiven : builder.given call = some component)
      (hopen : builder.finished s = false)
      (hroom : (builder.contents s).RoomFor component) :
      Outcome s call (.ok none, builder.filled s call)
  | failed {error : Error} (hopen : builder.finished s = false)
      (hcomplete : builder.complete s) :
      Outcome s call (.error error, builder.consumed s)
  | made {column : Column} (hgiven : builder.given call = none)
      (hopen : builder.finished s = false) (hcomplete : builder.complete s)
      (hkind : column.storageKind = builder.kind)
      (hcontents : contentsOf column = builder.contents s) :
      Outcome s call (.ok (some column), builder.consumed s)

/-- Every call is a setter or `finish`, and each goes one of its ways. -/
theorem step_cases (s : σ) (call : α) :
    builder.Outcome s call (builder.step s call) := by
  cases hgiven : builder.given call with
  | none =>
      obtain rfl := builder.finishCall_of_given call hgiven
      have houtcome := builder.finish s
      generalize builder.step s builder.finishCall = result at houtcome ⊢
      cases houtcome with
      | refused _ => exact .refused
      | failed hready _ => exact .failed hready.1 hready.2.1
      | made hready _ hkind hcontents =>
          exact .made hgiven hready.1 hready.2.1 hkind hcontents
  | some component =>
      have houtcome := builder.setter s call component hgiven
      generalize builder.step s call = result at houtcome ⊢
      cases houtcome with
      | accepted haccepts => exact .filled hgiven haccepts.1 haccepts.2
      | refused _ => exact .refused

/-- A consumed builder refuses every call and stays as it is. -/
theorem consumed_refuses {s : σ} (h : builder.finished s = true) (call : α) :
    (∃ error, (builder.step s call).1 = .error error)
      ∧ (builder.step s call).2 = s := by
  have hclosed : ¬ builder.finished s = false := by
    rw [h]
    exact Bool.noConfusion
  have houtcome := builder.step_cases s call
  generalize builder.step s call = result at houtcome ⊢
  cases houtcome with
  | refused => exact ⟨⟨_, rfl⟩, rfl⟩
  | filled _ hopen _ => exact (hclosed hopen).elim
  | failed hopen _ => exact (hclosed hopen).elim
  | made _ hopen _ _ _ => exact (hclosed hopen).elim

/-- **PUBLISHING** consumes the builder, and the column is what it holds. -/
theorem column_of_step {s : σ} {call : α} {column : Column}
    (h : columnIn (builder.step s call).1 = some column) :
    builder.finished (builder.step s call).2 = true
      ∧ column.storageKind = builder.kind
      ∧ contentsOf column = builder.contents (builder.step s call).2 := by
  have houtcome := builder.step_cases s call
  generalize builder.step s call = result at houtcome h ⊢
  cases houtcome with
  | refused => exact nomatch h
  | filled _ _ _ => exact nomatch h
  | failed _ _ => exact nomatch h
  | made _ _ _ hkind hcontents =>
      cases h
      exact ⟨builder.consumed_finished s, hkind,
        hcontents.trans (builder.consumed_contents s).symm⟩

/-- Nothing was given out, or the one column that the builder holds for
    good. -/
def GaveOut (s : σ) (columns : List Column) : Prop :=
  columns = [] ∨ ∃ column, columns = [column]
    ∧ builder.finished s = true ∧ column.storageKind = builder.kind
    ∧ contentsOf column = builder.contents s

/-- **STEP**: what a builder has given out. -/
theorem gaveOut_step {s : σ} {columns : List Column} (call : α)
    (h : builder.GaveOut s columns) :
    builder.GaveOut (builder.step s call).2
      (columns ++ (columnIn (builder.step s call).1).toList) := by
  rcases h with rfl | ⟨column, rfl, hfinished, hkind, hcontents⟩
  · cases hproduct : columnIn (builder.step s call).1 with
    | none => exact Or.inl rfl
    | some column => exact Or.inr ⟨column, rfl, builder.column_of_step hproduct⟩
  · obtain ⟨⟨error, hreply⟩, hsame⟩ := builder.consumed_refuses hfinished call
    rw [hreply, hsame]
    exact Or.inr ⟨column, rfl, hfinished, hkind, hcontents⟩

/-- **AT MOST ONCE**, in every run. -/
theorem gaveOut_run (s : σ) (calls : List α) :
    builder.GaveOut (finalState builder.step s calls)
      (builder.published s calls) :=
  collect_invariant (fun _ _ call h => builder.gaveOut_step call h)
    (Or.inl rfl) calls

/-- **STEP**: a builder holds the first component of each kind. -/
theorem contents_step {type : LogicalType} {rowCount : UInt64} {s : σ}
    {components : List Component} (call : α)
    (h : builder.contents s = .firsts type rowCount components) :
    builder.contents (builder.step s call).2
      = .firsts type rowCount (components
        ++ (if (errorOf (builder.step s call).1).isNone
            then builder.given call else none).toList) := by
  have houtcome := builder.step_cases s call
  generalize builder.step s call = result at houtcome ⊢
  cases houtcome with
  | refused =>
      show _ = Contents.firsts type rowCount (components ++ [])
      rw [List.append_nil]
      exact h
  | @filled component hgiven _ hroom =>
      show _ = Contents.firsts type rowCount
        (components ++ (builder.given call).toList)
      rw [h] at hroom
      rw [builder.filled_contents s call component hgiven, h, hgiven,
        Option.toList_some, Contents.firsts_concat hroom]
  | failed _ _ =>
      show _ = Contents.firsts type rowCount (components ++ [])
      rw [List.append_nil]
      exact (builder.consumed_contents s).trans h
  | made hgiven _ _ _ _ =>
      rw [hgiven, ite_self, Option.toList_none, List.append_nil]
      exact (builder.consumed_contents s).trans h

/-- **FIRST SETTERS**: a builder holds what the first successful setter of each
    kind was given. -/
theorem contents_run {type : LogicalType} {rowCount : UInt64} {new : σ}
    (h : builder.contents new = .firsts type rowCount []) (calls : List α) :
    builder.contents (finalState builder.step new calls)
      = .firsts type rowCount (builder.granted new calls) :=
  collect_invariant (P := fun s components =>
      builder.contents s = .firsts type rowCount components)
    (fun _ _ call hs => builder.contents_step call hs) h calls

/-- **AN INCOMPLETE BUILDER** is not consumed, wherever a run has taken it. -/
theorem complete_of_finished {new : σ} (hnew : builder.finished new = false)
    (calls : List α)
    (h : builder.finished (finalState builder.step new calls) = true) :
    builder.complete (finalState builder.step new calls) := by
  refine finalState_invariant (P := fun s => builder.finished s = true →
    builder.complete s) ?_ ?_ calls h
  · intro s call hs hafter
    have houtcome := builder.step_cases s call
    generalize builder.step s call = result at houtcome hafter ⊢
    cases houtcome with
    | refused => exact hs hafter
    | filled _ hopen _ =>
        rw [builder.filled_finished, hopen] at hafter
        exact nomatch hafter
    | failed _ hcomplete => exact builder.consumed_complete s hcomplete
    | made _ _ hcomplete _ _ => exact builder.consumed_complete s hcomplete
  · intro hfinished
    rw [hnew] at hfinished
    exact nomatch hfinished

/-- What every run of a new builder gives out. -/
structure PublishesOnce (new : σ) (type : LogicalType) (rowCount : UInt64) :
    Prop where
  at_most_once : ∀ calls, (builder.published new calls).length ≤ 1
  storageKind : ∀ calls, ∀ column ∈ builder.published new calls,
    column.storageKind = builder.kind
  contents : ∀ calls, ∀ column ∈ builder.published new calls,
    contentsOf column = .firsts type rowCount (builder.granted new calls)
  wellFormed : ∀ calls, ∀ column ∈ builder.published new calls,
    WellFormed column
  unreachable : ∀ calls, ∀ column ∈ builder.published new calls,
    ∀ rejections field rowCount limits decodedBytes,
      validateColumnOr rejections field column rowCount limits decodedBytes
        = validateColumn field column rowCount limits decodedBytes

/-- A builder publishes at most one column, of the first components. -/
theorem publishesOnce {new : σ} {type : LogicalType} {rowCount : UInt64}
    (hnew : builder.contents new = .firsts type rowCount []) :
    builder.PublishesOnce new type rowCount := by
  refine ⟨?_, ?_, ?_, fun _ column _ => ShiboriColumnShape.wellFormed column,
    fun _ column _ rejections field rowCount limits decodedBytes =>
      validateColumnOr_eq rejections field limits decodedBytes rowCount⟩
  · intro calls
    rcases builder.gaveOut_run new calls with hnone | ⟨column, hone, _⟩
    · rw [hnone]
      exact Nat.zero_le 1
    · rw [hone]
      exact Nat.le_refl 1
  · intro calls column hmem
    rcases builder.gaveOut_run new calls with
      hnone | ⟨only, hone, _, hkind, _⟩
    · rw [hnone] at hmem
      exact nomatch hmem
    · rw [hone, List.mem_singleton] at hmem
      rw [hmem]
      exact hkind
  · intro calls column hmem
    rcases builder.gaveOut_run new calls with
      hnone | ⟨only, hone, _, _, hsame⟩
    · rw [hnone] at hmem
      exact nomatch hmem
    · rw [hone, List.mem_singleton] at hmem
      rw [hmem]
      exact hsame.trans (builder.contents_run hnew calls)

/-- How the calls of a builder fail, in any state, and what an incomplete one
    is still good for. -/
structure FailsCleanly (new : σ) : Prop where
  setter_accepted_iff : ∀ s call component,
    builder.given call = some component →
      ((∃ product, (builder.step s call).1 = .ok product)
        ↔ builder.finished s = false
          ∧ (builder.contents s).RoomFor component)
  setter_refused : ∀ s call component error,
    builder.given call = some component →
      (builder.step s call).1 = .error error → (builder.step s call).2 = s
  incomplete : ∀ s, ¬ builder.complete s →
    (∃ error, (builder.step s builder.finishCall).1 = .error error)
      ∧ (builder.step s builder.finishCall).2 = s
  usable : ∀ calls, ¬ builder.complete (finalState builder.step new calls) →
    builder.finished (finalState builder.step new calls) = false
  finish_accepted_iff : ∀ s,
    ((∃ column, columnIn (builder.step s builder.finishCall).1 = some column)
      ↔ (builder.finished s = false ∧ builder.complete s ∧ builder.typeFits s)
        ∧ ∀ v ∈ (builder.contents s).validity,
          v.rowCount = (builder.contents s).rowCount)

/-- A setter that is refused, and a `finish` with a component missing, leave
    the builder as it was. -/
theorem failsCleanly {new : σ} (hnew : builder.finished new = false) :
    builder.FailsCleanly new := by
  refine ⟨?_, ?_, ?_, ?_, ?_⟩
  · intro s call component hgiven
    have houtcome := builder.setter s call component hgiven
    generalize builder.step s call = result at houtcome ⊢
    cases houtcome with
    | accepted haccepts => exact iff_of_true ⟨none, rfl⟩ haccepts
    | refused hrefuses =>
        refine iff_of_false ?_ hrefuses
        rintro ⟨product, hproduct⟩
        exact nomatch hproduct
  · intro s call component error hgiven herror
    have houtcome := builder.setter s call component hgiven
    generalize builder.step s call = result at houtcome herror ⊢
    cases houtcome with
    | accepted _ => exact nomatch herror
    | refused _ => rfl
  · intro s hmissing
    have houtcome := builder.finish s
    generalize builder.step s builder.finishCall = result at houtcome ⊢
    cases houtcome with
    | refused _ => exact ⟨⟨_, rfl⟩, rfl⟩
    | failed hready _ => exact (hmissing hready.2.1).elim
    | made hready _ _ _ => exact (hmissing hready.2.1).elim
  · intro calls hmissing
    cases hfinished : builder.finished (finalState builder.step new calls) with
    | false => rfl
    | true =>
        exact (hmissing (builder.complete_of_finished hnew calls hfinished)).elim
  · intro s
    have houtcome := builder.finish s
    generalize builder.step s builder.finishCall = result at houtcome ⊢
    cases houtcome with
    | refused hrefuses =>
        refine iff_of_false ?_ fun h => hrefuses h.1
        rintro ⟨column, hcolumn⟩
        exact nomatch hcolumn
    | failed _ hrows =>
        refine iff_of_false ?_ fun h => hrows h.2
        rintro ⟨column, hcolumn⟩
        exact nomatch hcolumn
    | @made column hready hrows _ _ =>
        exact iff_of_true ⟨column, rfl⟩ ⟨hready, hrows⟩

end Runs

end ColumnBuilder

/-! ## The three builders -/

/-- A setter takes its value into an empty slot, or refuses it. -/
theorem setOnce_cases {γ : Type} (finished : Bool) (slot : Option γ)
    (value : γ) (message : String) :
    ((finished = false ∧ slot = none)
        ∧ setOnce finished slot value message = (.ok (), some value))
      ∨ (¬ (finished = false ∧ slot = none)
        ∧ setOnce finished slot value message
          = (fail .invalidState .validateBlock message, slot)) := by
  rw [setOnce]
  cases finished with
  | true =>
      refine Or.inr ⟨?_, rfl⟩
      rintro ⟨hfinished, _⟩
      cases hfinished
  | false =>
      cases slot with
      | none => exact Or.inl ⟨⟨rfl, rfl⟩, rfl⟩
      | some held =>
          refine Or.inr ⟨?_, rfl⟩
          rintro ⟨_, hempty⟩
          cases hempty

/-- A setter is `setOnce` on its slot. -/
theorem setter_of_setOnce {σ γ : Type} (put : Option γ → σ) (finished : Bool)
    (slot : Option γ) (value : γ) (message : String) :
    SetterOutcome (put slot) (put (some value))
      (finished = false ∧ slot = none)
      (Prod.map told id ((setOnce finished slot value message).1,
        put (setOnce finished slot value message).2)) := by
  rcases setOnce_cases finished slot value message with
    ⟨haccepts, hcall⟩ | ⟨hrefuses, hcall⟩
  · rw [hcall]
    exact .accepted haccepts
  · rw [hcall]
    exact .refused hrefuses

/-- A refused bitmap has other rows than the column. -/
theorem rows_of_error {rowCount : UInt64} {validity : Option Validity}
    {error : Error} (h : validateValidity rowCount validity = .error error) :
    ¬ ∀ v ∈ validity, v.rowCount = rowCount := by
  intro hall
  rw [validateValidity_eq_ok.mpr hall] at h
  exact nomatch h

/-- The component a call brings. -/
def valuesGiven : ValuesCall → Option Component
  | .setValidity validity => some (.validity validity)
  | .setValues values => some (.values values)
  | .finish => none

/-- The component a call brings. -/
def variableGiven : VariableCall → Option Component
  | .setValidity validity => some (.validity validity)
  | .setOffsets offsets => some (.offsets offsets)
  | .setPayload payload => some (.payload payload)
  | .finish => none

/-- Only `finish` brings none. -/
theorem valuesGiven_none (call : ValuesCall) (h : valuesGiven call = none) :
    call = .finish := by
  cases call with
  | finish => rfl
  | setValidity _ => exact nomatch h
  | setValues _ => exact nomatch h

/-- Only `finish` brings none. -/
theorem variableGiven_none (call : VariableCall)
    (h : variableGiven call = none) : call = .finish := by
  cases call with
  | finish => rfl
  | setValidity _ => exact nomatch h
  | setOffsets _ => exact nomatch h
  | setPayload _ => exact nomatch h

namespace FixedWidth

/-- The builder with the component of a call. -/
def filled (s : FixedWidthColumnBuilder) : ValuesCall → FixedWidthColumnBuilder
  | .setValidity validity => { s with validity := some validity }
  | .setValues values => { s with values := some values }
  | .finish => s

/-- What the builder holds. -/
def contents (s : FixedWidthColumnBuilder) : Contents where
  type := s.type
  rowCount := s.rowCount
  validity := s.validity
  values := s.values
  offsets := none
  payload := none

/-- Filling puts the component into the contents. -/
theorem filled_contents (s : FixedWidthColumnBuilder) (call : ValuesCall)
    (component : Component) (hgiven : valuesGiven call = some component) :
    contents (filled s call) = (contents s).put component := by
  cases call with
  | finish => exact nomatch hgiven
  | _ =>
      cases hgiven
      rfl

/-- The setters go one of their ways. -/
theorem setter (s : FixedWidthColumnBuilder) (call : ValuesCall)
    (component : Component) (hgiven : valuesGiven call = some component) :
    SetterOutcome s (filled s call)
      (s.finished = false ∧ (contents s).RoomFor component)
      (fixedWidthMachine.step s call) := by
  cases call with
  | setValidity validity =>
      cases hgiven
      exact setter_of_setOnce (fun slot => { s with validity := slot })
        s.finished s.validity validity _
  | setValues values =>
      cases hgiven
      exact setter_of_setOnce (fun slot => { s with values := slot })
        s.finished s.values values _
  | finish => exact nomatch hgiven

/-- `finish` goes one of its ways. -/
theorem finish (s : FixedWidthColumnBuilder) :
    FinishOutcome s { s with finished := true }
      (s.finished = false ∧ s.values.isSome = true
        ∧ isFixedStorageType s.type = true) .fixedWidth (contents s)
      (fixedWidthMachine.step s .finish) := by
  have hready : ¬ (s.finished = true ∨ s.values.isSome = false
      ∨ isFixedStorageType s.type = false)
      ↔ s.finished = false ∧ s.values.isSome = true
        ∧ isFixedStorageType s.type = true := by
    simp only [not_or, Bool.not_eq_true, Bool.not_eq_false]
  show FinishOutcome _ _ _ _ _ (Prod.map made id s.finish)
  rw [FixedWidthColumnBuilder.finish]
  by_cases hrefuses : s.finished = true ∨ s.values.isSome = false
      ∨ isFixedStorageType s.type = false
  · rw [dif_pos hrefuses]
    exact .refused fun h => hready.mpr h hrefuses
  · rw [dif_neg hrefuses]
    dsimp only
    split
    · next error hrows =>
        exact .failed (hready.mp hrefuses) (rows_of_error hrows)
    · next hrows =>
        exact .made (hready.mp hrefuses) (validateValidity_eq_ok.mp hrows) rfl
          rfl

/-- The fixed-width builder. -/
def builder : ColumnBuilder FixedWidthColumnBuilder ValuesCall where
  step := fixedWidthMachine.step
  finished := FixedWidthColumnBuilder.finished
  contents := contents
  given := valuesGiven
  finishCall := .finish
  filled := filled
  consumed s := { s with finished := true }
  complete s := s.values.isSome = true
  typeFits s := isFixedStorageType s.type = true
  kind := .fixedWidth
  finishCall_of_given := valuesGiven_none
  setter := setter
  finish := finish
  filled_finished s call := by cases call <;> rfl
  filled_contents := filled_contents
  consumed_finished _ := rfl
  consumed_contents _ := rfl
  consumed_complete _ h := h

end FixedWidth

namespace Boolean

/-- The boolean type takes no parameters. -/
theorem boolean_valid : validateParameters .boolean .monostate = .ok () := rfl

/-- `LogicalType::create(LogicalTypeKind::boolean)`. -/
def type : LogicalType := ⟨.boolean, .monostate, boolean_valid⟩

/-- The builder with the component of a call. -/
def filled (s : BooleanColumnBuilder) : ValuesCall → BooleanColumnBuilder
  | .setValidity validity => { s with validity := some validity }
  | .setValues values => { s with values := some values }
  | .finish => s

/-- What the builder holds. -/
def contents (s : BooleanColumnBuilder) : Contents where
  type := type
  rowCount := s.rowCount
  validity := s.validity
  values := s.values
  offsets := none
  payload := none

/-- Filling puts the component into the contents. -/
theorem filled_contents (s : BooleanColumnBuilder) (call : ValuesCall)
    (component : Component) (hgiven : valuesGiven call = some component) :
    contents (filled s call) = (contents s).put component := by
  cases call with
  | finish => exact nomatch hgiven
  | _ =>
      cases hgiven
      rfl

/-- The setters go one of their ways. -/
theorem setter (s : BooleanColumnBuilder) (call : ValuesCall)
    (component : Component) (hgiven : valuesGiven call = some component) :
    SetterOutcome s (filled s call)
      (s.finished = false ∧ (contents s).RoomFor component)
      (booleanMachine.step s call) := by
  cases call with
  | setValidity validity =>
      cases hgiven
      exact setter_of_setOnce (fun slot => { s with validity := slot })
        s.finished s.validity validity _
  | setValues values =>
      cases hgiven
      exact setter_of_setOnce (fun slot => { s with values := slot })
        s.finished s.values values _
  | finish => exact nomatch hgiven

/-- `finish` goes one of its ways. -/
theorem finish (s : BooleanColumnBuilder) :
    FinishOutcome s { s with finished := true }
      (s.finished = false ∧ s.values.isSome = true ∧ True) .boolean
      (contents s) (booleanMachine.step s .finish) := by
  have hready : ¬ (s.finished = true ∨ s.values.isSome = false)
      ↔ s.finished = false ∧ s.values.isSome = true ∧ True := by
    simp only [not_or, Bool.not_eq_true, Bool.not_eq_false, and_true]
  show FinishOutcome _ _ _ _ _ (Prod.map made id s.finish)
  rw [BooleanColumnBuilder.finish]
  by_cases hrefuses : s.finished = true ∨ s.values.isSome = false
  · rw [dif_pos hrefuses]
    exact .refused fun h => hready.mpr h hrefuses
  · rw [dif_neg hrefuses]
    dsimp only
    split
    · next error hrows =>
        exact .failed (hready.mp hrefuses) (rows_of_error hrows)
    · next hrows =>
        exact .made (hready.mp hrefuses) (validateValidity_eq_ok.mp hrows) rfl
          rfl

/-- The boolean builder. -/
def builder : ColumnBuilder BooleanColumnBuilder ValuesCall where
  step := booleanMachine.step
  finished := BooleanColumnBuilder.finished
  contents := contents
  given := valuesGiven
  finishCall := .finish
  filled := filled
  consumed s := { s with finished := true }
  complete s := s.values.isSome = true
  typeFits _ := True
  kind := .boolean
  finishCall_of_given := valuesGiven_none
  setter := setter
  finish := finish
  filled_finished s call := by cases call <;> rfl
  filled_contents := filled_contents
  consumed_finished _ := rfl
  consumed_contents _ := rfl
  consumed_complete _ h := h

end Boolean

namespace VariableWidth

/-- The builder with the component of a call. -/
def filled (s : VariableWidthColumnBuilder) :
    VariableCall → VariableWidthColumnBuilder
  | .setValidity validity => { s with validity := some validity }
  | .setOffsets offsets => { s with offsets := some offsets }
  | .setPayload payload => { s with payload := some payload }
  | .finish => s

/-- What the builder holds. -/
def contents (s : VariableWidthColumnBuilder) : Contents where
  type := s.type
  rowCount := s.rowCount
  validity := s.validity
  values := none
  offsets := s.offsets
  payload := s.payload

/-- Filling puts the component into the contents. -/
theorem filled_contents (s : VariableWidthColumnBuilder) (call : VariableCall)
    (component : Component) (hgiven : variableGiven call = some component) :
    contents (filled s call) = (contents s).put component := by
  cases call with
  | finish => exact nomatch hgiven
  | _ =>
      cases hgiven
      rfl

/-- The setters go one of their ways. -/
theorem setter (s : VariableWidthColumnBuilder) (call : VariableCall)
    (component : Component) (hgiven : variableGiven call = some component) :
    SetterOutcome s (filled s call)
      (s.finished = false ∧ (contents s).RoomFor component)
      (variableWidthMachine.step s call) := by
  cases call with
  | setValidity validity =>
      cases hgiven
      exact setter_of_setOnce (fun slot => { s with validity := slot })
        s.finished s.validity validity _
  | setOffsets offsets =>
      cases hgiven
      exact setter_of_setOnce (fun slot => { s with offsets := slot })
        s.finished s.offsets offsets _
  | setPayload payload =>
      cases hgiven
      exact setter_of_setOnce (fun slot => { s with payload := slot })
        s.finished s.payload payload _
  | finish => exact nomatch hgiven

/-- `finish` goes one of its ways. -/
theorem finish (s : VariableWidthColumnBuilder) :
    FinishOutcome s { s with finished := true }
      (s.finished = false
        ∧ (s.offsets.isSome = true ∧ s.payload.isSome = true)
        ∧ s.type.isVariableWidth = true) .variableWidth (contents s)
      (variableWidthMachine.step s .finish) := by
  have hready : ¬ (s.finished = true ∨ s.offsets.isSome = false
      ∨ s.payload.isSome = false ∨ s.type.isVariableWidth = false)
      ↔ s.finished = false
        ∧ (s.offsets.isSome = true ∧ s.payload.isSome = true)
        ∧ s.type.isVariableWidth = true := by
    simp only [not_or, Bool.not_eq_true, Bool.not_eq_false, and_assoc]
  show FinishOutcome _ _ _ _ _ (Prod.map made id s.finish)
  rw [VariableWidthColumnBuilder.finish]
  by_cases hrefuses : s.finished = true ∨ s.offsets.isSome = false
      ∨ s.payload.isSome = false ∨ s.type.isVariableWidth = false
  · rw [dif_pos hrefuses]
    exact .refused fun h => hready.mpr h hrefuses
  · rw [dif_neg hrefuses]
    dsimp only
    split
    · next error hrows =>
        exact .failed (hready.mp hrefuses) (rows_of_error hrows)
    · next hrows =>
        exact .made (hready.mp hrefuses) (validateValidity_eq_ok.mp hrows) rfl
          rfl

/-- The variable-width builder. -/
def builder : ColumnBuilder VariableWidthColumnBuilder VariableCall where
  step := variableWidthMachine.step
  finished := VariableWidthColumnBuilder.finished
  contents := contents
  given := variableGiven
  finishCall := .finish
  filled := filled
  consumed s := { s with finished := true }
  complete s := s.offsets.isSome = true ∧ s.payload.isSome = true
  typeFits s := s.type.isVariableWidth = true
  kind := .variableWidth
  finishCall_of_given := variableGiven_none
  setter := setter
  finish := finish
  filled_finished s call := by cases call <;> rfl
  filled_contents := filled_contents
  consumed_finished _ := rfl
  consumed_contents _ := rfl
  consumed_complete _ h := h

end VariableWidth

/-- **COLUMN BUILDERS**: every run of a new builder gives out at most one
    column, made of what the first setters were given and well formed; what
    fails leaves the builder as it was. -/
theorem column_builders_publish_once (type : LogicalType) (rowCount : UInt64) :
    (FixedWidth.builder.PublishesOnce { type, rowCount } type rowCount
        ∧ FixedWidth.builder.FailsCleanly { type, rowCount })
      ∧ (Boolean.builder.PublishesOnce { rowCount } Boolean.type rowCount
        ∧ Boolean.builder.FailsCleanly { rowCount })
      ∧ (VariableWidth.builder.PublishesOnce { type, rowCount } type rowCount
        ∧ VariableWidth.builder.FailsCleanly { type, rowCount }) := by
  refine ⟨⟨?_, ?_⟩, ⟨?_, ?_⟩, ⟨?_, ?_⟩⟩
  · exact FixedWidth.builder.publishesOnce rfl
  · exact FixedWidth.builder.failsCleanly rfl
  · exact Boolean.builder.publishesOnce rfl
  · exact Boolean.builder.failsCleanly rfl
  · exact VariableWidth.builder.publishesOnce rfl
  · exact VariableWidth.builder.failsCleanly rfl

end ShiboriColumnBuilders
