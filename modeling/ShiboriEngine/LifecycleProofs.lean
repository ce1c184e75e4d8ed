import Mathlib
import ShiboriEngine.Library.Machine
import ShiboriEngine.Schema
import ShiboriEngine.Block
import ShiboriEngine.ValidityProofs

/-! # Use after finalization

    Seven builders keep a finished flag and test it in every call.  A call on
    a consumed builder changes nothing anywhere; what it reports is a
    lifecycle error except for one call of three builders, whose `finish`
    tests the flag together with the completeness of the column. -/

namespace ShiboriLifecycle

open ShiboriError ShiboriResource ShiboriBuffer ShiboriLogicalType
open ShiboriSchema ShiboriColumn ShiboriBlock ShiboriValidity Machine

/-! ## Runs past the end of a builder -/

section Machines

variable {σ α β : Type}

/-- What a caller is told about a builder used after its end. -/
def IsLifecycleError (error : Error) : Prop :=
  error.code = .invalidState ∧ error.category = .invalidArgument

/-- A builder as a machine: its calls, its flag and the errors of its
    replies. -/
structure BuilderMachine (σ α β : Type) where
  step : Step σ α β
  finished : σ → Bool
  errorOf : β → Option Error

/-- The call is refused as misuse and changes nothing. -/
def Refuses (machine : BuilderMachine σ α β) (s : σ) (call : α) : Prop :=
  (∃ error, machine.errorOf (machine.step s call).1 = some error
      ∧ IsLifecycleError error)
    ∧ (machine.step s call).2 = s

/-- A call made after some call of the run consumed the builder. -/
def LateCall (machine : BuilderMachine σ α β) (s : σ) (calls before : List α)
    (call : α) : Prop :=
  before ++ [call] <+: calls
    ∧ machine.finished (finalState machine.step s before) = true

/-- Every late call of the run is refused as misuse. -/
def MisuseReported (machine : BuilderMachine σ α β) (s : σ)
    (calls : List α) : Prop :=
  ∀ before call, LateCall machine s calls before call →
    Refuses machine (finalState machine.step s before) call

/-- No late call of the run is one of the given kind. -/
def NoLateCall (machine : BuilderMachine σ α β) (kind : α → Prop) (s : σ)
    (calls : List α) : Prop :=
  ∀ before call, LateCall machine s calls before call → ¬ kind call

/-- **STEP TO RUN**: what decides about one call on a consumed builder decides
    about the late calls of a run. -/
theorem misuseReported_iff {machine : BuilderMachine σ α β} {kind : α → Prop}
    (hstep : ∀ s call, machine.finished s = true →
      (Refuses machine s call ↔ ¬ kind call)) (s : σ) (calls : List α) :
    MisuseReported machine s calls ↔ NoLateCall machine kind s calls := by
  constructor
  · intro h before call hlate
    exact (hstep _ call hlate.2).mp (h before call hlate)
  · intro h before call hlate
    exact (hstep _ call hlate.2).mpr (h before call hlate)

/-- A machine without misreported calls reports all misuse. -/
theorem misuseReported_of_refuses {machine : BuilderMachine σ α β}
    (hstep : ∀ s call, machine.finished s = true → Refuses machine s call)
    (s : σ) (calls : List α) : MisuseReported machine s calls := by
  intro before call hlate
  exact hstep _ call hlate.2

end Machines

/-! ## The seven builders -/

/-- The error of a result. -/
def errorOf {γ : Type} : Result γ → Option Error
  | .ok _ => none
  | .error error => some error

/-- A status as the reply of a builder that also gives products. -/
def told {γ : Type} (status : Status) : Result (Option γ) :=
  status.map fun _ => none

/-- What a `finish` answers. -/
def made {γ : Type} (result : Result γ) : Result (Option γ) :=
  result.map some

/-- The calls of the builders of fixed-width and of boolean columns. -/
inductive ValuesCall where
  | setValidity (validity : Validity)
  | setValues (values : ByteBuffer)
  | finish

/-- A call on a variable-width builder. -/
inductive VariableCall where
  | setValidity (validity : Validity)
  | setOffsets (offsets : OffsetBuffer)
  | setPayload (payload : ByteBuffer)
  | finish

/-- A call on a field builder. -/
inductive FieldCall where
  | addMetadata (key value : Bytes)
  | finish (limits : ResourceLimits)

/-- A call on a block builder. -/
inductive BlockCall where
  | setColumn (fieldId : UInt32) (column : Column)
  | finish (limits : ResourceLimits)

/-- The validity builder. -/
def validityMachine :
    BuilderMachine ValidityBuilder ValidityCall (Result (Option Validity)) where
  step := validityStep
  finished := ValidityBuilder.finished
  errorOf := errorOf

/-- The fixed-width builder. -/
def fixedWidthMachine :
    BuilderMachine FixedWidthColumnBuilder ValuesCall
      (Result (Option Column)) where
  step builder call :=
    match call with
    | .setValidity validity => (builder.setValidity validity).map told id
    | .setValues values => (builder.setValues values).map told id
    | .finish => builder.finish.map made id
  finished := FixedWidthColumnBuilder.finished
  errorOf := errorOf

/-- The boolean builder. -/
def booleanMachine :
    BuilderMachine BooleanColumnBuilder ValuesCall
      (Result (Option Column)) where
  step builder call :=
    match call with
    | .setValidity validity => (builder.setValidity validity).map told id
    | .setValues values => (builder.setValues values).map told id
    | .finish => builder.finish.map made id
  finished := BooleanColumnBuilder.finished
  errorOf := errorOf

/-- The variable-width builder. -/
def variableWidthMachine :
    BuilderMachine VariableWidthColumnBuilder VariableCall
      (Result (Option Column)) where
  step builder call :=
    match call with
    | .setValidity validity => (builder.setValidity validity).map told id
    | .setOffsets offsets => (builder.setOffsets offsets).map told id
    | .setPayload payload => (builder.setPayload payload).map told id
    | .finish => builder.finish.map made id
  finished := VariableWidthColumnBuilder.finished
  errorOf := errorOf

/-- The field builder. -/
def fieldMachine :
    BuilderMachine FieldBuilder FieldCall (Result (Option Field)) where
  step builder call :=
    match call with
    | .addMetadata key value => (builder.addMetadata key value).map told id
    | .finish limits => (builder.finish limits).map made id
  finished := FieldBuilder.finished
  errorOf := errorOf

/-- The schema builder. -/
def schemaMachine :
    BuilderMachine SchemaBuilder SchemaCall SchemaReply where
  step := schemaBuilderStep
  finished := SchemaBuilder.finished
  errorOf
    | .done status => errorOf status
    | .built result => errorOf result

/-- The block builder. -/
def blockMachine :
    BuilderMachine BlockBuilder BlockCall (Result (Option Block)) where
  step builder call :=
    match call with
    | .setColumn fieldId column =>
        (builder.setColumn fieldId column).map told id
    | .finish limits => (builder.finish limits).map made id
  finished := BlockBuilder.finished
  errorOf := errorOf

/-! ## One call on a consumed builder -/

section Calls

variable {σ α β : Type} {machine : BuilderMachine σ α β} {s : σ} {call : α}
  {reply : β} {error : Error}

/-- A call that fails with `invalid_state` and hands the builder back. -/
theorem refuses_of_step (hstep : machine.step s call = (reply, s))
    (hreply : machine.errorOf reply = some error)
    (hcode : error.code = .invalidState) : Refuses machine s call := by
  refine ⟨⟨error, ?_, hcode, ?_⟩, ?_⟩
  · rw [hstep]
    exact hreply
  · rw [Error.category, hcode]
    rfl
  · rw [hstep]

/-- Failing with another code is not refusing. -/
theorem not_refuses_of_step (hstep : machine.step s call = (reply, s))
    (hreply : machine.errorOf reply = some error)
    (hcode : error.code ≠ .invalidState) : ¬ Refuses machine s call := by
  rintro ⟨⟨found, hfound, hlifecycle, _⟩, _⟩
  rw [hstep, hreply] at hfound
  cases hfound
  exact hcode hlifecycle

end Calls

/-- A setter of a finished builder refuses. -/
theorem setOnce_finished {α : Type} (slot : Option α) (value : α)
    (message : String) :
    setOnce true slot value message
      = (fail .invalidState .validateBlock message, slot) := by
  rw [setOnce, if_pos (Or.inl rfl)]

/-- A finished validity builder refuses every call. -/
theorem validity_refuses (builder : ValidityBuilder) (call : ValidityCall)
    (h : builder.finished = true) :
    Refuses validityMachine builder call := by
  cases call with
  | append valid =>
      have hcall : builder.append valid
          = (fail .invalidState .validateBlock
              "validity builder cannot accept another row", builder) := by
        rw [ValidityBuilder.append, if_pos (Or.inl h)]
      exact refuses_of_step (congrArg (Prod.map told id) hcall) rfl rfl
  | finish =>
      have hcall : builder.finish
          = (fail .invalidState .validateBlock
              "validity builder is incomplete or already finished",
            builder) := by
        rw [ValidityBuilder.finish, if_pos (Or.inl h)]
      exact refuses_of_step (congrArg (Prod.map made id) hcall) rfl rfl

/-- So does a finished field builder. -/
theorem field_refuses (builder : FieldBuilder) (call : FieldCall)
    (h : builder.finished = true) : Refuses fieldMachine builder call := by
  cases call with
  | addMetadata key value =>
      have hcall : builder.addMetadata key value
          = (fail .invalidState .validateSchema
              "field builder is already finished", builder) := by
        rw [FieldBuilder.addMetadata, if_pos h]
      exact refuses_of_step (congrArg (Prod.map told id) hcall) rfl rfl
  | finish limits =>
      have hcall : builder.finish limits
          = (fail .invalidState .validateSchema
              "field builder is already finished", builder) := by
        rw [FieldBuilder.finish, if_pos h]
      exact refuses_of_step (congrArg (Prod.map made id) hcall) rfl rfl

/-- So does a finished schema builder. -/
theorem schema_refuses (builder : SchemaBuilder) (call : SchemaCall)
    (h : builder.finished = true) : Refuses schemaMachine builder call := by
  cases call with
  | addField field =>
      have hcall : builder.addField field
          = (fail .invalidState .validateSchema
              "schema builder is already finished", builder) := by
        rw [SchemaBuilder.addField, if_pos h]
      exact refuses_of_step (congrArg (Prod.map SchemaReply.done id) hcall) rfl rfl
  | addMetadata key value =>
      have hcall : builder.addMetadata key value
          = (fail .invalidState .validateSchema
              "schema builder is already finished", builder) := by
        rw [SchemaBuilder.addMetadata, if_pos h]
      exact refuses_of_step (congrArg (Prod.map SchemaReply.done id) hcall) rfl rfl
  | finish limits =>
      have hcall : builder.finish limits
          = (fail .invalidState .validateSchema
              "schema builder is already finished", builder) := by
        rw [SchemaBuilder.finish, if_pos h]
      exact refuses_of_step (congrArg (Prod.map SchemaReply.built id) hcall) rfl rfl

/-- So does a finished block builder. -/
theorem block_refuses (builder : BlockBuilder) (call : BlockCall)
    (h : builder.finished = true) : Refuses blockMachine builder call := by
  cases call with
  | setColumn fieldId column =>
      have hcall : builder.setColumn fieldId column
          = (fail .invalidState .validateBlock
              "block column is already set or builder is finished",
            builder) := by
        rw [BlockBuilder.setColumn, if_pos (Or.inl h)]
      exact refuses_of_step (congrArg (Prod.map told id) hcall) rfl rfl
  | finish limits =>
      have hcall : builder.finish limits
          = (fail .invalidState .validateBlock
              "block builder is already finished", builder) := by
        rw [BlockBuilder.finish, if_pos h]
      exact refuses_of_step (congrArg (Prod.map made id) hcall) rfl rfl

/-! ## The column builders -/

/-- The setters of a consumed builder are refused as misuse, `finish` is
    not. -/
theorem fixedWidth_refuses_iff (builder : FixedWidthColumnBuilder)
    (call : ValuesCall) (h : builder.finished = true) :
    Refuses fixedWidthMachine builder call ↔ ¬ call = .finish := by
  cases call with
  | setValidity validity =>
      have hcall : builder.setValidity validity
          = (fail .invalidState .validateBlock
              "fixed-width validity is already set", builder) := by
        rw [FixedWidthColumnBuilder.setValidity, h, setOnce_finished, ← h]
      exact iff_of_true
        (refuses_of_step (congrArg (Prod.map told id) hcall) rfl rfl)
        ValuesCall.noConfusion
  | setValues values =>
      have hcall : builder.setValues values
          = (fail .invalidState .validateBlock
              "fixed-width values are already set", builder) := by
        rw [FixedWidthColumnBuilder.setValues, h, setOnce_finished, ← h]
      exact iff_of_true
        (refuses_of_step (congrArg (Prod.map told id) hcall) rfl rfl)
        ValuesCall.noConfusion
  | finish =>
      have hcall : builder.finish
          = (fail .invalidBlock .validateBlock
              "invalid or incomplete fixed-width column", builder) := by
        rw [FixedWidthColumnBuilder.finish, dif_pos (Or.inl h)]
      exact iff_of_false
        (not_refuses_of_step (congrArg (Prod.map made id) hcall) rfl
          ErrorCode.noConfusion)
        (not_not.mpr rfl)

/-- A finished boolean builder refuses its setters only. -/
theorem boolean_refuses_iff (builder : BooleanColumnBuilder)
    (call : ValuesCall) (h : builder.finished = true) :
    Refuses booleanMachine builder call ↔ ¬ call = .finish := by
  cases call with
  | setValidity validity =>
      have hcall : builder.setValidity validity
          = (fail .invalidState .validateBlock
              "boolean validity is already set", builder) := by
        rw [BooleanColumnBuilder.setValidity, h, setOnce_finished, ← h]
      exact iff_of_true
        (refuses_of_step (congrArg (Prod.map told id) hcall) rfl rfl)
        ValuesCall.noConfusion
  | setValues values =>
      have hcall : builder.setValues values
          = (fail .invalidState .validateBlock
              "boolean values are already set", builder) := by
        rw [BooleanColumnBuilder.setValues, h, setOnce_finished, ← h]
      exact iff_of_true
        (refuses_of_step (congrArg (Prod.map told id) hcall) rfl rfl)
        ValuesCall.noConfusion
  | finish =>
      have hcall : builder.finish
          = (fail .invalidBlock .validateBlock
              "invalid or incomplete boolean column", builder) := by
        rw [BooleanColumnBuilder.finish, dif_pos (Or.inl h)]
      exact iff_of_false
        (not_refuses_of_step (congrArg (Prod.map made id) hcall) rfl
          ErrorCode.noConfusion)
        (not_not.mpr rfl)

/-- So does a finished variable-width builder. -/
theorem variableWidth_refuses_iff (builder : VariableWidthColumnBuilder)
    (call : VariableCall) (h : builder.finished = true) :
    Refuses variableWidthMachine builder call ↔ ¬ call = .finish := by
  cases call with
  | setValidity validity =>
      have hcall : builder.setValidity validity
          = (fail .invalidState .validateBlock
              "variable-width validity is already set", builder) := by
        rw [VariableWidthColumnBuilder.setValidity, h, setOnce_finished, ← h]
      exact iff_of_true
        (refuses_of_step (congrArg (Prod.map told id) hcall) rfl rfl)
        VariableCall.noConfusion
  | setOffsets offsets =>
      have hcall : builder.setOffsets offsets
          = (fail .invalidState .validateBlock
              "variable-width offsets are already set", builder) := by
        rw [VariableWidthColumnBuilder.setOffsets, h, setOnce_finished, ← h]
      exact iff_of_true
        (refuses_of_step (congrArg (Prod.map told id) hcall) rfl rfl)
        VariableCall.noConfusion
  | setPayload payload =>
      have hcall : builder.setPayload payload
          = (fail .invalidState .validateBlock
              "variable-width payload is already set", builder) := by
        rw [VariableWidthColumnBuilder.setPayload, h, setOnce_finished, ← h]
      exact iff_of_true
        (refuses_of_step (congrArg (Prod.map told id) hcall) rfl rfl)
        VariableCall.noConfusion
  | finish =>
      have hcall : builder.finish
          = (fail .invalidBlock .validateBlock
              "invalid or incomplete variable-width column", builder) := by
        rw [VariableWidthColumnBuilder.finish, dif_pos (Or.inl h)]
      exact iff_of_false
        (not_refuses_of_step (congrArg (Prod.map made id) hcall) rfl
          ErrorCode.noConfusion)
        (not_not.mpr rfl)

/-! ## Runs of any builder -/

/-- Calls on one of the seven builders, in whatever state it is. -/
inductive BuilderRun where
  | validity (builder : ValidityBuilder) (calls : List ValidityCall)
  | fixedWidth (builder : FixedWidthColumnBuilder) (calls : List ValuesCall)
  | boolean (builder : BooleanColumnBuilder) (calls : List ValuesCall)
  | variableWidth (builder : VariableWidthColumnBuilder)
      (calls : List VariableCall)
  | field (builder : FieldBuilder) (calls : List FieldCall)
  | schema (builder : SchemaBuilder) (calls : List SchemaCall)
  | block (builder : BlockBuilder) (calls : List BlockCall)

namespace BuilderRun

/-- Every call on the consumed builder is refused as misuse. -/
def ReportsMisuse : BuilderRun → Prop
  | validity builder calls => MisuseReported validityMachine builder calls
  | fixedWidth builder calls => MisuseReported fixedWidthMachine builder calls
  | boolean builder calls => MisuseReported booleanMachine builder calls
  | variableWidth builder calls =>
      MisuseReported variableWidthMachine builder calls
  | field builder calls => MisuseReported fieldMachine builder calls
  | schema builder calls => MisuseReported schemaMachine builder calls
  | block builder calls => MisuseReported blockMachine builder calls

/-- A consumed column builder is not finished once more; nothing is asked of
    the other builders. -/
def FinishesColumnOnce : BuilderRun → Prop
  | fixedWidth builder calls =>
      NoLateCall fixedWidthMachine (· = .finish) builder calls
  | boolean builder calls =>
      NoLateCall booleanMachine (· = .finish) builder calls
  | variableWidth builder calls =>
      NoLateCall variableWidthMachine (· = .finish) builder calls
  | validity _ _ => True
  | field _ _ => True
  | schema _ _ => True
  | block _ _ => True

end BuilderRun

/-- **USE AFTER FINALIZATION** is reported as misuse and changes nothing in
    every run of four builders, and in exactly those runs of the three column
    builders that do not finish a consumed builder once more. -/
theorem use_after_finish_iff (run : BuilderRun) :
    run.ReportsMisuse ↔ run.FinishesColumnOnce := by
  cases run with
  | validity builder calls =>
      exact iff_of_true
        (misuseReported_of_refuses validity_refuses builder calls) trivial
  | fixedWidth builder calls =>
      exact misuseReported_iff fixedWidth_refuses_iff builder calls
  | boolean builder calls =>
      exact misuseReported_iff boolean_refuses_iff builder calls
  | variableWidth builder calls =>
      exact misuseReported_iff variableWidth_refuses_iff builder calls
  | field builder calls =>
      exact iff_of_true
        (misuseReported_of_refuses field_refuses builder calls) trivial
  | schema builder calls =>
      exact iff_of_true
        (misuseReported_of_refuses schema_refuses builder calls) trivial
  | block builder calls =>
      exact iff_of_true
        (misuseReported_of_refuses block_refuses builder calls) trivial

/-- The values of no rows, then `finish` twice. -/
def finishedTwice : List ValuesCall :=
  [.setValues .empty, .finish, .finish]

/-- A boolean column finished twice is reported as an invalid block. -/
theorem finish_twice_reports_invalid_block :
    ¬ (BuilderRun.boolean { rowCount := 0 } finishedTwice).ReportsMisuse := by
  intro h
  have hlate : LateCall booleanMachine { rowCount := 0 } finishedTwice
      [.setValues .empty, .finish] .finish :=
    ⟨List.prefix_refl _, rfl⟩
  obtain ⟨⟨error, hreply, hcode, _⟩, _⟩ := h _ _ hlate
  have hblock : error.code = .invalidBlock := by
    cases hreply
    rfl
  rw [hblock] at hcode
  cases hcode

end ShiboriLifecycle
