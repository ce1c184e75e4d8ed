import Mathlib

/-! # Typed errors and the result type

    Every public operation of the engine returns `Result`: a value, or an
    error with a stable code, the operation that failed and a message.  The
    category of a code is read off its numeric range.  Byte offsets, block
    ids and nested causes are attached by no function modelled here. -/

namespace ShiboriError

/-- The family a code belongs to. -/
inductive ErrorCategory where
  | invalidArgument
  | invalidData
  | io
  | truncated
  | corrupt
  | unsupported
  | resourceLimit
  | cancelled
  | plugin
  | internal
deriving DecidableEq, Repr

/-- What went wrong. -/
inductive ErrorCode where
  | invalidConfiguration
  | invalidState
  | invalidResourceLimit
  | invalidSchema
  | invalidBlock
  | invalidDigestText
  | ioReadFailed
  | ioWriteFailed
  | ioNoProgress
  | unexpectedEnd
  | checksumMismatch
  | malformedContainer
  | invalidRecord
  | invalidMagic
  | unsupportedFormatVersion
  | unsupportedFeature
  | missingComponent
  | limitExceeded
  | allocationFailed
  | arithmeticOverflow
  | rangeExceeded
  | operationCancelled
  | pluginContractViolation
  | pluginFailure
  | invariantViolation
deriving DecidableEq, Repr

/-- The stable number of a code. -/
def ErrorCode.value : ErrorCode → Nat
  | .invalidConfiguration => 1000
  | .invalidState => 1001
  | .invalidResourceLimit => 1002
  | .invalidSchema => 2000
  | .invalidBlock => 2001
  | .invalidDigestText => 2002
  | .ioReadFailed => 3000
  | .ioWriteFailed => 3001
  | .ioNoProgress => 3002
  | .unexpectedEnd => 4000
  | .checksumMismatch => 5000
  | .malformedContainer => 5001
  | .invalidRecord => 5002
  | .invalidMagic => 5003
  | .unsupportedFormatVersion => 6000
  | .unsupportedFeature => 6001
  | .missingComponent => 6002
  | .limitExceeded => 7000
  | .allocationFailed => 7001
  | .arithmeticOverflow => 7002
  | .rangeExceeded => 7003
  | .operationCancelled => 8000
  | .pluginContractViolation => 9000
  | .pluginFailure => 9001
  | .invariantViolation => 10000

/-- The category of a code, by its numeric range. -/
def categoryFor (code : ErrorCode) : ErrorCategory :=
  let value := code.value
  if value < 2000 then .invalidArgument
  else if value < 3000 then .invalidData
  else if value < 4000 then .io
  else if value < 5000 then .truncated
  else if value < 6000 then .corrupt
  else if value < 7000 then .unsupported
  else if value < 8000 then .resourceLimit
  else if value < 9000 then .cancelled
  else if value < 10000 then .plugin
  else .internal

/-- What was being done when it went wrong. -/
inductive Operation where
  | unknown
  | configure
  | validateSchema
  | validateBlock
  | read
  | write
  | parse
  | encode
  | decode
  | finalize
  | inspect
  | verify
  | loadPlugin
deriving DecidableEq, Repr

/-- A typed error: its code and operation, the message, and the field and
    component it names. -/
structure Error where
  code : ErrorCode
  operation : Operation
  message : String
  fieldId : Option UInt32 := none
  componentId : Option UInt32 := none
deriving DecidableEq, Repr

/-- The category of the error's code. -/
def Error.category (error : Error) : ErrorCategory :=
  categoryFor error.code

/-- The error, naming a field. -/
def Error.withFieldId (error : Error) (value : UInt32) : Error :=
  { error with fieldId := some value }

/-- The error, naming a component. -/
def Error.withComponentId (error : Error) (value : UInt32) : Error :=
  { error with componentId := some value }

/-- A value or an error. -/
abbrev Result (α : Type) := Except Error α

/-- Success or an error. -/
abbrev Status := Result Unit

/-- An error that names no field and no component. -/
def fail {α : Type} (code : ErrorCode) (operation : Operation)
    (message : String) : Result α :=
  .error { code := code, operation := operation, message := message }

/-- The error code a result carries, if it failed. -/
def codeOf {α : Type} : Result α → Option ErrorCode
  | .ok _ => none
  | .error e => some e.code

/-- A success has no code. -/
@[simp] theorem codeOf_ok {α : Type} (a : α) :
    codeOf (.ok a : Result α) = none := rfl

/-- A failure has the code of its error. -/
@[simp] theorem codeOf_error {α : Type} (e : Error) :
    codeOf (.error e : Result α) = some e.code := rfl

/-- `fail` fails with the code it is given. -/
@[simp] theorem codeOf_fail {α : Type} (code : ErrorCode)
    (operation : Operation) (message : String) :
    codeOf (fail code operation message : Result α) = some code := rfl

/-- `fail` never succeeds. -/
@[simp] theorem fail_ne_ok {α : Type} (code : ErrorCode)
    (operation : Operation) (message : String) (a : α) :
    (fail code operation message : Result α) ≠ .ok a :=
  fun h => nomatch h

/-- A success goes on with its value. -/
@[simp] theorem ok_bind {α β : Type} (a : α) (f : α → Result β) :
    ((.ok a : Result α) >>= f) = f a := rfl

/-- A failure skips what follows. -/
@[simp] theorem error_bind {α β : Type} (e : Error) (f : α → Result β) :
    ((.error e : Result α) >>= f) = .error e := rfl

/-- Returning what was computed changes nothing. -/
theorem bind_ok {α : Type} (x : Result α) : (x >>= fun a => .ok a) = x := by
  cases x with
  | error e => rfl
  | ok a => rfl

/-- A bind succeeds exactly when both halves do. -/
theorem bind_eq_ok {α β : Type} {x : Result α} {f : α → Result β} {b : β} :
    (x >>= f) = .ok b ↔ ∃ a, x = .ok a ∧ f a = .ok b := by
  cases x with
  | error e => exact ⟨fun h => (nomatch h), fun ⟨_, h, _⟩ => (nomatch h)⟩
  | ok a =>
      constructor
      · intro h
        exact ⟨a, rfl, h⟩
      · rintro ⟨a', ha, hf⟩
        cases ha
        exact hf

end ShiboriError
