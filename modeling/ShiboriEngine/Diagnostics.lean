import Mathlib
import ShiboriEngine.Error

/-! # Error descriptions

    An error with everything it can carry: the byte offset and the block id
    that no check of the engine attaches by itself, and the error that caused
    it.  `describe` writes a line for a chain of causes; what was not attached
    is left out of it. -/

namespace ShiboriError

/-- The name of a category in descriptions. -/
def ErrorCategory.toString : ErrorCategory → String
  | .invalidArgument => "invalid_argument"
  | .invalidData => "invalid_data"
  | .io => "io"
  | .truncated => "truncated"
  | .corrupt => "corrupt"
  | .unsupported => "unsupported"
  | .resourceLimit => "resource_limit"
  | .cancelled => "cancelled"
  | .plugin => "plugin"
  | .internal => "internal"

/-- The name of a code in descriptions. -/
def ErrorCode.toString : ErrorCode → String
  | .invalidConfiguration => "invalid_configuration"
  | .invalidState => "invalid_state"
  | .invalidResourceLimit => "invalid_resource_limit"
  | .invalidSchema => "invalid_schema"
  | .invalidBlock => "invalid_block"
  | .invalidDigestText => "invalid_digest_text"
  | .ioReadFailed => "io_read_failed"
  | .ioWriteFailed => "io_write_failed"
  | .ioNoProgress => "io_no_progress"
  | .unexpectedEnd => "unexpected_end"
  | .checksumMismatch => "checksum_mismatch"
  | .malformedContainer => "malformed_container"
  | .invalidRecord => "invalid_record"
  | .invalidMagic => "invalid_magic"
  | .unsupportedFormatVersion => "unsupported_format_version"
  | .unsupportedFeature => "unsupported_feature"
  | .missingComponent => "missing_component"
  | .limitExceeded => "limit_exceeded"
  | .allocationFailed => "allocation_failed"
  | .arithmeticOverflow => "arithmetic_overflow"
  | .rangeExceeded => "range_exceeded"
  | .operationCancelled => "operation_cancelled"
  | .pluginContractViolation => "plugin_contract_violation"
  | .pluginFailure => "plugin_failure"
  | .invariantViolation => "invariant_violation"

/-- The name of an operation in descriptions. -/
def Operation.toString : Operation → String
  | .unknown => "unknown"
  | .configure => "configure"
  | .validateSchema => "validate_schema"
  | .validateBlock => "validate_block"
  | .read => "read"
  | .write => "write"
  | .parse => "parse"
  | .encode => "encode"
  | .decode => "decode"
  | .finalize => "finalize"
  | .inspect => "inspect"
  | .verify => "verify"
  | .loadPlugin => "load_plugin"

/-- `Error::Impl` without its cause. -/
structure Context extends Error where
  byteOffset : Option UInt64 := none
  blockId : Option UInt64 := none
deriving DecidableEq, Repr

/-- `Error::Impl`: the cause is null or another error. -/
inductive Diagnostic where
  | root (context : Context)
  | caused (context : Context) (cause : Diagnostic)
deriving DecidableEq, Repr

namespace Diagnostic

/-- What an error says of itself. -/
def context : Diagnostic → Context
  | .root context => context
  | .caused context _ => context

/-- The error that led to this one. -/
def cause : Diagnostic → Option Diagnostic
  | .root _ => none
  | .caused _ cause => some cause

/-- The constructor of `Error`. -/
def create (code : ErrorCode) (operation : Operation) (message : String) :
    Diagnostic :=
  .root { code := code, operation := operation, message := message }

/-- The error with another context and the same cause. -/
def update (self : Diagnostic) (change : Context → Context) : Diagnostic :=
  match self with
  | .root context => .root (change context)
  | .caused context cause => .caused (change context) cause

/-- The error, naming an offset. -/
def withByteOffset (self : Diagnostic) (value : UInt64) : Diagnostic :=
  self.update fun context => { context with byteOffset := some value }

/-- The error, naming a block. -/
def withBlockId (self : Diagnostic) (value : UInt64) : Diagnostic :=
  self.update fun context => { context with blockId := some value }

/-- The error, naming a field. -/
def withFieldId (self : Diagnostic) (value : UInt32) : Diagnostic :=
  self.update fun context => { context with fieldId := some value }

/-- The error, naming a component. -/
def withComponentId (self : Diagnostic) (value : UInt32) : Diagnostic :=
  self.update fun context => { context with componentId := some value }

/-- The error with another as its cause; an earlier cause is gone. -/
def withCause (self value : Diagnostic) : Diagnostic :=
  .caused self.context value

end Diagnostic

/-! ## The text -/

/-- One optional number of the description. -/
def appendTag (output : String) (name : String) (value : Option Nat) :
    String :=
  match value with
  | none => output
  | some value => output ++ " [" ++ name ++ "=" ++ value.repr ++ "]"

/-- `append_description` up to the cause. -/
def appendContext (output : String) (error : Context) : String :=
  let output := output ++ error.category.toString ++ "/" ++ error.code.toString
    ++ " during " ++ error.operation.toString ++ ": " ++ error.message
  let output := appendTag output "offset" (error.byteOffset.map UInt64.toNat)
  let output := appendTag output "block" (error.blockId.map UInt64.toNat)
  let output := appendTag output "field" (error.fieldId.map UInt32.toNat)
  appendTag output "component" (error.componentId.map UInt32.toNat)

/-- The error and then its causes. -/
def appendDescription (output : String) : Diagnostic → String
  | .root context => appendContext output context
  | .caused context cause =>
      appendDescription (appendContext output context ++ "; caused by ") cause

/-- The text of an error. -/
def Diagnostic.describe (self : Diagnostic) : String :=
  appendDescription "" self

/-- One call of a `with_` function. -/
inductive Attachment where
  | byteOffset (value : UInt64)
  | blockId (value : UInt64)
  | fieldId (value : UInt32)
  | componentId (value : UInt32)
  | cause (value : Diagnostic)

/-- One `with_` call. -/
def Diagnostic.attach (self : Diagnostic) : Attachment → Diagnostic
  | .byteOffset value => self.withByteOffset value
  | .blockId value => self.withBlockId value
  | .fieldId value => self.withFieldId value
  | .componentId value => self.withComponentId value
  | .cause value => self.withCause value

end ShiboriError
