import Mathlib
import ShiboriEngine.Error

/-! # Logical types

    A kind with the parameters of its variant.  `LogicalType.create` is the
    only way to one, so a type carries the fact that its parameters passed
    `validateParameters`.  The enumerations have the source's enumerators and
    their numbers. -/

namespace ShiboriLogicalType

open ShiboriError

/-- The kinds of a logical type. -/
inductive LogicalTypeKind where
  | boolean
  | int8
  | int16
  | int32
  | int64
  | uint8
  | uint16
  | uint32
  | uint64
  | float32
  | float64
  | decimal
  | date
  | time
  | timestamp
  | duration
  | string
  | binary
  | fixedBinary
  | uuid
deriving DecidableEq, Repr

/-- The enumerator's number. -/
def LogicalTypeKind.value (kind : LogicalTypeKind) : UInt8 :=
  UInt8.ofNat kind.ctorIdx

/-- The name of a kind in messages. -/
def LogicalTypeKind.toString : LogicalTypeKind → String
  | .boolean => "bool"
  | .int8 => "int8"
  | .int16 => "int16"
  | .int32 => "int32"
  | .int64 => "int64"
  | .uint8 => "uint8"
  | .uint16 => "uint16"
  | .uint32 => "uint32"
  | .uint64 => "uint64"
  | .float32 => "float32"
  | .float64 => "float64"
  | .decimal => "decimal"
  | .date => "date"
  | .time => "time"
  | .timestamp => "timestamp"
  | .duration => "duration"
  | .string => "string"
  | .binary => "binary"
  | .fixedBinary => "fixed_binary"
  | .uuid => "uuid"

/-- The unit of a time, a timestamp or a duration. -/
inductive TimeUnit where
  | second
  | millisecond
  | microsecond
  | nanosecond
deriving DecidableEq, Repr

/-- The enumerator's value. -/
def TimeUnit.value : TimeUnit → UInt8
  | .second => 0
  | .millisecond => 1
  | .microsecond => 2
  | .nanosecond => 3

/-- Whether a timestamp is an instant or a local time. -/
inductive TimezoneMode where
  | instant
  | local'
deriving DecidableEq, Repr

/-- The enumerator's value. -/
def TimezoneMode.value : TimezoneMode → UInt8
  | .instant => 0
  | .local' => 1

/-- Whether the bytes of a string are checked. -/
inductive Utf8Validation where
  | strict
  | trusted
deriving DecidableEq, Repr

/-- The enumerator's value. -/
def Utf8Validation.value : Utf8Validation → UInt8
  | .strict => 0
  | .trusted => 1

/-- `std::variant` of the parameter structures, in its order. -/
inductive LogicalTypeParameters where
  | monostate
  | decimal (precision : UInt8) (scale : Int16)
  | time (unit : TimeUnit)
  | timestamp (unit : TimeUnit) (timezone : TimezoneMode)
  | string (validation : Utf8Validation)
  | fixedBinary (byteWidth : UInt32)
deriving DecidableEq

/-- The active alternative. -/
def LogicalTypeParameters.index : LogicalTypeParameters → UInt8
  | .monostate => 0
  | .decimal _ _ => 1
  | .time _ => 2
  | .timestamp _ _ => 3
  | .string _ => 4
  | .fixedBinary _ => 5

/-- The unit is one of the enumerators. -/
def validTimeUnit (unit : TimeUnit) : Bool :=
  unit.value ≥ TimeUnit.second.value ∧ unit.value ≤ TimeUnit.nanosecond.value

/-- The mode is one of the enumerators. -/
def validTimezone (mode : TimezoneMode) : Bool :=
  mode = .instant ∨ mode = .local'

/-- The mode is one of the enumerators. -/
def validUtf8Mode (mode : Utf8Validation) : Bool :=
  mode = .strict ∨ mode = .trusted

/-- Whether the parameters are the ones the kind takes. -/
def parametersMatch : LogicalTypeKind → LogicalTypeParameters → Bool
  | .boolean, .monostate | .int8, .monostate | .int16, .monostate
  | .int32, .monostate | .int64, .monostate | .uint8, .monostate
  | .uint16, .monostate | .uint32, .monostate | .uint64, .monostate
  | .float32, .monostate | .float64, .monostate | .date, .monostate
  | .binary, .monostate | .uuid, .monostate => true
  | .decimal, .decimal precision scale =>
      let precision : Int := precision.toNat
      1 ≤ precision ∧ precision ≤ 38
        ∧ -precision ≤ scale.toInt ∧ scale.toInt ≤ precision
  | .time, .time unit | .duration, .time unit => validTimeUnit unit
  | .timestamp, .timestamp unit timezone =>
      validTimeUnit unit && validTimezone timezone
  | .string, .string validation => validUtf8Mode validation
  | .fixedBinary, .fixedBinary byteWidth => byteWidth ≠ 0
  | _, _ => false

/-- A kind is refused with parameters that are not its own. -/
def validateParameters (kind : LogicalTypeKind)
    (parameters : LogicalTypeParameters) : Status :=
  if parametersMatch kind parameters then .ok ()
  else
    fail .invalidSchema .validateSchema
      ("invalid parameters for logical type " ++ kind.toString)

/-- A kind with the parameters it takes. -/
structure LogicalType where
  kind : LogicalTypeKind
  parameters : LogicalTypeParameters
  valid : validateParameters kind parameters = .ok ()
deriving DecidableEq

namespace LogicalType

/-- Every value of the enumeration is a known kind. -/
def create (kind : LogicalTypeKind) (parameters : LogicalTypeParameters) :
    Result LogicalType :=
  match h : validateParameters kind parameters with
  | .error error => .error error
  | .ok () => .ok ⟨kind, parameters, h⟩

/-- A type is its kind and its parameters. -/
@[ext] theorem ext {a b : LogicalType} (hkind : a.kind = b.kind)
    (hparameters : a.parameters = b.parameters) : a = b := by
  cases a
  cases b
  cases hkind
  cases hparameters
  rfl

/-- Strings and binary values have no fixed width. -/
def isVariableWidth (self : LogicalType) : Bool :=
  self.kind = .string ∨ self.kind = .binary

/-- Every type that is not variable-width. -/
def isFixedWidth (self : LogicalType) : Bool := !self.isVariableWidth

/-- The bytes of one value; zero for booleans, strings and binary values. -/
def fixedWidthBytes (self : LogicalType) : UInt32 :=
  match self.kind with
  | .boolean => 0
  | .int8 | .uint8 => 1
  | .int16 | .uint16 => 2
  | .int32 | .uint32 | .float32 | .date => 4
  | .int64 | .uint64 | .float64 | .time | .timestamp | .duration => 8
  | .decimal => 16
  | .fixedBinary =>
      match self.parameters with
      | .fixedBinary byteWidth => byteWidth
      | _ => 0
  | .uuid => 16
  | .string | .binary => 0

end LogicalType

end ShiboriLogicalType
