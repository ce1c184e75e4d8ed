import Mathlib
import ShiboriEngine.Library.Spans
import ShiboriEngine.Library.Machine
import ShiboriEngine.Resource
import ShiboriEngine.Utf8
import ShiboriEngine.Schema
import ShiboriEngine.Column

/-! # Blocks

    A block builder collects one column for each field of its schema and
    validates all of them, in schema order, when it finishes; the decoded bytes
    of the columns add up against the limit as it goes. -/

namespace ShiboriBlock

open ShiboriError ShiboriResource ShiboriBuffer ShiboriLogicalType
open ShiboriSchema ShiboriColumn Spans

/-- An error that names the field of a column. -/
def invalidColumn {α : Type} (fieldId : UInt32) (message : String) :
    Result α :=
  .error (Error.withFieldId
    { code := .invalidBlock, operation := .validateBlock, message := message }
    fieldId)

/-- The copy of the UTF-8 scan over bytes. -/
def validUtf8 (bytes : List UInt8) : Bool := ShiboriUtf8.validUtf8 bytes

/-! ## One column -/

/-- Gives the new total. -/
def addDecodedBytes (amount limit total : UInt64) : Result UInt64 := do
  let total ← checkedAdd total amount .validateBlock "decoded block bytes"
  if total > limit then
    fail .limitExceeded .validateBlock
      "decoded block bytes exceed the configured limit"
  else .ok total

/-- The values have the bytes of the valid rows. -/
def validateFixed (field : Field) (column : Column) (denseCount : UInt64)
    (limits : ResourceLimits) (decodedBytes : UInt64) : Result UInt64 := do
  let width := column.type.fixedWidthBytes.toUInt64
  let expected ← checkedMultiply denseCount width .validateBlock
    "fixed-width column bytes"
  if ¬ ∃ values ∈ column.values, values.size = expected then
    invalidColumn field.id
      "fixed-width value bytes do not match the dense value count"
  else addDecodedBytes expected limits.maximumDecodedBlockBytes decodedBytes

/-- The bits have the bytes of the valid rows, and the tail is zero. -/
def validateBoolean (field : Field) (column : Column) (denseCount : UInt64)
    (limits : ResourceLimits) (decodedBytes : UInt64) : Result UInt64 :=
  if denseCount > u64Max - 7 then
    invalidColumn field.id "boolean bitmap size overflow"
  else
    let expected := (denseCount + 7) / 8
    match column.values with
    | none =>
        invalidColumn field.id
          "boolean value bitmap does not match the dense value count"
    | some values =>
        if values.size ≠ expected then
          invalidColumn field.id
            "boolean value bitmap does not match the dense value count"
        else if denseCount % 8 ≠ 0 ∧ expected ≠ 0
            ∧ ∃ back ∈ values.elems.getLast?,
              back &&& paddingMask denseCount ≠ 0 then
          invalidColumn field.id "boolean value padding bits must be zero"
        else
          addDecodedBytes expected limits.maximumDecodedBlockBytes
            decodedBytes

/-- The loop over neighbouring offsets. -/
def checkOffsets (fieldId : UInt32) (limits : ResourceLimits) :
    List UInt64 → Status
  | previous :: next :: offsets =>
      if next < previous then
        invalidColumn fieldId
          "variable offsets must be monotonically non-decreasing"
      else if next - previous > limits.maximumRecordBytes then
        invalidColumn fieldId
          "variable value exceeds the configured record limit"
      else checkOffsets fieldId limits (next :: offsets)
  | _ => .ok ()

/-- The loop over the values of a strict string column. -/
def checkStrings (fieldId : UInt32) (payload : List UInt8) :
    List UInt64 → Status
  | previous :: next :: offsets =>
      if validUtf8 (subspan payload previous.toNat (next - previous).toNat)
          = false then
        invalidColumn fieldId "strict string column contains invalid UTF-8"
      else checkStrings fieldId payload (next :: offsets)
  | _ => .ok ()

/-- Strings whose bytes are checked. -/
def isStrictString (type : LogicalType) : Bool :=
  type.kind = .string ∧ type.parameters = .string .strict

/-- The offsets delimit the values, which keep to the limits and to UTF-8. -/
def validateVariable (field : Field) (column : Column) (denseCount : UInt64)
    (limits : ResourceLimits) (decodedBytes : UInt64) : Result UInt64 :=
  if denseCount = u64Max then
    invalidColumn field.id "variable offset count overflow"
  else
    let expectedCount := denseCount + 1
    match column.offsets, column.payload with
    | some offsets, some payload =>
        if offsets.size ≠ expectedCount then
          invalidColumn field.id
            "variable-width physical components do not match the dense count"
        else if offsets.elems.head? ≠ some 0 then
          invalidColumn field.id "variable offsets must begin at zero"
        else do
          checkOffsets field.id limits offsets.elems
          if offsets.elems.getLast? ≠ some payload.size then
            invalidColumn field.id
              "final variable offset must equal the payload size"
          else do
            let offsetBytes ← checkedMultiply expectedCount 8 .validateBlock
              "variable offset bytes"
            let decodedBytes ← addDecodedBytes offsetBytes
              limits.maximumDecodedBlockBytes decodedBytes
            let decodedBytes ← addDecodedBytes payload.size
              limits.maximumDecodedBlockBytes decodedBytes
            if isStrictString column.type then
              checkStrings field.id payload.elems offsets.elems
            .ok decodedBytes
    | _, _ =>
        invalidColumn field.id
          "variable-width physical components do not match the dense count"

/-- Adds the validity bitmap, if there is one. -/
def addValidityBytes (column : Column) (limits : ResourceLimits)
    (decodedBytes : UInt64) : Result UInt64 :=
  match column.validity with
  | none => .ok decodedBytes
  | some validity =>
      addDecodedBytes validity.bitmap.size limits.maximumDecodedBlockBytes
        decodedBytes

/-- The switch of `validate_column` over the storage kinds. -/
def validateStorage (field : Field) (column : Column) (denseCount : UInt64)
    (limits : ResourceLimits) (decodedBytes : UInt64) : Result UInt64 :=
  match column.storageKind with
  | .fixedWidth => validateFixed field column denseCount limits decodedBytes
  | .boolean =>
      if field.type.kind ≠ .boolean then
        invalidColumn field.id
          "boolean storage requires the boolean logical type"
      else validateBoolean field column denseCount limits decodedBytes
  | .variableWidth =>
      validateVariable field column denseCount limits decodedBytes

/-- The column fits the row count, the field, and its own storage. -/
def validateColumn (field : Field) (column : Column) (rowCount : UInt64)
    (limits : ResourceLimits) (decodedBytes : UInt64) : Result UInt64 :=
  if column.rowCount ≠ rowCount then
    invalidColumn field.id "column row count does not match the block"
  else if column.type ≠ field.type then
    invalidColumn field.id
      "column logical type does not match the schema field"
  else if field.nullable = false ∧ column.validity.isSome = true then
    invalidColumn field.id
      "non-nullable field must omit the validity bitmap"
  else if column.nullCount > rowCount then
    invalidColumn field.id "column null count exceeds row count"
  else do
    let decodedBytes ← addValidityBytes column limits decodedBytes
    validateStorage field column (rowCount - column.nullCount) limits
      decodedBytes

/-! ## Blocks -/

/-- A finished block: one column for every field, in their order. -/
structure Block where
  schema : Schema
  id : UInt64
  rowCount : UInt64
  columns : List Column

/-! ### Access

    The outer option of a result is `none` where the source would leave a
    vector, follow a null pointer or take a span out of bounds. -/

namespace Block

/-- `Block::find_column`; `some none` is the null pointer. -/
def findColumn (self : Block) (fieldId : UInt32) : Option (Option Column) :=
  match self.schema.fields.findIdx? (·.id = fieldId) with
  | none => some none
  | some index => self.columns[index]?.map some

/-- What a selection that does not exist fails with. -/
def outsideColumn : Result (List UInt8) :=
  fail .invalidConfiguration .validateBlock
    "variable value selection is outside the validated column"

/-- `std::span::subspan`. -/
def checkedSubspan (bytes : List UInt8) (offset count : UInt64) :
    Option (List UInt8) :=
  if offset.toNat ≤ bytes.length
      ∧ count.toNat ≤ bytes.length - offset.toNat then
    some (subspan bytes offset.toNat count.toNat)
  else none

/-- One value of a string or binary column; none is undefined behaviour. -/
def variableValue (self : Block) (fieldId : UInt32) (denseIndex : UInt64) :
    Option (Result (List UInt8)) := do
  match ← self.findColumn fieldId with
  | none => some outsideColumn
  | some selected =>
      if selected.storageKind ≠ .variableWidth then some outsideColumn
      else do
        let offsets ← selected.offsets
        if denseIndex ≥ offsets.size - 1 then some outsideColumn
        else do
          let first ← offsets.elems[denseIndex.toNat]?
          let last ← offsets.elems[(denseIndex + 1).toNat]?
          let payload ← selected.payload
          let value ← checkedSubspan payload.elems first (last - first)
          some (.ok value)

end Block

/-- A block under construction. -/
structure BlockBuilder where
  schema : Schema
  id : UInt64
  rowCount : UInt64
  columns : Std.ExtTreeMap UInt32 Column compare := ∅
  finished : Bool := false

/-- A builder with no columns. -/
def newBuilder (schema : Schema) (id rowCount : UInt64) : BlockBuilder where
  schema := schema
  id := id
  rowCount := rowCount

/-- The loop of `BlockBuilder::finish` over the fields; gives the columns in
    schema order. -/
def validateColumns (columns : Std.ExtTreeMap UInt32 Column compare)
    (rowCount : UInt64) (limits : ResourceLimits) :
    List Field → UInt64 → List Column → Result (List Column)
  | [], _, ordered => .ok ordered
  | field :: fields, decodedBytes, ordered =>
      match columns[field.id]? with
      | none => invalidColumn field.id "schema field has no block column"
      | some column => do
          let decodedBytes ← validateColumn field column rowCount limits
            decodedBytes
          validateColumns columns rowCount limits fields decodedBytes
            (ordered ++ [column])

namespace BlockBuilder

/-- Takes the column of a field, once. -/
def setColumn (self : BlockBuilder) (fieldId : UInt32) (column : Column) :
    Status × BlockBuilder :=
  if self.finished = true ∨ fieldId ∈ self.columns then
    (fail .invalidState .validateBlock
      "block column is already set or builder is finished", self)
  else if (self.schema.findField fieldId).isNone then
    (invalidColumn fieldId "column field ID is absent from schema", self)
  else
    (.ok (), { self with columns := self.columns.insert fieldId column })

/-- Everything `finish` checks, once the builder is not finished. -/
def validate (self : BlockBuilder) (limits : ResourceLimits) :
    Result (List Column) := do
  validateResourceLimits limits
  if self.rowCount = 0 then
    fail .invalidBlock .validateBlock
      "empty blocks are not accepted by the standard builder"
  else if self.rowCount > limits.maximumBlockRows then
    fail .limitExceeded .validateBlock
      "block row count exceeds the configured limit"
  else if self.columns.size ≠ self.schema.fieldCount then
    fail .invalidBlock .validateBlock
      "block must contain exactly one column for each schema field"
  else
    validateColumns self.columns self.rowCount limits self.schema.fields 0 []

/-- The block, once; its checks in the order of the source. -/
def finish (self : BlockBuilder) (limits : ResourceLimits) :
    Result Block × BlockBuilder :=
  if self.finished then
    (fail .invalidState .validateBlock "block builder is already finished",
      self)
  else
    let self := { self with finished := true }
    match self.validate limits with
    | .error error => (.error error, self)
    | .ok ordered =>
        (.ok { schema := self.schema, id := self.id
               rowCount := self.rowCount, columns := ordered }, self)

end BlockBuilder

/-- A call of `set_column`. -/
structure ColumnCall where
  fieldId : UInt32
  column : Column

/-- Setting columns as a machine. -/
def setColumnStep : Machine.Step BlockBuilder ColumnCall Status
  | self, call => self.setColumn call.fieldId call.column

end ShiboriBlock
