import Mathlib
import ShiboriEngine.Buffer
import ShiboriEngine.LogicalType

/-! # Columns

    A column is physical storage with its logical type, row count and optional
    validity bitmap.  Only the three builders make one, so a column carries the
    shape they give it; a validity carries the fact that its bitmap was
    checked.  Values are immutable, so copied and shared buffers are alike. -/

namespace ShiboriColumn

open ShiboriError ShiboriBuffer ShiboriLogicalType

/-- Bytes a column holds. -/
abbrev ByteBuffer := Buffer UInt8

/-- Where the values of a column begin and end. -/
abbrev OffsetBuffer := Buffer UInt64

/-! ## Validity -/

/-- The bits of the last byte that stand for no row. -/
def paddingMask (count : UInt64) : UInt8 :=
  0xff <<< (count % 8).toUInt8

/-- `std::popcount`. -/
def popcount (byte : UInt8) : Nat :=
  (List.range 8).countP fun bit => byte.toNat.testBit bit

/-- The checks of `Validity::from_bitmap`; gives the null count. -/
def checkBitmap (rowCount : UInt64) (bitmap : ByteBuffer) : Result UInt64 :=
  if rowCount > 18446744073709551615 - 7 then
    fail .arithmeticOverflow .validateBlock "validity bitmap size overflow"
  else if bitmap.size ≠ (rowCount + 7) / 8 then
    fail .invalidBlock .validateBlock "validity bitmap has the wrong size"
  else if rowCount % 8 ≠ 0
      ∧ ∃ back ∈ bitmap.elems.getLast?, back &&& paddingMask rowCount ≠ 0 then
    fail .invalidBlock .validateBlock "validity padding bits must be zero"
  else
    let validCount := bitmap.elems.foldl
      (fun count value => count + UInt64.ofNat (popcount value)) 0
    .ok (rowCount - validCount)

/-- A bitmap over the rows that passed its check. -/
structure Validity where
  rowCount : UInt64
  nullCount : UInt64
  bitmap : ByteBuffer
  checked : checkBitmap rowCount bitmap = .ok nullCount

/-- The bitmap with its count of nulls, or why it is refused. -/
def Validity.fromBitmap (rowCount : UInt64) (bitmap : ByteBuffer) :
    Result Validity :=
  match h : checkBitmap rowCount bitmap with
  | .error error => .error error
  | .ok nullCount => .ok ⟨rowCount, nullCount, bitmap, h⟩

/-- The bit of a row; rows outside are not valid. -/
def Validity.isValid (self : Validity) (row : UInt64) : Bool :=
  if row ≥ self.rowCount then false
  else (self.bitmap.elems.getD (row / 8).toNat 0).toNat.testBit (row % 8).toNat

/-- A bitmap in the making; `validSize` is false when its size overflows. -/
structure ValidityBuilder where
  rowCount : UInt64
  appended : UInt64 := 0
  bytes : ByteBuffer
  validSize : Bool
  finished : Bool := false

namespace ValidityBuilder

/-- A builder for so many rows, all null; a row count whose bitmap size
    overflows leaves it without bytes. -/
def create (rowCount : UInt64) : ValidityBuilder :=
  if rowCount ≤ 18446744073709551615 - 7 then
    { rowCount := rowCount
      bytes :=
        { elems := List.replicate ((rowCount + 7) / 8).toNat 0
          size_lt := by
            rw [List.length_replicate]
            exact UInt64.toNat_lt _ }
      validSize := true }
  else
    { rowCount := rowCount, bytes := .empty, validSize := false }

/-- `bytes[row / 8] |= 1 << row % 8`. -/
def markRow (bytes : ByteBuffer) (row : UInt64) : ByteBuffer where
  elems := bytes.elems.modify (row / 8).toNat
    fun byte => byte ||| (1 <<< (row % 8).toUInt8)
  size_lt := by
    rw [List.length_modify]
    exact bytes.size_lt

/-- One row more. -/
def append (self : ValidityBuilder) (valid : Bool) :
    Status × ValidityBuilder :=
  if self.finished = true ∨ self.appended ≥ self.rowCount then
    (fail .invalidState .validateBlock
      "validity builder cannot accept another row", self)
  else if self.validSize = false then
    (fail .arithmeticOverflow .validateBlock "validity bitmap size overflow",
      self)
  else
    (.ok (), { self with
      bytes := if valid then markRow self.bytes self.appended else self.bytes
      appended := self.appended + 1 })

/-- The bitmap, once every row is there. -/
def finish (self : ValidityBuilder) : Result Validity × ValidityBuilder :=
  if self.finished = true ∨ self.appended ≠ self.rowCount then
    (fail .invalidState .validateBlock
      "validity builder is incomplete or already finished", self)
  else
    (Validity.fromBitmap self.rowCount self.bytes,
      { self with finished := true })

end ValidityBuilder

/-! ## Columns -/

/-- How a column stores its values. -/
inductive ColumnStorageKind where
  | fixedWidth
  | boolean
  | variableWidth
deriving DecidableEq, Repr

/-- Types whose values have a width in bytes. -/
def isFixedStorageType (type : LogicalType) : Bool :=
  type.isFixedWidth && type.kind ≠ .boolean

/-- Which components a column of each kind has. -/
def ColumnShape (type : LogicalType) (values : Option ByteBuffer)
    (offsets : Option OffsetBuffer) (payload : Option ByteBuffer) :
    ColumnStorageKind → Prop
  | .fixedWidth =>
      isFixedStorageType type = true ∧ values.isSome = true
        ∧ offsets = none ∧ payload = none
  | .boolean =>
      type.kind = .boolean ∧ values.isSome = true
        ∧ offsets = none ∧ payload = none
  | .variableWidth =>
      type.isVariableWidth = true ∧ values = none
        ∧ offsets.isSome = true ∧ payload.isSome = true

/-- The rows of one field; the offsets and the payload are those of a
    variable-width column. -/
structure Column where
  type : LogicalType
  storageKind : ColumnStorageKind
  rowCount : UInt64
  validity : Option Validity
  values : Option ByteBuffer
  offsets : Option OffsetBuffer
  payload : Option ByteBuffer
  validity_rows : ∀ v ∈ validity, v.rowCount = rowCount
  shape : ColumnShape type values offsets payload storageKind

/-- The nulls of the bitmap; none without one. -/
def Column.nullCount (self : Column) : UInt64 :=
  match self.validity with
  | none => 0
  | some validity => validity.nullCount

/-- A bitmap must have the rows of its column. -/
def validateValidity (rowCount : UInt64) (validity : Option Validity) :
    Status :=
  if ∃ v ∈ validity, v.rowCount ≠ rowCount then
    fail .invalidBlock .validateBlock
      "validity row count does not match column row count"
  else .ok ()

/-- What the check of the row count accepts. -/
theorem validateValidity_eq_ok {rowCount : UInt64}
    {validity : Option Validity} :
    validateValidity rowCount validity = .ok ()
      ↔ ∀ v ∈ validity, v.rowCount = rowCount := by
  rw [validateValidity]
  by_cases h : ∃ v ∈ validity, v.rowCount ≠ rowCount
  · rw [if_pos h]
    obtain ⟨v, hv, hne⟩ := h
    constructor
    · intro hc
      exact (fail_ne_ok _ _ _ _ hc).elim
    · intro hall
      exact (hne (hall v hv)).elim
  · rw [if_neg h]
    refine ⟨fun _ v hv => ?_, fun _ => rfl⟩
    by_contra hne
    exact h ⟨v, hv, hne⟩

/-! ## Builders -/

/-- A setter of a builder: the slot takes one value while the builder is not
    finished. -/
def setOnce {α : Type} (finished : Bool) (slot : Option α) (value : α)
    (message : String) : Status × Option α :=
  if finished = true ∨ slot.isSome = true then
    (fail .invalidState .validateBlock message, slot)
  else (.ok (), some value)

/-- A fixed-width column under construction. -/
structure FixedWidthColumnBuilder where
  type : LogicalType
  rowCount : UInt64
  validity : Option Validity := none
  values : Option ByteBuffer := none
  finished : Bool := false

namespace FixedWidthColumnBuilder

/-- Takes the bitmap, once. -/
def setValidity (self : FixedWidthColumnBuilder) (validity : Validity) :
    Status × FixedWidthColumnBuilder :=
  let (status, slot) := setOnce self.finished self.validity validity
    "fixed-width validity is already set"
  (status, { self with validity := slot })

/-- Takes the values, once. -/
def setValues (self : FixedWidthColumnBuilder) (values : ByteBuffer) :
    Status × FixedWidthColumnBuilder :=
  let (status, slot) := setOnce self.finished self.values values
    "fixed-width values are already set"
  (status, { self with values := slot })

/-- The column, once it has its values. -/
def finish (self : FixedWidthColumnBuilder) :
    Result Column × FixedWidthColumnBuilder :=
  if h : self.finished = true ∨ self.values.isSome = false
      ∨ isFixedStorageType self.type = false then
    (fail .invalidBlock .validateBlock
      "invalid or incomplete fixed-width column", self)
  else
    let next := { self with finished := true }
    match hvalid : validateValidity self.rowCount self.validity with
    | .error error => (.error error, next)
    | .ok () =>
        (.ok { type := self.type
               storageKind := .fixedWidth
               rowCount := self.rowCount
               validity := self.validity
               values := self.values
               offsets := none
               payload := none
               validity_rows := validateValidity_eq_ok.mp hvalid
               shape := by
                 simp only [not_or, Bool.not_eq_false] at h
                 exact ⟨h.2.2, h.2.1, rfl, rfl⟩ }, next)

end FixedWidthColumnBuilder

/-- A boolean column under construction. -/
structure BooleanColumnBuilder where
  rowCount : UInt64
  validity : Option Validity := none
  values : Option ByteBuffer := none
  finished : Bool := false

namespace BooleanColumnBuilder

/-- Takes the bitmap, once. -/
def setValidity (self : BooleanColumnBuilder) (validity : Validity) :
    Status × BooleanColumnBuilder :=
  let (status, slot) := setOnce self.finished self.validity validity
    "boolean validity is already set"
  (status, { self with validity := slot })

/-- Takes the bits, once. -/
def setValues (self : BooleanColumnBuilder) (values : ByteBuffer) :
    Status × BooleanColumnBuilder :=
  let (status, slot) := setOnce self.finished self.values values
    "boolean values are already set"
  (status, { self with values := slot })

/-- The column, once it has its bits. -/
def finish (self : BooleanColumnBuilder) :
    Result Column × BooleanColumnBuilder :=
  if h : self.finished = true ∨ self.values.isSome = false then
    (fail .invalidBlock .validateBlock
      "invalid or incomplete boolean column", self)
  else
    let next := { self with finished := true }
    match hvalid : validateValidity self.rowCount self.validity with
    | .error error => (.error error, next)
    | .ok () =>
        -- `LogicalType::create` does not fail on this kind.
        (.ok { type := ⟨.boolean, .monostate, rfl⟩
               storageKind := .boolean
               rowCount := self.rowCount
               validity := self.validity
               values := self.values
               offsets := none
               payload := none
               validity_rows := validateValidity_eq_ok.mp hvalid
               shape := by
                 simp only [not_or, Bool.not_eq_false] at h
                 exact ⟨rfl, h.2, rfl, rfl⟩ }, next)

end BooleanColumnBuilder

/-- A string or binary column under construction. -/
structure VariableWidthColumnBuilder where
  type : LogicalType
  rowCount : UInt64
  validity : Option Validity := none
  offsets : Option OffsetBuffer := none
  payload : Option ByteBuffer := none
  finished : Bool := false

namespace VariableWidthColumnBuilder

/-- Takes the bitmap, once. -/
def setValidity (self : VariableWidthColumnBuilder) (validity : Validity) :
    Status × VariableWidthColumnBuilder :=
  let (status, slot) := setOnce self.finished self.validity validity
    "variable-width validity is already set"
  (status, { self with validity := slot })

/-- Takes the offsets, once. -/
def setOffsets (self : VariableWidthColumnBuilder) (offsets : OffsetBuffer) :
    Status × VariableWidthColumnBuilder :=
  let (status, slot) := setOnce self.finished self.offsets offsets
    "variable-width offsets are already set"
  (status, { self with offsets := slot })

/-- Takes the bytes of the values, once. -/
def setPayload (self : VariableWidthColumnBuilder) (payload : ByteBuffer) :
    Status × VariableWidthColumnBuilder :=
  let (status, slot) := setOnce self.finished self.payload payload
    "variable-width payload is already set"
  (status, { self with payload := slot })

/-- The column, once it has its offsets and its bytes. -/
def finish (self : VariableWidthColumnBuilder) :
    Result Column × VariableWidthColumnBuilder :=
  if h : self.finished = true ∨ self.offsets.isSome = false
      ∨ self.payload.isSome = false ∨ self.type.isVariableWidth = false then
    (fail .invalidBlock .validateBlock
      "invalid or incomplete variable-width column", self)
  else
    let next := { self with finished := true }
    match hvalid : validateValidity self.rowCount self.validity with
    | .error error => (.error error, next)
    | .ok () =>
        (.ok { type := self.type
               storageKind := .variableWidth
               rowCount := self.rowCount
               validity := self.validity
               values := none
               offsets := self.offsets
               payload := self.payload
               validity_rows := validateValidity_eq_ok.mp hvalid
               shape := by
                 simp only [not_or, Bool.not_eq_false] at h
                 exact ⟨h.2.2.2, rfl, h.2.1, h.2.2.1⟩ }, next)

end VariableWidthColumnBuilder

end ShiboriColumn
