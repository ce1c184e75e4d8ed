import Mathlib
import ShiboriEngine.Library.Dense
import ShiboriEngine.ValidityProofs
import ShiboriEngine.BlockAccessProofs

/-! # Tables

    What the columns of a block are for: every row of a field has a cell, a
    value or null.  A column stores its valid rows as bits and its values
    without gaps; `cells` reads the rows back.  A table is a list of cells for
    every field of a schema, all of one length and each of the field's type. -/

namespace ShiboriTable

open ShiboriLogicalType ShiboriSchema ShiboriColumn ShiboriColumnFacts
open ShiboriBlock ShiboriBlockAccess Bitmap Spans Dense
open Utf8 (WellFormed)

/-! ## Values -/

/-- A value of the boolean type is a bit, one of any other type is its
    bytes. -/
inductive Value where
  | bit (value : Bool)
  | bytes (value : List UInt8)
deriving DecidableEq, Repr

/-- A value or null. -/
abbrev Cell := Option Value

namespace Value

/-- The bit of a boolean. -/
def toBit : Value → Bool
  | .bit value => value
  | .bytes _ => false

/-- The bytes of any other value. -/
def toBytes : Value → List UInt8
  | .bit _ => []
  | .bytes value => value

end Value

/-- The storage of the columns of a type. -/
def storageOf (type : LogicalType) : ColumnStorageKind :=
  if type.kind = .boolean then .boolean
  else if type.isVariableWidth then .variableWidth
  else .fixedWidth

/-- A bit of the boolean type; bytes of the type's width, and in UTF-8 where
    the type is strict. Nothing is asked of what the bytes of a decimal, a
    date or a time say. -/
def Value.HasType (type : LogicalType) : Value → Prop
  | .bit _ => storageOf type = .boolean
  | .bytes data =>
      storageOf type ≠ .boolean
        ∧ (storageOf type = .fixedWidth →
            data.length = type.fixedWidthBytes.toNat)
        ∧ (isStrictString type = true → WellFormed data)

/-- The record limit binds strings and binary values; a value of any other
    type is within every limit. -/
def Value.Within (type : LogicalType) (limit : Nat) (value : Value) : Prop :=
  storageOf type = .variableWidth → value.toBytes.length ≤ limit

/-! ## The cells of a column -/

/-- What `is_valid` answers for a row; without a bitmap every row is valid. -/
def rowIsValid (column : Column) (row : UInt64) : Bool :=
  match column.validity with
  | none => true
  | some validity => validity.isValid row

/-- Which rows have a value. -/
def validRows (column : Column) : List Bool :=
  (List.range column.rowCount.toNat).map fun row =>
    rowIsValid column (UInt64.ofNat row)

/-- The number of rows that have a value. -/
def denseCount (column : Column) : Nat :=
  column.rowCount.toNat - column.nullCount.toNat

/-- The values a column stores, without gaps. -/
def denseValues (column : Column) : List Value :=
  match column.storageKind, column.values, column.offsets, column.payload with
  | .fixedWidth, some values, _, _ =>
      (chunks column.type.fixedWidthBytes.toNat (denseCount column)
        values.elems).map .bytes
  | .boolean, some values, _, _ =>
      (readBits values.elems (denseCount column)).map .bit
  | .variableWidth, _, some offsets, some payload =>
      (slices offsets payload).map .bytes
  | _, _, _, _ => []

/-- The cells of a column, row by row. -/
def cells (column : Column) : List Cell :=
  scatter (validRows column) (denseValues column)

/-! ## Tables -/

/-- What the cells of a field must satisfy. -/
structure Admits (field : Field) (cells : List Cell) : Prop where
  typed : ∀ value ∈ cells.reduceOption, value.HasType field.type
  nullable : field.nullable = false → none ∉ cells

/-- Cells for every field of a schema, rectangular and of the fields' types.
    -/
structure Table where
  schema : Schema
  rowCount : Nat
  columns : List (List Cell)
  admitted : List.Forall₂ Admits schema.fields columns
  rectangular : ∀ cells ∈ columns, cells.length = rowCount

/-- The block stores the table. -/
structure Denotes (block : Block) (table : Table) : Prop where
  schema : block.schema = table.schema
  rowCount : block.rowCount.toNat = table.rowCount
  columns : block.columns.map cells = table.columns

/-! ## Sizes -/

/-- The bytes of the values of a type, one after another. -/
def valueBytes (type : LogicalType) (values : List Value) : Nat :=
  match storageOf type with
  | .fixedWidth => values.length * type.fixedWidthBytes.toNat
  | .boolean => bitmapBytes values.length
  | .variableWidth =>
      8 * (values.length + 1) + (values.map Value.toBytes).flatten.length

/-- The bytes of the cells of a type, with a bitmap only where there is a
    null. -/
def cellBytes (type : LogicalType) (cells : List Cell) : Nat :=
  (if none ∈ cells then bitmapBytes cells.length else 0)
    + valueBytes type cells.reduceOption

/-- The bytes of all columns. -/
def tableBytes (table : Table) : Nat :=
  (List.zipWith (fun field cells => cellBytes field.type cells)
    table.schema.fields table.columns).sum

/-- The counts of bits that the size computations can represent. -/
def Countable (type : LogicalType) (cells : List Cell) : Prop :=
  (none ∈ cells → cells.length + 7 < 2 ^ 64)
    ∧ (storageOf type = .boolean →
        cells.reduceOption.length + 7 < 2 ^ 64)

end ShiboriTable
