import Mathlib
import ShiboriEngine.ColumnProofs
import ShiboriEngine.Block

/-! # The shape of columns

    Every column has the components of its storage kind, a type of that kind
    and a validity of its own rows.  So the tests of block validation for
    missing components, excessive nulls and mismatched storage never fire. -/

namespace ShiboriColumnShape

open ShiboriError ShiboriResource ShiboriLogicalType
open ShiboriSchema ShiboriColumn ShiboriColumnFacts ShiboriBlock Words

/-! ## Well-formed columns -/

/-- What every column that a builder gives out satisfies. -/
structure WellFormed (column : Column) : Prop where
  validity_rows : ∀ v ∈ column.validity, v.rowCount = column.rowCount
  nullCount_le : column.nullCount ≤ column.rowCount
  fixedWidth : column.storageKind = .fixedWidth →
    column.type.isFixedWidth = true ∧ column.type.kind ≠ .boolean
      ∧ 0 < column.type.fixedWidthBytes ∧ column.values.isSome = true
      ∧ column.offsets = none ∧ column.payload = none
  boolean : column.storageKind = .boolean →
    column.type.kind = .boolean ∧ column.values.isSome = true
      ∧ column.offsets = none ∧ column.payload = none
  variableWidth : column.storageKind = .variableWidth →
    (column.type.kind = .string ∨ column.type.kind = .binary)
      ∧ column.values = none ∧ column.offsets.isSome = true
      ∧ column.payload.isSome = true

/-- The width of a fixed binary type was checked when the type was made. -/
theorem fixedBinary_width {type : LogicalType}
    (h : type.kind = .fixedBinary) :
    ∃ byteWidth, type.parameters = .fixedBinary byteWidth
      ∧ byteWidth ≠ 0 := by
  have hvalid := type.valid
  rw [validateParameters, h] at hvalid
  cases hparameters : type.parameters with
  | fixedBinary byteWidth =>
      refine ⟨byteWidth, rfl, ?_⟩
      rintro rfl
      rw [hparameters] at hvalid
      exact fail_ne_ok _ _ _ _ hvalid
  | _ =>
      rw [hparameters] at hvalid
      exact (fail_ne_ok _ _ _ _ hvalid).elim

/-- **WIDTHS** of stored types are positive. -/
theorem fixedWidthBytes_pos {type : LogicalType}
    (h : isFixedStorageType type = true) : 0 < type.fixedWidthBytes := by
  rw [isFixedStorageType, LogicalType.isFixedWidth,
    LogicalType.isVariableWidth] at h
  rw [LogicalType.fixedWidthBytes]
  cases hkind : type.kind with
  | fixedBinary =>
      obtain ⟨byteWidth, hparameters, hne⟩ := fixedBinary_width hkind
      rw [hparameters]
      exact UInt32.pos_iff_ne_zero.mpr hne
  | boolean =>
      rw [hkind] at h
      exact nomatch h
  | string =>
      rw [hkind] at h
      exact nomatch h
  | binary =>
      rw [hkind] at h
      exact nomatch h
  | _ => exact of_decide_eq_true rfl

/-- The variable-width types. -/
theorem isVariableWidth_iff {type : LogicalType} :
    type.isVariableWidth = true ↔ type.kind = .string ∨ type.kind = .binary := by
  rw [LogicalType.isVariableWidth, decide_eq_true_iff]

/-- The types with fixed storage. -/
theorem isFixedStorageType_iff {type : LogicalType} :
    isFixedStorageType type = true
      ↔ type.isFixedWidth = true ∧ type.kind ≠ .boolean := by
  rw [isFixedStorageType, Bool.and_eq_true, decide_eq_true_iff]

/-- **EVERY COLUMN** is well formed; only the builders make one. -/
theorem wellFormed (column : Column) : WellFormed column where
  validity_rows := column.validity_rows
  nullCount_le := nullCount_le column
  fixedWidth hkind := by
    have hshape := column.shape
    rw [hkind] at hshape
    obtain ⟨htype, hvalues, hoffsets, hpayload⟩ := hshape
    obtain ⟨hfixed, hboolean⟩ := isFixedStorageType_iff.mp htype
    exact ⟨hfixed, hboolean, fixedWidthBytes_pos htype, hvalues, hoffsets,
      hpayload⟩
  boolean hkind := by
    have hshape := column.shape
    rw [hkind] at hshape
    exact hshape
  variableWidth hkind := by
    have hshape := column.shape
    rw [hkind] at hshape
    obtain ⟨htype, hvalues, hoffsets, hpayload⟩ := hshape
    exact ⟨isVariableWidth_iff.mp htype, hvalues, hoffsets, hpayload⟩

/-! ## Rejections that never happen

    The functions of block validation with the results of five branches left
    open: the null count test, the storage kind test and the tests of the
    three storage kinds for missing components.  Where none of these branches
    is taken they go on as block validation does. -/

/-- What the branches return. -/
structure Rejections where
  nullCount : Result UInt64
  storageKind : Result UInt64
  fixedValues : Result UInt64
  booleanValues : Result UInt64
  variableComponents : Result UInt64

/-- `validate_fixed` with its rejections as parameters. -/
def validateFixedOr (rejections : Rejections) (field : Field) (column : Column)
    (denseCount : UInt64) (limits : ResourceLimits) (decodedBytes : UInt64) :
    Result UInt64 := do
  let width := column.type.fixedWidthBytes.toUInt64
  let _ ← checkedMultiply denseCount width .validateBlock
    "fixed-width column bytes"
  if column.values.isNone then rejections.fixedValues
  else validateFixed field column denseCount limits decodedBytes

/-- `validate_boolean` with its rejections as parameters. -/
def validateBooleanOr (rejections : Rejections) (field : Field)
    (column : Column) (denseCount : UInt64) (limits : ResourceLimits)
    (decodedBytes : UInt64) : Result UInt64 :=
  if denseCount > u64Max - 7 then
    invalidColumn field.id "boolean bitmap size overflow"
  else if column.values.isNone then rejections.booleanValues
  else validateBoolean field column denseCount limits decodedBytes

/-- `validate_variable` with its rejections as parameters. -/
def validateVariableOr (rejections : Rejections) (field : Field)
    (column : Column) (denseCount : UInt64) (limits : ResourceLimits)
    (decodedBytes : UInt64) : Result UInt64 :=
  if denseCount = u64Max then
    invalidColumn field.id "variable offset count overflow"
  else if column.offsets.isNone ∨ column.payload.isNone then
    rejections.variableComponents
  else validateVariable field column denseCount limits decodedBytes

/-- The choice of the storage check, with its rejections as parameters. -/
def validateStorageOr (rejections : Rejections) (field : Field)
    (column : Column) (denseCount : UInt64) (limits : ResourceLimits)
    (decodedBytes : UInt64) : Result UInt64 :=
  match column.storageKind with
  | .fixedWidth =>
      validateFixedOr rejections field column denseCount limits decodedBytes
  | .boolean =>
      if field.type.kind ≠ .boolean then rejections.storageKind
      else
        validateBooleanOr rejections field column denseCount limits
          decodedBytes
  | .variableWidth =>
      validateVariableOr rejections field column denseCount limits
        decodedBytes

/-- `validate_column` with its rejections as parameters. -/
def validateColumnOr (rejections : Rejections) (field : Field)
    (column : Column) (rowCount : UInt64) (limits : ResourceLimits)
    (decodedBytes : UInt64) : Result UInt64 :=
  if column.rowCount ≠ rowCount then
    invalidColumn field.id "column row count does not match the block"
  else if column.type ≠ field.type then
    invalidColumn field.id
      "column logical type does not match the schema field"
  else if field.nullable = false ∧ column.validity.isSome = true then
    invalidColumn field.id
      "non-nullable field must omit the validity bitmap"
  else if column.nullCount > rowCount then rejections.nullCount
  else do
    let decodedBytes ← addValidityBytes column limits decodedBytes
    validateStorageOr rejections field column (rowCount - column.nullCount)
      limits decodedBytes

section Branches

variable {column : Column} (rejections : Rejections) (field : Field)
  (denseCount : UInt64) (limits : ResourceLimits) (decodedBytes : UInt64)

/-- What is there is not missing. -/
theorem isNone_of_isSome {α : Type} {x : Option α} (h : x.isSome = true) :
    ¬ x.isNone = true := by
  rw [Option.isNone_iff_eq_none]
  rintro rfl
  exact nomatch h

/-- With values the rejections do not matter. -/
theorem validateFixedOr_eq (h : column.values.isSome = true) :
    validateFixedOr rejections field column denseCount limits decodedBytes
      = validateFixed field column denseCount limits decodedBytes := by
  rw [validateFixedOr, if_neg (isNone_of_isSome h)]
  cases hexpected : checkedMultiply denseCount
      column.type.fixedWidthBytes.toUInt64 .validateBlock
      "fixed-width column bytes" with
  | error error =>
      rw [validateFixed, hexpected]
      rfl
  | ok expected => rfl

/-- With values the rejections do not matter. -/
theorem validateBooleanOr_eq (h : column.values.isSome = true) :
    validateBooleanOr rejections field column denseCount limits decodedBytes
      = validateBoolean field column denseCount limits decodedBytes := by
  rw [validateBooleanOr, if_neg (isNone_of_isSome h), validateBoolean]
  by_cases hlarge : denseCount > u64Max - 7
  · rw [if_pos hlarge, if_pos hlarge]
  · rw [if_neg hlarge, if_neg hlarge]

/-- With offsets and a payload the rejections do not matter. -/
theorem validateVariableOr_eq (hoffsets : column.offsets.isSome = true)
    (hpayload : column.payload.isSome = true) :
    validateVariableOr rejections field column denseCount limits decodedBytes
      = validateVariable field column denseCount limits decodedBytes := by
  have hpresent : ¬ (column.offsets.isNone = true
      ∨ column.payload.isNone = true) := by
    rintro (hmissing | hmissing)
    · exact isNone_of_isSome hoffsets hmissing
    · exact isNone_of_isSome hpayload hmissing
  rw [validateVariableOr, if_neg hpresent, validateVariable]
  by_cases hlarge : denseCount = u64Max
  · rw [if_pos hlarge, if_pos hlarge]
  · rw [if_neg hlarge, if_neg hlarge]

/-- The switch over the storage kinds, for a column of the field's type. -/
theorem validateStorageOr_eq (htype : column.type = field.type) :
    validateStorageOr rejections field column denseCount limits decodedBytes
      = validateStorage field column denseCount limits decodedBytes := by
  have hwell := wellFormed column
  rw [validateStorageOr, validateStorage]
  cases hkind : column.storageKind with
  | fixedWidth =>
      obtain ⟨_, _, _, hvalues, _⟩ := hwell.fixedWidth hkind
      exact validateFixedOr_eq _ _ _ _ _ hvalues
  | boolean =>
      obtain ⟨hboolean, hvalues, _⟩ := hwell.boolean hkind
      rw [htype] at hboolean
      dsimp only
      rw [if_neg (not_not.mpr hboolean), if_neg (not_not.mpr hboolean)]
      exact validateBooleanOr_eq _ _ _ _ _ hvalues
  | variableWidth =>
      obtain ⟨_, _, hoffsets, hpayload⟩ := hwell.variableWidth hkind
      exact validateVariableOr_eq _ _ _ _ _ hoffsets hpayload

/-- **UNREACHABLE BRANCHES**: what they would return makes no difference. -/
theorem validateColumnOr_eq (rowCount : UInt64) :
    validateColumnOr rejections field column rowCount limits decodedBytes
      = validateColumn field column rowCount limits decodedBytes := by
  rw [validateColumnOr, validateColumn]
  by_cases hrows : column.rowCount ≠ rowCount
  · rw [if_pos hrows, if_pos hrows]
  rw [if_neg hrows, if_neg hrows]
  by_cases htype : column.type ≠ field.type
  · rw [if_pos htype, if_pos htype]
  rw [if_neg htype, if_neg htype]
  have hnulls : ¬ column.nullCount > rowCount := by
    rw [← not_not.mp hrows]
    exact UInt64.not_lt.mpr (nullCount_le column)
  rw [if_neg hnulls, if_neg hnulls]
  simp only [validateStorageOr_eq _ _ _ _ _ (not_not.mp htype)]

end Branches

end ShiboriColumnShape
