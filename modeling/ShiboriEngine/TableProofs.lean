import Mathlib
import ShiboriEngine.TableStorageProofs

/-! # Columns as cells

    A column that fits its field has one cell for every row: the rows its
    validity calls valid hold its values in order, the others are null.  Every
    list of cells the field admits is that of a column, and two columns of one
    field with the same cells differ at most in a bitmap that marks every row
    valid. -/

namespace ShiboriTableFacts

open ShiboriBuffer ShiboriLogicalType ShiboriSchema ShiboriColumn
open ShiboriColumnFacts ShiboriColumnValidation ShiboriBlock ShiboriValidity
open ShiboriTable ShiboriTableStorage Bitmap Dense Words

/-! ## Rows -/

/-- One answer for every row. -/
@[simp] theorem validRows_length (column : Column) :
    (validRows column).length = column.rowCount.toNat := by
  rw [validRows, List.length_map, List.length_range]

/-- The answer for a row. -/
theorem validRows_getElem? {column : Column} {row : UInt64}
    (h : row < column.rowCount) :
    (validRows column)[row.toNat]? = some (rowIsValid column row) := by
  rw [validRows, List.getElem?_map, List.getElem?_range (lt_toNat.mp h),
    Option.map_some, UInt64.ofNat_toNat]

/-- Without a bitmap every row is valid. -/
theorem validRows_none {column : Column} (h : column.validity = none) :
    validRows column = List.replicate column.rowCount.toNat true := by
  rw [validRows, List.eq_replicate_iff]
  refine ⟨by rw [List.length_map, List.length_range], ?_⟩
  intro bit hbit
  obtain ⟨row, _, rfl⟩ := List.mem_map.mp hbit
  rw [rowIsValid, h]

/-- With one its bits answer. -/
theorem validRows_some {column : Column} {validity : Validity}
    (h : column.validity = some validity) :
    validRows column
      = readBits validity.bitmap.elems column.rowCount.toNat := by
  have hrows := column.validity_rows validity h
  have hread : readBits validity.bitmap.elems validity.rowCount.toNat
      = readBits validity.bitmap.elems column.rowCount.toNat := by
    rw [hrows]
  rw [validRows, readBits]
  refine List.map_congr_left ?_
  intro row hrow
  rw [List.mem_range] at hrow
  have hword : (UInt64.ofNat row).toNat = row :=
    UInt64.toNat_ofNat_of_lt' (Nat.lt_trans hrow column.rowCount.toNat_lt)
  rw [rowIsValid, h]
  dsimp only
  rw [isValid_of_readBits hread, hword, readBits, List.getD_eq_getElem?_getD,
    List.getElem?_map, List.getElem?_range hrow]
  rfl

/-- The rows that are not valid are the nulls. -/
theorem count_validRows (column : Column) :
    (validRows column).count false = column.nullCount.toNat := by
  rw [Column.nullCount]
  cases h : column.validity with
  | none =>
      rw [validRows_none h, List.count_replicate]
      rfl
  | some validity =>
      have hrows := column.validity_rows validity h
      obtain ⟨_, _, _, hnulls⟩ := checkBitmap_iff.mp validity.checked
      rw [validRows_some h, ← hrows]
      exact hnulls.symm

/-- The rows that are, have the values. -/
theorem count_true_validRows (column : Column) :
    (validRows column).count true = denseCount column := by
  have hsplit := List.count_false_add_count_true (validRows column)
  rw [count_validRows, validRows_length] at hsplit
  rw [denseCount]
  omega

/-! ## Cells -/

/-- One cell for every row. -/
@[simp] theorem cells_length (column : Column) :
    (cells column).length = column.rowCount.toNat := by
  rw [cells, scatter_length, validRows_length]

/-- The cells of a column that stores its values. -/
theorem cells_spec {column : Column}
    (h : StorageFits (denseCount column) column) :
    mask (cells column) = validRows column
      ∧ (cells column).reduceOption = denseValues column := by
  obtain ⟨_, hlength⟩ := stores_of_fits h
  exact mask_scatter (hlength.trans (count_true_validRows column).symm)

/-- **NULLS** are counted. -/
theorem countP_isNone_cells {column : Column}
    (h : StorageFits (denseCount column) column) :
    (cells column).countP Option.isNone = column.nullCount.toNat := by
  rw [← count_mask_false, (cells_spec h).1, count_validRows]

/-- A cell is null exactly when the column counts nulls. -/
theorem none_mem_cells_iff {column : Column}
    (h : StorageFits (denseCount column) column) :
    none ∈ cells column ↔ column.nullCount ≠ 0 := by
  rw [none_mem_iff, (cells_spec h).1, ← List.count_pos_iff, count_validRows,
    ne_eq, ← UInt64.toNat_inj]
  exact Nat.pos_iff_ne_zero

/-! ## Columns that fit -/

section Fitting

variable {rowCount : UInt64} {field : Field} {column : Column}

/-- The block counts the values as the column does. -/
theorem denseCount_of_fits (h : Fits rowCount field column) :
    rowCount.toNat - column.nullCount.toNat = denseCount column := by
  rw [denseCount, h.rows]

/-- What fits a field has storage that fits. -/
theorem storage_of_fits (h : Fits rowCount field column) :
    StorageFits (denseCount column) column := by
  rw [← denseCount_of_fits h]
  exact h.storage

/-- **EVERY ROW** of a column that fits is a cell its field admits. -/
theorem admits_of_fits (h : Fits rowCount field column) :
    Admits field (cells column) where
  typed := by
    obtain ⟨_, hvalues⟩ := cells_spec (storage_of_fits h)
    rw [hvalues, ← h.type]
    exact (stores_of_fits (storage_of_fits h)).1.hasType
  nullable hnullable hnone := by
    refine (none_mem_cells_iff (storage_of_fits h)).mp hnone ?_
    rw [Column.nullCount, h.validity hnullable]

/-- The record limit is one on the cells' values. -/
theorem within_cells_iff (h : Fits rowCount field column) (limit : UInt64) :
    RecordsWithin limit column
      ↔ ∀ value ∈ (cells column).reduceOption,
        value.Within field.type limit.toNat := by
  obtain ⟨_, hvalues⟩ := cells_spec (storage_of_fits h)
  rw [hvalues, ← h.type]
  exact (stores_of_fits (storage_of_fits h)).1.within_iff limit

/-- A bitmap has the bytes of its rows. -/
theorem bitmap_length {validity : Validity}
    (h : column.validity = some validity) :
    validity.bitmap.elems.length = bitmapBytes column.rowCount.toNat := by
  obtain ⟨_, hlength, _⟩ := checkBitmap_iff.mp validity.checked
  rw [hlength, column.validity_rows validity h]

/-- **SIZES**: a column takes the bytes of its cells, and those of its bitmap
    if that marks every row valid. -/
theorem columnBytes_eq (h : Fits rowCount field column) :
    columnBytes rowCount column
      = cellBytes field.type (cells column)
        + (if column.validity.isSome = true ∧ column.nullCount = 0 then
            bitmapBytes rowCount.toNat
          else 0) := by
  obtain ⟨hstores, hlength⟩ := stores_of_fits (storage_of_fits h)
  obtain ⟨_, hvalues⟩ := cells_spec (storage_of_fits h)
  have hnone := none_mem_cells_iff (storage_of_fits h)
  have hbytes := hstores.bytes
  rw [hlength] at hbytes
  rw [columnBytes, denseCount_of_fits h, hbytes, cellBytes, hvalues, h.type,
    cells_length, h.rows]
  cases hvalidity : column.validity with
  | none =>
      have hnulls : column.nullCount = 0 := by
        rw [Column.nullCount, hvalidity]
      rw [validityBytes, hvalidity, if_neg fun hc => hnone.mp hc hnulls,
        if_neg (by rintro ⟨hsome, _⟩; cases hsome), Nat.add_zero]
  | some validity =>
      have hbitmap := bitmap_length hvalidity
      rw [h.rows] at hbitmap
      rw [validityBytes, hvalidity]
      dsimp only
      rw [hbitmap]
      by_cases hnulls : column.nullCount = 0
      · rw [if_neg fun hc => hnone.mp hc hnulls, if_pos ⟨rfl, hnulls⟩,
          Nat.zero_add, Nat.add_comm]
      · rw [if_pos (hnone.mpr hnulls), if_neg fun hc => hnulls hc.2,
          Nat.add_zero]

/-- The counts of a column are within what the size computations can
    represent. -/
theorem countable_of_fits (h : Fits rowCount field column)
    (hcount : CountFits (rowCount.toNat - column.nullCount.toNat) column) :
    Countable field.type (cells column) := by
  obtain ⟨_, hlength⟩ := stores_of_fits (storage_of_fits h)
  obtain ⟨_, hvalues⟩ := cells_spec (storage_of_fits h)
  rw [denseCount_of_fits h, CountFits, storageKind_eq, h.type] at hcount
  constructor
  · intro hnone
    have hnulls := (none_mem_cells_iff (storage_of_fits h)).mp hnone
    rw [cells_length]
    cases hvalidity : column.validity with
    | none =>
        rw [Column.nullCount, hvalidity] at hnulls
        exact (hnulls rfl).elim
    | some validity =>
        obtain ⟨hfits, _⟩ := checkBitmap_iff.mp validity.checked
        rw [column.validity_rows validity hvalidity] at hfits
        exact hfits
  · intro hkind
    rw [hkind] at hcount
    rw [hvalues, hlength]
    exact hcount

end Fitting

/-! ## Cells as columns -/

/-- The validity of the rows, by a builder where there is a null. -/
theorem exists_validity {rowCount : UInt64} {rows : List Cell}
    (hlength : rows.length = rowCount.toNat)
    (hcount : none ∈ rows → rows.length + 7 < 2 ^ 64) :
    ∃ validity : Option Validity,
      (∀ v ∈ validity, v.rowCount = rowCount)
        ∧ (validity.isSome = true ↔ none ∈ rows)
        ∧ ∀ column : Column, column.rowCount = rowCount →
          column.validity = validity → validRows column = mask rows := by
  by_cases hnone : none ∈ rows
  · have hfits := hcount hnone
    rw [hlength] at hfits
    rw [← mask_length] at hlength
    obtain ⟨validity, _, hrows, hread, _⟩ := finish_fed hfits hlength
    refine ⟨some validity, ?_, iff_of_true rfl hnone, ?_⟩
    · intro v hv
      cases hv
      exact hrows
    · intro column hcolumn hvalidity
      rw [validRows_some hvalidity, hcolumn, hread]
  · refine ⟨none, nofun, iff_of_false Bool.false_ne_true hnone, ?_⟩
    intro column hcolumn hvalidity
    rw [validRows_none hvalidity, hcolumn, ← hlength, ← mask_length, eq_comm,
      List.eq_replicate_iff]
    refine ⟨rfl, ?_⟩
    intro bit hbit
    cases bit with
    | true => rfl
    | false => exact (hnone (none_mem_iff.mpr hbit)).elim

/-- **EVERY LIST** of admitted cells is that of a column that fits and has a
    bitmap only where there is a null. -/
theorem exists_column {rowCount : UInt64} {field : Field} {rows : List Cell}
    (hlength : rows.length = rowCount.toNat) (hadmits : Admits field rows)
    (hcount : Countable field.type rows)
    (hbytes : cellBytes field.type rows < 2 ^ 64) :
    ∃ column, Fits rowCount field column ∧ cells column = rows
      ∧ CountFits (rowCount.toNat - column.nullCount.toNat) column
      ∧ columnBytes rowCount column = cellBytes field.type rows := by
  obtain ⟨validity, hrows, hsome, hvalid⟩ :=
    exists_validity hlength hcount.1
  rw [cellBytes] at hbytes
  obtain ⟨column, htype, hcolumn, hvalidity, hstores, hfits⟩ :=
    exists_carries hrows hadmits.typed (by omega) hcount.2
  have hmask := hvalid column hcolumn hvalidity
  have hdense : rows.reduceOption.length = denseCount column := by
    rw [← count_true_validRows, hmask, count_mask]
  have hcells : cells column = rows := by
    rw [cells, hmask, hstores.denseValues_eq hdense, scatter_mask]
  have hcounted : rowCount.toNat - column.nullCount.toNat
      = rows.reduceOption.length := by
    rw [hdense, denseCount, hcolumn]
  have hfit : Fits rowCount field column := by
    refine ⟨hcolumn, htype, ?_, ?_⟩
    · intro hnullable
      rw [hvalidity, ← Option.isNone_iff_eq_none, ← Option.not_isSome]
      rw [Bool.not_eq_true', Bool.eq_false_iff, ne_eq, hsome]
      exact hadmits.nullable hnullable
    · rw [hcounted]
      exact hstores.fits
  refine ⟨column, hfit, hcells, hcounted ▸ hfits, ?_⟩
  have hneeded : ¬ (column.validity.isSome = true ∧ column.nullCount = 0) := by
    rintro ⟨hbitmap, hnulls⟩
    rw [hvalidity, hsome, ← hcells,
      none_mem_cells_iff (storage_of_fits hfit)] at hbitmap
    exact hbitmap hnulls
  rw [columnBytes_eq hfit, if_neg hneeded, Nat.add_zero, hcells]

/-! ## Columns with the same cells -/

/-- No bitmap has the wrong rows. -/
theorem rows_of_none (rowCount : UInt64) :
    ∀ v ∈ (none : Option Validity), v.rowCount = rowCount := by
  intro v hv
  cases hv

/-- The column without a bitmap that marks every row valid. -/
def tightened (column : Column) : Column :=
  if column.nullCount = 0 then
    { column with
      validity := none
      validity_rows := rows_of_none column.rowCount }
  else column

/-- A column with nulls keeps its bitmap. -/
theorem tightened_of_nulls {column : Column} (h : column.nullCount ≠ 0) :
    tightened column = column := if_neg h

/-- A column without loses it. -/
theorem tightened_of_no_nulls {column : Column} (h : column.nullCount = 0) :
    tightened column = { column with
      validity := none
      validity_rows := rows_of_none column.rowCount } := if_pos h

/-- A column is its type, its rows and its components. -/
theorem column_ext {a b : Column} (htype : a.type = b.type)
    (hrows : a.rowCount = b.rowCount) (hvalidity : a.validity = b.validity)
    (hcomponents : a.values = b.values ∧ a.offsets = b.offsets
      ∧ a.payload = b.payload) : a = b := by
  have hkind := (storageKind_eq a).trans
    ((congrArg storageOf htype).trans (storageKind_eq b).symm)
  obtain ⟨hvalues, hoffsets, hpayload⟩ := hcomponents
  cases a
  cases b
  cases htype
  cases hkind
  cases hrows
  cases hvalidity
  cases hvalues
  cases hoffsets
  cases hpayload
  rfl

section Tightening

variable {rowCount : UInt64} {field : Field} {a b : Column}

/-- A bitmap is its bits. -/
theorem validity_ext {v w : Validity} (hrows : v.rowCount = w.rowCount)
    (h : readBits v.bitmap.elems v.rowCount.toNat
      = readBits w.bitmap.elems w.rowCount.toNat) : v = w := by
  obtain ⟨_, hlength, hclear, hnulls⟩ := checkBitmap_iff.mp v.checked
  obtain ⟨_, hlength', hclear', hnulls'⟩ := checkBitmap_iff.mp w.checked
  rw [← h] at hnulls'
  rw [← hrows] at h hlength' hclear'
  have hbitmap : v.bitmap = w.bitmap := Buffer.ext (ext_of_readBits
    (hlength.trans hlength'.symm) (paddingZero_iff.mpr hclear)
    (paddingZero_iff.mpr hclear') h)
  have hcount := UInt64.toNat_inj.mp (hnulls.trans hnulls'.symm)
  cases v
  cases w
  cases hrows
  cases hbitmap
  cases hcount
  rfl

/-- **ONE COLUMN**: columns that fit a field and have the same cells are equal
    up to a bitmap that marks every row valid. -/
theorem tightened_eq (ha : Fits rowCount field a) (hb : Fits rowCount field b)
    (h : cells a = cells b) : tightened a = tightened b := by
  have htype := ha.type.trans hb.type.symm
  have hrows := ha.rows.trans hb.rows.symm
  have hnulls : a.nullCount = b.nullCount := by
    apply UInt64.toNat_inj.mp
    rw [← countP_isNone_cells (storage_of_fits ha), h,
      countP_isNone_cells (storage_of_fits hb)]
  obtain ⟨hmask, hvalues⟩ := cells_spec (storage_of_fits ha)
  obtain ⟨hmask', hvalues'⟩ := cells_spec (storage_of_fits hb)
  have hvalid : validRows a = validRows b := by
    rw [← hmask, ← hmask', h]
  have hdense : denseValues a = denseValues b := by
    rw [← hvalues, ← hvalues', h]
  have hstores := (stores_of_fits (storage_of_fits ha)).1
  rw [hdense] at hstores
  have hcomponents := hstores.components_eq htype
    (stores_of_fits (storage_of_fits hb)).1
  by_cases hzero : a.nullCount = 0
  · rw [tightened_of_no_nulls hzero,
      tightened_of_no_nulls (hnulls.symm.trans hzero)]
    exact column_ext htype hrows rfl hcomponents
  · have hzero' : b.nullCount ≠ 0 := hnulls ▸ hzero
    rw [tightened_of_nulls hzero, tightened_of_nulls hzero']
    refine column_ext htype hrows ?_ hcomponents
    -- where there is a null there is a bitmap, and it holds the valid rows
    cases hvalidity : a.validity with
    | none =>
        refine (hzero ?_).elim
        rw [Column.nullCount, hvalidity]
    | some v =>
        cases hvalidity' : b.validity with
        | none =>
            refine (hzero' ?_).elim
            rw [Column.nullCount, hvalidity']
        | some w =>
            rw [validRows_some hvalidity, validRows_some hvalidity',
              ← a.validity_rows v hvalidity,
              ← b.validity_rows w hvalidity'] at hvalid
            refine congrArg some (validity_ext ?_ hvalid)
            rw [a.validity_rows v hvalidity, b.validity_rows w hvalidity',
              hrows]

/-- Tightening changes no cell. -/
theorem cells_tightened (column : Column) :
    cells (tightened column) = cells column := by
  by_cases hnulls : column.nullCount = 0
  · have hvalid : validRows column
        = List.replicate column.rowCount.toNat true := by
      have hcount := count_validRows column
      rw [hnulls] at hcount
      rw [List.eq_replicate_iff]
      refine ⟨validRows_length column, ?_⟩
      intro bit hbit
      cases bit with
      | true => rfl
      | false => exact (List.count_eq_zero.mp hcount hbit).elim
    have hdense : denseCount { column with
        validity := none
        validity_rows := rows_of_none column.rowCount }
          = denseCount column := by
      rw [denseCount, denseCount, hnulls]
      rfl
    rw [tightened_of_no_nulls hnulls, cells, cells, hvalid,
      validRows_none rfl]
    refine congrArg (scatter _) ?_
    rw [denseValues, denseValues, hdense]
  · rw [tightened_of_nulls hnulls]

/-- A tightened column fits where the column does. -/
theorem fits_tightened (h : Fits rowCount field a) :
    Fits rowCount field (tightened a)
      ∧ (tightened a).nullCount = a.nullCount := by
  by_cases hnulls : a.nullCount = 0
  · have hstorage := h.storage
    rw [hnulls] at hstorage
    rw [tightened_of_no_nulls hnulls, hnulls]
    exact ⟨⟨h.rows, h.type, fun _ => rfl, hstorage⟩, rfl⟩
  · rw [tightened_of_nulls hnulls]
    exact ⟨h, rfl⟩

/-- A tightened column takes the bytes of its cells. -/
theorem columnBytes_tightened (h : Fits rowCount field a) :
    columnBytes rowCount (tightened a) = cellBytes field.type (cells a) := by
  obtain ⟨hfits, hnulls⟩ := fits_tightened h
  have hneeded : ¬ ((tightened a).validity.isSome = true
      ∧ (tightened a).nullCount = 0) := by
    rintro ⟨hsome, hzero⟩
    rw [tightened_of_no_nulls (hnulls.symm.trans hzero)] at hsome
    cases hsome
  rw [columnBytes_eq hfits, if_neg hneeded, Nat.add_zero, cells_tightened]

/-- Dropping the bitmap leaves the counts. -/
theorem countFits_tightened {dense : Nat} (h : CountFits dense a) :
    CountFits dense (tightened a) := by
  by_cases hnulls : a.nullCount = 0
  · rw [tightened_of_no_nulls hnulls]
    exact h
  · rw [tightened_of_nulls hnulls]
    exact h

end Tightening

end ShiboriTableFacts
