import Mathlib
import ShiboriEngine.ColumnBuilderProofs
import ShiboriEngine.BlockAcceptanceProofs
import ShiboriEngine.TableProofs

/-! # Blocks as tables

    Every block that a builder gives out stores one table, and the tables that
    are stored under some limits are exactly those whose rows, values and
    bytes are within them.  Blocks of one schema that store the same table
    differ at most in bitmaps that mark every row valid. -/

namespace ShiboriTableBlock

open ShiboriError ShiboriResource ShiboriLogicalType ShiboriSchema
open ShiboriSchemaFacts ShiboriColumn ShiboriColumnValidation ShiboriBlock
open ShiboriBlockFacts ShiboriBlockAcceptance ShiboriLifecycle
open ShiboriColumnBuilders
open ShiboriTable ShiboriTableFacts Machine Words

/-! ## Columns come from builders -/

/-- A column is its contents. -/
theorem eq_of_contents {a b : Column} (h : contentsOf a = contentsOf b) :
    a = b :=
  column_ext (congrArg Contents.type h) (congrArg Contents.rowCount h)
    (congrArg Contents.validity h)
    ⟨congrArg Contents.values h, congrArg Contents.offsets h,
      congrArg Contents.payload h⟩

/-- A run that ends in a builder with the contents of a column gives it out
    when it is finished. -/
theorem published_of_contents {σ α : Type} {builder : ColumnBuilder σ α}
    {new : σ} {calls : List α} {column : Column}
    (hopen : builder.finished (finalState builder.step new calls) = false)
    (hcomplete : builder.complete (finalState builder.step new calls))
    (htype : builder.typeFits (finalState builder.step new calls))
    (hcontents : builder.contents (finalState builder.step new calls)
      = contentsOf column) :
    column ∈ builder.published new (calls ++ [builder.finishCall]) := by
  have houtcome := builder.finish (finalState builder.step new calls)
  rw [ColumnBuilder.published, collect_concat]
  generalize builder.step (finalState builder.step new calls)
    builder.finishCall = result at houtcome ⊢
  rw [hcontents] at houtcome
  refine List.mem_append_right _ ?_
  cases houtcome with
  | refused hrefuses => exact (hrefuses ⟨hopen, hcomplete, htype⟩).elim
  | failed _ hrows => exact (hrows column.validity_rows).elim
  | made _ _ _ hsame =>
      rw [eq_of_contents hsame]
      exact List.mem_singleton_self column

/-- The setter calls of the components that are there. -/
def valuesCalls (column : Column) : List ValuesCall :=
  column.validity.toList.map .setValidity
    ++ column.values.toList.map .setValues

/-- The calls that build a variable-width column. -/
def variableCalls (column : Column) : List VariableCall :=
  column.validity.toList.map .setValidity
    ++ column.offsets.toList.map .setOffsets
    ++ column.payload.toList.map .setPayload

/-- There is one boolean type. -/
theorem boolean_type_eq {type : LogicalType} (h : type.kind = .boolean) :
    type = Boolean.type := by
  have hvalid := type.valid
  refine LogicalType.ext h ?_
  rw [validateParameters, h] at hvalid
  cases hparameters : type.parameters with
  | monostate => rfl
  | _ =>
      rw [hparameters] at hvalid
      exact (fail_ne_ok _ _ _ _ hvalid).elim

/-- Some run of a column builder gives the column out. -/
inductive Built (column : Column) : Prop where
  | fixedWidth (calls : List ValuesCall)
      (h : column ∈ FixedWidth.builder.published
        { type := column.type, rowCount := column.rowCount } calls)
  | boolean (calls : List ValuesCall)
      (h : column ∈ Boolean.builder.published
        { rowCount := column.rowCount } calls)
  | variableWidth (calls : List VariableCall)
      (h : column ∈ VariableWidth.builder.published
        { type := column.type, rowCount := column.rowCount } calls)

/-- **EVERY COLUMN** is what some run of its builder gives out. -/
theorem built (column : Column) : Built column := by
  have hshape := column.shape
  cases hkind : column.storageKind with
  | fixedWidth =>
      rw [hkind] at hshape
      obtain ⟨htype, hvalues, hoffsets, hpayload⟩ := hshape
      have hstate : finalState FixedWidth.builder.step
          { type := column.type, rowCount := column.rowCount }
          (valuesCalls column)
          = { type := column.type, rowCount := column.rowCount
              validity := column.validity, values := column.values } := by
        rw [valuesCalls]
        cases column.validity <;> cases column.values <;> rfl
      refine .fixedWidth (valuesCalls column ++ [.finish])
        (published_of_contents ?_ ?_ ?_ ?_)
      · rw [hstate]
        rfl
      · rw [hstate]
        exact hvalues
      · rw [hstate]
        exact htype
      · rw [hstate, contentsOf, hoffsets, hpayload]
        rfl
  | boolean =>
      rw [hkind] at hshape
      obtain ⟨htype, hvalues, hoffsets, hpayload⟩ := hshape
      have hstate : finalState Boolean.builder.step
          { rowCount := column.rowCount } (valuesCalls column)
          = { rowCount := column.rowCount, validity := column.validity
              values := column.values } := by
        rw [valuesCalls]
        cases column.validity <;> cases column.values <;> rfl
      refine .boolean (valuesCalls column ++ [.finish])
        (published_of_contents ?_ ?_ ?_ ?_)
      · rw [hstate]
        rfl
      · rw [hstate]
        exact hvalues
      · rw [hstate]
        trivial
      · rw [hstate, contentsOf, hoffsets, hpayload,
          boolean_type_eq htype]
        rfl
  | variableWidth =>
      rw [hkind] at hshape
      obtain ⟨htype, hvalues, hoffsets, hpayload⟩ := hshape
      have hstate : finalState VariableWidth.builder.step
          { type := column.type, rowCount := column.rowCount }
          (variableCalls column)
          = { type := column.type, rowCount := column.rowCount
              validity := column.validity, offsets := column.offsets
              payload := column.payload } := by
        rw [variableCalls]
        cases column.validity <;> cases column.offsets <;>
          cases column.payload <;> rfl
      refine .variableWidth (variableCalls column ++ [.finish])
        (published_of_contents ?_ ?_ ?_ ?_)
      · rw [hstate]
        rfl
      · rw [hstate]
        exact ⟨hoffsets, hpayload⟩
      · rw [hstate]
        exact htype
      · rw [hstate, contentsOf, hvalues]
        rfl

/-! ## The table of a block -/

/-- What limits ask of the cells of a field. -/
structure CellsWithin (limits : ResourceLimits) (field : Field)
    (cells : List Cell) : Prop where
  records : ∀ value ∈ cells.reduceOption,
    value.Within field.type limits.maximumRecordBytes.toNat
  countable : Countable field.type cells

/-- What limits ask of a table. -/
structure Storable (limits : ResourceLimits) (table : Table) : Prop where
  limits_valid : validateResourceLimits limits = .ok ()
  some_row : 1 ≤ table.rowCount
  rows : table.rowCount ≤ limits.maximumBlockRows.toNat
  cells : List.Forall₂ (CellsWithin limits) table.schema.fields table.columns
  bytes : tableBytes table ≤ limits.maximumDecodedBlockBytes.toNat

/-- A block stores one table. -/
theorem denotes_unique {block : Block} {a b : Table} (ha : Denotes block a)
    (hb : Denotes block b) : a = b := by
  have hschema := ha.schema.symm.trans hb.schema
  have hrows := ha.rowCount.symm.trans hb.rowCount
  have hcolumns := ha.columns.symm.trans hb.columns
  cases a
  cases b
  cases hschema
  cases hrows
  cases hcolumns
  rfl

section Published

variable {map : Std.ExtTreeMap UInt32 Column compare} {rowCount : UInt64}
  {limits : ResourceLimits} {fields : List Field} {columns : List Column}

/-- What holds of the columns' cells, holds of the cells. -/
theorem forall₂_map_cells {R : Field → List Cell → Prop}
    (h : List.Forall₂ (fun field column => R field (cells column)) fields
      columns) : List.Forall₂ R fields (columns.map cells) :=
  List.forall₂_map_right_iff.mpr h

/-- What the columns that passed say about their cells. -/
theorem cells_of_passes
    (h : List.Forall₂ (Passes map rowCount limits) fields columns) :
    List.Forall₂ Admits fields (columns.map cells)
      ∧ List.Forall₂ (CellsWithin limits) fields (columns.map cells)
      ∧ ∀ rows ∈ columns.map cells, rows.length = rowCount.toNat := by
  refine ⟨forall₂_map_cells (h.imp ?_), forall₂_map_cells (h.imp ?_), ?_⟩
  · intro field column hpasses
    exact admits_of_fits hpasses.fits
  · intro field column hpasses
    exact ⟨(within_cells_iff hpasses.fits _).mp hpasses.within,
      countable_of_fits hpasses.fits hpasses.countable⟩
  · intro rows hrows
    obtain ⟨column, hcolumn, rfl⟩ := List.mem_map.mp hrows
    obtain ⟨i, hi, rfl⟩ := List.getElem_of_mem hcolumn
    have hpasses := h.get (h.length_eq ▸ hi) hi
    rw [cells_length]
    exact congrArg UInt64.toNat hpasses.fits.rows

/-- The columns take at least the bytes of their cells. -/
theorem cellBytes_le_totalBytes
    (h : List.Forall₂ (Passes map rowCount limits) fields columns) :
    (List.zipWith (fun field cells => cellBytes field.type cells) fields
        (columns.map cells)).sum
      ≤ totalBytes rowCount columns := by
  induction h with
  | nil => exact Nat.le_refl 0
  | cons hpasses _ ih =>
      have hbytes := columnBytes_eq hpasses.fits
      rw [List.map_cons, List.zipWith_cons_cons, List.sum_cons,
        totalBytes_cons]
      omega

end Published

/-- The table of a block that was given out. -/
theorem table_of_published {builder : BlockBuilder} {limits : ResourceLimits}
    {block : Block} (h : (builder.finish limits).1 = .ok block) :
    ∃ table, Denotes block table ∧ Storable limits table
      ∧ tableBytes table ≤ totalBytes block.rowCount block.columns := by
  obtain ⟨_, found, hvalid, rfl⟩ := finish_eq_ok.mp h
  obtain ⟨hlimits, hnonempty, hfew, _, hall, hsum⟩ :=
    validate_eq_ok.mp hvalid
  obtain ⟨hadmits, hwithin, hlength⟩ := cells_of_passes hall
  have hbytes := cellBytes_le_totalBytes hall
  have hrow : 1 ≤ builder.rowCount.toNat := by
    rw [ne_eq, ← UInt64.toNat_inj] at hnonempty
    exact Nat.one_le_iff_ne_zero.mpr hnonempty
  exact ⟨⟨_, _, _, hadmits, hlength⟩, ⟨rfl, rfl, rfl⟩,
    ⟨hlimits, hrow, le_toNat.mp hfew, hwithin, Nat.le_trans hbytes hsum⟩,
    hbytes⟩

/-! ## Setting columns in any order -/

/-- The column of a call that is there once. -/
theorem columnSet_of_mem {calls : List ColumnCall}
    (hids : (calls.map ColumnCall.fieldId).Nodup) {call : ColumnCall}
    (hcall : call ∈ calls) :
    columnSet calls call.fieldId = some call.column := by
  induction calls with
  | nil => cases hcall
  | cons first calls ih =>
      rw [List.map_cons, List.nodup_cons] at hids
      rcases List.mem_cons.mp hcall with rfl | hcall
      · rw [columnSet, List.find?_cons_of_pos (by exact decide_eq_true rfl)]
        rfl
      · have hne : first.fieldId ≠ call.fieldId := by
          intro heq
          exact hids.1 (heq ▸ List.mem_map_of_mem hcall)
        rw [columnSet, List.find?_cons_of_neg (by
          rw [decide_eq_true_iff]
          exact hne)]
        exact ih hids.2 hcall

/-- A field that no call names has no column. -/
theorem columnSet_of_not_mem {calls : List ColumnCall} {fieldId : UInt32}
    (h : fieldId ∉ calls.map ColumnCall.fieldId) :
    columnSet calls fieldId = none := by
  rw [columnSet, Option.map_eq_none_iff, List.find?_eq_none]
  intro call hcall hid
  exact h (of_decide_eq_true hid ▸ List.mem_map_of_mem hcall)

/-- Calls for different fields may be made in any order. -/
theorem columnSet_perm {calls calls' : List ColumnCall}
    (hids : (calls.map ColumnCall.fieldId).Nodup) (h : calls.Perm calls')
    (fieldId : UInt32) : columnSet calls fieldId = columnSet calls' fieldId := by
  have hperm := h.map ColumnCall.fieldId
  by_cases hset : fieldId ∈ calls.map ColumnCall.fieldId
  · obtain ⟨call, hcall, rfl⟩ := List.mem_map.mp hset
    rw [columnSet_of_mem hids hcall,
      columnSet_of_mem (hperm.nodup_iff.mp hids) (h.mem_iff.mp hcall)]
  · rw [columnSet_of_not_mem hset,
      columnSet_of_not_mem fun hc => hset (hperm.mem_iff.mpr hc)]

/-- **THE FIRST COLUMNS DECIDE**: runs that set the same first column for
    every field of the schema end in the same builder. -/
theorem finalState_eq_of_columnSet {schema : Schema}
    {calls calls' : List ColumnCall}
    (h : ∀ field ∈ schema.fields,
      columnSet calls field.id = columnSet calls' field.id)
    (id rowCount : UInt64) :
    finalState setColumnStep (newBuilder schema id rowCount) calls
      = finalState setColumnStep (newBuilder schema id rowCount) calls' := by
  have hrun := run_holds schema id rowCount calls
  have hrun' := run_holds schema id rowCount calls'
  generalize finalState setColumnStep (newBuilder schema id rowCount) calls
    = builder at hrun ⊢
  generalize finalState setColumnStep (newBuilder schema id rowCount) calls'
    = builder' at hrun' ⊢
  have hcolumns : builder.columns = builder'.columns := by
    apply Std.ExtTreeMap.ext_getElem?
    intro fieldId
    rw [hrun.columns, hrun'.columns]
    by_cases hknown : (schema.findField fieldId).isSome = true
    · obtain ⟨field, hfield, rfl⟩ :=
        List.mem_map.mp (findField_isSome_iff.mp hknown)
      rw [if_pos hknown, if_pos hknown, h field hfield]
    · rw [if_neg hknown, if_neg hknown]
  have hschema := hrun.schema_eq.trans hrun'.schema_eq.symm
  have hid := hrun.id_eq.trans hrun'.id_eq.symm
  have hrows := hrun.rowCount_eq.trans hrun'.rowCount_eq.symm
  have hfinished := hrun.not_finished.trans hrun'.not_finished.symm
  cases builder
  cases builder'
  cases hschema
  cases hid
  cases hrows
  cases hcolumns
  cases hfinished
  rfl

/-! ## Setting a column for every field -/

/-- One call for every field. -/
def columnCalls (fields : List Field) (columns : List Column) :
    List ColumnCall :=
  List.zipWith (fun field column => ⟨field.id, column⟩) fields columns

/-- The calls name the fields in order. -/
theorem columnCalls_ids {fields : List Field} {columns : List Column}
    (h : fields.length = columns.length) :
    (columnCalls fields columns).map ColumnCall.fieldId
      = fields.map Field.id := by
  induction fields generalizing columns with
  | nil => rfl
  | cons field fields ih =>
      cases columns with
      | nil => cases h
      | cons column columns =>
          exact congrArg (field.id :: ·) (ih (Nat.succ.inj h))

/-- The call of a field. -/
theorem mem_columnCalls {fields : List Field} {columns : List Column}
    {i : Nat} (hi : i < fields.length) (hi' : i < columns.length) :
    ⟨fields[i].id, columns[i]⟩ ∈ columnCalls fields columns := by
  rw [columnCalls]
  have hlen : i < (List.zipWith (fun field column =>
      (⟨field.id, column⟩ : ColumnCall)) fields columns).length := by
    rw [List.length_zipWith]
    omega
  have hget := List.getElem_zipWith (i := i) (h := hlen)
  rw [← hget]
  exact List.getElem_mem hlen

/-- A column that would pass once its field finds it. -/
structure Suitable (rowCount : UInt64) (limits : ResourceLimits)
    (field : Field) (column : Column) : Prop where
  countable : CountFits (rowCount.toNat - column.nullCount.toNat) column
  fits : Fits rowCount field column
  within : RecordsWithin limits.maximumRecordBytes column

/-- **FINISHING** after calls that set a suitable column for every field gives
    out the columns in schema order. -/
theorem finish_of_suitable {schema : Schema} (hschema : Accepted schema)
    {id rowCount : UInt64} {limits : ResourceLimits}
    {calls : List ColumnCall} {columns : List Column}
    (hlimits : validateResourceLimits limits = .ok ()) (hrow : rowCount ≠ 0)
    (hrows : rowCount ≤ limits.maximumBlockRows)
    (hsuitable : List.Forall₂ (fun field column =>
      columnSet calls field.id = some column
        ∧ Suitable rowCount limits field column) schema.fields columns)
    (hbytes : totalBytes rowCount columns
      ≤ limits.maximumDecodedBlockBytes.toNat) :
    ((finalState setColumnStep (newBuilder schema id rowCount) calls).finish
        limits).1
      = .ok { schema := schema, id := id, rowCount := rowCount
              columns := columns } := by
  have hrun := run_holds schema id rowCount calls
  generalize finalState setColumnStep (newBuilder schema id rowCount) calls
    = builder at hrun ⊢
  have hset : ∀ field ∈ schema.fields,
      (columnSet calls field.id).isSome = true := by
    intro field hfield
    obtain ⟨i, hi, rfl⟩ := List.getElem_of_mem hfield
    have hcolumn := (hsuitable.get hi (hsuitable.length_eq ▸ hi)).1
    exact Option.isSome_iff_exists.mpr ⟨_, hcolumn⟩
  have hsize := size_eq_fieldCount (accepted_sound hschema).distinct hrun hset
  have hpasses : List.Forall₂ (Passes builder.columns rowCount limits)
      schema.fields columns := by
    rw [List.forall₂_iff_get] at hsuitable ⊢
    refine ⟨hsuitable.1, ?_⟩
    intro i hi hi'
    obtain ⟨hcolumn, hcountable, hfits, hwithin⟩ := hsuitable.2 i hi hi'
    refine ⟨?_, hcountable, hfits, hwithin⟩
    rw [holds_column hrun (List.get_mem schema.fields ⟨i, hi⟩)]
    exact hcolumn
  refine finish_eq_ok.mpr ⟨hrun.not_finished, columns,
    validate_eq_ok.mpr ⟨hlimits, ?_, ?_, ?_, ?_, ?_⟩, ?_⟩
  · rw [hrun.rowCount_eq]
    exact hrow
  · rw [hrun.rowCount_eq]
    exact hrows
  · rw [hrun.schema_eq]
    exact hsize
  · rw [hrun.rowCount_eq, hrun.schema_eq]
    exact hpasses
  · rw [hrun.rowCount_eq]
    exact hbytes
  · rw [hrun.schema_eq, hrun.id_eq, hrun.rowCount_eq]

end ShiboriTableBlock
