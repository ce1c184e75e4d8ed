import Mathlib
import ShiboriEngine.BlockAccessProofs
import ShiboriEngine.TableBlockProofs

/-! # Blocks refine tables

    The main results on what blocks store: one table each, exactly the tables
    within the limits, in one form up to bitmaps that mark every row valid,
    read back by validity and rank. -/

namespace ShiboriTableRefinement

open ShiboriError ShiboriResource ShiboriLogicalType ShiboriSchema
open ShiboriSchemaFacts ShiboriColumn ShiboriColumnValidation ShiboriBlock
open ShiboriBlockFacts ShiboriBlockAcceptance ShiboriBlockAccess
open ShiboriTable ShiboriTableStorage ShiboriTableFacts ShiboriTableBlock
open Machine Dense Words

/-! ## Sound -/

/-- **BLOCKS ARE TABLES**: a block that was given out stores one table, which
    is within the limits it passed, and each of its columns counts its
    nulls. -/
theorem blocks_are_tables {builder : BlockBuilder} {limits : ResourceLimits}
    {block : Block} (h : (builder.finish limits).1 = .ok block) :
    ∃ table, (∀ other, Denotes block other ↔ other = table)
      ∧ Storable limits table
      ∧ tableBytes table ≤ totalBytes block.rowCount block.columns
      ∧ table.columns.map (·.countP Option.isNone)
        = block.columns.map fun column => column.nullCount.toNat := by
  obtain ⟨table, hdenotes, hstorable, hbytes⟩ := table_of_published h
  refine ⟨table, ?_, hstorable, hbytes, ?_⟩
  · intro other
    constructor
    · intro hother
      exact denotes_unique hother hdenotes
    · rintro rfl
      exact hdenotes
  · obtain ⟨_, found, hvalid, rfl⟩ := finish_eq_ok.mp h
    obtain ⟨_, _, _, _, hall, _⟩ := validate_eq_ok.mp hvalid
    rw [← hdenotes.columns, List.map_map]
    refine List.map_congr_left ?_
    intro column hcolumn
    obtain ⟨i, hi, rfl⟩ := List.getElem_of_mem hcolumn
    have hpasses := hall.get (hall.length_eq ▸ hi) hi
    exact countP_isNone_cells (storage_of_fits hpasses.fits)

/-- The column of a value and a null suits its field. -/
theorem textColumn_suitable :
    Suitable 2 defaultResourceLimits textField textColumn where
  countable := countFits_of_small textColumn_small textColumn_fits.storage
  fits := textColumn_fits
  within := textColumn_within (by decide)

/-- A block of two rows of text, the second one null. -/
def textBlock : Block where
  schema := oneFieldSchema textField
  id := 7
  rowCount := 2
  columns := [textColumn]

/-- A builder publishes its block. -/
theorem textBlock_published :
    ((finalState setColumnStep (newBuilder (oneFieldSchema textField) 7 2)
        [⟨1, textColumn⟩]).finish defaultResourceLimits).1
      = .ok textBlock :=
  finish_of_suitable textField_accepted defaultResourceLimits_valid
    (by decide) (by decide) (.cons ⟨rfl, textColumn_suitable⟩ .nil)
    (by decide)

/-- The table of a value and a null. -/
theorem blocks_are_tables_at_textBlock :
    ∃ table, (∀ other, Denotes textBlock other ↔ other = table)
      ∧ Storable defaultResourceLimits table
      ∧ tableBytes table ≤ totalBytes 2 [textColumn]
      ∧ table.columns.map (·.countP Option.isNone) = [1] :=
  blocks_are_tables textBlock_published

/-- A nullable column of single bytes named `b`. -/
def byteField : Field where
  id := 2
  name := .singleton 0x62
  type := ⟨.int8, .monostate, rfl⟩
  nullable := true
  metadata := .empty

/-- What a builder makes of a text and a byte field. -/
def pairSchema : Schema where
  fields := [textField, byteField]
  metadata := .empty
  canonical := canonicalBytes [textField, byteField] .empty
  fingerprint := makeFingerprint (canonicalBytes [textField, byteField] .empty)

/-- The schema of two fields is accepted. -/
theorem pairSchema_accepted : Accepted pairSchema := by
  refine ⟨[.addField textField, .addField byteField,
    .finish defaultResourceLimits], ?_⟩
  have hvalid : SchemaBuilder.validate { fields := [textField, byteField] }
      defaultResourceLimits = .ok () :=
    ShiboriSchemaFacts.validate_eq_ok.mpr ⟨defaultResourceLimits_valid,
      List.cons_ne_nil _ _, by decide,
      List.pairwise_pair.mpr ⟨by decide, by decide⟩,
      by decide +kernel⟩
  have hbuilt : (SchemaBuilder.finish { fields := [textField, byteField] }
      defaultResourceLimits).1 = .ok pairSchema :=
    ShiboriSchemaFacts.finish_eq_ok.mpr ⟨rfl, hvalid, rfl⟩
  refine List.mem_cons_of_mem _ (List.mem_cons_of_mem _
    (List.mem_cons.mpr (Or.inl ?_)))
  exact congrArg SchemaReply.built hbuilt.symm

/-- Two values, with a bitmap that marks both rows valid or without one. -/
def byteColumn (flagged : Bool) : Column where
  type := byteField.type
  storageKind := .fixedWidth
  rowCount := 2
  validity :=
    if flagged then some ⟨2, 0, ⟨[0x03], by decide⟩, by decide⟩ else none
  values := some ⟨[0x07, 0x09], by decide⟩
  offsets := none
  payload := none
  validity_rows := by
    intro v hv
    cases flagged with
    | false => cases hv
    | true =>
        cases hv
        rfl
  shape := ⟨rfl, rfl, rfl, rfl⟩

/-- The column suits its field, with or without a bitmap. -/
theorem byteColumn_suitable (flagged : Bool) :
    Suitable 2 defaultResourceLimits byteField (byteColumn flagged) where
  countable := trivial
  fits := by
    refine ⟨rfl, rfl, nofun, ?_⟩
    cases flagged with
    | false => exact ⟨_, rfl, rfl⟩
    | true => exact ⟨_, rfl, rfl⟩
  within := nofun

/-- The block of both columns. -/
def pairBlock (flagged : Bool) : Block where
  schema := pairSchema
  id := 7
  rowCount := 2
  columns := [textColumn, byteColumn flagged]

/-- A builder publishes the block of both. -/
theorem pairBlock_published (flagged : Bool) :
    ((finalState setColumnStep (newBuilder pairSchema 7 2)
        [⟨1, textColumn⟩, ⟨2, byteColumn flagged⟩]).finish
          defaultResourceLimits).1 = .ok (pairBlock flagged) :=
  finish_of_suitable pairSchema_accepted defaultResourceLimits_valid
    (by decide) (by decide)
    (.cons ⟨rfl, textColumn_suitable⟩
      (.cons ⟨rfl, byteColumn_suitable flagged⟩ .nil))
    (by cases flagged <;> decide)

/-- A value and a null. -/
def textCells : List Cell := [some (.bytes [0xc3, 0xa9]), none]

/-- They are the cells of the text column. -/
theorem cells_textColumn : cells textColumn = textCells := by decide

/-- They are admitted by the field. -/
theorem textCells_admitted :
    List.Forall₂ Admits (oneFieldSchema textField).fields [textCells] := by
  rw [← cells_textColumn]
  exact .cons (admits_of_fits textColumn_fits) .nil

/-- There are two of them. -/
theorem textCells_length : ∀ rows ∈ [textCells], rows.length = 2 :=
  List.forall_mem_singleton.mpr rfl

/-- Their table. -/
def textTable : Table where
  schema := oneFieldSchema textField
  rowCount := 2
  columns := [textCells]
  admitted := textCells_admitted
  rectangular := textCells_length

/-- The block stores it. -/
theorem textBlock_denotes : Denotes textBlock textTable where
  schema := rfl
  rowCount := rfl
  columns := congrArg (fun rows => [rows]) cells_textColumn

/-! ## Complete -/

/-- Columns for the cells of every field. -/
theorem exists_columns {limits : ResourceLimits} {rowCount : UInt64}
    {fields : List Field} {columns : List (List Cell)}
    (hadmits : List.Forall₂ Admits fields columns)
    (hwithin : List.Forall₂ (CellsWithin limits) fields columns)
    (hlength : ∀ rows ∈ columns, rows.length = rowCount.toNat)
    (hbytes : (List.zipWith (fun field cells => cellBytes field.type cells)
      fields columns).sum < 2 ^ 64) :
    ∃ found, List.Forall₂ (Suitable rowCount limits) fields found
      ∧ found.map cells = columns
      ∧ totalBytes rowCount found
        = (List.zipWith (fun field cells => cellBytes field.type cells)
            fields columns).sum := by
  induction hadmits with
  | nil => exact ⟨[], .nil, rfl, rfl⟩
  | @cons field rows fields columns hfirst _ ih =>
      obtain ⟨hcells, hothers⟩ := List.forall₂_cons.mp hwithin
      obtain ⟨hrows, hrest⟩ := List.forall_mem_cons.mp hlength
      rw [List.zipWith_cons_cons, List.sum_cons] at hbytes
      obtain ⟨found, hsuitable, hfound, htotal⟩ :=
        ih hothers hrest (by omega)
      obtain ⟨column, hfits, hsame, hcountable, hcolumn⟩ :=
        exists_column hrows hfirst hcells.countable (by omega)
      have hrecords : RecordsWithin limits.maximumRecordBytes column := by
        rw [within_cells_iff hfits, hsame]
        exact hcells.records
      refine ⟨column :: found, .cons ⟨hcountable, hfits, hrecords⟩ hsuitable,
        ?_, ?_⟩
      · rw [List.map_cons, hsame, hfound]
      · rw [totalBytes_cons, hcolumn, htotal, List.zipWith_cons_cons,
          List.sum_cons]

/-- The calls that set one suitable column for every field set it. -/
theorem columnSet_columnCalls {schema : Schema} (hschema : Accepted schema)
    {rowCount : UInt64} {limits : ResourceLimits} {columns : List Column}
    (h : List.Forall₂ (Suitable rowCount limits) schema.fields columns) :
    ((columnCalls schema.fields columns).map ColumnCall.fieldId).Nodup
      ∧ List.Forall₂ (fun field column =>
        columnSet (columnCalls schema.fields columns) field.id = some column
          ∧ Suitable rowCount limits field column) schema.fields columns := by
  have hids : ((columnCalls schema.fields columns).map
      ColumnCall.fieldId).Nodup := by
    rw [columnCalls_ids h.length_eq, List.Nodup, List.pairwise_map]
    exact (accepted_sound hschema).distinct.imp And.left
  refine ⟨hids, ?_⟩
  rw [List.forall₂_iff_get] at h ⊢
  refine ⟨h.1, ?_⟩
  intro i hi hi'
  exact ⟨columnSet_of_mem hids (mem_columnCalls hi hi'), h.2 i hi hi'⟩

/-- **EXACTLY THE TABLES WITHIN THE LIMITS** are stored: some calls with
    columns from the column builders make a block of a table exactly when its
    rows, its values and its bytes, without a bitmap where there is no null,
    are within the limits. -/
theorem storable_iff_stored {table : Table} (hschema : Accepted table.schema)
    (id : UInt64) (limits : ResourceLimits) :
    (∃ (rowCount : UInt64) (calls : List ColumnCall) (block : Block),
      (∀ call ∈ calls, Built call.column)
        ∧ ((finalState setColumnStep (newBuilder table.schema id rowCount)
            calls).finish limits).1 = .ok block
        ∧ Denotes block table)
      ↔ Storable limits table := by
  constructor
  · rintro ⟨rowCount, calls, block, _, hblock, hdenotes⟩
    obtain ⟨other, hother, hstorable, _⟩ := table_of_published hblock
    rw [denotes_unique hdenotes hother]
    exact hstorable
  · intro h
    obtain ⟨rowCount, hcount, hrows⟩ := exists_word_le h.rows
    have hbytes : tableBytes table < 2 ^ 64 :=
      Nat.lt_of_le_of_lt h.bytes limits.maximumDecodedBlockBytes.toNat_lt
    obtain ⟨columns, hsuitable, hcells, htotal⟩ :=
      exists_columns table.admitted h.cells
        (fun rows hmem => (table.rectangular rows hmem).trans hcount.symm)
        hbytes
    obtain ⟨_, hset⟩ := columnSet_columnCalls hschema hsuitable
    have hrow : rowCount ≠ 0 := by
      rintro rfl
      have hone := h.some_row
      rw [← hcount] at hone
      exact absurd hone (by decide)
    refine ⟨rowCount, columnCalls table.schema.fields columns, _,
      fun call _ => built call.column,
      finish_of_suitable hschema h.limits_valid hrow hrows hset ?_,
      rfl, hcount, hcells⟩
    rw [htotal]
    exact h.bytes

/-- The table can be stored. -/
theorem storable_iff_stored_at_textTable :
    Storable defaultResourceLimits textTable :=
  (@storable_iff_stored textTable textField_accepted 7
    defaultResourceLimits).mp
      ⟨2, [⟨1, textColumn⟩], textBlock, fun call _ => built call.column,
        textBlock_published, textBlock_denotes⟩

/-! ## One form -/

section Canonical

variable {builder builder' : BlockBuilder} {limits limits' : ResourceLimits}
  {block block' : Block}

/-- The columns of a block that was given out are suitable for its fields. -/
theorem suitable_of_published (h : (builder.finish limits).1 = .ok block) :
    List.Forall₂ (Suitable block.rowCount limits) block.schema.fields
      block.columns := by
  obtain ⟨_, found, hvalid, rfl⟩ := finish_eq_ok.mp h
  obtain ⟨_, _, _, _, hall, _⟩ := validate_eq_ok.mp hvalid
  exact hall.imp fun _ _ hpasses =>
    ⟨hpasses.countable, hpasses.fits, hpasses.within⟩

/-- Dropping bitmaps leaves the cells. -/
theorem map_cells_tightened (columns : List Column) :
    (columns.map tightened).map cells = columns.map cells := by
  rw [List.map_map]
  exact List.map_congr_left fun column _ => cells_tightened column

/-- **ONE FORM**: two blocks that were given out, under any limits, store the
    same table exactly when they have the same schema, rows and columns up to
    bitmaps that mark every row valid. -/
theorem same_table_iff (h : (builder.finish limits).1 = .ok block)
    (h' : (builder'.finish limits').1 = .ok block') :
    (∃ table, Denotes block table ∧ Denotes block' table)
      ↔ block.schema = block'.schema ∧ block.rowCount = block'.rowCount
        ∧ block.columns.map tightened = block'.columns.map tightened := by
  constructor
  · rintro ⟨table, hdenotes, hdenotes'⟩
    have hschema := hdenotes.schema.trans hdenotes'.schema.symm
    have hrows := UInt64.toNat_inj.mp
      (hdenotes.rowCount.trans hdenotes'.rowCount.symm)
    have hcells := hdenotes.columns.trans hdenotes'.columns.symm
    have hsuitable := suitable_of_published h
    have hsuitable' := suitable_of_published h'
    rw [← hschema, ← hrows] at hsuitable'
    refine ⟨hschema, hrows, ?_⟩
    have hlength : block.columns.length = block'.columns.length := by
      rw [← List.length_map cells, hcells, List.length_map]
    apply List.ext_getElem
    · rw [List.length_map, List.length_map, hlength]
    · intro i hi hi'
      rw [List.length_map] at hi hi'
      have hfields : i < block.schema.fields.length :=
        hsuitable.length_eq ▸ hi
      have hfits := (hsuitable.get hfields hi).fits
      have hfits' := (hsuitable'.get hfields hi').fits
      have hsame : cells block.columns[i] = cells block'.columns[i] := by
        have hrow := congrArg (fun columns => columns[i]?) hcells
        simp only [List.getElem?_map, List.getElem?_eq_getElem hi,
          List.getElem?_eq_getElem hi', Option.map_some,
          Option.some.injEq] at hrow
        exact hrow
      rw [List.getElem_map, List.getElem_map]
      exact tightened_eq hfits hfits' hsame
  · rintro ⟨hschema, hrows, hcolumns⟩
    obtain ⟨table, hdenotes, _⟩ := table_of_published h
    refine ⟨table, hdenotes, ⟨?_, ?_, ?_⟩⟩
    · rw [← hschema]
      exact hdenotes.schema
    · rw [← hrows]
      exact hdenotes.rowCount
    · rw [← map_cells_tightened, ← hcolumns, map_cells_tightened]
      exact hdenotes.columns

/-- The bitmap without a null is dropped. -/
theorem tightened_byteColumn (flagged : Bool) :
    tightened (byteColumn flagged) = byteColumn false := by
  cases flagged with
  | false => exact tightened_of_no_nulls rfl
  | true => exact tightened_of_no_nulls rfl

/-- The byte column with a bitmap that marks both rows, and without it. -/
theorem same_table_iff_at_pairBlock :
    pairBlock true ≠ pairBlock false
      ∧ ∃ table, Denotes (pairBlock true) table
        ∧ Denotes (pairBlock false) table := by
  refine ⟨?_, (same_table_iff (pairBlock_published true)
    (pairBlock_published false)).mpr ⟨rfl, rfl, ?_⟩⟩
  · intro hsame
    have hbitmaps := congrArg (fun block =>
      block.columns.map (·.validity.isSome)) hsame
    revert hbitmaps
    decide
  · show [tightened textColumn, tightened (byteColumn true)]
      = [tightened textColumn, tightened (byteColumn false)]
    rw [tightened_byteColumn, tightened_byteColumn]

/-- The block without bitmaps that mark every row valid. -/
def canonicalForm (block : Block) : Block :=
  { block with columns := block.columns.map tightened }

/-- The canonical form stores the same table. -/
theorem denotes_canonicalForm {table : Table} :
    Denotes (canonicalForm block) table ↔ Denotes block table := by
  constructor
  · rintro ⟨hschema, hrows, hcolumns⟩
    refine ⟨hschema, hrows, ?_⟩
    rw [← map_cells_tightened]
    exact hcolumns
  · rintro ⟨hschema, hrows, hcolumns⟩
    refine ⟨hschema, hrows, ?_⟩
    exact (map_cells_tightened block.columns).trans hcolumns

/-- Columns without needless bitmaps suit their fields, in the fewest bytes.
    -/
theorem suitable_tightened {rowCount : UInt64} {fields : List Field}
    {columns : List Column}
    (h : List.Forall₂ (Suitable rowCount limits) fields columns) :
    List.Forall₂ (Suitable rowCount limits) fields
        (columns.map tightened)
      ∧ totalBytes rowCount (columns.map tightened)
        = (List.zipWith (fun field cells => cellBytes field.type cells)
            fields (columns.map cells)).sum := by
  induction h with
  | nil => exact ⟨.nil, rfl⟩
  | @cons field column fields columns hfirst _ ih =>
      obtain ⟨hsuitable, htotal⟩ := ih
      obtain ⟨hfits, hnulls⟩ := fits_tightened hfirst.fits
      constructor
      · refine .cons ⟨?_, hfits, ?_⟩ hsuitable
        · rw [hnulls]
          exact countFits_tightened hfirst.countable
        · rw [within_cells_iff hfits, cells_tightened,
            ← within_cells_iff hfirst.fits]
          exact hfirst.within
      · rw [List.map_cons, totalBytes_cons, htotal,
          columnBytes_tightened hfirst.fits, List.map_cons,
          List.zipWith_cons_cons, List.sum_cons]

/-- **THE CANONICAL FORM** of a block that was given out is given out under
    the same limits, stores the same table, and takes no more bytes than any
    block that stores it. -/
theorem canonical_form_minimal (hschema : Accepted block.schema)
    (h : (builder.finish limits).1 = .ok block) :
    ((finalState setColumnStep
        (newBuilder block.schema block.id block.rowCount)
        (columnCalls block.schema.fields
          (canonicalForm block).columns)).finish limits).1
        = .ok (canonicalForm block)
      ∧ (∀ table, Denotes (canonicalForm block) table
          ↔ Denotes block table)
      ∧ ∀ (builder' : BlockBuilder) (limits' : ResourceLimits)
          (block' : Block) (table : Table),
        (builder'.finish limits').1 = .ok block' → Denotes block table →
        Denotes block' table →
        totalBytes block.rowCount (canonicalForm block).columns
          ≤ totalBytes block'.rowCount block'.columns := by
  obtain ⟨table, hdenotes, hstorable, _⟩ := table_of_published h
  obtain ⟨hsuitable, htotal⟩ := suitable_tightened (suitable_of_published h)
  have hbytes : totalBytes block.rowCount (canonicalForm block).columns
      = tableBytes table := by
    rw [tableBytes, ← hdenotes.columns, ← hdenotes.schema]
    exact htotal
  refine ⟨?_, fun _ => denotes_canonicalForm, ?_⟩
  · obtain ⟨_, hset⟩ := columnSet_columnCalls hschema hsuitable
    obtain ⟨_, found, hvalid, rfl⟩ := finish_eq_ok.mp h
    obtain ⟨hlimits, hrow, hrows, _, _, _⟩ := validate_eq_ok.mp hvalid
    exact finish_of_suitable hschema hlimits hrow hrows hset
      (Nat.le_trans (Nat.le_of_eq hbytes) hstorable.bytes)
  · intro builder' limits' block' other hpublished hother hother'
    obtain ⟨table', hdenotes', _, hmore⟩ := table_of_published hpublished
    rw [hbytes, denotes_unique hdenotes hother,
      denotes_unique hother' hdenotes']
    exact hmore

/-- The canonical form of the block has no bitmap there. -/
theorem canonicalForm_pairBlock :
    canonicalForm (pairBlock true) = pairBlock false := by
  show { pairBlock true with columns :=
    [tightened textColumn, tightened (byteColumn true)] } = pairBlock false
  rw [tightened_byteColumn, tightened_of_nulls (by decide)]
  rfl

/-- The bitmap of the byte column goes, and its byte with it. -/
theorem canonical_form_minimal_at_pairBlock :
    ((finalState setColumnStep (newBuilder pairSchema 7 2)
        (columnCalls [textField, byteField]
          (pairBlock false).columns)).finish defaultResourceLimits).1
        = .ok (pairBlock false)
      ∧ totalBytes 2 (pairBlock false).columns = 21
      ∧ totalBytes 2 (pairBlock true).columns = 22
      ∧ totalBytes 2 (pairBlock false).columns
        ≤ totalBytes 2 (pairBlock true).columns := by
  obtain ⟨hgiven, _, hleast⟩ :=
    canonical_form_minimal pairSchema_accepted (pairBlock_published true)
  obtain ⟨table, hdenotes, _⟩ := table_of_published (pairBlock_published true)
  have hbytes := hleast _ _ _ table (pairBlock_published true) hdenotes hdenotes
  rw [canonicalForm_pairBlock] at hgiven hbytes
  exact ⟨hgiven, by decide, by decide, hbytes⟩

end Canonical

/-! ## Reading a row -/

/-- The values of a variable-width column are its slices. -/
theorem denseValues_variable {column : Column} {offsets : OffsetBuffer}
    {payload : ByteBuffer} (hkind : column.storageKind = .variableWidth)
    (hoffsets : column.offsets = some offsets)
    (hpayload : column.payload = some payload) :
    denseValues column = (slices offsets payload).map .bytes := by
  rw [denseValues, hkind, hoffsets, hpayload]

/-- The cell of a row: the value of its rank where the row is valid. -/
theorem cell_of_row {column : Column} {row : UInt64}
    (hstorage : StorageFits (denseCount column) column)
    (h : row < column.rowCount) :
    (rowIsValid column row = false ∧ (cells column)[row.toNat]? = some none)
      ∨ ∃ value, rowIsValid column row = true
        ∧ (denseValues column)[rank (validRows column) row.toNat]?
          = some value
        ∧ (cells column)[row.toNat]? = some (some value) := by
  have hrow := validRows_getElem? h
  have hcell := scatter_getElem? (validRows column) (denseValues column)
    row.toNat
  rw [hrow, Option.map_some] at hcell
  cases hvalid : rowIsValid column row with
  | false =>
      rw [hvalid] at hcell
      exact Or.inl ⟨rfl, hcell⟩
  | true =>
      rw [hvalid] at hrow hcell
      have hrank := rank_lt_count hrow
      rw [count_true_validRows, ← (stores_of_fits hstorage).2] at hrank
      have hvalue := List.getElem?_eq_getElem hrank
      rw [if_pos rfl, hvalue] at hcell
      exact Or.inr ⟨_, rfl, hvalue, hcell⟩

/-- **READING BACK**: asking whether a row is valid and selecting the value of
    its rank gives the cell of the row. -/
theorem cells_read_back {builder : BlockBuilder} {limits : ResourceLimits}
    {block : Block} {table : Table} {index : Nat} {field : Field}
    {rows : List Cell} (h : (builder.finish limits).1 = .ok block)
    (hdenotes : Denotes block table)
    (hfield : block.schema.fields[index]? = some field)
    (hrows : table.columns[index]? = some rows)
    (hkind : storageOf field.type = .variableWidth) :
    ∃ column, block.findColumn field.id = some (some column)
      ∧ ∀ row : UInt64, row < block.rowCount →
        (rows[row.toNat]? = some none ↔ rowIsValid column row = false)
          ∧ ∀ data, rows[row.toNat]? = some (some (.bytes data))
            ↔ rowIsValid column row = true
              ∧ block.variableValue field.id
                  (UInt64.ofNat (rank (validRows column) row.toNat))
                = some (.ok data) := by
  obtain ⟨_, found, hvalid, hblock⟩ := finish_eq_ok.mp h
  obtain ⟨_, _, _, _, hall, _⟩ := validate_eq_ok.mp hvalid
  have hpasses : List.Forall₂ (Passes builder.columns block.rowCount limits)
      block.schema.fields block.columns := by
    rw [hblock]
    exact hall
  -- the column of the field, which is also the one its id finds
  rw [← hdenotes.columns, List.getElem?_map, Option.map_eq_some_iff] at hrows
  obtain ⟨column, hcolumn, rfl⟩ := hrows
  have hnames : Names block field.id column :=
    ⟨index, field, hfield, rfl, hcolumn⟩
  rcases findColumn_spec hpasses field.id with
    ⟨_, hunnamed⟩ | ⟨other, hfound, hnamed⟩
  · exact (hunnamed column hnames).elim
  obtain rfl := (hnamed column).mp hnames
  have hfits := (passes_at hpasses hfield hcolumn).fits
  have hstorage := storage_of_fits hfits
  rw [← hfits.type, ← storageKind_eq] at hkind
  obtain ⟨offsets, payload, hoffsets, hpayload, hfit, _⟩ :=
    variable_components hpasses hnames hkind
  have hselect := variableValue_variable hfound hkind hoffsets hpayload hfit
  have hdense := denseValues_variable hkind hoffsets hpayload
  refine ⟨column, hfound, ?_⟩
  intro row hrow
  rw [← hfits.rows] at hrow
  rcases cell_of_row hstorage hrow with
    ⟨hnull, hcell⟩ | ⟨value, hvalid, hvalue, hcell⟩
  · rw [hcell, hnull]
    refine ⟨iff_of_true rfl rfl, ?_⟩
    intro data
    exact iff_of_false (fun hc => by cases hc) fun hc => by cases hc.1
  · have hrank : rank (validRows column) row.toNat < 2 ^ 64 := by
      have hle : rank (validRows column) row.toNat ≤ row.toNat :=
        Nat.le_trans List.count_le_length (List.length_take_le _ _)
      exact Nat.lt_of_le_of_lt hle row.toNat_lt
    have hword := UInt64.toNat_ofNat_of_lt' hrank
    rw [hcell, hvalid, hselect, hword]
    refine ⟨iff_of_false (fun hc => by cases hc) nofun, ?_⟩
    intro data
    rw [select_eq_ok]
    rw [hdense, List.getElem?_map, Option.map_eq_some_iff] at hvalue
    obtain ⟨slice, hslice, rfl⟩ := hvalue
    rw [hslice, Option.some.injEq, Option.some.injEq, Value.bytes.injEq,
      Option.some.injEq, and_iff_right rfl]

/-- Reading the value and the null. -/
theorem cells_read_back_at_textBlock :
    ∃ column, textBlock.findColumn 1 = some (some column)
      ∧ ∀ row : UInt64, row < 2 →
        (textCells[row.toNat]? = some none ↔ rowIsValid column row = false)
          ∧ ∀ data, textCells[row.toNat]? = some (some (.bytes data))
            ↔ rowIsValid column row = true
              ∧ textBlock.variableValue 1
                  (UInt64.ofNat (rank (validRows column) row.toNat))
                = some (.ok data) :=
  @cells_read_back _ _ _ _ 0 textField textCells textBlock_published
    textBlock_denotes rfl rfl (by decide)

/-! ## Rebuilding -/

/-- **CALL ORDER** is irrelevant: only the first column set for each field of
    the schema matters, so calls for different fields may be permuted, and
    refused calls left out. -/
theorem set_column_order_free (schema : Schema) (id rowCount : UInt64)
    (limits : ResourceLimits) :
    (∀ calls calls' : List ColumnCall,
      (∀ field ∈ schema.fields,
        columnSet calls field.id = columnSet calls' field.id) →
      (finalState setColumnStep (newBuilder schema id rowCount) calls).finish
          limits
        = (finalState setColumnStep (newBuilder schema id rowCount)
            calls').finish limits)
    ∧ ∀ calls calls' : List ColumnCall,
      (calls.map ColumnCall.fieldId).Nodup → calls.Perm calls' →
      (finalState setColumnStep (newBuilder schema id rowCount) calls).finish
          limits
        = (finalState setColumnStep (newBuilder schema id rowCount)
            calls').finish limits := by
  constructor
  · intro calls calls' h
    rw [finalState_eq_of_columnSet h]
  · intro calls calls' hids hperm
    rw [finalState_eq_of_columnSet fun field _ =>
      columnSet_perm hids hperm field.id]

/-- Two columns set in either order. -/
theorem set_column_order_free_at_pairBlock :
    (finalState setColumnStep (newBuilder pairSchema 7 2)
        [⟨1, textColumn⟩, ⟨2, byteColumn true⟩]).finish defaultResourceLimits
      = (finalState setColumnStep (newBuilder pairSchema 7 2)
          [⟨2, byteColumn true⟩, ⟨1, textColumn⟩]).finish
            defaultResourceLimits := by
  obtain ⟨_, hperm⟩ := set_column_order_free pairSchema 7 2
    defaultResourceLimits
  have hids : ([⟨1, textColumn⟩, ⟨2, byteColumn true⟩].map
      ColumnCall.fieldId).Nodup := by decide
  exact hperm _ _ hids (List.Perm.swap _ _ [])

/-- **REBUILDING**: the columns of a block that was given out, set in any
    order, are given out as the same block again. -/
theorem published_block_rebuilds {builder : BlockBuilder}
    {limits : ResourceLimits} {block : Block} (hschema : Accepted block.schema)
    (h : (builder.finish limits).1 = .ok block) {calls : List ColumnCall}
    (hcalls : calls.Perm (columnCalls block.schema.fields block.columns)) :
    ((finalState setColumnStep
        (newBuilder block.schema block.id block.rowCount) calls).finish
          limits).1 = .ok block := by
  obtain ⟨hids, hset⟩ :=
    columnSet_columnCalls hschema (suitable_of_published h)
  have hfirst : ∀ field ∈ block.schema.fields, columnSet calls field.id
      = columnSet (columnCalls block.schema.fields block.columns) field.id :=
    fun field _ => (columnSet_perm hids hcalls.symm field.id).symm
  have hsame := finalState_eq_of_columnSet hfirst block.id block.rowCount
  rw [hsame]
  obtain ⟨_, found, hvalid, rfl⟩ := finish_eq_ok.mp h
  obtain ⟨hlimits, hrow, hrows, _, _, hbytes⟩ := validate_eq_ok.mp hvalid
  exact finish_of_suitable hschema hlimits hrow hrows hset hbytes

/-- The byte column is set before the text column. -/
theorem published_block_rebuilds_at_pairBlock :
    ((finalState setColumnStep (newBuilder pairSchema 7 2)
        [⟨2, byteColumn true⟩, ⟨1, textColumn⟩]).finish
          defaultResourceLimits).1 = .ok (pairBlock true) :=
  published_block_rebuilds pairSchema_accepted (pairBlock_published true)
    (List.Perm.swap _ _ [])

end ShiboriTableRefinement
