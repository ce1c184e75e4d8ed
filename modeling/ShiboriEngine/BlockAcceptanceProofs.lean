import Mathlib
import ShiboriEngine.SchemaProofs
import ShiboriEngine.BlockProofs

/-! # When a block is accepted

    A builder keeps the first column set for each field of its schema and
    refuses every other call.  From there `finish` accepts exactly when every
    field has a column that fits it, the rows and the values are within their
    limits, and the decoded bytes of all columns together are. -/

namespace ShiboriBlockAcceptance

open ShiboriError ShiboriResource ShiboriSchema ShiboriSchemaFacts
open ShiboriColumn ShiboriColumnFacts ShiboriBlock ShiboriColumnValidation
open ShiboriBlockFacts Words

/-! ## The columns that were set -/

/-- The column of the first call for the field. -/
def columnSet (calls : List ColumnCall) (fieldId : UInt32) : Option Column :=
  (calls.find? (·.fieldId = fieldId)).map ColumnCall.column

/-- What a builder holds after some calls of `set_column`. -/
structure Holds (schema : Schema) (id rowCount : UInt64)
    (calls : List ColumnCall) (builder : BlockBuilder) : Prop where
  schema_eq : builder.schema = schema
  id_eq : builder.id = id
  rowCount_eq : builder.rowCount = rowCount
  not_finished : builder.finished = false
  columns : ∀ fieldId, builder.columns[fieldId]?
    = if (schema.findField fieldId).isSome then columnSet calls fieldId
      else none

/-- A later call counts only for a field that has no column yet. -/
theorem columnSet_concat (calls : List ColumnCall) (call : ColumnCall)
    (fieldId : UInt32) :
    columnSet (calls ++ [call]) fieldId
      = (columnSet calls fieldId).or
          (if call.fieldId = fieldId then some call.column else none) := by
  rw [columnSet, columnSet, List.find?_append, Option.map_or]
  by_cases h : call.fieldId = fieldId
  · rw [if_pos h, List.find?_cons_of_pos (by exact decide_eq_true h)]
    rfl
  · rw [if_neg h, List.find?_cons_of_neg (by simpa using h)]
    rfl

/-- **SET COLUMN** keeps the first column of every field. -/
theorem setColumn_holds {schema : Schema} {id rowCount : UInt64}
    {calls : List ColumnCall} {builder : BlockBuilder}
    (h : Holds schema id rowCount calls builder) (call : ColumnCall) :
    Holds schema id rowCount (calls ++ [call])
      (setColumnStep builder call).2 := by
  have hnotfinished : ¬ builder.finished = true := by
    rw [h.not_finished]
    exact Bool.false_ne_true
  show Holds schema id rowCount (calls ++ [call])
    (builder.setColumn call.fieldId call.column).2
  rw [BlockBuilder.setColumn]
  -- A second column for a field is refused, and the first one stays.
  by_cases hset : call.fieldId ∈ builder.columns
  · rw [if_pos (Or.inr hset)]
    refine ⟨h.schema_eq, h.id_eq, h.rowCount_eq, h.not_finished, fun fieldId => ?_⟩
    have hown := h.columns call.fieldId
    rw [Std.ExtTreeMap.mem_iff_isSome_getElem?, hown] at hset
    rw [h.columns, columnSet_concat]
    by_cases hsame : call.fieldId = fieldId
    · subst hsame
      by_cases hknown : (schema.findField call.fieldId).isSome = true
      · rw [if_pos hknown] at hset
        obtain ⟨column, hcolumn⟩ := Option.isSome_iff_exists.mp hset
        rw [hcolumn, Option.some_or]
      · rw [if_neg hknown, if_neg hknown]
    · rw [if_neg hsame, Option.or_none]
  have hfree : ¬ (builder.finished = true
      ∨ call.fieldId ∈ builder.columns) :=
    not_or.mpr ⟨hnotfinished, hset⟩
  rw [if_neg hfree, h.schema_eq]
  -- A field the schema does not know is refused as well.
  rcases Option.eq_none_or_eq_some (schema.findField call.fieldId) with
    hnone | ⟨field, hsome⟩
  · rw [if_pos (by rw [hnone]; rfl)]
    refine ⟨h.schema_eq, h.id_eq, h.rowCount_eq, h.not_finished,
      fun fieldId => ?_⟩
    rw [h.columns, columnSet_concat]
    by_cases hsame : call.fieldId = fieldId
    · have hunknown : ¬ (schema.findField fieldId).isSome = true := by
        rw [← hsame, hnone]
        exact Bool.false_ne_true
      rw [if_neg hunknown, if_neg hunknown]
    · rw [if_neg hsame, Option.or_none]
  · have hknown : (schema.findField call.fieldId).isSome = true := by
      rw [hsome]
      rfl
    rw [if_neg (by rw [hsome]; exact Bool.false_ne_true)]
    refine ⟨rfl, h.id_eq, h.rowCount_eq, h.not_finished, fun fieldId => ?_⟩
    show (builder.columns.insert call.fieldId call.column)[fieldId]? = _
    rw [Std.ExtTreeMap.getElem?_insert, h.columns, columnSet_concat]
    by_cases hsame : call.fieldId = fieldId
    · subst hsame
      have hnone : columnSet calls call.fieldId = none := by
        have hown := h.columns call.fieldId
        rw [if_pos hknown] at hown
        rw [← hown]
        exact Std.ExtTreeMap.getElem?_eq_none hset
      rw [if_pos Std.ReflCmp.compare_self, if_pos hknown, hnone, if_pos rfl,
        Option.none_or]
    · have hother : ¬ compare call.fieldId fieldId = .eq := fun hc =>
        hsame (Std.LawfulEqCmp.eq_of_compare hc)
      rw [if_neg hother, if_neg hsame, Option.or_none]

/-- **RUN**: the builder holds the first column of every field. -/
theorem run_holds (schema : Schema) (id rowCount : UInt64)
    (calls : List ColumnCall) :
    Holds schema id rowCount calls
      (Machine.finalState setColumnStep (newBuilder schema id rowCount)
        calls) := by
  induction calls using List.reverseRecOn with
  | nil =>
      refine ⟨rfl, rfl, rfl, rfl, fun fieldId => ?_⟩
      show (∅ : Std.ExtTreeMap UInt32 Column compare)[fieldId]? = _
      rw [Std.ExtTreeMap.getElem?_empty]
      exact (ite_self none).symm
  | append_singleton calls call ih =>
      rw [Machine.finalState_concat]
      exact setColumn_holds ih call

/-! ## Counting the columns -/

/-- A field is found exactly when the schema has its id. -/
theorem findField_isSome_iff {schema : Schema} {fieldId : UInt32} :
    (schema.findField fieldId).isSome = true
      ↔ fieldId ∈ schema.fields.map Field.id := by
  rw [Schema.findField, List.find?_isSome, List.mem_map]
  constructor
  · rintro ⟨field, hfield, hid⟩
    exact ⟨field, hfield, of_decide_eq_true hid⟩
  · rintro ⟨field, hfield, hid⟩
    exact ⟨field, hfield, decide_eq_true hid⟩

/-- The field of a schema finds the column that was set for it. -/
theorem holds_column {schema : Schema} {id rowCount : UInt64}
    {calls : List ColumnCall} {builder : BlockBuilder}
    (h : Holds schema id rowCount calls builder) {field : Field}
    (hfield : field ∈ schema.fields) :
    builder.columns[field.id]? = columnSet calls field.id := by
  rw [h.columns, if_pos (findField_isSome_iff.mpr (List.mem_map_of_mem hfield))]

/-- Once every field has a column there is nothing else in the map. -/
theorem size_eq_fieldCount {schema : Schema} {id rowCount : UInt64}
    {calls : List ColumnCall} {builder : BlockBuilder}
    (hdistinct : schema.fields.Pairwise Distinct)
    (h : Holds schema id rowCount calls builder)
    (hset : ∀ field ∈ schema.fields, (columnSet calls field.id).isSome = true) :
    builder.columns.size = schema.fieldCount := by
  have hids : (schema.fields.map Field.id).Nodup := by
    rw [List.Nodup, List.pairwise_map]
    exact hdistinct.imp And.left
  have hmem : ∀ fieldId, fieldId ∈ builder.columns.keys
      ↔ fieldId ∈ schema.fields.map Field.id := by
    intro fieldId
    rw [Std.ExtTreeMap.mem_keys, Std.ExtTreeMap.mem_iff_isSome_getElem?,
      h.columns, ← findField_isSome_iff]
    by_cases hknown : (schema.findField fieldId).isSome = true
    · rw [if_pos hknown]
      obtain ⟨field, hfield, rfl⟩ :=
        List.mem_map.mp (findField_isSome_iff.mp hknown)
      exact iff_of_true (hset field hfield) hknown
    · rw [if_neg hknown]
      exact iff_of_false Bool.false_ne_true hknown
  -- Both lists of ids are without repetition, so having the same members they
  -- have the same length.
  have hperm : builder.columns.keys.Perm (schema.fields.map Field.id) :=
    (List.perm_ext_iff_of_nodup Std.ExtTreeMap.nodup_keys hids).mpr hmem
  rw [← Std.ExtTreeMap.length_keys, hperm.length_eq, List.length_map,
    Schema.fieldCount]

/-! ## Counting within a column -/

/-- Small buffers never reach the ends of the size computations. -/
theorem countFits_of_small {column : Column} {dense : Nat}
    (hsmall : SmallBuffers column) (hfit : StorageFits dense column) :
    CountFits dense column := by
  rw [CountFits]
  rw [StorageFits] at hfit
  cases hkind : column.storageKind with
  | fixedWidth => trivial
  | boolean =>
      rw [hkind] at hfit
      obtain ⟨values, hvalues, hlen, _⟩ := hfit
      have hvalues := hsmall.values values hvalues
      rw [hlen, bitmapBytes] at hvalues
      show dense + 7 < 2 ^ 64
      omega
  | variableWidth =>
      rw [hkind] at hfit
      obtain ⟨offsets, hoffsets, _, _, hoffsetsFit, _⟩ := hfit
      have hcount := hsmall.offsets offsets hoffsets
      rw [hoffsetsFit.count] at hcount
      show 8 * (dense + 1) < 2 ^ 64
      omega

/-! ## Acceptance -/

/-- A column the calls set for the field, that fits it and whose values are
    within the record limit. -/
structure Suits (calls : List ColumnCall) (rowCount : UInt64)
    (limits : ResourceLimits) (field : Field) (column : Column) : Prop where
  was_set : columnSet calls field.id = some column
  fits : Fits rowCount field column
  within : RecordsWithin limits.maximumRecordBytes column

/-- The columns that were set are small when all calls' are. -/
theorem columnSet_small {calls : List ColumnCall}
    (hsmall : ∀ call ∈ calls, SmallBuffers call.column) {fieldId : UInt32}
    {column : Column} (h : columnSet calls fieldId = some column) :
    SmallBuffers column := by
  rw [columnSet, Option.map_eq_some_iff] at h
  obtain ⟨call, hfind, rfl⟩ := h
  exact hsmall call (List.mem_of_find?_eq_some hfind)

/-- For the columns of a run, passing is suiting. -/
theorem passes_iff_suits {schema : Schema} {id rowCount : UInt64}
    {calls : List ColumnCall} {builder : BlockBuilder}
    {limits : ResourceLimits} {field : Field} {column : Column}
    (hsmall : ∀ call ∈ calls, SmallBuffers call.column)
    (h : Holds schema id rowCount calls builder)
    (hfield : field ∈ schema.fields) :
    Passes builder.columns rowCount limits field column
      ↔ Suits calls rowCount limits field column := by
  constructor
  · rintro ⟨hfound, _, hfit, hwithin⟩
    rw [holds_column h hfield] at hfound
    exact ⟨hfound, hfit, hwithin⟩
  · rintro ⟨hset, hfit, hwithin⟩
    refine ⟨?_, ?_, hfit, hwithin⟩
    · rw [holds_column h hfield, hset]
    · exact countFits_of_small (columnSet_small hsmall hset) hfit.storage

/-- The columns pass in order exactly when every field has one that suits it.
    -/
theorem forall₂_passes_iff_suits {schema : Schema} {id rowCount : UInt64}
    {calls : List ColumnCall} {builder : BlockBuilder}
    {limits : ResourceLimits} (hsmall : ∀ call ∈ calls, SmallBuffers call.column)
    (h : Holds schema id rowCount calls builder) {fields : List Field}
    {found : List Column} (hfields : ∀ field ∈ fields, field ∈ schema.fields) :
    List.Forall₂ (Passes builder.columns rowCount limits) fields found
      ↔ List.Forall₂ (Suits calls rowCount limits) fields found := by
  induction fields generalizing found with
  | nil => rw [List.forall₂_nil_left_iff, List.forall₂_nil_left_iff]
  | cons field fields ih =>
      rw [List.forall₂_cons_left_iff, List.forall₂_cons_left_iff]
      have hhead := hfields field List.mem_cons_self
      have htail : ∀ other ∈ fields, other ∈ schema.fields :=
        fun other hother => hfields other (List.mem_cons_of_mem _ hother)
      constructor
      · rintro ⟨column, rest, hcolumn, hrest, rfl⟩
        exact ⟨column, rest, (passes_iff_suits hsmall h hhead).mp hcolumn,
          (ih htail).mp hrest, rfl⟩
      · rintro ⟨column, rest, hcolumn, hrest, rfl⟩
        exact ⟨column, rest, (passes_iff_suits hsmall h hhead).mpr hcolumn,
          (ih htail).mpr hrest, rfl⟩

/-- **ACCEPTANCE**: after any calls of `set_column`, `finish` makes a block
    exactly when the limits are consistent, the rows are within them, every
    field has a column that suits it, and the decoded bytes of all columns,
    summed without wrapping, are within the decoded limit. -/
theorem finish_accepts_iff {schema : Schema} (hschema : Accepted schema)
    (id rowCount : UInt64) {calls : List ColumnCall}
    (hsmall : ∀ call ∈ calls, SmallBuffers call.column) (limits : ResourceLimits) :
    (∃ block, ((Machine.finalState setColumnStep
        (newBuilder schema id rowCount) calls).finish limits).1 = .ok block)
      ↔ validateResourceLimits limits = .ok ()
        ∧ 1 ≤ rowCount.toNat ∧ rowCount ≤ limits.maximumBlockRows
        ∧ ∃ columns, List.Forall₂ (Suits calls rowCount limits) schema.fields
            columns
          ∧ totalBytes rowCount columns
              ≤ limits.maximumDecodedBlockBytes.toNat := by
  have hdistinct := (accepted_sound hschema).distinct
  have hrun := run_holds schema id rowCount calls
  -- The map of the builder and the calls agree on every field of the schema.
  have hsuits : ∀ {found : List Column}, List.Forall₂ (Passes _ rowCount limits)
      schema.fields found ↔ List.Forall₂ (Suits calls rowCount limits)
        schema.fields found :=
    forall₂_passes_iff_suits hsmall hrun (fun _ hfield => hfield)
  have hrows : rowCount ≠ 0 ↔ 1 ≤ rowCount.toNat := by
    rw [ne_eq, ← UInt64.toNat_inj]
    show ¬ rowCount.toNat = 0 ↔ _
    omega
  constructor
  · rintro ⟨block, hblock⟩
    obtain ⟨_, found, hvalid, _⟩ := finish_eq_ok.mp hblock
    obtain ⟨hlimits, hnonempty, hfew, _, hall, hsum⟩ := validate_eq_ok.mp hvalid
    rw [hrun.rowCount_eq] at hnonempty hfew hall hsum
    rw [hrun.schema_eq] at hall
    exact ⟨hlimits, hrows.mp hnonempty, hfew, found, hsuits.mp hall, hsum⟩
  · rintro ⟨hlimits, hnonempty, hfew, found, hall, hsum⟩
    refine ⟨_, finish_eq_ok.mpr ⟨hrun.not_finished, found,
      validate_eq_ok.mpr ⟨hlimits, ?_, ?_, ?_, ?_, ?_⟩, rfl⟩⟩
    · rw [hrun.rowCount_eq]
      exact hrows.mpr hnonempty
    · rw [hrun.rowCount_eq]
      exact hfew
    · rw [hrun.schema_eq]
      -- the count test of the source adds nothing to finding every column
      refine size_eq_fieldCount hdistinct hrun fun field hfield => ?_
      obtain ⟨i, hi, rfl⟩ := List.getElem_of_mem hfield
      have hsuit := hall.get hi (hall.length_eq ▸ hi)
      exact Option.isSome_iff_exists.mpr ⟨_, hsuit.was_set⟩
    · rw [hrun.rowCount_eq, hrun.schema_eq]
      exact hsuits.mpr hall
    · rw [hrun.rowCount_eq]
      exact hsum

/-- A nullable strict string column named `a`. -/
def textField : Field where
  id := 1
  name := .singleton 0x61
  type := ⟨.string, .string .strict, rfl⟩
  nullable := true
  metadata := .empty

/-- A schema of one text field is accepted. -/
theorem textField_accepted : Accepted (oneFieldSchema textField) :=
  oneFieldSchema_accepted (by decide +kernel)

/-- Two rows of text, `é` and a null. -/
def textColumn : Column where
  type := textField.type
  storageKind := .variableWidth
  rowCount := 2
  validity := some ⟨2, 1, ⟨[0x01], by decide⟩, by decide⟩
  values := none
  offsets := some ⟨[0, 2], by decide⟩
  payload := some ⟨[0xc3, 0xa9], by decide⟩
  validity_rows := by
    intro v hv
    cases hv
    rfl
  shape := ⟨rfl, rfl, rfl, rfl⟩

/-- The column fits its two rows. -/
theorem textColumn_fits : Fits 2 textField textColumn where
  rows := rfl
  type := rfl
  validity := nofun
  storage := by
    refine ⟨_, rfl, _, rfl, ⟨rfl, rfl, ?_, 2, rfl, rfl⟩, fun _ => ?_⟩
    · intro i hi
      obtain rfl : i = 0 := Nat.lt_one_iff.mp (Nat.lt_of_succ_lt_succ hi)
      exact UInt64.zero_le
    · intro i hi
      obtain rfl : i = 0 := Nat.lt_one_iff.mp (Nat.lt_of_succ_lt_succ hi)
      have htext : ShiboriUtf8.validUtf8 [0xc3, 0xa9] = true := by
        decide +kernel
      exact (ShiboriUtf8.validUtf8_iff _).mp htext

/-- Its value has two bytes. -/
theorem textColumn_within {limit : UInt64} (h : 2 ≤ limit) :
    RecordsWithin limit textColumn := by
  intro offsets hoffsets i hi
  cases hoffsets
  obtain rfl : i = 0 := Nat.lt_one_iff.mp (Nat.lt_of_succ_lt_succ hi)
  exact le_toNat.mp h

/-- Its buffers are small. -/
theorem textColumn_small : SmallBuffers textColumn := by
  constructor
  · intro validity hvalidity
    cases hvalidity
    decide
  · exact nofun
  · intro offsets hoffsets
    cases hoffsets
    decide
  · intro payload hpayload
    cases hpayload
    decide

/-- A column with a value and a null is accepted. -/
theorem finish_accepts_iff_at_textColumn :
    ∃ block, ((Machine.finalState setColumnStep
        (newBuilder (oneFieldSchema textField) 7 2)
        [⟨1, textColumn⟩]).finish defaultResourceLimits).1 = .ok block :=
  (finish_accepts_iff textField_accepted 7 2
    (List.forall_mem_singleton.mpr textColumn_small)
    defaultResourceLimits).mpr
      ⟨defaultResourceLimits_valid, by decide, by decide, [textColumn],
        .cons ⟨rfl, textColumn_fits, textColumn_within (by decide)⟩ .nil,
        by decide⟩

end ShiboriBlockAcceptance
