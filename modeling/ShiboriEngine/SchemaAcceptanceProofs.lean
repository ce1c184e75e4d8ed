import Mathlib
import ShiboriEngine.Library.OrderedMap
import ShiboriEngine.SchemaProofs

/-! # When fields and schemas are accepted

    A builder retains the first entry for every valid key it is offered, and
    `finish` accepts by the mathematical total of the bytes it retained.  The
    incremental tests of the source are those global conditions; a tighter
    limit on input that fits some limits is reported as the limit. -/

namespace ShiboriSchemaAcceptance

open ShiboriError ShiboriResource ShiboriBuffer ShiboriLogicalType
open ShiboriSchema ShiboriSchemaFacts Machine OrderedMap

/-! ## Retained metadata -/

/-- A valid key that is new is kept, everything else refused. -/
def retain (kept : List (Bytes × Bytes)) (entry : Bytes × Bytes) :
    List (Bytes × Bytes) :=
  if validateKey entry.1 = .ok () ∧ entry.1 ∉ kept.map Prod.fst then
    kept ++ [entry]
  else kept

/-- What is left of the offered entries. -/
def retained (offered : List (Bytes × Bytes)) : List (Bytes × Bytes) :=
  offered.foldl retain []

/-- The metadata holds exactly these entries. -/
def Retains (metadata : Metadata) (kept : List (Bytes × Bytes)) : Prop :=
  metadata.toList.Perm kept

/-- Empty metadata retains nothing. -/
theorem retains_empty : Retains .empty [] := by
  have hnil : Metadata.empty.toList = [] :=
    Std.ExtTreeMap.toList_eq_nil_iff.mpr rfl
  rw [Retains, hnil]

/-- The bytes of what is retained. -/
theorem Retains.bytes_eq {metadata : Metadata} {kept : List (Bytes × Bytes)}
    (h : Retains metadata kept) :
    metadataBytes metadata = (kept.map entryBytes).sum :=
  (h.map entryBytes).sum_eq

/-- The keys of what is retained. -/
theorem Retains.mem_iff {metadata : Metadata} {kept : List (Bytes × Bytes)}
    (h : Retains metadata kept) (key : Bytes) :
    key ∈ metadata.entries ↔ key ∈ kept.map Prod.fst := by
  rw [← (h.map Prod.fst).mem_iff, ← Std.ExtTreeMap.mem_keys,
    ← Std.ExtTreeMap.map_fst_toList_eq_keys]
  exact Iff.rfl

/-- **ONE ENTRY** more, or the same entries. -/
theorem addMetadataValue_retains {metadata : Metadata}
    {kept : List (Bytes × Bytes)} (h : Retains metadata kept)
    (key value : Bytes) :
    Retains (addMetadataValue metadata key value).2
      (retain kept (key, value)) := by
  have hmem := h.mem_iff key
  rw [addMetadataValue]
  split
  · next error herror =>
      have hbad : ¬ (validateKey key = .ok () ∧ key ∉ kept.map Prod.fst) := by
        rintro ⟨hok, _⟩
        rw [herror] at hok
        cases hok
      rw [retain, if_neg hbad]
      exact h
  · next hkey =>
      by_cases hold : key ∈ metadata.entries
      · have hbad : ¬ (validateKey key = .ok () ∧ key ∉ kept.map Prod.fst) :=
          fun hc => hc.2 (hmem.mp hold)
        rw [if_pos hold, retain, if_neg hbad]
        exact h
      · rw [if_neg hold, retain, if_pos ⟨hkey, fun hc => hold (hmem.mpr hc)⟩]
        show (metadata.entries.insert key value).toList.Perm _
        refine (toList_insert_perm hold value).trans ?_
        exact (h.cons (key, value)).trans (List.perm_append_singleton _ _).symm

/-! ## Failing for the limit alone -/

/-- Metadata that can be counted fails for its limit or not at all. -/
theorem validateMetadata_error_code {metadata : Metadata}
    {limits : ResourceLimits} {aggregate : UInt64} {error : Error}
    (hfit : aggregate.toNat + metadataBytes metadata < 2 ^ 64)
    (herror : validateMetadata metadata limits aggregate = .error error) :
    error.code = .limitExceeded := by
  obtain ⟨total, htotal⟩ := Words.exists_word hfit
  rw [validateMetadata_counted htotal] at herror
  by_cases hlarge : total > limits.maximumMetadataBytes
  · rw [if_pos hlarge] at herror
    cases herror
    rfl
  · rw [if_neg hlarge] at herror
    cases herror

/-- **DISTINCT** fields that can be counted fail for the limit or not at
    all. -/
theorem validateFields_error_code {limits : ResourceLimits}
    {earlier fields : List Field} {start : UInt64} {error : Error}
    (hearlier : ∀ field ∈ fields, ∀ prior ∈ earlier, Distinct prior field)
    (hdistinct : fields.Pairwise Distinct)
    (hfit : start.toNat + (fields.map fieldBytes).sum < 2 ^ 64)
    (herror : validateFields limits earlier fields start = .error error) :
    error.code = .limitExceeded := by
  induction fields generalizing earlier start with
  | nil => cases herror
  | cons field fields ih =>
      obtain ⟨hnext, hdistinct⟩ := List.pairwise_cons.mp hdistinct
      rw [List.map_cons, List.sum_cons] at hfit
      obtain ⟨total, htotal⟩ := Words.exists_word
        (show start.toNat + fieldBytes field < 2 ^ 64 by omega)
      rw [validateFields_counted (hearlier field List.mem_cons_self) htotal]
        at herror
      by_cases hlarge : total > limits.maximumMetadataBytes
      · rw [if_pos hlarge] at herror
        cases herror
        rfl
      · rw [if_neg hlarge] at herror
        refine ih ?_ hdistinct (by omega) herror
        intro f hf prior hprior
        rcases List.mem_append.mp hprior with hold | hnew
        · exact hearlier f (List.mem_cons_of_mem _ hf) prior hold
        · rw [List.mem_singleton.mp hnew]
          exact hnext f hf

/-! ## Fields -/

/-- What a field must be like, without its size. -/
structure FieldShape (id : UInt32) (name : Bytes) : Prop where
  id_ne_zero : id ≠ 0
  name_ne_nil : name.elems ≠ []
  name_valid : Utf8.WellFormed name.elems

/-- The test at the head of `FieldBuilder::finish`. -/
theorem shape_test_iff {id : UInt32} {name : Bytes} :
    ¬ (id = 0 ∨ name.elems.isEmpty = true
        ∨ ShiboriSchema.validUtf8 name.elems = false)
      ↔ FieldShape id name := by
  rw [ShiboriSchema.validUtf8, not_or, not_or, List.isEmpty_iff,
    Bool.not_eq_false, ShiboriUtf8.validUtf8_iff]
  constructor
  · rintro ⟨hid, hname, hvalid⟩
    exact ⟨hid, hname, hvalid⟩
  · rintro ⟨hid, hname, hvalid⟩
    exact ⟨hid, hname, hvalid⟩

/-- When an open field builder finishes, and with which field. -/
theorem field_finish_eq_ok {builder : FieldBuilder} {limits : ResourceLimits}
    {field : Field} (hfresh : builder.finished = false) :
    (builder.finish limits).1 = .ok field
      ↔ FieldShape builder.id builder.name
        ∧ builder.name.elems.length + metadataBytes builder.metadata
          ≤ limits.maximumMetadataBytes.toNat
        ∧ field = { id := builder.id, name := builder.name
                    type := builder.type, nullable := builder.nullable
                    metadata := builder.metadata } := by
  have hopen : ¬ builder.finished = true :=
    Bool.eq_false_iff.mp hfresh
  rw [FieldBuilder.finish, if_neg hopen]
  dsimp only
  by_cases hshape : builder.id = 0 ∨ builder.name.elems.isEmpty = true
      ∨ ShiboriSchema.validUtf8 builder.name.elems = false
  · rw [if_pos hshape]
    constructor
    · intro h
      exact (fail_ne_ok _ _ _ _ h).elim
    · rintro ⟨h, _⟩
      exact (shape_test_iff.mpr h hshape).elim
  rw [if_neg hshape]
  constructor
  · intro h
    cases hcount : validateMetadata builder.metadata limits
        builder.name.size with
    | error error =>
        rw [hcount] at h
        cases h
    | ok total =>
        rw [hcount] at h
        cases h
        obtain ⟨htotal, hle⟩ := validateMetadata_eq_ok.mp hcount
        rw [Buffer.size_toNat] at htotal
        refine ⟨shape_test_iff.mp hshape, ?_, rfl⟩
        rw [← htotal]
        exact Words.le_toNat.mp hle
  · rintro ⟨_, hle, rfl⟩
    obtain ⟨total, htotal, hmax⟩ := Words.exists_word_le hle
    have hcount : validateMetadata builder.metadata limits
        builder.name.size = .ok total := by
      rw [validateMetadata_eq_ok, Buffer.size_toNat]
      exact ⟨htotal, hmax⟩
    rw [hcount]

/-- A field of the right shape that can be counted fails for the limit. -/
theorem field_finish_error_code {builder : FieldBuilder}
    {limits : ResourceLimits} {error : Error}
    (hfresh : builder.finished = false)
    (hshape : FieldShape builder.id builder.name)
    (hfit : builder.name.elems.length + metadataBytes builder.metadata
      < 2 ^ 64)
    (herror : (builder.finish limits).1 = .error error) :
    error.code = .limitExceeded := by
  have hopen : ¬ builder.finished = true :=
    Bool.eq_false_iff.mp hfresh
  rw [FieldBuilder.finish, if_neg hopen] at herror
  dsimp only at herror
  rw [if_neg (shape_test_iff.mpr hshape)] at herror
  cases hcount : validateMetadata builder.metadata limits
      builder.name.size with
  | error failed =>
      rw [hcount] at herror
      cases herror
      refine validateMetadata_error_code ?_ hcount
      rw [Buffer.size_toNat]
      exact hfit
  | ok total =>
      rw [hcount] at herror
      cases herror

/-- **OFFERING** entries to an open builder reaches its metadata only, and
    retains the entries to retain. -/
theorem addMetadataStep_run {builder : FieldBuilder}
    {kept : List (Bytes × Bytes)} (hfresh : builder.finished = false)
    (hkept : Retains builder.metadata kept) (offered : List (Bytes × Bytes)) :
    ∃ metadata, finalState addMetadataStep builder offered
        = { builder with metadata := metadata }
      ∧ Retains metadata (offered.foldl retain kept) := by
  induction offered generalizing builder kept with
  | nil => exact ⟨builder.metadata, rfl, hkept⟩
  | cons entry offered ih =>
      obtain ⟨key, value⟩ := entry
      have hopen : ¬ builder.finished = true :=
        Bool.eq_false_iff.mp hfresh
      have hnext : (addMetadataStep builder (key, value)).2
          = { builder with metadata :=
                (addMetadataValue builder.metadata key value).2 } := by
        rw [addMetadataStep, FieldBuilder.addMetadata, if_neg hopen]
      rw [finalState_cons, hnext, List.foldl_cons]
      exact ih hfresh (addMetadataValue_retains hkept key value)

/-! ## Schemas -/

/-- A call of `add_field` or of `add_metadata`. -/
inductive Addition where
  | ofField (field : Field)
  | ofMetadata (key value : Bytes)

namespace Addition

/-- The call that adds. -/
def call : Addition → SchemaCall
  | ofField field => .addField field
  | ofMetadata key value => .addMetadata key value

/-- The field that is added. -/
def field? : Addition → Option Field
  | ofField field => some field
  | ofMetadata _ _ => none

/-- The entry that is added. -/
def entry? : Addition → Option (Bytes × Bytes)
  | ofField _ => none
  | ofMetadata key value => some (key, value)

end Addition

/-- An open builder with these fields, in order, and these entries. -/
structure Gathered (builder : SchemaBuilder) (fields : List Field)
    (kept : List (Bytes × Bytes)) : Prop where
  fresh : builder.finished = false
  fields_eq : builder.fields = fields
  retains : Retains builder.metadata kept

/-- **STEP**: one addition more. -/
theorem gathered_step {builder : SchemaBuilder} {fields : List Field}
    {kept : List (Bytes × Bytes)} (h : Gathered builder fields kept)
    (addition : Addition) :
    Gathered (schemaBuilderStep builder addition.call).2
      (fields ++ addition.field?.toList)
      (addition.entry?.toList.foldl retain kept) := by
  have hopen : ¬ builder.finished = true :=
    Bool.eq_false_iff.mp h.fresh
  cases addition with
  | ofField field =>
      rw [Addition.call, schemaBuilderStep, SchemaBuilder.addField,
        if_neg hopen]
      exact ⟨h.fresh, congrArg (· ++ [field]) h.fields_eq, h.retains⟩
  | ofMetadata key value =>
      rw [Addition.call, schemaBuilderStep, SchemaBuilder.addMetadata,
        if_neg hopen]
      refine ⟨h.fresh, ?_, addMetadataValue_retains h.retains key value⟩
      show builder.fields = fields ++ []
      rw [List.append_nil, h.fields_eq]

/-- **GATHERING**: a run of additions gathers the fields in order and retains
    the entries to retain. -/
theorem gathered_run {builder : SchemaBuilder} {fields : List Field}
    {kept : List (Bytes × Bytes)} (h : Gathered builder fields kept)
    (additions : List Addition) :
    Gathered (finalState schemaBuilderStep builder
        (additions.map Addition.call))
      (fields ++ additions.filterMap Addition.field?)
      ((additions.filterMap Addition.entry?).foldl retain kept) := by
  induction additions generalizing builder fields kept with
  | nil =>
      rw [List.filterMap_nil, List.append_nil]
      exact h
  | cons addition additions ih =>
      have hrest := ih (gathered_step h addition)
      rw [List.map_cons, finalState_cons]
      rw [List.append_assoc, ← List.foldl_append] at hrest
      cases addition with
      | ofField field => exact hrest
      | ofMetadata key value => exact hrest

/-- Distinct fields are those with distinct ids and distinct names. -/
theorem pairwise_distinct_iff {fields : List Field} :
    fields.Pairwise Distinct
      ↔ (fields.map Field.id).Nodup ∧ (fields.map Field.name).Nodup := by
  rw [List.Nodup, List.Nodup, List.pairwise_map, List.pairwise_map,
    ← List.pairwise_and_iff]
  exact Iff.rfl

/-- The bytes of a schema, as `finish` counts them. -/
def totalBytes (fields : List Field) (kept : List (Bytes × Bytes)) : Nat :=
  (kept.map entryBytes).sum + (fields.map fieldBytes).sum

/-- What a schema must be like, without its size. -/
structure SchemaShape (fields : List Field) : Prop where
  fields_ne_nil : fields ≠ []
  ids_nodup : (fields.map Field.id).Nodup
  names_nodup : (fields.map Field.name).Nodup

/-- When a schema builder finishes, and with which schema. -/
theorem schema_finish_eq_ok {builder : SchemaBuilder} {fields : List Field}
    {kept : List (Bytes × Bytes)} (h : Gathered builder fields kept)
    {limits : ResourceLimits} {schema : Schema} :
    (builder.finish limits).1 = .ok schema
      ↔ validateResourceLimits limits = .ok ()
        ∧ SchemaShape fields
        ∧ fields.length ≤ limits.maximumFields.toNat
        ∧ totalBytes fields kept ≤ limits.maximumMetadataBytes.toNat
        ∧ schema = { fields := fields, metadata := builder.metadata
                     canonical := canonicalBytes fields builder.metadata
                     fingerprint := makeFingerprint
                       (canonicalBytes fields builder.metadata) } := by
  obtain ⟨hfresh, rfl, hretains⟩ := h
  rw [finish_eq_ok, validate_eq_ok, pairwise_distinct_iff, hretains.bytes_eq,
    totalBytes]
  constructor
  · rintro ⟨_, ⟨hlimits, hne, hfew, ⟨hids, hnames⟩, hle⟩, hschema⟩
    exact ⟨hlimits, ⟨hne, hids, hnames⟩, hfew, hle, hschema⟩
  · rintro ⟨hlimits, ⟨hne, hids, hnames⟩, hfew, hle, hschema⟩
    exact ⟨hfresh, ⟨hlimits, hne, hfew, ⟨hids, hnames⟩, hle⟩, hschema⟩

/-- A schema of the right shape that can be counted fails for a limit when the
    limits are valid. -/
theorem schema_finish_error_code {builder : SchemaBuilder}
    {fields : List Field} {kept : List (Bytes × Bytes)}
    (h : Gathered builder fields kept) {limits : ResourceLimits}
    {error : Error} (hvalid : validateResourceLimits limits = .ok ())
    (hshape : SchemaShape fields) (hfit : totalBytes fields kept < 2 ^ 64)
    (herror : (builder.finish limits).1 = .error error) :
    error.code = .limitExceeded := by
  obtain ⟨hfresh, rfl, hretains⟩ := h
  have hsome : ¬ builder.fields.isEmpty = true := by
    rw [List.isEmpty_iff]
    exact hshape.fields_ne_nil
  rw [totalBytes, ← hretains.bytes_eq] at hfit
  have hcheck := (finish_eq_error hfresh).mp herror
  rw [SchemaBuilder.validate, hvalid, ok_bind, if_neg hsome] at hcheck
  by_cases hmany : builder.fields.length > limits.maximumFields.toNat
  · rw [if_pos hmany] at hcheck
    cases hcheck
    rfl
  rw [if_neg hmany] at hcheck
  have hzero : (0 : UInt64).toNat = 0 := rfl
  cases hown : validateMetadata builder.metadata limits 0 with
  | error failed =>
      rw [hown] at hcheck
      cases hcheck
      exact validateMetadata_error_code (by omega) hown
  | ok own =>
      obtain ⟨hcount, _⟩ := validateMetadata_eq_ok.mp hown
      rw [hown, ok_bind] at hcheck
      cases hloop : validateFields limits [] builder.fields own with
      | error failed =>
          rw [hloop] at hcheck
          cases hcheck
          have hnone : ∀ field ∈ builder.fields,
              ∀ prior ∈ ([] : List Field), Distinct prior field :=
            fun _ _ _ hp => (List.not_mem_nil hp).elim
          have hdistinct : builder.fields.Pairwise Distinct :=
            pairwise_distinct_iff.mpr ⟨hshape.ids_nodup, hshape.names_nodup⟩
          exact validateFields_error_code hnone hdistinct (by omega) hloop
      | ok total =>
          rw [hloop] at hcheck
          cases hcheck

/-- With distinct ids, looking up an id finds the one field that has it. -/
theorem findField_eq_some_iff {schema : Schema}
    (hids : (schema.fields.map Field.id).Nodup) {id : UInt32} {field : Field} :
    schema.findField id = some field
      ↔ field ∈ schema.fields ∧ field.id = id := by
  rw [Schema.findField]
  constructor
  · intro h
    have htest := List.find?_some h
    exact ⟨List.mem_of_find?_eq_some h, of_decide_eq_true htest⟩
  · rintro ⟨hmem, rfl⟩
    cases hfound : schema.fields.find? (·.id = field.id) with
    | none =>
        have habsent := List.find?_eq_none.mp hfound field hmem
        exact (habsent (decide_eq_true rfl)).elim
    | some other =>
        have htest := List.find?_some hfound
        have hsame : other.id = field.id := of_decide_eq_true htest
        have hother := List.mem_of_find?_eq_some hfound
        exact congrArg some (List.inj_on_of_nodup_map hids hother hmem hsame)

/-- A field with an id stands at the one place of the list that has it. -/
theorem mem_iff_unique_index {fields : List Field}
    (hids : (fields.map Field.id).Nodup) {id : UInt32} {field : Field} :
    field ∈ fields ∧ field.id = id
      ↔ ∃ index : Nat, fields[index]? = some field ∧ field.id = id
        ∧ ∀ (other : Nat) (twin : Field), fields[other]? = some twin →
            twin.id = id → other = index := by
  constructor
  · rintro ⟨hmem, rfl⟩
    obtain ⟨index, hindex⟩ := List.mem_iff_getElem?.mp hmem
    refine ⟨index, hindex, rfl, ?_⟩
    intro other twin hother htwin
    obtain ⟨hlt, _⟩ := List.getElem?_eq_some_iff.mp hother
    have hbound : other < (fields.map Field.id).length := by
      rw [List.length_map]
      exact hlt
    refine (List.getElem?_inj hbound hids).mp ?_
    rw [List.getElem?_map, List.getElem?_map, hother, hindex, Option.map_some,
      Option.map_some, htwin]
  · rintro ⟨index, hindex, hid, _⟩
    exact ⟨List.mem_of_getElem? hindex, hid⟩

/-! ## Acceptance -/

/-- A field builder after these calls of `add_metadata`. -/
def fieldBuilderAfter (id : UInt32) (name : Bytes) (type : LogicalType)
    (nullable : Bool) (offered : List (Bytes × Bytes)) : FieldBuilder :=
  finalState addMetadataStep
    { id := id, name := name, type := type, nullable := nullable } offered

/-- A schema builder after these additions. -/
def schemaBuilderAfter (additions : List Addition) : SchemaBuilder :=
  finalState schemaBuilderStep {} (additions.map Addition.call)

/-- The fields among the additions. -/
def addedFields (additions : List Addition) : List Field :=
  additions.filterMap Addition.field?

/-- The entries among the additions. -/
def offeredEntries (additions : List Addition) : List (Bytes × Bytes) :=
  additions.filterMap Addition.entry?

/-- How a builder finishes a field with this content. -/
structure FieldAcceptance (builder : FieldBuilder) (id : UInt32)
    (name : Bytes) (type : LogicalType) (nullable : Bool)
    (kept : List (Bytes × Bytes)) : Prop where
  accepted_iff : ∀ limits, (∃ field, (builder.finish limits).1 = .ok field)
    ↔ id ≠ 0 ∧ name.elems ≠ [] ∧ Utf8.WellFormed name.elems
      ∧ name.elems.length + (kept.map entryBytes).sum
        ≤ limits.maximumMetadataBytes.toNat
  content : ∀ limits field, (builder.finish limits).1 = .ok field →
    field.id = id ∧ field.name = name ∧ field.type = type
      ∧ field.nullable = nullable ∧ Retains field.metadata kept
  /-- Failing where other limits accept is the limit's doing. -/
  limit_only : ∀ limits larger error,
    validateResourceLimits limits = .ok () →
    (∃ field, (builder.finish larger).1 = .ok field) →
    (builder.finish limits).1 = .error error → error.code = .limitExceeded

/-- How a builder finishes a schema with this content. -/
structure SchemaAcceptance (builder : SchemaBuilder) (added : List Field)
    (kept : List (Bytes × Bytes)) : Prop where
  accepted_iff : ∀ limits, (∃ schema, (builder.finish limits).1 = .ok schema)
    ↔ validateResourceLimits limits = .ok ()
      ∧ 1 ≤ added.length ∧ added.length ≤ limits.maximumFields.toNat
      ∧ (added.map Field.id).Nodup ∧ (added.map Field.name).Nodup
      ∧ totalBytes added kept ≤ limits.maximumMetadataBytes.toNat
  content : ∀ limits schema, (builder.finish limits).1 = .ok schema →
    schema.fieldCount = added.length
      ∧ (∀ index, schema.field index = added[index]?)
      ∧ Retains schema.metadata kept
  lookup : ∀ limits schema, (builder.finish limits).1 = .ok schema →
    ∀ id, (∀ field, schema.findField id = some field
        ↔ ∃ index : Nat, added[index]? = some field ∧ field.id = id
          ∧ ∀ (other : Nat) (twin : Field), added[other]? = some twin →
              twin.id = id → other = index)
      ∧ (schema.findField id = none ↔ ∀ field ∈ added, field.id ≠ id)
  /-- Failing where other limits accept is a limit's doing. -/
  limit_only : ∀ limits larger error,
    validateResourceLimits limits = .ok () →
    (∃ schema, (builder.finish larger).1 = .ok schema) →
    (builder.finish limits).1 = .error error → error.code = .limitExceeded

/-- What an open field builder accepts. -/
theorem fieldAcceptance_of_fresh {builder : FieldBuilder}
    {kept : List (Bytes × Bytes)} (hfresh : builder.finished = false)
    (hretains : Retains builder.metadata kept) :
    FieldAcceptance builder builder.id builder.name builder.type
      builder.nullable kept := by
  refine ⟨?_, ?_, ?_⟩
  · intro limits
    rw [← hretains.bytes_eq]
    constructor
    · rintro ⟨field, hfield⟩
      obtain ⟨⟨hid, hname, hvalid⟩, hle, _⟩ :=
        (field_finish_eq_ok hfresh).mp hfield
      exact ⟨hid, hname, hvalid, hle⟩
    · rintro ⟨hid, hname, hvalid, hle⟩
      exact ⟨_, (field_finish_eq_ok hfresh).mpr
        ⟨⟨hid, hname, hvalid⟩, hle, rfl⟩⟩
  · intro limits field hfield
    obtain ⟨_, _, rfl⟩ := (field_finish_eq_ok hfresh).mp hfield
    exact ⟨rfl, rfl, rfl, rfl, hretains⟩
  · intro limits larger error _ hlarger herror
    obtain ⟨field, hfield⟩ := hlarger
    obtain ⟨hshape, hle, _⟩ := (field_finish_eq_ok hfresh).mp hfield
    have hword := larger.maximumMetadataBytes.toNat_lt
    exact field_finish_error_code hfresh hshape (by omega) herror

/-- **RUN**: what a field builder accepts after any offers. -/
theorem fieldAcceptance (id : UInt32) (name : Bytes) (type : LogicalType)
    (nullable : Bool) (offered : List (Bytes × Bytes)) :
    FieldAcceptance (fieldBuilderAfter id name type nullable offered)
      id name type nullable (retained offered) := by
  have hfresh : FieldBuilder.finished
      { id := id, name := name, type := type, nullable := nullable }
        = false := rfl
  obtain ⟨metadata, hbuilder, hretains⟩ :=
    addMetadataStep_run hfresh retains_empty offered
  rw [fieldBuilderAfter, hbuilder]
  exact fieldAcceptance_of_fresh rfl hretains

/-- **RUN**: what a schema builder accepts after any additions. -/
theorem schemaAcceptance (additions : List Addition) :
    SchemaAcceptance (schemaBuilderAfter additions) (addedFields additions)
      (retained (offeredEntries additions)) := by
  have hgathered : Gathered (schemaBuilderAfter additions)
      (addedFields additions) (retained (offeredEntries additions)) :=
    gathered_run ⟨rfl, rfl, retains_empty⟩ additions
  refine ⟨?_, ?_, ?_, ?_⟩
  · intro limits
    rw [Nat.one_le_iff_ne_zero, ne_eq, List.length_eq_zero_iff]
    constructor
    · rintro ⟨schema, hschema⟩
      obtain ⟨hvalid, ⟨hne, hids, hnames⟩, hfew, hle, _⟩ :=
        (schema_finish_eq_ok hgathered).mp hschema
      exact ⟨hvalid, hne, hfew, hids, hnames, hle⟩
    · rintro ⟨hvalid, hne, hfew, hids, hnames, hle⟩
      exact ⟨_, (schema_finish_eq_ok hgathered).mpr
        ⟨hvalid, ⟨hne, hids, hnames⟩, hfew, hle, rfl⟩⟩
  · intro limits schema hschema
    obtain ⟨_, _, _, _, rfl⟩ := (schema_finish_eq_ok hgathered).mp hschema
    exact ⟨rfl, fun _ => rfl, hgathered.retains⟩
  · intro limits schema hschema id
    obtain ⟨_, ⟨_, hids, _⟩, _, _, rfl⟩ :=
      (schema_finish_eq_ok hgathered).mp hschema
    constructor
    · intro field
      rw [findField_eq_some_iff hids]
      exact mem_iff_unique_index hids
    · rw [Schema.findField, List.find?_eq_none]
      constructor
      · intro h field hfield hid
        exact h field hfield (decide_eq_true hid)
      · intro h field hfield htest
        exact h field hfield (of_decide_eq_true htest)
  · intro limits larger error hvalid hlarger herror
    obtain ⟨schema, hschema⟩ := hlarger
    obtain ⟨_, hshape, _, hle, _⟩ := (schema_finish_eq_ok hgathered).mp hschema
    have hword := larger.maximumMetadataBytes.toNat_lt
    exact schema_finish_error_code hgathered hvalid hshape (by omega) herror

/-- **ACCEPTANCE** of fields and schemas, for every input to their builders:
    by the global conditions, with the content that was added, and under
    tighter limits failing for the limit. -/
theorem schema_acceptance :
    (∀ id name type nullable offered,
      FieldAcceptance (fieldBuilderAfter id name type nullable offered)
        id name type nullable (retained offered))
    ∧ ∀ additions,
      SchemaAcceptance (schemaBuilderAfter additions) (addedFields additions)
        (retained (offeredEntries additions)) :=
  ⟨fieldAcceptance, schemaAcceptance⟩

end ShiboriSchemaAcceptance
