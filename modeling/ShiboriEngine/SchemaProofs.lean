import Mathlib
import ShiboriEngine.Schema

/-! # What a finished schema has passed

    The checked sums over metadata are the mathematical ones, and a schema that
    a builder has given out has between one and `2^32 - 1` fields with distinct
    ids and names, and metadata small enough to count. -/

namespace ShiboriSchemaFacts

open ShiboriError ShiboriResource ShiboriBuffer ShiboriLogicalType
open ShiboriSchema

/-! ## Metadata sizes -/

/-- The bytes of a key and its value. -/
def entryBytes (entry : Bytes × Bytes) : Nat :=
  entry.1.elems.length + entry.2.elems.length

/-- The mathematical size of the metadata. -/
def metadataBytes (metadata : Metadata) : Nat :=
  (metadata.toList.map entryBytes).sum

/-- Adding up checked entries from any total. -/
theorem foldlM_entries_eq_ok {entries : List (Bytes × Bytes)}
    {total t : UInt64} :
    entries.foldlM
        (fun total (key, value) => do
          let entry ← checkedAdd key.size value.size .validateSchema
            "metadata entry"
          checkedAdd total entry .validateSchema "metadata bytes") total
        = .ok t
      ↔ total.toNat + (entries.map entryBytes).sum < 2 ^ 64
        ∧ t.toNat = total.toNat + (entries.map entryBytes).sum := by
  induction entries generalizing total with
  | nil =>
      rw [List.map_nil, List.sum_nil, Nat.add_zero]
      constructor
      · intro h
        cases h
        exact ⟨t.toNat_lt, rfl⟩
      · rintro ⟨_, h⟩
        exact congrArg Except.ok (UInt64.toNat_inj.mp h.symm)
  | cons entry entries ih =>
      obtain ⟨key, value⟩ := entry
      rw [List.foldlM_cons, List.map_cons, List.sum_cons, bind_eq_ok]
      constructor
      · rintro ⟨next, hnext, hrest⟩
        obtain ⟨size, hsize, hadd⟩ := bind_eq_ok.mp hnext
        obtain ⟨_, hsize⟩ := checkedAdd_eq_ok.mp hsize
        obtain ⟨_, hadd⟩ := checkedAdd_eq_ok.mp hadd
        obtain ⟨hfit, ht⟩ := ih.mp hrest
        rw [Buffer.size_toNat, Buffer.size_toNat] at hsize
        rw [entryBytes]
        dsimp only
        omega
      · rintro ⟨hfit, ht⟩
        rw [entryBytes] at hfit ht
        dsimp only at hfit ht
        -- The partial sums are below the whole sum, so they are words too.
        obtain ⟨size, hsize⟩ := Words.exists_word
          (show key.elems.length + value.elems.length < 2 ^ 64 by omega)
        obtain ⟨next, hnext⟩ := Words.exists_word
          (show total.toNat + (key.elems.length + value.elems.length) < 2 ^ 64
            by omega)
        refine ⟨next, bind_eq_ok.mpr
          ⟨size, checkedAdd_eq_ok.mpr ⟨?_, hsize.trans ?_⟩,
            checkedAdd_eq_ok.mpr ⟨?_, hnext.trans ?_⟩⟩, ih.mpr ⟨?_, ?_⟩⟩
        · rw [Buffer.size_toNat, Buffer.size_toNat]
          omega
        · rw [Buffer.size_toNat, Buffer.size_toNat]
        all_goals omega

/-- The size of metadata that fits the word. -/
theorem metadataSize_eq_ok {metadata : Metadata} {t : UInt64} :
    metadataSize metadata = .ok t
      ↔ metadataBytes metadata < 2 ^ 64
        ∧ t.toNat = metadataBytes metadata := by
  rw [metadataSize, foldlM_entries_eq_ok]
  show 0 + _ < _ ∧ _ = 0 + _ ↔ _
  rw [Nat.zero_add]
  exact Iff.rfl

/-- A valid key is not empty. -/
theorem validateKey_ne_nil {key : Bytes} (h : validateKey key = .ok ()) :
    key.elems ≠ [] := by
  intro hnil
  rw [validateKey] at h
  rw [if_pos (Or.inl (by rw [hnil]; rfl))] at h
  exact fail_ne_ok _ _ _ _ h

/-- Every entry takes at least a byte, so the bytes bound the count. -/
theorem size_le_metadataBytes (metadata : Metadata) :
    metadata.size ≤ metadataBytes metadata := by
  have hpos : ∀ entry ∈ metadata.toList, 1 ≤ entryBytes entry := by
    rintro ⟨key, value⟩ hentry
    have hmem := Std.ExtTreeMap.mem_toList_iff_getElem?_eq_some.mp hentry
    have hkey : key ∈ metadata.entries := by
      rw [Std.ExtTreeMap.mem_iff_isSome_getElem?, hmem]
      rfl
    have hne := validateKey_ne_nil (metadata.keys_valid key hkey)
    have hlength := List.length_pos_iff.mpr hne
    rw [entryBytes]
    exact Nat.le_trans hlength (Nat.le_add_right _ _)
  have hsum := List.card_nsmul_le_sum (metadata.toList.map entryBytes) 1
    (by
      intro n hn
      obtain ⟨entry, hentry, rfl⟩ := List.mem_map.mp hn
      exact hpos entry hentry)
  rw [List.length_map, smul_eq_mul, Nat.mul_one] at hsum
  rw [Metadata.size, ← Std.ExtTreeMap.length_toList]
  exact hsum

/-- Metadata that can be counted only meets the limit. -/
theorem validateMetadata_counted {metadata : Metadata}
    {limits : ResourceLimits} {aggregate total : UInt64}
    (htotal : total.toNat = aggregate.toNat + metadataBytes metadata) :
    validateMetadata metadata limits aggregate
      = if total > limits.maximumMetadataBytes then
          fail .limitExceeded .validateSchema
            "schema metadata exceeds the configured byte limit"
        else .ok total := by
  have hword := total.toNat_lt
  obtain ⟨size, hsize⟩ := Words.exists_word
    (show metadataBytes metadata < 2 ^ 64 by omega)
  have hown : metadataSize metadata = .ok size :=
    metadataSize_eq_ok.mpr ⟨by omega, hsize⟩
  have hadd : checkedAdd aggregate size .validateSchema
      "schema metadata bytes" = .ok total :=
    checkedAdd_eq_ok.mpr ⟨by omega, by omega⟩
  rw [validateMetadata, hown, ok_bind, hadd, ok_bind]

/-- When a total has room for metadata. -/
theorem validateMetadata_eq_ok {metadata : Metadata} {limits : ResourceLimits}
    {aggregate t : UInt64} :
    validateMetadata metadata limits aggregate = .ok t
      ↔ t.toNat = aggregate.toNat + metadataBytes metadata
        ∧ t ≤ limits.maximumMetadataBytes := by
  constructor
  · intro h
    rw [validateMetadata] at h
    obtain ⟨size, hsize, hrest⟩ := bind_eq_ok.mp h
    obtain ⟨sum, hsum, hrest⟩ := bind_eq_ok.mp hrest
    obtain ⟨_, hsize⟩ := metadataSize_eq_ok.mp hsize
    obtain ⟨_, hsum⟩ := checkedAdd_eq_ok.mp hsum
    -- Within the limit no checked sum can have overflowed.
    by_cases hlarge : sum > limits.maximumMetadataBytes
    · rw [if_pos hlarge] at hrest
      exact (fail_ne_ok _ _ _ _ hrest).elim
    · rw [if_neg hlarge] at hrest
      cases hrest
      exact ⟨by omega, UInt64.not_lt.mp hlarge⟩
  · rintro ⟨ht, hle⟩
    rw [validateMetadata_counted ht, if_neg (UInt64.not_lt.mpr hle)]

/-! ## Fields -/

/-- The bytes a field adds to the metadata of its schema. -/
def fieldBytes (field : Field) : Nat :=
  field.name.elems.length + metadataBytes field.metadata

/-- Two fields may stand in one schema. -/
def Distinct (a b : Field) : Prop := a.id ≠ b.id ∧ a.name ≠ b.name

/-- A field passes when none before it has its id or its name. -/
theorem any_clash_iff {earlier : List Field} {field : Field} :
    ¬ (earlier.any fun prior =>
        prior.id = field.id ∨ prior.name = field.name) = true
      ↔ ∀ prior ∈ earlier, Distinct prior field := by
  rw [List.any_eq_true]
  constructor
  · intro h prior hprior
    constructor
    · intro hid
      exact h ⟨prior, hprior, decide_eq_true (Or.inl hid)⟩
    · intro hname
      exact h ⟨prior, hprior, decide_eq_true (Or.inr hname)⟩
  · rintro h ⟨prior, hprior, hclash⟩
    rcases of_decide_eq_true hclash with hid | hname
    · exact (h prior hprior).1 hid
    · exact (h prior hprior).2 hname

/-- One turn of the loop, over a distinct field that can be counted. -/
theorem validateFields_counted {limits : ResourceLimits}
    {earlier fields : List Field} {field : Field} {start total : UInt64}
    (hdistinct : ∀ prior ∈ earlier, Distinct prior field)
    (htotal : total.toNat = start.toNat + fieldBytes field) :
    validateFields limits earlier (field :: fields) start
      = if total > limits.maximumMetadataBytes then
          fail .limitExceeded .validateSchema
            "schema metadata exceeds the configured byte limit"
        else validateFields limits (earlier ++ [field]) fields total := by
  rw [fieldBytes] at htotal
  have hword := total.toNat_lt
  -- The sums of this turn are no larger than the total, so they are words.
  obtain ⟨size, hsize⟩ := Words.exists_word
    (show start.toNat + field.name.elems.length < 2 ^ 64 by omega)
  obtain ⟨own, hown⟩ := Words.exists_word
    (show metadataBytes field.metadata < 2 ^ 64 by omega)
  have hname : checkedAdd start field.name.size .validateSchema
      "schema metadata bytes" = .ok size := by
    rw [checkedAdd_eq_ok, Buffer.size_toNat]
    exact ⟨by omega, hsize⟩
  have hmetadata : metadataSize field.metadata = .ok own :=
    metadataSize_eq_ok.mpr ⟨by omega, hown⟩
  have hadd : checkedAdd size own .validateSchema
      "schema metadata bytes" = .ok total :=
    checkedAdd_eq_ok.mpr ⟨by omega, by omega⟩
  rw [validateFields, if_neg (any_clash_iff.mpr hdistinct), hname, ok_bind,
    hmetadata, ok_bind, hadd, ok_bind]

/-- One turn of the loop over the fields. -/
theorem validateFields_cons_eq_ok {limits : ResourceLimits}
    {earlier fields : List Field} {field : Field} {start t : UInt64} :
    validateFields limits earlier (field :: fields) start = .ok t
      ↔ (∀ prior ∈ earlier, Distinct prior field)
        ∧ ∃ total : UInt64, total.toNat = start.toNat + fieldBytes field
          ∧ total ≤ limits.maximumMetadataBytes
          ∧ validateFields limits (earlier ++ [field]) fields total
            = .ok t := by
  constructor
  · intro h
    rw [validateFields] at h
    by_cases hclash : (earlier.any fun prior =>
        prior.id = field.id ∨ prior.name = field.name) = true
    · rw [if_pos hclash] at h
      exact (fail_ne_ok _ _ _ _ h).elim
    rw [if_neg hclash] at h
    obtain ⟨size, hsize, hrest⟩ := bind_eq_ok.mp h
    obtain ⟨own, hown, hrest⟩ := bind_eq_ok.mp hrest
    obtain ⟨total, htotal, hrest⟩ := bind_eq_ok.mp hrest
    obtain ⟨_, hsize⟩ := checkedAdd_eq_ok.mp hsize
    obtain ⟨_, hown⟩ := metadataSize_eq_ok.mp hown
    obtain ⟨_, htotal⟩ := checkedAdd_eq_ok.mp htotal
    rw [Buffer.size_toNat] at hsize
    by_cases hlarge : total > limits.maximumMetadataBytes
    · rw [if_pos hlarge] at hrest
      exact (fail_ne_ok _ _ _ _ hrest).elim
    · rw [if_neg hlarge] at hrest
      refine ⟨any_clash_iff.mp hclash, total, ?_, UInt64.not_lt.mp hlarge,
        hrest⟩
      rw [fieldBytes]
      omega
  · rintro ⟨hdistinct, total, htotal, hle, hrest⟩
    rw [validateFields_counted hdistinct htotal,
      if_neg (UInt64.not_lt.mpr hle)]
    exact hrest

/-- **FIELDS**: the loop accepts exactly pairwise distinct fields whose bytes
    stay within the limit, and counts them mathematically. -/
theorem validateFields_eq_ok {limits : ResourceLimits}
    {earlier fields : List Field} {start t : UInt64}
    (hstart : start ≤ limits.maximumMetadataBytes) :
    validateFields limits earlier fields start = .ok t
      ↔ (∀ field ∈ fields, ∀ prior ∈ earlier, Distinct prior field)
        ∧ fields.Pairwise Distinct
        ∧ t.toNat = start.toNat + (fields.map fieldBytes).sum
        ∧ t ≤ limits.maximumMetadataBytes := by
  -- By induction on the fields still to check; `earlier` grows by the field just
  -- passed.
  induction fields generalizing earlier start with
  | nil =>
      rw [validateFields, List.map_nil, List.sum_nil, Nat.add_zero]
      constructor
      · intro h
        cases h
        exact ⟨fun _ h => (nomatch h), List.Pairwise.nil, rfl, hstart⟩
      · rintro ⟨_, _, h, _⟩
        exact congrArg Except.ok (UInt64.toNat_inj.mp h.symm)
  | cons field fields ih =>
      rw [validateFields_cons_eq_ok, List.map_cons, List.sum_cons,
        List.pairwise_cons, List.forall_mem_cons]
      constructor
      · rintro ⟨hfirst, total, htotal, hle, hrest⟩
        obtain ⟨hearlier, hdistinct, ht, htle⟩ := (ih hle).mp hrest
        refine ⟨⟨hfirst, fun f hf prior hprior => ?_⟩,
          ⟨fun f hf => ?_, hdistinct⟩, by omega, htle⟩
        · exact hearlier f hf prior (List.mem_append_left _ hprior)
        · exact hearlier f hf field
            (List.mem_append_right _ (List.mem_singleton_self _))
      · rintro ⟨⟨hfirst, hearlier⟩, ⟨hnext, hdistinct⟩, ht, htle⟩
        have hmax := Words.le_toNat.mp htle
        obtain ⟨total, htotal, hle⟩ := Words.exists_word_le
          (show start.toNat + fieldBytes field
            ≤ limits.maximumMetadataBytes.toNat by omega)
        refine ⟨hfirst, total, htotal, hle, (ih hle).mpr ⟨?_, hdistinct,
          by omega, htle⟩⟩
        intro f hf prior hprior
        -- an earlier field is an old one or the one just passed
        rcases List.mem_append.mp hprior with hold | hnew
        · exact hearlier f hf prior hold
        · rw [List.mem_singleton.mp hnew]
          exact hnext f hf

/-! ## Finishing -/

/-- What the builder's validation accepts. -/
theorem validate_eq_ok {builder : SchemaBuilder} {limits : ResourceLimits} :
    builder.validate limits = .ok ()
      ↔ validateResourceLimits limits = .ok ()
        ∧ builder.fields ≠ []
        ∧ builder.fields.length ≤ limits.maximumFields.toNat
        ∧ builder.fields.Pairwise Distinct
        ∧ metadataBytes builder.metadata
            + (builder.fields.map fieldBytes).sum
          ≤ limits.maximumMetadataBytes.toNat := by
  rw [SchemaBuilder.validate, bind_eq_ok]
  by_cases hnil : builder.fields = []
  · rw [hnil]
    constructor
    · rintro ⟨_, _, hrest⟩
      exact (fail_ne_ok _ _ _ _ hrest).elim
    · rintro ⟨_, hne, _⟩
      exact (hne rfl).elim
  have hsome : ¬ builder.fields.isEmpty = true := by
    rw [List.isEmpty_iff]
    exact hnil
  rw [if_neg hsome]
  by_cases hmany : builder.fields.length > limits.maximumFields.toNat
  · rw [if_pos hmany]
    constructor
    · rintro ⟨_, _, hrest⟩
      exact (fail_ne_ok _ _ _ _ hrest).elim
    · rintro ⟨_, _, hfew, _⟩
      exact (Nat.not_lt.mpr hfew hmany).elim
  rw [if_neg hmany]
  constructor
  · rintro ⟨_, hlimits, hrest⟩
    obtain ⟨own, hown, hrest⟩ := bind_eq_ok.mp hrest
    obtain ⟨total, htotal, _⟩ := bind_eq_ok.mp hrest
    obtain ⟨hown, hle⟩ := validateMetadata_eq_ok.mp hown
    obtain ⟨_, hdistinct, htotal, hmax⟩ := (validateFields_eq_ok hle).mp htotal
    have hmax := Words.le_toNat.mp hmax
    have hzero : (0 : UInt64).toNat = 0 := rfl
    exact ⟨hlimits, hnil, Nat.le_of_not_lt hmany, hdistinct, by omega⟩
  · rintro ⟨hlimits, _, _, hdistinct, hmax⟩
    have hzero : (0 : UInt64).toNat = 0 := rfl
    obtain ⟨own, hown, hle⟩ := Words.exists_word_le
      (Nat.le_trans (Nat.le_add_right _ _) hmax)
    obtain ⟨total, htotal, hmax'⟩ := Words.exists_word_le hmax
    have hall : ∀ field ∈ builder.fields, ∀ prior ∈ ([] : List Field),
        Distinct prior field := fun _ _ _ h => (nomatch h)
    have hloop := (validateFields_eq_ok hle).mpr
      ⟨hall, hdistinct, by omega, hmax'⟩
    exact ⟨(), hlimits, bind_eq_ok.mpr ⟨_,
      validateMetadata_eq_ok.mpr ⟨by omega, hle⟩,
      bind_eq_ok.mpr ⟨_, hloop, rfl⟩⟩⟩

/-- `finish` marks the builder before it checks; no check reads the mark. -/
theorem finish_fresh {builder : SchemaBuilder} {limits : ResourceLimits}
    (hfresh : builder.finished = false) :
    (builder.finish limits).1 = (builder.validate limits).map fun _ =>
      { fields := builder.fields, metadata := builder.metadata
        canonical := canonicalBytes builder.fields builder.metadata
        fingerprint := makeFingerprint
          (canonicalBytes builder.fields builder.metadata) } := by
  have hvalidate : SchemaBuilder.validate { builder with finished := true }
      limits = builder.validate limits := rfl
  rw [SchemaBuilder.finish, if_neg (Bool.eq_false_iff.mp hfresh)]
  dsimp only
  rw [hvalidate]
  cases builder.validate limits with
  | error e => rfl
  | ok _ => rfl

/-- When a builder finishes, and with which schema. -/
theorem finish_eq_ok {builder : SchemaBuilder} {limits : ResourceLimits}
    {schema : Schema} :
    (builder.finish limits).1 = .ok schema
      ↔ builder.finished = false ∧ builder.validate limits = .ok ()
        ∧ schema = { fields := builder.fields, metadata := builder.metadata
                     canonical := canonicalBytes builder.fields
                       builder.metadata
                     fingerprint := makeFingerprint
                       (canonicalBytes builder.fields builder.metadata) } := by
  cases hfinished : builder.finished with
  | true =>
      rw [SchemaBuilder.finish, if_pos hfinished]
      constructor
      · intro h
        exact (fail_ne_ok _ _ _ _ h).elim
      · rintro ⟨h, _⟩
        exact nomatch h
  | false =>
      rw [finish_fresh hfinished]
      cases builder.validate limits with
      | error e =>
          constructor
          · intro h
            exact nomatch h
          · rintro ⟨_, h, _⟩
            exact nomatch h
      | ok _ =>
          constructor
          · intro h
            cases h
            exact ⟨rfl, rfl, rfl⟩
          · rintro ⟨_, _, rfl⟩
            rfl

/-- An open builder fails to finish as its checks fail. -/
theorem finish_eq_error {builder : SchemaBuilder} {limits : ResourceLimits}
    {error : Error} (hfresh : builder.finished = false) :
    (builder.finish limits).1 = .error error
      ↔ builder.validate limits = .error error := by
  rw [finish_fresh hfresh]
  cases builder.validate limits with
  | error e =>
      constructor
      · intro h
        cases h
        rfl
      · intro h
        cases h
        rfl
  | ok _ =>
      constructor
      · intro h
        exact nomatch h
      · intro h
        exact nomatch h

/-- What every schema that a builder gave out satisfies. -/
structure Sound (schema : Schema) : Prop where
  fields_ne_nil : schema.fields ≠ []
  count_lt : schema.fields.length < 2 ^ 32
  distinct : schema.fields.Pairwise Distinct
  bytes_lt : metadataBytes schema.metadata
    + (schema.fields.map fieldBytes).sum < 2 ^ 64
  canonical : schema.canonical
    = canonicalBytes schema.fields schema.metadata
  fingerprint : schema.fingerprint = makeFingerprint schema.canonical

/-- **ACCEPTED SCHEMAS** are sound, however their builder was driven. -/
theorem accepted_sound {schema : Schema} (h : Accepted schema) :
    Sound schema := by
  obtain ⟨calls, hout⟩ := h
  obtain ⟨before, call, _, hlast⟩ := Machine.mem_outputs_iff.mp hout
  cases call with
  | addField field => exact nomatch hlast
  | addMetadata key value => exact nomatch hlast
  | finish limits =>
      have hbuilt := SchemaReply.built.inj hlast
      obtain ⟨_, hvalid, rfl⟩ := finish_eq_ok.mp hbuilt
      obtain ⟨_, hne, hfew, hdistinct, hbytes⟩ := validate_eq_ok.mp hvalid
      have hfields := limits.maximumFields.toNat_lt
      have hmax := limits.maximumMetadataBytes.toNat_lt
      exact ⟨hne, Nat.lt_of_le_of_lt hfew hfields, hdistinct,
        Nat.lt_of_le_of_lt hbytes hmax, rfl, rfl⟩

/-- The metadata of a sound schema and of its fields can be counted in 64
    bits. -/
theorem Sound.size_lt {schema : Schema} (h : Sound schema) :
    schema.metadata.size < 2 ^ 64
      ∧ ∀ field ∈ schema.fields, field.metadata.size < 2 ^ 64 := by
  have hbytes := h.bytes_lt
  have hown := size_le_metadataBytes schema.metadata
  refine ⟨by omega, fun field hfield => ?_⟩
  have hsize := size_le_metadataBytes field.metadata
  have hle : fieldBytes field ≤ (schema.fields.map fieldBytes).sum :=
    List.le_sum_of_mem (List.mem_map_of_mem hfield)
  rw [fieldBytes] at hle
  omega

/-- What a builder makes of one field. -/
def oneFieldSchema (field : Field) : Schema where
  fields := [field]
  metadata := .empty
  canonical := canonicalBytes [field] .empty
  fingerprint := makeFingerprint (canonicalBytes [field] .empty)

/-- A schema of one small field is accepted. -/
theorem oneFieldSchema_accepted {field : Field}
    (hbytes : metadataBytes .empty + ([field].map fieldBytes).sum
      ≤ defaultResourceLimits.maximumMetadataBytes.toNat) :
    Accepted (oneFieldSchema field) := by
  refine ⟨[.addField field, .finish defaultResourceLimits], ?_⟩
  have hfew : [field].length ≤ defaultResourceLimits.maximumFields.toNat := by
    rw [List.length_singleton]
    decide
  have hvalid : SchemaBuilder.validate { fields := [field] }
      defaultResourceLimits = .ok () :=
    validate_eq_ok.mpr ⟨defaultResourceLimits_valid, List.cons_ne_nil _ _,
      hfew, List.pairwise_singleton _ _, hbytes⟩
  have hbuilt : (SchemaBuilder.finish { fields := [field] }
      defaultResourceLimits).1 = .ok (oneFieldSchema field) :=
    finish_eq_ok.mpr ⟨rfl, hvalid, rfl⟩
  refine List.mem_cons_of_mem _ (List.mem_cons.mpr (Or.inl ?_))
  exact congrArg SchemaReply.built hbuilt.symm

end ShiboriSchemaFacts
