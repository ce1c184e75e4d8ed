import Mathlib
import ShiboriEngine.Library.Delimiter
import ShiboriEngine.Library.Machine
import ShiboriEngine.SchemaAcceptanceProofs
import ShiboriEngine.LifecycleProofs

/-! # Metadata goes to its first writer

    The tests on a metadata key say that it is a namespace, a slash and a
    name, in strict UTF-8, and that the namespace is not a reserved one.  A
    builder takes such a key once, and what it finishes looks up the value
    that came with it. -/

namespace ShiboriMetadata

open ShiboriError ShiboriResource ShiboriBuffer ShiboriSchema
open ShiboriSchemaAcceptance ShiboriLifecycle Machine Delimiter

/-! ## Qualified keys -/

/-- `shibori.engine` -/
def engineName : List UInt8 :=
  reservedPrefix ++ [0x65, 0x6e, 0x67, 0x69, 0x6e, 0x65]

/-- A namespace, the first slash and a name. -/
structure Qualified (key space name : List UInt8) : Prop where
  key_eq : key = space ++ 0x2f :: name
  first_slash : 0x2f ∉ space
  space_ne_nil : space ≠ []
  name_ne_nil : name ≠ []

/-- Of the reserved namespaces only that of the engine may be used. -/
def QualifiedKey (key : List UInt8) : Prop :=
  Utf8.WellFormed key ∧ ∃ space name, Qualified key space name
    ∧ (reservedPrefix <+: space → space = engineName)

/-- The find and the two tests of its result. -/
theorem qualified_iff {key : List UInt8} :
    (∃ space name, Qualified key space name)
      ↔ ∃ i, key.findIdx? (· = 0x2f) = some i ∧ i ≠ 0 ∧ i + 1 ≠ key.length := by
  constructor
  · rintro ⟨space, name, rfl, hfirst, hspace, hname⟩
    refine ⟨space.length, findIdx?_of_split hfirst, ?_, ?_⟩
    · exact List.length_eq_zero_iff.not.mpr hspace
    · rw [List.length_append, List.length_cons]
      have hpos := List.length_pos_iff.mpr hname
      omega
  · rintro ⟨i, hslash, hzero, hlast⟩
    obtain ⟨space, name, rfl, hfirst, rfl⟩ := split_of_findIdx? hslash
    refine ⟨space, name, rfl, hfirst, List.length_eq_zero_iff.not.mp hzero, ?_⟩
    rintro rfl
    rw [List.length_append, List.length_singleton] at hlast
    exact hlast rfl

/-- The first test of `validateKey`. -/
theorem qualified_test_iff {key : List UInt8} :
    ¬ (key.isEmpty ∨ validUtf8 key = false
        ∨ key.findIdx? (· = 0x2f) = none ∨ key.findIdx? (· = 0x2f) = some 0
        ∨ (key.findIdx? (· = 0x2f)).map (· + 1) = some key.length)
      ↔ Utf8.WellFormed key ∧ ∃ space name, Qualified key space name := by
  have hutf8 : validUtf8 key = true ↔ Utf8.WellFormed key :=
    ShiboriUtf8.validUtf8_iff key
  rw [qualified_iff, ← hutf8]
  cases hslash : key.findIdx? (· = 0x2f) with
  | none => simp
  | some i =>
      have hne : key ≠ [] := by
        rintro rfl
        exact nomatch hslash
      simp [hne]

/-- The prefix tests on the whole key are tests of its namespace. -/
theorem Qualified.reserved_iff {key space name : List UInt8}
    (h : Qualified key space name) :
    ¬ (reservedPrefix <+: key ∧ ¬ engineNamespace <+: key)
      ↔ (reservedPrefix <+: space → space = engineName) := by
  have hreserved : (0x2f : UInt8) ∉ reservedPrefix := by decide
  have hengine : (0x2f : UInt8) ∉ engineName := by decide
  have hclosed : engineNamespace = engineName ++ [0x2f] := rfl
  rw [h.key_eq, prefix_split_iff hreserved, hclosed,
    prefix_closed_iff hengine h.first_slash, not_and_not_right]

/-- **QUALIFIED KEYS** are what `validateKey` takes. -/
theorem validateKey_iff (key : Bytes) :
    validateKey key = .ok () ↔ QualifiedKey key.elems := by
  have htests : QualifiedKey key.elems
      ↔ (Utf8.WellFormed key.elems
          ∧ ∃ space name, Qualified key.elems space name)
        ∧ ¬ (reservedPrefix <+: key.elems
          ∧ ¬ engineNamespace <+: key.elems) := by
    constructor
    · rintro ⟨hutf8, space, name, hqualified, hspace⟩
      exact ⟨⟨hutf8, space, name, hqualified⟩,
        hqualified.reserved_iff.mpr hspace⟩
    · rintro ⟨⟨hutf8, space, name, hqualified⟩, hreserved⟩
      exact ⟨hutf8, space, name, hqualified,
        hqualified.reserved_iff.mp hreserved⟩
  rw [htests, ← qualified_test_iff, validateKey]
  split
  · next htest => exact iff_of_false (fail_ne_ok _ _ _ _) fun h => h.1 htest
  · next htest =>
      split
      · next hreserved =>
          exact iff_of_false (fail_ne_ok _ _ _ _) fun h => h.2 hreserved
      · next hreserved => exact iff_of_true rfl ⟨htest, hreserved⟩

/-! ## One call -/

/-- What adding metadata reports, and what it leaves. -/
theorem addMetadataValue_cases (metadata : Metadata) (key value : Bytes) :
    ((QualifiedKey key.elems ∧ key ∉ metadata.entries)
        ∧ (addMetadataValue metadata key value).1 = .ok ())
      ∨ (¬ (QualifiedKey key.elems ∧ key ∉ metadata.entries)
        ∧ ∃ error, addMetadataValue metadata key value
          = (.error error, metadata)) := by
  rw [← validateKey_iff, addMetadataValue]
  split
  · next error hkey =>
      refine Or.inr ⟨?_, error, rfl⟩
      rintro ⟨hok, _⟩
      rw [hok] at hkey
      cases hkey
  · next hkey =>
      by_cases hold : key ∈ metadata.entries
      · rw [if_pos hold]
        exact Or.inr ⟨fun h => h.2 hold, _, rfl⟩
      · rw [if_neg hold]
        exact Or.inl ⟨⟨hkey, hold⟩, rfl⟩

/-! ## Runs of a builder that takes metadata -/

/-- What field and schema builders have in common. -/
structure MetadataBuilder (σ α β π : Type) where
  machine : BuilderMachine σ α β
  metadata : σ → Metadata
  withMetadata : σ → Metadata → σ
  /-- The key and the value of an `add_metadata` call. -/
  offered : α → Option (Bytes × Bytes)
  product : β → Option π
  count : π → Nat
  lookup : π → Bytes → Option Bytes
  adds : ∀ s call key value, machine.finished s = false →
    offered call = some (key, value) →
      machine.errorOf (machine.step s call).1
          = errorOf (addMetadataValue (metadata s) key value).1
        ∧ (machine.step s call).2
          = withMetadata s (addMetadataValue (metadata s) key value).2
  refuses : ∀ s call, machine.finished s = true → Refuses machine s call
  other : ∀ s call, offered call = none →
    metadata (machine.step s call).2 = metadata s
  product_of : ∀ s call p, product (machine.step s call).1 = some p →
    count p = (metadata s).size ∧ lookup p = (metadata s).find
  withMetadata_self : ∀ s, withMetadata s (metadata s) = s
  metadata_withMetadata : ∀ s m, metadata (withMetadata s m) = m

namespace MetadataBuilder

section Runs

variable {σ α β π : Type} (builder : MetadataBuilder σ α β π)

/-- The entries of the accepted `add_metadata` calls of a run. -/
def accepted (s : σ) (calls : List α) : List (Bytes × Bytes) :=
  collect builder.machine.step
    (fun call reply =>
      if (builder.machine.errorOf reply).isNone then builder.offered call
      else none) s calls

/-- A call is accepted and stores its entry, or it is rejected and changes
    nothing. -/
theorem offer_cases {s : σ} {call : α} {key value : Bytes}
    (h : builder.offered call = some (key, value)) :
    (builder.machine.errorOf (builder.machine.step s call).1 = none
        ∧ (builder.machine.finished s = false ∧ QualifiedKey key.elems
          ∧ key ∉ (builder.metadata s).entries)
        ∧ builder.metadata (builder.machine.step s call).2
          = (addMetadataValue (builder.metadata s) key value).2)
      ∨ ((∃ error, builder.machine.errorOf (builder.machine.step s call).1
          = some error)
        ∧ ¬ (builder.machine.finished s = false ∧ QualifiedKey key.elems
          ∧ key ∉ (builder.metadata s).entries)
        ∧ (builder.machine.step s call).2 = s) := by
  cases hfinished : builder.machine.finished s with
  | true =>
      obtain ⟨⟨error, hreply, _⟩, hsame⟩ := builder.refuses s call hfinished
      refine Or.inr ⟨⟨error, hreply⟩, ?_, hsame⟩
      rintro ⟨hopen, _⟩
      cases hopen
  | false =>
      obtain ⟨hreply, hnext⟩ := builder.adds s call key value hfinished h
      rw [hreply, hnext]
      rcases addMetadataValue_cases (builder.metadata s) key value with
        ⟨haccepts, hok⟩ | ⟨hrejects, error, herror⟩
      · rw [hok, builder.metadata_withMetadata]
        exact Or.inl ⟨rfl, ⟨rfl, haccepts⟩, rfl⟩
      · rw [herror, builder.withMetadata_self]
        exact Or.inr ⟨⟨error, rfl⟩, fun hc => hrejects hc.2, rfl⟩

/-- **STEP**: the builder retains the first value of every key. -/
theorem retains_step {s : σ} {kept : List (Bytes × Bytes)} (call : α)
    (h : Retains (builder.metadata s) kept) :
    Retains (builder.metadata (builder.machine.step s call).2)
      (kept ++ (if (builder.machine.errorOf
          (builder.machine.step s call).1).isNone
        then builder.offered call else none).toList) := by
  cases hoffered : builder.offered call with
  | none =>
      rw [ite_self, Option.toList_none, List.append_nil,
        builder.other s call hoffered]
      exact h
  | some entry =>
      obtain ⟨key, value⟩ := entry
      rcases builder.offer_cases hoffered (s := s) with
        ⟨hreply, ⟨_, hkey, hnew⟩, hnext⟩ | ⟨⟨error, hreply⟩, _, hsame⟩
      · have hkept : retain kept (key, value) = kept ++ [(key, value)] := by
          rw [retain, if_pos ⟨(validateKey_iff key).mpr hkey,
            fun hold => hnew ((h.mem_iff key).mpr hold)⟩]
        rw [hreply, hnext, Option.isNone_none, if_pos rfl,
          Option.toList_some, ← hkept]
        exact addMetadataValue_retains h key value
      · rw [hreply, hsame, Option.isNone_some, if_neg Bool.false_ne_true,
          Option.toList_none, List.append_nil]
        exact h

/-- **A RUN** stores exactly the entries it accepts. -/
theorem retains_run {new : σ} (h : Retains (builder.metadata new) [])
    (calls : List α) :
    Retains (builder.metadata (finalState builder.machine.step new calls))
      (builder.accepted new calls) :=
  collect_invariant (P := fun s kept => Retains (builder.metadata s) kept)
    (fun _ _ call hs => builder.retains_step call hs) h calls

/-- What every run of a new builder does with the metadata it is offered. -/
structure KeepsFirst (new : σ) : Prop where
  accepted_iff : ∀ calls call key value,
    builder.machine.finished (finalState builder.machine.step new calls)
        = false →
      builder.offered call = some (key, value) →
        (builder.machine.errorOf (builder.machine.step
            (finalState builder.machine.step new calls) call).1 = none
          ↔ QualifiedKey key.elems
            ∧ key ∉ (builder.accepted new calls).map Prod.fst)
  rejected : ∀ s call key value error,
    builder.offered call = some (key, value) →
      builder.machine.errorOf (builder.machine.step s call).1 = some error →
        (builder.machine.step s call).2 = s
  /-- A key is in one accepted call at most. -/
  single : ∀ calls, ((builder.accepted new calls).map Prod.fst).Nodup
  lookup_iff : ∀ calls call p,
    builder.product (builder.machine.step
        (finalState builder.machine.step new calls) call).1 = some p →
      ∀ key value, builder.lookup p key = some value
        ↔ (key, value) ∈ builder.accepted new calls
  count_eq : ∀ calls call p,
    builder.product (builder.machine.step
        (finalState builder.machine.step new calls) call).1 = some p →
      builder.count p = (builder.accepted new calls).length

/-- **RUN**: and gives it out. -/
theorem keepsFirst {new : σ} (hnew : builder.metadata new = .empty) :
    builder.KeepsFirst new := by
  have hretains : ∀ calls, Retains
      (builder.metadata (finalState builder.machine.step new calls))
      (builder.accepted new calls) := by
    intro calls
    refine builder.retains_run ?_ calls
    rw [hnew]
    exact retains_empty
  refine ⟨?_, ?_, ?_, ?_, ?_⟩
  · intro calls call key value hopen hoffered
    rw [← (hretains calls).mem_iff key]
    rcases builder.offer_cases hoffered with
      ⟨hreply, haccepts, _⟩ | ⟨⟨error, hreply⟩, hrejects, _⟩
    · exact iff_of_true hreply haccepts.2
    · rw [hreply]
      exact iff_of_false (Option.some_ne_none error) fun h => hrejects ⟨hopen, h⟩
  · intro s call key value error hoffered herror
    rcases builder.offer_cases hoffered with
      ⟨hreply, _, _⟩ | ⟨_, _, hsame⟩
    · rw [herror] at hreply
      exact nomatch hreply
    · exact hsame
  · intro calls
    rw [← ((hretains calls).map Prod.fst).nodup_iff]
    show (((builder.metadata _).entries.toList).map Prod.fst).Nodup
    rw [Std.ExtTreeMap.map_fst_toList_eq_keys]
    exact Std.ExtTreeMap.nodup_keys
  · intro calls call p hproduct key value
    rw [(builder.product_of _ call p hproduct).2,
      ← List.Perm.mem_iff (hretains calls)]
    exact Std.ExtTreeMap.mem_toList_iff_getElem?_eq_some.symm
  · intro calls call p hproduct
    rw [(builder.product_of _ call p hproduct).1, ← (hretains calls).length_eq]
    exact Std.ExtTreeMap.length_toList.symm

end Runs

end MetadataBuilder

/-! ## Fields and schemas -/

namespace OfField

/-- The entry a call offers. -/
def offered : FieldCall → Option (Bytes × Bytes)
  | .addMetadata key value => some (key, value)
  | .finish _ => none

/-- The field a call gives out. -/
def product : Result (Option Field) → Option Field
  | .ok field => field
  | .error _ => none

/-- `add_metadata` of an open builder adds to the metadata. -/
theorem adds (s : FieldBuilder) (call : FieldCall) (key value : Bytes)
    (hopen : s.finished = false) (hoffered : offered call = some (key, value)) :
    errorOf (fieldMachine.step s call).1
        = errorOf (addMetadataValue s.metadata key value).1
      ∧ (fieldMachine.step s call).2
        = { s with
            metadata := (addMetadataValue s.metadata key value).2 } := by
  cases call with
  | finish limits => exact nomatch hoffered
  | addMetadata k v =>
      cases hoffered
      show errorOf (told (s.addMetadata key value).1) = _
        ∧ (s.addMetadata key value).2 = _
      rw [FieldBuilder.addMetadata, if_neg (Bool.eq_false_iff.mp hopen)]
      refine ⟨?_, rfl⟩
      cases (addMetadataValue s.metadata key value).1 <;> rfl

/-- `finish` keeps the metadata, and gives it to the field. -/
theorem finish_cases (s : FieldBuilder) (limits : ResourceLimits) :
    (s.finish limits).2.metadata = s.metadata
      ∧ ∀ field, (s.finish limits).1 = .ok field →
          field.metadata = s.metadata := by
  rw [FieldBuilder.finish]
  split
  · exact ⟨rfl, fun field h => (fail_ne_ok _ _ _ _ h).elim⟩
  · dsimp only
    split
    · exact ⟨rfl, fun field h => (fail_ne_ok _ _ _ _ h).elim⟩
    · split
      · refine ⟨rfl, ?_⟩
        intro field h
        cases h
      · refine ⟨rfl, ?_⟩
        rintro field ⟨rfl⟩
        rfl

/-- Other calls keep the metadata. -/
theorem other (s : FieldBuilder) (call : FieldCall)
    (h : offered call = none) :
    (fieldMachine.step s call).2.metadata = s.metadata := by
  cases call with
  | addMetadata key value => exact nomatch h
  | finish limits => exact (finish_cases s limits).1

/-- The field shows the builder's metadata. -/
theorem product_of (s : FieldBuilder) (call : FieldCall) (field : Field)
    (h : product (fieldMachine.step s call).1 = some field) :
    field.metadataCount = s.metadata.size
      ∧ field.metadataAt = s.metadata.find := by
  cases call with
  | addMetadata key value =>
      change product (told (s.addMetadata key value).1) = _ at h
      cases hstatus : (s.addMetadata key value).1 <;>
        (rw [hstatus] at h; exact nomatch h)
  | finish limits =>
      change product (made (s.finish limits).1) = _ at h
      cases hresult : (s.finish limits).1 with
      | error error =>
          rw [hresult] at h
          exact nomatch h
      | ok found =>
          rw [hresult] at h
          cases h
          have hmetadata := (finish_cases s limits).2 field hresult
          rw [← hmetadata]
          exact ⟨rfl, rfl⟩

/-- The field builder. -/
def builder :
    MetadataBuilder FieldBuilder FieldCall (Result (Option Field)) Field where
  machine := fieldMachine
  metadata := FieldBuilder.metadata
  withMetadata s metadata := { s with metadata := metadata }
  offered := offered
  product := product
  count := Field.metadataCount
  lookup := Field.metadataAt
  adds := adds
  refuses := field_refuses
  other := other
  product_of := product_of
  withMetadata_self _ := rfl
  metadata_withMetadata _ _ := rfl

end OfField

namespace OfSchema

/-- The entry a call offers. -/
def offered : SchemaCall → Option (Bytes × Bytes)
  | .addField _ => none
  | .addMetadata key value => some (key, value)
  | .finish _ => none

/-- The schema a call gives out. -/
def product : SchemaReply → Option Schema
  | .done _ => none
  | .built (.ok schema) => some schema
  | .built (.error _) => none

/-- `add_metadata` of an open builder adds to the metadata. -/
theorem adds (s : SchemaBuilder) (call : SchemaCall) (key value : Bytes)
    (hopen : s.finished = false) (hoffered : offered call = some (key, value)) :
    schemaMachine.errorOf (schemaMachine.step s call).1
        = errorOf (addMetadataValue s.metadata key value).1
      ∧ (schemaMachine.step s call).2
        = { s with
            metadata := (addMetadataValue s.metadata key value).2 } := by
  cases call with
  | addField field => exact nomatch hoffered
  | finish limits => exact nomatch hoffered
  | addMetadata k v =>
      cases hoffered
      show errorOf (s.addMetadata key value).1 = _
        ∧ (s.addMetadata key value).2 = _
      rw [SchemaBuilder.addMetadata, if_neg (Bool.eq_false_iff.mp hopen)]
      exact ⟨rfl, rfl⟩

/-- `finish` keeps the metadata, and gives it to the schema. -/
theorem finish_cases (s : SchemaBuilder) (limits : ResourceLimits) :
    (s.finish limits).2.metadata = s.metadata
      ∧ ∀ schema, (s.finish limits).1 = .ok schema →
          schema.metadata = s.metadata := by
  rw [SchemaBuilder.finish]
  split
  · exact ⟨rfl, fun schema h => (fail_ne_ok _ _ _ _ h).elim⟩
  · dsimp only
    split
    · refine ⟨rfl, ?_⟩
      intro schema h
      cases h
    · refine ⟨rfl, ?_⟩
      rintro schema ⟨rfl⟩
      rfl

/-- Other calls keep the metadata. -/
theorem other (s : SchemaBuilder) (call : SchemaCall)
    (h : offered call = none) :
    (schemaMachine.step s call).2.metadata = s.metadata := by
  cases call with
  | addMetadata key value => exact nomatch h
  | finish limits => exact (finish_cases s limits).1
  | addField field =>
      show (s.addField field).2.metadata = s.metadata
      rw [SchemaBuilder.addField]
      split <;> rfl

/-- The schema shows the builder's metadata. -/
theorem product_of (s : SchemaBuilder) (call : SchemaCall) (schema : Schema)
    (h : product (schemaMachine.step s call).1 = some schema) :
    schema.metadataCount = s.metadata.size
      ∧ schema.metadataAt = s.metadata.find := by
  cases call with
  | addField field => exact nomatch h
  | addMetadata key value => exact nomatch h
  | finish limits =>
      change product (.built (s.finish limits).1) = _ at h
      cases hresult : (s.finish limits).1 with
      | error error =>
          rw [hresult] at h
          exact nomatch h
      | ok found =>
          rw [hresult] at h
          cases h
          have hmetadata := (finish_cases s limits).2 schema hresult
          rw [← hmetadata]
          exact ⟨rfl, rfl⟩

/-- The schema builder. -/
def builder : MetadataBuilder SchemaBuilder SchemaCall SchemaReply Schema where
  machine := schemaMachine
  metadata := SchemaBuilder.metadata
  withMetadata s metadata := { s with metadata := metadata }
  offered := offered
  product := product
  count := Schema.metadataCount
  lookup := Schema.metadataAt
  adds := adds
  refuses := schema_refuses
  other := other
  product_of := product_of
  withMetadata_self _ := rfl
  metadata_withMetadata _ _ := rfl

end OfSchema

/-- **METADATA** of fields and of schemas: a qualified key is taken from its
    first writer, for good. -/
theorem metadata_first_writer_wins :
    (∀ id name type nullable,
        OfField.builder.KeepsFirst { id, name, type, nullable })
      ∧ OfSchema.builder.KeepsFirst {} := by
  constructor
  · intro id name type nullable
    exact OfField.builder.keepsFirst rfl
  · exact OfSchema.builder.keepsFirst rfl

/-- The key `a/b`. -/
def ownKey : Bytes := ⟨[0x61, 0x2f, 0x62], by decide⟩

/-- The value that is kept. -/
def firstValue : Bytes := .singleton 1

/-- The value that comes too late. -/
def secondValue : Bytes := .singleton 2

/-- The type of the field. -/
def int32Type : ShiboriLogicalType.LogicalType := ⟨.int32, .monostate, rfl⟩

/-- A builder of an integer field named `a`. -/
def newField : FieldBuilder where
  id := 1
  name := .singleton 0x61
  type := int32Type
  nullable := false

/-- The key is offered twice. -/
def fieldRun : List FieldCall :=
  [.addMetadata ownKey firstValue, .addMetadata ownKey secondValue]

/-- The same for a schema of the field. -/
def schemaRun : List SchemaCall :=
  [.addField ⟨1, .singleton 0x61, int32Type, false, .empty⟩,
    .addMetadata ownKey firstValue, .addMetadata ownKey secondValue]

/-- The finished field and the finished schema have the first value. -/
theorem metadata_first_writer_wins_at_ownKey :
    (∃ field, OfField.builder.product (OfField.builder.machine.step
          (finalState OfField.builder.machine.step newField fieldRun)
          (.finish defaultResourceLimits)).1 = some field
        ∧ field.metadataAt ownKey = some firstValue
        ∧ field.metadataCount = 1)
      ∧ ∃ schema, OfSchema.builder.product (OfSchema.builder.machine.step
          (finalState OfSchema.builder.machine.step {} schemaRun)
          (.finish defaultResourceLimits)).1 = some schema
        ∧ schema.metadataAt ownKey = some firstValue
        ∧ schema.metadataCount = 1 := by
  obtain ⟨hfields, hschemas⟩ := metadata_first_writer_wins
  constructor
  · have hkeeps := hfields 1 (.singleton 0x61) int32Type false
    have haccepted : OfField.builder.accepted newField fieldRun
        = [(ownKey, firstValue)] := by decide +kernel
    obtain ⟨field, hfield⟩ := Option.isSome_iff_exists.mp
      (show (OfField.builder.product (OfField.builder.machine.step
        (finalState OfField.builder.machine.step newField fieldRun)
        (.finish defaultResourceLimits)).1).isSome = true by decide +kernel)
    refine ⟨field, hfield, ?_, ?_⟩
    · refine (hkeeps.lookup_iff fieldRun _ field hfield _ _).mpr ?_
      exact haccepted ▸ List.mem_singleton_self _
    · refine (hkeeps.count_eq fieldRun _ field hfield).trans ?_
      exact congrArg List.length haccepted
  · have haccepted : OfSchema.builder.accepted {} schemaRun
        = [(ownKey, firstValue)] := by decide +kernel
    obtain ⟨schema, hschema⟩ := Option.isSome_iff_exists.mp
      (show (OfSchema.builder.product (OfSchema.builder.machine.step
        (finalState OfSchema.builder.machine.step {} schemaRun)
        (.finish defaultResourceLimits)).1).isSome = true by decide +kernel)
    refine ⟨schema, hschema, ?_, ?_⟩
    · refine (hschemas.lookup_iff schemaRun _ schema hschema _ _).mpr ?_
      exact haccepted ▸ List.mem_singleton_self _
    · refine (hschemas.count_eq schemaRun _ schema hschema).trans ?_
      exact congrArg List.length haccepted

end ShiboriMetadata
