import Mathlib
import ShiboriEngine.Library.PrefixCode
import ShiboriEngine.SchemaProofs

/-! # Canonical bytes identify schemas

    Every part of the canonical encoding is self-delimiting: integers have a
    fixed width, strings carry their length, maps and the field list their
    count, and a type its kind and variant before its parameters.  Two accepted
    schemas therefore share their canonical bytes exactly when they agree field
    by field and on their metadata as finite maps. -/

namespace ShiboriCanonical

open ShiboriError ShiboriResource ShiboriBuffer ShiboriLogicalType
open ShiboriSchema ShiboriSchemaFacts PrefixCode Words

/-! ## What the source appends -/

/-- The length, then the bytes. -/
def encodeBytes (bytes : Bytes) : List UInt8 :=
  littleEndian 8 bytes.elems.length ++ bytes.elems

/-- The key, then the value. -/
def encodeEntry (entry : Bytes × Bytes) : List UInt8 :=
  encodeBytes entry.1 ++ encodeBytes entry.2

/-- The number of entries, then the entries. -/
def encodeMetadata (metadata : Metadata) : List UInt8 :=
  littleEndian 8 metadata.toList.length ++ metadata.toList.flatMap encodeEntry

/-- The parameters of a type. -/
def encodeParameters : LogicalTypeParameters → List UInt8
  | .monostate => []
  | .decimal precision scale =>
      precision :: littleEndian 2 scale.toUInt16.toNat
  | .time unit => [unit.value]
  | .timestamp unit timezone => [unit.value, timezone.value]
  | .string validation => [validation.value]
  | .fixedBinary byteWidth => littleEndian 4 byteWidth.toNat

/-- The kind, the parameters' alternative, and the parameters. -/
def encodeType (type : LogicalType) : List UInt8 :=
  [type.kind.value] ++ ([type.parameters.index]
    ++ encodeParameters type.parameters)

/-- One byte for the nullability. -/
def encodeNullable (nullable : Bool) : List UInt8 :=
  [if nullable then 1 else 0]

/-- The parts of a field, one after another. -/
def encodeField (field : Field) : List UInt8 :=
  littleEndian 4 field.id.toNat ++ (encodeBytes field.name
    ++ (encodeType field.type ++ (encodeNullable field.nullable
      ++ encodeMetadata field.metadata)))

/-- `append_bytes` appends the encoding. -/
theorem appendBytes_eq (output : List UInt8) (bytes : Bytes) :
    appendBytes output bytes = output ++ encodeBytes bytes := by
  rw [appendBytes, appendInteger, Buffer.size_toNat, List.append_assoc]
  rfl

/-- `append_metadata` appends the encoding. -/
theorem appendMetadata_eq (output : List UInt8) (metadata : Metadata) :
    appendMetadata output metadata = output ++ encodeMetadata metadata := by
  have hentry : (fun (output : List UInt8) (entry : Bytes × Bytes) =>
      appendBytes (appendString output entry.1) entry.2)
      = fun output entry => output ++ encodeEntry entry := by
    funext output entry
    rw [appendString, appendBytes_eq, appendBytes_eq, List.append_assoc]
    rfl
  rw [appendMetadata]
  show metadata.toList.foldl (fun output entry =>
    appendBytes (appendString output entry.1) entry.2) _ = _
  rw [hentry, List.foldl_append_eq_append, appendInteger, encodeMetadata,
    List.append_assoc, Metadata.size, Metadata.toList,
    Std.ExtTreeMap.length_toList, List.flatMap_def]

/-- `append_type` appends the encoding. -/
theorem appendType_eq (output : List UInt8) (type : LogicalType) :
    appendType output type = output ++ encodeType type := by
  rw [appendType, encodeType]
  cases type.parameters with
  | monostate => simp only [encodeParameters, List.append_assoc, List.append_nil]
  | decimal precision scale =>
      simp only [encodeParameters, appendInteger, List.append_assoc]
      rfl
  | time unit => simp only [encodeParameters, List.append_assoc]
  | timestamp unit timezone =>
      simp only [encodeParameters, List.append_assoc]
      rfl
  | string validation => simp only [encodeParameters, List.append_assoc]
  | fixedBinary byteWidth =>
      simp only [encodeParameters, appendInteger, List.append_assoc]

/-- The field loop appends the encoding. -/
theorem appendField_eq (output : List UInt8) (field : Field) :
    appendField output field = output ++ encodeField field := by
  rw [appendField, appendMetadata_eq, appendType_eq, appendString, appendBytes_eq,
    appendInteger, encodeField, encodeNullable]
  simp only [List.append_assoc]

/-- The canonical bytes are the magic, the counted fields and the metadata. -/
theorem canonicalBytes_eq {fields : List Field} (metadata : Metadata)
    (hcount : fields.length < 2 ^ 32) :
    canonicalBytes fields metadata
      = [0x53, 0x43, 0x48, 1] ++ ((littleEndian 4 fields.length
          ++ fields.flatMap encodeField) ++ encodeMetadata metadata) := by
  have hfield : appendField = fun output field =>
      output ++ encodeField field := by
    funext output field
    exact appendField_eq output field
  have hword : (UInt32.ofNat fields.length).toNat = fields.length :=
    UInt32.toNat_ofNat_of_lt' hcount
  rw [canonicalBytes, appendMetadata_eq, hfield, List.foldl_append_eq_append,
    appendInteger, hword, List.flatMap_def]
  simp only [List.append_assoc]

/-! ## Every part is self-delimiting -/

/-- Integers of one width delimit themselves. -/
theorem integer_selfDelimiting (n : Nat) :
    SelfDelimiting (fun v => v < 256 ^ n) (littleEndian n) :=
  .of_width n (fun v _ => littleEndian_length n v)
    (fun _ _ hv hw heq => littleEndian_inj hv hw heq)

/-- Bytes behind their length do. -/
theorem bytes_selfDelimiting :
    SelfDelimiting (fun _ : Bytes => True) encodeBytes :=
  (integer_selfDelimiting 8).lengthPrefixed.comap
    (fun bytes _ => bytes.size_lt) (fun _ _ _ _ heq => Buffer.ext heq)

/-- So do entries. -/
theorem entry_selfDelimiting :
    SelfDelimiting (fun _ : Bytes × Bytes => True) encodeEntry :=
  (bytes_selfDelimiting.append bytes_selfDelimiting).mono
    (fun _ _ => ⟨trivial, trivial⟩)

/-- So do entries behind their number. -/
theorem metadata_selfDelimiting :
    SelfDelimiting (fun metadata : Metadata => metadata.size < 2 ^ 64)
      encodeMetadata := by
  have hlist := (integer_selfDelimiting 8).counted entry_selfDelimiting
  refine hlist.comap (f := Metadata.toList) ?_ ?_
  · intro metadata hsize
    rw [Metadata.toList, Std.ExtTreeMap.length_toList]
    exact ⟨hsize, fun _ _ => trivial⟩
  · intro a b _ _ heq
    exact Metadata.ext (Std.ExtTreeMap.toList_inj.mp heq)

private theorem kind_value_injective :
    Function.Injective LogicalTypeKind.value := by
  have hback : ∀ kind : LogicalTypeKind,
      LogicalTypeKind.ofNat kind.value.toNat = kind := by
    intro kind
    cases kind <;> rfl
  intro a b heq
  rw [← hback a, ← hback b, heq]

/-- The width of a variant's parameters. -/
def variantWidth (index : UInt8) : Nat :=
  match index with
  | 0 => 0
  | 1 => 3
  | 2 => 1
  | 3 => 2
  | 4 => 1
  | _ => 4

/-- The alternative tells the width of the parameters. -/
theorem encodeParameters_length (parameters : LogicalTypeParameters) :
    (encodeParameters parameters).length = variantWidth parameters.index := by
  cases parameters <;> rfl

private theorem timeUnit_value_inj {a b : TimeUnit} (h : a.value = b.value) :
    a = b := by
  revert h
  cases a <;> cases b <;> decide

private theorem timezone_value_inj {a b : TimezoneMode}
    (h : a.value = b.value) : a = b := by
  revert h
  cases a <;> cases b <;> decide

private theorem validation_value_inj {a b : Utf8Validation}
    (h : a.value = b.value) : a = b := by
  revert h
  cases a <;> cases b <;> decide

/-- Within one variant the parameters are determined by their bytes. -/
theorem encodeParameters_inj {a b : LogicalTypeParameters}
    (hindex : a.index = b.index)
    (heq : encodeParameters a = encodeParameters b) : a = b := by
  cases a with
  | monostate =>
      cases b with
      | monostate => rfl
      | _ => simp [LogicalTypeParameters.index] at hindex
  | decimal precision scale =>
      cases b with
      | decimal precision' scale' =>
          obtain ⟨rfl, hscale⟩ := List.cons.inj heq
          have hnat := littleEndian_inj scale.toUInt16.toNat_lt
            scale'.toUInt16.toNat_lt hscale
          -- a signed scale is written as the word with the same bits
          have hscale : scale = scale' :=
            congrArg UInt16.toInt16 (UInt16.toNat_inj.mp hnat)
          rw [hscale]
      | _ => simp [LogicalTypeParameters.index] at hindex
  | time unit =>
      cases b with
      | time unit' =>
          rw [timeUnit_value_inj (List.cons.inj heq).1]
      | _ => simp [LogicalTypeParameters.index] at hindex
  | timestamp unit timezone =>
      cases b with
      | timestamp unit' timezone' =>
          obtain ⟨hunit, hrest⟩ := List.cons.inj heq
          rw [timeUnit_value_inj hunit,
            timezone_value_inj (List.cons.inj hrest).1]
      | _ => simp [LogicalTypeParameters.index] at hindex
  | string validation =>
      cases b with
      | string validation' =>
          rw [validation_value_inj (List.cons.inj heq).1]
      | _ => simp [LogicalTypeParameters.index] at hindex
  | fixedBinary byteWidth =>
      cases b with
      | fixedBinary byteWidth' =>
          have hnat := littleEndian_inj byteWidth.toNat_lt
            byteWidth'.toNat_lt heq
          rw [UInt32.toNat_inj.mp hnat]
      | _ => simp [LogicalTypeParameters.index] at hindex

/-- So parameters behind their alternative delimit themselves. -/
theorem parameters_selfDelimiting :
    SelfDelimiting (fun _ : LogicalTypeParameters => True)
      (fun parameters => [parameters.index] ++ encodeParameters parameters) := by
  have hvariant : ∀ index : UInt8, SelfDelimiting
      (fun parameters : LogicalTypeParameters => parameters.index = index)
      encodeParameters := by
    intro index
    refine .of_width (variantWidth index) (fun a ha => ?_)
      (fun a b ha hb heq => ?_)
    · rw [encodeParameters_length, ha]
    · exact encodeParameters_inj (ha.trans hb.symm) heq
  -- The variant's index comes first and fixes the width of what follows.
  have htagged := SelfDelimiting.dependent
    (SelfDelimiting.of_symbol (Function.injective_id : Function.Injective
      (id : UInt8 → UInt8))) (fun index _ => hvariant index)
  exact htagged.comap
    (f := fun parameters : LogicalTypeParameters =>
      (parameters.index, parameters))
    (fun _ _ => ⟨trivial, rfl⟩) (fun _ _ _ _ heq => congrArg Prod.snd heq)

/-- So do types. -/
theorem type_selfDelimiting :
    SelfDelimiting (fun _ : LogicalType => True) encodeType :=
  ((SelfDelimiting.of_symbol kind_value_injective).append
    parameters_selfDelimiting).comap
      (f := fun type : LogicalType => (type.kind, type.parameters))
      (fun _ _ => ⟨trivial, trivial⟩)
      (fun _ _ _ _ heq => LogicalType.ext (congrArg Prod.fst heq)
        (congrArg Prod.snd heq))

/-- So does the nullability. -/
theorem nullable_selfDelimiting :
    SelfDelimiting (fun _ : Bool => True) encodeNullable := by
  refine .of_symbol ?_
  intro a b heq
  revert heq
  cases a <;> cases b <;> decide

/-- So do fields. -/
theorem field_selfDelimiting :
    SelfDelimiting (fun field : Field => field.metadata.size < 2 ^ 64)
      encodeField := by
  have hparts := (integer_selfDelimiting 4).append
    (bytes_selfDelimiting.append (type_selfDelimiting.append
      (nullable_selfDelimiting.append metadata_selfDelimiting)))
  refine hparts.comap (f := fun field : Field =>
    (field.id.toNat, field.name, field.type, field.nullable,
      field.metadata)) ?_ ?_
  · intro field hsize
    exact ⟨field.id.toNat_lt, trivial, trivial, trivial, hsize⟩
  · rintro ⟨id, name, type, nullable, metadata⟩
      ⟨id', name', type', nullable', metadata'⟩ _ _ heq
    simp only [Prod.mk.injEq] at heq
    obtain ⟨hid, rfl, rfl, rfl, rfl⟩ := heq
    rw [UInt32.toNat_inj.mp hid]

/-- **NO ALIASING**: sound schemas with the same canonical bytes have the same
    fields and the same metadata. -/
theorem canonical_inj {a b : Schema} (ha : Sound a) (hb : Sound b)
    (heq : a.canonical = b.canonical) :
    a.fields = b.fields ∧ a.metadata = b.metadata := by
  have hfields := (integer_selfDelimiting 4).counted field_selfDelimiting
  have hparts := hfields.append metadata_selfDelimiting
  -- Fewer than `2^32` fields, so the count that is written is their number.
  rw [ha.canonical, hb.canonical, canonicalBytes_eq _ ha.count_lt,
    canonicalBytes_eq _ hb.count_lt] at heq
  have hpair := hparts.inj
    (a := (a.fields, a.metadata)) (b := (b.fields, b.metadata))
    ⟨⟨ha.count_lt, ha.size_lt.2⟩, ha.size_lt.1⟩
    ⟨⟨hb.count_lt, hb.size_lt.2⟩, hb.size_lt.1⟩
    (List.append_cancel_left heq)
  exact Prod.mk.inj hpair

/-! ## The same schema -/

/-- The same metadata as a finite map. -/
def SameMap (a b : Metadata) : Prop :=
  ∀ key : Bytes, a.find key = b.find key

/-- Two fields agree in every part. -/
structure SameField (a b : Field) : Prop where
  id : a.id = b.id
  name : a.name.elems = b.name.elems
  kind : a.type.kind = b.type.kind
  parameters : a.type.parameters = b.type.parameters
  nullable : a.nullable = b.nullable
  metadata : SameMap a.metadata b.metadata

/-- Two schemas agree in every field and in the metadata. -/
structure SameSchema (a b : Schema) : Prop where
  count : a.fields.length = b.fields.length
  fields : ∀ (i : Nat) (ha : i < a.fields.length) (hb : i < b.fields.length),
    SameField a.fields[i] b.fields[i]
  metadata : SameMap a.metadata b.metadata

/-- Metadata with the same values is the same. -/
theorem sameMap_iff {a b : Metadata} : SameMap a b ↔ a = b := by
  constructor
  · intro h
    exact Metadata.ext (Std.ExtTreeMap.ext_getElem? h)
  · rintro rfl key
    rfl

/-- Fields that agree in every part are the same. -/
theorem sameField_iff {a b : Field} : SameField a b ↔ a = b := by
  constructor
  · rintro ⟨hid, hname, hkind, hparameters, hnullable, hmetadata⟩
    have htype := LogicalType.ext hkind hparameters
    have hname := Buffer.ext hname
    have hmetadata := sameMap_iff.mp hmetadata
    cases a
    cases b
    simp only at hid htype hname hnullable hmetadata
    rw [hid, hname, htype, hnullable, hmetadata]
  · rintro rfl
    exact ⟨rfl, rfl, rfl, rfl, rfl, fun _ => rfl⟩

/-- Schemas that agree have the same fields and metadata. -/
theorem sameSchema_iff {a b : Schema} :
    SameSchema a b ↔ a.fields = b.fields ∧ a.metadata = b.metadata := by
  constructor
  · rintro ⟨hcount, hfields, hmetadata⟩
    refine ⟨List.ext_getElem hcount ?_, sameMap_iff.mp hmetadata⟩
    intro i ha hb
    exact sameField_iff.mp (hfields i ha hb)
  · rintro ⟨hfields, hmetadata⟩
    refine ⟨by rw [hfields], ?_, sameMap_iff.mpr hmetadata⟩
    intro i ha hb
    refine sameField_iff.mpr ?_
    simp only [hfields]

/-- **CANONICAL BYTES**: two accepted schemas have the same canonical bytes
    exactly when they are the same schema. -/
theorem canonical_bytes_eq_iff {a b : Schema} (ha : Accepted a)
    (hb : Accepted b) : a.canonical = b.canonical ↔ SameSchema a b := by
  have hsa := accepted_sound ha
  have hsb := accepted_sound hb
  rw [sameSchema_iff]
  constructor
  · exact canonical_inj hsa hsb
  · rintro ⟨hfields, hmetadata⟩
    rw [hsa.canonical, hsb.canonical, hfields, hmetadata]

/-- An integer column named `a`. -/
def intField (nullable : Bool) : Field where
  id := 1
  name := .singleton 0x61
  type := ⟨.int64, .monostate, rfl⟩
  nullable := nullable
  metadata := .empty

/-- A schema of one integer field is accepted. -/
theorem intField_accepted (nullable : Bool) :
    Accepted (oneFieldSchema (intField nullable)) :=
  oneFieldSchema_accepted (by revert nullable; decide +kernel)

/-- Two schemas that differ in one flag. -/
theorem canonical_bytes_eq_iff_at_nullability :
    (oneFieldSchema (intField false)).canonical
        = (oneFieldSchema (intField true)).canonical
      ↔ SameSchema (oneFieldSchema (intField false))
          (oneFieldSchema (intField true)) :=
  canonical_bytes_eq_iff (intField_accepted false) (intField_accepted true)

end ShiboriCanonical
