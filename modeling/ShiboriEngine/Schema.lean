import Mathlib
import ShiboriEngine.Library.Words
import ShiboriEngine.Library.Machine
import ShiboriEngine.Buffer
import ShiboriEngine.Resource
import ShiboriEngine.LogicalType
import ShiboriEngine.Utf8

/-! # Schemas

    Fields and schemas come out of builders that take metadata one entry at a
    time and validate everything once, when they finish.  A finished schema
    holds its canonical bytes and their fingerprint.  Metadata is a map that
    only takes valid keys; `std::map` is Lean's extensional ordered map. -/

namespace ShiboriSchema

open ShiboriError ShiboriResource ShiboriBuffer ShiboriLogicalType Words

/-- The copy of the UTF-8 scan over text. -/
def validUtf8 (text : List UInt8) : Bool := ShiboriUtf8.validUtf8 text

/-! ## Metadata -/

/-- `shibori.` -/
def reservedPrefix : List UInt8 :=
  [0x73, 0x68, 0x69, 0x62, 0x6f, 0x72, 0x69, 0x2e]

/-- `shibori.engine/` -/
def engineNamespace : List UInt8 :=
  reservedPrefix ++ [0x65, 0x6e, 0x67, 0x69, 0x6e, 0x65, 0x2f]

/-- A key is qualified and strict UTF-8; of the reserved names only the
    engine's own are taken. -/
def validateKey (key : Bytes) : Status :=
  let slash := key.elems.findIdx? (· = 0x2f)
  if key.elems.isEmpty ∨ validUtf8 key.elems = false ∨ slash = none
      ∨ slash = some 0 ∨ slash.map (· + 1) = some key.elems.length then
    fail .invalidSchema .validateSchema
      "metadata key must be a qualified, strict UTF-8 name"
  else if reservedPrefix <+: key.elems ∧ ¬ engineNamespace <+: key.elems then
    fail .invalidSchema .validateSchema
      "metadata key uses a reserved namespace"
  else .ok ()

/-- A map from the keys that pass `validate_key` to values. -/
structure Metadata where
  entries : Std.ExtTreeMap Bytes Bytes compare
  keys_valid : ∀ key ∈ entries, validateKey key = .ok ()

namespace Metadata

/-- No entries. -/
def empty : Metadata where
  entries := ∅
  keys_valid := fun _ h => (Std.ExtTreeMap.not_mem_empty h).elim

/-- Metadata is its entries. -/
@[ext] theorem ext {a b : Metadata} (h : a.entries = b.entries) : a = b := by
  cases a
  cases b
  cases h
  rfl

/-- The entries in the order of the keys. -/
def toList (self : Metadata) : List (Bytes × Bytes) := self.entries.toList

/-- The number of entries. -/
def size (self : Metadata) : Nat := self.entries.size

/-- The value of a key. -/
def find (self : Metadata) (key : Bytes) : Option Bytes := self.entries[key]?

/-- One entry more; `add_metadata_value` keeps it from replacing one. -/
def emplace (self : Metadata) (key value : Bytes)
    (hkey : validateKey key = .ok ()) : Metadata where
  entries := self.entries.insert key value
  keys_valid := by
    intro k hk
    rcases Std.ExtTreeMap.mem_insert.mp hk with heq | hold
    · rw [← Std.LawfulEqCmp.eq_of_compare heq]
      exact hkey
    · exact self.keys_valid k hold

end Metadata

/-- The bytes of all keys and values, with overflow refused. -/
def metadataSize (metadata : Metadata) : Result UInt64 :=
  metadata.toList.foldlM
    (fun total (key, value) => do
      let entry ← checkedAdd key.size value.size .validateSchema
        "metadata entry"
      checkedAdd total entry .validateSchema "metadata bytes") 0

/-- Gives the new aggregate. -/
def validateMetadata (metadata : Metadata) (limits : ResourceLimits)
    (aggregate : UInt64) : Result UInt64 := do
  let size ← metadataSize metadata
  let aggregate ← checkedAdd aggregate size .validateSchema
    "schema metadata bytes"
  if aggregate > limits.maximumMetadataBytes then
    fail .limitExceeded .validateSchema
      "schema metadata exceeds the configured byte limit"
  else .ok aggregate

/-- A failed call leaves the metadata alone. -/
def addMetadataValue (metadata : Metadata) (key value : Bytes) :
    Status × Metadata :=
  match hkey : validateKey key with
  | .error error => (.error error, metadata)
  | .ok () =>
      if key ∈ metadata.entries then
        (fail .invalidSchema .validateSchema "duplicate metadata key",
          metadata)
      else (.ok (), metadata.emplace key value hkey)

/-! ## Canonical encoding -/

/-- The low `size` bytes of `value`, least significant first. -/
def appendInteger (output : List UInt8) (size value : Nat) : List UInt8 :=
  output ++ littleEndian size value

/-- The length, then the bytes. -/
def appendBytes (output : List UInt8) (bytes : Bytes) : List UInt8 :=
  appendInteger output 8 bytes.size.toNat ++ bytes.elems

/-- The bytes of the text. -/
def appendString (output : List UInt8) (text : Bytes) : List UInt8 :=
  appendBytes output text

/-- The number of entries, then each in the order of the keys. -/
def appendMetadata (output : List UInt8) (metadata : Metadata) : List UInt8 :=
  metadata.toList.foldl
    (fun output (key, value) => appendBytes (appendString output key) value)
    (appendInteger output 8 metadata.size)

/-- The kind, the parameters' alternative, and the parameters. -/
def appendType (output : List UInt8) (type : LogicalType) : List UInt8 :=
  let output := output ++ [type.kind.value]
  let output := output ++ [type.parameters.index]
  match type.parameters with
  | .monostate => output
  | .decimal precision scale =>
      appendInteger (output ++ [precision]) 2 scale.toUInt16.toNat
  | .time unit => output ++ [unit.value]
  | .timestamp unit timezone => output ++ [unit.value] ++ [timezone.value]
  | .string validation => output ++ [validation.value]
  | .fixedBinary byteWidth => appendInteger output 4 byteWidth.toNat

/-- Two multiplicative hashes over the canonical bytes, eight bytes of
    each. -/
def makeFingerprint (canonical : List UInt8) : List UInt8 :=
  let first := canonical.foldl
    (fun first byte => (first ^^^ byte.toUInt64) * 1099511628211)
    (14695981039346656037 : UInt64)
  let second := canonical.foldl
    (fun second byte =>
      (second ^^^ (byte + 0x9d).toUInt64) * 14029467366897019727)
    (1099511628211 : UInt64)
  littleEndian 8 first.toNat ++ littleEndian 8 second.toNat

/-! ## Fields -/

/-- A finished field. -/
structure Field where
  id : UInt32
  name : Bytes
  type : LogicalType
  nullable : Bool
  metadata : Metadata

namespace Field

/-- The number of entries. -/
def metadataCount (self : Field) : Nat := self.metadata.size

/-- `metadata(key)`. -/
def metadataAt (self : Field) (key : Bytes) : Option Bytes :=
  self.metadata.find key

end Field

/-- A field under construction. -/
structure FieldBuilder where
  id : UInt32
  name : Bytes
  type : LogicalType
  nullable : Bool
  metadata : Metadata := .empty
  finished : Bool := false

namespace FieldBuilder

/-- Takes an entry with a key that is not there yet. -/
def addMetadata (self : FieldBuilder) (key value : Bytes) :
    Status × FieldBuilder :=
  if self.finished then
    (fail .invalidState .validateSchema "field builder is already finished",
      self)
  else
    let (status, metadata) := addMetadataValue self.metadata key value
    (status, { self with metadata := metadata })

/-- The field, once. -/
def finish (self : FieldBuilder) (limits : ResourceLimits) :
    Result Field × FieldBuilder :=
  if self.finished then
    (fail .invalidState .validateSchema "field builder is already finished",
      self)
  else
    let self := { self with finished := true }
    if self.id = 0 ∨ self.name.elems.isEmpty
        ∨ validUtf8 self.name.elems = false then
      (fail .invalidSchema .validateSchema
        "field ID must be nonzero and name must be nonempty strict UTF-8",
        self)
    else
      match validateMetadata self.metadata limits self.name.size with
      | .error error => (.error error, self)
      | .ok _ =>
          (.ok { id := self.id, name := self.name, type := self.type
                 nullable := self.nullable, metadata := self.metadata }, self)

end FieldBuilder

/-- One call of `FieldBuilder::add_metadata`. -/
def addMetadataStep : Machine.Step FieldBuilder (Bytes × Bytes) Status
  | self, (key, value) => self.addMetadata key value

/-! ## Schemas -/

/-- A finished schema with its canonical bytes and fingerprint. -/
structure Schema where
  fields : List Field
  metadata : Metadata
  canonical : List UInt8
  fingerprint : List UInt8

namespace Schema

/-- The number of fields. -/
def fieldCount (self : Schema) : Nat := self.fields.length

/-- `fields.at(index)`; nothing past the end. -/
def field (self : Schema) (index : Nat) : Option Field := self.fields[index]?

/-- The field with an id. -/
def findField (self : Schema) (id : UInt32) : Option Field :=
  self.fields.find? (·.id = id)

/-- The number of entries. -/
def metadataCount (self : Schema) : Nat := self.metadata.size

/-- `metadata(key)`. -/
def metadataAt (self : Schema) (key : Bytes) : Option Bytes :=
  self.metadata.find key

end Schema

/-- A schema under construction. -/
structure SchemaBuilder where
  fields : List Field := []
  metadata : Metadata := .empty
  finished : Bool := false

/-- The loop of `SchemaBuilder::finish` over the fields; gives the metadata
    bytes counted so far. -/
def validateFields (limits : ResourceLimits) :
    List Field → List Field → UInt64 → Result UInt64
  | _, [], metadataBytes => .ok metadataBytes
  | earlier, field :: fields, metadataBytes =>
      if earlier.any fun prior =>
          prior.id = field.id ∨ prior.name = field.name then
        fail .invalidSchema .validateSchema
          "schema field IDs and top-level names must be unique"
      else do
        let fieldSize ← checkedAdd metadataBytes field.name.size
          .validateSchema "schema metadata bytes"
        let ownMetadata ← metadataSize field.metadata
        let total ← checkedAdd fieldSize ownMetadata .validateSchema
          "schema metadata bytes"
        if total > limits.maximumMetadataBytes then
          fail .limitExceeded .validateSchema
            "schema metadata exceeds the configured byte limit"
        else validateFields limits (earlier ++ [field]) fields total

/-- The canonical bytes of one field. -/
def appendField (canonical : List UInt8) (field : Field) : List UInt8 :=
  let canonical := appendInteger canonical 4 field.id.toNat
  let canonical := appendString canonical field.name
  let canonical := appendType canonical field.type
  let canonical := canonical ++ [if field.nullable then 1 else 0]
  appendMetadata canonical field.metadata

/-- `SCH` and the encoding version, the field count, the fields and the schema
    metadata. -/
def canonicalBytes (fields : List Field) (metadata : Metadata) : List UInt8 :=
  let canonical : List UInt8 := [0x53, 0x43, 0x48, 1]
  let canonical :=
    appendInteger canonical 4 (UInt32.ofNat fields.length).toNat
  let canonical := fields.foldl appendField canonical
  appendMetadata canonical metadata

namespace SchemaBuilder

/-- Takes one field more. -/
def addField (self : SchemaBuilder) (field : Field) : Status × SchemaBuilder :=
  if self.finished then
    (fail .invalidState .validateSchema "schema builder is already finished",
      self)
  else (.ok (), { self with fields := self.fields ++ [field] })

/-- Takes an entry with a key that is not there yet. -/
def addMetadata (self : SchemaBuilder) (key value : Bytes) :
    Status × SchemaBuilder :=
  if self.finished then
    (fail .invalidState .validateSchema "schema builder is already finished",
      self)
  else
    let (status, metadata) := addMetadataValue self.metadata key value
    (status, { self with metadata := metadata })

/-- Everything `finish` checks, once the builder is not finished. -/
def validate (self : SchemaBuilder) (limits : ResourceLimits) : Status := do
  validateResourceLimits limits
  if self.fields.isEmpty then
    fail .invalidSchema .validateSchema
      "schema field count is outside the configured bounds"
  else if self.fields.length > limits.maximumFields.toNat then
    fail .limitExceeded .validateSchema
      "schema field count is outside the configured bounds"
  else do
    let metadataBytes ← validateMetadata self.metadata limits 0
    let _ ← validateFields limits [] self.fields metadataBytes
    .ok ()

/-- The schema, once; its checks in the order of the source. -/
def finish (self : SchemaBuilder) (limits : ResourceLimits) :
    Result Schema × SchemaBuilder :=
  if self.finished then
    (fail .invalidState .validateSchema "schema builder is already finished",
      self)
  else
    let self := { self with finished := true }
    match self.validate limits with
    | .error error => (.error error, self)
    | .ok () =>
        let canonical := canonicalBytes self.fields self.metadata
        (.ok { fields := self.fields, metadata := self.metadata
               canonical := canonical
               fingerprint := makeFingerprint canonical }, self)

end SchemaBuilder

/-! ## Driving a schema builder -/

/-- A call on a schema builder. -/
inductive SchemaCall where
  | addField (field : Field)
  | addMetadata (key value : Bytes)
  | finish (limits : ResourceLimits)

/-- What a call answers. -/
inductive SchemaReply where
  | done (status : Status)
  | built (result : Result Schema)

/-- The builder as a machine. -/
def schemaBuilderStep : Machine.Step SchemaBuilder SchemaCall SchemaReply
  | self, .addField field =>
      let (status, self) := self.addField field
      (.done status, self)
  | self, .addMetadata key value =>
      let (status, self) := self.addMetadata key value
      (.done status, self)
  | self, .finish limits =>
      let (result, self) := self.finish limits
      (.built result, self)

/-- Some sequence of calls on a new builder, failed ones included, got the
    schema. -/
def Accepted (schema : Schema) : Prop :=
  ∃ calls : List SchemaCall,
    SchemaReply.built (.ok schema)
      ∈ Machine.outputs schemaBuilderStep {} calls

end ShiboriSchema
