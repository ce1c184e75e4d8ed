import Mathlib
import ShiboriEngine.Library.OrderedMap
import ShiboriEngine.Library.MultiplyXor
import ShiboriEngine.CanonicalProofs

/-! # Small changes change the fingerprint

    Each half of the fingerprint is a multiply-xor hash of the canonical bytes
    with an odd multiplier.  One changed byte changes both halves; two changed
    neighbours change the first, whose multiplier scatters.  Changing one
    small part of a schema stays within two neighbouring canonical bytes, so
    it never goes unnoticed. -/

namespace ShiboriFingerprint

open ShiboriError ShiboriResource ShiboriBuffer ShiboriLogicalType
open ShiboriSchema ShiboriSchemaFacts ShiboriCanonical
open MultiplyXor Spans Words

/-! ## The two lanes -/

/-- Bytes stay apart as words. -/
theorem toUInt64_injective :
    Function.Injective fun byte : UInt8 => byte.toUInt64.toBitVec := by
  intro a b heq
  have hnat : a.toUInt64.toNat = b.toUInt64.toNat :=
    congrArg BitVec.toNat heq
  rw [UInt8.toNat_toUInt64, UInt8.toNat_toUInt64] at hnat
  exact UInt8.toNat_inj.mp hnat

/-- The first lane. -/
def firstLane : Lane UInt8 64 where
  multiplier := 1099511628211#64
  symbol := fun byte => byte.toUInt64.toBitVec
  odd := by decide
  symbol_injective := toUInt64_injective

/-- This lane reads every byte moved by `0x9d`. -/
def secondLane : Lane UInt8 64 where
  multiplier := 14029467366897019727#64
  symbol := fun byte => (byte + 0x9d).toUInt64.toBitVec
  odd := by decide
  symbol_injective := toUInt64_injective.comp (add_left_injective 0x9d)

/-- The first half of a fingerprint. -/
def firstHash (canonical : List UInt8) : BitVec 64 :=
  firstLane.hash 14695981039346656037#64 canonical

/-- The second half of a fingerprint. -/
def secondHash (canonical : List UInt8) : BitVec 64 :=
  secondLane.hash 1099511628211#64 canonical

/-- The first loop is the first lane. -/
theorem first_fold (s : UInt64) (canonical : List UInt8) :
    (canonical.foldl
        (fun first byte => (first ^^^ byte.toUInt64) * 1099511628211)
        s).toBitVec
      = firstLane.hash s.toBitVec canonical := by
  induction canonical generalizing s with
  | nil => rfl
  | cons byte bytes ih => exact ih _

/-- The second loop is the second lane. -/
theorem second_fold (s : UInt64) (canonical : List UInt8) :
    (canonical.foldl
        (fun second byte =>
          (second ^^^ (byte + 0x9d).toUInt64) * 14029467366897019727)
        s).toBitVec
      = secondLane.hash s.toBitVec canonical := by
  induction canonical generalizing s with
  | nil => rfl
  | cons byte bytes ih => exact ih _

/-- **THE FINGERPRINT** is the two hashes, eight bytes of each. -/
theorem makeFingerprint_eq (canonical : List UInt8) :
    makeFingerprint canonical
      = littleEndian 8 (firstHash canonical).toNat
        ++ littleEndian 8 (secondHash canonical).toNat := by
  rw [makeFingerprint, firstHash, secondHash, ← UInt64.toNat_toBitVec,
    ← UInt64.toNat_toBitVec, first_fold, second_fold]
  rfl

/-- A fingerprint is the two lanes' hashes. -/
theorem makeFingerprint_halves (canonical : List UInt8) :
    (makeFingerprint canonical).take 8
        = littleEndian 8 (firstHash canonical).toNat
      ∧ (makeFingerprint canonical).drop 8
        = littleEndian 8 (secondHash canonical).toNat := by
  have hlen := littleEndian_length 8 (firstHash canonical).toNat
  rw [makeFingerprint_eq]
  exact ⟨List.take_left' hlen, List.drop_left' hlen⟩

/-- Eight bytes hold the whole hash. -/
theorem littleEndian_hash_inj {x y : BitVec 64}
    (h : littleEndian 8 x.toNat = littleEndian 8 y.toNat) : x = y :=
  BitVec.eq_of_toNat_eq (littleEndian_inj x.isLt y.isLt h)

/-- A byte's difference is moved out of the low byte, and not around. -/
theorem firstLane_scatters : Scatters 8 firstLane.multiplier := by
  intro d hpos hlt
  have hm : firstLane.multiplier.toNat = 1099511628211 := rfl
  rw [hm, Nat.mod_eq_of_lt (by omega)]
  omega

/-- A symbol of the first lane is a byte. -/
theorem firstLane_symbol_lt (byte : UInt8) :
    (firstLane.symbol byte).toNat < 2 ^ 8 := by
  have hbyte := byte.toNat_lt
  have hsymbol : (firstLane.symbol byte).toNat = byte.toUInt64.toNat := rfl
  rw [hsymbol, UInt8.toNat_toUInt64]
  exact hbyte

/-! ## Changed bytes -/

/-- **TWO NEIGHBOURS** changed change the first half. -/
theorem first_ne_of_window {xs ys : List UInt8} (h : DiffersWithin 2 xs ys) :
    (makeFingerprint xs).take 8 ≠ (makeFingerprint ys).take 8 := by
  rw [(makeFingerprint_halves xs).1, (makeFingerprint_halves ys).1]
  intro heq
  exact Lane.hash_ne_of_window_two firstLane_scatters firstLane_symbol_lt _ h
    (littleEndian_hash_inj heq)

/-- One byte changed changes the second half too. -/
theorem second_ne_of_byte {xs ys : List UInt8} (h : DiffersWithin 1 xs ys) :
    (makeFingerprint xs).drop 8 ≠ (makeFingerprint ys).drop 8 := by
  rw [(makeFingerprint_halves xs).2, (makeFingerprint_halves ys).2]
  intro heq
  exact Lane.hash_ne_of_window_one _ h (littleEndian_hash_inj heq)

/-- A change within two bytes changes the fingerprint. -/
theorem makeFingerprint_ne {xs ys : List UInt8} (h : DiffersWithin 2 xs ys) :
    makeFingerprint xs ≠ makeFingerprint ys := by
  intro heq
  exact first_ne_of_window h (congrArg (List.take 8) heq)

/-! ## Changed schemas -/

/-- One byte of the string is another one. -/
def ByteChange (a b : Bytes) : Prop := DiffersWithin 1 a.elems b.elems

/-- Another scale, unit or validation mode, with everything else as it was. -/
inductive TypeChange (a b : LogicalType) : Prop where
  | scale (hkind : a.kind = b.kind) {precision : UInt8} {scale scale' : Int16}
      (ha : a.parameters = .decimal precision scale)
      (hb : b.parameters = .decimal precision scale') (hne : scale ≠ scale')
  | timeUnit (hkind : a.kind = b.kind) {unit unit' : TimeUnit}
      (ha : a.parameters = .time unit) (hb : b.parameters = .time unit')
      (hne : unit ≠ unit')
  | timestampUnit (hkind : a.kind = b.kind) {unit unit' : TimeUnit}
      {timezone : TimezoneMode} (ha : a.parameters = .timestamp unit timezone)
      (hb : b.parameters = .timestamp unit' timezone) (hne : unit ≠ unit')
  | validation (hkind : a.kind = b.kind) {mode mode' : Utf8Validation}
      (ha : a.parameters = .string mode) (hb : b.parameters = .string mode')
      (hne : mode ≠ mode')

/-- One byte of the value of one key is another one. -/
def MetadataChange (a b : Metadata) : Prop :=
  ∃ key value value', a.find key = some value ∧ b.find key = some value'
    ∧ ByteChange value value' ∧ ∀ k, k ≠ key → a.find k = b.find k

/-- A field with one small part changed. -/
inductive FieldChange : Field → Field → Prop where
  | nullable (field : Field) {nullable : Bool}
      (hne : field.nullable ≠ nullable) :
      FieldChange field { field with nullable := nullable }
  | type (field : Field) {type : LogicalType}
      (h : TypeChange field.type type) :
      FieldChange field { field with type := type }
  | name (field : Field) {name : Bytes} (h : ByteChange field.name name) :
      FieldChange field { field with name := name }
  | metadata (field : Field) {metadata : Metadata}
      (h : MetadataChange field.metadata metadata) :
      FieldChange field { field with metadata := metadata }

/-- A schema with one small part of one field, or of its own metadata,
    changed. -/
inductive SchemaChange (a b : Schema) : Prop where
  | field (before after : List Field) {f f' : Field}
      (ha : a.fields = before ++ f :: after)
      (hb : b.fields = before ++ f' :: after) (h : FieldChange f f')
      (hmetadata : a.metadata = b.metadata)
  | metadata (hfields : a.fields = b.fields)
      (h : MetadataChange a.metadata b.metadata)

/-- Changing one byte changes one byte of the encoding. -/
theorem encodeBytes_change {a b : Bytes} (h : ByteChange a b) :
    DiffersWithin 1 (encodeBytes a) (encodeBytes b) := by
  rw [encodeBytes, encodeBytes, h.length_eq]
  exact h.append_left _

/-- Changing parameters of two bytes stays within two bytes. -/
theorem encodeParameters_change {a b : LogicalTypeParameters}
    (hindex : a.index = b.index)
    (hwidth : (encodeParameters a).length ≤ 2) (hne : a ≠ b) :
    DiffersWithin 2 (encodeParameters a) (encodeParameters b) := by
  refine .of_length_le ?_ hwidth ?_
  · rw [encodeParameters_length, encodeParameters_length, hindex]
  · intro heq
    exact hne (encodeParameters_inj hindex heq)

/-- A changed scale stays within its two bytes, behind the precision. -/
theorem encodeScale_change (precision : UInt8) {scale scale' : Int16}
    (hne : scale ≠ scale') :
    DiffersWithin 2 (encodeParameters (.decimal precision scale))
      (encodeParameters (.decimal precision scale')) := by
  have hbytes : DiffersWithin 2 (littleEndian 2 scale.toUInt16.toNat)
      (littleEndian 2 scale'.toUInt16.toNat) := by
    refine .of_length_le ?_ ?_ ?_
    · rw [littleEndian_length, littleEndian_length]
    · rw [littleEndian_length]
    · intro heq
      have hnat := littleEndian_inj scale.toUInt16.toNat_lt
        scale'.toUInt16.toNat_lt heq
      exact hne (congrArg UInt16.toInt16 (UInt16.toNat_inj.mp hnat))
  exact hbytes.append_left [precision]

/-- A type whose kind stayed changes where its parameters do. -/
theorem encodeType_of_parameters {a b : LogicalType}
    {p q : LogicalTypeParameters} (hkind : a.kind = b.kind)
    (ha : a.parameters = p) (hb : b.parameters = q)
    (hindex : p.index = q.index)
    (h : DiffersWithin 2 (encodeParameters p) (encodeParameters q)) :
    DiffersWithin 2 (encodeType a) (encodeType b) := by
  rw [encodeType, encodeType, hkind, ha, hb, hindex]
  exact (h.append_left _).append_left _

/-- So does changing a type. -/
theorem encodeType_change {a b : LogicalType} (h : TypeChange a b) :
    DiffersWithin 2 (encodeType a) (encodeType b) := by
  cases h with
  | scale hkind ha hb hne =>
      exact encodeType_of_parameters hkind ha hb rfl (encodeScale_change _ hne)
  | timeUnit hkind ha hb hne =>
      refine encodeType_of_parameters hkind ha hb rfl
        (encodeParameters_change rfl (Nat.le_succ 1) ?_)
      intro heq
      exact hne (LogicalTypeParameters.time.inj heq)
  | timestampUnit hkind ha hb hne =>
      refine encodeType_of_parameters hkind ha hb rfl
        (encodeParameters_change rfl (Nat.le_refl 2) ?_)
      intro heq
      exact hne (LogicalTypeParameters.timestamp.inj heq).1
  | validation hkind ha hb hne =>
      refine encodeType_of_parameters hkind ha hb rfl
        (encodeParameters_change rfl (Nat.le_succ 1) ?_)
      intro heq
      exact hne (LogicalTypeParameters.string.inj heq)

/-- Changing a byte of a value changes one byte of the encoding. -/
theorem encodeMetadata_change {a b : Metadata} (h : MetadataChange a b) :
    DiffersWithin 1 (encodeMetadata a) (encodeMetadata b) := by
  obtain ⟨key, value, value', ha, hb, hvalue, hrest⟩ := h
  obtain ⟨before, after, hlist, hlist'⟩ := OrderedMap.toList_replace ha hb hrest
  have hentry : DiffersWithin 1 (encodeEntry (key, value))
      (encodeEntry (key, value')) :=
    (encodeBytes_change hvalue).append_left _
  rw [encodeMetadata, encodeMetadata, Metadata.toList, Metadata.toList, hlist,
    hlist', List.flatMap_append, List.flatMap_append, List.flatMap_cons,
    List.flatMap_cons, List.length_append, List.length_append,
    List.length_cons, List.length_cons]
  exact ((hentry.append_right _).append_left _).append_left _

/-- **A FIELD** changed in one small part changes within two neighbouring
    bytes. -/
theorem encodeField_change {a b : Field} (h : FieldChange a b) :
    DiffersWithin 2 (encodeField a) (encodeField b) := by
  cases h with
  | @nullable nullable hne =>
      have hbyte : DiffersWithin 2 (encodeNullable a.nullable)
          (encodeNullable nullable) :=
        .of_length_le rfl (Nat.le_succ 1) fun heq =>
          hne (nullable_selfDelimiting.inj trivial trivial heq)
      exact (((hbyte.append_right _).append_left _).append_left _).append_left _
  | type h =>
      have htype := (encodeType_change h).append_right
      exact ((htype _).append_left _).append_left _
  | name h =>
      have hname := ((encodeBytes_change h).mono (Nat.le_succ 1)).append_right
      exact (hname _).append_left _
  | metadata h =>
      have hmetadata := (encodeMetadata_change h).mono (Nat.le_succ 1)
      exact (((hmetadata.append_left _).append_left _).append_left _).append_left
        _

/-- **A SCHEMA** likewise. -/
theorem canonical_change {a b : Schema} (ha : Sound a) (hb : Sound b)
    (h : SchemaChange a b) : DiffersWithin 2 a.canonical b.canonical := by
  rw [ha.canonical, hb.canonical, canonicalBytes_eq _ ha.count_lt,
    canonicalBytes_eq _ hb.count_lt]
  cases h with
  | field before after hfields hfields' hfield hmetadata =>
      have hone := encodeField_change hfield
      rw [hfields, hfields', hmetadata, List.flatMap_append,
        List.flatMap_append, List.flatMap_cons, List.flatMap_cons,
        List.length_append, List.length_append, List.length_cons,
        List.length_cons]
      exact ((((hone.append_right _).append_left _).append_left _).append_right
        _).append_left _
  | metadata hfields hmetadata =>
      have hown := (encodeMetadata_change hmetadata).mono (Nat.le_succ 1)
      rw [hfields]
      exact (hown.append_left _).append_left _

/-- **SENSITIVITY** of the fingerprint, to canonical bytes and to schemas. -/
theorem fingerprint_sensitivity :
    (∀ xs ys : List UInt8, DiffersWithin 2 xs ys →
      makeFingerprint xs ≠ makeFingerprint ys)
    ∧ (∀ xs ys : List UInt8, DiffersWithin 1 xs ys →
      (makeFingerprint xs).take 8 ≠ (makeFingerprint ys).take 8
        ∧ (makeFingerprint xs).drop 8 ≠ (makeFingerprint ys).drop 8)
    ∧ (∀ xs : List UInt8, (makeFingerprint xs).length = 16)
    ∧ ∀ a b : Schema, Accepted a → Accepted b → SchemaChange a b →
      a.fingerprint ≠ b.fingerprint := by
  refine ⟨fun _ _ => makeFingerprint_ne, ?_, ?_, ?_⟩
  · intro xs ys h
    exact ⟨first_ne_of_window (h.mono (Nat.le_succ 1)), second_ne_of_byte h⟩
  · intro xs
    rw [makeFingerprint_eq, List.length_append, littleEndian_length,
      littleEndian_length]
  · intro a b ha hb h
    have hsa := accepted_sound ha
    have hsb := accepted_sound hb
    rw [hsa.fingerprint, hsb.fingerprint]
    exact makeFingerprint_ne (canonical_change hsa hsb h)

/-- Two neighbours exchanged, one byte changed, and one flag. -/
theorem fingerprint_sensitivity_at_nullability :
    makeFingerprint [0x53, 0x43, 0x48] ≠ makeFingerprint [0x53, 0x48, 0x43]
      ∧ (makeFingerprint [0x53]).drop 8 ≠ (makeFingerprint [0x54]).drop 8
      ∧ (oneFieldSchema (intField false)).fingerprint
        ≠ (oneFieldSchema (intField true)).fingerprint := by
  obtain ⟨hwindow, hbyte, _, hschema⟩ := fingerprint_sensitivity
  have hswap : DiffersWithin 2 ([0x43, 0x48] : List UInt8) [0x48, 0x43] :=
    .of_length_le rfl (Nat.le_refl 2) (by decide)
  have hone : DiffersWithin 1 ([0x53] : List UInt8) [0x54] :=
    .of_length_le rfl (Nat.le_refl 1) (by decide)
  have hchange : SchemaChange (oneFieldSchema (intField false))
      (oneFieldSchema (intField true)) :=
    .field [] [] rfl rfl
      (.nullable (intField false) Bool.false_ne_true) rfl
  exact ⟨hwindow _ _ (hswap.append_left [0x53]), (hbyte _ _ hone).2,
    hschema _ _ (intField_accepted false) (intField_accepted true) hchange⟩

end ShiboriFingerprint
