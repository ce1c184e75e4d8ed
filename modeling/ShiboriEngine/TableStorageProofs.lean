import Mathlib
import ShiboriEngine.ColumnShapeProofs
import ShiboriEngine.Table

/-! # How values are stored

    `Stores column values` relates the components of a column to the values
    without gaps: chunks of one width, bits of a bitmap, or a payload with the
    boundaries of its values.  A column fits exactly when it stores as many
    values as it has rows that are not null; the values are determined by the
    components and the components by the values. -/

namespace ShiboriTableStorage

open ShiboriBuffer ShiboriLogicalType ShiboriSchema ShiboriColumn
open ShiboriColumnFacts ShiboriColumnShape ShiboriColumnValidation
open ShiboriBlock ShiboriBlockAccess ShiboriValidity ShiboriTable
open Bitmap Spans Dense Words
open Utf8 (WellFormed)

/-! ## Kinds -/

/-- A column has the storage of its type. -/
theorem storageKind_eq (column : Column) :
    column.storageKind = storageOf column.type := by
  have hshape := column.shape
  rw [storageOf]
  cases hkind : column.storageKind with
  | fixedWidth =>
      rw [hkind] at hshape
      obtain ⟨hfixed, hboolean⟩ := isFixedStorageType_iff.mp hshape.1
      rw [LogicalType.isFixedWidth, Bool.not_eq_true'] at hfixed
      rw [if_neg hboolean, if_neg (Bool.eq_false_iff.mp hfixed)]
  | boolean =>
      rw [hkind] at hshape
      rw [if_pos hshape.1]
  | variableWidth =>
      rw [hkind] at hshape
      have hvariable := hshape.1
      have hboolean : column.type.kind ≠ .boolean := by
        intro hc
        rcases isVariableWidth_iff.mp hvariable with h | h
        · cases h.symm.trans hc
        · cases h.symm.trans hc
      rw [if_neg hboolean, if_pos hvariable]

/-- Strings are stored at variable width. -/
theorem storageOf_of_strict {type : LogicalType}
    (h : isStrictString type = true) : storageOf type = .variableWidth := by
  rw [isStrictString, decide_eq_true_iff] at h
  have hvariable : type.isVariableWidth = true :=
    isVariableWidth_iff.mpr (Or.inl h.1)
  rw [storageOf, h.1, if_neg nofun, if_pos hvariable]

/-- Boolean storage is for the boolean type. -/
theorem kind_of_storageOf {type : LogicalType}
    (h : storageOf type = .boolean) : type.kind = .boolean := by
  rw [storageOf] at h
  by_contra hne
  rw [if_neg hne] at h
  split at h <;> cases h

/-- Variable-width storage is for variable-width types. -/
theorem isVariableWidth_of {type : LogicalType}
    (h : storageOf type = .variableWidth) : type.isVariableWidth = true := by
  rw [storageOf] at h
  by_contra hne
  rw [if_neg hne] at h
  split at h <;> cases h

/-- Fixed storage is for the types of fixed storage. -/
theorem isFixedStorageType_of {type : LogicalType}
    (h : storageOf type = .fixedWidth) : isFixedStorageType type = true := by
  rw [storageOf] at h
  by_cases hboolean : type.kind = .boolean
  · rw [if_pos hboolean] at h
    cases h
  rw [if_neg hboolean] at h
  by_cases hvariable : type.isVariableWidth = true
  · rw [if_pos hvariable] at h
    cases h
  refine isFixedStorageType_iff.mpr ⟨?_, hboolean⟩
  rw [LogicalType.isFixedWidth, Bool.not_eq_true']
  exact Bool.eq_false_iff.mpr hvariable

/-- A bitmap of the right size with clear padding is its bits. -/
theorem ext_of_readBits {count : Nat} {xs ys : List UInt8}
    (hlen : xs.length = ys.length) (hx : PaddingZero count xs)
    (hy : PaddingZero count ys)
    (h : readBits xs count = readBits ys count) : xs = ys := by
  rw [paddingZero_iff] at hx hy
  refine ext_bits hlen ?_
  intro i _
  rcases Nat.lt_or_ge i count with hin | hout
  · have hrow := congrArg (fun bits => bits[i]?) h
    simp only [readBits, List.getElem?_map, List.getElem?_range hin,
      Option.map_some, Option.some.injEq] at hrow
    exact hrow
  · rw [hx i hout, hy i hout]

/-! ## Storing -/

/-- The column stores these values. -/
inductive Stores (column : Column) : List Value → Prop where
  | fixedWidth {storage : ByteBuffer} {chunks : List (List UInt8)}
      (hkind : storageOf column.type = .fixedWidth)
      (hvalues : column.values = some storage)
      (hflatten : storage.elems = chunks.flatten)
      (hwidth : ∀ chunk ∈ chunks,
        chunk.length = column.type.fixedWidthBytes.toNat) :
      Stores column (chunks.map .bytes)
  | boolean {storage : ByteBuffer} {bits : List Bool}
      (hkind : storageOf column.type = .boolean)
      (hvalues : column.values = some storage)
      (hlength : storage.elems.length = bitmapBytes bits.length)
      (hpadding : PaddingZero bits.length storage.elems)
      (hbits : readBits storage.elems bits.length = bits) :
      Stores column (bits.map .bit)
  | variableWidth {offsets : OffsetBuffer} {payload : ByteBuffer}
      {records : List (List UInt8)}
      (hkind : storageOf column.type = .variableWidth)
      (hoffsets : column.offsets = some offsets)
      (hpayload : column.payload = some payload)
      (hboundaries : offsets.elems.map UInt64.toNat = boundaries 0 records)
      (hflatten : payload.elems = records.flatten)
      (hstrict : isStrictString column.type = true →
        ∀ record ∈ records, WellFormed record) :
      Stores column (records.map .bytes)

/-- Offsets that fit are the boundaries of the slices. -/
theorem boundaries_slices {dense : Nat} {offsets : OffsetBuffer}
    {payload : ByteBuffer}
    (h : OffsetsFit dense offsets.elems payload.elems.length) :
    offsets.elems.map UInt64.toNat
      = boundaries 0 (slices offsets payload) := by
  obtain ⟨cuts, hcuts, hordered, hlast⟩ := cuts_of_fit h
  rw [slices, hcuts, boundaries_pieces hordered hlast (Nat.le_refl _)]

/-- The slices of checked strings are well formed. -/
theorem wellFormed_slices {dense : Nat} {offsets : OffsetBuffer}
    {payload : ByteBuffer}
    (h : OffsetsFit dense offsets.elems payload.elems.length)
    (hstrings : StringsFit offsets.elems payload.elems) :
    ∀ record ∈ slices offsets payload, WellFormed record := by
  intro record hrecord
  obtain ⟨i, hi, rfl⟩ := List.getElem_of_mem hrecord
  rw [slices_length h] at hi
  obtain ⟨first, last, hfirst, hlast, _, hslice⟩ := slices_getElem? h hi
  obtain ⟨_, heq⟩ := List.getElem?_eq_some_iff.mp hslice
  obtain ⟨_, rfl⟩ := List.getElem?_eq_some_iff.mp hfirst
  obtain ⟨hnext, rfl⟩ := List.getElem?_eq_some_iff.mp hlast
  rw [heq]
  exact hstrings i hnext

/-- **FITTING STORES**: a column that fits stores the values it is read
    as. -/
theorem stores_of_fits {column : Column}
    (h : StorageFits (denseCount column) column) :
    Stores column (denseValues column)
      ∧ (denseValues column).length = denseCount column := by
  have hkind := storageKind_eq column
  rw [StorageFits] at h
  rw [denseValues]
  cases hstorage : column.storageKind with
  | fixedWidth =>
      rw [hstorage] at h hkind
      obtain ⟨values, hvalues, hlen⟩ := h
      obtain ⟨hflatten, hwidth⟩ := chunks_spec hlen
      rw [hvalues]
      dsimp only
      rw [List.length_map, chunks_length]
      exact ⟨.fixedWidth hkind.symm hvalues hflatten.symm hwidth, rfl⟩
  | boolean =>
      rw [hstorage] at h hkind
      obtain ⟨values, hvalues, hlen, hpadding⟩ := h
      rw [hvalues]
      dsimp only
      rw [List.length_map, readBits_length]
      refine ⟨.boolean hkind.symm hvalues ?_ ?_ ?_, rfl⟩
      · rw [readBits_length]
        exact hlen
      · rw [readBits_length]
        exact hpadding
      · rw [readBits_length]
  | variableWidth =>
      rw [hstorage] at h hkind
      obtain ⟨offsets, hoffsets, payload, hpayload, hfit, hstrings⟩ := h
      rw [hoffsets, hpayload]
      dsimp only
      rw [List.length_map, slices_length hfit]
      refine ⟨.variableWidth hkind.symm hoffsets hpayload
        (boundaries_slices hfit) (slices_flatten hfit).symm ?_, rfl⟩
      intro hstrict
      exact wellFormed_slices hfit (hstrings hstrict)

/-! ## What is stored -/

section Stored

variable {column : Column} {values : List Value}

/-- What is stored has the type of the column. -/
theorem Stores.hasType (h : Stores column values) :
    ∀ value ∈ values, value.HasType column.type := by
  cases h with
  | fixedWidth hkind hvalues hflatten hwidth =>
      intro value hvalue
      obtain ⟨chunk, hchunk, rfl⟩ := List.mem_map.mp hvalue
      refine ⟨?_, fun _ => hwidth chunk hchunk, ?_⟩
      · rw [hkind]
        exact nofun
      · intro hstrict
        rw [storageOf_of_strict hstrict] at hkind
        cases hkind
  | boolean hkind =>
      intro value hvalue
      obtain ⟨bit, _, rfl⟩ := List.mem_map.mp hvalue
      exact hkind
  | variableWidth hkind hoffsets hpayload hboundaries hflatten hstrict =>
      intro value hvalue
      obtain ⟨record, hrecord, rfl⟩ := List.mem_map.mp hvalue
      refine ⟨?_, ?_, fun h => hstrict h record hrecord⟩
      · rw [hkind]
        exact nofun
      · rw [hkind]
        exact nofun

/-- The bytes of values made of bytes. -/
theorem map_toBytes (records : List (List UInt8)) :
    (records.map Value.bytes).map Value.toBytes = records := by
  rw [List.map_map]
  exact List.map_id records

/-- The bytes the validation counts are the bytes of the values. -/
theorem Stores.bytes (h : Stores column values) :
    storageBytes values.length column = valueBytes column.type values := by
  have hstorage := storageKind_eq column
  cases h with
  | fixedWidth hkind hvalues hflatten hwidth =>
      rw [hkind] at hstorage
      rw [storageBytes_values _ (by rw [hstorage]; exact nofun) hvalues,
        hflatten, valueBytes, hkind, length_flatten_of_forall hwidth,
        List.length_map]
  | boolean hkind hvalues hlength =>
      rw [hkind] at hstorage
      rw [storageBytes_values _ (by rw [hstorage]; exact nofun) hvalues,
        hlength, valueBytes, hkind, List.length_map]
  | variableWidth hkind hoffsets hpayload hboundaries hflatten =>
      rw [hkind] at hstorage
      rw [storageBytes_payload _ hstorage hpayload, hflatten, valueBytes,
        hkind, map_toBytes]

/-- **STORING FITS**. -/
theorem Stores.fits (h : Stores column values) :
    StorageFits values.length column := by
  have hstorage := storageKind_eq column
  cases h with
  | fixedWidth hkind hvalues hflatten hwidth =>
      rw [StorageFits, hstorage, hkind]
      refine ⟨_, hvalues, ?_⟩
      rw [hflatten, length_flatten_of_forall hwidth, List.length_map]
  | boolean hkind hvalues hlength hpadding =>
      rw [StorageFits, hstorage, hkind, List.length_map]
      exact ⟨_, hvalues, hlength, hpadding⟩
  | @variableWidth offsets payload records hkind hoffsets hpayload hboundaries
      hflatten hstrict =>
      rw [StorageFits, hstorage, hkind, List.length_map]
      have hlength : offsets.elems.length = records.length + 1 := by
        rw [← List.length_map UInt64.toNat, hboundaries, boundaries_length]
      have hchain : (offsets.elems.map UInt64.toNat).IsChain (· ≤ ·) := by
        rw [hboundaries]
        exact boundaries_isChain 0 records
      have hlast : (offsets.elems.map UInt64.toNat).getLast?
          = some payload.elems.length := by
        rw [hboundaries, boundaries_getLast?, hflatten, Nat.zero_add]
      have hpieces : pieces payload.elems (offsets.elems.map UInt64.toNat)
          = records := by
        rw [hboundaries, hflatten]
        exact pieces_boundaries [] records
      refine ⟨_, hoffsets, _, hpayload, ⟨hlength, ?_, ?_, ?_⟩, ?_⟩
      · have hhead := congrArg List.head? hboundaries
        obtain ⟨cuts, hcuts⟩ := boundaries_eq_cons 0 records
        rw [hcuts, List.head?_map, List.head?_cons,
          Option.map_eq_some_iff] at hhead
        obtain ⟨first, hfirst, hzero⟩ := hhead
        have hfirst0 : first = 0 := UInt64.toNat_inj.mp hzero
        rw [hfirst, hfirst0]
      · intro i hi
        rw [List.isChain_map, List.isChain_iff_getElem] at hchain
        exact le_toNat.mpr (hchain i hi)
      · rw [List.getLast?_map, Option.map_eq_some_iff] at hlast
        exact hlast
      · intro hstrings i hi
        have hcut : i + 1 < (offsets.elems.map UInt64.toNat).length := by
          rw [List.length_map]
          exact hi
        have hpiece := pieces_getElem? payload.elems hcut
        rw [hpieces, List.getElem_map, List.getElem_map] at hpiece
        exact hstrict hstrings _ (List.mem_of_getElem? hpiece)

/-- **READING** gives the stored values back. -/
theorem Stores.denseValues_eq (h : Stores column values)
    (hlength : values.length = denseCount column) :
    denseValues column = values := by
  have hstorage := storageKind_eq column
  rw [denseValues]
  cases h with
  | fixedWidth hkind hvalues hflatten hwidth =>
      rw [List.length_map] at hlength
      rw [hstorage, hkind, hvalues]
      dsimp only
      rw [← hlength, hflatten, chunks_flatten hwidth]
  | boolean hkind hvalues hbytes hpadding hbits =>
      rw [List.length_map] at hlength
      rw [hstorage, hkind, hvalues]
      dsimp only
      rw [← hlength, hbits]
  | variableWidth hkind hoffsets hpayload hboundaries hflatten =>
      rw [hstorage, hkind, hoffsets, hpayload]
      dsimp only
      rw [slices, hboundaries, hflatten]
      exact congrArg (List.map Value.bytes) (pieces_boundaries [] _)

/-- The record limit is a limit on every value. -/
theorem Stores.within_iff (h : Stores column values) (limit : UInt64) :
    RecordsWithin limit column
      ↔ ∀ value ∈ values, value.Within column.type limit.toNat := by
  have hstorage := storageKind_eq column
  cases h with
  | fixedWidth hkind =>
      rw [hkind] at hstorage
      refine iff_of_true
        (recordsWithin_of_values limit (by rw [hstorage]; exact nofun)) ?_
      intro value _ hvariable
      rw [hkind] at hvariable
      cases hvariable
  | boolean hkind =>
      rw [hkind] at hstorage
      refine iff_of_true
        (recordsWithin_of_values limit (by rw [hstorage]; exact nofun)) ?_
      intro value _ hvariable
      rw [hkind] at hvariable
      cases hvariable
  | @variableWidth offsets payload records hkind hoffsets hpayload hboundaries
      hflatten =>
      have hsteps : ∀ (i : Nat) (record : List UInt8),
          records[i]? = some record → ∃ first last : UInt64,
            offsets.elems[i]? = some first
              ∧ offsets.elems[i + 1]? = some last
              ∧ last.toNat - first.toNat = record.length := by
        intro i record hrecord
        obtain ⟨cut, hcut, hnext⟩ := @boundaries_getElem? _ 0 _ _ _ hrecord
        rw [← hboundaries, List.getElem?_map, Option.map_eq_some_iff]
          at hcut hnext
        obtain ⟨first, hfirst, rfl⟩ := hcut
        obtain ⟨last, hlast, heq⟩ := hnext
        exact ⟨first, last, hfirst, hlast, by omega⟩
      have hlength : offsets.elems.length = records.length + 1 := by
        rw [← List.length_map UInt64.toNat, hboundaries, boundaries_length]
      constructor
      · intro hwithin value hvalue _
        obtain ⟨record, hrecord, rfl⟩ := List.mem_map.mp hvalue
        obtain ⟨i, hi⟩ := List.mem_iff_getElem?.mp hrecord
        obtain ⟨first, last, hfirst, hlast, heq⟩ := hsteps i record hi
        obtain ⟨_, rfl⟩ := List.getElem?_eq_some_iff.mp hfirst
        obtain ⟨hnext, rfl⟩ := List.getElem?_eq_some_iff.mp hlast
        show record.length ≤ _
        rw [← heq]
        exact hwithin offsets hoffsets i hnext
      · intro hwithin other hother i hi
        cases hoffsets.symm.trans hother
        have hin : i < records.length := by omega
        obtain ⟨first, last, hfirst, hlast, heq⟩ :=
          hsteps i records[i] (List.getElem?_eq_getElem hin)
        obtain ⟨_, rfl⟩ := List.getElem?_eq_some_iff.mp hfirst
        obtain ⟨_, rfl⟩ := List.getElem?_eq_some_iff.mp hlast
        rw [heq]
        exact hwithin _ (List.mem_map_of_mem (List.getElem_mem hin)) hkind

end Stored

/-! ## Components and values determine each other -/

/-- A column with values has no offsets and no payload, and one with offsets
    and a payload no values. -/
theorem other_components {column : Column} :
    (storageOf column.type ≠ .variableWidth →
      column.offsets = none ∧ column.payload = none)
    ∧ (storageOf column.type = .variableWidth → column.values = none) := by
  have hshape := column.shape
  rw [← storageKind_eq]
  cases hkind : column.storageKind with
  | fixedWidth =>
      rw [hkind] at hshape
      exact ⟨fun _ => hshape.2.2, fun h => by cases h⟩
  | boolean =>
      rw [hkind] at hshape
      exact ⟨fun _ => hshape.2.2, fun h => by cases h⟩
  | variableWidth =>
      rw [hkind] at hshape
      exact ⟨fun h => (h rfl).elim, fun _ => hshape.2.1⟩

/-- Different bytes are different values. -/
theorem map_bytes_inj {a b : List (List UInt8)}
    (h : a.map Value.bytes = b.map Value.bytes) : a = b := by
  rw [← map_toBytes a, h, map_toBytes]

/-- Different bits are different values. -/
theorem map_bit_inj {a b : List Bool}
    (h : a.map Value.bit = b.map Value.bit) : a = b :=
  List.map_injective_iff.mpr (fun _ _ hbit => Value.bit.inj hbit) h

/-- **ONE STORAGE**: columns of one type that store the same values have the
    same components. -/
theorem Stores.components_eq {a b : Column} {values : List Value}
    (htype : a.type = b.type) (ha : Stores a values) (hb : Stores b values) :
    a.values = b.values ∧ a.offsets = b.offsets ∧ a.payload = b.payload := by
  have hothers := @other_components a
  have hothers' := @other_components b
  rw [htype] at hothers
  cases ha with
  | @fixedWidth storage chunks hkind hvalues hflatten =>
      rw [htype] at hkind
      have hvariable : storageOf b.type ≠ .variableWidth := by
        rw [hkind]
        exact nofun
      obtain ⟨hoffsets, hpayload⟩ := hothers.1 hvariable
      obtain ⟨hoffsets', hpayload'⟩ := hothers'.1 hvariable
      refine ⟨?_, hoffsets.trans hoffsets'.symm,
        hpayload.trans hpayload'.symm⟩
      generalize hsame : chunks.map Value.bytes = values at hb
      cases hb with
      | fixedWidth _ hvalues' hflatten' =>
          rw [← map_bytes_inj hsame, ← hflatten] at hflatten'
          rw [hvalues, hvalues', Buffer.ext hflatten']
      | boolean hkind' => cases hkind.symm.trans hkind'
      | variableWidth hkind' => cases hkind.symm.trans hkind'
  | @boolean storage bits hkind hvalues hlength hpadding hbits =>
      rw [htype] at hkind
      have hvariable : storageOf b.type ≠ .variableWidth := by
        rw [hkind]
        exact nofun
      obtain ⟨hoffsets, hpayload⟩ := hothers.1 hvariable
      obtain ⟨hoffsets', hpayload'⟩ := hothers'.1 hvariable
      refine ⟨?_, hoffsets.trans hoffsets'.symm,
        hpayload.trans hpayload'.symm⟩
      generalize hsame : bits.map Value.bit = values at hb
      cases hb with
      | fixedWidth hkind' => cases hkind.symm.trans hkind'
      | @boolean storage' _ _ hvalues' hlength' hpadding' hbits' =>
          rw [← map_bit_inj hsame] at hlength' hpadding' hbits'
          have helems := ext_of_readBits (hlength.trans hlength'.symm)
            hpadding hpadding' (hbits.trans hbits'.symm)
          rw [hvalues, hvalues', Buffer.ext helems]
      | variableWidth hkind' => cases hkind.symm.trans hkind'
  | @variableWidth offsets payload records hkind hoffsets hpayload hboundaries
      hflatten =>
      rw [htype] at hkind
      refine ⟨(hothers.2 hkind).trans (hothers'.2 hkind).symm, ?_⟩
      generalize hsame : records.map Value.bytes = values at hb
      cases hb with
      | fixedWidth hkind' => cases hkind.symm.trans hkind'
      | boolean hkind' => cases hkind.symm.trans hkind'
      | variableWidth _ hoffsets' hpayload' hboundaries' hflatten' =>
          rw [← map_bytes_inj hsame] at hboundaries' hflatten'
          have hnats := List.map_injective_iff.mpr
            (fun _ _ h => UInt64.toNat_inj.mp h)
            (hboundaries.trans hboundaries'.symm)
          have helems := hflatten.trans hflatten'.symm
          rw [hoffsets, hoffsets', hpayload, hpayload', Buffer.ext hnats,
            Buffer.ext helems]
          exact ⟨rfl, rfl⟩

/-! ## Making storage -/

/-- Values of a type other than the boolean one are their bytes. -/
theorem eq_map_bytes {type : LogicalType} (hkind : storageOf type ≠ .boolean)
    {values : List Value} (htyped : ∀ value ∈ values, value.HasType type) :
    values = (values.map Value.toBytes).map Value.bytes := by
  induction values with
  | nil => rfl
  | cons value values ih =>
      obtain ⟨hvalue, hvalues⟩ := List.forall_mem_cons.mp htyped
      rw [List.map_cons, List.map_cons, ← ih hvalues]
      cases value with
      | bit => exact (hkind hvalue).elim
      | bytes => rfl

/-- Values of the boolean type are bits. -/
theorem eq_map_bit {type : LogicalType} (hkind : storageOf type = .boolean)
    {values : List Value} (htyped : ∀ value ∈ values, value.HasType type) :
    values = (values.map Value.toBit).map Value.bit := by
  induction values with
  | nil => rfl
  | cons value values ih =>
      obtain ⟨hvalue, hvalues⟩ := List.forall_mem_cons.mp htyped
      rw [List.map_cons, List.map_cons, ← ih hvalues]
      cases value with
      | bit => rfl
      | bytes => exact (hvalue.1 hkind).elim

/-- The bytes of a stored value. -/
theorem mem_toBytes {values : List Value} {data : List UInt8}
    (heq : values = (values.map Value.toBytes).map Value.bytes)
    (h : data ∈ values.map Value.toBytes) : .bytes data ∈ values := by
  rw [heq]
  exact List.mem_map_of_mem h

/-- Bits have a bitmap, the one a validity builder would make of them. -/
theorem exists_bitmap {bits : List Bool} (h : bits.length + 7 < 2 ^ 64) :
    ∃ bitmap : ByteBuffer, bitmap.elems.length = bitmapBytes bits.length
      ∧ PaddingZero bits.length bitmap.elems
      ∧ readBits bitmap.elems bits.length = bits := by
  have hword : (UInt64.ofNat bits.length).toNat = bits.length :=
    UInt64.toNat_ofNat_of_lt' (by rw [UInt64.size]; omega)
  rw [← hword] at h
  obtain ⟨validity, _, hrows, hread, _⟩ := finish_fed h hword.symm
  obtain ⟨_, hlength, hclear, _⟩ := checkBitmap_iff.mp validity.checked
  rw [hrows, hword] at hlength hclear
  rw [hword] at hread
  exact ⟨validity.bitmap, hlength, paddingZero_iff.mpr hclear, hread⟩

/-- Records that fit into memory have offsets. -/
theorem exists_offsets {records : List (List UInt8)}
    (h : 8 * (records.length + 1) + records.flatten.length < 2 ^ 64) :
    ∃ offsets : OffsetBuffer,
      offsets.elems.map UInt64.toNat = boundaries 0 records := by
  have hbound : ∀ cut ∈ boundaries 0 records, cut < 2 ^ 64 := by
    intro cut hcut
    obtain ⟨cuts, hcuts⟩ := boundaries_eq_cons 0 records
    have hchain := boundaries_isChain 0 records
    have hlast := boundaries_getLast? 0 records
    rw [hcuts] at hchain hlast hcut
    have hle := cut_le_last hchain hlast cut hcut
    omega
  refine ⟨⟨(boundaries 0 records).map UInt64.ofNat, ?_⟩, ?_⟩
  · rw [List.length_map, boundaries_length]
    omega
  · rw [List.map_map]
    refine (List.map_congr_left ?_).trans (List.map_id _)
    intro cut hcut
    exact UInt64.toNat_ofNat_of_lt' (hbound cut hcut)

section Making

variable {type : LogicalType} {rowCount : UInt64}
  {validity : Option Validity} {values : List Value}

/-- A column with these values and the given rows. -/
structure Carries (type : LogicalType) (rowCount : UInt64)
    (validity : Option Validity) (values : List Value) (column : Column) :
    Prop where
  type_eq : column.type = type
  rowCount_eq : column.rowCount = rowCount
  validity_eq : column.validity = validity
  stores : Stores column values
  countable : CountFits values.length column

/-- **STORAGE EXISTS** for every list of typed values that fits into
    memory. -/
theorem exists_carries (hrows : ∀ v ∈ validity, v.rowCount = rowCount)
    (htyped : ∀ value ∈ values, value.HasType type)
    (hbytes : valueBytes type values < 2 ^ 64)
    (hcount : storageOf type = .boolean → values.length + 7 < 2 ^ 64) :
    ∃ column, Carries type rowCount validity values column := by
  rw [valueBytes] at hbytes
  cases hkind : storageOf type with
  | fixedWidth =>
      rw [hkind] at hbytes
      have hboolean : storageOf type ≠ .boolean := by
        rw [hkind]
        exact nofun
      have hvalues := eq_map_bytes hboolean htyped
      have hwidth : ∀ chunk ∈ values.map Value.toBytes,
          chunk.length = type.fixedWidthBytes.toNat := fun chunk hchunk =>
        (htyped _ (mem_toBytes hvalues hchunk)).2.1 hkind
      have hlength := length_flatten_of_forall hwidth
      rw [List.length_map] at hlength
      let storage : ByteBuffer :=
        ⟨(values.map Value.toBytes).flatten, hlength ▸ hbytes⟩
      have hshape : ColumnShape type (some storage) none none .fixedWidth :=
        ⟨isFixedStorageType_of hkind, rfl, rfl, rfl⟩
      refine ⟨⟨type, .fixedWidth, rowCount, validity, some storage, none,
        none, hrows, hshape⟩, rfl, rfl, rfl, ?_, trivial⟩
      rw [hvalues]
      exact .fixedWidth hkind rfl rfl hwidth
  | boolean =>
      have hvalues := eq_map_bit hkind htyped
      have hsmall := hcount hkind
      rw [← List.length_map Value.toBit] at hsmall
      obtain ⟨bitmap, hlength, hpadding, hbits⟩ := exists_bitmap hsmall
      have hshape : ColumnShape type (some bitmap) none none .boolean :=
        ⟨kind_of_storageOf hkind, rfl, rfl, rfl⟩
      refine ⟨⟨type, .boolean, rowCount, validity, some bitmap, none,
        none, hrows, hshape⟩, rfl, rfl, rfl, ?_, hcount hkind⟩
      rw [hvalues]
      exact .boolean hkind rfl hlength hpadding hbits
  | variableWidth =>
      rw [hkind] at hbytes
      have hboolean : storageOf type ≠ .boolean := by
        rw [hkind]
        exact nofun
      have hvalues := eq_map_bytes hboolean htyped
      dsimp only at hbytes
      rw [← List.length_map Value.toBytes] at hbytes
      obtain ⟨offsets, hoffsets⟩ := exists_offsets hbytes
      let payload : ByteBuffer :=
        ⟨(values.map Value.toBytes).flatten, by omega⟩
      have hshape : ColumnShape type none (some offsets) (some payload)
          .variableWidth :=
        ⟨isVariableWidth_of hkind, rfl, rfl, rfl⟩
      refine ⟨⟨type, .variableWidth, rowCount, validity, none, some offsets,
        some payload, hrows, hshape⟩, rfl, rfl, rfl, ?_, ?_⟩
      · rw [hvalues]
        refine .variableWidth hkind rfl rfl hoffsets rfl ?_
        intro hstrict record hrecord
        exact (htyped _ (mem_toBytes hvalues hrecord)).2.2 hstrict
      · show 8 * (values.length + 1) < 2 ^ 64
        rw [List.length_map] at hbytes
        omega

end Making

end ShiboriTableStorage
