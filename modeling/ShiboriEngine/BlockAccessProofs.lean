import Mathlib
import ShiboriEngine.Library.Spans
import ShiboriEngine.Library.Utf8
import ShiboriEngine.BlockProofs
import ShiboriEngine.BlockLimitProofs

/-! # Reading values out of a block

    `variable_value` trusts the block it is called on: it follows the pointers
    to the components and indexes the offsets with no test of its own beyond
    the count.  On a block that its builder gave out nothing is ever out of
    bounds, and the values of a column are its payload cut at the offsets.
    Strict text is what one of the two copies of the UTF-8 scan accepts; both
    are exact. -/

namespace ShiboriBlockAccess

open ShiboriError ShiboriResource ShiboriBuffer ShiboriSchema ShiboriColumn
open ShiboriBlock ShiboriColumnValidation ShiboriBlockFacts ShiboriBlockLimit
open Utf8 Spans Words

/-! ## The cut payload -/

/-- The values of a variable-width column. -/
def slices (offsets : OffsetBuffer) (payload : ByteBuffer) :
    List (List UInt8) :=
  pieces payload.elems (offsets.elems.map UInt64.toNat)

section Slices

variable {dense : Nat} {offsets : OffsetBuffer} {payload : ByteBuffer}

/-- One slice for every value. -/
theorem slices_length
    (h : OffsetsFit dense offsets.elems payload.elems.length) :
    (slices offsets payload).length = dense := by
  rw [slices, pieces_length, List.length_map, h.count, Nat.add_sub_cancel]

/-- A slice lies between its two offsets. -/
theorem slices_getElem?
    (h : OffsetsFit dense offsets.elems payload.elems.length) {i : Nat}
    (hi : i < dense) :
    ∃ first last : UInt64, offsets.elems[i]? = some first
      ∧ offsets.elems[i + 1]? = some last ∧ first ≤ last
      ∧ (slices offsets payload)[i]? = some
          (subspan payload.elems first.toNat (last.toNat - first.toNat)) := by
  have hcount := h.count
  have hnext : i + 1 < offsets.elems.length := by omega
  have hcut : i + 1 < (offsets.elems.map UInt64.toNat).length := by
    rw [List.length_map]
    exact hnext
  refine ⟨offsets.elems[i], offsets.elems[i + 1],
    List.getElem?_eq_getElem _, List.getElem?_eq_getElem _,
    h.ordered i hnext, ?_⟩
  rw [slices, pieces_getElem? payload.elems hcut, List.getElem_map,
    List.getElem_map]

/-- The offsets as cuts: from zero, in order, to the size of the payload. -/
theorem cuts_of_fit
    (h : OffsetsFit dense offsets.elems payload.elems.length) :
    ∃ cuts, offsets.elems.map UInt64.toNat = 0 :: cuts
      ∧ (0 :: cuts).IsChain (· ≤ ·)
      ∧ (0 :: cuts).getLast? = some payload.elems.length := by
  have hchain : (offsets.elems.map UInt64.toNat).IsChain (· ≤ ·) := by
    rw [List.isChain_map, List.isChain_iff_getElem]
    intro i hi
    exact le_toNat.mp (h.ordered i hi)
  have hlast : (offsets.elems.map UInt64.toNat).getLast?
      = some payload.elems.length := by
    obtain ⟨last, hlast, hnat⟩ := h.last
    rw [List.getLast?_map, hlast, Option.map_some, hnat]
  have hfirst := h.first
  cases hoffsets : offsets.elems with
  | nil =>
      rw [hoffsets] at hfirst
      exact nomatch hfirst
  | cons first rest =>
      rw [hoffsets, List.head?_cons, Option.some.injEq] at hfirst
      rw [hoffsets, hfirst, List.map_cons] at hchain hlast
      rw [hfirst, List.map_cons]
      exact ⟨_, rfl, hchain, hlast⟩

/-- **NO GAP, NO OVERLAP**: the values are the payload. -/
theorem slices_flatten
    (h : OffsetsFit dense offsets.elems payload.elems.length) :
    (slices offsets payload).flatten = payload.elems := by
  obtain ⟨cuts, hcuts, hordered, hlast⟩ := cuts_of_fit h
  rw [slices, hcuts, flatten_pieces payload.elems hordered hlast,
    subspan_zero, Nat.sub_zero, List.take_length]

/-- Every offset lies within the payload. -/
theorem offset_le_payload
    (h : OffsetsFit dense offsets.elems payload.elems.length)
    {i : Nat} {offset : UInt64} (hi : offsets.elems[i]? = some offset) :
    offset.toNat ≤ payload.elems.length := by
  obtain ⟨cuts, hcuts, hordered, hlast⟩ := cuts_of_fit h
  have hmem : offset.toNat ∈ offsets.elems.map UInt64.toNat :=
    List.mem_map_of_mem (List.mem_of_getElem? hi)
  rw [hcuts] at hmem
  exact cut_le_last hordered hlast _ hmem

end Slices

/-! ## Finding a column -/

/-- The column of a field with this id. -/
def Names (block : Block) (fieldId : UInt32) (column : Column) : Prop :=
  ∃ (index : Nat) (field : Field), block.schema.fields[index]? = some field
    ∧ field.id = fieldId ∧ block.columns[index]? = some column

section Blocks

variable {block : Block} {limits : ResourceLimits}
  {columns : Std.ExtTreeMap UInt32 Column compare}

/-- The columns of a published block have passed, each as the column of its
    field. -/
theorem passes_at
    (h : List.Forall₂ (Passes columns block.rowCount limits)
      block.schema.fields block.columns) {index : Nat} {field : Field}
    {column : Column} (hfield : block.schema.fields[index]? = some field)
    (hcolumn : block.columns[index]? = some column) :
    Passes columns block.rowCount limits field column := by
  obtain ⟨hlt, rfl⟩ := List.getElem?_eq_some_iff.mp hfield
  obtain ⟨hlt', rfl⟩ := List.getElem?_eq_some_iff.mp hcolumn
  exact h.get hlt hlt'

/-- **FINDING** a column is defined on a published block, and finds the column
    of the id; fields that shared an id would share their column. -/
theorem findColumn_spec
    (h : List.Forall₂ (Passes columns block.rowCount limits)
      block.schema.fields block.columns) (fieldId : UInt32) :
    (block.findColumn fieldId = some none
        ∧ ∀ column, ¬ Names block fieldId column)
      ∨ ∃ column, block.findColumn fieldId = some (some column)
        ∧ ∀ other, Names block fieldId other ↔ other = column := by
  rw [Block.findColumn]
  cases hindex : block.schema.fields.findIdx? (·.id = fieldId) with
  | none =>
      refine Or.inl ⟨rfl, ?_⟩
      rintro column ⟨index, field, hfield, hid, _⟩
      have habsent := List.findIdx?_eq_none_iff.mp hindex field
        (List.mem_of_getElem? hfield)
      exact of_decide_eq_false habsent hid
  | some index =>
      obtain ⟨hlt, htest, _⟩ := List.findIdx?_eq_some_iff_getElem.mp hindex
      have hid : block.schema.fields[index].id = fieldId :=
        of_decide_eq_true htest
      have hcolumns : index < block.columns.length := by
        rw [← h.length_eq]
        exact hlt
      have hfield := List.getElem?_eq_getElem hlt
      have hcolumn := List.getElem?_eq_getElem hcolumns
      have hpasses := passes_at h hfield hcolumn
      dsimp only
      rw [hcolumn]
      refine Or.inr ⟨_, rfl, ?_⟩
      intro other
      constructor
      · rintro ⟨index', field', hfield', hid', hcolumn'⟩
        have hfound := (passes_at h hfield' hcolumn').found
        rw [hid', ← hid, hpasses.found] at hfound
        exact (Option.some.inj hfound).symm
      · rintro rfl
        exact ⟨index, _, hfield, hid, hcolumn⟩

/-! ## Selecting a value -/

/-- A variable-width column of a published block has its components, and they
    fit. -/
theorem variable_components
    (h : List.Forall₂ (Passes columns block.rowCount limits)
      block.schema.fields block.columns) {fieldId : UInt32} {column : Column}
    (hnames : Names block fieldId column)
    (hkind : column.storageKind = .variableWidth) :
    ∃ offsets payload, column.offsets = some offsets
      ∧ column.payload = some payload
      ∧ OffsetsFit (column.rowCount.toNat - column.nullCount.toNat)
        offsets.elems payload.elems.length
      ∧ (isStrictString column.type = true →
        StringsFit offsets.elems payload.elems)
      ∧ RecordsWithin limits.maximumRecordBytes column := by
  obtain ⟨index, field, hfield, _, hcolumn⟩ := hnames
  have hpasses := passes_at h hfield hcolumn
  have hstorage := hpasses.fits.storage
  rw [StorageFits, hkind, ← hpasses.fits.rows] at hstorage
  obtain ⟨offsets, hoffsets, payload, hpayload, hfit, hstrings⟩ := hstorage
  exact ⟨offsets, payload, hoffsets, hpayload, hfit, hstrings,
    hpasses.within⟩

/-- **SELECTING** from a variable-width column: the value at the index, or the
    one error past the last value. -/
theorem variableValue_variable {fieldId : UInt32} {column : Column}
    {dense : Nat} {offsets : OffsetBuffer} {payload : ByteBuffer}
    (hfound : block.findColumn fieldId = some (some column))
    (hkind : column.storageKind = .variableWidth)
    (hoffsets : column.offsets = some offsets)
    (hpayload : column.payload = some payload)
    (hfit : OffsetsFit dense offsets.elems payload.elems.length)
    (i : UInt64) :
    block.variableValue fieldId i
      = some ((slices offsets payload)[i.toNat]?.elim Block.outsideColumn
          .ok) := by
  have hcount := hfit.count
  have hsizeLt := offsets.size_lt
  have hone : (1 : UInt64).toNat = 1 := rfl
  have hsome : (1 : UInt64) ≤ offsets.size := by
    rw [le_toNat, Buffer.size_toNat, hone]
    omega
  have hvalues : (offsets.size - 1).toNat = dense := by
    rw [UInt64.toNat_sub_of_le _ _ hsome, Buffer.size_toNat, hone]
    omega
  rw [Block.variableValue, hfound, Option.bind_eq_bind, Option.bind_some]
  dsimp only
  rw [if_neg (not_not.mpr hkind), hoffsets, Option.bind_eq_bind,
    Option.bind_some]
  by_cases hin : i.toNat < dense
  · obtain ⟨first, last, hfirst, hlast, hle, hslice⟩ :=
      slices_getElem? hfit hin
    have hinside : ¬ i ≥ offsets.size - 1 := by
      rw [ge_iff_le, le_toNat, hvalues]
      omega
    have hnext : (i + 1).toNat = i.toNat + 1 := by
      rw [toNat_add_of_lt (by omega), hone]
    have hsub := UInt64.toNat_sub_of_le _ _ hle
    have hend := offset_le_payload hfit hlast
    rw [le_toNat] at hle
    have hspan : Block.checkedSubspan payload.elems first (last - first)
        = some (subspan payload.elems first.toNat
            (last.toNat - first.toNat)) := by
      rw [Block.checkedSubspan, hsub, if_pos (by omega)]
    rw [if_neg hinside, hslice, hnext, hfirst, hlast, hpayload]
    simp only [Option.bind_eq_bind, Option.bind_some, hspan, Option.elim_some]
  · have houtside : i ≥ offsets.size - 1 := by
      rw [ge_iff_le, le_toNat, hvalues]
      omega
    have hnone : (slices offsets payload)[i.toNat]? = none := by
      rw [List.getElem?_eq_none_iff, slices_length hfit]
      omega
    rw [if_pos houtside, hnone, Option.elim_none]

/-- What a call of `variable_value` comes to on a published block: the error
    for a field that names no variable-width column, or a selection from the
    one column named. -/
theorem variableValue_spec
    (h : List.Forall₂ (Passes columns block.rowCount limits)
      block.schema.fields block.columns) (fieldId : UInt32) :
    ((∀ i, block.variableValue fieldId i = some Block.outsideColumn)
        ∧ ∀ column, Names block fieldId column →
          column.storageKind ≠ .variableWidth)
      ∨ ∃ column offsets payload,
        (∀ other, Names block fieldId other ↔ other = column)
        ∧ column.storageKind = .variableWidth
        ∧ column.offsets = some offsets ∧ column.payload = some payload
        ∧ OffsetsFit (column.rowCount.toNat - column.nullCount.toNat)
          offsets.elems payload.elems.length
        ∧ (isStrictString column.type = true →
          StringsFit offsets.elems payload.elems)
        ∧ RecordsWithin limits.maximumRecordBytes column
        ∧ ∀ i, block.variableValue fieldId i
          = some ((slices offsets payload)[i.toNat]?.elim Block.outsideColumn
              .ok) := by
  rcases findColumn_spec h fieldId with
    ⟨hnone, hunnamed⟩ | ⟨column, hfound, hnamed⟩
  · refine Or.inl ⟨?_, fun column hnames => (hunnamed column hnames).elim⟩
    intro i
    rw [Block.variableValue, hnone]
    rfl
  · by_cases hkind : column.storageKind = .variableWidth
    · obtain ⟨offsets, payload, hoffsets, hpayload, hfit, hstrings, hwithin⟩ :=
        variable_components h ((hnamed column).mpr rfl) hkind
      exact Or.inr ⟨column, offsets, payload, hnamed, hkind, hoffsets,
        hpayload, hfit, hstrings, hwithin,
        variableValue_variable hfound hkind hoffsets hpayload hfit⟩
    · refine Or.inl ⟨?_, ?_⟩
      · intro i
        rw [Block.variableValue, hfound, Option.bind_eq_bind, Option.bind_some]
        exact if_pos hkind
      · intro other hother
        rw [(hnamed other).mp hother]
        exact hkind

end Blocks

/-- A selection succeeds exactly with a slice. -/
theorem select_eq_ok {values : List (List UInt8)} {i : Nat}
    {slice : List UInt8} :
    some (values[i]?.elim Block.outsideColumn .ok) = some (.ok slice)
      ↔ values[i]? = some slice := by
  cases values[i]? with
  | none => exact ⟨nofun, nofun⟩
  | some value =>
      rw [Option.elim_some, Option.some.injEq, Option.some.injEq]
      exact ⟨Except.ok.inj, congrArg Except.ok⟩

/-! ## Published blocks -/

/-- How values are read out of a block that passed under these limits. -/
structure ValueAccess (block : Block) (limits : ResourceLimits) : Prop where
  /-- Nothing out of bounds is ever touched. -/
  defined : ∀ fieldId i, block.variableValue fieldId i ≠ none
  ok_iff : ∀ fieldId (i : UInt64),
    (∃ slice, block.variableValue fieldId i = some (.ok slice))
      ↔ ∃ column, Names block fieldId column
        ∧ column.storageKind = .variableWidth
        ∧ i.toNat < column.rowCount.toNat - column.nullCount.toNat
  in_bounds : ∀ fieldId (i : UInt64) slice,
    block.variableValue fieldId i = some (.ok slice) →
    ∃ column offsets payload first last, Names block fieldId column
      ∧ column.offsets = some offsets ∧ column.payload = some payload
      ∧ offsets.elems[i.toNat]? = some first
      ∧ offsets.elems[i.toNat + 1]? = some last
      ∧ first ≤ last ∧ last.toNat ≤ payload.elems.length
      ∧ slice = subspan payload.elems first.toNat
        (last.toNat - first.toNat)
      ∧ slice.length ≤ limits.maximumRecordBytes.toNat
  partition : ∀ fieldId column payload, Names block fieldId column →
    column.storageKind = .variableWidth → column.payload = some payload →
    ∃ values : List (List UInt8),
      values.length = column.rowCount.toNat - column.nullCount.toNat
      ∧ (∀ (i : UInt64) slice, values[i.toNat]? = some slice
          ↔ block.variableValue fieldId i = some (.ok slice))
      ∧ values.flatten = payload.elems
  strict : ∀ fieldId column (i : UInt64) slice, Names block fieldId column →
    isStrictString column.type = true →
    block.variableValue fieldId i = some (.ok slice) → WellFormed slice

/-- Columns that pass give access to their values. -/
theorem valueAccess_of_passes {block : Block} {limits : ResourceLimits}
    {columns : Std.ExtTreeMap UInt32 Column compare}
    (h : List.Forall₂ (Passes columns block.rowCount limits)
      block.schema.fields block.columns) : ValueAccess block limits where
  defined fieldId i := by
    rcases variableValue_spec h fieldId with
      ⟨hvalue, _⟩ | ⟨_, _, _, _, _, _, _, _, _, _, hvalue⟩
    · rw [hvalue]
      exact nofun
    · rw [hvalue]
      exact nofun
  ok_iff fieldId i := by
    rcases variableValue_spec h fieldId with
      ⟨hvalue, hfixed⟩ |
        ⟨column, offsets, payload, hnamed, hkind, _, _, hfit, _, _, hvalue⟩
    · rw [hvalue]
      constructor
      · rintro ⟨slice, hslice⟩
        exact nomatch hslice
      · rintro ⟨column, hnames, hkind, _⟩
        exact (hfixed column hnames hkind).elim
    · rw [hvalue]
      constructor
      · rintro ⟨slice, hslice⟩
        obtain ⟨hlt, _⟩ := List.getElem?_eq_some_iff.mp (select_eq_ok.mp hslice)
        rw [slices_length hfit] at hlt
        exact ⟨column, (hnamed column).mpr rfl, hkind, hlt⟩
      · rintro ⟨other, hother, _, hlt⟩
        rw [(hnamed other).mp hother] at hlt
        obtain ⟨_, _, _, _, _, hslice⟩ := slices_getElem? hfit hlt
        exact ⟨_, select_eq_ok.mpr hslice⟩
  in_bounds fieldId i slice hslice := by
    rcases variableValue_spec h fieldId with
      ⟨hvalue, _⟩ |
        ⟨column, offsets, payload, hnamed, _, hoffsets, hpayload, hfit, _,
          hwithin, hvalue⟩
    · rw [hvalue] at hslice
      exact nomatch hslice
    · rw [hvalue] at hslice
      have hget := select_eq_ok.mp hslice
      obtain ⟨hlt, _⟩ := List.getElem?_eq_some_iff.mp hget
      rw [slices_length hfit] at hlt
      obtain ⟨first, last, hfirst, hlast, hle, hsame⟩ :=
        slices_getElem? hfit hlt
      have hend := offset_le_payload hfit hlast
      have hcut := Option.some.inj (hget.symm.trans hsame)
      refine ⟨column, offsets, payload, first, last, (hnamed column).mpr rfl,
        hoffsets, hpayload, hfirst, hlast, hle, hend, hcut, ?_⟩
      rw [le_toNat] at hle
      have hlength : slice.length = last.toNat - first.toNat := by
        rw [hcut]
        exact subspan_length (by omega)
      obtain ⟨hi, hfirst⟩ := List.getElem?_eq_some_iff.mp hfirst
      obtain ⟨hi', hlast⟩ := List.getElem?_eq_some_iff.mp hlast
      have hrecord := hwithin offsets hoffsets i.toNat hi'
      rw [hfirst, hlast] at hrecord
      rw [hlength]
      exact hrecord
  partition fieldId column payload hnames hkind hpayload := by
    rcases variableValue_spec h fieldId with
      ⟨_, hfixed⟩ |
        ⟨found, offsets, found', hnamed, _, _, hfound', hfit, _, _, hvalue⟩
    · exact (hfixed column hnames hkind).elim
    · obtain rfl := (hnamed column).mp hnames
      cases hpayload.symm.trans hfound'
      refine ⟨slices offsets payload, slices_length hfit, ?_,
        slices_flatten hfit⟩
      intro i slice
      rw [hvalue, select_eq_ok]
  strict fieldId column i slice hnames hstrict hslice := by
    rcases variableValue_spec h fieldId with
      ⟨hvalue, _⟩ |
        ⟨found, offsets, payload, hnamed, _, _, _, hfit, hstrings, _, hvalue⟩
    · rw [hvalue] at hslice
      exact nomatch hslice
    · obtain rfl := (hnamed column).mp hnames
      rw [hvalue] at hslice
      have hget := select_eq_ok.mp hslice
      obtain ⟨hlt, _⟩ := List.getElem?_eq_some_iff.mp hget
      rw [slices_length hfit] at hlt
      obtain ⟨first, last, hfirst, hlast, _, hsame⟩ :=
        slices_getElem? hfit hlt
      obtain ⟨_, hfirst⟩ := List.getElem?_eq_some_iff.mp hfirst
      obtain ⟨hi', hlast⟩ := List.getElem?_eq_some_iff.mp hlast
      have hwell := hstrings hstrict i.toNat hi'
      rw [hfirst, hlast] at hwell
      rw [Option.some.inj (hget.symm.trans hsame)]
      exact hwell

/-- **VALUE ACCESS** on whatever a block builder gives out, from any state it
    was driven to. -/
theorem value_access {builder : BlockBuilder} {limits : ResourceLimits}
    {block : Block} (h : (builder.finish limits).1 = .ok block) :
    ValueAccess block limits := by
  obtain ⟨_, found, hvalid, rfl⟩ := finish_eq_ok.mp h
  obtain ⟨_, _, _, _, hall, _⟩ := validate_eq_ok.mp hvalid
  exact valueAccess_of_passes hall

/-- The value of a block, and the selection behind it. -/
theorem value_access_at_textBlock :
    ValueAccess textBlock defaultResourceLimits
      ∧ textBlock.variableValue 1 0 = some (.ok [0xc3, 0xa9])
      ∧ textBlock.variableValue 1 1 = some Block.outsideColumn :=
  ⟨value_access textBuilder_finish, rfl, rfl⟩

/-! ## Text -/

/-- A scan that accepts exactly encoded text, and so the concatenation of any
    two texts. -/
structure ScansText (scan : List UInt8 → Bool) : Prop where
  accepts_iff : ∀ bytes, scan bytes = true
    ↔ ∃ scalars : List Nat, (∀ v ∈ scalars, IsScalar v)
      ∧ bytes = scalars.flatMap encodeScalar
  append : ∀ xs ys, scan xs = true → scan ys = true → scan (xs ++ ys) = true

/-- A scan that accepts the well-formed strings reads text. -/
theorem scansText_of_wellFormed {scan : List UInt8 → Bool}
    (h : ∀ bytes, scan bytes = true ↔ WellFormed bytes) : ScansText scan where
  accepts_iff bytes := (h bytes).trans wellFormed_iff_scalars
  append xs ys hx hy :=
    (h (xs ++ ys)).mpr (((h xs).mp hx).append ((h ys).mp hy))

/-- **BOTH COPIES** of the scan accept exactly the shortest-form encodings of
    scalar values. -/
theorem valid_utf8_exact :
    ScansText ShiboriSchema.validUtf8 ∧ ScansText ShiboriBlock.validUtf8
      ∧ ∀ bytes, ShiboriSchema.validUtf8 bytes
          = ShiboriBlock.validUtf8 bytes := by
  have hschema : ∀ bytes, ShiboriSchema.validUtf8 bytes = true
      ↔ WellFormed bytes := ShiboriUtf8.validUtf8_iff
  have hblock : ∀ bytes, ShiboriBlock.validUtf8 bytes = true
      ↔ WellFormed bytes := ShiboriUtf8.validUtf8_iff
  refine ⟨scansText_of_wellFormed hschema, scansText_of_wellFormed hblock, ?_⟩
  intro bytes
  rw [Bool.eq_iff_iff, hschema, hblock]

end ShiboriBlockAccess
