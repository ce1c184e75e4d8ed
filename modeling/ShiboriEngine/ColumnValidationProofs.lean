import Mathlib
import ShiboriEngine.Block
import ShiboriEngine.ColumnProofs

/-! # What the validation of a column decides

    `Fits` collects what a column must satisfy whatever the limits are,
    `RecordsWithin` is the limit on one variable value, and `columnBytes` the
    decoded size.  `validateColumn` accepts exactly on these, and on a column
    that fits it fails in one of three ways, in a fixed order. -/

namespace ShiboriColumnValidation

open ShiboriError ShiboriResource ShiboriBuffer ShiboriLogicalType
open ShiboriSchema ShiboriColumn ShiboriColumnFacts ShiboriBlock Spans Words
open Utf8 (WellFormed)

/-! ## What a column must satisfy -/

/-- Offsets from zero to the end of the payload that never go back. -/
structure OffsetsFit (dense : Nat) (offsets : List UInt64) (payload : Nat) :
    Prop where
  count : offsets.length = dense + 1
  first : offsets.head? = some 0
  ordered : ∀ (i : Nat) (_hi : i + 1 < offsets.length),
    offsets[i] ≤ offsets[i + 1]
  last : ∃ last ∈ offsets.getLast?, last.toNat = payload

/-- Every slice between two offsets is well-formed UTF-8. -/
def StringsFit (offsets : List UInt64) (payload : List UInt8) : Prop :=
  ∀ (i : Nat) (_hi : i + 1 < offsets.length),
    WellFormed (subspan payload offsets[i].toNat
      (offsets[i + 1].toNat - offsets[i].toNat))

/-- Storage that holds `dense` values. -/
def StorageFits (dense : Nat) (column : Column) : Prop :=
  match column.storageKind with
  | .fixedWidth =>
      ∃ values ∈ column.values,
        values.elems.length = dense * column.type.fixedWidthBytes.toNat
  | .boolean =>
      ∃ values ∈ column.values, values.elems.length = bitmapBytes dense
        ∧ PaddingZero dense values.elems
  | .variableWidth =>
      ∃ offsets ∈ column.offsets, ∃ payload ∈ column.payload,
        OffsetsFit dense offsets.elems payload.elems.length
          ∧ (isStrictString column.type = true →
              StringsFit offsets.elems payload.elems)

/-- What a column must satisfy under any limits. -/
structure Fits (rowCount : UInt64) (field : Field) (column : Column) :
    Prop where
  rows : column.rowCount = rowCount
  type : column.type = field.type
  validity : field.nullable = false → column.validity = none
  storage : StorageFits (rowCount.toNat - column.nullCount.toNat) column

/-- No value of a variable column is longer than the limit. -/
def RecordsWithin (limit : UInt64) (column : Column) : Prop :=
  ∀ offsets ∈ column.offsets, ∀ (i : Nat) (_hi : i + 1 < offsets.elems.length),
    offsets.elems[i + 1].toNat - offsets.elems[i].toNat ≤ limit.toNat

/-- The bytes of a column's bitmap. -/
def validityBytes (column : Column) : Nat :=
  match column.validity with
  | none => 0
  | some validity => validity.bitmap.elems.length

/-- The bytes of a column's values, with their offsets. -/
def storageBytes (dense : Nat) (column : Column) : Nat :=
  match column.storageKind, column.values, column.payload with
  | .variableWidth, _, some payload => 8 * (dense + 1) + payload.elems.length
  | .variableWidth, _, none => 8 * (dense + 1)
  | _, some values, _ => values.elems.length
  | _, none, _ => 0

/-- The decoded size of a column of `rowCount` rows. -/
def columnBytes (rowCount : UInt64) (column : Column) : Nat :=
  validityBytes column
    + storageBytes (rowCount.toNat - column.nullCount.toNat) column

/-- Every buffer of the column is shorter than `2^60` elements. -/
structure SmallBuffers (column : Column) : Prop where
  validity : ∀ validity ∈ column.validity,
    validity.bitmap.elems.length < 2 ^ 60
  values : ∀ values ∈ column.values, values.elems.length < 2 ^ 60
  offsets : ∀ offsets ∈ column.offsets, offsets.elems.length < 2 ^ 60
  payload : ∀ payload ∈ column.payload, payload.elems.length < 2 ^ 60

/-! ## Counting bytes -/

/-- When a total has room for more bytes. -/
theorem addDecodedBytes_eq_ok {amount limit total t : UInt64} :
    addDecodedBytes amount limit total = .ok t
      ↔ t.toNat = total.toNat + amount.toNat ∧ t ≤ limit := by
  rw [addDecodedBytes, bind_eq_ok]
  constructor
  · rintro ⟨sum, hsum, hrest⟩
    obtain ⟨_, hsum⟩ := checkedAdd_eq_ok.mp hsum
    by_cases hlarge : sum > limit
    · rw [if_pos hlarge] at hrest
      exact (fail_ne_ok _ _ _ _ hrest).elim
    · rw [if_neg hlarge] at hrest
      cases hrest
      exact ⟨hsum, UInt64.not_lt.mp hlarge⟩
  · rintro ⟨ht, hle⟩
    have hword := t.toNat_lt
    refine ⟨t, checkedAdd_eq_ok.mpr ⟨by omega, ht⟩, ?_⟩
    rw [if_neg (UInt64.not_lt.mpr hle)]

/-- A sum that can be represented only fails on the limit. -/
theorem addDecodedBytes_code {amount limit total : UInt64}
    (hfit : total.toNat + amount.toNat < 2 ^ 64) :
    codeOf (addDecodedBytes amount limit total)
      = if limit.toNat < total.toNat + amount.toNat then some .limitExceeded
        else none := by
  have hsum := toNat_add_of_lt hfit
  have hadd : checkedAdd total amount .validateBlock "decoded block bytes"
      = .ok (total + amount) := checkedAdd_eq_ok.mpr ⟨hfit, hsum⟩
  rw [addDecodedBytes, hadd]
  show codeOf (if _ then _ else _) = _
  by_cases hlarge : limit.toNat < total.toNat + amount.toNat
  · rw [if_pos hlarge, if_pos (by rw [gt_iff_lt, lt_toNat, hsum]; exact hlarge)]
    rfl
  · rw [if_neg hlarge,
      if_neg (by rw [gt_iff_lt, lt_toNat, hsum]; exact hlarge)]
    rfl

/-! ## Fixed-width storage -/

/-- `invalidColumn` never succeeds. -/
@[simp] theorem invalidColumn_ne_ok {α : Type} (fieldId : UInt32)
    (message : String) (a : α) :
    (invalidColumn fieldId message : Result α) ≠ .ok a :=
  fun h => nomatch h

/-- `invalidColumn` fails with `invalid_block`. -/
@[simp] theorem codeOf_invalidColumn {α : Type} (fieldId : UInt32)
    (message : String) :
    codeOf (invalidColumn fieldId message : Result α) = some .invalidBlock :=
  rfl

/-- Values that fit are added to the total. -/
theorem validateFixed_fits {field : Field} {column : Column}
    {dense decoded : UInt64} {limits : ResourceLimits} {values : ByteBuffer}
    (hvalues : column.values = some values)
    (hlen : values.elems.length
      = dense.toNat * column.type.fixedWidthBytes.toNat) :
    validateFixed field column dense limits decoded
      = addDecodedBytes values.size limits.maximumDecodedBlockBytes
          decoded := by
  -- The product is the size of a buffer, so it is a word.
  have hfit := values.size_lt
  have hexpected : checkedMultiply dense column.type.fixedWidthBytes.toUInt64
      .validateBlock "fixed-width column bytes" = .ok values.size := by
    refine checkedMultiply_eq_ok.mpr ⟨?_, ?_⟩
    · rw [UInt32.toNat_toUInt64, ← hlen]
      exact hfit
    · rw [Buffer.size_toNat, UInt32.toNat_toUInt64, hlen]
  have hmatch : ∃ v ∈ column.values, v.size = values.size :=
    ⟨values, hvalues, rfl⟩
  rw [validateFixed, hexpected]
  exact if_neg (not_not.mpr hmatch)

/-- What passes fits. -/
theorem validateFixed_ok_fits {field : Field} {column : Column}
    {dense decoded t : UInt64} {limits : ResourceLimits}
    (h : validateFixed field column dense limits decoded = .ok t) :
    ∃ values ∈ column.values, values.elems.length
      = dense.toNat * column.type.fixedWidthBytes.toNat := by
  rw [validateFixed] at h
  obtain ⟨expected, hexpected, hrest⟩ := bind_eq_ok.mp h
  obtain ⟨_, hexpected⟩ := checkedMultiply_eq_ok.mp hexpected
  rw [UInt32.toNat_toUInt64] at hexpected
  by_cases hmatch : ∃ values ∈ column.values, values.size = expected
  · obtain ⟨values, hvalues, hsize⟩ := hmatch
    refine ⟨values, hvalues, ?_⟩
    rw [← hexpected, ← hsize, Buffer.size_toNat]
  · rw [if_pos hmatch] at hrest
    exact (invalidColumn_ne_ok _ _ _ hrest).elim

/-! ## Boolean storage -/

/-- Bits that fit are added to the total. -/
theorem validateBoolean_fits {field : Field} {column : Column}
    {dense decoded : UInt64} {limits : ResourceLimits} {values : ByteBuffer}
    (hcount : dense.toNat + 7 < 2 ^ 64)
    (hvalues : column.values = some values)
    (hlen : values.elems.length = bitmapBytes dense.toNat)
    (hpadding : PaddingZero dense.toNat values.elems) :
    validateBoolean field column dense limits decoded
      = addDecodedBytes values.size limits.maximumDecodedBlockBytes
          decoded := by
  have hmax : (u64Max - 7).toNat = 2 ^ 64 - 8 := rfl
  have hsmall : ¬ dense > u64Max - 7 := by
    rw [gt_iff_lt, lt_toNat]
    omega
  have hexpected : values.size = (dense + 7) / 8 := by
    apply UInt64.toNat_inj.mp
    rw [Buffer.size_toNat, hlen]
    exact (bitmapBytes_word hsmall).symm
  have hclear := (padding_iff hlen).mpr hpadding
  rw [validateBoolean, if_neg hsmall, hvalues]
  dsimp only
  rw [if_neg (not_not.mpr hexpected),
    if_neg (fun h => hclear ⟨h.1, h.2.2⟩), hexpected]

/-- What passes fits. -/
theorem validateBoolean_ok_fits {field : Field} {column : Column}
    {dense decoded t : UInt64} {limits : ResourceLimits}
    (h : validateBoolean field column dense limits decoded = .ok t) :
    dense.toNat + 7 < 2 ^ 64
      ∧ ∃ values ∈ column.values,
        values.elems.length = bitmapBytes dense.toNat
          ∧ PaddingZero dense.toNat values.elems := by
  have hmax : (u64Max - 7).toNat = 2 ^ 64 - 8 := rfl
  rw [validateBoolean] at h
  by_cases hbig : dense > u64Max - 7
  · rw [if_pos hbig] at h
    exact (invalidColumn_ne_ok _ _ _ h).elim
  rw [if_neg hbig] at h
  have hbytes := bitmapBytes_word hbig
  rw [gt_iff_lt, lt_toNat] at hbig
  refine ⟨by omega, ?_⟩
  dsimp only at h
  cases hvalues : column.values with
  | none =>
      rw [hvalues] at h
      exact (invalidColumn_ne_ok _ _ _ h).elim
  | some values =>
      rw [hvalues] at h
      dsimp only at h
      by_cases hsize : values.size ≠ (dense + 7) / 8
      · rw [if_pos hsize] at h
        exact (invalidColumn_ne_ok _ _ _ h).elim
      rw [if_neg hsize] at h
      have hlen : values.elems.length = bitmapBytes dense.toNat := by
        rw [← Buffer.size_toNat, not_not.mp hsize]
        exact hbytes
      refine ⟨values, rfl, hlen, (padding_iff hlen).mp ?_⟩
      rintro ⟨hrem, hset⟩
      -- Padding needs a started byte, so the source's test for an empty bitmap
      -- never skips it.
      have hsome : (dense + 7) / 8 ≠ 0 := by
        intro hzero
        apply hrem
        have hnat : ((dense + 7) / 8).toNat = 0 := by
          rw [hzero]
          rfl
        apply UInt64.toNat_inj.mp
        rw [hbytes, bitmapBytes] at hnat
        rw [UInt64.toNat_mod]
        show dense.toNat % 8 = 0
        omega
      rw [if_pos ⟨hrem, hsome, hset⟩] at h
      exact invalidColumn_ne_ok _ _ _ h

/-! ## Variable-width storage -/

/-- The loop over the offsets accepts non-decreasing offsets with short enough
    steps. -/
theorem checkOffsets_eq_ok {fieldId : UInt32} {limits : ResourceLimits}
    {offsets : List UInt64} :
    checkOffsets fieldId limits offsets = .ok ()
      ↔ offsets.IsChain fun previous next =>
          previous ≤ next
            ∧ next.toNat - previous.toNat ≤ limits.maximumRecordBytes.toNat := by
  -- By induction on the offsets, two at a time as the loop reads them.
  induction offsets with
  | nil => exact ⟨fun _ => List.IsChain.nil, fun _ => rfl⟩
  | cons previous offsets ih =>
      cases offsets with
      | nil => exact ⟨fun _ => List.IsChain.singleton _, fun _ => rfl⟩
      | cons next offsets =>
          rw [checkOffsets, List.isChain_cons_cons]
          by_cases hback : next < previous
          · rw [if_pos hback]
            constructor
            · intro h
              exact (invalidColumn_ne_ok _ _ _ h).elim
            · rintro ⟨⟨hle, _⟩, _⟩
              exact (UInt64.not_lt.mpr hle hback).elim
          have hle := UInt64.not_lt.mp hback
          have hsub := UInt64.toNat_sub_of_le _ _ hle
          rw [if_neg hback]
          by_cases hlong : next - previous > limits.maximumRecordBytes
          · rw [if_pos hlong]
            rw [gt_iff_lt, lt_toNat] at hlong
            constructor
            · intro h
              exact (invalidColumn_ne_ok _ _ _ h).elim
            · rintro ⟨⟨_, hshort⟩, _⟩
              omega
          · rw [if_neg hlong, ih]
            rw [gt_iff_lt, lt_toNat] at hlong
            exact ⟨fun h => ⟨⟨hle, by omega⟩, h⟩, And.right⟩

/-- On non-decreasing offsets the loop only fails on a long step, and then with
    an invalid-block error. -/
theorem checkOffsets_code {fieldId : UInt32} {limits : ResourceLimits}
    {offsets : List UInt64}
    (h : checkOffsets fieldId limits offsets ≠ .ok ()) :
    codeOf (checkOffsets fieldId limits offsets) = some .invalidBlock := by
  induction offsets with
  | nil => exact (h rfl).elim
  | cons previous offsets ih =>
      cases offsets with
      | nil => exact (h rfl).elim
      | cons next offsets =>
          rw [checkOffsets] at h ⊢
          by_cases hback : next < previous
          · rw [if_pos hback, codeOf_invalidColumn]
          · rw [if_neg hback] at h ⊢
            by_cases hlong : next - previous > limits.maximumRecordBytes
            · rw [if_pos hlong, codeOf_invalidColumn]
            · rw [if_neg hlong] at h ⊢
              exact ih h

/-- The check of the strings accepts well-formed values. -/
theorem checkStrings_eq_ok {fieldId : UInt32} {payload : List UInt8}
    {offsets : List UInt64}
    (hordered : offsets.IsChain fun previous next => previous ≤ next) :
    checkStrings fieldId payload offsets = .ok ()
      ↔ offsets.IsChain fun previous next =>
          WellFormed (subspan payload previous.toNat
            (next.toNat - previous.toNat)) := by
  induction offsets with
  | nil => exact ⟨fun _ => List.IsChain.nil, fun _ => rfl⟩
  | cons previous offsets ih =>
      cases offsets with
      | nil => exact ⟨fun _ => List.IsChain.singleton _, fun _ => rfl⟩
      | cons next offsets =>
          rw [List.isChain_cons_cons] at hordered
          obtain ⟨hle, hordered⟩ := hordered
          have hsub := UInt64.toNat_sub_of_le _ _ hle
          rw [checkStrings, List.isChain_cons_cons, hsub]
          by_cases hvalid : ShiboriBlock.validUtf8 (subspan payload
              previous.toNat (next.toNat - previous.toNat)) = false
          · rw [if_pos hvalid]
            constructor
            · intro h
              exact (invalidColumn_ne_ok _ _ _ h).elim
            · rintro ⟨hwell, _⟩
              rw [ShiboriBlock.validUtf8,
                (ShiboriUtf8.validUtf8_iff _).mpr hwell] at hvalid
              exact nomatch hvalid
          · rw [if_neg hvalid, ih hordered]
            rw [Bool.not_eq_false] at hvalid
            have hwell := (ShiboriUtf8.validUtf8_iff _).mp hvalid
            exact ⟨fun h => ⟨hwell, h⟩, And.right⟩

/-- Two amounts in a row. -/
theorem addTwice_eq_ok {a b limit total t : UInt64} :
    (addDecodedBytes a limit total >>= addDecodedBytes b limit) = .ok t
      ↔ t.toNat = total.toNat + a.toNat + b.toNat ∧ t ≤ limit := by
  rw [bind_eq_ok]
  constructor
  · rintro ⟨mid, hmid, hrest⟩
    obtain ⟨hmid, _⟩ := addDecodedBytes_eq_ok.mp hmid
    obtain ⟨ht, hle⟩ := addDecodedBytes_eq_ok.mp hrest
    exact ⟨by omega, hle⟩
  · rintro ⟨ht, hle⟩
    have hmax := le_toNat.mp hle
    -- the first total is no larger than the second, so the limit allows it
    obtain ⟨mid, hmid, hwithin⟩ := exists_word_le
      (show total.toNat + a.toNat ≤ limit.toNat by omega)
    exact ⟨mid, addDecodedBytes_eq_ok.mpr ⟨hmid, hwithin⟩,
      addDecodedBytes_eq_ok.mpr ⟨by omega, hle⟩⟩

/-- Adding twice runs out exactly when the sum does. -/
theorem addTwice_code {a b limit total : UInt64}
    (hfit : total.toNat + a.toNat + b.toNat < 2 ^ 64) :
    codeOf (addDecodedBytes a limit total >>= addDecodedBytes b limit)
      = if limit.toNat < total.toNat + a.toNat + b.toNat then
          some .limitExceeded
        else none := by
  have hfirst := @addDecodedBytes_code a limit total (by omega)
  cases hadd : addDecodedBytes a limit total with
  | error e =>
      rw [hadd, codeOf_error] at hfirst
      rw [error_bind, codeOf_error]
      by_cases hlarge : limit.toNat < total.toNat + a.toNat
      · rw [if_pos hlarge] at hfirst
        rw [if_pos (by omega)]
        exact hfirst
      · rw [if_neg hlarge] at hfirst
        exact nomatch hfirst
  | ok mid =>
      obtain ⟨hmid, _⟩ := addDecodedBytes_eq_ok.mp hadd
      have hsecond := @addDecodedBytes_code b limit mid (by omega)
      rw [ok_bind, hsecond, hmid]

/-- Both loops pass: what is left are the two amounts. -/
theorem validateVariable_fits {field : Field} {column : Column}
    {dense decoded : UInt64} {limits : ResourceLimits}
    {offsets : OffsetBuffer} {payload : ByteBuffer}
    (hcount : 8 * (dense.toNat + 1) < 2 ^ 64)
    (hoffsets : column.offsets = some offsets)
    (hpayload : column.payload = some payload)
    (hfit : OffsetsFit dense.toNat offsets.elems payload.elems.length)
    (hstrings : isStrictString column.type = true →
      StringsFit offsets.elems payload.elems) :
    validateVariable field column dense limits decoded
      = checkOffsets field.id limits offsets.elems >>= fun _ =>
          addDecodedBytes (UInt64.ofNat (8 * (dense.toNat + 1)))
              limits.maximumDecodedBlockBytes decoded
            >>= addDecodedBytes payload.size
              limits.maximumDecodedBlockBytes := by
  have hmax : u64Max.toNat = 2 ^ 64 - 1 := rfl
  have hone : (1 : UInt64).toNat = 1 := rfl
  have height : (8 : UInt64).toNat = 8 := rfl
  have hnotmax : dense ≠ u64Max := by
    rintro rfl
    omega
  have hnext : (dense + 1).toNat = dense.toNat + 1 := by
    rw [toNat_add_of_lt (by omega)]
    rfl
  have hsize : offsets.size = dense + 1 := by
    apply UInt64.toNat_inj.mp
    rw [Buffer.size_toNat, hfit.count, hnext]
  -- the last offset and the payload size are one number, hence one word
  have hlast : offsets.elems.getLast? = some payload.size := by
    obtain ⟨last, hlast, hnat⟩ := hfit.last
    rw [hlast]
    refine congrArg some (UInt64.toNat_inj.mp ?_)
    rw [Buffer.size_toNat, hnat]
  have hbytes : checkedMultiply (dense + 1) 8 .validateBlock
      "variable offset bytes" = .ok (UInt64.ofNat (8 * (dense.toNat + 1))) := by
    rw [checkedMultiply_eq_ok, hnext, height,
      UInt64.toNat_ofNat_of_lt' hcount]
    omega
  have hutf8 : isStrictString column.type = true →
      checkStrings field.id payload.elems offsets.elems = .ok () := by
    intro hstrict
    refine (checkStrings_eq_ok ?_).mpr ?_
    · exact List.isChain_iff_getElem.mpr hfit.ordered
    · exact List.isChain_iff_getElem.mpr (hstrings hstrict)
  rw [validateVariable, if_neg hnotmax, hoffsets, hpayload]
  dsimp only
  rw [if_neg (not_not.mpr hsize), if_neg (not_not.mpr hfit.first)]
  congr 1
  funext _
  rw [if_neg (not_not.mpr hlast), hbytes, ok_bind]
  congr 1
  funext total
  by_cases hstrict : isStrictString column.type = true
  · simp only [if_pos hstrict, hutf8 hstrict, ok_bind, bind_ok]
  · simp only [if_neg hstrict, bind_ok]

/-- What passes fits. -/
theorem validateVariable_ok_fits {field : Field} {column : Column}
    {dense decoded t : UInt64} {limits : ResourceLimits}
    (h : validateVariable field column dense limits decoded = .ok t) :
    8 * (dense.toNat + 1) < 2 ^ 64
      ∧ ∃ offsets ∈ column.offsets, ∃ payload ∈ column.payload,
        OffsetsFit dense.toNat offsets.elems payload.elems.length
          ∧ (isStrictString column.type = true →
              StringsFit offsets.elems payload.elems) := by
  rw [validateVariable] at h
  by_cases hmax : dense = u64Max
  · rw [if_pos hmax] at h
    exact (invalidColumn_ne_ok _ _ _ h).elim
  rw [if_neg hmax] at h
  have hword := dense.toNat_lt
  have hne : dense.toNat ≠ 2 ^ 64 - 1 := fun hc =>
    hmax (UInt64.toNat_inj.mp hc)
  have hone : (1 : UInt64).toNat = 1 := rfl
  have height : (8 : UInt64).toNat = 8 := rfl
  have hnext : (dense + 1).toNat = dense.toNat + 1 := by
    rw [toNat_add_of_lt (by omega)]
    rfl
  dsimp only at h
  cases hoffsets : column.offsets with
  | none =>
      rw [hoffsets] at h
      exact (invalidColumn_ne_ok _ _ _ h).elim
  | some offsets =>
      cases hpayload : column.payload with
      | none =>
          rw [hoffsets, hpayload] at h
          exact (invalidColumn_ne_ok _ _ _ h).elim
      | some payload =>
          rw [hoffsets, hpayload] at h
          dsimp only at h
          by_cases hsize : offsets.size ≠ dense + 1
          · rw [if_pos hsize] at h
            exact (invalidColumn_ne_ok _ _ _ h).elim
          rw [if_neg hsize] at h
          by_cases hfirst : offsets.elems.head? ≠ some 0
          · rw [if_pos hfirst] at h
            exact (invalidColumn_ne_ok _ _ _ h).elim
          rw [if_neg hfirst] at h
          obtain ⟨_, hloop, h⟩ := bind_eq_ok.mp h
          by_cases hlast : offsets.elems.getLast? ≠ some payload.size
          · rw [if_pos hlast] at h
            exact (invalidColumn_ne_ok _ _ _ h).elim
          rw [if_neg hlast] at h
          obtain ⟨offsetBytes, hbytes, h⟩ := bind_eq_ok.mp h
          obtain ⟨hmultiply, _⟩ := checkedMultiply_eq_ok.mp hbytes
          rw [hnext, height] at hmultiply
          obtain ⟨first, _, h⟩ := bind_eq_ok.mp h
          obtain ⟨second, _, h⟩ := bind_eq_ok.mp h
          -- What the two loops say of neighbours they say of every index.
          have hchain := List.isChain_iff_getElem.mp
            (checkOffsets_eq_ok.mp hloop)
          have hordered : ∀ (i : Nat) (_hi : i + 1 < offsets.elems.length),
              offsets.elems[i] ≤ offsets.elems[i + 1] :=
            fun i hi => (hchain i hi).1
          refine ⟨by omega, offsets, rfl, payload, rfl, ⟨?_, ?_, hordered, ?_⟩,
            ?_⟩
          · rw [← hnext, ← not_not.mp hsize, Buffer.size_toNat]
          · exact not_not.mp hfirst
          · exact ⟨payload.size, not_not.mp hlast, Buffer.size_toNat _⟩
          · intro hstrict
            rw [if_pos hstrict] at h
            obtain ⟨_, hutf8, _⟩ := bind_eq_ok.mp h
            exact List.isChain_iff_getElem.mp ((checkStrings_eq_ok
              (List.isChain_iff_getElem.mpr hordered)).mp hutf8)

/-! ## Storage -/

/-- The dense count is within what the size computations can represent. -/
def CountFits (dense : Nat) (column : Column) : Prop :=
  match column.storageKind with
  | .fixedWidth => True
  | .boolean => dense + 7 < 2 ^ 64
  | .variableWidth => 8 * (dense + 1) < 2 ^ 64

/-- The bytes of a column with values. -/
theorem storageBytes_values {column : Column} (dense : Nat)
    {values : ByteBuffer} (hkind : column.storageKind ≠ .variableWidth)
    (hvalues : column.values = some values) :
    storageBytes dense column = values.elems.length := by
  rw [storageBytes, hvalues]
  cases hstorage : column.storageKind with
  | fixedWidth => rfl
  | boolean => rfl
  | variableWidth => exact (hkind hstorage).elim

/-- The bytes of a column with offsets. -/
theorem storageBytes_payload {column : Column} (dense : Nat)
    {payload : ByteBuffer} (hkind : column.storageKind = .variableWidth)
    (hpayload : column.payload = some payload) :
    storageBytes dense column = 8 * (dense + 1) + payload.elems.length := by
  rw [storageBytes, hkind, hpayload]

/-- Only variable-width columns have offsets. -/
theorem recordsWithin_of_values {column : Column} (limit : UInt64)
    (hkind : column.storageKind ≠ .variableWidth) :
    RecordsWithin limit column := by
  have hnone : column.offsets = none := by
    -- Every column has the components its storage calls for and no others.
    have hshape := column.shape
    rw [ColumnShape.eq_def] at hshape
    cases hstorage : column.storageKind with
    | fixedWidth =>
        rw [hstorage] at hshape
        exact hshape.2.2.1
    | boolean =>
        rw [hstorage] at hshape
        exact hshape.2.2.1
    | variableWidth => exact (hkind hstorage).elim
  intro offsets hoffsets
  rw [hnone] at hoffsets
  exact nomatch hoffsets

/-- Boolean storage is for the boolean type. -/
theorem boolean_kind {field : Field} {column : Column}
    (htype : column.type = field.type)
    (hkind : column.storageKind = .boolean) : field.type.kind = .boolean := by
  have hshape := column.shape
  rw [hkind] at hshape
  rw [← htype]
  exact hshape.1

/-- On offsets that fit, the record limit is what the loop tests. -/
theorem checkOffsets_iff_recordsWithin (fieldId : UInt32) {column : Column}
    {limits : ResourceLimits} {offsets : OffsetBuffer} {dense payload : Nat}
    (hoffsets : column.offsets = some offsets)
    (hfit : OffsetsFit dense offsets.elems payload) :
    checkOffsets fieldId limits offsets.elems = .ok ()
      ↔ RecordsWithin limits.maximumRecordBytes column := by
  rw [checkOffsets_eq_ok, List.isChain_iff_getElem]
  constructor
  · intro h found hfound i hi
    cases hoffsets.symm.trans hfound
    exact (h i hi).2
  · intro h i hi
    exact ⟨hfit.ordered i hi, h offsets hoffsets i hi⟩

/-- The three parts of a variable-width column that fits. -/
theorem validateVariable_eq_ok_of_fits {field : Field} {column : Column}
    {dense decoded t : UInt64} {limits : ResourceLimits}
    {offsets : OffsetBuffer} {payload : ByteBuffer}
    (hcount : 8 * (dense.toNat + 1) < 2 ^ 64)
    (hoffsets : column.offsets = some offsets)
    (hpayload : column.payload = some payload)
    (hfit : OffsetsFit dense.toNat offsets.elems payload.elems.length)
    (hstrings : isStrictString column.type = true →
      StringsFit offsets.elems payload.elems) :
    validateVariable field column dense limits decoded = .ok t
      ↔ RecordsWithin limits.maximumRecordBytes column
        ∧ t.toNat = decoded.toNat
            + (8 * (dense.toNat + 1) + payload.elems.length)
        ∧ t ≤ limits.maximumDecodedBlockBytes := by
  rw [validateVariable_fits hcount hoffsets hpayload hfit hstrings, bind_eq_ok,
    ← checkOffsets_iff_recordsWithin field.id hoffsets hfit]
  constructor
  · rintro ⟨_, hloop, hadd⟩
    obtain ⟨ht, hle⟩ := addTwice_eq_ok.mp hadd
    rw [UInt64.toNat_ofNat_of_lt' hcount, Buffer.size_toNat] at ht
    exact ⟨hloop, by omega, hle⟩
  · rintro ⟨hloop, ht, hle⟩
    refine ⟨(), hloop, addTwice_eq_ok.mpr ⟨?_, hle⟩⟩
    rw [UInt64.toNat_ofNat_of_lt' hcount, Buffer.size_toNat]
    omega

/-- **STORAGE** is accepted exactly when it fits, is within the record limit
    and its bytes are within the decoded limit. -/
theorem validateStorage_eq_ok {field : Field} {column : Column}
    {dense decoded t : UInt64} {limits : ResourceLimits}
    (htype : column.type = field.type) :
    validateStorage field column dense limits decoded = .ok t
      ↔ CountFits dense.toNat column ∧ StorageFits dense.toNat column
        ∧ RecordsWithin limits.maximumRecordBytes column
        ∧ t.toNat = decoded.toNat + storageBytes dense.toNat column
        ∧ t ≤ limits.maximumDecodedBlockBytes := by
  rw [validateStorage, CountFits, StorageFits]
  cases hkind : column.storageKind with
  | fixedWidth =>
      have hother : column.storageKind ≠ .variableWidth := by
        rw [hkind]
        exact nofun
      dsimp only
      constructor
      · intro h
        obtain ⟨values, hvalues, hlen⟩ := validateFixed_ok_fits h
        rw [validateFixed_fits hvalues hlen] at h
        obtain ⟨ht, hle⟩ := addDecodedBytes_eq_ok.mp h
        rw [Buffer.size_toNat] at ht
        refine ⟨trivial, ⟨values, hvalues, hlen⟩,
          recordsWithin_of_values _ hother, ?_, hle⟩
        rw [storageBytes_values _ hother hvalues, ht]
      · rintro ⟨_, ⟨values, hvalues, hlen⟩, _, ht, hle⟩
        rw [validateFixed_fits hvalues hlen]
        rw [storageBytes_values _ hother hvalues] at ht
        refine addDecodedBytes_eq_ok.mpr ⟨?_, hle⟩
        rw [Buffer.size_toNat, ht]
  | boolean =>
      have hother : column.storageKind ≠ .variableWidth := by
        rw [hkind]
        exact nofun
      have hboolean := boolean_kind htype hkind
      dsimp only
      rw [if_neg (not_not.mpr hboolean)]
      constructor
      · intro h
        obtain ⟨hcount, values, hvalues, hlen, hpadding⟩ :=
          validateBoolean_ok_fits h
        rw [validateBoolean_fits hcount hvalues hlen hpadding] at h
        obtain ⟨ht, hle⟩ := addDecodedBytes_eq_ok.mp h
        rw [Buffer.size_toNat] at ht
        refine ⟨hcount, ⟨values, hvalues, hlen, hpadding⟩,
          recordsWithin_of_values _ hother, ?_, hle⟩
        rw [storageBytes_values _ hother hvalues, ht]
      · rintro ⟨hcount, ⟨values, hvalues, hlen, hpadding⟩, _, ht, hle⟩
        rw [validateBoolean_fits hcount hvalues hlen hpadding]
        rw [storageBytes_values _ hother hvalues] at ht
        refine addDecodedBytes_eq_ok.mpr ⟨?_, hle⟩
        rw [Buffer.size_toNat, ht]
  | variableWidth =>
      dsimp only
      constructor
      · intro h
        obtain ⟨hcount, offsets, hoffsets, payload, hpayload, hfit, hstrings⟩ :=
          validateVariable_ok_fits h
        obtain ⟨hwithin, ht, hle⟩ := (validateVariable_eq_ok_of_fits hcount
          hoffsets hpayload hfit hstrings).mp h
        refine ⟨hcount, ⟨offsets, hoffsets, payload, hpayload, hfit, hstrings⟩,
          hwithin, ?_, hle⟩
        rw [storageBytes_payload _ hkind hpayload, ht]
      · rintro ⟨hcount, ⟨offsets, hoffsets, payload, hpayload, hfit, hstrings⟩,
          hwithin, ht, hle⟩
        rw [storageBytes_payload _ hkind hpayload] at ht
        exact (validateVariable_eq_ok_of_fits hcount hoffsets hpayload hfit
          hstrings).mpr ⟨hwithin, ht, hle⟩

/-- Storage that fits, with a value over the record limit. -/
theorem validateStorage_code_of_long {field : Field} {column : Column}
    {dense decoded : UInt64} {limits : ResourceLimits}
    (hcount : CountFits dense.toNat column)
    (hfit : StorageFits dense.toNat column)
    (hlong : ¬ RecordsWithin limits.maximumRecordBytes column) :
    codeOf (validateStorage field column dense limits decoded)
      = some .invalidBlock := by
  rw [CountFits] at hcount
  rw [StorageFits] at hfit
  cases hkind : column.storageKind with
  | fixedWidth =>
      refine (hlong (recordsWithin_of_values _ ?_)).elim
      rw [hkind]
      exact nofun
  | boolean =>
      refine (hlong (recordsWithin_of_values _ ?_)).elim
      rw [hkind]
      exact nofun
  | variableWidth =>
      rw [hkind] at hcount hfit
      obtain ⟨offsets, hoffsets, payload, hpayload, hfit, hstrings⟩ := hfit
      have hloop : checkOffsets field.id limits offsets.elems ≠ .ok () :=
        fun h => hlong
          ((checkOffsets_iff_recordsWithin field.id hoffsets hfit).mp h)
      have hcode := checkOffsets_code hloop
      rw [validateStorage, hkind]
      dsimp only
      rw [validateVariable_fits hcount hoffsets hpayload hfit hstrings]
      cases herror : checkOffsets field.id limits offsets.elems with
      | ok _ => exact (hloop herror).elim
      | error e =>
          rw [herror] at hcode
          rw [error_bind]
          exact hcode

/-- Storage that fits and is within the record limit only fails on the decoded
    limit. -/
theorem validateStorage_code_of_within {field : Field} {column : Column}
    {dense decoded : UInt64} {limits : ResourceLimits}
    (htype : column.type = field.type) (hcount : CountFits dense.toNat column)
    (hfit : StorageFits dense.toNat column)
    (hwithin : RecordsWithin limits.maximumRecordBytes column)
    (hsum : decoded.toNat + storageBytes dense.toNat column < 2 ^ 64) :
    codeOf (validateStorage field column dense limits decoded)
      = if limits.maximumDecodedBlockBytes.toNat
            < decoded.toNat + storageBytes dense.toNat column then
          some .limitExceeded
        else none := by
  rw [CountFits] at hcount
  rw [StorageFits] at hfit
  rw [validateStorage]
  cases hkind : column.storageKind with
  | fixedWidth =>
      have hother : column.storageKind ≠ .variableWidth := by
        rw [hkind]
        exact nofun
      rw [hkind] at hfit
      obtain ⟨values, hvalues, hlen⟩ := hfit
      have hbytes := storageBytes_values dense.toNat hother hvalues
      rw [hbytes, ← Buffer.size_toNat] at hsum ⊢
      dsimp only
      rw [validateFixed_fits hvalues hlen]
      exact addDecodedBytes_code hsum
  | boolean =>
      have hother : column.storageKind ≠ .variableWidth := by
        rw [hkind]
        exact nofun
      have hboolean := boolean_kind htype hkind
      rw [hkind] at hcount hfit
      obtain ⟨values, hvalues, hlen, hpadding⟩ := hfit
      have hbytes := storageBytes_values dense.toNat hother hvalues
      rw [hbytes, ← Buffer.size_toNat] at hsum ⊢
      dsimp only
      rw [if_neg (not_not.mpr hboolean),
        validateBoolean_fits hcount hvalues hlen hpadding]
      exact addDecodedBytes_code hsum
  | variableWidth =>
      rw [hkind] at hcount hfit
      obtain ⟨offsets, hoffsets, payload, hpayload, hfit, hstrings⟩ := hfit
      have hloop :=
        (checkOffsets_iff_recordsWithin field.id hoffsets hfit).mpr hwithin
      have hbytes := storageBytes_payload dense.toNat hkind hpayload
      rw [hbytes, ← Buffer.size_toNat payload,
        ← UInt64.toNat_ofNat_of_lt' hcount, ← Nat.add_assoc] at hsum ⊢
      dsimp only
      rw [validateVariable_fits hcount hoffsets hpayload hfit hstrings, hloop,
        ok_bind]
      exact addTwice_code hsum

/-! ## One column -/

/-- When a total has room for the bitmap. -/
theorem addValidityBytes_eq_ok {column : Column} {limits : ResourceLimits}
    {decoded t : UInt64} (hstart : decoded ≤ limits.maximumDecodedBlockBytes) :
    addValidityBytes column limits decoded = .ok t
      ↔ t.toNat = decoded.toNat + validityBytes column
        ∧ t ≤ limits.maximumDecodedBlockBytes := by
  rw [addValidityBytes, validityBytes]
  cases column.validity with
  | none =>
      constructor
      · intro h
        cases h
        exact ⟨rfl, hstart⟩
      · rintro ⟨h, _⟩
        exact congrArg Except.ok (UInt64.toNat_inj.mp h.symm)
  | some validity =>
      dsimp only
      rw [addDecodedBytes_eq_ok, Buffer.size_toNat]

/-- The bitmap runs out of room, and nothing else. -/
theorem addValidityBytes_code {column : Column} {limits : ResourceLimits}
    {decoded : UInt64} (hstart : decoded ≤ limits.maximumDecodedBlockBytes)
    (hsum : decoded.toNat + validityBytes column < 2 ^ 64) :
    codeOf (addValidityBytes column limits decoded)
      = if limits.maximumDecodedBlockBytes.toNat
            < decoded.toNat + validityBytes column then some .limitExceeded
        else none := by
  rw [le_toNat] at hstart
  cases hvalidity : column.validity with
  | none =>
      have hbytes : validityBytes column = 0 := by
        rw [validityBytes, hvalidity]
      rw [hbytes, if_neg (by omega), addValidityBytes, hvalidity, codeOf_ok]
  | some validity =>
      have hbytes : validityBytes column = validity.bitmap.size.toNat := by
        rw [validityBytes, hvalidity, Buffer.size_toNat]
      rw [hbytes] at hsum ⊢
      rw [addValidityBytes, hvalidity]
      exact addDecodedBytes_code hsum

/-- The checks that come before any byte is counted. -/
theorem validateColumn_eq {field : Field} {column : Column}
    {rowCount decoded : UInt64} {limits : ResourceLimits}
    (hrows : column.rowCount = rowCount) (htype : column.type = field.type)
    (hvalidity : field.nullable = false → column.validity = none) :
    validateColumn field column rowCount limits decoded
      = addValidityBytes column limits decoded >>=
          validateStorage field column (rowCount - column.nullCount)
            limits := by
  have hvalid : ¬ (field.nullable = false
      ∧ column.validity.isSome = true) := by
    rintro ⟨hnullable, hsome⟩
    rw [hvalidity hnullable] at hsome
    exact nomatch hsome
  -- The last of these tests cannot fail: nulls are counted among the rows.
  have hnulls : ¬ column.nullCount > rowCount := by
    rw [← hrows]
    exact UInt64.not_lt.mpr (nullCount_le column)
  rw [validateColumn, if_neg (not_not.mpr hrows), if_neg (not_not.mpr htype),
    if_neg hvalid, if_neg hnulls]

/-- The number of valid rows does not wrap around. -/
theorem dense_toNat {column : Column} {rowCount : UInt64}
    (hrows : column.rowCount = rowCount) :
    (rowCount - column.nullCount).toNat
      = rowCount.toNat - column.nullCount.toNat := by
  rw [← hrows]
  exact UInt64.toNat_sub_of_le _ _ (nullCount_le column)

/-- **ONE COLUMN** is accepted exactly when it fits its field and is within
    both limits. -/
theorem validateColumn_eq_ok {field : Field} {column : Column}
    {rowCount decoded t : UInt64} {limits : ResourceLimits}
    (hstart : decoded ≤ limits.maximumDecodedBlockBytes) :
    validateColumn field column rowCount limits decoded = .ok t
      ↔ CountFits (rowCount.toNat - column.nullCount.toNat) column
        ∧ Fits rowCount field column
        ∧ RecordsWithin limits.maximumRecordBytes column
        ∧ t.toNat = decoded.toNat + columnBytes rowCount column
        ∧ t ≤ limits.maximumDecodedBlockBytes := by
  rw [columnBytes]
  constructor
  · intro h
    -- An accepted column has got past each test in turn.
    have hrows : column.rowCount = rowCount := by
      by_contra hne
      rw [validateColumn, if_pos hne] at h
      exact invalidColumn_ne_ok _ _ _ h
    have htype : column.type = field.type := by
      by_contra hne
      rw [validateColumn, if_neg (not_not.mpr hrows), if_pos hne] at h
      exact invalidColumn_ne_ok _ _ _ h
    have hvalidity : field.nullable = false → column.validity = none := by
      intro hnullable
      by_contra hne
      rw [validateColumn, if_neg (not_not.mpr hrows),
        if_neg (not_not.mpr htype),
        if_pos ⟨hnullable, Option.isSome_iff_ne_none.mpr hne⟩] at h
      exact invalidColumn_ne_ok _ _ _ h
    rw [validateColumn_eq hrows htype hvalidity] at h
    obtain ⟨mid, hmid, hstorage⟩ := bind_eq_ok.mp h
    obtain ⟨hmid, _⟩ := (addValidityBytes_eq_ok hstart).mp hmid
    obtain ⟨hcount, hfit, hwithin, ht, hle⟩ :=
      (validateStorage_eq_ok htype).mp hstorage
    rw [dense_toNat hrows] at hcount hfit ht
    exact ⟨hcount, ⟨hrows, htype, hvalidity, hfit⟩, hwithin, by omega, hle⟩
  · rintro ⟨hcount, ⟨hrows, htype, hvalidity, hfit⟩, hwithin, ht, hle⟩
    have hmax := le_toNat.mp hle
    obtain ⟨mid, hmid, hbelow⟩ := exists_word_le
      (show decoded.toNat + validityBytes column
        ≤ limits.maximumDecodedBlockBytes.toNat by omega)
    rw [validateColumn_eq hrows htype hvalidity]
    refine bind_eq_ok.mpr ⟨mid,
      (addValidityBytes_eq_ok hstart).mpr ⟨hmid, hbelow⟩,
      (validateStorage_eq_ok htype).mpr ?_⟩
    rw [dense_toNat hrows]
    exact ⟨hcount, hfit, hwithin, by omega, hle⟩

/-- **ONE COLUMN** that fits fails in a fixed order: on its validity bitmap, on
    a long value, on its other bytes. -/
theorem validateColumn_code {field : Field} {column : Column}
    {rowCount decoded : UInt64} {limits : ResourceLimits}
    (hstart : decoded ≤ limits.maximumDecodedBlockBytes)
    (hcount : CountFits (rowCount.toNat - column.nullCount.toNat) column)
    (hfit : Fits rowCount field column)
    (hsum : decoded.toNat + columnBytes rowCount column < 2 ^ 64) :
    (limits.maximumDecodedBlockBytes.toNat
        < decoded.toNat + validityBytes column →
      codeOf (validateColumn field column rowCount limits decoded)
        = some .limitExceeded)
    ∧ (decoded.toNat + validityBytes column
          ≤ limits.maximumDecodedBlockBytes.toNat →
        ¬ RecordsWithin limits.maximumRecordBytes column →
      codeOf (validateColumn field column rowCount limits decoded)
        = some .invalidBlock)
    ∧ (RecordsWithin limits.maximumRecordBytes column →
        limits.maximumDecodedBlockBytes.toNat
          < decoded.toNat + columnBytes rowCount column →
      codeOf (validateColumn field column rowCount limits decoded)
        = some .limitExceeded) := by
  rw [columnBytes] at hsum ⊢
  obtain ⟨hrows, htype, hvalidity, hstorage⟩ := hfit
  rw [← dense_toNat hrows] at hcount hstorage hsum ⊢
  rw [validateColumn_eq hrows htype hvalidity]
  have hcode := @addValidityBytes_code column limits decoded hstart (by omega)
  -- The bitmap is counted first; only then is the storage looked at.
  cases hadd : addValidityBytes column limits decoded with
  | error e =>
      have hover : limits.maximumDecodedBlockBytes.toNat
          < decoded.toNat + validityBytes column := by
        by_contra hc
        rw [hadd, if_neg hc] at hcode
        exact nomatch hcode
      rw [hadd, if_pos hover] at hcode
      rw [error_bind]
      exact ⟨fun _ => hcode, fun hle _ => by omega, fun _ _ => hcode⟩
  | ok mid =>
      obtain ⟨hmid, hle⟩ := (addValidityBytes_eq_ok hstart).mp hadd
      have hmax := le_toNat.mp hle
      rw [ok_bind]
      refine ⟨fun hover => by omega, fun _ hlong =>
        validateStorage_code_of_long hcount hstorage hlong,
        fun hwithin hover => ?_⟩
      rw [validateStorage_code_of_within htype hcount hstorage hwithin
        (by omega), if_pos (by omega)]

end ShiboriColumnValidation
