import Mathlib
import ShiboriEngine.ColumnValidationProofs

/-! # What finishing a block decides

    The loop over the fields gives out one column for each of them, in schema
    order, exactly when every column passes and their decoded bytes together
    stay within the limit. -/

namespace ShiboriBlockFacts

open ShiboriError ShiboriResource ShiboriSchema ShiboriColumn ShiboriBlock
open ShiboriColumnValidation Words

/-! ## All columns -/

/-- The column a field finds passes everything but the decoded limit. -/
structure Passes (columns : Std.ExtTreeMap UInt32 Column compare)
    (rowCount : UInt64) (limits : ResourceLimits) (field : Field)
    (column : Column) : Prop where
  found : columns[field.id]? = some column
  countable : CountFits (rowCount.toNat - column.nullCount.toNat) column
  fits : Fits rowCount field column
  within : RecordsWithin limits.maximumRecordBytes column

/-- The bytes of all columns. -/
def totalBytes (rowCount : UInt64) (columns : List Column) : Nat :=
  (columns.map (columnBytes rowCount)).sum

/-- No columns have no bytes. -/
@[simp] theorem totalBytes_nil (rowCount : UInt64) :
    totalBytes rowCount [] = 0 := rfl

/-- The first column adds its bytes. -/
@[simp] theorem totalBytes_cons (rowCount : UInt64) (column : Column)
    (columns : List Column) :
    totalBytes rowCount (column :: columns)
      = columnBytes rowCount column + totalBytes rowCount columns := rfl

/-- **ALL COLUMNS**: the loop gives out the columns in schema order exactly
    when each of them passes and their bytes together are within the limit. -/
theorem validateColumns_eq_ok
    {columns : Std.ExtTreeMap UInt32 Column compare} {rowCount : UInt64}
    {limits : ResourceLimits} {fields : List Field} {decoded : UInt64}
    {ordered result : List Column}
    (hstart : decoded ≤ limits.maximumDecodedBlockBytes) :
    validateColumns columns rowCount limits fields decoded ordered
        = .ok result
      ↔ ∃ found, result = ordered ++ found
        ∧ List.Forall₂ (Passes columns rowCount limits) fields found
        ∧ decoded.toNat + totalBytes rowCount found
          ≤ limits.maximumDecodedBlockBytes.toNat := by
  -- By induction on the fields still to check; the total so far stays within the
  -- limit, which is what makes every sum a word.
  induction fields generalizing decoded ordered with
  | nil =>
      rw [validateColumns]
      constructor
      · intro h
        cases h
        exact ⟨[], (List.append_nil _).symm, .nil, le_toNat.mp hstart⟩
      · rintro ⟨found, rfl, hall, _⟩
        cases hall
        rw [List.append_nil]
  | cons field fields ih =>
      rw [validateColumns]
      cases hfound : columns[field.id]? with
      | none =>
          constructor
          · intro h
            exact (invalidColumn_ne_ok _ _ _ h).elim
          · rintro ⟨found, _, hall, _⟩
            obtain ⟨column, _, hpasses, _⟩ := List.forall₂_cons_left_iff.mp hall
            exact nomatch hfound.symm.trans hpasses.found
      | some column =>
          dsimp only
          constructor
          · intro h
            obtain ⟨next, hcolumn, hrest⟩ := bind_eq_ok.mp h
            obtain ⟨hcount, hfit, hwithin, hnext, hle⟩ :=
              (validateColumn_eq_ok hstart).mp hcolumn
            obtain ⟨found, hresult, hall, hsum⟩ := (ih hle).mp hrest
            refine ⟨column :: found, ?_,
              .cons ⟨hfound, hcount, hfit, hwithin⟩ hall, ?_⟩
            · rw [hresult, List.append_assoc]
              rfl
            · rw [totalBytes_cons]
              omega
          · rintro ⟨found, hresult, hall, hsum⟩
            obtain ⟨column', rest, hpasses, hothers, rfl⟩ :=
              List.forall₂_cons_left_iff.mp hall
            cases hfound.symm.trans hpasses.found
            rw [totalBytes_cons] at hsum
            obtain ⟨next, hnext, hle⟩ := exists_word_le
              (show decoded.toNat + columnBytes rowCount column
                ≤ limits.maximumDecodedBlockBytes.toNat by omega)
            refine bind_eq_ok.mpr ⟨next, (validateColumn_eq_ok hstart).mpr
              ⟨hpasses.countable, hpasses.fits, hpasses.within, hnext, hle⟩,
              (ih hle).mpr ⟨rest, ?_, hothers, by omega⟩⟩
            rw [hresult, List.append_assoc]
            rfl

/-- What the builder's validation accepts, and the columns it finds. -/
theorem validate_eq_ok {builder : BlockBuilder} {limits : ResourceLimits}
    {found : List Column} :
    builder.validate limits = .ok found
      ↔ validateResourceLimits limits = .ok ()
        ∧ builder.rowCount ≠ 0
        ∧ builder.rowCount ≤ limits.maximumBlockRows
        ∧ builder.columns.size = builder.schema.fieldCount
        ∧ List.Forall₂ (Passes builder.columns builder.rowCount limits)
            builder.schema.fields found
        ∧ totalBytes builder.rowCount found
          ≤ limits.maximumDecodedBlockBytes.toNat := by
  have hzero : (0 : UInt64).toNat = 0 := rfl
  have hstart : (0 : UInt64) ≤ limits.maximumDecodedBlockBytes := by
    rw [le_toNat]
    exact Nat.zero_le _
  rw [BlockBuilder.validate, bind_eq_ok]
  by_cases hempty : builder.rowCount = 0
  · rw [if_pos hempty]
    constructor
    · rintro ⟨_, _, h⟩
      exact (fail_ne_ok _ _ _ _ h).elim
    · rintro ⟨_, hne, _⟩
      exact (hne hempty).elim
  rw [if_neg hempty]
  by_cases hmany : builder.rowCount > limits.maximumBlockRows
  · rw [if_pos hmany]
    constructor
    · rintro ⟨_, _, h⟩
      exact (fail_ne_ok _ _ _ _ h).elim
    · rintro ⟨_, _, hle, _⟩
      exact (UInt64.not_lt.mpr hle hmany).elim
  rw [if_neg hmany]
  by_cases hsize : builder.columns.size ≠ builder.schema.fieldCount
  · rw [if_pos hsize]
    constructor
    · rintro ⟨_, _, h⟩
      exact (fail_ne_ok _ _ _ _ h).elim
    · rintro ⟨_, _, _, heq, _⟩
      exact (hsize heq).elim
  rw [if_neg hsize, validateColumns_eq_ok hstart]
  constructor
  · rintro ⟨_, hlimits, found', rfl, hall, hsum⟩
    rw [hzero, Nat.zero_add] at hsum
    exact ⟨hlimits, hempty, UInt64.not_lt.mp hmany, not_not.mp hsize, hall,
      hsum⟩
  · rintro ⟨hlimits, _, _, _, hall, hsum⟩
    refine ⟨(), hlimits, found, rfl, hall, ?_⟩
    rw [hzero, Nat.zero_add]
    exact hsum

/-- `finish` marks the builder before it checks; no check reads the mark. -/
theorem finish_fresh {builder : BlockBuilder} {limits : ResourceLimits}
    (hfresh : builder.finished = false) :
    (builder.finish limits).1 = (builder.validate limits).map fun found =>
      { schema := builder.schema, id := builder.id
        rowCount := builder.rowCount, columns := found } := by
  have hvalidate : BlockBuilder.validate { builder with finished := true }
      limits = builder.validate limits := rfl
  rw [BlockBuilder.finish, if_neg (Bool.eq_false_iff.mp hfresh)]
  dsimp only
  rw [hvalidate]
  cases builder.validate limits with
  | error e => rfl
  | ok found => rfl

/-- When a builder finishes, and with which block. -/
theorem finish_eq_ok {builder : BlockBuilder} {limits : ResourceLimits}
    {block : Block} :
    (builder.finish limits).1 = .ok block
      ↔ builder.finished = false ∧ ∃ found,
        builder.validate limits = .ok found
          ∧ block = { schema := builder.schema, id := builder.id
                      rowCount := builder.rowCount, columns := found } := by
  cases hfinished : builder.finished with
  | true =>
      rw [BlockBuilder.finish, if_pos hfinished]
      constructor
      · intro h
        exact (fail_ne_ok _ _ _ _ h).elim
      · rintro ⟨h, _⟩
        exact nomatch h
  | false =>
      rw [finish_fresh hfinished]
      cases builder.validate limits with
      | error e =>
          constructor
          · intro h
            exact nomatch h
          · rintro ⟨_, found, h, _⟩
            exact nomatch h
      | ok found =>
          constructor
          · intro h
            cases h
            exact ⟨rfl, found, rfl, rfl⟩
          · rintro ⟨_, found', h, rfl⟩
            cases h
            rfl

/-- A failed validation is what `finish` reports. -/
theorem finish_code {builder : BlockBuilder} {limits : ResourceLimits}
    (hfinished : builder.finished = false) :
    codeOf (builder.finish limits).1 = codeOf (builder.validate limits) := by
  rw [finish_fresh hfinished]
  cases builder.validate limits with
  | error e => rfl
  | ok found => rfl

end ShiboriBlockFacts
