import Mathlib
import ShiboriEngine.BlockAcceptanceProofs

/-! # Finishing a block under tighter limits

    A block that finishes under some limits is valid data, so tighter limits
    can only run out of capacity: too many rows, too many decoded bytes or a
    value over the record limit.  The first two are reported as
    `limit_exceeded`.  A long value is reported as `invalid_block`, so it
    matters which limit the walk over the columns reaches first. -/

namespace ShiboriBlockLimit

open ShiboriError ShiboriResource ShiboriSchema ShiboriSchemaFacts
open ShiboriColumn ShiboriBlock ShiboriColumnValidation ShiboriBlockFacts
open ShiboriBlockAcceptance Words

/-! ## The columns in schema order -/

/-- The columns in the order of the fields. -/
def orderedColumns (builder : BlockBuilder) : List Column :=
  builder.schema.fields.filterMap fun field => builder.columns[field.id]?

/-- The columns that passed are those in order. -/
theorem filterMap_found {columns : Std.ExtTreeMap UInt32 Column compare}
    {rowCount : UInt64} {limits : ResourceLimits} {fields : List Field}
    {found : List Column}
    (h : List.Forall₂ (Passes columns rowCount limits) fields found) :
    fields.filterMap (fun field => columns[field.id]?) = found := by
  induction h with
  | nil => rfl
  | @cons field column fields found hpasses _ ih =>
      have hhead := List.filterMap_cons_some
        (f := fun field : Field => columns[field.id]?) (l := fields)
        hpasses.found
      rw [hhead, ih]

/-! ## Which limit comes first -/

/-- A column with a value over the record limit comes before the decoded bytes
    run out. -/
def LongValueFirst (rowCount : UInt64) (limits : ResourceLimits)
    (decoded : Nat) (columns : List Column) : Prop :=
  ∃ earlier column later, columns = earlier ++ column :: later
    ∧ ¬ RecordsWithin limits.maximumRecordBytes column
    ∧ decoded + totalBytes rowCount earlier + validityBytes column
      ≤ limits.maximumDecodedBlockBytes.toNat

/-- Without columns there is no long value. -/
theorem not_longValueFirst_nil {rowCount : UInt64} {limits : ResourceLimits}
    {decoded : Nat} : ¬ LongValueFirst rowCount limits decoded [] := by
  rintro ⟨earlier, column, later, hsplit, _⟩
  exact List.append_ne_nil_of_right_ne_nil _ (List.cons_ne_nil _ _) hsplit.symm

/-- Either the first column has the long value, or a later one does. -/
theorem longValueFirst_cons {rowCount : UInt64} {limits : ResourceLimits}
    {decoded : Nat} {column : Column} {columns : List Column} :
    LongValueFirst rowCount limits decoded (column :: columns)
      ↔ (¬ RecordsWithin limits.maximumRecordBytes column
          ∧ decoded + validityBytes column
            ≤ limits.maximumDecodedBlockBytes.toNat)
        ∨ LongValueFirst rowCount limits
            (decoded + columnBytes rowCount column) columns := by
  constructor
  · rintro ⟨earlier, found, later, hsplit, hlong, hle⟩
    cases earlier with
    | nil =>
        obtain ⟨rfl, rfl⟩ := List.cons.inj hsplit
        exact Or.inl ⟨hlong, hle⟩
    | cons first earlier =>
        obtain ⟨rfl, rfl⟩ := List.cons.inj hsplit
        rw [totalBytes_cons, ← Nat.add_assoc] at hle
        exact Or.inr ⟨earlier, found, later, rfl, hlong, hle⟩
  · rintro (⟨hlong, hle⟩ | ⟨earlier, found, later, rfl, hlong, hle⟩)
    · exact ⟨[], column, columns, rfl, hlong, hle⟩
    · refine ⟨column :: earlier, found, later, rfl, hlong, ?_⟩
      rw [totalBytes_cons, ← Nat.add_assoc]
      exact hle

/-- Once the decoded bytes have run out no value is reached any more. -/
theorem not_longValueFirst_of_full {rowCount : UInt64}
    {limits : ResourceLimits} {decoded : Nat} {columns : List Column}
    (h : limits.maximumDecodedBlockBytes.toNat < decoded) :
    ¬ LongValueFirst rowCount limits decoded columns := by
  rintro ⟨_, _, _, _, _, hle⟩
  omega

/-! ## The walk over the columns -/

/-- What a column satisfies that passes under some limits. -/
structure Valid (columns : Std.ExtTreeMap UInt32 Column compare)
    (rowCount : UInt64) (field : Field) (column : Column) : Prop where
  found : columns[field.id]? = some column
  countable : CountFits (rowCount.toNat - column.nullCount.toNat) column
  fits : Fits rowCount field column

/-- What passes under limits is valid without them. -/
theorem valid_of_passes {columns : Std.ExtTreeMap UInt32 Column compare}
    {rowCount : UInt64} {limits : ResourceLimits} {field : Field}
    {column : Column} (h : Passes columns rowCount limits field column) :
    Valid columns rowCount field column :=
  ⟨h.found, h.countable, h.fits⟩

/-- **THE WALK** over valid columns fails with `invalid_block` exactly when a
    long value comes first, and otherwise only with `limit_exceeded`. -/
theorem validateColumns_code
    {columns : Std.ExtTreeMap UInt32 Column compare} {rowCount : UInt64}
    {limits : ResourceLimits} {fields : List Field} {found : List Column}
    {decoded : UInt64} {ordered : List Column}
    (hstart : decoded ≤ limits.maximumDecodedBlockBytes)
    (hvalid : List.Forall₂ (Valid columns rowCount) fields found)
    (hsum : decoded.toNat + totalBytes rowCount found < 2 ^ 64) :
    (LongValueFirst rowCount limits decoded.toNat found →
      codeOf (validateColumns columns rowCount limits fields decoded ordered)
        = some .invalidBlock)
    ∧ (¬ LongValueFirst rowCount limits decoded.toNat found →
      codeOf (validateColumns columns rowCount limits fields decoded ordered)
          = none
        ∨ codeOf (validateColumns columns rowCount limits fields decoded
            ordered) = some .limitExceeded) := by
  induction hvalid generalizing decoded ordered with
  | nil => exact ⟨fun h => (not_longValueFirst_nil h).elim, fun _ => Or.inl rfl⟩
  | @cons field column fields found hcolumn _ ih =>
      rw [totalBytes_cons] at hsum
      rw [longValueFirst_cons, validateColumns, hcolumn.found]
      dsimp only
      have hown : columnBytes rowCount column = validityBytes column
          + storageBytes (rowCount.toNat - column.nullCount.toNat) column := rfl
      obtain ⟨hbitmap, hlong, hbytes⟩ := validateColumn_code hstart
        hcolumn.countable hcolumn.fits (by omega)
      cases hone : validateColumn field column rowCount limits decoded with
      | error e =>
          rw [hone, codeOf_error] at hbitmap hlong hbytes
          rw [error_bind, codeOf_error]
          by_cases hfull : limits.maximumDecodedBlockBytes.toNat
              < decoded.toNat + validityBytes column
          · -- the bitmap alone is too large, so nothing later is reached
            refine ⟨?_, fun _ => Or.inr (hbitmap hfull)⟩
            rintro (⟨_, hle⟩ | hlater)
            · omega
            · exact (not_longValueFirst_of_full (by omega) hlater).elim
          have hle := Nat.not_lt.mp hfull
          by_cases hwithin : RecordsWithin limits.maximumRecordBytes column
          · have hover : limits.maximumDecodedBlockBytes.toNat
                < decoded.toNat + columnBytes rowCount column := by
              by_contra hc
              obtain ⟨next, hnext, hbelow⟩ := exists_word_le (Nat.not_lt.mp hc)
              have hfit := (validateColumn_eq_ok hstart).mpr
                ⟨hcolumn.countable, hcolumn.fits, hwithin, hnext, hbelow⟩
              rw [hone] at hfit
              cases hfit
            refine ⟨?_, fun _ => Or.inr (hbytes hwithin hover)⟩
            rintro (⟨hnot, _⟩ | hlater)
            · exact (hnot hwithin).elim
            · exact (not_longValueFirst_of_full hover hlater).elim
          · exact ⟨fun _ => hlong hle hwithin,
              fun hnot => (hnot (Or.inl ⟨hwithin, hle⟩)).elim⟩
      | ok next =>
          obtain ⟨_, _, hwithin, hnext, hle⟩ :=
            (validateColumn_eq_ok hstart).mp hone
          obtain ⟨hfirst, hother⟩ := @ih next (ordered ++ [column]) hle
            (by omega)
          rw [hnext] at hfirst hother
          rw [ok_bind]
          refine ⟨?_, fun hnot => hother fun hlater => hnot (Or.inr hlater)⟩
          rintro (⟨hnot, _⟩ | hlater)
          · exact (hnot hwithin).elim
          · exact hfirst hlater

/-! ## Two runs of finish -/

/-- The row limit holds and a long value comes first. -/
def ReachesLongValue (builder : BlockBuilder) (limits : ResourceLimits) :
    Prop :=
  builder.rowCount ≤ limits.maximumBlockRows
    ∧ LongValueFirst builder.rowCount limits 0 (orderedColumns builder)

/-- What finishing again under tighter limits may do. -/
def OnlyRunsOut (result : Result Block) (block : Block) : Prop :=
  result = .ok block
    ∨ ∃ error, result = .error error ∧ error.code = .limitExceeded
      ∧ error.category = .resourceLimit

/-- `limit_exceeded` is running out. -/
theorem onlyRunsOut_of_code {result : Result Block} {block : Block}
    (h : codeOf result = some .limitExceeded) : OnlyRunsOut result block := by
  cases result with
  | ok _ => exact nomatch h
  | error error =>
      have hcode : error.code = .limitExceeded := Option.some.inj h
      refine Or.inr ⟨error, rfl, hcode, ?_⟩
      rw [Error.category, hcode]
      rfl

/-- `invalid_block` is not. -/
theorem not_onlyRunsOut_of_code {result : Result Block} {block : Block}
    (h : codeOf result = some .invalidBlock) :
    ¬ OnlyRunsOut result block := by
  rintro (hok | ⟨error, herror, hcode, _⟩)
  · rw [hok] at h
    exact nomatch h
  · rw [herror, codeOf_error, hcode] at h
    exact nomatch h

/-- Two successes make the same block. -/
theorem finish_block_unique {builder : BlockBuilder}
    {limits limits' : ResourceLimits} {block block' : Block}
    (h : (builder.finish limits).1 = .ok block)
    (h' : (builder.finish limits').1 = .ok block') : block = block' := by
  obtain ⟨_, found, hvalid, rfl⟩ := finish_eq_ok.mp h
  obtain ⟨_, found', hvalid', rfl⟩ := finish_eq_ok.mp h'
  obtain ⟨_, _, _, _, hall, _⟩ := validate_eq_ok.mp hvalid
  obtain ⟨_, _, _, _, hall', _⟩ := validate_eq_ok.mp hvalid'
  have hsame : found = found' :=
    (filterMap_found hall).symm.trans (filterMap_found hall')
  rw [hsame]

/-- Within the row limit the walk over the columns decides. -/
theorem finish_code_of_rows {builder : BlockBuilder}
    {limits limits' : ResourceLimits} {block : Block}
    (hlimits : validateResourceLimits limits = .ok ())
    (h : (builder.finish limits').1 = .ok block)
    (hfew : builder.rowCount ≤ limits.maximumBlockRows) :
    (LongValueFirst builder.rowCount limits 0 (orderedColumns builder) →
      codeOf (builder.finish limits).1 = some .invalidBlock)
    ∧ (¬ LongValueFirst builder.rowCount limits 0 (orderedColumns builder) →
      codeOf (builder.finish limits).1 = none
        ∨ codeOf (builder.finish limits).1 = some .limitExceeded) := by
  obtain ⟨hopen, found, hvalid, _⟩ := finish_eq_ok.mp h
  obtain ⟨_, hrows, _, hsize, hall, hsum⟩ := validate_eq_ok.mp hvalid
  have hordered : orderedColumns builder = found := filterMap_found hall
  have hword := limits'.maximumDecodedBlockBytes.toNat_lt
  have hzero : (0 : UInt64).toNat = 0 := rfl
  rw [finish_code hopen, BlockBuilder.validate, hlimits, ok_bind,
    if_neg hrows, if_neg (UInt64.not_lt.mpr hfew),
    if_neg (not_not.mpr hsize), hordered]
  exact validateColumns_code UInt64.zero_le
    (hall.imp fun _ _ => valid_of_passes) (by omega)

/-- Too many rows are `limit_exceeded`. -/
theorem finish_code_of_many_rows {builder : BlockBuilder}
    {limits limits' : ResourceLimits} {block : Block}
    (hlimits : validateResourceLimits limits = .ok ())
    (h : (builder.finish limits').1 = .ok block)
    (hmany : builder.rowCount > limits.maximumBlockRows) :
    codeOf (builder.finish limits).1 = some .limitExceeded := by
  obtain ⟨hopen, found, hvalid, _⟩ := finish_eq_ok.mp h
  obtain ⟨_, hrows, _⟩ := validate_eq_ok.mp hvalid
  rw [finish_code hopen, BlockBuilder.validate, hlimits, ok_bind,
    if_neg hrows, if_pos hmany, codeOf_fail]

/-- **OTHER LIMITS**: a builder that finishes under some limits makes the same
    block under any others, or runs out of capacity, exactly when no long value
    comes first. -/
theorem finish_other_limits_iff {builder : BlockBuilder}
    {limits limits' : ResourceLimits} {block : Block}
    (hlimits : validateResourceLimits limits = .ok ())
    (h : (builder.finish limits').1 = .ok block) :
    OnlyRunsOut (builder.finish limits).1 block
      ↔ ¬ ReachesLongValue builder limits := by
  constructor
  · rintro hgood ⟨hfew, hlong⟩
    have hcode := (finish_code_of_rows hlimits h hfew).1 hlong
    exact not_onlyRunsOut_of_code hcode hgood
  · intro hnot
    by_cases hmany : builder.rowCount > limits.maximumBlockRows
    · exact onlyRunsOut_of_code (finish_code_of_many_rows hlimits h hmany)
    have hfew := UInt64.not_lt.mp hmany
    rcases (finish_code_of_rows hlimits h hfew).2 fun hlong =>
      hnot ⟨hfew, hlong⟩ with hnone | hlimit
    · cases hresult : (builder.finish limits).1 with
      | error e =>
          rw [hresult] at hnone
          exact nomatch hnone
      | ok block' =>
          exact Or.inl (congrArg Except.ok (finish_block_unique hresult h))
    · exact onlyRunsOut_of_code hlimit

/-! ## A long value that comes first -/

/-- The builder of one column with a value of two bytes. -/
def textBuilder : BlockBuilder :=
  Machine.finalState setColumnStep (newBuilder (oneFieldSchema textField) 7 2)
    [⟨1, textColumn⟩]

/-- The block of a text column. -/
def textBlock : Block where
  schema := oneFieldSchema textField
  id := 7
  rowCount := 2
  columns := [textColumn]

/-- Its builder holds the column. -/
theorem textBuilder_holds :
    Holds (oneFieldSchema textField) 7 2 [⟨1, textColumn⟩] textBuilder :=
  run_holds (oneFieldSchema textField) 7 2 [⟨1, textColumn⟩]

/-- The builder finds it. -/
theorem textBuilder_column : textBuilder.columns[textField.id]?
    = some textColumn := by
  rw [holds_column textBuilder_holds List.mem_cons_self]
  rfl

/-- The builder finishes the block. -/
theorem textBuilder_finish :
    (textBuilder.finish defaultResourceLimits).1 = .ok textBlock := by
  have hschema := textBuilder_holds.schema_eq
  have hid := textBuilder_holds.id_eq
  have hrows := textBuilder_holds.rowCount_eq
  have hpasses : Passes textBuilder.columns 2 defaultResourceLimits textField
      textColumn :=
    ⟨textBuilder_column, countFits_of_small textColumn_small
      textColumn_fits.storage, textColumn_fits, textColumn_within (by decide)⟩
  have hsize : textBuilder.columns.size = 1 :=
    size_eq_fieldCount (List.pairwise_singleton _ _) textBuilder_holds
      (List.forall_mem_singleton.mpr rfl)
  refine finish_eq_ok.mpr ⟨textBuilder_holds.not_finished, [textColumn],
    validate_eq_ok.mpr ?_, ?_⟩
  · rw [hrows, hschema, hsize]
    exact ⟨defaultResourceLimits_valid, by decide, by decide, rfl,
      .cons hpasses .nil, by decide⟩
  · rw [hschema, hid, hrows]
    rfl

/-- Room for the block, but only for values of one byte. -/
def oneByteLimits : ResourceLimits :=
  { defaultResourceLimits with
    maximumRecordBytes := 1
    maximumMetadataBytes := 1 }

/-- The value is longer than one byte. -/
theorem textColumn_long :
    ¬ RecordsWithin oneByteLimits.maximumRecordBytes textColumn := by
  intro h
  have hfirst := h _ rfl 0 (by decide)
  exact absurd hfirst (by decide)

/-- Under a limit of one byte the long value comes first. -/
theorem textBuilder_reachesLongValue :
    ReachesLongValue textBuilder oneByteLimits := by
  have hordered : orderedColumns textBuilder = [textColumn] := by
    have hhead := List.filterMap_cons_some
      (f := fun field : Field => textBuilder.columns[field.id]?)
      (l := []) textBuilder_column
    rw [orderedColumns, textBuilder_holds.schema_eq]
    exact hhead
  rw [ReachesLongValue, textBuilder_holds.rowCount_eq, hordered]
  exact ⟨by decide, [], textColumn, [], rfl, textColumn_long, by decide⟩

/-- No value is over the limit here: the rows run out. -/
def oneRowLimits : ResourceLimits :=
  { defaultResourceLimits with maximumBlockRows := 1 }

/-- Under a limit of one row the block runs out. -/
theorem finish_other_limits_iff_at_oneRowLimits :
    OnlyRunsOut (textBuilder.finish oneRowLimits).1 textBlock :=
  (finish_other_limits_iff (by decide) textBuilder_finish).mpr fun hreaches =>
    absurd (textBuilder_holds.rowCount_eq ▸ hreaches.1) (by decide)

/-- **A LONG VALUE** makes valid data fail as an invalid block. -/
theorem tighter_limits_report_invalid_block :
    validateResourceLimits oneByteLimits = .ok ()
      ∧ validateResourceLimits defaultResourceLimits = .ok ()
      ∧ oneByteLimits.Le defaultResourceLimits
      ∧ (textBuilder.finish defaultResourceLimits).1 = .ok textBlock
      ∧ codeOf (textBuilder.finish oneByteLimits).1 = some .invalidBlock
      ∧ ¬ OnlyRunsOut (textBuilder.finish oneByteLimits).1 textBlock := by
  have hlimits : validateResourceLimits oneByteLimits = .ok () := by decide
  obtain ⟨hfew, hlong⟩ := textBuilder_reachesLongValue
  have hcode :=
    (finish_code_of_rows hlimits textBuilder_finish hfew).1 hlong
  refine ⟨hlimits, defaultResourceLimits_valid, ?_, textBuilder_finish, hcode,
    not_onlyRunsOut_of_code hcode⟩
  constructor <;> decide

end ShiboriBlockLimit
