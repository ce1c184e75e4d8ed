import Mathlib
import ShiboriEngine.Library.Bitmap
import ShiboriEngine.Library.Machine
import ShiboriEngine.ColumnProofs

/-! # Validity bitmaps are lists of booleans

    A builder that took some rows holds exactly their bits (`Records`), every
    call keeps that, and a full builder finishes to a validity that reads the
    rows back.  Conversely an admitted bitmap is the one of the rows it reads
    as, since a bitmap is determined by its length and its bits. -/

namespace ShiboriValidity

open ShiboriError ShiboriBuffer ShiboriColumn ShiboriColumnFacts
open Machine Bitmap Words

/-! ## Bits of the engine's bitmaps -/

/-- The bits set are those read as set. -/
theorem setBits_eq (bytes : List UInt8) :
    setBits bytes = (readBits bytes (8 * bytes.length)).count true :=
  sum_ones bytes

/-- The padding is zero when no bit after the rows is set. -/
theorem paddingZero_iff {count : Nat} {bytes : List UInt8} :
    PaddingZero count bytes ↔ ∀ i, count ≤ i → bit bytes i = false := by
  constructor
  · intro h i hi
    rcases Nat.lt_or_ge (i / 8) bytes.length with hin | hout
    · rw [bit, List.getD_eq_getElem bytes 0 hin]
      exact h i hin hi
    · exact bit_of_length_le (by omega)
  · intro h i hin hi
    have hbit := h i hi
    rw [bit, List.getD_eq_getElem bytes 0 hin] at hbit
    exact hbit

/-- Marking a row sets its bit. -/
theorem markRow_elems (bytes : ByteBuffer) (row : UInt64) :
    (ValidityBuilder.markRow bytes row).elems
      = setBit bytes.elems row.toNat := by
  have hbyte : (row / 8).toNat = row.toNat / 8 := UInt64.toNat_div row 8
  have hbit : (row % 8).toUInt8 = UInt8.ofNat (row.toNat % 8) := by
    apply UInt8.toNat_inj.mp
    rw [UInt64.toNat_toUInt8, UInt64.toNat_mod, UInt8.toNat_ofNat']
    rfl
  show bytes.elems.modify (row / 8).toNat
    (fun byte => byte ||| (1 <<< (row % 8).toUInt8)) = _
  rw [setBit, hbyte, hbit]

/-- `is_valid` reads a bit within the rows. -/
theorem isValid_eq (validity : Validity) (row : UInt64) :
    validity.isValid row
      = (decide (row.toNat < validity.rowCount.toNat)
          && bit validity.bitmap.elems row.toNat) := by
  have hbyte : (row / 8).toNat = row.toNat / 8 := UInt64.toNat_div row 8
  have hbit : (row % 8).toNat = row.toNat % 8 := UInt64.toNat_mod row 8
  rw [Validity.isValid]
  by_cases h : row ≥ validity.rowCount
  · have hout : ¬ row.toNat < validity.rowCount.toNat :=
      Nat.not_lt.mpr (le_toNat.mp h)
    rw [if_pos h, decide_eq_false hout, Bool.false_and]
  · have hin : row.toNat < validity.rowCount.toNat := by
      rw [← lt_toNat]
      exact UInt64.not_le.mp h
    rw [if_neg h, decide_eq_true hin, Bool.true_and, hbyte, hbit]
    rfl

/-- A validity is made of any bitmap that passes the checks. -/
theorem fromBitmap_eq_ok {rowCount : UInt64} {bitmap : ByteBuffer}
    {validity : Validity} :
    Validity.fromBitmap rowCount bitmap = .ok validity
      ↔ validity.rowCount = rowCount ∧ validity.bitmap = bitmap := by
  obtain ⟨rows, nulls, bits, hchecked⟩ := validity
  rw [Validity.fromBitmap]
  constructor
  · intro h
    split at h
    · cases h
    · cases h
      exact ⟨rfl, rfl⟩
  · rintro ⟨rfl, rfl⟩
    split
    · next error herror =>
        rw [hchecked] at herror
        cases herror
    · next found hfound =>
        have hsame := hfound.symm.trans hchecked
        cases hsame
        rfl

/-- A bitmap is accepted exactly when its check passes. -/
theorem fromBitmap_isOk_iff {rowCount : UInt64} {bitmap : ByteBuffer} :
    (∃ validity, Validity.fromBitmap rowCount bitmap = .ok validity)
      ↔ ∃ nullCount, checkBitmap rowCount bitmap = .ok nullCount := by
  constructor
  · rintro ⟨validity, h⟩
    obtain ⟨rfl, rfl⟩ := fromBitmap_eq_ok.mp h
    exact ⟨validity.nullCount, validity.checked⟩
  · rintro ⟨nullCount, hchecked⟩
    exact ⟨⟨rowCount, nullCount, bitmap, hchecked⟩,
      fromBitmap_eq_ok.mpr ⟨rfl, rfl⟩⟩

/-- The set bits of a bitmap with clear padding are those of its rows. -/
theorem setBits_eq_rows {count : Nat} {bytes : List UInt8}
    (hlen : bytes.length = bitmapBytes count)
    (hclear : ∀ i, count ≤ i → bit bytes i = false) :
    setBits bytes = (readBits bytes count).count true := by
  obtain ⟨extra, hextra⟩ : ∃ extra, 8 * bytes.length = count + extra :=
    Nat.exists_eq_add_of_le (by rw [hlen, bitmapBytes]; omega)
  have htail : (((List.range extra).map (count + ·)).map (bit bytes)).count true
      = 0 := by
    refine List.count_eq_zero.mpr ?_
    intro hmem
    rw [List.map_map] at hmem
    obtain ⟨i, _, hi⟩ := List.mem_map.mp hmem
    rw [Function.comp_apply, hclear (count + i) (Nat.le_add_right count i)]
      at hi
    cases hi
  rw [setBits_eq, hextra, readBits, List.range_add, List.map_append,
    List.count_append, htail, Nat.add_zero]
  rfl

/-- **ADMITTED BITMAPS**: the right size and clear padding; the nulls are the
    rows that read false. -/
theorem checkBitmap_iff {rowCount nullCount : UInt64} {bitmap : ByteBuffer} :
    checkBitmap rowCount bitmap = .ok nullCount
      ↔ rowCount.toNat + 7 < 2 ^ 64
        ∧ bitmap.elems.length = bitmapBytes rowCount.toNat
        ∧ (∀ i, rowCount.toNat ≤ i → bit bitmap.elems i = false)
        ∧ nullCount.toNat
          = (readBits bitmap.elems rowCount.toNat).count false := by
  rw [checkBitmap_eq_ok, paddingZero_iff]
  refine and_congr_right fun _ => and_congr_right fun hlen =>
    and_congr_right fun hclear => ?_
  have hrows := setBits_eq_rows hlen hclear
  have htotal := List.count_true_add_count_false
    (readBits bitmap.elems rowCount.toNat)
  rw [readBits_length] at htotal
  omega

/-! ## Runs of the builder -/

/-- A call on a validity builder. -/
inductive ValidityCall where
  | append (valid : Bool)
  | finish

/-- The builder as a machine. -/
def validityStep :
    Step ValidityBuilder ValidityCall (Result (Option Validity)) :=
  fun builder call =>
    match call with
    | .append valid =>
        let (status, builder) := builder.append valid
        (status.map fun _ => none, builder)
    | .finish =>
        let (result, builder) := builder.finish
        (result.map some, builder)

/-- The rows a run offers, in order. -/
def appends (calls : List ValidityCall) : List Bool :=
  calls.filterMap fun call =>
    match call with
    | .append valid => some valid
    | .finish => none

/-- The builder took exactly these rows and holds their bits. -/
structure Records (builder : ValidityBuilder) (rows : List Bool) : Prop where
  fits : builder.rowCount.toNat + 7 < 2 ^ 64
  validSize : builder.validSize = true
  appended_eq : builder.appended.toNat = rows.length
  length_le : rows.length ≤ builder.rowCount.toNat
  bytes_length : builder.bytes.elems.length
    = bitmapBytes builder.rowCount.toNat
  bits : ∀ i, bit builder.bytes.elems i = rows.getD i false
  finished_full : builder.finished = true
    → rows.length = builder.rowCount.toNat

/-- A new builder records no rows. -/
theorem create_records {rowCount : UInt64}
    (h : rowCount.toNat + 7 < 2 ^ 64) :
    Records (ValidityBuilder.create rowCount) []
      ∧ (ValidityBuilder.create rowCount).rowCount = rowCount
      ∧ (ValidityBuilder.create rowCount).finished = false := by
  have hmax : (18446744073709551615 - 7 : UInt64).toNat = 2 ^ 64 - 8 := rfl
  have hle : rowCount ≤ 18446744073709551615 - 7 := by
    rw [le_toNat, hmax]
    omega
  rw [ValidityBuilder.create, if_pos hle]
  refine ⟨⟨h, rfl, rfl, Nat.zero_le _, ?_, ?_, ?_⟩, rfl, rfl⟩
  · exact List.length_replicate.trans
      (bitmapBytes_word (UInt64.not_lt.mpr hle))
  · intro i
    exact bit_replicate _ i
  · intro hfinished
    cases hfinished

/-- The next bit of a list. -/
private theorem getD_concat (rows : List Bool) (valid : Bool) (i : Nat) :
    (rows ++ [valid]).getD i false
      = (rows.getD i false || (valid && decide (i = rows.length))) := by
  rcases Nat.lt_trichotomy i rows.length with hlt | rfl | hgt
  · rw [List.getD_append _ _ _ _ hlt, decide_eq_false (Nat.ne_of_lt hlt),
      Bool.and_false, Bool.or_false]
  · rw [List.getD_append_right _ _ _ _ (Nat.le_refl _), Nat.sub_self,
      List.getD_eq_default rows false (Nat.le_refl _), decide_eq_true rfl,
      Bool.and_true, Bool.false_or]
    rfl
  · rw [List.getD_eq_default rows false (Nat.le_of_lt hgt),
      decide_eq_false (Nat.ne_of_gt hgt), Bool.and_false, Bool.or_false]
    refine List.getD_eq_default _ _ ?_
    rw [List.length_append]
    exact hgt

section Builder

variable {builder : ValidityBuilder} {rows : List Bool}

/-- **APPENDING** below the row count takes the row. -/
theorem append_open (h : Records builder rows)
    (hroom : rows.length < builder.rowCount.toNat) (valid : Bool) :
    (builder.append valid).1 = .ok ()
      ∧ Records (builder.append valid).2 (rows ++ [valid])
      ∧ (builder.append valid).2.rowCount = builder.rowCount
      ∧ (builder.append valid).2.finished = builder.finished := by
  obtain ⟨hfits, hsize, happended, hle, hbytes, hbits, hfull⟩ := h
  have hopen : builder.finished ≠ true := by
    intro hc
    exact Nat.ne_of_lt hroom (hfull hc)
  have hguard : ¬ (builder.finished = true
      ∨ builder.appended ≥ builder.rowCount) := by
    rintro (hc | hc)
    · exact hopen hc
    · rw [ge_iff_le, le_toNat, happended] at hc
      exact Nat.not_le.mpr hroom hc
  have hvalid : ¬ builder.validSize = false := by
    rw [hsize]
    exact Bool.noConfusion
  have hone : (1 : UInt64).toNat = 1 := rfl
  have hnext : (builder.appended + 1).toNat = rows.length + 1 := by
    rw [toNat_add_of_lt (by rw [hone]; omega), happended, hone]
  rw [ValidityBuilder.append, if_neg hguard, if_neg hvalid]
  refine ⟨rfl, ⟨hfits, hsize, ?_, ?_, ?_, ?_, ?_⟩, rfl, rfl⟩
  · rw [List.length_append]
    exact hnext
  · rw [List.length_append]
    exact hroom
  · dsimp only
    cases valid with
    | false => exact hbytes
    | true =>
        show (ValidityBuilder.markRow _ _).elems.length = _
        rw [markRow_elems, setBit_length]
        exact hbytes
  · intro i
    dsimp only
    rw [getD_concat, ← hbits]
    cases valid with
    | false =>
        rw [Bool.false_and, Bool.or_false]
        rfl
    | true =>
        -- the row count bounds the bitmap, so the marked byte exists
        have hin : builder.appended.toNat < 8 * builder.bytes.elems.length := by
          rw [hbytes, bitmapBytes, happended]
          omega
        show bit (ValidityBuilder.markRow _ _).elems i = _
        rw [markRow_elems, bit_setBit hin, happended, Bool.true_and]
  · intro hc
    exact (hopen hc).elim

/-- A full builder refuses a row and stays as it was. -/
theorem append_full (h : Records builder rows)
    (hfull : rows.length = builder.rowCount.toNat) (valid : Bool) :
    builder.append valid
      = (fail .invalidState .validateBlock
          "validity builder cannot accept another row", builder) := by
  have hguard : builder.finished = true
      ∨ builder.appended ≥ builder.rowCount := by
    right
    rw [ge_iff_le, le_toNat, h.appended_eq, hfull]
  rw [ValidityBuilder.append, if_pos hguard]

/-- A builder that misses rows does not finish and stays as it was. -/
theorem finish_early (h : Records builder rows)
    (hmissing : rows.length < builder.rowCount.toNat) :
    builder.finish
      = (fail .invalidState .validateBlock
          "validity builder is incomplete or already finished", builder) := by
  have hguard : builder.finished = true
      ∨ builder.appended ≠ builder.rowCount := by
    right
    intro hc
    rw [← hc, h.appended_eq] at hmissing
    exact Nat.lt_irrefl _ hmissing
  rw [ValidityBuilder.finish, if_pos hguard]

/-- The rows of a full builder are the bits of its bitmap. -/
theorem Records.readBits_eq (h : Records builder rows)
    (hfull : rows.length = builder.rowCount.toNat) :
    readBits builder.bytes.elems builder.rowCount.toNat = rows := by
  rw [readBits]
  apply List.ext_getElem
  · rw [List.length_map, List.length_range, hfull]
  · intro i _ hi
    rw [List.getElem_map, List.getElem_range, h.bits,
      List.getD_eq_getElem rows false hi]

/-- **FINISHING** a full builder gives the validity of its rows. -/
theorem finish_full (h : Records builder rows)
    (hfull : rows.length = builder.rowCount.toNat)
    (hopen : builder.finished = false) :
    ∃ validity, builder.finish.1 = .ok validity
      ∧ validity.rowCount = builder.rowCount
      ∧ validity.bitmap = builder.bytes
      ∧ validity.nullCount.toNat = rows.count false := by
  have hguard : ¬ (builder.finished = true
      ∨ builder.appended ≠ builder.rowCount) := by
    rintro (hc | hc)
    · rw [hopen] at hc
      cases hc
    · refine hc (UInt64.toNat_inj.mp ?_)
      rw [h.appended_eq, hfull]
  have hclear : ∀ i, builder.rowCount.toNat ≤ i
      → bit builder.bytes.elems i = false := by
    intro i hi
    rw [h.bits, List.getD_eq_default rows false (hfull ▸ hi)]
  have hcount : rows.count false < 2 ^ 64 := by
    have hle : rows.count false ≤ rows.length := List.count_le_length
    have hword := builder.rowCount.toNat_lt
    omega
  have hchecked : checkBitmap builder.rowCount builder.bytes
      = .ok (UInt64.ofNat (rows.count false)) := by
    refine checkBitmap_iff.mpr ⟨h.fits, h.bytes_length, hclear, ?_⟩
    rw [h.readBits_eq hfull]
    exact UInt64.toNat_ofNat_of_lt' hcount
  rw [ValidityBuilder.finish, if_neg hguard]
  exact ⟨⟨builder.rowCount, _, builder.bytes, hchecked⟩,
    fromBitmap_eq_ok.mpr ⟨rfl, rfl⟩, rfl, rfl,
    UInt64.toNat_ofNat_of_lt' hcount⟩

end Builder

/-- **STEP**: a call either takes the offered row or takes nothing. -/
theorem validityStep_records {builder : ValidityBuilder} {rows : List Bool}
    (h : Records builder rows) (call : ValidityCall) :
    Records (validityStep builder call).2
        ((rows ++ appends [call]).take builder.rowCount.toNat)
      ∧ (validityStep builder call).2.rowCount = builder.rowCount := by
  rcases Nat.lt_or_eq_of_le h.length_le with hroom | hfull
  · cases call with
    | append valid =>
        obtain ⟨_, hnext, hrows, _⟩ := append_open h hroom valid
        have htake : (rows ++ appends [.append valid]).take
            builder.rowCount.toNat = rows ++ [valid] := by
          refine List.take_of_length_le ?_
          show (rows ++ [valid]).length ≤ _
          rw [List.length_append]
          exact hroom
        rw [htake]
        exact ⟨hnext, hrows⟩
    | finish =>
        have hsame : (validityStep builder .finish).2 = builder :=
          congrArg Prod.snd (finish_early h hroom)
        have htake : (rows ++ appends [.finish]).take builder.rowCount.toNat
            = rows := by
          show (rows ++ []).take _ = rows
          rw [List.append_nil, List.take_of_length_le h.length_le]
        rw [hsame, htake]
        exact ⟨h, rfl⟩
  · have htake : (rows ++ appends [call]).take builder.rowCount.toNat
        = rows := by
      rw [← hfull, List.take_left]
    rw [htake]
    cases call with
    | append valid =>
        have hsame : (validityStep builder (.append valid)).2 = builder :=
          congrArg Prod.snd (append_full h hfull valid)
        rw [hsame]
        exact ⟨h, rfl⟩
    | finish =>
        show Records builder.finish.2 rows ∧ builder.finish.2.rowCount = _
        rw [ValidityBuilder.finish]
        split
        · exact ⟨h, rfl⟩
        · obtain ⟨hfits, hsize, happended, hle, hbytes, hbits, _⟩ := h
          exact ⟨⟨hfits, hsize, happended, hle, hbytes, hbits,
            fun _ => hfull⟩, rfl⟩

/-- **RUNS**: after any calls the builder holds the rows offered so far, as
    many as it takes. -/
theorem run_records {rowCount : UInt64} (h : rowCount.toNat + 7 < 2 ^ 64)
    (calls : List ValidityCall) :
    Records (finalState validityStep (ValidityBuilder.create rowCount) calls)
        ((appends calls).take rowCount.toNat)
      ∧ (finalState validityStep (ValidityBuilder.create rowCount)
          calls).rowCount = rowCount := by
  induction calls using List.reverseRecOn with
  | nil =>
      obtain ⟨hfresh, hrows, _⟩ := create_records h
      have hnone : (appends []).take rowCount.toNat = [] := List.take_nil
      rw [hnone]
      exact ⟨hfresh, hrows⟩
  | append_singleton calls call ih =>
      obtain ⟨hrecords, hrows⟩ := ih
      obtain ⟨hnext, hsame⟩ := validityStep_records hrecords call
      have htake : (((appends calls).take rowCount.toNat ++ appends [call]).take
          rowCount.toNat)
            = (appends (calls ++ [call])).take rowCount.toNat := by
        have hlen : rowCount.toNat - min rowCount.toNat (appends calls).length
            = rowCount.toNat - (appends calls).length := by omega
        have hsplit : appends (calls ++ [call])
            = appends calls ++ appends [call] := List.filterMap_append
        rw [hsplit, List.take_append, List.take_append, List.take_take,
          Nat.min_self, List.length_take, hlen]
      rw [finalState_concat]
      rw [hrows, htake] at hnext
      exact ⟨hnext, hsame.trans hrows⟩

/-! ## Feeding a list of rows -/

/-- A fresh builder after the rows were appended in order. -/
def fed (rowCount : UInt64) (rows : List Bool) : ValidityBuilder :=
  finalState validityStep (ValidityBuilder.create rowCount)
    (rows.map .append)

/-- The rows of a run of appends. -/
theorem appends_map (rows : List Bool) :
    appends (rows.map .append) = rows := by
  rw [appends, List.filterMap_map]
  exact List.filterMap_some

/-- No append is refused while there is room. -/
theorem fed_open {rowCount : UInt64} (h : rowCount.toNat + 7 < 2 ^ 64)
    {rows : List Bool} (hlen : rows.length ≤ rowCount.toNat) :
    (∀ reply ∈ outputs validityStep (ValidityBuilder.create rowCount)
        (rows.map .append), reply = .ok none)
      ∧ (fed rowCount rows).finished = false := by
  rw [fed]
  induction rows using List.reverseRecOn with
  | nil =>
      refine ⟨?_, (create_records h).2.2⟩
      intro reply hmem
      cases hmem
  | append_singleton rows valid ih =>
      rw [List.length_append] at hlen
      obtain ⟨hreplies, hopen⟩ := ih (Nat.le_of_succ_le hlen)
      obtain ⟨hrecords, hrows⟩ := run_records h (rows.map .append)
      rw [appends_map, List.take_of_length_le (Nat.le_of_succ_le hlen)]
        at hrecords
      have hroom : rows.length < (finalState validityStep
          (ValidityBuilder.create rowCount)
          (rows.map .append)).rowCount.toNat := by
        rw [hrows]
        exact hlen
      obtain ⟨hok, _, _, hfinished⟩ := append_open hrecords hroom valid
      have hreply : (validityStep (finalState validityStep
          (ValidityBuilder.create rowCount) (rows.map .append))
          (.append valid)).1 = .ok none := by
        show Except.map _ (ValidityBuilder.append _ valid).1 = _
        rw [hok]
        rfl
      rw [List.map_append, List.map_singleton, outputs_concat,
        finalState_concat]
      refine ⟨?_, hfinished.trans hopen⟩
      intro reply hmem
      rcases List.mem_append.mp hmem with hbefore | hlast
      · exact hreplies reply hbefore
      · rw [List.mem_singleton.mp hlast]
        exact hreply

/-- A fed builder holds its rows. -/
theorem fed_records {rowCount : UInt64} (h : rowCount.toNat + 7 < 2 ^ 64)
    {rows : List Bool} (hlen : rows.length ≤ rowCount.toNat) :
    Records (fed rowCount rows) rows
      ∧ (fed rowCount rows).rowCount = rowCount := by
  have hrun := run_records h (rows.map .append)
  rw [appends_map, List.take_of_length_le hlen] at hrun
  exact hrun

/-- A builder whose bitmap size overflows: it has taken no row. -/
structure Oversized (builder : ValidityBuilder) : Prop where
  overflows : ¬ builder.rowCount.toNat + 7 < 2 ^ 64
  validSize : builder.validSize = false
  appended_eq : builder.appended = 0

/-- A builder for too many rows is oversized. -/
theorem create_oversized {rowCount : UInt64}
    (h : ¬ rowCount.toNat + 7 < 2 ^ 64) :
    Oversized (ValidityBuilder.create rowCount) := by
  have hmax : (18446744073709551615 - 7 : UInt64).toNat = 2 ^ 64 - 8 := rfl
  have hgt : ¬ rowCount ≤ 18446744073709551615 - 7 := by
    rw [le_toNat, hmax]
    omega
  rw [ValidityBuilder.create, if_neg hgt]
  exact ⟨h, rfl, rfl⟩

/-- It never finishes. -/
theorem Oversized.finish_eq {builder : ValidityBuilder}
    (h : Oversized builder) :
    builder.finish
      = (fail .invalidState .validateBlock
          "validity builder is incomplete or already finished", builder) := by
  have hguard : builder.finished = true
      ∨ builder.appended ≠ builder.rowCount := by
    right
    intro hc
    have hover := h.overflows
    rw [← hc, h.appended_eq] at hover
    exact hover (by decide)
  rw [ValidityBuilder.finish, if_pos hguard]

/-- It takes no call at all. -/
theorem Oversized.step {builder : ValidityBuilder} (h : Oversized builder)
    (call : ValidityCall) : Oversized (validityStep builder call).2 := by
  cases call with
  | append valid =>
      show Oversized (builder.append valid).2
      rw [ValidityBuilder.append]
      split
      · exact h
      · rw [if_pos h.validSize]
        exact h
  | finish =>
      show Oversized builder.finish.2
      rw [h.finish_eq]
      exact h

/-! ## The bijection -/

/-- The bitmap a fresh builder produces for the rows. -/
def Produces (rowCount : UInt64) (rows : List Bool) (bitmap : ByteBuffer) :
    Prop :=
  rows.length = rowCount.toNat
    ∧ ∃ validity, (fed rowCount rows).finish.1 = .ok validity
      ∧ validity.bitmap = bitmap

/-- What is produced has a row count that fits. -/
theorem Produces.fits {rowCount : UInt64} {rows : List Bool}
    {bitmap : ByteBuffer} (h : Produces rowCount rows bitmap) :
    rowCount.toNat + 7 < 2 ^ 64 := by
  obtain ⟨_, validity, hok, _⟩ := h
  by_contra hover
  have hstep : ∀ builder call, Oversized builder
      → Oversized (validityStep builder call).2 :=
    fun _ call hs => hs.step call
  have hrun : Oversized (fed rowCount rows) :=
    finalState_invariant hstep (create_oversized hover)
      (rows.map ValidityCall.append)
  rw [hrun.finish_eq] at hok
  cases hok

/-- **BUILDING**: the validity of a full list of rows. -/
theorem finish_fed {rowCount : UInt64} (h : rowCount.toNat + 7 < 2 ^ 64)
    {rows : List Bool} (hlen : rows.length = rowCount.toNat) :
    ∃ validity, (fed rowCount rows).finish.1 = .ok validity
      ∧ validity.rowCount = rowCount
      ∧ readBits validity.bitmap.elems rowCount.toNat = rows
      ∧ validity.nullCount.toNat = rows.count false := by
  obtain ⟨hrecords, hrows⟩ := fed_records h (Nat.le_of_eq hlen)
  obtain ⟨_, hopen⟩ := fed_open h (Nat.le_of_eq hlen)
  have hfull : rows.length = (fed rowCount rows).rowCount.toNat := by
    rw [hrows, hlen]
  obtain ⟨validity, hok, hcount, hbitmap, hnulls⟩ :=
    finish_full hrecords hfull hopen
  refine ⟨validity, hok, hcount.trans hrows, ?_, hnulls⟩
  have hread := hrecords.readBits_eq hfull
  rw [hrows] at hread
  rw [hbitmap]
  exact hread

/-- Rows are what their bitmap reads as. -/
theorem Produces.readBits_eq {rowCount : UInt64} {rows : List Bool}
    {bitmap : ByteBuffer} (h : Produces rowCount rows bitmap) :
    readBits bitmap.elems rowCount.toNat = rows := by
  obtain ⟨hlen, validity, hok, rfl⟩ := id h
  obtain ⟨validity', hok', _, hread, _⟩ := finish_fed h.fits hlen
  rw [hok] at hok'
  cases hok'
  exact hread

/-- **READING BACK**: an admitted bitmap is the one of the rows it reads
    as. -/
theorem produces_readBits {rowCount nullCount : UInt64} {bitmap : ByteBuffer}
    (h : checkBitmap rowCount bitmap = .ok nullCount) :
    Produces rowCount (readBits bitmap.elems rowCount.toNat) bitmap := by
  obtain ⟨hfits, hbytes, hclear, _⟩ := checkBitmap_iff.mp h
  have hlen : (readBits bitmap.elems rowCount.toNat).length
      = rowCount.toNat := readBits_length _ _
  obtain ⟨validity, hok, hcount, hread, _⟩ := finish_fed hfits hlen
  refine ⟨hlen, validity, hok, ?_⟩
  obtain ⟨_, hbytes', hclear', _⟩ := checkBitmap_iff.mp validity.checked
  rw [hcount] at hbytes' hclear'
  apply Buffer.ext
  refine ext_bits (hbytes'.trans hbytes.symm) ?_
  intro i _
  rcases Nat.lt_or_ge i rowCount.toNat with hin | hout
  · -- both bitmaps read as the same rows
    have hrow := congrArg (fun bits => bits[i]?) hread
    simp only [readBits, List.getElem?_map, List.getElem?_range hin,
      Option.map_some, Option.some.injEq] at hrow
    exact hrow
  · rw [hclear i hout, hclear' i hout]

/-- A bitmap is accepted exactly when one list of rows produces it. -/
theorem fromBitmap_isOk_produces {rowCount : UInt64} {bitmap : ByteBuffer} :
    (∃ validity, Validity.fromBitmap rowCount bitmap = .ok validity)
      ↔ ∃! rows, Produces rowCount rows bitmap := by
  rw [fromBitmap_isOk_iff]
  constructor
  · rintro ⟨nullCount, hchecked⟩
    refine ⟨_, produces_readBits hchecked, ?_⟩
    intro rows hrows
    exact hrows.readBits_eq.symm
  · rintro ⟨rows, hrows, _⟩
    obtain ⟨_, validity, hok, rfl⟩ := id hrows
    obtain ⟨validity', hok', hcount, _, _⟩ := finish_fed hrows.fits hrows.1
    rw [hok] at hok'
    cases hok'
    exact ⟨validity.nullCount, hcount ▸ validity.checked⟩

/-- Reading a row of a validity whose bitmap reads as the rows. -/
theorem isValid_of_readBits {validity : Validity} {rows : List Bool}
    (hread : readBits validity.bitmap.elems validity.rowCount.toNat = rows)
    (row : UInt64) : validity.isValid row = rows.getD row.toNat false := by
  have hlen := congrArg List.length hread
  rw [readBits_length] at hlen
  rw [isValid_eq]
  rcases Nat.lt_or_ge row.toNat validity.rowCount.toNat with hin | hout
  · rw [decide_eq_true hin, Bool.true_and, ← hread, List.getD_eq_getElem?_getD,
      readBits, List.getElem?_map, List.getElem?_range hin]
    rfl
  · rw [decide_eq_false (Nat.not_lt.mpr hout), Bool.false_and,
      List.getD_eq_default rows false (hlen ▸ hout)]

/-- The set bits of an admitted bitmap, as the source adds them up. -/
theorem popcount_no_underflow (validity : Validity) :
    validity.nullCount.toNat
        + (validity.bitmap.elems.foldl
            (fun count value => count + UInt64.ofNat (popcount value))
            0).toNat
      = validity.rowCount.toNat := by
  obtain ⟨_, _, _, htotal⟩ := checkBitmap_eq_ok.mp validity.checked
  have hzero : (0 : UInt64).toNat = 0 := rfl
  have hword := validity.rowCount.toNat_lt
  have hcount := @count_toNat validity.bitmap.elems 0 (by omega)
  rw [hcount, hzero, Nat.zero_add]
  exact htotal

/-- **BITMAPS ARE LISTS OF BOOLEANS**: the builder gives every list its
    validity, refuses rows past the count and early finishes, and produces
    exactly the bitmaps `from_bitmap` admits, each for one list. -/
theorem validity_bitmaps :
    (∀ (rowCount : UInt64) (rows : List Bool),
      rowCount.toNat ≤ 2 ^ 64 - 8 → rows.length = rowCount.toNat →
      (∀ reply ∈ outputs validityStep (ValidityBuilder.create rowCount)
          (rows.map .append), reply = .ok none)
      ∧ ∃ validity, (fed rowCount rows).finish.1 = .ok validity
        ∧ validity.rowCount = rowCount
        ∧ (∀ row : UInt64, (h : row.toNat < rows.length) →
            validity.isValid row = rows[row.toNat])
        ∧ (∀ row, rowCount ≤ row → validity.isValid row = false)
        ∧ validity.nullCount.toNat = rows.count false)
    ∧ (∀ (rowCount : UInt64) (calls : List ValidityCall),
      rowCount.toNat ≤ 2 ^ 64 - 8 →
      let builder :=
        finalState validityStep (ValidityBuilder.create rowCount) calls
      (∀ i, bit builder.bytes.elems i
          = ((appends calls).take rowCount.toNat).getD i false)
      ∧ (rowCount.toNat ≤ (appends calls).length → ∀ valid,
          codeOf (builder.append valid).1 = some .invalidState
          ∧ (builder.append valid).2 = builder)
      ∧ ((appends calls).length < rowCount.toNat →
          codeOf builder.finish.1 = some .invalidState
          ∧ builder.finish.2 = builder))
    ∧ (∀ (rowCount : UInt64) (bitmap : ByteBuffer),
      ((∃ validity, Validity.fromBitmap rowCount bitmap = .ok validity)
        ↔ ∃! rows, Produces rowCount rows bitmap)
      ∧ ∀ validity rows, Validity.fromBitmap rowCount bitmap = .ok validity →
        Produces rowCount rows bitmap →
        ∀ row : UInt64, validity.isValid row = rows.getD row.toNat false)
    ∧ ∀ validity : Validity,
      validity.nullCount.toNat
          + (validity.bitmap.elems.foldl
              (fun count value => count + UInt64.ofNat (popcount value))
              0).toNat
        = validity.rowCount.toNat := by
  refine ⟨?_, ?_, ?_, popcount_no_underflow⟩
  · intro rowCount rows hsmall hlen
    have hfits : rowCount.toNat + 7 < 2 ^ 64 := by omega
    obtain ⟨hreplies, _⟩ := fed_open hfits (Nat.le_of_eq hlen)
    obtain ⟨validity, hok, hcount, hread, hnulls⟩ := finish_fed hfits hlen
    rw [← hcount] at hread
    have hrow := isValid_of_readBits hread
    refine ⟨hreplies, validity, hok, hcount, ?_, ?_, hnulls⟩
    · intro row hin
      rw [hrow, List.getD_eq_getElem rows false hin]
    · intro row hout
      rw [le_toNat, ← hlen] at hout
      rw [hrow, List.getD_eq_default rows false hout]
  · intro rowCount calls hsmall builder
    have hfits : rowCount.toNat + 7 < 2 ^ 64 := by omega
    obtain ⟨hrecords, hrows⟩ := run_records hfits calls
    refine ⟨hrecords.bits, ?_, ?_⟩
    · intro hfull valid
      have hlen : ((appends calls).take rowCount.toNat).length
          = builder.rowCount.toNat := by
        rw [List.length_take_of_le hfull, hrows]
      rw [append_full hrecords hlen valid]
      exact ⟨rfl, rfl⟩
    · intro hmissing
      have hlen : ((appends calls).take rowCount.toNat).length
          < builder.rowCount.toNat := by
        rw [List.take_of_length_le (Nat.le_of_lt hmissing), hrows]
        exact hmissing
      rw [finish_early hrecords hlen]
      exact ⟨rfl, rfl⟩
  · intro rowCount bitmap
    refine ⟨fromBitmap_isOk_produces, ?_⟩
    intro validity rows hok hrows row
    obtain ⟨rfl, rfl⟩ := fromBitmap_eq_ok.mp hok
    exact isValid_of_readBits hrows.readBits_eq row

end ShiboriValidity
