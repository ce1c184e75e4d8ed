import Mathlib
import ShiboriEngine.Library.Words
import ShiboriEngine.Library.Spans
import ShiboriEngine.Resource
import ShiboriEngine.Column

/-! # Bitmaps of a column

    The padding test looks at the last byte only; on a bitmap of the right size
    it says that every bit past the count is zero.  A checked validity bitmap
    has no more set bits than rows, so its null count is a real difference. -/

namespace ShiboriColumnFacts

open ShiboriError ShiboriBuffer ShiboriColumn Words

/-- The bytes a bitmap of `count` bits takes. -/
def bitmapBytes (count : Nat) : Nat := (count + 7) / 8

/-- Every bit from `count` on is zero. -/
def PaddingZero (count : Nat) (bytes : List UInt8) : Prop :=
  ∀ (bit : Nat) (hbit : bit / 8 < bytes.length), count ≤ bit →
    bytes[bit / 8].toNat.testBit (bit % 8) = false

/-- The size of a bitmap fits the word. -/
theorem bitmapBytes_word {count : UInt64}
    (h : ¬ count > 18446744073709551615 - 7) :
    ((count + 7) / 8).toNat = bitmapBytes count.toNat := by
  rw [gt_iff_lt, lt_toNat] at h
  have hmax : (18446744073709551615 - 7 : UInt64).toNat = 2 ^ 64 - 8 := rfl
  have hseven : (7 : UInt64).toNat = 7 := rfl
  rw [UInt64.toNat_div, toNat_add_of_lt (by omega)]
  rfl

/-- The mask clears exactly the bits below the count. -/
private theorem mask_clear (b : UInt8) (used : Fin 8) :
    b &&& (0xff <<< UInt8.ofNat used.val) = 0
      ↔ ∀ bit : Fin 8, used ≤ bit → b.toNat.testBit bit.val = false := by
  revert b used
  decide +kernel

private theorem mask_eq (count : UInt64) :
    paddingMask count = 0xff <<< UInt8.ofNat (count.toNat % 8) := by
  have hword : (count % 8).toUInt8 = UInt8.ofNat (count.toNat % 8) := by
    apply UInt8.toNat_inj.mp
    rw [UInt64.toNat_toUInt8, UInt64.toNat_mod, UInt8.toNat_ofNat']
    rfl
  rw [paddingMask, hword]

/-- **PADDING**: the test on the last byte looks at every padding bit. -/
theorem padding_iff {count : UInt64} {bytes : List UInt8}
    (hlen : bytes.length = bitmapBytes count.toNat) :
    ¬ (count % 8 ≠ 0
        ∧ ∃ back ∈ bytes.getLast?, back &&& paddingMask count ≠ 0)
      ↔ PaddingZero count.toNat bytes := by
  rw [bitmapBytes] at hlen
  have hrem : count % 8 = 0 ↔ count.toNat % 8 = 0 := by
    rw [← UInt64.toNat_inj, UInt64.toNat_mod]
    exact Iff.rfl
  -- A count that fills whole bytes leaves no padding at all.
  by_cases hzero : count.toNat % 8 = 0
  · constructor
    · intro _ bit hbit hle
      omega
    · rintro _ ⟨hne, _⟩
      exact hne (hrem.mpr hzero)
  have hback : count.toNat / 8 < bytes.length := by omega
  have hlast : bytes.getLast? = some bytes[count.toNat / 8] := by
    rw [List.getLast?_eq_getElem?, List.getElem?_eq_getElem (by omega)]
    simp only [show bytes.length - 1 = count.toNat / 8 by omega]
  have hmask := mask_clear bytes[count.toNat / 8]
    ⟨count.toNat % 8, Nat.mod_lt _ (by decide)⟩
  rw [mask_eq, hlast]
  constructor
  · intro h bit hbit hle
    have hclear := hmask.mp (by
      by_contra hne
      exact h ⟨fun h0 => hzero (hrem.mp h0), _, rfl, hne⟩)
    -- a padding bit within the bitmap can only lie in the last byte
    have hbyte : bit / 8 = count.toNat / 8 := by omega
    simp only [hbyte]
    refine hclear ⟨bit % 8, Nat.mod_lt _ (by decide)⟩ ?_
    rw [Fin.le_def]
    show count.toNat % 8 ≤ bit % 8
    omega
  · rintro h ⟨_, back, hmem, hne⟩
    cases hmem
    refine hne (hmask.mpr ?_)
    intro bit hle
    rw [Fin.le_def] at hle
    dsimp only at hle
    have hlt := bit.isLt
    have hspec := h (count.toNat / 8 * 8 + bit.val) (by omega) (by omega)
    have hbyte : (count.toNat / 8 * 8 + bit.val) / 8 = count.toNat / 8 := by
      omega
    have hrest : (count.toNat / 8 * 8 + bit.val) % 8 = bit.val := by omega
    simp only [hbyte, hrest] at hspec
    exact hspec

/-! ## Counting set bits -/

/-- The bits set in the bytes. -/
def setBits (bytes : List UInt8) : Nat := (bytes.map popcount).sum

/-- A byte has eight bits. -/
theorem popcount_le (b : UInt8) : popcount b ≤ 8 :=
  List.countP_le_length

/-- Fewer bits are set in a byte whose upper bits are zero. -/
private theorem popcount_le_used (b : UInt8) (used : Fin 8) :
    b &&& (0xff <<< UInt8.ofNat used.val) = 0 → popcount b ≤ used.val := by
  revert b used
  decide +kernel

/-- `n` bytes have `8 * n` bits. -/
theorem setBits_le (bytes : List UInt8) : setBits bytes ≤ 8 * bytes.length := by
  induction bytes with
  | nil => exact Nat.le_refl 0
  | cons b bytes ih =>
      have hb := popcount_le b
      rw [setBits, List.map_cons, List.sum_cons, List.length_cons]
      rw [setBits] at ih
      omega

/-- A bitmap with clear padding has no more set bits than rows. -/
theorem setBits_le_count {count : UInt64} {bytes : List UInt8}
    (hlen : bytes.length = bitmapBytes count.toNat)
    (hpadding : PaddingZero count.toNat bytes) :
    setBits bytes ≤ count.toNat := by
  have hlen' := hlen
  rw [bitmapBytes] at hlen
  by_cases hzero : count.toNat % 8 = 0
  · have hle := setBits_le bytes
    omega
  have hclear := padding_iff hlen' |>.mpr hpadding
  have hne : bytes ≠ [] := by
    intro hnil
    rw [hnil, List.length_nil] at hlen
    omega
  have hrem : count % 8 ≠ 0 := by
    intro h
    apply hzero
    rw [← UInt64.toNat_inj, UInt64.toNat_mod] at h
    exact h
  have hback : bytes.getLast hne &&& paddingMask count = 0 := by
    by_contra hset
    exact hclear ⟨hrem, _, List.getLast?_eq_some_getLast hne, hset⟩
  rw [mask_eq] at hback
  have hlast := popcount_le_used (bytes.getLast hne)
    ⟨count.toNat % 8, Nat.mod_lt _ (by decide)⟩ hback
  -- All bytes but the last hold eight rows each, the last one the rest.
  have hsplit : setBits bytes
      = setBits bytes.dropLast + popcount (bytes.getLast hne) := by
    conv_lhs => rw [← List.dropLast_append_getLast hne]
    rw [setBits, List.map_append, List.sum_append]
    rfl
  have hfront := setBits_le bytes.dropLast
  rw [List.length_dropLast] at hfront
  dsimp only at hlast
  omega

/-- The word that counts valid rows does not wrap. -/
theorem count_toNat {bytes : List UInt8} {start : UInt64}
    (hfit : start.toNat + setBits bytes < 2 ^ 64) :
    (bytes.foldl (fun count value => count + UInt64.ofNat (popcount value))
      start).toNat = start.toNat + setBits bytes := by
  induction bytes generalizing start with
  | nil => rfl
  | cons b bytes ih =>
      rw [setBits, List.map_cons, List.sum_cons] at hfit
      have hword : (UInt64.ofNat (popcount b)).toNat = popcount b :=
        UInt64.toNat_ofNat_of_lt' (by rw [UInt64.size]; omega)
      have hnext : (start + UInt64.ofNat (popcount b)).toNat
          = start.toNat + popcount b := by
        rw [toNat_add_of_lt (by omega), hword]
      rw [List.foldl_cons, ih (by rw [hnext, setBits]; omega), hnext, setBits,
        setBits, List.map_cons, List.sum_cons, Nat.add_assoc]

/-- **VALIDITY**: a checked bitmap has the size its rows need, clear padding
    and no more nulls than rows. -/
theorem checkBitmap_eq_ok {rowCount nullCount : UInt64} {bitmap : ByteBuffer} :
    checkBitmap rowCount bitmap = .ok nullCount
      ↔ rowCount.toNat + 7 < 2 ^ 64
        ∧ bitmap.elems.length = bitmapBytes rowCount.toNat
        ∧ PaddingZero rowCount.toNat bitmap.elems
        ∧ nullCount.toNat + setBits bitmap.elems = rowCount.toNat := by
  rw [checkBitmap]
  have hmax : (18446744073709551615 - 7 : UInt64).toNat = 2 ^ 64 - 8 := rfl
  by_cases hbig : rowCount > 18446744073709551615 - 7
  · rw [if_pos hbig]
    rw [gt_iff_lt, lt_toNat] at hbig
    constructor
    · intro h
      exact (fail_ne_ok _ _ _ _ h).elim
    · rintro ⟨hfit, _⟩
      omega
  have hbytes := bitmapBytes_word hbig
  rw [if_neg hbig]
  rw [gt_iff_lt, lt_toNat] at hbig
  have hsize : bitmap.size = (rowCount + 7) / 8
      ↔ bitmap.elems.length = bitmapBytes rowCount.toNat := by
    rw [← UInt64.toNat_inj, Buffer.size_toNat, hbytes]
  by_cases hlen : bitmap.size ≠ (rowCount + 7) / 8
  · rw [if_pos hlen]
    constructor
    · intro h
      exact (fail_ne_ok _ _ _ _ h).elim
    · rintro ⟨_, heq, _⟩
      exact (hlen (hsize.mpr heq)).elim
  rw [if_neg hlen]
  have hlen := hsize.mp (not_not.mp hlen)
  have hpadding := padding_iff hlen
  by_cases hset : rowCount % 8 ≠ 0
      ∧ ∃ back ∈ bitmap.elems.getLast?, back &&& paddingMask rowCount ≠ 0
  · rw [if_pos hset]
    constructor
    · intro h
      exact (fail_ne_ok _ _ _ _ h).elim
    · rintro ⟨_, _, hclear, _⟩
      exact (hpadding.mpr hclear hset).elim
  rw [if_neg hset]
  have hclear := hpadding.mp hset
  have hle := setBits_le_count hlen hclear
  have hword := rowCount.toNat_lt
  have hzero : (0 : UInt64).toNat = 0 := rfl
  -- At most one set bit a row, so the count is exact and the difference too.
  have hcount := @count_toNat bitmap.elems 0 (by omega)
  rw [hzero, Nat.zero_add] at hcount
  have hsub := UInt64.toNat_sub_of_le rowCount (bitmap.elems.foldl
    (fun count value => count + UInt64.ofNat (popcount value)) 0)
    (by rw [le_toNat, hcount]; exact hle)
  constructor
  · intro h
    cases h
    exact ⟨by omega, hlen, hclear, by omega⟩
  · rintro ⟨_, _, _, hnull⟩
    refine congrArg Except.ok (UInt64.toNat_inj.mp ?_)
    omega

/-- No column has more nulls than rows. -/
theorem nullCount_le (column : Column) :
    column.nullCount ≤ column.rowCount := by
  rw [Column.nullCount]
  cases hvalidity : column.validity with
  | none =>
      rw [le_toNat]
      exact Nat.zero_le _
  | some validity =>
      have hrows := column.validity_rows validity hvalidity
      obtain ⟨_, _, _, hcount⟩ := checkBitmap_eq_ok.mp validity.checked
      rw [le_toNat, ← hrows]
      dsimp only
      omega

end ShiboriColumnFacts
