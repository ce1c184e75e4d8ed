import Mathlib

/-! # Bitmaps — bits packed eight to a byte

    Bit `i` of a byte string lies in byte `i / 8`, the least significant bit
    first.  A byte string is determined by its length and its bits
    (`ext_bits`), setting a bit changes that bit only (`bit_setBit`), and the
    set bits of all bytes are the set bits of the string (`sum_ones`). -/

namespace Bitmap

/-- Bit `i`; zero past the end. -/
def bit (bytes : List UInt8) (i : Nat) : Bool :=
  (bytes.getD (i / 8) 0).toNat.testBit (i % 8)

/-- The bytes with one bit set. -/
def setBit (bytes : List UInt8) (i : Nat) : List UInt8 :=
  bytes.modify (i / 8) fun byte => byte ||| (1 <<< UInt8.ofNat (i % 8))

/-- The first `n` bits. -/
def readBits (bytes : List UInt8) (n : Nat) : List Bool :=
  (List.range n).map (bit bytes)

/-- Setting a bit keeps the length. -/
@[simp] theorem setBit_length (bytes : List UInt8) (i : Nat) :
    (setBit bytes i).length = bytes.length :=
  List.length_modify _ _ _

/-- As many bits as were asked for. -/
@[simp] theorem readBits_length (bytes : List UInt8) (n : Nat) :
    (readBits bytes n).length = n := by
  rw [readBits, List.length_map, List.length_range]

/-! ## Single bits -/

/-- Zero bytes have no bit set. -/
@[simp] theorem bit_replicate (n i : Nat) :
    bit (List.replicate n 0) i = false := by
  have hbyte : (List.replicate n (0 : UInt8)).getD (i / 8) 0 = 0 := by
    rw [List.getD_eq_getElem?_getD, List.getElem?_replicate]
    split <;> rfl
  rw [bit, hbyte]
  exact Nat.zero_testBit _

/-- Bits after the end are not set. -/
theorem bit_of_length_le {bytes : List UInt8} {i : Nat}
    (h : 8 * bytes.length ≤ i) : bit bytes i = false := by
  have hbyte : bytes.getD (i / 8) 0 = 0 :=
    List.getD_eq_default bytes 0 (by omega)
  rw [bit, hbyte]
  exact Nat.zero_testBit _

/-- A shifted one has a single bit. -/
private theorem one_shift_testBit (used : Fin 8) (i : Fin 8) :
    ((1 : UInt8) <<< UInt8.ofNat used.val).toNat.testBit i.val
      = decide (i = used) := by
  revert used i
  decide +kernel

/-- **ONE BIT** is set and no other changes. -/
theorem bit_setBit {bytes : List UInt8} {i : Nat}
    (h : i < 8 * bytes.length) (j : Nat) :
    bit (setBit bytes i) j = (bit bytes j || decide (j = i)) := by
  have hbyte : i / 8 < bytes.length := by omega
  by_cases hsame : j / 8 = i / 8
  · have hread : (setBit bytes i).getD (j / 8) 0
        = bytes.getD (j / 8) 0 ||| (1 <<< UInt8.ofNat (i % 8)) := by
      rw [hsame, setBit, List.getD_eq_getElem?_getD,
        List.getElem?_modify_eq, List.getD_eq_getElem?_getD,
        List.getElem?_eq_getElem hbyte]
      rfl
    have hmask := one_shift_testBit ⟨i % 8, Nat.mod_lt _ (by decide)⟩
      ⟨j % 8, Nat.mod_lt _ (by decide)⟩
    have hpos : (⟨j % 8, Nat.mod_lt _ (by decide)⟩ : Fin 8)
        = ⟨i % 8, Nat.mod_lt _ (by decide)⟩ ↔ j = i := by
      rw [Fin.mk.injEq]
      omega
    rw [bit, hread, UInt8.toNat_or, Nat.testBit_or, hmask]
    exact congrArg (bit bytes j || ·) (decide_eq_decide.mpr hpos)
  · have hread : (setBit bytes i).getD (j / 8) 0 = bytes.getD (j / 8) 0 := by
      rw [setBit, List.getD_eq_getElem?_getD,
        List.getElem?_modify_ne _ _ (Ne.symm hsame),
        List.getD_eq_getElem?_getD]
    have hne : j ≠ i := by
      rintro rfl
      exact hsame rfl
    rw [bit, hread, decide_eq_false hne, Bool.or_false]
    rfl

/-- **EXTENSIONALITY**: the length and the bits determine the bytes. -/
theorem ext_bits {xs ys : List UInt8} (hlen : xs.length = ys.length)
    (h : ∀ i, i < 8 * xs.length → bit xs i = bit ys i) : xs = ys := by
  apply List.ext_getElem hlen
  intro k hx hy
  apply UInt8.toNat_inj.mp
  apply Nat.eq_of_testBit_eq
  intro b
  by_cases hb : b < 8
  · have hbits := h (8 * k + b) (by omega)
    have hdiv : (8 * k + b) / 8 = k := by omega
    have hmod : (8 * k + b) % 8 = b := by omega
    rw [bit, bit, hdiv, hmod, List.getD_eq_getElem xs 0 hx,
      List.getD_eq_getElem ys 0 hy] at hbits
    exact hbits
  · have hpow : 2 ^ 8 ≤ 2 ^ b := Nat.pow_le_pow_right (by decide) (by omega)
    rw [Nat.testBit_lt_two_pow (Nat.lt_of_lt_of_le xs[k].toNat_lt hpow),
      Nat.testBit_lt_two_pow (Nat.lt_of_lt_of_le ys[k].toNat_lt hpow)]

/-! ## Counting -/

/-- The set bits of one byte. -/
def ones (byte : UInt8) : Nat := (List.range 8).countP byte.toNat.testBit

private theorem bit_cons_lt {byte : UInt8} {bytes : List UInt8} {i : Nat}
    (h : i < 8) : bit (byte :: bytes) i = byte.toNat.testBit i := by
  rw [bit, Nat.div_eq_of_lt h, Nat.mod_eq_of_lt h]
  rfl

private theorem bit_cons_add (byte : UInt8) (bytes : List UInt8) (i : Nat) :
    bit (byte :: bytes) (8 + i) = bit bytes i := by
  have hdiv : (8 + i) / 8 = i / 8 + 1 := by omega
  have hmod : (8 + i) % 8 = i % 8 := by omega
  rw [bit, hdiv, hmod]
  rfl

/-- **THE SET BITS** of the bytes are the set bits of the string. -/
theorem sum_ones (bytes : List UInt8) :
    (bytes.map ones).sum = (readBits bytes (8 * bytes.length)).count true := by
  induction bytes with
  | nil => rfl
  | cons byte bytes ih =>
      have hlen : 8 * (byte :: bytes).length = 8 + 8 * bytes.length := by
        rw [List.length_cons]
        omega
      have hhead : ((List.range 8).map (bit (byte :: bytes))).count true
          = ones byte := by
        rw [List.count, List.countP_map]
        refine List.countP_congr ?_
        intro i hi
        rw [Function.comp_apply, bit_cons_lt (List.mem_range.mp hi),
          beq_true]
      have htail : (((List.range (8 * bytes.length)).map (8 + ·)).map
          (bit (byte :: bytes))).count true
            = (readBits bytes (8 * bytes.length)).count true := by
        rw [List.map_map, readBits]
        refine congrArg (List.count true) (List.map_congr_left ?_)
        intro i _
        exact bit_cons_add byte bytes i
      have hsplit : readBits (byte :: bytes) (8 + 8 * bytes.length)
          = (List.range 8).map (bit (byte :: bytes))
            ++ ((List.range (8 * bytes.length)).map (8 + ·)).map
              (bit (byte :: bytes)) := by
        rw [readBits, List.range_add, List.map_append]
      rw [List.map_cons, List.sum_cons, ih, hlen, hsplit, List.count_append,
        hhead, htail]

end Bitmap
