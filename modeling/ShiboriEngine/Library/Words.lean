import Mathlib

/-! # Fixed-width words — checked sums and little-endian digits

    The two facts every bounded counter needs (a difference below a bound
    does not wrap, a sum inside the remaining room does not wrap), and the
    little-endian digit expansion of a natural number with its inverse.
    Every byte-level codec of the development is read through these. -/

namespace Words

/-! ## Sums and differences below a bound -/

/-- Words compare as their values. -/
theorem le_toNat {a b : UInt64} : a ≤ b ↔ a.toNat ≤ b.toNat :=
  UInt64.le_iff_toNat_le

/-- Words compare as their values. -/
theorem lt_toNat {a b : UInt64} : a < b ↔ a.toNat < b.toNat :=
  UInt64.lt_iff_toNat_lt

/-- A sum below the word size does not wrap. -/
theorem toNat_add_of_lt {a b : UInt64} (h : a.toNat + b.toNat < 2 ^ 64) :
    (a + b).toNat = a.toNat + b.toNat := by
  rw [UInt64.toNat_add, Nat.mod_eq_of_lt h]

/-- An amount inside the remaining room of a bound can be added. -/
theorem toNat_add_of_room {a b m : UInt64} (ha : a ≤ m) (hb : b ≤ m - a) :
    (a + b).toNat = a.toNat + b.toNat := by
  have hm := m.toNat_lt
  rw [le_toNat, UInt64.toNat_sub_of_le _ _ ha] at hb
  rw [le_toNat] at ha
  exact toNat_add_of_lt (by omega)

/-- Adding inside the remaining room stays below the bound. -/
theorem add_le_of_room {a b m : UInt64} (ha : a ≤ m) (hb : b ≤ m - a) :
    a + b ≤ m := by
  have hsum := toNat_add_of_room ha hb
  rw [le_toNat, UInt64.toNat_sub_of_le _ _ ha] at hb
  rw [le_toNat] at ha ⊢
  omega

/-- A count no larger than some word is its own word. -/
theorem toNat_ofNat_of_le {n : Nat} {m : UInt64} (h : n ≤ m.toNat) :
    (UInt64.ofNat n).toNat = n :=
  UInt64.toNat_ofNat_of_lt' (Nat.lt_of_le_of_lt h m.toNat_lt)

/-- Every count below the word size has a word. -/
theorem exists_word {n : Nat} (h : n < 2 ^ 64) :
    ∃ word : UInt64, word.toNat = n :=
  ⟨UInt64.ofNat n, UInt64.toNat_ofNat_of_lt' h⟩

/-- A count within a bound has a word within it. -/
theorem exists_word_le {n : Nat} {m : UInt64} (h : n ≤ m.toNat) :
    ∃ word : UInt64, word.toNat = n ∧ word ≤ m := by
  have hword := toNat_ofNat_of_le h
  refine ⟨UInt64.ofNat n, hword, ?_⟩
  rw [le_toNat, hword]
  exact h

/-- The room left below the largest word is what an addend may use. -/
theorem add_fits_iff {a b : UInt64} :
    ¬ b > 18446744073709551615 - a ↔ a.toNat + b.toNat < 2 ^ 64 := by
  have ha := a.toNat_lt
  have hle : a ≤ 18446744073709551615 := by
    rw [le_toNat]
    show a.toNat ≤ 18446744073709551615
    omega
  rw [gt_iff_lt, UInt64.not_lt, le_toNat, UInt64.toNat_sub_of_le _ _ hle]
  show b.toNat ≤ 18446744073709551615 - a.toNat ↔ _
  omega

/-! ## Little-endian digits -/

/-- The `n` low base-256 digits of a number, least significant first. -/
def littleEndian : Nat → Nat → List UInt8
  | 0, _ => []
  | n + 1, v => UInt8.ofNat v :: littleEndian n (v / 256)

/-- The number whose base-256 digits are listed least significant first. -/
def ofLittleEndian : List UInt8 → Nat
  | [] => 0
  | b :: bs => b.toNat + 256 * ofLittleEndian bs

/-- As many bytes as were asked for. -/
@[simp] theorem littleEndian_length (n v : Nat) :
    (littleEndian n v).length = n := by
  induction n generalizing v with
  | zero => rfl
  | succ n ih => rw [littleEndian, List.length_cons, ih]

/-- Reading back the digits of a number gives it modulo the width. -/
theorem ofLittleEndian_littleEndian (n v : Nat) :
    ofLittleEndian (littleEndian n v) = v % 256 ^ n := by
  induction n generalizing v with
  | zero => rw [Nat.pow_zero, Nat.mod_one]; rfl
  | succ n ih =>
      have hpow : 256 ^ (n + 1) = 256 * 256 ^ n := Nat.pow_succ'
      rw [littleEndian, ofLittleEndian, ih, UInt8.toNat_ofNat', hpow]
      exact Nat.mod_mul.symm

/-- A digit list is the expansion of the number it denotes. -/
theorem littleEndian_ofLittleEndian (bs : List UInt8) :
    littleEndian bs.length (ofLittleEndian bs) = bs := by
  induction bs with
  | nil => rfl
  | cons b bs ih =>
      have hb := b.toNat_lt
      have hdiv : (b.toNat + 256 * ofLittleEndian bs) / 256
          = ofLittleEndian bs := by omega
      have hhead : UInt8.ofNat (b.toNat + 256 * ofLittleEndian bs) = b := by
        apply UInt8.toNat_inj.mp
        rw [UInt8.toNat_ofNat']
        omega
      rw [List.length_cons, ofLittleEndian, littleEndian, hdiv, ih, hhead]

/-- The value of `n` bytes is less than `256 ^ n`. -/
theorem ofLittleEndian_lt (bs : List UInt8) :
    ofLittleEndian bs < 256 ^ bs.length := by
  induction bs with
  | nil => exact Nat.one_pos
  | cons b bs ih =>
      have hb := b.toNat_lt
      rw [ofLittleEndian, List.length_cons, Nat.pow_succ']
      omega

/-- Expansions of one width are equal only for equal numbers. -/
theorem littleEndian_inj {n v w : Nat} (hv : v < 256 ^ n) (hw : w < 256 ^ n)
    (h : littleEndian n v = littleEndian n w) : v = w := by
  have hread := congrArg ofLittleEndian h
  rw [ofLittleEndian_littleEndian, ofLittleEndian_littleEndian,
    Nat.mod_eq_of_lt hv, Nat.mod_eq_of_lt hw] at hread
  exact hread

/-- Joining a higher byte by a shift and an inclusive or adds it. -/
theorem or_shiftLeft_byte {x y k : Nat} (hx : x < 2 ^ k) :
    x ||| y <<< k = x + y * 2 ^ k := by
  rw [Nat.or_comm, ← Nat.shiftLeft_add_eq_or_of_lt hx, Nat.shiftLeft_eq,
    Nat.add_comm]

/-! ## Bytes of machine words

    One byte of a word is a shift and a mask; a word is put together from
    bytes by shifts and inclusive ors.  Both are the digit expansion. -/

/-- A shift and a mask give one byte of the value. -/
theorem byte_of_u16 (v k : UInt16) (hk : k.toNat < 16) :
    ((v >>> k) &&& 0xff).toUInt8 = UInt8.ofNat (v.toNat / 2 ^ k.toNat) := by
  apply UInt8.toNat_inj.mp
  have hmask : (0xff : UInt16).toNat = 2 ^ 8 - 1 := rfl
  rw [UInt16.toNat_toUInt8, UInt16.toNat_and, UInt16.toNat_shiftRight,
    Nat.mod_eq_of_lt hk, UInt8.toNat_ofNat', Nat.shiftRight_eq_div_pow, hmask,
    Nat.and_two_pow_sub_one_eq_mod, Nat.mod_mod]

/-- A shift and a mask give one byte of the value. -/
theorem byte_of_u32 (v k : UInt32) (hk : k.toNat < 32) :
    ((v >>> k) &&& 0xff).toUInt8 = UInt8.ofNat (v.toNat / 2 ^ k.toNat) := by
  apply UInt8.toNat_inj.mp
  have hmask : (0xff : UInt32).toNat = 2 ^ 8 - 1 := rfl
  rw [UInt32.toNat_toUInt8, UInt32.toNat_and, UInt32.toNat_shiftRight,
    Nat.mod_eq_of_lt hk, UInt8.toNat_ofNat', Nat.shiftRight_eq_div_pow, hmask,
    Nat.and_two_pow_sub_one_eq_mod, Nat.mod_mod]

/-- A shift and a mask give one byte of the value. -/
theorem byte_of_u64 (v k : UInt64) (hk : k.toNat < 64) :
    ((v >>> k) &&& 0xff).toUInt8 = UInt8.ofNat (v.toNat / 2 ^ k.toNat) := by
  apply UInt8.toNat_inj.mp
  have hmask : (0xff : UInt64).toNat = 2 ^ 8 - 1 := rfl
  rw [UInt64.toNat_toUInt8, UInt64.toNat_and, UInt64.toNat_shiftRight,
    Nat.mod_eq_of_lt hk, UInt8.toNat_ofNat', Nat.shiftRight_eq_div_pow, hmask,
    Nat.and_two_pow_sub_one_eq_mod, Nat.mod_mod]

/-- A byte above the bits that are used is added. -/
theorem u32_or_byte {x k : UInt32} (b : UInt8) (hk : k.toNat + 8 ≤ 32)
    (hx : x.toNat < 2 ^ k.toNat) :
    (x ||| (b.toUInt32 <<< k)).toNat = x.toNat + b.toNat * 2 ^ k.toNat := by
  have hb : b.toNat < 2 ^ 8 := b.toNat_lt
  have hfit : b.toNat * 2 ^ k.toNat < 2 ^ 32 :=
    calc b.toNat * 2 ^ k.toNat
        < 2 ^ 8 * 2 ^ k.toNat := Nat.mul_lt_mul_of_pos_right hb (by positivity)
      _ = 2 ^ (8 + k.toNat) := (Nat.pow_add 2 8 k.toNat).symm
      _ ≤ 2 ^ 32 := Nat.pow_le_pow_right (by decide) (by omega)
  rw [UInt32.toNat_or, UInt32.toNat_shiftLeft, UInt8.toNat_toUInt32,
    Nat.mod_eq_of_lt (by omega : k.toNat < 32), Nat.shiftLeft_eq,
    Nat.mod_eq_of_lt hfit, ← or_shiftLeft_byte hx, Nat.shiftLeft_eq]

/-- A byte above the bits that are used is added. -/
theorem u64_or_byte {x k : UInt64} (b : UInt8) (hk : k.toNat + 8 ≤ 64)
    (hx : x.toNat < 2 ^ k.toNat) :
    (x ||| (b.toUInt64 <<< k)).toNat = x.toNat + b.toNat * 2 ^ k.toNat := by
  have hb : b.toNat < 2 ^ 8 := b.toNat_lt
  have hfit : b.toNat * 2 ^ k.toNat < 2 ^ 64 :=
    calc b.toNat * 2 ^ k.toNat
        < 2 ^ 8 * 2 ^ k.toNat := Nat.mul_lt_mul_of_pos_right hb (by positivity)
      _ = 2 ^ (8 + k.toNat) := (Nat.pow_add 2 8 k.toNat).symm
      _ ≤ 2 ^ 64 := Nat.pow_le_pow_right (by decide) (by omega)
  rw [UInt64.toNat_or, UInt64.toNat_shiftLeft, UInt8.toNat_toUInt64,
    Nat.mod_eq_of_lt (by omega : k.toNat < 64), Nat.shiftLeft_eq,
    Nat.mod_eq_of_lt hfit, ← or_shiftLeft_byte hx, Nat.shiftLeft_eq]

end Words
