import Mathlib
import ShiboriEngine.Library.Words

/-! # Reflected cyclic redundancy checks over bit vectors

    A reflected CRC of width `w` shifts its remainder towards the least
    significant bit and folds the polynomial in whenever a one is shifted
    out.  Two facts carry every use:

    * the bit step is LINEAR, so remainders of xors are xors of remainders;
    * it is INJECTIVE as soon as the polynomial has its top bit, so a
      difference between two remainders survives any common suffix.

    From them: a byte string no longer than the register is read off the
    remainder (`update_short`), hence two inputs that differ only inside such
    a window never share a remainder (`update_window_inj`). -/

namespace ReflectedCrc

open Words

variable {w : Nat} (poly : BitVec w)

/-- One shift of the remainder. -/
def bitStep (r : BitVec w) : BitVec w :=
  if r.getLsbD 0 then (r >>> 1) ^^^ poly else r >>> 1

/-- `n` shifts of the remainder. -/
def bitSteps : Nat → BitVec w → BitVec w
  | 0, r => r
  | n + 1, r => bitSteps n (bitStep poly r)

/-- A byte enters at the low end of the remainder. -/
def byteIn (b : UInt8) : BitVec w :=
  BitVec.ofNat w b.toNat

/-- One byte of input: eight shifts after the byte entered. -/
def byteStep (s : BitVec w) (b : UInt8) : BitVec w :=
  bitSteps poly 8 (s ^^^ byteIn b)

/-- The remainder after a byte string. -/
def update (s : BitVec w) (bytes : List UInt8) : BitVec w :=
  bytes.foldl (byteStep poly) s

/-- No bytes leave the state. -/
@[simp] theorem update_nil (s : BitVec w) : update poly s [] = s := rfl

/-- The first byte comes first. -/
@[simp] theorem update_cons (s : BitVec w) (b : UInt8) (bs : List UInt8) :
    update poly s (b :: bs) = update poly (byteStep poly s b) bs := rfl

/-- The bytes may be cut anywhere. -/
theorem update_append (s : BitVec w) (xs ys : List UInt8) :
    update poly s (xs ++ ys) = update poly (update poly s xs) ys :=
  List.foldl_append

/-! ## Linearity -/

private theorem xor_swap (a b p : BitVec w) :
    (a ^^^ p) ^^^ (b ^^^ p) = a ^^^ b := by
  rw [BitVec.xor_comm b p, BitVec.xor_assoc, ← BitVec.xor_assoc p p b,
    BitVec.xor_self, BitVec.zero_xor]

/-- **LINEARITY** of the bit step. -/
theorem bitStep_xor (a b : BitVec w) :
    bitStep poly (a ^^^ b) = bitStep poly a ^^^ bitStep poly b := by
  have hshift : (a ^^^ b) >>> 1 = a >>> 1 ^^^ b >>> 1 :=
    BitVec.ushiftRight_xor_distrib a b 1
  cases ha : a.getLsbD 0 <;> cases hb : b.getLsbD 0 <;>
    simp only [bitStep, BitVec.getLsbD_xor, ha, hb, hshift, Bool.false_bne,
      Bool.true_bne, Bool.not_true, Bool.not_false, Bool.false_eq_true,
      if_true, if_false]
  · rw [BitVec.xor_assoc]
  · rw [BitVec.xor_assoc, BitVec.xor_comm (b >>> 1) poly, ← BitVec.xor_assoc]
  · exact (xor_swap _ _ _).symm

/-- Bit steps are linear. -/
theorem bitSteps_xor (n : Nat) (a b : BitVec w) :
    bitSteps poly n (a ^^^ b) = bitSteps poly n a ^^^ bitSteps poly n b := by
  induction n generalizing a b with
  | zero => rfl
  | succ n ih => rw [bitSteps, bitSteps, bitSteps, bitStep_xor, ih]

/-- Bit steps add up. -/
theorem bitSteps_add (m n : Nat) (r : BitVec w) :
    bitSteps poly (m + n) r = bitSteps poly n (bitSteps poly m r) := by
  induction m generalizing r with
  | zero => rw [Nat.zero_add]; rfl
  | succ m ih => rw [Nat.succ_add]; exact ih (bitStep poly r)

/-- A remainder whose low bits are clear only moves down. -/
theorem bitSteps_of_low_clear (n : Nat) (r : BitVec w)
    (h : ∀ i, i < n → r.getLsbD i = false) :
    bitSteps poly n r = r >>> n := by
  induction n generalizing r with
  | zero => rw [bitSteps, BitVec.ushiftRight_zero]
  | succ n ih =>
      have hstep : bitStep poly r = r >>> 1 := by
        rw [bitStep, h 0 (Nat.succ_pos n), if_neg Bool.false_ne_true]
      have hclear : ∀ i, i < n → (r >>> 1).getLsbD i = false := by
        intro i hi
        rw [BitVec.getLsbD_ushiftRight]
        exact h (1 + i) (by omega)
      rw [bitSteps, hstep, ih _ hclear, ← BitVec.shiftRight_add, Nat.add_comm]

/-! ## The table-driven byte step -/

private theorem low_testBit (i : Nat) : Nat.testBit 255 i = decide (i < 8) := by
  rw [show 255 = 2 ^ 8 - 1 from rfl, Nat.testBit_two_pow_sub_one]

/-- The low byte and the rest of a word. -/
private theorem split_low (x : BitVec w) :
    x = (x &&& BitVec.ofNat w 255) ^^^ (x &&& ~~~BitVec.ofNat w 255) := by
  apply BitVec.eq_of_getLsbD_eq
  intro i hi
  rw [BitVec.getLsbD_xor, BitVec.getLsbD_and, BitVec.getLsbD_and,
    BitVec.getLsbD_not]
  cases x.getLsbD i <;> cases (BitVec.ofNat w 255).getLsbD i <;> simp [hi]

/-- **THE TABLE STEP**: eight shifts only need the low byte looked up; the
    rest of the word moves down unchanged. -/
theorem bitSteps_eight (x : BitVec w) :
    bitSteps poly 8 x
      = bitSteps poly 8 (x &&& BitVec.ofNat w 255) ^^^ (x >>> 8) := by
  have hclear : ∀ i, i < 8 →
      (x &&& ~~~BitVec.ofNat w 255).getLsbD i = false := by
    intro i hi
    rw [BitVec.getLsbD_and, BitVec.getLsbD_not, BitVec.getLsbD_ofNat,
      low_testBit, decide_eq_true hi]
    cases decide (i < w) <;> simp
  have hrest : (x &&& ~~~BitVec.ofNat w 255) >>> 8 = x >>> 8 := by
    apply BitVec.eq_of_getLsbD_eq
    intro i _
    rw [BitVec.getLsbD_ushiftRight, BitVec.getLsbD_ushiftRight,
      BitVec.getLsbD_and, BitVec.getLsbD_not, BitVec.getLsbD_ofNat,
      low_testBit, decide_eq_false (by omega : ¬ 8 + i < 8)]
    by_cases hw : 8 + i < w
    · simp [hw]
    · simp [BitVec.getLsbD_of_ge x (8 + i) (by omega)]
  calc bitSteps poly 8 x
      = bitSteps poly 8 ((x &&& BitVec.ofNat w 255)
          ^^^ (x &&& ~~~BitVec.ofNat w 255)) := by rw [← split_low x]
    _ = bitSteps poly 8 (x &&& BitVec.ofNat w 255)
          ^^^ bitSteps poly 8 (x &&& ~~~BitVec.ofNat w 255) :=
        bitSteps_xor poly 8 _ _
    _ = bitSteps poly 8 (x &&& BitVec.ofNat w 255) ^^^ (x >>> 8) := by
        rw [bitSteps_of_low_clear poly 8 _ hclear, hrest]

/-- A byte is gone once eight bits were shifted out. -/
theorem byteIn_shift (b : UInt8) : (byteIn b : BitVec w) >>> 8 = 0#w := by
  apply BitVec.eq_of_toNat_eq
  have hb := b.toNat_lt
  have hle : b.toNat % 2 ^ w ≤ b.toNat := Nat.mod_le _ _
  rw [BitVec.toNat_ushiftRight, byteIn, BitVec.toNat_ofNat, BitVec.toNat_ofNat,
    Nat.shiftRight_eq_div_pow, Nat.zero_mod]
  omega

/-- The byte step as a table lookup on the low byte. -/
theorem byteStep_table (s : BitVec w) (b : UInt8) :
    byteStep poly s b
      = bitSteps poly 8 ((s ^^^ byteIn b) &&& BitVec.ofNat w 255)
        ^^^ (s >>> 8) := by
  rw [byteStep, bitSteps_eight, BitVec.ushiftRight_xor_distrib, byteIn_shift,
    BitVec.xor_zero]

/-! ## Injectivity -/

/-- A word is its low bit and the rest. -/
private theorem eq_of_shift_eq {a b : BitVec w}
    (hlow : a.getLsbD 0 = b.getLsbD 0) (hrest : a >>> 1 = b >>> 1) :
    a = b := by
  apply BitVec.eq_of_getLsbD_eq
  intro i _
  cases i with
  | zero => exact hlow
  | succ i =>
      have hbit := congrArg (fun r => r.getLsbD i) hrest
      simp only [BitVec.getLsbD_ushiftRight] at hbit
      rw [Nat.add_comm i 1]
      exact hbit

/-- The bit shifted in at the top tells which branch was taken. -/
private theorem bitStep_top (hpoly : poly.getLsbD (w - 1) = true)
    (r : BitVec w) : (bitStep poly r).getLsbD (w - 1) = r.getLsbD 0 := by
  have htop : (r >>> 1).getLsbD (w - 1) = false := by
    rw [BitVec.getLsbD_ushiftRight]
    exact BitVec.getLsbD_of_ge r _ (by omega)
  cases hr : r.getLsbD 0 with
  | false => rw [bitStep, hr, if_neg Bool.false_ne_true, htop]
  | true =>
      rw [bitStep, hr, if_pos rfl, BitVec.getLsbD_xor, htop, hpoly]
      rfl

/-- **INJECTIVITY** of the bit step, for a polynomial with its top bit. -/
theorem bitStep_inj (hpoly : poly.getLsbD (w - 1) = true) {a b : BitVec w}
    (h : bitStep poly a = bitStep poly b) : a = b := by
  have hlow : a.getLsbD 0 = b.getLsbD 0 := by
    rw [← bitStep_top poly hpoly a, ← bitStep_top poly hpoly b, h]
  refine eq_of_shift_eq hlow ?_
  rw [bitStep, bitStep, hlow] at h
  cases hb : b.getLsbD 0 with
  | false => simpa [hb] using h
  | true =>
      rw [hb, if_pos rfl, if_pos rfl] at h
      exact (BitVec.xor_left_inj poly).mp h

/-- With the top bit in the polynomial, bit steps lose nothing. -/
theorem bitSteps_inj (hpoly : poly.getLsbD (w - 1) = true) (n : Nat)
    {a b : BitVec w} (h : bitSteps poly n a = bitSteps poly n b) : a = b := by
  induction n generalizing a b with
  | zero => exact h
  | succ n ih => exact bitStep_inj poly hpoly (ih h)

/-- Nor does a byte step. -/
theorem byteStep_inj (hpoly : poly.getLsbD (w - 1) = true) (b : UInt8)
    {s t : BitVec w} (h : byteStep poly s b = byteStep poly t b) : s = t :=
  (BitVec.xor_left_inj (byteIn b)).mp (bitSteps_inj poly hpoly 8 h)

/-- A difference between remainders survives any common suffix. -/
theorem update_state_inj (hpoly : poly.getLsbD (w - 1) = true)
    (bytes : List UInt8) {s t : BitVec w}
    (h : update poly s bytes = update poly t bytes) : s = t := by
  induction bytes generalizing s t with
  | nil => exact h
  | cons b bs ih => exact byteStep_inj poly hpoly b (ih h)

/-! ## Byte strings no longer than the register -/

/-- The word whose little-endian bytes are given. -/
def wordOf (w : Nat) (bytes : List UInt8) : BitVec w :=
  BitVec.ofNat w (ofLittleEndian bytes)

/-- Low bits and a lifted rest share no position. -/
private theorem ofNat_low_add {low k : Nat} (hlow : low < 2 ^ k) (n : Nat) :
    BitVec.ofNat w (low + n * 2 ^ k)
      = BitVec.ofNat w low ^^^ BitVec.ofNat w (n * 2 ^ k) := by
  have hor : low ^^^ (n * 2 ^ k) = low ||| n <<< k := by
    rw [Nat.shiftLeft_eq]
    apply Nat.eq_of_testBit_eq
    intro i
    rw [Nat.testBit_xor, Nat.testBit_or, Nat.testBit_mul_two_pow]
    by_cases hi : k ≤ i
    · rw [Nat.testBit_lt_two_pow
        (Nat.lt_of_lt_of_le hlow (Nat.pow_le_pow_right (by decide) hi)),
        Bool.false_xor, Bool.false_or]
    · rw [decide_eq_false hi, Bool.false_and, Bool.xor_false, Bool.or_false]
  apply BitVec.eq_of_toNat_eq
  rw [BitVec.toNat_xor, BitVec.toNat_ofNat, BitVec.toNat_ofNat,
    BitVec.toNat_ofNat, ← Nat.xor_mod_two_pow, hor, or_shiftLeft_byte hlow]

/-- The bytes above the first one, lifted by a byte. -/
private theorem wordOf_cons (b : UInt8) (bs : List UInt8) :
    wordOf w (b :: bs)
      = byteIn b ^^^ BitVec.ofNat w (ofLittleEndian bs * 2 ^ 8) := by
  have hlow : b.toNat < 2 ^ 8 := b.toNat_lt
  rw [byteIn, ← ofNat_low_add hlow, Nat.mul_comm (ofLittleEndian bs)]
  rfl

/-- Shifting out bits that the word does not have moves the rest down. -/
private theorem bitSteps_lifted (k n : Nat) (hn : n * 2 ^ k < 2 ^ w) :
    bitSteps poly k (BitVec.ofNat w (n * 2 ^ k)) = BitVec.ofNat w n := by
  have hclear : ∀ i, i < k →
      (BitVec.ofNat w (n * 2 ^ k)).getLsbD i = false := by
    intro i hi
    rw [BitVec.getLsbD_ofNat, Nat.testBit_mul_two_pow,
      decide_eq_false (Nat.not_le.mpr hi), Bool.false_and, Bool.and_false]
  rw [bitSteps_of_low_clear poly k _ hclear]
  apply BitVec.eq_of_toNat_eq
  have hpos : 0 < 2 ^ k := Nat.two_pow_pos k
  have hle : n ≤ n * 2 ^ k := Nat.le_mul_of_pos_right n hpos
  rw [BitVec.toNat_ushiftRight, BitVec.toNat_ofNat, BitVec.toNat_ofNat,
    Nat.mod_eq_of_lt hn, Nat.mod_eq_of_lt (Nat.lt_of_le_of_lt hle hn),
    Nat.shiftRight_eq_div_pow, Nat.mul_div_cancel _ hpos]

/-- **SHORT INPUTS**: a byte string that fits the register enters it whole. -/
theorem update_short (bytes : List UInt8) (hfit : 8 * bytes.length ≤ w)
    (s : BitVec w) :
    update poly s bytes
      = bitSteps poly (8 * bytes.length) (s ^^^ wordOf w bytes) := by
  induction bytes generalizing s with
  | nil =>
      have hzero : wordOf w [] = 0#w := rfl
      rw [hzero, BitVec.xor_zero]
      rfl
  | cons b bs ih =>
      rw [List.length_cons] at hfit ⊢
      have hlt : ofLittleEndian bs * 2 ^ 8 < 2 ^ w := by
        have hbs : ofLittleEndian bs < 256 ^ bs.length := ofLittleEndian_lt bs
        have hpow : (256 : Nat) ^ bs.length = 2 ^ (8 * bs.length) := by
          rw [Nat.pow_mul]
        calc ofLittleEndian bs * 2 ^ 8
            < 256 ^ bs.length * 2 ^ 8 :=
              Nat.mul_lt_mul_of_pos_right hbs (by decide)
          _ = 2 ^ (8 * bs.length + 8) := by rw [hpow, ← Nat.pow_add]
          _ ≤ 2 ^ w := Nat.pow_le_pow_right (by decide) (by omega)
      have hsplit : s ^^^ wordOf w (b :: bs)
          = (s ^^^ byteIn b)
            ^^^ BitVec.ofNat w (ofLittleEndian bs * 2 ^ 8) := by
        rw [wordOf_cons, BitVec.xor_assoc]
      have hsteps : 8 * (bs.length + 1) = 8 + 8 * bs.length := by omega
      rw [update_cons, ih (by omega), hsteps, bitSteps_add, hsplit,
        bitSteps_xor poly 8, bitSteps_lifted poly 8 _ hlt]
      rfl

/-- Words of one byte length are equal only for equal bytes. -/
theorem wordOf_inj {xs ys : List UInt8} (hlen : xs.length = ys.length)
    (hfit : 8 * xs.length ≤ w) (h : wordOf w xs = wordOf w ys) : xs = ys := by
  have hbound : ∀ zs : List UInt8, zs.length = xs.length →
      ofLittleEndian zs < 2 ^ w := by
    intro zs hzs
    have hpow : (256 : Nat) ^ zs.length = 2 ^ (8 * zs.length) := by
      rw [Nat.pow_mul]
    exact Nat.lt_of_lt_of_le (hpow ▸ ofLittleEndian_lt zs)
      (Nat.pow_le_pow_right (by decide) (by omega))
  have hnat := congrArg BitVec.toNat h
  rw [wordOf, wordOf, BitVec.toNat_ofNat, BitVec.toNat_ofNat,
    Nat.mod_eq_of_lt (hbound xs rfl),
    Nat.mod_eq_of_lt (hbound ys hlen.symm)] at hnat
  rw [← littleEndian_ofLittleEndian xs, ← littleEndian_ofLittleEndian ys, hnat,
    hlen]

/-- **WINDOWS**: inputs that agree outside a window no longer than the
    register have equal remainders only when they agree inside it. -/
theorem update_window_inj (hpoly : poly.getLsbD (w - 1) = true)
    (s : BitVec w) {before xs ys after : List UInt8}
    (hlen : xs.length = ys.length) (hfit : 8 * xs.length ≤ w)
    (h : update poly s (before ++ xs ++ after)
      = update poly s (before ++ ys ++ after)) : xs = ys := by
  rw [update_append, update_append, update_append, update_append] at h
  have hin := update_state_inj poly hpoly after h
  rw [update_short poly xs hfit, update_short poly ys (hlen ▸ hfit),
    ← hlen] at hin
  have hword := bitSteps_inj poly hpoly _ hin
  exact wordOf_inj hlen hfit ((BitVec.xor_right_inj _).mp hword)

/-- A check value that follows its data is the expected one exactly when the
    remainder over both is the residue of the final mask. -/
theorem update_check_iff (hpoly : poly.getLsbD (w - 1) = true)
    (s mask : BitVec w) {check : List UInt8} (hfit : 8 * check.length = w) :
    update poly s check = bitSteps poly w mask
      ↔ wordOf w check = s ^^^ mask := by
  rw [update_short poly check (Nat.le_of_eq hfit), hfit]
  constructor
  · intro h
    have hmask := bitSteps_inj poly hpoly w h
    rw [← hmask, ← BitVec.xor_assoc, BitVec.xor_self, BitVec.zero_xor]
  · intro h
    rw [h, ← BitVec.xor_assoc, BitVec.xor_self, BitVec.zero_xor]

/-! ## One message bit at a time -/

/-- A message bit meets the bit shifted out. -/
def messageStep (r : BitVec w) (bit : Bool) : BitVec w :=
  if r.getLsbD 0 ≠ bit then (r >>> 1) ^^^ poly else r >>> 1

/-- The number whose binary digits, least significant first, are given. -/
def bitsValue : List Bool → Nat
  | [] => 0
  | bit :: bits => bit.toNat + 2 * bitsValue bits

/-- The bits of a byte, least significant first. -/
def byteBits (b : UInt8) : List Bool :=
  (List.range 8).map b.toNat.testBit

/-- The value of `n` bits is less than `2 ^ n`. -/
theorem bitsValue_lt (bits : List Bool) : bitsValue bits < 2 ^ bits.length := by
  induction bits with
  | nil => exact Nat.one_pos
  | cons bit bits ih =>
      rw [bitsValue, List.length_cons, Nat.pow_succ]
      have hbit := bit.toNat_lt
      omega

/-- The bits of a byte have its value. -/
theorem bitsValue_byteBits (b : UInt8) : bitsValue (byteBits b) = b.toNat := by
  revert b
  decide +kernel

/-- A message bit enters like the low bit of a byte. -/
theorem messageStep_eq (hw : 0 < w) (r : BitVec w) (bit : Bool) :
    messageStep poly r bit = bitStep poly (r ^^^ BitVec.ofNat w bit.toNat) := by
  have hlow : (r ^^^ BitVec.ofNat w bit.toNat).getLsbD 0
      = (r.getLsbD 0 ^^ bit) := by
    rw [BitVec.getLsbD_xor, BitVec.getLsbD_ofNat]
    cases bit <;> simp [hw]
  have hrest : (r ^^^ BitVec.ofNat w bit.toNat) >>> 1 = r >>> 1 := by
    rw [BitVec.ushiftRight_xor_distrib]
    have hgone : BitVec.ofNat w bit.toNat >>> 1 = 0#w := by
      apply BitVec.eq_of_toNat_eq
      have hbit := bit.toNat_lt
      have hmod : bit.toNat % 2 ^ w ≤ bit.toNat := Nat.mod_le _ _
      rw [BitVec.toNat_ushiftRight, BitVec.toNat_ofNat, BitVec.toNat_ofNat,
        Nat.shiftRight_eq_div_pow, Nat.zero_mod]
      omega
    rw [hgone, BitVec.xor_zero]
  rw [messageStep, bitStep, hlow, hrest]
  cases r.getLsbD 0 <;> cases bit <;> rfl

/-- **MESSAGE BITS**: bits that fit the register may enter one at a time. -/
theorem foldl_messageStep (bits : List Bool) (hfit : bits.length ≤ w)
    (r : BitVec w) :
    bits.foldl (messageStep poly) r
      = bitSteps poly bits.length (r ^^^ BitVec.ofNat w (bitsValue bits)) := by
  induction bits generalizing r with
  | nil =>
      have hzero : BitVec.ofNat w (bitsValue []) = 0#w := rfl
      rw [hzero, BitVec.xor_zero]
      rfl
  | cons bit bits ih =>
      rw [List.length_cons] at hfit ⊢
      have hlt : bitsValue bits * 2 ^ 1 < 2 ^ w := by
        calc bitsValue bits * 2 ^ 1
            < 2 ^ bits.length * 2 ^ 1 :=
              Nat.mul_lt_mul_of_pos_right (bitsValue_lt bits) (by decide)
          _ = 2 ^ (bits.length + 1) := (Nat.pow_add 2 bits.length 1).symm
          _ ≤ 2 ^ w := Nat.pow_le_pow_right (by decide) hfit
      have hvalue : BitVec.ofNat w (bitsValue (bit :: bits))
          = BitVec.ofNat w bit.toNat
            ^^^ BitVec.ofNat w (bitsValue bits * 2 ^ 1) := by
        rw [← ofNat_low_add bit.toNat_lt, Nat.mul_comm (bitsValue bits)]
        rfl
      have hsteps : bits.length + 1 = 1 + bits.length := Nat.add_comm _ _
      rw [List.foldl_cons, ih (Nat.le_of_succ_le hfit),
        messageStep_eq poly (Nat.lt_of_lt_of_le (Nat.succ_pos _) hfit), hvalue,
        hsteps, bitSteps_add, ← BitVec.xor_assoc, bitSteps_xor poly 1,
        bitSteps_lifted poly 1 _ hlt]
      rfl

/-- **THE BYTE STEP IS EIGHT MESSAGE BITS.** -/
theorem foldl_messageStep_byte (hfit : 8 ≤ w) (r : BitVec w) (b : UInt8) :
    (byteBits b).foldl (messageStep poly) r = byteStep poly r b := by
  have hlen : (byteBits b).length = 8 := rfl
  rw [foldl_messageStep poly (byteBits b) hfit, hlen, bitsValue_byteBits]
  rfl

end ReflectedCrc
