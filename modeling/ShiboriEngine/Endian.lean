import Mathlib
import ShiboriEngine.Library.Spans
import ShiboriEngine.Library.Words
import ShiboriEngine.Error

/-! # Little-endian container integers

    The encoders return fixed-width byte arrays; the decoders check the
    complete width before any byte is read and leave extra bytes alone.  Each
    width is an exact codec: decoding succeeds with `v` exactly on the inputs
    that begin with the encoding of `v`. -/

namespace ShiboriEndian

open ShiboriError Words

/-- On success the caller holds the bound its reads rely on. -/
def requireBytes (bytes : List UInt8) (required : Nat) (operation : Operation)
    (subject : String) : Result (PLift (required ≤ bytes.length)) :=
  if h : bytes.length < required then
    fail .unexpectedEnd operation (subject ++ " is truncated")
  else .ok ⟨Nat.not_lt.mp h⟩

/-- A 16-bit value as two bytes, the lowest first. -/
def encodeU16Le (value : UInt16) : List UInt8 :=
  [(value &&& 0xff).toUInt8, ((value >>> 8) &&& 0xff).toUInt8]

/-- A 64-bit value as eight bytes, the lowest first. -/
def encodeU64Le (value : UInt64) : List UInt8 :=
  [(value &&& 0xff).toUInt8,
    ((value >>> 8) &&& 0xff).toUInt8,
    ((value >>> 16) &&& 0xff).toUInt8,
    ((value >>> 24) &&& 0xff).toUInt8,
    ((value >>> 32) &&& 0xff).toUInt8,
    ((value >>> 40) &&& 0xff).toUInt8,
    ((value >>> 48) &&& 0xff).toUInt8,
    ((value >>> 56) &&& 0xff).toUInt8]

/-- `byte_value`. -/
def byteValue (value : UInt8) : UInt64 := value.toUInt64

/-- The 16-bit value of two bytes, the lowest first. -/
def decodeU16Le (bytes : List UInt8) (operation : Operation)
    (subject : String) : Result UInt16 := do
  let ⟨h⟩ ← requireBytes bytes 2 operation subject
  .ok (byteValue bytes[0] ||| (byteValue bytes[1] <<< 8)).toUInt16

/-- The 64-bit value of eight bytes, the lowest first. -/
def decodeU64Le (bytes : List UInt8) (operation : Operation)
    (subject : String) : Result UInt64 := do
  let ⟨h⟩ ← requireBytes bytes 8 operation subject
  .ok (byteValue bytes[0]
    ||| (byteValue bytes[1] <<< 8)
    ||| (byteValue bytes[2] <<< 16)
    ||| (byteValue bytes[3] <<< 24)
    ||| (byteValue bytes[4] <<< 32)
    ||| (byteValue bytes[5] <<< 40)
    ||| (byteValue bytes[6] <<< 48)
    ||| (byteValue bytes[7] <<< 56))

/-! ## Encoders are digit expansions -/

/-- The two shifts are the little-endian bytes of the value. -/
theorem encodeU16Le_eq (v : UInt16) :
    encodeU16Le v = littleEndian 2 v.toNat := by
  have h0 := byte_of_u16 v 0 (by decide)
  rw [UInt16.shiftRight_zero] at h0
  rw [encodeU16Le, h0, byte_of_u16 v 8 (by decide)]
  show [UInt8.ofNat (v.toNat / 1), _] = _
  rw [Nat.div_one]
  rfl

/-- The eight shifts are the little-endian bytes of the value. -/
theorem encodeU64Le_eq (v : UInt64) :
    encodeU64Le v = littleEndian 8 v.toNat := by
  have h0 := byte_of_u64 v 0 (by decide)
  rw [UInt64.shiftRight_zero] at h0
  rw [encodeU64Le, h0, byte_of_u64 v 8 (by decide),
    byte_of_u64 v 16 (by decide), byte_of_u64 v 24 (by decide),
    byte_of_u64 v 32 (by decide), byte_of_u64 v 40 (by decide),
    byte_of_u64 v 48 (by decide), byte_of_u64 v 56 (by decide)]
  show _ = [_, _, _, _, _, _, _, _]
  simp only [Nat.div_div_eq_div_mul]
  show UInt8.ofNat (v.toNat / 1) :: _ = _
  rw [Nat.div_one]
  rfl

/-- A 16-bit value takes two bytes. -/
@[simp] theorem encodeU16Le_length (v : UInt16) :
    (encodeU16Le v).length = 2 := rfl

/-- A 64-bit value takes eight bytes. -/
@[simp] theorem encodeU64Le_length (v : UInt64) :
    (encodeU64Le v).length = 8 := rfl

/-! ## Decoders are their inverses -/

/-- Two bytes joined by shifts. -/
private theorem join_u16 (b0 b1 : UInt8) :
    (byteValue b0 ||| (byteValue b1 <<< 8)).toUInt16.toNat
      = ofLittleEndian [b0, b1] := by
  have h0 := b0.toNat_lt
  have h1 := b1.toNat_lt
  have hlow : (byteValue b0).toNat = b0.toNat := UInt8.toNat_toUInt64 b0
  have e1 := u64_or_byte b1 (x := byteValue b0) (k := 8) (by decide) (by
    rw [hlow]; exact h0)
  rw [UInt64.toNat_toUInt16]
  show (byteValue b0 ||| (b1.toUInt64 <<< 8)).toNat % 2 ^ 16 = _
  rw [e1, hlow]
  show (_ + _ * 256) % 65536 = _ + 256 * (_ + 256 * 0)
  omega

/-- Eight bytes joined by shifts. -/
private theorem join_u64 (b0 b1 b2 b3 b4 b5 b6 b7 : UInt8) :
    (byteValue b0
      ||| (byteValue b1 <<< 8)
      ||| (byteValue b2 <<< 16)
      ||| (byteValue b3 <<< 24)
      ||| (byteValue b4 <<< 32)
      ||| (byteValue b5 <<< 40)
      ||| (byteValue b6 <<< 48)
      ||| (byteValue b7 <<< 56)).toNat
      = ofLittleEndian [b0, b1, b2, b3, b4, b5, b6, b7] := by
  have h0 := b0.toNat_lt
  have h1 := b1.toNat_lt
  have h2 := b2.toNat_lt
  have h3 := b3.toNat_lt
  have h4 := b4.toNat_lt
  have h5 := b5.toNat_lt
  have h6 := b6.toNat_lt
  have hlow : (byteValue b0).toNat = b0.toNat := UInt8.toNat_toUInt64 b0
  have p8 : (2 : Nat) ^ (8 : UInt64).toNat = 256 := rfl
  have p16 : (2 : Nat) ^ (16 : UInt64).toNat = 65536 := rfl
  have p24 : (2 : Nat) ^ (24 : UInt64).toNat = 16777216 := rfl
  have p32 : (2 : Nat) ^ (32 : UInt64).toNat = 4294967296 := rfl
  have p40 : (2 : Nat) ^ (40 : UInt64).toNat = 1099511627776 := rfl
  have p48 : (2 : Nat) ^ (48 : UInt64).toNat = 281474976710656 := rfl
  have p56 : (2 : Nat) ^ (56 : UInt64).toNat = 72057594037927936 := rfl
  have e1 := u64_or_byte b1 (x := byteValue b0) (k := 8) (by decide) (by omega)
  rw [p8, hlow] at e1
  have e2 := u64_or_byte b2 (k := 16) (by decide) (by
    rw [e1, p16]; omega)
  rw [p16, e1] at e2
  have e3 := u64_or_byte b3 (k := 24) (by decide) (by
    rw [e2, p24]; omega)
  rw [p24, e2] at e3
  have e4 := u64_or_byte b4 (k := 32) (by decide) (by
    rw [e3, p32]; omega)
  rw [p32, e3] at e4
  have e5 := u64_or_byte b5 (k := 40) (by decide) (by
    rw [e4, p40]; omega)
  rw [p40, e4] at e5
  have e6 := u64_or_byte b6 (k := 48) (by decide) (by
    rw [e5, p48]; omega)
  rw [p48, e5] at e6
  have e7 := u64_or_byte b7 (k := 56) (by decide) (by
    rw [e6, p56]; omega)
  rw [p56, e6] at e7
  refine e7.trans ?_
  simp only [ofLittleEndian]
  omega

/-- **EXACT CODEC**, two bytes. -/
theorem decodeU16Le_eq_ok {bytes : List UInt8} {op : Operation}
    {subject : String} {v : UInt16} :
    decodeU16Le bytes op subject = .ok v
      ↔ 2 ≤ bytes.length ∧ bytes.take 2 = encodeU16Le v := by
  rw [decodeU16Le, requireBytes]
  by_cases hlen : bytes.length < 2
  · rw [dif_pos hlen]
    exact ⟨fun h => (nomatch h), fun h => absurd h.1 (by omega)⟩
  · rw [dif_neg hlen]
    show Except.ok _ = Except.ok v ↔ _
    have htake : bytes.take 2 = [bytes[0], bytes[1]] := by
      apply List.ext_getElem
      · simp only [List.length_take, List.length_cons, List.length_nil]
        omega
      · intro i h1 h2
        have hi : i < 2 := h2
        interval_cases i <;> simp
    have hv : v.toNat < 256 ^ 2 := v.toNat_lt
    rw [Except.ok.injEq, ← UInt16.toNat_inj, join_u16, encodeU16Le_eq, htake]
    constructor
    · intro h
      refine ⟨by omega, ?_⟩
      rw [← h]
      exact (littleEndian_ofLittleEndian _).symm
    · rintro ⟨_, h⟩
      rw [h, ofLittleEndian_littleEndian, Nat.mod_eq_of_lt hv]

/-- **EXACT CODEC**, eight bytes. -/
theorem decodeU64Le_eq_ok {bytes : List UInt8} {op : Operation}
    {subject : String} {v : UInt64} :
    decodeU64Le bytes op subject = .ok v
      ↔ 8 ≤ bytes.length ∧ bytes.take 8 = encodeU64Le v := by
  rw [decodeU64Le, requireBytes]
  by_cases hlen : bytes.length < 8
  · rw [dif_pos hlen]
    exact ⟨fun h => (nomatch h), fun h => absurd h.1 (by omega)⟩
  · rw [dif_neg hlen]
    show Except.ok _ = Except.ok v ↔ _
    have htake : bytes.take 8 = [bytes[0], bytes[1], bytes[2], bytes[3],
        bytes[4], bytes[5], bytes[6], bytes[7]] := by
      apply List.ext_getElem
      · simp only [List.length_take, List.length_cons, List.length_nil]
        omega
      · intro i h1 h2
        have hi : i < 8 := h2
        interval_cases i <;> simp
    have hv : v.toNat < 256 ^ 8 := v.toNat_lt
    rw [Except.ok.injEq, ← UInt64.toNat_inj, join_u64, encodeU64Le_eq, htake]
    constructor
    · intro h
      refine ⟨by omega, ?_⟩
      rw [← h]
      exact (littleEndian_ofLittleEndian _).symm
    · rintro ⟨_, h⟩
      rw [h, ofLittleEndian_littleEndian, Nat.mod_eq_of_lt hv]

/-- Any two bytes are the encoding of a word. -/
theorem exists_encodeU16Le {bytes : List UInt8} (h : bytes.length = 2) :
    ∃ v, bytes = encodeU16Le v := by
  have hlt : ofLittleEndian bytes < 256 ^ 2 := by
    rw [← h]
    exact ofLittleEndian_lt bytes
  refine ⟨UInt16.ofNat (ofLittleEndian bytes), ?_⟩
  rw [encodeU16Le_eq, UInt16.toNat_ofNat_of_lt' hlt, ← h,
    littleEndian_ofLittleEndian]

/-- Any eight bytes are the encoding of a word. -/
theorem exists_encodeU64Le {bytes : List UInt8} (h : bytes.length = 8) :
    ∃ v, bytes = encodeU64Le v := by
  have hlt : ofLittleEndian bytes < 256 ^ 8 := by
    rw [← h]
    exact ofLittleEndian_lt bytes
  refine ⟨UInt64.ofNat (ofLittleEndian bytes), ?_⟩
  rw [encodeU64Le_eq, UInt64.toNat_ofNat_of_lt' hlt, ← h,
    littleEndian_ofLittleEndian]

/-- Decoding the exact encoding. -/
theorem decodeU16Le_encode (v : UInt16) (op : Operation) (subject : String) :
    decodeU16Le (encodeU16Le v) op subject = .ok v :=
  decodeU16Le_eq_ok.mpr ⟨Nat.le_refl 2, rfl⟩

/-- Decoding gives back the 64-bit value that was encoded. -/
theorem decodeU64Le_encode (v : UInt64) (op : Operation) (subject : String) :
    decodeU64Le (encodeU64Le v) op subject = .ok v :=
  decodeU64Le_eq_ok.mpr ⟨Nat.le_refl 8, rfl⟩

/-- Different 16-bit values have different bytes. -/
theorem encodeU16Le_inj {v w : UInt16} (h : encodeU16Le v = encodeU16Le w) :
    v = w := by
  rw [encodeU16Le_eq, encodeU16Le_eq] at h
  exact UInt16.toNat_inj.mp (littleEndian_inj v.toNat_lt w.toNat_lt h)

/-- Different 64-bit values have different bytes. -/
theorem encodeU64Le_inj {v w : UInt64} (h : encodeU64Le v = encodeU64Le w) :
    v = w := by
  rw [encodeU64Le_eq, encodeU64Le_eq] at h
  exact UInt64.toNat_inj.mp (littleEndian_inj v.toNat_lt w.toNat_lt h)

end ShiboriEndian
