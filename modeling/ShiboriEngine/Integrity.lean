import Mathlib
import ShiboriEngine.Library.ReflectedCrc

/-! # CRC-32C as the engine computes it

    The 256-entry table, the byte-at-a-time update over it and the hasher that
    dispatches to it.  `portableCrc32cUpdate_toBitVec` identifies the table
    walk with the bit-serial reflected check of `ReflectedCrc`, so everything
    proved there about windows and suffixes holds of the code. -/

namespace ShiboriIntegrity

open Words

/-- The Castagnoli polynomial, reflected. -/
def crc32cPolynomial : UInt32 := 0x82f63b78

/-- The inner loop of the table construction. -/
def crc32cRemainder : Nat → UInt32 → UInt32
  | 0, remainder => remainder
  | bit + 1, remainder =>
      let mask := 0 - (remainder &&& 1)
      crc32cRemainder bit ((remainder >>> 1) ^^^ (crc32cPolynomial &&& mask))

/-- The remainder of every byte. -/
def makeCrc32cTable : Vector UInt32 256 :=
  Vector.ofFn fun index => crc32cRemainder 8 (UInt32.ofNat index)

/-- The table the portable update reads. -/
def crc32cTable : Vector UInt32 256 := makeCrc32cTable

/-- The low byte of a state indexes the table. -/
theorem low_byte_lt (x : UInt32) : (x &&& 0xff).toNat < 256 := by
  rw [UInt32.toNat_and]
  exact Nat.lt_of_le_of_lt Nat.and_le_right (by decide)

/-- One iteration of the update loop. -/
def portableCrc32cStep (state : UInt32) (byte : UInt8) : UInt32 :=
  let index := (state ^^^ byte.toUInt32) &&& 0xff
  crc32cTable.get ⟨index.toNat, low_byte_lt _⟩ ^^^ (state >>> 8)

/-- The table-driven update, byte by byte. -/
def portableCrc32cUpdate (state : UInt32) (bytes : List UInt8) : UInt32 :=
  bytes.foldl portableCrc32cStep state

/-! ## The checksum value -/

/-- A checksum. -/
structure Crc32c where
  value : UInt32 := 0
deriving DecidableEq, Repr

/-- The four bytes of a checksum, the lowest first. -/
def Crc32c.littleEndianBytes (self : Crc32c) : List UInt8 :=
  [(self.value &&& 0xff).toUInt8,
    ((self.value >>> 8) &&& 0xff).toUInt8,
    ((self.value >>> 16) &&& 0xff).toUInt8,
    ((self.value >>> 24) &&& 0xff).toUInt8]

/-- The checksum of four bytes, the lowest first. -/
def Crc32c.fromLittleEndian (bytes : List UInt8) (h : bytes.length = 4) :
    Crc32c :=
  ⟨bytes[0].toUInt32
    ||| (bytes[1].toUInt32 <<< 8)
    ||| (bytes[2].toUInt32 <<< 16)
    ||| (bytes[3].toUInt32 <<< 24)⟩

/-! ## The hasher -/

/-- Whether a hasher may use the hardware. -/
inductive Crc32cMode where
  | automatic
  | portable
deriving DecidableEq, Repr

/-- The update a hasher uses. -/
inductive Crc32cImplementation where
  | portable
  | hardware
deriving DecidableEq, Repr

/-- The accelerated backend of a build that has one: whether this processor
    supports it, and its update. -/
structure X86Crc32c where
  available : Bool
  update : UInt32 → List UInt8 → UInt32

/-- The running state of a checksum and the update it uses. -/
structure Crc32cHasher where
  state : UInt32 := 0xffffffff
  implementation : Crc32cImplementation := .portable

/-- `x86` is the backend compiled in, if any. -/
def Crc32cHasher.create (mode : Crc32cMode)
    (x86 : Option X86Crc32c := none) : Crc32cHasher :=
  match x86 with
  | none => {}
  | some backend =>
      if mode = .automatic ∧ backend.available then
        { implementation := .hardware }
      else {}

/-- Takes the bytes into the state. -/
def Crc32cHasher.update (self : Crc32cHasher) (bytes : List UInt8)
    (x86 : Option X86Crc32c := none) : Crc32cHasher :=
  match x86, self.implementation with
  | some backend, .hardware =>
      { self with state := backend.update self.state bytes }
  | _, _ => { self with state := portableCrc32cUpdate self.state bytes }

/-- The checksum of the bytes so far; the hasher stays as it is. -/
def Crc32cHasher.finalize (self : Crc32cHasher) : Crc32c :=
  ⟨self.state ^^^ 0xffffffff⟩

/-- Starts over, with the same update. -/
def Crc32cHasher.reset (self : Crc32cHasher) : Crc32cHasher :=
  { self with state := 0xffffffff }

/-- The checksum of a byte string through one portable hasher. -/
def crc32c (bytes : List UInt8) : Crc32c :=
  ⟨portableCrc32cUpdate 0xffffffff bytes ^^^ 0xffffffff⟩

/-- Updating with two pieces is updating with both in one. -/
theorem portableCrc32cUpdate_append (s : UInt32) (xs ys : List UInt8) :
    portableCrc32cUpdate s (xs ++ ys)
      = portableCrc32cUpdate (portableCrc32cUpdate s xs) ys :=
  List.foldl_append

/-- Two fragments hash as their concatenation. -/
theorem finalize_update_update (xs ys : List UInt8) :
    (((Crc32cHasher.create .portable).update xs).update ys).finalize
      = crc32c (xs ++ ys) := by
  rw [crc32c, portableCrc32cUpdate_append]
  rfl

/-! ## The table walk is the bit-serial check -/

/-- A word is odd exactly when its low bit is set. -/
private theorem mask_of_low_bit (r : UInt32) :
    (crc32cPolynomial &&& (0 - (r &&& 1))).toBitVec
      = if r.toBitVec.getLsbD 0 then crc32cPolynomial.toBitVec else 0#32 := by
  have hlow : (r &&& 1).toBitVec
      = BitVec.setWidth 32 (BitVec.ofBool (r.toBitVec.getLsbD 0)) := by
    rw [UInt32.toBitVec_and]
    exact BitVec.and_one_eq_setWidth_ofBool_getLsbD
  rw [UInt32.toBitVec_and, UInt32.toBitVec_sub, hlow]
  cases r.toBitVec.getLsbD 0 <;> decide

/-- Every entry of the table is eight bit steps. -/
theorem crc32cRemainder_toBitVec (n : Nat) (r : UInt32) :
    (crc32cRemainder n r).toBitVec
      = ReflectedCrc.bitSteps crc32cPolynomial.toBitVec n r.toBitVec := by
  induction n generalizing r with
  | zero => rfl
  | succ n ih =>
      rw [crc32cRemainder, ih, ReflectedCrc.bitSteps]
      refine congrArg _ ?_
      have hshift : (r >>> 1).toBitVec = r.toBitVec >>> 1 := rfl
      rw [UInt32.toBitVec_xor, hshift, mask_of_low_bit, ReflectedCrc.bitStep]
      cases r.toBitVec.getLsbD 0 with
      | false =>
          rw [if_neg Bool.false_ne_true, if_neg Bool.false_ne_true,
            BitVec.xor_zero]
      | true => rw [if_pos rfl, if_pos rfl]

/-- Every table entry is eight shifts of its index. -/
theorem crc32cTable_get (index : UInt32) (h : index.toNat < 256) :
    (crc32cTable.get ⟨index.toNat, h⟩).toBitVec
      = ReflectedCrc.bitSteps crc32cPolynomial.toBitVec 8 index.toBitVec := by
  have hentry : crc32cTable.get ⟨index.toNat, h⟩
      = crc32cRemainder 8 (UInt32.ofNat index.toNat) := by
    show crc32cTable[index.toNat] = _
    exact Vector.getElem_ofFn h
  rw [hentry, UInt32.ofNat_toNat, crc32cRemainder_toBitVec]

/-- A byte enters at the low end of the state. -/
theorem byteIn_eq (b : UInt8) :
    b.toUInt32.toBitVec = (ReflectedCrc.byteIn b : BitVec 32) := by
  apply BitVec.eq_of_toNat_eq
  have hb := b.toNat_lt
  rw [ReflectedCrc.byteIn, BitVec.toNat_ofNat, UInt32.toNat_toBitVec,
    UInt8.toNat_toUInt32]
  omega

/-- One table lookup is eight bit steps of the reference. -/
theorem portableCrc32cStep_toBitVec (s : UInt32) (b : UInt8) :
    (portableCrc32cStep s b).toBitVec
      = ReflectedCrc.byteStep crc32cPolynomial.toBitVec s.toBitVec b := by
  have hshift : (s >>> 8).toBitVec = s.toBitVec >>> 8 := rfl
  rw [portableCrc32cStep, UInt32.toBitVec_xor, crc32cTable_get,
    ReflectedCrc.byteStep_table, UInt32.toBitVec_and, UInt32.toBitVec_xor,
    byteIn_eq, hshift]
  rfl

/-- **THE TABLE WALK IS THE BIT-SERIAL CHECK**, from any state and over any
    byte string. -/
theorem portableCrc32cUpdate_toBitVec (s : UInt32) (bytes : List UInt8) :
    (portableCrc32cUpdate s bytes).toBitVec
      = ReflectedCrc.update crc32cPolynomial.toBitVec s.toBitVec bytes := by
  induction bytes generalizing s with
  | nil => rfl
  | cons b bs ih =>
      rw [ReflectedCrc.update_cons, ← portableCrc32cStep_toBitVec]
      exact ih (portableCrc32cStep s b)

/-- The polynomial has its top bit, so the check is injective in the state. -/
theorem crc32cPolynomial_top :
    crc32cPolynomial.toBitVec.getLsbD (32 - 1) = true := by decide

/-! ## Little-endian checksum bytes -/

/-- The four shifts are the little-endian bytes of the checksum. -/
theorem littleEndianBytes_eq (c : Crc32c) :
    c.littleEndianBytes = littleEndian 4 c.value.toNat := by
  have h0 := byte_of_u32 c.value 0 (by decide)
  rw [UInt32.shiftRight_zero] at h0
  rw [Crc32c.littleEndianBytes, h0, byte_of_u32 c.value 8 (by decide),
    byte_of_u32 c.value 16 (by decide), byte_of_u32 c.value 24 (by decide)]
  show [_, _, _, _] = [_, _, _, _]
  rw [Nat.div_div_eq_div_mul, Nat.div_div_eq_div_mul]
  show [UInt8.ofNat (c.value.toNat / 1), _, _, _] = _
  rw [Nat.div_one]
  rfl

/-- The four shifts put the little-endian value together. -/
theorem fromLittleEndian_toNat (bytes : List UInt8) (h : bytes.length = 4) :
    (Crc32c.fromLittleEndian bytes h).value.toNat = ofLittleEndian bytes := by
  obtain ⟨b0, b1, b2, b3, rfl⟩ := List.length_eq_four.mp h
  have h0 := b0.toNat_lt
  have h1 := b1.toNat_lt
  have h2 := b2.toNat_lt
  have hlow : b0.toUInt32.toNat = b0.toNat := UInt8.toNat_toUInt32 b0
  have e1 := u32_or_byte b1 (x := b0.toUInt32) (k := 8) (by decide) (by
    rw [hlow]; exact h0)
  have e2 := u32_or_byte b2 (k := 16) (by decide) (by
    rw [e1, hlow]
    show _ + _ * 256 < 65536
    omega)
  have e3 := u32_or_byte b3 (k := 24) (by decide) (by
    rw [e2, e1, hlow]
    show _ + _ * 256 + _ * 65536 < 16777216
    omega)
  show (b0.toUInt32 ||| (b1.toUInt32 <<< 8) ||| (b2.toUInt32 <<< 16)
    ||| (b3.toUInt32 <<< 24)).toNat = _
  rw [e3, e2, e1, hlow]
  show _ + _ * 256 + _ * 65536 + _ * 16777216
    = _ + 256 * (_ + 256 * (_ + 256 * (_ + 256 * 0)))
  omega

/-- Reading four bytes and writing them back gives the bytes. -/
theorem fromLittleEndian_bytes (bytes : List UInt8) (h : bytes.length = 4) :
    (Crc32c.fromLittleEndian bytes h).littleEndianBytes = bytes := by
  rw [littleEndianBytes_eq, fromLittleEndian_toNat, ← h]
  exact littleEndian_ofLittleEndian bytes

/-- A checksum is the one read from its own bytes. -/
theorem fromLittleEndian_eq_iff (bytes : List UInt8) (h : bytes.length = 4)
    (c : Crc32c) :
    Crc32c.fromLittleEndian bytes h = c ↔ bytes = c.littleEndianBytes := by
  constructor
  · rintro rfl
    exact (fromLittleEndian_bytes bytes h).symm
  · rintro rfl
    have hc : c.value.toNat < 256 ^ 4 := c.value.toNat_lt
    have hvalue : (Crc32c.fromLittleEndian c.littleEndianBytes h).value
        = c.value := by
      apply UInt32.toNat_inj.mp
      rw [fromLittleEndian_toNat, littleEndianBytes_eq,
        ofLittleEndian_littleEndian, Nat.mod_eq_of_lt hc]
    cases c
    exact congrArg Crc32c.mk hvalue

end ShiboriIntegrity
