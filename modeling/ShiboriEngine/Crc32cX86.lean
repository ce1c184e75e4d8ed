import Mathlib
import ShiboriEngine.Library.Spans
import ShiboriEngine.Integrity

/-! # The accelerated CRC-32C backend

    The update over the SSE 4.2 checksum instructions: eight bytes a turn in a
    64-bit state where the build has 64-bit registers, then a byte a turn.
    The instructions are a parameter; `X86Intrinsics.Castagnoli` is what their
    documentation says of them. -/

namespace ShiboriCrc32cX86

open ShiboriIntegrity Spans Words

/-- The two instructions the update is written over. -/
structure X86Intrinsics where
  crc32U8 : UInt32 → UInt8 → UInt32
  crc32U64 : UInt64 → UInt64 → UInt64

/-- The bytes of a word in the order of a little-endian store. -/
def wordBytes (value : UInt64) : List UInt8 := littleEndian 8 value.toNat

/-- The documented instructions: eight bit steps of the reflected Castagnoli
    polynomial for a byte, and the eight bytes of a word in turn, the 32-bit
    result zero-extended. -/
structure X86Intrinsics.Castagnoli (intrinsics : X86Intrinsics) : Prop where
  crc32U8_eq : ∀ state byte, intrinsics.crc32U8 state byte
    = crc32cRemainder 8 (state ^^^ byte.toUInt32)
  crc32U64_eq : ∀ state value, intrinsics.crc32U64 state value
    = ((wordBytes value).foldl intrinsics.crc32U8 state.toUInt32).toUInt64

/-- `std::memcpy` of eight bytes into a word. -/
def loadU64 (bytes : List UInt8) : UInt64 :=
  UInt64.ofNat (ofLittleEndian bytes)

/-- The 64-bit loop: the state and the offset it stops at. -/
def x86WideLoop (intrinsics : X86Intrinsics) (bytes : List UInt8)
    (wideState : UInt64) (offset : Nat) : UInt64 × Nat :=
  if bytes.length - offset ≥ 8 then
    let value := loadU64 (subspan bytes offset 8)
    x86WideLoop intrinsics bytes (intrinsics.crc32U64 wideState value)
      (offset + 8)
  else (wideState, offset)
termination_by bytes.length - offset

/-- The byte loop. -/
def x86TailLoop (intrinsics : X86Intrinsics) (bytes : List UInt8)
    (state : UInt32) (offset : Nat) : UInt32 :=
  if _hmore : offset < bytes.length then
    x86TailLoop intrinsics bytes (intrinsics.crc32U8 state bytes[offset])
      (offset + 1)
  else state
termination_by bytes.length - offset

/-- `wide` says whether the 64-bit loop is compiled in. -/
def x86Crc32cUpdate (intrinsics : X86Intrinsics) (wide : Bool) (state : UInt32)
    (bytes : List UInt8) : UInt32 :=
  if wide then
    let (wideState, offset) := x86WideLoop intrinsics bytes state.toUInt64 0
    x86TailLoop intrinsics bytes wideState.toUInt32 offset
  else x86TailLoop intrinsics bytes state 0

/-- A build for an x86 processor, and whether the processor it runs on has the
    instructions. -/
structure X86Build where
  wide : Bool
  available : Bool

/-- The backend of a build. -/
def X86Build.backend (intrinsics : X86Intrinsics) (build : X86Build) :
    X86Crc32c where
  available := build.available
  update := x86Crc32cUpdate intrinsics build.wide

/-- The instructions in software. -/
def softwareIntrinsics : X86Intrinsics where
  crc32U8 state byte := crc32cRemainder 8 (state ^^^ byte.toUInt32)
  crc32U64 state value :=
    ((wordBytes value).foldl
      (fun state byte => crc32cRemainder 8 (state ^^^ byte.toUInt32))
      state.toUInt32).toUInt64

/-- The software intrinsics compute what the hardware is documented to. -/
theorem softwareIntrinsics_castagnoli : softwareIntrinsics.Castagnoli where
  crc32U8_eq _ _ := rfl
  crc32U64_eq _ _ := rfl

/-! ## Both loops are the table walk -/

/-- The byte instruction is the table step. -/
theorem crc32U8_eq_step {intrinsics : X86Intrinsics}
    (h : intrinsics.Castagnoli) :
    intrinsics.crc32U8 = portableCrc32cStep := by
  funext state byte
  apply UInt32.toBitVec_inj.mp
  rw [h.crc32U8_eq, crc32cRemainder_toBitVec, portableCrc32cStep_toBitVec,
    UInt32.toBitVec_xor, byteIn_eq]
  rfl

/-- The eight bytes read into a word are the bytes of the word. -/
theorem wordBytes_loadU64 {bytes : List UInt8} (h : bytes.length = 8) :
    wordBytes (loadU64 bytes) = bytes := by
  have hlt : ofLittleEndian bytes < 2 ^ 64 := by
    have hbytes := ofLittleEndian_lt bytes
    rw [h] at hbytes
    exact hbytes
  have hload : (loadU64 bytes).toNat = ofLittleEndian bytes :=
    UInt64.toNat_ofNat_of_lt' hlt
  rw [wordBytes, hload, ← h]
  exact littleEndian_ofLittleEndian bytes

/-- The tail loop is the portable update of what is left. -/
theorem x86TailLoop_eq {intrinsics : X86Intrinsics}
    (h : intrinsics.Castagnoli) (bytes : List UInt8) (state : UInt32)
    (offset : Nat) :
    x86TailLoop intrinsics bytes state offset
      = portableCrc32cUpdate state (bytes.drop offset) := by
  induction state, offset using x86TailLoop.induct intrinsics bytes with
  | case1 state offset hmore ih =>
      rw [x86TailLoop, dif_pos hmore, ih, crc32U8_eq_step h,
        List.drop_eq_getElem_cons hmore]
      rfl
  | case2 state offset hdone =>
      rw [x86TailLoop, dif_neg hdone,
        List.drop_eq_nil_of_le (Nat.not_lt.mp hdone)]
      rfl

/-- The word instruction is eight table steps, and leaves a state that fits 32
    bits. -/
theorem crc32U64_load {intrinsics : X86Intrinsics}
    (h : intrinsics.Castagnoli) (state : UInt64) {bytes : List UInt8}
    (hlen : bytes.length = 8) :
    (intrinsics.crc32U64 state (loadU64 bytes)).toUInt32
      = portableCrc32cUpdate state.toUInt32 bytes := by
  rw [h.crc32U64_eq, wordBytes_loadU64 hlen, crc32U8_eq_step h,
    UInt32.toUInt32_toUInt64]
  rfl

/-- The rest of the input goes on from where the 64-bit loop stopped. -/
theorem x86WideLoop_eq {intrinsics : X86Intrinsics}
    (h : intrinsics.Castagnoli) (bytes : List UInt8) (wideState : UInt64)
    (offset : Nat) :
    portableCrc32cUpdate
        (x86WideLoop intrinsics bytes wideState offset).1.toUInt32
        (bytes.drop (x86WideLoop intrinsics bytes wideState offset).2)
      = portableCrc32cUpdate wideState.toUInt32 (bytes.drop offset) := by
  induction wideState, offset using x86WideLoop.induct intrinsics bytes with
  | case1 wideState offset hmore value ih =>
      have hlen : (subspan bytes offset 8).length = 8 :=
        subspan_length (by omega)
      have hsplit : bytes.drop offset
          = subspan bytes offset 8 ++ bytes.drop (offset + 8) := by
        rw [subspan, ← List.drop_drop, List.take_append_drop]
      rw [x86WideLoop, if_pos hmore]
      show portableCrc32cUpdate (x86WideLoop _ _ _ _).1.toUInt32
        (List.drop (x86WideLoop _ _ _ _).2 bytes) = _
      rw [ih, crc32U64_load h wideState hlen, hsplit,
        portableCrc32cUpdate_append]
  | case2 wideState offset hdone =>
      rw [x86WideLoop, if_neg hdone]

/-- **THE ACCELERATED UPDATE IS THE TABLE WALK**, with and without the 64-bit
    loop. -/
theorem x86Crc32cUpdate_eq {intrinsics : X86Intrinsics}
    (h : intrinsics.Castagnoli) (wide : Bool) (state : UInt32)
    (bytes : List UInt8) :
    x86Crc32cUpdate intrinsics wide state bytes
      = portableCrc32cUpdate state bytes := by
  cases wide with
  | false => exact x86TailLoop_eq h bytes state 0
  | true =>
      show x86TailLoop intrinsics bytes _ _ = _
      rw [x86TailLoop_eq h, x86WideLoop_eq h, UInt32.toUInt32_toUInt64]
      rfl

end ShiboriCrc32cX86
