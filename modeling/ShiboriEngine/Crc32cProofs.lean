import Mathlib
import ShiboriEngine.Library.Machine
import ShiboriEngine.Crc32cX86

/-! # The hasher against the bit-serial reference

    The reference takes the message a bit at a time and keeps no table.  A
    hasher is compared with an abstract one that only remembers the bytes
    since the last reset: `HashesAs` relates the two, every call keeps it and
    is answered alike, so whole runs are (`hasher_refines`).  Which backend
    the hasher dispatches to is invisible as long as the backend is the table
    walk. -/

namespace ShiboriCrc32c

open ShiboriIntegrity ShiboriCrc32cX86 Machine

/-! ## The reference -/

/-- One message bit: a shift, and the polynomial when the bit shifted out
    differs from it. -/
def referenceBit (state : UInt32) (bit : Bool) : UInt32 :=
  if state.toNat.testBit 0 ≠ bit then (state >>> 1) ^^^ 0x82f63b78
  else state >>> 1

/-- The bits of a message, the least significant of each byte first. -/
def messageBits (bytes : List UInt8) : List Bool :=
  bytes.flatMap fun byte => (List.range 8).map byte.toNat.testBit

/-- The checksum by the reference, bit by bit. -/
def referenceCrc32c (bytes : List UInt8) : Crc32c :=
  ⟨(messageBits bytes).foldl referenceBit 0xffffffff ^^^ 0xffffffff⟩

example : referenceCrc32c
    [0x31, 0x32, 0x33, 0x34, 0x35, 0x36, 0x37, 0x38, 0x39]
    = ⟨0xe3069283⟩ := by decide +kernel

/-- One bit of the reference is one message step. -/
theorem referenceBit_toBitVec (state : UInt32) (bit : Bool) :
    (referenceBit state bit).toBitVec
      = ReflectedCrc.messageStep crc32cPolynomial.toBitVec state.toBitVec
          bit := by
  have hlow : state.toNat.testBit 0 = state.toBitVec.getLsbD 0 := rfl
  rw [referenceBit, ReflectedCrc.messageStep, hlow]
  split <;> rfl

/-- So are all bits. -/
theorem foldl_referenceBit_toBitVec (bits : List Bool) (state : UInt32) :
    (bits.foldl referenceBit state).toBitVec
      = bits.foldl (ReflectedCrc.messageStep crc32cPolynomial.toBitVec)
          state.toBitVec := by
  induction bits generalizing state with
  | nil => rfl
  | cons bit bits ih =>
      rw [List.foldl_cons, List.foldl_cons, ← referenceBit_toBitVec]
      exact ih (referenceBit state bit)

/-- **ONE TABLE STEP IS EIGHT REFERENCE BITS**, in every state. -/
theorem portableCrc32cStep_reference (state : UInt32) (byte : UInt8) :
    portableCrc32cStep state byte
      = ((List.range 8).map byte.toNat.testBit).foldl referenceBit state := by
  apply UInt32.toBitVec_inj.mp
  rw [portableCrc32cStep_toBitVec, foldl_referenceBit_toBitVec]
  exact (ReflectedCrc.foldl_messageStep_byte _ (by decide) _ byte).symm

/-- A table entry is the reference remainder of its index. -/
theorem crc32cTable_reference (byte : UInt8) :
    crc32cTable.get ⟨byte.toNat, byte.toNat_lt⟩
      = ((List.range 8).map byte.toNat.testBit).foldl referenceBit 0 := by
  apply UInt32.toBitVec_inj.mp
  have hentry := crc32cTable_get byte.toUInt32
    (by rw [UInt8.toNat_toUInt32]; exact byte.toNat_lt)
  have hbits := ReflectedCrc.foldl_messageStep_byte
    crc32cPolynomial.toBitVec (by decide) 0#32 byte
  rw [ReflectedCrc.byteStep, BitVec.zero_xor, ← byteIn_eq] at hbits
  rw [foldl_referenceBit_toBitVec]
  exact hentry.trans hbits.symm

/-- The table-driven update is the reference. -/
theorem portableCrc32cUpdate_reference (state : UInt32)
    (bytes : List UInt8) :
    portableCrc32cUpdate state bytes
      = (messageBits bytes).foldl referenceBit state := by
  induction bytes generalizing state with
  | nil => rfl
  | cons byte bytes ih =>
      rw [messageBits, List.flatMap_cons, List.foldl_append,
        ← portableCrc32cStep_reference]
      exact ih (portableCrc32cStep state byte)

/-- The checksum of a byte string is the reference one. -/
theorem crc32c_eq_reference (bytes : List UInt8) :
    crc32c bytes = referenceCrc32c bytes := by
  rw [crc32c, referenceCrc32c, portableCrc32cUpdate_reference]

/-! ## Runs of a hasher -/

/-- A call on a hasher. -/
inductive HasherCall where
  | update (bytes : List UInt8)
  | finalize
  | reset

/-- One call on the hasher, with the checksum `finalize` returns. -/
def hasherStep (x86 : Option X86Crc32c) (hasher : Crc32cHasher) :
    HasherCall → Option Crc32c × Crc32cHasher
  | .update bytes => (none, hasher.update bytes x86)
  | .finalize => (some hasher.finalize, hasher)
  | .reset => (none, hasher.reset)

/-- The abstract hasher keeps the bytes since the last reset. -/
def referenceStep (absorbed : List UInt8) :
    HasherCall → Option Crc32c × List UInt8
  | .update bytes => (none, absorbed ++ bytes)
  | .finalize => (some (referenceCrc32c absorbed), absorbed)
  | .reset => (none, [])

/-- The backend, if there is one, computes the table walk. -/
def BackendAgrees (x86 : Option X86Crc32c) : Prop :=
  ∀ backend ∈ x86, ∀ state bytes,
    backend.update state bytes = portableCrc32cUpdate state bytes

/-- What the hasher computes with is the table walk. -/
def Dispatches (x86 : Option X86Crc32c) (hasher : Crc32cHasher) : Prop :=
  hasher.implementation = .portable ∨ BackendAgrees x86

/-- The hasher stands where the table walk over the absorbed bytes does. -/
structure HashesAs (x86 : Option X86Crc32c) (hasher : Crc32cHasher)
    (absorbed : List UInt8) : Prop where
  dispatches : Dispatches x86 hasher
  state_eq : hasher.state = portableCrc32cUpdate 0xffffffff absorbed

/-- An update reaches the portable state, whichever it dispatches to. -/
theorem update_state {x86 : Option X86Crc32c} {hasher : Crc32cHasher}
    (h : Dispatches x86 hasher) (bytes : List UInt8) :
    hasher.update bytes x86
      = { hasher with state := portableCrc32cUpdate hasher.state bytes } := by
  obtain ⟨state, implementation⟩ := hasher
  cases x86 with
  | none => rfl
  | some backend =>
      cases implementation with
      | portable => rfl
      | hardware =>
          rcases h with hportable | hagrees
          · cases hportable
          · exact congrArg (Crc32cHasher.mk · .hardware)
              (hagrees backend rfl state bytes)

/-- A run is answered like the abstract one. -/
theorem hasher_refines {x86 : Option X86Crc32c} {hasher : Crc32cHasher}
    {absorbed : List UInt8} (h : HashesAs x86 hasher absorbed)
    (calls : List HasherCall) :
    outputs (hasherStep x86) hasher calls
        = outputs referenceStep absorbed calls
      ∧ HashesAs x86 (finalState (hasherStep x86) hasher calls)
          (finalState referenceStep absorbed calls) := by
  have hguard : Along (hasherStep x86) (fun _ _ => True) hasher calls :=
    along_of_forall (fun _ _ => trivial) hasher calls
  refine simulation ?_ h hguard
  intro hasher absorbed call hrel _
  obtain ⟨hdispatch, hstate⟩ := hrel
  cases call with
  | update bytes =>
      refine ⟨rfl, ?_, ?_⟩
      · show Dispatches x86 (hasher.update bytes x86)
        rw [update_state hdispatch]
        exact hdispatch
      · show (hasher.update bytes x86).state = _
        rw [update_state hdispatch]
        show portableCrc32cUpdate hasher.state bytes
          = portableCrc32cUpdate _ (absorbed ++ bytes)
        rw [portableCrc32cUpdate_append, ← hstate]
  | finalize =>
      refine ⟨?_, hdispatch, hstate⟩
      show some (Crc32cHasher.finalize hasher) = some (referenceCrc32c absorbed)
      rw [← crc32c_eq_reference, crc32c, ← hstate, Crc32cHasher.finalize]
  | reset => exact ⟨rfl, hdispatch, rfl⟩

/-- A fresh hasher has absorbed nothing. -/
theorem create_hashesAs {mode : Crc32cMode} {x86 : Option X86Crc32c}
    (h : mode = .portable ∨ BackendAgrees x86) :
    HashesAs x86 (Crc32cHasher.create mode x86) [] := by
  cases x86 with
  | none => exact ⟨Or.inl rfl, rfl⟩
  | some backend =>
      rw [Crc32cHasher.create]
      by_cases hpick : mode = .automatic ∧ backend.available = true
      · rw [if_pos hpick]
        refine ⟨Or.inr ?_, rfl⟩
        rcases h with hportable | hagrees
        · rw [hportable] at hpick
          cases hpick.1
        · exact hagrees
      · rw [if_neg hpick]
        exact ⟨Or.inl rfl, rfl⟩

/-- Fragments in a row are their concatenation. -/
theorem finalState_fragments (absorbed : List UInt8)
    (fragments : List (List UInt8)) :
    finalState referenceStep absorbed (fragments.map .update)
      = absorbed ++ fragments.flatten := by
  induction fragments generalizing absorbed with
  | nil => exact (List.append_nil absorbed).symm
  | cons fragment fragments ih =>
      rw [List.map_cons, finalState_cons, List.flatten_cons,
        ← List.append_assoc]
      exact ih (absorbed ++ fragment)

/-- Asking for the checksum changes nothing. -/
theorem finalState_finalize (x86 : Option X86Crc32c) (hasher : Crc32cHasher)
    (before after : List HasherCall) :
    finalState (hasherStep x86) hasher (before ++ .finalize :: after)
      = finalState (hasherStep x86) hasher (before ++ after) := by
  rw [finalState_append, finalState_append]
  rfl

/-- The checksum of whatever hashes as the absorbed bytes. -/
theorem HashesAs.finalize_eq {x86 : Option X86Crc32c} {hasher : Crc32cHasher}
    {absorbed : List UInt8} (h : HashesAs x86 hasher absorbed) :
    hasher.finalize = referenceCrc32c absorbed := by
  rw [← crc32c_eq_reference, crc32c, ← h.state_eq, Crc32cHasher.finalize]

/-- After a reset only the fragments since then count. -/
theorem finalState_reset_fragments (absorbed : List UInt8)
    (calls : List HasherCall) (fragments : List (List UInt8)) :
    finalState referenceStep absorbed
        (calls ++ .reset :: fragments.map .update)
      = fragments.flatten := by
  rw [finalState_append, finalState_cons]
  exact finalState_fragments [] fragments

/-- **THE PORTABLE HASHER IS THE BIT-SERIAL REFERENCE**: in every run, over
    every fragmentation, and with the checksum asked for at any point. -/
theorem portable_hasher_is_reference (x86 : Option X86Crc32c) :
    (∀ (byte : UInt8), crc32cTable.get ⟨byte.toNat, byte.toNat_lt⟩
      = ((List.range 8).map byte.toNat.testBit).foldl referenceBit 0)
    ∧ (∀ state byte, portableCrc32cStep state byte
      = ((List.range 8).map byte.toNat.testBit).foldl referenceBit state)
    ∧ (∀ calls,
      outputs (hasherStep x86) (Crc32cHasher.create .portable x86) calls
        = outputs referenceStep [] calls)
    ∧ (∀ calls (fragments : List (List UInt8)),
      (finalState (hasherStep x86) (Crc32cHasher.create .portable x86)
          (calls ++ .reset :: fragments.map .update)).finalize
        = referenceCrc32c fragments.flatten)
    ∧ (∀ fragments : List (List UInt8),
      (finalState (hasherStep x86) (Crc32cHasher.create .portable x86)
          (fragments.map .update)).finalize
        = referenceCrc32c fragments.flatten)
    ∧ ∀ before after,
      finalState (hasherStep x86) (Crc32cHasher.create .portable x86)
          (before ++ .finalize :: after)
        = finalState (hasherStep x86) (Crc32cHasher.create .portable x86)
            (before ++ after) := by
  have hfresh : HashesAs x86 (Crc32cHasher.create .portable x86) [] :=
    create_hashesAs (Or.inl rfl)
  refine ⟨crc32cTable_reference, portableCrc32cStep_reference, ?_, ?_, ?_, ?_⟩
  · intro calls
    exact (hasher_refines hfresh calls).1
  · intro calls fragments
    have hrun := (hasher_refines hfresh
      (calls ++ .reset :: fragments.map .update)).2
    rw [finalState_reset_fragments] at hrun
    exact hrun.finalize_eq
  · intro fragments
    have hrun := (hasher_refines hfresh (fragments.map .update)).2
    rw [finalState_fragments] at hrun
    exact hrun.finalize_eq
  · intro before after
    exact finalState_finalize x86 _ before after

/-! ## The accelerated hasher -/

/-- The backend of a build: none, or the one over the instructions. -/
def buildBackend (intrinsics : X86Intrinsics) (build : Option X86Build) :
    Option X86Crc32c :=
  build.map (X86Build.backend intrinsics)

/-- The backend of a build agrees with the portable update. -/
theorem buildBackend_agrees {intrinsics : X86Intrinsics}
    (h : intrinsics.Castagnoli) (build : Option X86Build) :
    BackendAgrees (buildBackend intrinsics build) := by
  intro backend hmem state bytes
  obtain ⟨found, _, rfl⟩ := Option.map_eq_some_iff.mp hmem
  exact x86Crc32cUpdate_eq h found.wide state bytes

/-- **EVERY HOST COMPUTES THE SAME CHECKSUMS**: the accelerated update is the
    portable one, and a hasher that picks its backend answers every run as a
    portable hasher does, on this host or another. -/
theorem automatic_hasher_is_portable (intrinsics : X86Intrinsics)
    (h : intrinsics.Castagnoli) :
    (∀ wide state bytes, x86Crc32cUpdate intrinsics wide state bytes
      = portableCrc32cUpdate state bytes)
    ∧ (∀ build build' calls,
      outputs (hasherStep (buildBackend intrinsics build))
          (Crc32cHasher.create .automatic (buildBackend intrinsics build)) calls
        = outputs (hasherStep (buildBackend intrinsics build'))
            (Crc32cHasher.create .portable (buildBackend intrinsics build'))
            calls)
    ∧ ∀ build (fragments : List (List UInt8)),
      (finalState (hasherStep (buildBackend intrinsics build))
          (Crc32cHasher.create .automatic (buildBackend intrinsics build))
          (fragments.map .update)).finalize
        = crc32c fragments.flatten := by
  have hfresh : ∀ mode build, HashesAs (buildBackend intrinsics build)
      (Crc32cHasher.create mode (buildBackend intrinsics build)) [] :=
    fun mode build => create_hashesAs (Or.inr (buildBackend_agrees h build))
  refine ⟨x86Crc32cUpdate_eq h, ?_, ?_⟩
  · intro build build' calls
    have hauto := (hasher_refines (hfresh .automatic build) calls).1
    have hportable := (hasher_refines (hfresh .portable build') calls).1
    exact hauto.trans hportable.symm
  · intro build fragments
    have hrun := (hasher_refines (hfresh .automatic build)
      (fragments.map .update)).2
    rw [finalState_fragments] at hrun
    rw [crc32c_eq_reference]
    exact hrun.finalize_eq

/-- The nine digits, eight at once and one behind. -/
theorem automatic_hasher_is_portable_at_software :
    softwareIntrinsics.Castagnoli
    ∧ x86Crc32cUpdate softwareIntrinsics true 0xffffffff
        [0x31, 0x32, 0x33, 0x34, 0x35, 0x36, 0x37, 0x38, 0x39]
      = portableCrc32cUpdate 0xffffffff
          [0x31, 0x32, 0x33, 0x34, 0x35, 0x36, 0x37, 0x38, 0x39] :=
  ⟨softwareIntrinsics_castagnoli,
    (automatic_hasher_is_portable softwareIntrinsics
      softwareIntrinsics_castagnoli).1 true 0xffffffff
      [0x31, 0x32, 0x33, 0x34, 0x35, 0x36, 0x37, 0x38, 0x39]⟩

end ShiboriCrc32c
