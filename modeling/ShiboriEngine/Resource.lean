import Mathlib
import ShiboriEngine.Library.Words
import ShiboriEngine.Error

/-! # Checked arithmetic and resource limits

    The overflow-checked sums and products every size computation goes
    through, and the configured limits with their consistency check. -/

namespace ShiboriResource

open ShiboriError Words

/-! ## Checked arithmetic -/

/-- `std::numeric_limits<std::uint64_t>::max()`. -/
def u64Max : UInt64 := 18446744073709551615

/-- The sum, refused when it does not fit 64 bits. -/
def checkedAdd (left right : UInt64) (operation : Operation)
    (subject : String) : Result UInt64 :=
  if right > u64Max - left then
    fail .arithmeticOverflow operation
      (subject ++ " exceeds the unsigned 64-bit range")
  else .ok (left + right)

/-- The product, refused when it does not fit 64 bits. -/
def checkedMultiply (left right : UInt64) (operation : Operation)
    (subject : String) : Result UInt64 :=
  if left ≠ 0 ∧ right > u64Max / left then
    fail .arithmeticOverflow operation
      (subject ++ " exceeds the unsigned 64-bit range")
  else .ok (left * right)

/-- A checked sum succeeds exactly when the mathematical sum fits. -/
theorem checkedAdd_eq_ok {l r t : UInt64} {op : Operation} {subject : String} :
    checkedAdd l r op subject = .ok t
      ↔ l.toNat + r.toNat < 2 ^ 64 ∧ t.toNat = l.toNat + r.toNat := by
  rw [checkedAdd, ← add_fits_iff]
  by_cases h : r > u64Max - l
  · rw [if_pos h]
    exact ⟨fun hc => (fail_ne_ok _ _ _ _ hc).elim, fun hc => (hc.1 h).elim⟩
  · rw [if_neg h]
    have hsum := toNat_add_of_lt (add_fits_iff.mp h)
    constructor
    · intro hc
      cases hc
      exact ⟨h, hsum⟩
    · rintro ⟨_, ht⟩
      exact congrArg Except.ok (UInt64.toNat_inj.mp (hsum.trans ht.symm))

/-- A checked sum fails exactly when the mathematical sum does not fit. -/
theorem checkedAdd_eq_error {l r : UInt64} {op : Operation}
    {subject : String} {e : Error} :
    checkedAdd l r op subject = .error e
      ↔ 2 ^ 64 ≤ l.toNat + r.toNat
        ∧ e = { code := .arithmeticOverflow, operation := op, message :=
                  subject ++ " exceeds the unsigned 64-bit range" } := by
  rw [checkedAdd, ← Nat.not_lt, ← add_fits_iff, not_not]
  by_cases h : r > u64Max - l
  · rw [if_pos h]
    constructor
    · intro hc
      exact ⟨h, (Except.error.inj hc).symm⟩
    · rintro ⟨_, rfl⟩
      rfl
  · rw [if_neg h]
    exact ⟨fun hc => (nomatch hc), fun hc => (h hc.1).elim⟩

/-- The product overflow test, mathematically. -/
private theorem multiply_fits_iff {l r : UInt64} :
    ¬ (l ≠ 0 ∧ r > u64Max / l) ↔ l.toNat * r.toNat < 2 ^ 64 := by
  have hmax : u64Max.toNat = 2 ^ 64 - 1 := rfl
  by_cases hl : l = 0
  · subst hl
    have hzero : (0 : UInt64).toNat * r.toNat = 0 := Nat.zero_mul _
    rw [hzero]
    exact ⟨fun _ => by decide, fun _ h => h.1 rfl⟩
  · have hpos : 0 < l.toNat := by
      apply Nat.pos_of_ne_zero
      intro h0
      exact hl (UInt64.toNat_inj.mp h0)
    have hdiv : r > u64Max / l ↔ ¬ r.toNat * l.toNat ≤ 2 ^ 64 - 1 := by
      rw [gt_iff_lt, lt_toNat, UInt64.toNat_div, hmax, ← Nat.le_div_iff_mul_le hpos,
        Nat.not_le]
    constructor
    · intro h
      have hle : r.toNat * l.toNat ≤ 2 ^ 64 - 1 := by
        by_contra hc
        exact h ⟨hl, hdiv.mpr hc⟩
      rw [Nat.mul_comm]
      omega
    · intro h hc
      refine hdiv.mp hc.2 ?_
      rw [Nat.mul_comm]
      omega

/-- A checked product succeeds exactly when the mathematical one fits. -/
theorem checkedMultiply_eq_ok {l r t : UInt64} {op : Operation}
    {subject : String} :
    checkedMultiply l r op subject = .ok t
      ↔ l.toNat * r.toNat < 2 ^ 64 ∧ t.toNat = l.toNat * r.toNat := by
  rw [checkedMultiply, ← multiply_fits_iff]
  by_cases h : l ≠ 0 ∧ r > u64Max / l
  · rw [if_pos h]
    exact ⟨fun hc => (fail_ne_ok _ _ _ _ hc).elim, fun hc => (hc.1 h).elim⟩
  · rw [if_neg h]
    have hfit := multiply_fits_iff.mp h
    have hprod : (l * r).toNat = l.toNat * r.toNat := by
      rw [UInt64.toNat_mul, Nat.mod_eq_of_lt hfit]
    constructor
    · intro hc
      cases hc
      exact ⟨h, hprod⟩
    · rintro ⟨_, ht⟩
      exact congrArg Except.ok (UInt64.toNat_inj.mp (hprod.trans ht.symm))

/-! ## Resource kinds and limits -/

/-- What a budget accounts for. -/
inductive ResourceKind where
  | residentMemory
  | blockRows
  | decodedBlockBytes
  | recordBytes
  | metadataBytes
  | fields
  | encodingDepth
  | workers
  | queuedBlocks
deriving DecidableEq, Repr

/-- The name of a kind in messages. -/
def ResourceKind.toString : ResourceKind → String
  | .residentMemory => "resident_memory"
  | .blockRows => "block_rows"
  | .decodedBlockBytes => "decoded_block_bytes"
  | .recordBytes => "record_bytes"
  | .metadataBytes => "metadata_bytes"
  | .fields => "fields"
  | .encodingDepth => "encoding_depth"
  | .workers => "workers"
  | .queuedBlocks => "queued_blocks"

/-- The configured limits. -/
structure ResourceLimits where
  maximumResidentBytes : UInt64
  maximumBlockRows : UInt64
  maximumDecodedBlockBytes : UInt64
  maximumRecordBytes : UInt64
  maximumMetadataBytes : UInt64
  maximumFields : UInt32
  maximumEncodingDepth : UInt32
  maximumWorkers : UInt32
  maximumQueuedBlocks : UInt32
deriving DecidableEq, Repr

/-- The limits of a default configuration. -/
def defaultResourceLimits : ResourceLimits where
  maximumResidentBytes := 512 * 1048576
  maximumBlockRows := 1000000
  maximumDecodedBlockBytes := 64 * 1048576
  maximumRecordBytes := 128 * 1048576
  maximumMetadataBytes := 16 * 1048576
  maximumFields := 4096
  maximumEncodingDepth := 8
  maximumWorkers := 8
  maximumQueuedBlocks := 4

/-- What a limit of zero is refused with. -/
def invalidLimit (name : String) : Status :=
  fail .invalidResourceLimit .configure
    (name ++ " must be greater than zero")

/-- The named values the zero test walks over, in order. -/
def ResourceLimits.values (limits : ResourceLimits) :
    List (String × UInt64) :=
  [("maximum_resident_bytes", limits.maximumResidentBytes),
    ("maximum_block_rows", limits.maximumBlockRows),
    ("maximum_decoded_block_bytes", limits.maximumDecodedBlockBytes),
    ("maximum_record_bytes", limits.maximumRecordBytes),
    ("maximum_metadata_bytes", limits.maximumMetadataBytes),
    ("maximum_fields", limits.maximumFields.toUInt64),
    ("maximum_encoding_depth", limits.maximumEncodingDepth.toUInt64),
    ("maximum_workers", limits.maximumWorkers.toUInt64),
    ("maximum_queued_blocks", limits.maximumQueuedBlocks.toUInt64)]

/-- No limit is zero, and none of the parts exceeds its whole. -/
def validateResourceLimits (limits : ResourceLimits) : Status := do
  limits.values.forM fun (name, value) =>
    if value = 0 then invalidLimit name else .ok ()
  if limits.maximumDecodedBlockBytes > limits.maximumResidentBytes then
    fail .invalidResourceLimit .configure
      "maximum_decoded_block_bytes exceeds maximum_resident_bytes"
  else if limits.maximumRecordBytes > limits.maximumResidentBytes then
    fail .invalidResourceLimit .configure
      "maximum_record_bytes exceeds maximum_resident_bytes"
  else if limits.maximumMetadataBytes > limits.maximumRecordBytes then
    fail .invalidResourceLimit .configure
      "maximum_metadata_bytes exceeds maximum_record_bytes"
  else .ok ()

/-- Every default passes its own check. -/
theorem defaultResourceLimits_valid :
    validateResourceLimits defaultResourceLimits = .ok () := by decide

/-- Componentwise comparison of limits. -/
structure ResourceLimits.Le (a b : ResourceLimits) : Prop where
  residentBytes : a.maximumResidentBytes ≤ b.maximumResidentBytes
  blockRows : a.maximumBlockRows ≤ b.maximumBlockRows
  decodedBlockBytes : a.maximumDecodedBlockBytes ≤ b.maximumDecodedBlockBytes
  recordBytes : a.maximumRecordBytes ≤ b.maximumRecordBytes
  metadataBytes : a.maximumMetadataBytes ≤ b.maximumMetadataBytes
  fields : a.maximumFields ≤ b.maximumFields
  encodingDepth : a.maximumEncodingDepth ≤ b.maximumEncodingDepth
  workers : a.maximumWorkers ≤ b.maximumWorkers
  queuedBlocks : a.maximumQueuedBlocks ≤ b.maximumQueuedBlocks

end ShiboriResource
