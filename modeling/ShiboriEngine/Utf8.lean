import Mathlib
import ShiboriEngine.Library.Spans
import ShiboriEngine.Library.Utf8

/-! # The UTF-8 scan

    The one loop that schema names, metadata keys and strict string values are
    checked with; the source has it twice, over text and over bytes.  Every
    read is within bounds by its type.  `validUtf8_iff` says that the scan
    accepts exactly the well-formed strings. -/

namespace ShiboriUtf8

open Utf8 Spans
open String (utf8EncodeChar)

/-- The length a multi-byte sequence announces, with the bits of its value that
    the first byte carries. -/
def sequenceStart (first : UInt8) : Option (Nat × UInt32) :=
  if first &&& 0xe0 = 0xc0 then some (2, (first &&& 0x1f).toUInt32)
  else if first &&& 0xf0 = 0xe0 then some (3, (first &&& 0x0f).toUInt32)
  else if first &&& 0xf8 = 0xf0 then some (4, (first &&& 0x07).toUInt32)
  else none

/-- The inner loop over the continuation bytes. -/
def continuation (bytes : List UInt8) (index count : Nat)
    (hfits : index + count ≤ bytes.length) (offset : Nat)
    (codepoint : UInt32) : Option UInt32 :=
  if _hmore : offset < count then
    let byte := bytes[index + offset]
    if byte &&& 0xc0 ≠ 0x80 then none
    else
      continuation bytes index count hfits (offset + 1)
        ((codepoint <<< 6) ||| (byte &&& 0x3f).toUInt32)
  else some codepoint
termination_by count - offset

/-- One turn of the outer loop: the length of the sequence at `index`. -/
def sequenceAt (bytes : List UInt8) (index : Nat)
    (hmore : index < bytes.length) : Option Nat :=
  let first := bytes[index]
  if first ≤ 0x7f then some 1
  else
    match sequenceStart first with
    | none => none
    | some (count, codepoint) =>
        if hfits : index + count > bytes.length then none
        else
          match continuation bytes index count (Nat.not_lt.mp hfits) 1
              codepoint with
          | none => none
          | some codepoint =>
              let overlong :=
                (count = 2 ∧ codepoint < 0x80)
                  ∨ (count = 3 ∧ codepoint < 0x800)
                  ∨ (count = 4 ∧ codepoint < 0x10000)
              if overlong ∨ codepoint > 0x10ffff
                  ∨ (codepoint ≥ 0xd800 ∧ codepoint ≤ 0xdfff) then none
              else some count

/-! ## Bytes and values -/

/-- The mask of a two-byte lead selects the bytes from 192 to 223. -/
theorem lead_two (b : UInt8) :
    b &&& 0xe0 = 0xc0 ↔ 192 ≤ b.toNat ∧ b.toNat < 224 := by
  revert b
  decide +kernel

/-- The mask of a three-byte lead selects the bytes from 224 to 239. -/
theorem lead_three (b : UInt8) :
    b &&& 0xf0 = 0xe0 ↔ 224 ≤ b.toNat ∧ b.toNat < 240 := by
  revert b
  decide +kernel

/-- The mask of a four-byte lead selects the bytes from 240 to 247. -/
theorem lead_four (b : UInt8) :
    b &&& 0xf8 = 0xf0 ↔ 240 ≤ b.toNat ∧ b.toNat < 248 := by
  revert b
  decide +kernel

/-- The mask of a continuation byte selects the trailing bytes. -/
theorem trails_iff (b : UInt8) : b &&& 0xc0 = 0x80 ↔ Trails b := by
  unfold Trails
  revert b
  decide +kernel

private theorem low_bits (b mask : UInt8) (k : Nat)
    (hmask : mask.toNat = 2 ^ k - 1) :
    (b &&& mask).toUInt32.toNat = b.toNat % 2 ^ k := by
  rw [UInt8.toNat_toUInt32, UInt8.toNat_and, hmask,
    Nat.and_two_pow_sub_one_eq_mod]

/-- The value with six more bits. -/
def push (value : Nat) (b : UInt8) : Nat := value * 64 + (b.toNat - 128)

/-- Shifting a trailing byte in does not overflow. -/
theorem push_toNat {codepoint : UInt32} {b : UInt8} (hb : Trails b)
    (hsmall : (codepoint.toNat + 1) * 64 ≤ 2 ^ 32) :
    ((codepoint <<< 6) ||| (b &&& 0x3f).toUInt32).toNat
      = push codepoint.toNat b := by
  obtain ⟨hlow, hhigh⟩ := hb
  have hbits := low_bits b 0x3f 6 rfl
  have hshift : (codepoint <<< 6).toNat = codepoint.toNat <<< 6 := by
    rw [UInt32.toNat_shiftLeft]
    show codepoint.toNat <<< 6 % 2 ^ 32 = _
    rw [Nat.shiftLeft_eq]
    omega
  have hlt : (b.toNat % 2 ^ 6) < 2 ^ 6 := Nat.mod_lt _ (by decide)
  rw [UInt32.toNat_or, hshift, hbits, ← Nat.shiftLeft_add_eq_or_of_lt hlt,
    Nat.shiftLeft_eq]
  unfold push
  omega

/-! ## One sequence -/

/-- The inner loop accepts continuation bytes only and collects their bits. -/
theorem continuation_eq_some {bytes : List UInt8} {index count : Nat}
    (hfits : index + count ≤ bytes.length) {offset : Nat}
    (hle : offset ≤ count) {codepoint v : UInt32}
    (hsmall : (codepoint.toNat + 1) * 64 ^ (count - offset) ≤ 2 ^ 32) :
    continuation bytes index count hfits offset codepoint = some v
      ↔ (∀ b ∈ subspan bytes (index + offset) (count - offset), Trails b)
        ∧ v.toNat = (subspan bytes (index + offset) (count - offset)).foldl
            push codepoint.toNat := by
  -- By induction on the bytes still to read; `hsmall` leaves six bits of room
  -- for each of them, so no shift loses a bit.
  induction hk : count - offset generalizing offset codepoint with
  | zero =>
      rw [continuation, dif_neg (by omega)]
      constructor
      · rintro h
        cases h
        exact ⟨fun b hb => (nomatch hb), rfl⟩
      · rintro ⟨_, hv⟩
        exact congrArg some (UInt32.toNat_inj.mp hv.symm)
  | succ k ih =>
      have hstep : subspan bytes (index + offset) (k + 1)
          = bytes[index + offset]
            :: subspan bytes (index + (offset + 1)) k := by
        rw [Nat.add_comm k 1, subspan_add, subspan_one _ _ (by omega)]
        rfl
      rw [hk, Nat.pow_succ'] at hsmall
      have hone : 1 ≤ 64 ^ k := Nat.one_le_pow _ _ (by decide)
      rw [continuation, dif_pos (by omega), hstep]
      by_cases ht : Trails bytes[index + offset]
      · have hroom : (codepoint.toNat + 1) * 64 ≤ 2 ^ 32 := by
          refine Nat.le_trans (Nat.le_mul_of_pos_right _ hone) ?_
          rw [Nat.mul_assoc]
          exact hsmall
        have hpush := push_toNat ht hroom
        rw [if_neg (not_not.mpr ((trails_iff _).mpr ht)),
          ih (by omega) ?_ (by omega), hpush, List.foldl_cons]
        · constructor
          · rintro ⟨hall, hv⟩
            exact ⟨List.forall_mem_cons.mpr ⟨ht, hall⟩, hv⟩
          · rintro ⟨hall, hv⟩
            exact ⟨(List.forall_mem_cons.mp hall).2, hv⟩
        · have hle' : push codepoint.toNat bytes[index + offset] + 1
              ≤ (codepoint.toNat + 1) * 64 := by
            obtain ⟨_, hhigh⟩ := ht
            unfold push
            omega
          rw [hpush, show count - (offset + 1) = k by omega]
          refine Nat.le_trans (Nat.mul_le_mul_right _ hle') ?_
          rw [Nat.mul_assoc]
          exact hsmall
      · rw [if_pos (fun h => ht ((trails_iff _).mp h))]
        constructor
        · intro h
          exact nomatch h
        · rintro ⟨hall, _⟩
          exact (ht (List.forall_mem_cons.mp hall).1).elim

/-- The multi-byte case, for a first byte whose encodings are known by
    value. -/
theorem sequenceAt_multi {bytes : List UInt8} {index : Nat}
    (hmore : index < bytes.length) (floor : Nat) {count : Nat}
    {codepoint : UInt32}
    (hascii : ¬ bytes[index] ≤ 0x7f)
    (hstart : sequenceStart bytes[index] = some (count, codepoint))
    (hpos : 1 ≤ count)
    (hsmall : (codepoint.toNat + 1) * 64 ^ (count - 1) ≤ 2 ^ 32)
    (hover : ∀ v : UInt32,
      ((count = 2 ∧ v < 0x80) ∨ (count = 3 ∧ v < 0x800)
        ∨ (count = 4 ∧ v < 0x10000)) ↔ v.toNat < floor)
    (hchar : ∀ (c : Char) (tail : List UInt8), tail.length = count - 1 →
      (utf8EncodeChar c = bytes[index] :: tail
        ↔ (∀ b ∈ tail, Trails b)
          ∧ c.toNat = tail.foldl push codepoint.toNat ∧ floor ≤ c.toNat))
    {n : Nat} :
    sequenceAt bytes index hmore = some n
      ↔ n = count ∧ index + n ≤ bytes.length
        ∧ ∃ c, utf8EncodeChar c = subspan bytes index n := by
  have hspan : subspan bytes index count
      = bytes[index] :: subspan bytes (index + 1) (count - 1) := by
    rw [show count = 1 + (count - 1) by omega, subspan_add,
      subspan_one _ _ hmore, Nat.add_sub_cancel_left]
    rfl
  rw [sequenceAt]
  dsimp only
  rw [if_neg hascii, hstart]
  dsimp only
  by_cases hfits : index + count > bytes.length
  · rw [dif_pos hfits]
    constructor
    · intro h
      exact nomatch h
    · rintro ⟨rfl, hle, _⟩
      omega
  have htail : (subspan bytes (index + 1) (count - 1)).length = count - 1 :=
    subspan_length (by omega)
  rw [dif_neg hfits]
  have hcontinued := @continuation_eq_some bytes index count
    (Nat.not_lt.mp hfits) 1 hpos codepoint
  rcases Option.eq_none_or_eq_some (continuation bytes index count
    (Nat.not_lt.mp hfits) 1 codepoint) with hnone | ⟨v, hsome⟩
  · rw [hnone]
    constructor
    · intro h
      exact nomatch h
    · rintro ⟨rfl, _, c, hc⟩
      rw [hspan] at hc
      obtain ⟨hall, hvalue, _⟩ := (hchar c _ htail).mp hc
      have hread := (@hcontinued c.val hsmall).mpr ⟨hall, hvalue⟩
      exact nomatch hnone.symm.trans hread
  · obtain ⟨hall, hvalue⟩ := (@hcontinued v hsmall).mp hsome
    rw [hsome]
    dsimp only
    -- What is refused is an overlong form, a value past the last character or
    -- a surrogate, which together is: no character at or above the floor.
    have hbad : (((count = 2 ∧ v < 0x80) ∨ (count = 3 ∧ v < 0x800)
          ∨ (count = 4 ∧ v < 0x10000)) ∨ v > 0x10ffff
          ∨ (v ≥ 0xd800 ∧ v ≤ 0xdfff))
        ↔ v.toNat < floor
          ∨ ¬ (v.toNat < 0xd800 ∨ (0xdfff < v.toNat ∧ v.toNat < 0x110000)) := by
      rw [hover, gt_iff_lt, ge_iff_le, UInt32.lt_iff_toNat_lt,
        UInt32.le_iff_toNat_le, UInt32.le_iff_toNat_le]
      show v.toNat < floor ∨ 0x10ffff < v.toNat
        ∨ (0xd800 ≤ v.toNat ∧ v.toNat ≤ 0xdfff) ↔ _
      omega
    by_cases hc : ((count = 2 ∧ v < 0x80) ∨ (count = 3 ∧ v < 0x800)
        ∨ (count = 4 ∧ v < 0x10000)) ∨ v > 0x10ffff
        ∨ (v ≥ 0xd800 ∧ v ≤ 0xdfff)
    · rw [if_pos hc]
      constructor
      · intro h
        exact nomatch h
      · rintro ⟨rfl, _, c, hc'⟩
        rw [hspan] at hc'
        obtain ⟨_, hcv, hfloor⟩ := (hchar c _ htail).mp hc'
        have hvalid := char_valid c
        have heq : c.toNat = v.toNat := hcv.trans hvalue.symm
        rw [hbad, ← heq] at hc
        omega
    · rw [if_neg hc]
      rw [hbad] at hc
      constructor
      · intro h
        cases h
        obtain ⟨c, hcv⟩ := exists_char (not_not.mp (not_or.mp hc).2)
        refine ⟨rfl, by omega, c, ?_⟩
        rw [hspan]
        refine (hchar c _ htail).mpr ⟨hall, hcv.trans hvalue, ?_⟩
        rw [hcv]
        exact Nat.le_of_not_lt (not_or.mp hc).1
      · rintro ⟨rfl, _⟩
        rfl

/-- A byte below 0x80 is a sequence of its own. -/
theorem sequenceAt_ascii {bytes : List UInt8} {index : Nat}
    (hmore : index < bytes.length) (h : bytes[index] ≤ 0x7f) :
    sequenceAt bytes index hmore = some 1 := by
  rw [sequenceAt]
  exact if_pos h

private theorem small_start {codepoint : UInt32} (bits : Nat) {count : Nat}
    (h : codepoint.toNat + 1 ≤ bits)
    (hroom : bits * 64 ^ (count - 1) ≤ 2 ^ 32) :
    (codepoint.toNat + 1) * 64 ^ (count - 1) ≤ 2 ^ 32 :=
  Nat.le_trans (Nat.mul_le_mul_right _ h) hroom

private theorem not_ascii {a : UInt8} (h : 128 ≤ a.toNat) : ¬ a ≤ 0x7f := by
  rw [UInt8.le_iff_toNat_le]
  show ¬ _ ≤ 127
  omega

/-- A two-byte lead starts a sequence exactly when the next two bytes encode a
    character. -/
theorem sequenceAt_two {bytes : List UInt8} {index n : Nat}
    (hmore : index < bytes.length) (hlow : 192 ≤ bytes[index].toNat)
    (hhigh : bytes[index].toNat < 224) :
    sequenceAt bytes index hmore = some n
      ↔ n = 2 ∧ index + n ≤ bytes.length
        ∧ ∃ c, utf8EncodeChar c = subspan bytes index n := by
  have hbits := low_bits bytes[index] 0x1f 5 rfl
  have hvalue : (bytes[index] &&& 0x1f).toUInt32.toNat
      = bytes[index].toNat - 192 := by omega
  have hstart : sequenceStart bytes[index]
      = some (2, (bytes[index] &&& 0x1f).toUInt32) :=
    if_pos ((lead_two _).mpr ⟨hlow, hhigh⟩)
  refine sequenceAt_multi hmore 0x80 (not_ascii (by omega)) hstart (by decide)
    (small_start 32 (by omega) (by decide)) ?_ ?_
  · intro v
    rw [UInt32.lt_iff_toNat_lt]
    show (2 = 2 ∧ v.toNat < 128) ∨ _ ↔ _
    omega
  · intro c tail htail
    obtain ⟨b, rfl⟩ := List.length_eq_one_iff.mp htail
    rw [encodes_two, List.forall_mem_singleton, List.foldl_cons,
      List.foldl_nil, hvalue]
    unfold push
    constructor
    · rintro ⟨_, _, hb, hv, hfloor⟩
      exact ⟨hb, hv, hfloor⟩
    · rintro ⟨hb, hv, hfloor⟩
      exact ⟨hlow, hhigh, hb, hv, hfloor⟩

/-- A three-byte lead starts a sequence exactly when the next three bytes
    encode a character. -/
theorem sequenceAt_three {bytes : List UInt8} {index n : Nat}
    (hmore : index < bytes.length) (hlow : 224 ≤ bytes[index].toNat)
    (hhigh : bytes[index].toNat < 240) :
    sequenceAt bytes index hmore = some n
      ↔ n = 3 ∧ index + n ≤ bytes.length
        ∧ ∃ c, utf8EncodeChar c = subspan bytes index n := by
  have hbits := low_bits bytes[index] 0x0f 4 rfl
  have hvalue : (bytes[index] &&& 0x0f).toUInt32.toNat
      = bytes[index].toNat - 224 := by omega
  have hstart : sequenceStart bytes[index]
      = some (3, (bytes[index] &&& 0x0f).toUInt32) := by
    rw [sequenceStart, if_neg (fun h => by have := (lead_two _).mp h; omega),
      if_pos ((lead_three _).mpr ⟨hlow, hhigh⟩)]
  refine sequenceAt_multi hmore 0x800 (not_ascii (by omega)) hstart (by decide)
    (small_start 16 (by omega) (by decide)) ?_ ?_
  · intro v
    rw [UInt32.lt_iff_toNat_lt, UInt32.lt_iff_toNat_lt]
    show _ ∨ (3 = 3 ∧ v.toNat < 2048) ∨ _ ↔ _
    omega
  · intro c tail htail
    obtain ⟨b, d, rfl⟩ := List.length_eq_two.mp htail
    rw [encodes_three, List.forall_mem_cons, List.forall_mem_singleton,
      List.foldl_cons, List.foldl_cons, List.foldl_nil, hvalue]
    unfold push
    constructor
    · rintro ⟨_, _, hb, hd, hv, hfloor⟩
      exact ⟨⟨hb, hd⟩, hv, hfloor⟩
    · rintro ⟨⟨hb, hd⟩, hv, hfloor⟩
      exact ⟨hlow, hhigh, hb, hd, hv, hfloor⟩

/-- A four-byte lead starts a sequence exactly when the next four bytes encode
    a character. -/
theorem sequenceAt_four {bytes : List UInt8} {index n : Nat}
    (hmore : index < bytes.length) (hlow : 240 ≤ bytes[index].toNat)
    (hhigh : bytes[index].toNat < 248) :
    sequenceAt bytes index hmore = some n
      ↔ n = 4 ∧ index + n ≤ bytes.length
        ∧ ∃ c, utf8EncodeChar c = subspan bytes index n := by
  have hbits := low_bits bytes[index] 0x07 3 rfl
  have hvalue : (bytes[index] &&& 0x07).toUInt32.toNat
      = bytes[index].toNat - 240 := by omega
  have hstart : sequenceStart bytes[index]
      = some (4, (bytes[index] &&& 0x07).toUInt32) := by
    rw [sequenceStart, if_neg (fun h => by have := (lead_two _).mp h; omega),
      if_neg (fun h => by have := (lead_three _).mp h; omega),
      if_pos ((lead_four _).mpr ⟨hlow, hhigh⟩)]
  refine sequenceAt_multi hmore 0x10000 (not_ascii (by omega)) hstart
    (by decide) (small_start 8 (by omega) (by decide)) ?_ ?_
  · intro v
    rw [UInt32.lt_iff_toNat_lt, UInt32.lt_iff_toNat_lt,
      UInt32.lt_iff_toNat_lt]
    show _ ∨ _ ∨ (4 = 4 ∧ v.toNat < 65536) ↔ _
    omega
  · intro c tail htail
    obtain ⟨b, d, e, rfl⟩ := List.length_eq_three.mp htail
    rw [encodes_four, List.forall_mem_cons, List.forall_mem_cons,
      List.forall_mem_singleton, List.foldl_cons, List.foldl_cons,
      List.foldl_cons, List.foldl_nil, hvalue]
    unfold push
    constructor
    · rintro ⟨_, _, hb, hd, he, hv, hfloor⟩
      exact ⟨⟨hb, hd, he⟩, hv, hfloor⟩
    · rintro ⟨⟨hb, hd, he⟩, hv, hfloor⟩
      exact ⟨hlow, hhigh, hb, hd, he, hv, hfloor⟩

/-- **ONE SEQUENCE**: the loop body finds a length exactly where that many
    bytes encode a character. -/
theorem sequenceAt_eq_some {bytes : List UInt8} {index : Nat}
    (hmore : index < bytes.length) {n : Nat} :
    sequenceAt bytes index hmore = some n
      ↔ index + n ≤ bytes.length
        ∧ ∃ c, utf8EncodeChar c = subspan bytes index n := by
  -- The first byte of an encoding tells its length.
  have hlead : ∀ c, index + n ≤ bytes.length →
      utf8EncodeChar c = subspan bytes index n →
      (bytes[index].toNat < 128 ∧ n = 1)
        ∨ (192 ≤ bytes[index].toNat ∧ bytes[index].toNat < 224 ∧ n = 2)
        ∨ (224 ≤ bytes[index].toNat ∧ bytes[index].toNat < 240 ∧ n = 3)
        ∨ (240 ≤ bytes[index].toNat ∧ bytes[index].toNat < 248 ∧ n = 4) := by
    intro c hle hc
    cases n with
    | zero => exact (String.utf8EncodeChar_ne_nil hc).elim
    | succ n =>
        have hspan : subspan bytes index (n + 1)
            = bytes[index] :: subspan bytes (index + 1) n := by
          rw [Nat.add_comm n 1, subspan_add, subspan_one _ _ hmore]
          rfl
        have htail : (subspan bytes (index + 1) n).length = n :=
          subspan_length (by omega)
        have hlength := encode_length (hc.trans hspan)
        rw [htail] at hlength
        omega
  have hascii : bytes[index] ≤ 0x7f ↔ bytes[index].toNat < 128 := by
    rw [UInt8.le_iff_toNat_le]
    exact Nat.lt_succ_iff.symm
  by_cases h1 : bytes[index].toNat < 128
  · rw [sequenceAt_ascii hmore (hascii.mpr h1)]
    constructor
    · intro h
      cases h
      obtain ⟨c, hc⟩ := exists_char (Or.inl (show bytes[index].toNat < 0xd800
        by omega))
      refine ⟨hmore, c, ?_⟩
      rw [subspan_one _ _ hmore]
      exact encodes_one.mpr ⟨h1, hc⟩
    · rintro ⟨hle, c, hc⟩
      have hn := hlead c hle hc
      exact congrArg some (by omega)
  by_cases h2 : 192 ≤ bytes[index].toNat ∧ bytes[index].toNat < 224
  · rw [sequenceAt_two hmore h2.1 h2.2]
    exact ⟨And.right, fun h => ⟨by
      have hn := hlead _ h.1 h.2.choose_spec
      omega, h⟩⟩
  by_cases h3 : 224 ≤ bytes[index].toNat ∧ bytes[index].toNat < 240
  · rw [sequenceAt_three hmore h3.1 h3.2]
    exact ⟨And.right, fun h => ⟨by
      have hn := hlead _ h.1 h.2.choose_spec
      omega, h⟩⟩
  by_cases h4 : 240 ≤ bytes[index].toNat ∧ bytes[index].toNat < 248
  · rw [sequenceAt_four hmore h4.1 h4.2]
    exact ⟨And.right, fun h => ⟨by
      have hn := hlead _ h.1 h.2.choose_spec
      omega, h⟩⟩
  have hstart : sequenceStart bytes[index] = none := by
    rw [sequenceStart, if_neg (fun h => h2 ((lead_two _).mp h)),
      if_neg (fun h => h3 ((lead_three _).mp h)),
      if_neg (fun h => h4 ((lead_four _).mp h))]
  rw [sequenceAt]
  dsimp only
  rw [if_neg (fun h => h1 (hascii.mp h)), hstart]
  constructor
  · intro h
    exact nomatch h
  · rintro ⟨hle, c, hc⟩
    have hn := hlead c hle hc
    omega

/-! ## The scan -/

/-- A sequence is not empty and ends within the bytes. -/
theorem sequenceAt_pos {bytes : List UInt8} {index : Nat}
    {hmore : index < bytes.length} {n : Nat}
    (h : sequenceAt bytes index hmore = some n) :
    0 < n ∧ index + n ≤ bytes.length := by
  obtain ⟨hle, c, hc⟩ := (sequenceAt_eq_some hmore).mp h
  refine ⟨Nat.pos_of_ne_zero ?_, hle⟩
  rintro rfl
  exact String.utf8EncodeChar_ne_nil hc

/-- The outer loop of `valid_utf8`. -/
def validUtf8From (bytes : List UInt8) (index : Nat) : Bool :=
  if hmore : index < bytes.length then
    match hlength : sequenceAt bytes index hmore with
    | none => false
    | some count =>
        have _hpos := sequenceAt_pos hlength
        validUtf8From bytes (index + count)
  else true
termination_by bytes.length - index

/-- The bytes are sequences from the first to the last. -/
def validUtf8 (bytes : List UInt8) : Bool := validUtf8From bytes 0

/-- From any position the scan accepts exactly the well-formed rests. -/
theorem validUtf8From_iff (bytes : List UInt8) (index : Nat) :
    validUtf8From bytes index = true ↔ WellFormed (bytes.drop index) := by
  induction index using validUtf8From.induct bytes with
  | case1 index hmore hnone =>
      have hne : bytes.drop index ≠ [] := by
        rw [ne_eq, List.drop_eq_nil_iff]
        omega
      have hscan : validUtf8From bytes index = false := by
        rw [validUtf8From, dif_pos hmore]
        split
        · rfl
        · next hsome => exact nomatch hnone.symm.trans hsome
      rw [hscan, wellFormed_iff_head hne]
      constructor
      · intro h
        exact nomatch h
      · rintro ⟨c, rest, hsplit, _⟩
        -- The character would be what the loop body failed to find.
        have hlength := congrArg List.length hsplit
        rw [List.length_drop, List.length_append] at hlength
        have hfound := (sequenceAt_eq_some hmore).mpr
          ⟨show index + (utf8EncodeChar c).length ≤ _ by omega, c, by
            rw [subspan, hsplit, List.take_left]⟩
        cases hnone.symm.trans hfound
  | case2 index hmore count hlength hpos ih =>
      have hne : bytes.drop index ≠ [] := by
        rw [ne_eq, List.drop_eq_nil_iff]
        omega
      have hscan : validUtf8From bytes index
          = validUtf8From bytes (index + count) := by
        rw [validUtf8From, dif_pos hmore]
        split
        · next hnone => exact nomatch hnone.symm.trans hlength
        · next hsome =>
            cases hsome.symm.trans hlength
            rfl
      obtain ⟨hle, c, hc⟩ := (sequenceAt_eq_some hmore).mp hlength
      have hcut : bytes.drop index
          = utf8EncodeChar c ++ bytes.drop (index + count) := by
        rw [hc, subspan, ← List.drop_drop, List.take_append_drop]
      rw [hscan, ih]
      constructor
      · intro h
        rw [hcut]
        exact (wellFormed_encode c).append h
      · intro h
        obtain ⟨d, rest, hsplit, hrest⟩ := (wellFormed_iff_head hne).mp h
        rw [(encode_append_inj (hcut.symm.trans hsplit)).2]
        exact hrest
  | case3 index hdone =>
      have hnil : bytes.drop index = [] :=
        List.drop_eq_nil_of_le (Nat.le_of_not_lt hdone)
      rw [validUtf8From, dif_neg hdone, hnil]
      exact ⟨fun _ => wellFormed_nil, fun _ => rfl⟩

/-- The loop accepts exactly the well-formed byte strings. -/
theorem validUtf8_iff (bytes : List UInt8) :
    validUtf8 bytes = true ↔ WellFormed bytes :=
  validUtf8From_iff bytes 0

end ShiboriUtf8
