import Mathlib
import ShiboriEngine.Library.Fill
import ShiboriEngine.Digest

/-! # Digest text is an exact codec

    Two digits decode to a byte exactly when the byte is written as them, up
    to case.  The loop of `to_hex` writes position `2 i` and `2 i + 1` from
    byte `i` and the loop of `from_hex` reads them back, so what one digit
    pair satisfies the whole text does. -/

namespace ShiboriDigestText

open ShiboriError ShiboriDigest Fill

/-! ## Digits -/

/-- `0` to `9`, `a` to `f` or `A` to `F`. -/
def IsHexDigit (c : UInt8) : Prop :=
  (0x30 ≤ c ∧ c ≤ 0x39) ∨ (0x61 ≤ c ∧ c ≤ 0x66) ∨ (0x41 ≤ c ∧ c ≤ 0x46)

instance (c : UInt8) : Decidable (IsHexDigit c) :=
  inferInstanceAs (Decidable (_ ∨ _ ∨ _))

/-- `A` to `F` in lower case. -/
def lowerHex (c : UInt8) : UInt8 :=
  if 0x41 ≤ c ∧ c ≤ 0x46 then c + 0x20 else c

/-- The byte of two digit values, as the source puts it together. -/
def joinDigits (high low : Int32) : UInt8 :=
  ((high <<< 4) ||| low).toUInt32.toUInt8

/-- Only what is no digit decodes to a negative value. -/
theorem decodeHex_neg_iff (c : UInt8) : decodeHex c < 0 ↔ ¬ IsHexDigit c := by
  revert c
  decide +kernel

/-- A digit's value is the position of its lower-case form. -/
theorem decodeHex_digit {c : UInt8} (h : IsHexDigit c) :
    ∃ d : Fin 16, decodeHex c = Int32.ofNat d
      ∧ hexDigits.get d = lowerHex c := by
  revert c
  decide +kernel

/-- A digit decodes to its value. -/
theorem decodeHex_get (d : Fin 16) :
    decodeHex (hexDigits.get d) = Int32.ofNat d := by
  revert d
  decide +kernel

theorem get_isHexDigit (d : Fin 16) : IsHexDigit (hexDigits.get d) := by
  revert d
  decide +kernel

/-- Lowering a character keeps it a digit, or none. -/
theorem lowerHex_isHexDigit (c : UInt8) :
    IsHexDigit (lowerHex c) ↔ IsHexDigit c := by
  revert c
  decide +kernel

/-- Joining two values and splitting the byte. -/
theorem joinDigits_split (high low : Fin 16) :
    highDigit (joinDigits (Int32.ofNat high) (Int32.ofNat low))
        = hexDigits.get high
      ∧ lowDigit (joinDigits (Int32.ofNat high) (Int32.ofNat low))
        = hexDigits.get low := by
  revert high low
  decide +kernel

/-- Splitting a byte and joining its values. -/
theorem joinDigits_of_byte (b : UInt8) :
    joinDigits (Int32.ofNat (b >>> 4).toNat) (Int32.ofNat (b &&& 0x0f).toNat)
      = b := by
  revert b
  decide +kernel

/-- Two digits decode to a byte. -/
theorem decodeByte_of_digits {high low : UInt8} (hhigh : IsHexDigit high)
    (hlow : IsHexDigit low) :
    decodeByte high low = .ok (joinDigits (decodeHex high) (decodeHex low)) := by
  rw [decodeByte, if_neg]
  · rfl
  · rw [decodeHex_neg_iff, decodeHex_neg_iff]
    rintro (hbad | hbad)
    · exact hbad hhigh
    · exact hbad hlow

/-- What a byte is written as decodes to the byte. -/
theorem decodeByte_written (b : UInt8) :
    decodeByte (highDigit b) (lowDigit b) = .ok b := by
  rw [highDigit, lowDigit,
    decodeByte_of_digits (get_isHexDigit _) (get_isHexDigit _), decodeHex_get,
    decodeHex_get]
  exact congrArg Except.ok (joinDigits_of_byte b)

/-- What decodes to a byte is two digits. -/
theorem digits_of_decodeByte {high low b : UInt8}
    (h : decodeByte high low = .ok b) : IsHexDigit high ∧ IsHexDigit low := by
  rw [decodeByte] at h
  by_cases hbad : decodeHex high < 0 ∨ decodeHex low < 0
  · rw [if_pos hbad] at h
    exact (fail_ne_ok _ _ _ _ h).elim
  · rw [decodeHex_neg_iff, decodeHex_neg_iff, not_or, not_not, not_not]
      at hbad
    exact hbad

/-- **ONE PAIR** of digits decodes to the byte written as them in lower
    case. -/
theorem decodeByte_eq_ok {high low b : UInt8} :
    decodeByte high low = .ok b
      ↔ (IsHexDigit high ∧ IsHexDigit low)
        ∧ highDigit b = lowerHex high ∧ lowDigit b = lowerHex low := by
  have hjoin : IsHexDigit high → IsHexDigit low →
      ∃ c, decodeByte high low = .ok c ∧ highDigit c = lowerHex high
        ∧ lowDigit c = lowerHex low := by
    intro hhigh hlow
    obtain ⟨dh, hdh, hgetH⟩ := decodeHex_digit hhigh
    obtain ⟨dl, hdl, hgetL⟩ := decodeHex_digit hlow
    obtain ⟨hsplitH, hsplitL⟩ := joinDigits_split dh dl
    refine ⟨_, decodeByte_of_digits hhigh hlow, ?_⟩
    rw [hdh, hdl, hsplitH, hsplitL]
    exact ⟨hgetH, hgetL⟩
  constructor
  · intro h
    have hdigits := digits_of_decodeByte h
    obtain ⟨c, hc, hwritten⟩ := hjoin hdigits.1 hdigits.2
    rw [h] at hc
    cases hc
    exact ⟨hdigits, hwritten⟩
  · rintro ⟨⟨hhigh, hlow⟩, hwrittenH, hwrittenL⟩
    obtain ⟨c, hc, hsameH, hsameL⟩ := hjoin hhigh hlow
    -- a byte is determined by the two digits it is written as
    have hb := decodeByte_written b
    have hcc := decodeByte_written c
    rw [hwrittenH, hwrittenL, ← hsameH, ← hsameL, hcc] at hb
    cases hb
    exact hc

/-! ## Texts -/

/-- The 64 characters of a digest's text. -/
structure HexText (s : List UInt8) : Prop where
  length : s.length = 64
  digits : ∀ c ∈ s, IsHexDigit c

/-- Every position is the first or the second of a pair. -/
theorem forall_pairs {P : Nat → Prop} :
    (∀ j, j < 64 → P j) ↔ ∀ i : Fin 32, P (i.val * 2) ∧ P (i.val * 2 + 1) := by
  constructor
  · intro h i
    have hi := i.isLt
    exact ⟨h _ (by omega), h _ (by omega)⟩
  · intro h j hj
    obtain ⟨hfirst, hsecond⟩ := h ⟨j / 2, by omega⟩
    rcases Nat.mod_two_eq_zero_or_one j with heven | hodd
    · have hj2 : j / 2 * 2 = j := by omega
      rw [hj2] at hfirst
      exact hfirst
    · have hj2 : j / 2 * 2 + 1 = j := by omega
      rw [hj2] at hsecond
      exact hsecond

theorem first_lt (index : Fin 32) : index.val * 2 < 64 := by omega

theorem second_lt (index : Fin 32) : index.val * 2 + 1 < 64 := by omega

/-- The place of a byte's high digit. -/
def firstPosition (index : Fin 32) : Fin 64 :=
  ⟨index.val * 2, first_lt index⟩

/-- The place of a byte's low digit. -/
def secondPosition (index : Fin 32) : Fin 64 :=
  ⟨index.val * 2 + 1, second_lt index⟩

/-- What one turn of the loop of `to_hex` writes. -/
def pairWrites (bytes : Vector UInt8 32) (index : Fin 32) :
    List (Fin 64 × UInt8) :=
  [(firstPosition index, highDigit (bytes.get index)),
    (secondPosition index, lowDigit (bytes.get index))]

/-- The digits of all bytes, each at its place. -/
def digitWrites (bytes : Vector UInt8 32) : List (Fin 64 × UInt8) :=
  (List.finRange 32).flatMap (pairWrites bytes)

/-- No position is written twice. -/
theorem digitWrites_nodup (bytes : Vector UInt8 32) :
    ((digitWrites bytes).map Prod.fst).Nodup := by
  have hpositions : (digitWrites bytes).map Prod.fst
      = (List.finRange 32).flatMap fun index =>
        [firstPosition index, secondPosition index] := by
    rw [digitWrites, List.map_flatMap]
    rfl
  rw [hpositions]
  decide +kernel

/-- `to_hex` fills the text with the digits. -/
theorem toHex_eq_fill (d : Blake3Digest) :
    d.toHex = (fill (Vector.replicate 64 0x30) (digitWrites d.bytes)).toList := by
  have hturns : ∀ (indices : List (Fin 32)) (output : Vector UInt8 64),
      indices.foldl
          (fun output (index : Fin 32) =>
            let value := d.bytes[index]
            (output.set (index.val * 2) (highDigit value)).set
              (index.val * 2 + 1) (lowDigit value)) output
        = fill output (indices.flatMap (pairWrites d.bytes)) := by
    intro indices output
    induction indices generalizing output with
    | nil => rfl
    | cons index indices ih => exact ih _
  exact congrArg Vector.toList (hturns _ _)

/-- A digest has 64 digits. -/
theorem toHex_length (d : Blake3Digest) : d.toHex.length = 64 := by
  rw [toHex_eq_fill, Vector.length_toList]

/-- Every write of the loop is in the text. -/
theorem toHex_getElem?_of_mem (d : Blake3Digest) {j : Fin 64} {c : UInt8}
    (hmem : (j, c) ∈ digitWrites d.bytes) : d.toHex[j.val]? = some c := by
  have hwrote := fill_getElem_of_mem (v := Vector.replicate 64 0x30)
    (digitWrites_nodup d.bytes) hmem
  rw [toHex_eq_fill, Vector.getElem?_toList, Vector.getElem?_eq_getElem j.isLt]
  exact congrArg some hwrote

/-- **WRITING** puts the digits of byte `i` at `2 i` and `2 i + 1`. -/
theorem toHex_getElem? (d : Blake3Digest) (i : Fin 32) :
    d.toHex[i.val * 2]? = some (highDigit (d.bytes.get i))
      ∧ d.toHex[i.val * 2 + 1]? = some (lowDigit (d.bytes.get i)) := by
  have hwrites : ∀ write ∈ pairWrites d.bytes i, write ∈ digitWrites d.bytes := by
    intro write hwrite
    exact List.mem_flatMap.mpr ⟨i, List.mem_finRange i, hwrite⟩
  constructor
  · exact toHex_getElem?_of_mem (j := firstPosition i) d
      (hwrites _ List.mem_cons_self)
  · exact toHex_getElem?_of_mem (j := secondPosition i) d
      (hwrites _ (List.mem_cons_of_mem _ List.mem_cons_self))

/-- **READING** decodes the same positions. -/
theorem fromHex_eq_ok {text : List UInt8} {d : Blake3Digest} :
    Blake3Digest.fromHex text = .ok d
      ↔ text.length = 64 ∧ ∀ i : Fin 32, ∃ high low,
        text[i.val * 2]? = some high ∧ text[i.val * 2 + 1]? = some low
          ∧ decodeByte high low = .ok (d.bytes.get i) := by
  rw [Blake3Digest.fromHex]
  by_cases hsize : text.length = 64
  · rw [dif_pos hsize, bind_eq_ok]
    constructor
    · rintro ⟨bytes, hfill, hdigest⟩
      cases hdigest
      refine ⟨hsize, fun i => ?_⟩
      have hgetH := List.getElem?_eq_getElem (hsize.symm ▸ first_lt i)
      have hgetL := List.getElem?_eq_getElem (hsize.symm ▸ second_lt i)
      exact ⟨_, _, hgetH, hgetL, fillM_finRange_eq_ok.mp hfill i⟩
    · rintro ⟨_, hall⟩
      refine ⟨d.bytes, fillM_finRange_eq_ok.mpr fun i => ?_, rfl⟩
      obtain ⟨high, low, hhigh, hlow, hbyte⟩ := hall i
      obtain ⟨_, rfl⟩ := List.getElem?_eq_some_iff.mp hhigh
      obtain ⟨_, rfl⟩ := List.getElem?_eq_some_iff.mp hlow
      exact hbyte
  · rw [dif_neg hsize]
    constructor
    · intro h
      exact (fail_ne_ok _ _ _ _ h).elim
    · rintro ⟨h, _⟩
      exact (hsize h).elim

/-- **DECODING A TEXT** reads what is written as it in lower case. -/
theorem fromHex_eq_ok_iff {text : List UInt8} {d : Blake3Digest} :
    Blake3Digest.fromHex text = .ok d
      ↔ HexText text ∧ d.toHex = text.map lowerHex := by
  rw [fromHex_eq_ok]
  constructor
  · rintro ⟨hsize, hall⟩
    have hpairs : ∀ j, j < 64 → ∀ c, text[j]? = some c →
        IsHexDigit c ∧ d.toHex[j]? = some (lowerHex c) := by
      refine forall_pairs.mpr fun i => ?_
      obtain ⟨high, low, hgetH, hgetL, hbyte⟩ := hall i
      obtain ⟨⟨hhigh, hlow⟩, hwrittenH, hwrittenL⟩ :=
        decodeByte_eq_ok.mp hbyte
      obtain ⟨hfirst, hsecond⟩ := toHex_getElem? d i
      constructor
      · intro c hc
        cases Option.some.inj (hgetH.symm.trans hc)
        exact ⟨hhigh, hwrittenH ▸ hfirst⟩
      · intro c hc
        cases Option.some.inj (hgetL.symm.trans hc)
        exact ⟨hlow, hwrittenL ▸ hsecond⟩
    refine ⟨⟨hsize, ?_⟩, ?_⟩
    · intro c hc
      obtain ⟨j, hj⟩ := List.mem_iff_getElem?.mp hc
      obtain ⟨hlt, _⟩ := List.getElem?_eq_some_iff.mp hj
      exact (hpairs j (by omega) c hj).1
    · have hlen := toHex_length d
      apply List.ext_getElem?
      intro j
      rw [List.getElem?_map]
      cases hget : text[j]? with
      | none =>
          have hout := List.getElem?_eq_none_iff.mp hget
          rw [List.getElem?_eq_none (by omega), Option.map_none]
      | some c =>
          obtain ⟨hin, _⟩ := List.getElem?_eq_some_iff.mp hget
          rw [(hpairs j (by omega) c hget).2, Option.map_some]
  · rintro ⟨⟨hsize, hdigits⟩, htext⟩
    refine ⟨hsize, ?_⟩
    intro i
    obtain ⟨hfirst, hsecond⟩ := toHex_getElem? d i
    rw [htext, List.getElem?_map, Option.map_eq_some_iff] at hfirst hsecond
    obtain ⟨high, hhigh, hwrittenH⟩ := hfirst
    obtain ⟨low, hlow, hwrittenL⟩ := hsecond
    refine ⟨high, low, hhigh, hlow, decodeByte_eq_ok.mpr ⟨⟨?_, ?_⟩, ?_⟩⟩
    · exact hdigits _ (List.mem_of_getElem? hhigh)
    · exact hdigits _ (List.mem_of_getElem? hlow)
    · exact ⟨hwrittenH.symm, hwrittenL.symm⟩

/-- Every text of digits is read. -/
theorem HexText.fromHex_isOk {text : List UInt8} (h : HexText text) :
    ∃ d, Blake3Digest.fromHex text = .ok d := by
  have hsize := h.length
  have hbyte : ∀ i : Fin 32, ∃ high low b,
      text[i.val * 2]? = some high ∧ text[i.val * 2 + 1]? = some low
        ∧ decodeByte high low = .ok b := by
    intro i
    have hgetH := List.getElem?_eq_getElem (hsize.symm ▸ first_lt i)
    have hgetL := List.getElem?_eq_getElem (hsize.symm ▸ second_lt i)
    exact ⟨_, _, _, hgetH, hgetL,
      decodeByte_of_digits (h.digits _ (List.mem_of_getElem? hgetH))
        (h.digits _ (List.mem_of_getElem? hgetL))⟩
  choose high low bytes hgetH hgetL hbytes using hbyte
  refine ⟨⟨Vector.ofFn bytes⟩, fromHex_eq_ok.mpr ⟨hsize, fun i =>
    ⟨high i, low i, hgetH i, hgetL i, ?_⟩⟩⟩
  rw [hbytes i]
  exact congrArg Except.ok (Vector.getElem_ofFn i.isLt).symm

/-- The case of the letters does not matter to being a text of digits. -/
theorem hexText_of_map_lowerHex {s t : List UInt8}
    (heq : s.map lowerHex = t.map lowerHex) (h : HexText s) : HexText t := by
  have hlen := congrArg List.length heq
  rw [List.length_map, List.length_map] at hlen
  refine ⟨hlen ▸ h.length, ?_⟩
  intro c hc
  have hmem : lowerHex c ∈ s.map lowerHex := by
    rw [heq]
    exact List.mem_map_of_mem hc
  obtain ⟨c', hc', hsame⟩ := List.mem_map.mp hmem
  rw [← lowerHex_isHexDigit c, ← hsame, lowerHex_isHexDigit]
  exact h.digits c' hc'

/-- Reading the digits of a digest gives it back. -/
theorem fromHex_toHex (d : Blake3Digest) :
    Blake3Digest.fromHex d.toHex = .ok d := by
  refine fromHex_eq_ok.mpr ⟨toHex_length d, ?_⟩
  intro i
  obtain ⟨hfirst, hsecond⟩ := toHex_getElem? d i
  exact ⟨_, _, hfirst, hsecond, decodeByte_written _⟩

/-- **DIGEST TEXT** is an exact codec, up to the case of the letters. -/
theorem digest_text_codec :
    (∀ s, (∃ d, Blake3Digest.fromHex s = .ok d) ↔ HexText s)
    ∧ (∀ s d, Blake3Digest.fromHex s = .ok d → d.toHex = s.map lowerHex)
    ∧ (∀ d : Blake3Digest, Blake3Digest.fromHex d.toHex = .ok d)
    ∧ ∀ s t, (∃ d, Blake3Digest.fromHex s = .ok d
        ∧ Blake3Digest.fromHex t = .ok d)
      ↔ HexText s ∧ s.map lowerHex = t.map lowerHex := by
  refine ⟨?_, ?_, fromHex_toHex, ?_⟩
  · intro s
    constructor
    · rintro ⟨d, hd⟩
      exact (fromHex_eq_ok_iff.mp hd).1
    · exact HexText.fromHex_isOk
  · intro s d hd
    exact (fromHex_eq_ok_iff.mp hd).2
  · intro s t
    constructor
    · rintro ⟨d, hs, ht⟩
      obtain ⟨htext, hlower⟩ := fromHex_eq_ok_iff.mp hs
      exact ⟨htext, hlower.symm.trans (fromHex_eq_ok_iff.mp ht).2⟩
    · rintro ⟨htext, hlower⟩
      obtain ⟨d, hd⟩ := htext.fromHex_isOk
      have hwritten := (fromHex_eq_ok_iff.mp hd).2
      exact ⟨d, hd, fromHex_eq_ok_iff.mpr
        ⟨hexText_of_map_lowerHex hlower htext, hwritten.trans hlower⟩⟩

end ShiboriDigestText
