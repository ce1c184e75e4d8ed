import Mathlib

/-! # Well-formed UTF-8

    A byte string is well formed when it is the concatenation of the encodings
    of some characters; Lean's characters are the Unicode scalar values and
    its encoder writes the shortest form.  The lemmas `encodes_one` to
    `encodes_four` say by value which byte strings encode which character. -/

namespace Utf8

open String (utf8EncodeChar)

/-- The encodings of some characters, one after another. -/
def WellFormed (bytes : List UInt8) : Prop :=
  ∃ chars : List Char, bytes = chars.flatMap utf8EncodeChar

/-- No bytes are well formed. -/
theorem wellFormed_nil : WellFormed [] := ⟨[], rfl⟩

/-- Well-formed strings are closed under concatenation. -/
theorem WellFormed.append {xs ys : List UInt8} (hx : WellFormed xs)
    (hy : WellFormed ys) : WellFormed (xs ++ ys) := by
  obtain ⟨cs, rfl⟩ := hx
  obtain ⟨ds, rfl⟩ := hy
  exact ⟨cs ++ ds, (List.flatMap_append ..).symm⟩

/-- The encoding of a character is. -/
theorem wellFormed_encode (c : Char) : WellFormed (utf8EncodeChar c) :=
  ⟨[c], (List.append_nil _).symm⟩

/-- A nonempty string starts with a character. -/
theorem wellFormed_iff_head {bytes : List UInt8} (h : bytes ≠ []) :
    WellFormed bytes
      ↔ ∃ c rest, bytes = utf8EncodeChar c ++ rest ∧ WellFormed rest := by
  constructor
  · rintro ⟨chars, rfl⟩
    cases chars with
    | nil => exact (h rfl).elim
    | cons c chars => exact ⟨c, _, rfl, chars, rfl⟩
  · rintro ⟨c, rest, rfl, hrest⟩
    exact (wellFormed_encode c).append hrest

/-! ## Encodings by value -/

/-- A character for every scalar value. -/
theorem exists_char {v : Nat} (h : v < 0xd800 ∨ (0xdfff < v ∧ v < 0x110000)) :
    ∃ c : Char, c.toNat = v := by
  refine ⟨Char.ofNat v, ?_⟩
  rw [Char.toNat_ofNat, if_pos h]

private theorem ofNat_eq_iff {v : Nat} {b : UInt8} (h : v < 256) :
    UInt8.ofNat v = b ↔ v = b.toNat := by
  rw [← UInt8.toNat_inj, UInt8.toNat_ofNat_of_lt' h]

private theorem encode_eq (c : Char) :
    utf8EncodeChar c =
      if c.toNat ≤ 0x7f then [UInt8.ofNat c.toNat]
      else if c.toNat ≤ 0x7ff then
        [UInt8.ofNat (c.toNat / 64 % 0x20 + 0xc0),
          UInt8.ofNat (c.toNat % 0x40 + 0x80)]
      else if c.toNat ≤ 0xffff then
        [UInt8.ofNat (c.toNat / 4096 % 0x10 + 0xe0),
          UInt8.ofNat (c.toNat / 64 % 0x40 + 0x80),
          UInt8.ofNat (c.toNat % 0x40 + 0x80)]
      else
        [UInt8.ofNat (c.toNat / 262144 % 0x08 + 0xf0),
          UInt8.ofNat (c.toNat / 4096 % 0x40 + 0x80),
          UInt8.ofNat (c.toNat / 64 % 0x40 + 0x80),
          UInt8.ofNat (c.toNat % 0x40 + 0x80)] := rfl

/-- A character is no surrogate and below 0x110000. -/
theorem char_valid (c : Char) :
    c.toNat < 0xd800 ∨ (0xdfff < c.toNat ∧ c.toNat < 0x110000) := c.valid

/-! ## Scalar values -/

/-- The Unicode scalar values: code points without the surrogates. -/
def IsScalar (v : Nat) : Prop := v ≤ 0x10ffff ∧ ¬ (0xd800 ≤ v ∧ v ≤ 0xdfff)

/-- The shortest form: six bits of the value in every byte but the first. -/
def encodeScalar (v : Nat) : List UInt8 :=
  if v ≤ 0x7f then [UInt8.ofNat v]
  else if v ≤ 0x7ff then
    [UInt8.ofNat (0xc0 + v / 64), UInt8.ofNat (0x80 + v % 64)]
  else if v ≤ 0xffff then
    [UInt8.ofNat (0xe0 + v / 4096), UInt8.ofNat (0x80 + v / 64 % 64),
      UInt8.ofNat (0x80 + v % 64)]
  else
    [UInt8.ofNat (0xf0 + v / 262144), UInt8.ofNat (0x80 + v / 4096 % 64),
      UInt8.ofNat (0x80 + v / 64 % 64), UInt8.ofNat (0x80 + v % 64)]

/-- Every character is a scalar value. -/
theorem char_isScalar (c : Char) : IsScalar c.toNat := by
  rcases char_valid c with hlow | ⟨hhigh, hlast⟩
  · exact ⟨by omega, by omega⟩
  · exact ⟨by omega, by omega⟩

/-- The encoding of a character is that of its value. -/
theorem encodeScalar_toNat (c : Char) :
    encodeScalar c.toNat = utf8EncodeChar c := by
  have hlast := (char_isScalar c).1
  rw [encode_eq, encodeScalar]
  by_cases hone : c.toNat ≤ 0x7f
  · rw [if_pos hone, if_pos hone]
  rw [if_neg hone, if_neg hone]
  by_cases htwo : c.toNat ≤ 0x7ff
  · have hlead : c.toNat / 64 % 0x20 = c.toNat / 64 := by omega
    rw [if_pos htwo, if_pos htwo, hlead, Nat.add_comm, Nat.add_comm 0x80]
  rw [if_neg htwo, if_neg htwo]
  by_cases hthree : c.toNat ≤ 0xffff
  · have hlead : c.toNat / 4096 % 0x10 = c.toNat / 4096 := by omega
    rw [if_pos hthree, if_pos hthree, hlead, Nat.add_comm,
      Nat.add_comm 0x80, Nat.add_comm 0x80]
  · have hlead : c.toNat / 262144 % 0x08 = c.toNat / 262144 := by omega
    rw [if_neg hthree, if_neg hthree, hlead, Nat.add_comm, Nat.add_comm 0x80,
      Nat.add_comm 0x80, Nat.add_comm 0x80]

/-- Well-formed strings are the encodings of scalar values. -/
theorem wellFormed_iff_scalars {bytes : List UInt8} :
    WellFormed bytes
      ↔ ∃ scalars : List Nat, (∀ v ∈ scalars, IsScalar v)
        ∧ bytes = scalars.flatMap encodeScalar := by
  constructor
  · rintro ⟨chars, rfl⟩
    refine ⟨chars.map Char.toNat, ?_, ?_⟩
    · intro v hv
      obtain ⟨c, _, rfl⟩ := List.mem_map.mp hv
      exact char_isScalar c
    · rw [List.flatMap_map]
      exact List.flatMap_congr fun c _ => (encodeScalar_toNat c).symm
  · rintro ⟨scalars, hscalars, rfl⟩
    refine ⟨scalars.map Char.ofNat, ?_⟩
    rw [List.flatMap_map]
    refine List.flatMap_congr fun v hv => ?_
    obtain ⟨hlast, hsurrogate⟩ := hscalars v hv
    obtain ⟨c, rfl⟩ := exists_char
      (show v < 0xd800 ∨ (0xdfff < v ∧ v < 0x110000) by omega)
    rw [encodeScalar_toNat, Char.ofNat_toNat]

/-! ## Encodings by length -/

/-- A byte `10xxxxxx`. -/
def Trails (b : UInt8) : Prop := 128 ≤ b.toNat ∧ b.toNat < 192

/-- The characters below 0x80 take one byte. -/
theorem encodes_one {c : Char} {a : UInt8} :
    utf8EncodeChar c = [a] ↔ a.toNat < 128 ∧ c.toNat = a.toNat := by
  rw [encode_eq]
  split_ifs with h1 h2 h3
  · rw [List.cons.injEq, ofNat_eq_iff (by omega)]
    constructor
    · rintro ⟨h, _⟩
      omega
    · rintro ⟨_, h⟩
      exact ⟨h, rfl⟩
  all_goals
    refine ⟨fun h => ?_, fun h => by omega⟩
    simp only [List.cons.injEq, reduceCtorEq, and_false] at h

/-- Which two bytes encode a character, and which. -/
theorem encodes_two {c : Char} {a b : UInt8} :
    utf8EncodeChar c = [a, b]
      ↔ 192 ≤ a.toNat ∧ a.toNat < 224 ∧ Trails b
        ∧ c.toNat = (a.toNat - 192) * 64 + (b.toNat - 128)
        ∧ 0x80 ≤ c.toNat := by
  rw [encode_eq, Trails]
  split_ifs with h1 h2 h3
  rotate_left
  · rw [List.cons.injEq, List.cons.injEq, ofNat_eq_iff (by omega),
      ofNat_eq_iff (by omega)]
    constructor
    · rintro ⟨ha, hb, _⟩
      omega
    · rintro ⟨_, _, _, hv, _⟩
      exact ⟨by omega, by omega, rfl⟩
  all_goals
    refine ⟨fun h => ?_, fun h => by omega⟩
    simp only [List.cons.injEq, reduceCtorEq, and_false] at h

/-- Which three bytes encode a character, and which. -/
theorem encodes_three {c : Char} {a b d : UInt8} :
    utf8EncodeChar c = [a, b, d]
      ↔ 224 ≤ a.toNat ∧ a.toNat < 240 ∧ Trails b ∧ Trails d
        ∧ c.toNat = ((a.toNat - 224) * 64 + (b.toNat - 128)) * 64
          + (d.toNat - 128)
        ∧ 0x800 ≤ c.toNat := by
  rw [encode_eq, Trails, Trails]
  split_ifs with h1 h2 h3
  rotate_left 2
  · rw [List.cons.injEq, List.cons.injEq, List.cons.injEq,
      ofNat_eq_iff (by omega), ofNat_eq_iff (by omega),
      ofNat_eq_iff (by omega)]
    constructor
    · rintro ⟨ha, hb, hd, _⟩
      omega
    · rintro ⟨_, _, _, _, hv, _⟩
      exact ⟨by omega, by omega, by omega, rfl⟩
  all_goals
    refine ⟨fun h => ?_, fun h => by omega⟩
    simp only [List.cons.injEq, reduceCtorEq, and_false] at h

/-- Which four bytes encode a character, and which. -/
theorem encodes_four {c : Char} {a b d e : UInt8} :
    utf8EncodeChar c = [a, b, d, e]
      ↔ 240 ≤ a.toNat ∧ a.toNat < 248 ∧ Trails b ∧ Trails d ∧ Trails e
        ∧ c.toNat = (((a.toNat - 240) * 64 + (b.toNat - 128)) * 64
          + (d.toNat - 128)) * 64 + (e.toNat - 128)
        ∧ 0x10000 ≤ c.toNat := by
  have hc := char_valid c
  rw [encode_eq, Trails, Trails, Trails]
  split_ifs with h1 h2 h3
  rotate_left 3
  · rw [List.cons.injEq, List.cons.injEq, List.cons.injEq, List.cons.injEq,
      ofNat_eq_iff (by omega), ofNat_eq_iff (by omega),
      ofNat_eq_iff (by omega), ofNat_eq_iff (by omega)]
    constructor
    · rintro ⟨ha, hb, hd, he, _⟩
      omega
    · rintro ⟨_, _, _, _, _, hv, _⟩
      exact ⟨by omega, by omega, by omega, by omega, rfl⟩
  all_goals
    refine ⟨fun h => ?_, fun h => by omega⟩
    simp only [List.cons.injEq, reduceCtorEq, and_false] at h

/-- The first byte of an encoding tells its length. -/
theorem encode_length {c : Char} {a : UInt8} {tail : List UInt8}
    (h : utf8EncodeChar c = a :: tail) :
    (a.toNat < 128 ∧ tail.length = 0)
      ∨ (192 ≤ a.toNat ∧ a.toNat < 224 ∧ tail.length = 1)
      ∨ (224 ≤ a.toNat ∧ a.toNat < 240 ∧ tail.length = 2)
      ∨ (240 ≤ a.toNat ∧ a.toNat < 248 ∧ tail.length = 3) := by
  have hlen := String.length_utf8EncodeChar c
  have hle := c.utf8Size_le_four
  rw [h, List.length_cons] at hlen
  match tail with
  | [] => exact Or.inl ⟨(encodes_one.mp h).1, rfl⟩
  | [b] =>
      obtain ⟨h1, h2, _⟩ := encodes_two.mp h
      exact Or.inr (Or.inl ⟨h1, h2, rfl⟩)
  | [b, d] =>
      obtain ⟨h1, h2, _⟩ := encodes_three.mp h
      exact Or.inr (Or.inr (Or.inl ⟨h1, h2, rfl⟩))
  | [b, d, e] =>
      obtain ⟨h1, h2, _⟩ := encodes_four.mp h
      exact Or.inr (Or.inr (Or.inr ⟨h1, h2, rfl⟩))
  | _ :: _ :: _ :: _ :: _ =>
      rw [List.length_cons, List.length_cons, List.length_cons,
        List.length_cons] at hlen
      omega

/-- An encoding is not the start of another one. -/
theorem encode_append_inj {c d : Char} {xs ys : List UInt8}
    (h : utf8EncodeChar c ++ xs = utf8EncodeChar d ++ ys) :
    utf8EncodeChar c = utf8EncodeChar d ∧ xs = ys := by
  obtain ⟨a, as, ha⟩ := List.exists_cons_of_ne_nil
    (String.utf8EncodeChar_ne_nil (c := c))
  obtain ⟨b, bs, hb⟩ := List.exists_cons_of_ne_nil
    (String.utf8EncodeChar_ne_nil (c := d))
  have hc := encode_length ha
  have hd := encode_length hb
  rw [ha, hb] at h ⊢
  obtain ⟨rfl, htails⟩ := List.cons.inj h
  obtain ⟨rfl, hrest⟩ := List.append_inj htails (by omega)
  exact ⟨rfl, hrest⟩

end Utf8
