import Mathlib
import ShiboriEngine.Library.Spans

/-! # Multiply-xor hashes over bit vectors

    A lane takes a symbol in by xor and multiplies by a constant, symbol after
    symbol.  Two facts carry every use:

    * the multiplier is ODD, so a step is injective in the state and in the
      symbol, and a difference survives any common suffix;
    * a multiplier that SCATTERS moves a difference of a symbol's size out of
      the low bits, where the next symbol could have cancelled it.

    Hence two inputs of one length that differ in one symbol, or in a window
    of two under a scattering multiplier, never share a hash. -/

namespace MultiplyXor

open Spans

variable {α : Type} {w : Nat}

/-- A hash over `α`: the constant and how a symbol is read. -/
structure Lane (α : Type) (w : Nat) where
  multiplier : BitVec w
  symbol : α → BitVec w
  odd : multiplier.toNat % 2 = 1
  symbol_injective : Function.Injective symbol

namespace Lane

/-- One symbol. -/
def step (lane : Lane α w) (state : BitVec w) (a : α) : BitVec w :=
  (state ^^^ lane.symbol a) * lane.multiplier

/-- The state after the whole input. -/
def hash (lane : Lane α w) (state : BitVec w) (input : List α) : BitVec w :=
  input.foldl lane.step state

variable {lane : Lane α w}

/-- The first symbol comes first. -/
@[simp] theorem hash_cons (s : BitVec w) (a : α) (as : List α) :
    lane.hash s (a :: as) = lane.hash (lane.step s a) as := rfl

/-- The input may be cut anywhere. -/
theorem hash_append (s : BitVec w) (as bs : List α) :
    lane.hash s (as ++ bs) = lane.hash (lane.hash s as) bs :=
  List.foldl_append

/-! ## Injective steps -/

/-- An odd factor cancels. -/
theorem mul_injective_of_odd {m : BitVec w} (hodd : m.toNat % 2 = 1) :
    Function.Injective fun x : BitVec w => x * m := by
  intro x y heq
  have hcoprime : (2 ^ w).gcd m.toNat = 1 :=
    (Nat.coprime_two_left.mpr (Nat.odd_iff.mpr hodd)).pow_left w
  have hmod : x.toNat * m.toNat ≡ y.toNat * m.toNat [MOD 2 ^ w] := by
    have hnat := congrArg BitVec.toNat heq
    rw [BitVec.toNat_mul, BitVec.toNat_mul] at hnat
    exact hnat
  have hcancel := Nat.ModEq.cancel_right_of_coprime hcoprime hmod
  exact BitVec.eq_of_toNat_eq
    (Nat.ModEq.eq_of_lt_of_lt hcancel x.isLt y.isLt)

/-- A step keeps different states apart. -/
theorem step_left_inj {s t : BitVec w} {a : α} :
    lane.step s a = lane.step t a ↔ s = t := by
  constructor
  · intro h
    have hxor := mul_injective_of_odd lane.odd h
    exact (BitVec.xor_left_inj _).mp hxor
  · rintro rfl
    rfl

/-- A step keeps different symbols apart. -/
theorem step_right_inj {s : BitVec w} {a b : α} :
    lane.step s a = lane.step s b ↔ a = b := by
  constructor
  · intro h
    have hxor := mul_injective_of_odd lane.odd h
    exact lane.symbol_injective ((BitVec.xor_right_inj _).mp hxor)
  · rintro rfl
    rfl

/-- **SUFFIXES** keep different states apart. -/
theorem hash_left_inj {s t : BitVec w} {input : List α} :
    lane.hash s input = lane.hash t input ↔ s = t := by
  induction input generalizing s t with
  | nil => exact Iff.rfl
  | cons a as ih => rw [hash_cons, hash_cons, ih, step_left_inj]

/-- **ONE SYMBOL** changed in the middle changes the hash. -/
theorem hash_replace_one (s : BitVec w) (before after : List α) {a b : α}
    (hne : [a] ≠ [b]) :
    lane.hash s (before ++ a :: after) ≠ lane.hash s (before ++ b :: after) := by
  rw [hash_append, hash_append, hash_cons, hash_cons]
  intro heq
  have hsame : a = b := step_right_inj.mp (hash_left_inj.mp heq)
  exact hne (congrArg (fun x => [x]) hsame)

end Lane

/-! ## Scattering multipliers -/

/-- Numbers with the same quotient are close. -/
theorem lt_add_of_div_eq {x y n : Nat} (hn : 0 < n) (h : x / n = y / n) :
    x < y + n := by
  have hx := Nat.div_add_mod x n
  have hy := Nat.div_add_mod y n
  have hr := Nat.mod_lt x hn
  rw [h] at hx
  omega

/-- A multiple of a difference below `2 ^ k` is at least `2 ^ k` away from zero
    in both directions. -/
def Scatters (k : Nat) (m : BitVec w) : Prop :=
  ∀ d, 0 < d → d < 2 ^ k →
    2 ^ k ≤ d * m.toNat % 2 ^ w ∧ d * m.toNat % 2 ^ w + 2 ^ k ≤ 2 ^ w

/-- Products of numbers that are close, the larger one first. -/
private theorem scatters_lt {k : Nat} {m : BitVec w} (hm : Scatters k m)
    {a b : Nat} (hlt : b < a) (hhigh : a / 2 ^ k = b / 2 ^ k) :
    a * m.toNat % 2 ^ w / 2 ^ k ≠ b * m.toNat % 2 ^ w / 2 ^ k := by
  intro heq
  have hk := Nat.two_pow_pos k
  have hclose := lt_add_of_div_eq hk hhigh
  obtain ⟨hlow, htop⟩ := hm (a - b) (by omega) (by omega)
  have hsum : a * m.toNat % 2 ^ w
      = (b * m.toNat % 2 ^ w + (a - b) * m.toNat % 2 ^ w) % 2 ^ w := by
    rw [← Nat.add_mod, ← Nat.add_mul, Nat.add_sub_cancel' (Nat.le_of_lt hlt)]
  have hb := Nat.mod_lt (b * m.toNat) (Nat.two_pow_pos w)
  have hup := lt_add_of_div_eq hk heq
  have hdown := lt_add_of_div_eq hk heq.symm
  -- the sum wraps at most once
  by_cases hwrap : b * m.toNat % 2 ^ w + (a - b) * m.toNat % 2 ^ w < 2 ^ w
  · rw [Nat.mod_eq_of_lt hwrap] at hsum
    omega
  · have hover : b * m.toNat % 2 ^ w + (a - b) * m.toNat % 2 ^ w - 2 ^ w
        < 2 ^ w := by omega
    rw [Nat.mod_eq_sub_mod (Nat.le_of_not_lt hwrap), Nat.mod_eq_of_lt hover]
      at hsum
    omega

/-- **SCATTERING**: different words with the same high part have products with
    different high parts. -/
theorem scatters_high {k : Nat} {m : BitVec w} (hm : Scatters k m)
    {x y : BitVec w} (hne : x ≠ y)
    (hhigh : x.toNat / 2 ^ k = y.toNat / 2 ^ k) :
    (x * m).toNat / 2 ^ k ≠ (y * m).toNat / 2 ^ k := by
  rw [BitVec.toNat_mul, BitVec.toNat_mul]
  rcases Nat.lt_trichotomy x.toNat y.toNat with hlt | heq | hgt
  · exact (scatters_lt hm hlt hhigh.symm).symm
  · exact (hne (BitVec.eq_of_toNat_eq heq)).elim
  · exact scatters_lt hm hgt hhigh

/-- A small word only touches the low part. -/
theorem xor_high {k : Nat} (s : BitVec w) {x : BitVec w}
    (hx : x.toNat < 2 ^ k) : (s ^^^ x).toNat / 2 ^ k = s.toNat / 2 ^ k := by
  rw [BitVec.toNat_xor, Nat.xor_div_two_pow, Nat.div_eq_of_lt hx, Nat.xor_zero]

namespace Lane

variable {lane : Lane α w} {k : Nat}

/-- A difference in the symbol before cannot be cancelled by this one. -/
theorem step_step_ne (hm : Scatters k lane.multiplier)
    (hsymbol : ∀ a, (lane.symbol a).toNat < 2 ^ k) (s : BitVec w)
    {a b : α} (hne : a ≠ b) (c d : α) :
    lane.step (lane.step s a) c ≠ lane.step (lane.step s b) d := by
  intro heq
  have hxor := mul_injective_of_odd lane.odd heq
  have hfirst : s ^^^ lane.symbol a ≠ s ^^^ lane.symbol b := by
    intro h
    exact hne (lane.symbol_injective ((BitVec.xor_right_inj _).mp h))
  have hhigh : (s ^^^ lane.symbol a).toNat / 2 ^ k
      = (s ^^^ lane.symbol b).toNat / 2 ^ k := by
    rw [xor_high s (hsymbol a), xor_high s (hsymbol b)]
  refine scatters_high hm hfirst hhigh ?_
  -- the second symbols leave the high parts of the products alone
  rw [← xor_high _ (hsymbol c), ← xor_high ((s ^^^ lane.symbol b) * _)
    (hsymbol d)]
  exact congrArg (fun x : BitVec w => x.toNat / 2 ^ k) hxor

/-- Replacing two neighbours by others changes the hash. -/
theorem hash_replace_two (hm : Scatters k lane.multiplier)
    (hsymbol : ∀ a, (lane.symbol a).toNat < 2 ^ k) (s : BitVec w)
    (before after : List α) {a b c d : α} (hne : [a, c] ≠ [b, d]) :
    lane.hash s (before ++ a :: c :: after)
      ≠ lane.hash s (before ++ b :: d :: after) := by
  by_cases hfirst : a = b
  · subst hfirst
    have hsecond : [c] ≠ [d] := fun h => hne (congrArg (List.cons a) h)
    have hrest : lane.hash s ((before ++ [a]) ++ c :: after)
        ≠ lane.hash s ((before ++ [a]) ++ d :: after) :=
      hash_replace_one s (before ++ [a]) after hsecond
    rw [List.append_assoc, List.append_assoc] at hrest
    exact hrest
  · rw [hash_append, hash_append, hash_cons, hash_cons, hash_cons, hash_cons]
    intro heq
    exact step_step_ne hm hsymbol _ hfirst c d (hash_left_inj.mp heq)

/-! ## Windows -/

/-- **A WINDOW OF ONE** symbol. -/
theorem hash_ne_of_window_one (s : BitVec w) {xs ys : List α}
    (h : DiffersWithin 1 xs ys) : lane.hash s xs ≠ lane.hash s ys := by
  obtain ⟨before, us, vs, after, rfl, rfl, hlen, hwidth, hne⟩ := h.split
  rw [List.append_assoc, List.append_assoc]
  match us, vs, hlen, hwidth, hne with
  | [], [], _, _, hne => exact (hne rfl).elim
  | [a], [b], _, _, hne => exact hash_replace_one s before after hne

/-- **A WINDOW OF TWO** symbols, under a scattering multiplier. -/
theorem hash_ne_of_window_two (hm : Scatters k lane.multiplier)
    (hsymbol : ∀ a, (lane.symbol a).toNat < 2 ^ k) (s : BitVec w)
    {xs ys : List α} (h : DiffersWithin 2 xs ys) :
    lane.hash s xs ≠ lane.hash s ys := by
  obtain ⟨before, us, vs, after, rfl, rfl, hlen, hwidth, hne⟩ := h.split
  rw [List.append_assoc, List.append_assoc]
  match us, vs, hlen, hwidth, hne with
  | [], [], _, _, hne => exact (hne rfl).elim
  | [a], [b], _, _, hne => exact hash_replace_one s before after hne
  | [a, c], [b, d], _, _, hne =>
      exact hash_replace_two hm hsymbol s before after hne

end Lane

end MultiplyXor
