import Mathlib

/-! # Slots — objects with an address and a lifetime

    A list of optional objects: an object is allocated at the end, may be
    replaced in place and is gone when its slot is empty.  Addresses are never
    reused.  `total` adds a measure over the live objects; allocating,
    replacing and freeing change it by the measures involved. -/

namespace Slots

variable {α : Type}

/-- The live object at an address. -/
def get (xs : List (Option α)) (i : Nat) : Option α :=
  xs[i]?.join

/-- A new slot at the end. -/
def alloc (xs : List (Option α)) (a : α) : List (Option α) :=
  xs ++ [some a]

/-- Replace the object at an address, or free it with `none`. -/
def put (xs : List (Option α)) (i : Nat) (o : Option α) : List (Option α) :=
  xs.set i o

/-- The sum over all that is held. -/
def total (f : α → Nat) : List (Option α) → Nat
  | [] => 0
  | o :: xs => o.elim 0 f + total f xs

/-- No slots hold nothing. -/
@[simp] theorem total_nil (f : α → Nat) : total f [] = 0 := rfl

/-- The first slot adds what it holds. -/
@[simp] theorem total_cons (f : α → Nat) (o : Option α)
    (xs : List (Option α)) :
    total f (o :: xs) = o.elim 0 f + total f xs := rfl

/-! ## Addresses -/

/-- A slot holds what the list has at its index. -/
theorem get_eq_some {xs : List (Option α)} {i : Nat} {a : α} :
    get xs i = some a ↔ xs[i]? = some (some a) := by
  rw [get, Option.join_eq_some_iff]

/-- A slot that holds something exists. -/
theorem lt_of_get {xs : List (Option α)} {i : Nat} {a : α}
    (h : get xs i = some a) : i < xs.length := by
  obtain ⟨hlt, _⟩ := List.getElem?_eq_some_iff.mp (get_eq_some.mp h)
  exact hlt

/-- The next slot is not there yet. -/
theorem get_length (xs : List (Option α)) : get xs xs.length = none := by
  rw [get, List.getElem?_eq_none (Nat.le_refl _)]
  rfl

/-- The new object is at the next address, the others stay. -/
theorem get_alloc (xs : List (Option α)) (a : α) (i : Nat) :
    get (alloc xs a) i = if i = xs.length then some a else get xs i := by
  by_cases hi : i = xs.length
  · rw [if_pos hi, hi, get, alloc, List.getElem?_concat_length]
    rfl
  · rw [if_neg hi, get, get, alloc]
    by_cases hlt : i < xs.length
    · rw [List.getElem?_append_left hlt]
    · have hend : (xs ++ [some a]).length ≤ i := by
        rw [List.length_append, List.length_singleton]
        omega
      rw [List.getElem?_eq_none hend, List.getElem?_eq_none (by omega)]

/-- A new slot leaves the others. -/
theorem get_alloc_of_get {xs : List (Option α)} {a b : α} {i : Nat}
    (h : get xs i = some b) : get (alloc xs a) i = some b := by
  have hlt := lt_of_get h
  rw [get_alloc, if_neg (by omega), h]

/-- Writing one slot changes that slot only. -/
theorem get_put {xs : List (Option α)} {i : Nat} (o : Option α)
    (hi : i < xs.length) (j : Nat) :
    get (put xs i o) j = if j = i then o else get xs j := by
  rw [get, put, List.getElem?_set]
  by_cases hij : i = j
  · rw [if_pos hij, if_pos hi, if_pos hij.symm]
    rfl
  · rw [if_neg hij, if_neg (fun h => hij h.symm)]
    rfl

/-- A slot holds what was written. -/
theorem get_put_self {xs : List (Option α)} {i : Nat} (o : Option α)
    (hi : i < xs.length) : get (put xs i o) i = o := by
  rw [get_put o hi, if_pos rfl]

/-- The other slots hold what they held. -/
theorem get_put_ne {xs : List (Option α)} {i j : Nat} (o : Option α)
    (hi : i < xs.length) (hij : j ≠ i) : get (put xs i o) j = get xs j := by
  rw [get_put o hi, if_neg hij]

/-- Writing a slot adds none. -/
@[simp] theorem put_length (xs : List (Option α)) (i : Nat) (o : Option α) :
    (put xs i o).length = xs.length :=
  List.length_set

/-- One slot more. -/
@[simp] theorem alloc_length (xs : List (Option α)) (a : α) :
    (alloc xs a).length = xs.length + 1 :=
  List.length_append

/-! ## Totals -/

/-- A new slot adds what it holds. -/
theorem total_alloc (f : α → Nat) (xs : List (Option α)) (a : α) :
    total f (alloc xs a) = total f xs + f a := by
  induction xs with
  | nil => exact Nat.add_comm (f a) 0
  | cons o xs ih =>
      show o.elim 0 f + total f (alloc xs a) = _
      rw [ih, total_cons, Nat.add_assoc]

/-- **REPLACEMENT**: the old measure out, the new measure in. -/
theorem total_put (f : α → Nat) {xs : List (Option α)} {i : Nat} {a : α}
    (o : Option α) (h : get xs i = some a) :
    total f (put xs i o) + f a = total f xs + o.elim 0 f := by
  induction xs generalizing i with
  | nil => exact nomatch h
  | cons b xs ih =>
      cases i with
      | zero =>
          have hb : b = some a := by
            have hjoin : (some b).join = some a := h
            rw [Option.join_some] at hjoin
            exact hjoin
          subst hb
          show o.elim 0 f + total f xs + f a
            = f a + total f xs + o.elim 0 f
          omega
      | succ i =>
          have htail : get xs i = some a := h
          have hstep := ih htail
          show b.elim 0 f + total f (put xs i o) + f a = _
          rw [total_cons]
          omega

/-- A replacement that keeps the measure keeps the total. -/
theorem total_put_same (f : α → Nat) {xs : List (Option α)} {i : Nat}
    {a b : α} (h : get xs i = some a) (hf : f b = f a) :
    total f (put xs i (some b)) = total f xs := by
  have hput := total_put f (some b) h
  rw [Option.elim_some, hf] at hput
  omega

/-- A slot holds no more than all do. -/
theorem le_total (f : α → Nat) {xs : List (Option α)} {i : Nat} {a : α}
    (h : get xs i = some a) : f a ≤ total f xs := by
  have hput := total_put f none h
  rw [Option.elim_none] at hput
  omega

/-- Slots that hold nothing hold nothing together. -/
theorem total_eq_zero {f : α → Nat} {xs : List (Option α)}
    (h : ∀ i a, get xs i = some a → f a = 0) : total f xs = 0 := by
  induction xs with
  | nil => rfl
  | cons o xs ih =>
      have hhead : o.elim 0 f = 0 := by
        cases o with
        | none => rfl
        | some a => exact h 0 a rfl
      rw [total_cons, hhead, ih (fun i a hi => h (i + 1) a hi)]

/-- The sum depends on what is held only. -/
theorem total_congr {f g : α → Nat} {xs : List (Option α)}
    (h : ∀ i a, get xs i = some a → f a = g a) :
    total f xs = total g xs := by
  induction xs with
  | nil => rfl
  | cons o xs ih =>
      have hhead : o.elim 0 f = o.elim 0 g := by
        cases o with
        | none => rfl
        | some a => exact h 0 a rfl
      rw [total_cons, total_cons, hhead, ih (fun i a hi => h (i + 1) a hi)]

/-- Totals of a sum of measures. -/
theorem total_sum (g : Nat → α → Nat) (n : Nat) (xs : List (Option α)) :
    total (fun a => ∑ m ∈ Finset.range n, g m a) xs
      = ∑ m ∈ Finset.range n, total (g m) xs := by
  induction xs with
  | nil => exact (Finset.sum_const_zero).symm
  | cons o xs ih =>
      have hhead : o.elim 0 (fun a => ∑ m ∈ Finset.range n, g m a)
          = ∑ m ∈ Finset.range n, o.elim 0 (g m) := by
        cases o with
        | none => exact (Finset.sum_const_zero).symm
        | some a => rfl
      rw [total_cons, ih, hhead, ← Finset.sum_add_distrib]
      rfl

/-- A total is the sum of the measures by address. -/
theorem total_eq_sum (f : α → Nat) (xs : List (Option α)) :
    total f xs = ∑ i ∈ Finset.range xs.length, (get xs i).elim 0 f := by
  induction xs with
  | nil => rfl
  | cons o xs ih =>
      rw [total_cons, ih, List.length_cons, Finset.sum_range_succ',
        Nat.add_comm]
      rfl

/-- A total that is not zero comes from some object. -/
theorem exists_of_total_ne_zero {f : α → Nat} {xs : List (Option α)}
    (h : total f xs ≠ 0) : ∃ i a, get xs i = some a := by
  by_contra hnone
  refine h (total_eq_zero fun i a hi => ?_)
  exact (hnone ⟨i, a, hi⟩).elim

/-! ## Counting -/

/-- How many objects are live. -/
def count (xs : List (Option α)) : Nat := total (fun _ => 1) xs

/-- Replacing what a slot holds keeps the count. -/
theorem count_put {xs : List (Option α)} {i : Nat} {a : α} (b : α)
    (h : get xs i = some a) : count (put xs i (some b)) = count xs :=
  total_put_same _ h rfl

/-- Emptying a slot takes one off the count. -/
theorem count_free {xs : List (Option α)} {i : Nat} {a : α}
    (h : get xs i = some a) : count (put xs i none) + 1 = count xs :=
  total_put (fun _ => 1) none h

/-- With a count of zero all slots are empty. -/
theorem get_of_count_eq_zero {xs : List (Option α)} (h : count xs = 0)
    (i : Nat) : get xs i = none := by
  cases hi : get xs i with
  | none => rfl
  | some a =>
      have hle := le_total (fun _ => 1) hi
      rw [show total (fun _ => 1) xs = 0 from h] at hle
      cases hle

/-- If an object is live, one is live at the highest address. -/
theorem exists_last {xs : List (Option α)} {i : Nat} {a : α}
    (h : get xs i = some a) :
    ∃ k b, get xs k = some b ∧ ∀ m, k < m → get xs m = none := by
  induction hn : xs.length - i using Nat.strong_induction_on
    generalizing i a with
  | _ n ih =>
      by_cases hlater : ∃ m b, i < m ∧ get xs m = some b
      · obtain ⟨m, b, him, hm⟩ := hlater
        have hlt := lt_of_get hm
        exact ih (xs.length - m) (by omega) hm rfl
      · refine ⟨i, a, h, fun m him => ?_⟩
        cases hm : get xs m with
        | none => rfl
        | some b => exact (hlater ⟨m, b, him, hm⟩).elim

end Slots
