import Mathlib

/-! # Dense storage of optional values

    A list of optional values is stored as a mask, which tells the positions
    that hold a value, and the values alone, without gaps.  `scatter` puts the
    values back in their positions; `mask` and `reduceOption` take the list
    apart again.  The value of a position that holds one is found by its rank,
    the number of such positions before it. -/

namespace Dense

variable {α : Type}

/-- The next value at every position of the mask, none at the others. -/
def scatter : List Bool → List α → List (Option α)
  | [], _ => []
  | false :: mask, values => none :: scatter mask values
  | true :: mask, [] => none :: scatter mask []
  | true :: mask, value :: values => some value :: scatter mask values

/-- The positions that hold a value. -/
def mask (cells : List (Option α)) : List Bool := cells.map Option.isSome

/-- How many positions before `i` hold a value. -/
def rank (mask : List Bool) (i : Nat) : Nat := (mask.take i).count true

/-- One bit for every cell. -/
@[simp] theorem mask_length (cells : List (Option α)) :
    (mask cells).length = cells.length := List.length_map _

/-- One cell for every bit of the mask. -/
@[simp] theorem scatter_length (mask : List Bool) (values : List α) :
    (scatter mask values).length = mask.length := by
  fun_induction scatter mask values with
  | case1 => rfl
  | case2 values mask ih => rw [List.length_cons, ih, List.length_cons]
  | case3 mask ih => rw [List.length_cons, ih, List.length_cons]
  | case4 mask value values ih => rw [List.length_cons, ih, List.length_cons]

/-- The set bits count the values. -/
theorem count_mask (cells : List (Option α)) :
    (mask cells).count true = cells.reduceOption.length := by
  induction cells with
  | nil => rfl
  | cons cell cells ih =>
      cases cell with
      | none =>
          rw [List.reduceOption_cons_of_none, ← ih]
          exact List.count_cons_of_ne Bool.false_ne_true
      | some value =>
          rw [List.reduceOption_cons_of_some, List.length_cons, ← ih]
          exact List.count_cons_self

/-- The clear bits count the empty cells. -/
theorem count_mask_false (cells : List (Option α)) :
    (mask cells).count false = cells.countP Option.isNone := by
  rw [mask, List.count, List.countP_map]
  refine List.countP_congr ?_
  intro cell _
  cases cell with
  | none => exact Iff.rfl
  | some value => exact Iff.rfl

/-- An empty cell is a clear bit. -/
theorem none_mem_iff {cells : List (Option α)} :
    none ∈ cells ↔ false ∈ mask cells := by
  rw [mask, List.mem_map]
  constructor
  · intro h
    exact ⟨none, h, rfl⟩
  · rintro ⟨cell, hcell, hnone⟩
    cases cell with
    | none => exact hcell
    | some value => cases hnone

/-! ## There and back -/

/-- **PUT BACK**: a list is its mask and its values. -/
theorem scatter_mask (cells : List (Option α)) :
    scatter (mask cells) cells.reduceOption = cells := by
  induction cells with
  | nil => rfl
  | cons cell cells ih =>
      cases cell with
      | none =>
          rw [List.reduceOption_cons_of_none]
          exact congrArg (none :: ·) ih
      | some value =>
          rw [List.reduceOption_cons_of_some]
          exact congrArg (some value :: ·) ih

/-- **TAKEN APART**: one value for every position of the mask. -/
theorem mask_scatter {bits : List Bool} {values : List α}
    (h : values.length = bits.count true) :
    mask (scatter bits values) = bits
      ∧ (scatter bits values).reduceOption = values := by
  fun_induction scatter bits values with
  | case1 values =>
      exact ⟨rfl, (List.length_eq_zero_iff.mp h).symm⟩
  | case2 values bits ih =>
      rw [List.count_cons_of_ne Bool.false_ne_true] at h
      obtain ⟨hmask, hvalues⟩ := ih h
      rw [List.reduceOption_cons_of_none]
      exact ⟨congrArg (false :: ·) hmask, hvalues⟩
  | case3 bits ih =>
      rw [List.count_cons_self, List.length_nil] at h
      omega
  | case4 bits value values ih =>
      rw [List.count_cons_self, List.length_cons] at h
      obtain ⟨hmask, hvalues⟩ := ih (Nat.succ.inj h)
      rw [List.reduceOption_cons_of_some]
      exact ⟨congrArg (true :: ·) hmask, congrArg (value :: ·) hvalues⟩

/-- **BY RANK**: a position of the mask holds the value of its rank. -/
theorem scatter_getElem? (bits : List Bool) (values : List α) (i : Nat) :
    (scatter bits values)[i]?
      = bits[i]?.map fun bit =>
          if bit then values[rank bits i]? else none := by
  induction bits generalizing values i with
  | nil => rfl
  | cons bit bits ih =>
      cases i with
      | zero => cases bit <;> cases values <;> rfl
      | succ i =>
          have hsame : rank (false :: bits) (i + 1) = rank bits i :=
            List.count_cons_of_ne Bool.false_ne_true
          have hnext : rank (true :: bits) (i + 1) = rank bits i + 1 :=
            List.count_cons_self
          cases bit with
          | false =>
              rw [hsame]
              exact ih values i
          | true =>
              rw [hnext]
              cases values with
              | nil => exact ih [] i
              | cons value values => exact ih values i

/-- Positions of the mask have ranks below the number of values. -/
theorem rank_lt_count {bits : List Bool} {i : Nat}
    (h : bits[i]? = some true) : rank bits i < bits.count true := by
  obtain ⟨hlt, hbit⟩ := List.getElem?_eq_some_iff.mp h
  have hsplit : bits.count true
      = (bits.take i).count true + (bits.drop i).count true := by
    rw [← List.count_append, List.take_append_drop]
  have hhead : bits.drop i = true :: bits.drop (i + 1) := by
    rw [List.drop_eq_getElem_cons hlt, hbit]
  rw [hsplit, hhead, List.count_cons_self, rank]
  omega

end Dense
