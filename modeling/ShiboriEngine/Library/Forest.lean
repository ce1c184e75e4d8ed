import Mathlib

/-! # Forests — capacities promised downwards

    A forest on the natural numbers is a parent function that decreases.
    `subtreeSum` adds a weight over a whole subtree.  If every node's own
    weight and the capacities of its children fit in its capacity, the weight
    of its subtree does (`subtreeSum_le_capacity`). -/

namespace Forest

/-- `m` is `root` or lies below it. -/
inductive Within (parent : Nat → Option Nat) (root : Nat) : Nat → Prop where
  | self : Within parent root root
  | child {m p : Nat} (hparent : parent m = some p)
      (hwithin : Within parent root p) : Within parent root m

variable {parent : Nat → Option Nat}

/-- In a subtree is its root, or what has its parent in it. -/
theorem within_iff {root m : Nat} :
    Within parent root m
      ↔ m = root ∨ ∃ p, parent m = some p ∧ Within parent root p := by
  constructor
  · intro h
    cases h with
    | self => exact Or.inl rfl
    | child hparent hwithin => exact Or.inr ⟨_, hparent, hwithin⟩
  · rintro (rfl | ⟨p, hparent, hwithin⟩)
    · exact Within.self
    · exact Within.child hparent hwithin

/-- Below a root means below exactly one of its children. -/
theorem within_iff_child {root m : Nat} :
    Within parent root m
      ↔ m = root ∨ ∃ c, parent c = some root ∧ Within parent c m := by
  constructor
  · intro h
    induction h with
    | self => exact Or.inl rfl
    | child hparent _ ih =>
        right
        rcases ih with rfl | ⟨c, hc, hwithin⟩
        · exact ⟨_, hparent, Within.self⟩
        · exact ⟨c, hc, Within.child hparent hwithin⟩
  · rintro (rfl | ⟨c, hc, hwithin⟩)
    · exact Within.self
    · induction hwithin with
      | self => exact Within.child hc Within.self
      | child hparent _ ih => exact Within.child hparent ih

/-- Two nodes above a third are one above the other. -/
theorem Within.comparable {a b m : Nat} (ha : Within parent a m)
    (hb : Within parent b m) : Within parent a b ∨ Within parent b a := by
  induction ha with
  | self => exact Or.inr hb
  | child hparent hwithin ih =>
      rcases within_iff.mp hb with rfl | ⟨p, hp, hrest⟩
      · exact Or.inl (Within.child hparent hwithin)
      · rw [hparent] at hp
        cases hp
        exact ih hrest

section
variable (hlt : ∀ m p, parent m = some p → p < m)
include hlt

/-- A root is older than all that is below it. -/
theorem Within.le {root m : Nat} (h : Within parent root m) : root ≤ m := by
  induction h with
  | self => exact Nat.le_refl root
  | child hparent _ ih => exact Nat.le_trans ih (hlt _ _ hparent).le

/-- The child of the root above a node is unique. -/
theorem child_unique {root a b m : Nat} (ha : parent a = some root)
    (hb : parent b = some root) (hma : Within parent a m)
    (hmb : Within parent b m) : a = b := by
  have hup : ∀ x y, parent x = some root → parent y = some root →
      Within parent x y → x = y := by
    intro x y hx hy hxy
    rcases within_iff.mp hxy with rfl | ⟨p, hp, hrest⟩
    · rfl
    · rw [hy] at hp
      cases hp
      have hle := hrest.le hlt
      have hroot := hlt x root hx
      omega
  rcases hma.comparable hmb with h | h
  · exact hup a b ha hb h
  · exact (hup b a hb ha h).symm

/-! ## Sums over subtrees -/

open Classical in
/-- The weight of a whole subtree, over nodes below `size`. -/
noncomputable def subtreeSum (parent : Nat → Option Nat) (weight : Nat → Nat)
    (size root : Nat) : Nat :=
  ∑ m ∈ Finset.range size, if Within parent root m then weight m else 0

open Classical in
/-- A node below the root is counted under exactly one child. -/
private theorem indicator_child {size root m : Nat} (hm : m < size) (w : Nat) :
    (if Within parent root m then w else 0)
      = (if m = root then w else 0)
        + ∑ c ∈ Finset.range size,
            if parent c = some root then
              (if Within parent c m then w else 0) else 0 := by
  by_cases hroot : m = root
  · subst hroot
    have hnone : ∀ c ∈ Finset.range size,
        (if parent c = some m then
          (if Within parent c m then w else 0) else 0) = 0 := by
      intro c _
      by_cases hc : parent c = some m
      · have hlow := hlt c m hc
        have hnot : ¬ Within parent c m := fun h => by
          have hle := h.le hlt
          omega
        rw [if_pos hc, if_neg hnot]
      · rw [if_neg hc]
    rw [if_pos Within.self, if_pos rfl, Finset.sum_eq_zero hnone, Nat.add_zero]
  · rw [if_neg hroot, Nat.zero_add]
    by_cases hin : Within parent root m
    · obtain ⟨c, hc, hwithin⟩ :=
        (within_iff_child.mp hin).resolve_left hroot
      have hcm := hwithin.le hlt
      rw [if_pos hin, Finset.sum_eq_single c]
      · rw [if_pos hc, if_pos hwithin]
      · intro d _ hdc
        by_cases hd : parent d = some root
        · have hnot : ¬ Within parent d m :=
            fun h => hdc (child_unique hlt hd hc h hwithin)
          rw [if_pos hd, if_neg hnot]
        · rw [if_neg hd]
      · intro hout
        exact (hout (Finset.mem_range.mpr (by omega))).elim
    · have hnone : ∀ c ∈ Finset.range size,
          (if parent c = some root then
            (if Within parent c m then w else 0) else 0) = 0 := by
        intro c _
        by_cases hc : parent c = some root
        · have hnot : ¬ Within parent c m :=
            fun h => hin (within_iff_child.mpr (Or.inr ⟨c, hc, h⟩))
          rw [if_pos hc, if_neg hnot]
        · rw [if_neg hc]
      rw [if_neg hin, Finset.sum_eq_zero hnone]

/-- **ONE LEVEL**: a subtree is its root and its children's subtrees. -/
theorem subtreeSum_eq (weight : Nat → Nat) {size root : Nat}
    (hroot : root < size) :
    subtreeSum parent weight size root
      = weight root
        + ∑ c ∈ Finset.range size,
            if parent c = some root then subtreeSum parent weight size c
            else 0 := by
  classical
  have hown : ∑ m ∈ Finset.range size, (if m = root then weight m else 0)
      = weight root := by
    rw [Finset.sum_ite_eq', if_pos (Finset.mem_range.mpr hroot)]
  have hswap : ∑ m ∈ Finset.range size, ∑ c ∈ Finset.range size,
        (if parent c = some root then
          (if Within parent c m then weight m else 0) else 0)
      = ∑ c ∈ Finset.range size,
          if parent c = some root then subtreeSum parent weight size c
          else 0 := by
    rw [Finset.sum_comm]
    refine Finset.sum_congr rfl ?_
    intro c _
    by_cases hc : parent c = some root
    · simp only [if_pos hc]
      rfl
    · simp only [if_neg hc]
      exact Finset.sum_const_zero
  rw [← hswap, ← hown, ← Finset.sum_add_distrib, subtreeSum]
  refine Finset.sum_congr rfl ?_
  intro m hm
  exact indicator_child hlt (Finset.mem_range.mp hm) (weight m)

/-- **CAPACITY**: promises that fit at every node fit over every subtree. -/
theorem subtreeSum_le_capacity {weight capacity : Nat → Nat} {size : Nat}
    (hfit : ∀ n, n < size →
      weight n + (∑ c ∈ Finset.range size,
        if parent c = some n then capacity c else 0) ≤ capacity n)
    {root : Nat} (hroot : root < size) :
    subtreeSum parent weight size root ≤ capacity root := by
  -- Children have larger numbers, so the induction runs down from `size`.
  induction hk : size - root using Nat.strong_induction_on generalizing root with
  | _ k ih =>
      refine Nat.le_trans ?_ (hfit root hroot)
      rw [subtreeSum_eq hlt weight hroot]
      refine Nat.add_le_add_left (Finset.sum_le_sum ?_) (weight root)
      intro c hc
      by_cases hp : parent c = some root
      · have hbelow := hlt c root hp
        have hcsize := Finset.mem_range.mp hc
        rw [if_pos hp, if_pos hp]
        exact ih (size - c) (by omega) hcsize rfl
      · rw [if_neg hp, if_neg hp]

end

end Forest
