import Mathlib

/-! # The first separator of a list

    A list that contains a separator splits at the first one, in one way only.
    A prefix without separators is a prefix of the part before it, and a prefix
    that ends with its only separator is that whole part. -/

namespace Delimiter

variable {α : Type} {sep : α} {p before after : List α}

/-- The first separator is where the part before it ends. -/
theorem findIdx?_of_split [DecidableEq α] (h : sep ∉ before) :
    (before ++ sep :: after).findIdx? (· = sep) = some before.length := by
  have hbefore : before.findIdx? (· = sep) = none := by
    rw [List.findIdx?_eq_none_iff]
    intro a ha
    refine decide_eq_false ?_
    rintro rfl
    exact h ha
  rw [List.findIdx?_append, hbefore, Option.none_or, List.findIdx?_cons,
    if_pos (decide_eq_true rfl), Option.map_some, Nat.zero_add]

/-- The first separator splits the list. -/
theorem split_of_findIdx? [DecidableEq α] {list : List α} {i : Nat}
    (h : list.findIdx? (· = sep) = some i) :
    ∃ before after, list = before ++ sep :: after ∧ sep ∉ before
      ∧ before.length = i := by
  induction list generalizing i with
  | nil => exact nomatch h
  | cons a list ih =>
      rw [List.findIdx?_cons] at h
      by_cases ha : a = sep
      · rw [if_pos (decide_eq_true ha)] at h
        cases h
        exact ⟨[], list, by rw [ha, List.nil_append], List.not_mem_nil, rfl⟩
      · rw [if_neg (by rw [decide_eq_true_iff]; exact ha)] at h
        obtain ⟨j, hj, rfl⟩ := Option.map_eq_some_iff.mp h
        obtain ⟨before, after, rfl, hbefore, rfl⟩ := ih hj
        refine ⟨a :: before, after, rfl, ?_, rfl⟩
        rw [List.mem_cons, not_or]
        exact ⟨Ne.symm ha, hbefore⟩

/-- **A PREFIX** without separators lies before the first one. -/
theorem prefix_split_iff (h : sep ∉ p) :
    p <+: before ++ sep :: after ↔ p <+: before := by
  constructor
  · intro hprefix
    rcases List.prefix_or_prefix_of_prefix hprefix
      (List.prefix_append before (sep :: after)) with hshort | ⟨rest, rfl⟩
    · exact hshort
    · cases rest with
      | nil => exact ⟨[], by rw [List.append_nil, List.append_nil]⟩
      | cons a rest =>
          -- the separator would be the next element of the prefix
          rw [List.prefix_append_right_inj, List.cons_prefix_cons] at hprefix
          exact (h (List.mem_append_right _
            (List.mem_cons.mpr (Or.inl hprefix.1.symm)))).elim
  · intro hprefix
    exact hprefix.trans (List.prefix_append before (sep :: after))

/-- **A PREFIX** up to its only separator is the whole part before it. -/
theorem prefix_closed_iff (hp : sep ∉ p) (hbefore : sep ∉ before) :
    p ++ [sep] <+: before ++ sep :: after ↔ before = p := by
  constructor
  · intro hprefix
    have hshort := (prefix_split_iff hp).mp
      ((List.prefix_append p [sep]).trans hprefix)
    obtain ⟨rest, rfl⟩ := hshort
    rw [List.append_assoc, List.prefix_append_right_inj] at hprefix
    cases rest with
    | nil => exact List.append_nil p
    | cons a rest =>
        rw [List.cons_append, List.cons_prefix_cons] at hprefix
        exact (hbefore (List.mem_append_right _
          (List.mem_cons.mpr (Or.inl hprefix.1)))).elim
  · rintro rfl
    rw [List.prefix_append_right_inj, List.cons_prefix_cons]
    exact ⟨rfl, List.nil_prefix⟩

/-- Nothing, or something behind a separator. -/
def Behind (sep : α) (list : List α) : Prop :=
  list = [] ∨ ∃ rest, list = sep :: rest

/-- What starts with the separator is behind it. -/
theorem Behind.cons (sep : α) (rest : List α) : Behind sep (sep :: rest) :=
  Or.inr ⟨rest, rfl⟩

/-- What is behind the separator starts with it, unless empty. -/
theorem Behind.of_cons {a : α} {list : List α}
    (h : Behind sep (a :: list)) : a = sep := by
  rcases h with hnil | ⟨rest, heq⟩
  · cases hnil
  · exact (List.cons.inj heq).1

/-- **THE SPLIT** before the first separator is unique. -/
theorem split_unique {q t u : List α} (hp : sep ∉ p) (hq : sep ∉ q)
    (ht : Behind sep t) (hu : Behind sep u) (h : p ++ t = q ++ u) :
    p = q ∧ t = u := by
  induction p generalizing q with
  | nil =>
      cases q with
      | nil => exact ⟨rfl, h⟩
      | cons b q =>
          have hmem : b = sep := by
            rw [List.nil_append, List.cons_append] at h
            exact (h ▸ ht).of_cons
          exact (hq (hmem ▸ List.mem_cons_self)).elim
  | cons a p ih =>
      cases q with
      | nil =>
          have hmem : a = sep := by
            rw [List.nil_append, List.cons_append] at h
            exact (h ▸ hu).of_cons
          exact (hp (hmem ▸ List.mem_cons_self)).elim
      | cons b q =>
          rw [List.cons_append, List.cons_append] at h
          obtain ⟨rfl, hrest⟩ := List.cons.inj h
          obtain ⟨rfl, hsame⟩ := ih
            (fun hmem => hp (List.mem_cons_of_mem _ hmem))
            (fun hmem => hq (List.mem_cons_of_mem _ hmem)) hrest
          exact ⟨rfl, hsame⟩

end Delimiter
