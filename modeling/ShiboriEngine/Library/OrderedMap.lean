import Mathlib

/-! # Ordered maps as lists of entries

    Facts about the entries of an extensional ordered map, over any lawful
    comparison: the keys are listed once and in order, so they are determined
    by membership; inserting a new key lists one entry more; and two maps that
    differ in the value of one key have lists that differ in one entry. -/

namespace OrderedMap

variable {α β : Type} {cmp : α → α → Ordering} [Std.TransCmp cmp]

/-- The entry of a key. -/
def entryAt (map : Std.ExtTreeMap α β cmp) (k : α) : Option (α × β) :=
  map[k]?.map (Prod.mk k)

/-- The entry of a key that is there. -/
theorem entryAt_of_getElem? {map : Std.ExtTreeMap α β cmp} {k : α} {v : β}
    (h : map[k]? = some v) : entryAt map k = some (k, v) := by
  rw [entryAt, h, Option.map_some]

/-- A map lists every key once. -/
theorem nodup_toList (map : Std.ExtTreeMap α β cmp) : map.toList.Nodup := by
  have hkeys : (map.toList.map Prod.fst).Nodup := by
    rw [Std.ExtTreeMap.map_fst_toList_eq_keys]
    exact Std.ExtTreeMap.nodup_keys
  exact hkeys.of_map

variable [Std.LawfulEqCmp cmp]

/-- **INSERTING** a new key lists one entry more. -/
theorem toList_insert_perm {map : Std.ExtTreeMap α β cmp} {key : α}
    (hnew : key ∉ map) (value : β) :
    (map.insert key value).toList.Perm ((key, value) :: map.toList) := by
  have habsent : (key, value) ∉ map.toList := by
    intro hmem
    rw [Std.ExtTreeMap.mem_toList_iff_getElem?_eq_some] at hmem
    refine hnew (Std.ExtTreeMap.mem_iff_isSome_getElem?.mpr ?_)
    rw [hmem]
    rfl
  refine (List.perm_ext_iff_of_nodup (nodup_toList _)
    (List.nodup_cons.mpr ⟨habsent, nodup_toList map⟩)).mpr ?_
  rintro ⟨k, v⟩
  rw [List.mem_cons, Std.ExtTreeMap.mem_toList_iff_getElem?_eq_some,
    Std.ExtTreeMap.mem_toList_iff_getElem?_eq_some,
    Std.ExtTreeMap.getElem?_insert, Prod.mk.injEq]
  by_cases hkey : cmp key k = .eq
  · have hk := Std.LawfulEqCmp.eq_of_compare hkey
    subst hk
    have hnone : map[key]? = none := Std.ExtTreeMap.getElem?_eq_none hnew
    rw [if_pos hkey, hnone]
    constructor
    · intro h
      exact Or.inl ⟨rfl, (Option.some.inj h).symm⟩
    · rintro (⟨_, rfl⟩ | hold)
      · rfl
      · cases hold
  · rw [if_neg hkey]
    constructor
    · intro h
      exact Or.inr h
    · rintro (⟨rfl, _⟩ | hold)
      · exact (hkey Std.ReflCmp.compare_self).elim
      · exact hold

/-! ## Changing one value -/

/-- **KEYS** come in order, so membership determines their list. -/
theorem keys_ext {a b : Std.ExtTreeMap α β cmp} (h : ∀ k, k ∈ a ↔ k ∈ b) :
    a.keys = b.keys := by
  have hperm : a.keys.Perm b.keys := by
    refine (List.perm_ext_iff_of_nodup Std.ExtTreeMap.nodup_keys
      Std.ExtTreeMap.nodup_keys).mpr ?_
    intro k
    rw [Std.ExtTreeMap.mem_keys, Std.ExtTreeMap.mem_keys]
    exact h k
  refine List.Perm.eq_of_pairwise ?_ Std.ExtTreeMap.ordered_keys
    Std.ExtTreeMap.ordered_keys hperm
  intro x y _ _ hxy hyx
  exact (Std.OrientedCmp.not_lt_of_lt hxy hyx).elim

/-- The entries, read off the keys. -/
theorem toList_eq_filterMap (map : Std.ExtTreeMap α β cmp) :
    map.toList = map.keys.filterMap (entryAt map) := by
  rw [← Std.ExtTreeMap.map_fst_toList_eq_keys, List.filterMap_map]
  have hentry : ∀ entry ∈ map.toList,
      (entryAt map ∘ Prod.fst) entry = some entry := by
    rintro ⟨k, v⟩ hmem
    exact entryAt_of_getElem?
      (Std.ExtTreeMap.mem_toList_iff_getElem?_eq_some.mp hmem)
  rw [List.filterMap_congr hentry, List.filterMap_some]

/-- **ONE VALUE** changed is one entry changed. -/
theorem toList_replace {a b : Std.ExtTreeMap α β cmp} {key : α} {v w : β}
    (ha : a[key]? = some v) (hb : b[key]? = some w)
    (hrest : ∀ k, k ≠ key → a[k]? = b[k]?) :
    ∃ before after, a.toList = before ++ (key, v) :: after
      ∧ b.toList = before ++ (key, w) :: after := by
  have hmem : ∀ k, k ∈ a ↔ k ∈ b := by
    intro k
    rw [Std.ExtTreeMap.mem_iff_isSome_getElem?,
      Std.ExtTreeMap.mem_iff_isSome_getElem?]
    by_cases hk : k = key
    · rw [hk, ha, hb]
      exact Iff.rfl
    · rw [hrest k hk]
  have hkey : key ∈ a.keys := by
    rw [Std.ExtTreeMap.mem_keys, Std.ExtTreeMap.mem_iff_isSome_getElem?, ha]
    rfl
  obtain ⟨before, after, hkeys⟩ := List.append_of_mem hkey
  have hnodup : (before ++ key :: after).Nodup := by
    rw [← hkeys]
    exact Std.ExtTreeMap.nodup_keys
  obtain ⟨habsent, _⟩ := List.nodup_cons.mp (List.nodup_middle.mp hnodup)
  have hsame : ∀ ks : List α, (∀ k ∈ ks, k ∈ before ++ after) →
      ks.filterMap (entryAt b) = ks.filterMap (entryAt a) := by
    intro ks hks
    refine List.filterMap_congr fun k hk => ?_
    -- a key of the rest is not the one that was changed
    rw [entryAt, entryAt, hrest k fun heq => habsent (heq ▸ hks k hk)]
  refine ⟨before.filterMap (entryAt a), after.filterMap (entryAt a), ?_, ?_⟩
  · rw [toList_eq_filterMap, hkeys, List.filterMap_append,
      List.filterMap_cons_some (entryAt_of_getElem? ha)]
  · rw [toList_eq_filterMap, ← keys_ext hmem, hkeys, List.filterMap_append,
      List.filterMap_cons_some (entryAt_of_getElem? hb),
      hsame before fun k hk => List.mem_append_left _ hk,
      hsame after fun k hk => List.mem_append_right _ hk]

end OrderedMap
