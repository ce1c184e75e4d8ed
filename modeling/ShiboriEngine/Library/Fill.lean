import Mathlib

/-! # Loops that fill an array

    A loop assigns the positions of an array one after another; the values are
    given (`fill`) or computed with a chance to fail (`fillM`).  When no
    position is assigned twice, every assigned position ends with its value
    and every other one as it was. -/

namespace Fill

variable {α ε : Type} {n : Nat}

/-! ## Given values -/

/-- The vector after the writes, in order. -/
def fill (v : Vector α n) (writes : List (Fin n × α)) : Vector α n :=
  writes.foldl (fun v write => v.set write.1 write.2) v

/-- The first write comes first. -/
theorem fill_cons (v : Vector α n) (i : Fin n) (x : α)
    (writes : List (Fin n × α)) :
    fill v ((i, x) :: writes) = fill (v.set i x) writes := rfl

/-- A place that no write names keeps its value. -/
theorem fill_getElem_of_notMem {v : Vector α n} {writes : List (Fin n × α)}
    {i : Fin n} (h : i ∉ writes.map Prod.fst) : (fill v writes)[i] = v[i] := by
  induction writes generalizing v with
  | nil => rfl
  | cons write writes ih =>
      obtain ⟨j, y⟩ := write
      rw [List.map_cons, List.mem_cons, not_or] at h
      have hne : (j : Nat) ≠ i := fun heq => h.1 (Fin.ext heq).symm
      rw [fill_cons, ih h.2]
      exact Vector.getElem_set_ne j.isLt i.isLt hne

/-- **EVERY WRITE** lands, when no position is written twice. -/
theorem fill_getElem_of_mem {v : Vector α n} {writes : List (Fin n × α)}
    (hnodup : (writes.map Prod.fst).Nodup) {i : Fin n} {x : α}
    (hmem : (i, x) ∈ writes) : (fill v writes)[i] = x := by
  induction writes generalizing v with
  | nil => exact nomatch hmem
  | cons write writes ih =>
      obtain ⟨j, y⟩ := write
      rw [List.map_cons, List.nodup_cons] at hnodup
      rw [fill_cons]
      rcases List.mem_cons.mp hmem with heq | hrest
      · cases heq
        rw [fill_getElem_of_notMem hnodup.1]
        exact Vector.getElem_set_self i.isLt
      · exact ih hnodup.2 hrest

/-! ## Computed values -/

/-- Computes the value of every index in turn, up to the first error. -/
def fillM (f : Fin n → Except ε α) (v : Vector α n) (indices : List (Fin n)) :
    Except ε (Vector α n) :=
  indices.foldlM (fun v i => do
    let x ← f i
    .ok (v.set i x)) v

variable {f : Fin n → Except ε α}

/-- A value goes to its place. -/
theorem fillM_cons_ok {v : Vector α n} {i : Fin n} {x : α}
    (indices : List (Fin n)) (hx : f i = .ok x) :
    fillM f v (i :: indices) = fillM f (v.set i x) indices := by
  rw [fillM, List.foldlM_cons, hx]
  rfl

/-- The first error ends the filling. -/
theorem fillM_cons_error {v : Vector α n} {i : Fin n} {e : ε}
    (indices : List (Fin n)) (he : f i = .error e) :
    fillM f v (i :: indices) = .error e := by
  rw [fillM, List.foldlM_cons, he]
  rfl

/-- **A FILLED ARRAY** holds what was computed for every position visited. -/
theorem fillM_eq_ok {v w : Vector α n} {indices : List (Fin n)}
    (hnodup : indices.Nodup) :
    fillM f v indices = .ok w
      ↔ (∀ i ∈ indices, f i = .ok w[i]) ∧ ∀ i ∉ indices, w[i] = v[i] := by
  induction indices generalizing v with
  | nil =>
      constructor
      · intro h
        cases h
        exact ⟨fun _ h => (nomatch h), fun _ _ => rfl⟩
      · rintro ⟨_, hsame⟩
        have heq : v = w := by
          ext i hi
          exact (hsame ⟨i, hi⟩ List.not_mem_nil).symm
        rw [heq]
        rfl
  | cons j indices ih =>
      obtain ⟨habsent, hnodup⟩ := List.nodup_cons.mp hnodup
      cases hj : f j with
      | error e =>
          rw [fillM_cons_error indices hj]
          constructor
          · intro h
            exact nomatch h
          · rintro ⟨hall, _⟩
            have hok := hall j List.mem_cons_self
            rw [hj] at hok
            exact nomatch hok
      | ok x =>
          rw [fillM_cons_ok indices hj, ih hnodup]
          constructor
          · rintro ⟨hall, hsame⟩
            have hwrote : w[j] = x :=
              (hsame j habsent).trans (Vector.getElem_set_self j.isLt)
            refine ⟨?_, ?_⟩
            · intro i hi
              rcases List.mem_cons.mp hi with rfl | hrest
              · rw [hj, hwrote]
              · exact hall i hrest
            · intro i hi
              rw [List.mem_cons, not_or] at hi
              have hne : (j : Nat) ≠ i := fun heq => hi.1 (Fin.ext heq).symm
              exact (hsame i hi.2).trans
                (Vector.getElem_set_ne j.isLt i.isLt hne)
          · rintro ⟨hall, hsame⟩
            refine ⟨fun i hi => hall i (List.mem_cons_of_mem _ hi), ?_⟩
            intro i hi
            by_cases heq : i = j
            · subst heq
              have hok := hall i List.mem_cons_self
              rw [hj] at hok
              exact (Except.ok.inj hok).symm.trans
                (Vector.getElem_set_self i.isLt).symm
            · have hne : (j : Nat) ≠ i := fun h => heq (Fin.ext h).symm
              have hout : i ∉ j :: indices := by
                rw [List.mem_cons, not_or]
                exact ⟨heq, hi⟩
              exact (hsame i hout).trans
                (Vector.getElem_set_ne j.isLt i.isLt hne).symm

/-- A loop over all positions. -/
theorem fillM_finRange_eq_ok {v w : Vector α n} :
    fillM f v (List.finRange n) = .ok w ↔ ∀ i : Fin n, f i = .ok w[i] := by
  rw [fillM_eq_ok (List.nodup_finRange n)]
  constructor
  · rintro ⟨hall, _⟩ i
    exact hall i (List.mem_finRange i)
  · intro hall
    exact ⟨fun i _ => hall i, fun i hi => (hi (List.mem_finRange i)).elim⟩

end Fill
