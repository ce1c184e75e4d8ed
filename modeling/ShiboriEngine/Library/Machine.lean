import Mathlib

/-! # Deterministic machines with outputs

    A machine takes an action in a state and answers with an output and the
    next state.  A run is a list of actions.  What one step preserves, a run
    preserves (`finalState_invariant`, `run_invariant`); what a step breaks as
    soon as its guard fails, a run keeps exactly while every step meets the
    guard (`always_iff_along`); and a step-by-step simulation makes two
    machines answer alike over whole runs (`simulation`).  `collect` gathers
    what the steps of a run yield. -/

namespace Machine

variable {σ τ α β : Type}

/-- One step: the output and the next state. -/
abbrev Step (σ α β : Type) := σ → α → β × σ

/-- The state after the inputs. -/
def finalState (step : Step σ α β) : σ → List α → σ
  | s, [] => s
  | s, a :: as => finalState step (step s a).2 as

/-- What the inputs are answered. -/
def outputs (step : Step σ α β) : σ → List α → List β
  | _, [] => []
  | s, a :: as => (step s a).1 :: outputs step (step s a).2 as

/-- Without inputs the state stays. -/
@[simp] theorem finalState_nil (step : Step σ α β) (s : σ) :
    finalState step s [] = s := rfl

/-- The first input comes first. -/
@[simp] theorem finalState_cons (step : Step σ α β) (s : σ) (a : α)
    (as : List α) :
    finalState step s (a :: as) = finalState step (step s a).2 as := rfl

/-- Without inputs there is no output. -/
@[simp] theorem outputs_nil (step : Step σ α β) (s : σ) :
    outputs step s [] = [] := rfl

/-- The first output answers the first input. -/
@[simp] theorem outputs_cons (step : Step σ α β) (s : σ) (a : α)
    (as : List α) :
    outputs step s (a :: as)
      = (step s a).1 :: outputs step (step s a).2 as := rfl

/-- A run may be cut anywhere. -/
theorem finalState_append (step : Step σ α β) (s : σ) (as bs : List α) :
    finalState step s (as ++ bs)
      = finalState step (finalState step s as) bs := by
  induction as generalizing s with
  | nil => rfl
  | cons a as ih => exact ih (step s a).2

/-- The outputs of a run may be cut anywhere. -/
theorem outputs_append (step : Step σ α β) (s : σ) (as bs : List α) :
    outputs step s (as ++ bs)
      = outputs step s as ++ outputs step (finalState step s as) bs := by
  induction as generalizing s with
  | nil => rfl
  | cons a as ih => exact congrArg ((step s a).1 :: ·) (ih (step s a).2)

/-- The last action of a run is a step from the state before it. -/
theorem finalState_concat (step : Step σ α β) (s : σ) (as : List α) (a : α) :
    finalState step s (as ++ [a]) = (step (finalState step s as) a).2 :=
  finalState_append step s as [a]

/-- The last output answers the last input. -/
theorem outputs_concat (step : Step σ α β) (s : σ) (as : List α) (a : α) :
    outputs step s (as ++ [a])
      = outputs step s as ++ [(step (finalState step s as) a).1] :=
  outputs_append step s as [a]

/-- The output at a position is that of the action there, in the state after
    the actions before it. -/
theorem outputs_getElem? (step : Step σ α β) (s : σ) (as : List α) (i : Nat) :
    (outputs step s as)[i]?
      = as[i]?.map fun a => (step (finalState step s (as.take i)) a).1 := by
  induction as generalizing s i with
  | nil => rfl
  | cons a as ih =>
      cases i with
      | zero => rfl
      | succ i => exact ih (step s a).2 i

/-- An output of a run is the output of one of its steps. -/
theorem mem_outputs_iff {step : Step σ α β} {s : σ} {as : List α} {b : β} :
    b ∈ outputs step s as
      ↔ ∃ before a, before ++ [a] <+: as
        ∧ (step (finalState step s before) a).1 = b := by
  induction as generalizing s with
  | nil =>
      constructor
      · intro h
        exact nomatch h
      · rintro ⟨before, a, hprefix, _⟩
        have hnil := List.prefix_nil.mp hprefix
        exact (List.append_ne_nil_of_right_ne_nil before
          (List.cons_ne_nil a []) hnil).elim
  | cons a as ih =>
      rw [outputs_cons, List.mem_cons, ih]
      constructor
      · rintro (rfl | ⟨before, a', hprefix, hout⟩)
        · exact ⟨[], a, List.prefix_append [a] as, rfl⟩
        · exact ⟨a :: before, a',
            List.cons_prefix_cons.mpr ⟨rfl, hprefix⟩, hout⟩
      · rintro ⟨before, a', hprefix, hout⟩
        cases before with
        | nil =>
            obtain ⟨rfl, _⟩ := List.cons_prefix_cons.mp hprefix
            exact Or.inl hout.symm
        | cons c before =>
            obtain ⟨rfl, hrest⟩ := List.cons_prefix_cons.mp hprefix
            exact Or.inr ⟨before, a', hrest, hout⟩

/-! ## Invariants -/

/-- **INVARIANT**: what every step preserves holds after every run. -/
theorem finalState_invariant {step : Step σ α β} {P : σ → Prop}
    (hstep : ∀ s a, P s → P (step s a).2) {s : σ} (h : P s) (as : List α) :
    P (finalState step s as) := by
  induction as generalizing s with
  | nil => exact h
  | cons a as ih => exact ih (hstep s a h)

/-- **RUN INVARIANT**: the same with the outputs so far in view. -/
theorem run_invariant {step : Step σ α β} {P : σ → List β → Prop}
    (hstep : ∀ s bs a, P s bs → P (step s a).2 (bs ++ [(step s a).1]))
    {s : σ} (h : P s []) (as : List α) :
    P (finalState step s as) (outputs step s as) := by
  induction as using List.reverseRecOn with
  | nil => exact h
  | append_singleton as a ih =>
      rw [finalState_concat, outputs_concat]
      exact hstep _ _ a ih

/-! ## What a run yields -/

section Collecting

variable {γ : Type}

/-- What the steps of a run yield, in order; a step yields by its action and
    its output. -/
def collect (step : Step σ α β) (yield : α → β → Option γ) :
    σ → List α → List γ
  | _, [] => []
  | s, a :: as =>
      (yield a (step s a).1).toList ++ collect step yield (step s a).2 as

/-- What is collected may be cut anywhere. -/
theorem collect_append (step : Step σ α β) (yield : α → β → Option γ) (s : σ)
    (as bs : List α) :
    collect step yield s (as ++ bs)
      = collect step yield s as
        ++ collect step yield (finalState step s as) bs := by
  induction as generalizing s with
  | nil => rfl
  | cons a as ih =>
      rw [List.cons_append, collect, collect, ih, List.append_assoc]
      rfl

/-- What the last input adds. -/
theorem collect_concat (step : Step σ α β) (yield : α → β → Option γ) (s : σ)
    (as : List α) (a : α) :
    collect step yield s (as ++ [a])
      = collect step yield s as
        ++ (yield a (step (finalState step s as) a).1).toList := by
  rw [collect_append, collect, collect, List.append_nil]

/-- **RUN INVARIANT** with what the run has yielded in view. -/
theorem collect_invariant {step : Step σ α β} {yield : α → β → Option γ}
    {P : σ → List γ → Prop}
    (hstep : ∀ s cs a, P s cs →
      P (step s a).2 (cs ++ (yield a (step s a).1).toList))
    {s : σ} (h : P s []) (as : List α) :
    P (finalState step s as) (collect step yield s as) := by
  induction as using List.reverseRecOn with
  | nil => exact h
  | append_singleton as a ih =>
      rw [finalState_concat, collect_concat]
      exact hstep _ _ a ih

end Collecting

/-! ## Guarded runs -/

/-- Every step of the run meets the guard in the state it is taken in. -/
def Along (step : Step σ α β) (guard : σ → α → Prop) : σ → List α → Prop
  | _, [] => True
  | s, a :: as => guard s a ∧ Along step guard (step s a).2 as

/-- The property holds in every state the run goes through. -/
def Always (step : Step σ α β) (P : σ → Prop) (s : σ) (as : List α) : Prop :=
  ∀ before, before <+: as → P (finalState step s before)

/-- A property holds always when it holds now and after every step. -/
theorem always_cons {step : Step σ α β} {P : σ → Prop} {s : σ} {a : α}
    {as : List α} :
    Always step P s (a :: as) ↔ P s ∧ Always step P (step s a).2 as := by
  constructor
  · intro h
    refine ⟨h [] List.nil_prefix, ?_⟩
    intro before hbefore
    exact h (a :: before) (List.cons_prefix_cons.mpr ⟨rfl, hbefore⟩)
  · rintro ⟨hs, h⟩ before hbefore
    cases before with
    | nil => exact hs
    | cons b before =>
        obtain ⟨rfl, hrest⟩ := List.cons_prefix_cons.mp hbefore
        exact h before hrest

/-- **EXACT GUARD**: if guarded steps keep an invariant that implies the
    property, and an unguarded step from the invariant breaks the property, a
    run has the property throughout exactly when all its steps are guarded. -/
theorem always_iff_along {step : Step σ α β} {inv P : σ → Prop}
    {guard : σ → α → Prop} (hinv : ∀ s, inv s → P s)
    (hkeep : ∀ s a, inv s → guard s a → inv (step s a).2)
    (hbreak : ∀ s a, inv s → P (step s a).2 → guard s a) {s : σ} (h : inv s)
    (as : List α) : Always step P s as ↔ Along step guard s as := by
  induction as generalizing s with
  | nil =>
      constructor
      · intro _
        trivial
      · rintro _ before hbefore
        rw [List.prefix_nil.mp hbefore]
        exact hinv s h
  | cons a as ih =>
      rw [always_cons, Along]
      constructor
      · rintro ⟨_, hrest⟩
        have hguard := hbreak s a h (hrest [] List.nil_prefix)
        exact ⟨hguard, (ih (hkeep s a h hguard)).mp hrest⟩
      · rintro ⟨hguard, hrest⟩
        exact ⟨hinv s h, (ih (hkeep s a h hguard)).mpr hrest⟩

/-- What every step meets, the steps of a run meet. -/
theorem along_of_forall {step : Step σ α β} {guard : σ → α → Prop}
    (h : ∀ s a, guard s a) (s : σ) (as : List α) : Along step guard s as := by
  induction as generalizing s with
  | nil => trivial
  | cons a as ih => exact ⟨h s a, ih (step s a).2⟩

/-- Two conditions on the steps are one. -/
theorem Along.and {step : Step σ α β} {guard guard' : σ → α → Prop} {s : σ}
    {as : List α} (h : Along step guard s as) (h' : Along step guard' s as) :
    Along step (fun s a => guard s a ∧ guard' s a) s as := by
  induction as generalizing s with
  | nil => trivial
  | cons a as ih => exact ⟨⟨h.1, h'.1⟩, ih h.2 h'.2⟩

/-- The steps of a run may be cut anywhere. -/
theorem along_append {step : Step σ α β} {guard : σ → α → Prop} {s : σ}
    {as bs : List α} :
    Along step guard s (as ++ bs)
      ↔ Along step guard s as
        ∧ Along step guard (finalState step s as) bs := by
  induction as generalizing s with
  | nil => exact ⟨fun h => ⟨trivial, h⟩, And.right⟩
  | cons a as ih =>
      rw [List.cons_append, Along, Along, ih, finalState_cons, and_assoc]

/-- A guard on the answers alone is met when all answers of the run meet
    it. -/
theorem along_of_outputs {step : Step σ α β} {P : β → Prop} {s : σ}
    {as : List α} (h : ∀ b ∈ outputs step s as, P b) :
    Along step (fun s a => P (step s a).1) s as := by
  induction as generalizing s with
  | nil => trivial
  | cons a as ih =>
      obtain ⟨hfirst, hrest⟩ := List.forall_mem_cons.mp h
      exact ⟨hfirst, ih hrest⟩

/-- **GUARDED INVARIANT**: what guarded steps preserve, guarded runs
    preserve. -/
theorem Along.invariant {step : Step σ α β} {P : σ → Prop}
    {guard : σ → α → Prop} (hkeep : ∀ s a, P s → guard s a → P (step s a).2)
    {s : σ} {as : List α} (hguard : Along step guard s as) (h : P s) :
    P (finalState step s as) := by
  induction as generalizing s with
  | nil => exact h
  | cons a as ih => exact ih hguard.2 (hkeep s a h hguard.1)

/-- A measure that no step lowers is no higher at an earlier point of a run. -/
theorem measure_prefix_le {step : Step σ α β} {measure : σ → Nat}
    (hmono : ∀ s a, measure s ≤ measure (step s a).2) (s : σ)
    {before as : List α} (hbefore : before <+: as) :
    measure (finalState step s before) ≤ measure (finalState step s as) := by
  obtain ⟨after, rfl⟩ := hbefore
  rw [finalState_append]
  have hkeep : ∀ t a,
      measure (finalState step s before) ≤ measure t
        → measure (finalState step s before) ≤ measure (step t a).2 :=
    fun t a ht => Nat.le_trans ht (hmono t a)
  exact finalState_invariant hkeep (Nat.le_refl _) after

/-- A run that ends within a bound on such a measure was within it all
    along. -/
theorem along_of_finalState_le {step : Step σ α β} {measure : σ → Nat}
    (hmono : ∀ s a, measure s ≤ measure (step s a).2) {bound : Nat} {s : σ}
    {as : List α} (h : measure (finalState step s as) ≤ bound) :
    Along step (fun s _ => measure s ≤ bound) s as := by
  induction as generalizing s with
  | nil => trivial
  | cons a as ih =>
      have hstart := measure_prefix_le hmono s (@List.nil_prefix α (a :: as))
      exact ⟨Nat.le_trans hstart h, ih h⟩

/-! ## Draining -/

/-- **DRAINING**: if in every state with something left some allowed action
    takes one thing away, allowed actions take everything away. -/
theorem exists_drain {step : Step σ α β} {P : σ → Prop} {left : σ → Nat}
    {allowed : α → β → Prop}
    (hstep : ∀ s, P s → left s ≠ 0 → ∃ a, allowed a (step s a).1
      ∧ P (step s a).2 ∧ left (step s a).2 + 1 = left s)
    {s : σ} (h : P s) :
    ∃ as, as.length = left s
      ∧ List.Forall₂ allowed as (outputs step s as)
      ∧ P (finalState step s as) ∧ left (finalState step s as) = 0 := by
  induction hn : left s generalizing s with
  | zero => exact ⟨[], rfl, .nil, h, hn⟩
  | succ n ih =>
      obtain ⟨a, hallowed, hnext, hless⟩ := hstep s h (by omega)
      obtain ⟨as, hlength, houts, hfinal, hnone⟩ :=
        ih hnext (by omega)
      exact ⟨a :: as, congrArg (· + 1) hlength, .cons hallowed houts, hfinal,
        hnone⟩

/-! ## Simulation -/

/-- **SIMULATION**: related states that answer every guarded action alike and
    stay related answer every guarded run alike. -/
theorem simulation {step : Step σ α β} {step' : Step τ α β}
    {guard : σ → α → Prop} {R : σ → τ → Prop}
    (hstep : ∀ s t a, R s t → guard s a
      → (step s a).1 = (step' t a).1 ∧ R (step s a).2 (step' t a).2)
    {s : σ} {t : τ} (h : R s t) {as : List α}
    (hguard : Along step guard s as) :
    outputs step s as = outputs step' t as
      ∧ R (finalState step s as) (finalState step' t as) := by
  induction as generalizing s t with
  | nil => exact ⟨rfl, h⟩
  | cons a as ih =>
      obtain ⟨hout, hrel⟩ := hstep s t a h hguard.1
      obtain ⟨houts, hfinal⟩ := ih hrel hguard.2
      refine ⟨?_, hfinal⟩
      rw [outputs_cons, outputs_cons, hout, houts]

end Machine
