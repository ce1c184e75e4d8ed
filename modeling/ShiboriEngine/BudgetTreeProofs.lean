import Mathlib
import ShiboriEngine.BudgetProofs

/-! # Budget trees: shape, admission and teardown

    What a budget is made with never changes and binds the budgets made from
    it; a request is admitted exactly when what is really held leaves room for
    it; and from every reachable world the owners can give everything back, in
    any order in which they can act at all. -/

namespace ShiboriBudgetTree

open ShiboriError ShiboriResource ShiboriBudget ShiboriBudgetAccounting
open Words Machine

variable {Client : Type}

/-! ## What an action does to the states -/

/-- What a state was made with. -/
structure SameMake (s t : ResourceBudgetState) : Prop where
  kind : t.kind = s.kind
  capacity : t.capacity = s.capacity
  parent : t.parent = s.parent
  parentAmount : t.parentAmount = s.parentAmount

/-- A state is made as itself. -/
theorem SameMake.refl (s : ResourceBudgetState) : SameMake s s :=
  ⟨rfl, rfl, rfl, rfl⟩

/-- To be made alike is transitive. -/
theorem SameMake.trans {s t u : ResourceBudgetState} (h : SameMake s t)
    (h' : SameMake t u) : SameMake s u :=
  ⟨h'.kind.trans h.kind, h'.capacity.trans h.capacity,
    h'.parent.trans h.parent, h'.parentAmount.trans h.parentAmount⟩

/-- A budget made from another is of its kind and within its capacity. -/
def FitsParent (states : List (Option ResourceBudgetState))
    (s : ResourceBudgetState) : Prop :=
  ∀ p, s.parent = some p → ∃ t, Slots.get states p = some t
    ∧ t.kind = s.kind ∧ s.capacity ≤ t.capacity

/-- **STATES** after an action: an old one as it was made, or a new one at the
    next address that fits its parent. -/
structure Grown (old new : List (Option ResourceBudgetState)) : Prop where
  size : old.length ≤ new.length
  kept : ∀ n t, Slots.get new n = some t → n < old.length →
    ∃ s, Slots.get old n = some s ∧ SameMake s t
  made : ∀ n t, Slots.get new n = some t → old.length ≤ n →
    FitsParent old t

variable {states : List (Option ResourceBudgetState)}

/-- Nothing need change. -/
theorem Grown.refl (states : List (Option ResourceBudgetState)) :
    Grown states states where
  size := Nat.le_refl _
  kept n t h _ := ⟨t, h, .refl t⟩
  made n t h hle := by
    have hlt := Slots.lt_of_get h
    omega

/-- A change of what is used. -/
theorem Grown.put {n : Nat} {s t : ResourceBudgetState}
    (h : Slots.get states n = some s) (hsame : SameMake s t) :
    Grown states (Slots.put states n (some t)) where
  size := Nat.le_of_eq (Slots.put_length _ _ _).symm
  kept m u hm _ := by
    rw [Slots.get_put _ (Slots.lt_of_get h)] at hm
    by_cases hmn : m = n
    · rw [if_pos hmn] at hm
      cases hm
      exact ⟨s, hmn ▸ h, hsame⟩
    · rw [if_neg hmn] at hm
      exact ⟨u, hm, .refl u⟩
  made m u hm hle := by
    have hlt := Slots.lt_of_get hm
    rw [Slots.put_length] at hlt
    omega

/-- A state goes, perhaps after another one was refunded. -/
theorem Grown.free {new : List (Option ResourceBudgetState)} (n : Nat)
    (h : Grown states new) (hsize : n < new.length) :
    Grown states (Slots.put new n none) where
  size := by
    rw [Slots.put_length]
    exact h.size
  kept m t hm hlt := by
    rw [Slots.get_put _ hsize] at hm
    by_cases hmn : m = n
    · rw [if_pos hmn] at hm
      cases hm
    · rw [if_neg hmn] at hm
      exact h.kept m t hm hlt
  made m t hm hle := by
    rw [Slots.get_put _ hsize] at hm
    by_cases hmn : m = n
    · rw [if_pos hmn] at hm
      cases hm
    · rw [if_neg hmn] at hm
      exact h.made m t hm hle

/-- A new state that fits its parent, perhaps after that one was charged. -/
theorem Grown.alloc {new : List (Option ResourceBudgetState)}
    {s : ResourceBudgetState} (h : Grown states new)
    (hsize : new.length = states.length) (hfits : FitsParent states s) :
    Grown states (Slots.alloc new s) where
  size := by
    rw [Slots.alloc_length]
    omega
  kept n t hn hlt := by
    rw [Slots.get_alloc, if_neg (by omega)] at hn
    exact h.kept n t hn hlt
  made n t hn hle := by
    rw [Slots.get_alloc] at hn
    by_cases hnew : n = new.length
    · rw [if_pos hnew] at hn
      cases hn
      exact hfits
    · rw [if_neg hnew] at hn
      exact h.made n t hn hle

/-- Releasing makes no state and changes no make. -/
theorem release_grown (w : World) (r : Nat) :
    Grown w.states (w.release r).states := by
  rw [World.release]
  cases hr : Slots.get w.reservations r with
  | none => exact .refl _
  | some self =>
      dsimp only
      cases self.state with
      | none => exact .refl _
      | some n =>
          dsimp only
          cases hn : Slots.get w.states n with
          | none => exact .refl _
          | some s =>
              dsimp only
              split
              · exact .refl _
              · exact .put hn ⟨rfl, rfl, rfl, rfl⟩

/-- Nor does destroying. -/
theorem destroyState_grown (w : World) {n : Nat} {s : ResourceBudgetState}
    (hn : Slots.get w.states n = some s) :
    Grown w.states (w.destroyState n s).states := by
  have hlt := Slots.lt_of_get hn
  rw [World.destroyState]
  cases s.parent with
  | none => exact (Grown.refl _).free n hlt
  | some p =>
      dsimp only
      cases hp : Slots.get w.states p with
      | none => exact (Grown.refl _).free n hlt
      | some parent =>
          dsimp only
          split
          · exact (Grown.refl _).free n hlt
          split
          · exact .refl _
          · refine Grown.free n (.put hp ⟨rfl, rfl, rfl, rfl⟩) ?_
            rw [Slots.put_length]
            exact hlt

/-- A child is made within its parent's room. -/
theorem createChild_grown (w : World) {n : Nat} {s : ResourceBudgetState}
    (hn : Slots.get w.states n = some s) (hbounded : s.used ≤ s.capacity)
    (capacity : UInt64) (operation : Operation) (allocated : Bool) :
    Grown w.states
      (w.createChild n s capacity operation allocated).2.states := by
  rw [World.createChild]
  split
  · exact .refl _
  by_cases hmemory : allocated = true
  case neg =>
    rw [allocateState, if_neg hmemory]
    exact .refl _
  rw [allocateState, if_pos hmemory]
  dsimp only
  split
  · exact .refl _
  · rename_i hroom
    have hcharged : Grown w.states (Slots.put w.states n
        (some { s with used := s.used + capacity })) :=
      .put hn ⟨rfl, rfl, rfl, rfl⟩
    refine hcharged.alloc (Slots.put_length _ _ _) ?_
    intro p hp
    cases hp
    refine ⟨s, hn, rfl, ?_⟩
    have hroom' := le_toNat.mp (UInt64.not_lt.mp hroom)
    have hsub := UInt64.toNat_sub_of_le _ _ hbounded
    show capacity ≤ s.capacity
    rw [le_toNat]
    omega

/-- Reserving changes the use only. -/
theorem reserve_grown (w : World) {n : Nat} {s : ResourceBudgetState}
    (hn : Slots.get w.states n = some s) (amount : UInt64)
    (operation : Operation) :
    Grown w.states (w.reserve n s amount operation).2.states := by
  rw [World.reserve]
  split
  · exact .refl _
  split
  · exact .refl _
  · exact .put hn ⟨rfl, rfl, rfl, rfl⟩

/-- A root is made without a parent. -/
theorem createRoot_grown (w : World) (kind : ResourceKind)
    (capacity : UInt64) (allocated : Bool) :
    Grown w.states (w.createRoot kind capacity allocated).2.states := by
  rw [World.createRoot]
  split
  · exact .refl _
  cases allocated with
  | false => exact .refl _
  | true =>
      refine (Grown.refl _).alloc rfl ?_
      intro p hp
      cases hp

/-- Acting on an object that does not exist changes nothing. -/
theorem grown_on {α : Type} {w : World} {object : Option α}
    {f : α → Reply × World}
    (h : ∀ a, object = some a → Grown w.states (f a).2.states) :
    Grown w.states (w.on object f).2.states := by
  cases object with
  | none => exact .refl _
  | some a => exact h a rfl

/-- **STEP**: every action leaves every state as it was made. -/
theorem act_grown {w : World} (h : Sound w) (action : Action) :
    Grown w.states (w.act action).2.states := by
  rw [World.act, if_neg (by rw [h.running]; exact Bool.false_ne_true)]
  cases action with
  | createRoot kind capacity allocated =>
      exact createRoot_grown w kind capacity allocated
  | createChild handle capacity operation allocated =>
      refine grown_on fun found hfound => ?_
      have hstate := target_eq_some hfound
      exact createChild_grown w hstate (h.balanced _ _ hstate).bounded
        capacity operation allocated
  | reserve handle amount operation =>
      refine grown_on fun found hfound => ?_
      exact reserve_grown w (target_eq_some hfound) amount operation
  | copyHandle handle => exact grown_on fun _ _ => .refl _
  | dropHandle handle => exact grown_on fun _ _ => .refl _
  | moveConstruct r => exact grown_on fun _ _ => .refl _
  | moveAssign target source =>
      refine grown_on fun _ _ => grown_on fun _ _ => ?_
      show Grown w.states (w.moveAssign target source).states
      rw [World.moveAssign]
      split
      · exact .refl _
      · dsimp only
        split
        · exact release_grown w target
        · exact release_grown w target
  | release r => exact grown_on fun _ _ => release_grown w r
  | destroyReservation r => exact grown_on fun _ _ => release_grown w r
  | destroyState n =>
      refine grown_on fun s hs => ?_
      split
      · exact destroyState_grown w hs
      · exact .refl _

/-! ## Shape -/

/-- Every live state fits its parent, and its parent is live. -/
def Shaped (w : World) : Prop :=
  ∀ n s, Slots.get w.states n = some s → FitsParent w.states s

/-- **STEP**: an operation keeps the shape of the tree. -/
theorem act_shaped {w : World} (h : Sound w) (hshaped : Shaped w)
    (action : Action) : Shaped (w.act action).2 := by
  have hgrown := act_grown h action
  have hnext := act_sound h action
  intro n t hn p hp
  -- the parent is live now, and it was the parent when the state was made
  obtain ⟨hlt, hlive, _⟩ := (hnext.balanced n t hn).parent p hp
  obtain ⟨q, hq⟩ := Option.ne_none_iff_exists'.mp hlive
  refine ⟨q, hq, ?_⟩
  have hfits : FitsParent w.states t := by
    by_cases hold : n < w.states.length
    · obtain ⟨s, hs, hsame⟩ := hgrown.kept n t hn hold
      intro p' hp'
      obtain ⟨u, hu, hkind, hcapacity⟩ :=
        hshaped n s hs p' (hsame.parent ▸ hp')
      exact ⟨u, hu, hkind.trans hsame.kind.symm, hsame.capacity ▸ hcapacity⟩
    · exact hgrown.made n t hn (by omega)
  obtain ⟨u, hu, hkind, hcapacity⟩ := hfits p hp
  obtain ⟨v, hv, hsame⟩ := hgrown.kept p q hq (Slots.lt_of_get hu)
  rw [hu] at hv
  cases hv
  exact ⟨hsame.kind.trans hkind, hsame.capacity ▸ hcapacity⟩

/-- **RUN**: every reachable tree has its shape. -/
theorem run_shaped (events : List (Client × Action)) :
    Shaped (finalState step {} events) := by
  have hinvariant : Sound (finalState step {} events)
      ∧ Shaped (finalState step {} events) := by
    refine finalState_invariant (P := fun w => Sound w ∧ Shaped w)
      ?_ ⟨empty_sound, ?_⟩ events
    · rintro w event ⟨hsound, hshaped⟩
      exact ⟨act_sound hsound event.2, act_shaped hsound hshaped event.2⟩
    · intro n s hn
      cases hn
  exact hinvariant.2

/-- Down a tree the kind stays and the capacity does not grow. -/
theorem within_fits {w : World} (hshaped : Shaped w) {n m : Nat}
    {s t : ResourceBudgetState} (hn : Slots.get w.states n = some s)
    (hm : Slots.get w.states m = some t)
    (h : Forest.Within (parentOf w) n m) :
    t.kind = s.kind ∧ t.capacity ≤ s.capacity := by
  induction h generalizing t with
  | self =>
      rw [hn] at hm
      cases hm
      exact ⟨rfl, UInt64.le_refl _⟩
  | child hp _ ih =>
      obtain ⟨u, hu, hparent⟩ := Option.bind_eq_some_iff.mp hp
      rw [hm] at hu
      cases hu
      obtain ⟨q, hq, hkind, hcapacity⟩ := hshaped _ t hm _ hparent
      obtain ⟨hkind', hcapacity'⟩ := ih hq
      exact ⟨hkind.symm.trans hkind', UInt64.le_trans hcapacity hcapacity'⟩

/-- A run leaves every state as it was made, and never brings one back. -/
theorem run_kept {w : World} (h : Sound w) (more : List (Client × Action))
    {n : Nat} {t : ResourceBudgetState}
    (hn : Slots.get (finalState step w more).states n = some t)
    (hold : n < w.states.length) :
    ∃ s, Slots.get w.states n = some s ∧ SameMake s t := by
  induction more generalizing w with
  | nil => exact ⟨t, hn, .refl t⟩
  | cons event more ih =>
      have hgrown := act_grown h event.2
      obtain ⟨s, hs, hsame⟩ := ih (act_sound h event.2) hn
        (Nat.lt_of_lt_of_le hold hgrown.size)
      obtain ⟨r, hr, hmade⟩ := hgrown.kept n s hs hold
      exact ⟨r, hr, hmade.trans hsame⟩

/-- **BUDGET TREES**: in every reachable world a tree counts one kind of
    resource and no capacity exceeds one above it; and what a state was made
    with stays for as long as it lives. -/
theorem budget_trees (events more : List (Client × Action)) :
    let w := finalState step {} events
    let later := finalState step {} (events ++ more)
    (∀ n s m t, Slots.get w.states n = some s →
        Slots.get w.states m = some t → Forest.Within (parentOf w) n m →
        t.kind = s.kind ∧ t.capacity ≤ s.capacity)
      ∧ ∀ n t, n < w.states.length → Slots.get later.states n = some t →
        ∃ s, Slots.get w.states n = some s ∧ SameMake s t := by
  intro w later
  refine ⟨?_, ?_⟩
  · intro n s m t hn hm h
    exact within_fits (run_shaped events) hn hm h
  · intro n t hold hn
    have hrun : later = finalState step w more := finalState_append _ _ _ _
    rw [hrun] at hn
    exact run_kept (run_sound events) more hn hold

/-! ## Admission -/

/-- What is really held of a state. -/
def load (w : World) (n : Nat) : Nat := reserved w n + funded w n

/-- There is room for an amount when the load and the amount stay within the
    capacity. -/
theorem room_iff {w : World} (h : Sound w) {n : Nat}
    {s : ResourceBudgetState} (hn : Slots.get w.states n = some s)
    (amount : UInt64) :
    amount ≤ s.available ↔ load w n + amount.toNat ≤ s.capacity.toNat := by
  have hs := h.balanced n s hn
  have hexact : s.used.toNat = load w n := hs.exact
  have hbounded := le_toNat.mp hs.bounded
  have hsub := UInt64.toNat_sub_of_le _ _ hs.bounded
  rw [le_toNat, ResourceBudgetState.available, hsub]
  omega

/-- A request that is checked against zero and against the room. -/
theorem admitted_iff {w : World} (h : Sound w) {n : Nat}
    {s : ResourceBudgetState} (hn : Slots.get w.states n = some s)
    (amount : UInt64) {refused full charged : Reply × World}
    (hrefused : refused.1 ≠ .done) (hfull : full.1 ≠ .done)
    (hcharged : charged.1 = .done) :
    (if amount = 0 then refused
      else if amount > s.capacity - s.used then full else charged).1 = .done
      ↔ amount ≠ 0 ∧ load w n + amount.toNat ≤ s.capacity.toNat := by
  rw [← room_iff h hn]
  by_cases hzero : amount = 0
  · rw [if_pos hzero]
    exact iff_of_false hrefused fun hc => hc.1 hzero
  rw [if_neg hzero]
  by_cases hroom : amount > s.capacity - s.used
  · rw [if_pos hroom]
    exact iff_of_false hfull fun hc => UInt64.not_le.mpr hroom hc.2
  · rw [if_neg hroom]
    exact iff_of_true hcharged ⟨hzero, UInt64.not_lt.mp hroom⟩

/-- What a handle points to. -/
def Points (w : World) (handle n : Nat) (s : ResourceBudgetState) : Prop :=
  Slots.get w.handles handle = some n ∧ Slots.get w.states n = some s

/-- A handle has the target it points to. -/
theorem target_iff {w : World} {handle n : Nat} {s : ResourceBudgetState} :
    w.target handle = some (n, s) ↔ Points w handle n s := by
  rw [World.target, Points]
  constructor
  · intro h
    obtain ⟨m, hm, hstate⟩ := Option.bind_eq_some_iff.mp h
    obtain ⟨t, ht, heq⟩ := Option.map_eq_some_iff.mp hstate
    cases heq
    exact ⟨hm, ht⟩
  · rintro ⟨hn, hs⟩
    rw [hn, Option.bind_some, hs]
    rfl

/-- Only acting on an object that exists can succeed. -/
theorem on_done_iff {α : Type} {w : World} {object : Option α}
    {f : α → Reply × World} :
    (w.on object f).1 = .done ↔ ∃ a, object = some a ∧ (f a).1 = .done := by
  cases object with
  | none =>
      constructor
      · intro h
        cases h
      · rintro ⟨a, ha, _⟩
        cases ha
  | some a =>
      constructor
      · intro h
        exact ⟨a, rfl, h⟩
      · rintro ⟨b, hb, h⟩
        cases hb
        exact h

/-- What is decided at the budget a handle points at is decided at the
    handle. -/
theorem on_target_done_iff {w : World} {handle : Nat}
    {P : Nat → ResourceBudgetState → Prop}
    {f : Nat × ResourceBudgetState → Reply × World}
    (hf : ∀ n s, Slots.get w.states n = some s → ((f (n, s)).1 = .done ↔ P n s)) :
    (w.on (w.target handle) f).1 = .done ↔ ∃ n s, Points w handle n s ∧ P n s := by
  rw [on_done_iff]
  constructor
  · rintro ⟨⟨n, s⟩, hfound, hdone⟩
    have hpoints := target_iff.mp hfound
    exact ⟨n, s, hpoints, (hf n s hpoints.2).mp hdone⟩
  · rintro ⟨n, s, hpoints, hp⟩
    exact ⟨(n, s), target_iff.mpr hpoints, (hf n s hpoints.2).mpr hp⟩

/-- Without the memory for a state there is no child. -/
theorem createChild_unallocated (w : World) (n : Nat)
    (s : ResourceBudgetState) (amount : UInt64) (operation : Operation) :
    (w.createChild n s amount operation false).1 ≠ .done := by
  intro hdone
  rw [World.createChild] at hdone
  by_cases hzero : amount = 0
  · rw [if_pos hzero] at hdone
    cases hdone
  · rw [if_neg hzero] at hdone
    cases hdone

/-- **ADMISSION**: in every reachable world a reservation is granted exactly
    when it asks for something and fits beside the active reservations and the
    live children of the budget; and a child exactly when, besides, there is
    the memory for its state. -/
theorem admission_exact (events : List (Client × Action)) (client : Client)
    (handle : Nat) (amount : UInt64) (operation : Operation)
    (allocated : Bool) :
    let w := finalState step {} events
    ((step w (client, .reserve handle amount operation)).1 = .done
        ↔ ∃ n s, Points w handle n s ∧ amount ≠ 0
          ∧ load w n + amount.toNat ≤ s.capacity.toNat)
      ∧ ((step w (client,
          .createChild handle amount operation allocated)).1 = .done
        ↔ allocated = true ∧ ∃ n s, Points w handle n s ∧ amount ≠ 0
          ∧ load w n + amount.toNat ≤ s.capacity.toNat) := by
  intro w
  have h : Sound w := run_sound events
  have hrunning : ¬ w.terminated = true := by
    rw [h.running]
    exact Bool.false_ne_true
  constructor
  · rw [step, World.act, if_neg hrunning, World.perform]
    refine on_target_done_iff fun n s hn => ?_
    exact admitted_iff h hn amount (fun hc => by cases hc)
      (fun hc => by cases hc) rfl
  · rw [step, World.act, if_neg hrunning, World.perform]
    cases allocated with
    | false =>
        refine iff_of_false (fun hc => ?_) fun hc => Bool.false_ne_true hc.1
        obtain ⟨found, _, hdone⟩ := on_done_iff.mp hc
        exact createChild_unallocated w found.1 found.2 amount operation hdone
    | true =>
        rw [eq_self_iff_true, true_and]
        refine on_target_done_iff fun n s hn => ?_
        exact admitted_iff h hn amount (fun hc => by cases hc)
          (fun hc => by cases hc) rfl

/-! ## Teardown -/

/-- The actions that give an object up. -/
def GivesUp : Action → Prop
  | .dropHandle _ | .destroyReservation _ | .destroyState _ => True
  | _ => False

/-- How many objects are live. -/
def live (w : World) : Nat :=
  Slots.count w.handles + Slots.count w.reservations + Slots.count w.states

/-- The test for an unowned state finds it. -/
theorem unowned_eq_true {w : World} {n : Nat} (h : Unowned w n) :
    w.unowned n = true := by
  have hget : ∀ {α : Type} {xs : List (Option α)} {a : α}, some a ∈ xs →
      ∃ i, Slots.get xs i = some a := by
    intro α xs a hmem
    obtain ⟨i, hi⟩ := List.mem_iff_getElem?.mp hmem
    exact ⟨i, Slots.get_eq_some.mpr hi⟩
  rw [World.unowned, Bool.and_eq_true, Bool.and_eq_true, List.all_eq_true,
    List.all_eq_true, List.all_eq_true]
  refine ⟨⟨?_, ?_⟩, ?_⟩
  · intro handle hmem
    refine decide_eq_true fun hc => ?_
    obtain ⟨i, hi⟩ := hget (hc ▸ hmem)
    exact h.handles i hi
  · intro r hmem
    refine decide_eq_true fun hc => ?_
    obtain ⟨x, rfl, hx⟩ := Option.bind_eq_some_iff.mp hc
    obtain ⟨i, hi⟩ := hget hmem
    exact h.reservations i x hi hx
  · intro s hmem
    refine decide_eq_true fun hc => ?_
    obtain ⟨x, rfl, hx⟩ := Option.bind_eq_some_iff.mp hc
    obtain ⟨i, hi⟩ := hget hmem
    exact h.states i x hi hx

/-- A release keeps every object. -/
theorem release_counts {w : World} (h : Sound w) {r : Nat}
    {x : ResourceReservation} (hr : Slots.get w.reservations r = some x) :
    (w.release r).handles = w.handles
      ∧ Slots.count (w.release r).reservations = Slots.count w.reservations
      ∧ Slots.count (w.release r).states = Slots.count w.states := by
  cases hx : x.state with
  | none =>
      rw [release_idle hr hx]
      exact ⟨rfl, rfl, rfl⟩
  | some n =>
      obtain ⟨s, hs, _, hrelease⟩ := release_active h hr hx
      rw [hrelease]
      exact ⟨rfl, Slots.count_put _ hr, Slots.count_put _ hs⟩

/-- Destroying a state takes one off the live ones. -/
theorem destroyState_count {w : World} (h : Sound w) {n : Nat}
    {s : ResourceBudgetState} (hn : Slots.get w.states n = some s) :
    live (w.destroyState n s) + 1 = live w := by
  have hs := h.balanced n s hn
  have hfree := Slots.count_free hn
  rw [World.destroyState]
  cases hp : s.parent with
  | none =>
      show Slots.count w.handles + Slots.count w.reservations
        + Slots.count (Slots.put w.states n none) + 1 = _
      rw [live]
      omega
  | some p =>
      obtain ⟨hlt, hplive, hamount⟩ := hs.parent p hp
      obtain ⟨q, hq⟩ := Option.ne_none_iff_exists'.mp hplive
      have hheld : fundedBy p s ≤ funded w p := Slots.le_total _ hn
      rw [fundedBy, if_pos hp] at hheld
      have hexact := (h.balanced p q hq).exact
      have hle : s.parentAmount ≤ q.used := by
        rw [hamount, le_toNat]
        omega
      dsimp only
      rw [hq]
      dsimp only
      rw [if_neg (by rw [hamount]; exact hs.positive),
        if_neg (UInt64.not_lt.mpr hle)]
      have hn' : Slots.get (Slots.put w.states p
          (some { q with used := q.used - s.parentAmount })) n = some s := by
        rw [Slots.get_put_ne _ (Slots.lt_of_get hq) (by omega)]
        exact hn
      have hgone := Slots.count_free hn'
      rw [Slots.count_put _ hq] at hgone
      show Slots.count w.handles + Slots.count w.reservations
        + Slots.count (Slots.put (Slots.put w.states p _) n none) + 1 = _
      rw [live]
      omega

/-- **ONE OBJECT LESS**: giving one up, where it can be, takes it away. -/
theorem act_gives_up {w : World} (h : Sound w) {action : Action}
    (hgives : GivesUp action) (hdone : (w.act action).1 = .done) :
    live (w.act action).2 + 1 = live w := by
  have hrunning : ¬ w.terminated = true := by
    rw [h.running]
    exact Bool.false_ne_true
  rw [World.act, if_neg hrunning] at hdone ⊢
  cases action with
  | dropHandle handle =>
      obtain ⟨n, hn, _⟩ := on_done_iff.mp hdone
      have hfree := Slots.count_free hn
      rw [World.perform, hn]
      show Slots.count (Slots.put w.handles handle none)
        + Slots.count w.reservations + Slots.count w.states + 1 = _
      rw [live]
      omega
  | destroyReservation r =>
      obtain ⟨x, hx, _⟩ := on_done_iff.mp hdone
      obtain ⟨y, hy, _⟩ := release_leaves_idle h hx
      obtain ⟨hhandles, hreservations, hstates⟩ := release_counts h hx
      have hfree := Slots.count_free hy
      rw [World.perform, hx]
      show Slots.count (w.release r).handles
        + Slots.count (Slots.put (w.release r).reservations r none)
        + Slots.count (w.release r).states + 1 = _
      rw [hhandles, hstates, live]
      omega
  | destroyState n =>
      obtain ⟨s, hs, hfree⟩ := on_done_iff.mp hdone
      rw [World.perform, hs]
      dsimp only [World.on]
      by_cases hun : w.unowned n = true
      · rw [if_pos hun]
        exact destroyState_count h hs
      · rw [if_neg hun] at hfree
        cases hfree
  | _ => cases hgives

/-- **PROGRESS**: while an object is live, one can be given up. -/
theorem can_give_up {w : World} (h : Sound w) (hlive : live w ≠ 0) :
    ∃ action, GivesUp action ∧ (w.act action).1 = .done := by
  have hrunning : ¬ w.terminated = true := by
    rw [h.running]
    exact Bool.false_ne_true
  by_cases hhandles : Slots.count w.handles = 0
  case neg =>
    obtain ⟨handle, n, hn⟩ := Slots.exists_of_total_ne_zero hhandles
    refine ⟨.dropHandle handle, trivial, ?_⟩
    rw [World.act, if_neg hrunning]
    exact on_done_iff.mpr ⟨n, hn, rfl⟩
  by_cases hreservations : Slots.count w.reservations = 0
  case neg =>
    obtain ⟨r, x, hr⟩ := Slots.exists_of_total_ne_zero hreservations
    refine ⟨.destroyReservation r, trivial, ?_⟩
    rw [World.act, if_neg hrunning]
    exact on_done_iff.mpr ⟨x, hr, rfl⟩
  -- only states are left: the one at the highest address has no child
  have hstates : Slots.count w.states ≠ 0 := by
    rw [live] at hlive
    omega
  obtain ⟨i, a, hi⟩ := Slots.exists_of_total_ne_zero hstates
  obtain ⟨n, s, hn, hlast⟩ := Slots.exists_last hi
  have hun : Unowned w n := by
    refine ⟨?_, ?_, ?_⟩
    · intro k hk
      rw [Slots.get_of_count_eq_zero hhandles] at hk
      cases hk
    · intro r x hr
      rw [Slots.get_of_count_eq_zero hreservations] at hr
      cases hr
    · intro m x hm hp
      obtain ⟨hlt, _, _⟩ := (h.balanced m x hm).parent n hp
      rw [hlast m hlt] at hm
      cases hm
  refine ⟨.destroyState n, trivial, ?_⟩
  rw [World.act, if_neg hrunning]
  refine on_done_iff.mpr ⟨s, hn, ?_⟩
  rw [if_pos (unowned_eq_true hun)]

/-- An event that gives an object up, and does so. -/
def Gives (event : Client × Action) (reply : Reply) : Prop :=
  GivesUp event.2 ∧ reply = .done

/-- **TEARDOWN**: from every reachable world, whoever gives an object up takes
    exactly that one away; as long as one is left, some can be given up; and
    when none is left every grant was returned, exactly once. -/
theorem teardown (client : Client) (events : List (Client × Action)) :
    let w := finalState step {} events
    (∀ event : Client × Action, Gives event (step w event).1 →
        live (step w event).2 + 1 = live w)
      ∧ (∃ more : List (Client × Action), more.length = live w
        ∧ List.Forall₂ Gives more (outputs step w more)
        ∧ live (finalState step w more) = 0)
      ∧ (live w = 0 → w.terminated = false
        ∧ ∀ ticket, returns w ticket
          = if ticket < w.granted.length then 1 else 0) := by
  intro w
  have h : Sound w := run_sound events
  refine ⟨fun event hgives => act_gives_up h hgives.1 hgives.2, ?_, ?_⟩
  · have hstep : ∀ now, Sound now → live now ≠ 0 →
        ∃ event : Client × Action, Gives event (step now event).1
          ∧ Sound (step now event).2
          ∧ live (step now event).2 + 1 = live now := by
      intro now hnow hleft
      obtain ⟨action, hgives, hdone⟩ := can_give_up hnow hleft
      exact ⟨(client, action), ⟨hgives, hdone⟩, act_sound hnow action,
        act_gives_up hnow hgives hdone⟩
    obtain ⟨more, hlength, hgives, _, hnone⟩ := exists_drain hstep h
    exact ⟨more, hlength, hgives, hnone⟩
  · intro hnone
    refine ⟨h.running, fun ticket => ?_⟩
    have honce := h.once ticket
    have hreservations : Slots.count w.reservations = 0 := by
      rw [live] at hnone
      omega
    have hholders : holders w ticket = 0 :=
      Slots.total_eq_zero fun r x hr => by
        rw [Slots.get_of_count_eq_zero hreservations] at hr
        cases hr
    rw [hholders, Nat.zero_add] at honce
    exact honce

end ShiboriBudgetTree
