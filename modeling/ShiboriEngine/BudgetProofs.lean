import Mathlib
import ShiboriEngine.Library.Forest
import ShiboriEngine.Budget

/-! # Budget accounting under every interleaving

    The invariant of all reachable worlds: a live state's `used` is exactly
    what its active reservations and live children hold and fits its capacity,
    owners only point to live states, and every grant is held by one
    reservation object or was returned once.  Each action preserves it; the
    bound over whole subtrees follows from the forest library. -/

namespace ShiboriBudgetAccounting

open ShiboriError ShiboriResource ShiboriBudget Words

/-! ## Measures -/

/-- What a reservation object holds on the state `n`. -/
def reservedOn (n : Nat) (r : ResourceReservation) : Nat :=
  if r.state = some n then r.amount.toNat else 0

/-- What a state holds on its parent `n`. -/
def fundedBy (n : Nat) (s : ResourceBudgetState) : Nat :=
  if s.parent = some n then s.capacity.toNat else 0

/-- Whether an object holds the grant `t`. -/
def holds (t : Nat) (r : ResourceReservation) : Nat :=
  if r.state ≠ none ∧ r.ticket = t then 1 else 0

/-- The amounts of the reservations active on a state. -/
def reserved (w : World) (n : Nat) : Nat :=
  Slots.total (reservedOn n) w.reservations

/-- The capacities of the live children of a state. -/
def funded (w : World) (n : Nat) : Nat :=
  Slots.total (fundedBy n) w.states

/-- The reservations that hold a ticket. -/
def holders (w : World) (t : Nat) : Nat :=
  Slots.total (holds t) w.reservations

/-- How often the capacity of a ticket went back. -/
def returns (w : World) (t : Nat) : Nat :=
  w.returned.countP fun entry => entry.ticket = t

/-! ## The invariant -/

/-- One live state against the load it has to carry. -/
structure NodeSound (states : List (Option ResourceBudgetState))
    (load : Nat → Nat) (n : Nat) (s : ResourceBudgetState) : Prop where
  exact : s.used.toNat = load n
  bounded : s.used ≤ s.capacity
  positive : s.capacity ≠ 0
  parent : ∀ p, s.parent = some p →
    p < n ∧ Slots.get states p ≠ none ∧ s.parentAmount = s.capacity

/-- Every live state bears the load that is counted for it. -/
def Balanced (states : List (Option ResourceBudgetState))
    (load : Nat → Nat) : Prop :=
  ∀ n s, Slots.get states n = some s → NodeSound states load n s

/-- Active reservations point to live states and carry their grant. -/
def Backed (w : World) : Prop :=
  ∀ r x n, Slots.get w.reservations r = some x → x.state = some n →
    Slots.get w.states n ≠ none ∧ w.granted[x.ticket]? = some ⟨n, x.amount⟩

/-- What holds between any two operations. -/
structure Sound (w : World) : Prop where
  running : w.terminated = false
  balanced : Balanced w.states fun n => reserved w n + funded w n
  owned : ∀ h n, Slots.get w.handles h = some n → Slots.get w.states n ≠ none
  backed : Backed w
  returned : ∀ entry, entry ∈ w.returned →
    w.granted[entry.ticket]? = some entry.grant
  once : ∀ t, holders w t + returns w t
    = if t < w.granted.length then 1 else 0

/-- The world without objects. -/
theorem empty_sound : Sound {} where
  running := rfl
  balanced := fun _ _ h => nomatch h
  owned := fun _ _ h => nomatch h
  backed := fun _ _ _ h => nomatch h
  returned := fun _ h => nomatch h
  once := fun _ => rfl

/-! ## Updates of the states -/

/-- Rewriting a live state keeps the live ones live. -/
theorem live_put {states : List (Option ResourceBudgetState)} {n m : Nat}
    {s s' : ResourceBudgetState} (hn : Slots.get states n = some s) :
    Slots.get (Slots.put states n (some s')) m ≠ none
      ↔ Slots.get states m ≠ none := by
  rw [Slots.get_put _ (Slots.lt_of_get hn)]
  by_cases hm : m = n
  · rw [if_pos hm, hm, hn]
    exact ⟨fun _ => Option.some_ne_none s, fun _ => Option.some_ne_none s'⟩
  · rw [if_neg hm]

/-- A state whose `used` changes with its load. -/
theorem Balanced.put {states : List (Option ResourceBudgetState)}
    {load load' : Nat → Nat} {n : Nat} {s : ResourceBudgetState}
    {used : UInt64} (h : Balanced states load)
    (hn : Slots.get states n = some s)
    (hother : ∀ m, m ≠ n → load' m = load m)
    (hexact : used.toNat = load' n) (hbound : used ≤ s.capacity) :
    Balanced (Slots.put states n (some { s with used := used })) load' := by
  intro m x hm
  rw [Slots.get_put _ (Slots.lt_of_get hn)] at hm
  by_cases hmn : m = n
  · subst hmn
    rw [if_pos rfl] at hm
    cases hm
    refine ⟨hexact, hbound, (h m s hn).positive, ?_⟩
    intro p hp
    obtain ⟨hlt, hlive, hamount⟩ := (h m s hn).parent p hp
    exact ⟨hlt, (live_put hn).mpr hlive, hamount⟩
  · rw [if_neg hmn] at hm
    have hx := h m x hm
    refine ⟨hx.exact.trans (hother m hmn).symm, hx.bounded, hx.positive, ?_⟩
    intro p hp
    obtain ⟨hlt, hlive, hamount⟩ := hx.parent p hp
    exact ⟨hlt, (live_put hn).mpr hlive, hamount⟩

/-- **CHARGING** an amount that fits the room of a state. -/
theorem Balanced.charge {states : List (Option ResourceBudgetState)}
    {load : Nat → Nat} {n : Nat} {s : ResourceBudgetState} {amount : UInt64}
    (h : Balanced states load) (hn : Slots.get states n = some s)
    (hroom : amount ≤ s.capacity - s.used) :
    Balanced (Slots.put states n (some { s with used := s.used + amount }))
      fun m => load m + if m = n then amount.toNat else 0 := by
  have hs := h n s hn
  refine h.put hn ?_ ?_ (add_le_of_room hs.bounded hroom)
  · intro m hm
    rw [if_neg hm, Nat.add_zero]
  · rw [if_pos rfl, toNat_add_of_room hs.bounded hroom, hs.exact]

/-- **REFUNDING** an amount that the state carries. -/
theorem Balanced.refund {states : List (Option ResourceBudgetState)}
    {load : Nat → Nat} {n : Nat} {s : ResourceBudgetState} {amount : UInt64}
    (h : Balanced states load) (hn : Slots.get states n = some s)
    (hle : amount ≤ s.used) :
    Balanced (Slots.put states n (some { s with used := s.used - amount }))
      fun m => load m - if m = n then amount.toNat else 0 := by
  have hs := h n s hn
  have hsub := UInt64.toNat_sub_of_le _ _ hle
  refine h.put hn ?_ ?_ ?_
  · intro m hm
    rw [if_neg hm, Nat.sub_zero]
  · rw [if_pos rfl, hsub, hs.exact]
  · have hbound := le_toNat.mp hs.bounded
    rw [le_toNat, hsub]
    omega

/-- A new state without load. -/
theorem Balanced.alloc {states : List (Option ResourceBudgetState)}
    {load : Nat → Nat} {s : ResourceBudgetState} (h : Balanced states load)
    (hused : s.used = 0) (hpositive : s.capacity ≠ 0)
    (hload : load states.length = 0)
    (hparent : ∀ p, s.parent = some p →
      Slots.get states p ≠ none ∧ s.parentAmount = s.capacity) :
    Balanced (Slots.alloc states s) load := by
  have hlive : ∀ p, Slots.get states p ≠ none →
      Slots.get (Slots.alloc states s) p ≠ none := by
    intro p hp
    obtain ⟨x, hx⟩ := Option.ne_none_iff_exists'.mp hp
    rw [Slots.get_alloc_of_get hx]
    exact Option.some_ne_none x
  intro m x hm
  rw [Slots.get_alloc] at hm
  by_cases hmn : m = states.length
  · subst hmn
    rw [if_pos rfl] at hm
    cases hm
    refine ⟨?_, ?_, hpositive, ?_⟩
    · rw [hused, hload]
      rfl
    · rw [hused, le_toNat]
      exact Nat.zero_le _
    · intro p hp
      obtain ⟨hpl, hamount⟩ := hparent p hp
      obtain ⟨y, hy⟩ := Option.ne_none_iff_exists'.mp hpl
      exact ⟨Slots.lt_of_get hy, hlive p hpl, hamount⟩
  · rw [if_neg hmn] at hm
    have hx := h m x hm
    refine ⟨hx.exact, hx.bounded, hx.positive, ?_⟩
    intro p hp
    obtain ⟨hlt, hpl, hamount⟩ := hx.parent p hp
    exact ⟨hlt, hlive p hpl, hamount⟩

/-- A state without children goes. -/
theorem Balanced.free {states : List (Option ResourceBudgetState)}
    {load : Nat → Nat} {n : Nat} (h : Balanced states load)
    (hn : n < states.length)
    (hchild : ∀ m x, Slots.get states m = some x → x.parent ≠ some n) :
    Balanced (Slots.put states n none) load := by
  intro m x hm
  rw [Slots.get_put _ hn] at hm
  by_cases hmn : m = n
  · rw [if_pos hmn] at hm
    exact nomatch hm
  · rw [if_neg hmn] at hm
    have hx := h m x hm
    refine ⟨hx.exact, hx.bounded, hx.positive, ?_⟩
    intro p hp
    obtain ⟨hlt, hpl, hamount⟩ := hx.parent p hp
    refine ⟨hlt, ?_, hamount⟩
    rw [Slots.get_put_ne _ hn (fun hpn => hchild m x hm (hpn ▸ hp))]
    exact hpl

/-- Balance depends on the loads only. -/
theorem Balanced.congr {states : List (Option ResourceBudgetState)}
    {load load' : Nat → Nat} (h : Balanced states load)
    (hload : ∀ n, load' n = load n) : Balanced states load' := by
  intro n s hn
  have hs := h n s hn
  exact ⟨hs.exact.trans (hload n).symm, hs.bounded, hs.positive, hs.parent⟩

/-! ## Loads -/

/-- Charging a state funds no child anew. -/
theorem funded_put {states : List (Option ResourceBudgetState)} {n : Nat}
    {s : ResourceBudgetState} (used : UInt64)
    (hn : Slots.get states n = some s) (m : Nat) :
    Slots.total (fundedBy m)
        (Slots.put states n (some { s with used := used }))
      = Slots.total (fundedBy m) states :=
  Slots.total_put_same _ hn rfl

/-- Nothing is held on an address without a live state. -/
theorem Sound.load_dead {w : World} (h : Sound w) {n : Nat}
    (hn : Slots.get w.states n = none) : reserved w n + funded w n = 0 := by
  have hr : reserved w n = 0 := by
    apply Slots.total_eq_zero
    intro r x hx
    rw [reservedOn]
    by_cases hs : x.state = some n
    · exact ((h.backed r x n hx hs).1 hn).elim
    · rw [if_neg hs]
  have hf : funded w n = 0 := by
    apply Slots.total_eq_zero
    intro m x hx
    rw [fundedBy]
    by_cases hp : x.parent = some n
    · exact (((h.balanced m x hx).parent n hp).2.1 hn).elim
    · rw [if_neg hp]
  omega

/-- A reservation counts on its state only. -/
theorem reservedOn_eq_ite {x : ResourceReservation} {n : Nat}
    (h : x.state = some n) (m : Nat) :
    reservedOn m x = if m = n then x.amount.toNat else 0 := by
  rw [reservedOn, h]
  by_cases hm : m = n
  · rw [if_pos hm, hm, if_pos rfl]
  · rw [if_neg hm, if_neg (fun hc => hm (Option.some.inj hc).symm)]

/-- A child is funded by its parent only. -/
theorem fundedBy_eq_ite {s : ResourceBudgetState} {n : Nat}
    (h : s.parent = some n) (m : Nat) :
    fundedBy m s = if m = n then s.capacity.toNat else 0 := by
  rw [fundedBy, h]
  by_cases hm : m = n
  · rw [if_pos hm, hm, if_pos rfl]
  · rw [if_neg hm, if_neg (fun hc => hm (Option.some.inj hc).symm)]

/-- A reservation with a state holds its ticket only. -/
theorem holds_eq_ite {x : ResourceReservation} (h : x.state ≠ none)
    (t : Nat) : holds t x = if x.ticket = t then 1 else 0 := by
  rw [holds]
  by_cases ht : x.ticket = t
  · rw [if_pos ht, if_pos ⟨h, ht⟩]
  · rw [if_neg ht, if_neg (fun hc => ht hc.2)]

/-- An idle reservation counts nowhere. -/
theorem reservedOn_idle {n : Nat} {x : ResourceReservation}
    (h : x.state = none) : reservedOn n x = 0 := by
  rw [reservedOn, h, if_neg (fun hc => nomatch hc)]

/-- An idle reservation holds no ticket. -/
theorem holds_idle {t : Nat} {x : ResourceReservation}
    (h : x.state = none) : holds t x = 0 := by
  rw [holds, if_neg (fun hc => hc.1 h)]

/-! ## Handles, roots and children -/

/-- A new state keeps the live ones live. -/
theorem live_alloc {states : List (Option ResourceBudgetState)}
    {s : ResourceBudgetState} {n : Nat} (h : Slots.get states n ≠ none) :
    Slots.get (Slots.alloc states s) n ≠ none := by
  obtain ⟨x, hx⟩ := Option.ne_none_iff_exists'.mp h
  rw [Slots.get_alloc_of_get hx]
  exact Option.some_ne_none x

/-- A new state is live. -/
theorem live_alloc_self (states : List (Option ResourceBudgetState))
    (s : ResourceBudgetState) :
    Slots.get (Slots.alloc states s) states.length ≠ none := by
  rw [Slots.get_alloc, if_pos rfl]
  exact Option.some_ne_none s

/-- **STEP**: creating a root. -/
theorem createRoot_sound {w : World} (h : Sound w) (kind : ResourceKind)
    (capacity : UInt64) (allocated : Bool) :
    Sound (w.createRoot kind capacity allocated).2 := by
  rw [World.createRoot]
  by_cases hzero : capacity = 0
  · rw [if_pos hzero]
    exact h
  rw [if_neg hzero]
  by_cases hmemory : allocated = true
  case neg =>
    rw [allocateState, if_neg hmemory]
    exact h
  rw [allocateState, if_pos hmemory]
  have hfunded : ∀ n, Slots.total (fundedBy n) (Slots.alloc w.states
      { kind := kind, capacity := capacity }) = funded w n := by
    intro n
    rw [Slots.total_alloc, fundedBy, if_neg (fun hc => nomatch hc)]
    rfl
  refine ⟨h.running, ?_, ?_, ?_, h.returned, h.once⟩
  · refine Balanced.congr (h.balanced.alloc rfl hzero
      (h.load_dead (Slots.get_length _)) (fun p hp => nomatch hp)) ?_
    intro n
    exact congrArg (reserved w n + ·) (hfunded n)
  · intro k n hk
    rw [Slots.get_alloc] at hk
    by_cases hnew : k = w.handles.length
    · rw [if_pos hnew] at hk
      cases hk
      exact live_alloc_self _ _
    · rw [if_neg hnew] at hk
      exact live_alloc (h.owned k n hk)
  · intro r x n hr hx
    obtain ⟨hlive, hgrant⟩ := h.backed r x n hr hx
    exact ⟨live_alloc hlive, hgrant⟩

/-- **STEP**: creating a child. -/
theorem createChild_sound {w : World} (h : Sound w) {n : Nat}
    {s : ResourceBudgetState} (hn : Slots.get w.states n = some s)
    (capacity : UInt64) (operation : Operation) (allocated : Bool) :
    Sound (w.createChild n s capacity operation allocated).2 := by
  rw [World.createChild]
  by_cases hzero : capacity = 0
  · rw [if_pos hzero]
    exact h
  rw [if_neg hzero]
  by_cases hmemory : allocated = true
  case neg =>
    rw [allocateState, if_neg hmemory]
    exact h
  rw [allocateState, if_pos hmemory]
  dsimp only
  by_cases hfull : capacity > s.capacity - s.used
  · rw [if_pos hfull]
    exact h
  rw [if_neg hfull]
  -- The parent carries the whole capacity of the child from now on.
  have hcharged := h.balanced.charge hn (UInt64.not_lt.mp hfull)
  have hlength : reserved w w.states.length + funded w w.states.length
      + (if w.states.length = n then capacity.toNat else 0) = 0 := by
    have hlt := Slots.lt_of_get hn
    rw [h.load_dead (Slots.get_length _), if_neg (by omega)]
  have hplive : Slots.get (Slots.put w.states n
      (some { s with used := s.used + capacity })) n ≠ none :=
    (live_put hn).mpr (by rw [hn]; exact Option.some_ne_none s)
  have hstep : ∀ m, Slots.get w.states m ≠ none → Slots.get (Slots.alloc
      (Slots.put w.states n (some { s with used := s.used + capacity }))
      { kind := s.kind, capacity := capacity, parent := some n,
        parentAmount := capacity }) m ≠ none :=
    fun m hm => live_alloc ((live_put hn).mpr hm)
  refine ⟨h.running, ?_, ?_, ?_, h.returned, h.once⟩
  · refine Balanced.congr (hcharged.alloc rfl hzero ?_ ?_) ?_
    · rw [Slots.put_length]
      exact hlength
    · rintro p ⟨⟩
      exact ⟨hplive, rfl⟩
    · intro m
      show reserved w m + Slots.total (fundedBy m) _ = _ + _ + _
      rw [Slots.total_alloc, funded_put _ hn, Nat.add_assoc,
        fundedBy_eq_ite rfl]
      rfl
  · intro k m hk
    rw [Slots.get_alloc] at hk
    by_cases hnew : k = w.handles.length
    · rw [if_pos hnew] at hk
      cases hk
      rw [← Slots.put_length w.states n
        (some { s with used := s.used + capacity })]
      exact live_alloc_self _ _
    · rw [if_neg hnew] at hk
      exact hstep m (h.owned k m hk)
  · intro r x m hr hx
    obtain ⟨hlive, hgrant⟩ := h.backed r x m hr hx
    exact ⟨hstep m hlive, hgrant⟩

/-- **STEP**: copying a handle. -/
theorem copyHandle_sound {w : World} (h : Sound w) {handle n : Nat}
    (hn : Slots.get w.handles handle = some n) :
    Sound { w with handles := Slots.alloc w.handles n } := by
  refine ⟨h.running, h.balanced, ?_, h.backed, h.returned, h.once⟩
  intro k m hk
  rw [Slots.get_alloc] at hk
  by_cases hnew : k = w.handles.length
  · rw [if_pos hnew] at hk
    cases hk
    exact h.owned handle n hn
  · rw [if_neg hnew] at hk
    exact h.owned k m hk

/-- **STEP**: dropping a handle. -/
theorem dropHandle_sound {w : World} (h : Sound w) {handle n : Nat}
    (hn : Slots.get w.handles handle = some n) :
    Sound { w with handles := Slots.put w.handles handle none } := by
  refine ⟨h.running, h.balanced, ?_, h.backed, h.returned, h.once⟩
  intro k m hk
  rw [Slots.get_put _ (Slots.lt_of_get hn)] at hk
  by_cases hself : k = handle
  · rw [if_pos hself] at hk
    exact nomatch hk
  · rw [if_neg hself] at hk
    exact h.owned k m hk

/-! ## Reserving -/

/-- **STEP**: reserving. -/
theorem reserve_sound {w : World} (h : Sound w) {n : Nat}
    {s : ResourceBudgetState} (hn : Slots.get w.states n = some s)
    (amount : UInt64) (operation : Operation) :
    Sound (w.reserve n s amount operation).2 := by
  rw [World.reserve]
  by_cases hzero : amount = 0
  · rw [if_pos hzero]
    exact h
  rw [if_neg hzero]
  by_cases hfull : amount > s.capacity - s.used
  · rw [if_pos hfull]
    exact h
  rw [if_neg hfull]
  have hreserved : ∀ m, Slots.total (reservedOn m) (Slots.alloc w.reservations
        { state := some n, amount := amount, ticket := w.granted.length })
      = reserved w m + if m = n then amount.toNat else 0 := by
    intro m
    rw [Slots.total_alloc, reservedOn_eq_ite rfl]
    rfl
  refine ⟨h.running, ?_, ?_, ?_, ?_, ?_⟩
  · refine (h.balanced.charge hn (UInt64.not_lt.mp hfull)).congr ?_
    intro m
    show Slots.total (reservedOn m) _ + Slots.total (fundedBy m) _
      = _ + Slots.total (fundedBy m) w.states + _
    rw [hreserved, funded_put _ hn]
    omega
  · intro k m hk
    exact (live_put hn).mpr (h.owned k m hk)
  · intro r x m hr hx
    rw [Slots.get_alloc] at hr
    by_cases hnew : r = w.reservations.length
    · rw [if_pos hnew] at hr
      cases hr
      cases hx
      refine ⟨(live_put hn).mpr (by rw [hn]; exact Option.some_ne_none s), ?_⟩
      exact List.getElem?_concat_length
    · rw [if_neg hnew] at hr
      obtain ⟨hlive, hgrant⟩ := h.backed r x m hr hx
      obtain ⟨hlt, _⟩ := List.getElem?_eq_some_iff.mp hgrant
      exact ⟨(live_put hn).mpr hlive,
        (List.getElem?_append_left hlt).trans hgrant⟩
  · intro entry hentry
    have hgrant := h.returned entry hentry
    obtain ⟨hlt, _⟩ := List.getElem?_eq_some_iff.mp hgrant
    exact (List.getElem?_append_left hlt).trans hgrant
  · intro t
    have honce := h.once t
    -- The new ticket is the number of grants so far, so nobody held it.
    show Slots.total (holds t) _ + returns w t = _
    rw [Slots.total_alloc, List.length_append, List.length_singleton,
      holds_eq_ite (Option.some_ne_none n)]
    show holders w t + (if w.granted.length = t then 1 else 0) + _ = _
    by_cases ht : w.granted.length = t
    · rw [if_neg (by omega)] at honce
      rw [if_pos ht, if_pos (by omega)]
      omega
    · rw [if_neg ht]
      by_cases hlt : t < w.granted.length
      · rw [if_pos hlt] at honce
        rw [if_pos (by omega)]
        omega
      · rw [if_neg hlt] at honce
        rw [if_neg (by omega)]
        omega

/-! ## Moving and releasing reservations -/

/-- New reservation objects that hold what the old ones held. -/
structure SameHoldings (old new : List (Option ResourceReservation)) :
    Prop where
  total : ∀ f : ResourceReservation → Nat,
    (∀ x, x.state = none → f x = 0) → Slots.total f new = Slots.total f old
  covered : ∀ r x, Slots.get new r = some x → x.state ≠ none →
    ∃ r', Slots.get old r' = some x

/-- Reservations may change hands. -/
theorem Sound.of_sameHoldings {w : World} (h : Sound w)
    {new : List (Option ResourceReservation)}
    (hnew : SameHoldings w.reservations new) :
    Sound { w with reservations := new } := by
  refine ⟨h.running, ?_, h.owned, ?_, h.returned, ?_⟩
  · refine h.balanced.congr ?_
    intro n
    exact congrArg (· + funded w n)
      (hnew.total (reservedOn n) fun x hx => reservedOn_idle hx)
  · intro r x n hr hx
    obtain ⟨r', hr'⟩ := hnew.covered r x hr (hx ▸ Option.some_ne_none n)
    exact h.backed r' x n hr' hx
  · intro t
    have htotal := hnew.total (holds t) fun x hx => holds_idle hx
    show Slots.total (holds t) new + _ = _
    rw [htotal]
    exact h.once t

/-- The idle object holds nothing. -/
theorem idle_state : World.idle.state = none := rfl

/-- Move construction hands a reservation on. -/
theorem sameHoldings_moveConstruct {rs : List (Option ResourceReservation)}
    {r : Nat} {x : ResourceReservation} (hr : Slots.get rs r = some x) :
    SameHoldings rs (Slots.alloc (Slots.put rs r (some World.idle)) x) := by
  constructor
  · intro f hf
    have hput := Slots.total_put f (some World.idle) hr
    rw [Option.elim_some, hf _ idle_state] at hput
    rw [Slots.total_alloc]
    omega
  · intro k y hk hy
    rw [Slots.get_alloc] at hk
    by_cases hnew : k = (Slots.put rs r (some World.idle)).length
    · rw [if_pos hnew] at hk
      cases hk
      exact ⟨r, hr⟩
    · rw [if_neg hnew, Slots.get_put _ (Slots.lt_of_get hr)] at hk
      by_cases hkr : k = r
      · rw [if_pos hkr] at hk
        cases hk
        exact (hy idle_state).elim
      · rw [if_neg hkr] at hk
        exact ⟨k, hk⟩

/-- So does move assignment to an idle one. -/
theorem sameHoldings_moveAssign {rs : List (Option ResourceReservation)}
    {target source : Nat} {x y : ResourceReservation}
    (hne : target ≠ source) (hs : Slots.get rs source = some x)
    (ht : Slots.get rs target = some y) (hidle : y.state = none) :
    SameHoldings rs
      (Slots.put (Slots.put rs target (some x)) source (some World.idle)) := by
  have hs' : Slots.get (Slots.put rs target (some x)) source = some x := by
    rw [Slots.get_put_ne _ (Slots.lt_of_get ht) hne.symm]
    exact hs
  constructor
  · intro f hf
    have hput := Slots.total_put f (some x) ht
    have hput' := Slots.total_put f (some World.idle) hs'
    rw [Option.elim_some, hf y hidle] at hput
    rw [Option.elim_some, hf _ idle_state] at hput'
    omega
  · intro k z hk hz
    rw [Slots.get_put _ (Slots.lt_of_get hs')] at hk
    by_cases hks : k = source
    · rw [if_pos hks] at hk
      cases hk
      exact (hz idle_state).elim
    · rw [if_neg hks, Slots.get_put _ (Slots.lt_of_get ht)] at hk
      by_cases hkt : k = target
      · rw [if_pos hkt] at hk
        cases hk
        exact ⟨source, hs⟩
      · rw [if_neg hkt] at hk
        exact ⟨k, hk⟩

/-- Destroying an idle reservation changes no holding. -/
theorem sameHoldings_destroy {rs : List (Option ResourceReservation)}
    {r : Nat} {x : ResourceReservation} (hr : Slots.get rs r = some x)
    (hidle : x.state = none) : SameHoldings rs (Slots.put rs r none) := by
  constructor
  · intro f hf
    have hput := Slots.total_put f none hr
    rw [Option.elim_none, hf x hidle] at hput
    omega
  · intro k y hk _
    rw [Slots.get_put _ (Slots.lt_of_get hr)] at hk
    by_cases hkr : k = r
    · rw [if_pos hkr] at hk
      exact nomatch hk
    · rw [if_neg hkr] at hk
      exact ⟨k, hk⟩

/-- Releasing an active reservation, on a sound world: the amount leaves the
    state and is logged, and the object is idle. -/
theorem release_active {w : World} (h : Sound w) {r n : Nat}
    {x : ResourceReservation} (hr : Slots.get w.reservations r = some x)
    (hx : x.state = some n) :
    ∃ s, Slots.get w.states n = some s ∧ x.amount ≤ s.used
      ∧ w.release r
        = { w with
            states := Slots.put w.states n
              (some { s with used := s.used - x.amount })
            reservations := Slots.put w.reservations r (some World.idle)
            returned := w.returned ++ [⟨x.ticket, n, x.amount⟩] } := by
  obtain ⟨s, hs⟩ := Option.ne_none_iff_exists'.mp (h.backed r x n hr hx).1
  -- The amount is part of the load, so the check before the subtraction passes.
  have hheld : reservedOn n x ≤ reserved w n := Slots.le_total _ hr
  rw [reservedOn, if_pos hx] at hheld
  have hexact := (h.balanced n s hs).exact
  have hle : x.amount ≤ s.used := by
    rw [le_toNat]
    omega
  refine ⟨s, hs, hle, ?_⟩
  rw [World.release, hr]
  simp only [hx, hs]
  rw [if_neg (UInt64.not_lt.mpr hle)]

/-- Releasing an idle reservation does nothing. -/
theorem release_idle {w : World} {r : Nat} {x : ResourceReservation}
    (hr : Slots.get w.reservations r = some x) (hx : x.state = none) :
    w.release r = w := by
  rw [World.release, hr]
  simp only [hx]

/-- After a release the object is still there and idle. -/
theorem release_leaves_idle {w : World} (h : Sound w) {r : Nat}
    {x : ResourceReservation} (hr : Slots.get w.reservations r = some x) :
    ∃ y, Slots.get (w.release r).reservations r = some y
      ∧ y.state = none := by
  cases hx : x.state with
  | none =>
      rw [release_idle hr hx]
      exact ⟨x, hr, hx⟩
  | some n =>
      obtain ⟨s, _, _, hrel⟩ := release_active h hr hx
      rw [hrel]
      exact ⟨World.idle, Slots.get_put_self _ (Slots.lt_of_get hr), rfl⟩

/-- A release only touches the object it is called on. -/
theorem release_get_ne {w : World} (h : Sound w) {r k : Nat}
    {x : ResourceReservation} (hr : Slots.get w.reservations r = some x)
    (hk : k ≠ r) :
    Slots.get (w.release r).reservations k = Slots.get w.reservations k := by
  cases hx : x.state with
  | none => rw [release_idle hr hx]
  | some n =>
      obtain ⟨s, _, _, hrel⟩ := release_active h hr hx
      rw [hrel]
      exact Slots.get_put_ne _ (Slots.lt_of_get hr) hk

/-- **STEP**: releasing. -/
theorem release_sound {w : World} (h : Sound w) {r : Nat}
    {x : ResourceReservation} (hr : Slots.get w.reservations r = some x) :
    Sound (w.release r) := by
  cases hx : x.state with
  | none =>
      rw [release_idle hr hx]
      exact h
  | some n =>
      obtain ⟨s, hs, hle, hrel⟩ := release_active h hr hx
      obtain ⟨_, hgrant⟩ := h.backed r x n hr hx
      -- What the object held on each state, and on each ticket, is gone.
      have hreserved : ∀ m, Slots.total (reservedOn m)
            (Slots.put w.reservations r (some World.idle))
          + (if m = n then x.amount.toNat else 0) = reserved w m := by
        intro m
        have hput := Slots.total_put (reservedOn m) (some World.idle) hr
        rw [Option.elim_some, reservedOn_idle idle_state, Nat.add_zero,
          reservedOn_eq_ite hx] at hput
        exact hput
      have hholders : ∀ t, Slots.total (holds t)
            (Slots.put w.reservations r (some World.idle))
          + (if x.ticket = t then 1 else 0) = holders w t := by
        intro t
        have hput := Slots.total_put (holds t) (some World.idle) hr
        rw [Option.elim_some, holds_idle idle_state, Nat.add_zero,
          holds_eq_ite (hx ▸ Option.some_ne_none n)] at hput
        exact hput
      rw [hrel]
      refine ⟨h.running, ?_, ?_, ?_, ?_, ?_⟩
      · refine (h.balanced.refund hs hle).congr ?_
        intro m
        have hm := hreserved m
        show Slots.total (reservedOn m) (Slots.put w.reservations r _)
            + Slots.total (fundedBy m) (Slots.put w.states n _)
          = reserved w m + funded w m - (if m = n then _ else 0)
        rw [funded_put _ hs, ← hm, funded]
        omega
      · intro k m hk
        exact (live_put hs).mpr (h.owned k m hk)
      · intro k y m hk hy
        rw [Slots.get_put _ (Slots.lt_of_get hr)] at hk
        by_cases hkr : k = r
        · rw [if_pos hkr] at hk
          cases hk
          exact nomatch hy
        · rw [if_neg hkr] at hk
          obtain ⟨hlive, hg⟩ := h.backed k y m hk hy
          exact ⟨(live_put hs).mpr hlive, hg⟩
      · intro entry hentry
        rcases List.mem_append.mp hentry with hold | hnew
        · exact h.returned entry hold
        · rw [List.mem_singleton.mp hnew]
          exact hgrant
      · intro t
        have honce := h.once t
        have hheld := hholders t
        rw [← honce, ← hheld]
        show Slots.total (holds t) (Slots.put w.reservations r _)
            + (w.returned ++ [_]).countP
              (fun entry : Return => entry.ticket = t)
          = _ + returns w t
        rw [List.countP_append, List.countP_singleton, returns]
        by_cases ht : x.ticket = t
        · rw [if_pos ht, if_pos (decide_eq_true ht)]
          omega
        · rw [if_neg ht, if_neg (by rw [decide_eq_true_eq]; exact ht)]
          omega

/-- **STEP**: move construction. -/
theorem moveConstruct_sound {w : World} (h : Sound w) {r : Nat}
    {x : ResourceReservation} (hr : Slots.get w.reservations r = some x) :
    Sound (w.moveConstruct r x) :=
  h.of_sameHoldings (sameHoldings_moveConstruct hr)

/-- **STEP**: move assignment. -/
theorem moveAssign_sound {w : World} (h : Sound w) {target source : Nat}
    {x y : ResourceReservation}
    (ht : Slots.get w.reservations target = some x)
    (hs : Slots.get w.reservations source = some y) :
    Sound (w.moveAssign target source) := by
  rw [World.moveAssign]
  by_cases hself : target = source
  · rw [if_pos hself]
    exact h
  rw [if_neg hself]
  have hrel := release_sound h ht
  obtain ⟨z, hz, hidle⟩ := release_leaves_idle h ht
  have hs' : Slots.get (w.release target).reservations source = some y := by
    rw [release_get_ne h ht (fun hc => hself hc.symm)]
    exact hs
  simp only [hs']
  exact hrel.of_sameHoldings (sameHoldings_moveAssign hself hs' hz hidle)

/-- **STEP**: destroying a reservation. -/
theorem destroyReservation_sound {w : World} (h : Sound w) {r : Nat}
    {x : ResourceReservation} (hr : Slots.get w.reservations r = some x) :
    Sound (w.destroyReservation r) := by
  obtain ⟨z, hz, hidle⟩ := release_leaves_idle h hr
  exact (release_sound h hr).of_sameHoldings (sameHoldings_destroy hz hidle)

/-! ## The end of a state -/

/-- What a slot holds is in the list. -/
theorem mem_of_get {α : Type} {xs : List (Option α)} {i : Nat} {a : α}
    (h : Slots.get xs i = some a) : some a ∈ xs :=
  List.mem_of_getElem? (Slots.get_eq_some.mp h)

/-- What `unowned` tests. -/
structure Unowned (w : World) (n : Nat) : Prop where
  handles : ∀ h, Slots.get w.handles h ≠ some n
  reservations : ∀ r x, Slots.get w.reservations r = some x →
    x.state ≠ some n
  states : ∀ m x, Slots.get w.states m = some x → x.parent ≠ some n

/-- The test for an unowned state is right. -/
theorem unowned_of_eq_true {w : World} {n : Nat} (h : w.unowned n = true) :
    Unowned w n := by
  rw [World.unowned, Bool.and_eq_true, Bool.and_eq_true, List.all_eq_true,
    List.all_eq_true, List.all_eq_true] at h
  obtain ⟨⟨hhandles, hreservations⟩, hstates⟩ := h
  refine ⟨?_, ?_, ?_⟩
  · intro k hk
    exact of_decide_eq_true (hhandles _ (mem_of_get hk)) rfl
  · intro r x hr
    exact of_decide_eq_true (hreservations _ (mem_of_get hr))
  · intro m x hm
    exact of_decide_eq_true (hstates _ (mem_of_get hm))

/-- Freeing an unowned state, once its parent no longer carries it. -/
theorem Sound.freed {w : World} (h : Sound w) {n : Nat}
    {s : ResourceBudgetState} (hn : Slots.get w.states n = some s)
    (hun : Unowned w n) {states : List (Option ResourceBudgetState)}
    (hlength : states.length = w.states.length)
    (hlive : ∀ m, Slots.get states m ≠ none ↔ Slots.get w.states m ≠ none)
    (hparents : ∀ m x, Slots.get states m = some x → x.parent ≠ some n)
    (hfunded : ∀ m, Slots.total (fundedBy m) (Slots.put states n none)
      + fundedBy m s = funded w m)
    (hbalanced : Balanced states fun m =>
      reserved w m + funded w m - fundedBy m s) :
    Sound { w with states := Slots.put states n none } := by
  have hsize : n < states.length := by
    rw [hlength]
    exact Slots.lt_of_get hn
  have hstay : ∀ m, m ≠ n → Slots.get w.states m ≠ none →
      Slots.get (Slots.put states n none) m ≠ none := by
    intro m hm hl
    rw [Slots.get_put_ne _ hsize hm]
    exact (hlive m).mpr hl
  refine ⟨h.running, ?_, ?_, ?_, h.returned, h.once⟩
  · refine (hbalanced.free hsize hparents).congr ?_
    intro m
    have hm := hfunded m
    show reserved w m + Slots.total (fundedBy m) (Slots.put states n none)
      = reserved w m + funded w m - fundedBy m s
    omega
  · intro k m hk
    exact hstay m (fun hmn => hun.handles k (hmn ▸ hk)) (h.owned k m hk)
  · intro r x m hr hx
    obtain ⟨hl, hgrant⟩ := h.backed r x m hr hx
    exact ⟨hstay m (fun hmn => hun.reservations r x hr (hmn ▸ hx)) hl, hgrant⟩

/-- **STEP**: destroying a state that nobody owns. -/
theorem destroyState_sound {w : World} (h : Sound w) {n : Nat}
    {s : ResourceBudgetState} (hn : Slots.get w.states n = some s)
    (hun : Unowned w n) : Sound (w.destroyState n s) := by
  have hs := h.balanced n s hn
  rw [World.destroyState]
  cases hp : s.parent with
  | none =>
      have hnone : ∀ m, fundedBy m s = 0 := by
        intro m
        rw [fundedBy, hp, if_neg (fun hc => nomatch hc)]
      refine h.freed hn hun rfl (fun _ => Iff.rfl) hun.states ?_ ?_
      · intro m
        exact Slots.total_put (fundedBy m) none hn
      · refine h.balanced.congr ?_
        intro m
        show _ - _ = _
        rw [hnone, Nat.sub_zero]
  | some p =>
      obtain ⟨hlt, hplive, hamount⟩ := hs.parent p hp
      obtain ⟨q, hq⟩ := Option.ne_none_iff_exists'.mp hplive
      have hheld : fundedBy p s ≤ funded w p := Slots.le_total _ hn
      rw [fundedBy, if_pos hp] at hheld
      have hexact := (h.balanced p q hq).exact
      have hle : s.parentAmount ≤ q.used := by
        rw [hamount, le_toNat]
        omega
      have hpn : p ≠ n := by omega
      simp only [hq]
      rw [if_neg (by rw [hamount]; exact hs.positive),
        if_neg (UInt64.not_lt.mpr hle)]
      refine h.freed hn hun (Slots.put_length _ _ _) (fun _ => live_put hq)
        ?_ ?_ ?_
      · intro m x hm
        rw [Slots.get_put _ (Slots.lt_of_get hq)] at hm
        by_cases hmp : m = p
        · rw [if_pos hmp] at hm
          cases hm
          exact hun.states p q hq
        · rw [if_neg hmp] at hm
          exact hun.states m x hm
      · intro m
        have hn' : Slots.get (Slots.put w.states p
            (some { q with used := q.used - s.parentAmount })) n = some s := by
          rw [Slots.get_put_ne _ (Slots.lt_of_get hq) hpn.symm]
          exact hn
        rw [Slots.total_put (fundedBy m) none hn', funded_put _ hq]
        exact Nat.add_zero _
      · -- The parent gets back what it funded, which is the whole capacity.
        refine (h.balanced.refund hq hle).congr ?_
        intro m
        rw [fundedBy_eq_ite hp, hamount]

/-! ## Every action -/

/-- The target of a handle is live. -/
theorem target_eq_some {w : World} {handle n : Nat}
    {s : ResourceBudgetState} (h : w.target handle = some (n, s)) :
    Slots.get w.states n = some s := by
  obtain ⟨m, _, hm⟩ := Option.bind_eq_some_iff.mp h
  obtain ⟨s', hs', heq⟩ := Option.map_eq_some_iff.mp hm
  cases heq
  exact hs'

private theorem on_sound {α : Type} {w : World} (h : Sound w)
    {object : Option α} {f : α → Reply × World}
    (hf : ∀ a, object = some a → Sound (f a).2) : Sound (w.on object f).2 := by
  cases object with
  | none => exact h
  | some a => exact hf a rfl

private theorem on_failed {α : Type} {w : World} {object : Option α}
    {f : α → Reply × World} {error : Error}
    (hf : ∀ a, (f a).1 = .failed error → (f a).2 = w)
    (h : (w.on object f).1 = .failed error) : (w.on object f).2 = w := by
  cases object with
  | none => rfl
  | some a => exact hf a h

/-- **STEP**: every action of every client preserves the invariant. -/
theorem act_sound {w : World} (h : Sound w) (action : Action) :
    Sound (w.act action).2 := by
  rw [World.act, if_neg (by rw [h.running]; exact Bool.false_ne_true)]
  cases action with
  | createRoot kind capacity allocated =>
      exact createRoot_sound h kind capacity allocated
  | createChild handle capacity operation allocated =>
      refine on_sound h fun found hfound => ?_
      exact createChild_sound h (target_eq_some hfound) capacity operation
        allocated
  | reserve handle amount operation =>
      refine on_sound h fun found hfound => ?_
      exact reserve_sound h (target_eq_some hfound) amount operation
  | copyHandle handle => exact on_sound h fun n hn => copyHandle_sound h hn
  | dropHandle handle => exact on_sound h fun n hn => dropHandle_sound h hn
  | moveConstruct r => exact on_sound h fun x hr => moveConstruct_sound h hr
  | moveAssign target source =>
      refine on_sound h fun x ht => on_sound h fun y hs => ?_
      exact moveAssign_sound h ht hs
  | release r => exact on_sound h fun x hr => release_sound h hr
  | destroyReservation r =>
      exact on_sound h fun x hr => destroyReservation_sound h hr
  | destroyState n =>
      refine on_sound h fun s hn => ?_
      by_cases hun : w.unowned n
      · rw [if_pos hun]
        exact destroyState_sound h hn (unowned_of_eq_true hun)
      · rw [if_neg hun]
        exact h

/-- A root that is refused leaves the world as it was. -/
theorem createRoot_failed {w : World} {kind : ResourceKind}
    {capacity : UInt64} {allocated : Bool} {error : Error}
    (h : (w.createRoot kind capacity allocated).1 = .failed error) :
    (w.createRoot kind capacity allocated).2 = w := by
  rw [World.createRoot] at h ⊢
  by_cases hzero : capacity = 0
  · rw [if_pos hzero]
  rw [if_neg hzero] at h ⊢
  cases allocated with
  | false => rfl
  | true => exact nomatch h

/-- So does a child. -/
theorem createChild_failed {w : World} {n : Nat} {s : ResourceBudgetState}
    {capacity : UInt64} {operation : Operation} {allocated : Bool}
    {error : Error}
    (h : (w.createChild n s capacity operation allocated).1
      = .failed error) :
    (w.createChild n s capacity operation allocated).2 = w := by
  rw [World.createChild] at h ⊢
  by_cases hzero : capacity = 0
  · rw [if_pos hzero]
  rw [if_neg hzero] at h ⊢
  cases allocated with
  | false => rfl
  | true =>
      rw [allocateState, if_pos rfl] at h ⊢
      dsimp only at h ⊢
      by_cases hfull : capacity > s.capacity - s.used
      · rw [if_pos hfull]
      · rw [if_neg hfull] at h
        exact nomatch h

/-- So does a reservation. -/
theorem reserve_failed {w : World} {n : Nat} {s : ResourceBudgetState}
    {amount : UInt64} {operation : Operation} {error : Error}
    (h : (w.reserve n s amount operation).1 = .failed error) :
    (w.reserve n s amount operation).2 = w := by
  rw [World.reserve] at h ⊢
  by_cases hzero : amount = 0
  · rw [if_pos hzero]
  by_cases hfull : amount > s.capacity - s.used
  · rw [if_neg hzero, if_pos hfull]
  · rw [if_neg hzero, if_neg hfull] at h
    exact nomatch h

/-- A failed action changes nothing at all. -/
theorem act_failed {w : World} {action : Action} {error : Error}
    (h : (w.act action).1 = .failed error) : (w.act action).2 = w := by
  rw [World.act] at h ⊢
  by_cases hdead : w.terminated
  · rw [if_pos hdead]
  rw [if_neg hdead] at h ⊢
  cases action with
  | createRoot kind capacity allocated => exact createRoot_failed h
  | createChild handle capacity operation allocated =>
      exact on_failed (fun _ => createChild_failed) h
  | reserve handle amount operation =>
      exact on_failed (fun _ => reserve_failed) h
  | copyHandle handle => exact on_failed (fun _ hc => nomatch hc) h
  | dropHandle handle => exact on_failed (fun _ hc => nomatch hc) h
  | moveConstruct r => exact on_failed (fun _ hc => nomatch hc) h
  | moveAssign target source =>
      exact on_failed (fun _ => on_failed fun _ hc => nomatch hc) h
  | release r => exact on_failed (fun _ hc => nomatch hc) h
  | destroyReservation r => exact on_failed (fun _ hc => nomatch hc) h
  | destroyState n =>
      refine on_failed (fun s hc => ?_) h
      by_cases hun : w.unowned n
      · rw [if_pos hun] at hc
        exact nomatch hc
      · rw [if_neg hun]

/-! ## Runs -/

variable {Client : Type}

/-- **RUN**: every reachable world is sound. -/
theorem run_sound (events : List (Client × Action)) :
    Sound (Machine.finalState step {} events) := by
  have hstep : ∀ (w : World) (event : Client × Action), Sound w →
      Sound (step w event).2 := fun _ event h => act_sound h event.2
  exact Machine.finalState_invariant hstep empty_sound events

/-! ## Subtrees -/

/-- The parent of a live state. -/
def parentOf (w : World) (n : Nat) : Option Nat :=
  (Slots.get w.states n).bind (·.parent)

open Classical in
/-- The amounts of all reservations active in the subtree of a state. -/
noncomputable def subtreeReserved (w : World) (n : Nat) : Nat :=
  Slots.total (fun r => if ∃ m, r.state = some m
      ∧ Forest.Within (parentOf w) n m then r.amount.toNat else 0)
    w.reservations

/-- A parent is older than its children. -/
theorem parentOf_lt {w : World} (h : Sound w) (m p : Nat)
    (hp : parentOf w m = some p) : p < m := by
  obtain ⟨s, hs, hsp⟩ := Option.bind_eq_some_iff.mp hp
  exact ((h.balanced m s hs).parent p hsp).1

/-- The reservations of a subtree, state by state. -/
theorem subtreeReserved_eq {w : World} (h : Sound w) (n : Nat) :
    subtreeReserved w n
      = Forest.subtreeSum (parentOf w) (reserved w) w.states.length n := by
  classical
  have hsplit : ∀ r x, Slots.get w.reservations r = some x →
      (if ∃ m, x.state = some m ∧ Forest.Within (parentOf w) n m then
        x.amount.toNat else 0)
      = ∑ m ∈ Finset.range w.states.length,
          if Forest.Within (parentOf w) n m then reservedOn m x else 0 := by
    intro r x hr
    -- A reservation counts in the one state it points to, if any.
    cases hx : x.state with
    | none =>
        rw [if_neg (fun hc => nomatch hc.choose_spec.1)]
        refine (Finset.sum_eq_zero ?_).symm
        intro m _
        rw [reservedOn_idle hx, ite_self]
    | some k =>
        obtain ⟨s, hs⟩ := Option.ne_none_iff_exists'.mp (h.backed r x k hr hx).1
        rw [Finset.sum_eq_single k]
        · rw [reservedOn, if_pos hx]
          by_cases hk : Forest.Within (parentOf w) n k
          · rw [if_pos hk, if_pos ⟨k, rfl, hk⟩]
          · rw [if_neg hk, if_neg]
            rintro ⟨m, hm, hwithin⟩
            cases hm
            exact hk hwithin
        · intro m _ hmk
          rw [reservedOn, hx,
            if_neg (fun hc => hmk (Option.some.inj hc).symm), ite_self]
        · intro hout
          exact (hout (Finset.mem_range.mpr (Slots.lt_of_get hs))).elim
  rw [subtreeReserved, Slots.total_congr hsplit, Slots.total_sum,
    Forest.subtreeSum]
  refine Finset.sum_congr rfl ?_
  intro m _
  by_cases hm : Forest.Within (parentOf w) n m
  · simp only [if_pos hm]
    rfl
  · simp only [if_neg hm]
    exact Slots.total_eq_zero fun _ _ _ => rfl

/-- **SUBTREES**: everything reserved below a live state fits its
    capacity. -/
theorem subtreeReserved_le {w : World} (h : Sound w) {n : Nat}
    {s : ResourceBudgetState} (hn : Slots.get w.states n = some s) :
    subtreeReserved w n ≤ s.capacity.toNat := by
  -- An empty slot promises nothing, so the forest may span all addresses.
  let capacity : Nat → Nat := fun m =>
    (Slots.get w.states m).elim 0 fun x => x.capacity.toNat
  have hchildren : ∀ m, (∑ c ∈ Finset.range w.states.length,
      if parentOf w c = some m then capacity c else 0) = funded w m := by
    intro m
    rw [funded, Slots.total_eq_sum]
    refine Finset.sum_congr rfl ?_
    intro c _
    rcases Option.eq_none_or_eq_some (Slots.get w.states c) with hc | ⟨x, hc⟩
    · have hcapacity : capacity c = 0 := congrArg (Option.elim · 0 _) hc
      rw [hcapacity, ite_self, hc]
      rfl
    · have hcapacity : capacity c = x.capacity.toNat :=
        congrArg (Option.elim · 0 _) hc
      have hparent : parentOf w c = x.parent := by
        rw [parentOf, hc]
        rfl
      rw [hcapacity, hparent, hc]
      rfl
  have hfit : ∀ m, m < w.states.length →
      reserved w m + (∑ c ∈ Finset.range w.states.length,
        if parentOf w c = some m then capacity c else 0) ≤ capacity m := by
    intro m _
    rw [hchildren]
    cases hm : Slots.get w.states m with
    | none =>
        rw [h.load_dead hm]
        exact Nat.zero_le _
    | some x =>
        have hx := h.balanced m x hm
        have hb := le_toNat.mp hx.bounded
        have hexact := hx.exact
        show _ ≤ (Slots.get w.states m).elim 0 _
        rw [hm]
        show _ ≤ x.capacity.toNat
        omega
  have hbound := Forest.subtreeSum_le_capacity (parentOf_lt h) hfit
    (Slots.lt_of_get hn)
  rw [subtreeReserved_eq h]
  refine Nat.le_trans hbound ?_
  show (Slots.get w.states n).elim 0 _ ≤ _
  rw [hn]
  exact Nat.le_refl _

/-- A state with no active reservation and no live child is unused. -/
theorem used_eq_zero {w : World} (h : Sound w) {n : Nat}
    {s : ResourceBudgetState} (hn : Slots.get w.states n = some s)
    (hfree : ∀ r x, Slots.get w.reservations r = some x → x.state ≠ some n)
    (hleaf : ∀ m x, Slots.get w.states m = some x → x.parent ≠ some n) :
    s.used = 0 := by
  have hr : reserved w n = 0 := Slots.total_eq_zero fun r x hx => by
    rw [reservedOn, if_neg (hfree r x hx)]
  have hf : funded w n = 0 := Slots.total_eq_zero fun m x hx => by
    rw [fundedBy, if_neg (hleaf m x hx)]
  have hexact : s.used.toNat = reserved w n + funded w n :=
    (h.balanced n s hn).exact
  apply UInt64.toNat_inj.mp
  rw [hexact, hr, hf]
  rfl

/-- **BUDGET ACCOUNTING**: in every world any clients can reach in any
    order. -/
theorem budget_accounting (events : List (Client × Action)) :
    let w := Machine.finalState step {} events
    w.terminated = false
    ∧ (∀ n s, Slots.get w.states n = some s →
        s.used.toNat = reserved w n + funded w n
        ∧ s.used ≤ s.capacity
        ∧ subtreeReserved w n ≤ s.capacity.toNat)
    ∧ (∀ n s, Slots.get w.states n = some s →
        (∀ r x, Slots.get w.reservations r = some x → x.state ≠ some n)
        → (∀ m, m ≠ n → Forest.Within (parentOf w) n m →
            Slots.get w.states m = none)
        → s.used = 0)
    ∧ (∀ ticket grant, w.granted[ticket]? = some grant →
        holders w ticket + returns w ticket = 1
        ∧ (∀ r x, Slots.get w.reservations r = some x → x.state ≠ none →
            x.ticket = ticket →
            x.state = some grant.node ∧ x.amount = grant.amount)
        ∧ (∀ entry, entry ∈ w.returned → entry.ticket = ticket →
            entry.grant = grant))
    ∧ (∀ (event : Client × Action) error,
        (step w event).1 = .failed error → (step w event).2 = w) := by
  intro w
  have h : Sound w := run_sound events
  refine ⟨h.running, ?_, ?_, ?_, fun _ _ hfail => act_failed hfail⟩
  · intro n s hn
    have hs := h.balanced n s hn
    exact ⟨hs.exact, hs.bounded, subtreeReserved_le h hn⟩
  · intro n s hn hfree halone
    -- A live child would be a state below `n`, and there is none.
    refine used_eq_zero h hn hfree ?_
    intro m x hm hp
    have hparent : parentOf w m = some n := by
      rw [parentOf, hm]
      exact hp
    have hlt := parentOf_lt h m n hparent
    have hnone := halone m (by omega)
      (Forest.Within.child hparent Forest.Within.self)
    rw [hm] at hnone
    exact nomatch hnone
  · intro ticket grant hgrant
    obtain ⟨hlt, _⟩ := List.getElem?_eq_some_iff.mp hgrant
    refine ⟨?_, ?_, ?_⟩
    · rw [h.once, if_pos hlt]
    · intro r x hr hx hticket
      obtain ⟨n, hn⟩ := Option.ne_none_iff_exists'.mp hx
      obtain ⟨_, hback⟩ := h.backed r x n hr hn
      rw [hticket, hgrant] at hback
      cases hback
      exact ⟨hn, rfl⟩
    · intro entry hentry hticket
      have hret := h.returned entry hentry
      rw [hticket, hgrant] at hret
      exact (Option.some.inj hret).symm

/-- A reservation outlives the handle it was made through; the parent is
    charged for the child all the while. -/
def familyRun : List (Unit × Action) :=
  [((), .createRoot .residentMemory 100 true),
    ((), .createChild 0 60 .configure true), ((), .reserve 1 10 .encode),
    ((), .dropHandle 1), ((), .reserve 0 40 .encode)]

/-- A run in which a child is created and a reservation made. -/
theorem budget_accounting_at_familyRun :
    Machine.outputs step {} familyRun = List.replicate 5 .done
      ∧ ∀ n s, Slots.get (Machine.finalState step {} familyRun).states n
          = some s →
        s.used.toNat = reserved (Machine.finalState step {} familyRun) n
          + funded (Machine.finalState step {} familyRun) n := by
  refine ⟨by decide, ?_⟩
  intro n s hn
  exact ((budget_accounting familyRun).2.1 n s hn).1

end ShiboriBudgetAccounting
