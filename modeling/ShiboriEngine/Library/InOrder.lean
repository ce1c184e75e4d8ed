import Mathlib
import ShiboriEngine.Library.Machine

/-! # Receiving in order

    A receiver expects one number, takes it when it comes and is wanted, and
    drops everything else.  A channel may lose, repeat and reorder what it is
    given: the receiver gets as far as `n` exactly when every number below `n`
    is wanted and they come in order, with anything in between
    (`le_finalState_iff`). -/

namespace InOrder

/-! ## What is missing -/

/-- The numbers from `expected` to below `n`, as arrivals. -/
def missing (expected n : Nat) : List (Option Nat) :=
  (List.range' expected (n - expected)).map some

/-- All that is missing is wanted, and comes in order. -/
def Comes (wanted : Nat → Prop) (expected n : Nat)
    (arrivals : List (Option Nat)) : Prop :=
  (∀ j, expected ≤ j → j < n → wanted j)
    ∧ (missing expected n).Sublist arrivals

section Missing

variable {wanted : Nat → Prop} {expected n : Nat} {arrival : Option Nat}
  {arrivals : List (Option Nat)}

/-- Nothing is missing from where it is expected to end. -/
theorem missing_eq_nil (h : n ≤ expected) : missing expected n = [] := by
  rw [missing, Nat.sub_eq_zero_of_le h, List.range'_zero, List.map_nil]

/-- What is expected is missing first. -/
theorem missing_eq_cons (h : expected < n) :
    missing expected n = some expected :: missing (expected + 1) n := by
  have hlen : n - expected = (n - (expected + 1)) + 1 := by omega
  rw [missing, hlen, List.range'_succ, List.map_cons]
  rfl

/-- Nothing has to come when nothing is missing. -/
theorem comes_of_le (h : n ≤ expected) (arrivals : List (Option Nat)) :
    Comes wanted expected n arrivals := by
  refine ⟨?_, ?_⟩
  · intro j hj hlt
    omega
  · rw [missing_eq_nil h]
    exact List.nil_sublist arrivals

/-- Without arrivals nothing that is missing comes. -/
theorem comes_nil (h : expected < n) : ¬ Comes wanted expected n [] := by
  rintro ⟨_, hnone⟩
  rw [missing_eq_cons h] at hnone
  exact List.cons_ne_nil _ _ (List.sublist_nil.mp hnone)

/-- What is taken is the first of what is missing. -/
theorem comes_taken (h : expected < n) (hwanted : wanted expected) :
    Comes wanted expected n (some expected :: arrivals)
      ↔ Comes wanted (expected + 1) n arrivals := by
  rw [Comes, Comes, missing_eq_cons h, List.cons_sublist_cons]
  refine and_congr_left ?_
  intro _
  constructor
  · intro hall j hj
    exact hall j (Nat.le_of_succ_le hj)
  · intro hall j hj
    rcases Nat.eq_or_lt_of_le hj with rfl | hlt
    · exact fun _ => hwanted
    · exact hall j hlt

/-- What is dropped brings nothing that is missing. -/
theorem comes_dropped (h : expected < n)
    (hdrop : ¬ (arrival = some expected ∧ wanted expected)) :
    Comes wanted expected n (arrival :: arrivals)
      ↔ Comes wanted expected n arrivals := by
  rw [Comes, Comes]
  refine and_congr_right ?_
  intro hall
  have hwanted := hall expected (Nat.le_refl expected) h
  rw [missing_eq_cons h, List.cons_sublist_cons']
  constructor
  · rintro (hlater | ⟨hhere, _⟩)
    · exact hlater
    · exact (hdrop ⟨hhere.symm, hwanted⟩).elim
  · intro hlater
    exact Or.inl hlater

end Missing

/-! ## The receiver -/

variable {wanted : Nat → Prop} [DecidablePred wanted] {expected : Nat}
  {arrival : Option Nat}

variable (wanted) in
/-- One arrival, and whether it was taken; `none` is one without a number. -/
def receive : Machine.Step Nat (Option Nat) Bool :=
  fun expected arrival =>
    if arrival = some expected ∧ wanted expected then (true, expected + 1)
    else (false, expected)

/-- What is expected and wanted is taken. -/
theorem receive_taken (h : arrival = some expected)
    (hwanted : wanted expected) :
    receive wanted expected arrival = (true, expected + 1) :=
  if_pos ⟨h, hwanted⟩

/-- Anything else is dropped. -/
theorem receive_dropped (h : ¬ (arrival = some expected ∧ wanted expected)) :
    receive wanted expected arrival = (false, expected) :=
  if_neg h

/-- An arrival never takes the receiver back. -/
theorem receive_mono (expected : Nat) (arrival : Option Nat) :
    expected ≤ (receive wanted expected arrival).2 := by
  by_cases htake : arrival = some expected ∧ wanted expected
  · rw [receive_taken htake.1 htake.2]
    exact Nat.le_succ expected
  · rw [receive_dropped htake]

/-- Arrivals never take the receiver back. -/
theorem le_finalState (expected : Nat) (arrivals : List (Option Nat)) :
    expected ≤ Machine.finalState (receive wanted) expected arrivals := by
  have hkeep : ∀ state arrival, expected ≤ state
      → expected ≤ (receive wanted state arrival).2 :=
    fun state arrival hstate =>
      Nat.le_trans hstate (receive_mono state arrival)
  exact Machine.finalState_invariant hkeep (Nat.le_refl expected) arrivals

/-- **HOW FAR A RECEIVER GETS**: as far as `n` exactly when all up to `n` is
    wanted and comes in order. -/
theorem le_finalState_iff {n : Nat} (arrivals : List (Option Nat)) :
    n ≤ Machine.finalState (receive wanted) expected arrivals
      ↔ Comes wanted expected n arrivals := by
  induction arrivals generalizing expected with
  | nil =>
      rcases Nat.lt_or_ge expected n with hlt | hle
      · exact iff_of_false (Nat.not_le.mpr hlt) (comes_nil hlt)
      · exact iff_of_true hle (comes_of_le hle [])
  | cons arrival arrivals ih =>
      rcases Nat.lt_or_ge expected n with hlt | hle
      · rw [Machine.finalState_cons]
        by_cases htake : arrival = some expected ∧ wanted expected
        · obtain ⟨rfl, hwanted⟩ := htake
          rw [receive_taken rfl hwanted, comes_taken hlt hwanted]
          exact ih
        · rw [receive_dropped htake, comes_dropped hlt htake]
          exact ih
      · exact iff_of_true (Nat.le_trans hle (le_finalState expected _))
          (comes_of_le hle _)

end InOrder
