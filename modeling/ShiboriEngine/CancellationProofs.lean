import Mathlib
import ShiboriEngine.Cancellation

/-! # What a token answers

    No two sources share a state, and a flag is set by requests only.  So a
    token answers true exactly when a request was made, at any earlier time,
    through a source that held its state then; a token made on its own is never
    cancelled. -/

namespace ShiboriCancellationFacts

open ShiboriCancellation Machine

/-! ## Moving pointers -/

section Pointers

variable {pointers : List (Option StatePtr)} {i : Nat} {held : StatePtr}

/-- What the handles point to after a move construction. -/
theorem get_moveConstruct (h : Slots.get pointers i = some held) (k : Nat) :
    Slots.get (moveConstruct pointers i held) k
      = if k = pointers.length then some held
        else if k = i then some none
        else Slots.get pointers k := by
  rw [moveConstruct, Slots.get_alloc, Slots.put_length,
    Slots.get_put _ (Slots.lt_of_get h)]

/-- What the handles point to after a move assignment. -/
theorem get_moveAssign {target : Nat} {old : StatePtr}
    (htarget : Slots.get pointers target = some old)
    (h : Slots.get pointers i = some held) (k : Nat) :
    Slots.get (moveAssign pointers target i held) k
      = if k = target then some held
        else if k = i then some none
        else Slots.get pointers k := by
  rw [moveAssign]
  by_cases hself : target = i
  · rw [if_pos hself]
    by_cases hk : k = target
    · rw [if_pos hk, hk, hself, h]
    · rw [if_neg hk, if_neg fun hc => hk (hc.trans hself.symm)]
  · have hlt : target < (Slots.put pointers i (some none)).length := by
      rw [Slots.put_length]
      exact Slots.lt_of_get htarget
    rw [if_neg hself, Slots.get_put _ hlt, Slots.get_put _ (Slots.lt_of_get h)]

/-- Some object holds the state. -/
def Held (pointers : List (Option StatePtr)) (n : Nat) : Prop :=
  ∃ k, Slots.get pointers k = some (some n)

/-- No two objects hold one state. -/
def Unshared (pointers : List (Option StatePtr)) : Prop :=
  ∀ j k n, Slots.get pointers j = some (some n) →
    Slots.get pointers k = some (some n) → j = k

/-- The objects hold no other states than before, and still share none. -/
structure Moved (old new : List (Option StatePtr)) : Prop where
  held : ∀ n, Held new n → Held old n
  unshared : Unshared old → Unshared new

/-- Nothing need move. -/
theorem Moved.refl (pointers : List (Option StatePtr)) :
    Moved pointers pointers := ⟨fun _ h => h, fun h => h⟩

/-- An object takes over from `i`, which is left null. -/
theorem moved_of_takeover {new : List (Option StatePtr)} {target : Nat}
    (h : Slots.get pointers i = some held)
    (hget : ∀ k, Slots.get new k
      = if k = target then some held
        else if k = i then some none
        else Slots.get pointers k) : Moved pointers new := by
  -- every holder in the new list has one holder in the old list
  have hback : ∀ k n, Slots.get new k = some (some n) →
      (k = target ∧ held = some n)
        ∨ (k ≠ target ∧ k ≠ i ∧ Slots.get pointers k = some (some n)) := by
    intro k n hk
    rw [hget] at hk
    by_cases htarget : k = target
    · rw [if_pos htarget] at hk
      exact Or.inl ⟨htarget, Option.some.inj hk⟩
    rw [if_neg htarget] at hk
    by_cases hi : k = i
    · rw [if_pos hi] at hk
      cases hk
    rw [if_neg hi] at hk
    exact Or.inr ⟨htarget, hi, hk⟩
  constructor
  · rintro n ⟨k, hk⟩
    rcases hback k n hk with ⟨_, hheld⟩ | ⟨_, _, hold⟩
    · exact ⟨i, hheld ▸ h⟩
    · exact ⟨k, hold⟩
  · intro hunshared j k n hj hk
    rcases hback j n hj with ⟨hjt, hheld⟩ | ⟨_, hji, hjold⟩
    · rcases hback k n hk with ⟨hkt, _⟩ | ⟨_, hki, hkold⟩
      · rw [hjt, hkt]
      · exact (hki (hunshared k i n hkold (hheld ▸ h))).elim
    · rcases hback k n hk with ⟨_, hheld⟩ | ⟨_, _, hkold⟩
      · exact (hji (hunshared j i n hjold (hheld ▸ h))).elim
      · exact hunshared j k n hjold hkold

/-- A move construction moves. -/
theorem moved_moveConstruct (h : Slots.get pointers i = some held) :
    Moved pointers (moveConstruct pointers i held) :=
  moved_of_takeover h (get_moveConstruct h)

/-- So does a move assignment. -/
theorem moved_moveAssign {target : Nat} {old : StatePtr}
    (htarget : Slots.get pointers target = some old)
    (h : Slots.get pointers i = some held) :
    Moved pointers (moveAssign pointers target i held) :=
  moved_of_takeover h (get_moveAssign htarget h)

/-- So does destroying a handle. -/
theorem moved_destroy (h : Slots.get pointers i = some held) :
    Moved pointers (Slots.put pointers i none) := by
  have hback : ∀ k n, Slots.get (Slots.put pointers i none) k
      = some (some n) → Slots.get pointers k = some (some n) := by
    intro k n hk
    rw [Slots.get_put _ (Slots.lt_of_get h)] at hk
    by_cases hi : k = i
    · rw [if_pos hi] at hk
      cases hk
    · rw [if_neg hi] at hk
      exact hk
  constructor
  · rintro n ⟨k, hk⟩
    exact ⟨k, hback k n hk⟩
  · intro hunshared j k n hj hk
    exact hunshared j k n (hback j n hj) (hback k n hk)

end Pointers

/-! ## What a step does -/

/-- The flag of a state; false for one that is not there. -/
def flag (w : World) (n : Nat) : Bool := w.states.getD n false

/-- The state that the action requests cancellation of. -/
def requested (w : World) : Action → Option Nat
  | .requestCancel source => (Slots.get w.sources source).join
  | _ => none

/-- **EVERYTHING A STEP DOES** to the states and the sources: it moves
    sources, or makes a state, perhaps for a new source, or sets one flag. -/
inductive Effect (w : World) : Option Nat → World → Prop where
  | moved {w' : World} (hstates : w'.states = w.states)
      (hsources : Moved w.sources w'.sources) : Effect w none w'
  | made {w' : World} (hstates : w'.states = w.states ++ [false])
      (hsources : w'.sources = w.sources
        ∨ w'.sources = Slots.alloc w.sources (some w.states.length)) :
      Effect w none w'
  | set {w' : World} {n : Nat} (hheld : Held w.sources n)
      (hstates : w'.states = w.states.set n true)
      (hsources : w'.sources = w.sources) : Effect w (some n) w'

/-- A step that leaves states and sources alone. -/
theorem Effect.quiet {w w' : World} (hstates : w'.states = w.states)
    (hsources : w'.sources = w.sources) : Effect w none w' :=
  .moved hstates (hsources ▸ Moved.refl w.sources)

/-- Acting on an object that does not exist does nothing. -/
theorem effect_on {w : World} {object : Option StatePtr}
    {f : StatePtr → Reply × World}
    (h : ∀ held, object = some held → Effect w none (f held).2) :
    Effect w none (w.on object f).2 := by
  cases object with
  | none => exact .quiet rfl rfl
  | some held => exact h held rfl

/-- Every operation moves handles, makes a state, or sets a flag. -/
theorem step_effect (w : World) (action : Action) :
    Effect w (requested w action) (step w action).2 := by
  cases action with
  | createSource => exact .made rfl (Or.inr rfl)
  | moveSource source =>
      refine effect_on fun held hheld => ?_
      exact .moved rfl (moved_moveConstruct hheld)
  | moveAssignSource target source =>
      refine effect_on fun old hold => ?_
      refine effect_on fun held hheld => ?_
      exact .moved rfl (moved_moveAssign hold hheld)
  | destroySource source =>
      refine effect_on fun held hheld => ?_
      exact .moved rfl (moved_destroy hheld)
  | token source => exact effect_on fun _ _ => .quiet rfl rfl
  | requestCancel source =>
      cases hget : Slots.get w.sources source with
      | none =>
          rw [requested, step, World.act, hget]
          exact .quiet rfl rfl
      | some held =>
          rw [requested, step, World.act, hget]
          cases held with
          | none => exact .quiet rfl rfl
          | some n => exact .set ⟨source, hget⟩ rfl rfl
  | createToken => exact .made rfl (Or.inl rfl)
  | copyToken token => exact effect_on fun _ _ => .quiet rfl rfl
  | assignToken target token =>
      refine effect_on fun _ _ => ?_
      exact effect_on fun _ _ => .quiet rfl rfl
  | moveToken token => exact effect_on fun _ _ => .quiet rfl rfl
  | moveAssignToken target token =>
      refine effect_on fun _ _ => ?_
      exact effect_on fun _ _ => .quiet rfl rfl
  | destroyToken token => exact effect_on fun _ _ => .quiet rfl rfl
  | isCancelled token => exact effect_on fun _ _ => .quiet rfl rfl

/-! ## Reachable worlds -/

/-- Sources hold states that were made, no two of them the same one. -/
structure Sound (w : World) : Prop where
  made : ∀ n, Held w.sources n → n < w.states.length
  unshared : Unshared w.sources

/-- The world without objects. -/
theorem empty_sound : Sound {} where
  made := by
    rintro n ⟨k, hk⟩
    cases hk
  unshared := by
    intro j k n hj
    cases hj

/-- A new source holds the new state only. -/
theorem held_alloc {sources : List (Option StatePtr)} {fresh n : Nat}
    (h : Held (Slots.alloc sources (some fresh)) n) :
    n = fresh ∨ Held sources n := by
  obtain ⟨k, hk⟩ := h
  rw [Slots.get_alloc] at hk
  by_cases hnew : k = sources.length
  · rw [if_pos hnew] at hk
    cases hk
    exact Or.inl rfl
  · rw [if_neg hnew] at hk
    exact Or.inr ⟨k, hk⟩

/-- A new source holds a state that no other one holds. -/
theorem unshared_alloc {sources : List (Option StatePtr)} {fresh : Nat}
    (hfresh : ¬ Held sources fresh) (h : Unshared sources) :
    Unshared (Slots.alloc sources (some fresh)) := by
  intro j k n hj hk
  rw [Slots.get_alloc] at hj hk
  by_cases hjnew : j = sources.length
  · rw [if_pos hjnew] at hj
    cases hj
    by_cases hknew : k = sources.length
    · rw [hjnew, hknew]
    · rw [if_neg hknew] at hk
      exact (hfresh ⟨k, hk⟩).elim
  · rw [if_neg hjnew] at hj
    by_cases hknew : k = sources.length
    · rw [if_pos hknew] at hk
      cases hk
      exact (hfresh ⟨j, hj⟩).elim
    · rw [if_neg hknew] at hk
      exact h j k n hj hk

/-- **STEP**: every operation keeps the world sound. -/
theorem step_sound (w : World) (action : Action) (h : Sound w) :
    Sound (step w action).2 := by
  have heffect := step_effect w action
  generalize requested w action = request at heffect
  cases heffect with
  | moved hstates hsources =>
      refine ⟨?_, hsources.unshared h.unshared⟩
      intro n hn
      rw [hstates]
      exact h.made n (hsources.held n hn)
  | made hstates hsources =>
      have hlength : (step w action).2.states.length
          = w.states.length + 1 := by
        rw [hstates, List.length_append]
        rfl
      rcases hsources with hsame | hnew
      · refine ⟨?_, hsame ▸ h.unshared⟩
        intro n hn
        rw [hsame] at hn
        have hlt := h.made n hn
        omega
      · constructor
        · intro n hn
          rw [hnew] at hn
          rcases held_alloc hn with rfl | hold
          · omega
          · have hlt := h.made n hold
            omega
        · rw [hnew]
          refine unshared_alloc ?_ h.unshared
          intro hheld
          exact Nat.lt_irrefl _ (h.made _ hheld)
  | set hheld hstates hsources =>
      refine ⟨?_, hsources ▸ h.unshared⟩
      intro n hn
      rw [hsources] at hn
      rw [hstates, List.length_set]
      exact h.made n hn

/-- **RUN**: every reachable world is sound. -/
theorem run_sound (actions : List Action) :
    Sound (finalState step {} actions) :=
  finalState_invariant step_sound empty_sound actions

/-! ## Flags -/

/-- A new state is not cancelled. -/
theorem getD_concat_false (flags : List Bool) (n : Nat) :
    (flags ++ [false]).getD n false = flags.getD n false := by
  rcases Nat.lt_trichotomy n flags.length with hlt | heq | hgt
  · rw [List.getD_append _ _ _ _ hlt]
  · rw [List.getD_append_right _ _ _ _ (Nat.le_of_eq heq.symm),
      List.getD_eq_default _ _ (Nat.le_of_eq heq.symm), heq, Nat.sub_self]
    rfl
  · rw [List.getD_eq_default, List.getD_eq_default _ _ (Nat.le_of_lt hgt)]
    rw [List.length_append, List.length_singleton]
    exact hgt

/-- A request sets one flag. -/
theorem getD_set_true {flags : List Bool} {m : Nat} (hm : m < flags.length)
    (n : Nat) :
    (flags.set m true).getD n false
      = (flags.getD n false || decide (some m = some n)) := by
  rw [List.getD_eq_getElem?_getD, List.getD_eq_getElem?_getD,
    List.getElem?_set]
  by_cases heq : m = n
  · rw [if_pos heq, if_pos hm, decide_eq_true (congrArg some heq),
      Bool.or_true]
    rfl
  · rw [if_neg heq, decide_eq_false fun hc => heq (Option.some.inj hc),
      Bool.or_false]

/-- **ONE FLAG** is set by a request, and none by anything else. -/
theorem flag_step {w : World} (h : Sound w) (action : Action) (n : Nat) :
    flag (step w action).2 n
      = (flag w n || decide (requested w action = some n)) := by
  have heffect := step_effect w action
  rw [flag, flag]
  generalize requested w action = request at heffect ⊢
  cases heffect with
  | moved hstates hsources => rw [hstates]; exact (Bool.or_false _).symm
  | made hstates hsources =>
      rw [hstates, getD_concat_false]
      exact (Bool.or_false _).symm
  | set hheld hstates hsources =>
      rw [hstates]
      exact getD_set_true (h.made _ hheld) n

/-- A request was made through a source that held the state. -/
def RequestedOn (actions : List Action) (n : Nat) : Prop :=
  ∃ before source after,
    actions = before ++ .requestCancel source :: after
      ∧ Slots.get (finalState step {} before).sources source = some (some n)

/-- What the last operation adds to the requests. -/
theorem requestedOn_concat {actions : List Action} {action : Action}
    {n : Nat} :
    RequestedOn (actions ++ [action]) n
      ↔ RequestedOn actions n
        ∨ requested (finalState step {} actions) action = some n := by
  constructor
  · rintro ⟨before, source, after, heq, hheld⟩
    cases after using List.reverseRecOn with
    | nil =>
        obtain ⟨rfl, hlast⟩ := List.append_inj' heq rfl
        cases hlast
        refine Or.inr ?_
        rw [requested, hheld]
        rfl
    | append_singleton after last =>
        rw [← List.cons_append, ← List.append_assoc] at heq
        obtain ⟨rfl, _⟩ := List.append_inj' heq rfl
        exact Or.inl ⟨before, source, after, rfl, hheld⟩
  · rintro (⟨before, source, after, rfl, hheld⟩ | hlast)
    · refine ⟨before, source, after ++ [action], ?_, hheld⟩
      rw [List.append_assoc]
      rfl
    · cases action with
      | requestCancel source =>
          rw [requested, Option.join_eq_some_iff] at hlast
          exact ⟨actions, source, [], rfl, hlast⟩
      | _ => cases hlast

/-- **EXACT**: a flag is set exactly where a request was made. -/
theorem flag_iff_requestedOn (actions : List Action) (n : Nat) :
    flag (finalState step {} actions) n = true ↔ RequestedOn actions n := by
  induction actions using List.reverseRecOn with
  | nil =>
      refine iff_of_false Bool.false_ne_true ?_
      rintro ⟨before, source, after, heq, _⟩
      exact List.append_ne_nil_of_right_ne_nil _ (List.cons_ne_nil _ _)
        heq.symm
  | append_singleton actions action ih =>
      rw [finalState_concat, flag_step (run_sound actions), Bool.or_eq_true,
        ih, decide_eq_true_iff, requestedOn_concat]

/-! ## Answers -/

/-- A request stays made. -/
theorem RequestedOn.append {actions : List Action} {n : Nat}
    (h : RequestedOn actions n) (more : List Action) :
    RequestedOn (actions ++ more) n := by
  obtain ⟨before, source, after, rfl, hheld⟩ := h
  refine ⟨before, source, after ++ more, ?_, hheld⟩
  rw [List.append_assoc, List.cons_append]

/-- A token answers true exactly when it holds a state whose flag is set. -/
theorem answer_iff (w : World) (token : Nat) :
    (step w (.isCancelled token)).1 = .answer true
      ↔ ∃ n, Slots.get w.tokens token = some (some n) ∧ flag w n = true := by
  rw [step, World.act]
  cases hget : Slots.get w.tokens token with
  | none =>
      constructor
      · intro h
        cases h
      · rintro ⟨n, hn, _⟩
        cases hn
  | some held =>
      cases held with
      | none =>
          constructor
          · intro h
            cases h
          · rintro ⟨n, hn, _⟩
            cases hn
      | some n =>
          constructor
          · intro h
            exact ⟨n, rfl, Reply.answer.inj h⟩
          · rintro ⟨m, hm, hflag⟩
            cases hm
            exact congrArg Reply.answer hflag

/-- Only a state that some source holds is requested. -/
theorem held_of_requested {w : World} {action : Action} {n : Nat}
    (h : requested w action = some n) : Held w.sources n := by
  cases action with
  | requestCancel source =>
      rw [requested, Option.join_eq_some_iff] at h
      exact ⟨source, h⟩
  | _ => cases h

/-- **LONE STATES**: what no source holds, no source comes to hold. -/
theorem lone_step {w : World} {n : Nat} (hmade : n < w.states.length)
    (hlone : ¬ Held w.sources n) (action : Action) :
    n < (step w action).2.states.length
      ∧ ¬ Held (step w action).2.sources n := by
  have heffect := step_effect w action
  generalize requested w action = request at heffect
  cases heffect with
  | moved hstates hsources =>
      rw [hstates]
      exact ⟨hmade, fun h => hlone (hsources.held n h)⟩
  | made hstates hsources =>
      rw [hstates, List.length_append]
      refine ⟨Nat.lt_add_right _ hmade, fun h => ?_⟩
      rcases hsources with hsame | hnew
      · rw [hsame] at h
        exact hlone h
      · rw [hnew] at h
        rcases held_alloc h with rfl | hold
        · exact Nat.lt_irrefl _ hmade
        · exact hlone hold
  | set hheld hstates hsources =>
      rw [hstates, hsources, List.length_set]
      exact ⟨hmade, hlone⟩

/-- **RUN**: the state of a token without a source is never requested. -/
theorem lone_run (before after : List Action) :
    let made := (finalState step {} before).states.length
    let w := finalState step {} (before ++ .createToken :: after)
    made < w.states.length ∧ ¬ Held w.sources made
      ∧ ¬ RequestedOn (before ++ .createToken :: after) made := by
  intro made w
  induction after using List.reverseRecOn with
  | nil =>
      have hsound := run_sound before
      refine ⟨?_, ?_, ?_⟩
      · show made < (finalState step {} (before ++ [.createToken])).states.length
        rw [finalState_concat]
        show made < (_ ++ [false]).length
        rw [List.length_append]
        exact Nat.lt_succ_self made
      · intro hheld
        have hheld' : Held
            (finalState step {} (before ++ [.createToken])).sources made := hheld
        rw [finalState_concat] at hheld'
        exact Nat.lt_irrefl _ (hsound.made made hheld')
      · rw [requestedOn_concat]
        rintro (hrequested | hlast)
        · rw [← flag_iff_requestedOn, flag,
            List.getD_eq_default _ _ (Nat.le_refl made)] at hrequested
          cases hrequested
        · cases hlast
  | append_singleton after action ih =>
      obtain ⟨hmade, hlone, hnot⟩ := ih
      have hrun : w = (step (finalState step {}
          (before ++ .createToken :: after)) action).2 := by
        rw [← finalState_concat, List.append_assoc, List.cons_append]
      obtain ⟨hmade', hlone'⟩ := lone_step hmade hlone action
      rw [← hrun] at hmade' hlone'
      refine ⟨hmade', hlone', ?_⟩
      rw [← List.cons_append, ← List.append_assoc, requestedOn_concat]
      rintro (hrequested | hlast)
      · exact hnot hrequested
      · exact hlone (held_of_requested hlast)

/-- **WHAT A TOKEN ANSWERS**, after any interleaving: true exactly when a
    request was made through a source that held its state, and from then on;
    no two sources share a state, and the state of a token made on its own is
    never requested. -/
theorem token_answers (actions : List Action) :
    Unshared (finalState step {} actions).sources
      ∧ (∀ token,
        (step (finalState step {} actions) (.isCancelled token)).1
            = .answer true
          ↔ ∃ n, Slots.get (finalState step {} actions).tokens token
              = some (some n) ∧ RequestedOn actions n)
      ∧ (∀ more token n, RequestedOn actions n →
        Slots.get (finalState step {} (actions ++ more)).tokens token
          = some (some n) →
        (step (finalState step {} (actions ++ more))
          (.isCancelled token)).1 = .answer true)
      ∧ ∀ before after, actions = before ++ .createToken :: after →
        ¬ RequestedOn actions (finalState step {} before).states.length := by
  refine ⟨(run_sound actions).unshared, ?_, ?_, ?_⟩
  · intro token
    simp only [answer_iff, flag_iff_requestedOn]
  · intro more token n hrequested hholds
    rw [answer_iff]
    refine ⟨n, hholds, ?_⟩
    rw [flag_iff_requestedOn]
    exact hrequested.append more
  · rintro before after rfl
    exact (lone_run before after).2.2

end ShiboriCancellationFacts
