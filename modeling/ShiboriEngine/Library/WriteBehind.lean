import Mathlib
import ShiboriEngine.Library.Spans

/-! # Writing behind a store

    A buffer accepts elements for a span of a store and passes them on later,
    a first part at a time; an error may lose what it still has.  `holds` is
    the store as it will be when everything got through.  `Moves` says what
    accepting, passing on and losing come to, however they are mixed: a first
    part of the elements got through, and a first part of those is kept. -/

namespace WriteBehind

open Spans

variable {α : Type}

/-- `pending` goes to the store from position `start` on. -/
structure Buffer (α : Type) where
  stored : List α
  start : Nat := 0
  pending : List α := []
deriving DecidableEq, Repr

namespace Buffer

/-- The store when everything pending got through. -/
def holds (b : Buffer α) : List α := overwrite b.stored b.start b.pending

/-- The position of the next element to be accepted. -/
def offset (b : Buffer α) : Nat := b.start + b.pending.length

/-- Accept elements. -/
def put (b : Buffer α) (xs : List α) : Buffer α :=
  { b with pending := b.pending ++ xs }

/-- Pass on the first `n` pending elements. -/
def drain (b : Buffer α) (n : Nat) : Buffer α where
  stored := overwrite b.stored b.start (b.pending.take n)
  start := b.start + min n b.pending.length
  pending := b.pending.drop n

/-- Pass on everything. -/
def flush (b : Buffer α) : Buffer α := b.drain b.pending.length

/-- Lose what is pending. -/
def discard (b : Buffer α) : Buffer α := { b with pending := [] }

/-- Go on at another position. -/
def moveTo (b : Buffer α) (offset : Nat) : Buffer α := { b with start := offset }

/-- The pending elements leave no gap behind the store. -/
def Placed (b : Buffer α) : Prop := b.start ≤ b.stored.length

end Buffer

open Buffer

/-- **WHAT A BUFFER DID** with the elements ahead, those pending before first:
    `m` of them got through, and of the first `l` the others are pending. -/
structure Moves (b after : Buffer α) (ahead : List α) (m l : Nat) : Prop where
  order : m ≤ l
  taken : l ≤ ahead.length
  stored : after.stored = overwrite b.stored b.start (ahead.take m)
  start : after.start = b.start + m
  pending : after.pending = (ahead.take l).drop m

section
variable {b after last : Buffer α} {ahead data : List α} {m l : Nat}

/-- Nothing needs to move. -/
theorem Moves.refl (b : Buffer α) (data : List α) :
    Moves b b (b.pending ++ data) 0 b.pending.length where
  order := Nat.zero_le _
  taken := by
    rw [List.length_append]
    omega
  stored := by rw [List.take_zero, overwrite_nil]
  start := rfl
  pending := by rw [List.take_left, List.drop_zero]

/-- Passing on a first part. -/
theorem moves_drain (b : Buffer α) (n : Nat) :
    Moves b (b.drain n) b.pending (min n b.pending.length) b.pending.length
    where
  order := Nat.min_le_right _ _
  taken := Nat.le_refl _
  stored := by
    show overwrite b.stored b.start (b.pending.take n) = _
    rcases Nat.le_total n b.pending.length with hle | hge
    · rw [Nat.min_eq_left hle]
    · rw [Nat.min_eq_right hge, List.take_length, List.take_of_length_le hge]
  start := rfl
  pending := by
    show b.pending.drop n = _
    rw [List.take_length]
    rcases Nat.le_total n b.pending.length with hle | hge
    · rw [Nat.min_eq_left hle]
    · rw [Nat.min_eq_right hge, List.drop_length, List.drop_eq_nil_of_le hge]

/-- More data may be ahead than was moved. -/
theorem Moves.append (h : Moves b after ahead m l) (more : List α) :
    Moves b after (ahead ++ more) m l where
  order := h.order
  taken := by
    have htaken := h.taken
    rw [List.length_append]
    omega
  stored := by
    rw [List.take_append_of_le_length (Nat.le_trans h.order h.taken)]
    exact h.stored
  start := h.start
  pending := by
    rw [List.take_append_of_le_length h.taken]
    exact h.pending

/-- Accepting a first part of the data and passing on a first part. -/
theorem moves_put_drain (b : Buffer α) {k : Nat} (hk : k ≤ data.length)
    (n : Nat) :
    Moves b ((b.put (data.take k)).drain n) (b.pending ++ data)
      (min n (b.pending.length + k)) (b.pending.length + k) := by
  have hput := moves_drain (b.put (data.take k)) n
  have hlength : (b.put (data.take k)).pending.length
      = b.pending.length + k := by
    rw [Buffer.put, List.length_append, List.length_take_of_le hk]
  rw [hlength] at hput
  -- accepting changes neither the store nor where it goes on
  have hmoves : Moves b ((b.put (data.take k)).drain n)
      (b.pending ++ data.take k) (min n (b.pending.length + k))
      (b.pending.length + k) :=
    ⟨hput.order, hput.taken, hput.stored, hput.start, hput.pending⟩
  have hmore := hmoves.append (data.drop k)
  rw [List.append_assoc, List.take_append_drop] at hmore
  exact hmore

/-- Losing what is pending. -/
theorem Moves.discard (h : Moves b after ahead m l) :
    Moves b after.discard ahead m m where
  order := Nat.le_refl m
  taken := Nat.le_trans h.order h.taken
  stored := h.stored
  start := h.start
  pending := by
    rw [List.drop_eq_nil_of_le (List.length_take_le m ahead)]
    rfl

/-- Passing on everything changes neither what it will hold nor where it
    goes on, and leaves nothing pending. -/
theorem flush_spec (b : Buffer α) :
    b.flush.holds = b.holds ∧ b.flush.offset = b.offset
      ∧ b.flush.stored = b.holds ∧ b.flush.pending = [] := by
  have hstored : b.flush.stored = b.holds := by
    show overwrite b.stored b.start (b.pending.take b.pending.length) = _
    rw [List.take_length, Buffer.holds]
  have hpending : b.flush.pending = [] := List.drop_length
  refine ⟨?_, ?_, hstored, hpending⟩
  · rw [Buffer.holds, hpending, overwrite_nil, hstored]
  · rw [Buffer.offset, hpending]
    show b.start + min b.pending.length b.pending.length + 0 = _
    rw [Nat.min_self, Nat.add_zero, Buffer.offset]

/-- Moving keeps the buffer within its store. -/
theorem Moves.placed (h : Moves b after ahead m l) (hplaced : b.Placed) :
    after.Placed := by
  have hlength := List.length_take_of_le (Nat.le_trans h.order h.taken)
  show after.start ≤ after.stored.length
  rw [h.start, h.stored, overwrite_length hplaced, hlength]
  exact Nat.le_max_right _ _

/-- **ONE AFTER THE OTHER**: what is still ahead is what did not get through,
    unless it was lost. -/
theorem Moves.trans (hplaced : b.Placed) (h : Moves b after ahead m l)
    {m' l' : Nat}
    (h' : Moves after last (after.pending ++ ahead.drop l) m' l') :
    Moves b last ahead (m + m') (m + l') := by
  have horder := h.order
  have htaken := h.taken
  have hlength : (ahead.take m).length = m :=
    List.length_take_of_le (Nat.le_trans horder htaken)
  have hahead : after.pending ++ ahead.drop l = ahead.drop m := by
    rw [h.pending, List.drop_take]
    have hdrop : ahead.drop l = (ahead.drop m).drop (l - m) := by
      rw [List.drop_drop, Nat.add_sub_cancel' horder]
    rw [hdrop, List.take_append_drop]
  rw [hahead] at h'
  have htaken' := h'.taken
  rw [List.length_drop] at htaken'
  refine ⟨Nat.add_le_add_left h'.order m, by omega, ?_, ?_, ?_⟩
  · have hboth : overwrite (overwrite b.stored b.start (ahead.take m))
        (b.start + (ahead.take m).length) ((ahead.drop m).take m') = _ :=
      overwrite_append hplaced
    rw [hlength] at hboth
    rw [h'.stored, h.stored, h.start, hboth, List.take_add]
  · rw [h'.start, h.start, Nat.add_assoc]
  · have hcut : (ahead.take (m + l')).drop m = (ahead.drop m).take l' := by
      rw [List.drop_take, Nat.add_sub_cancel_left]
    rw [h'.pending, ← List.drop_drop, hcut]

/-- **WHAT IT WILL HOLD**: the elements that got through or are pending. -/
theorem Moves.holds (h : Moves b after ahead m l) (hplaced : b.Placed) :
    after.holds = overwrite b.stored b.start (ahead.take l) := by
  have hlength := List.length_take_of_le (Nat.le_trans h.order h.taken)
  have hboth : overwrite (overwrite b.stored b.start (ahead.take m))
      (b.start + (ahead.take m).length) ((ahead.take l).drop m) = _ :=
    overwrite_append hplaced
  have hsplit : ahead.take m ++ (ahead.take l).drop m = ahead.take l := by
    have hfront := List.take_append_drop m (ahead.take l)
    rw [List.take_take, Nat.min_eq_left h.order] at hfront
    exact hfront
  rw [hlength, hsplit] at hboth
  rw [Buffer.holds, h.stored, h.start, h.pending, hboth]

/-- **NOTHING LOST**: as if the first `k` elements were in the store. -/
theorem Moves.holds_append {k : Nat}
    (h : Moves b after (b.pending ++ data) m (b.pending.length + k))
    (hplaced : b.Placed) :
    after.holds = overwrite b.holds b.offset (data.take k)
      ∧ after.offset = b.offset + k := by
  have hholds := h.holds hplaced
  rw [List.take_length_add_append] at hholds
  constructor
  · rw [hholds, Buffer.holds, Buffer.offset]
    exact (overwrite_append hplaced).symm
  · have horder := h.order
    have htaken := h.taken
    rw [Buffer.offset, Buffer.offset, h.start, h.pending, List.length_drop,
      List.length_take_of_le htaken]
    omega

/-- An element outside the span of the data is in the store what it was there,
    or what it was to become. -/
theorem Moves.stored_or_holds (h : Moves b after (b.pending ++ data) m l)
    (hplaced : b.Placed) {i : Nat}
    (hi : ¬ (b.offset ≤ i ∧ i < b.offset + data.length)) :
    after.stored[i]? = b.stored[i]? ∨ after.stored[i]? = b.holds[i]? := by
  have hlength := List.length_take_of_le (Nat.le_trans h.order h.taken)
  have horder := h.order
  have htaken := h.taken
  rw [List.length_append] at htaken
  rw [Buffer.offset] at hi
  by_cases hinside : b.start ≤ i ∧ i < b.start + m
  · obtain ⟨j, rfl⟩ := Nat.exists_eq_add_of_le hinside.1
    have hpending : j < b.pending.length := by omega
    have hmoved : j < ((b.pending ++ data).take m).length := by omega
    refine Or.inr ?_
    rw [h.stored, overwrite_getElem?_inside hplaced hmoved, Buffer.holds,
      overwrite_getElem?_inside hplaced hpending,
      List.getElem?_take_of_lt (by omega),
      List.getElem?_append_left hpending]
  · refine Or.inl ?_
    rw [h.stored]
    refine overwrite_getElem?_outside hplaced ?_
    omega

/-! ## Behind the end -/

/-- The buffer goes on where the store ends, up to `whole`. -/
structure Ends (b : Buffer α) (whole : List α) : Prop where
  start : b.start = b.stored.length
  whole : b.stored ++ b.pending = whole

/-- What a buffer at the end of its store holds. -/
theorem Ends.holds {whole : List α} (h : Ends b whole) :
    b.holds = whole ∧ b.offset = whole.length := by
  rw [Buffer.holds, Buffer.offset, h.start, overwrite_end, h.whole, ← h.whole,
    List.length_append]
  exact ⟨rfl, rfl⟩

/-- Behind the end the store only grows. -/
theorem Moves.ends (h : Moves b after ahead m l)
    (hends : b.start = b.stored.length) :
    after.stored = b.stored ++ ahead.take m
      ∧ Ends after (b.stored ++ ahead.take l) := by
  have hstored := h.stored
  rw [hends, overwrite_end] at hstored
  have hfront : (ahead.take l).take m = ahead.take m := by
    rw [List.take_take, Nat.min_eq_left h.order]
  refine ⟨hstored, ?_, ?_⟩
  · rw [h.start, hends, hstored, List.length_append,
      List.length_take_of_le (Nat.le_trans h.order h.taken)]
  · rw [hstored, h.pending, List.append_assoc, ← hfront,
      List.take_append_drop]

end

end WriteBehind
