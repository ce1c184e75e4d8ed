import Mathlib

/-! # Spans of a list — reading, overwriting and comparing by position

    A span is a run of consecutive positions.  `subspan` reads one,
    `overwrite` replaces one (growing the list when it runs over the end), and
    `DiffersWithin` says that two lists of one length agree outside a window.
    Lists are cut into consecutive fields with `subspan_eq_append_iff`, and a
    windowed difference is exposed by `DiffersWithin.split`.  `pieces` cuts a
    list at given positions; cuts in order lose and repeat nothing, and
    `boundaries` recovers them. -/

namespace Spans

variable {α : Type}

/-- `count` elements from position `offset` on. -/
def subspan (xs : List α) (offset count : Nat) : List α :=
  (xs.drop offset).take count

/-- Replace the elements from position `offset` on by `ys`. -/
def overwrite (xs : List α) (offset : Nat) (ys : List α) : List α :=
  xs.take offset ++ ys ++ xs.drop (offset + ys.length)

/-! ## Reading -/

/-- A span from the start is a prefix. -/
theorem subspan_zero (xs : List α) (count : Nat) :
    subspan xs 0 count = xs.take count := rfl

/-- A span within the list has its length. -/
theorem subspan_length {xs : List α} {offset count : Nat}
    (h : offset + count ≤ xs.length) : (subspan xs offset count).length = count := by
  rw [subspan, List.length_take, List.length_drop]
  omega

/-- A span inside a prefix is a span of the prefix. -/
theorem subspan_take {xs : List α} {offset count n : Nat}
    (h : offset + count ≤ n) :
    subspan (xs.take n) offset count = subspan xs offset count := by
  rw [subspan, subspan, List.drop_take, List.take_take,
    Nat.min_eq_left (Nat.le_sub_of_add_le' h)]

/-- One field after another. -/
theorem subspan_add (xs : List α) (offset a b : Nat) :
    subspan xs offset (a + b) = subspan xs offset a ++ subspan xs (offset + a) b := by
  rw [subspan, subspan, subspan, List.take_add, List.drop_drop]

/-- **FIELDS**: a span is a concatenation exactly when its parts are the
    consecutive shorter spans. -/
theorem subspan_eq_append_iff {xs ys zs : List α} {offset a b : Nat}
    (hlen : ys.length = a) :
    subspan xs offset (a + b) = ys ++ zs
      ↔ subspan xs offset a = ys ∧ subspan xs (offset + a) b = zs := by
  constructor
  · intro h
    have htake := congrArg (List.take a) h
    have hdrop := congrArg (List.drop a) h
    rw [List.take_left' hlen] at htake
    rw [List.drop_left' hlen] at hdrop
    constructor
    · rw [← htake, subspan, subspan, List.take_take,
        Nat.min_eq_left (Nat.le_add_right a b)]
    · rw [← hdrop, subspan, subspan, List.drop_take, List.drop_drop,
        Nat.add_sub_cancel_left]
  · rintro ⟨rfl, rfl⟩
    exact subspan_add xs offset a b

/-- A span of one element is that element. -/
theorem subspan_one (xs : List α) (offset : Nat) (h : offset < xs.length) :
    subspan xs offset 1 = [xs[offset]] := by
  rw [subspan, List.drop_eq_getElem_cons h]
  rfl

/-- A span reads the list from its offset. -/
theorem subspan_getElem? {xs : List α} {offset count i : Nat}
    (h : i < count) : (subspan xs offset count)[i]? = xs[offset + i]? := by
  rw [subspan, List.getElem?_take_of_lt h, List.getElem?_drop]

/-! ## Overwriting -/

/-- Writing nothing changes nothing. -/
@[simp] theorem overwrite_nil (xs : List α) (offset : Nat) :
    overwrite xs offset [] = xs := by
  rw [overwrite, List.append_nil, List.length_nil, Nat.add_zero,
    List.take_append_drop]

/-- Writing within the list grows it to the end of what is written. -/
theorem overwrite_length {xs ys : List α} {offset : Nat}
    (h : offset ≤ xs.length) :
    (overwrite xs offset ys).length = max xs.length (offset + ys.length) := by
  rw [overwrite, List.length_append, List.length_append, List.length_take,
    List.length_drop]
  omega

/-- An overwrite never shortens a list. -/
theorem le_overwrite_length (xs ys : List α) (offset : Nat) :
    xs.length ≤ (overwrite xs offset ys).length := by
  rw [overwrite, List.length_append, List.length_append, List.length_take,
    List.length_drop]
  omega

/-- The elements before the span stay. -/
theorem overwrite_take {xs ys : List α} {offset : Nat}
    (h : offset ≤ xs.length) :
    (overwrite xs offset ys).take offset = xs.take offset := by
  rw [overwrite, List.append_assoc,
    List.take_left' (List.length_take_of_le h)]

/-- The span now holds the new elements. -/
theorem overwrite_subspan {xs ys : List α} {offset : Nat}
    (h : offset ≤ xs.length) :
    subspan (overwrite xs offset ys) offset ys.length = ys := by
  rw [subspan, overwrite, List.append_assoc,
    List.drop_left' (List.length_take_of_le h), List.take_left]

/-- The elements after the span stay. -/
theorem overwrite_drop {xs ys : List α} {offset : Nat}
    (h : offset ≤ xs.length) :
    (overwrite xs offset ys).drop (offset + ys.length)
      = xs.drop (offset + ys.length) := by
  have hlen : (xs.take offset ++ ys).length = offset + ys.length := by
    rw [List.length_append, List.length_take_of_le h]
  rw [overwrite, List.drop_left' hlen]

/-- Writing at the end appends. -/
theorem overwrite_end (xs ys : List α) :
    overwrite xs xs.length ys = xs ++ ys := by
  rw [overwrite, List.take_length, List.drop_of_length_le
    (Nat.le_add_right _ _), List.append_nil]

/-- An element of the span is the new one. -/
theorem overwrite_getElem?_inside {xs ys : List α} {offset i : Nat}
    (h : offset ≤ xs.length) (hi : i < ys.length) :
    (overwrite xs offset ys)[offset + i]? = ys[i]? := by
  rw [← subspan_getElem? hi, overwrite_subspan h]

/-- An element outside the span is the old one. -/
theorem overwrite_getElem?_outside {xs ys : List α} {offset i : Nat}
    (h : offset ≤ xs.length) (hi : i < offset ∨ offset + ys.length ≤ i) :
    (overwrite xs offset ys)[i]? = xs[i]? := by
  rcases hi with hbefore | hafter
  · rw [← List.getElem?_take_of_lt hbefore, overwrite_take h,
      List.getElem?_take_of_lt hbefore]
  · obtain ⟨rest, rfl⟩ := Nat.exists_eq_add_of_le hafter
    rw [← List.getElem?_drop, overwrite_drop h, List.getElem?_drop]

/-- Elements added at the end are lost to an overwrite that covers them. -/
theorem overwrite_append_covered {xs ys zs : List α} {offset : Nat}
    (h : offset ≤ xs.length)
    (hcover : xs.length + zs.length ≤ offset + ys.length) :
    overwrite (xs ++ zs) offset ys = overwrite xs offset ys := by
  rw [overwrite, overwrite, List.take_append_of_le_length h,
    List.drop_eq_nil_of_le (by rw [List.length_append]; exact hcover),
    List.drop_eq_nil_of_le (by omega)]

/-- **CHUNKS**: two overwrites in a row are one. -/
theorem overwrite_append {xs ys zs : List α} {offset : Nat}
    (h : offset ≤ xs.length) :
    overwrite (overwrite xs offset ys) (offset + ys.length) zs
      = overwrite xs offset (ys ++ zs) := by
  have hlen : (xs.take offset ++ ys).length = offset + ys.length := by
    rw [List.length_append, List.length_take_of_le h]
  have hdrop : (overwrite xs offset ys).drop (offset + ys.length + zs.length)
      = xs.drop (offset + ys.length + zs.length) := by
    rw [← List.drop_drop, overwrite_drop h, List.drop_drop]
  have htake : (overwrite xs offset ys).take (offset + ys.length)
      = xs.take offset ++ ys := by
    rw [overwrite, List.take_left' hlen]
  rw [overwrite, htake, hdrop, overwrite, List.length_append,
    ← List.append_assoc, Nat.add_assoc]

/-! ## Cutting -/

/-- The spans between neighbouring cuts. -/
def pieces (xs : List α) : List Nat → List (List α)
  | first :: next :: cuts =>
      subspan xs first (next - first) :: pieces xs (next :: cuts)
  | _ => []

/-- One piece fewer than cuts. -/
theorem pieces_length (xs : List α) (cuts : List Nat) :
    (pieces xs cuts).length = cuts.length - 1 := by
  induction cuts with
  | nil => rfl
  | cons first cuts ih =>
      cases cuts with
      | nil => rfl
      | cons next cuts =>
          rw [pieces, List.length_cons, ih]
          rfl

/-- A piece lies between two neighbouring cuts. -/
theorem pieces_getElem? (xs : List α) {cuts : List Nat} {i : Nat}
    (h : i + 1 < cuts.length) :
    (pieces xs cuts)[i]? = some (subspan xs cuts[i] (cuts[i + 1] - cuts[i])) := by
  induction cuts generalizing i with
  | nil => exact nomatch h
  | cons first cuts ih =>
      cases cuts with
      | nil =>
          rw [List.length_singleton] at h
          omega
      | cons next cuts =>
          cases i with
          | zero => rfl
          | succ i => exact ih (Nat.lt_of_succ_lt_succ h)

/-- Cuts in order stay below the last one. -/
theorem cut_le_last {first last : Nat} {cuts : List Nat}
    (hordered : (first :: cuts).IsChain (· ≤ ·))
    (hlast : (first :: cuts).getLast? = some last) :
    ∀ cut ∈ first :: cuts, cut ≤ last := by
  induction cuts generalizing first with
  | nil =>
      intro cut hcut
      rw [List.mem_singleton.mp hcut]
      exact Nat.le_of_eq (Option.some.inj hlast)
  | cons next cuts ih =>
      obtain ⟨hfirst, hrest⟩ := List.isChain_cons_cons.mp hordered
      rw [List.getLast?_cons_cons] at hlast
      have hbelow := ih hrest hlast
      intro cut hcut
      rcases List.mem_cons.mp hcut with rfl | hcut
      · exact Nat.le_trans hfirst (hbelow next List.mem_cons_self)
      · exact hbelow cut hcut

/-- **PARTITION**: the pieces between cuts in order are, one after another,
    the span from the first cut to the last. -/
theorem flatten_pieces (xs : List α) {first last : Nat} {cuts : List Nat}
    (hordered : (first :: cuts).IsChain (· ≤ ·))
    (hlast : (first :: cuts).getLast? = some last) :
    (pieces xs (first :: cuts)).flatten = subspan xs first (last - first) := by
  induction cuts generalizing first with
  | nil =>
      have heq : first = last := Option.some.inj hlast
      rw [heq, Nat.sub_self]
      rfl
  | cons next cuts ih =>
      have hbelow := cut_le_last hordered hlast next
        (List.mem_cons_of_mem _ List.mem_cons_self)
      obtain ⟨hfirst, hrest⟩ := List.isChain_cons_cons.mp hordered
      rw [List.getLast?_cons_cons] at hlast
      have hsplit : last - first = (next - first) + (last - next) := by omega
      have hnext : first + (next - first) = next := Nat.add_sub_cancel' hfirst
      rw [pieces, List.flatten_cons, ih hrest hlast, hsplit, subspan_add, hnext]

/-! ## Cutting into equal pieces -/

/-- The first `count` pieces of `width` elements. -/
def chunks (width : Nat) : Nat → List α → List (List α)
  | 0, _ => []
  | count + 1, xs => xs.take width :: chunks width count (xs.drop width)

/-- As many chunks as were asked for. -/
@[simp] theorem chunks_length (width count : Nat) (xs : List α) :
    (chunks width count xs).length = count := by
  induction count generalizing xs with
  | zero => rfl
  | succ count ih => rw [chunks, List.length_cons, ih]

/-- Equal pieces of a list that is long enough. -/
theorem chunks_spec {width count : Nat} {xs : List α}
    (h : xs.length = count * width) :
    (chunks width count xs).flatten = xs
      ∧ ∀ piece ∈ chunks width count xs, piece.length = width := by
  induction count generalizing xs with
  | zero =>
      rw [Nat.zero_mul] at h
      rw [List.length_eq_zero_iff.mp h]
      exact ⟨rfl, nofun⟩
  | succ count ih =>
      rw [Nat.succ_mul] at h
      have hrest : (xs.drop width).length = count * width := by
        rw [List.length_drop]
        omega
      obtain ⟨hflatten, hlengths⟩ := ih hrest
      rw [chunks, List.flatten_cons, hflatten, List.take_append_drop]
      refine ⟨rfl, ?_⟩
      intro piece hpiece
      rcases List.mem_cons.mp hpiece with rfl | hpiece
      · rw [List.length_take]
        omega
      · exact hlengths piece hpiece

/-- **EQUAL PIECES** laid end to end are cut apart again. -/
theorem chunks_flatten {width : Nat} {pieces : List (List α)}
    (h : ∀ piece ∈ pieces, piece.length = width) :
    chunks width pieces.length pieces.flatten = pieces := by
  induction pieces with
  | nil => rfl
  | cons piece pieces ih =>
      obtain ⟨hpiece, hpieces⟩ := List.forall_mem_cons.mp h
      rw [List.length_cons, List.flatten_cons, chunks, List.take_left' hpiece,
        List.drop_left' hpiece, ih hpieces]

/-- Pieces of one width take their number times the width. -/
theorem length_flatten_of_forall {width : Nat} {pieces : List (List α)}
    (h : ∀ piece ∈ pieces, piece.length = width) :
    pieces.flatten.length = pieces.length * width := by
  induction pieces with
  | nil => exact (Nat.zero_mul width).symm
  | cons piece pieces ih =>
      obtain ⟨hpiece, hpieces⟩ := List.forall_mem_cons.mp h
      rw [List.flatten_cons, List.length_append, hpiece, ih hpieces,
        List.length_cons, Nat.succ_mul, Nat.add_comm]

/-! ## Laying pieces end to end -/

/-- Where the pieces begin and the last one ends, the first one beginning at
    `start`. -/
def boundaries (start : Nat) : List (List α) → List Nat
  | [] => [start]
  | piece :: pieces => start :: boundaries (start + piece.length) pieces

/-- One boundary more than pieces. -/
@[simp] theorem boundaries_length (start : Nat) (pieces : List (List α)) :
    (boundaries start pieces).length = pieces.length + 1 := by
  induction pieces generalizing start with
  | nil => rfl
  | cons piece pieces ih => rw [boundaries, List.length_cons, ih]; rfl

/-- The first boundary is the start. -/
theorem boundaries_eq_cons (start : Nat) (pieces : List (List α)) :
    ∃ cuts, boundaries start pieces = start :: cuts := by
  cases pieces with
  | nil => exact ⟨[], rfl⟩
  | cons piece pieces => exact ⟨_, rfl⟩

/-- Boundaries never go back. -/
theorem boundaries_isChain (start : Nat) (pieces : List (List α)) :
    (boundaries start pieces).IsChain (· ≤ ·) := by
  induction pieces generalizing start with
  | nil => exact List.IsChain.singleton start
  | cons piece pieces ih =>
      have hrest := ih (start + piece.length)
      obtain ⟨cuts, hcuts⟩ := boundaries_eq_cons (start + piece.length) pieces
      rw [boundaries]
      rw [hcuts] at hrest ⊢
      exact List.isChain_cons_cons.mpr ⟨Nat.le_add_right _ _, hrest⟩

/-- The last boundary is where the pieces end. -/
theorem boundaries_getLast? (start : Nat) (pieces : List (List α)) :
    (boundaries start pieces).getLast?
      = some (start + pieces.flatten.length) := by
  induction pieces generalizing start with
  | nil => rfl
  | cons piece pieces ih =>
      have hrest := ih (start + piece.length)
      obtain ⟨cuts, hcuts⟩ := boundaries_eq_cons (start + piece.length) pieces
      rw [boundaries]
      rw [hcuts] at hrest ⊢
      rw [List.getLast?_cons_cons, hrest, List.flatten_cons,
        List.length_append, Nat.add_assoc]

/-- Each piece lies between its boundary and the next. -/
theorem boundaries_getElem? {start i : Nat} {ps : List (List α)}
    {piece : List α} (h : ps[i]? = some piece) :
    ∃ cut, (boundaries start ps)[i]? = some cut
      ∧ (boundaries start ps)[i + 1]? = some (cut + piece.length) := by
  induction ps generalizing start i with
  | nil => cases h
  | cons first ps ih =>
      cases i with
      | zero =>
          cases h
          obtain ⟨cuts, hcuts⟩ :=
            boundaries_eq_cons (start + piece.length) ps
          refine ⟨start, rfl, ?_⟩
          rw [boundaries, List.getElem?_cons_succ, hcuts]
          rfl
      | succ i => exact ih h

/-- **CUTTING UNDOES LAYING**: cut at their boundaries, the pieces come
    back. -/
theorem pieces_boundaries (before : List α) (ps : List (List α)) :
    pieces (before ++ ps.flatten) (boundaries before.length ps) = ps := by
  induction ps generalizing before with
  | nil => rfl
  | cons piece ps ih =>
      have hrest := ih (before ++ piece)
      rw [List.length_append, List.append_assoc] at hrest
      obtain ⟨cuts, hcuts⟩ :=
        boundaries_eq_cons (before.length + piece.length) ps
      rw [boundaries, List.flatten_cons]
      rw [hcuts] at hrest ⊢
      rw [pieces, hrest, Nat.add_sub_cancel_left, subspan,
        List.drop_left, List.take_left]

/-- **LAYING UNDOES CUTTING**: cuts in order are the boundaries of the pieces
    they make. -/
theorem boundaries_pieces {xs : List α} {first last : Nat} {cuts : List Nat}
    (hordered : (first :: cuts).IsChain (· ≤ ·))
    (hlast : (first :: cuts).getLast? = some last) (hle : last ≤ xs.length) :
    boundaries first (pieces xs (first :: cuts)) = first :: cuts := by
  induction cuts generalizing first with
  | nil => rfl
  | cons next cuts ih =>
      have hbelow := cut_le_last hordered hlast next
        (List.mem_cons_of_mem _ List.mem_cons_self)
      obtain ⟨hfirst, hrest⟩ := List.isChain_cons_cons.mp hordered
      rw [List.getLast?_cons_cons] at hlast
      have hlen : (subspan xs first (next - first)).length = next - first :=
        subspan_length (by omega)
      rw [pieces, boundaries, hlen, Nat.add_sub_cancel' hfirst,
        ih hrest hlast]

/-! ## Windowed differences -/

/-- Two lists of one length that differ, and only at positions of one window
    of `width` consecutive positions. -/
structure DiffersWithin (width : Nat) (xs ys : List α) : Prop where
  length_eq : xs.length = ys.length
  ne : xs ≠ ys
  window : ∃ start, ∀ i, xs[i]? ≠ ys[i]? → start ≤ i ∧ i < start + width

/-- To differ within a window is symmetric. -/
theorem DiffersWithin.symm {width : Nat} {xs ys : List α}
    (h : DiffersWithin width xs ys) : DiffersWithin width ys xs := by
  obtain ⟨start, hwin⟩ := h.window
  exact ⟨h.length_eq.symm, h.ne.symm, start, fun i hi => hwin i hi.symm⟩

/-- A wider window covers a narrower one. -/
theorem DiffersWithin.mono {width width' : Nat} {xs ys : List α}
    (h : DiffersWithin width xs ys) (hle : width ≤ width') :
    DiffersWithin width' xs ys := by
  obtain ⟨start, hwin⟩ := h.window
  refine ⟨h.length_eq, h.ne, start, ?_⟩
  intro i hi
  obtain ⟨hlow, hhigh⟩ := hwin i hi
  exact ⟨hlow, by omega⟩

/-- Lists that fit into the window differ within it. -/
theorem DiffersWithin.of_length_le {width : Nat} {xs ys : List α}
    (hlen : xs.length = ys.length) (hle : xs.length ≤ width) (hne : xs ≠ ys) :
    DiffersWithin width xs ys := by
  refine ⟨hlen, hne, 0, ?_⟩
  intro i hi
  refine ⟨Nat.zero_le i, ?_⟩
  by_contra hge
  rw [List.getElem?_eq_none (by omega), List.getElem?_eq_none (by omega)] at hi
  exact hi rfl

/-- A common start moves the window. -/
theorem DiffersWithin.append_left {width : Nat} {xs ys : List α}
    (before : List α) (h : DiffersWithin width xs ys) :
    DiffersWithin width (before ++ xs) (before ++ ys) := by
  obtain ⟨start, hwin⟩ := h.window
  refine ⟨?_, fun heq => h.ne (List.append_cancel_left heq),
    before.length + start, ?_⟩
  · rw [List.length_append, List.length_append, h.length_eq]
  · intro i hi
    rcases Nat.lt_or_ge i before.length with hin | hout
    · rw [List.getElem?_append_left hin, List.getElem?_append_left hin] at hi
      exact (hi rfl).elim
    · rw [List.getElem?_append_right hout, List.getElem?_append_right hout]
        at hi
      obtain ⟨hlow, hhigh⟩ := hwin _ hi
      omega

/-- A common end does not matter. -/
theorem DiffersWithin.append_right {width : Nat} {xs ys : List α}
    (h : DiffersWithin width xs ys) (after : List α) :
    DiffersWithin width (xs ++ after) (ys ++ after) := by
  obtain ⟨start, hwin⟩ := h.window
  refine ⟨?_, fun heq => h.ne (List.append_cancel_right heq), start, ?_⟩
  · rw [List.length_append, List.length_append, h.length_eq]
  · intro i hi
    refine hwin i ?_
    rcases Nat.lt_or_ge i xs.length with hin | hout
    · rw [List.getElem?_append_left hin,
        List.getElem?_append_left (h.length_eq ▸ hin)] at hi
      exact hi
    · rw [List.getElem?_append_right hout,
        List.getElem?_append_right (h.length_eq ▸ hout), h.length_eq] at hi
      exact (hi rfl).elim

/-- **SPLITTING** at the window: a common start, two different middles no
    longer than the window, a common end. -/
theorem DiffersWithin.split {width : Nat} {xs ys : List α}
    (h : DiffersWithin width xs ys) :
    ∃ before us vs after, xs = before ++ us ++ after
      ∧ ys = before ++ vs ++ after ∧ us.length = vs.length
      ∧ us.length ≤ width ∧ us ≠ vs := by
  obtain ⟨start, hwin⟩ := h.window
  have hbefore : xs.take start = ys.take start := by
    apply List.ext_getElem?
    intro i
    rw [List.getElem?_take, List.getElem?_take]
    by_cases hi : i < start
    · rw [if_pos hi, if_pos hi]
      by_contra hne
      exact absurd (hwin i hne).1 (by omega)
    · rw [if_neg hi, if_neg hi]
  have hafter : xs.drop (start + width) = ys.drop (start + width) := by
    apply List.ext_getElem?
    intro i
    rw [List.getElem?_drop, List.getElem?_drop]
    by_contra hne
    exact absurd (hwin _ hne).2 (by omega)
  have hcut : ∀ zs : List α,
      zs = zs.take start ++ subspan zs start width ++ zs.drop (start + width) := by
    intro zs
    rw [subspan, List.append_assoc, ← List.drop_drop, List.take_append_drop,
      List.take_append_drop]
  refine ⟨xs.take start, subspan xs start width, subspan ys start width,
    xs.drop (start + width), hcut xs, ?_, ?_, ?_, ?_⟩
  · rw [hbefore, hafter]
    exact hcut ys
  · rw [subspan, subspan, List.length_take, List.length_take, List.length_drop,
      List.length_drop, h.length_eq]
  · rw [subspan, List.length_take]
    exact Nat.min_le_left _ _
  · intro hmid
    refine h.ne ?_
    rw [hcut xs, hcut ys, hbefore, hafter, hmid]

/-- Starts of one length that differ, differ within the window too. -/
theorem DiffersWithin.of_starts {width : Nat} {xs ys us vs : List α}
    (hlen : xs.length = ys.length) (hne : xs ≠ ys)
    (h : DiffersWithin width (xs ++ us) (ys ++ vs)) :
    DiffersWithin width xs ys := by
  obtain ⟨start, hwin⟩ := h.window
  refine ⟨hlen, hne, start, ?_⟩
  intro i hi
  refine hwin i ?_
  have hlt : i < xs.length := by
    by_contra hge
    rw [List.getElem?_eq_none (by omega), List.getElem?_eq_none (by omega)] at hi
    exact hi rfl
  rw [List.getElem?_append_left hlt, List.getElem?_append_left (hlen ▸ hlt)]
  exact hi

/-- A difference inside a prefix that both lists share the rest of. -/
theorem DiffersWithin.of_append {width : Nat} {xs ys zs : List α}
    (hlen : xs.length = ys.length)
    (h : DiffersWithin width (xs ++ zs) (ys ++ zs)) :
    DiffersWithin width xs ys :=
  h.of_starts hlen fun heq => h.ne (by rw [heq])

end Spans
