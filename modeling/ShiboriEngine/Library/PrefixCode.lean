import Mathlib

/-! # Self-delimiting encodings

    An encoding is self-delimiting on a domain when a value of the domain can
    be cut off the front of a string in one way only.  Fixed widths are
    self-delimiting; concatenation (`append`), a second part that depends on
    the first (`dependent`) and a counted list (`counted`) keep the property,
    so an encoding put together from these is injective by construction. -/

namespace PrefixCode

variable {α β γ δ : Type}

/-- No value of the domain continues another one's encoding. -/
def SelfDelimiting (dom : α → Prop) (encode : α → List δ) : Prop :=
  ∀ ⦃a b : α⦄ ⦃r s : List δ⦄, dom a → dom b →
    encode a ++ r = encode b ++ s → a = b ∧ r = s

namespace SelfDelimiting

/-- A self-delimiting code is injective on its domain. -/
theorem inj {dom : α → Prop} {encode : α → List δ}
    (h : SelfDelimiting dom encode) {a b : α} (ha : dom a) (hb : dom b)
    (heq : encode a = encode b) : a = b :=
  (h ha hb (congrArg (· ++ []) heq)).1

/-- A code stays self-delimiting on a smaller domain. -/
theorem mono {dom dom' : α → Prop} {encode : α → List δ}
    (h : SelfDelimiting dom encode) (hsub : ∀ a, dom' a → dom a) :
    SelfDelimiting dom' encode :=
  fun _ _ _ _ ha hb heq => h (hsub _ ha) (hsub _ hb) heq

/-- An injective encoding of one width. -/
theorem of_width {dom : α → Prop} {encode : α → List δ} (width : Nat)
    (hwidth : ∀ a, dom a → (encode a).length = width)
    (hinj : ∀ a b, dom a → dom b → encode a = encode b → a = b) :
    SelfDelimiting dom encode := by
  intro a b r s ha hb heq
  have hlen : (encode a).length = (encode b).length := by
    rw [hwidth a ha, hwidth b hb]
  obtain ⟨hfront, hrest⟩ := List.append_inj heq hlen
  exact ⟨hinj a b ha hb hfront, hrest⟩

/-- One symbol that tells the values apart. -/
theorem of_symbol {symbol : α → δ} (hinj : Function.Injective symbol) :
    SelfDelimiting (fun _ => True) (fun a => [symbol a]) :=
  of_width 1 (fun _ _ => rfl)
    (fun _ _ _ _ heq => hinj (List.cons.inj heq).1)

/-- Nothing at all, where there is only one value. -/
theorem of_subsingleton {dom : α → Prop} {encode : α → List δ}
    (hnil : ∀ a, dom a → encode a = [])
    (hone : ∀ a b, dom a → dom b → a = b) : SelfDelimiting dom encode :=
  of_width 0 (fun a ha => by rw [hnil a ha]; rfl)
    (fun a b ha hb _ => hone a b ha hb)

/-- Encoding through an injection. -/
theorem comap {dom : α → Prop} {encode : α → List δ}
    (h : SelfDelimiting dom encode) {f : γ → α} {dom' : γ → Prop}
    (hdom : ∀ c, dom' c → dom (f c))
    (hinj : ∀ c c', dom' c → dom' c' → f c = f c' → c = c') :
    SelfDelimiting dom' (fun c => encode (f c)) := by
  intro c c' r s hc hc' heq
  obtain ⟨hf, hrest⟩ := h (hdom c hc) (hdom c' hc') heq
  exact ⟨hinj c c' hc hc' hf, hrest⟩

/-- **DEPENDENT PARTS**: the first part says how the second one is written. -/
theorem dependent {p : α → Prop} {q : α → β → Prop} {f : α → List δ}
    {g : α → β → List δ} (hf : SelfDelimiting p f)
    (hg : ∀ a, p a → SelfDelimiting (q a) (g a)) :
    SelfDelimiting (fun x : α × β => p x.1 ∧ q x.1 x.2)
      (fun x => f x.1 ++ g x.1 x.2) := by
  rintro ⟨a, b⟩ ⟨a', b'⟩ r s ⟨ha, hb⟩ ⟨ha', hb'⟩ heq
  dsimp only at heq
  rw [List.append_assoc, List.append_assoc] at heq
  obtain ⟨rfl, hmore⟩ := hf ha ha' heq
  obtain ⟨rfl, hrest⟩ := hg a ha hb hb' hmore
  exact ⟨rfl, hrest⟩

/-- One part after the other. -/
theorem append {p : α → Prop} {q : β → Prop} {f : α → List δ}
    {g : β → List δ} (hf : SelfDelimiting p f) (hg : SelfDelimiting q g) :
    SelfDelimiting (fun x : α × β => p x.1 ∧ q x.2)
      (fun x => f x.1 ++ g x.2) :=
  dependent hf (fun _ _ => hg)

/-- The values of a list of known length, one after the other. -/
theorem sequence {p : α → Prop} {f : α → List δ} (hf : SelfDelimiting p f)
    (n : Nat) :
    SelfDelimiting (fun xs : List α => xs.length = n ∧ ∀ x ∈ xs, p x)
      (fun xs => xs.flatMap f) := by
  induction n with
  | zero =>
      refine of_subsingleton ?_ ?_
      · rintro xs ⟨hlen, _⟩
        rw [List.length_eq_zero_iff.mp hlen]
        rfl
      · rintro xs ys ⟨hx, _⟩ ⟨hy, _⟩
        rw [List.length_eq_zero_iff.mp hx, List.length_eq_zero_iff.mp hy]
  | succ n ih =>
      rintro xs ys r s ⟨hx, hpx⟩ ⟨hy, hpy⟩ heq
      obtain ⟨x, xs, rfl⟩ := List.exists_cons_of_length_eq_add_one hx
      obtain ⟨y, ys, rfl⟩ := List.exists_cons_of_length_eq_add_one hy
      rw [List.forall_mem_cons] at hpx hpy
      dsimp only at heq
      rw [List.flatMap_cons, List.flatMap_cons, List.append_assoc,
        List.append_assoc] at heq
      obtain ⟨rfl, hmore⟩ := hf hpx.1 hpy.1 heq
      obtain ⟨rfl, hrest⟩ :=
        ih ⟨Nat.succ.inj hx, hpx.2⟩ ⟨Nat.succ.inj hy, hpy.2⟩ hmore
      exact ⟨rfl, hrest⟩

/-- **COUNTED LISTS**: the number of values, then the values. -/
theorem counted {q : Nat → Prop} {count : Nat → List δ} {p : α → Prop}
    {f : α → List δ} (hcount : SelfDelimiting q count)
    (hf : SelfDelimiting p f) :
    SelfDelimiting (fun xs : List α => q xs.length ∧ ∀ x ∈ xs, p x)
      (fun xs => count xs.length ++ xs.flatMap f) := by
  rintro xs ys r s ⟨hqx, hpx⟩ ⟨hqy, hpy⟩ heq
  dsimp only at heq
  rw [List.append_assoc, List.append_assoc] at heq
  obtain ⟨hlen, hmore⟩ := hcount hqx hqy heq
  exact hf.sequence ys.length ⟨hlen, hpx⟩ ⟨rfl, hpy⟩ hmore

/-- A string behind its length. -/
theorem lengthPrefixed {q : Nat → Prop} {count : Nat → List δ}
    (hcount : SelfDelimiting q count) :
    SelfDelimiting (fun xs : List δ => q xs.length)
      (fun xs => count xs.length ++ xs) := by
  have h := counted hcount
    (of_symbol (Function.injective_id : Function.Injective (id : δ → δ)))
  have hflat : ∀ xs : List δ, xs.flatMap (fun x => [id x]) = xs := by
    intro xs
    rw [← List.map_eq_flatMap, List.map_id]
  intro xs ys r s hx hy heq
  refine h ⟨hx, fun _ _ => trivial⟩ ⟨hy, fun _ _ => trivial⟩ ?_
  dsimp only
  rw [hflat, hflat]
  exact heq

end SelfDelimiting

/-! ## Streams -/

/-- No value of the domain can be cut off the front. -/
def Stuck (dom : α → Prop) (encode : α → List δ) (rest : List δ) : Prop :=
  ∀ a, dom a → ¬ encode a <+: rest

/-- A reading of a string: values of the domain, one after the other, and then
    a rest without one. -/
structure Reading (dom : α → Prop) (encode : α → List δ) (string : List δ)
    (values : List α) (rest : List δ) : Prop where
  domain : ∀ a ∈ values, dom a
  string_eq : string = values.flatMap encode ++ rest
  stuck : Stuck dom encode rest

section
variable {dom : α → Prop} {encode : α → List δ}

/-- Where reading is stuck, it is stuck on every prefix. -/
theorem Stuck.of_prefix {rest cut : List δ} (h : Stuck dom encode rest)
    (hcut : cut <+: rest) : Stuck dom encode cut :=
  fun a ha hstart => h a ha (hstart.trans hcut)

/-- Reading is stuck at the end when no encoding is empty. -/
theorem Stuck.nil (hne : ∀ a, dom a → encode a ≠ []) :
    Stuck dom encode [] :=
  fun a ha hstart => hne a ha (List.prefix_nil.mp hstart)

/-- One value more in front. -/
theorem Reading.cons {a : α} {string rest : List δ} {values : List α}
    (ha : dom a) (h : Reading dom encode string values rest) :
    Reading dom encode (encode a ++ string) (a :: values) rest := by
  refine ⟨List.forall_mem_cons.mpr ⟨ha, h.domain⟩, ?_, h.stuck⟩
  rw [h.string_eq, List.flatMap_cons, List.append_assoc]

/-- **ONE READING**: a string is read in one way only. -/
theorem Reading.unique (h : SelfDelimiting dom encode) {string r s : List δ}
    {xs ys : List α} (hx : Reading dom encode string xs r)
    (hy : Reading dom encode string ys s) : xs = ys ∧ r = s := by
  obtain ⟨hxs, hstring, hr⟩ := hx
  obtain ⟨hys, heq, hs⟩ := hy
  rw [hstring] at heq
  clear hstring
  induction xs generalizing ys with
  | nil =>
      cases ys with
      | nil => exact ⟨rfl, heq⟩
      | cons y ys =>
          rw [List.forall_mem_cons] at hys
          rw [List.flatMap_nil, List.nil_append, List.flatMap_cons,
            List.append_assoc] at heq
          exact (hr y hys.1 ⟨_, heq.symm⟩).elim
  | cons x xs ih =>
      rw [List.forall_mem_cons] at hxs
      rw [List.flatMap_cons, List.append_assoc] at heq
      cases ys with
      | nil => exact (hs x hxs.1 ⟨_, heq⟩).elim
      | cons y ys =>
          rw [List.forall_mem_cons] at hys
          rw [List.flatMap_cons, List.append_assoc] at heq
          obtain ⟨rfl, hmore⟩ := h hxs.1 hys.1 heq
          obtain ⟨rfl, hrest⟩ := ih hxs.2 hys.2 hmore
          exact ⟨rfl, hrest⟩

/-- Every string has a reading. -/
theorem exists_reading (hne : ∀ a, dom a → encode a ≠ [])
    (string : List δ) :
    ∃ values rest, Reading dom encode string values rest := by
  induction hlen : string.length using Nat.strongRecOn generalizing string with
  | ind length ih =>
      by_cases hstuck : Stuck dom encode string
      · exact ⟨[], string, fun _ ha => (List.not_mem_nil ha).elim, rfl, hstuck⟩
      · simp only [Stuck, not_forall, not_not] at hstuck
        obtain ⟨a, ha, more, rfl⟩ := hstuck
        have hpos := List.length_pos_of_ne_nil (hne a ha)
        rw [List.length_append] at hlen
        obtain ⟨values, rest, hread⟩ := ih more.length (by omega) more rfl
        exact ⟨a :: values, rest, hread.cons ha⟩

/-- **A CUT**, read in a smaller domain, leaves the first values and a rest
    without one. -/
theorem Reading.cut (h : SelfDelimiting dom encode) {dom' : α → Prop}
    (hsub : ∀ a, dom' a → dom a) {string rest p : List δ} {values : List α}
    (hread : Reading dom encode string values rest) (hp : p <+: string) :
    ∃ n left, Reading dom' encode p (values.take n) left := by
  obtain ⟨hvalues, hstring, hstuck⟩ := hread
  rw [hstring] at hp
  clear hstring
  induction values generalizing p with
  | nil =>
      exact ⟨0, p, fun _ ha => (List.not_mem_nil ha).elim, rfl,
        fun a ha => hstuck.of_prefix hp a (hsub a ha)⟩
  | cons x xs ih =>
      rw [List.forall_mem_cons] at hvalues
      rw [List.flatMap_cons, List.append_assoc] at hp
      by_cases hwhole : dom' x ∧ encode x <+: p
      · obtain ⟨hx, more, rfl⟩ := hwhole
        rw [List.prefix_append_right_inj] at hp
        obtain ⟨n, left, hmore⟩ := ih hp hvalues.2
        exact ⟨n + 1, left, hmore.cons hx⟩
      -- the first value is cut, or outside the smaller domain
      · refine ⟨0, p, fun _ ha => (List.not_mem_nil ha).elim, rfl, ?_⟩
        intro a ha hstart
        obtain ⟨t, ht⟩ := hstart.trans hp
        obtain ⟨rfl, _⟩ := h (hsub a ha) hvalues.1 ht
        exact hwhole ⟨ha, hstart⟩

/-- **TWO READERS** of one string: one of them reads what the other one reads
    first. -/
theorem Reading.comparable (h : SelfDelimiting dom encode)
    (hne : ∀ a, dom a → encode a ≠ []) {dom₁ dom₂ : α → Prop}
    (hsub₁ : ∀ a, dom₁ a → dom a) (hsub₂ : ∀ a, dom₂ a → dom a)
    {string r s : List δ} {xs ys : List α}
    (hx : Reading dom₁ encode string xs r)
    (hy : Reading dom₂ encode string ys s) : xs <+: ys ∨ ys <+: xs := by
  obtain ⟨values, rest, hread⟩ := exists_reading hne string
  obtain ⟨n, _, hn⟩ := hread.cut h hsub₁ List.prefix_rfl
  obtain ⟨m, _, hm⟩ := hread.cut h hsub₂ List.prefix_rfl
  obtain ⟨rfl, _⟩ := hx.unique (h.mono hsub₁) hn
  obtain ⟨rfl, _⟩ := hy.unique (h.mono hsub₂) hm
  exact List.prefix_or_prefix_of_prefix (List.take_prefix n values)
    (List.take_prefix m values)

end

end PrefixCode
