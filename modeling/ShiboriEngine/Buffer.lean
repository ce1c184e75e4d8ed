import Mathlib

/-! # Sized buffers

    A vector, a span or a string of the engine: its elements and the fact that
    `std::size_t` counts them.  Byte strings are ordered as `std::string`
    orders them, byte by byte. -/

namespace ShiboriBuffer

/-- A vector whose length fits `size_t`. -/
structure Buffer (α : Type) where
  elems : List α
  size_lt : elems.length < 2 ^ 64
deriving DecidableEq

namespace Buffer

variable {α : Type}

/-- A buffer is its elements. -/
@[ext] theorem ext {a b : Buffer α} (h : a.elems = b.elems) : a = b := by
  cases a
  cases b
  cases h
  rfl

/-- No elements. -/
def empty : Buffer α where
  elems := []
  size_lt := Nat.two_pow_pos 64

/-- One element. -/
def singleton (elem : α) : Buffer α where
  elems := [elem]
  size_lt := by
    rw [List.length_singleton]
    decide

/-- The number of elements as a `size_t`. -/
def size (self : Buffer α) : UInt64 := UInt64.ofNat self.elems.length

/-- The number of elements fits the word. -/
@[simp] theorem size_toNat (self : Buffer α) :
    self.size.toNat = self.elems.length :=
  UInt64.toNat_ofNat_of_lt' self.size_lt

instance : Ord (Buffer UInt8) := ⟨compareOn elems⟩

instance : Std.TransOrd (Buffer UInt8) :=
  inferInstanceAs (Std.TransCmp (compareOn (elems : Buffer UInt8 → _)))

instance : Std.LawfulEqOrd (Buffer UInt8) where
  eq_of_compare h := ext (Std.LawfulEqOrd.eq_of_compare h)

end Buffer

/-- A byte string. -/
abbrev Bytes := Buffer UInt8

end ShiboriBuffer
