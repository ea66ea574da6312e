import Mathlib.Data.List.Basic

/-!
# A heap of strings

Objects are strings over an alphabet, addressed in order of allocation; a
pointer is an address with an offset into the object. `store` overwrites part
of one object in place and never changes an object's length. The frame lemmas
say what a store or an allocation leaves alone.
-/

namespace ObjectHeap

variable {α : Type*}

abbrev Heap (α : Type*) := List (List α)

abbrev Addr := ℕ

/-- A position inside an object. -/
structure Ptr where
  obj : Addr
  off : ℕ

/-- The string at an address. -/
def contents (σ : Heap α) (a : Addr) : List α := σ.getD a []

/-- A fresh object. -/
def alloc (σ : Heap α) (xs : List α) : Addr × Heap α := (σ.length, σ ++ [xs])

/-- `xs` with `ys` written over it from position `off`. -/
def splice (xs : List α) (off : ℕ) (ys : List α) : List α := xs.take off ++ ys ++ xs.drop (off + ys.length)

/-- The `n` letters at a pointer. -/
def load (σ : Heap α) (p : Ptr) (n : ℕ) : List α := ((contents σ p.obj).drop p.off).take n

/-- Write `ys` at a pointer. -/
def store (σ : Heap α) (p : Ptr) (ys : List α) : Heap α := σ.set p.obj (splice (contents σ p.obj) p.off ys)

/-! ## Strings -/

/-- The written part reads back. -/
theorem drop_take_splice {xs : List α} {off : ℕ} {ys : List α} (fits : off + ys.length ≤ xs.length) :
    ((splice xs off ys).drop off).take ys.length = ys := by
  have front : (xs.take off).length = off := by
    rw [List.length_take]
    omega
  rw [splice, List.append_assoc, List.drop_append, List.drop_eq_nil_of_le (by omega), front, Nat.sub_self,
    List.drop_zero, List.nil_append, List.take_append_of_le_length (Nat.le_refl _), List.take_length]

/-- Writing back what is there changes nothing. -/
theorem splice_self (xs : List α) (off n : ℕ) (fits : off + n ≤ xs.length) :
    splice xs off ((xs.drop off).take n) = xs := by
  have len : ((xs.drop off).take n).length = n := by
    rw [List.length_take, List.length_drop]
    omega
  rw [splice, len, List.append_assoc, ← List.drop_drop, List.take_append_drop, List.take_append_drop]

/-! ## Heaps -/

@[simp] theorem contents_alloc_new (σ : Heap α) (xs : List α) :
    contents (alloc σ xs).2 (alloc σ xs).1 = xs := by
  simp [contents, alloc]

/-- Allocation leaves live objects alone. -/
theorem contents_alloc_old {σ : Heap α} {a : Addr} (live : a < σ.length) (xs : List α) :
    contents (alloc σ xs).2 a = contents σ a := by
  simp [contents, alloc, List.getElem?_append_left live]

theorem contents_store_self {σ : Heap α} {p : Ptr} (live : p.obj < σ.length) (ys : List α) :
    contents (store σ p ys) p.obj = splice (contents σ p.obj) p.off ys := by
  simp [contents, store, live]

@[simp] theorem length_store (σ : Heap α) (p : Ptr) (ys : List α) : (store σ p ys).length = σ.length := by
  simp [store]

/-- An object with contents is live. -/
theorem live_of_contents {σ : Heap α} {a : Addr} (content : contents σ a ≠ []) : a < σ.length := by
  by_contra dead
  apply content
  simp [contents, List.getElem?_eq_none (Nat.le_of_not_lt dead)]

/-- An empty fresh object is no different from none. -/
theorem contents_alloc_nil (σ : Heap α) (a : Addr) : contents (alloc σ []).2 a = contents σ a := by
  by_cases live : a < σ.length
  · exact contents_alloc_old live []
  · have none : contents σ a = [] := by
      by_contra some
      exact live (live_of_contents some)
    rw [none]
    by_cases fresh : a = σ.length
    · subst fresh
      exact contents_alloc_new σ []
    · by_contra some
      have bound := live_of_contents some
      simp only [alloc, List.length_append, List.length_singleton] at bound
      exact fresh (Nat.le_antisymm (Nat.le_of_lt_succ bound) (Nat.le_of_not_lt live))

end ObjectHeap
