import Mathlib.Data.List.GetD
import Mathlib.Tactic.ByContra

/-!
# Ring buffers

`N` cells hold the `size` letters starting at `head`, wrapping around at the end.
Letters are appended as one run of free cells after the last one and taken off
at `head`. The lemmas say what both do to the queue; they need the run to stay
inside the array and the letters to fit.
-/

namespace RingBuffer

variable {α : Type*}

/-- The queue held in the ring. -/
def contents (N : ℕ) (buf : ℕ → α) (head size : ℕ) : List α := (List.range size).map fun i => buf ((head + i) % N)

/-- Write a run of letters from cell `start`. -/
def writeAt (buf : ℕ → α) (start : ℕ) (xs : List α) : ℕ → α :=
  fun k => if start ≤ k then xs.getD (k - start) (buf k) else buf k

@[simp] theorem length_contents (N : ℕ) (buf : ℕ → α) (head size : ℕ) : (contents N buf head size).length = size := by
  rw [contents, List.length_map, List.length_range]

@[simp] theorem contents_zero (N : ℕ) (buf : ℕ → α) (head : ℕ) : contents N buf head 0 = [] := rfl

/-- The letter at `head` is the first of the queue. -/
theorem contents_succ {N head : ℕ} (inside : head < N) (buf : ℕ → α) (size : ℕ) :
    contents N buf head (size + 1) = buf head :: contents N buf ((head + 1) % N) size := by
  have next : ∀ i, (head + (i + 1)) % N = ((head + 1) % N + i) % N := by
    intro i
    rw [Nat.mod_add_mod]
    congr 1
    omega
  rw [contents, List.range_succ_eq_map, List.map_cons, List.map_map, Nat.add_zero, Nat.mod_eq_of_lt inside, contents]
  congr 1
  apply List.map_congr_left
  intro i _
  exact congrArg buf (next i)

theorem writeAt_inside (buf : ℕ → α) {start : ℕ} {xs : List α} {i : ℕ} (lt : i < xs.length) :
    writeAt buf start xs (start + i) = xs.get ⟨i, lt⟩ := by
  rw [writeAt, if_pos (Nat.le_add_right start i), Nat.add_sub_cancel_left, List.getD_eq_getElem _ _ lt]
  rfl

theorem writeAt_outside (buf : ℕ → α) {start : ℕ} {xs : List α} {k : ℕ} (off : k < start ∨ start + xs.length ≤ k) :
    writeAt buf start xs k = buf k := by
  rcases off with before | after
  · rw [writeAt, if_neg (Nat.not_le.mpr before)]
  · rw [writeAt, if_pos (by omega), List.getD_eq_default _ _ (by omega)]

/-- An occupied cell is none of the free ones. -/
theorem occupied_not_free {N : ℕ} (head : ℕ) {size i j : ℕ} (occupied : i < size) (fits : size + j < N) :
    (head + i) % N ≠ (head + size + j) % N := by
  intro same
  have gap := Nat.sub_mod_eq_zero_of_mod_eq same.symm
  rw [Nat.mod_eq_of_lt (by omega)] at gap
  omega

/-- **Filling appends.** -/
theorem contents_writeAt {N head size : ℕ} {xs : List α} (buf : ℕ → α) (fits : size + xs.length ≤ N)
    (flat : (head + size) % N + xs.length ≤ N) :
    contents N (writeAt buf ((head + size) % N) xs) head (size + xs.length) = contents N buf head size ++ xs := by
  have old : ∀ i, i < size → writeAt buf ((head + size) % N) xs ((head + i) % N) = buf ((head + i) % N) := by
    intro i occupied
    apply writeAt_outside
    by_contra within
    have bounds : (head + size) % N ≤ (head + i) % N ∧ (head + i) % N < (head + size) % N + xs.length := by omega
    obtain ⟨j, offset⟩ := Nat.exists_eq_add_of_le bounds.1
    have small : j < xs.length := by omega
    have free : (head + size + j) % N = (head + size) % N + j := by
      rw [Nat.add_mod_eq_add_mod_right j (Nat.mod_mod (head + size) N).symm, Nat.mod_eq_of_lt (by omega)]
    exact occupied_not_free head occupied (show size + j < N by omega) (by rw [free, offset])
  have new : ∀ j (lt : j < xs.length),
      writeAt buf ((head + size) % N) xs ((head + (size + j)) % N) = xs.get ⟨j, lt⟩ := by
    intro j lt
    have free : (head + (size + j)) % N = (head + size) % N + j := by
      rw [← Nat.add_assoc, Nat.add_mod_eq_add_mod_right j (Nat.mod_mod (head + size) N).symm,
        Nat.mod_eq_of_lt (by omega)]
    rw [free, writeAt_inside buf lt]
  apply List.ext_getElem
  · simp
  · intro i h1 h2
    rw [length_contents] at h1
    by_cases occupied : i < size
    · rw [List.getElem_append_left (by simpa using occupied)]
      simp only [contents, List.getElem_map, List.getElem_range]
      exact old i occupied
    · obtain ⟨j, rfl⟩ := Nat.exists_eq_add_of_le (Nat.le_of_not_lt occupied)
      rw [List.getElem_append_right (by simp)]
      simp only [contents, List.getElem_map, List.getElem_range, List.length_map, List.length_range,
        Nat.add_sub_cancel_left]
      exact new j (by omega)

end RingBuffer
