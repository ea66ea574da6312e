import Mathlib.Data.List.TakeDrop

/-!
# Buffered output

A sink collects items in a buffer of `N` and hands the buffer to a device when one
more item would not fit. However the items come, after a last flush the device has
got them cut into full buffers and a rest (`Delivered`). The second half is about a
device that may take a part of what it is handed, or nothing: what it has in the
end is all of the text exactly when it takes every request whole.
-/

namespace BufferedSink

variable {α σ : Type*}

/-- A buffer in front of a device. -/
structure Sink (α σ : Type*) where
  buffer : List α
  device : σ

section
variable (N : ℕ) (write : σ → List α → σ)

/-- Hand the buffer to the device. -/
def flush (s : Sink α σ) : Sink α σ := ⟨[], write s.device s.buffer⟩

/-- Put one item, once there is room for it. -/
def put (s : Sink α σ) (a : α) : Sink α σ :=
  let s := if s.buffer.length = N then flush write s else s
  { s with buffer := s.buffer ++ [a] }

def putAll (s : Sink α σ) (xs : List α) : Sink α σ := xs.foldl (put N write) s

/-- The device goes from one state to another on a text cut into full buffers and a
rest, which is empty only when the text is. -/
inductive Delivered : List α → σ → σ → Prop where
  | last {xs : List α} (d : σ) (fits : xs.length ≤ N) : Delivered xs d (write d xs)
  | more {c xs : List α} {d d' : σ} (full : c.length = N) (nonempty : xs ≠ []) (rest : Delivered xs (write d c) d') :
      Delivered (c ++ xs) d d'

end

section
variable {N : ℕ} {write : σ → List α → σ}

theorem putAll_append (s : Sink α σ) (xs ys : List α) :
    putAll N write s (xs ++ ys) = putAll N write (putAll N write s xs) ys :=
  List.foldl_append

variable (write) in
/-- **A buffer delivers its text** in the order of the puts, each item once. -/
theorem flush_putAll (pos : 0 < N) (s : Sink α σ) (xs : List α) (room : s.buffer.length ≤ N) :
    Delivered N write (s.buffer ++ xs) s.device (flush write (putAll N write s xs)).device := by
  induction xs generalizing s with
  | nil =>
    rw [List.append_nil]
    exact .last _ room
  | cons a xs ih =>
    by_cases full : s.buffer.length = N
    · have next : putAll N write s (a :: xs) = putAll N write ⟨[a], write s.device s.buffer⟩ xs := by
        rw [putAll, List.foldl_cons, put, if_pos full]
        rfl
      rw [next]
      exact .more full (List.cons_ne_nil _ _) (ih ⟨[a], _⟩ pos)
    · have next : putAll N write s (a :: xs) = putAll N write ⟨s.buffer ++ [a], s.device⟩ xs := by
        rw [putAll, List.foldl_cons, put, if_neg full]
        rfl
      have room : (s.buffer ++ [a]).length ≤ N := by
        rw [List.length_append, List.length_singleton]
        omega
      have along := ih ⟨s.buffer ++ [a], s.device⟩ room
      rw [List.append_assoc] at along
      rw [next]
      exact along

end

/-! ## A device that takes a part -/

/-- What the calls of a device return: how many items it takes, from one up to all,
or that it fails. -/
structure Schedule where
  result : ℕ → ℕ → Option ℕ
  le : ∀ {i n k : ℕ}, result i n = some k → k ≤ n
  pos : ∀ {i n k : ℕ}, result i n = some k → 0 < n → 0 < k

/-- A device: the calls made, and the items it took. -/
structure Device (α : Type*) where
  calls : ℕ
  accepted : List α

namespace Schedule
variable (w : Schedule)

/-- What call `i` takes of a request. -/
def taken (i : ℕ) (c : List α) : List α := c.take ((w.result i c.length).getD 0)

/-- One call, whose result nobody looks at. -/
def write (d : Device α) (c : List α) : Device α := ⟨d.calls + 1, d.accepted ++ w.taken d.calls c⟩

theorem length_taken_le (i : ℕ) (c : List α) : (w.taken i c).length ≤ c.length := by
  rw [taken, List.length_take]
  exact Nat.min_le_right _ _

/-- A request is taken whole when the call says so. -/
theorem taken_eq_iff {i : ℕ} {c : List α} (nonempty : c ≠ []) :
    w.taken i c = c ↔ w.result i c.length = some c.length := by
  have filled := List.length_pos_iff.mpr nonempty
  rw [taken, List.take_eq_self_iff]
  cases result : w.result i c.length with
  | none =>
    rw [Option.getD_none]
    exact iff_of_false (by omega) nofun
  | some k =>
    have bound := w.le result
    rw [Option.getD_some, Option.some.injEq]
    omega

/-- Nothing of it is taken when the call fails. -/
theorem taken_eq_nil_iff {i : ℕ} {c : List α} (nonempty : c ≠ []) :
    w.taken i c = [] ↔ w.result i c.length = none := by
  have filled := List.length_pos_iff.mpr nonempty
  rw [taken, List.take_eq_nil_iff, or_iff_left nonempty]
  cases result : w.result i c.length with
  | none => exact iff_of_true rfl rfl
  | some k =>
    have bound := w.pos result filled
    rw [Option.getD_some]
    exact iff_of_false (by omega) nofun

end Schedule

/-! ## All requests of a text -/

/-- Every request in which a text of length `n` is handed on, the first of them call
`first`, has the property. -/
def EachRequest (N n first : ℕ) (P : ℕ → ℕ → Prop) : Prop :=
  ∀ i, i * N < n → P (first + i) (min N (n - i * N))

section
variable {N n first : ℕ} {P : ℕ → ℕ → Prop}

theorem eachRequest_last (filled : 0 < n) (fits : n ≤ N) : EachRequest N n first P ↔ P first n := by
  have size : min N (n - 0 * N) = n := by omega
  constructor
  · intro each
    have here := each 0 (by omega)
    rwa [size] at here
  · intro here i inside
    cases i with
    | zero => rwa [size]
    | succ i =>
      rw [Nat.succ_mul] at inside
      omega

theorem eachRequest_more (filled : 0 < n) :
    EachRequest N (N + n) first P ↔ P first N ∧ EachRequest N n (first + 1) P := by
  have here : min N (N + n - 0 * N) = N := by omega
  have there : ∀ i, min N (N + n - (i + 1) * N) = min N (n - i * N) := by
    intro i
    rw [Nat.succ_mul]
    omega
  constructor
  · intro each
    refine ⟨?_, fun i inside => ?_⟩
    · have now := each 0 (by omega)
      rwa [here] at now
    · have later := each (i + 1) (by rw [Nat.succ_mul]; omega)
      rwa [there, show first + (i + 1) = first + 1 + i by omega] at later
  · rintro ⟨now, later⟩ i inside
    cases i with
    | zero => rwa [here]
    | succ i =>
      rw [there, show first + (i + 1) = first + 1 + i by omega]
      rw [Nat.succ_mul] at inside
      exact later i (by omega)

end

section
variable {N : ℕ} {w : Schedule} {xs : List α} {d d' : Device α}

/-- What the device took stays in order, and is no more than the text. -/
theorem Delivered.accepted (delivered : Delivered N w.write xs d d') :
    ∃ out, d'.accepted = d.accepted ++ out ∧ out.length ≤ xs.length := by
  induction delivered with
  | last d fits => exact ⟨_, rfl, w.length_taken_le _ _⟩
  | more full nonempty rest ih =>
    obtain ⟨out, took, short⟩ := ih
    refine ⟨_ ++ out, by rw [took]; exact List.append_assoc _ _ _, ?_⟩
    rw [List.length_append, List.length_append]
    exact Nat.add_le_add (w.length_taken_le _ _) short

/-- **The whole text arrives** exactly when every request is taken whole. -/
theorem Delivered.accepted_eq_iff (pos : 0 < N) (delivered : Delivered N w.write xs d d') :
    d'.accepted = d.accepted ++ xs ↔ EachRequest N xs.length d.calls fun i n => w.result i n = some n := by
  induction delivered with
  | @last xs d fits =>
    rw [Schedule.write, List.append_right_inj]
    by_cases nonempty : xs = []
    · subst nonempty
      exact iff_of_true (List.take_nil ..) fun i inside => absurd inside (Nat.not_lt_zero _)
    · rw [w.taken_eq_iff nonempty, eachRequest_last (List.length_pos_iff.mpr nonempty) fits]
  | @more c xs d d' full nonempty rest ih =>
    subst full
    have whole := w.taken_eq_iff (i := d.calls) (List.length_pos_iff.mp pos)
    rw [List.length_append, eachRequest_more (List.length_pos_iff.mpr nonempty), ← whole]
    obtain ⟨out, took, short⟩ := rest.accepted
    constructor
    · intro all
      rw [took, Schedule.write, List.append_assoc, List.append_right_inj] at all
      -- neither part is longer than its piece of the text, so both have its length
      have lengths := congrArg List.length all
      rw [List.length_append, List.length_append] at lengths
      have bound := w.length_taken_le d.calls c
      obtain ⟨first, later⟩ := List.append_inj all (by omega)
      exact ⟨first, ih.mp (by rw [took, later])⟩
    · rintro ⟨first, later⟩
      rw [ih.mpr later, Schedule.write, first, List.append_assoc]

/-- **Nothing arrives** exactly when every request fails. -/
theorem Delivered.accepted_eq_self_iff (pos : 0 < N) (delivered : Delivered N w.write xs d d') :
    d'.accepted = d.accepted ↔ EachRequest N xs.length d.calls fun i n => w.result i n = none := by
  induction delivered with
  | @last xs d fits =>
    rw [Schedule.write, List.append_right_eq_self]
    by_cases nonempty : xs = []
    · subst nonempty
      exact iff_of_true (List.take_nil ..) fun i inside => absurd inside (Nat.not_lt_zero _)
    · rw [w.taken_eq_nil_iff nonempty, eachRequest_last (List.length_pos_iff.mpr nonempty) fits]
  | @more c xs d d' full nonempty rest ih =>
    subst full
    have failed := w.taken_eq_nil_iff (i := d.calls) (List.length_pos_iff.mp pos)
    rw [List.length_append, eachRequest_more (List.length_pos_iff.mpr nonempty), ← failed]
    refine Iff.trans ?_ (and_congr_right fun _ => ih)
    obtain ⟨out, took, -⟩ := rest.accepted
    rw [took, List.append_right_eq_self, Schedule.write, List.append_assoc, List.append_right_eq_self,
      List.append_eq_nil_iff]

end

end BufferedSink
