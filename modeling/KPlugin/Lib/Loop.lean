import Mathlib.Tactic.Ring

/-!
# Counted loops

`forRange n body s` is `for (i = 0; i < n; i++) s = body(i, s)`. The rules below
split a loop, cut it into blocks of equal length, carry a relation between two loops of the
same length, and undo it by counting down.
-/

namespace Loop

variable {σ τ : Type*}

/-- `for (i = 0; i < n; i++) s = body i s`. -/
def forRange : ℕ → (ℕ → σ → σ) → σ → σ
  | 0, _, s => s
  | n + 1, body, s => body n (forRange n body s)

/-- The loop with a body that may fail. -/
def forRangeM.{u, v} {m : Type u → Type v} [Monad m] {σ : Type u} : ℕ → (ℕ → σ → m σ) → σ → m σ
  | 0, _, s => pure s
  | n + 1, body, s => do
    let s ← forRangeM n body s
    body n s

@[simp] theorem forRange_zero (body : ℕ → σ → σ) (s : σ) : forRange 0 body s = s := rfl

theorem forRange_succ (n : ℕ) (body : ℕ → σ → σ) (s : σ) :
    forRange (n + 1) body s = body n (forRange n body s) := rfl

/-- A loop is its first `m` iterations followed by the rest. -/
theorem forRange_add (m n : ℕ) (body : ℕ → σ → σ) (s : σ) :
    forRange (m + n) body s = forRange n (fun i => body (m + i)) (forRange m body s) := by
  induction n with
  | zero => rfl
  | succ n ih => rw [← Nat.add_assoc, forRange_succ, ih, forRange_succ]

/-- **Unrolling**: `n * k` iterations are `n` blocks of `k`. -/
theorem forRange_mul (n k : ℕ) (body : ℕ → σ → σ) (s : σ) :
    forRange (n * k) body s = forRange n (fun i => forRange k (fun j => body (i * k + j))) s := by
  induction n with
  | zero => simp
  | succ n ih =>
    have split : (n + 1) * k = n * k + k := by ring
    rw [split, forRange_add, ih, forRange_succ]

/-- **Simulation**: bodies that keep a relation give loops that keep it. -/
theorem forRange_simulates {R : σ → τ → Prop} {f : ℕ → σ → σ} {g : ℕ → τ → τ}
    (step : ∀ i s t, R s t → R (f i s) (g i t)) (n : ℕ) {s : σ} {t : τ} (start : R s t) :
    R (forRange n f s) (forRange n g t) := by
  induction n with
  | zero => exact start
  | succ n ih => exact step n _ _ ih

/-- `for (i = n; i-- > 0;) s = body i s`. -/
def forRangeDown : ℕ → (ℕ → σ → σ) → σ → σ
  | 0, _, s => s
  | n + 1, body, s => forRangeDown n body (body n s)

/-- Counting down with left inverses of the bodies undoes the loop. -/
theorem forRangeDown_leftInverse {f g : ℕ → σ → σ} (inverse : ∀ i, Function.LeftInverse (g i) (f i)) (n : ℕ) :
    Function.LeftInverse (forRangeDown n g) (forRange n f) := by
  intro s
  induction n with
  | zero => rfl
  | succ n ih => rw [forRange_succ, forRangeDown, inverse n, ih]

/-- Counting down with right inverses is undone by the loop. -/
theorem forRangeDown_rightInverse {f g : ℕ → σ → σ} (inverse : ∀ i, Function.RightInverse (g i) (f i)) (n : ℕ) :
    Function.RightInverse (forRangeDown n g) (forRange n f) := by
  intro s
  induction n generalizing s with
  | zero => rfl
  | succ n ih => rw [forRange_succ, forRangeDown, ih, inverse n]

/-! ## Loops over a list -/

section
universe u
variable {α : Type*} {ε σ : Type u} {step : σ → α → Except ε σ} {bad : α → Prop} {kind : ε → Prop}

/-- **A loop fails when an item does**, if whether an item fails does not depend on the state. -/
theorem foldlM_error_iff
    (step_cases : ∀ s x, (bad x ∧ ∃ e, step s x = .error e ∧ kind e) ∨ (¬ bad x ∧ ∃ s', step s x = .ok s'))
    (xs : List α) (s : σ) : (∃ e, xs.foldlM step s = .error e ∧ kind e) ↔ ∃ x ∈ xs, bad x := by
  induction xs generalizing s with
  | nil =>
    constructor
    · rintro ⟨e, failed, -⟩
      cases failed
    · rintro ⟨x, member, -⟩
      cases member
  | cons x xs ih =>
    rw [List.foldlM_cons]
    rcases step_cases s x with ⟨isBad, e, failed, same⟩ | ⟨isGood, s', run⟩
    · refine iff_of_true ⟨e, ?_, same⟩ ⟨x, List.mem_cons_self, isBad⟩
      rw [failed]
      rfl
    · have rest : (∃ y ∈ x :: xs, bad y) ↔ ∃ y ∈ xs, bad y := by
        constructor
        · rintro ⟨y, member, isBad'⟩
          rcases List.mem_cons.mp member with rfl | later
          · exact absurd isBad' isGood
          · exact ⟨y, later, isBad'⟩
        · rintro ⟨y, member, isBad'⟩
          exact ⟨y, List.mem_cons_of_mem x member, isBad'⟩
      rw [rest, ← ih s', run]
      rfl

end

end Loop
