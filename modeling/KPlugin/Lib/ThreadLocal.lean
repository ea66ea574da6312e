import Mathlib.Logic.Function.Basic

/-!
# Threads with a state of their own

A call reads and changes the state of the thread it is made on and no other; it
answers, or it ends the process. However the calls of several threads are
interleaved, each thread is answered as if it were alone, and the process survives
exactly when each of them alone would.
-/

namespace ThreadLocal

variable {ι σ α β ω : Type*} (step : σ → α → Option (ω × σ))

/-- The calls of one thread, each with its answer. -/
def alone : σ → List α → Option (List (α × ω))
  | _, [] => some []
  | s, a :: calls =>
    match step s a with
    | none => none
    | some (o, t) => (alone t calls).map ((a, o) :: ·)

variable [DecidableEq ι]

/-- The calls of all threads in the order they are made. -/
def interleaved : (ι → σ) → List (ι × α) → Option (List (ι × α × ω))
  | _, [] => some []
  | s, (i, a) :: calls =>
    match step (s i) a with
    | none => none
    | some (o, t) => (interleaved (Function.update s i t) calls).map ((i, a, o) :: ·)

/-- What concerns one thread. -/
def own (i : ι) (log : List (ι × β)) : List β := (log.filter fun entry => entry.1 = i).map Prod.snd

theorem own_cons_self (i : ι) (b : β) (log : List (ι × β)) : own i ((i, b) :: log) = b :: own i log := by
  rw [own, List.filter_cons_of_pos (p := fun entry : ι × β => entry.1 = i) (decide_eq_true rfl)]
  rfl

theorem own_cons_of_ne {i j : ι} (other : j ≠ i) (b : β) (log : List (ι × β)) : own i ((j, b) :: log) = own i log := by
  rw [own, List.filter_cons_of_neg (p := fun entry : ι × β => entry.1 = i) (by simpa using other)]
  rfl

variable {step}

theorem alone_cons {s t : σ} {a : α} {o : ω} (answers : step s a = some (o, t)) (calls : List α) :
    alone step s (a :: calls) = (alone step t calls).map ((a, o) :: ·) := by
  rw [alone, answers]

theorem interleaved_cons {s : ι → σ} {t : σ} {i : ι} {a : α} {o : ω} (answers : step (s i) a = some (o, t))
    (calls : List (ι × α)) :
    interleaved step s ((i, a) :: calls) =
      (interleaved step (Function.update s i t) calls).map ((i, a, o) :: ·) := by
  rw [interleaved, answers]

/-- **Each thread is answered as if it were alone.** -/
theorem alone_own {s : ι → σ} {calls : List (ι × α)} {log : List (ι × α × ω)}
    (ran : interleaved step s calls = some log) (i : ι) : alone step (s i) (own i calls) = some (own i log) := by
  induction calls generalizing s log with
  | nil =>
    cases ran
    rfl
  | cons call calls ih =>
    obtain ⟨j, a⟩ := call
    cases answer : step (s j) a with
    | none =>
      rw [interleaved, answer] at ran
      cases ran
    | some p =>
      obtain ⟨o, t⟩ := p
      rw [interleaved_cons answer, Option.map_eq_some_iff] at ran
      obtain ⟨later, ran, rfl⟩ := ran
      have rest := ih ran
      by_cases here : j = i
      · subst here
        rw [Function.update_self] at rest
        rw [own_cons_self, own_cons_self, alone_cons answer, rest, Option.map_some]
      · rw [Function.update_of_ne (Ne.symm here)] at rest
        rw [own_cons_of_ne here, own_cons_of_ne here, rest]

/-- **The process survives** exactly when no thread alone would end it. -/
theorem interleaved_isSome_iff (s : ι → σ) (calls : List (ι × α)) :
    (interleaved step s calls).isSome ↔ ∀ i, (alone step (s i) (own i calls)).isSome := by
  constructor
  · intro survives i
    obtain ⟨log, ran⟩ := Option.isSome_iff_exists.mp survives
    rw [alone_own ran i]
    rfl
  · intro survive
    induction calls generalizing s with
    | nil => rfl
    | cons call calls ih =>
      obtain ⟨j, a⟩ := call
      cases answer : step (s j) a with
      | none =>
        have ends := survive j
        rw [own_cons_self, alone, answer] at ends
        cases ends
      | some p =>
        obtain ⟨o, t⟩ := p
        rw [interleaved_cons answer, Option.isSome_map]
        refine ih _ fun i => ?_
        have mine := survive i
        by_cases here : j = i
        · subst here
          rw [own_cons_self, alone_cons answer, Option.isSome_map] at mine
          rwa [Function.update_self]
        · rw [own_cons_of_ne here] at mine
          rwa [Function.update_of_ne (Ne.symm here)]

end ThreadLocal
