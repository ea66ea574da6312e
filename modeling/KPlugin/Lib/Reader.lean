import Mathlib.Data.List.Basic

/-!
# Machines that read an input

A reader is a machine that looks at the next letter of its input, takes it,
hands an event to a sink, or stops with a result. The input is an interface of
its own: the same reader runs on a word and on whatever buffers it. The rules
below say that more fuel changes no answer, that an input which follows another
one gives the same run (unless it fails in one distinguished way), and that the
sink can be run after the reader as well as along with it.
-/

namespace Reader

/-- What a reader does next. -/
inductive Move (S α ε ρ : Type) where
  | peek (next : α → S)
  | take (next : α → S)
  | emit (event : ε) (next : S)
  | stop (result : ρ)

structure Machine (α ε ρ : Type) where
  State : Type
  start : State
  move : State → Move State α ε ρ

/-- An input: look at the next letter, or take it. -/
structure Input (F I α : Type) where
  peek : I → Except F (α × I)
  take : I → Except F (α × I)

variable {α ε ρ F I J H : Type}

/-- Run for at most `n` moves; `out` says that they were not enough. -/
def run (out : F) (M : Machine α ε ρ) (input : Input F I α) (sink : H → ε → Except F H) :
    ℕ → M.State → I → H → Except F (ρ × I × H)
  | 0, _, _, _ => .error out
  | n + 1, s, i, h =>
    match M.move s with
    | .peek next => do
      let (a, i) ← input.peek i
      run out M input sink n (next a) i h
    | .take next => do
      let (a, i) ← input.take i
      run out M input sink n (next a) i h
    | .emit e next => do
      let h ← sink h e
      run out M input sink n next i h
    | .stop r => .ok (r, i, h)

/-- A word as an input: it refuses to be read past its end. The letter `nul`
can be looked at but never taken off. -/
def word [DecidableEq α] (past : F) (nul : α) : Input F (List α) α where
  peek
    | [] => .error past
    | a :: u => .ok (a, a :: u)
  take
    | [] => .error past
    | a :: u => .ok (a, if a = nul then a :: u else u)

/-- The sink that keeps the events. -/
def collect (events : List ε) (e : ε) : Except F (List ε) := .ok (events ++ [e])

/-! ## One move -/

section
variable {out : F} {M : Machine α ε ρ} {input : Input F I α} {sink : H → ε → Except F H} {n : ℕ} {s : M.State}
  {i i' : I} {h h' : H}

theorem run_peek {next : α → M.State} {a : α} (move : M.move s = .peek next) (looked : input.peek i = .ok (a, i')) :
    run out M input sink (n + 1) s i h = run out M input sink n (next a) i' h := by
  rw [run, move]
  simp only [looked]
  rfl

theorem run_take {next : α → M.State} {a : α} (move : M.move s = .take next) (taken : input.take i = .ok (a, i')) :
    run out M input sink (n + 1) s i h = run out M input sink n (next a) i' h := by
  rw [run, move]
  simp only [taken]
  rfl

theorem run_emit {e : ε} {next : M.State} (move : M.move s = .emit e next) (accepted : sink h e = .ok h') :
    run out M input sink (n + 1) s i h = run out M input sink n next i h' := by
  rw [run, move]
  simp only [accepted]
  rfl

theorem run_stop {r : ρ} (move : M.move s = .stop r) : run out M input sink (n + 1) s i h = .ok (r, i, h) := by
  rw [run, move]

theorem run_peek_error {next : α → M.State} {f : F} (move : M.move s = .peek next)
    (looked : input.peek i = .error f) : run out M input sink (n + 1) s i h = .error f := by
  rw [run, move]
  simp only [looked]
  rfl

theorem run_take_error {next : α → M.State} {f : F} (move : M.move s = .take next)
    (taken : input.take i = .error f) : run out M input sink (n + 1) s i h = .error f := by
  rw [run, move]
  simp only [taken]
  rfl

theorem run_emit_error {e : ε} {next : M.State} {f : F} (move : M.move s = .emit e next)
    (refused : sink h e = .error f) : run out M input sink (n + 1) s i h = .error f := by
  rw [run, move]
  simp only [refused]
  rfl

/-- **What a finished run began with.** -/
theorem run_cases {x : ρ × I × H} (ran : run out M input sink (n + 1) s i h = .ok x) :
    (∃ next a i', M.move s = .peek next ∧ input.peek i = .ok (a, i') ∧ run out M input sink n (next a) i' h = .ok x) ∨
    (∃ next a i', M.move s = .take next ∧ input.take i = .ok (a, i') ∧ run out M input sink n (next a) i' h = .ok x) ∨
    (∃ e next h', M.move s = .emit e next ∧ sink h e = .ok h' ∧ run out M input sink n next i h' = .ok x) ∨
    (∃ r, M.move s = .stop r ∧ x = (r, i, h)) := by
  cases move : M.move s with
  | peek next =>
    cases looked : input.peek i with
    | error f =>
      rw [run_peek_error move looked] at ran
      cases ran
    | ok p =>
      rw [run_peek move looked] at ran
      exact .inl ⟨next, p.1, p.2, rfl, rfl, ran⟩
  | take next =>
    cases taken : input.take i with
    | error f =>
      rw [run_take_error move taken] at ran
      cases ran
    | ok p =>
      rw [run_take move taken] at ran
      exact .inr (.inl ⟨next, p.1, p.2, rfl, rfl, ran⟩)
  | emit e next =>
    cases accepted : sink h e with
    | error f =>
      rw [run_emit_error move accepted] at ran
      cases ran
    | ok h' =>
      rw [run_emit move accepted] at ran
      exact .inr (.inr (.inl ⟨e, next, h', rfl, accepted, ran⟩))
  | stop r =>
    rw [run_stop move] at ran
    cases ran
    exact .inr (.inr (.inr ⟨r, rfl, rfl⟩))

end

/-! ## Fuel -/

theorem run_succ {out : F} {M : Machine α ε ρ} {input : Input F I α} {sink : H → ε → Except F H} {n : ℕ}
    {s : M.State} {i : I} {h : H} {x : Except F (ρ × I × H)} (ran : run out M input sink n s i h = x)
    (enough : x ≠ .error out) : run out M input sink (n + 1) s i h = x := by
  induction n generalizing s i h with
  | zero => exact absurd ran.symm enough
  | succ n ih =>
    cases move : M.move s with
    | peek next =>
      cases looked : input.peek i with
      | error f =>
        rw [run_peek_error move looked] at ran ⊢
        exact ran
      | ok p =>
        rw [run_peek move looked] at ran ⊢
        exact ih ran
    | take next =>
      cases taken : input.take i with
      | error f =>
        rw [run_take_error move taken] at ran ⊢
        exact ran
      | ok p =>
        rw [run_take move taken] at ran ⊢
        exact ih ran
    | emit e next =>
      cases accepted : sink h e with
      | error f =>
        rw [run_emit_error move accepted] at ran ⊢
        exact ran
      | ok h' =>
        rw [run_emit move accepted] at ran ⊢
        exact ih ran
    | stop r =>
      rw [run_stop move] at ran ⊢
      exact ran

/-- **More fuel changes no answer.** -/
theorem run_mono {out : F} {M : Machine α ε ρ} {input : Input F I α} {sink : H → ε → Except F H} {n m : ℕ}
    {s : M.State} {i : I} {h : H} {x : Except F (ρ × I × H)} (more : n ≤ m)
    (ran : run out M input sink n s i h = x) (enough : x ≠ .error out) : run out M input sink m s i h = x := by
  induction more with
  | refl => exact ran
  | step _ ih => exact run_succ ih enough

/-! ## Following another input -/

/-- The answer is `b`, in a state related to `j`, unless it is the failure `bad`. -/
def Follows (bad : F) (Rel : I → J → Prop) {β : Type} (x : Except F (β × I)) (b : β) (j : J) : Prop :=
  x = .error bad ∨ ∃ i, x = .ok (b, i) ∧ Rel i j

/-- **Simulation**: an input that answers like another one, short of one failure,
gives the same run, short of that failure. -/
theorem run_follows {out bad : F} {M : Machine α ε ρ} {inI : Input F I α} {inJ : Input F J α}
    {sink : H → ε → Except F H} {Rel : I → J → Prop}
    (peeks : ∀ i j a j', Rel i j → inJ.peek j = .ok (a, j') → Follows bad Rel (inI.peek i) a j')
    (takes : ∀ i j a j', Rel i j → inJ.take j = .ok (a, j') → Follows bad Rel (inI.take i) a j')
    {n : ℕ} {s : M.State} {i : I} {j j' : J} {h h' : H} {r : ρ} (related : Rel i j)
    (ran : run out M inJ sink n s j h = .ok (r, j', h')) :
    run out M inI sink n s i h = .error bad ∨
      ∃ i', run out M inI sink n s i h = .ok (r, i', h') ∧ Rel i' j' := by
  induction n generalizing s i j h with
  | zero => cases ran
  | succ n ih =>
    rcases run_cases ran with ⟨next, a, j1, move, looked, later⟩ | ⟨next, a, j1, move, taken, later⟩ |
      ⟨e, next, h1, move, accepted, later⟩ | ⟨r', move, same⟩
    · rcases peeks i j a j1 related looked with failed | ⟨i1, same, related⟩
      · exact .inl (run_peek_error move failed)
      · rw [run_peek move same]
        exact ih related later
    · rcases takes i j a j1 related taken with failed | ⟨i1, same, related⟩
      · exact .inl (run_take_error move failed)
      · rw [run_take move same]
        exact ih related later
    · rw [run_emit move accepted]
      exact ih related later
    · cases same
      exact .inr ⟨i, run_stop move, related⟩

/-! ## Events -/

/-- What every accepted event preserves holds of the sink when the reader stops. -/
theorem run_invariant {out : F} {M : Machine α ε ρ} {input : Input F I α} {sink : H → ε → Except F H}
    {P : H → Prop} (keeps : ∀ h e h', P h → sink h e = .ok h' → P h') {n : ℕ} {s : M.State} {i i' : I} {h h' : H}
    {r : ρ} (ran : run out M input sink n s i h = .ok (r, i', h')) (holds : P h) : P h' := by
  induction n generalizing s i h with
  | zero => cases ran
  | succ n ih =>
    rcases run_cases ran with ⟨next, a, i1, move, looked, later⟩ | ⟨next, a, i1, move, taken, later⟩ |
      ⟨e, next, h1, move, accepted, later⟩ | ⟨r', move, same⟩
    · exact ih later holds
    · exact ih later holds
    · exact ih later (keeps h e h1 holds accepted)
    · cases same
      exact holds

/-- A failure that neither the input nor the sink has to offer is not that of a run. -/
theorem run_ne_error {out bad : F} {M : Machine α ε ρ} {input : Input F I α} {sink : H → ε → Except F H} {P : I → Prop}
    (peeks : ∀ i, P i → input.peek i ≠ .error bad ∧ ∀ a i', input.peek i = .ok (a, i') → P i')
    (takes : ∀ i, P i → input.take i ≠ .error bad ∧ ∀ a i', input.take i = .ok (a, i') → P i')
    (sinks : ∀ h e, sink h e ≠ .error bad) (other : out ≠ bad) {n : ℕ} {s : M.State} {i : I} {h : H} (holds : P i) :
    run out M input sink n s i h ≠ .error bad := by
  induction n generalizing s i h with
  | zero =>
    intro failed
    cases failed
    exact other rfl
  | succ n ih =>
    cases move : M.move s with
    | peek next =>
      obtain ⟨fine, keeps⟩ := peeks i holds
      cases looked : input.peek i with
      | error f =>
        rw [run_peek_error move looked]
        intro failed
        cases failed
        exact fine looked
      | ok p =>
        rw [run_peek move looked]
        exact ih (keeps _ _ looked)
    | take next =>
      obtain ⟨fine, keeps⟩ := takes i holds
      cases taken : input.take i with
      | error f =>
        rw [run_take_error move taken]
        intro failed
        cases failed
        exact fine taken
      | ok p =>
        rw [run_take move taken]
        exact ih (keeps _ _ taken)
    | emit e next =>
      cases accepted : sink h e with
      | error f =>
        rw [run_emit_error move accepted]
        intro failed
        cases failed
        exact sinks h e accepted
      | ok h' =>
        rw [run_emit move accepted]
        exact ih holds
    | stop r =>
      rw [run_stop move]
      nofun

/-- Collecting only appends. -/
theorem collect_prefix {out : F} {M : Machine α ε ρ} {input : Input F I α} {n : ℕ} {s : M.State} {i i' : I}
    {before events : List ε} {r : ρ} (ran : run out M input collect n s i before = .ok (r, i', events)) :
    before <+: events := by
  refine run_invariant (P := fun h => before <+: h) ?_ ran (List.prefix_refl before)
  intro h e h' holds accepted
  cases accepted
  exact holds.trans (List.prefix_append h [e])

/-- **The sink may wait**: running a sink along with the reader is running it
on the collected events. -/
theorem run_of_collect {out : F} {M : Machine α ε ρ} {input : Input F I α} {sink : H → ε → Except F H}
    {n : ℕ} {s : M.State} {i i' : I} (before : List ε) {after : List ε} {h h' : H} {r : ρ}
    (ran : run out M input collect n s i before = .ok (r, i', before ++ after))
    (sunk : after.foldlM sink h = .ok h') : run out M input sink n s i h = .ok (r, i', h') := by
  induction n generalizing s i before after h with
  | zero => cases ran
  | succ n ih =>
    rcases run_cases ran with ⟨next, a, i1, move, looked, later⟩ | ⟨next, a, i1, move, taken, later⟩ |
      ⟨e, next, h1, move, accepted, later⟩ | ⟨r', move, same⟩
    · rw [run_peek move looked]
      exact ih before later sunk
    · rw [run_take move taken]
      exact ih before later sunk
    · cases accepted
      obtain ⟨rest, split⟩ := collect_prefix later
      rw [List.append_assoc] at split
      obtain rfl : after = e :: rest := (List.append_cancel_left split).symm
      rw [List.foldlM_cons] at sunk
      cases accepted : sink h e with
      | error f =>
        rw [accepted] at sunk
        cases sunk
      | ok h1 =>
        rw [accepted] at sunk
        rw [run_emit move accepted]
        refine ih (before ++ [e]) ?_ sunk
        rwa [List.append_assoc]
    · simp only [Prod.mk.injEq] at same
      obtain ⟨rfl, rfl, nothing⟩ := same
      obtain rfl : after = [] := List.append_right_eq_self.mp nothing
      cases sunk
      exact run_stop move

end Reader
