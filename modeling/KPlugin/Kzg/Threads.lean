import KPlugin.Kzg.Hooks
import KPlugin.Lib.ThreadLocal

/-!
# Calls of several threads

The settings and the flag are `thread_local`, so each thread loads the setup for
itself. Whatever calls its process makes on other threads in between, the calls of a
thread throw until one of them has loaded the setup and never again after it, and
those that answer judge their arguments alone, if these have the right lengths.
-/

namespace KPlugin.Kzg
open Radix ThreadLocal
open Bls12 (blsModulus)

variable {ckzg : CKzg}

/-- A call as a step of its thread; a crash ends the process. -/
def threadCall (st : Thread ckzg) (c : Call ckzg) : Option (Outcome × Thread ckzg) :=
  match hookVerifyKZGProof st c with
  | (.crashes, _) => none
  | answer => some answer

/-- A process makes its calls on threads that are new. -/
def processCalls {ι : Type*} [DecidableEq ι] (calls : List (ι × Call ckzg)) : Option (List (ι × Call ckzg × Outcome)) :=
  interleaved threadCall (fun _ => Thread.start ckzg) calls

section
variable {Complete : ckzg.Settings → Prop} {ProofValid : Bytes → Bytes → Bytes → Bytes → Prop}

/-- The call answers, and on arguments of the right lengths what it answers depends on them alone. -/
def Judges (ProofValid : Bytes → Bytes → Bytes → Bytes → Prop) (c : Call ckzg) (o : Outcome) : Prop :=
  ∃ b, o = .returns b ∧ (RightLengths c → (b = true ↔ valueBE c.z.data < blsModulus ∧ valueBE c.y.data < blsModulus ∧
    ProofValid c.commitment.data c.z.data c.y.data c.proof.data))

/-- **What a call can do to its thread**: throw and leave the flag set, or judge and clear it. -/
theorem threadCall_cases (behaves : ckzg.Behaves Complete ProofValid) {st st' : Thread ckzg} {c : Call ckzg} {o : Outcome}
    (loaded : Loaded Complete st) (called : threadCall st c = some (o, st')) :
    (st.once = true ∧ o = .throws ∧ Loaded Complete st') ∨
      (Judges ProofValid c o ∧ Loaded Complete st' ∧ st'.once = false) := by
  have next := hook_loaded behaves loaded c
  rw [threadCall] at called
  rcases hook_cases behaves loaded c with ⟨once, -, failure, s', ended, failed⟩ | ⟨-, s', complete, ended⟩
  · rw [ended] at called next
    cases failure with
    | returns b => exact absurd rfl (failed b)
    | crashes => cases called
    | throws =>
      cases called
      exact .inl ⟨once, rfl, next⟩
  · rw [ended] at called next
    cases called
    exact .inr ⟨⟨_, rfl, fun right => verify_iff behaves right complete⟩, next, rfl⟩

/-- A thread that has loaded the setup judges every call. -/
theorem alone_judges (behaves : ckzg.Behaves Complete ProofValid) {st : Thread ckzg} {calls : List (Call ckzg)}
    {log : List (Call ckzg × Outcome)} (loaded : Loaded Complete st) (cleared : st.once = false)
    (ran : alone threadCall st calls = some log) : ∀ e ∈ log, Judges ProofValid e.1 e.2 := by
  induction calls generalizing st log with
  | nil =>
    cases ran
    exact List.forall_mem_nil _
  | cons c calls ih =>
    cases called : threadCall st c with
    | none =>
      rw [alone, called] at ran
      cases ran
    | some p =>
      obtain ⟨o, st'⟩ := p
      rw [alone_cons called, Option.map_eq_some_iff] at ran
      obtain ⟨later, ran, rfl⟩ := ran
      rcases threadCall_cases behaves loaded called with ⟨once, -, -⟩ | ⟨judges, loaded', cleared'⟩
      · rw [cleared] at once
        cases once
      · rw [List.forall_mem_cons]
        exact ⟨judges, ih loaded' cleared' ran⟩

/-- **A thread throws first and judges then.** -/
theorem alone_throws_then_judges (behaves : ckzg.Behaves Complete ProofValid) {st : Thread ckzg}
    {calls : List (Call ckzg)} {log : List (Call ckzg × Outcome)} (loaded : Loaded Complete st)
    (ran : alone threadCall st calls = some log) :
    ∃ failed judged, log = failed ++ judged ∧ (∀ e ∈ failed, e.2 = .throws) ∧
      ∀ e ∈ judged, Judges ProofValid e.1 e.2 := by
  induction calls generalizing st log with
  | nil =>
    cases ran
    exact ⟨[], [], rfl, List.forall_mem_nil _, List.forall_mem_nil _⟩
  | cons c calls ih =>
    cases called : threadCall st c with
    | none =>
      rw [alone, called] at ran
      cases ran
    | some p =>
      obtain ⟨o, st'⟩ := p
      rw [alone_cons called, Option.map_eq_some_iff] at ran
      obtain ⟨later, ran, rfl⟩ := ran
      rcases threadCall_cases behaves loaded called with ⟨-, rfl, loaded'⟩ | ⟨judges, loaded', cleared'⟩
      · obtain ⟨failed, judged, rfl, throws, rest⟩ := ih loaded' ran
        refine ⟨(c, .throws) :: failed, judged, rfl, ?_, rest⟩
        rw [List.forall_mem_cons]
        exact ⟨rfl, throws⟩
      · refine ⟨[], (c, o) :: later, rfl, List.forall_mem_nil _, ?_⟩
        rw [List.forall_mem_cons]
        exact ⟨judges, alone_judges behaves loaded' cleared' ran⟩

/-- **However calls are interleaved**, the process survives exactly when each thread alone
would, and each thread is answered as if it were alone: its calls throw until one has
loaded the setup, and all from that one on answer, those with arguments of the right
lengths by their arguments. -/
theorem threads_judge_alone {ι : Type*} [DecidableEq ι] (behaves : ckzg.Behaves Complete ProofValid)
    (calls : List (ι × Call ckzg)) :
    ((processCalls calls).isSome ↔ ∀ i, (alone threadCall (Thread.start ckzg) (own i calls)).isSome) ∧
    ∀ log, processCalls calls = some log → ∀ i,
      alone threadCall (Thread.start ckzg) (own i calls) = some (own i log) ∧
      ∃ failed judged, own i log = failed ++ judged ∧ (∀ e ∈ failed, e.2 = .throws) ∧
        ∀ e ∈ judged, Judges ProofValid e.1 e.2 := by
  refine ⟨interleaved_isSome_iff _ calls, fun log ran i => ?_⟩
  have mine := alone_own ran i
  exact ⟨mine, alone_throws_then_judges behaves start_loaded mine⟩

end

/-- Two threads; the first call of one of them cannot load the setup. -/
def twoThreads : List (Bool × Call zeroPolynomialKzg) :=
  [(true, zeroProof false []), (false, zeroProof true []), (true, zeroProof true [])]

/-- It throws on its thread alone. -/
theorem twoThreads_judge_alone :
    ∃ log failed judged, processCalls twoThreads = some log ∧ own true log = failed ++ judged ∧
      (∀ e ∈ failed, e.2 = .throws) ∧ ∀ e ∈ judged,
        Judges (fun c _ y p => c = infinity48 ∧ valueBE y = 0 ∧ p = infinity48) e.1 e.2 := by
  obtain ⟨-, answers⟩ := threads_judge_alone zeroPolynomialKzg_behaves twoThreads
  have ran : processCalls twoThreads = some _ := rfl
  obtain ⟨-, failed, judged, split, throws, judges⟩ := answers _ ran true
  exact ⟨_, failed, judged, ran, split, throws, judges⟩

end KPlugin.Kzg
