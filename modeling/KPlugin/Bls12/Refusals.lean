import KPlugin.Bls12.Msm
import KPlugin.Lib.Loop

/-!
# What multiplication and multi-scalar multiplication refuse

A single multiplication looks at the scalar first and always. The loop of the
batch looks at the point first and goes on to the next pair when it is infinity,
so the scalar of such a pair is never looked at.
-/

namespace KPlugin.Bls12

/-- The call throws `std::invalid_argument`. -/
def Refuses {α : Type} (run : Except Raise α) : Prop := ∃ what, run = .error (.invalidArgument what)

/-- The lists do not match, or one of the single multiplications throws. -/
def SomeMulRefuses {T : Type} (mul : T → ℤ → Except Raise T) (scalars : List ℤ) (points : List T) : Prop :=
  scalars.length ≠ points.length ∨ ∃ item ∈ points.zip scalars, Refuses (mul item.1 item.2)

/-- The scalar does not fit 256 bits. -/
def Oversized (n : ℤ) : Prop := 2 ^ 256 ≤ n.natAbs

variable {T K : Type} {sort : TermSort T K} {blst : Blst}

/-- The term is decoded as infinity. -/
def TermSort.Skips (sort : TermSort T K) (t : T) : Prop := ∃ c, sort.decode t = some c ∧ sort.affineIsInf c = true

theorem mpzPtrToBlstScalar_eq_none_iff (blst : Blst) (n : ℤ) : mpzPtrToBlstScalar blst n = none ↔ Oversized n := by
  have bits := mpzSizeinbase2_le_iff n (n := 256) (by decide)
  unfold mpzPtrToBlstScalar Oversized
  by_cases long : mpzSizeinbase2 n > 256
  · rw [if_pos long]
    exact iff_of_true rfl (not_lt.mp fun small => Nat.not_lt.mpr (bits.mpr small) long)
  · rw [if_neg long]
    exact iff_of_false nofun (not_le.mpr (bits.mp (not_lt.mp long)))

theorem TermSort.toBlst_eq_none_iff (t : T) : sort.toBlst t = none ↔ sort.decode t = none := by
  unfold TermSort.toBlst
  cases sort.decode t <;> simp

/-- **A single multiplication** refuses a scalar that is too large and a point that does not decode. -/
theorem TermSort.mul_refuses_iff (sort : TermSort T K) (blst : Blst) (nbits : ℤ → ℕ) (t : T) (n : ℤ) :
    Refuses (sort.mul blst nbits t n) ↔ Oversized n ∨ sort.decode t = none := by
  rw [← mpzPtrToBlstScalar_eq_none_iff blst n, ← TermSort.toBlst_eq_none_iff t]
  unfold TermSort.mul
  cases mpzPtrToBlstScalar blst n with
  | none => exact iff_of_true ⟨_, rfl⟩ (.inl rfl)
  | some scalar =>
    cases sort.toBlst t with
    | none => exact iff_of_true ⟨_, rfl⟩ (.inr rfl)
    | some p =>
      refine iff_of_false ?_ (by simp)
      rintro ⟨what, failed⟩
      cases failed

/-- What one iteration of the batch refuses: a point that does not decode, and a
scalar that is too large unless the point is infinity. -/
def TermSort.StepRefuses (sort : TermSort T K) (item : T × ℤ) : Prop :=
  sort.decode item.1 = none ∨ (Oversized item.2 ∧ ¬ sort.Skips item.1)

theorem TermSort.msmStep_cases (sort : TermSort T K) (blst : Blst) (st : MsmState K) (item : T × ℤ) :
    (sort.StepRefuses item ∧ ∃ e, sort.msmStep blst st item = .error e ∧ ∃ what, e = .invalidArgument what) ∨
    (¬ sort.StepRefuses item ∧ ∃ st', sort.msmStep blst st item = .ok st') := by
  unfold TermSort.StepRefuses TermSort.Skips TermSort.msmStep
  rw [← mpzPtrToBlstScalar_eq_none_iff blst item.2]
  cases sort.decode item.1 with
  | none => exact .inl ⟨.inl rfl, _, rfl, _, rfl⟩
  | some c =>
    cases infinite : sort.affineIsInf c with
    | true =>
      refine .inr ⟨?_, ?_⟩
      · rintro (missing | ⟨-, finite⟩)
        · cases missing
        · exact finite ⟨c, rfl, infinite⟩
      · simp only [orInvalid, bind, Except.bind, infinite, if_true]
        exact ⟨_, rfl⟩
    | false =>
      have finite : ¬ ∃ c', some c = some c' ∧ sort.affineIsInf c' = true := by
        rintro ⟨c', same, isInf⟩
        cases same
        exact Bool.false_ne_true (infinite.symm.trans isInf)
      simp only [orInvalid, bind, Except.bind, infinite, Bool.false_eq_true, if_false]
      cases mpzPtrToBlstScalar blst item.2 with
      | none => exact .inl ⟨.inr ⟨rfl, finite⟩, _, rfl, _, rfl⟩
      | some scalar =>
        refine .inr ⟨?_, _, rfl⟩
        rintro (missing | ⟨missing, -⟩)
        · cases missing
        · cases missing

variable [Zero K]

/-- **The batch** refuses lists that do not match and pairs that one of its iterations refuses. -/
theorem TermSort.msm_refuses_iff (sort : TermSort T K) (blst : Blst) (scalars : List ℤ) (points : List T) :
    Refuses (sort.msm blst scalars points) ↔
      scalars.length ≠ points.length ∨ ∃ item ∈ points.zip scalars, sort.StepRefuses item := by
  unfold Refuses TermSort.msm
  by_cases differ : scalars.length ≠ points.length
  · rw [if_pos differ]
    exact iff_of_true ⟨_, rfl⟩ (.inl differ)
  · have loop := Loop.foldlM_error_iff (sort.msmStep_cases blst) (points.zip scalars) (MsmState.start points.length)
    rw [if_neg differ, or_iff_right differ, ← loop]
    cases (points.zip scalars).foldlM (sort.msmStep blst) (MsmState.start points.length) with
    | error e =>
      constructor
      · rintro ⟨what, failed⟩
        exact ⟨e, rfl, what, Except.error.inj failed⟩
      · rintro ⟨e', same, what, rfl⟩
        exact ⟨what, congrArg Except.error (Except.error.inj same)⟩
    | ok st =>
      constructor
      · rintro ⟨what, failed⟩
        cases failed
      · rintro ⟨e', same, -⟩
        cases same

/-- When the batch and the single multiplications refuse the same lists: something
the batch looks at is refused, or it passes over no scalar that is too large. -/
def TermSort.LooksAtAll (sort : TermSort T K) (scalars : List ℤ) (points : List T) : Prop :=
  scalars.length ≠ points.length ∨ (∃ item ∈ points.zip scalars, sort.StepRefuses item) ∨
    ∀ item ∈ points.zip scalars, ¬ (sort.Skips item.1 ∧ Oversized item.2)

/-- **The exact agreement** on one sort. -/
theorem TermSort.msm_agrees_iff (sort : TermSort T K) (blst : Blst) (nbits : ℤ → ℕ) (scalars : List ℤ)
    (points : List T) :
    (Refuses (sort.msm blst scalars points) ↔ SomeMulRefuses (sort.mul blst nbits) scalars points) ↔
      sort.LooksAtAll scalars points := by
  rw [sort.msm_refuses_iff]
  unfold SomeMulRefuses TermSort.LooksAtAll
  simp only [sort.mul_refuses_iff]
  by_cases differ : scalars.length ≠ points.length
  · simp [differ]
  · simp only [differ, false_or]
    by_cases refused : ∃ item ∈ points.zip scalars, sort.StepRefuses item
    · refine iff_of_true (iff_of_true refused ?_) (.inl refused)
      obtain ⟨item, member, missing | ⟨large, -⟩⟩ := refused
      · exact ⟨item, member, .inr missing⟩
      · exact ⟨item, member, .inl large⟩
    · rw [or_iff_right refused, iff_false_left refused]
      constructor
      · rintro none item member ⟨-, large⟩
        exact none ⟨item, member, .inl large⟩
      · rintro small ⟨item, member, large | missing⟩
        · by_cases skips : sort.Skips item.1
          · exact small item member ⟨skips, large⟩
          · exact refused ⟨item, member, .inr ⟨large, skips⟩⟩
        · exact refused ⟨item, member, .inl missing⟩

/-- **Multi-scalar multiplication refuses what its single multiplications refuse**
exactly when it passes over no scalar, in both groups. -/
theorem msm_refuses_as_mul_iff (blst : Blst) :
    (∀ scalars points,
      (Refuses (hookBls12G1Msm blst scalars points) ↔ SomeMulRefuses (hookBls12G1Mul blst) scalars points) ↔
        (g1Sort blst).LooksAtAll scalars points) ∧
    ∀ scalars points,
      (Refuses (hookBls12G2Msm blst scalars points) ↔ SomeMulRefuses (hookBls12G2Mul blst) scalars points) ↔
        (g2Sort blst).LooksAtAll scalars points :=
  ⟨(g1Sort blst).msm_agrees_iff blst scalarBits, (g2Sort blst).msm_agrees_iff blst mpzSizeinbase2⟩

/-- Infinity alone is passed over with whatever scalar. -/
theorem TermSort.msm_skips {t : T} (skips : sort.Skips t) (n : ℤ) : sort.msm blst [n] [t] = .ok sort.inf := by
  obtain ⟨c, decoded, infinite⟩ := skips
  have step : ∃ st', sort.msmStep blst (MsmState.start 1) (t, n) = .ok st' ∧ st'.validPointCount = 0 := by
    unfold TermSort.msmStep
    simp only [decoded, orInvalid, bind, Except.bind, infinite, if_true]
    exact ⟨_, rfl, rfl⟩
  obtain ⟨st', run, none⟩ := step
  have loop : ([t].zip [n]).foldlM (sort.msmStep blst) (MsmState.start [t].length) = .ok st' := by
    rw [List.zip_cons_cons, List.zip_nil_right, List.foldlM_cons, List.length_singleton, run]
    rfl
  have sameLength : ¬ [n].length ≠ [t].length := by simp
  unfold TermSort.msm
  rw [if_neg sameLength, loop]
  change Except.ok (sort.msmResult st') = _
  unfold TermSort.msmResult
  rw [if_pos none]

/-- The smallest scalar of 257 bits. -/
def largeScalar : ℤ := 2 ^ 256

theorem largeScalar_oversized : Oversized largeScalar := by
  unfold Oversized largeScalar
  decide +kernel

/-- A sort in which an infinite term exists does not refuse alike. -/
theorem TermSort.not_agrees {t : T} (skips : sort.Skips t) (nbits : ℤ → ℕ) :
    ¬ ∀ scalars points, Refuses (sort.msm blst scalars points) ↔ SomeMulRefuses (sort.mul blst nbits) scalars points := by
  intro agrees
  have single : Refuses (sort.mul blst nbits t largeScalar) :=
    (sort.mul_refuses_iff blst nbits t largeScalar).mpr (.inl largeScalar_oversized)
  obtain ⟨what, failed⟩ := (agrees [largeScalar] [t]).mpr (.inr ⟨(t, largeScalar), List.mem_cons_self, single⟩)
  rw [TermSort.msm_skips skips] at failed
  cases failed

/-- At infinity the batch accepts a scalar that the single multiplication refuses. -/
theorem msm_passes_over_large_scalar :
    (hookBls12G1Msm referenceBlst [largeScalar] [⟨0, 0⟩] = .ok ⟨0, 0⟩ ∧
      Refuses (hookBls12G1Mul referenceBlst ⟨0, 0⟩ largeScalar)) ∧
    (¬ ∀ scalars points, Refuses (hookBls12G1Msm referenceBlst scalars points) ↔
      SomeMulRefuses (hookBls12G1Mul referenceBlst) scalars points) ∧
    ¬ ∀ scalars points, Refuses (hookBls12G2Msm referenceBlst scalars points) ↔
      SomeMulRefuses (hookBls12G2Mul referenceBlst) scalars points := by
  have skips1 : (g1Sort referenceBlst).Skips ⟨0, 0⟩ := ⟨_, rfl, (referenceBlst_p1.affineIsInf _).mpr rfl⟩
  have skips2 : (g2Sort referenceBlst).Skips ⟨0, 0, 0, 0⟩ := ⟨_, rfl, (referenceBlst_p2.affineIsInf _).mpr rfl⟩
  refine ⟨⟨?_, ?_⟩, ?_, ?_⟩
  · exact TermSort.msm_skips skips1 largeScalar
  · exact ((g1Sort referenceBlst).mul_refuses_iff _ _ _ _).mpr (.inl largeScalar_oversized)
  · exact TermSort.not_agrees skips1 scalarBits
  · exact TermSort.not_agrees skips2 mpzSizeinbase2

end KPlugin.Bls12
