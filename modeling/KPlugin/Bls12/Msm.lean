import KPlugin.Bls12.Reference

/-!
# Multi-scalar multiplication on BLS12-381

The hook compacts the points that are not infinity, with their scalars, to the
front of two vectors and hands them to Pippenger's algorithm; no such point and
exactly one are cases of their own. The loop's invariant names the group elements
and scalars in the front part, so that all three results are one sum, and that
sum is what adding the products one after another gives.
-/

namespace KPlugin.Bls12
open Radix ShortWeierstrass

/-! ## The hook -/

/-- The vectors and the counters of the loop. -/
structure MsmState (K : Type) where
  points : List (K × K)
  blstScalars : List Bytes
  validPointCount : ℕ
  firstNbits : ℕ

section
variable {T K : Type} [Zero K]

/-- Vectors of `n` zeroed elements. -/
def MsmState.start (n : ℕ) : MsmState K where
  points := List.replicate n (0, 0)
  blstScalars := List.replicate n (List.replicate 32 0)
  validPointCount := 0
  firstNbits := 0

/-- One iteration on a point and the scalar of the same index. -/
def TermSort.msmStep (sort : TermSort T K) (blst : Blst) (st : MsmState K) (item : T × ℤ) :
    Except Raise (MsmState K) := do
  let affine ← orInvalid "Invalid point" (sort.decode item.1)
  -- the slot is written before the test; after an infinity the next point takes it
  let points := st.points.set st.validPointCount affine
  if sort.affineIsInf affine then pure { st with points }
  else
    let firstNbits := if st.validPointCount = 0 then scalarBits item.2 else st.firstNbits
    let scalar ← orInvalid "Invalid scalar" (mpzPtrToBlstScalar blst item.2)
    pure
      { points
        blstScalars := st.blstScalars.set st.validPointCount scalar
        validPointCount := st.validPointCount + 1
        firstNbits }

/-- The three ways to the result. -/
def TermSort.msmResult (sort : TermSort T K) (st : MsmState K) : T :=
  if st.validPointCount = 0 then sort.inf
  else if st.validPointCount = 1 then
    let blstp := sort.fromAffine (st.points.headD (0, 0))
    sort.ofBlst (sort.mult blstp (st.blstScalars.headD []) st.firstNbits)
  else
    sort.ofBlst (sort.multPippenger (st.points.take st.validPointCount) (st.blstScalars.take st.validPointCount) 256)

def TermSort.msm (sort : TermSort T K) (blst : Blst) (scalars : List ℤ) (g : List T) : Except Raise T :=
  if scalars.length ≠ g.length then .error (.invalidArgument "mismatched list sizes")
  else do
    let st ← (g.zip scalars).foldlM (sort.msmStep blst) (MsmState.start g.length)
    pure (sort.msmResult st)

end

def hookBls12G1Msm (blst : Blst) : List ℤ → List G1Point → Except Raise G1Point := (g1Sort blst).msm blst

def hookBls12G2Msm (blst : Blst) : List ℤ → List G2Point → Except Raise G2Point := (g2Sort blst).msm blst

/-! ## The loop -/

variable {T K : Type} [Field K] {b : K}

/-- A group element with the scalar stored for it. -/
abbrev Term (b : K) := (curve b).Point × Bytes

/-- **The loop's invariant**: the front of the vectors holds `terms`. -/
structure MsmState.Holds (n : ℕ) (terms : List (Term b)) (st : MsmState K) : Prop where
  pointsLength : st.points.length = n
  scalarsLength : st.blstScalars.length = n
  count : st.validPointCount = terms.length
  points : st.points.take terms.length = terms.map fun t => pair t.1
  scalars : st.blstScalars.take terms.length = terms.map Prod.snd
  finite : ∀ t ∈ terms, t.1 ≠ 0
  fits : ∀ t ∈ terms, value t.2 < 2 ^ 256
  first : ∀ t ∈ terms.head?, value t.2 < 2 ^ st.firstNbits

/-- Writing the next slot lengthens the front by one. -/
theorem take_set_snoc {α : Type} {l : List α} {k : ℕ} (room : k < l.length) (a : α) :
    (l.set k a).take (k + 1) = l.take k ++ [a] := by
  rw [List.take_add_one, List.take_set_of_le (Nat.le_refl k), List.getElem?_set_self room]
  rfl

namespace MsmState.Holds

variable {n : ℕ} {terms : List (Term b)} {st : MsmState K}

theorem start (n : ℕ) : (MsmState.start n : MsmState K).Holds n ([] : List (Term b)) where
  pointsLength := List.length_replicate
  scalarsLength := List.length_replicate
  count := rfl
  points := List.take_zero
  scalars := List.take_zero
  finite := fun _ member => nomatch member
  fits := fun _ member => nomatch member
  first := fun _ member => nomatch member

/-- A point at infinity leaves the front alone. -/
theorem skip (holds : st.Holds n terms) (c : K × K) :
    MsmState.Holds n terms { st with points := st.points.set st.validPointCount c } where
  pointsLength := by rw [List.length_set, holds.pointsLength]
  scalarsLength := holds.scalarsLength
  count := holds.count
  points := by rw [List.take_set_of_le holds.count.ge, holds.points]
  scalars := holds.scalars
  finite := holds.finite
  fits := holds.fits
  first := holds.first

/-- Any other point extends it, and the first one also sets the number of bits. -/
theorem push (holds : st.Holds n terms) (room : terms.length < n) {t : Term b} (finite : t.1 ≠ 0)
    (fits : value t.2 < 2 ^ 256) {nbits : ℕ} (enough : value t.2 < 2 ^ nbits) :
    MsmState.Holds n (terms ++ [t])
      { points := st.points.set st.validPointCount (pair t.1)
        blstScalars := st.blstScalars.set st.validPointCount t.2
        validPointCount := st.validPointCount + 1
        firstNbits := if st.validPointCount = 0 then nbits else st.firstNbits } where
  pointsLength := by rw [List.length_set, holds.pointsLength]
  scalarsLength := by rw [List.length_set, holds.scalarsLength]
  count := by rw [holds.count, List.length_append, List.length_singleton]
  points := by
    rw [List.length_append, List.length_singleton, holds.count,
      take_set_snoc (by rw [holds.pointsLength]; exact room), holds.points, List.map_append, List.map_singleton]
  scalars := by
    rw [List.length_append, List.length_singleton, holds.count,
      take_set_snoc (by rw [holds.scalarsLength]; exact room), holds.scalars, List.map_append, List.map_singleton]
  finite := by
    intro s member
    rcases List.mem_append.mp member with old | new
    · exact holds.finite s old
    · rwa [List.mem_singleton.mp new]
  fits := by
    intro s member
    rcases List.mem_append.mp member with old | new
    · exact holds.fits s old
    · rwa [List.mem_singleton.mp new]
  first := by
    intro s head
    cases terms with
    | nil =>
      have same : t = s := by simpa using head
      have none : st.validPointCount = 0 := holds.count
      simp only [if_pos none]
      exact same ▸ enough
    | cons u terms =>
      have later : st.validPointCount ≠ 0 := by
        rw [holds.count]
        exact Nat.succ_ne_zero _
      rw [if_neg later]
      exact holds.first s head

end MsmState.Holds

variable [DecidableEq K]

/-- The sum of the elements times their scalars. -/
def total (terms : List (Term b)) : (curve b).Point := (terms.map fun t => value t.2 • t.1).sum

theorem total_snoc (terms : List (Term b)) (t : Term b) : total (terms ++ [t]) = total terms + value t.2 • t.1 := by
  unfold total
  rw [List.map_append, List.sum_append, List.map_singleton, List.sum_singleton]

variable {sort : TermSort T K} {canonical : T → Prop} {neg : T → T} {denotes : sort.Point → (curve b).Point → Prop}
  {blst : Blst}

/-- **One iteration** adds the product of its point and scalar to the total. -/
theorem TermSort.Correct.msmStep_holds (correct : sort.Correct b canonical neg denotes) (scalars : blst.ScalarCodec)
    {n : ℕ} {terms : List (Term b)} {st : MsmState K} (holds : st.Holds n terms) (room : terms.length < n)
    {item : T × ℤ} {P : (curve b).Point} (decodes : sort.Decodes item.1 P) (bounds : 0 ≤ item.2 ∧ item.2 < 2 ^ 256) :
    ∃ st' terms', sort.msmStep blst st item = .ok st' ∧ st'.Holds n terms' ∧ terms'.length ≤ terms.length + 1 ∧
      total terms' = total terms + (item.2.toNat % blsModulus) • P := by
  unfold TermSort.msmStep
  rw [decodes]
  by_cases zero : P = 0
  · have isInf : sort.affineIsInf (pair P) = true := by rw [correct.ops.affineIsInf, zero, pair_zero]
    refine ⟨_, terms, ?_, holds.skip (pair P), Nat.le_succ _, ?_⟩
    · change (if sort.affineIsInf (pair P) = true then _ else _) = _
      rw [if_pos isInf]
      rfl
    · rw [zero, nsmul_zero, add_zero]
  · have finite : ¬ sort.affineIsInf (pair P) = true := by
      rw [correct.ops.affineIsInf, pair_eq_zero_iff correct.b_ne_zero]
      exact zero
    obtain ⟨scalar, stored, residue⟩ := mpzPtrToBlstScalar_eq scalars bounds
    have below : value scalar ≤ item.2.toNat := residue ▸ Nat.mod_le _ _
    have fits : value scalar < 2 ^ 256 := by omega
    have enough : value scalar < 2 ^ scalarBits item.2 := below.trans_lt (lt_scalarBits bounds.1)
    refine ⟨_, terms ++ [(P, scalar)], ?_, holds.push room zero fits enough, ?_, ?_⟩
    · change (if sort.affineIsInf (pair P) = true then _ else _) = _
      rw [if_neg finite, stored]
      rfl
    · rw [List.length_append, List.length_singleton]
    · rw [total_snoc, residue]

/-- **The whole loop**, from any state its invariant allows. -/
theorem TermSort.Correct.msmLoop_holds (correct : sort.Correct b canonical neg denotes) (scalars : blst.ScalarCodec)
    {element : T → (curve b).Point} {n : ℕ} (items : List (T × ℤ))
    (decodes : ∀ item ∈ items, sort.Decodes item.1 (element item.1))
    (bounds : ∀ item ∈ items, 0 ≤ item.2 ∧ item.2 < 2 ^ 256) {terms : List (Term b)} {st : MsmState K}
    (holds : st.Holds n terms) (room : terms.length + items.length ≤ n) :
    ∃ st' terms', items.foldlM (sort.msmStep blst) st = .ok st' ∧ st'.Holds n terms' ∧
      total terms' = total terms + (items.map fun item => (item.2.toNat % blsModulus) • element item.1).sum := by
  induction items generalizing terms st with
  | nil => exact ⟨st, terms, rfl, holds, by rw [List.map_nil, List.sum_nil, add_zero]⟩
  | cons item items ih =>
    rw [List.length_cons] at room
    obtain ⟨next, longer, step, holdsNext, length, sum⟩ := correct.msmStep_holds scalars holds (by omega)
      (decodes item List.mem_cons_self) (bounds item List.mem_cons_self)
    obtain ⟨last, all, run, holdsLast, sums⟩ := ih (fun i member => decodes i (List.mem_cons_of_mem _ member))
      (fun i member => bounds i (List.mem_cons_of_mem _ member)) holdsNext (by omega)
    refine ⟨last, all, ?_, holdsLast, ?_⟩
    · rw [List.foldlM_cons, step]
      exact run
    · rw [sums, sum, List.map_cons, List.sum_cons, add_assoc]

/-- The multiple by all the bits of a scalar that fits. -/
theorem lowMultiple_eq {scalar : Bytes} {nbits : ℕ} (fits : value scalar < 2 ^ nbits) (P : (curve b).Point) :
    lowMultiple scalar nbits P = value scalar • P := by
  unfold lowMultiple
  rw [Nat.mod_eq_of_lt fits]

/-- **All three results are the total**. -/
theorem TermSort.Correct.msmResult_eq (correct : sort.Correct b canonical neg denotes) {n : ℕ}
    {terms : List (Term b)} {st : MsmState K} (holds : st.Holds n terms) :
    sort.msmResult st = sort.term (total terms) := by
  unfold TermSort.msmResult
  rw [holds.count]
  match terms, holds with
  | [], _ => exact correct.term_zero.symm
  | [t], holds =>
    have point : st.points.headD (0, 0) = pair t.1 := by
      have front := holds.points
      cases points : st.points with
      | nil => simp [points] at front
      | cons c cs => simpa [points] using front
    have scalar : st.blstScalars.headD [] = t.2 := by
      have front := holds.scalars
      cases scalars : st.blstScalars with
      | nil => simp [scalars] at front
      | cons s ss => simpa [scalars] using front
    have product := correct.ops.mult _ t.1 t.2 st.firstNbits (correct.ops.fromAffine t.1)
    rw [lowMultiple_eq (holds.first t rfl)] at product
    have sum : total [t] = value t.2 • t.1 := List.sum_singleton
    simp only [List.length_singleton, Nat.one_ne_zero, if_false, if_true, point, scalar]
    rw [correct.ofBlst_eq product, sum]
  | t :: u :: terms, holds =>
    have sum := correct.ops.multPippenger (t :: u :: terms) 256 holds.finite
    have multiples : ((t :: u :: terms).map fun t => lowMultiple t.2 256 t.1).sum = total (t :: u :: terms) := by
      unfold total
      congr 1
      exact List.map_congr_left fun s member => lowMultiple_eq (holds.fits s member) s.1
    rw [multiples] at sum
    have none : (t :: u :: terms).length ≠ 0 := by simp
    have one : (t :: u :: terms).length ≠ 1 := by simp
    rw [if_neg none, if_neg one, holds.points, holds.scalars, correct.ofBlst_eq sum]

/-- **The hook returns the sum of the products**, each scalar modulo the order of the groups. -/
theorem TermSort.Correct.msm_eq (correct : sort.Correct b canonical neg denotes) (scalarCodec : blst.ScalarCodec)
    {element : T → (curve b).Point} {scalars : List ℤ} {g : List T} (sameLength : scalars.length = g.length)
    (decodes : ∀ t ∈ g, sort.Decodes t (element t)) (bounds : ∀ n ∈ scalars, 0 ≤ n ∧ n < 2 ^ 256) :
    sort.msm blst scalars g = .ok (sort.term
      ((g.zip scalars).map fun item => (item.2.toNat % blsModulus) • element item.1).sum) := by
  have length : (g.zip scalars).length = g.length := by rw [List.length_zip, sameLength, Nat.min_self]
  have room : ([] : List (Term b)).length + (g.zip scalars).length ≤ g.length := by
    rw [length, List.length_nil, Nat.zero_add]
  obtain ⟨st, terms, run, holds, sum⟩ := correct.msmLoop_holds scalarCodec (g.zip scalars)
    (fun item member => decodes _ (List.of_mem_zip member).1) (fun item member => bounds _ (List.of_mem_zip member).2)
    (MsmState.Holds.start g.length) room
  have sumZero : total ([] : List (Term b)) = 0 := rfl
  rw [sumZero, zero_add] at sum
  unfold TermSort.msm
  rw [if_neg (not_not.mpr sameLength), run, ← sum, ← correct.msmResult_eq holds]
  rfl

/-! ## The fold of addition and multiplication -/

/-- Add the products one after another. -/
def foldAddMul {T : Type} (add : T → T → Except Raise T) (mul : T → ℤ → Except Raise T) (inf : T) (scalars : List ℤ)
    (points : List T) : Except Raise T :=
  (points.zip scalars).foldlM (fun acc item => do
    let product ← mul item.1 item.2
    add acc product) inf

theorem TermSort.Correct.foldAddMul_eq (correct : sort.Correct b canonical neg denotes)
    (scalarCodec : blst.ScalarCodec) {nbits : ℤ → ℕ} (enough : ∀ n : ℤ, 0 ≤ n → n.toNat < 2 ^ nbits n)
    {element : T → (curve b).Point} {scalars : List ℤ} {g : List T} (decodes : ∀ t ∈ g, sort.Decodes t (element t))
    (bounds : ∀ n ∈ scalars, 0 ≤ n ∧ n < 2 ^ 256) :
    foldAddMul sort.add (sort.mul blst nbits) sort.inf scalars g = .ok (sort.term
      ((g.zip scalars).map fun item => (item.2.toNat % blsModulus) • element item.1).sum) := by
  have stands : ∀ item ∈ g.zip scalars, sort.mul blst nbits item.1 item.2 =
      .ok (sort.term ((item.2.toNat % blsModulus) • element item.1)) := by
    intro item member
    have inRange := bounds _ (List.of_mem_zip member).2
    exact correct.mul_eq scalarCodec (decodes _ (List.of_mem_zip member).1) inRange (enough _ inRange.1)
  have fold := GroupCode.foldlM_encode correct.add_term (g.zip scalars) stands 0
  rw [zero_add, correct.term_zero] at fold
  exact fold

/-- Terms on the curve have elements. -/
theorem TermSort.Correct.exists_elements (correct : sort.Correct b canonical neg denotes) {g : List T}
    (onCurve : ∀ t ∈ g, sort.isOnCurve t = true) : ∃ element : T → (curve b).Point, ∀ t ∈ g, sort.Decodes t (element t) := by
  have elements : ∀ t, ∃ P : (curve b).Point, t ∈ g → sort.Decodes t P := by
    intro t
    by_cases member : t ∈ g
    · obtain ⟨P, decodes⟩ := (correct.isOnCurve_iff t).mp (onCurve t member)
      exact ⟨P, fun _ => decodes⟩
    · exact ⟨0, fun h => absurd h member⟩
  choose element decodes using elements
  exact ⟨element, decodes⟩

/-- The hook and the fold return the same term. -/
theorem TermSort.Correct.msm_eq_foldAddMul (correct : sort.Correct b canonical neg denotes)
    (scalarCodec : blst.ScalarCodec) {nbits : ℤ → ℕ} (enough : ∀ n : ℤ, 0 ≤ n → n.toNat < 2 ^ nbits n)
    {scalars : List ℤ} {g : List T} (sameLength : scalars.length = g.length)
    (onCurve : ∀ t ∈ g, sort.isOnCurve t = true) (bounds : ∀ n ∈ scalars, 0 ≤ n ∧ n < 2 ^ 256) :
    ∃ sum, sort.msm blst scalars g = .ok sum ∧
      foldAddMul sort.add (sort.mul blst nbits) sort.inf scalars g = .ok sum := by
  obtain ⟨element, decodes⟩ := correct.exists_elements onCurve
  exact ⟨_, correct.msm_eq scalarCodec sameLength decodes bounds,
    correct.foldAddMul_eq scalarCodec enough decodes bounds⟩

/-- **Multi-scalar multiplication is the fold of addition over the products**, in both groups. -/
theorem msm_refines_fold {blst : Blst} (fp : blst.FpCodec) (scalarCodec : blst.ScalarCodec)
    {denotes1 : blst.p1.Point → (curve b1).Point → Prop} (p1 : blst.p1.Implements b1 blsModulus denotes1)
    {denotes2 : blst.p2.Point → (curve b2).Point → Prop} (p2 : blst.p2.Implements b2 blsModulus denotes2) :
    (∀ scalars points, scalars.length = points.length → (∀ n ∈ scalars, 0 ≤ n ∧ n < 2 ^ 256) →
      (∀ P ∈ points, hookBls12G1OnCurve blst P = true) →
      ∃ sum, hookBls12G1Msm blst scalars points = .ok sum ∧
        foldAddMul (hookBls12G1Add blst) (hookBls12G1Mul blst) ⟨0, 0⟩ scalars points = .ok sum) ∧
    (∀ scalars points, scalars.length = points.length → (∀ n ∈ scalars, 0 ≤ n ∧ n < 2 ^ 256) →
      (∀ P ∈ points, hookBls12G2OnCurve blst P = true) →
      ∃ sum, hookBls12G2Msm blst scalars points = .ok sum ∧
        foldAddMul (hookBls12G2Add blst) (hookBls12G2Mul blst) ⟨0, 0, 0, 0⟩ scalars points = .ok sum) ∧
    hookBls12G1Msm blst [] [] = .ok ⟨0, 0⟩ ∧ hookBls12G2Msm blst [] [] = .ok ⟨0, 0, 0, 0⟩ := by
  refine ⟨?_, ?_, rfl, rfl⟩
  · intro scalars points sameLength bounds onCurve
    exact (g1_correct fp p1).msm_eq_foldAddMul scalarCodec (fun _ => lt_scalarBits) sameLength onCurve bounds
  · intro scalars points sameLength bounds onCurve
    exact (g2_correct fp p2).msm_eq_foldAddMul scalarCodec (fun _ => lt_mpzSizeinbase2) sameLength onCurve bounds

/-- Infinity between two equal points, and a scalar above the order of the groups. -/
theorem msm_refines_fold_generators :
    (∃ sum, hookBls12G1Msm referenceBlst [3, 5, 2 ^ 256 - 1] [g1Generator, ⟨0, 0⟩, g1Generator] = .ok sum ∧
      foldAddMul (hookBls12G1Add referenceBlst) (hookBls12G1Mul referenceBlst) ⟨0, 0⟩ [3, 5, 2 ^ 256 - 1]
        [g1Generator, ⟨0, 0⟩, g1Generator] = .ok sum) ∧
    ∃ sum, hookBls12G2Msm referenceBlst [7, 0] [⟨0, 0, 0, 0⟩, g2Generator] = .ok sum ∧
      foldAddMul (hookBls12G2Add referenceBlst) (hookBls12G2Mul referenceBlst) ⟨0, 0, 0, 0⟩ [7, 0]
        [⟨0, 0, 0, 0⟩, g2Generator] = .ok sum := by
  obtain ⟨g1, g2, -, -⟩ :=
    msm_refines_fold referenceBlst_fpCodec referenceBlst_scalarCodec referenceBlst_p1 referenceBlst_p2
  refine ⟨g1 _ _ rfl (by decide) ?_, g2 _ _ rfl (by decide) ?_⟩
  · simp only [List.forall_mem_cons, g1Generator_onCurve, g1Inf_onCurve, true_and]
    exact List.forall_mem_nil _
  · simp only [List.forall_mem_cons, g2Generator_onCurve, g2Inf_onCurve, true_and]
    exact List.forall_mem_nil _

end KPlugin.Bls12
