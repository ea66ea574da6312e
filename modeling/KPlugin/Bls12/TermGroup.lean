import KPlugin.Bls12.Msm
import Mathlib.Algebra.Group.Subgroup.Lattice

/-!
# The groups of BLS12-381 on K terms

Addition makes the canonical terms on each curve an abelian group, since they
name the group elements one to one; the subgroup test cuts out the kernel of
multiplication by the order `r`, which sums and multiples do not leave.
-/

namespace KPlugin.Bls12
open ShortWeierstrass GroupCode

/-- The three operations take terms on the curve and in the subgroup to canonical such terms. -/
structure SubgroupClosed {T : Type} (canonical : T → Prop) (onCurve inSubgroup : T → Bool)
    (add : T → T → Except Raise T) (mul : T → ℤ → Except Raise T) (msm : List ℤ → List T → Except Raise T) : Prop where
  add : ∀ s t, onCurve s = true → inSubgroup s = true → onCurve t = true → inSubgroup t = true →
    ∃ u, add s t = .ok u ∧ canonical u ∧ onCurve u = true ∧ inSubgroup u = true
  mul : ∀ t n, onCurve t = true → inSubgroup t = true → 0 ≤ n → n < 2 ^ 256 →
    ∃ u, mul t n = .ok u ∧ canonical u ∧ onCurve u = true ∧ inSubgroup u = true
  msm : ∀ scalars points, scalars.length = points.length → (∀ n ∈ scalars, 0 ≤ n ∧ n < 2 ^ 256) →
    (∀ t ∈ points, onCurve t = true ∧ inSubgroup t = true) →
    ∃ u, msm scalars points = .ok u ∧ canonical u ∧ onCurve u = true ∧ inSubgroup u = true

/-- The elements that `r` annihilates. -/
noncomputable def torsion {K : Type} [Field K] [DecidableEq K] (b : K) : AddSubgroup (curve b).Point :=
  (nsmulAddMonoidHom blsModulus).ker

variable {T K : Type} [Field K] [DecidableEq K] {b : K} {sort : TermSort T K} {canonical : T → Prop} {neg : T → T}
  {denotes : sort.Point → (curve b).Point → Prop} {blst : Blst}

theorem mem_torsion (P : (curve b).Point) : P ∈ torsion b ↔ blsModulus • P = 0 := AddMonoidHom.mem_ker

namespace TermSort.Correct

/-- A decoded term is in the subgroup when its element is. -/
theorem inSubgroup_iff_mem (correct : sort.Correct b canonical neg denotes) {t : T} {P : (curve b).Point}
    (decodes : sort.Decodes t P) : sort.inSubgroup t = true ↔ P ∈ torsion b := by
  rw [correct.inSubgroup_iff decodes, mem_torsion]

/-- The term of an element of the subgroup passes every test. -/
theorem term_mem (correct : sort.Correct b canonical neg denotes) {P : (curve b).Point} (member : P ∈ torsion b) :
    canonical (sort.term P) ∧ sort.isOnCurve (sort.term P) = true ∧ sort.inSubgroup (sort.term P) = true := by
  obtain ⟨shape, on⟩ := correct.code.valid_encode P
  exact ⟨shape, on, (correct.inSubgroup_iff_mem (correct.decodes_term P)).mpr member⟩

theorem isAbelianGroup (correct : sort.Correct b canonical neg denotes) :
    IsAbelianGroup (fun t => canonical t ∧ sort.isOnCurve t = true) sort.add sort.inf neg :=
  correct.code.isAbelianGroup correct.add_term correct.term_zero correct.neg_term

theorem subgroupClosed (correct : sort.Correct b canonical neg denotes) (scalarCodec : blst.ScalarCodec)
    {nbits : ℤ → ℕ} (enough : ∀ n : ℤ, 0 ≤ n → n.toNat < 2 ^ nbits n) :
    SubgroupClosed canonical sort.isOnCurve sort.inSubgroup sort.add (sort.mul blst nbits) (sort.msm blst) where
  add := by
    intro s t onS inS onT inT
    obtain ⟨P, decodesS⟩ := (correct.isOnCurve_iff s).mp onS
    obtain ⟨Q, decodesT⟩ := (correct.isOnCurve_iff t).mp onT
    have memberP := (correct.inSubgroup_iff_mem decodesS).mp inS
    have memberQ := (correct.inSubgroup_iff_mem decodesT).mp inT
    exact ⟨_, correct.add_eq decodesS decodesT, correct.term_mem (add_mem memberP memberQ)⟩
  mul := by
    intro t n onT inT nonnegative small
    obtain ⟨P, decodes⟩ := (correct.isOnCurve_iff t).mp onT
    have member := (correct.inSubgroup_iff_mem decodes).mp inT
    exact ⟨_, correct.mul_eq scalarCodec decodes ⟨nonnegative, small⟩ (enough n nonnegative),
      correct.term_mem (nsmul_mem member _)⟩
  msm := by
    intro scalars points sameLength bounds members
    obtain ⟨element, decodes⟩ := correct.exists_elements fun t member => (members t member).1
    refine ⟨_, correct.msm_eq scalarCodec sameLength decodes bounds, correct.term_mem (list_sum_mem ?_)⟩
    intro product listed
    obtain ⟨item, member, rfl⟩ := List.mem_map.mp listed
    have point := (List.of_mem_zip member).1
    exact nsmul_mem ((correct.inSubgroup_iff_mem (decodes _ point)).mp (members _ point).2) _

end TermSort.Correct

/-- **The canonical terms on each curve are an abelian group** with `(0, 0)` as its
zero and the negated ordinate as the inverse, and the terms in the subgroup are
closed under addition, multiplication and multi-scalar multiplication. -/
theorem terms_form_groups {blst : Blst} (fp : blst.FpCodec) (scalarCodec : blst.ScalarCodec)
    {denotes1 : blst.p1.Point → (curve b1).Point → Prop} (p1 : blst.p1.Implements b1 blsModulus denotes1)
    {denotes2 : blst.p2.Point → (curve b2).Point → Prop} (p2 : blst.p2.Implements b2 blsModulus denotes2) :
    (IsAbelianGroup (fun t => G1Point.Canonical blsFieldModulus t ∧ hookBls12G1OnCurve blst t = true)
      (hookBls12G1Add blst) ⟨0, 0⟩ (G1Point.neg blsFieldModulus) ∧
    IsAbelianGroup (fun t => G2Point.Canonical blsFieldModulus t ∧ hookBls12G2OnCurve blst t = true)
      (hookBls12G2Add blst) ⟨0, 0, 0, 0⟩ (G2Point.neg blsFieldModulus)) ∧
    SubgroupClosed (G1Point.Canonical blsFieldModulus) (hookBls12G1OnCurve blst) (hookBls12G1InSubgroup blst)
      (hookBls12G1Add blst) (hookBls12G1Mul blst) (hookBls12G1Msm blst) ∧
    SubgroupClosed (G2Point.Canonical blsFieldModulus) (hookBls12G2OnCurve blst) (hookBls12G2InSubgroup blst)
      (hookBls12G2Add blst) (hookBls12G2Mul blst) (hookBls12G2Msm blst) := by
  have g1 := g1_correct fp p1
  have g2 := g2_correct fp p2
  refine ⟨⟨g1.isAbelianGroup, g2.isAbelianGroup⟩, ?_, ?_⟩
  · exact g1.subgroupClosed scalarCodec fun _ => lt_scalarBits
  · exact g2.subgroupClosed scalarCodec fun _ => lt_mpzSizeinbase2

/-- The generators have doubles and inverses. -/
theorem terms_form_groups_generators :
    (∃ u, hookBls12G1Add referenceBlst g1Generator g1Generator = .ok u ∧ u.Canonical blsFieldModulus ∧
      hookBls12G1OnCurve referenceBlst u = true) ∧
    hookBls12G1Add referenceBlst g1Generator (g1Generator.neg blsFieldModulus) = .ok ⟨0, 0⟩ ∧
    hookBls12G2Add referenceBlst g2Generator (g2Generator.neg blsFieldModulus) = .ok ⟨0, 0, 0, 0⟩ := by
  obtain ⟨⟨g1, g2⟩, -, -⟩ :=
    terms_form_groups referenceBlst_fpCodec referenceBlst_scalarCodec referenceBlst_p1 referenceBlst_p2
  have valid1 := And.intro g1Generator_canonical g1Generator_onCurve
  have valid2 := And.intro g2Generator_canonical g2Generator_onCurve
  exact ⟨g1.closed _ _ valid1 valid1, g1.add_neg _ valid1, g2.add_neg _ valid2⟩

end KPlugin.Bls12
