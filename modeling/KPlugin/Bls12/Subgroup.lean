import KPlugin.Bls12.Multiples

/-!
# What the subgroup test answers off the curve

blst decides membership by an eigenvalue relation: an endomorphism of the curve
acts on the subgroup as a fixed multiple. The addition formulas do not mention
`b`, so every pair with `y² - x³ ≠ 0` is computed with in the group of its own
curve. The hook asks for no test of the equation before, hence it also accepts the
pairs that satisfy the relation on another curve.
-/

namespace KPlugin.Bls12
open ShortWeierstrass GroupCode

/-! ## The relation -/

/-- An endomorphism on affine pairs, and the multiple it is on the subgroup. -/
structure Eigenvalue (K : Type) where
  map : K × K → K × K
  value : ℤ

section
variable {K : Type} [Field K]

/-- `b` of the curve through a pair. -/
def ownB (c : K × K) : K := c.2 ^ 2 - c.1 ^ 3

variable [DecidableEq K]

/-- The endomorphism takes the pair to its multiple, computed on the curve through it. -/
def Eigenvalue.Holds (e : Eigenvalue K) (c : K × K) : Prop := e.map c = pair (e.value • elementOf (ownB c) c)

/-- Off the curve `blst_p1_in_g1` and `blst_p2_in_g2` still evaluate the relation. -/
def CurveOps.TestsEigenvalue (ops : CurveOps K) (b : K) (e : Eigenvalue K) : Prop :=
  ∀ c, ¬ OnCurve b c → (ops.inG (ops.fromAffine c) = true ↔ e.Holds c)

/-- A chain of doublings and additions decides the relation for a negative multiple. -/
theorem Eigenvalue.holds_of_chain {e : Eigenvalue K} {c : K × K} {n : ℕ} (six : (6 : K) ≠ 0)
    (finite : c ≠ (0, 0)) (nonzero : ownB c ≠ 0) (positive : 0 < n) (value : e.value = -(n : ℤ))
    (reached : ((Triple.ofAffine c).chain (lowerBits n) (.ofAffine c)).At ((e.map c).1, -(e.map c).2)) : e.Holds c := by
  have on : OnCurve (ownB c) c := by
    right
    unfold ownB
    ring
  obtain ⟨P, same⟩ := (onCurve_iff six nonzero c).mp on
  have point : P ≠ 0 := by
    rintro rfl
    exact finite same.symm
  have element : elementOf (ownB c) c = P := by
    have back := elementOf_pair nonzero P
    rwa [same] at back
  rw [← same] at reached
  have multiple := pair_nsmul point reached
  rw [appendBits_lowerBits positive] at multiple
  unfold Eigenvalue.Holds
  rw [element, value, neg_smul, natCast_zsmul, pair_neg, multiple, same, neg_neg]

end

/-! ## The test -/

section
variable {T K : Type} [Field K] [DecidableEq K] {b : K} {sort : TermSort T K} {canonical : T → Prop} {neg : T → T}
  {denotes : sort.Point → (curve b).Point → Prop}

/-- Membership as the hooks can tell it: on the curve, and `r` copies add up to infinity. -/
def IsMember (onCurve : T → Bool) (add : T → T → Except Raise T) (inf t : T) : Prop :=
  onCurve t = true ∧ nfold add inf blsModulus t = .ok inf

namespace TermSort.Correct

/-- On the curve the test tells membership. -/
theorem inSubgroup_onCurve (correct : sort.Correct b canonical neg denotes) {c : K × K} (on : OnCurve b c) :
    sort.inSubgroup (sort.encode c) = true ↔ IsMember sort.isOnCurve sort.add sort.inf (sort.encode c) := by
  obtain ⟨P, rfl⟩ := (onCurve_iff correct.six_ne_zero correct.b_ne_zero c).mp on
  have accepted : sort.isOnCurve (sort.encode (pair P)) = true :=
    (correct.isOnCurve_iff _).mpr ⟨P, correct.decodes_term P⟩
  have copies := nfold_encode correct.add_term correct.term_zero blsModulus P
  unfold IsMember
  rw [and_iff_right accepted]
  change sort.inSubgroup (sort.term P) = true ↔ nfold sort.add sort.inf blsModulus (sort.term P) = .ok sort.inf
  rw [correct.inSubgroup_iff (correct.decodes_term P), copies, Except.ok.injEq, ← correct.term_zero]
  exact correct.code.injective.eq_iff.symm

/-- Off the curve the curve test refuses. -/
theorem isOnCurve_offCurve (correct : sort.Correct b canonical neg denotes) {c : K × K} (off : ¬ OnCurve b c) :
    sort.isOnCurve (sort.encode c) = false := by
  apply Bool.eq_false_iff.mpr
  intro accepted
  obtain ⟨P, decodes⟩ := (correct.isOnCurve_iff _).mp accepted
  have same : c = pair P := Option.some.inj ((correct.codec.decode_encode c).symm.trans decodes)
  exact off (same ▸ onCurve_pair P)

/-- Off the curve the test is the relation. -/
theorem inSubgroup_offCurve (correct : sort.Correct b canonical neg denotes) {e : Eigenvalue K}
    (tests : sort.toCurveOps.TestsEigenvalue b e) {c : K × K} (off : ¬ OnCurve b c) :
    sort.inSubgroup (sort.encode c) = true ↔ e.Holds c := by
  have finite := (correct.ops.fromAffine_off c off).1
  unfold TermSort.inSubgroup
  rw [TermSort.toBlst_eq (correct.codec.decode_encode c)]
  simp only [finite, Bool.false_eq_true, if_false]
  exact tests c off

/-- **When the test tells membership**: on the curve, and where the relation fails. -/
theorem inSubgroup_correct_iff (correct : sort.Correct b canonical neg denotes) {e : Eigenvalue K}
    (tests : sort.toCurveOps.TestsEigenvalue b e) (c : K × K) :
    (sort.inSubgroup (sort.encode c) = true ↔ IsMember sort.isOnCurve sort.add sort.inf (sort.encode c)) ↔
      OnCurve b c ∨ ¬ e.Holds c := by
  by_cases on : OnCurve b c
  · exact iff_of_true (correct.inSubgroup_onCurve on) (.inl on)
  · have outside : ¬ IsMember sort.isOnCurve sort.add sort.inf (sort.encode c) := by
      rintro ⟨accepted, -⟩
      exact Bool.false_ne_true ((correct.isOnCurve_offCurve on).symm.trans accepted)
    rw [correct.inSubgroup_offCurve tests on, or_iff_right on, iff_false_right outside]

end TermSort.Correct

end

section
variable {blst : Blst}

theorem g1InSubgroup_tells_iff (fp : blst.FpCodec) {denotes1 : blst.p1.Point → (curve b1).Point → Prop}
    (p1 : blst.p1.Implements b1 blsModulus denotes1) {e : Eigenvalue Fp} (tests : blst.p1.TestsEigenvalue b1 e)
    (t : G1Point) (shape : t.Canonical blsFieldModulus) :
    (hookBls12G1InSubgroup blst t = true ↔ IsMember (hookBls12G1OnCurve blst) (hookBls12G1Add blst) ⟨0, 0⟩ t) ↔
      OnCurve b1 ((t.x : Fp), (t.y : Fp)) ∨ ¬ e.Holds ((t.x : Fp), (t.y : Fp)) := by
  have tells := (g1_correct fp p1).inSubgroup_correct_iff tests ((t.x : Fp), (t.y : Fp))
  have same : (g1Sort blst).encode ((t.x : Fp), (t.y : Fp)) = t := g1pointOfAffine_intCast fp shape
  rwa [same] at tells

theorem g2InSubgroup_tells_iff (fp : blst.FpCodec) {denotes2 : blst.p2.Point → (curve b2).Point → Prop}
    (p2 : blst.p2.Implements b2 blsModulus denotes2) {e : Eigenvalue Fp2} (tests : blst.p2.TestsEigenvalue b2 e)
    (t : G2Point) (shape : t.Canonical blsFieldModulus) :
    (hookBls12G2InSubgroup blst t = true ↔
        IsMember (hookBls12G2OnCurve blst) (hookBls12G2Add blst) ⟨0, 0, 0, 0⟩ t) ↔
      OnCurve b2 ((⟨t.x0, t.x1⟩ : Fp2), (⟨t.y0, t.y1⟩ : Fp2)) ∨
        ¬ e.Holds ((⟨t.x0, t.x1⟩ : Fp2), (⟨t.y0, t.y1⟩ : Fp2)) := by
  have tells := (g2_correct fp p2).inSubgroup_correct_iff tests ((⟨t.x0, t.x1⟩ : Fp2), (⟨t.y0, t.y1⟩ : Fp2))
  have same : (g2Sort blst).encode ((⟨t.x0, t.x1⟩ : Fp2), (⟨t.y0, t.y1⟩ : Fp2)) = t := g2pointOfAffine_intCast fp shape
  rwa [same] at tells

end

/-- **The subgroup tests tell membership** exactly on the points of the curve and on the
other pairs that do not satisfy the relation on their own curve. -/
theorem inSubgroup_tells_membership_iff {blst : Blst} (fp : blst.FpCodec)
    {denotes1 : blst.p1.Point → (curve b1).Point → Prop} (p1 : blst.p1.Implements b1 blsModulus denotes1)
    {denotes2 : blst.p2.Point → (curve b2).Point → Prop} (p2 : blst.p2.Implements b2 blsModulus denotes2)
    {e1 : Eigenvalue Fp} (tests1 : blst.p1.TestsEigenvalue b1 e1)
    {e2 : Eigenvalue Fp2} (tests2 : blst.p2.TestsEigenvalue b2 e2) :
    (∀ t : G1Point, t.Canonical blsFieldModulus →
      ((hookBls12G1InSubgroup blst t = true ↔ IsMember (hookBls12G1OnCurve blst) (hookBls12G1Add blst) ⟨0, 0⟩ t) ↔
        OnCurve b1 ((t.x : Fp), (t.y : Fp)) ∨ ¬ e1.Holds ((t.x : Fp), (t.y : Fp)))) ∧
    ∀ t : G2Point, t.Canonical blsFieldModulus →
      ((hookBls12G2InSubgroup blst t = true ↔
          IsMember (hookBls12G2OnCurve blst) (hookBls12G2Add blst) ⟨0, 0, 0, 0⟩ t) ↔
        OnCurve b2 ((⟨t.x0, t.x1⟩ : Fp2), (⟨t.y0, t.y1⟩ : Fp2)) ∨
          ¬ e2.Holds ((⟨t.x0, t.x1⟩ : Fp2), (⟨t.y0, t.y1⟩ : Fp2))) := by
  constructor
  · exact g1InSubgroup_tells_iff fp p1 tests1
  · exact g2InSubgroup_tells_iff fp p2 tests2

/-! ## Points of another curve -/

/-- `σ(x, y) = (β x, y)`, which is multiplication by `-z²` on the first subgroup. -/
def sigma : Eigenvalue Fp where
  map c := (0x5F19672FDF76CE51BA69C6076A0F77EADDB3A93BE6F89688DE17D813620A00022E01FFFFFFFEFFFE * c.1, c.2)
  value := -0xAC45A4010001A4020000000100000000

/-- The untwisted Frobenius endomorphism, which is multiplication by `-z` on the second subgroup. -/
def psi : Eigenvalue Fp2 where
  map c :=
    (⟨c.1.re, -c.1.im⟩ *
        ⟨0, 0x1A0111EA397FE699EC02408663D4DE85AA0D857D89759AD4897D29650FB85F9B409427EB4F49FFFD8BFD00000000AAAD⟩,
      ⟨c.2.re, -c.2.im⟩ *
        ⟨0x135203E60180A68EE2E9C448D77A2CD91C3DEDD930B1CF60EF396489F61EB45E304466CF3E67FA0AF1EE7B04121BDEA2,
          0x6AF0E0437FF400B6831E36D6BD17FFE48395DABC2D3435E77F76E17009241C5EE67992F72EC05F4C81084FBEDE3CC09⟩)
  value := -0xD201000000010000

/-- With the relations that blst evaluates the tests are wrong exactly on the pairs off the curve
that `σ` takes to their multiple by `-z²`, or `ψ` to that by `-z`. -/
theorem inSubgroup_tells_membership_endomorphisms {blst : Blst} (fp : blst.FpCodec)
    {denotes1 : blst.p1.Point → (curve b1).Point → Prop} (p1 : blst.p1.Implements b1 blsModulus denotes1)
    {denotes2 : blst.p2.Point → (curve b2).Point → Prop} (p2 : blst.p2.Implements b2 blsModulus denotes2)
    (tests1 : blst.p1.TestsEigenvalue b1 sigma) (tests2 : blst.p2.TestsEigenvalue b2 psi) :
    (∀ t : G1Point, t.Canonical blsFieldModulus →
      ((hookBls12G1InSubgroup blst t = true ↔ IsMember (hookBls12G1OnCurve blst) (hookBls12G1Add blst) ⟨0, 0⟩ t) ↔
        OnCurve b1 ((t.x : Fp), (t.y : Fp)) ∨ ¬ sigma.Holds ((t.x : Fp), (t.y : Fp)))) ∧
    ∀ t : G2Point, t.Canonical blsFieldModulus →
      ((hookBls12G2InSubgroup blst t = true ↔
          IsMember (hookBls12G2OnCurve blst) (hookBls12G2Add blst) ⟨0, 0, 0, 0⟩ t) ↔
        OnCurve b2 ((⟨t.x0, t.x1⟩ : Fp2), (⟨t.y0, t.y1⟩ : Fp2)) ∨
          ¬ psi.Holds ((⟨t.x0, t.x1⟩ : Fp2), (⟨t.y0, t.y1⟩ : Fp2))) :=
  ⟨g1InSubgroup_tells_iff fp p1 tests1, g2InSubgroup_tells_iff fp p2 tests2⟩

open Classical in
/-- The reference library with a membership test that evaluates the relation off the curve. -/
noncomputable def eigenOps {K : Type} [Field K] [DecidableEq K] (b : K) (r : ℕ) (e : Eigenvalue K) :
    CurveOps K :=
  { referenceOps b r with
    inG := fun p =>
      Sum.elim (fun P : (curve b).Point => decide (r • P = 0)) (fun c : K × K => decide (e.Holds c)) p }

noncomputable def eigenBlst : Blst :=
  { referenceBlst with
    p1 := eigenOps b1 blsModulus sigma
    p2 := eigenOps b2 blsModulus psi }

open Classical in
theorem eigenOps_implements {K : Type} [Field K] [DecidableEq K] {b : K} (nonzero : b ≠ 0) (r : ℕ)
    (e : Eigenvalue K) : (eigenOps b r e).Implements b r fun p P => p = .inl P :=
  { referenceOps_implements nonzero r with
    inG := by
      rintro p P rfl
      exact decide_eq_true_iff }

open Classical in
theorem eigenOps_tests {K : Type} [Field K] [DecidableEq K] (b : K) (r : ℕ) (e : Eigenvalue K) :
    (eigenOps b r e).TestsEigenvalue b e := by
  intro c off
  have out : (eigenOps b r e).fromAffine c = Sum.inr c := if_neg off
  rw [out]
  exact decide_eq_true_iff

theorem eigenBlst_fpCodec : eigenBlst.FpCodec :=
  ⟨referenceBlst_fpCodec.fpFromLendian, referenceBlst_fpCodec.lendianFromFp⟩

theorem eigenBlst_p1 : eigenBlst.p1.Implements b1 blsModulus fun p P => p = .inl P :=
  eigenOps_implements b1_ne_zero blsModulus sigma

theorem eigenBlst_p2 : eigenBlst.p2.Implements b2 blsModulus fun p P => p = .inl P :=
  eigenOps_implements b2_ne_zero blsModulus psi

theorem eigenBlst_tests1 : eigenBlst.p1.TestsEigenvalue b1 sigma := eigenOps_tests b1 blsModulus sigma

theorem eigenBlst_tests2 : eigenBlst.p2.TestsEigenvalue b2 psi := eigenOps_tests b2 blsModulus psi

/-- On the generators the tests tell membership. -/
theorem inSubgroup_tells_membership_generators :
    (hookBls12G1InSubgroup eigenBlst g1Generator = true ↔
      IsMember (hookBls12G1OnCurve eigenBlst) (hookBls12G1Add eigenBlst) ⟨0, 0⟩ g1Generator) ∧
    (hookBls12G2InSubgroup eigenBlst g2Generator = true ↔
      IsMember (hookBls12G2OnCurve eigenBlst) (hookBls12G2Add eigenBlst) ⟨0, 0, 0, 0⟩ g2Generator) := by
  obtain ⟨g1, g2⟩ :=
    inSubgroup_tells_membership_iff eigenBlst_fpCodec eigenBlst_p1 eigenBlst_p2 eigenBlst_tests1 eigenBlst_tests2
  refine ⟨(g1 _ g1Generator_canonical).mpr (.inl (.inr ?_)), (g2 _ g2Generator_canonical).mpr (.inl (.inr ?_))⟩
  · decide +kernel
  · decide +kernel

/-- The image `(4 x, 8 y)` of the first generator on `y² = x³ + 256`. -/
def scaledG1 : G1Point := ⟨4 * g1Generator.x % blsFieldModulus, 8 * g1Generator.y % blsFieldModulus⟩

/-- The image `(4 x, 8 y)` of the second generator on `y² = x³ + 256 (1 + i)`. -/
def scaledG2 : G2Point where
  x0 := 4 * g2Generator.x0 % blsFieldModulus
  x1 := 4 * g2Generator.x1 % blsFieldModulus
  y0 := 8 * g2Generator.y0 % blsFieldModulus
  y1 := 8 * g2Generator.y1 % blsFieldModulus

theorem scaledG1_holds : sigma.Holds ((scaledG1.x : Fp), (scaledG1.y : Fp)) := by
  have value : sigma.value = -((0xAC45A4010001A4020000000100000000 : ℕ) : ℤ) := rfl
  have finite : ((scaledG1.x : Fp), (scaledG1.y : Fp)) ≠ (0, 0) := by decide +kernel
  have nonzero : ownB ((scaledG1.x : Fp), (scaledG1.y : Fp)) ≠ 0 := by decide +kernel
  apply Eigenvalue.holds_of_chain six_ne_zero_fp finite nonzero (by decide) value
  decide +kernel

theorem scaledG2_holds : psi.Holds ((⟨scaledG2.x0, scaledG2.x1⟩ : Fp2), (⟨scaledG2.y0, scaledG2.y1⟩ : Fp2)) := by
  have value : psi.value = -((0xD201000000010000 : ℕ) : ℤ) := rfl
  have finite : ((⟨scaledG2.x0, scaledG2.x1⟩ : Fp2), (⟨scaledG2.y0, scaledG2.y1⟩ : Fp2)) ≠ (0, 0) := by
    decide +kernel
  have nonzero : ownB ((⟨scaledG2.x0, scaledG2.x1⟩ : Fp2), (⟨scaledG2.y0, scaledG2.y1⟩ : Fp2)) ≠ 0 := by
    decide +kernel
  apply Eigenvalue.holds_of_chain six_ne_zero_fp2 finite nonzero (by decide) value
  decide +kernel

theorem scaledG1_canonical : scaledG1.Canonical blsFieldModulus := by
  unfold G1Point.Canonical
  decide +kernel

theorem scaledG2_canonical : scaledG2.Canonical blsFieldModulus := by
  unfold G2Point.Canonical
  decide +kernel

/-- Both tests take a point of another curve for a member of the subgroup. -/
theorem inSubgroup_accepts_scaled_generators :
    (hookBls12G1InSubgroup eigenBlst scaledG1 = true ∧ hookBls12G1OnCurve eigenBlst scaledG1 = false) ∧
    (hookBls12G2InSubgroup eigenBlst scaledG2 = true ∧ hookBls12G2OnCurve eigenBlst scaledG2 = false) ∧
    (¬ ∀ t : G1Point, t.Canonical blsFieldModulus → (hookBls12G1InSubgroup eigenBlst t = true ↔
      IsMember (hookBls12G1OnCurve eigenBlst) (hookBls12G1Add eigenBlst) ⟨0, 0⟩ t)) ∧
    ¬ ∀ t : G2Point, t.Canonical blsFieldModulus → (hookBls12G2InSubgroup eigenBlst t = true ↔
      IsMember (hookBls12G2OnCurve eigenBlst) (hookBls12G2Add eigenBlst) ⟨0, 0, 0, 0⟩ t) := by
  have g1 : hookBls12G1InSubgroup eigenBlst scaledG1 = true ∧ hookBls12G1OnCurve eigenBlst scaledG1 = false := by
    have off : ¬ OnCurve b1 ((scaledG1.x : Fp), (scaledG1.y : Fp)) := by
      unfold OnCurve
      decide +kernel
    have correct := g1_correct eigenBlst_fpCodec eigenBlst_p1
    have wrong := And.intro ((correct.inSubgroup_offCurve eigenBlst_tests1 off).mpr scaledG1_holds)
      (correct.isOnCurve_offCurve off)
    have same : (g1Sort eigenBlst).encode ((scaledG1.x : Fp), (scaledG1.y : Fp)) = scaledG1 :=
      g1pointOfAffine_intCast eigenBlst_fpCodec scaledG1_canonical
    rwa [same] at wrong
  have g2 : hookBls12G2InSubgroup eigenBlst scaledG2 = true ∧ hookBls12G2OnCurve eigenBlst scaledG2 = false := by
    have off : ¬ OnCurve b2 ((⟨scaledG2.x0, scaledG2.x1⟩ : Fp2), (⟨scaledG2.y0, scaledG2.y1⟩ : Fp2)) := by
      unfold OnCurve
      decide +kernel
    have correct := g2_correct eigenBlst_fpCodec eigenBlst_p2
    have wrong := And.intro ((correct.inSubgroup_offCurve eigenBlst_tests2 off).mpr scaledG2_holds)
      (correct.isOnCurve_offCurve off)
    have same : (g2Sort eigenBlst).encode ((⟨scaledG2.x0, scaledG2.x1⟩ : Fp2), (⟨scaledG2.y0, scaledG2.y1⟩ : Fp2)) =
        scaledG2 := g2pointOfAffine_intCast eigenBlst_fpCodec scaledG2_canonical
    rwa [same] at wrong
  refine ⟨g1, g2, ?_, ?_⟩
  · intro tells
    have member := (tells _ scaledG1_canonical).mp g1.1
    exact Bool.false_ne_true (g1.2.symm.trans member.1)
  · intro tells
    have member := (tells _ scaledG2_canonical).mp g2.1
    exact Bool.false_ne_true (g2.2.symm.trans member.1)

end KPlugin.Bls12
