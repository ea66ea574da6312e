import KPlugin.Bls12.Reference

/-!
# Which integers the curve test accepts

The decoder looks at the size of a coordinate and then exports its absolute
value, which blst reduces modulo `p`: a negative coordinate, or one from `p` up to
384 bits, stands for a residue it is not. So the curve test accepts a point under
many encodings, of which the canonical one is the only one meant.
-/

namespace KPlugin.Bls12
open Radix ShortWeierstrass

/-! ## What the test relies on -/

/-- `blst_fp_from_lendian` reduces its 48 bytes modulo `p`. -/
def Blst.FpReduces (blst : Blst) : Prop := ∀ le : Bytes, le.length = 48 → blst.fpFromLendian le = (value le : Fp)

/-- An affine pair is infinity when it is zero, and otherwise on the curve when the equation holds. -/
structure CurveOps.TestsEquation {K : Type} [Field K] (ops : CurveOps K) (b : K) : Prop where
  isInf : ∀ c, ops.isInf (ops.fromAffine c) = true ↔ c = (0, 0)
  onCurve : ∀ c, c ≠ (0, 0) → (ops.onCurve (ops.fromAffine c) = true ↔ c.2 ^ 2 = c.1 ^ 3 + b)

/-! ## What a term decodes to -/

/-- The class of the absolute value. -/
def residue (m : ℤ) : Fp := (m.natAbs : Fp)

def residues1 (t : G1Point) : Fp × Fp := (residue t.x, residue t.y)

def residues2 (t : G2Point) : Fp2 × Fp2 := (⟨residue t.x0, residue t.x1⟩, ⟨residue t.y0, residue t.y1⟩)

theorem residue_zero : residue 0 = 0 := Nat.cast_zero

/-- Only a number that is not negative stands for its own class. -/
theorem residue_eq_intCast {m : ℤ} (nonnegative : 0 ≤ m) : residue m = (m : Fp) := by
  obtain ⟨n, rfl⟩ := Int.eq_ofNat_of_zero_le nonnegative
  unfold residue
  rw [Int.natAbs_natCast, Int.cast_natCast]

variable {blst : Blst}

/-- **A coordinate decodes to the class of its absolute value.** -/
theorem mpzPtrToBlstFp_eq_residue (reduces : blst.FpReduces) {m : ℤ} (fits : FitsFp m) :
    mpzPtrToBlstFp blst m = some (residue m) := by
  obtain ⟨le, length, same, decoded⟩ := mpzPtrToBlstFp_of_fits blst fits
  rw [decoded, reduces le length, same]
  rfl

/-- How a sort decodes: by size, then modulo `p`; and what its canonical terms are. -/
structure TermSort.Reduces {T K : Type} [Zero K] (sort : TermSort T K) (canonical fits : T → Prop)
    (residues : T → K × K) : Prop where
  accepts : ∀ t, fits t → sort.decode t = some (residues t)
  refuses : ∀ t, ¬ fits t → sort.decode t = none
  fits : ∀ t, canonical t → fits t
  inf : ∀ t, canonical t → (residues t = (0, 0) ↔ t = sort.inf)
  canonical_inf : canonical sort.inf

theorem residue_eq_zero_iff {m : ℤ} (bounds : 0 ≤ m ∧ m < blsFieldModulus) : residue m = 0 ↔ m = 0 := by
  constructor
  · intro zero
    rw [residue_eq_intCast bounds.1] at zero
    have same := val_intCast bounds
    rw [zero, ZMod.val_zero] at same
    exact same.symm
  · rintro rfl
    exact residue_zero

theorem g1_reduces (reduces : blst.FpReduces) :
    (g1Sort blst).Reduces (G1Point.Canonical blsFieldModulus) Fits1 residues1 where
  refuses := fun t long => (g1_decode_eq_none_iff blst t).mpr long
  accepts := by
    rintro t ⟨first, second⟩
    change g1pointToBlstP1Affine blst t = _
    unfold g1pointToBlstP1Affine
    by_cases origin : t.x = 0 ∧ t.y = 0
    · rw [if_pos origin, residues1, origin.1, origin.2, residue_zero]
      rfl
    · rw [if_neg origin, mpzPtrToBlstFp_eq_residue reduces first, mpzPtrToBlstFp_eq_residue reduces second]
      rfl
  fits := fun t canonical => ⟨fitsFp_of_canonical canonical.1, fitsFp_of_canonical canonical.2⟩
  inf := by
    rintro ⟨x, y⟩ ⟨boundsX, boundsY⟩
    change ((residue x, residue y) : Fp × Fp) = (0, 0) ↔ (⟨x, y⟩ : G1Point) = ⟨0, 0⟩
    rw [Prod.mk.injEq, residue_eq_zero_iff boundsX, residue_eq_zero_iff boundsY, G1Point.mk.injEq]
  canonical_inf := by
    change (⟨0, 0⟩ : G1Point).Canonical blsFieldModulus
    unfold G1Point.Canonical
    decide +kernel

theorem g2_reduces (reduces : blst.FpReduces) :
    (g2Sort blst).Reduces (G2Point.Canonical blsFieldModulus) Fits2 residues2 where
  refuses := fun t long => (g2_decode_eq_none_iff blst t).mpr long
  accepts := by
    rintro t ⟨x0, x1, y0, y1⟩
    change g2pointToBlstP2Affine blst t = _
    unfold g2pointToBlstP2Affine
    by_cases origin : t.x0 = 0 ∧ t.y0 = 0 ∧ t.x1 = 0 ∧ t.y1 = 0
    · rw [if_pos origin, residues2, origin.1, origin.2.1, origin.2.2.1, origin.2.2.2, residue_zero]
      rfl
    · rw [if_neg origin, mpzPtrToBlstFp_eq_residue reduces x0, mpzPtrToBlstFp_eq_residue reduces x1,
        mpzPtrToBlstFp_eq_residue reduces y0, mpzPtrToBlstFp_eq_residue reduces y1]
      rfl
  fits := by
    rintro t ⟨x0, x1, y0, y1⟩
    exact ⟨fitsFp_of_canonical x0, fitsFp_of_canonical x1, fitsFp_of_canonical y0, fitsFp_of_canonical y1⟩
  inf := by
    rintro ⟨x0, x1, y0, y1⟩ ⟨boundsX0, boundsX1, boundsY0, boundsY1⟩
    change ((⟨residue x0, residue x1⟩, ⟨residue y0, residue y1⟩) : Fp2 × Fp2) = (⟨0, 0⟩, ⟨0, 0⟩) ↔
      (⟨x0, x1, y0, y1⟩ : G2Point) = ⟨0, 0, 0, 0⟩
    rw [Prod.mk.injEq, QuadraticAlgebra.mk.injEq, QuadraticAlgebra.mk.injEq, residue_eq_zero_iff boundsX0,
      residue_eq_zero_iff boundsX1, residue_eq_zero_iff boundsY0, residue_eq_zero_iff boundsY1, G2Point.mk.injEq,
      and_assoc]
  canonical_inf := by
    change (⟨0, 0, 0, 0⟩ : G2Point).Canonical blsFieldModulus
    unfold G2Point.Canonical
    decide +kernel

/-! ## The curve test -/

section
variable {T K : Type} [Field K] [DecidableEq K] {b : K} {sort : TermSort T K} {canonical fits : T → Prop}
  {residues : T → K × K}

/-- A term that decodes is accepted when what it decodes to is on the curve. -/
theorem TermSort.isOnCurve_decoded (tests : sort.toCurveOps.TestsEquation b) {t : T} {c : K × K}
    (decoded : sort.decode t = some c) : sort.isOnCurve t = true ↔ OnCurve b c := by
  unfold TermSort.isOnCurve OnCurve
  rw [TermSort.toBlst_eq decoded]
  by_cases zero : c = (0, 0)
  · simp only [(tests.isInf c).mpr zero, if_true, true_iff]
    exact .inl zero
  · have finite : ¬ sort.isInf (sort.fromAffine c) = true := fun isInf => zero ((tests.isInf c).mp isInf)
    simp only [if_neg finite, or_iff_right zero]
    exact tests.onCurve c zero

/-- **What the test accepts**: integers that fit, whatever their sign, and whose
absolute values are on the curve modulo `p`. -/
theorem TermSort.Reduces.isOnCurve_iff (reduces : sort.Reduces canonical fits residues)
    (tests : sort.toCurveOps.TestsEquation b) (t : T) :
    sort.isOnCurve t = true ↔ fits t ∧ OnCurve b (residues t) := by
  by_cases short : fits t
  · rw [TermSort.isOnCurve_decoded tests (reduces.accepts t short), and_iff_right short]
  · refine iff_of_false ?_ fun both => short both.1
    unfold TermSort.isOnCurve TermSort.toBlst
    rw [reduces.refuses t short]
    exact Bool.false_ne_true

/-- **When the test accepts the canonical encodings only.** -/
theorem TermSort.Reduces.accepts_encodings_iff (reduces : sort.Reduces canonical fits residues)
    (tests : sort.toCurveOps.TestsEquation b) (t : T) :
    (sort.isOnCurve t = true ↔
      t = sort.inf ∨ (canonical t ∧ (residues t).2 ^ 2 = (residues t).1 ^ 3 + b)) ↔
      canonical t ∨ ¬ fits t ∨ ¬ OnCurve b (residues t) := by
  rw [reduces.isOnCurve_iff tests]
  by_cases shape : canonical t
  · refine iff_of_true ?_ (.inl shape)
    rw [and_iff_right (reduces.fits t shape), and_iff_right shape, OnCurve, reduces.inf t shape]
  · have other : t ≠ sort.inf := by
      rintro rfl
      exact shape reduces.canonical_inf
    simp only [shape, other, false_and, or_false, false_or, iff_false, not_and_or]

end

/-- `(0, 0)`, or a solution of the equation of the first curve in residues. -/
def EncodesG1 (t : G1Point) : Prop :=
  t = ⟨0, 0⟩ ∨ (t.Canonical blsFieldModulus ∧ (t.y : Fp) ^ 2 = (t.x : Fp) ^ 3 + b1)

/-- All zero, or a solution of the equation of the twist in residues. -/
def EncodesG2 (t : G2Point) : Prop :=
  t = ⟨0, 0, 0, 0⟩ ∨ (t.Canonical blsFieldModulus ∧
    (⟨(t.y0 : Fp), (t.y1 : Fp)⟩ : Fp2) ^ 2 = (⟨(t.x0 : Fp), (t.x1 : Fp)⟩ : Fp2) ^ 3 + b2)

theorem encodesG1_iff (t : G1Point) :
    EncodesG1 t ↔ t = ⟨0, 0⟩ ∨ (t.Canonical blsFieldModulus ∧ (residues1 t).2 ^ 2 = (residues1 t).1 ^ 3 + b1) := by
  unfold EncodesG1 residues1
  refine or_congr_right (and_congr_right fun canonical => ?_)
  rw [residue_eq_intCast canonical.1.1, residue_eq_intCast canonical.2.1]

theorem encodesG2_iff (t : G2Point) :
    EncodesG2 t ↔ t = ⟨0, 0, 0, 0⟩ ∨
      (t.Canonical blsFieldModulus ∧ (residues2 t).2 ^ 2 = (residues2 t).1 ^ 3 + b2) := by
  unfold EncodesG2 residues2
  refine or_congr_right (and_congr_right fun canonical => ?_)
  obtain ⟨x0, x1, y0, y1⟩ := canonical
  rw [residue_eq_intCast x0.1, residue_eq_intCast x1.1, residue_eq_intCast y0.1, residue_eq_intCast y1.1]

/-- **The curve tests accept exactly the encodings of points** on canonical integers,
on integers that are too large, and on those that decode to no point; on no others. -/
theorem onCurve_accepts_encodings_iff {blst : Blst} (fp : blst.FpReduces) (p1 : blst.p1.TestsEquation b1)
    (p2 : blst.p2.TestsEquation b2) :
    (∀ t : G1Point, (hookBls12G1OnCurve blst t = true ↔ EncodesG1 t) ↔
      t.Canonical blsFieldModulus ∨ ¬ Fits1 t ∨ ¬ OnCurve b1 (residues1 t)) ∧
    ∀ t : G2Point, (hookBls12G2OnCurve blst t = true ↔ EncodesG2 t) ↔
      t.Canonical blsFieldModulus ∨ ¬ Fits2 t ∨ ¬ OnCurve b2 (residues2 t) := by
  constructor
  · intro t
    rw [encodesG1_iff]
    exact (g1_reduces fp).accepts_encodings_iff p1 t
  · intro t
    rw [encodesG2_iff]
    exact (g2_reduces fp).accepts_encodings_iff p2 t

/-! ## Second encodings -/

theorem referenceBlst_fpReduces : referenceBlst.FpReduces := fun _ _ => rfl

theorem referenceOps_testsEquation {K : Type} [Field K] [DecidableEq K] {b : K} (six : (6 : K) ≠ 0) (nonzero : b ≠ 0)
    (r : ℕ) : (referenceOps b r).TestsEquation b where
  isInf := by
    intro c
    by_cases on : OnCurve b c
    · obtain ⟨P, rfl⟩ := (onCurve_iff six nonzero c).mp on
      have stands := (referenceOps_implements nonzero r).fromAffine P
      rw [(referenceOps_implements nonzero r).isInf _ P stands, pair_eq_zero_iff nonzero]
    · rw [((referenceOps_implements nonzero r).fromAffine_off c on).1]
      exact iff_of_false Bool.false_ne_true fun zero => on (.inl zero)
  onCurve := by
    intro c finite
    by_cases on : OnCurve b c
    · obtain ⟨P, rfl⟩ := (onCurve_iff six nonzero c).mp on
      have stands := (referenceOps_implements nonzero r).fromAffine P
      rw [(referenceOps_implements nonzero r).onCurve _ P stands]
      exact iff_of_true rfl (on.resolve_left finite)
    · rw [((referenceOps_implements nonzero r).fromAffine_off c on).2]
      exact iff_of_false Bool.false_ne_true fun equation => on (.inr equation)

theorem referenceBlst_tests1 : referenceBlst.p1.TestsEquation b1 :=
  referenceOps_testsEquation six_ne_zero_fp b1_ne_zero blsModulus

theorem referenceBlst_tests2 : referenceBlst.p2.TestsEquation b2 :=
  referenceOps_testsEquation six_ne_zero_fp2 b2_ne_zero blsModulus

/-- The generators are accepted as the encodings they are, and a coordinate of 385
bits is refused. -/
theorem onCurve_accepts_encodings_generators :
    (hookBls12G1OnCurve referenceBlst g1Generator = true ↔ EncodesG1 g1Generator) ∧
    (hookBls12G2OnCurve referenceBlst g2Generator = true ↔ EncodesG2 g2Generator) ∧
    (hookBls12G1OnCurve referenceBlst ⟨2 ^ 384, 2⟩ = true ↔ EncodesG1 ⟨2 ^ 384, 2⟩) := by
  obtain ⟨g1, g2⟩ :=
    onCurve_accepts_encodings_iff referenceBlst_fpReduces referenceBlst_tests1 referenceBlst_tests2
  refine ⟨(g1 _).mpr (.inl g1Generator_canonical), (g2 _).mpr (.inl g2Generator_canonical), (g1 _).mpr (.inr (.inl ?_))⟩
  unfold Fits1 FitsFp
  decide +kernel

/-- `(0, 2)` with its sign lost. -/
def negatedOrdinate : G1Point := ⟨0, -2⟩

/-- `(0, 2)` with an abscissa that is not reduced. -/
def unreducedAbscissa : G1Point := ⟨blsFieldModulus, 2⟩

/-- The generator with a coordinate that is not reduced. -/
def unreducedGenerator : G2Point := { g2Generator with x0 := g2Generator.x0 + blsFieldModulus }

/-- A term that is not canonical encodes no point. -/
theorem not_encodesG1 {t : G1Point} (shape : ¬ t.Canonical blsFieldModulus) : ¬ EncodesG1 t := by
  rintro (rfl | ⟨canonical, -⟩)
  · exact shape ((g1_reduces referenceBlst_fpReduces).canonical_inf)
  · exact shape canonical

theorem not_encodesG2 {t : G2Point} (shape : ¬ t.Canonical blsFieldModulus) : ¬ EncodesG2 t := by
  rintro (rfl | ⟨canonical, -⟩)
  · exact shape ((g2_reduces referenceBlst_fpReduces).canonical_inf)
  · exact shape canonical

/-- A lost sign and an abscissa or a coordinate above the modulus are accepted. -/
theorem onCurve_accepts_second_encodings :
    (hookBls12G1OnCurve referenceBlst negatedOrdinate = true ∧ ¬ EncodesG1 negatedOrdinate) ∧
    (hookBls12G1OnCurve referenceBlst unreducedAbscissa = true ∧ ¬ EncodesG1 unreducedAbscissa) ∧
    (hookBls12G2OnCurve referenceBlst unreducedGenerator = true ∧ ¬ EncodesG2 unreducedGenerator) ∧
    (¬ ∀ t, hookBls12G1OnCurve referenceBlst t = true ↔ EncodesG1 t) ∧
    ¬ ∀ t, hookBls12G2OnCurve referenceBlst t = true ↔ EncodesG2 t := by
  have accepts1 := (g1_reduces referenceBlst_fpReduces).isOnCurve_iff referenceBlst_tests1
  have accepts2 := (g2_reduces referenceBlst_fpReduces).isOnCurve_iff referenceBlst_tests2
  have negated : hookBls12G1OnCurve referenceBlst negatedOrdinate = true ∧ ¬ EncodesG1 negatedOrdinate := by
    refine ⟨(accepts1 _).mpr ⟨?_, .inr ?_⟩, not_encodesG1 ?_⟩
    · unfold Fits1 FitsFp
      decide +kernel
    · decide +kernel
    · unfold G1Point.Canonical
      decide +kernel
  have unreduced1 : hookBls12G1OnCurve referenceBlst unreducedAbscissa = true ∧ ¬ EncodesG1 unreducedAbscissa := by
    refine ⟨(accepts1 _).mpr ⟨?_, .inr ?_⟩, not_encodesG1 ?_⟩
    · unfold Fits1 FitsFp
      decide +kernel
    · decide +kernel
    · unfold G1Point.Canonical
      decide +kernel
  have unreduced2 : hookBls12G2OnCurve referenceBlst unreducedGenerator = true ∧ ¬ EncodesG2 unreducedGenerator := by
    refine ⟨(accepts2 _).mpr ⟨?_, .inr ?_⟩, not_encodesG2 ?_⟩
    · unfold Fits2 FitsFp
      decide +kernel
    · decide +kernel
    · unfold G2Point.Canonical
      decide +kernel
  refine ⟨negated, unreduced1, unreduced2, ?_, ?_⟩
  · intro accepted
    exact negated.2 ((accepted _).mp negated.1)
  · intro accepted
    exact unreduced2.2 ((accepted _).mp unreduced2.1)

end KPlugin.Bls12
