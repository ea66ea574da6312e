import KPlugin.Bls12.TermGroup
import KPlugin.Lib.JacobianChain

/-!
# Multiplication is repeated addition

On the subgroup the hook's reduction of the scalar is harmless, since the order
of the groups annihilates the point; the number of bits is taken from the scalar
before the reduction and is never too small for what is left of it.
-/

namespace KPlugin.Bls12
open ShortWeierstrass GroupCode

/-- The multiple by a scalar of 256 bits is the sum of as many copies, and only the residue counts. -/
structure RepeatsAddition {T : Type} (valid : T → Prop) (add : T → T → Except Raise T)
    (mul : T → ℤ → Except Raise T) (inf : T) : Prop where
  repeats : ∀ t, valid t → ∀ n : ℤ, 0 ≤ n → n < 2 ^ 256 →
    ∃ u, mul t n = .ok u ∧ nfold add inf n.toNat t = .ok u
  zero : ∀ t, valid t → mul t 0 = .ok inf
  succ : ∀ t, valid t → ∀ n : ℤ, 0 ≤ n → n + 1 < 2 ^ 256 → mul t (n + 1) = (do let u ← mul t n; add u t)
  residue : ∀ t, valid t → ∀ m n : ℤ, 0 ≤ m → m < 2 ^ 256 → 0 ≤ n → n < 2 ^ 256 →
    m % blsModulus = n % blsModulus → mul t m = mul t n

variable {T K : Type} [Field K] [DecidableEq K] {b : K} {sort : TermSort T K} {canonical : T → Prop} {neg : T → T}
  {denotes : sort.Point → (curve b).Point → Prop} {blst : Blst}

namespace TermSort.Correct

/-- A canonical term in the subgroup is the term of an element of the subgroup. -/
theorem exists_torsion (correct : sort.Correct b canonical neg denotes) {t : T}
    (valid : canonical t ∧ sort.isOnCurve t = true ∧ sort.inSubgroup t = true) :
    ∃ P : (curve b).Point, sort.term P = t ∧ blsModulus • P = 0 := by
  obtain ⟨shape, on, member⟩ := valid
  obtain ⟨P, rfl⟩ := (correct.code.valid_iff t).mp ⟨shape, on⟩
  exact ⟨P, rfl, (correct.inSubgroup_iff (correct.decodes_term P)).mp member⟩

/-- On the subgroup the hook multiplies by the scalar itself. -/
theorem mul_torsion (correct : sort.Correct b canonical neg denotes) (scalarCodec : blst.ScalarCodec) {nbits : ℤ → ℕ}
    (enough : ∀ n : ℤ, 0 ≤ n → n.toNat < 2 ^ nbits n) {P : (curve b).Point} (member : blsModulus • P = 0) {n : ℤ}
    (nonnegative : 0 ≤ n) (small : n < 2 ^ 256) :
    sort.mul blst nbits (sort.term P) n = .ok (sort.term (n.toNat • P)) := by
  rw [correct.mul_eq scalarCodec (correct.decodes_term P) ⟨nonnegative, small⟩ (enough n nonnegative),
    ← nsmul_eq_mod_nsmul n.toNat member]

theorem repeatsAddition (correct : sort.Correct b canonical neg denotes) (scalarCodec : blst.ScalarCodec)
    {nbits : ℤ → ℕ} (enough : ∀ n : ℤ, 0 ≤ n → n.toNat < 2 ^ nbits n) :
    RepeatsAddition (fun t => canonical t ∧ sort.isOnCurve t = true ∧ sort.inSubgroup t = true) sort.add
      (sort.mul blst nbits) sort.inf where
  repeats := by
    intro t valid n nonnegative small
    obtain ⟨P, rfl, member⟩ := correct.exists_torsion valid
    refine ⟨_, correct.mul_torsion scalarCodec enough member nonnegative small, ?_⟩
    exact nfold_encode correct.add_term correct.term_zero n.toNat P
  zero := by
    intro t valid
    obtain ⟨P, rfl, member⟩ := correct.exists_torsion valid
    rw [correct.mul_torsion scalarCodec enough member le_rfl (by decide), Int.toNat_zero, zero_nsmul, correct.term_zero]
  succ := by
    intro t valid n nonnegative small
    obtain ⟨P, rfl, member⟩ := correct.exists_torsion valid
    have next : (n + 1).toNat = n.toNat + 1 := by omega
    rw [correct.mul_torsion scalarCodec enough member nonnegative (by omega),
      correct.mul_torsion scalarCodec enough member (by omega) small, next, succ_nsmul]
    exact (correct.add_term _ _).symm
  residue := by
    intro t valid m n nonnegativeM smallM nonnegativeN smallN same
    obtain ⟨P, rfl, member⟩ := correct.exists_torsion valid
    have residues : m.toNat % blsModulus = n.toNat % blsModulus := by
      apply Int.ofNat_inj.mp
      rw [Int.natCast_mod, Int.natCast_mod, Int.toNat_of_nonneg nonnegativeM, Int.toNat_of_nonneg nonnegativeN, same]
    rw [correct.mul_torsion scalarCodec enough member nonnegativeM smallM,
      correct.mul_torsion scalarCodec enough member nonnegativeN smallN, nsmul_eq_mod_nsmul m.toNat member, residues,
      ← nsmul_eq_mod_nsmul n.toNat member]

end TermSort.Correct

/-- **Multiplication is repeated addition on the subgroups**, in both groups. -/
theorem mul_repeats_add {blst : Blst} (fp : blst.FpCodec) (scalarCodec : blst.ScalarCodec)
    {denotes1 : blst.p1.Point → (curve b1).Point → Prop} (p1 : blst.p1.Implements b1 blsModulus denotes1)
    {denotes2 : blst.p2.Point → (curve b2).Point → Prop} (p2 : blst.p2.Implements b2 blsModulus denotes2) :
    RepeatsAddition
      (fun t => G1Point.Canonical blsFieldModulus t ∧ hookBls12G1OnCurve blst t = true ∧
        hookBls12G1InSubgroup blst t = true)
      (hookBls12G1Add blst) (hookBls12G1Mul blst) ⟨0, 0⟩ ∧
    RepeatsAddition
      (fun t => G2Point.Canonical blsFieldModulus t ∧ hookBls12G2OnCurve blst t = true ∧
        hookBls12G2InSubgroup blst t = true)
      (hookBls12G2Add blst) (hookBls12G2Mul blst) ⟨0, 0, 0, 0⟩ := by
  constructor
  · exact (g1_correct fp p1).repeatsAddition scalarCodec fun _ => lt_scalarBits
  · exact (g2_correct fp p2).repeatsAddition scalarCodec fun _ => lt_mpzSizeinbase2

/-! ## The generators are in the subgroups -/

/-- A point whose chain for the order less one ends at its opposite is in the subgroup. -/
theorem TermSort.Correct.inSubgroup_encode (correct : sort.Correct b canonical neg denotes) {c : K × K}
    (on : c.2 ^ 2 = c.1 ^ 3 + b) (finite : c ≠ (0, 0))
    (reached : ((Triple.ofAffine c).chain (lowerBits (blsModulus - 1)) (.ofAffine c)).At (c.1, -c.2)) :
    sort.inSubgroup (sort.encode c) = true := by
  obtain ⟨same, order⟩ := nsmul_elementOf_of_chain correct.six_ne_zero correct.b_ne_zero on finite (by decide) reached
  have member := (correct.inSubgroup_iff (correct.decodes_term (elementOf b c))).mpr order
  unfold TermSort.term at member
  rwa [same] at member

theorem g1Generator_inSubgroup : hookBls12G1InSubgroup referenceBlst g1Generator = true := by
  have correct := g1_correct referenceBlst_fpCodec referenceBlst_p1
  have member := correct.inSubgroup_encode (c := ((g1Generator.x : Fp), (g1Generator.y : Fp))) (by decide +kernel)
    (by decide +kernel) (by decide +kernel)
  exact g1pointOfAffine_intCast referenceBlst_fpCodec g1Generator_canonical ▸ member

theorem g2Generator_inSubgroup : hookBls12G2InSubgroup referenceBlst g2Generator = true := by
  have correct := g2_correct referenceBlst_fpCodec referenceBlst_p2
  have member := correct.inSubgroup_encode
    (c := (⟨(g2Generator.x0 : Fp), (g2Generator.x1 : Fp)⟩, ⟨(g2Generator.y0 : Fp), (g2Generator.y1 : Fp)⟩))
    (by decide +kernel) (by decide +kernel) (by decide +kernel)
  exact g2pointOfAffine_intCast referenceBlst_fpCodec g2Generator_canonical ▸ member

/-- On the generators: no copy, one more copy, and the largest scalar. -/
theorem mul_repeats_add_generators :
    hookBls12G1Mul referenceBlst g1Generator 0 = .ok ⟨0, 0⟩ ∧
    hookBls12G1Mul referenceBlst g1Generator blsModulus = hookBls12G1Mul referenceBlst g1Generator 0 ∧
    hookBls12G2Mul referenceBlst g2Generator (7 + 1) =
      (do let u ← hookBls12G2Mul referenceBlst g2Generator 7; hookBls12G2Add referenceBlst u g2Generator) ∧
    ∃ u, hookBls12G2Mul referenceBlst g2Generator (2 ^ 256 - 1) = .ok u ∧
      nfold (hookBls12G2Add referenceBlst) ⟨0, 0, 0, 0⟩ (2 ^ 256 - 1 : ℤ).toNat g2Generator = .ok u := by
  obtain ⟨g1, g2⟩ :=
    mul_repeats_add referenceBlst_fpCodec referenceBlst_scalarCodec referenceBlst_p1 referenceBlst_p2
  have valid1 := And.intro g1Generator_canonical (And.intro g1Generator_onCurve g1Generator_inSubgroup)
  have valid2 := And.intro g2Generator_canonical (And.intro g2Generator_onCurve g2Generator_inSubgroup)
  refine ⟨g1.zero _ valid1, ?_, ?_, ?_⟩
  · exact g1.residue _ valid1 _ _ (by decide +kernel) (by decide +kernel) le_rfl (by decide) (by decide +kernel)
  · exact g2.succ _ valid2 7 (by decide) (by decide)
  · exact g2.repeats _ valid2 _ (by decide +kernel) (by decide +kernel)

end KPlugin.Bls12
