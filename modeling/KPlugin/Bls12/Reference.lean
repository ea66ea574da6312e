import KPlugin.Bls12.Hooks

/-!
# A library that computes in the group itself

What is assumed of blst can be met: take the group elements, and the pairs off
the curve, as projective points. On the generators of the two groups the hooks
over this library behave as the real ones do.
-/

namespace KPlugin.Bls12
open Radix ShortWeierstrass Classical

/-- A group element, or a pair off the curve. -/
abbrev ReferencePoint {K : Type} [Field K] (b : K) := (curve b).Point ⊕ (K × K)

noncomputable def referenceOps {K : Type} [Field K] [DecidableEq K] (b : K) (r : ℕ) : CurveOps K where
  Point := ReferencePoint b
  fromAffine c := if OnCurve b c then .inl (elementOf b c) else .inr c
  affineIsInf c := decide (c = (0, 0))
  isInf p := p.elim (fun P => decide (P = 0)) fun _ => false
  toAffine p := p.elim pair id
  addOrDouble p q := p.elim (fun P => q.elim (fun Q => .inl (P + Q)) .inr) .inr
  mult p scalar nbits := p.elim (fun P => .inl (lowMultiple scalar nbits P)) .inr
  multPippenger points scalars nbits :=
    .inl ((points.zip scalars).map fun t => lowMultiple t.2 nbits (elementOf b t.1)).sum
  onCurve p := p.isLeft
  inG p := p.elim (fun P => decide (r • P = 0)) fun _ => false

noncomputable def referenceBlst : Blst where
  fpFromLendian le := (value le : Fp)
  lendianFromFp a := digits 8 48 a.val
  scalarFromLeBytes le := digits 8 32 (value le % blsModulus)
  p1 := referenceOps b1 blsModulus
  p2 := referenceOps b2 blsModulus

section
variable {K : Type} [Field K] [DecidableEq K] {b : K}

theorem referenceOps_pippenger (nonzero : b ≠ 0) (terms : List ((curve b).Point × Bytes)) (nbits : ℕ) :
    (((terms.map fun t => pair t.1).zip (terms.map Prod.snd)).map fun t =>
      lowMultiple t.2 nbits (elementOf b t.1)).sum = (terms.map fun t => lowMultiple t.2 nbits t.1).sum := by
  induction terms with
  | nil => rfl
  | cons t terms ih => simp only [List.map_cons, List.zip_cons_cons, List.sum_cons, ih, elementOf_pair nonzero]

/-- **The assumptions about a curve are met by its group.** -/
theorem referenceOps_implements (nonzero : b ≠ 0) (r : ℕ) :
    (referenceOps b r).Implements b r fun p P => p = .inl P where
  fromAffine := by
    intro P
    have on : (referenceOps b r).fromAffine (pair P) = Sum.inl (elementOf b (pair P)) := if_pos (onCurve_pair P)
    rw [on, elementOf_pair nonzero]
  fromAffine_off := by
    intro c off
    have out : (referenceOps b r).fromAffine c = Sum.inr c := if_neg off
    rw [out]
    exact ⟨rfl, rfl⟩
  affineIsInf := fun c => decide_eq_true_iff
  isInf := by
    rintro p P rfl
    exact decide_eq_true_iff
  toAffine := by
    rintro p P rfl _
    rfl
  addOrDouble := by
    rintro p q P Q rfl rfl
    rfl
  mult := by
    rintro p P scalar nbits rfl
    rfl
  multPippenger := fun terms nbits _ => congrArg Sum.inl (referenceOps_pippenger nonzero terms nbits)
  onCurve := by
    rintro p P rfl
    rfl
  inG := by
    rintro p P rfl
    exact decide_eq_true_iff

end

theorem referenceBlst_fpCodec : referenceBlst.FpCodec := ⟨fun _ _ _ => rfl, fun _ => rfl⟩

theorem referenceBlst_scalarCodec : referenceBlst.ScalarCodec := by
  intro le
  have below : value le % blsModulus < (2 ^ 8) ^ 32 := (Nat.mod_lt _ (by decide)).trans (by decide +kernel)
  exact value_digits_of_lt below

theorem referenceBlst_p1 : referenceBlst.p1.Implements b1 blsModulus fun p P => p = .inl P :=
  referenceOps_implements b1_ne_zero blsModulus

theorem referenceBlst_p2 : referenceBlst.p2.Implements b2 blsModulus fun p P => p = .inl P :=
  referenceOps_implements b2_ne_zero blsModulus

/-! ## The generators -/

theorem g1Inf_onCurve : hookBls12G1OnCurve referenceBlst ⟨0, 0⟩ = true := by
  have correct := g1_correct referenceBlst_fpCodec referenceBlst_p1
  exact (correct.isOnCurve_iff _).mpr ⟨0, rfl⟩

theorem g2Inf_onCurve : hookBls12G2OnCurve referenceBlst ⟨0, 0, 0, 0⟩ = true := by
  have correct := g2_correct referenceBlst_fpCodec referenceBlst_p2
  exact (correct.isOnCurve_iff _).mpr ⟨0, rfl⟩

/-- The generator of the first group. -/
def g1Generator : G1Point where
  x := 0x17F1D3A73197D7942695638C4FA9AC0FC3688C4F9774B905A14E3A3F171BAC586C55E83FF97A1AEFFB3AF00ADB22C6BB
  y := 0x8B3F481E3AAA0F1A09E30ED741D8AE4FCF5E095D5D00AF600DB18CB2C04B3EDD03CC744A2888AE40CAA232946C5E7E1

/-- The generator of the second group. -/
def g2Generator : G2Point where
  x0 := 0x24AA2B2F08F0A91260805272DC51051C6E47AD4FA403B02B4510B647AE3D1770BAC0326A805BBEFD48056C8C121BDB8
  x1 := 0x13E02B6052719F607DACD3A088274F65596BD0D09920B61AB5DA61BBDC7F5049334CF11213945D57E5AC7D055D042B7E
  y0 := 0xCE5D527727D6E118CC9CDC6DA2E351AADFD9BAA8CBDD3A76D429A695160D12C923AC9CC3BACA289E193548608B82801
  y1 := 0x606C4A02EA734CC32ACD2B02BC28B99CB3E287E85A763AF267492AB572E99AB3F370D275CEC1DA1AAA9075FF05F79BE

/-- A canonical term whose residues satisfy the equation is on the curve. -/
theorem TermSort.Correct.isOnCurve_encode {T K : Type} [Field K] [DecidableEq K] {sort : TermSort T K} {b : K}
    {canonical : T → Prop} {neg : T → T} {denotes : sort.Point → (curve b).Point → Prop}
    (correct : sort.Correct b canonical neg denotes) {c : K × K} (on : c.2 ^ 2 = c.1 ^ 3 + b) :
    sort.isOnCurve (sort.encode c) = true := by
  obtain ⟨P, rfl⟩ := (onCurve_iff correct.six_ne_zero correct.b_ne_zero c).mp (.inr on)
  exact (correct.isOnCurve_iff _).mpr ⟨P, correct.decodes_term P⟩

theorem g1Generator_canonical : g1Generator.Canonical blsFieldModulus := by
  unfold G1Point.Canonical
  decide +kernel

theorem g1Generator_onCurve : hookBls12G1OnCurve referenceBlst g1Generator = true := by
  have correct := g1_correct referenceBlst_fpCodec referenceBlst_p1
  have equation : (g1Generator.y : Fp) ^ 2 = (g1Generator.x : Fp) ^ 3 + b1 := by decide +kernel
  have on := correct.isOnCurve_encode (c := (_, _)) equation
  exact g1pointOfAffine_intCast referenceBlst_fpCodec g1Generator_canonical ▸ on

theorem g2Generator_canonical : g2Generator.Canonical blsFieldModulus := by
  unfold G2Point.Canonical
  decide +kernel

theorem g2Generator_onCurve : hookBls12G2OnCurve referenceBlst g2Generator = true := by
  have correct := g2_correct referenceBlst_fpCodec referenceBlst_p2
  have equation : (⟨(g2Generator.y0 : Fp), (g2Generator.y1 : Fp)⟩ : Fp2) ^ 2 =
      ⟨(g2Generator.x0 : Fp), (g2Generator.x1 : Fp)⟩ ^ 3 + b2 := by decide +kernel
  have on := correct.isOnCurve_encode (c := (_, _)) equation
  exact g2pointOfAffine_intCast referenceBlst_fpCodec g2Generator_canonical ▸ on

end KPlugin.Bls12
