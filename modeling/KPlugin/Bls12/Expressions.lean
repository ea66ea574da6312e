import KPlugin.Bls12.Map
import KPlugin.Lib.GroupExpr

/-!
# Expressions over the BLS12-381 hooks

A K program nests the hooks: points it was given and images of field elements go
through additions, multiplications and multi-scalar multiplications. The operations
compute in the subgroup, whatever the encoding of the points, so the rules for
expressions over an abelian group apply with the order of the groups as modulus.
-/

namespace KPlugin.Bls12
open ShortWeierstrass GroupExpr

/-! ## What an expression is built from -/

theorem mod_blsModulus_bounds (n : ℕ) : 0 ≤ ((n % blsModulus : ℕ) : ℤ) ∧ ((n % blsModulus : ℕ) : ℤ) < 2 ^ 256 := by
  have below : n % blsModulus < blsModulus := Nat.mod_lt _ (by decide)
  have modulus : blsModulus < 2 ^ 256 := by decide +kernel
  omega

/-- A coefficient as a scalar. -/
def reduceScalar (n : ℕ) : Scalar := ⟨(n % blsModulus : ℕ), mod_blsModulus_bounds n⟩

/-- A point term that passes both tests, in any encoding. -/
abbrev Member {T : Type} (onCurve inSubgroup : T → Bool) := {t : T // onCurve t = true ∧ inSubgroup t = true}

/-- A number that is not refused. -/
abbrev FieldElement := {m : ℤ // FitsFp m}

abbrev Leaf1 (blst : Blst) := Member (hookBls12G1OnCurve blst) (hookBls12G1InSubgroup blst) ⊕ FieldElement

abbrev Leaf2 (blst : Blst) :=
  Member (hookBls12G2OnCurve blst) (hookBls12G2InSubgroup blst) ⊕ FieldElement × FieldElement

variable {blst : Blst}

def g1Ops (maps : BlstMaps blst) : Ops (Leaf1 blst) Scalar G1Point Raise where
  leaf := Sum.elim (fun t => .ok t.1) fun m => hookBls12MapFpToG1 maps m.1
  add := hookBls12G1Add blst
  mul t n := hookBls12G1Mul blst t n.1
  msm scalars points := hookBls12G1Msm blst (scalars.map Subtype.val) points

def g2Ops (maps : BlstMaps blst) : Ops (Leaf2 blst) Scalar G2Point Raise where
  leaf := Sum.elim (fun t => .ok t.1) fun m => hookBls12MapFp2ToG2 maps m.1.1 m.2.1
  add := hookBls12G2Add blst
  mul t n := hookBls12G2Mul blst t n.1
  msm scalars points := hookBls12G2Msm blst (scalars.map Subtype.val) points

/-- Expressions over the G1 hooks, and over the G2 hooks. -/
abbrev Expr1 (blst : Blst) := Expr (Leaf1 blst) Scalar

abbrev Expr2 (blst : Blst) := Expr (Leaf2 blst) Scalar

/-! ## The operations compute in the subgroup -/

section
variable {T K : Type} [Field K] [DecidableEq K] {b : K}

theorem order_torsion (P : torsion b) : blsModulus • P = 0 := Subtype.ext ((mem_torsion P.1).mp P.2)

theorem weight_reduce (n : ℕ) (P : torsion b) : (reduceScalar n).weight • P = n • P := by
  have weight : (reduceScalar n).weight = n % blsModulus := Int.toNat_natCast _
  rw [weight, ← nsmul_eq_mod_nsmul n (order_torsion P)]

variable {sort : TermSort T K} {canonical : T → Prop} {neg : T → T} {denotes : sort.Point → (curve b).Point → Prop}

/-- The operations of a sort, with a map into it. -/
def TermSort.ops (sort : TermSort T K) (blst : Blst) (nbits : ℤ → ℕ) {M : Type} (map : M → Except Raise T) :
    Ops (Member sort.isOnCurve sort.inSubgroup ⊕ M) Scalar T Raise where
  leaf := Sum.elim (fun t => .ok t.1) map
  add := sort.add
  mul t n := sort.mul blst nbits t n.1
  msm scalars points := sort.msm blst (scalars.map Subtype.val) points

namespace TermSort.Correct

/-- A term decodes to one element at most. -/
theorem decodes_unique (correct : sort.Correct b canonical neg denotes) {t : T} {P Q : (curve b).Point}
    (first : sort.Decodes t P) (second : sort.Decodes t Q) : P = Q :=
  pair_injective correct.b_ne_zero (Option.some.inj (first.symm.trans second))

/-- The products of the hook are those of the subgroup. -/
theorem sum_products (correct : sort.Correct b canonical neg denotes) {element : T → (curve b).Point} {points : List T}
    {elements : List (torsion b)} (stand : List.Forall₂ (fun t P => sort.Decodes t P.1) points elements)
    (decodes : ∀ t ∈ points, sort.Decodes t (element t)) (scalars : List Scalar) :
    ((points.zip (scalars.map Subtype.val)).map fun item => (item.2.toNat % blsModulus) • element item.1).sum =
      (weightedSum Scalar.weight scalars elements : torsion b).1 := by
  induction stand generalizing scalars with
  | nil => cases scalars <;> rfl
  | @cons t P points elements first rest ih =>
    cases scalars with
    | nil => rfl
    | cons n scalars =>
      have same : element t = P.1 := correct.decodes_unique (decodes t List.mem_cons_self) first
      have tail := ih (fun u member => decodes u (List.mem_cons_of_mem t member)) scalars
      have split : weightedSum Scalar.weight (n :: scalars) (P :: elements) =
          n.weight • P + weightedSum Scalar.weight scalars elements := List.sum_cons
      have multiple : (n.1.toNat % blsModulus) • P.1 = n.weight • P.1 :=
        (nsmul_eq_mod_nsmul n.1.toNat ((mem_torsion P.1).mp P.2)).symm
      rw [split, AddSubgroup.coe_add, AddSubgroup.coe_nsmul, ← tail, ← multiple, ← same]
      exact List.sum_cons

/-- **The operations of a sort compute in its subgroup.** -/
theorem computes (correct : sort.Correct b canonical neg denotes) (scalarCodec : blst.ScalarCodec) {nbits : ℤ → ℕ}
    (enough : ∀ n : ℤ, 0 ≤ n → n.toNat < 2 ^ nbits n) {M : Type} {map : M → Except Raise T}
    (lands : ∀ m, ∃ P : torsion b, map m = .ok (sort.term P.1)) :
    ∃ element : Member sort.isOnCurve sort.inSubgroup ⊕ M → torsion b,
      (sort.ops blst nbits map).Computes (fun t P => sort.Decodes t P.1) (fun P => sort.term P.1) element
        Scalar.weight := by
  have leaves : ∀ a, ∃ P : torsion b, ∃ t, (sort.ops blst nbits map).leaf a = .ok t ∧ sort.Decodes t P.1 := by
    rintro (⟨t, on, inside⟩ | m)
    · obtain ⟨P, decodes⟩ := (correct.isOnCurve_iff t).mp on
      exact ⟨⟨P, (correct.inSubgroup_iff_mem decodes).mp inside⟩, t, rfl, decodes⟩
    · obtain ⟨P, mapped⟩ := lands m
      exact ⟨P, _, mapped, correct.decodes_term P.1⟩
  choose element leaf using leaves
  refine ⟨element, fun P => correct.decodes_term P.1, leaf, ?_, ?_, ?_⟩
  · intro s t P Q standsS standsT
    exact correct.add_eq standsS standsT
  · intro t P n stands
    change sort.mul blst nbits t n.1 = .ok (sort.term (n.weight • P : torsion b).1)
    rw [correct.mul_eq scalarCodec stands n.2 (enough n.1 n.2.1), AddSubgroup.coe_nsmul,
      ← nsmul_eq_mod_nsmul n.1.toNat ((mem_torsion P.1).mp P.2)]
    rfl
  · intro scalars points elements stand sameLength
    have accepted := stand.imp fun t P decodes => And.intro ((correct.isOnCurve_iff t).mpr ⟨P.1, decodes⟩) decodes
    have onCurve := ((List.forall₂_and_left points elements).mp accepted).1
    have bounds : ∀ n ∈ scalars.map Subtype.val, 0 ≤ n ∧ n < 2 ^ 256 := by
      intro n member
      obtain ⟨s, -, rfl⟩ := List.mem_map.mp member
      exact s.2
    obtain ⟨element, decodes⟩ := correct.exists_elements onCurve
    have length : (scalars.map Subtype.val).length = points.length := List.length_map _ |>.trans sameLength
    change sort.msm blst (scalars.map Subtype.val) points = _
    rw [correct.msm_eq scalarCodec length decodes bounds, correct.sum_products stand decodes]

end TermSort.Correct

end

/-! ## What expressions evaluate to -/

/-- Every expression has a term of the subgroup for its value, and a call has the value of
one multi-scalar multiplication over its leaves, whose scalars are reduced modulo the order. -/
structure EvaluatesInSubgroup {α T : Type} (ops : Ops α Scalar T Raise) (canonical : T → Prop)
    (onCurve inSubgroup : T → Bool) : Prop where
  evaluates : ∀ e : Expr α Scalar,
    ∃ t, e.eval ops = .ok t ∧ onCurve t = true ∧ inSubgroup t = true ∧ (e.IsCall → canonical t)
  oneMsm : ∀ e : Expr α Scalar, e.IsCall → (e.normalForm Scalar.weight reduceScalar).eval ops = e.eval ops

/-- Only the total coefficient of each leaf modulo the order counts. -/
def CountsTotals {α T : Type} (ops : Ops α Scalar T Raise) : Prop :=
  ∀ e e' : Expr α Scalar, e.IsCall → e'.IsCall →
    totals blsModulus (e.flat Scalar.weight) = totals blsModulus (e'.flat Scalar.weight) → e.eval ops = e'.eval ops

section
variable {T K α : Type} [Field K] [DecidableEq K] {b : K} {sort : TermSort T K} {canonical : T → Prop} {neg : T → T}
  {denotes : sort.Point → (curve b).Point → Prop} {ops : Ops α Scalar T Raise} {element : α → torsion b}

theorem TermSort.Correct.evaluatesInSubgroup (correct : sort.Correct b canonical neg denotes)
    (computes : ops.Computes (fun t P => sort.Decodes t P.1) (fun P => sort.term P.1) element Scalar.weight) :
    EvaluatesInSubgroup ops canonical sort.isOnCurve sort.inSubgroup where
  evaluates := by
    intro e
    obtain ⟨t, run, decodes⟩ := e.eval_stands computes
    have onCurve := (correct.isOnCurve_iff t).mpr ⟨_, decodes⟩
    have inside := (correct.inSubgroup_iff_mem decodes).mpr (e.value element Scalar.weight).2
    refine ⟨t, run, onCurve, inside, ?_⟩
    intro call
    have same : t = sort.term (e.value element Scalar.weight).1 :=
      Except.ok.inj (run.symm.trans (Expr.eval_call computes call))
    rw [same]
    exact (correct.code.valid_encode _).1
  oneMsm := fun e call => Expr.eval_normalForm computes weight_reduce call

end

section
variable {maps : BlstMaps blst} {denotes1 : blst.p1.Point → (curve b1).Point → Prop}
  {denotes2 : blst.p2.Point → (curve b2).Point → Prop}

/-- A field element has an image in the first subgroup. -/
theorem BlstMaps.Implements.lands1 (impl : maps.Implements denotes1 denotes2)
    (correct : (g1Sort blst).Correct b1 (G1Point.Canonical blsFieldModulus) (G1Point.neg blsFieldModulus) denotes1)
    (m : FieldElement) : ∃ P : torsion b1, hookBls12MapFpToG1 maps m.1 = .ok ((g1Sort blst).term P.1) := by
  obtain ⟨le, -, -, decoded⟩ := mpzPtrToBlstFp_of_fits blst m.2
  obtain ⟨P, stands, order⟩ := impl.mapToG1 (blst.fpFromLendian le)
  refine ⟨⟨P, (mem_torsion P).mpr order⟩, ?_⟩
  unfold hookBls12MapFpToG1
  rw [decoded, ← correct.ofBlst_eq stands]
  rfl

/-- A pair of them has one in the second. -/
theorem BlstMaps.Implements.lands2 (impl : maps.Implements denotes1 denotes2)
    (correct : (g2Sort blst).Correct b2 (G2Point.Canonical blsFieldModulus) (G2Point.neg blsFieldModulus) denotes2)
    (m : FieldElement × FieldElement) :
    ∃ P : torsion b2, hookBls12MapFp2ToG2 maps m.1.1 m.2.1 = .ok ((g2Sort blst).term P.1) := by
  obtain ⟨le, -, -, decoded⟩ := mpzPtrToBlstFp_of_fits blst m.1.2
  obtain ⟨le', -, -, decoded'⟩ := mpzPtrToBlstFp_of_fits blst m.2.2
  obtain ⟨P, stands, order⟩ := impl.mapToG2 ⟨blst.fpFromLendian le, blst.fpFromLendian le'⟩
  refine ⟨⟨P, (mem_torsion P).mpr order⟩, ?_⟩
  unfold hookBls12MapFp2ToG2
  rw [decoded, decoded', ← correct.ofBlst_eq stands]
  rfl

/-- **The G1 hooks compute in the first subgroup.** -/
theorem g1Ops_computes (fp : blst.FpCodec) (scalarCodec : blst.ScalarCodec)
    (p1 : blst.p1.Implements b1 blsModulus denotes1) (impl : maps.Implements denotes1 denotes2) :
    ∃ element : Leaf1 blst → torsion b1,
      (g1Ops maps).Computes (fun t P => (g1Sort blst).Decodes t P.1) (fun P => (g1Sort blst).term P.1) element
        Scalar.weight := by
  have correct := g1_correct fp p1
  exact correct.computes scalarCodec (fun _ => lt_scalarBits) (impl.lands1 correct)

/-- **The G2 hooks compute in the second.** -/
theorem g2Ops_computes (fp : blst.FpCodec) (scalarCodec : blst.ScalarCodec)
    (p2 : blst.p2.Implements b2 blsModulus denotes2) (impl : maps.Implements denotes1 denotes2) :
    ∃ element : Leaf2 blst → torsion b2,
      (g2Ops maps).Computes (fun t P => (g2Sort blst).Decodes t P.1) (fun P => (g2Sort blst).term P.1) element
        Scalar.weight := by
  have correct := g2_correct fp p2
  exact correct.computes scalarCodec (fun _ => lt_mpzSizeinbase2) (impl.lands2 correct)

/-- **Expressions over the hooks evaluate in the subgroups**: none throws, and each call
returns what one multi-scalar multiplication over its leaves returns. -/
theorem expressions_evaluate_in_subgroups (fp : blst.FpCodec) (scalarCodec : blst.ScalarCodec)
    (p1 : blst.p1.Implements b1 blsModulus denotes1) (p2 : blst.p2.Implements b2 blsModulus denotes2)
    (impl : maps.Implements denotes1 denotes2) :
    EvaluatesInSubgroup (g1Ops maps) (G1Point.Canonical blsFieldModulus) (hookBls12G1OnCurve blst)
      (hookBls12G1InSubgroup blst) ∧
    EvaluatesInSubgroup (g2Ops maps) (G2Point.Canonical blsFieldModulus) (hookBls12G2OnCurve blst)
      (hookBls12G2InSubgroup blst) := by
  obtain ⟨_, computes1⟩ := g1Ops_computes fp scalarCodec p1 impl
  obtain ⟨_, computes2⟩ := g2Ops_computes fp scalarCodec p2 impl
  exact ⟨(g1_correct fp p1).evaluatesInSubgroup computes1, (g2_correct fp p2).evaluatesInSubgroup computes2⟩

/-- The generators as leaves. -/
noncomputable def g1GeneratorLeaf : Leaf1 referenceBlst := .inl ⟨g1Generator, g1Generator_onCurve, g1Generator_inSubgroup⟩

noncomputable def g2GeneratorLeaf : Leaf2 referenceBlst := .inl ⟨g2Generator, g2Generator_onCurve, g2Generator_inSubgroup⟩

/-- Three times the sum of the generator and the image of zero, in one call. -/
theorem expressions_evaluate_in_subgroups_generators :
    (do let m ← hookBls12MapFpToG1 referenceMaps 0
        let s ← hookBls12G1Add referenceBlst g1Generator m
        hookBls12G1Mul referenceBlst s 3) =
      (do let m ← hookBls12MapFpToG1 referenceMaps 0
          hookBls12G1Msm referenceBlst [3, 3] [g1Generator, m]) ∧
    ∃ t, hookBls12G2Mul referenceBlst g2Generator 5 = .ok t ∧ hookBls12G2OnCurve referenceBlst t = true ∧
      hookBls12G2InSubgroup referenceBlst t = true ∧ t.Canonical blsFieldModulus := by
  obtain ⟨g1, g2⟩ := expressions_evaluate_in_subgroups referenceBlst_fpCodec referenceBlst_scalarCodec
    referenceBlst_p1 referenceBlst_p2 referenceMaps_implements
  constructor
  · exact (g1.oneMsm (.mul (.add (.leaf g1GeneratorLeaf) (.leaf (.inr ⟨0, fitsFp_zero⟩))) ⟨3, by decide⟩) trivial).symm
  · obtain ⟨t, run, onCurve, inside, canonical⟩ := g2.evaluates (.mul (.leaf g2GeneratorLeaf) ⟨5, by decide⟩)
    exact ⟨t, run, onCurve, inside, canonical trivial⟩

/-- **Calls with the same totals return the same term**, however they are nested. -/
theorem expressions_count_totals (fp : blst.FpCodec) (scalarCodec : blst.ScalarCodec)
    (p1 : blst.p1.Implements b1 blsModulus denotes1) (p2 : blst.p2.Implements b2 blsModulus denotes2)
    (impl : maps.Implements denotes1 denotes2) : CountsTotals (g1Ops maps) ∧ CountsTotals (g2Ops maps) := by
  obtain ⟨_, computes1⟩ := g1Ops_computes fp scalarCodec p1 impl
  obtain ⟨_, computes2⟩ := g2Ops_computes fp scalarCodec p2 impl
  constructor
  · intro e e' call call' same
    exact Expr.eval_eq_of_totals computes1 (fun _ => order_torsion _) call call' same
  · intro e e' call call' same
    exact Expr.eval_eq_of_totals computes2 (fun _ => order_torsion _) call call' same

/-- Doubling is adding, and scalars of one point add up. -/
theorem expressions_count_totals_generators :
    hookBls12G1Mul referenceBlst g1Generator 2 = hookBls12G1Add referenceBlst g1Generator g1Generator ∧
    (do let s ← hookBls12G2Mul referenceBlst g2Generator 4
        let t ← hookBls12G2Mul referenceBlst g2Generator 5
        hookBls12G2Add referenceBlst s t) = hookBls12G2Mul referenceBlst g2Generator 9 := by
  obtain ⟨g1, g2⟩ := expressions_count_totals referenceBlst_fpCodec referenceBlst_scalarCodec referenceBlst_p1
    referenceBlst_p2 referenceMaps_implements
  have two : (2 : ZMod blsModulus) = 1 + 1 := by norm_num
  have nine : (4 + 5 : ZMod blsModulus) = 9 := by norm_num
  constructor
  · refine g1 (.mul (.leaf g1GeneratorLeaf) ⟨2, by decide⟩) (.add (.leaf g1GeneratorLeaf) (.leaf g1GeneratorLeaf))
      trivial trivial ?_
    simp [Expr.flat, scale, totals, Scalar.weight, ← Finsupp.single_add, two]
  · refine g2 (.add (.mul (.leaf g2GeneratorLeaf) ⟨4, by decide⟩) (.mul (.leaf g2GeneratorLeaf) ⟨5, by decide⟩))
      (.mul (.leaf g2GeneratorLeaf) ⟨9, by decide⟩) trivial trivial ?_
    simp [Expr.flat, scale, totals, Scalar.weight, ← Finsupp.single_add, nine]

end

end KPlugin.Bls12
