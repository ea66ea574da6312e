import KPlugin.Bn128.TermGroup
import KPlugin.Bn128.Validity
import KPlugin.Lib.GroupExpr
import KPlugin.Lib.JacobianChain

/-!
# Expressions over the BN128 hooks

`BN128Add` and `BN128Mul` are the only operations, so a caller writes a sum of products
as a fold of the two. Valid terms are canonical, hence an expression evaluates to the
term of its meaning, and two expressions agree as soon as the total coefficients of
their leaves do, modulo any number that annihilates the leaves.
-/

namespace KPlugin.Bn128
open ShortWeierstrass GroupExpr Bilinear

variable {q : ℕ}

/-! ## The operations -/

/-- A valid point, `n` times which is infinity. -/
abbrev Annihilated (libff : LibffG1 q) (n : ℕ) :=
  {t : G1Point // Valid libff t ∧ hookBn128mul libff t n = .ok ⟨0, 0⟩}

def bnOps (libff : LibffG1 q) (n : ℕ) : Ops (Annihilated libff n) Scalar G1Point Raise where
  leaf t := .ok t.1
  add := hookBn128add libff
  mul t s := hookBn128mul libff t s.1
  msm := foldMsm (hookBn128add libff) (fun t s => hookBn128mul libff t s.1) ⟨0, 0⟩

section
variable [prime : Fact q.Prime] {libff : LibffG1 q} {denotes : libff.G1 → (Curve q).Point → Prop} {n : ℕ}

/-- The points that `n` annihilates. -/
noncomputable def annihilated (q n : ℕ) [Fact q.Prime] : AddSubgroup (Curve q).Point := (nsmulAddMonoidHom n).ker

theorem mem_annihilated (P : (Curve q).Point) : P ∈ annihilated q n ↔ n • P = 0 := AddMonoidHom.mem_ker

theorem order_annihilated (P : annihilated q n) : n • P = 0 := Subtype.ext ((mem_annihilated P.1).mp P.2)

theorem LibffG1.Implements.mul_scalar (impl : libff.Implements denotes) (P : (Curve q).Point) (s : Scalar) :
    hookBn128mul libff (term P) s.1 = .ok (term (s.weight • P)) := by
  have cast : s.1 = (s.weight : ℤ) := (Int.toNat_of_nonneg s.2.1).symm
  have small : s.weight < 2 ^ 256 := by
    have bound := s.2.2
    omega
  rw [cast]
  exact impl.mul_term P small

/-- A point that the hook multiplies to infinity is annihilated. -/
theorem LibffG1.Implements.exists_annihilated (impl : libff.Implements denotes) (small : n < 2 ^ 256)
    (t : Annihilated libff n) : ∃ P : annihilated q n, t.1 = term P.1 := by
  obtain ⟨t, valid, infinite⟩ := t
  obtain ⟨P, rfl⟩ := (impl.code.valid_iff t).mp valid
  rw [impl.mul_term P small, Except.ok.injEq, ← LibffG1.Implements.term_zero (q := q)] at infinite
  exact ⟨⟨P, (mem_annihilated P).mpr (impl.code.injective infinite)⟩, rfl⟩

/-- **The hooks compute in the group.** -/
theorem LibffG1.Implements.computes (impl : libff.Implements denotes) (small : n < 2 ^ 256) :
    ∃ element : Annihilated libff n → annihilated q n, (∀ t, t.1 = term (element t).1) ∧
      (bnOps libff n).Computes (fun t P => t = term P.1) (fun P => term P.1) element Scalar.weight := by
  choose element same using impl.exists_annihilated small
  have hom : ∀ P Q : annihilated q n, hookBn128add libff (term P.1) (term Q.1) = .ok (term (P + Q).1) :=
    fun P Q => impl.add_term P.1 Q.1
  have multiple : ∀ (P : annihilated q n) (s : Scalar),
      hookBn128mul libff (term P.1) s.1 = .ok (term (s.weight • P).1) := by
    intro P s
    rw [AddSubgroup.coe_nsmul]
    exact impl.mul_scalar P.1 s
  refine ⟨element, same, fun P => rfl, fun t => ⟨t.1, rfl, same t⟩, ?_, ?_, ?_⟩
  · rintro s t P Q rfl rfl
    exact hom P Q
  · rintro t P s rfl
    exact multiple P s
  · intro scalars points elements stand sameLength
    have terms : points = elements.map fun P => term P.1 := by
      clear sameLength
      induction stand with
      | nil => rfl
      | cons first _ ih => rw [List.map_cons, ← ih, first]
    have zero : term (0 : annihilated q n).1 = ⟨0, 0⟩ := LibffG1.Implements.term_zero
    have fold : foldMsm (hookBn128add libff) (fun t (s : Scalar) => hookBn128mul libff t s.1)
        (term (0 : annihilated q n).1) scalars (elements.map fun P => term P.1) =
        .ok (term (weightedSum Scalar.weight scalars elements).1) := foldMsm_encode hom multiple scalars elements
    rw [zero] at fold
    rw [terms]
    exact fold

/-- A logarithm that multiplication tells is one of the elements. -/
theorem LibffG1.Implements.element_eq [NeZero n] (impl : libff.Implements denotes) (small : n < 2 ^ 256)
    {element : Annihilated libff n → annihilated q n} (same : ∀ t, t.1 = term (element t).1) {G t : Annihilated libff n}
    {k : ZMod n} (log : hookBn128mul libff G.1 k.val = .ok t.1) :
    element t = residueMultiple (element G) (order_annihilated _) k := by
  have fits : k.val < 2 ^ 256 := (ZMod.val_lt k).trans small
  rw [same G, same t, impl.mul_term _ fits, Except.ok.injEq] at log
  rw [residueMultiple_eq_val]
  exact Subtype.ext (impl.code.injective log).symm

/-- **Expressions over the hooks evaluate to valid points**, and only the total coefficient
of each leaf counts, modulo any number of 256 bits that annihilates the leaves. -/
theorem expressions_evaluate_to_valid (impl : libff.Implements denotes) (small : n < 2 ^ 256) :
    (∀ e : Expr (Annihilated libff n) Scalar,
      ∃ t, e.eval (bnOps libff n) = .ok t ∧ Valid libff t ∧ hookBn128mul libff t n = .ok ⟨0, 0⟩) ∧
    ∀ e e' : Expr (Annihilated libff n) Scalar,
      totals n (e.flat Scalar.weight) = totals n (e'.flat Scalar.weight) →
      e.eval (bnOps libff n) = e'.eval (bnOps libff n) := by
  obtain ⟨element, -, computes⟩ := impl.computes small
  constructor
  · intro e
    obtain ⟨t, run, rfl⟩ := e.eval_stands computes
    refine ⟨_, run, impl.code.valid_encode _, ?_⟩
    rw [impl.mul_term _ small, (mem_annihilated _).mp (e.value element Scalar.weight).2, LibffG1.Implements.term_zero]
  · intro e e' same
    obtain ⟨t, run, rfl⟩ := e.eval_stands computes
    obtain ⟨t', run', rfl⟩ := e'.eval_stands computes
    rw [run, run', Expr.value_eq_of_totals (fun a => order_annihilated (element a)) same]

end

/-! ## The generator -/

theorem generator_order :
    hookBn128mul (referenceLibff bnFieldModulus) ⟨1, 2⟩ bnScalarModulus = .ok ⟨0, 0⟩ := by
  obtain ⟨same, order⟩ := nsmul_elementOf_of_chain (b := (3 : ZMod bnFieldModulus)) (c := (1, 2))
    bn_implements.six_ne_zero bn_implements.three_ne_zero (by norm_num) (by decide +kernel) (n := bnScalarModulus)
    (by decide) (by decide +kernel)
  have named : term (elementOf (3 : ZMod bnFieldModulus) (1, 2)) = ⟨1, 2⟩ := by
    unfold term
    rw [same]
    decide +kernel
  rw [← named, bn_implements.mul_term _ (by decide +kernel), order, LibffG1.Implements.term_zero]

def generatorLeaf : Annihilated (referenceLibff bnFieldModulus) bnScalarModulus :=
  ⟨⟨1, 2⟩, valid_generator, generator_order⟩

theorem predecessor_bounds : 0 ≤ (bnScalarModulus - 1 : ℤ) ∧ (bnScalarModulus - 1 : ℤ) < 2 ^ 256 := by decide +kernel

/-- One less than the order. -/
def bnPredecessor : Scalar := ⟨bnScalarModulus - 1, predecessor_bounds⟩

theorem weight_bnPredecessor : bnPredecessor.weight + 1 = bnScalarModulus := by decide +kernel

/-- Adding the generator to `r - 1` times it gives infinity, which is also no copy of it. -/
theorem expressions_evaluate_to_valid_generator :
    (do let s ← hookBn128mul (referenceLibff bnFieldModulus) ⟨1, 2⟩ (bnScalarModulus - 1)
        hookBn128add (referenceLibff bnFieldModulus) s ⟨1, 2⟩) =
      hookBn128mul (referenceLibff bnFieldModulus) ⟨1, 2⟩ 0 := by
  have small : bnScalarModulus < 2 ^ 256 := by decide +kernel
  obtain ⟨-, counts⟩ := expressions_evaluate_to_valid bn_implements small
  refine counts (.add (.mul (.leaf generatorLeaf) bnPredecessor) (.leaf generatorLeaf))
    (.mul (.leaf generatorLeaf) ⟨0, by decide⟩) ?_
  have sum : (bnPredecessor.weight : ZMod bnScalarModulus) + 1 = 0 := by
    rw [← Nat.cast_one, ← Nat.cast_add, weight_bnPredecessor, ZMod.natCast_self]
  simp [Expr.flat, scale, totals, Scalar.weight, ← Finsupp.single_add, ← sum]

end KPlugin.Bn128
