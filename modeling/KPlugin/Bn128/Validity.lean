import Mathlib.Algebra.QuadraticAlgebra.Basic
import Mathlib.NumberTheory.LegendreSymbol.Basic
import KPlugin.Bn128.Domain
import KPlugin.Bn128.Reference

/-!
# `isValidPoint` on any integers

A term is valid when it is infinity, or when its coordinates are residues and name a
point of the group. A coordinate from the modulus up makes the decoder throw what the
hook catches; a negative one makes it fail an assertion that the hook does not catch.
-/

namespace KPlugin.Bn128
open ShortWeierstrass WeierstrassCurve.Affine

/-! ## The second hook -/

/-- What `hook_KRYPTO_bn128g2valid` calls besides; `r` is the order of the scalar
field, and an element of it is its residue. -/
structure LibffG2 (q r : ℕ) extends LibffPairing q where
  g2IsWellFormed : G2 → Bool
  g2Smul : ZMod r → G2 → G2
  g2Add : G2 → G2 → G2
  g2Eq : G2 → G2 → Bool

variable {q r : ℕ}

/-- Only `std::invalid_argument` is caught. -/
def hookBn128g2valid (libff : LibffG2 q r) (pt : G2Point) : Except Raise Bool :=
  match getPointG2 libff.toLibffPairing pt with
  | .ok g2pt =>
    .ok (libff.g2IsWellFormed g2pt && libff.g2Eq (libff.g2Add (libff.g2Smul (-1) g2pt) g2pt) libff.g2Zero)
  | .error (.invalidArgument _) => .ok false
  | .error .assertFailed => .error .assertFailed

/-! ## G1 -/

/-- Infinity, or a solution of the equation in residues. -/
def NamesG1 (q : ℕ) (t : G1Point) : Prop :=
  t = ⟨0, 0⟩ ∨ (t.Canonical q ∧ (t.y : ZMod q) ^ 2 = (t.x : ZMod q) ^ 3 + (3 : ℕ))

/-- The hook returns, and what it answers is whether the statement holds. -/
def Tells (answer : Except Raise Bool) (holds : Prop) : Prop := ∃ b, answer = .ok b ∧ (b = true ↔ holds)

theorem not_tells_of_assertFailed {answer : Except Raise Bool} {holds : Prop} (failed : answer = .error .assertFailed) :
    ¬ Tells answer holds := by
  rintro ⟨b, returned, -⟩
  rw [failed] at returned
  cases returned

/-- The test of G1 is the equation, and holds of infinity. -/
structure LibffG1.TestsEquation (libff : LibffG1 q) : Prop where
  zero : libff.isWellFormed libff.zero = true
  g1 : ∀ x y, libff.isWellFormed (libff.g1 x y 1) = true ↔ y ^ 2 = x ^ 3 + 3

/-- A coordinate from the modulus up names nothing. -/
theorem not_namesG1 (positive : 0 < q) {t : G1Point} (outside : rejects1 q t) : ¬ NamesG1 q t := by
  unfold rejects1 at outside
  rintro (rfl | ⟨⟨x, y⟩, -⟩)
  · simp only at outside
    omega
  · omega

theorem bn128valid_tells_iff {libff : LibffG1 q} (limbs : libff.FourLimbs) (tests : libff.TestsEquation) (t : G1Point) :
    Tells (hookBn128valid libff t) (NamesG1 q t) ↔ Safe1 q t := by
  unfold hookBn128valid
  rcases limbs.getPoint_cases t with ⟨rfl, point⟩ | ⟨finite, canonical, point⟩ | ⟨outside, what, refused⟩ | ⟨bad, failed⟩
  · rw [point]
    exact iff_of_true ⟨_, rfl, iff_of_true tests.zero (.inl rfl)⟩ (.inl ⟨le_rfl, le_rfl⟩)
  · rw [point]
    refine iff_of_true ⟨_, rfl, ?_⟩ (.inl ⟨canonical.1.1, canonical.2.1⟩)
    rw [tests.g1, NamesG1, or_iff_right finite, and_iff_right canonical, Nat.cast_ofNat]
  · rw [refused]
    exact iff_of_true ⟨_, rfl, iff_of_false Bool.false_ne_true (not_namesG1 limbs.positive outside)⟩ (.inr outside)
  · rw [failed]
    exact iff_of_false (not_tells_of_assertFailed rfl) bad

/-! ## The twist -/

/-- The base field with `i² = -1`. -/
abbrev Fq2Field (q : ℕ) := QuadraticAlgebra (ZMod q) (-1) 0

section
variable [Fact q.Prime] [Fact (∀ a : ZMod q, a ^ 2 ≠ -1 + 0 * a)]

/-- The coefficient of the twist, `3 / (9 + i)`. -/
noncomputable def twistB (q : ℕ) [Fact q.Prime] [Fact (∀ a : ZMod q, a ^ 2 ≠ -1 + 0 * a)] : Fq2Field q :=
  (3 : ℕ) / ⟨(9 : ℕ), 1⟩

/-- `y² = x³ + 3 / (9 + i)`. -/
noncomputable abbrev Twist (q : ℕ) [Fact q.Prime] [Fact (∀ a : ZMod q, a ^ 2 ≠ -1 + 0 * a)] :
    WeierstrassCurve.Affine (Fq2Field q) := curve (twistB q)

theorem three_ne_zero_fq2 (large : 3 < q) : ((3 : ℕ) : Fq2Field q) ≠ 0 := by
  intro zero
  have three : ((3 : ℕ) : ZMod q) ≠ 0 := natCast_ne_zero (by decide) large
  exact three (by exact_mod_cast congrArg QuadraticAlgebra.re zero)

theorem twistB_ne_zero (large : 3 < q) : twistB q ≠ 0 := by
  have denominator : (⟨(9 : ℕ), 1⟩ : Fq2Field q) ≠ 0 := by
    intro zero
    exact one_ne_zero (congrArg QuadraticAlgebra.im zero)
  exact div_ne_zero (three_ne_zero_fq2 large) denominator

theorem six_ne_zero_fq2 (large : 3 < q) : (6 : Fq2Field q) ≠ 0 := by
  have two : (2 : Fq2Field q) ≠ 0 := by
    intro zero
    have two : ((2 : ℕ) : ZMod q) ≠ 0 := natCast_ne_zero (by decide) (by omega)
    exact two (by exact_mod_cast congrArg QuadraticAlgebra.re zero)
  have product : (6 : Fq2Field q) = 2 * (3 : ℕ) := by norm_num
  rw [product]
  exact mul_ne_zero two (three_ne_zero_fq2 large)

/-! ## Valid terms -/

/-- `(x0 + x1 i, y0 + y1 i)`. -/
def twistCoordinates (q : ℕ) (t : G2Point) : Fq2Field q × Fq2Field q :=
  (⟨(t.x0 : ZMod q), (t.x1 : ZMod q)⟩, ⟨(t.y0 : ZMod q), (t.y1 : ZMod q)⟩)

/-- Infinity, or a solution of the equation of the twist in residues, `r` times which is infinity. -/
def NamesG2 (q r : ℕ) [Fact q.Prime] [Fact (∀ a : ZMod q, a ^ 2 ≠ -1 + 0 * a)] (t : G2Point) : Prop :=
  t = ⟨0, 0, 0, 0⟩ ∨ (t.Canonical q ∧
    (twistCoordinates q t).2 ^ 2 = (twistCoordinates q t).1 ^ 3 + twistB q ∧
    ∃ P : (Twist q).Point, pair P = twistCoordinates q t ∧ r • P = 0)

/-- The test of G2 is the equation of the twist, and the operations compute in its group. -/
structure LibffG2.ComputesInTwist (libff : LibffG2 q r) (denotes : libff.G2 → (Twist q).Point → Prop) : Prop where
  large : 3 < q
  order : 1 < r
  zero : denotes libff.g2Zero 0
  g2 : ∀ x y h, denotes (libff.g2 (x.re, x.im) (y.re, y.im) (1, 0)) (.some x y h)
  isWellFormed_zero : libff.g2IsWellFormed libff.g2Zero = true
  isWellFormed_g2 : ∀ x y : Fq2Field q,
    libff.g2IsWellFormed (libff.g2 (x.re, x.im) (y.re, y.im) (1, 0)) = true ↔ y ^ 2 = x ^ 3 + twistB q
  smul : ∀ s p P, denotes p P → denotes (libff.g2Smul s p) (s.val • P)
  add : ∀ p p' P Q, denotes p P → denotes p' Q → denotes (libff.g2Add p p') (P + Q)
  eq : ∀ p p' P Q, denotes p P → denotes p' Q → (libff.g2Eq p p' = true ↔ P = Q)

/-! ## G2 -/

theorem not_namesG2 (positive : 0 < q) {t : G2Point} (outside : rejects2 q t) : ¬ NamesG2 q r t := by
  unfold rejects2 at outside
  rintro (rfl | ⟨⟨x0, x1, y0, y1⟩, -⟩)
  · simp only at outside
    omega
  · omega

namespace LibffG2.ComputesInTwist
variable {libff : LibffG2 q r} {denotes : libff.G2 → (Twist q).Point → Prop}

/-- **The subgroup test**: minus one times a point is `r - 1` times it. -/
theorem subgroup_iff (impl : libff.ComputesInTwist denotes) {p : libff.G2} {P : (Twist q).Point} (stands : denotes p P) :
    libff.g2Eq (libff.g2Add (libff.g2Smul (-1) p) p) libff.g2Zero = true ↔ r • P = 0 := by
  obtain ⟨n, order⟩ : ∃ n, r = n + 2 := Nat.exists_eq_add_of_le' impl.order
  have opposite : (-1 : ZMod r).val = n + 1 := by
    rw [order]
    exact ZMod.val_neg_one (n + 1)
  have product := impl.smul (-1) p P stands
  rw [impl.eq _ _ _ _ (impl.add _ _ _ _ product stands) impl.zero, opposite, ← succ_nsmul, order]

/-- A solution of the equation denotes the point that its coordinates name. -/
theorem denotes_coordinates (impl : libff.ComputesInTwist denotes) {t : G2Point}
    (equation : (twistCoordinates q t).2 ^ 2 = (twistCoordinates q t).1 ^ 3 + twistB q) :
    ∃ P, pair P = twistCoordinates q t ∧ denotes (libff.g2 (t.x0, t.x1) (t.y0, t.y1) (1, 0)) P := by
  have nonsingular := (nonsingular_iff (six_ne_zero_fq2 impl.large) (twistB_ne_zero impl.large)).mpr equation
  exact ⟨_, rfl, impl.g2 _ _ nonsingular⟩

/-- What the hook computes from a point that is not infinity. -/
theorem tests_iff (impl : libff.ComputesInTwist denotes) {t : G2Point} (canonical : t.Canonical q)
    (finite : t ≠ ⟨0, 0, 0, 0⟩) :
    let p := libff.g2 (t.x0, t.x1) (t.y0, t.y1) (1, 0)
    (libff.g2IsWellFormed p && libff.g2Eq (libff.g2Add (libff.g2Smul (-1) p) p) libff.g2Zero) = true ↔
      NamesG2 q r t := by
  intro p
  have wellFormed : libff.g2IsWellFormed p = true ↔ _ :=
    impl.isWellFormed_g2 (twistCoordinates q t).1 (twistCoordinates q t).2
  rw [Bool.and_eq_true, wellFormed, NamesG2, or_iff_right finite, and_iff_right canonical]
  refine and_congr_right fun equation => ?_
  obtain ⟨P, named, stands⟩ := impl.denotes_coordinates equation
  rw [impl.subgroup_iff stands]
  constructor
  · intro torsion
    exact ⟨P, named, torsion⟩
  · rintro ⟨Q, same, torsion⟩
    rwa [← pair_injective (twistB_ne_zero impl.large) (same.trans named.symm)]

theorem bn128g2valid_tells_iff (impl : libff.ComputesInTwist denotes) (limbs : libff.FourLimbs) (t : G2Point) :
    Tells (hookBn128g2valid libff t) (NamesG2 q r t) ↔ Safe2 q t := by
  unfold hookBn128g2valid
  rcases limbs.getPointG2_cases t with ⟨rfl, point⟩ | ⟨finite, canonical, point⟩ | ⟨outside, what, refused⟩ | ⟨bad, failed⟩
  · rw [point]
    have torsion := (impl.subgroup_iff impl.zero).mpr (nsmul_zero r)
    refine iff_of_true ⟨_, rfl, iff_of_true ?_ (.inl rfl)⟩ (.inl ⟨le_rfl, le_rfl, le_rfl, le_rfl⟩)
    rw [impl.isWellFormed_zero, torsion, Bool.and_self]
  · rw [point]
    obtain ⟨x0, x1, y0, y1⟩ := canonical
    exact iff_of_true ⟨_, rfl, impl.tests_iff ⟨x0, x1, y0, y1⟩ finite⟩ (.inl ⟨x0.1, x1.1, y0.1, y1.1⟩)
  · rw [refused]
    exact iff_of_true ⟨_, rfl, iff_of_false Bool.false_ne_true (not_namesG2 limbs.positive outside)⟩ (.inr outside)
  · rw [failed]
    exact iff_of_false (not_tells_of_assertFailed rfl) bad

end LibffG2.ComputesInTwist

/-- **Both hooks tell whether a term names a point of the group** on the terms without
a negative coordinate, and on those with a coordinate from the modulus up; on no others. -/
theorem valid_tells_iff {libff : LibffG2 q r} {denotes : libff.G2 → (Twist q).Point → Prop} (limbs : libff.FourLimbs)
    (tests : libff.TestsEquation) (twist : libff.ComputesInTwist denotes) :
    (∀ t : G1Point, Tells (hookBn128valid libff.toLibffG1 t) (NamesG1 q t) ↔ t.Nonnegative ∨ t.x ≥ q ∨ t.y ≥ q) ∧
    ∀ t : G2Point, Tells (hookBn128g2valid libff t) (NamesG2 q r t) ↔
      t.Nonnegative ∨ t.x0 ≥ q ∨ t.x1 ≥ q ∨ t.y0 ≥ q ∨ t.y1 ≥ q :=
  ⟨bn128valid_tells_iff limbs tests, twist.bn128g2valid_tells_iff limbs⟩

end

/-! ## Over the groups themselves -/

/-- `alt_bn128_Fr::mod`. -/
def bnScalarModulus : ℕ := 21888242871839275222246405745257275088548364400416034343698204186575808495617

theorem bn_neg_one_not_square (a : ZMod bnFieldModulus) : a ^ 2 ≠ -1 + 0 * a := by
  intro square
  have residue : IsSquare (-1 : ZMod bnFieldModulus) := ⟨a, by rw [← pow_two, square, zero_mul, add_zero]⟩
  have three : bnFieldModulus % 4 = 3 := by decide +kernel
  exact ZMod.exists_sq_eq_neg_one_iff.mp residue three

instance : Fact (∀ a : ZMod bnFieldModulus, a ^ 2 ≠ -1 + 0 * a) := ⟨bn_neg_one_not_square⟩

/-- A point of the twist, or a pair off it. -/
abbrev ReferenceG2 := (Twist bnFieldModulus).Point ⊕ (Fq2Field bnFieldModulus × Fq2Field bnFieldModulus)

open Classical in
/-- The operations of the twist, with a pairing that is always one. -/
noncomputable def referenceLibffG2 : LibffG2 bnFieldModulus bnScalarModulus where
  toLibffG1 := referenceLibff bnFieldModulus
  G2 := ReferenceG2
  g2 x y _ :=
    let c : Fq2Field bnFieldModulus × Fq2Field bnFieldModulus := (⟨x.1, x.2⟩, ⟨y.1, y.2⟩)
    if (Twist bnFieldModulus).Equation c.1 c.2 then .inl (elementOf _ c) else .inr c
  g2Zero := .inl 0
  g2IsZero p := p.elim (fun P => decide (P = 0)) fun _ => false
  Fq12 := Multiplicative ℤ
  G1Precomp := Unit
  G2Precomp := Unit
  precomputeG1 _ := ()
  precomputeG2 _ := ()
  millerLoop _ _ := 1
  finalExponentiation := MonoidHom.id _
  g2IsWellFormed p := p.isLeft
  g2Smul s p := p.elim (fun P => .inl (s.val • P)) .inr
  g2Add p p' := p.elim (fun P => p'.elim (fun Q => .inl (P + Q)) .inr) .inr
  g2Eq p p' := decide (p = p')

theorem referenceLibff_fourLimbs : (referenceLibff bnFieldModulus).FourLimbs where
  positive := by decide
  limbs := bn_implements.limbs
  converts := bn_implements.bigint
  asserts := fun _ outside => if_neg outside

theorem referenceLibff_testsEquation : (referenceLibff bnFieldModulus).TestsEquation where
  zero := bn_implements.isWellFormed_zero
  g1 := bn_implements.isWellFormed_g1

/-- **The assumptions about G2 are met by the twist.** -/
theorem referenceLibffG2_computes : referenceLibffG2.ComputesInTwist fun p P => p = .inl P where
  large := by decide
  order := by decide
  zero := rfl
  g2 := by
    intro x y h
    have on : referenceLibffG2.g2 (x.re, x.im) (y.re, y.im) (1, 0) = Sum.inl (elementOf _ (x, y)) := if_pos h.1
    have element : elementOf (twistB bnFieldModulus) (x, y) = .some x y h :=
      elementOf_pair (twistB_ne_zero (by decide)) (.some x y h)
    rw [on, element]
  isWellFormed_zero := rfl
  isWellFormed_g2 := by
    intro x y
    rw [← ShortWeierstrass.equation_iff]
    by_cases on : (Twist bnFieldModulus).Equation x y
    · have point : referenceLibffG2.g2 (x.re, x.im) (y.re, y.im) (1, 0) = Sum.inl (elementOf _ (x, y)) := if_pos on
      rw [point]
      exact iff_of_true rfl on
    · have point : referenceLibffG2.g2 (x.re, x.im) (y.re, y.im) (1, 0) = Sum.inr (x, y) := if_neg on
      rw [point]
      exact iff_of_false Bool.false_ne_true on
  smul := by
    intro s p P stands
    rw [stands]
    rfl
  add := by
    intro p p' P Q stands stands'
    rw [stands, stands']
    rfl
  eq := by
    intro p p' P Q stands stands'
    rw [stands, stands']
    exact decide_eq_true_iff.trans Sum.inl_injective.eq_iff

/-- The generator of G2. -/
def generatorG2 : G2Point where
  x0 := 10857046999023057135944570762232829481370756359578518086990519993285655852781
  x1 := 11559732032986387107991004021392285783925812861821192530917403151452391805634
  y0 := 8495653923123431417604973247489272438418190587263600148770280649306958101930
  y1 := 4082367875863433681332203403145435568316851327593401208105741076214120093531

theorem generatorG2_canonical : generatorG2.Canonical bnFieldModulus := by
  unfold G2Point.Canonical
  decide +kernel

theorem generatorG2_nonnegative : generatorG2.Nonnegative := by
  obtain ⟨x0, x1, y0, y1⟩ := generatorG2_canonical
  exact ⟨x0.1, x1.1, y0.1, y1.1⟩

/-- The generators are told to be valid, and so is infinity. -/
theorem valid_tells_generator :
    Tells (hookBn128valid (referenceLibff bnFieldModulus) ⟨1, 2⟩) (NamesG1 bnFieldModulus ⟨1, 2⟩) ∧
    Tells (hookBn128g2valid referenceLibffG2 generatorG2) (NamesG2 bnFieldModulus bnScalarModulus generatorG2) ∧
    Tells (hookBn128g2valid referenceLibffG2 ⟨0, 0, 0, 0⟩) (NamesG2 bnFieldModulus bnScalarModulus ⟨0, 0, 0, 0⟩) := by
  obtain ⟨g1, g2⟩ :=
    valid_tells_iff referenceLibff_fourLimbs referenceLibff_testsEquation referenceLibffG2_computes
  refine ⟨(g1 _).mpr (.inl ⟨by decide, by decide⟩), (g2 _).mpr (.inl generatorG2_nonnegative), ?_⟩
  exact (g2 _).mpr (.inl ⟨le_rfl, le_rfl, le_rfl, le_rfl⟩)

/-- A negative abscissa is answered by neither hook. -/
theorem valid_fails_on_negative :
    (hookBn128valid (referenceLibff bnFieldModulus) ⟨-1, 2⟩ = .error .assertFailed ∧
      hookBn128g2valid referenceLibffG2 ⟨-1, 0, 0, 0⟩ = .error .assertFailed) ∧
    (¬ ∀ t, Tells (hookBn128valid (referenceLibff bnFieldModulus) t) (NamesG1 bnFieldModulus t)) ∧
    ¬ ∀ t, Tells (hookBn128g2valid referenceLibffG2 t) (NamesG2 bnFieldModulus bnScalarModulus t) := by
  have failed1 : hookBn128valid (referenceLibff bnFieldModulus) ⟨-1, 2⟩ = .error .assertFailed := by
    unfold hookBn128valid
    have safe : ¬ Safe1 bnFieldModulus ⟨-1, 2⟩ := by
      unfold Safe1 G1Point.Nonnegative rejects1
      decide
    have limbs := referenceLibff_fourLimbs
    rw [limbs.getPoint_fails safe]
  have failed2 : hookBn128g2valid referenceLibffG2 ⟨-1, 0, 0, 0⟩ = .error .assertFailed := by
    unfold hookBn128g2valid
    have safe : ¬ Safe2 bnFieldModulus ⟨-1, 0, 0, 0⟩ := by
      unfold Safe2 G2Point.Nonnegative rejects2
      decide
    have limbs : referenceLibffG2.FourLimbs := referenceLibff_fourLimbs
    rw [limbs.getPointG2_fails safe]
  refine ⟨⟨failed1, failed2⟩, ?_, ?_⟩
  · intro all
    exact not_tells_of_assertFailed failed1 (all _)
  · intro all
    exact not_tells_of_assertFailed failed2 (all _)

end KPlugin.Bn128
