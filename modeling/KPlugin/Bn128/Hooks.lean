import Mathlib.Algebra.Field.ZMod
import KPlugin.Curve.Term
import KPlugin.Lib.GroupCode
import KPlugin.Lib.ShortWeierstrass

/-!
# Addition, multiplication and validity on BN128

libff computes on projective points; `getPoint` enters and `projectPoint` leaves
that representation. The terms that name group elements are the canonical ones
that `hook_KRYPTO_bn128valid` accepts, and on them addition and multiplication are
the group's.
-/

namespace KPlugin.Bn128
open ShortWeierstrass GroupCode WeierstrassCurve.Affine

/-- What the G1 hooks call of libff; `q` is `alt_bn128_Fq::mod`, and an element of
`alt_bn128_Fq` is its residue. -/
structure LibffG1 (q : ℕ) where
  /-- The constructor of `bigint<alt_bn128_q_limbs>` from an `mpz_t`. -/
  bigint : ℤ → Except Raise ℕ
  G1 : Type
  g1 : ZMod q → ZMod q → ZMod q → G1
  zero : G1
  isZero : G1 → Bool
  isWellFormed : G1 → Bool
  add : G1 → G1 → G1
  smul : ℕ → G1 → G1
  toAffineCoordinates : G1 → G1
  X : G1 → ZMod q
  Y : G1 → ZMod q

variable {q : ℕ}

/-! ## The hooks -/

/-- `getPoint` of a G1 term. -/
def getPoint (libff : LibffG1 q) (pt : G1Point) : Except Raise libff.G1 := do
  if pt.x = 0 ∧ pt.y = 0 then return libff.zero
  if pt.x ≥ q ∨ pt.y ≥ q then throw (.invalidArgument "not a member of the field")
  let x ← libff.bigint pt.x
  let y ← libff.bigint pt.y
  return libff.g1 x y 1

/-- `projectPoint`. -/
def projectPoint (libff : LibffG1 q) (pt : libff.G1) : G1Point :=
  if libff.isZero pt then ⟨0, 0⟩
  else
    let pt := libff.toAffineCoordinates pt
    ⟨(libff.X pt).val, (libff.Y pt).val⟩

/-- Only `std::invalid_argument` is caught. -/
def hookBn128valid (libff : LibffG1 q) (pt : G1Point) : Except Raise Bool :=
  match getPoint libff pt with
  | .ok p => .ok (libff.isWellFormed p)
  | .error (.invalidArgument _) => .ok false
  | .error .assertFailed => .error .assertFailed

def hookBn128add (libff : LibffG1 q) (pt1 pt2 : G1Point) : Except Raise G1Point := do
  let p1 ← getPoint libff pt1
  let p2 ← getPoint libff pt2
  return projectPoint libff (libff.add p1 p2)

def hookBn128mul (libff : LibffG1 q) (pt : G1Point) (scalar : ℤ) : Except Raise G1Point := do
  let s ← libff.bigint scalar
  let g1pt ← getPoint libff pt
  return projectPoint libff (libff.smul s g1pt)

/-! ## What is assumed of libff -/

/-- Four limbs hold every number below `2 ^ 256`. -/
def LibffG1.BigintConverts (libff : LibffG1 q) : Prop := ∀ m : ℤ, 0 ≤ m → m < 2 ^ 256 → libff.bigint m = .ok m.toNat

/-- A residue goes through the limbs unchanged. -/
theorem LibffG1.BigintConverts.residue {libff : LibffG1 q} (converts : libff.BigintConverts) (limbs : q < 2 ^ 256)
    {m : ℤ} (bounds : 0 ≤ m ∧ m < q) : ∃ n : ℕ, libff.bigint m = .ok n ∧ (n : ZMod q) = m := by
  have fits : (q : ℤ) < 2 ^ 256 := by exact_mod_cast limbs
  refine ⟨m.toNat, converts m bounds.1 (bounds.2.trans fits), ?_⟩
  rw [← Int.cast_natCast, Int.toNat_of_nonneg bounds.1]

/-- A canonical term other than `(0, 0)` enters with the coordinate 1. -/
theorem getPoint_eq {libff : LibffG1 q} (converts : libff.BigintConverts) (limbs : q < 2 ^ 256) {t : G1Point}
    (canonical : t.Canonical q) (finite : t ≠ ⟨0, 0⟩) : getPoint libff t = .ok (libff.g1 t.x t.y 1) := by
  obtain ⟨x, limbsX, castX⟩ := converts.residue limbs canonical.1
  obtain ⟨y, limbsY, castY⟩ := converts.residue limbs canonical.2
  have nonzero : ¬ (t.x = 0 ∧ t.y = 0) := fun zero => finite (by rw [G1Point.mk.injEq]; exact zero)
  have inField : ¬ (t.x ≥ q ∨ t.y ≥ q) := by
    rintro (outside | outside)
    · exact absurd canonical.1.2 (not_lt.mpr outside)
    · exact absurd canonical.2.2 (not_lt.mpr outside)
  unfold getPoint
  rw [if_neg nonzero, if_neg inField, limbsX, limbsY, ← castX, ← castY]
  rfl

/-- A coordinate outside the field is refused. -/
theorem getPoint_rejected (libff : LibffG1 q) {t : G1Point} (positive : 0 < q) (outside : t.x ≥ q ∨ t.y ≥ q) :
    getPoint libff t = .error (.invalidArgument "not a member of the field") := by
  have nonzero : ¬ (t.x = 0 ∧ t.y = 0) := by omega
  unfold getPoint
  rw [if_neg nonzero, if_pos outside]
  rfl

/-- `y² = x³ + 3` over the field of `q` elements. -/
abbrev Curve (q : ℕ) [Fact q.Prime] : WeierstrassCurve.Affine (ZMod q) := curve 3

/-- Residues and scalars fit four limbs, and the projective operations compute in the
group of the curve, which has odd order. -/
structure LibffG1.Implements [Fact q.Prime] (libff : LibffG1 q) (denotes : libff.G1 → (Curve q).Point → Prop) :
    Prop where
  large : 3 < q
  limbs : q < 2 ^ 256
  bigint : libff.BigintConverts
  zero : denotes libff.zero 0
  g1 : ∀ x y h, denotes (libff.g1 x y 1) (.some x y h)
  isZero : ∀ p P, denotes p P → (libff.isZero p = true ↔ P = 0)
  isWellFormed_zero : libff.isWellFormed libff.zero = true
  isWellFormed_g1 : ∀ x y, libff.isWellFormed (libff.g1 x y 1) = true ↔ y ^ 2 = x ^ 3 + 3
  add : ∀ p p' P Q, denotes p P → denotes p' Q → denotes (libff.add p p') (P + Q)
  smul : ∀ n p P, n < 2 ^ 256 → denotes p P → denotes (libff.smul n p) (n • P)
  toAffineCoordinates : ∀ p P, denotes p P → P ≠ 0 →
    (libff.X (libff.toAffineCoordinates p), libff.Y (libff.toAffineCoordinates p)) = pair P
  odd : Odd (Nat.card (Curve q).Point)

/-- The terms the group is on. -/
def Valid (libff : LibffG1 q) (t : G1Point) : Prop := t.Canonical q ∧ hookBn128valid libff t = .ok true

/-! ## Points and terms -/

variable [prime : Fact q.Prime] {libff : LibffG1 q} {denotes : libff.G1 → (Curve q).Point → Prop}

/-- The term of a group element. -/
def term (P : (Curve q).Point) : G1Point := G1Point.ofResidues (pair P)

namespace LibffG1.Implements

theorem three_ne_zero (impl : libff.Implements denotes) : (3 : ZMod q) ≠ 0 := natCast_ne_zero (by decide) impl.large

theorem six_ne_zero (impl : libff.Implements denotes) : (6 : ZMod q) ≠ 0 := by
  have two : ((2 : ℕ) : ZMod q) ≠ 0 := natCast_ne_zero (by decide) (by have := impl.large; omega)
  have product : (6 : ZMod q) = (2 : ℕ) * 3 := by norm_num
  rw [product]
  exact mul_ne_zero two impl.three_ne_zero

/-- The term of an element enters as that element. -/
theorem getPoint_term (impl : libff.Implements denotes) (P : (Curve q).Point) :
    ∃ p, getPoint libff (term P) = .ok p ∧ denotes p P ∧ libff.isWellFormed p = true := by
  cases P with
  | zero =>
    have origin : term (Point.zero : (Curve q).Point) = ⟨0, 0⟩ := G1Point.ofResidues_zero
    rw [origin]
    exact ⟨_, rfl, impl.zero, impl.isWellFormed_zero⟩
  | some x y h =>
    have finite : term (.some x y h) ≠ ⟨0, 0⟩ := by
      intro origin
      apply pair_some_ne impl.three_ne_zero h
      exact G1Point.ofResidues_injective (origin.trans G1Point.ofResidues_zero.symm)
    have point := getPoint_eq impl.bigint impl.limbs (G1Point.canonical_ofResidues (x, y)) finite
    have coordinates : getPoint libff (term (.some x y h)) = .ok (libff.g1 x y 1) := by
      refine point.trans ?_
      change Except.ok (libff.g1 (((x.val : ℕ) : ℤ) : ZMod q) (((y.val : ℕ) : ℤ) : ZMod q) 1) = _
      rw [intCast_val, intCast_val]
    exact ⟨_, coordinates, impl.g1 x y h, (impl.isWellFormed_g1 x y).mpr (equation_iff.mp h.1)⟩

/-- Whatever denotes an element leaves as the term of that element, whichever its
projective coordinates are. -/
theorem projectPoint_eq (impl : libff.Implements denotes) {p : libff.G1} {P : (Curve q).Point} (stands : denotes p P) :
    projectPoint libff p = term P := by
  unfold projectPoint term
  by_cases zero : P = 0
  · rw [if_pos ((impl.isZero p P stands).mpr zero), zero, pair_zero]
    exact G1Point.ofResidues_zero.symm
  · have finite : ¬ libff.isZero p = true := fun isZero => zero ((impl.isZero p P stands).mp isZero)
    rw [if_neg finite, ← impl.toAffineCoordinates p P stands zero]
    rfl

/-- **The valid terms name the group elements**, each once. -/
theorem code (impl : libff.Implements denotes) : Code (Valid libff) (term (q := q)) where
  valid_iff := by
    intro t
    constructor
    · rintro ⟨canonical, valid⟩
      by_cases origin : t = ⟨0, 0⟩
      · exact ⟨0, G1Point.ofResidues_zero.trans origin.symm⟩
      · have wellFormed : libff.isWellFormed (libff.g1 t.x t.y 1) = true := by
          unfold hookBn128valid at valid
          rw [getPoint_eq impl.bigint impl.limbs canonical origin] at valid
          exact Except.ok.inj valid
        have equation := (impl.isWellFormed_g1 _ _).mp wellFormed
        have nonsingular := (nonsingular_iff impl.six_ne_zero impl.three_ne_zero).mpr equation
        exact ⟨.some _ _ nonsingular, G1Point.ofResidues_intCast canonical⟩
    · rintro ⟨P, rfl⟩
      obtain ⟨p, point, -, wellFormed⟩ := impl.getPoint_term P
      refine ⟨G1Point.canonical_ofResidues _, ?_⟩
      unfold hookBn128valid
      rw [point]
      exact congrArg Except.ok wellFormed
  injective := G1Point.ofResidues_injective.comp (pair_injective impl.three_ne_zero)

/-- **Addition adds.** -/
theorem add_term (impl : libff.Implements denotes) (P Q : (Curve q).Point) :
    hookBn128add libff (term P) (term Q) = .ok (term (P + Q)) := by
  obtain ⟨p, first, standsP, -⟩ := impl.getPoint_term P
  obtain ⟨p', second, standsQ, -⟩ := impl.getPoint_term Q
  unfold hookBn128add
  rw [first, second, ← impl.projectPoint_eq (impl.add p p' P Q standsP standsQ)]
  rfl

/-- **Multiplication multiplies.** -/
theorem mul_term (impl : libff.Implements denotes) (P : (Curve q).Point) {n : ℕ} (small : n < 2 ^ 256) :
    hookBn128mul libff (term P) n = .ok (term (n • P)) := by
  obtain ⟨p, point, stands, -⟩ := impl.getPoint_term P
  have scalar : libff.bigint n = .ok n := impl.bigint n (Int.natCast_nonneg n) (by exact_mod_cast small)
  unfold hookBn128mul
  rw [scalar, point, ← impl.projectPoint_eq (impl.smul n p P small stands)]
  rfl

theorem term_zero : term (0 : (Curve q).Point) = ⟨0, 0⟩ := G1Point.ofResidues_zero

theorem neg_term (P : (Curve q).Point) : G1Point.neg q (term P) = term (-P) := by
  unfold term
  rw [G1Point.neg_ofResidues, pair_neg]

theorem isAbelianGroup (impl : libff.Implements denotes) :
    IsAbelianGroup (Valid libff) (hookBn128add libff) ⟨0, 0⟩ (G1Point.neg q) :=
  impl.code.isAbelianGroup impl.add_term term_zero neg_term

/-- Away from infinity no ordinate is 0, so its opposite is `q - y`. -/
theorem neg_eq (impl : libff.Implements denotes) {t : G1Point} (valid : Valid libff t) (finite : t ≠ ⟨0, 0⟩) :
    G1Point.neg q t = ⟨t.x, q - t.y⟩ := by
  obtain ⟨P, rfl⟩ := (impl.code.valid_iff t).mp valid
  have nonzero : P ≠ 0 := by
    rintro rfl
    exact finite term_zero
  have ordinate := ordinate_ne_zero impl.three_ne_zero impl.odd nonzero
  have positive : 0 < (pair P).2.val := ZMod.val_pos.mpr ordinate
  have below := ZMod.val_lt (pair P).2
  unfold G1Point.neg
  congr 1
  change -((pair P).2.val : ℤ) % q = q - ((pair P).2.val : ℤ)
  rw [← Int.add_emod_right, Int.emod_eq_of_lt (by omega) (by omega)]
  omega

end LibffG1.Implements

end KPlugin.Bn128
