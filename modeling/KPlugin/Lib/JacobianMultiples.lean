import Mathlib.AlgebraicGeometry.EllipticCurve.Jacobian.Point
import KPlugin.Lib.JacobianChain

/-!
# Multiples of a point of `y² = x³ + a x + b`

Doubling and adding an affine point in Jacobian coordinates, in the operations that
can be evaluated. They are the group operations of the curve's representatives up to
a unit, so what a chain of them arrives at is a multiple of its base, provided it
arrives with a denominator.
-/

namespace JacobianMultiples
open WeierstrassCurve WeierstrassCurve.Jacobian ShortWeierstrass

variable {K : Type*} [Field K]

/-- The double of a triple, where `a` is the coefficient of `x`. -/
def double (a : K) (t : Triple K) : Triple K :=
  let square := t.Y * t.Y
  let v := t.X * square + t.X * square
  let s := v + v
  let m := t.X * t.X + t.X * t.X + t.X * t.X + a * (t.Z * t.Z * (t.Z * t.Z))
  let x := m * m - (s + s)
  let w := square * square + square * square
  { X := x
    Y := m * (s - x) - (w + w + (w + w))
    Z := (t.Y + t.Y) * t.Z }

/-- The sum of a triple and an affine point with another abscissa. -/
def addAffine (t : Triple K) (c : K × K) : Triple K :=
  let abscissa := c.1 * (t.Z * t.Z)
  let h := t.X - abscissa
  let r := t.Y - c.2 * (t.Z * t.Z * t.Z)
  let v := t.X * (h * h)
  let x := r * r - (v + abscissa * (h * h))
  { X := x
    Y := r * (v - x) - t.Y * (h * h * h)
    Z := h * t.Z }

/-- Double, and add the base where the bit is set. -/
def multiple (a : K) (base : K × K) : List Bool → Triple K → Triple K
  | [], t => t
  | false :: bits, t => multiple a base bits (double a t)
  | true :: bits, t => multiple a base bits (addAffine (double a t) base)

/-- The representative a triple is. -/
def vector (t : Triple K) : Fin 3 → K := ![t.X, t.Y, t.Z]

/-- The curve is `y² = x³ + a x + b`. -/
structure Short (W : Jacobian K) : Prop where
  a₁ : W.a₁ = 0
  a₂ : W.a₂ = 0
  a₃ : W.a₃ = 0

variable {W : Jacobian K}

theorem vector_double (short : Short W) (t : Triple K) : vector (double W.a₄ t) = W.dblXYZ (vector t) := by
  funext i
  fin_cases i
  all_goals
    simp [vector, double, dblXYZ, dblX, dblY, negDblY, dblZ, dblU_eq, negY, short.a₁, short.a₂, short.a₃]
    ring

/-- The sum is a multiple, by the denominator, of the representatives' own. -/
theorem vector_addAffine (short : Short W) (t : Triple K) {x y : K} (on : W.Equation (vector t))
    (affine : W.Equation ![x, y, 1]) :
    vector (addAffine t (x, y)) = t.Z • W.addXYZ (vector t) ![x, y, 1] := by
  have first := (equation_iff _).mp on
  have second := (equation_iff _).mp affine
  simp only [vector, fin3_def_ext, short.a₁, short.a₂, short.a₃] at first second
  funext i
  fin_cases i
  · simp [vector, addAffine, smul_fin3, addXYZ, addX, short.a₁, short.a₂, short.a₃]
    linear_combination first + t.Z ^ 6 * second
  · simp [vector, addAffine, smul_fin3, addXYZ, addY, negAddY, negY, addX, addZ, short.a₁, short.a₂, short.a₃]
    linear_combination -(t.Y - y * t.Z ^ 3) * (first + t.Z ^ 6 * second)
  · simp [vector, addAffine, smul_fin3, addXYZ, addZ]
    ring

/-! ## What a triple stands for -/

/-- The triple represents the point. -/
structure Represents (W : Jacobian K) (t : Triple K) (P : W.toAffine.Point) : Prop where
  nonsingular : W.Nonsingular (vector t)
  point : Point.toAffine W (vector t) = P

theorem represents_affine {x y : K} (h : W.toAffine.Nonsingular x y) :
    Represents W (Triple.ofAffine (x, y)) (.some x y h) := by
  have affine : W.Nonsingular ![x, y, 1] := (nonsingular_some x y).mpr h
  exact ⟨affine, Point.toAffine_some affine⟩

variable [DecidableEq K]

/-- **Doubling doubles.** -/
theorem Represents.double (short : Short W) {t : Triple K} {P : W.toAffine.Point} (stands : Represents W t P) :
    Represents W (double W.a₄ t) (P + P) := by
  have sum := W.add_self (vector t)
  refine ⟨?_, ?_⟩
  · rw [vector_double short, ← sum]
    exact nonsingular_add stands.nonsingular stands.nonsingular
  · rw [vector_double short, ← sum, Point.toAffine_add stands.nonsingular stands.nonsingular, stands.point]

/-- **Adding adds**, when the result has a denominator. -/
theorem Represents.addAffine (short : Short W) {t : Triple K} {P : W.toAffine.Point} (stands : Represents W t P)
    {x y : K} (h : W.toAffine.Nonsingular x y) (denominator : (addAffine t (x, y)).Z ≠ 0) :
    Represents W (addAffine t (x, y)) (P + .some x y h) := by
  have affine : W.Nonsingular ![x, y, 1] := (nonsingular_some x y).mpr h
  have different : ¬ vector t ≈ ![x, y, 1] := by
    refine not_equiv_of_X_ne ?_
    simp only [vector, fin3_def_ext, one_pow, mul_one]
    intro same
    apply left_ne_zero_of_mul denominator
    linear_combination same
  have unit : IsUnit t.Z := (right_ne_zero_of_mul denominator).isUnit
  have sum := W.add_of_not_equiv different
  have sumVector := vector_addAffine short t stands.nonsingular.1 affine.1
  refine ⟨?_, ?_⟩
  · rw [sumVector, nonsingular_smul _ unit, ← sum]
    exact nonsingular_add stands.nonsingular affine
  · rw [sumVector, Point.toAffine_smul _ unit, ← sum, Point.toAffine_add stands.nonsingular affine, stands.point,
      Point.toAffine_some affine]

omit [DecidableEq K] in
/-- The last denominator of a chain is a multiple of the first. -/
theorem multiple_denominator {a : K} {base : K × K} {t : Triple K} (bits : List Bool)
    (denominator : (multiple a base bits t).Z ≠ 0) : t.Z ≠ 0 := by
  induction bits generalizing t with
  | nil => exact denominator
  | cons bit bits ih =>
    cases bit with
    | false => exact right_ne_zero_of_mul (ih denominator)
    | true => exact right_ne_zero_of_mul (right_ne_zero_of_mul (ih denominator))

/-- **A chain that ends with a denominator computes a multiple.** -/
theorem Represents.multiple (short : Short W) {x y : K} (h : W.toAffine.Nonsingular x y) {t : Triple K} {n : ℕ}
    (bits : List Bool) (stands : Represents W t (n • .some x y h))
    (denominator : (multiple W.a₄ (x, y) bits t).Z ≠ 0) :
    Represents W (multiple W.a₄ (x, y) bits t) (appendBits bits n • .some x y h) := by
  induction bits generalizing n t with
  | nil => exact stands
  | cons bit bits ih =>
    have twice := stands.double short
    rw [← two_nsmul, ← mul_nsmul'] at twice
    cases bit with
    | false => exact ih twice denominator
    | true =>
      have more := twice.addAffine short h (multiple_denominator bits denominator)
      rw [← succ_nsmul] at more
      exact ih more denominator

/-- The coordinates of a multiple. -/
theorem nsmul_eq_some (short : Short W) {x y x' y' : K} (h : W.toAffine.Nonsingular x y)
    (h' : W.toAffine.Nonsingular x' y') {bits : List Bool}
    (reached : (multiple W.a₄ (x, y) bits (.ofAffine (x, y))).At (x', y')) :
    appendBits bits 1 • Affine.Point.some x y h = .some x' y' h' := by
  obtain ⟨denominator, abscissa, ordinate⟩ := reached
  have once : Represents W (.ofAffine (x, y)) (1 • .some x y h) := by
    rw [one_nsmul]
    exact represents_affine h
  have arrived := once.multiple short h bits denominator
  have affine : W.Nonsingular ![x', y', 1] := (nonsingular_some x' y').mpr h'
  have same : vector (multiple W.a₄ (x, y) bits (.ofAffine (x, y))) ≈ ![x', y', 1] := by
    refine equiv_of_X_eq_of_Y_eq denominator one_ne_zero ?_ ?_
    · simp only [vector, fin3_def_ext, abscissa]
      ring
    · simp only [vector, fin3_def_ext, ordinate]
      ring
  rw [← arrived.point, Point.toAffine_of_equiv same, Point.toAffine_some affine]

omit [DecidableEq K] in
/-- The opposite point. -/
theorem neg_eq_some {x y z : K} (h : W.toAffine.Nonsingular x y) (h' : W.toAffine.Nonsingular x z)
    (opposite : W.toAffine.negY x y = z) : -Affine.Point.some x y h = .some x z h' := by
  subst opposite
  rfl

/-- A chain for `n - 1` that ends at the opposite of its base: `n` annihilates the base. -/
theorem nsmul_eq_zero_of_chain (short : Short W) {x y : K} (h : W.toAffine.Nonsingular x y) {n : ℕ} (large : 1 < n)
    (reached : (multiple W.a₄ (x, y) (lowerBits (n - 1)) (.ofAffine (x, y))).At (x, -y)) :
    n • Affine.Point.some x y h = 0 := by
  have opposite : W.toAffine.negY x y = -y := by simp [Affine.negY, short.a₁, short.a₃]
  have h' : W.toAffine.Nonsingular x (-y) := opposite ▸ (Affine.nonsingular_neg x y).mpr h
  have multiple := nsmul_eq_some short h h' reached
  rw [appendBits_lowerBits (Nat.sub_pos_of_lt large)] at multiple
  have once : n = n - 1 + 1 := by omega
  rw [once, succ_nsmul, multiple, ← neg_eq_some h h' opposite, neg_add_cancel]

end JacobianMultiples
