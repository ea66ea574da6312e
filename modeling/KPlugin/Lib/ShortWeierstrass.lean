import Mathlib.AlgebraicGeometry.EllipticCurve.Affine.Point
import Mathlib.GroupTheory.Perm.Cycle.Type

/-!
# The curve `y² = x³ + b` and its points as pairs

With `b ≠ 0` the pair `(0, 0)` satisfies no equation and can stand for the point
at infinity; every other point is written as its coordinates. Away from the
characteristics 2 and 3 every solution is a point, so the pairs are in bijection
with the group of the curve.
-/

namespace ShortWeierstrass
open WeierstrassCurve.Affine

variable {K : Type*} [Field K]

/-- `y² = x³ + b`. -/
def curve (b : K) : WeierstrassCurve.Affine K where
  a₁ := 0
  a₂ := 0
  a₃ := 0
  a₄ := 0
  a₆ := b

/-- A solution of the equation, or the pair for infinity. -/
def OnCurve (b : K) (c : K × K) : Prop := c = (0, 0) ∨ c.2 ^ 2 = c.1 ^ 3 + b

/-- The pair of a point. -/
def pair {b : K} : (curve b).Point → K × K
  | .zero => (0, 0)
  | .some x y _ => (x, y)

theorem equation_iff {b x y : K} : (curve b).Equation x y ↔ y ^ 2 = x ^ 3 + b := by
  rw [WeierstrassCurve.Affine.equation_iff]
  simp only [curve, zero_mul, add_zero]

/-- Away from 2 and 3 the curve has no singular point. -/
theorem nonsingular_iff {b : K} (six : (6 : K) ≠ 0) (nonzero : b ≠ 0) {x y : K} :
    (curve b).Nonsingular x y ↔ y ^ 2 = x ^ 3 + b := by
  have discriminant : (curve b).Δ = -(2 * 6 ^ 3 * b ^ 2) := by
    simp only [WeierstrassCurve.Δ, WeierstrassCurve.b₂, WeierstrassCurve.b₄, WeierstrassCurve.b₆,
      WeierstrassCurve.b₈, curve]
    ring
  have two : (2 : K) ≠ 0 := by
    intro zero
    apply six
    calc (6 : K) = 2 * 3 := by norm_num
      _ = 0 := by rw [zero, zero_mul]
  have elliptic : (curve b).Δ ≠ 0 := by
    rw [discriminant, neg_ne_zero]
    exact mul_ne_zero (mul_ne_zero two (pow_ne_zero 3 six)) (pow_ne_zero 2 nonzero)
  rw [← equation_iff_nonsingular_of_Δ_ne_zero elliptic, equation_iff]

theorem pair_zero {b : K} : pair (0 : (curve b).Point) = (0, 0) := rfl

/-- Infinity's pair is no solution. -/
theorem pair_some_ne {b x y : K} (nonzero : b ≠ 0) (h : (curve b).Nonsingular x y) : (x, y) ≠ (0, 0) := by
  intro origin
  obtain ⟨rfl, rfl⟩ := Prod.mk.injEq .. ▸ origin
  have equation := equation_iff.mp h.1
  apply nonzero
  simpa using equation.symm

theorem pair_eq_zero_iff {b : K} (nonzero : b ≠ 0) (P : (curve b).Point) : pair P = (0, 0) ↔ P = 0 := by
  cases P with
  | zero => exact ⟨fun _ => rfl, fun _ => rfl⟩
  | some x y h =>
    refine ⟨fun origin => absurd origin (pair_some_ne nonzero h), fun zero => ?_⟩
    exact absurd zero (Point.some_ne_zero h)

theorem pair_injective {b : K} (nonzero : b ≠ 0) : Function.Injective (pair (b := b)) := by
  intro P Q same
  cases P with
  | zero => exact ((pair_eq_zero_iff nonzero Q).mp same.symm).symm
  | some x y h =>
    cases Q with
    | zero => exact absurd same (pair_some_ne nonzero h)
    | some x' y' h' =>
      obtain ⟨rfl, rfl⟩ := Prod.mk.injEq .. ▸ same
      rfl

theorem onCurve_pair {b : K} (P : (curve b).Point) : OnCurve b (pair P) := by
  cases P with
  | zero => exact .inl rfl
  | some x y h => exact .inr (equation_iff.mp h.1)

/-- **Every pair on the curve is the pair of a point.** -/
theorem onCurve_iff {b : K} (six : (6 : K) ≠ 0) (nonzero : b ≠ 0) (c : K × K) :
    OnCurve b c ↔ ∃ P : (curve b).Point, pair P = c := by
  constructor
  · rintro (rfl | equation)
    · exact ⟨0, rfl⟩
    · exact ⟨.some c.1 c.2 ((nonsingular_iff six nonzero).mpr equation), rfl⟩
  · rintro ⟨P, rfl⟩
    exact onCurve_pair P

/-- The opposite point has the opposite ordinate. -/
theorem pair_neg {b : K} (P : (curve b).Point) : pair (-P) = ((pair P).1, -(pair P).2) := by
  cases P with
  | zero =>
    have zero : -(Point.zero : (curve b).Point) = 0 := Point.neg_zero
    rw [zero]
    simp [pair]
  | some x y h =>
    rw [Point.neg_some]
    simp [pair, negY, curve]

/-! ## The element of a pair -/

open Classical in
/-- The group element of a pair on the curve. -/
noncomputable def elementOf (b : K) (c : K × K) : (curve b).Point :=
  if h : ∃ P : (curve b).Point, pair P = c then h.choose else 0

theorem elementOf_pair {b : K} (nonzero : b ≠ 0) (P : (curve b).Point) : elementOf b (pair P) = P := by
  have h : ∃ Q : (curve b).Point, pair Q = pair P := ⟨P, rfl⟩
  unfold elementOf
  rw [dif_pos h]
  exact pair_injective nonzero h.choose_spec

/-! ## Odd order -/

variable [DecidableEq K] {b : K}

/-- A point with ordinate 0 is its own opposite. -/
theorem two_nsmul_eq_zero (nonzero : b ≠ 0) {P : (curve b).Point} (ordinate : (pair P).2 = 0) : 2 • P = 0 := by
  have opposite : -P = P := by
    apply pair_injective nonzero
    rw [pair_neg, ordinate, neg_zero]
    exact Prod.ext rfl ordinate.symm
  rw [two_nsmul]
  exact add_eq_zero_iff_eq_neg.mpr opposite.symm

/-- **In a group of odd order** only infinity has ordinate 0. -/
theorem ordinate_ne_zero (nonzero : b ≠ 0) (odd : Odd (Nat.card (curve b).Point)) {P : (curve b).Point} (finite : P ≠ 0) :
    (pair P).2 ≠ 0 := by
  intro ordinate
  have two : addOrderOf P ∣ 2 := addOrderOf_dvd_of_nsmul_eq_zero (two_nsmul_eq_zero nonzero ordinate)
  have coprime : Nat.Coprime 2 (Nat.card (curve b).Point) := Nat.coprime_two_left.mpr odd
  have one : addOrderOf P ∣ 1 := coprime.gcd_eq_one ▸ Nat.dvd_gcd two (addOrderOf_dvd_natCard P)
  exact finite (AddMonoid.addOrderOf_eq_one_iff.mp (Nat.dvd_one.mp one))

/-- The group has odd order when `-b` is no cube. -/
theorem odd_card [Finite K] (nonzero : b ≠ 0) (two : (2 : K) ≠ 0) (noCube : ∀ x : K, x ^ 3 ≠ -b) :
    Odd (Nat.card (curve b).Point) := by
  have finite : Finite (curve b).Point := Finite.of_injective pair (pair_injective nonzero)
  rw [← Nat.not_even_iff_odd]
  intro even
  obtain ⟨P, order⟩ := exists_prime_addOrderOf_dvd_card' 2 (even_iff_two_dvd.mp even)
  have twice : P + P = 0 := by rw [← two_nsmul, ← order, addOrderOf_nsmul_eq_zero]
  cases P with
  | zero =>
    have one : addOrderOf (0 : (curve b).Point) = 1 := addOrderOf_zero
    exact absurd (order.symm.trans one) (by decide)
  | some x y h =>
    have opposite := congrArg (fun Q => (pair Q).2) (add_eq_zero_iff_eq_neg.mp twice)
    simp only [pair_neg] at opposite
    have double : 2 * y = 0 := by
      rw [two_mul]
      exact add_eq_zero_iff_eq_neg.mpr opposite
    have zero : y = 0 := (mul_eq_zero.mp double).resolve_left two
    have equation := equation_iff.mp h.1
    apply noCube x
    rw [zero, zero_pow two_ne_zero] at equation
    exact eq_neg_of_add_eq_zero_left equation.symm

end ShortWeierstrass
