import KPlugin.P256.Curve

/-!
# The group of P-256

A chain of doublings and additions shows that the order annihilates the generator, and
the residue of `x ^ p - x` modulo the cubic has an inverse, so the cubic has no root. Every
point is then a multiple of the generator.
-/

namespace KPlugin.P256
open WeierstrassCurve.Affine ShortWeierstrass JacobianMultiples CubicRoots PrimeCurve

/-! ## The generator -/

theorem curve_short : Short curve := ⟨rfl, rfl, rfl⟩

theorem generator_chain :
    (multiple curve.a₄ ((generatorX : Fp), (generatorY : Fp)) (lowerBits (order - 1))
      (.ofAffine (generatorX, generatorY))).At (generatorX, -generatorY) := by
  unfold Triple.At
  decide +kernel

theorem order_nsmul_generator : order • generator = 0 :=
  nsmul_eq_zero_of_chain curve_short ((nonsingular_iff_onCurve _ _).mpr generator_onCurve) (by decide)
    generator_chain

/-! ## The cubic -/

/-- The inverse of `x ^ p - x` modulo the cubic. -/
def inverseResidue : Residue Fp where
  c₀ := (76626890310466861426869089647039036757962535851890885406097439786770458211455 : ℕ)
  c₁ := (74462945259064871768191128030512052509059297803194871526163573358218695456204 : ℕ)
  c₂ := (34768139465301476436978405170953382516735956999154666452188405812258086013549 : ℕ)

theorem no_root (x : Fp) : x ^ 3 + coefficientA * x + coefficientB ≠ 0 := by
  have number : appendBits (lowerBits fieldModulus) 1 = fieldModulus := appendBits_lowerBits (by decide)
  have unit : inverseResidue.mul (coefficientA : Fp) coefficientB
      ((Residue.x.power (coefficientA : Fp) coefficientB (lowerBits fieldModulus)).sub .x) = ⟨1, 0, 0⟩ := by
    decide +kernel
  exact CubicRoots.no_root number unit x

/-! ## The points -/

theorem curve_generated : Generated order generator where
  short := curve_short
  odd := by decide +kernel
  no_root := no_root
  finite := Point.some_ne_zero _
  annihilated := order_nsmul_generator
  few := by decide +kernel

/-- Points have multiples by residues. -/
noncomputable instance : Module (ZMod order) Point := AddCommGroup.zmodModule curve_generated.nsmul_eq_zero

end KPlugin.P256
