import KPlugin.Bls12.Field
import KPlugin.Curve.Term
import KPlugin.Lib.ShortWeierstrass

/-!
# What the hooks call of blst

blst is outside the repository. Its functions are fields of a structure, and
what the hooks rely on is stated about them: each operation on points computes
in the group of the curve `y² = x³ + b`, the affine pair `(0, 0)` being
infinity. Which point of the group a projective `Point` denotes is blst's own
business and stays a parameter.
-/

namespace KPlugin.Bls12
open Radix ShortWeierstrass

/-- `BLS_MODULUS`, the order of the groups. -/
def blsModulus : ℕ := 52435875175126190479447740508185965837690552500527637822603658699938581184513

/-- The functions `blst_p1_*`, or `blst_p2_*`. -/
structure CurveOps (K : Type) where
  Point : Type
  fromAffine : K × K → Point
  affineIsInf : K × K → Bool
  isInf : Point → Bool
  toAffine : Point → K × K
  addOrDouble : Point → Point → Point
  /-- The scalar is little-endian and used up to a number of bits. -/
  mult : Point → Bytes → ℕ → Point
  /-- The points and as many scalars, each of a number of bits. -/
  multPippenger : List (K × K) → List Bytes → ℕ → Point
  onCurve : Point → Bool
  inG : Point → Bool

/-- The functions on field elements and scalars, and the two curves. -/
structure Blst where
  fpFromLendian : Bytes → Fp
  lendianFromFp : Fp → Bytes
  /-- The stored scalar is the array `b` of 32 bytes. -/
  scalarFromLeBytes : Bytes → Bytes
  p1 : CurveOps Fp
  p2 : CurveOps Fp2

/-- The multiple of a point by the low bits of a scalar. -/
def lowMultiple {G : Type*} [AddCommGroup G] (scalar : Bytes) (nbits : ℕ) (P : G) : G := (value scalar % 2 ^ nbits) • P

/-- The operations compute in the group of `y² = x³ + b`; `r` is the order of the
subgroup. -/
structure CurveOps.Implements {K : Type} [Field K] [DecidableEq K] (ops : CurveOps K) (b : K) (r : ℕ)
    (denotes : ops.Point → (curve b).Point → Prop) : Prop where
  fromAffine : ∀ P, denotes (ops.fromAffine (pair P)) P
  fromAffine_off : ∀ c, ¬ OnCurve b c → ops.isInf (ops.fromAffine c) = false ∧ ops.onCurve (ops.fromAffine c) = false
  affineIsInf : ∀ c, ops.affineIsInf c = true ↔ c = (0, 0)
  isInf : ∀ p P, denotes p P → (ops.isInf p = true ↔ P = 0)
  toAffine : ∀ p P, denotes p P → P ≠ 0 → ops.toAffine p = pair P
  addOrDouble : ∀ p q P Q, denotes p P → denotes q Q → denotes (ops.addOrDouble p q) (P + Q)
  mult : ∀ p P scalar nbits, denotes p P → denotes (ops.mult p scalar nbits) (lowMultiple scalar nbits P)
  multPippenger : ∀ (terms : List ((curve b).Point × Bytes)) (nbits : ℕ), (∀ t ∈ terms, t.1 ≠ 0) →
    denotes (ops.multPippenger (terms.map fun t => pair t.1) (terms.map Prod.snd) nbits)
      (terms.map fun t => lowMultiple t.2 nbits t.1).sum
  onCurve : ∀ p P, denotes p P → ops.onCurve p = true
  inG : ∀ p P, denotes p P → (ops.inG p = true ↔ r • P = 0)

/-- Field elements and little-endian strings of 48 bytes are inverse below the modulus. -/
structure Blst.FpCodec (blst : Blst) : Prop where
  fpFromLendian : ∀ le : Bytes, le.length = 48 → value le < blsFieldModulus →
    blst.fpFromLendian le = (value le : Fp)
  lendianFromFp : ∀ a : Fp, blst.lendianFromFp a = digits 8 48 a.val

/-- A scalar is stored as its residue modulo the order of the groups. -/
def Blst.ScalarCodec (blst : Blst) : Prop :=
  ∀ le : Bytes, value (blst.scalarFromLeBytes le) = value le % blsModulus

/-- `b` of the first curve. -/
def b1 : Fp := 4

/-- `b` of the twist. -/
def b2 : Fp2 := ⟨4, 4⟩

theorem b1_ne_zero : b1 ≠ 0 := by
  have four := natCast_ne_zero (p := blsFieldModulus) (n := 4) (by decide) (by decide +kernel)
  exact_mod_cast four

theorem b2_ne_zero : b2 ≠ 0 := by
  intro zero
  exact b1_ne_zero (congrArg QuadraticAlgebra.re zero)

theorem six_ne_zero_fp : (6 : Fp) ≠ 0 := by
  have six := natCast_ne_zero (p := blsFieldModulus) (n := 6) (by decide) (by decide +kernel)
  exact_mod_cast six

theorem six_ne_zero_fp2 : (6 : Fp2) ≠ 0 := by
  intro zero
  exact six_ne_zero_fp (congrArg QuadraticAlgebra.re zero)

end KPlugin.Bls12
