import KPlugin.Lib.Pratt
import KPlugin.Lib.PrimeCurve

/-!
# The curve P-256 and textbook ECDSA

The curve `y² = x³ + a x + b` over the field of `fieldModulus` elements, with
`a = -3`, its generator of prime order, and what it means that a signature verifies:
the numbers are in range, and the point computed from them is finite and has the
abscissa `r` modulo the order.
-/

namespace KPlugin.P256
open Pratt PrimeCurve WeierstrassCurve.Affine

/-! ## The field and the order -/

def fieldModulus : ℕ := 115792089210356248762697446949407573530086143415290314195533631308867097853951

/-- The order of the generator. -/
def order : ℕ := 115792089210356248762697446949407573529996955224135760342422259061068512044369

/-- Primes below the field modulus, each proved from those before it. -/
def fieldCertificates : List Certificate :=
  [⟨3, 2, [(2, 1)]⟩, ⟨5, 2, [(2, 2)]⟩, ⟨7, 3, [(2, 1), (3, 1)]⟩, ⟨11, 2, [(2, 1), (5, 1)]⟩,
    ⟨13, 2, [(2, 2), (3, 1)]⟩, ⟨17, 3, [(2, 4)]⟩, ⟨23, 5, [(2, 1), (11, 1)]⟩,
    ⟨43, 3, [(2, 1), (3, 1), (7, 1)]⟩, ⟨53, 2, [(2, 2), (13, 1)]⟩, ⟨107, 2, [(2, 1), (53, 1)]⟩,
    ⟨157, 5, [(2, 2), (3, 1), (13, 1)]⟩, ⟨173, 2, [(2, 2), (43, 1)]⟩, ⟨181, 2, [(2, 2), (3, 2), (5, 1)]⟩,
    ⟨197, 2, [(2, 2), (7, 2)]⟩, ⟨241, 7, [(2, 4), (3, 1), (5, 1)]⟩, ⟨257, 3, [(2, 8)]⟩,
    ⟨313, 10, [(2, 3), (3, 1), (13, 1)]⟩, ⟨641, 3, [(2, 7), (5, 1)]⟩,
    ⟨661, 2, [(2, 2), (3, 1), (5, 1), (11, 1)]⟩, ⟨727, 5, [(2, 1), (3, 1), (11, 2)]⟩,
    ⟨757, 2, [(2, 2), (3, 3), (7, 1)]⟩, ⟨919, 7, [(2, 1), (3, 3), (17, 1)]⟩,
    ⟨1087, 3, [(2, 1), (3, 1), (181, 1)]⟩, ⟨1531, 2, [(2, 1), (3, 2), (5, 1), (17, 1)]⟩,
    ⟨2411, 6, [(2, 1), (5, 1), (241, 1)]⟩, ⟨3677, 2, [(2, 2), (919, 1)]⟩,
    ⟨3769, 7, [(2, 3), (3, 1), (157, 1)]⟩, ⟨4349, 2, [(2, 2), (1087, 1)]⟩,
    ⟨17449, 14, [(2, 3), (3, 1), (727, 1)]⟩, ⟨18169, 11, [(2, 3), (3, 1), (757, 1)]⟩, ⟨65537, 3, [(2, 16)]⟩,
    ⟨78283, 3, [(2, 1), (3, 2), (4349, 1)]⟩, ⟨490463, 14, [(2, 1), (7, 1), (53, 1), (661, 1)]⟩,
    ⟨704251, 2, [(2, 1), (3, 2), (5, 3), (313, 1)]⟩, ⟨6700417, 5, [(2, 7), (3, 1), (17449, 1)]⟩,
    ⟨204061199, 11, [(2, 1), (11, 1), (23, 1), (107, 1), (3769, 1)]⟩,
    ⟨34282281433, 17, [(2, 3), (3, 1), (7, 1), (204061199, 1)]⟩,
    ⟨66417393611, 6, [(2, 1), (5, 1), (53, 1), (173, 1), (197, 1), (3677, 1)]⟩,
    ⟨11290956913871, 13, [(2, 1), (5, 1), (17, 1), (66417393611, 1)]⟩,
    ⟨46076956964474543, 5, [(2, 1), (23, 1), (18169, 1), (78283, 1), (704251, 1)]⟩,
    ⟨774023187263532362759620327192479577272145303, 3, [(2, 1), (3, 2), (2411, 1), (34282281433, 1),
      (11290956913871, 1), (46076956964474543, 1)]⟩,
    ⟨835945042244614951780389953367877943453916927241, 11, [(2, 3), (3, 3), (5, 1),
      (774023187263532362759620327192479577272145303, 1)]⟩,
    ⟨115792089210356248762697446949407573530086143415290314195533631308867097853951, 6, [(2, 1), (3, 1), (5, 2),
      (17, 1), (257, 1), (641, 1), (1531, 1), (65537, 1), (490463, 1), (6700417, 1),
      (835945042244614951780389953367877943453916927241, 1)]⟩]

/-- Primes below the order. -/
def orderCertificates : List Certificate :=
  [⟨3, 2, [(2, 1)]⟩, ⟨5, 2, [(2, 2)]⟩, ⟨7, 3, [(2, 1), (3, 1)]⟩, ⟨11, 2, [(2, 1), (5, 1)]⟩,
    ⟨13, 2, [(2, 2), (3, 1)]⟩, ⟨17, 3, [(2, 4)]⟩, ⟨19, 2, [(2, 1), (3, 2)]⟩, ⟨29, 2, [(2, 2), (7, 1)]⟩,
    ⟨31, 3, [(2, 1), (3, 1), (5, 1)]⟩, ⟨37, 2, [(2, 2), (3, 2)]⟩, ⟨41, 6, [(2, 3), (5, 1)]⟩,
    ⟨43, 3, [(2, 1), (3, 1), (7, 1)]⟩, ⟨71, 7, [(2, 1), (5, 1), (7, 1)]⟩, ⟨97, 5, [(2, 5), (3, 1)]⟩,
    ⟨127, 3, [(2, 1), (3, 2), (7, 1)]⟩, ⟨131, 2, [(2, 1), (5, 1), (13, 1)]⟩,
    ⟨151, 6, [(2, 1), (3, 1), (5, 2)]⟩, ⟨229, 6, [(2, 2), (3, 1), (19, 1)]⟩, ⟨263, 5, [(2, 1), (131, 1)]⟩,
    ⟨311, 17, [(2, 1), (5, 1), (31, 1)]⟩, ⟨337, 10, [(2, 4), (3, 1), (7, 1)]⟩,
    ⟨373, 2, [(2, 2), (3, 1), (31, 1)]⟩, ⟨727, 5, [(2, 1), (3, 1), (11, 2)]⟩,
    ⟨1201, 11, [(2, 4), (3, 1), (5, 2)]⟩, ⟨1297, 10, [(2, 4), (3, 4)]⟩, ⟨1511, 11, [(2, 1), (5, 1), (151, 1)]⟩,
    ⟨3023, 5, [(2, 1), (1511, 1)]⟩, ⟨3407, 5, [(2, 1), (13, 1), (131, 1)]⟩,
    ⟨9547, 2, [(2, 1), (3, 1), (37, 1), (43, 1)]⟩, ⟨16879, 3, [(2, 1), (3, 1), (29, 1), (97, 1)]⟩,
    ⟨17449, 14, [(2, 3), (3, 1), (727, 1)]⟩, ⟨38189, 2, [(2, 2), (9547, 1)]⟩,
    ⟨104471, 11, [(2, 1), (5, 1), (31, 1), (337, 1)]⟩, ⟨126241, 7, [(2, 5), (3, 1), (5, 1), (263, 1)]⟩,
    ⟨155317, 5, [(2, 2), (3, 1), (7, 1), (43, 2)]⟩, ⟨3969899, 2, [(2, 1), (19, 1), (104471, 1)]⟩,
    ⟨9350987, 2, [(2, 1), (17, 1), (229, 1), (1201, 1)]⟩, ⟨187019741, 2, [(2, 2), (5, 1), (9350987, 1)]⟩,
    ⟨191039911, 3, [(2, 1), (3, 1), (5, 1), (41, 1), (155317, 1)]⟩,
    ⟨311245691, 2, [(2, 1), (5, 1), (7, 1), (17, 1), (29, 2), (311, 1)]⟩,
    ⟨622491383, 5, [(2, 1), (311245691, 1)]⟩, ⟨1002328039319, 19, [(2, 1), (126241, 1), (3969899, 1)]⟩,
    ⟨208150935158385979, 2, [(2, 1), (3, 1), (11, 1), (43, 1), (127, 1), (3023, 1), (191039911, 1)]⟩,
    ⟨2624747550333869278416773953, 7, [(2, 6), (3, 2), (1297, 1), (16879, 1), (208150935158385979, 1)]⟩,
    ⟨115792089210356248762697446949407573529996955224135760342422259061068512044369, 7, [(2, 4), (3, 1), (71, 1),
      (131, 1), (373, 1), (3407, 1), (17449, 1), (38189, 1), (187019741, 1), (622491383, 1), (1002328039319, 1),
      (2624747550333869278416773953, 1)]⟩]

theorem fieldModulus_prime : fieldModulus.Prime := by
  have checked : checkChain [2] fieldCertificates = true := by decide +kernel
  have certified : ∃ c ∈ fieldCertificates, c.p = fieldModulus := by decide +kernel
  exact prime_of_certified checked certified

theorem order_prime : order.Prime := by
  have checked : checkChain [2] orderCertificates = true := by decide +kernel
  have certified : ∃ c ∈ orderCertificates, c.p = order := by decide +kernel
  exact prime_of_certified checked certified

instance : Fact fieldModulus.Prime := ⟨fieldModulus_prime⟩

instance : Fact order.Prime := ⟨order_prime⟩

abbrev Fp := ZMod fieldModulus

/-! ## The curve -/

/-- The coefficient of `x`. -/
def coefficientA : ℤ := -3

/-- The constant of the equation. -/
def coefficientB : ℕ := 41058363725152142129326129780047268409114441015993725554835256314039467401291

/-- `y² = x³ + a x + b`. -/
def curve : WeierstrassCurve.Affine Fp where
  a₁ := 0
  a₂ := 0
  a₃ := 0
  a₄ := coefficientA
  a₆ := coefficientB

abbrev Point := curve.Point

/-- The pair solves the equation. -/
def OnCurve (x y : Fp) : Prop := y ^ 2 = x ^ 3 + coefficientA * x + coefficientB

theorem equation_iff_onCurve (x y : Fp) : curve.Equation x y ↔ OnCurve x y := by
  rw [equation_iff]
  simp only [curve, OnCurve, zero_mul, add_zero]

theorem discriminant_ne_zero : WeierstrassCurve.Δ curve ≠ 0 := by decide +kernel

/-- No point is singular. -/
theorem nonsingular_iff_onCurve (x y : Fp) : curve.Nonsingular x y ↔ OnCurve x y := by
  rw [← equation_iff_nonsingular_of_Δ_ne_zero discriminant_ne_zero, equation_iff_onCurve]

def generatorX : ℕ := 48439561293906451759052585252797914202762949526041747995844080717082404635286

def generatorY : ℕ := 36134250956749795798585127919587881956611106672985015071877198253568414405109

theorem generator_onCurve : OnCurve generatorX generatorY := by
  unfold OnCurve
  decide +kernel

def generator : Point := .some _ _ ((nonsingular_iff_onCurve _ _).mpr generator_onCurve)

/-! ## Signatures -/

/-- The point a verifier computes: `(h / s) G + (r / s) Q`. -/
def verifierPoint (Q : Point) (h r s : ℕ) : Point :=
  ((h : ZMod order) / s).val • generator + ((r : ZMod order) / s).val • Q

/-- Textbook ECDSA: the signature `(r, s)` of the hash `h` verifies under the key `Q`. -/
structure Verifies (Q : Point) (h r s : ℕ) : Prop where
  r_range : 0 < r ∧ r < order
  s_range : 0 < s ∧ s < order
  abscissa : ∃ c, coordinates (verifierPoint Q h r s) = some c ∧ c.1.val ≡ r [MOD order]

end KPlugin.P256
