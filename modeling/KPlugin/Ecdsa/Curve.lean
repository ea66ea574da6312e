import KPlugin.Lib.Pratt
import KPlugin.Lib.PrimeCurve

/-!
# The curve secp256k1

The curve `y² = x³ + 7` over the field of `fieldModulus` elements, and its generator of
prime order, of which every point is a multiple.
-/

namespace KPlugin.Ecdsa
open Pratt WeierstrassCurve.Affine ShortWeierstrass JacobianMultiples CubicRoots PrimeCurve

/-! ## The field and the order -/

def fieldModulus : ℕ := 115792089237316195423570985008687907853269984665640564039457584007908834671663

/-- The order of the generator. -/
def order : ℕ := 115792089237316195423570985008687907852837564279074904382605163141518161494337

/-- Primes below the field modulus, each proved from those before it. -/
def fieldCertificates : List Certificate :=
  [⟨3, 2, [(2, 1)]⟩, ⟨5, 2, [(2, 2)]⟩, ⟨7, 3, [(2, 1), (3, 1)]⟩, ⟨11, 2, [(2, 1), (5, 1)]⟩,
    ⟨13, 2, [(2, 2), (3, 1)]⟩, ⟨17, 3, [(2, 4)]⟩, ⟨19, 2, [(2, 1), (3, 2)]⟩, ⟨29, 2, [(2, 2), (7, 1)]⟩,
    ⟨31, 3, [(2, 1), (3, 1), (5, 1)]⟩, ⟨41, 6, [(2, 3), (5, 1)]⟩, ⟨53, 2, [(2, 2), (13, 1)]⟩,
    ⟨67, 2, [(2, 1), (3, 1), (11, 1)]⟩, ⟨83, 2, [(2, 1), (41, 1)]⟩, ⟨97, 5, [(2, 5), (3, 1)]⟩,
    ⟨101, 2, [(2, 2), (5, 2)]⟩, ⟨103, 5, [(2, 1), (3, 1), (17, 1)]⟩, ⟨131, 2, [(2, 1), (5, 1), (13, 1)]⟩,
    ⟨239, 7, [(2, 1), (7, 1), (17, 1)]⟩, ⟨271, 6, [(2, 1), (3, 3), (5, 1)]⟩, ⟨419, 2, [(2, 1), (11, 1), (19, 1)]⟩,
    ⟨443, 2, [(2, 1), (13, 1), (17, 1)]⟩, ⟨887, 5, [(2, 1), (443, 1)]⟩, ⟨971, 6, [(2, 1), (5, 1), (97, 1)]⟩,
    ⟨1373, 2, [(2, 2), (7, 3)]⟩, ⟨1627, 3, [(2, 1), (3, 1), (271, 1)]⟩, ⟨2621, 2, [(2, 2), (5, 1), (131, 1)]⟩,
    ⟨2657, 3, [(2, 5), (83, 1)]⟩, ⟨4423, 3, [(2, 1), (3, 1), (11, 1), (67, 1)]⟩,
    ⟨5323, 5, [(2, 1), (3, 1), (887, 1)]⟩, ⟨7723, 3, [(2, 1), (3, 3), (11, 1), (13, 1)]⟩,
    ⟨13441, 11, [(2, 7), (3, 1), (5, 1), (7, 1)]⟩, ⟨20113, 10, [(2, 4), (3, 1), (419, 1)]⟩,
    ⟨24809, 6, [(2, 3), (7, 1), (443, 1)]⟩, ⟨41201, 3, [(2, 4), (5, 2), (103, 1)]⟩,
    ⟨96557, 2, [(2, 2), (101, 1), (239, 1)]⟩, ⟨1206781, 10, [(2, 2), (3, 1), (5, 1), (20113, 1)]⟩,
    ⟨7240687, 3, [(2, 1), (3, 1), (1206781, 1)]⟩, ⟨13331831, 13, [(2, 1), (5, 1), (971, 1), (1373, 1)]⟩,
    ⟨107590001, 3, [(2, 4), (5, 4), (7, 1), (29, 1), (53, 1)]⟩,
    ⟨173378833005251801, 6, [(2, 3), (5, 2), (2621, 1), (24809, 1), (13331831, 1)]⟩,
    ⟨22149492674086928081353, 5, [(2, 3), (3, 1), (5323, 1), (173378833005251801, 1)]⟩,
    ⟨132896956044521568488119, 6, [(2, 1), (3, 1), (22149492674086928081353, 1)]⟩,
    ⟨255515944373312847190720520512484175977, 3, [(2, 3), (7, 2), (11, 1), (1627, 1), (2657, 1), (4423, 1), (41201,
      1), (96557, 1), (7240687, 1), (107590001, 1)]⟩,
    ⟨205115282021455665897114700593932402728804164701536103180137503955397371, 10, [(2, 1), (3, 1), (5, 1), (29, 2),
      (31, 1), (7723, 1), (132896956044521568488119, 1), (255515944373312847190720520512484175977, 1)]⟩,
    ⟨115792089237316195423570985008687907853269984665640564039457584007908834671663, 3, [(2, 1), (3, 1), (7, 1),
      (13441, 1), (205115282021455665897114700593932402728804164701536103180137503955397371, 1)]⟩]

/-- Primes below the order. -/
def orderCertificates : List Certificate :=
  [⟨3, 2, [(2, 1)]⟩, ⟨5, 2, [(2, 2)]⟩, ⟨7, 3, [(2, 1), (3, 1)]⟩, ⟨11, 2, [(2, 1), (5, 1)]⟩,
    ⟨13, 2, [(2, 2), (3, 1)]⟩, ⟨17, 3, [(2, 4)]⟩, ⟨19, 2, [(2, 1), (3, 2)]⟩, ⟨23, 5, [(2, 1), (11, 1)]⟩,
    ⟨29, 2, [(2, 2), (7, 1)]⟩, ⟨37, 2, [(2, 2), (3, 2)]⟩, ⟨41, 6, [(2, 3), (5, 1)]⟩, ⟨59, 2, [(2, 1), (29, 1)]⟩,
    ⟨67, 2, [(2, 1), (3, 1), (11, 1)]⟩, ⟨73, 5, [(2, 3), (3, 2)]⟩, ⟨97, 5, [(2, 5), (3, 1)]⟩,
    ⟨109, 6, [(2, 2), (3, 3)]⟩, ⟨113, 3, [(2, 4), (7, 1)]⟩, ⟨149, 2, [(2, 2), (37, 1)]⟩,
    ⟨199, 3, [(2, 1), (3, 2), (11, 1)]⟩, ⟨293, 2, [(2, 2), (73, 1)]⟩, ⟨461, 2, [(2, 2), (5, 1), (23, 1)]⟩,
    ⟨631, 3, [(2, 1), (3, 2), (5, 1), (7, 1)]⟩, ⟨797, 2, [(2, 2), (199, 1)]⟩, ⟨1409, 3, [(2, 7), (11, 1)]⟩,
    ⟨1871, 14, [(2, 1), (5, 1), (11, 1), (17, 1)]⟩, ⟨2011, 3, [(2, 1), (3, 1), (5, 1), (67, 1)]⟩,
    ⟨2731, 3, [(2, 1), (3, 1), (5, 1), (7, 1), (13, 1)]⟩, ⟨2861, 2, [(2, 2), (5, 1), (11, 1), (13, 1)]⟩,
    ⟨4051, 10, [(2, 1), (3, 4), (5, 2)]⟩, ⟨9349, 2, [(2, 2), (3, 1), (19, 1), (41, 1)]⟩,
    ⟨16699, 3, [(2, 1), (3, 1), (11, 2), (23, 1)]⟩, ⟨28181, 2, [(2, 2), (5, 1), (1409, 1)]⟩,
    ⟨85831, 3, [(2, 1), (3, 1), (5, 1), (2861, 1)]⟩, ⟨120233, 3, [(2, 3), (7, 1), (19, 1), (113, 1)]⟩,
    ⟨305873, 3, [(2, 4), (7, 1), (2731, 1)]⟩, ⟨1627771, 3, [(2, 1), (3, 1), (5, 1), (29, 1), (1871, 1)]⟩,
    ⟨4681609, 23, [(2, 3), (3, 1), (97, 1), (2011, 1)]⟩, ⟨44706919, 6, [(2, 1), (3, 1), (797, 1), (9349, 1)]⟩,
    ⟨545358713, 5, [(2, 3), (41, 1), (59, 1), (28181, 1)]⟩,
    ⟨297159362677, 2, [(2, 2), (3, 2), (11, 1), (461, 1), (1627771, 1)]⟩,
    ⟨107361793816595537, 3, [(2, 4), (16699, 1), (85831, 1), (4681609, 1)]⟩,
    ⟨174723607534414371449, 3, [(2, 3), (17, 1), (59, 1), (4051, 1), (120233, 1), (44706919, 1)]⟩,
    ⟨29047611873442575647497758179, 2, [(2, 1), (293, 1), (305873, 1), (545358713, 1), (297159362677, 1)]⟩,
    ⟨341948486974166000522343609283189, 2, [(2, 2), (3, 3), (109, 1), (29047611873442575647497758179, 1)]⟩,
    ⟨115792089237316195423570985008687907852837564279074904382605163141518161494337, 7, [(2, 6), (3, 1), (149, 1),
      (631, 1), (107361793816595537, 1), (174723607534414371449, 1), (341948486974166000522343609283189, 1)]⟩]

theorem fieldModulus_prime : fieldModulus.Prime := by
  have checked : checkChain [2] fieldCertificates = true := by decide +kernel
  have certified : ∃ c ∈ fieldCertificates, c.p = fieldModulus := by decide +kernel
  exact prime_of_certified checked certified

theorem order_prime : order.Prime := by
  have checked : checkChain [2] orderCertificates = true := by decide +kernel
  have certified : ∃ c ∈ orderCertificates, c.p = order := by decide +kernel
  exact prime_of_certified checked certified

instance : Fact fieldModulus.Prime := ⟨fieldModulus_prime⟩

instance : Fact order.Prime := ⟨order_prime⟩

abbrev Fp := ZMod fieldModulus

/-! ## The curve -/

/-- `y² = x³ + 7`. -/
def secp256k1 : WeierstrassCurve.Affine Fp where
  a₁ := 0
  a₂ := 0
  a₃ := 0
  a₄ := 0
  a₆ := (7 : ℕ)

abbrev Point := secp256k1.Point

theorem secp256k1_short : Short secp256k1 := ⟨rfl, rfl, rfl⟩

theorem discriminant_ne_zero : WeierstrassCurve.Δ secp256k1 ≠ 0 := by decide +kernel

/-- No point is singular. -/
theorem nonsingular_iff (x y : Fp) : secp256k1.Nonsingular x y ↔ y ^ 2 = x ^ 3 + (7 : ℕ) := by
  rw [← equation_iff_nonsingular_of_Δ_ne_zero discriminant_ne_zero, WeierstrassCurve.Affine.equation_iff]
  simp only [secp256k1, zero_mul, add_zero]

def generatorX : ℕ := 55066263022277343669578718895168534326250603453777594175500187360389116729240

def generatorY : ℕ := 32670510020758816978083085130507043184471273380659243275938904335757337482424

theorem generator_nonsingular : secp256k1.Nonsingular generatorX generatorY := by
  rw [nonsingular_iff]
  decide +kernel

def generator : Point := .some _ _ generator_nonsingular

/-! ## The points -/

theorem generator_chain :
    (multiple secp256k1.a₄ ((generatorX : Fp), (generatorY : Fp)) (lowerBits (order - 1))
      (.ofAffine (generatorX, generatorY))).At (generatorX, -generatorY) := by
  unfold Triple.At
  decide +kernel

theorem order_nsmul_generator : order • generator = 0 :=
  nsmul_eq_zero_of_chain secp256k1_short generator_nonsingular (by decide) generator_chain

/-- The inverse of `x ^ p - x` modulo the cubic. -/
def inverseResidue : Residue Fp where
  c₀ := 0
  c₁ := 0
  c₂ := (46758632835564736012269203954919337884311706168562511263687580192619680188360 : ℕ)

theorem no_root (x : Fp) : x ^ 3 + secp256k1.a₄ * x + secp256k1.a₆ ≠ 0 := by
  have number : appendBits (lowerBits fieldModulus) 1 = fieldModulus := appendBits_lowerBits (by decide)
  have unit : inverseResidue.mul secp256k1.a₄ secp256k1.a₆
      ((Residue.x.power secp256k1.a₄ secp256k1.a₆ (lowerBits fieldModulus)).sub .x) = ⟨1, 0, 0⟩ := by decide +kernel
  exact CubicRoots.no_root number unit x

theorem secp256k1_generated : Generated order generator where
  short := secp256k1_short
  odd := by decide +kernel
  no_root := no_root
  finite := Point.some_ne_zero _
  annihilated := order_nsmul_generator
  few := by decide +kernel

/-- Points have multiples by residues. -/
noncomputable instance : Module (ZMod order) Point := AddCommGroup.zmodModule secp256k1_generated.nsmul_eq_zero

end KPlugin.Ecdsa
