import Mathlib.Algebra.QuadraticAlgebra.Basic
import Mathlib.NumberTheory.LegendreSymbol.Basic
import KPlugin.Lib.Pratt

/-!
# The fields of BLS12-381

The base field has `BLS12_FIELD_MODULUS` elements, a prime by the chain of
certificates below; its square is the field with `i² = -1`, since the modulus is
3 modulo 4.
-/

namespace KPlugin.Bls12
open Pratt

/-- `BLS12_FIELD_MODULUS`. -/
def blsFieldModulus : ℕ :=
  4002409555221667393417789825735904156556882819939007885332058136124031650490837864442687629129015664037894272559787

/-- Primes below the field modulus, each proved from those before it. -/
def blsCertificates : List Certificate :=
  [⟨3, 2, [(2, 1)]⟩, ⟨5, 2, [(2, 2)]⟩, ⟨7, 3, [(2, 1), (3, 1)]⟩, ⟨11, 2, [(2, 1), (5, 1)]⟩,
    ⟨13, 2, [(2, 2), (3, 1)]⟩, ⟨17, 3, [(2, 4)]⟩, ⟨19, 2, [(2, 1), (3, 2)]⟩, ⟨23, 5, [(2, 1), (11, 1)]⟩,
    ⟨29, 2, [(2, 2), (7, 1)]⟩, ⟨31, 3, [(2, 1), (3, 1), (5, 1)]⟩, ⟨41, 6, [(2, 3), (5, 1)]⟩,
    ⟨43, 3, [(2, 1), (3, 1), (7, 1)]⟩, ⟨47, 5, [(2, 1), (23, 1)]⟩, ⟨53, 2, [(2, 2), (13, 1)]⟩,
    ⟨67, 2, [(2, 1), (3, 1), (11, 1)]⟩, ⟨89, 3, [(2, 3), (11, 1)]⟩, ⟨97, 5, [(2, 5), (3, 1)]⟩,
    ⟨113, 3, [(2, 4), (7, 1)]⟩, ⟨137, 3, [(2, 3), (17, 1)]⟩, ⟨151, 6, [(2, 1), (3, 1), (5, 2)]⟩,
    ⟨181, 2, [(2, 2), (3, 2), (5, 1)]⟩, ⟨191, 19, [(2, 1), (5, 1), (19, 1)]⟩, ⟨233, 3, [(2, 3), (29, 1)]⟩,
    ⟨281, 3, [(2, 3), (5, 1), (7, 1)]⟩, ⟨409, 21, [(2, 3), (3, 1), (17, 1)]⟩, ⟨449, 3, [(2, 6), (7, 1)]⟩,
    ⟨467, 2, [(2, 1), (233, 1)]⟩, ⟨941, 2, [(2, 2), (5, 1), (47, 1)]⟩,
    ⟨947, 2, [(2, 1), (11, 1), (43, 1)]⟩, ⟨1087, 3, [(2, 1), (3, 1), (181, 1)]⟩,
    ⟨1151, 17, [(2, 1), (5, 2), (23, 1)]⟩, ⟨1327, 3, [(2, 1), (3, 1), (13, 1), (17, 1)]⟩,
    ⟨1453, 2, [(2, 2), (3, 1), (11, 2)]⟩, ⟨2741, 2, [(2, 2), (5, 1), (137, 1)]⟩,
    ⟨3373, 5, [(2, 2), (3, 1), (281, 1)]⟩, ⟨4349, 2, [(2, 2), (1087, 1)]⟩, ⟨7577, 3, [(2, 3), (947, 1)]⟩,
    ⟨8101, 6, [(2, 2), (3, 4), (5, 2)]⟩, ⟨10177, 7, [(2, 6), (3, 1), (53, 1)]⟩,
    ⟨16447, 3, [(2, 1), (3, 1), (2741, 1)]⟩, ⟨43591, 11, [(2, 1), (3, 1), (5, 1), (1453, 1)]⟩,
    ⟨47737, 5, [(2, 3), (3, 3), (13, 1), (17, 1)]⟩, ⟨421987, 2, [(2, 1), (3, 1), (53, 1), (1327, 1)]⟩,
    ⟨582767, 5, [(2, 1), (67, 1), (4349, 1)]⟩, ⟨609743, 5, [(2, 1), (7, 1), (97, 1), (449, 1)]⟩,
    ⟨755057, 3, [(2, 4), (41, 1), (1151, 1)]⟩, ⟨859267, 2, [(2, 1), (3, 2), (47737, 1)]⟩,
    ⟨1686913, 10, [(2, 7), (3, 1), (23, 1), (191, 1)]⟩,
    ⟨51376543, 3, [(2, 1), (3, 1), (7, 1), (151, 1), (8101, 1)]⟩,
    ⟨52437899, 2, [(2, 1), (43, 1), (609743, 1)]⟩, ⟨475709467, 2, [(2, 1), (3, 1), (47, 1), (1686913, 1)]⟩,
    ⟨927093389, 3, [(2, 2), (13, 1), (409, 1), (43591, 1)]⟩,
    ⟨13090036741, 10, [(2, 2), (3, 1), (5, 1), (11, 1), (47, 1), (421987, 1)]⟩,
    ⟨43670061551, 7, [(2, 1), (5, 2), (17, 1), (51376543, 1)]⟩,
    ⟨9272813673901, 2, [(2, 2), (3, 1), (5, 2), (7, 1), (7577, 1), (582767, 1)]⟩,
    ⟨64881703735777, 5, [(2, 5), (3, 7), (927093389, 1)]⟩,
    ⟨1928745244171409, 3, [(2, 4), (13, 1), (9272813673901, 1)]⟩,
    ⟨7259797099061183477, 2, [(2, 2), (941, 1), (1928745244171409, 1)]⟩,
    ⟨2584487767265781317813, 2, [(2, 2), (89, 1), (7259797099061183477, 1)]⟩,
    ⟨3819663927398918131021, 6, [(2, 2), (3, 2), (5, 1), (19, 1), (113, 1), (755057, 1), (13090036741, 1)]⟩,
    ⟨92691255082156974996979, 3, [(2, 1), (3, 1), (31, 1), (467, 1), (16447, 1), (64881703735777, 1)]⟩,
    ⟨1125266252156850182658904441386709967, 5, [(2, 1), (3373, 1), (43670061551, 1), (3819663927398918131021, 1)]⟩,
    ⟨15778400344354997994418419698270088123916926905054652752758194827714659, 2, [(2, 1), (3, 1), (53, 1), (475709467, 1), (92691255082156974996979, 1), (1125266252156850182658904441386709967, 1)]⟩,
    ⟨4002409555221667393417789825735904156556882819939007885332058136124031650490837864442687629129015664037894272559787, 2, [(2, 1), (3, 2), (11, 1), (23, 1), (47, 1), (10177, 1), (859267, 1), (52437899, 1), (2584487767265781317813, 1), (15778400344354997994418419698270088123916926905054652752758194827714659, 1)]⟩]

theorem blsFieldModulus_prime : blsFieldModulus.Prime := by
  have checked : checkChain [2] blsCertificates = true := by decide +kernel
  have certified : ∃ c ∈ blsCertificates, c.p = blsFieldModulus := by decide +kernel
  exact prime_of_certified checked certified

instance : Fact blsFieldModulus.Prime := ⟨blsFieldModulus_prime⟩

/-- `blst_fp`, as the residue it stands for. -/
abbrev Fp := ZMod blsFieldModulus

theorem neg_one_not_square (r : Fp) : r ^ 2 ≠ -1 + 0 * r := by
  intro square
  have residue : IsSquare (-1 : Fp) := ⟨r, by rw [← pow_two, square, zero_mul, add_zero]⟩
  have three : blsFieldModulus % 4 = 3 := by decide +kernel
  exact ZMod.exists_sq_eq_neg_one_iff.mp residue three

instance : Fact (∀ r : Fp, r ^ 2 ≠ -1 + 0 * r) := ⟨neg_one_not_square⟩

/-- `blst_fp2`: `fp[0]` is the real part and `fp[1]` the coefficient of `i`. -/
abbrev Fp2 := QuadraticAlgebra Fp (-1) 0

end KPlugin.Bls12
