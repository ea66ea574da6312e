import Mathlib.Algebra.BigOperators.Ring.Finset
import Mathlib.Data.ZMod.Basic
import Mathlib.GroupTheory.OrderOfElement
import Mathlib.Algebra.Field.ZMod
import Mathlib.Algebra.Module.ZMod
import Mathlib.LinearAlgebra.Basis.VectorSpace

/-!
# Multiples by residues, and pairings of them

An element that `r` annihilates has a multiple for every residue modulo `r`. A map of two
such groups into a commutative monoid that respects addition in each argument turns the
sum of the products of residues into a product of values, and for a prime `r` it is
one exactly when that sum is zero.
-/

namespace Bilinear

variable {G H M : Type*} [AddCommGroup G] [AddCommGroup H] [CommMonoid M] {r : ℕ}

/-! ## Residues -/

/-- The multiples of an element that `r` annihilates. -/
def residueMultiple (g : G) (order : r • g = 0) : ZMod r →+ G :=
  ZMod.lift r ⟨zmultiplesHom G g, by
    rw [zmultiplesHom_apply, natCast_zsmul]
    exact order⟩

@[simp] theorem residueMultiple_natCast (g : G) (order : r • g = 0) (n : ℕ) :
    residueMultiple g order (n : ZMod r) = n • g := by
  have cast : (n : ZMod r) = ((n : ℤ) : ZMod r) := (Int.cast_natCast n).symm
  unfold residueMultiple
  rw [cast, ZMod.lift_coe]
  exact natCast_zsmul g n

@[simp] theorem residueMultiple_one (g : G) (order : r • g = 0) : residueMultiple g order 1 = g := by
  have one := residueMultiple_natCast g order 1
  rwa [Nat.cast_one, one_nsmul] at one

theorem residueMultiple_eq_val [NeZero r] (g : G) (order : r • g = 0) (k : ZMod r) :
    residueMultiple g order k = k.val • g := by
  rw [← residueMultiple_natCast g order, ZMod.natCast_zmod_val]

/-! ## Pairings -/

/-- Sums in either argument become products. -/
structure IsPairing (e : G → H → M) : Prop where
  zero_left : ∀ h, e 0 h = 1
  add_left : ∀ g g' h, e (g + g') h = e g h * e g' h
  zero_right : ∀ g, e g 0 = 1
  add_right : ∀ g h h', e g (h + h') = e g h * e g h'

namespace IsPairing

variable {e : G → H → M}

theorem nsmul_left (pairing : IsPairing e) (n : ℕ) (g : G) (h : H) : e (n • g) h = e g h ^ n := by
  induction n with
  | zero => rw [zero_nsmul, pow_zero, pairing.zero_left]
  | succ n ih => rw [succ_nsmul, pow_succ, pairing.add_left, ih]

theorem nsmul_right (pairing : IsPairing e) (n : ℕ) (g : G) (h : H) : e g (n • h) = e g h ^ n := by
  induction n with
  | zero => rw [zero_nsmul, pow_zero, pairing.zero_right]
  | succ n ih => rw [succ_nsmul, pow_succ, pairing.add_right, ih]

/-- A multiple can be taken on either side. -/
theorem nsmul_nsmul (pairing : IsPairing e) (m n : ℕ) (g : G) (h : H) : e (m • g) (n • h) = e ((m * n) • g) h := by
  rw [pairing.nsmul_right, pairing.nsmul_left, pairing.nsmul_left, pow_mul]

theorem sum_right {β : Type*} (pairing : IsPairing e) (g : G) (f : β → H) (l : List β) :
    e g (l.map f).sum = (l.map fun b => e g (f b)).prod := by
  induction l with
  | nil => exact pairing.zero_right g
  | cons b l ih => rw [List.map_cons, List.sum_cons, pairing.add_right, ih, List.map_cons, List.prod_cons]

/-- **Two sums are paired term by term.** -/
theorem sum_sum {α β : Type*} (pairing : IsPairing e) (f : α → G) (f' : β → H) (l : List α) (l' : List β) :
    e (l.map f).sum (l'.map f').sum = ((l ×ˢ l').map fun t => e (f t.1) (f' t.2)).prod := by
  induction l with
  | nil => exact pairing.zero_left _
  | cons a l ih =>
    rw [List.product_cons, List.map_append, List.prod_append, ← ih, List.map_cons, List.sum_cons, pairing.add_left,
      List.map_map, pairing.sum_right]
    rfl

/-- Residues multiply in the exponent. -/
theorem residue_residue [NeZero r] (pairing : IsPairing e) (φ : ZMod r →+ G) (ψ : ZMod r →+ H) (k l : ZMod r) :
    e (φ k) (ψ l) = e (φ 1) (ψ 1) ^ (k.val * l.val) := by
  have first : φ k = k.val • φ 1 := by rw [← map_nsmul, nsmul_one, ZMod.natCast_zmod_val]
  have second : ψ l = l.val • ψ 1 := by rw [← map_nsmul, nsmul_one, ZMod.natCast_zmod_val]
  rw [first, second, pairing.nsmul_nsmul, pairing.nsmul_left]

/-- The value at the generators has order `r`. -/
theorem orderOf_one [prime : Fact r.Prime] (pairing : IsPairing e) (φ : ZMod r →+ G) (ψ : ZMod r →+ H)
    (nondegenerate : e (φ 1) (ψ 1) ≠ 1) : orderOf (e (φ 1) (ψ 1)) = r := by
  refine orderOf_eq_prime ?_ nondegenerate
  rw [← pairing.nsmul_left, ← map_nsmul, nsmul_one, ZMod.natCast_self, map_zero, pairing.zero_left]

/-- **The product of the values is one exactly when the sum of the products is zero.** -/
theorem prod_eq_one_iff [prime : Fact r.Prime] (pairing : IsPairing e) (φ : ZMod r →+ G) (ψ : ZMod r →+ H)
    (nondegenerate : e (φ 1) (ψ 1) ≠ 1) (l : List (ZMod r × ZMod r)) :
    (l.map fun t => e (φ t.1) (ψ t.2)).prod = 1 ↔ (l.map fun t => t.1 * t.2).sum = 0 := by
  have power : (l.map fun t => e (φ t.1) (ψ t.2)).prod =
      e (φ 1) (ψ 1) ^ (l.map fun t => t.1.val * t.2.val).sum := by
    induction l with
    | nil => exact (pow_zero _).symm
    | cons t l ih =>
      rw [List.map_cons, List.prod_cons, ih, pairing.residue_residue, List.map_cons, List.sum_cons, pow_add]
  have cast : (((l.map fun t => t.1.val * t.2.val).sum : ℕ) : ZMod r) = (l.map fun t => t.1 * t.2).sum := by
    rw [Nat.cast_list_sum, List.map_map]
    congr 1
    refine List.map_congr_left fun t _ => ?_
    rw [Function.comp_apply, Nat.cast_mul, ZMod.natCast_zmod_val, ZMod.natCast_zmod_val]
  rw [power, ← orderOf_dvd_iff_pow_eq_one, pairing.orderOf_one φ ψ nondegenerate, ← ZMod.natCast_eq_zero_iff, cast]

end IsPairing

/-! ## Logarithms -/

/-- In a group that a prime annihilates every element but zero is a generator for some
homomorphism to the residues. -/
theorem exists_logarithm [prime : Fact r.Prime] (order : ∀ g : G, r • g = 0) {g : G} (nonzero : g ≠ 0) :
    ∃ φ : G →+ ZMod r, φ g = 1 := by
  let module := AddCommGroup.zmodModule order
  have injective : LinearMap.ker (LinearMap.toSpanSingleton (ZMod r) G g) = ⊥ :=
    LinearMap.ker_eq_bot'.mpr fun k zero => by
      by_contra unit
      apply nonzero
      rw [← inv_smul_smul₀ unit g]
      exact (congrArg (k⁻¹ • ·) zero).trans (smul_zero _)
  obtain ⟨φ, inverse⟩ := LinearMap.exists_leftInverse_of_injective _ injective
  refine ⟨φ.toAddMonoidHom, ?_⟩
  have one := LinearMap.congr_fun inverse 1
  rw [LinearMap.comp_apply, LinearMap.toSpanSingleton_apply, one_smul] at one
  exact one

/-- The product of two logarithms, in the exponent. -/
def ofLogarithms (φ : G →+ ZMod r) (ψ : H →+ ZMod r) (g : G) (h : H) : Multiplicative (ZMod r) := .ofAdd (φ g * ψ h)

theorem ofLogarithms_isPairing (φ : G →+ ZMod r) (ψ : H →+ ZMod r) : IsPairing (ofLogarithms φ ψ) where
  zero_left := fun h => by rw [ofLogarithms, map_zero, zero_mul, ofAdd_zero]
  add_left := fun g g' h => by rw [ofLogarithms, map_add, add_mul, ofAdd_add]; rfl
  zero_right := fun g => by rw [ofLogarithms, map_zero, mul_zero, ofAdd_zero]
  add_right := fun g h h' => by rw [ofLogarithms, map_add, mul_add, ofAdd_add]; rfl

/-- Two elements with the logarithm 1 are not paired to one. -/
theorem ofLogarithms_ne_one [prime : Fact r.Prime] {φ : G →+ ZMod r} {ψ : H →+ ZMod r} {g : G} {h : H}
    (first : φ g = 1) (second : ψ h = 1) : ofLogarithms φ ψ g h ≠ 1 := by
  rw [ofLogarithms, first, second, mul_one]
  intro trivial
  exact one_ne_zero (ofAdd_eq_one.mp trivial)

open Classical in
/-- A homomorphism on a subgroup, zero elsewhere. -/
noncomputable def extend {S : AddSubgroup G} (φ : S →+ ZMod r) (g : G) : ZMod r :=
  if member : g ∈ S then φ ⟨g, member⟩ else 0

@[simp] theorem extend_coe {S : AddSubgroup G} (φ : S →+ ZMod r) (g : S) : extend φ g.1 = φ g := dif_pos g.2

end Bilinear
