import Mathlib.GroupTheory.Perm.Cycle.Type
import KPlugin.Lib.CubicRoots
import KPlugin.Lib.EcdsaScheme
import KPlugin.Lib.JacobianMultiples

/-!
# Curves of prime order

A curve `y² = x³ + a x + b` over the field of an odd prime of `p` elements whose cubic has no
root. A finite point is told by its abscissa and the parity of its ordinate, so there
are at most `2 p + 1` points; none is its own opposite, so their number is odd. A point
whose order is a prime above a third of that bound then generates all of them.
-/

namespace PrimeCurve
open WeierstrassCurve.Affine JacobianMultiples

variable {p : ℕ} {W : WeierstrassCurve.Affine (ZMod p)}

/-! ## Coordinates -/

/-- The coordinates of a finite point. -/
def coordinates : W.Point → Option (ZMod p × ZMod p)
  | .zero => none
  | .some x y _ => some (x, y)

/-- The abscissa of a finite point. -/
def abscissa (P : W.Point) : Option ℕ := (coordinates P).map fun c => c.1.val

/-- The abscissa, and whether the ordinate is even. -/
def parity (P : W.Point) : Option (ZMod p × Bool) := (coordinates P).map fun c => (c.1, decide (c.2.val % 2 = 0))

theorem coordinates_eq_none_iff (P : W.Point) : coordinates P = none ↔ P = 0 := by
  cases P with
  | zero => exact ⟨fun _ => rfl, fun _ => rfl⟩
  | some x y h => exact ⟨nofun, fun zero => absurd zero (Point.some_ne_zero h)⟩

theorem coordinates_injective : Function.Injective (coordinates (W := W)) := by
  intro P Q same
  cases P with
  | zero =>
    cases Q with
    | zero => rfl
    | some x y h => cases same
  | some x y h =>
    cases Q with
    | zero => cases same
    | some x' y' h' =>
      cases same
      rfl

variable [Fact p.Prime]

theorem coordinates_neg (short : Short W) {P : W.Point} {x y : ZMod p} (named : coordinates P = some (x, y)) :
    coordinates (-P) = some (x, -y) := by
  cases P with
  | zero => cases named
  | some x' y' h =>
    cases named
    have opposite : W.negY x y = -y := by simp [negY, short.a₁, short.a₃]
    rw [Point.neg_some, coordinates, opposite]

theorem equation_of_coordinates (short : Short W) {P : W.Point} {x y : ZMod p} (named : coordinates P = some (x, y)) :
    y ^ 2 = x ^ 3 + W.a₄ * x + W.a₆ := by
  cases P with
  | zero => cases named
  | some x' y' h =>
    cases named
    have equation := (equation_iff _ _).mp h.1
    simpa [short.a₁, short.a₂, short.a₃] using equation

theorem abscissas (short : Short W) : EcdsaScheme.Abscissas (abscissa (W := W)) where
  neg := by
    intro P
    unfold abscissa
    cases named : coordinates P with
    | none =>
      obtain rfl := (coordinates_eq_none_iff P).mp named
      rw [neg_zero, named]
    | some c => rw [coordinates_neg short named, Option.map_some, Option.map_some]
  eq_none_iff := by
    intro P
    rw [abscissa, Option.map_eq_none_iff, coordinates_eq_none_iff]

/-! ## The number of points -/

/-- The curve is short, the prime is odd and the cubic has no root. -/
structure NoTorsion (W : WeierstrassCurve.Affine (ZMod p)) : Prop where
  short : Short W
  odd : p % 2 = 1
  no_root : ∀ x, x ^ 3 + W.a₄ * x + W.a₆ ≠ 0

theorem NoTorsion.ordinate_ne_zero (free : NoTorsion W) {P : W.Point} {x y : ZMod p} (named : coordinates P = some (x, y)) :
    y ≠ 0 := by
  rintro rfl
  apply free.no_root x
  rw [← equation_of_coordinates free.short named]
  exact zero_pow two_ne_zero

theorem NoTorsion.neg_val (free : NoTorsion W) {y : ZMod p} (finite : y ≠ 0) : (-y).val % 2 ≠ y.val % 2 := by
  have below := ZMod.val_lt y
  have odd := free.odd
  rw [ZMod.neg_val, if_neg finite]
  omega

/-- **Abscissa and parity tell a point.** -/
theorem NoTorsion.parity_injective (free : NoTorsion W) : Function.Injective (parity (W := W)) := by
  intro P Q same
  cases P with
  | zero =>
    cases Q with
    | zero => rfl
    | some x y h => cases same
  | some x y h =>
    cases Q with
    | zero => cases same
    | some x' y' h' =>
      obtain ⟨equal, even⟩ := Prod.mk.inj (Option.some.inj same)
      dsimp only at equal even
      subst equal
      rcases Y_eq_of_X_eq h.1 h'.1 rfl with ordinate | opposite
      · subst ordinate
        rfl
      · have negative : y = -y' := by simpa [negY, free.short.a₁, free.short.a₃] using opposite
        have named : coordinates (.some x y' h' : W.Point) = some (x, y') := rfl
        have different := free.neg_val (free.ordinate_ne_zero named)
        rw [negative, decide_eq_decide] at even
        omega

theorem NoTorsion.finite (free : NoTorsion W) : Finite W.Point := Finite.of_injective parity free.parity_injective

theorem NoTorsion.card_le (free : NoTorsion W) : Nat.card W.Point ≤ 2 * p + 1 := by
  have bound := Nat.card_le_card_of_injective parity free.parity_injective
  have two : Nat.card Bool = 2 := by simp
  rw [Finite.card_option, Nat.card_prod, Nat.card_zmod, two, mul_comm] at bound
  exact bound

theorem NoTorsion.card_odd (free : NoTorsion W) : Odd (Nat.card W.Point) := by
  have finite := free.finite
  rw [← Nat.not_even_iff_odd]
  intro even
  obtain ⟨P, two⟩ := exists_prime_addOrderOf_dvd_card' 2 (even_iff_two_dvd.mp even)
  have twice : P + P = 0 := by rw [← two_nsmul, ← two, addOrderOf_nsmul_eq_zero]
  have opposite : -P = P := neg_eq_of_add_eq_zero_left twice
  cases named : coordinates P with
  | none =>
    obtain rfl := (coordinates_eq_none_iff P).mp named
    rw [addOrderOf_zero] at two
    exact absurd two (by decide)
  | some c =>
    have negative := coordinates_neg free.short named
    rw [opposite, named] at negative
    have same : c.2 = -c.2 := (Prod.mk.inj (Option.some.inj negative)).2
    exact free.neg_val (free.ordinate_ne_zero named) (by rw [← same])

variable {n : ℕ} {g : W.Point}

/-- **The curve has as many points as `g` has multiples.** -/
theorem NoTorsion.card_eq (free : NoTorsion W) (order : addOrderOf g = n) (few : 2 * p + 1 < n * 3) :
    Nat.card W.Point = n := by
  have finite := free.finite
  obtain ⟨k, card⟩ : n ∣ Nat.card W.Point := order ▸ addOrderOf_dvd_natCard g
  have positive : 0 < Nat.card W.Point := Nat.card_pos
  have small : k < 3 := by
    by_contra large
    have more : n * 3 ≤ n * k := Nat.mul_le_mul_left _ (not_lt.mp large)
    have bound := free.card_le
    omega
  have odd := free.card_odd
  rw [card] at odd positive ⊢
  obtain ⟨m, rfl⟩ := (Nat.odd_mul.mp odd).2
  have zero : m = 0 := by omega
  rw [zero]
  omega

/-- A curve whose points are the multiples of `g`, which has the prime order `n`. -/
structure Generated (n : ℕ) (g : W.Point) : Prop extends NoTorsion W where
  finite : g ≠ 0
  annihilated : n • g = 0
  few : 2 * p + 1 < n * 3

variable [Fact n.Prime]

theorem Generated.addOrderOf_eq (generated : Generated n g) : addOrderOf g = n :=
  addOrderOf_eq_prime generated.annihilated generated.finite

/-- The order annihilates every point. -/
theorem Generated.nsmul_eq_zero (generated : Generated n g) (Q : W.Point) : n • Q = 0 := by
  rw [← generated.card_eq generated.addOrderOf_eq generated.few]
  exact card_nsmul_eq_zero'

variable [Module (ZMod n) W.Point]

theorem smul_eq_val_nsmul (c : ZMod n) (Q : W.Point) : c • Q = c.val • Q := by
  rw [← Nat.cast_smul_eq_nsmul (ZMod n), ZMod.natCast_zmod_val]

theorem Generated.smul_eq_zero_iff (generated : Generated n g) (d : ZMod n) : d • g = 0 ↔ d = 0 := by
  constructor
  · intro zero
    rw [smul_eq_val_nsmul] at zero
    have divides := addOrderOf_dvd_of_nsmul_eq_zero zero
    rw [generated.addOrderOf_eq] at divides
    exact (ZMod.val_eq_zero d).mp (Nat.eq_zero_of_dvd_of_lt divides (ZMod.val_lt d))
  · rintro rfl
    exact zero_smul (ZMod n) g

/-- **Every point is a multiple.** -/
theorem Generated.exists_smul_eq (generated : Generated n g) (Q : W.Point) : ∃ d : ZMod n, d • g = Q := by
  have card := generated.card_eq generated.addOrderOf_eq generated.few
  have multiple : Q ∈ AddSubmonoid.multiples g := mem_multiples_of_prime_card card generated.finite
  obtain ⟨k, same⟩ := multiple
  exact ⟨k, (Nat.cast_smul_eq_nsmul (ZMod n) k g).trans same⟩

end PrimeCurve
