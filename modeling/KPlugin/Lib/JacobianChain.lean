import Mathlib.Data.Nat.Size
import Mathlib.Tactic.FieldSimp
import KPlugin.Lib.ShortWeierstrass

/-!
# Multiples in Jacobian coordinates

A triple stands for the point with `x = X / Z²` and `y = Y / Z³`, so doubling and
adding need no division. Every `Z` of a chain of doublings and additions divides
the last one: a chain that ends with `Z ≠ 0` met no exceptional case on its way.
-/

namespace ShortWeierstrass
open WeierstrassCurve.Affine

/-- A point in Jacobian coordinates. -/
structure Triple (K : Type*) where
  X : K
  Y : K
  Z : K

variable {K : Type*} [Field K]

/-- The tangent at a point meets the curve again in the opposite of its double. -/
def Triple.double (t : Triple K) : Triple K :=
  let square := t.Y * t.Y
  let v := t.X * square + t.X * square
  let s := v + v
  let m := t.X * t.X + t.X * t.X + t.X * t.X
  let x := m * m - (s + s)
  let w := square * square + square * square
  { X := x
    Y := m * (s - x) - (w + w + (w + w))
    Z := (t.Y + t.Y) * t.Z }

/-- The sum of two points with different abscissas. -/
def Triple.add (s t : Triple K) : Triple K :=
  let first := s.X * (t.Z * t.Z)
  let ordinate := s.Y * (t.Z * t.Z * t.Z)
  let h := t.X * (s.Z * s.Z) - first
  let r := t.Y * (s.Z * s.Z * s.Z) - ordinate
  let v := first * (h * h)
  let x := r * r - h * h * h - (v + v)
  { X := x
    Y := r * (v - x) - ordinate * (h * h * h)
    Z := h * s.Z * t.Z }

/-- The triple of an affine point. -/
def Triple.ofAffine (c : K × K) : Triple K := ⟨c.1, c.2, 1⟩

/-- Double, and add the base where the bit is set. -/
def Triple.chain (base : Triple K) : List Bool → Triple K → Triple K
  | [], t => t
  | false :: bits, t => base.chain bits t.double
  | true :: bits, t => base.chain bits (t.double.add base)

/-- The number written with these bits after those of `n`. -/
def appendBits : List Bool → ℕ → ℕ
  | [], n => n
  | false :: bits, n => appendBits bits (2 * n)
  | true :: bits, n => appendBits bits (2 * n + 1)

/-- The bits of a number, but for the highest. -/
def lowerBits (n : ℕ) : List Bool := n.bits.reverse.tail

theorem appendBits_append (bits bits' : List Bool) (n : ℕ) :
    appendBits (bits ++ bits') n = appendBits bits' (appendBits bits n) := by
  induction bits generalizing n with
  | nil => rfl
  | cons bit bits ih =>
    cases bit with
    | false => exact ih (2 * n)
    | true => exact ih (2 * n + 1)

theorem lowerBits_bit {n : ℕ} (positive : 0 < n) (bit : Bool) : lowerBits (Nat.bit bit n) = lowerBits n ++ [bit] := by
  have nonempty : n.bits.reverse ≠ [] := by
    apply List.ne_nil_of_length_pos
    rw [List.length_reverse, Nat.size_eq_bits_len]
    exact Nat.size_pos.mpr positive
  unfold lowerBits
  rw [Nat.bits_append_bit n bit fun zero => absurd zero positive.ne', List.reverse_cons,
    List.tail_append_of_ne_nil nonempty]

/-- The bits give the number back. -/
theorem appendBits_lowerBits {n : ℕ} (positive : 0 < n) : appendBits (lowerBits n) 1 = n := by
  induction n using Nat.binaryRecFromOne with
  | zero => exact absurd positive (lt_irrefl 0)
  | one => simp [lowerBits, appendBits]
  | bit bit n nonzero ih =>
    rw [lowerBits_bit (Nat.pos_of_ne_zero nonzero), appendBits_append, ih (Nat.pos_of_ne_zero nonzero)]
    cases bit with
    | false => exact (Nat.bit_false_apply n).symm
    | true => exact (Nat.bit_true_apply n).symm

/-! ## What a triple stands for -/

variable {b : K}

/-- The triple stands for a finite point. -/
structure Triple.Represents (t : Triple K) (P : (curve b).Point) : Prop where
  denominator : t.Z ≠ 0
  finite : P ≠ 0
  coordinates : pair P = (t.X / t.Z ^ 2, t.Y / t.Z ^ 3)

theorem Triple.represents_ofAffine {P : (curve b).Point} (finite : P ≠ 0) : (ofAffine (pair P)).Represents P where
  denominator := one_ne_zero
  finite := finite
  coordinates := by simp [ofAffine]

/-- A represented point is given by its coordinates. -/
theorem Triple.Represents.eq_some {t : Triple K} {P : (curve b).Point} (stands : t.Represents P) :
    ∃ x y, ∃ h : (curve b).Nonsingular x y, P = .some x y h ∧ x = t.X / t.Z ^ 2 ∧ y = t.Y / t.Z ^ 3 := by
  cases P with
  | zero => exact absurd rfl stands.finite
  | some x y h =>
    obtain ⟨abscissa, ordinate⟩ := Prod.mk.injEq .. ▸ stands.coordinates
    exact ⟨x, y, h, rfl, abscissa, ordinate⟩

theorem negY_eq (x y : K) : (curve b).negY x y = -y := by simp [negY, curve]

/-- The line with slope `l` through a point meets the curve again in the opposite of the sum. -/
theorem addX_eq (x x' l : K) : (curve b).addX x x' l = l ^ 2 - x - x' := by simp [addX, curve]

theorem addY_eq (x x' y l : K) : (curve b).addY x x' y l = l * (x - (l ^ 2 - x - x')) - y := by
  rw [addY, negY_eq, negAddY, addX_eq]
  ring

variable [DecidableEq K]

/-- The tangent rule. -/
theorem pair_add_self {x y : K} {h : (curve b).Nonsingular x y} (sloped : 2 * y ≠ 0) :
    ∃ l, l * (2 * y) = 3 * x ^ 2 ∧ Point.some x y h + Point.some x y h ≠ 0 ∧
      pair (Point.some x y h + Point.some x y h) = (l ^ 2 - x - x, l * (x - (l ^ 2 - x - x)) - y) := by
  have distinct : y ≠ (curve b).negY x y := by
    rw [negY_eq]
    intro same
    apply sloped
    linear_combination same
  refine ⟨(curve b).slope x x y y, ?_, ?_, ?_⟩
  · have twice : y - -y = 2 * y := by ring
    rw [slope_of_Y_ne rfl distinct, negY_eq, twice, div_mul_cancel₀ _ sloped]
    simp only [curve]
    ring
  · rw [Point.add_self_of_Y_ne distinct]
    exact Point.some_ne_zero _
  · rw [Point.add_self_of_Y_ne distinct, ← addY_eq (b := b), ← addX_eq (b := b)]
    rfl

/-- The chord rule. -/
theorem pair_add {x y x' y' : K} {h : (curve b).Nonsingular x y} {k : (curve b).Nonsingular x' y'}
    (different : x ≠ x') :
    ∃ l, l * (x - x') = y - y' ∧ Point.some x y h + Point.some x' y' k ≠ 0 ∧
      pair (Point.some x y h + Point.some x' y' k) = (l ^ 2 - x - x', l * (x - (l ^ 2 - x - x')) - y) := by
  refine ⟨(curve b).slope x x' y y', ?_, ?_, ?_⟩
  · rw [slope_of_X_ne different, div_mul_cancel₀ _ (sub_ne_zero.mpr different)]
  · rw [Point.add_of_X_ne different]
    exact Point.some_ne_zero _
  · rw [Point.add_of_X_ne different, ← addY_eq (b := b), ← addX_eq (b := b)]
    rfl

/-- **Doubling doubles**, unless it reports a vertical tangent. -/
theorem Triple.Represents.double {t : Triple K} {P : (curve b).Point} (stands : t.Represents P)
    (denominator : t.double.Z ≠ 0) : t.double.Represents (P + P) := by
  obtain ⟨x, y, h, rfl, abscissa, ordinate⟩ := stands.eq_some
  have finite := stands.denominator
  have twice : 2 * t.Y ≠ 0 := by
    rw [two_mul]
    exact left_ne_zero_of_mul denominator
  have height : t.Y ≠ 0 := right_ne_zero_of_mul twice
  have two : (2 : K) ≠ 0 := left_ne_zero_of_mul twice
  have sloped : 2 * y ≠ 0 := by
    rw [ordinate]
    exact mul_ne_zero two (div_ne_zero height (pow_ne_zero 3 finite))
  obtain ⟨l, tangent, sumFinite, sum⟩ := pair_add_self (h := h) sloped
  have slope : l = 3 * t.X ^ 2 / (2 * t.Y * t.Z) := by
    rw [abscissa, ordinate] at tangent
    field_simp at tangent ⊢
    linear_combination tangent
  refine ⟨denominator, sumFinite, ?_⟩
  rw [sum, abscissa, ordinate, slope]
  simp only [Triple.double, ← two_mul]
  refine Prod.ext ?_ ?_
  · field_simp
    ring
  · field_simp
    ring

/-- **Adding adds**, unless it reports equal abscissas. -/
theorem Triple.Represents.add {s t : Triple K} {P Q : (curve b).Point} (first : s.Represents P)
    (second : t.Represents Q) (denominator : (s.add t).Z ≠ 0) : (s.add t).Represents (P + Q) := by
  obtain ⟨x, y, h, rfl, abscissa, ordinate⟩ := first.eq_some
  obtain ⟨x', y', k, rfl, abscissa', ordinate'⟩ := second.eq_some
  have finite := first.denominator
  have finite' := second.denominator
  obtain ⟨gap, gapIs⟩ : ∃ gap, t.X * (s.Z * s.Z) - s.X * (t.Z * t.Z) = gap := ⟨_, rfl⟩
  have apart : gap ≠ 0 := gapIs ▸ left_ne_zero_of_mul (left_ne_zero_of_mul denominator)
  have different : x ≠ x' := by
    intro same
    apply apart
    rw [abscissa, abscissa'] at same
    field_simp at same
    linear_combination -gapIs - same
  obtain ⟨l, chord, sumFinite, sum⟩ := pair_add (h := h) (k := k) different
  have slope : l = (t.Y * s.Z ^ 3 - s.Y * t.Z ^ 3) / (gap * s.Z * t.Z) := by
    rw [abscissa, ordinate, abscissa', ordinate'] at chord
    field_simp at chord ⊢
    linear_combination -chord - l * s.Z * t.Z * gapIs
  refine ⟨denominator, sumFinite, ?_⟩
  have abscissas : l ^ 2 - x - x' = (s.add t).X / (s.add t).Z ^ 2 := by
    rw [abscissa, abscissa', slope]
    simp only [Triple.add, gapIs]
    field_simp
    linear_combination -gap ^ 2 * gapIs
  rw [sum, abscissas, ordinate, abscissa, slope]
  simp only [Triple.add, gapIs]
  refine Prod.ext rfl ?_
  field_simp

/-! ## Chains -/

omit [DecidableEq K] in
/-- The last denominator of a chain is a multiple of the first. -/
theorem Triple.chain_denominator {base t : Triple K} (bits : List Bool) (denominator : (base.chain bits t).Z ≠ 0) :
    t.Z ≠ 0 := by
  induction bits generalizing t with
  | nil => exact denominator
  | cons bit bits ih =>
    cases bit with
    | false =>
      have next : t.double.Z ≠ 0 := ih denominator
      exact right_ne_zero_of_mul next
    | true =>
      have next : (t.double.add base).Z ≠ 0 := ih denominator
      have double : t.double.Z ≠ 0 := right_ne_zero_of_mul (left_ne_zero_of_mul next)
      exact right_ne_zero_of_mul double

/-- **A chain that ends with a denominator computes a multiple.** -/
theorem Triple.Represents.chain {base t : Triple K} {P : (curve b).Point} (start : base.Represents P) {n : ℕ}
    (bits : List Bool) (stands : t.Represents (n • P)) (denominator : (base.chain bits t).Z ≠ 0) :
    (base.chain bits t).Represents (appendBits bits n • P) := by
  induction bits generalizing n t with
  | nil => exact stands
  | cons bit bits ih =>
    cases bit with
    | false =>
      have next : t.double.Z ≠ 0 := chain_denominator bits denominator
      have twice := stands.double next
      rw [← two_nsmul, ← mul_nsmul'] at twice
      exact ih twice denominator
    | true =>
      have next : (t.double.add base).Z ≠ 0 := chain_denominator bits denominator
      have twice := stands.double (right_ne_zero_of_mul (left_ne_zero_of_mul next))
      have more := twice.add start next
      rw [← two_nsmul, ← mul_nsmul', ← succ_nsmul] at more
      exact ih more denominator

/-- The triple stands for the point with these coordinates. -/
def Triple.At (t : Triple K) (c : K × K) : Prop := t.Z ≠ 0 ∧ t.X = c.1 * (t.Z * t.Z) ∧ t.Y = c.2 * (t.Z * t.Z * t.Z)

instance (t : Triple K) (c : K × K) : Decidable (t.At c) :=
  inferInstanceAs (Decidable (t.Z ≠ 0 ∧ t.X = c.1 * (t.Z * t.Z) ∧ t.Y = c.2 * (t.Z * t.Z * t.Z)))

omit [DecidableEq K] in
theorem Triple.Represents.pair_eq {t : Triple K} {P : (curve b).Point} (stands : t.Represents P) {c : K × K}
    (arrived : t.At c) : pair P = c := by
  obtain ⟨denominator, abscissa, ordinate⟩ := arrived
  rw [stands.coordinates, abscissa, ordinate]
  refine Prod.ext ?_ ?_
  · field_simp
  · field_simp

/-- The coordinates of a multiple, found by a chain from the coordinates of the point. -/
theorem pair_nsmul {P : (curve b).Point} (finite : P ≠ 0) {bits : List Bool} {c : K × K}
    (reached : ((Triple.ofAffine (pair P)).chain bits (.ofAffine (pair P))).At c) :
    pair (appendBits bits 1 • P) = c := by
  have start := Triple.represents_ofAffine finite
  have once : (Triple.ofAffine (pair P)).Represents (1 • P) := by rwa [one_nsmul]
  exact (start.chain bits once reached.1).pair_eq reached

/-- **A pair whose chain for `n - 1` ends at its opposite** names an element that `n` annihilates. -/
theorem nsmul_elementOf_of_chain (six : (6 : K) ≠ 0) (nonzero : b ≠ 0) {c : K × K} (on : c.2 ^ 2 = c.1 ^ 3 + b)
    (finite : c ≠ (0, 0)) {n : ℕ} (large : 1 < n)
    (reached : ((Triple.ofAffine c).chain (lowerBits (n - 1)) (.ofAffine c)).At (c.1, -c.2)) :
    pair (elementOf b c) = c ∧ n • elementOf b c = 0 := by
  obtain ⟨P, rfl⟩ := (onCurve_iff six nonzero c).mp (.inr on)
  have point : P ≠ 0 := fun zero => finite ((pair_eq_zero_iff nonzero P).mpr zero)
  have opposite : (n - 1) • P = -P := by
    apply pair_injective nonzero
    have multiple := pair_nsmul point reached
    rw [appendBits_lowerBits (Nat.sub_pos_of_lt large)] at multiple
    rw [multiple, pair_neg]
  have once : n = n - 1 + 1 := by omega
  rw [elementOf_pair nonzero]
  refine ⟨rfl, ?_⟩
  rw [once, succ_nsmul, opposite, neg_add_cancel]

end ShortWeierstrass
