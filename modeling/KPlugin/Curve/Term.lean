import Mathlib.Data.ZMod.Basic
import KPlugin.Runtime.Gmp

/-!
# Point terms

The K terms of sorts `G1Point` and `G2Point` carry integers of any size and
sign; both curves share them. A hook answers with a term or throws.
-/

namespace KPlugin

/-- `(x, y)`. -/
structure G1Point where
  x : ℤ
  y : ℤ
  deriving DecidableEq, Repr

/-- `(x0 x x1, y0 x y1)`. -/
structure G2Point where
  x0 : ℤ
  x1 : ℤ
  y0 : ℤ
  y1 : ℤ
  deriving DecidableEq, Repr

/-- How a hook leaves the runtime instead of returning. -/
inductive Raise where
  /-- `std::invalid_argument`. -/
  | invalidArgument (what : String)
  /-- A library's `assert`. -/
  | assertFailed
  deriving DecidableEq, Repr

namespace G1Point

/-- `(0, 0)`. -/
def inf : G1Point := ⟨0, 0⟩

/-- Both coordinates are residues. -/
def Canonical (p : ℕ) (t : G1Point) : Prop := (0 ≤ t.x ∧ t.x < p) ∧ 0 ≤ t.y ∧ t.y < p

/-- Negate the ordinate modulo `p`. -/
def neg (p : ℕ) (t : G1Point) : G1Point := ⟨t.x, -t.y % p⟩

/-- The term of two residues. -/
def ofResidues {p : ℕ} (c : ZMod p × ZMod p) : G1Point := ⟨c.1.val, c.2.val⟩

/-- No coordinate is negative. -/
def Nonnegative (t : G1Point) : Prop := 0 ≤ t.x ∧ 0 ≤ t.y

end G1Point

namespace G2Point

/-- `(0 x 0, 0 x 0)`. -/
def inf : G2Point := ⟨0, 0, 0, 0⟩

/-- All four coordinates are residues. -/
def Canonical (p : ℕ) (t : G2Point) : Prop :=
  (0 ≤ t.x0 ∧ t.x0 < p) ∧ (0 ≤ t.x1 ∧ t.x1 < p) ∧ (0 ≤ t.y0 ∧ t.y0 < p) ∧ 0 ≤ t.y1 ∧ t.y1 < p

/-- Negate both coordinates of the ordinate modulo `p`. -/
def neg (p : ℕ) (t : G2Point) : G2Point := ⟨t.x0, t.x1, -t.y0 % p, -t.y1 % p⟩

/-- No coordinate is negative. -/
def Nonnegative (t : G2Point) : Prop := 0 ≤ t.x0 ∧ 0 ≤ t.x1 ∧ 0 ≤ t.y0 ∧ 0 ≤ t.y1

end G2Point

/-! ## Residues -/

/-- A number between 0 and the modulus is not zero modulo it. -/
theorem natCast_ne_zero {p n : ℕ} (positive : 0 < n) (small : n < p) : (n : ZMod p) ≠ 0 := by
  intro zero
  exact Nat.not_lt.mpr (Nat.le_of_dvd positive ((ZMod.natCast_eq_zero_iff n p).mp zero)) small

theorem G1Point.ofResidues_zero {p : ℕ} : ofResidues ((0, 0) : ZMod p × ZMod p) = inf := by
  unfold ofResidues inf
  rw [ZMod.val_zero]
  rfl

variable {p : ℕ} [NeZero p]

theorem val_bounds (a : ZMod p) : 0 ≤ (a.val : ℤ) ∧ (a.val : ℤ) < p :=
  ⟨Int.natCast_nonneg _, Int.ofNat_lt.mpr (ZMod.val_lt a)⟩

/-- The class of a value is the class it came from. -/
theorem intCast_val (a : ZMod p) : ((a.val : ℤ) : ZMod p) = a := by
  rw [Int.cast_natCast, ZMod.natCast_zmod_val]

/-- A residue is the value of its class. -/
theorem val_intCast {m : ℤ} (bounds : 0 ≤ m ∧ m < p) : ((m : ZMod p).val : ℤ) = m := by
  rw [ZMod.val_intCast]
  exact Int.emod_eq_of_lt bounds.1 bounds.2

/-- The value of the opposite class. -/
theorem val_neg (a : ZMod p) : ((-a).val : ℤ) = -(a.val : ℤ) % p := by
  have cast : ((-(a.val : ℤ) : ℤ) : ZMod p) = -a := by
    rw [Int.cast_neg, intCast_val]
  rw [← cast, ZMod.val_intCast]

theorem G1Point.canonical_ofResidues (c : ZMod p × ZMod p) : (ofResidues c).Canonical p :=
  ⟨val_bounds c.1, val_bounds c.2⟩

/-- A term with canonical coordinates is the term of their classes. -/
theorem G1Point.ofResidues_intCast {t : G1Point} (canonical : t.Canonical p) :
    ofResidues ((t.x : ZMod p), (t.y : ZMod p)) = t := by
  unfold ofResidues
  rw [val_intCast canonical.1, val_intCast canonical.2]

theorem G1Point.neg_ofResidues (c : ZMod p × ZMod p) : neg p (ofResidues c) = ofResidues (c.1, -c.2) := by
  unfold neg ofResidues
  rw [val_neg]

theorem G1Point.ofResidues_injective : Function.Injective (ofResidues (p := p)) := by
  intro c c' same
  obtain ⟨first, second⟩ := G1Point.mk.injEq .. ▸ same
  apply Prod.ext
  · exact ZMod.val_injective p (Int.ofNat_inj.mp first)
  · exact ZMod.val_injective p (Int.ofNat_inj.mp second)

/-! ## Scalars -/

/-- A scalar of 256 bits. -/
abbrev Scalar := {n : ℤ // 0 ≤ n ∧ n < 2 ^ 256}

/-- The number of copies. -/
def Scalar.weight (n : Scalar) : ℕ := n.1.toNat

end KPlugin
