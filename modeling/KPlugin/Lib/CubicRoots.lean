import Mathlib.FieldTheory.Finite.Basic
import KPlugin.Lib.JacobianChain

/-!
# A cubic without roots

Residues modulo `x³ + a x + b`, in the operations that can be evaluated. A root in
the field of `p` elements satisfies `x ^ p = x`, so it is a root of `x ^ p - x` too;
the residue of that polynomial has no inverse then.
-/

namespace CubicRoots
open ShortWeierstrass

variable {K : Type*}

/-- The residue `c₀ + c₁ x + c₂ x²`. -/
@[ext] structure Residue (K : Type*) where
  c₀ : K
  c₁ : K
  c₂ : K
  deriving DecidableEq

variable [CommRing K]

/-- The product, with `x³ = - a x - b`. -/
def Residue.mul (a b : K) (u v : Residue K) : Residue K :=
  let third := u.c₁ * v.c₂ + u.c₂ * v.c₁
  let fourth := u.c₂ * v.c₂
  { c₀ := u.c₀ * v.c₀ - b * third
    c₁ := u.c₀ * v.c₁ + u.c₁ * v.c₀ - a * third - b * fourth
    c₂ := u.c₀ * v.c₂ + u.c₁ * v.c₁ + u.c₂ * v.c₀ - a * fourth }

/-- The product with `x`. -/
def Residue.shift (a b : K) (u : Residue K) : Residue K := ⟨-(b * u.c₂), u.c₀ - a * u.c₂, u.c₁⟩

/-- Square, and multiply by `x` where the bit is set. -/
def Residue.power (a b : K) : List Bool → Residue K → Residue K
  | [], u => u
  | false :: bits, u => power a b bits (u.mul a b u)
  | true :: bits, u => power a b bits ((u.mul a b u).shift a b)

/-- The residue of `x`. -/
def Residue.x : Residue K := ⟨0, 1, 0⟩

def Residue.sub (u v : Residue K) : Residue K := ⟨u.c₀ - v.c₀, u.c₁ - v.c₁, u.c₂ - v.c₂⟩

/-- The value at a root. -/
def Residue.eval (r : K) (u : Residue K) : K := u.c₀ + u.c₁ * r + u.c₂ * r ^ 2

variable {a b r : K}

theorem Residue.eval_mul (root : r ^ 3 + a * r + b = 0) (u v : Residue K) :
    (u.mul a b v).eval r = u.eval r * v.eval r := by
  simp only [eval, mul]
  linear_combination -(u.c₁ * v.c₂ + u.c₂ * v.c₁ + u.c₂ * v.c₂ * r) * root

theorem Residue.eval_shift (root : r ^ 3 + a * r + b = 0) (u : Residue K) : (u.shift a b).eval r = u.eval r * r := by
  simp only [eval, shift]
  linear_combination -u.c₂ * root

theorem Residue.eval_x : (x : Residue K).eval r = r := by
  simp only [eval, x]
  ring

theorem Residue.eval_sub (u v : Residue K) : (u.sub v).eval r = u.eval r - v.eval r := by
  simp only [eval, sub]
  ring

/-- The chain raises a root to the number of its bits. -/
theorem Residue.eval_power (root : r ^ 3 + a * r + b = 0) (bits : List Bool) {u : Residue K} {n : ℕ}
    (start : u.eval r = r ^ n) : (u.power a b bits).eval r = r ^ appendBits bits n := by
  induction bits generalizing u n with
  | nil => exact start
  | cons bit bits ih =>
    have square : (u.mul a b u).eval r = r ^ (2 * n) := by rw [eval_mul root, start, two_mul, pow_add]
    cases bit with
    | false => exact ih square
    | true =>
      apply ih
      rw [eval_shift root, square, pow_succ]

/-- **The cubic has no root** in the field of `p` elements when the residue of `x ^ p - x` is invertible. -/
theorem no_root {p : ℕ} [Fact p.Prime] {a b : ZMod p} {bits : List Bool} (number : appendBits bits 1 = p)
    {inverse : Residue (ZMod p)} (unit : inverse.mul a b ((Residue.x.power a b bits).sub .x) = ⟨1, 0, 0⟩) (r : ZMod p) :
    r ^ 3 + a * r + b ≠ 0 := by
  intro root
  have power : (Residue.x.power a b bits).eval r = r := by
    rw [Residue.eval_power root bits (n := 1) (by rw [Residue.eval_x, pow_one]), number, ZMod.pow_card]
  have one := congrArg (Residue.eval r) unit
  rw [Residue.eval_mul root, Residue.eval_sub, power, Residue.eval_x, sub_self, mul_zero] at one
  simp [Residue.eval] at one

end CubicRoots
