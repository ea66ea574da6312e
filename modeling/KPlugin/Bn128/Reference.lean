import KPlugin.Bn128.Hooks
import KPlugin.Lib.Pratt
import Mathlib.FieldTheory.Finite.Basic

/-!
# A libff that computes in the group itself

What is assumed of libff can be met, for every field it could be built over, by
taking group elements as points. The modulus of `alt_bn128` is a prime for which
`-3` is no cube, so the group has odd order.
-/

namespace KPlugin.Bn128
open ShortWeierstrass Pratt Classical

/-- A group element, or a pair off the curve. -/
abbrev ReferencePoint (q : ℕ) [Fact q.Prime] := (Curve q).Point ⊕ (ZMod q × ZMod q)

noncomputable def referenceLibff (q : ℕ) [Fact q.Prime] : LibffG1 q where
  bigint m := if 0 ≤ m ∧ m < 2 ^ 256 then .ok m.toNat else .error .assertFailed
  G1 := ReferencePoint q
  g1 x y _ := if (Curve q).Equation x y then .inl (elementOf _ (x, y)) else .inr (x, y)
  zero := .inl 0
  isZero p := p.elim (fun P => decide (P = 0)) fun _ => false
  isWellFormed p := p.isLeft
  add p p' := p.elim (fun P => p'.elim (fun Q => .inl (P + Q)) .inr) .inr
  smul n p := p.elim (fun P => .inl (n • P)) .inr
  toAffineCoordinates p := p
  X p := (p.elim pair id).1
  Y p := (p.elim pair id).2

/-- **The assumptions about libff are met by the group.** -/
theorem referenceLibff_implements {q : ℕ} [Fact q.Prime] (large : 3 < q) (limbs : q < 2 ^ 256)
    (odd : Odd (Nat.card (Curve q).Point)) : (referenceLibff q).Implements fun p P => p = .inl P where
  large := large
  limbs := limbs
  bigint := fun m nonnegative small => if_pos ⟨nonnegative, small⟩
  zero := rfl
  g1 := by
    intro x y h
    have three : (3 : ZMod q) ≠ 0 := natCast_ne_zero (by decide) large
    have on : (referenceLibff q).g1 x y 1 = Sum.inl (elementOf 3 (x, y)) := if_pos h.1
    have element : elementOf 3 (x, y) = .some x y h := elementOf_pair three (.some x y h)
    rw [on, element]
  isZero := by
    rintro p P rfl
    exact decide_eq_true_iff
  isWellFormed_zero := rfl
  isWellFormed_g1 := by
    intro x y
    rw [← equation_iff]
    by_cases on : (Curve q).Equation x y
    · have point : (referenceLibff q).g1 x y 1 = Sum.inl (elementOf 3 (x, y)) := if_pos on
      rw [point]
      exact iff_of_true rfl on
    · have point : (referenceLibff q).g1 x y 1 = Sum.inr (x, y) := if_neg on
      rw [point]
      exact iff_of_false Bool.false_ne_true on
  add := by
    rintro p p' P Q rfl rfl
    rfl
  smul := by
    rintro n p P _ rfl
    rfl
  toAffineCoordinates := by
    rintro p P rfl _
    rfl
  odd := odd

/-! ## The modulus of `alt_bn128` -/

/-- `alt_bn128_Fq::mod`. -/
def bnFieldModulus : ℕ := 21888242871839275222246405745257275088696311157297823662689037894645226208583

/-- Primes below the modulus, each proved from those before it. -/
def bnCertificates : List Certificate :=
  [⟨3, 2, [(2, 1)]⟩, ⟨5, 2, [(2, 2)]⟩, ⟨7, 3, [(2, 1), (3, 1)]⟩, ⟨11, 2, [(2, 1), (5, 1)]⟩,
    ⟨13, 2, [(2, 2), (3, 1)]⟩, ⟨17, 3, [(2, 4)]⟩, ⟨19, 2, [(2, 1), (3, 2)]⟩, ⟨29, 2, [(2, 2), (7, 1)]⟩,
    ⟨31, 3, [(2, 1), (3, 1), (5, 1)]⟩, ⟨37, 2, [(2, 2), (3, 2)]⟩, ⟨41, 6, [(2, 3), (5, 1)]⟩,
    ⟨67, 2, [(2, 1), (3, 1), (11, 1)]⟩, ⟨73, 5, [(2, 3), (3, 2)]⟩, ⟨89, 3, [(2, 3), (11, 1)]⟩,
    ⟨109, 6, [(2, 2), (3, 3)]⟩, ⟨127, 3, [(2, 1), (3, 2), (7, 1)]⟩, ⟨229, 6, [(2, 2), (3, 1), (19, 1)]⟩,
    ⟨233, 3, [(2, 3), (29, 1)]⟩, ⟨271, 6, [(2, 1), (3, 3), (5, 1)]⟩, ⟨311, 17, [(2, 1), (5, 1), (31, 1)]⟩,
    ⟨491, 2, [(2, 1), (5, 1), (7, 2)]⟩, ⟨911, 17, [(2, 1), (5, 1), (7, 1), (13, 1)]⟩,
    ⟨983, 5, [(2, 1), (491, 1)]⟩, ⟨1231, 3, [(2, 1), (3, 1), (5, 1), (41, 1)]⟩,
    ⟨2221, 2, [(2, 2), (3, 1), (5, 1), (37, 1)]⟩, ⟨3557, 2, [(2, 2), (7, 1), (127, 1)]⟩,
    ⟨3691, 2, [(2, 1), (3, 2), (5, 1), (41, 1)]⟩, ⟨4999, 3, [(2, 1), (3, 1), (7, 2), (17, 1)]⟩,
    ⟨5501, 2, [(2, 2), (5, 3), (11, 1)]⟩, ⟨11003, 2, [(2, 1), (5501, 1)]⟩,
    ⟨13327, 3, [(2, 1), (3, 1), (2221, 1)]⟩, ⟨327599, 19, [(2, 1), (19, 1), (37, 1), (233, 1)]⟩,
    ⟨1853641, 17, [(2, 3), (3, 2), (5, 1), (19, 1), (271, 1)]⟩,
    ⟨4562087, 5, [(2, 1), (17, 1), (109, 1), (1231, 1)]⟩,
    ⟨173171039, 13, [(2, 1), (73, 1), (89, 1), (13327, 1)]⟩,
    ⟨405928799, 22, [(2, 1), (11, 1), (3691, 1), (4999, 1)]⟩,
    ⟨1263766531, 10, [(2, 1), (3, 1), (5, 1), (13, 1), (911, 1), (3557, 1)]⟩,
    ⟨11465965001, 3, [(2, 3), (5, 4), (7, 1), (327599, 1)]⟩,
    ⟨35385462869, 2, [(2, 2), (7, 1), (1263766531, 1)]⟩,
    ⟨2480874801745591, 6, [(2, 1), (3, 2), (5, 1), (19, 1), (41, 1), (35385462869, 1)]⟩,
    ⟨13427688667394608761327070753331941386769, 17, [(2, 4), (3, 1), (7, 1), (11, 1), (1853641, 1), (4562087, 1), (173171039, 1), (2480874801745591, 1)]⟩,
    ⟨21888242871839275222246405745257275088696311157297823662689037894645226208583, 3, [(2, 1), (3, 2), (13, 1), (29, 1), (67, 1), (229, 1), (311, 1), (983, 1), (11003, 1), (405928799, 1), (11465965001, 1), (13427688667394608761327070753331941386769, 1)]⟩]

theorem bnFieldModulus_prime : bnFieldModulus.Prime := by
  have checked : checkChain [2] bnCertificates = true := by decide +kernel
  have certified : ∃ c ∈ bnCertificates, c.p = bnFieldModulus := by decide +kernel
  exact prime_of_certified checked certified

instance : Fact bnFieldModulus.Prime := ⟨bnFieldModulus_prime⟩

/-- The power of `-3` that is 1 for a cube is not 1. -/
theorem neg_three_not_cube (x : ZMod bnFieldModulus) : x ^ 3 ≠ -3 := by
  intro cube
  have three : ((3 : ℕ) : ZMod bnFieldModulus) ≠ 0 := natCast_ne_zero (by decide) (by decide +kernel)
  have nonzero : x ≠ 0 := by
    rintro rfl
    rw [zero_pow three_ne_zero] at cube
    exact three (by exact_mod_cast neg_eq_zero.mp cube.symm)
  have opposite : ((bnFieldModulus - 3 : ℕ) : ZMod bnFieldModulus) = -3 := by decide +kernel
  have thirds : bnFieldModulus - 1 = 3 * ((bnFieldModulus - 1) / 3) := by decide +kernel
  have one : ((bnFieldModulus - 3 : ℕ) : ZMod bnFieldModulus) ^ ((bnFieldModulus - 1) / 3) = 1 := by
    rw [opposite, ← cube, ← pow_mul, ← thirds]
    exact ZMod.pow_card_sub_one_eq_one nonzero
  have fits : (bnFieldModulus - 1) / 3 < 2 ^ 254 := by decide +kernel
  have power := (powMod_eq_one_iff (by decide +kernel) (bnFieldModulus - 3) fits).mpr one
  exact absurd power (by decide +kernel)

theorem bn_odd : Odd (Nat.card (Curve bnFieldModulus).Point) := by
  have two : ((2 : ℕ) : ZMod bnFieldModulus) ≠ 0 := natCast_ne_zero (by decide) (by decide +kernel)
  have three : ((3 : ℕ) : ZMod bnFieldModulus) ≠ 0 := natCast_ne_zero (by decide) (by decide +kernel)
  exact odd_card (by exact_mod_cast three) (by exact_mod_cast two) neg_three_not_cube

theorem bn_implements : (referenceLibff bnFieldModulus).Implements fun p P => p = .inl P :=
  referenceLibff_implements (by decide) (by decide +kernel) bn_odd

end KPlugin.Bn128
