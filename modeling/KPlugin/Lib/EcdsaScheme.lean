import Mathlib.Algebra.Field.ZMod
import Mathlib.Algebra.Module.ZMod
import Mathlib.Tactic.FieldSimp
import Mathlib.Tactic.Module

/-!
# ECDSA in a group of prime order

Signing, verifying and recovering keys, over any group that `n` annihilates, with a
generator and with the abscissas of its finite points. The three meet in one point: the
nonce's multiple of the generator is what the verifier computes and what a key is
recovered from.
-/

namespace EcdsaScheme

variable {G : Type*} [AddCommGroup G] {n : ℕ} [Fact n.Prime] [Module (ZMod n) G]

/-! ## The algorithms -/

/-- The point a verifier computes. -/
def verifierPoint (g Q : G) (h r s : ZMod n) : G := (h / s) • g + (r / s) • Q

/-- The signature `(r, s)` of the hash `h` verifies under the key `Q`. -/
structure Verifies (n : ℕ) [Fact n.Prime] [Module (ZMod n) G] (g : G) (abscissa : G → Option ℕ) (Q : G) (h r s : ℕ) :
    Prop where
  r_range : 0 < r ∧ r < n
  s_range : 0 < s ∧ s < n
  congruent : ∃ x, abscissa (verifierPoint g Q (h : ZMod n) r s) = some x ∧ x ≡ r [MOD n]

/-- Signing with the secret `d` and the nonce `k`; other nonces are tried when it fails. -/
def sign (g : G) (abscissa : G → Option ℕ) (d k : ZMod n) (h : ℕ) : Option (ℕ × ℕ) :=
  (abscissa (k • g)).bind fun x =>
    let r := x % n
    let s := ((h + r * d : ZMod n) / k).val
    if r = 0 ∨ s = 0 then none else some (r, s)

/-- The key under which the nonce's point `R` makes the signature. -/
def recovered (g R : G) (h r s : ZMod n) : G := r⁻¹ • (s • R - h • g)

/-- Opposite points have one abscissa, and every point but zero has one. -/
structure Abscissas (abscissa : G → Option ℕ) : Prop where
  neg : ∀ P, abscissa (-P) = abscissa P
  eq_none_iff : ∀ P, abscissa P = none ↔ P = 0

variable {g : G} {abscissa : G → Option ℕ} {Q R : G} {h h' r s s' : ℕ}

theorem natCast_ne_zero_of_range (range : 0 < r ∧ r < n) : (r : ZMod n) ≠ 0 := by
  intro zero
  have divides := (ZMod.natCast_eq_zero_iff r n).mp zero
  exact absurd (Nat.le_of_dvd range.1 divides) (not_le.mpr range.2)

/-- Numbers with sum zero are opposite. -/
theorem natCast_eq_neg {a b : ℕ} (sum : a + b ≡ 0 [MOD n]) : (b : ZMod n) = -a := by
  have zero : ((a + b : ℕ) : ZMod n) = (0 : ℕ) := (ZMod.natCast_eq_natCast_iff _ _ _).mpr sum
  push_cast at zero
  exact eq_neg_of_add_eq_zero_right zero

/-! ## Signing and verifying -/

/-- Under the key of a secret the verifier's point is that of a nonce. -/
theorem verifierPoint_smul (d h r s : ZMod n) : verifierPoint g (d • g) h r s = ((h + r * d) / s) • g := by
  rw [verifierPoint, smul_smul, ← add_smul]
  congr 1
  ring

/-- What signing answers. -/
theorem sign_eq_some_iff {d k : ZMod n} : sign g abscissa d k h = some (r, s) ↔
    ∃ x, abscissa (k • g) = some x ∧ x % n = r ∧ ((h + r * d) / k).val = s ∧ r ≠ 0 ∧ s ≠ 0 := by
  unfold sign
  constructor
  · intro signed
    obtain ⟨x, named, answer⟩ := Option.bind_eq_some_iff.mp signed
    dsimp only at answer
    split_ifs at answer with failed
    obtain ⟨r_ne, s_ne⟩ := not_or.mp failed
    obtain ⟨rfl, rfl⟩ := Prod.mk.inj (Option.some.inj answer)
    exact ⟨x, named, rfl, rfl, r_ne, s_ne⟩
  · rintro ⟨x, named, rfl, rfl, r_ne, s_ne⟩
    rw [named]
    exact if_neg (not_or.mpr ⟨r_ne, s_ne⟩)

/-- The verifier arrives at the nonce's point. -/
theorem verifierPoint_of_sign {d k : ZMod n} (signed : sign g abscissa d k h = some (r, s)) :
    verifierPoint g (d • g) (h : ZMod n) r s = k • g := by
  obtain ⟨x, -, -, rfl, -, s_ne⟩ := sign_eq_some_iff.mp signed
  have quotient : (h + r * d) / k ≠ 0 := fun zero => s_ne ((ZMod.val_eq_zero _).mpr zero)
  rw [verifierPoint_smul, ZMod.natCast_zmod_val, div_div_cancel₀ (div_ne_zero_iff.mp quotient).1]

/-- **The signatures that verify are those that the holder of the secret can make.** -/
theorem verifies_iff_sign (abscissas : Abscissas abscissa) (d : ZMod n) :
    Verifies n g abscissa (d • g) h r s ↔ ∃ k, sign g abscissa d k h = some (r, s) := by
  constructor
  · rintro ⟨r_range, s_range, x, named, congruent⟩
    rw [verifierPoint_smul] at named
    have s_ne : (s : ZMod n) ≠ 0 := natCast_ne_zero_of_range s_range
    let k := (h + r * d) / (s : ZMod n)
    have k_ne : k ≠ 0 := by
      intro zero
      have infinite : k • g = 0 := by rw [zero, zero_smul]
      rw [(abscissas.eq_none_iff _).mpr infinite] at named
      cases named
    have s_eq : ((h + r * d) / k).val = s := by
      have back : (h + r * d) / k = (s : ZMod n) := by rw [div_eq_iff k_ne, mul_div_cancel₀ _ s_ne]
      rw [back, ZMod.val_natCast, Nat.mod_eq_of_lt s_range.2]
    exact ⟨k, sign_eq_some_iff.mpr
      ⟨x, named, Nat.mod_eq_of_modEq congruent r_range.2, s_eq, r_range.1.ne', s_range.1.ne'⟩⟩
  · rintro ⟨k, signed⟩
    have point := verifierPoint_of_sign signed
    obtain ⟨x, named, rfl, rfl, r_ne, s_ne⟩ := sign_eq_some_iff.mp signed
    have positive : 0 < n := (Fact.out : n.Prime).pos
    refine ⟨⟨Nat.pos_of_ne_zero r_ne, Nat.mod_lt _ positive⟩, ⟨Nat.pos_of_ne_zero s_ne, ZMod.val_lt _⟩, x, ?_,
      (Nat.mod_modEq _ _).symm⟩
    rw [point]
    exact named

/-! ## Signatures that verify together -/

theorem Verifies.hash (verifies : Verifies n g abscissa Q h r s) (same : h' ≡ h [MOD n]) :
    Verifies n g abscissa Q h' r s := by
  have residue : (h' : ZMod n) = h := (ZMod.natCast_eq_natCast_iff _ _ _).mpr same
  refine { verifies with congruent := ?_ }
  rw [residue]
  exact verifies.congruent

theorem verifierPoint_neg_right (h r s : ZMod n) : verifierPoint g Q h r (-s) = -verifierPoint g Q h r s := by
  unfold verifierPoint
  rw [div_neg, div_neg, neg_smul, neg_smul, neg_add]

theorem verifierPoint_neg_left (h r s : ZMod n) : verifierPoint g (-Q) (-h) r s = -verifierPoint g Q h r s := by
  unfold verifierPoint
  rw [neg_div, neg_smul, smul_neg, neg_add]

/-- **Malleability**: the opposite of the second number verifies too. -/
theorem Verifies.twin (abscissas : Abscissas abscissa) (verifies : Verifies n g abscissa Q h r s) (sum : s + s' = n) :
    Verifies n g abscissa Q h r s' := by
  have range := verifies.s_range
  have opposite : (s' : ZMod n) = -s := natCast_eq_neg (by rw [sum]; exact Nat.modEq_zero_iff_dvd.mpr dvd_rfl)
  refine { verifies with s_range := by omega, congruent := ?_ }
  rw [opposite, verifierPoint_neg_right, abscissas.neg]
  exact verifies.congruent

/-- The opposite key verifies the opposite hash. -/
theorem Verifies.mirror (abscissas : Abscissas abscissa) (verifies : Verifies n g abscissa Q h r s)
    (sum : h + h' ≡ 0 [MOD n]) : Verifies n g abscissa (-Q) h' r s := by
  refine { verifies with congruent := ?_ }
  rw [natCast_eq_neg sum, verifierPoint_neg_left, abscissas.neg]
  exact verifies.congruent

/-! ## Recovering -/

/-- **The recovered key is the one under which the verifier arrives at the point.** -/
theorem recovered_eq_iff {h r s : ZMod n} (r_ne : r ≠ 0) (s_ne : s ≠ 0) :
    recovered g R h r s = Q ↔ verifierPoint g Q h r s = R := by
  unfold recovered verifierPoint
  constructor
  · rintro rfl
    match_scalars
    · field_simp
      ring
    · field_simp
  · rintro rfl
    match_scalars
    · field_simp
      ring
    · field_simp

end EcdsaScheme
