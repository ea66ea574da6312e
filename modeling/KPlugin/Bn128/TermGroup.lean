import KPlugin.Bn128.Reference

/-!
# The group of BN128 on K terms

Addition makes the valid terms an abelian group and multiplication iterates it.
The opposite of a finite point is written with the ordinate `q - y`, which is a
residue because no ordinate is 0; for infinity that ordinate is `q` itself and is
refused.
-/

namespace KPlugin.Bn128
open ShortWeierstrass GroupCode

variable {q : ℕ} [prime : Fact q.Prime] {libff : LibffG1 q} {denotes : libff.G1 → (Curve q).Point → Prop}

/-- Infinity plus `(0, q)` is no point: the second argument is not in the field. -/
theorem add_infinity_modulus (libff : LibffG1 q) :
    hookBn128add libff ⟨0, 0⟩ ⟨0, q - 0⟩ = .error (.invalidArgument "not a member of the field") := by
  have outside : (0 : ℤ) ≥ q ∨ (q : ℤ) - 0 ≥ q := .inr (by rw [sub_zero])
  have second := getPoint_rejected libff (t := ⟨0, q - 0⟩) prime.out.pos outside
  unfold hookBn128add
  rw [second]
  rfl

/-- **The valid terms are an abelian group under addition**, the opposite of a finite
point `(x, y)` is `(x, q - y)`, and multiplication is iterated addition. -/
theorem bn128_terms_form_group (impl : libff.Implements denotes) :
    IsAbelianGroup (Valid libff) (hookBn128add libff) ⟨0, 0⟩ (G1Point.neg q) ∧
    (∀ P, Valid libff P → P ≠ ⟨0, 0⟩ → hookBn128add libff P ⟨P.x, q - P.y⟩ = .ok ⟨0, 0⟩) ∧
    (∀ P, Valid libff P → ∀ n : ℕ, n < 2 ^ 256 →
      hookBn128mul libff P n = nfold (hookBn128add libff) ⟨0, 0⟩ n P) ∧
    (∀ P, Valid libff P → hookBn128mul libff P 0 = .ok ⟨0, 0⟩) ∧
    ∀ P, Valid libff P → ∀ n : ℤ, 0 ≤ n → n + 1 < 2 ^ 256 →
      hookBn128mul libff P (n + 1) = (do let t ← hookBn128mul libff P n; hookBn128add libff t P) := by
  have iterated : ∀ P, Valid libff P → ∀ n : ℕ, n < 2 ^ 256 →
      hookBn128mul libff P n = nfold (hookBn128add libff) ⟨0, 0⟩ n P := by
    intro t valid n small
    obtain ⟨P, rfl⟩ := (impl.code.valid_iff t).mp valid
    rw [impl.mul_term P small, nfold_encode impl.add_term LibffG1.Implements.term_zero]
  refine ⟨impl.isAbelianGroup, ?_, iterated, ?_, ?_⟩
  · intro P valid finite
    rw [← impl.neg_eq valid finite]
    exact impl.isAbelianGroup.add_neg P valid
  · intro P valid
    exact iterated P valid 0 (by decide)
  · intro P valid n nonnegative small
    obtain ⟨k, rfl⟩ := Int.eq_ofNat_of_zero_le nonnegative
    have next : k + 1 < 2 ^ 256 := by exact_mod_cast small
    have cast : (k : ℤ) + 1 = ((k + 1 : ℕ) : ℤ) := by omega
    rw [cast, iterated P valid _ next, iterated P valid k (by omega)]
    rfl

/-- The point with abscissa 1. -/
theorem valid_generator : Valid (referenceLibff bnFieldModulus) ⟨1, 2⟩ := by
  have three : (3 : ZMod bnFieldModulus) ≠ 0 := bn_implements.three_ne_zero
  have equation : (2 : ZMod bnFieldModulus) ^ 2 = 1 ^ 3 + 3 := by norm_num
  have nonsingular := (nonsingular_iff bn_implements.six_ne_zero three).mpr equation
  refine (bn_implements.code.valid_iff _).mpr ⟨.some 1 2 nonsingular, ?_⟩
  change G1Point.ofResidues ((1, 2) : ZMod bnFieldModulus × ZMod bnFieldModulus) = ⟨1, 2⟩
  decide +kernel

/-- The generator, its opposite and its multiples over the group itself. -/
theorem bn128_terms_form_group_generator :
    hookBn128add (referenceLibff bnFieldModulus) ⟨1, 2⟩ ⟨1, bnFieldModulus - 2⟩ = .ok ⟨0, 0⟩ ∧
    hookBn128mul (referenceLibff bnFieldModulus) ⟨1, 2⟩ 9 =
      nfold (hookBn128add (referenceLibff bnFieldModulus)) ⟨0, 0⟩ 9 ⟨1, 2⟩ ∧
    ∃ u, hookBn128add (referenceLibff bnFieldModulus) ⟨1, 2⟩ ⟨1, 2⟩ = .ok u ∧
      Valid (referenceLibff bnFieldModulus) u := by
  obtain ⟨group, opposite, multiple, -, -⟩ := bn128_terms_form_group bn_implements
  refine ⟨opposite _ valid_generator (by decide), multiple _ valid_generator 9 (by decide), ?_⟩
  exact group.closed _ _ valid_generator valid_generator

/-- For infinity `(0, 0)` the term `(0, q - 0)` is no opposite. -/
theorem infinity_has_no_opposite_at_modulus :
    Valid (referenceLibff bnFieldModulus) ⟨0, 0⟩ ∧
    hookBn128add (referenceLibff bnFieldModulus) ⟨0, 0⟩ ⟨0, bnFieldModulus - 0⟩ ≠ .ok ⟨0, 0⟩ := by
  refine ⟨?_, ?_⟩
  · exact (bn_implements.code.valid_iff _).mpr ⟨0, LibffG1.Implements.term_zero⟩
  · rw [add_infinity_modulus]
    exact nofun

end KPlugin.Bn128
