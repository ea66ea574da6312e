import KPlugin.Bls12.Pairing
import KPlugin.Bls12.Reference
import KPlugin.Bn128.Pairing
import KPlugin.Bn128.Reference

/-!
# The two pairing checks

Both hooks keep the contract of a pairing check, each with its own decoder, its
own infinity and its own pairing.
-/

namespace KPlugin
open Bls12 Bn128

/-- **Both pairing hooks keep the contract**: which lists they refuse, what they
answer otherwise, and that neither depends on the order of the pairs or on pairs
with infinity. -/
theorem pairing_checks_keep_contract {q : ℕ} {libff : LibffPairing q} (bn128 : libff.Implements) {blst : BlstPairing}
    (bls12 : blst.Implements) :
    PairingContract (hookBn128ate libff) (Bn128.rejects1 q) (Bn128.rejects2 q) (fun P => P = ⟨0, 0⟩)
      (fun Q => Q = ⟨0, 0, 0, 0⟩) (ate libff) ∧
    PairingContract (hookBls12PairingCheck blst) Bls12.rejects1 Bls12.rejects2 (Infinite1 blst.toBlst)
      (Infinite2 blst.toBlst) (blsPairing blst) :=
  ⟨bn128.contract, bls12.contract⟩

/-! ## On the generators -/

/-- The pairing of multiples of the generators, written additively, as far as the
abscissa 1 and its two ordinates go. -/
noncomputable def referencePairing : LibffPairing bnFieldModulus where
  toLibffG1 := referenceLibff bnFieldModulus
  G2 := Option (Fq2 bnFieldModulus × Fq2 bnFieldModulus)
  g2 x y _ := some (x, y)
  g2Zero := none
  g2IsZero := Option.isNone
  Fq12 := Multiplicative ℤ
  G1Precomp := ZMod bnFieldModulus
  G2Precomp := Option (Fq2 bnFieldModulus × Fq2 bnFieldModulus)
  precomputeG1 p := (p.elim ShortWeierstrass.pair id).2
  precomputeG2 p := p
  millerLoop y _ := if y = 2 then .ofAdd 1 else if y = -2 then .ofAdd (-1) else 1
  finalExponentiation := MonoidHom.id _

theorem referencePairing_implements : referencePairing.Implements where
  positive := by decide
  limbs := bn_implements.limbs
  bigint := bn_implements.bigint
  isZero_zero := (bn_implements.isZero _ 0 rfl).mpr rfl
  isZero_g1 := by
    intro x y
    by_cases on : (Curve bnFieldModulus).Equation x y
    · have nonsingular :=
        (ShortWeierstrass.nonsingular_iff bn_implements.six_ne_zero bn_implements.three_ne_zero).mpr
          (ShortWeierstrass.equation_iff.mp on)
      have finite := WeierstrassCurve.Affine.Point.some_ne_zero nonsingular
      have stands := bn_implements.g1 x y nonsingular
      exact Bool.eq_false_iff.mpr fun zero => finite ((bn_implements.isZero _ _ stands).mp zero)
    · have off : (referenceLibff bnFieldModulus).g1 x y 1 = Sum.inr (x, y) := if_neg on
      change (referenceLibff bnFieldModulus).isZero ((referenceLibff bnFieldModulus).g1 x y 1) = false
      rw [off]
      rfl
  g2IsZero_zero := rfl
  g2IsZero_g2 := fun _ _ => rfl

/-- The same for the generators of BLS12-381. -/
def referenceMillerLoop (Q : Fp2 × Fp2) (P : Fp × Fp) : Multiplicative ℤ :=
  if P = affineSetInfinity ∨ Q = affineSetInfinity then 1
  else if P.2 = g1Generator.y then .ofAdd 1
  else if P.2 = -g1Generator.y then .ofAdd (-1)
  else 1

noncomputable def referenceBlstPairing : BlstPairing where
  toBlst := referenceBlst
  Fp12 := Multiplicative ℤ
  millerLoop := referenceMillerLoop
  finalExp := MonoidHom.id _
  isOne := fun a : Multiplicative ℤ => decide (a = 1)

theorem referenceMillerLoop_infinity {Q : Fp2 × Fp2} {P : Fp × Fp}
    (infinite : P = affineSetInfinity ∨ Q = affineSetInfinity) : referenceMillerLoop Q P = 1 := if_pos infinite

theorem referenceBlstPairing_implements : referenceBlstPairing.Implements where
  isOne := by
    intro a
    change decide ((show Multiplicative ℤ from a) = 1) = true ↔ (show Multiplicative ℤ from a) = 1
    exact decide_eq_true_iff
  infinity1 := fun Q => referenceMillerLoop_infinity (Q := Q) (.inl rfl)
  infinity2 := fun P => referenceMillerLoop_infinity (P := P) (.inr rfl)

/-- A coordinate outside the field is refused even next to infinity, two pairs may
be exchanged, and infinity pairs to one. -/
theorem pairing_checks_keep_contract_generators :
    (∃ what, hookBn128ate referencePairing [⟨0, 0⟩, ⟨bnFieldModulus, 0⟩] [⟨0, 0, 0, 0⟩, ⟨0, 0, 0, 0⟩] =
      .error (.invalidArgument what)) ∧
    outcome (hookBn128ate referencePairing) [(⟨1, 2⟩, ⟨0, 0, 0, 0⟩), (⟨0, 0⟩, ⟨3, 5, 7, 11⟩)] =
      outcome (hookBn128ate referencePairing) [(⟨0, 0⟩, ⟨3, 5, 7, 11⟩), (⟨1, 2⟩, ⟨0, 0, 0, 0⟩)] ∧
    hookBls12PairingCheck referenceBlstPairing [⟨0, 0⟩] [g2Generator] = .ok true := by
  obtain ⟨bn128, bls12⟩ := pairing_checks_keep_contract referencePairing_implements referenceBlstPairing_implements
  refine ⟨bn128.raises _ _ ?_ ?_ ?_, bn128.perm _ _ ?_ (.swap _ _ _), ?_⟩
  · simp [G1Point.Nonnegative]
  · simp [G2Point.Nonnegative]
  · exact .inr (.inl ⟨_, List.mem_cons_of_mem _ List.mem_cons_self, .inl le_rfl⟩)
  · simp [NonnegativePairs, G1Point.Nonnegative, G2Point.Nonnegative]
  · have accepted : ¬ Refused Bls12.rejects1 Bls12.rejects2 [(⟨0, 0⟩ : G1Point)] [g2Generator] := by
      simp only [Refused, Bls12.rejects1, Bls12.rejects2, List.mem_singleton, exists_eq_left]
      decide +kernel
    obtain ⟨answer, run, same⟩ := bls12.answers [⟨0, 0⟩] [g2Generator] (by simp [G1Point.Nonnegative])
      (by simp [G2Point.Nonnegative, g2Generator]) accepted
    have one : blsPairing referenceBlstPairing ⟨0, 0⟩ g2Generator = 1 := bls12.infinity _ _ (.inl rfl)
    have product : (([(⟨0, 0⟩ : G1Point)].zip [g2Generator]).map fun t =>
        blsPairing referenceBlstPairing t.1 t.2).prod = 1 := by
      simp only [List.zip_cons_cons, List.zip_nil_right, List.map_cons, List.map_nil, List.prod_singleton, one]
    rw [run, same.mpr product]

end KPlugin
