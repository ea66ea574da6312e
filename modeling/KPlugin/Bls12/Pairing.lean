import KPlugin.Bls12.Hooks
import KPlugin.Curve.Pairing

/-!
# `hook_KRYPTO_bls12PairingCheck`

Every pair goes through the Miller loop, infinity included, and the accumulator
is multiplied in place; a coordinate of more than 384 bits is refused wherever it
stands.
-/

namespace KPlugin.Bls12
open CheckedProduct

/-- What the pairing calls of blst. The target of the Miller loop is a commutative
monoid and final exponentiation is a homomorphism on it. -/
structure BlstPairing extends Blst where
  Fp12 : Type
  [fp12 : CommMonoid Fp12]
  millerLoop : Fp2 × Fp2 → Fp × Fp → Fp12
  finalExp : Fp12 →* Fp12
  isOne : Fp12 → Bool

attribute [instance] BlstPairing.fp12

/-! ## The hook -/

/-- One iteration. -/
def pairingStep (blst : BlstPairing) (accum : blst.Fp12) (t : G1Point × G2Point) : Except Raise blst.Fp12 := do
  let p1Affine ← orInvalid "Invalid point (first)" (g1pointToBlstP1Affine blst.toBlst t.1)
  let p2Affine ← orInvalid "Invalid point (second)" (g2pointToBlstP2Affine blst.toBlst t.2)
  let millerResult := blst.millerLoop p2Affine p1Affine
  pure (accum * millerResult)

def hookBls12PairingCheck (blst : BlstPairing) (g1 : List G1Point) (g2 : List G2Point) : Except Raise Bool :=
  if g1.length ≠ g2.length then .error (.invalidArgument "mismatched list sizes")
  else do
    let accum ← (g1.zip g2).foldlM (pairingStep blst) 1
    pure (blst.isOne (blst.finalExp accum))

/-! ## The pairing it checks -/

/-- The Miller loop of a pair with infinity is mapped to one. -/
structure BlstPairing.Implements (blst : BlstPairing) : Prop where
  isOne : ∀ a, blst.isOne a = true ↔ a = 1
  infinity1 : ∀ Q, blst.finalExp (blst.millerLoop Q affineSetInfinity) = 1
  infinity2 : ∀ P, blst.finalExp (blst.millerLoop affineSetInfinity P) = 1

/-- A G1 coordinate has more than 384 bits. -/
def rejects1 (P : G1Point) : Prop := P.x ≥ 2 ^ 384 ∨ P.y ≥ 2 ^ 384

/-- A G2 coordinate has more than 384 bits. -/
def rejects2 (Q : G2Point) : Prop := Q.x0 ≥ 2 ^ 384 ∨ Q.x1 ≥ 2 ^ 384 ∨ Q.y0 ≥ 2 ^ 384 ∨ Q.y1 ≥ 2 ^ 384

/-- The term is decoded as infinity. -/
def Infinite1 (blst : Blst) (P : G1Point) : Prop := g1pointToBlstP1Affine blst P = some affineSetInfinity

/-- The term is decoded as infinity. -/
def Infinite2 (blst : Blst) (Q : G2Point) : Prop := g2pointToBlstP2Affine blst Q = some affineSetInfinity

/-- The pairing of two points: the final exponentiation of the Miller loop. -/
def blsPairing (blst : BlstPairing) (P : G1Point) (Q : G2Point) : blst.Fp12 :=
  match g1pointToBlstP1Affine blst.toBlst P, g2pointToBlstP2Affine blst.toBlst Q with
  | some p1Affine, some p2Affine => blst.finalExp (blst.millerLoop p2Affine p1Affine)
  | _, _ => 1

/-- The Miller value of a pair of terms. -/
def millerValue (blst : BlstPairing) (t : G1Point × G2Point) : Except Raise blst.Fp12 := do
  let p1Affine ← orInvalid "Invalid point (first)" (g1pointToBlstP1Affine blst.toBlst t.1)
  let p2Affine ← orInvalid "Invalid point (second)" (g2pointToBlstP2Affine blst.toBlst t.2)
  pure (blst.millerLoop p2Affine p1Affine)

theorem pairingStep_eq (blst : BlstPairing) (accum : blst.Fp12) (t : G1Point × G2Point) :
    pairingStep blst accum t = (do let v ← millerValue blst t; pure (accum * v)) := by
  unfold pairingStep millerValue
  cases g1pointToBlstP1Affine blst.toBlst t.1 with
  | none => rfl
  | some p1 =>
    cases g2pointToBlstP2Affine blst.toBlst t.2 with
    | none => rfl
    | some p2 => rfl

/-! ## Which terms decode -/

/-- Of a number that is not negative the size is that of the number. -/
theorem not_fitsFp_iff {m : ℤ} (nonnegative : 0 ≤ m) : ¬ FitsFp m ↔ m ≥ 2 ^ 384 := by
  unfold FitsFp
  omega

theorem g1_eq_none_iff (blst : Blst) {P : G1Point} (nonnegative : P.Nonnegative) :
    g1pointToBlstP1Affine blst P = none ↔ rejects1 P := by
  obtain ⟨x, y⟩ := nonnegative
  unfold rejects1
  rw [g1_decode_eq_none_iff, Fits1, not_and_or, not_fitsFp_iff x, not_fitsFp_iff y]

theorem g2_eq_none_iff (blst : Blst) {Q : G2Point} (nonnegative : Q.Nonnegative) :
    g2pointToBlstP2Affine blst Q = none ↔ rejects2 Q := by
  obtain ⟨x0, x1, y0, y1⟩ := nonnegative
  unfold rejects2
  rw [g2_decode_eq_none_iff, Fits2, not_and_or, not_and_or, not_and_or, not_fitsFp_iff x0, not_fitsFp_iff x1,
    not_fitsFp_iff y0, not_fitsFp_iff y1]

/-- A pair is refused, with `std::invalid_argument`, exactly when one of its points is. -/
theorem millerValue_cases (blst : BlstPairing) {t : G1Point × G2Point} (first : t.1.Nonnegative)
    (second : t.2.Nonnegative) :
    ((rejects1 t.1 ∨ rejects2 t.2) ∧ ∃ what, millerValue blst t = .error (.invalidArgument what)) ∨
    (¬ (rejects1 t.1 ∨ rejects2 t.2) ∧
      ∃ v, millerValue blst t = .ok v ∧ blst.finalExp v = blsPairing blst t.1 t.2) := by
  rw [← g1_eq_none_iff blst.toBlst first, ← g2_eq_none_iff blst.toBlst second]
  unfold millerValue blsPairing
  cases g1pointToBlstP1Affine blst.toBlst t.1 with
  | none => exact .inl ⟨.inl rfl, _, rfl⟩
  | some p1 =>
    cases g2pointToBlstP2Affine blst.toBlst t.2 with
    | none => exact .inl ⟨.inr rfl, _, rfl⟩
    | some p2 => exact .inr ⟨by simp, _, rfl, rfl⟩

namespace BlstPairing.Implements

variable {blst : BlstPairing}

theorem infinity (impl : blst.Implements) (P : G1Point) (Q : G2Point)
    (infinite : Infinite1 blst.toBlst P ∨ Infinite2 blst.toBlst Q) : blsPairing blst P Q = 1 := by
  unfold blsPairing
  rcases infinite with infinite | infinite
  · rw [infinite]
    cases g2pointToBlstP2Affine blst.toBlst Q with
    | none => rfl
    | some p2 => exact impl.infinity1 p2
  · rw [infinite]
    cases g1pointToBlstP1Affine blst.toBlst P with
    | none => rfl
    | some p1 => exact impl.infinity2 p1

open Classical in
/-- **The loop is a checked product of pairings.** -/
theorem checksProduct (impl : blst.Implements) :
    ChecksProduct (hookBls12PairingCheck blst) blst.finalExp (millerValue blst) rejects1 rejects2
      (blsPairing blst) where
  mismatch := fun _ _ differ => if_pos differ
  runs := by
    intro g1 g2 sameLength
    have test : ∀ a, blst.isOne a = decide (a = 1) := by
      intro a
      rw [Bool.eq_iff_iff, impl.isOne, decide_eq_true_iff]
    unfold hookBls12PairingCheck check loop
    rw [if_neg (not_not.mpr sameLength)]
    simp only [← pairingStep_eq, test]
  cases := fun _ first second => millerValue_cases blst first second

theorem contract (impl : blst.Implements) :
    PairingContract (hookBls12PairingCheck blst) rejects1 rejects2 (Infinite1 blst.toBlst) (Infinite2 blst.toBlst)
      (blsPairing blst) := by
  classical
  exact impl.checksProduct.contract impl.infinity

end BlstPairing.Implements

end KPlugin.Bls12
