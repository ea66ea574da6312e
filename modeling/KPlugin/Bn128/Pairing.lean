import KPlugin.Bn128.Hooks
import KPlugin.Curve.Pairing

/-!
# `hook_KRYPTO_bn128ate`

The loop decodes both points of a pair before it skips a pair with infinity, so a
coordinate outside the field is refused wherever it stands; a skipped pair counts
as one in the product.
-/

namespace KPlugin.Bn128
open CheckedProduct

/-- `alt_bn128_Fq2{c0, c1}`. -/
abbrev Fq2 (q : ℕ) := ZMod q × ZMod q

/-- What the pairing calls of libff. The target of the Miller loop is a commutative
monoid and final exponentiation is a homomorphism on it. -/
structure LibffPairing (q : ℕ) extends LibffG1 q where
  G2 : Type
  g2 : Fq2 q → Fq2 q → Fq2 q → G2
  g2Zero : G2
  g2IsZero : G2 → Bool
  Fq12 : Type
  [fq12 : CommMonoid Fq12]
  [decEq : DecidableEq Fq12]
  G1Precomp : Type
  G2Precomp : Type
  precomputeG1 : toLibffG1.G1 → G1Precomp
  precomputeG2 : G2 → G2Precomp
  millerLoop : G1Precomp → G2Precomp → Fq12
  finalExponentiation : Fq12 →* Fq12

attribute [instance] LibffPairing.fq12 LibffPairing.decEq

variable {q : ℕ}

/-! ## The hook -/

/-- `getPoint` of a G2 term. -/
def getPointG2 (libff : LibffPairing q) (pt : G2Point) : Except Raise libff.G2 := do
  if pt.x0 = 0 ∧ pt.x1 = 0 ∧ pt.y0 = 0 ∧ pt.y1 = 0 then return libff.g2Zero
  if pt.x0 ≥ q ∨ pt.x1 ≥ q ∨ pt.y0 ≥ q ∨ pt.y1 ≥ q then throw (.invalidArgument "not a member of the field")
  let x0 ← libff.bigint pt.x0
  let x1 ← libff.bigint pt.x1
  let y0 ← libff.bigint pt.y0
  let y1 ← libff.bigint pt.y1
  return libff.g2 (x0, x1) (y0, y1) (1, 0)

/-- One iteration. -/
def ateStep (libff : LibffPairing q) (accum : libff.Fq12) (t : G1Point × G2Point) : Except Raise libff.Fq12 := do
  let g1pt ← getPoint libff.toLibffG1 t.1
  let g2pt ← getPointG2 libff t.2
  if libff.isZero g1pt || libff.g2IsZero g2pt then return accum
  let paired := libff.millerLoop (libff.precomputeG1 g1pt) (libff.precomputeG2 g2pt)
  return accum * paired

def hookBn128ate (libff : LibffPairing q) (g1 : List G1Point) (g2 : List G2Point) : Except Raise Bool :=
  if g1.length ≠ g2.length then .error (.invalidArgument "mismatched list sizes")
  else do
    let accum ← (g1.zip g2).foldlM (ateStep libff) 1
    pure (decide (libff.finalExponentiation accum = 1))

/-! ## The pairing it checks -/

/-- Residues fit four limbs, and only `zero()` is infinity. -/
structure LibffPairing.Implements (libff : LibffPairing q) : Prop where
  positive : 0 < q
  limbs : q < 2 ^ 256
  bigint : libff.BigintConverts
  isZero_zero : libff.isZero libff.zero = true
  isZero_g1 : ∀ x y, libff.isZero (libff.g1 x y 1) = false
  g2IsZero_zero : libff.g2IsZero libff.g2Zero = true
  g2IsZero_g2 : ∀ x y, libff.g2IsZero (libff.g2 x y (1, 0)) = false

/-- A G1 coordinate is outside the field. -/
def rejects1 (q : ℕ) (P : G1Point) : Prop := P.x ≥ q ∨ P.y ≥ q

/-- A G2 coordinate is outside the field. -/
def rejects2 (q : ℕ) (Q : G2Point) : Prop := Q.x0 ≥ q ∨ Q.x1 ≥ q ∨ Q.y0 ≥ q ∨ Q.y1 ≥ q

/-- The pairing of two points: the final exponentiation of the Miller loop, one with infinity. -/
def ate (libff : LibffPairing q) (P : G1Point) (Q : G2Point) : libff.Fq12 :=
  if P = ⟨0, 0⟩ ∨ Q = ⟨0, 0, 0, 0⟩ then 1
  else
    let p := libff.g1 P.x P.y 1
    let q := libff.g2 (Q.x0, Q.x1) (Q.y0, Q.y1) (1, 0)
    libff.finalExponentiation (libff.millerLoop (libff.precomputeG1 p) (libff.precomputeG2 q))

/-- What an iteration multiplies the accumulator by. -/
def ateFactor (libff : LibffPairing q) (g1pt : libff.G1) (g2pt : libff.G2) : libff.Fq12 :=
  if libff.isZero g1pt || libff.g2IsZero g2pt then 1
  else libff.millerLoop (libff.precomputeG1 g1pt) (libff.precomputeG2 g2pt)

/-- The factor of a pair of terms. -/
def ateValue (libff : LibffPairing q) (t : G1Point × G2Point) : Except Raise libff.Fq12 := do
  let g1pt ← getPoint libff.toLibffG1 t.1
  let g2pt ← getPointG2 libff t.2
  return ateFactor libff g1pt g2pt

variable {libff : LibffPairing q}

/-- Skipping a pair is multiplying by one. -/
theorem ateStep_eq (accum : libff.Fq12) (t : G1Point × G2Point) :
    ateStep libff accum t = (do let v ← ateValue libff t; pure (accum * v)) := by
  unfold ateStep ateValue
  cases getPoint libff.toLibffG1 t.1 with
  | error raise => rfl
  | ok g1pt =>
    cases getPointG2 libff t.2 with
    | error raise => rfl
    | ok g2pt =>
      change (if (libff.isZero g1pt || libff.g2IsZero g2pt) = true then _ else _) =
        Except.ok (accum * ateFactor libff g1pt g2pt)
      unfold ateFactor
      by_cases infinite : (libff.isZero g1pt || libff.g2IsZero g2pt) = true
      · rw [if_pos infinite, if_pos infinite, mul_one]
        rfl
      · rw [if_neg infinite, if_neg infinite]
        rfl

/-! ## Decoding -/

theorem canonical_of_not_rejects1 {t : G1Point} (nonnegative : t.Nonnegative) (inside : ¬ rejects1 q t) :
    t.Canonical q := by
  unfold rejects1 at inside
  exact ⟨⟨nonnegative.1, by omega⟩, nonnegative.2, by omega⟩

theorem canonical_of_not_rejects2 {t : G2Point} (nonnegative : t.Nonnegative) (inside : ¬ rejects2 q t) :
    t.Canonical q := by
  unfold rejects2 at inside
  obtain ⟨x0, x1, y0, y1⟩ := nonnegative
  exact ⟨⟨x0, by omega⟩, ⟨x1, by omega⟩, ⟨y0, by omega⟩, y1, by omega⟩

/-- A canonical term other than infinity enters with the coordinate 1. -/
theorem getPointG2_eq (converts : libff.BigintConverts) (limbs : q < 2 ^ 256) {t : G2Point} (canonical : t.Canonical q)
    (finite : t ≠ ⟨0, 0, 0, 0⟩) : getPointG2 libff t = .ok (libff.g2 (t.x0, t.x1) (t.y0, t.y1) (1, 0)) := by
  obtain ⟨boundsX0, boundsX1, boundsY0, boundsY1⟩ := canonical
  obtain ⟨x0, limbsX0, castX0⟩ := converts.residue limbs boundsX0
  obtain ⟨x1, limbsX1, castX1⟩ := converts.residue limbs boundsX1
  obtain ⟨y0, limbsY0, castY0⟩ := converts.residue limbs boundsY0
  obtain ⟨y1, limbsY1, castY1⟩ := converts.residue limbs boundsY1
  have nonzero : ¬ (t.x0 = 0 ∧ t.x1 = 0 ∧ t.y0 = 0 ∧ t.y1 = 0) := fun zero => finite (by rw [G2Point.mk.injEq]; exact zero)
  have inField : ¬ (t.x0 ≥ q ∨ t.x1 ≥ q ∨ t.y0 ≥ q ∨ t.y1 ≥ q) := by omega
  unfold getPointG2
  rw [if_neg nonzero, if_neg inField, limbsX0, limbsX1, limbsY0, limbsY1, ← castX0, ← castX1, ← castY0, ← castY1]
  rfl

/-- A coordinate outside the field is refused. -/
theorem getPointG2_rejected (libff : LibffPairing q) {t : G2Point} (positive : 0 < q) (outside : rejects2 q t) :
    getPointG2 libff t = .error (.invalidArgument "not a member of the field") := by
  unfold rejects2 at outside
  have nonzero : ¬ (t.x0 = 0 ∧ t.x1 = 0 ∧ t.y0 = 0 ∧ t.y1 = 0) := by omega
  unfold getPointG2
  rw [if_neg nonzero, if_pos outside]
  rfl

/-! ## The contract -/

namespace LibffPairing.Implements

theorem getPoint_accepted (impl : libff.Implements) {P : G1Point} (nonnegative : P.Nonnegative)
    (inField : ¬ rejects1 q P) : ∃ p, getPoint libff.toLibffG1 P = .ok p ∧
      (P = ⟨0, 0⟩ ∧ libff.isZero p = true ∨ P ≠ ⟨0, 0⟩ ∧ libff.isZero p = false ∧ p = libff.g1 P.x P.y 1) := by
  have canonical := canonical_of_not_rejects1 nonnegative inField
  by_cases origin : P = ⟨0, 0⟩
  · exact ⟨libff.zero, by rw [origin]; rfl, .inl ⟨origin, impl.isZero_zero⟩⟩
  · exact ⟨_, getPoint_eq impl.bigint impl.limbs canonical origin, .inr ⟨origin, impl.isZero_g1 _ _, rfl⟩⟩

theorem getPointG2_accepted (impl : libff.Implements) {Q : G2Point} (nonnegative : Q.Nonnegative)
    (inField : ¬ rejects2 q Q) : ∃ p, getPointG2 libff Q = .ok p ∧
      (Q = ⟨0, 0, 0, 0⟩ ∧ libff.g2IsZero p = true ∨
        Q ≠ ⟨0, 0, 0, 0⟩ ∧ libff.g2IsZero p = false ∧ p = libff.g2 (Q.x0, Q.x1) (Q.y0, Q.y1) (1, 0)) := by
  have canonical := canonical_of_not_rejects2 nonnegative inField
  by_cases origin : Q = ⟨0, 0, 0, 0⟩
  · exact ⟨libff.g2Zero, by rw [origin]; rfl, .inl ⟨origin, impl.g2IsZero_zero⟩⟩
  · exact ⟨_, getPointG2_eq impl.bigint impl.limbs canonical origin, .inr ⟨origin, impl.g2IsZero_g2 _ _, rfl⟩⟩

/-- A pair is refused, with `std::invalid_argument`, exactly when one of its points is. -/
theorem ateValue_cases (impl : libff.Implements) {t : G1Point × G2Point} (first : t.1.Nonnegative)
    (second : t.2.Nonnegative) :
    ((rejects1 q t.1 ∨ rejects2 q t.2) ∧ ∃ what, ateValue libff t = .error (.invalidArgument what)) ∨
    (¬ (rejects1 q t.1 ∨ rejects2 q t.2) ∧
      ∃ v, ateValue libff t = .ok v ∧ libff.finalExponentiation v = ate libff t.1 t.2) := by
  unfold ateValue
  by_cases outside1 : rejects1 q t.1
  · rw [getPoint_rejected libff.toLibffG1 impl.positive outside1]
    exact .inl ⟨.inl outside1, _, rfl⟩
  · obtain ⟨p1, point1, kind1⟩ := impl.getPoint_accepted first outside1
    rw [point1]
    by_cases outside2 : rejects2 q t.2
    · rw [getPointG2_rejected libff impl.positive outside2]
      exact .inl ⟨.inr outside2, _, rfl⟩
    · obtain ⟨p2, point2, kind2⟩ := impl.getPointG2_accepted second outside2
      rw [point2]
      refine .inr ⟨fun outside => outside.elim outside1 outside2, ateFactor libff p1 p2, rfl, ?_⟩
      unfold ateFactor ate
      rcases kind1 with ⟨origin1, zero1⟩ | ⟨finite1, zero1, rfl⟩
      · rw [zero1, Bool.true_or, if_pos rfl, if_pos (.inl origin1), map_one]
      · rcases kind2 with ⟨origin2, zero2⟩ | ⟨finite2, zero2, rfl⟩
        · rw [zero2, Bool.or_true, if_pos rfl, if_pos (.inr origin2), map_one]
        · rw [zero1, zero2, Bool.or_self, if_neg Bool.false_ne_true, if_neg fun origin => origin.elim finite1 finite2]

/-- **The loop is a checked product of pairings.** -/
theorem checksProduct (impl : libff.Implements) :
    ChecksProduct (hookBn128ate libff) libff.finalExponentiation (ateValue libff) (rejects1 q) (rejects2 q)
      (ate libff) where
  mismatch := fun _ _ differ => if_pos differ
  runs := by
    intro g1 g2 sameLength
    unfold hookBn128ate check loop
    rw [if_neg (not_not.mpr sameLength)]
    simp only [← ateStep_eq]
  cases := fun _ first second => impl.ateValue_cases first second

theorem contract (impl : libff.Implements) :
    PairingContract (hookBn128ate libff) (rejects1 q) (rejects2 q) (fun P => P = ⟨0, 0⟩)
      (fun Q => Q = ⟨0, 0, 0, 0⟩) (ate libff) := by
  refine impl.checksProduct.contract ?_
  intro P Q infinite
  exact if_pos infinite

end LibffPairing.Implements

end KPlugin.Bn128
