import KPlugin.Bls12.Terms
import KPlugin.Lib.GroupCode

/-!
# Addition, multiplication and membership on BLS12-381

The G1 and the G2 hooks are the same programs on two sorts of terms. On a term
whose coordinates decode to the pair of a group element each of them computes
what its name says, and the canonical terms on the curve are in bijection with
the group (`TermSort.Correct.code`).
-/

namespace KPlugin.Bls12
open Radix ShortWeierstrass

/-- `if (!decoded) throw std::invalid_argument(what);`. -/
def orInvalid {α : Type} (what : String) : Option α → Except Raise α
  | some a => .ok a
  | none => .error (.invalidArgument what)

/-! ## The hooks -/

section
variable {T K : Type}

/-- `g1point_to_blst_p1`, `g2point_to_blst_p2`. -/
def TermSort.toBlst (sort : TermSort T K) (t : T) : Option sort.Point := do
  let affine ← sort.decode t
  some (sort.fromAffine affine)

/-- `blst_p1_to_g1point`, `blst_p2_to_g2point`. -/
def TermSort.ofBlst (sort : TermSort T K) (p : sort.Point) : T :=
  if sort.isInf p then sort.inf else sort.encode (sort.toAffine p)

def TermSort.add (sort : TermSort T K) (first second : T) : Except Raise T := do
  let firstBlst ← orInvalid "Invalid point (first)" (sort.toBlst first)
  let secondBlst ← orInvalid "Invalid point (second)" (sort.toBlst second)
  pure (sort.ofBlst (sort.addOrDouble firstBlst secondBlst))

/-- The two sorts differ in the number of bits they pass for the scalar 0. -/
def TermSort.mul (sort : TermSort T K) (blst : Blst) (nbits : ℤ → ℕ) (point : T) (scalar : ℤ) : Except Raise T := do
  let blstscalar ← orInvalid "Invalid scalar" (mpzPtrToBlstScalar blst scalar)
  let blstp ← orInvalid "Invalid point" (sort.toBlst point)
  pure (sort.ofBlst (sort.mult blstp blstscalar (nbits scalar)))

def TermSort.inSubgroup (sort : TermSort T K) (point : T) : Bool :=
  match sort.toBlst point with
  | none => false
  | some blstp => if sort.isInf blstp then true else sort.inG blstp

def TermSort.isOnCurve (sort : TermSort T K) (point : T) : Bool :=
  match sort.toBlst point with
  | none => false
  | some blstp => if sort.isInf blstp then true else sort.onCurve blstp

theorem TermSort.toBlst_eq {sort : TermSort T K} {t : T} {c : K × K} (decoded : sort.decode t = some c) :
    sort.toBlst t = some (sort.fromAffine c) := by
  unfold TermSort.toBlst
  rw [decoded]
  rfl

end

/-- `mpz_cmp_ui(scalar, 0) == 0 ? 0 : mpz_sizeinbase(scalar, 2)`. -/
def scalarBits (scalar : ℤ) : ℕ := if scalar = 0 then 0 else mpzSizeinbase2 scalar

def hookBls12G1Add (blst : Blst) : G1Point → G1Point → Except Raise G1Point := (g1Sort blst).add

def hookBls12G2Add (blst : Blst) : G2Point → G2Point → Except Raise G2Point := (g2Sort blst).add

def hookBls12G1Mul (blst : Blst) : G1Point → ℤ → Except Raise G1Point := (g1Sort blst).mul blst scalarBits

def hookBls12G2Mul (blst : Blst) : G2Point → ℤ → Except Raise G2Point := (g2Sort blst).mul blst mpzSizeinbase2

def hookBls12G1InSubgroup (blst : Blst) : G1Point → Bool := (g1Sort blst).inSubgroup

def hookBls12G2InSubgroup (blst : Blst) : G2Point → Bool := (g2Sort blst).inSubgroup

def hookBls12G1OnCurve (blst : Blst) : G1Point → Bool := (g1Sort blst).isOnCurve

def hookBls12G2OnCurve (blst : Blst) : G2Point → Bool := (g2Sort blst).isOnCurve

/-! ## What they compute -/

variable {T K : Type} [Field K] [DecidableEq K]

/-- The term of a group element. -/
def TermSort.term (sort : TermSort T K) {b : K} (P : (curve b).Point) : T := sort.encode (pair P)

/-- A term whose coordinates are those of a group element, canonical or not. -/
def TermSort.Decodes (sort : TermSort T K) {b : K} (t : T) (P : (curve b).Point) : Prop :=
  sort.decode t = some (pair P)

/-- A sort whose coders are inverse and whose operations compute in the group of a curve. -/
structure TermSort.Correct (sort : TermSort T K) (b : K) (canonical : T → Prop) (neg : T → T)
    (denotes : sort.Point → (curve b).Point → Prop) : Prop where
  codec : sort.Codec canonical neg
  ops : sort.toCurveOps.Implements b blsModulus denotes
  six_ne_zero : (6 : K) ≠ 0
  b_ne_zero : b ≠ 0

namespace TermSort.Correct

variable {sort : TermSort T K} {b : K} {canonical : T → Prop} {neg : T → T}
  {denotes : sort.Point → (curve b).Point → Prop}

theorem decodes_term (correct : sort.Correct b canonical neg denotes) (P : (curve b).Point) :
    sort.Decodes (sort.term P) P := correct.codec.decode_encode _

/-- Whatever denotes a group element is written as the term of that element. -/
theorem ofBlst_eq (correct : sort.Correct b canonical neg denotes) {p : sort.Point} {P : (curve b).Point}
    (stands : denotes p P) : sort.ofBlst p = sort.term P := by
  unfold TermSort.ofBlst TermSort.term
  by_cases zero : P = 0
  · rw [if_pos ((correct.ops.isInf p P stands).mpr zero), zero, pair_zero, correct.codec.encode_zero]
  · have finite : ¬ sort.isInf p = true := fun isInf => zero ((correct.ops.isInf p P stands).mp isInf)
    rw [if_neg finite, correct.ops.toAffine p P stands zero]

/-- **The curve test accepts exactly the terms of group elements.** -/
theorem isOnCurve_iff (correct : sort.Correct b canonical neg denotes) (t : T) :
    sort.isOnCurve t = true ↔ ∃ P : (curve b).Point, sort.Decodes t P := by
  unfold TermSort.isOnCurve TermSort.Decodes
  cases decoded : sort.decode t with
  | none =>
    unfold TermSort.toBlst
    simp [decoded]
  | some c =>
    rw [toBlst_eq decoded]
    by_cases on : OnCurve b c
    · obtain ⟨P, rfl⟩ := (onCurve_iff correct.six_ne_zero correct.b_ne_zero c).mp on
      have accepted := correct.ops.onCurve _ _ (correct.ops.fromAffine P)
      simp only [accepted, ite_self, true_iff]
      exact ⟨P, rfl⟩
    · obtain ⟨finite, rejected⟩ := correct.ops.fromAffine_off c on
      simp only [finite, rejected, Bool.false_eq_true, if_false, false_iff]
      rintro ⟨P, same⟩
      exact on (Option.some.inj same ▸ onCurve_pair P)

/-- **Addition adds.** -/
theorem add_eq (correct : sort.Correct b canonical neg denotes) {s t : T} {P Q : (curve b).Point}
    (first : sort.Decodes s P) (second : sort.Decodes t Q) : sort.add s t = .ok (sort.term (P + Q)) := by
  have sum := correct.ops.addOrDouble _ _ P Q (correct.ops.fromAffine P) (correct.ops.fromAffine Q)
  unfold TermSort.add
  rw [toBlst_eq first, toBlst_eq second, ← correct.ofBlst_eq sum]
  rfl

/-- **Multiplication multiplies by the residue of the scalar.** -/
theorem mul_eq (correct : sort.Correct b canonical neg denotes) {blst : Blst} (scalars : blst.ScalarCodec)
    {nbits : ℤ → ℕ} {t : T} {P : (curve b).Point} (decodes : sort.Decodes t P) {n : ℤ}
    (bounds : 0 ≤ n ∧ n < 2 ^ 256) (enough : n.toNat < 2 ^ nbits n) :
    sort.mul blst nbits t n = .ok (sort.term ((n.toNat % blsModulus) • P)) := by
  obtain ⟨scalar, stored, residue⟩ := mpzPtrToBlstScalar_eq scalars bounds
  have product := correct.ops.mult _ P scalar (nbits n) (correct.ops.fromAffine P)
  have low : lowMultiple scalar (nbits n) P = (n.toNat % blsModulus) • P := by
    unfold lowMultiple
    rw [residue, Nat.mod_eq_of_lt ((Nat.mod_le _ _).trans_lt enough)]
  rw [low] at product
  unfold TermSort.mul
  rw [stored, toBlst_eq decodes, ← correct.ofBlst_eq product]
  rfl

/-- **The subgroup test is the order test.** -/
theorem inSubgroup_iff (correct : sort.Correct b canonical neg denotes) {t : T} {P : (curve b).Point}
    (decodes : sort.Decodes t P) : sort.inSubgroup t = true ↔ blsModulus • P = 0 := by
  have stands := correct.ops.fromAffine P
  unfold TermSort.inSubgroup
  rw [toBlst_eq decodes]
  by_cases zero : P = 0
  · simp only [(correct.ops.isInf _ P stands).mpr zero, if_true, true_iff]
    rw [zero, nsmul_zero]
  · have finite : ¬ sort.isInf (sort.fromAffine (pair P)) = true :=
      fun isInf => zero ((correct.ops.isInf _ P stands).mp isInf)
    simp only [if_neg finite]
    exact correct.ops.inG _ P stands

/-- **The canonical terms on the curve name the group elements**, each once. -/
theorem code (correct : sort.Correct b canonical neg denotes) :
    GroupCode.Code (fun t => canonical t ∧ sort.isOnCurve t = true) (sort.term (b := b)) where
  valid_iff := by
    intro t
    constructor
    · rintro ⟨shape, on⟩
      obtain ⟨c, rfl⟩ := (correct.codec.canonical_iff t).mp shape
      obtain ⟨P, decodes⟩ := (correct.isOnCurve_iff _).mp on
      have same : c = pair P := Option.some.inj ((correct.codec.decode_encode c).symm.trans decodes)
      exact ⟨P, congrArg sort.encode same.symm⟩
    · rintro ⟨P, rfl⟩
      exact ⟨(correct.codec.canonical_iff _).mpr ⟨_, rfl⟩, (correct.isOnCurve_iff _).mpr ⟨P, correct.decodes_term P⟩⟩
  injective := by
    intro P Q same
    apply pair_injective correct.b_ne_zero
    have decoded := congrArg sort.decode same
    exact Option.some.inj ((correct.decodes_term P).symm.trans (decoded.trans (correct.decodes_term Q)))

/-- Addition on terms is the group's. -/
theorem add_term (correct : sort.Correct b canonical neg denotes) (P Q : (curve b).Point) :
    sort.add (sort.term P) (sort.term Q) = .ok (sort.term (P + Q)) :=
  correct.add_eq (correct.decodes_term P) (correct.decodes_term Q)

theorem term_zero (correct : sort.Correct b canonical neg denotes) :
    sort.term (0 : (curve b).Point) = sort.inf := correct.codec.encode_zero

theorem neg_term (correct : sort.Correct b canonical neg denotes) (P : (curve b).Point) :
    neg (sort.term P) = sort.term (-P) := by
  unfold TermSort.term
  rw [correct.codec.neg_encode, pair_neg]

end TermSort.Correct

/-! ## The two sorts -/

variable {blst : Blst}

theorem g1_correct (fp : blst.FpCodec) {denotes : blst.p1.Point → (curve b1).Point → Prop}
    (p1 : blst.p1.Implements b1 blsModulus denotes) :
    (g1Sort blst).Correct b1 (G1Point.Canonical blsFieldModulus) (G1Point.neg blsFieldModulus) denotes :=
  ⟨g1_codec fp, p1, six_ne_zero_fp, b1_ne_zero⟩

theorem g2_correct (fp : blst.FpCodec) {denotes : blst.p2.Point → (curve b2).Point → Prop}
    (p2 : blst.p2.Implements b2 blsModulus denotes) :
    (g2Sort blst).Correct b2 (G2Point.Canonical blsFieldModulus) (G2Point.neg blsFieldModulus) denotes :=
  ⟨g2_codec fp, p2, six_ne_zero_fp2, b2_ne_zero⟩

/-- The G1 hook passes no bit for the scalar 0, and all its bits for the others. -/
theorem lt_scalarBits {n : ℤ} (nonnegative : 0 ≤ n) : n.toNat < 2 ^ scalarBits n := by
  unfold scalarBits
  by_cases zero : n = 0
  · rw [if_pos zero, zero]
    exact Nat.one_pos
  · have bits := natAbs_lt_sizeinbase n
    have absolute : n.natAbs = n.toNat := by omega
    rwa [if_neg zero, ← absolute]

theorem lt_mpzSizeinbase2 {n : ℤ} (nonnegative : 0 ≤ n) : n.toNat < 2 ^ mpzSizeinbase2 n := by
  have absolute : n.natAbs = n.toNat := by omega
  exact absolute ▸ natAbs_lt_sizeinbase n

end KPlugin.Bls12
