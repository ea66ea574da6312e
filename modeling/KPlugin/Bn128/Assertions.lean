import KPlugin.Bn128.Validity

/-!
# Which calls keep libff's assertion

The limb constructor of libff asserts that its argument fits four limbs. A call keeps
the assertion when everything it converts does: then it returns or refuses, and a
constructor that behaves otherwise on other integers makes no difference. The loop of
the pairing check stops at the first point it refuses and converts nothing after it.
-/

namespace KPlugin.Bn128

variable {q : ℕ} {α β : Type}

/-! ## Calls -/

/-- A call, as a function of the limb constructor, returns or throws `std::invalid_argument`,
and whatever the constructor does outside its domain makes no difference. -/
structure StaysInDomain (libff : LibffG1 q) (call : (ℤ → Except Raise ℕ) → Except Raise α) : Prop where
  outcome : (∃ v, call libff.bigint = .ok v) ∨ ∃ what, call libff.bigint = .error (.invalidArgument what)
  domain : ∀ bigint, libff.AgreesInside bigint → call bigint = call libff.bigint

section
variable {libff : LibffG1 q} {call : (ℤ → Except Raise ℕ) → Except Raise α}

theorem not_staysInDomain (failed : call libff.bigint = .error .assertFailed) : ¬ StaysInDomain libff call := by
  rintro ⟨⟨v, returned⟩ | ⟨what, refused⟩, -⟩
  · rw [failed] at returned
    cases returned
  · rw [failed] at refused
    cases refused

theorem StaysInDomain.of_returns {v : α} (returns : ∀ bigint, call bigint = .ok v) : StaysInDomain libff call where
  outcome := .inl ⟨v, returns libff.bigint⟩
  domain := fun bigint _ => (returns bigint).trans (returns libff.bigint).symm

/-- **Two calls in a row** stay in the domain when the first does and, if it returns, the second. -/
theorem StaysInDomain.bind {next : (ℤ → Except Raise ℕ) → α → Except Raise β} (first : StaysInDomain libff call)
    (second : ∀ v, call libff.bigint = .ok v → StaysInDomain libff fun bigint => next bigint v) :
    StaysInDomain libff fun bigint => call bigint >>= next bigint := by
  constructor
  · rcases first.outcome with ⟨v, returned⟩ | ⟨what, refused⟩
    · rw [returned]
      exact (second v returned).outcome
    · rw [refused]
      exact .inr ⟨what, rfl⟩
  · intro bigint agrees
    simp only [first.domain bigint agrees]
    rcases first.outcome with ⟨v, returned⟩ | ⟨what, refused⟩
    · rw [returned]
      exact (second v returned).domain bigint agrees
    · rw [refused]
      rfl

end

/-! ## Single conversions -/

section
variable {libff : LibffG1 q}

theorem LibffG1.FourLimbs.bigint_stays (limbs : libff.FourLimbs) {m : ℤ} (inside : InDomain m) :
    StaysInDomain libff fun bigint => bigint m where
  outcome := .inl ⟨_, limbs.converts m inside.1 inside.2⟩
  domain := fun _ agrees => agrees m inside

theorem LibffG1.FourLimbs.getPoint_stays (limbs : libff.FourLimbs) {t : G1Point} (safe : Safe1 q t) :
    StaysInDomain libff fun bigint => getPoint (libff.withBigint bigint) t where
  outcome := (limbs.getPoint_ends t).outcome safe
  domain := fun _ agrees => getPoint_withBigint limbs agrees safe

/-- A call that goes on with a point is reached when the point enters. -/
theorem LibffG1.FourLimbs.getPoint_bind_stays (limbs : libff.FourLimbs) {t : G1Point}
    {next : (ℤ → Except Raise ℕ) → libff.G1 → Except Raise α}
    (kept : rejects1 q t ∨ (t.Nonnegative ∧ ∀ p, StaysInDomain libff fun bigint => next bigint p)) :
    StaysInDomain libff fun bigint => getPoint (libff.withBigint bigint) t >>= next bigint := by
  refine (limbs.getPoint_stays (kept.symm.imp And.left id)).bind fun p entered => ?_
  rcases kept with outside | ⟨-, stays⟩
  · have refused := getPoint_rejected libff limbs.positive outside
    exact absurd (refused.symm.trans entered) (by simp)
  · exact stays p

theorem LibffG1.FourLimbs.getPointG2_stays {libff : LibffPairing q} (limbs : libff.FourLimbs) {t : G2Point}
    (safe : Safe2 q t) : StaysInDomain libff.toLibffG1 fun bigint => getPointG2 (libff.withBigint bigint) t where
  outcome := (limbs.getPointG2_ends t).outcome safe
  domain := fun _ agrees => getPointG2_withBigint limbs agrees safe

/-! ## Addition and multiplication -/

/-- The other order in which the compiler may evaluate the operands of the sum. -/
def hookBn128addRightFirst (libff : LibffG1 q) (pt1 pt2 : G1Point) : Except Raise G1Point := do
  let p2 ← getPoint libff pt2
  let p1 ← getPoint libff pt1
  return projectPoint libff (libff.add p1 p2)

/-- **Two points one after the other**: the second one is converted only when the first one enters. -/
theorem LibffG1.FourLimbs.two_points_stay_iff (limbs : libff.FourLimbs) (first second : G1Point)
    (finish : libff.G1 → libff.G1 → α) :
    (StaysInDomain libff fun bigint => do
      let p ← getPoint (libff.withBigint bigint) first
      let p' ← getPoint (libff.withBigint bigint) second
      return finish p p') ↔ rejects1 q first ∨ (first.Nonnegative ∧ Safe1 q second) := by
  constructor
  · intro stays
    by_contra bad
    have inside : ¬ rejects1 q first := fun outside => bad (.inl outside)
    have failed : (do
        let p ← getPoint libff first
        let p' ← getPoint libff second
        return finish p p') = .error .assertFailed := by
      by_cases nonnegative : first.Nonnegative
      · obtain ⟨p, entered⟩ := (limbs.getPoint_ends first).entered nonnegative inside
        have bad2 : ¬ Safe1 q second := fun safe => bad (.inr ⟨nonnegative, safe⟩)
        rw [entered, limbs.getPoint_fails bad2]
        rfl
      · have bad1 : ¬ Safe1 q first := fun safe => safe.elim nonnegative inside
        rw [limbs.getPoint_fails bad1]
        rfl
    exact not_staysInDomain failed stays
  · intro kept
    refine limbs.getPoint_bind_stays (kept.imp_right (And.imp_right fun safe p => ?_))
    refine (limbs.getPoint_stays safe).bind fun p' _ => ?_
    exact .of_returns (v := finish p p') fun _ => rfl

/-- **Addition** evaluates one operand first and the other one when that point enters. -/
theorem LibffG1.FourLimbs.add_stays_iff (limbs : libff.FourLimbs) (pt1 pt2 : G1Point) :
    ((StaysInDomain libff fun bigint => hookBn128add (libff.withBigint bigint) pt1 pt2) ↔
      rejects1 q pt1 ∨ (pt1.Nonnegative ∧ Safe1 q pt2)) ∧
    ((StaysInDomain libff fun bigint => hookBn128addRightFirst (libff.withBigint bigint) pt1 pt2) ↔
      rejects1 q pt2 ∨ (pt2.Nonnegative ∧ Safe1 q pt1)) :=
  ⟨limbs.two_points_stay_iff pt1 pt2 fun p1 p2 => projectPoint libff (libff.add p1 p2),
    limbs.two_points_stay_iff pt2 pt1 fun p2 p1 => projectPoint libff (libff.add p1 p2)⟩

/-- In either order it keeps the assertion when both points are safe. -/
theorem LibffG1.FourLimbs.add_stays_both_iff (limbs : libff.FourLimbs) (pt1 pt2 : G1Point) :
    (StaysInDomain libff (fun bigint => hookBn128add (libff.withBigint bigint) pt1 pt2) ∧
      StaysInDomain libff fun bigint => hookBn128addRightFirst (libff.withBigint bigint) pt1 pt2) ↔
      Safe1 q pt1 ∧ Safe1 q pt2 := by
  obtain ⟨left, right⟩ := limbs.add_stays_iff pt1 pt2
  rw [left, right]
  unfold Safe1
  tauto

/-- The scalar is converted before the point is looked at. -/
theorem LibffG1.FourLimbs.mul_fails (limbs : libff.FourLimbs) (pt : G1Point) {scalar : ℤ} (outside : ¬ InDomain scalar) :
    hookBn128mul libff pt scalar = .error .assertFailed := by
  unfold hookBn128mul
  rw [limbs.asserts scalar outside]
  rfl

/-- **Multiplication** keeps it when the scalar fits and the point is safe. -/
theorem LibffG1.FourLimbs.mul_stays_iff (limbs : libff.FourLimbs) (pt : G1Point) (scalar : ℤ) :
    (StaysInDomain libff fun bigint => hookBn128mul (libff.withBigint bigint) pt scalar) ↔
      InDomain scalar ∧ Safe1 q pt := by
  constructor
  · intro stays
    have inside : InDomain scalar := by
      by_contra outside
      exact not_staysInDomain (limbs.mul_fails pt outside) stays
    refine ⟨inside, ?_⟩
    by_contra bad
    apply not_staysInDomain _ stays
    change hookBn128mul libff pt scalar = _
    unfold hookBn128mul
    rw [limbs.converts scalar inside.1 inside.2, limbs.getPoint_fails bad]
    rfl
  · rintro ⟨inside, safe⟩
    have product : ∀ (n : ℕ) (p : libff.G1), StaysInDomain libff fun bigint =>
        pure (projectPoint (libff.withBigint bigint) (libff.smul n p)) :=
      fun n p => .of_returns (v := projectPoint libff (libff.smul n p)) fun _ => rfl
    exact (limbs.bigint_stays inside).bind fun n _ => (limbs.getPoint_stays safe).bind fun p _ => product n p

end

/-! ## The pairing check -/

/-- Before the first point of the pairs, in the order of the loop, that has a coordinate
from the modulus up, no coordinate is negative. -/
def Guarded (q : ℕ) : List (G1Point × G2Point) → Prop
  | [] => True
  | t :: rest => rejects1 q t.1 ∨ (t.1.Nonnegative ∧ (rejects2 q t.2 ∨ (t.2.Nonnegative ∧ Guarded q rest)))

section
variable {libff : LibffPairing q}

/-- What an iteration does with two points that enter. -/
theorem ateStep_enters {accum : libff.Fq12} {t : G1Point × G2Point} {p : libff.G1} {p' : libff.G2}
    (first : getPoint libff.toLibffG1 t.1 = .ok p) (second : getPointG2 libff t.2 = .ok p') :
    ateStep libff accum t = .ok (accum * ateFactor libff p p') := by
  rw [ateStep_eq, ateValue, first, second]
  rfl

/-- An iteration that goes on has refused neither point. -/
theorem LibffG1.FourLimbs.not_rejected (limbs : libff.FourLimbs) {accum accum' : libff.Fq12} {t : G1Point × G2Point}
    (returned : ateStep libff accum t = .ok accum') : ¬ rejects1 q t.1 ∧ ¬ rejects2 q t.2 := by
  unfold ateStep at returned
  constructor
  · intro outside
    rw [getPoint_rejected libff.toLibffG1 limbs.positive outside] at returned
    cases returned
  · intro outside
    rw [getPointG2_rejected libff limbs.positive outside] at returned
    cases first : getPoint libff.toLibffG1 t.1 with
    | error raise =>
      rw [first] at returned
      cases returned
    | ok p =>
      rw [first] at returned
      cases returned

/-- An iteration decodes its second point after the first one. -/
theorem LibffG1.FourLimbs.ateStep_stays (limbs : libff.FourLimbs) {t : G1Point × G2Point}
    (guarded : rejects1 q t.1 ∨ (t.1.Nonnegative ∧ Safe2 q t.2)) (accum : libff.Fq12) :
    StaysInDomain libff.toLibffG1 fun bigint => ateStep (libff.withBigint bigint) accum t := by
  refine limbs.getPoint_bind_stays (guarded.imp_right (And.imp_right fun safe2 p1 => ?_))
  refine (limbs.getPointG2_stays safe2).bind fun p2 _ => ?_
  by_cases infinite : (libff.isZero p1 || libff.g2IsZero p2) = true
  · exact .of_returns (v := accum) fun _ => if_pos infinite
  · let paired := libff.millerLoop (libff.precomputeG1 p1) (libff.precomputeG2 p2)
    exact .of_returns (v := accum * paired) fun _ => if_neg infinite

/-- **The loop** keeps the assertion on guarded pairs, whatever was multiplied before. -/
theorem LibffG1.FourLimbs.loop_stays (limbs : libff.FourLimbs) {pairs : List (G1Point × G2Point)}
    (guarded : Guarded q pairs) (accum : libff.Fq12) :
    StaysInDomain libff.toLibffG1 fun bigint => pairs.foldlM (ateStep (libff.withBigint bigint)) accum := by
  induction pairs generalizing accum with
  | nil => exact .of_returns fun _ => rfl
  | cons t rest ih =>
    have step : rejects1 q t.1 ∨ (t.1.Nonnegative ∧ Safe2 q t.2) :=
      guarded.imp_right (And.imp_right fun second => second.symm.imp And.left id)
    refine (limbs.ateStep_stays step accum).bind fun accum' returned => ?_
    obtain ⟨inside1, inside2⟩ := limbs.not_rejected returned
    exact ih ((guarded.resolve_left inside1).2.resolve_left inside2).2 accum'

/-- On other pairs the assertion fails. -/
theorem LibffG1.FourLimbs.loop_fails (limbs : libff.FourLimbs) {pairs : List (G1Point × G2Point)}
    (bad : ¬ Guarded q pairs) (accum : libff.Fq12) : pairs.foldlM (ateStep libff) accum = .error .assertFailed := by
  induction pairs generalizing accum with
  | nil => exact absurd trivial bad
  | cons t rest ih =>
    rw [List.foldlM_cons]
    have inside1 : ¬ rejects1 q t.1 := fun outside => bad (.inl outside)
    by_cases nonnegative1 : t.1.Nonnegative
    · have inside2 : ¬ rejects2 q t.2 := fun outside => bad (.inr ⟨nonnegative1, .inl outside⟩)
      obtain ⟨p1, first⟩ := (limbs.getPoint_ends t.1).entered nonnegative1 inside1
      by_cases nonnegative2 : t.2.Nonnegative
      · obtain ⟨p2, second⟩ := (limbs.getPointG2_ends t.2).entered nonnegative2 inside2
        rw [ateStep_enters first second]
        exact ih (fun guarded => bad (.inr ⟨nonnegative1, .inr ⟨nonnegative2, guarded⟩⟩)) _
      · have failed := (limbs.getPointG2_ends t.2).failed fun safe => safe.elim nonnegative2 inside2
        rw [ateStep, first, failed]
        rfl
    · have failed := (limbs.getPoint_ends t.1).failed fun safe => safe.elim nonnegative1 inside1
      rw [ateStep, failed]
      rfl

/-- A pairing check of other pairs fails the assertion. -/
theorem LibffG1.FourLimbs.ate_fails (limbs : libff.FourLimbs) {g1 : List G1Point} {g2 : List G2Point}
    (same : g1.length = g2.length) (bad : ¬ Guarded q (g1.zip g2)) : hookBn128ate libff g1 g2 = .error .assertFailed := by
  unfold hookBn128ate
  rw [if_neg (not_not.mpr same), limbs.loop_fails bad]
  rfl

/-- **The pairing check** keeps the assertion on lists that do not match and on guarded pairs. -/
theorem LibffG1.FourLimbs.ate_stays_iff (limbs : libff.FourLimbs) (g1 : List G1Point) (g2 : List G2Point) :
    (StaysInDomain libff.toLibffG1 fun bigint => hookBn128ate (libff.withBigint bigint) g1 g2) ↔
      g1.length ≠ g2.length ∨ Guarded q (g1.zip g2) := by
  by_cases differ : g1.length ≠ g2.length
  · have refused : ∀ libff' : LibffPairing q,
        hookBn128ate libff' g1 g2 = .error (.invalidArgument "mismatched list sizes") := fun _ => if_pos differ
    exact iff_of_true ⟨.inr ⟨_, refused _⟩, fun _ _ => (refused _).trans (refused _).symm⟩ (.inl differ)
  · have run : ∀ libff' : LibffPairing q, hookBn128ate libff' g1 g2 = (do
        let accum ← (g1.zip g2).foldlM (ateStep libff') 1
        pure (decide (libff'.finalExponentiation accum = 1))) := fun _ => if_neg differ
    rw [or_iff_right differ]
    constructor
    · intro stays
      by_contra bad
      exact not_staysInDomain (limbs.ate_fails (not_not.mp differ) bad) stays
    · intro guarded
      simp only [run]
      refine (limbs.loop_stays guarded 1).bind fun accum _ => ?_
      exact .of_returns (v := decide (libff.finalExponentiation accum = 1)) fun _ => rfl

end

/-- **The exact calls that keep the assertion**: sums of points and products by scalars
of 256 bits, the points having no negative coordinate or one from the modulus up; and
pairing checks on lists that do not match or without a negative coordinate before the
first point that is refused. A sum in one order does not look at the other point when
the one it converts first is refused. -/
theorem calls_stay_in_domain_iff {libff : LibffPairing q} (limbs : libff.FourLimbs) :
    (∀ pt1 pt2, (StaysInDomain libff.toLibffG1 (fun bigint => hookBn128add (libff.toLibffG1.withBigint bigint) pt1 pt2) ∧
        StaysInDomain libff.toLibffG1 fun bigint =>
          hookBn128addRightFirst (libff.toLibffG1.withBigint bigint) pt1 pt2) ↔ Safe1 q pt1 ∧ Safe1 q pt2) ∧
    (∀ pt1 pt2, ((StaysInDomain libff.toLibffG1 fun bigint =>
        hookBn128add (libff.toLibffG1.withBigint bigint) pt1 pt2) ↔
          rejects1 q pt1 ∨ (pt1.Nonnegative ∧ Safe1 q pt2)) ∧
      ((StaysInDomain libff.toLibffG1 fun bigint =>
        hookBn128addRightFirst (libff.toLibffG1.withBigint bigint) pt1 pt2) ↔
          rejects1 q pt2 ∨ (pt2.Nonnegative ∧ Safe1 q pt1))) ∧
    (∀ pt scalar, (StaysInDomain libff.toLibffG1 fun bigint =>
        hookBn128mul (libff.toLibffG1.withBigint bigint) pt scalar) ↔ InDomain scalar ∧ Safe1 q pt) ∧
    ∀ g1 g2, (StaysInDomain libff.toLibffG1 fun bigint => hookBn128ate (libff.withBigint bigint) g1 g2) ↔
      g1.length ≠ g2.length ∨ Guarded q (g1.zip g2) :=
  ⟨limbs.add_stays_both_iff, limbs.add_stays_iff, limbs.mul_stays_iff, limbs.ate_stays_iff⟩

/-- A sum with a coordinate that is refused, a product by the largest scalar and the
pairing of infinity keep it. -/
theorem calls_stay_in_domain_generator :
    (StaysInDomain (referenceLibff bnFieldModulus) fun bigint =>
      hookBn128add ((referenceLibff bnFieldModulus).withBigint bigint) ⟨1, 2⟩ ⟨-1, bnFieldModulus⟩) ∧
    (StaysInDomain (referenceLibff bnFieldModulus) fun bigint =>
      hookBn128mul ((referenceLibff bnFieldModulus).withBigint bigint) ⟨1, 2⟩ (2 ^ 256 - 1)) ∧
    StaysInDomain (referenceLibff bnFieldModulus) fun bigint =>
      hookBn128ate (referenceLibffG2.toLibffPairing.withBigint bigint) [⟨0, 0⟩] [⟨0, 0, 0, 0⟩] := by
  have limbs : referenceLibffG2.FourLimbs := referenceLibff_fourLimbs
  obtain ⟨add, -, mul, ate⟩ := calls_stay_in_domain_iff limbs
  refine ⟨((add _ _).mpr ⟨?_, ?_⟩).1, (mul _ _).mpr ⟨?_, ?_⟩, (ate _ _).mpr (.inr ?_)⟩
  · exact .inl ⟨by decide, by decide⟩
  · exact .inr (.inr le_rfl)
  · exact ⟨by decide, by decide⟩
  · exact .inl ⟨by decide, by decide⟩
  · exact .inr ⟨⟨le_rfl, le_rfl⟩, .inr ⟨⟨le_rfl, le_rfl, le_rfl, le_rfl⟩, trivial⟩⟩

/-- A negative coordinate, a negative scalar and one of 257 bits reach the constructor. -/
theorem calls_leave_domain :
    (hookBn128add (referenceLibff bnFieldModulus) ⟨1, 2⟩ ⟨1, -2⟩ = .error .assertFailed ∧
      hookBn128mul (referenceLibff bnFieldModulus) ⟨1, 2⟩ (-1) = .error .assertFailed ∧
      hookBn128mul (referenceLibff bnFieldModulus) ⟨1, 2⟩ (2 ^ 256) = .error .assertFailed ∧
      hookBn128ate referenceLibffG2.toLibffPairing [⟨1, -2⟩] [⟨0, 0, 0, 0⟩] = .error .assertFailed) ∧
    (¬ ∀ pt1 pt2, StaysInDomain (referenceLibff bnFieldModulus) fun bigint =>
      hookBn128add ((referenceLibff bnFieldModulus).withBigint bigint) pt1 pt2) ∧
    (¬ ∀ pt scalar, StaysInDomain (referenceLibff bnFieldModulus) fun bigint =>
      hookBn128mul ((referenceLibff bnFieldModulus).withBigint bigint) pt scalar) ∧
    ¬ ∀ g1 g2, StaysInDomain (referenceLibff bnFieldModulus) fun bigint =>
      hookBn128ate (referenceLibffG2.toLibffPairing.withBigint bigint) g1 g2 := by
  have limbs : referenceLibffG2.FourLimbs := referenceLibff_fourLimbs
  have negative : ¬ Safe1 bnFieldModulus ⟨1, -2⟩ := by
    unfold Safe1 G1Point.Nonnegative rejects1
    decide
  have unguarded : ¬ Guarded bnFieldModulus [(⟨1, -2⟩, ⟨0, 0, 0, 0⟩)] := by
    rintro (outside | ⟨nonnegative, -⟩)
    · exact negative (.inr outside)
    · exact negative (.inl nonnegative)
  have generator : getPoint (referenceLibff bnFieldModulus) ⟨1, 2⟩ = .ok _ :=
    getPoint_eq bn_implements.bigint bn_implements.limbs (by unfold G1Point.Canonical; decide) (by decide)
  have add : hookBn128add (referenceLibff bnFieldModulus) ⟨1, 2⟩ ⟨1, -2⟩ = .error .assertFailed := by
    unfold hookBn128add
    rw [generator, referenceLibff_fourLimbs.getPoint_fails negative]
    rfl
  have below : ¬ InDomain (-1) := by
    unfold InDomain
    decide
  have above : ¬ InDomain (2 ^ 256) := by
    unfold InDomain
    decide
  have ate : hookBn128ate referenceLibffG2.toLibffPairing [⟨1, -2⟩] [⟨0, 0, 0, 0⟩] = .error .assertFailed :=
    limbs.ate_fails rfl unguarded
  have negativeScalar := referenceLibff_fourLimbs.mul_fails ⟨1, 2⟩ below
  have longScalar := referenceLibff_fourLimbs.mul_fails ⟨1, 2⟩ above
  refine ⟨⟨add, negativeScalar, longScalar, ate⟩, ?_, ?_, ?_⟩
  · intro all
    exact not_staysInDomain add (all _ _)
  · intro all
    exact not_staysInDomain negativeScalar (all _ _)
  · intro all
    exact not_staysInDomain ate (all _ _)

end KPlugin.Bn128
