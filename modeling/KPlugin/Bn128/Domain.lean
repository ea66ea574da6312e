import KPlugin.Bn128.Pairing

/-!
# Coordinates of any sign and size

A decoder answers infinity for zeros, refuses a coordinate from the modulus up, and
hands everything else to the limb constructor, whose assertion holds for what four
limbs can hold. A negative coordinate is below the modulus and so gets there, unless
another coordinate of the same point is refused.
-/

namespace KPlugin.Bn128

variable {q : ℕ}

/-- What four limbs can hold. -/
def InDomain (m : ℤ) : Prop := 0 ≤ m ∧ m < 2 ^ 256

/-- Residues fit four limbs, and the constructor converts what fits and fails its
assertion on everything else. -/
structure LibffG1.FourLimbs (libff : LibffG1 q) : Prop where
  positive : 0 < q
  limbs : q < 2 ^ 256
  converts : libff.BigintConverts
  asserts : ∀ m, ¬ InDomain m → libff.bigint m = .error .assertFailed

/-- libff with another limb constructor. -/
def LibffG1.withBigint (libff : LibffG1 q) (bigint : ℤ → Except Raise ℕ) : LibffG1 q := { libff with bigint := bigint }

def LibffPairing.withBigint (libff : LibffPairing q) (bigint : ℤ → Except Raise ℕ) : LibffPairing q :=
  { libff with bigint := bigint }

/-- The constructor agrees with that of libff inside its domain. -/
def LibffG1.AgreesInside (libff : LibffG1 q) (bigint : ℤ → Except Raise ℕ) : Prop :=
  ∀ m, InDomain m → bigint m = libff.bigint m

/-- No coordinate reaches the constructor outside its domain. -/
def Safe1 (q : ℕ) (t : G1Point) : Prop := t.Nonnegative ∨ rejects1 q t

def Safe2 (q : ℕ) (t : G2Point) : Prop := t.Nonnegative ∨ rejects2 q t

/-! ## How a decoder ends -/

/-- A decoder enters a point, refuses it, or fails the assertion. -/
inductive Ends {α : Type} (nonnegative refused : Prop) (decoded : Except Raise α) : Prop where
  | enters (p : α) (sign : nonnegative) (point : decoded = .ok p)
  | refuses (what : String) (outside : refused) (refusal : decoded = .error (.invalidArgument what))
  | fails (bad : ¬ (nonnegative ∨ refused)) (failure : decoded = .error .assertFailed)

namespace Ends
variable {α : Type} {nonnegative refused : Prop} {decoded : Except Raise α}

theorem entered (ends : Ends nonnegative refused decoded) (sign : nonnegative) (inside : ¬ refused) :
    ∃ p, decoded = .ok p := by
  cases ends with
  | enters p _ point => exact ⟨p, point⟩
  | refuses _ outside => exact absurd outside inside
  | fails bad => exact absurd (.inl sign) bad

/-- A safe point enters or is refused. -/
theorem outcome (ends : Ends nonnegative refused decoded) (safe : nonnegative ∨ refused) :
    (∃ p, decoded = .ok p) ∨ ∃ what, decoded = .error (.invalidArgument what) := by
  cases ends with
  | enters p _ point => exact .inl ⟨p, point⟩
  | refuses what _ refusal => exact .inr ⟨what, refusal⟩
  | fails bad => exact absurd safe bad

theorem failed (ends : Ends nonnegative refused decoded) (bad : ¬ (nonnegative ∨ refused)) :
    decoded = .error .assertFailed := by
  cases ends with
  | enters _ sign => exact absurd (.inl sign) bad
  | refuses _ outside => exact absurd (.inr outside) bad
  | fails _ failure => exact failure

end Ends

/-! ## Single coordinates -/

variable {libff : LibffG1 q}

/-- A coordinate below the modulus is converted when it is not negative. -/
theorem LibffG1.FourLimbs.inDomain (limbs : libff.FourLimbs) {m : ℤ} (below : m < q) : InDomain m ↔ 0 ≤ m := by
  have fits : (q : ℤ) < 2 ^ 256 := by exact_mod_cast limbs.limbs
  constructor
  · intro inside
    exact inside.1
  · intro nonnegative
    exact ⟨nonnegative, below.trans fits⟩

theorem LibffG1.FourLimbs.ok (limbs : libff.FourLimbs) {m : ℤ} (below : m < q) (nonnegative : 0 ≤ m) :
    ∃ n, libff.bigint m = .ok n := by
  obtain ⟨n, converted, -⟩ := limbs.converts.residue limbs.limbs ⟨nonnegative, below⟩
  exact ⟨n, converted⟩

theorem LibffG1.FourLimbs.fails (limbs : libff.FourLimbs) {m : ℤ} (below : m < q) (negative : m < 0) :
    libff.bigint m = .error .assertFailed :=
  limbs.asserts m fun inside => absurd ((limbs.inDomain below).mp inside) (not_le.mpr negative)

/-! ## G1 terms -/

theorem not_origin1 {t : G1Point} (negative : ¬ t.Nonnegative) : ¬ (t.x = 0 ∧ t.y = 0) := by
  unfold G1Point.Nonnegative at negative
  omega

/-- A term that is neither infinity nor refused is converted. -/
theorem getPoint_converts (libff : LibffG1 q) {t : G1Point} (nonzero : ¬ (t.x = 0 ∧ t.y = 0)) (inside : ¬ rejects1 q t) :
    getPoint libff t = (do
      let x ← libff.bigint t.x
      let y ← libff.bigint t.y
      return libff.g1 x y 1) := by
  unfold rejects1 at inside
  unfold getPoint
  rw [if_neg nonzero, if_neg inside]

/-- **What `getPoint` does** with any two integers. -/
theorem LibffG1.FourLimbs.getPoint_cases (limbs : libff.FourLimbs) (t : G1Point) :
    (t = ⟨0, 0⟩ ∧ getPoint libff t = .ok libff.zero) ∨
    (t ≠ ⟨0, 0⟩ ∧ t.Canonical q ∧ getPoint libff t = .ok (libff.g1 t.x t.y 1)) ∨
    (rejects1 q t ∧ ∃ what, getPoint libff t = .error (.invalidArgument what)) ∨
    (¬ Safe1 q t ∧ getPoint libff t = .error .assertFailed) := by
  by_cases outside : rejects1 q t
  · exact .inr (.inr (.inl ⟨outside, _, getPoint_rejected libff limbs.positive outside⟩))
  · have below : t.x < q ∧ t.y < q := by
      unfold rejects1 at outside
      omega
    obtain ⟨belowX, belowY⟩ := below
    by_cases nonnegative : t.Nonnegative
    · have canonical := canonical_of_not_rejects1 nonnegative outside
      by_cases origin : t = ⟨0, 0⟩
      · refine .inl ⟨origin, ?_⟩
        rw [origin]
        rfl
      · exact .inr (.inl ⟨origin, canonical, getPoint_eq limbs.converts limbs.limbs canonical origin⟩)
    · refine .inr (.inr (.inr ⟨fun safe => safe.elim nonnegative outside, ?_⟩))
      rw [getPoint_converts libff (not_origin1 nonnegative) outside]
      by_cases negative : t.x < 0
      · rw [limbs.fails belowX negative]
        rfl
      · obtain ⟨x, converted⟩ := limbs.ok belowX (not_lt.mp negative)
        have other : t.y < 0 := by
          unfold G1Point.Nonnegative at nonnegative
          omega
        rw [converted, limbs.fails belowY other]
        rfl

theorem LibffG1.FourLimbs.getPoint_ends (limbs : libff.FourLimbs) (t : G1Point) :
    Ends t.Nonnegative (rejects1 q t) (getPoint libff t) := by
  rcases limbs.getPoint_cases t with ⟨rfl, point⟩ | ⟨-, canonical, point⟩ | ⟨outside, what, refusal⟩ | ⟨bad, failure⟩
  · exact .enters _ ⟨le_rfl, le_rfl⟩ point
  · exact .enters _ ⟨canonical.1.1, canonical.2.1⟩ point
  · exact .refuses what outside refusal
  · exact .fails bad failure

theorem LibffG1.FourLimbs.getPoint_fails (limbs : libff.FourLimbs) {t : G1Point} (bad : ¬ Safe1 q t) :
    getPoint libff t = .error .assertFailed :=
  (limbs.getPoint_ends t).failed bad

/-- The constructor is only asked inside its domain for a safe point. -/
theorem getPoint_withBigint (limbs : libff.FourLimbs) {bigint : ℤ → Except Raise ℕ} (agrees : libff.AgreesInside bigint)
    {t : G1Point} (safe : Safe1 q t) : getPoint (libff.withBigint bigint) t = getPoint libff t := by
  by_cases outside : rejects1 q t
  · rw [getPoint_rejected libff limbs.positive outside]
    exact getPoint_rejected (libff.withBigint bigint) limbs.positive outside
  · have nonnegative := safe.resolve_right outside
    have x := agrees t.x ((limbs.inDomain (by unfold rejects1 at outside; omega)).mpr nonnegative.1)
    have y := agrees t.y ((limbs.inDomain (by unfold rejects1 at outside; omega)).mpr nonnegative.2)
    unfold getPoint LibffG1.withBigint
    simp only [x, y]

/-! ## G2 terms -/

section
variable {libff : LibffPairing q}

theorem not_origin2 {t : G2Point} (negative : ¬ t.Nonnegative) : ¬ (t.x0 = 0 ∧ t.x1 = 0 ∧ t.y0 = 0 ∧ t.y1 = 0) := by
  unfold G2Point.Nonnegative at negative
  omega

/-- A term that is neither infinity nor refused is converted. -/
theorem getPointG2_converts (libff : LibffPairing q) {t : G2Point}
    (nonzero : ¬ (t.x0 = 0 ∧ t.x1 = 0 ∧ t.y0 = 0 ∧ t.y1 = 0)) (inside : ¬ rejects2 q t) :
    getPointG2 libff t = (do
      let x0 ← libff.bigint t.x0
      let x1 ← libff.bigint t.x1
      let y0 ← libff.bigint t.y0
      let y1 ← libff.bigint t.y1
      return libff.g2 (x0, x1) (y0, y1) (1, 0)) := by
  unfold rejects2 at inside
  unfold getPointG2
  rw [if_neg nonzero, if_neg inside]

/-- **What `getPoint` does** with any four integers. -/
theorem LibffG1.FourLimbs.getPointG2_cases (limbs : libff.FourLimbs) (t : G2Point) :
    (t = ⟨0, 0, 0, 0⟩ ∧ getPointG2 libff t = .ok libff.g2Zero) ∨
    (t ≠ ⟨0, 0, 0, 0⟩ ∧ t.Canonical q ∧ getPointG2 libff t = .ok (libff.g2 (t.x0, t.x1) (t.y0, t.y1) (1, 0))) ∨
    (rejects2 q t ∧ ∃ what, getPointG2 libff t = .error (.invalidArgument what)) ∨
    (¬ Safe2 q t ∧ getPointG2 libff t = .error .assertFailed) := by
  by_cases outside : rejects2 q t
  · exact .inr (.inr (.inl ⟨outside, _, getPointG2_rejected libff limbs.positive outside⟩))
  · have below : t.x0 < q ∧ t.x1 < q ∧ t.y0 < q ∧ t.y1 < q := by
      unfold rejects2 at outside
      omega
    obtain ⟨belowX0, belowX1, belowY0, belowY1⟩ := below
    by_cases nonnegative : t.Nonnegative
    · have canonical := canonical_of_not_rejects2 nonnegative outside
      by_cases origin : t = ⟨0, 0, 0, 0⟩
      · refine .inl ⟨origin, ?_⟩
        rw [origin]
        rfl
      · exact .inr (.inl ⟨origin, canonical, getPointG2_eq limbs.converts limbs.limbs canonical origin⟩)
    · refine .inr (.inr (.inr ⟨fun safe => safe.elim nonnegative outside, ?_⟩))
      rw [getPointG2_converts libff (not_origin2 nonnegative) outside]
      -- the first negative coordinate, in the order of the conversions
      by_cases negativeX0 : t.x0 < 0
      · rw [limbs.fails belowX0 negativeX0]
        rfl
      · obtain ⟨x0, limbsX0⟩ := limbs.ok belowX0 (not_lt.mp negativeX0)
        rw [limbsX0]
        by_cases negativeX1 : t.x1 < 0
        · rw [limbs.fails belowX1 negativeX1]
          rfl
        · obtain ⟨x1, limbsX1⟩ := limbs.ok belowX1 (not_lt.mp negativeX1)
          rw [limbsX1]
          by_cases negativeY0 : t.y0 < 0
          · rw [limbs.fails belowY0 negativeY0]
            rfl
          · obtain ⟨y0, limbsY0⟩ := limbs.ok belowY0 (not_lt.mp negativeY0)
            have negativeY1 : t.y1 < 0 := by
              unfold G2Point.Nonnegative at nonnegative
              omega
            rw [limbsY0, limbs.fails belowY1 negativeY1]
            rfl

theorem LibffG1.FourLimbs.getPointG2_ends (limbs : libff.FourLimbs) (t : G2Point) :
    Ends t.Nonnegative (rejects2 q t) (getPointG2 libff t) := by
  rcases limbs.getPointG2_cases t with ⟨rfl, point⟩ | ⟨-, canonical, point⟩ | ⟨outside, what, refusal⟩ | ⟨bad, failure⟩
  · exact .enters _ ⟨le_rfl, le_rfl, le_rfl, le_rfl⟩ point
  · obtain ⟨x0, x1, y0, y1⟩ := canonical
    exact .enters _ ⟨x0.1, x1.1, y0.1, y1.1⟩ point
  · exact .refuses what outside refusal
  · exact .fails bad failure

theorem LibffG1.FourLimbs.getPointG2_fails (limbs : libff.FourLimbs) {t : G2Point} (bad : ¬ Safe2 q t) :
    getPointG2 libff t = .error .assertFailed :=
  (limbs.getPointG2_ends t).failed bad

theorem getPointG2_withBigint (limbs : libff.FourLimbs) {bigint : ℤ → Except Raise ℕ}
    (agrees : libff.AgreesInside bigint) {t : G2Point} (safe : Safe2 q t) :
    getPointG2 (libff.withBigint bigint) t = getPointG2 libff t := by
  by_cases outside : rejects2 q t
  · rw [getPointG2_rejected libff limbs.positive outside]
    exact getPointG2_rejected (libff.withBigint bigint) limbs.positive outside
  · obtain ⟨nx0, nx1, ny0, ny1⟩ := safe.resolve_right outside
    have x0 := agrees t.x0 ((limbs.inDomain (by unfold rejects2 at outside; omega)).mpr nx0)
    have x1 := agrees t.x1 ((limbs.inDomain (by unfold rejects2 at outside; omega)).mpr nx1)
    have y0 := agrees t.y0 ((limbs.inDomain (by unfold rejects2 at outside; omega)).mpr ny0)
    have y1 := agrees t.y1 ((limbs.inDomain (by unfold rejects2 at outside; omega)).mpr ny1)
    unfold getPointG2 LibffPairing.withBigint
    simp only [x0, x1, y0, y1]

end

end KPlugin.Bn128
