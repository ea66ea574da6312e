import KPlugin.Curve.Term
import KPlugin.Lib.CheckedProduct

/-!
# The contract of a pairing check

Two hooks, one for each pairing-friendly curve, take a list of G1 points and a
list of G2 points and answer whether the product of the pairings is one. Their
loops differ; what they promise does not, and is stated here once. A loop that
computes a checked product keeps the promise.
-/

namespace KPlugin
open CheckedProduct

/-- The answer on a list of pairs, without the text of an error. -/
def outcome (hook : List G1Point → List G2Point → Except Raise Bool) (pairs : List (G1Point × G2Point)) : Option Bool :=
  (hook (pairs.map Prod.fst) (pairs.map Prod.snd)).toOption

/-- No coordinate of any point is negative. -/
def NonnegativePairs (pairs : List (G1Point × G2Point)) : Prop := ∀ t ∈ pairs, t.1.Nonnegative ∧ t.2.Nonnegative

/-- The lists do not match, or a point anywhere is one its decoder rejects. -/
def Refused (rejects1 : G1Point → Prop) (rejects2 : G2Point → Prop) (g1 : List G1Point) (g2 : List G2Point) : Prop :=
  g1.length ≠ g2.length ∨ (∃ P ∈ g1, rejects1 P) ∨ ∃ Q ∈ g2, rejects2 Q

/-- **What a pairing check promises** for points with non-negative coordinates. -/
structure PairingContract {GT : Type} [CommMonoid GT] (hook : List G1Point → List G2Point → Except Raise Bool)
    (rejects1 : G1Point → Prop) (rejects2 : G2Point → Prop) (infinite1 : G1Point → Prop)
    (infinite2 : G2Point → Prop) (e : G1Point → G2Point → GT) : Prop where
  raises : ∀ g1 g2, (∀ P ∈ g1, P.Nonnegative) → (∀ Q ∈ g2, Q.Nonnegative) → Refused rejects1 rejects2 g1 g2 →
    ∃ what, hook g1 g2 = .error (.invalidArgument what)
  answers : ∀ g1 g2, (∀ P ∈ g1, P.Nonnegative) → (∀ Q ∈ g2, Q.Nonnegative) → ¬ Refused rejects1 rejects2 g1 g2 →
    ∃ answer, hook g1 g2 = .ok answer ∧ (answer = true ↔ ((g1.zip g2).map fun t => e t.1 t.2).prod = 1)
  infinity : ∀ P Q, infinite1 P ∨ infinite2 Q → e P Q = 1
  perm : ∀ pairs pairs', NonnegativePairs pairs → pairs.Perm pairs' → outcome hook pairs = outcome hook pairs'
  insert : ∀ before after P Q, NonnegativePairs (before ++ after) → P.Nonnegative → Q.Nonnegative →
    ¬ rejects1 P → ¬ rejects2 Q → infinite1 P ∨ infinite2 Q →
    outcome hook (before ++ (P, Q) :: after) = outcome hook (before ++ after)
  append : ∀ first second, NonnegativePairs first → NonnegativePairs second →
    outcome hook first = some true → outcome hook second = some true → outcome hook (first ++ second) = some true

/-! ## Loops that keep it -/

section
variable {pairs pairs' : List (G1Point × G2Point)}

theorem NonnegativePairs.perm (nonnegative : NonnegativePairs pairs) (perm : pairs.Perm pairs') :
    NonnegativePairs pairs' := fun t member => nonnegative t (perm.mem_iff.mpr member)

theorem NonnegativePairs.insert {before after : List (G1Point × G2Point)} (nonnegative : NonnegativePairs (before ++ after))
    {P : G1Point} {Q : G2Point} (first : P.Nonnegative) (second : Q.Nonnegative) :
    NonnegativePairs (before ++ (P, Q) :: after) := by
  have front : NonnegativePairs ((P, Q) :: (before ++ after)) := List.forall_mem_cons.mpr ⟨⟨first, second⟩, nonnegative⟩
  exact front.perm List.perm_middle.symm

theorem NonnegativePairs.append (first : NonnegativePairs pairs) (second : NonnegativePairs pairs') :
    NonnegativePairs (pairs ++ pairs') := by
  intro t member
  rcases List.mem_append.mp member with left | right
  · exact first t left
  · exact second t right

end

theorem zip_fst_snd (pairs : List (G1Point × G2Point)) : (pairs.map Prod.fst).zip (pairs.map Prod.snd) = pairs := by
  rw [List.zip_map', List.map_id']

/-- A pair of a zipped list is rejected when an element of either list is. -/
theorem exists_mem_zip_iff {α β : Type} {xs : List α} {ys : List β} (sameLength : xs.length = ys.length)
    (p : α → Prop) (q : β → Prop) : (∃ t ∈ xs.zip ys, p t.1 ∨ q t.2) ↔ (∃ x ∈ xs, p x) ∨ ∃ y ∈ ys, q y := by
  have firsts : (xs.zip ys).map Prod.fst = xs := List.map_fst_zip sameLength.le
  have seconds : (xs.zip ys).map Prod.snd = ys := List.map_snd_zip sameLength.ge
  constructor
  · rintro ⟨t, member, hp | hq⟩
    · exact .inl ⟨t.1, (List.of_mem_zip member).1, hp⟩
    · exact .inr ⟨t.2, (List.of_mem_zip member).2, hq⟩
  · rintro (⟨x, member, hp⟩ | ⟨y, member, hq⟩)
    · rw [← firsts] at member
      obtain ⟨t, listed, rfl⟩ := List.mem_map.mp member
      exact ⟨t, listed, .inl hp⟩
    · rw [← seconds] at member
      obtain ⟨t, listed, rfl⟩ := List.mem_map.mp member
      exact ⟨t, listed, .inr hq⟩

/-- A hook that compares the lengths and then runs a checked product over the pairs. -/
structure ChecksProduct {M GT : Type} [Monoid M] [Monoid GT] [DecidableEq GT]
    (hook : List G1Point → List G2Point → Except Raise Bool) (φ : M →* GT)
    (value : G1Point × G2Point → Except Raise M) (rejects1 : G1Point → Prop) (rejects2 : G2Point → Prop)
    (e : G1Point → G2Point → GT) : Prop where
  mismatch : ∀ g1 g2, g1.length ≠ g2.length → hook g1 g2 = .error (.invalidArgument "mismatched list sizes")
  runs : ∀ g1 g2, g1.length = g2.length → hook g1 g2 = check φ value (g1.zip g2)
  cases : ∀ t : G1Point × G2Point, t.1.Nonnegative → t.2.Nonnegative →
    ((rejects1 t.1 ∨ rejects2 t.2) ∧ ∃ what, value t = .error (.invalidArgument what)) ∨
    (¬ (rejects1 t.1 ∨ rejects2 t.2) ∧ ∃ v, value t = .ok v ∧ φ v = e t.1 t.2)

variable {M GT : Type} [Monoid M] [CommMonoid GT] [DecidableEq GT]
  {hook : List G1Point → List G2Point → Except Raise Bool} {φ : M →* GT} {value : G1Point × G2Point → Except Raise M}
  {rejects1 : G1Point → Prop} {rejects2 : G2Point → Prop} {e : G1Point → G2Point → GT}

/-- The value of a pair, or its absence, as the library's rules need it. -/
theorem ChecksProduct.evaluates (checks : ChecksProduct hook φ value rejects1 rejects2 e) {t : G1Point × G2Point}
    (first : t.1.Nonnegative) (second : t.2.Nonnegative) :
    Evaluates φ value (fun t => rejects1 t.1 ∨ rejects2 t.2) (fun t => e t.1 t.2) t := by
  rcases checks.cases t first second with ⟨rejected, what, error⟩ | ⟨accepted, v, computed, same⟩
  · exact ⟨fun _ => ⟨_, error⟩, fun accepted => absurd rejected accepted⟩
  · exact ⟨fun rejected => absurd rejected accepted, fun _ => ⟨v, computed, same⟩⟩

/-- A pair without a value throws `std::invalid_argument`. -/
theorem ChecksProduct.invalid (checks : ChecksProduct hook φ value rejects1 rejects2 e) {t : G1Point × G2Point}
    (first : t.1.Nonnegative) (second : t.2.Nonnegative) {raise : Raise} (failed : value t = .error raise) :
    ∃ what, raise = .invalidArgument what := by
  rcases checks.cases t first second with ⟨-, what, error⟩ | ⟨-, v, computed, -⟩
  · exact ⟨what, Except.error.inj (failed.symm.trans error)⟩
  · exact nomatch failed.symm.trans computed

theorem ChecksProduct.evaluates_zip (checks : ChecksProduct hook φ value rejects1 rejects2 e) {g1 : List G1Point}
    {g2 : List G2Point} (nonnegative1 : ∀ P ∈ g1, P.Nonnegative) (nonnegative2 : ∀ Q ∈ g2, Q.Nonnegative) :
    ∀ t ∈ g1.zip g2, Evaluates φ value (fun t => rejects1 t.1 ∨ rejects2 t.2) (fun t => e t.1 t.2) t := by
  intro t member
  have pair := List.of_mem_zip member
  exact checks.evaluates (nonnegative1 _ pair.1) (nonnegative2 _ pair.2)

/-- **The outcome on pairs is the verdict.** -/
theorem ChecksProduct.outcome_eq (checks : ChecksProduct hook φ value rejects1 rejects2 e)
    {pairs : List (G1Point × G2Point)} (nonnegative : NonnegativePairs pairs) :
    outcome hook pairs = verdict (fun t => rejects1 t.1 ∨ rejects2 t.2) (fun t => e t.1 t.2) pairs := by
  have sameLength : (pairs.map Prod.fst).length = (pairs.map Prod.snd).length := by
    rw [List.length_map, List.length_map]
  unfold outcome
  rw [checks.runs _ _ sameLength, zip_fst_snd]
  exact toOption_check fun t member => checks.evaluates (nonnegative t member).1 (nonnegative t member).2

/-- **A checked product keeps the contract.** -/
theorem ChecksProduct.contract (checks : ChecksProduct hook φ value rejects1 rejects2 e) {infinite1 : G1Point → Prop}
    {infinite2 : G2Point → Prop} (infinity : ∀ P Q, infinite1 P ∨ infinite2 Q → e P Q = 1) :
    PairingContract hook rejects1 rejects2 infinite1 infinite2 e where
  raises := by
    intro g1 g2 nonnegative1 nonnegative2 refused
    by_cases sameLength : g1.length = g2.length
    · have rejected := (exists_mem_zip_iff sameLength rejects1 rejects2).mpr (refused.resolve_left (not_not.mpr sameLength))
      obtain ⟨t, member, raise, error, failed⟩ := check_error (checks.evaluates_zip nonnegative1 nonnegative2) rejected
      have pair := List.of_mem_zip member
      obtain ⟨what, rfl⟩ := checks.invalid (nonnegative1 _ pair.1) (nonnegative2 _ pair.2) error
      exact ⟨what, (checks.runs g1 g2 sameLength).trans failed⟩
    · exact ⟨_, checks.mismatch g1 g2 sameLength⟩
  answers := by
    intro g1 g2 nonnegative1 nonnegative2 accepted
    have sameLength : g1.length = g2.length := not_not.mp fun differ => accepted (.inl differ)
    have good : ∀ t ∈ g1.zip g2, ¬ (rejects1 t.1 ∨ rejects2 t.2) := by
      intro t member isBad
      exact accepted (.inr ((exists_mem_zip_iff sameLength rejects1 rejects2).mp ⟨t, member, isBad⟩))
    obtain ⟨answer, run, same⟩ := check_ok (checks.evaluates_zip nonnegative1 nonnegative2) good
    exact ⟨answer, (checks.runs g1 g2 sameLength).trans run, same⟩
  infinity := infinity
  perm := by
    intro pairs pairs' nonnegative perm
    rw [checks.outcome_eq nonnegative, checks.outcome_eq (nonnegative.perm perm), verdict_perm perm]
  insert := by
    intro before after P Q nonnegative positive1 positive2 accepted1 accepted2 infinite
    have longer := nonnegative.insert positive1 positive2
    have good : ¬ (rejects1 P ∨ rejects2 Q) := fun rejected => rejected.elim accepted1 accepted2
    rw [checks.outcome_eq longer, checks.outcome_eq nonnegative]
    exact verdict_insert before after good (infinity P Q infinite)
  append := by
    intro first second nonnegative1 nonnegative2 true1 true2
    rw [checks.outcome_eq nonnegative1] at true1
    rw [checks.outcome_eq nonnegative2] at true2
    rw [checks.outcome_eq (nonnegative1.append nonnegative2)]
    exact verdict_append true1 true2

end KPlugin
