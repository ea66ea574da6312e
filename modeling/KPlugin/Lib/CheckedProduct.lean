import Mathlib.Algebra.BigOperators.Group.List.Basic

/-!
# A product of checked values

A loop multiplies the values of its items, and computing a value may fail; at the
end a homomorphism maps the product and the image is compared with one. Such a
loop has one of three outcomes, which depend only on what its items are, not on
their order: `verdict` is that outcome, and the rules below are about it.
-/

namespace CheckedProduct
open Classical

variable {α ε : Type*} {M N : Type}

/-- `for (x : xs) acc = acc * value(x);`. -/
def loop [Mul M] (value : α → Except ε M) (xs : List α) (acc : M) : Except ε M :=
  xs.foldlM (fun acc x => do
    let v ← value x
    pure (acc * v)) acc

/-- Compare the image of the product with one. -/
def check [Monoid M] [Monoid N] [DecidableEq N] (φ : M →* N) (value : α → Except ε M) (xs : List α) : Except ε Bool :=
  do
  let product ← loop value xs 1
  pure (decide (φ product = 1))

/-- No answer with a bad item, otherwise whether the product of the images is one. -/
noncomputable def verdict [Monoid N] (bad : α → Prop) (image : α → N) (xs : List α) : Option Bool :=
  if ∃ x ∈ xs, bad x then none else some (decide ((xs.map image).prod = 1))

/-- Bad items have no value, and the others have one with the given image. -/
structure Evaluates [Monoid M] [Monoid N] (φ : M →* N) (value : α → Except ε M) (bad : α → Prop) (image : α → N)
    (x : α) : Prop where
  raises : bad x → ∃ e, value x = .error e
  computes : ¬ bad x → ∃ v, value x = .ok v ∧ φ v = image x

section
variable [Monoid M] [Monoid N] {φ : M →* N} {value : α → Except ε M} {bad : α → Prop} {image : α → N}

/-- The loop fails with an error of one of its items. -/
theorem loop_error {xs : List α} {acc : M} {e : ε} (failed : loop value xs acc = .error e) :
    ∃ x ∈ xs, value x = .error e := by
  induction xs generalizing acc with
  | nil => cases failed
  | cons x xs ih =>
    unfold loop at failed
    rw [List.foldlM_cons] at failed
    cases first : value x with
    | error e' =>
      rw [first] at failed
      cases failed
      exact ⟨x, List.mem_cons_self, first⟩
    | ok v =>
      rw [first] at failed
      obtain ⟨y, member, error⟩ := ih failed
      exact ⟨y, List.mem_cons_of_mem x member, error⟩

/-- An item without a value fails the loop, wherever it stands. -/
theorem loop_of_error {xs : List α} (acc : M) {x : α} (member : x ∈ xs) {e : ε} (error : value x = .error e) :
    ∃ e', loop value xs acc = .error e' := by
  induction xs generalizing acc with
  | nil => cases member
  | cons y xs ih =>
    unfold loop
    rw [List.foldlM_cons]
    cases first : value y with
    | error e' => exact ⟨e', rfl⟩
    | ok v =>
      rcases List.mem_cons.mp member with rfl | later
      · rw [error] at first
        cases first
      · exact ih (acc * v) later

/-- Without one it multiplies the images. -/
theorem loop_ok {xs : List α} (acc : M) (values : ∀ x ∈ xs, ∃ v, value x = .ok v ∧ φ v = image x) :
    ∃ product, loop value xs acc = .ok product ∧ φ product = φ acc * (xs.map image).prod := by
  induction xs generalizing acc with
  | nil => exact ⟨acc, rfl, by rw [List.map_nil, List.prod_nil, mul_one]⟩
  | cons x xs ih =>
    obtain ⟨v, first, same⟩ := values x List.mem_cons_self
    obtain ⟨product, rest, equal⟩ := ih (acc * v) fun y member => values y (List.mem_cons_of_mem x member)
    refine ⟨product, ?_, ?_⟩
    · unfold loop
      rw [List.foldlM_cons, first]
      exact rest
    · rw [equal, map_mul, same, List.map_cons, List.prod_cons, mul_assoc]

/-- With a bad item the check fails with the error of an item. -/
theorem check_error [DecidableEq N] {xs : List α} (evaluates : ∀ x ∈ xs, Evaluates φ value bad image x)
    (rejected : ∃ x ∈ xs, bad x) : ∃ x ∈ xs, ∃ e, value x = .error e ∧ check φ value xs = .error e := by
  obtain ⟨x, member, isBad⟩ := rejected
  obtain ⟨e, error⟩ := (evaluates x member).raises isBad
  obtain ⟨e', failed⟩ := loop_of_error 1 member error
  obtain ⟨y, listed, same⟩ := loop_error failed
  refine ⟨y, listed, e', same, ?_⟩
  unfold check
  rw [failed]
  rfl

/-- Without one it tells whether the product of the images is one. -/
theorem check_ok [DecidableEq N] {xs : List α} (evaluates : ∀ x ∈ xs, Evaluates φ value bad image x)
    (good : ∀ x ∈ xs, ¬ bad x) :
    ∃ answer, check φ value xs = .ok answer ∧ (answer = true ↔ (xs.map image).prod = 1) := by
  obtain ⟨product, run, equal⟩ := loop_ok 1 fun x member => (evaluates x member).computes (good x member)
  rw [map_one, one_mul] at equal
  refine ⟨decide (φ product = 1), ?_, ?_⟩
  · unfold check
    rw [run]
    rfl
  · rw [decide_eq_true_iff, equal]

theorem verdict_eq_none_iff {xs : List α} : verdict bad image xs = none ↔ ∃ x ∈ xs, bad x := by
  unfold verdict
  by_cases rejected : ∃ x ∈ xs, bad x
  · rw [if_pos rejected]
    exact iff_of_true rfl rejected
  · rw [if_neg rejected]
    exact iff_of_false nofun rejected

theorem verdict_eq_some_iff {xs : List α} {answer : Bool} :
    verdict bad image xs = some answer ↔ (∀ x ∈ xs, ¬ bad x) ∧ (answer = true ↔ (xs.map image).prod = 1) := by
  unfold verdict
  by_cases rejected : ∃ x ∈ xs, bad x
  · rw [if_pos rejected]
    obtain ⟨x, member, isBad⟩ := rejected
    exact iff_of_false nofun fun both => both.1 x member isBad
  · have good : ∀ x ∈ xs, ¬ bad x := fun x member isBad => rejected ⟨x, member, isBad⟩
    rw [if_neg rejected, Option.some.injEq]
    constructor
    · rintro rfl
      exact ⟨good, decide_eq_true_iff⟩
    · rintro ⟨-, same⟩
      exact Bool.eq_iff_iff.mpr (decide_eq_true_iff.trans same.symm)

/-- **The check computes the verdict.** -/
theorem toOption_check [DecidableEq N] {xs : List α} (evaluates : ∀ x ∈ xs, Evaluates φ value bad image x) :
    (check φ value xs).toOption = verdict bad image xs := by
  by_cases rejected : ∃ x ∈ xs, bad x
  · obtain ⟨x, member, e, -, failed⟩ := check_error evaluates rejected
    rw [failed, verdict_eq_none_iff.mpr rejected]
    rfl
  · have good : ∀ x ∈ xs, ¬ bad x := fun x member isBad => rejected ⟨x, member, isBad⟩
    obtain ⟨answer, run, same⟩ := check_ok evaluates good
    rw [run, verdict_eq_some_iff.mpr ⟨good, same⟩]
    rfl

/-- **Products that are one** have a product that is one. -/
theorem verdict_append {xs ys : List α} (first : verdict bad image xs = some true)
    (second : verdict bad image ys = some true) : verdict bad image (xs ++ ys) = some true := by
  obtain ⟨goodX, oneX⟩ := verdict_eq_some_iff.mp first
  obtain ⟨goodY, oneY⟩ := verdict_eq_some_iff.mp second
  refine verdict_eq_some_iff.mpr ⟨?_, iff_of_true rfl ?_⟩
  · intro x member
    rcases List.mem_append.mp member with left | right
    · exact goodX x left
    · exact goodY x right
  · rw [List.map_append, List.prod_append, oneX.mp rfl, oneY.mp rfl, one_mul]

/-- **A good item with image one** can be inserted and deleted anywhere. -/
theorem verdict_insert (xs ys : List α) {x : α} (good : ¬ bad x) (one : image x = 1) :
    verdict bad image (xs ++ x :: ys) = verdict bad image (xs ++ ys) := by
  have rejected : (∃ y ∈ xs ++ x :: ys, bad y) ↔ ∃ y ∈ xs ++ ys, bad y := by
    constructor
    · rintro ⟨y, member, isBad⟩
      rcases List.mem_append.mp member with left | right
      · exact ⟨y, List.mem_append_left _ left, isBad⟩
      · rcases List.mem_cons.mp right with rfl | right
        · exact absurd isBad good
        · exact ⟨y, List.mem_append_right _ right, isBad⟩
    · rintro ⟨y, member, isBad⟩
      rcases List.mem_append.mp member with left | right
      · exact ⟨y, List.mem_append_left _ left, isBad⟩
      · exact ⟨y, List.mem_append_right _ (List.mem_cons_of_mem x right), isBad⟩
  have product : ((xs ++ x :: ys).map image).prod = ((xs ++ ys).map image).prod := by
    rw [List.map_append, List.prod_append, List.map_cons, List.prod_cons, one, one_mul, ← List.prod_append,
      ← List.map_append]
  unfold verdict
  simp only [rejected, product]

end

/-- **The order of the items does not matter.** -/
theorem verdict_perm [CommMonoid N] {bad : α → Prop} {image : α → N} {xs ys : List α} (perm : xs.Perm ys) :
    verdict bad image xs = verdict bad image ys := by
  have rejected : (∃ x ∈ xs, bad x) ↔ ∃ x ∈ ys, bad x := by simp only [perm.mem_iff]
  have product : (xs.map image).prod = (ys.map image).prod := (perm.map image).prod_eq
  unfold verdict
  simp only [rejected, product]

end CheckedProduct
