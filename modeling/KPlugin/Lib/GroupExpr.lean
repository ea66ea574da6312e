import Mathlib.Algebra.BigOperators.Group.List.Basic
import Mathlib.Algebra.BigOperators.GroupWithZero.Action
import Mathlib.Algebra.Module.BigOperators
import Mathlib.Algebra.BigOperators.Finsupp.Basic
import KPlugin.Lib.Bilinear
import KPlugin.Lib.GroupCode

/-!
# Expressions over an abelian group

Nested calls of an addition, a multiplication by a scalar and a multi-scalar
multiplication, each of which may fail, over a type of terms that stand for group
elements. When every operation returns the term of what its arguments stand for,
so does every expression; one multi-scalar multiplication over its leaves returns
the same term, and only the total coefficient of each leaf matters.
-/

namespace GroupExpr
open Bilinear

mutual

/-- `leaf` is whatever is not built from the three operations. -/
inductive Expr (α S : Type) : Type
  | leaf (a : α)
  | add (first second : Expr α S)
  | mul (point : Expr α S) (scalar : S)
  | msm (terms : Terms α S)

/-- The two lists of a multi-scalar multiplication, entry by entry. -/
inductive Terms (α S : Type) : Type
  | nil
  | cons (scalar : S) (point : Expr α S) (rest : Terms α S)

end

/-- The operations an expression is evaluated with. -/
structure Ops (α S T E : Type) where
  leaf : α → Except E T
  add : T → T → Except E T
  mul : T → S → Except E T
  msm : List S → List T → Except E T

variable {α S T E G : Type}

/-! ## Evaluation -/

def Terms.scalars : Terms α S → List S
  | .nil => []
  | .cons scalar _ rest => scalar :: rest.scalars

mutual

/-- Arguments first, from left to right. -/
def Expr.eval (ops : Ops α S T E) : Expr α S → Except E T
  | .leaf a => ops.leaf a
  | .add first second => do
    let s ← first.eval ops
    let t ← second.eval ops
    ops.add s t
  | .mul point scalar => do
    let t ← point.eval ops
    ops.mul t scalar
  | .msm terms => do
    let points ← terms.eval ops
    ops.msm terms.scalars points

def Terms.eval (ops : Ops α S T E) : Terms α S → Except E (List T)
  | .nil => .ok []
  | .cons _ point rest => do
    let t ← point.eval ops
    let ts ← rest.eval ops
    pure (t :: ts)

end

/-- The outermost step is one of the three operations. -/
def Expr.IsCall : Expr α S → Prop
  | .leaf _ => False
  | _ => True

/-! ## Meaning -/

section
variable [AddCommMonoid G]

mutual

/-- What an expression says in the group. -/
def Expr.value (element : α → G) (weight : S → ℕ) : Expr α S → G
  | .leaf a => element a
  | .add first second => first.value element weight + second.value element weight
  | .mul point scalar => weight scalar • point.value element weight
  | .msm terms => terms.value element weight

def Terms.value (element : α → G) (weight : S → ℕ) : Terms α S → G
  | .nil => 0
  | .cons scalar point rest => weight scalar • point.value element weight + rest.value element weight

end

/-- The meanings of the points, one after another. -/
def Terms.values (element : α → G) (weight : S → ℕ) : Terms α S → List G
  | .nil => []
  | .cons _ point rest => point.value element weight :: rest.values element weight

/-- The sum of the products of scalars and elements. -/
def weightedSum (weight : S → ℕ) (scalars : List S) (elements : List G) : G :=
  (List.zipWith (fun scalar g => weight scalar • g) scalars elements).sum

theorem Terms.value_eq (element : α → G) (weight : S → ℕ) : ∀ terms : Terms α S,
    terms.value element weight = weightedSum weight terms.scalars (terms.values element weight)
  | .nil => rfl
  | .cons scalar point rest => by
    rw [Terms.value, Terms.value_eq element weight rest]
    exact List.sum_cons.symm

end

/-! ## Linear combinations of leaves -/

/-- Multiply every coefficient. -/
def scale (n : ℕ) (l : List (α × ℕ)) : List (α × ℕ) := l.map fun t => (t.1, n * t.2)

mutual

/-- The leaves with their coefficients, multiplied out. -/
def Expr.flat (weight : S → ℕ) : Expr α S → List (α × ℕ)
  | .leaf a => [(a, 1)]
  | .add first second => first.flat weight ++ second.flat weight
  | .mul point scalar => scale (weight scalar) (point.flat weight)
  | .msm terms => terms.flat weight

def Terms.flat (weight : S → ℕ) : Terms α S → List (α × ℕ)
  | .nil => []
  | .cons scalar point rest => scale (weight scalar) (point.flat weight) ++ rest.flat weight

end

section
variable [AddCommMonoid G]

/-- What a list of leaves with coefficients says in the group. -/
def combination (element : α → G) (l : List (α × ℕ)) : G := (l.map fun t => t.2 • element t.1).sum

theorem combination_append (element : α → G) (l l' : List (α × ℕ)) :
    combination element (l ++ l') = combination element l + combination element l' := by
  unfold combination
  rw [List.map_append, List.sum_append]

theorem combination_scale (element : α → G) (n : ℕ) (l : List (α × ℕ)) :
    combination element (scale n l) = n • combination element l := by
  unfold combination scale
  rw [List.map_map, List.smul_sum, List.map_map]
  congr 1
  exact List.map_congr_left fun t _ => mul_nsmul' (element t.1) n t.2

mutual

/-- **Multiplying out keeps the meaning.** -/
theorem Expr.combination_flat (element : α → G) (weight : S → ℕ) : ∀ e : Expr α S,
    combination element (e.flat weight) = e.value element weight
  | .leaf a => by
    rw [Expr.flat, Expr.value]
    exact (add_zero _).trans (one_nsmul _)
  | .add first second => by
    rw [Expr.flat, Expr.value, combination_append, first.combination_flat, second.combination_flat]
  | .mul point scalar => by rw [Expr.flat, Expr.value, combination_scale, point.combination_flat]
  | .msm terms => by rw [Expr.flat, Expr.value, terms.combination_flat]

theorem Terms.combination_flat (element : α → G) (weight : S → ℕ) : ∀ terms : Terms α S,
    combination element (terms.flat weight) = terms.value element weight
  | .nil => rfl
  | .cons scalar point rest => by
    rw [Terms.flat, Terms.value, combination_append, combination_scale, point.combination_flat,
      rest.combination_flat]

end

end

/-! ## One multi-scalar multiplication -/

/-- A multi-scalar multiplication of leaves. -/
def Terms.ofLeaves (reduce : ℕ → S) : List (α × ℕ) → Terms α S
  | [] => .nil
  | t :: l => .cons (reduce t.2) (.leaf t.1) (Terms.ofLeaves reduce l)

/-- The expression as one call on its leaves; `reduce` makes a scalar of a coefficient. -/
def Expr.normalForm (weight : S → ℕ) (reduce : ℕ → S) (e : Expr α S) : Expr α S :=
  .msm (Terms.ofLeaves reduce (e.flat weight))

section
variable [AddCommMonoid G] {element : α → G} {weight : S → ℕ} {reduce : ℕ → S}

theorem Terms.value_ofLeaves (harmless : ∀ (n : ℕ) (g : G), weight (reduce n) • g = n • g) (l : List (α × ℕ)) :
    (Terms.ofLeaves reduce l).value element weight = combination element l := by
  induction l with
  | nil => rfl
  | cons t l ih =>
    rw [Terms.ofLeaves, Terms.value, Expr.value, harmless, ih]
    exact List.sum_cons.symm

/-- **The normal form says the same.** -/
theorem Expr.value_normalForm (harmless : ∀ (n : ℕ) (g : G), weight (reduce n) • g = n • g) (e : Expr α S) :
    (e.normalForm weight reduce).value element weight = e.value element weight := by
  unfold Expr.normalForm
  rw [Expr.value, Terms.value_ofLeaves harmless, e.combination_flat]

end

/-! ## Operations that compute in a group -/

/-- A leaf has a term that stands for its element, and each operation returns the term of
what its arguments stand for. -/
structure Ops.Computes [AddCommMonoid G] (ops : Ops α S T E) (stands : T → G → Prop) (encode : G → T)
    (element : α → G) (weight : S → ℕ) : Prop where
  encode_stands : ∀ g, stands (encode g) g
  leaf : ∀ a, ∃ t, ops.leaf a = .ok t ∧ stands t (element a)
  add : ∀ s t g h, stands s g → stands t h → ops.add s t = .ok (encode (g + h))
  mul : ∀ t g scalar, stands t g → ops.mul t scalar = .ok (encode (weight scalar • g))
  msm : ∀ scalars points elements, List.Forall₂ stands points elements → scalars.length = points.length →
    ops.msm scalars points = .ok (encode (weightedSum weight scalars elements))

section
variable [AddCommMonoid G] {ops : Ops α S T E} {stands : T → G → Prop} {encode : G → T} {element : α → G}
  {weight : S → ℕ}

theorem Terms.length_scalars (element : α → G) (weight : S → ℕ) : ∀ terms : Terms α S,
    terms.scalars.length = (terms.values element weight).length
  | .nil => rfl
  | .cons _ _ rest => congrArg Nat.succ (rest.length_scalars element weight)

mutual

/-- **An expression never fails** and its result stands for its meaning. -/
theorem Expr.eval_stands (computes : ops.Computes stands encode element weight) : ∀ e : Expr α S,
    ∃ t, e.eval ops = .ok t ∧ stands t (e.value element weight)
  | .leaf a => by
    rw [Expr.eval, Expr.value]
    exact computes.leaf a
  | .add first second => by
    obtain ⟨s, runS, standsS⟩ := first.eval_stands computes
    obtain ⟨t, runT, standsT⟩ := second.eval_stands computes
    rw [Expr.eval, Expr.value, runS, runT]
    exact ⟨_, computes.add _ _ _ _ standsS standsT, computes.encode_stands _⟩
  | .mul point scalar => by
    obtain ⟨t, run, standsT⟩ := point.eval_stands computes
    rw [Expr.eval, Expr.value, run]
    exact ⟨_, computes.mul _ _ scalar standsT, computes.encode_stands _⟩
  | .msm terms => by
    obtain ⟨ts, run, stand⟩ := terms.eval_stands computes
    have sameLength : terms.scalars.length = ts.length :=
      (terms.length_scalars element weight).trans stand.length_eq.symm
    rw [Expr.eval, Expr.value, run, terms.value_eq]
    exact ⟨_, computes.msm _ _ _ stand sameLength, computes.encode_stands _⟩

theorem Terms.eval_stands (computes : ops.Computes stands encode element weight) : ∀ terms : Terms α S,
    ∃ ts, terms.eval ops = .ok ts ∧ List.Forall₂ stands ts (terms.values element weight)
  | .nil => ⟨[], rfl, .nil⟩
  | .cons _ point rest => by
    obtain ⟨t, run, standsT⟩ := point.eval_stands computes
    obtain ⟨ts, runs, stand⟩ := rest.eval_stands computes
    rw [Terms.eval, Terms.values, run, runs]
    exact ⟨t :: ts, rfl, .cons standsT stand⟩

end

/-- Lists of expressions are evaluated one after another. -/
theorem mapM_stands {β : Type} {f : β → Except E T} {R : T → β → Prop} (xs : List β)
    (each : ∀ x, ∃ t, f x = .ok t ∧ R t x) : ∃ ts, xs.mapM f = .ok ts ∧ List.Forall₂ R ts xs := by
  induction xs with
  | nil => exact ⟨[], rfl, .nil⟩
  | cons x xs ih =>
    obtain ⟨t, run, related⟩ := each x
    obtain ⟨ts, runs, relateds⟩ := ih
    rw [List.mapM_cons, run, runs]
    exact ⟨t :: ts, rfl, .cons related relateds⟩

/-- **A call returns the term of its meaning.** -/
theorem Expr.eval_call (computes : ops.Computes stands encode element weight) {e : Expr α S} (call : e.IsCall) :
    e.eval ops = .ok (encode (e.value element weight)) := by
  cases e with
  | leaf a => exact absurd call id
  | add first second =>
    obtain ⟨s, runS, standsS⟩ := first.eval_stands computes
    obtain ⟨t, runT, standsT⟩ := second.eval_stands computes
    rw [Expr.eval, Expr.value, runS, runT]
    exact computes.add _ _ _ _ standsS standsT
  | mul point scalar =>
    obtain ⟨t, run, standsT⟩ := point.eval_stands computes
    rw [Expr.eval, Expr.value, run]
    exact computes.mul _ _ scalar standsT
  | msm terms =>
    obtain ⟨ts, run, stand⟩ := terms.eval_stands computes
    have sameLength : terms.scalars.length = ts.length :=
      (terms.length_scalars element weight).trans stand.length_eq.symm
    rw [Expr.eval, Expr.value, run, terms.value_eq]
    exact computes.msm _ _ _ stand sameLength

/-- **Every call is one multi-scalar multiplication over its leaves.** -/
theorem Expr.eval_normalForm (computes : ops.Computes stands encode element weight) {reduce : ℕ → S}
    (harmless : ∀ (n : ℕ) (g : G), weight (reduce n) • g = n • g) {e : Expr α S} (call : e.IsCall) :
    (e.normalForm weight reduce).eval ops = e.eval ops := by
  have single : (e.normalForm weight reduce).IsCall := trivial
  rw [Expr.eval_call computes single, Expr.eval_call computes call, e.value_normalForm harmless]

end

/-! ## Without a multi-scalar multiplication -/

/-- Add the products one after another. -/
def foldMsm (add : T → T → Except E T) (mul : T → S → Except E T) (zero : T) (scalars : List S) (points : List T) :
    Except E T :=
  (points.zip scalars).foldlM (fun acc item => do
    let product ← mul item.1 item.2
    add acc product) zero

/-- The fold computes what a multi-scalar multiplication should. -/
theorem foldMsm_encode [AddCommGroup G] {add : T → T → Except E T} {mul : T → S → Except E T} {encode : G → T}
    {weight : S → ℕ} (hom : ∀ g h, add (encode g) (encode h) = .ok (encode (g + h)))
    (multiple : ∀ g scalar, mul (encode g) scalar = .ok (encode (weight scalar • g))) (scalars : List S)
    (elements : List G) :
    foldMsm add mul (encode 0) scalars (elements.map encode) = .ok (encode (weightedSum weight scalars elements)) := by
  have zipped : (elements.map encode).zip scalars = (elements.zip scalars).map fun t => (encode t.1, t.2) :=
    List.zip_map_left
  have fold := GroupCode.foldlM_encode hom (elements.zip scalars)
    (fun t _ => multiple t.1 t.2 : ∀ t ∈ elements.zip scalars, _) 0
  have products : ((elements.zip scalars).map fun t => weight t.2 • t.1).sum = weightedSum weight scalars elements := by
    unfold weightedSum
    rw [List.zipWith_comm, List.map_zip_eq_zipWith]
    rfl
  unfold foldMsm
  rw [zipped, List.foldlM_map]
  rw [zero_add, products] at fold
  exact fold

/-! ## Coefficients modulo the order -/

section
variable [AddCommGroup G] {element : α → G} {r : ℕ}

/-- The total coefficient of each leaf, modulo `r`. -/
noncomputable def totals (r : ℕ) (l : List (α × ℕ)) : α →₀ ZMod r :=
  (l.map fun t => Finsupp.single t.1 (t.2 : ZMod r)).sum

/-- The totals determine the combination. -/
theorem combination_eq_of_totals (order : ∀ a, r • element a = 0) (l : List (α × ℕ)) :
    combination element l = Finsupp.liftAddHom (fun a => residueMultiple (element a) (order a)) (totals r l) := by
  unfold combination totals
  rw [map_list_sum, List.map_map]
  congr 1
  refine List.map_congr_left fun t _ => ?_
  rw [Function.comp_apply, Finsupp.liftAddHom_apply_single, residueMultiple_natCast]

/-- **Expressions with the same totals say the same** over leaves that `r` annihilates. -/
theorem Expr.value_eq_of_totals {weight : S → ℕ} (order : ∀ a, r • element a = 0) {e e' : Expr α S}
    (same : totals r (e.flat weight) = totals r (e'.flat weight)) :
    e.value element weight = e'.value element weight := by
  rw [← e.combination_flat, ← e'.combination_flat, combination_eq_of_totals order, same,
    ← combination_eq_of_totals order]

/-- **Calls with the same totals return the same term.** -/
theorem Expr.eval_eq_of_totals {ops : Ops α S T E} {stands : T → G → Prop} {encode : G → T} {weight : S → ℕ}
    (computes : ops.Computes stands encode element weight) (order : ∀ a, r • element a = 0) {e e' : Expr α S}
    (call : e.IsCall) (call' : e'.IsCall) (same : totals r (e.flat weight) = totals r (e'.flat weight)) :
    e.eval ops = e'.eval ops := by
  rw [Expr.eval_call computes call, Expr.eval_call computes call', Expr.value_eq_of_totals order same]

end

/-! ## Homomorphisms and pairings -/

section
variable {H : Type} [AddCommMonoid G] [AddCommMonoid H] {weight : S → ℕ}

/-- An expression over images of elements says the image of what it says over the elements. -/
theorem Expr.value_eq_map (φ : H →+ G) {element : α → G} {log : α → H} {e : Expr α S}
    (images : ∀ t ∈ e.flat weight, element t.1 = φ (log t.1)) : e.value element weight = φ (e.value log weight) := by
  rw [← e.combination_flat, ← e.combination_flat]
  unfold combination
  rw [map_list_sum, List.map_map]
  congr 1
  refine List.map_congr_left fun t member => ?_
  rw [Function.comp_apply, map_nsmul, images t member]

end

/-- Two expressions as pairs of leaves, the product of their coefficients on the first. -/
def multiplyOut {β : Type} (weight : S → ℕ) (reduce : ℕ → S) (e : Expr α S) (f : Expr β S) :
    List (Expr α S × Expr β S) :=
  (e.flat weight ×ˢ f.flat weight).map fun t => (.mul (.leaf t.1.1) (reduce (t.1.2 * t.2.2)), .leaf t.2.1)

section
variable {β H M : Type} [AddCommGroup G] [AddCommGroup H] [CommMonoid M] {weight : S → ℕ} {reduce : ℕ → S}
  {p : G → H → M}

/-- **A pairing of two expressions is the product over the pairs of their leaves.** -/
theorem prod_multiplyOut (pairing : IsPairing p) (harmless : ∀ (n : ℕ) (g : G), weight (reduce n) • g = n • g)
    (element : α → G) (element' : β → H) (e : Expr α S) (f : Expr β S) :
    ((multiplyOut weight reduce e f).map fun t => p (t.1.value element weight) (t.2.value element' weight)).prod =
      p (e.value element weight) (f.value element' weight) := by
  rw [← e.combination_flat, ← f.combination_flat]
  unfold combination multiplyOut
  rw [pairing.sum_sum, List.map_map]
  congr 1
  refine List.map_congr_left fun t _ => ?_
  rw [Function.comp_apply, Expr.value, Expr.value, Expr.value, harmless, pairing.nsmul_nsmul]

end

end GroupExpr
