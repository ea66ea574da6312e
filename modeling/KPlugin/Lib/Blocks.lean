import Mathlib.Algebra.GroupWithZero.Nat
import Mathlib.Logic.Equiv.Prod
import Mathlib.Data.List.Nodup
import Mathlib.Logic.Function.Basic

/-!
# Updating disjoint blocks of a state

A state `ι → α` is cut into disjoint blocks by an equivalence `P : J × R ≃ ι`:
block `j` consists of the positions `P (j, r)`. Code updates one block after
another (`stepAt`), vector code updates all of them at once (`stepAll`). The
two agree whatever the order, because a step on one block neither reads nor
writes another one. Index type, block shape and the update are parameters. An
array enters as its function of positions.
-/

namespace Blocks

variable {J R ι α : Type*}

-- literals of `Fin 16` and its like find these, whatever else is imported
scoped instance neZero_two : NeZero 2 := ⟨by decide⟩
scoped instance neZero_four : NeZero 4 := ⟨by decide⟩
scoped instance neZero_eight : NeZero 8 := ⟨by decide⟩
scoped instance neZero_ten : NeZero 10 := ⟨by decide⟩
scoped instance neZero_sixteen : NeZero 16 := ⟨by decide⟩

/-! ## Arrays as functions -/

@[simp] theorem get_ofFn {n : ℕ} (f : Fin n → α) : (Vector.ofFn f).get = f := by
  funext j
  exact Vector.getElem_ofFn j.isLt

/-- Assigning to one element is a function update. -/
@[simp] theorem get_set {n : ℕ} (x : Vector α n) (i : Fin n) (a : α) :
    (x.set i a).get = Function.update x.get i a := by
  funext j
  refine (Vector.getElem_set i.isLt j.isLt).trans ?_
  rw [Function.update_apply]
  by_cases same : j = i
  · rw [if_pos (congrArg Fin.val same.symm), if_pos same]
  · rw [if_neg (fun eq => same (Fin.ext eq.symm)), if_neg same]
    rfl

/-- Arrays with the same elements are the same. -/
theorem ext_get {n : ℕ} {x y : Vector α n} (same : x.get = y.get) : x = y := by
  apply Vector.ext
  intro i hi
  exact congrFun same ⟨i, hi⟩

/-! ## Blocks -/

/-- The contents of block `j`. -/
def block (P : J × R ≃ ι) (v : ι → α) (j : J) : R → α := fun r => v (P (j, r))

/-- Replace block `j` by its image under `G j`. -/
def stepAt [DecidableEq J] (P : J × R ≃ ι) (G : J → (R → α) → R → α) (v : ι → α) (j : J) : ι → α :=
  fun i => if (P.symm i).1 = j then G j (block P v j) (P.symm i).2 else v i

/-- Replace every block by its image. -/
def stepAll (P : J × R ≃ ι) (G : J → (R → α) → R → α) (v : ι → α) : ι → α :=
  fun i => G (P.symm i).1 (block P v (P.symm i).1) (P.symm i).2

/-- States with the same blocks are the same. -/
theorem ext_block {P : J × R ≃ ι} {v w : ι → α} (same : ∀ j, block P v j = block P w j) : v = w := by
  funext i
  have at_i := congrFun (same (P.symm i).1) (P.symm i).2
  have position : P ((P.symm i).1, (P.symm i).2) = i := P.apply_symm_apply i
  simpa only [block, position] using at_i

@[simp] theorem block_stepAll (P : J × R ≃ ι) (G : J → (R → α) → R → α) (v : ι → α) (j : J) :
    block P (stepAll P G v) j = G j (block P v j) := by
  funext r
  simp [block, stepAll]

/-- A step on block `k` changes that block only. -/
theorem block_stepAt [DecidableEq J] (P : J × R ≃ ι) (G : J → (R → α) → R → α) (v : ι → α) (k j : J) :
    block P (stepAt P G v k) j = if j = k then G k (block P v k) else block P v j := by
  funext r
  by_cases same : j = k <;> simp [block, stepAt, same]

/-- Steps on a duplicate-free list of blocks change exactly the listed blocks. -/
theorem block_foldl_stepAt [DecidableEq J] (P : J × R ≃ ι) (G : J → (R → α) → R → α) {js : List J}
    (distinct : js.Nodup) (v : ι → α) (j : J) :
    block P (js.foldl (stepAt P G) v) j = if j ∈ js then G j (block P v j) else block P v j := by
  induction js generalizing v with
  | nil => simp
  | cons k js ih =>
    obtain ⟨fresh, distinct⟩ := List.nodup_cons.mp distinct
    rw [List.foldl_cons, ih distinct, block_stepAt]
    by_cases here : j = k
    · subst here
      simp [fresh]
    · simp [here]

/-- **One after another is all at once**: stepping through every block in any
order is the parallel step. -/
theorem foldl_stepAt [DecidableEq J] (P : J × R ≃ ι) (G : J → (R → α) → R → α) (js : List J)
    (distinct : js.Nodup) (all : ∀ j, j ∈ js) (v : ι → α) :
    js.foldl (stepAt P G) v = stepAll P G v := by
  apply ext_block (P := P)
  intro j
  rw [block_foldl_stepAt P G distinct, if_pos (all j), block_stepAll]

/-- Two parallel steps over the same blocks compose blockwise. -/
theorem stepAll_stepAll (P : J × R ≃ ι) (G H : J → (R → α) → R → α) (v : ι → α) :
    stepAll P G (stepAll P H v) = stepAll P (fun j => G j ∘ H j) v := by
  apply ext_block (P := P)
  intro j
  simp

@[simp] theorem stepAll_id (P : J × R ≃ ι) (v : ι → α) : stepAll P (fun _ => id) v = v := by
  apply ext_block (P := P)
  intro j
  simp

/-- A blockwise left inverse undoes the parallel step. -/
theorem stepAll_leftInverse (P : J × R ≃ ι) {G H : J → (R → α) → R → α}
    (inverse : ∀ j, Function.LeftInverse (G j) (H j)) :
    Function.LeftInverse (stepAll P G) (stepAll P H) := by
  intro v
  rw [stepAll_stepAll]
  have blockwise : (fun j => G j ∘ H j) = fun _ => id := by
    funext j b
    exact inverse j b
  rw [blockwise, stepAll_id]

end Blocks
