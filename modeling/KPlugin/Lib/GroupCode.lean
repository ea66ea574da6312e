import Mathlib.Algebra.Group.Basic
import Mathlib.Algebra.BigOperators.Group.List.Basic

/-!
# Groups in disguise

Some terms stand for the elements of an abelian group, one term for each
element, and a fallible operation on terms adds what they stand for. Then the
operation never fails on such terms and they form an abelian group themselves;
iterating it gives multiples, folding it gives sums.
-/

namespace GroupCode

variable {T G E : Type*}

/-- `encode` names every element by one term, and the terms it uses are the valid ones. -/
structure Code (valid : T → Prop) (encode : G → T) : Prop where
  valid_iff : ∀ t, valid t ↔ ∃ g, encode g = t
  injective : Function.Injective encode

/-- The valid terms are an abelian group under `add`. -/
structure IsAbelianGroup (valid : T → Prop) (add : T → T → Except E T) (zero : T) (neg : T → T) : Prop where
  zero_valid : valid zero
  closed : ∀ s t, valid s → valid t → ∃ u, add s t = .ok u ∧ valid u
  comm : ∀ s t, valid s → valid t → add s t = add t s
  assoc : ∀ s t u, valid s → valid t → valid u →
    (do let st ← add s t; add st u) = (do let tu ← add t u; add s tu)
  add_zero : ∀ s, valid s → add s zero = .ok s
  neg_valid : ∀ s, valid s → valid (neg s)
  add_neg : ∀ s, valid s → add s (neg s) = .ok zero

/-- The sum of `n` copies of a term, added one after another. -/
def nfold (add : T → T → Except E T) (zero : T) : ℕ → T → Except E T
  | 0, _ => .ok zero
  | n + 1, t => do
    let s ← nfold add zero n t
    add s t

variable {valid : T → Prop} {encode : G → T} {add : T → T → Except E T}

theorem Code.valid_encode (code : Code valid encode) (g : G) : valid (encode g) := (code.valid_iff _).mpr ⟨g, rfl⟩

variable [AddCommGroup G]

/-- **Terms that stand for group elements are a group.** -/
theorem Code.isAbelianGroup (code : Code valid encode) (hom : ∀ g h, add (encode g) (encode h) = .ok (encode (g + h)))
    {zero : T} (zero_eq : encode 0 = zero) {neg : T → T} (neg_eq : ∀ g, neg (encode g) = encode (-g)) :
    IsAbelianGroup valid add zero neg where
  zero_valid := zero_eq ▸ code.valid_encode 0
  closed := by
    rintro s t hs ht
    obtain ⟨g, rfl⟩ := (code.valid_iff s).mp hs
    obtain ⟨h, rfl⟩ := (code.valid_iff t).mp ht
    exact ⟨encode (g + h), hom g h, code.valid_encode _⟩
  comm := by
    rintro s t hs ht
    obtain ⟨g, rfl⟩ := (code.valid_iff s).mp hs
    obtain ⟨h, rfl⟩ := (code.valid_iff t).mp ht
    rw [hom, hom, add_comm]
  assoc := by
    rintro s t u hs ht hu
    obtain ⟨g, rfl⟩ := (code.valid_iff s).mp hs
    obtain ⟨h, rfl⟩ := (code.valid_iff t).mp ht
    obtain ⟨k, rfl⟩ := (code.valid_iff u).mp hu
    rw [hom, hom]
    calc add (encode (g + h)) (encode k)
        = .ok (encode (g + h + k)) := hom _ _
      _ = .ok (encode (g + (h + k))) := by rw [add_assoc]
      _ = add (encode g) (encode (h + k)) := (hom _ _).symm
  add_zero := by
    rintro s hs
    obtain ⟨g, rfl⟩ := (code.valid_iff s).mp hs
    rw [← zero_eq, hom, add_zero]
  neg_valid := by
    rintro s hs
    obtain ⟨g, rfl⟩ := (code.valid_iff s).mp hs
    rw [neg_eq]
    exact code.valid_encode _
  add_neg := by
    rintro s hs
    obtain ⟨g, rfl⟩ := (code.valid_iff s).mp hs
    rw [neg_eq, hom, add_neg_cancel, zero_eq]

/-- Adding copies of a term multiplies what it stands for. -/
theorem nfold_encode (hom : ∀ g h, add (encode g) (encode h) = .ok (encode (g + h))) {zero : T}
    (zero_eq : encode 0 = zero) (n : ℕ) (g : G) : nfold add zero n (encode g) = .ok (encode (n • g)) := by
  induction n with
  | zero => rw [nfold, zero_nsmul, zero_eq]
  | succ n ih =>
    rw [nfold, ih, succ_nsmul]
    exact hom _ _

/-- Folding the operation over terms sums what they stand for. -/
theorem foldlM_encode {α : Type*} (hom : ∀ g h, add (encode g) (encode h) = .ok (encode (g + h)))
    {term : α → Except E T} {element : α → G} (xs : List α) (stands : ∀ x ∈ xs, term x = .ok (encode (element x)))
    (g : G) :
    xs.foldlM (fun s x => do let t ← term x; add s t) (encode g) = .ok (encode (g + (xs.map element).sum)) := by
  induction xs generalizing g with
  | nil => rw [List.map_nil, List.sum_nil, add_zero]; rfl
  | cons x xs ih =>
    rw [List.foldlM_cons, stands x List.mem_cons_self, List.map_cons, List.sum_cons, ← add_assoc]
    have first : (do let t ← Except.ok (encode (element x)); add (encode g) t) = .ok (encode (g + element x)) :=
      hom _ _
    rw [first]
    exact ih (fun y member => stands y (List.mem_cons_of_mem x member)) _

end GroupCode
