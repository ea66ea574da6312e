import Mathlib.Data.List.Forall2
import KPlugin.Lib.ObjectHeap

/-!
# Programs that share strings

A program keeps names for the strings it was given and passes them to operations. An
operation returns a fresh string, but it may leave something else in its first argument,
and every other name for that string sees the difference. Operations are given by an
algebra, so the same program runs on strings, on a heap and on terms, and a homomorphism
of algebras takes one run to the other.
-/

namespace InPlace
open ObjectHeap

variable {Op D E : Type}

/-! ## Programs -/

/-- What an operation returns, and what it leaves in its first argument. -/
structure Algebra (Op D : Type) where
  result : Op → List D → Option D
  residue : Op → D → List D → D

/-- The operations without their effect. -/
def Algebra.keeping (A : Algebra Op D) : Algebra Op D := { A with residue := fun _ d _ => d }

/-- The objects after a call on the objects at some addresses. -/
def Algebra.leave (A : Algebra Op D) (op : Op) : List ℕ → List D → List D → List D
  | a :: _, d :: ds, objects => objects.set a (A.residue op d ds)
  | _, _, objects => objects

/-- A call on named objects, or one more name for an object. -/
inductive Instr (Op : Type) where
  | call (op : Op) (args : List ℕ)
  | share (name : ℕ)

structure State (D : Type) where
  objects : List D
  names : List ℕ

def State.empty : State D := ⟨[], []⟩

/-- What an instruction returns, and the state it leaves. -/
def step (A : Algebra Op D) (s : State D) : Instr Op → Option (D × State D)
  | .call op args => do
    let addrs ← args.mapM fun name => s.names[name]?
    let ds ← addrs.mapM fun a => s.objects[a]?
    let d ← A.result op ds
    return (d, ⟨A.leave op addrs ds s.objects ++ [d], s.names ++ [s.objects.length]⟩)
  | .share name => do
    let a ← s.names[name]?
    let d ← s.objects[a]?
    return (d, ⟨s.objects, s.names ++ [a]⟩)

/-- What the instructions of a program return, each at its time. -/
def outputs (A : Algebra Op D) : State D → List (Instr Op) → Option (List D)
  | _, [] => some []
  | s, i :: p => do
    let (d, next) ← step A s i
    let ds ← outputs A next p
    return d :: ds

/-! ## Small facts -/

section
variable {A : Algebra Op D} {op : Op} {addrs : List ℕ} {ds objects : List D}

@[simp] theorem length_leave : (A.leave op addrs ds objects).length = objects.length := by
  unfold Algebra.leave
  split
  · exact List.length_set
  · rfl

/-- A list is mapped when its head and its tail are. -/
theorem mapM_cons_eq_some {α β : Type} {f : α → Option β} {x : α} {xs : List α} {ys : List β}
    (mapped : (x :: xs).mapM f = some ys) : ∃ y rest, f x = some y ∧ xs.mapM f = some rest ∧ ys = y :: rest := by
  rw [List.mapM_cons] at mapped
  obtain ⟨y, first, mapped⟩ := Option.bind_eq_some_iff.mp mapped
  obtain ⟨rest, later, same⟩ := Option.bind_eq_some_iff.mp mapped
  cases same
  exact ⟨y, rest, first, later, rfl⟩

/-- Keeping the argument is no change. -/
theorem leave_keeping (read : addrs.mapM (fun a => objects[a]?) = some ds) :
    A.keeping.leave op addrs ds objects = objects := by
  cases addrs with
  | nil => rfl
  | cons a addrs =>
    obtain ⟨d, tail, first, -, rfl⟩ := mapM_cons_eq_some read
    obtain ⟨bound, value⟩ := List.getElem?_eq_some_iff.mp first
    change objects.set a d = objects
    rw [← value, List.set_getElem_self]

theorem mapM_congr {α β : Type} {f g : α → Option β} {xs : List α} (same : ∀ x ∈ xs, f x = g x) :
    xs.mapM f = xs.mapM g := by
  induction xs with
  | nil => rfl
  | cons x xs ih =>
    rw [List.mapM_cons, List.mapM_cons, same x List.mem_cons_self,
      ih fun y member => same y (List.mem_cons_of_mem x member)]

end

/-! ## On a heap -/

section
variable {α : Type} {exec : Op → List Addr → Heap α → Option (Addr × Heap α)}

/-- The same instruction, when the operations themselves work on the heap. -/
def heapStep (exec : Op → List Addr → Heap α → Option (Addr × Heap α)) (s : State (List α)) :
    Instr Op → Option (List α × State (List α))
  | .call op args => do
    let addrs ← args.mapM fun name => s.names[name]?
    let (a, σ) ← exec op addrs s.objects
    return (contents σ a, ⟨σ, s.names ++ [a]⟩)
  | .share name => do
    let a ← s.names[name]?
    return (contents s.objects a, ⟨s.objects, s.names ++ [a]⟩)

def heapOutputs (exec : Op → List Addr → Heap α → Option (Addr × Heap α)) :
    State (List α) → List (Instr Op) → Option (List (List α))
  | _, [] => some []
  | s, i :: p => do
    let (d, next) ← heapStep exec s i
    let ds ← heapOutputs exec next p
    return d :: ds

/-- On live arguments an operation allocates its result and touches nothing but its first argument. -/
def Executes (exec : Op → List Addr → Heap α → Option (Addr × Heap α)) (A : Algebra Op (List α)) : Prop :=
  ∀ op addrs σ, (∀ a ∈ addrs, a < σ.length) →
    exec op addrs σ = (A.result op (addrs.map (contents σ))).map
      (alloc (A.leave op addrs (addrs.map (contents σ)) σ))

/-- Every name is for an object. -/
def State.Live (s : State D) : Prop := ∀ a ∈ s.names, a < s.objects.length

theorem live_empty : (State.empty : State D).Live := fun _ member => nomatch member

theorem getElem?_eq_contents {σ : Heap α} {a : Addr} (live : a < σ.length) : σ[a]? = some (contents σ a) := by
  simp [contents, live]

theorem mapM_contents {σ : Heap α} {addrs : List Addr} (live : ∀ a ∈ addrs, a < σ.length) :
    addrs.mapM (fun a => σ[a]?) = some (addrs.map (contents σ)) := by
  rw [mapM_congr fun a member => getElem?_eq_contents (live a member)]
  exact List.mapM_pure (m := Option)

/-- Names that are found are live. -/
theorem State.Live.mapM {s : State D} (live : s.Live) {args addrs : List ℕ}
    (found : args.mapM (fun name => s.names[name]?) = some addrs) : ∀ a ∈ addrs, a < s.objects.length := by
  induction args generalizing addrs with
  | nil =>
    cases found
    exact fun _ member => nomatch member
  | cons name args ih =>
    obtain ⟨a, tail, first, later, rfl⟩ := mapM_cons_eq_some found
    intro b member
    rcases List.mem_cons.mp member with rfl | deeper
    · exact live b (List.mem_of_getElem? first)
    · exact ih later b deeper

theorem State.Live.step {A : Algebra Op D} {s next : State D} (live : s.Live) {i : Instr Op} {d : D}
    (ran : InPlace.step A s i = some (d, next)) : next.Live := by
  cases i with
  | call op args =>
    obtain ⟨addrs, -, ran⟩ := Option.bind_eq_some_iff.mp ran
    obtain ⟨ds, -, ran⟩ := Option.bind_eq_some_iff.mp ran
    obtain ⟨result, -, same⟩ := Option.bind_eq_some_iff.mp ran
    cases same
    intro a member
    simp only [List.length_append, length_leave, List.length_singleton]
    rcases List.mem_append.mp member with old | fresh
    · have bound := live a old
      omega
    · rw [List.mem_singleton.mp fresh]
      omega
  | share name =>
    obtain ⟨b, found, ran⟩ := Option.bind_eq_some_iff.mp ran
    obtain ⟨result, -, same⟩ := Option.bind_eq_some_iff.mp ran
    cases same
    intro a member
    rcases List.mem_append.mp member with old | fresh
    · exact live a old
    · rw [List.mem_singleton.mp fresh]
      exact live b (List.mem_of_getElem? found)

/-- One instruction on the heap is one instruction on its strings. -/
theorem heapStep_eq {A : Algebra Op (List α)} (executes : Executes exec A) {s : State (List α)} (live : s.Live)
    (i : Instr Op) : heapStep exec s i = step A s i := by
  cases i with
  | call op args =>
    simp only [heapStep, step, Option.bind_eq_bind]
    cases found : args.mapM fun name => s.names[name]? with
    | none => rfl
    | some addrs =>
      have bounds := live.mapM found
      rw [Option.bind_some, Option.bind_some, executes op addrs s.objects bounds, mapM_contents bounds,
        Option.bind_some]
      cases A.result op (addrs.map (contents s.objects)) with
      | none => rfl
      | some d => simp [alloc, contents]
  | share name =>
    simp only [heapStep, step, Option.bind_eq_bind]
    cases found : s.names[name]? with
    | none => rfl
    | some a =>
      have bound := live a (List.mem_of_getElem? found)
      rw [Option.bind_some, Option.bind_some, getElem?_eq_contents bound]
      rfl

/-- **A program on the heap** returns what it returns on strings. -/
theorem heapOutputs_eq {A : Algebra Op (List α)} (executes : Executes exec A) {s : State (List α)} (live : s.Live)
    (p : List (Instr Op)) : heapOutputs exec s p = outputs A s p := by
  induction p generalizing s with
  | nil => rfl
  | cons i p ih =>
    unfold heapOutputs outputs
    rw [heapStep_eq executes live]
    cases ran : step A s i with
    | none => rfl
    | some pair =>
      obtain ⟨d, next⟩ := pair
      simp only [Option.bind_eq_bind, Option.bind_some, ih (live.step ran)]

end

/-! ## Homomorphisms -/

/-- A partial map that takes the operations of one algebra to those of another. -/
structure Hom (A : Algebra Op D) (B : Algebra Op E) (h : D → Option E) : Prop where
  result : ∀ op ds es, ds.mapM h = some es → (A.result op ds).bind h = B.result op es
  residue : ∀ op d ds e es, h d = some e → ds.mapM h = some es → h (A.residue op d ds) = some (B.residue op e es)

section
variable {A : Algebra Op D} {B : Algebra Op E} {h : D → Option E}

theorem Hom.keeping (hom : Hom A B h) : Hom A.keeping B.keeping h where
  result := hom.result
  residue := fun _ _ _ _ _ first _ => first

/-- Objects that `h` maps one by one. -/
def Maps (h : D → Option E) (ds : List D) (es : List E) : Prop := List.Forall₂ (fun d e => h d = some e) ds es

theorem Maps.getElem? {ds : List D} {es : List E} (maps : Maps h ds es) (a : ℕ) : ds[a]?.bind h = es[a]? := by
  induction maps generalizing a with
  | nil => rfl
  | cons first _ ih =>
    cases a with
    | zero => simpa using first
    | succ a => simpa using ih a

/-- Reading maps too. -/
theorem Maps.mapM_getElem? {ds : List D} {es : List E} (maps : Maps h ds es) {addrs : List ℕ} {read : List D}
    (found : addrs.mapM (fun a => ds[a]?) = some read) :
    ∃ read', addrs.mapM (fun a => es[a]?) = some read' ∧ read.mapM h = some read' := by
  induction addrs generalizing read with
  | nil =>
    cases found
    exact ⟨[], rfl, rfl⟩
  | cons a addrs ih =>
    obtain ⟨d, rest, first, later, rfl⟩ := mapM_cons_eq_some found
    obtain ⟨rest', later', mapped⟩ := ih later
    have image := maps.getElem? a
    rw [first, Option.bind_some] at image
    obtain ⟨bound, -⟩ := List.getElem?_eq_some_iff.mp first
    have bound' : a < es.length := List.Forall₂.length_eq maps ▸ bound
    rw [List.getElem?_eq_getElem bound'] at image
    refine ⟨es[a] :: rest', ?_, ?_⟩
    · rw [List.mapM_cons, List.getElem?_eq_getElem bound', later']
      rfl
    · rw [List.mapM_cons, image, mapped]
      rfl

theorem mapM_bind_mapM {α β γ : Type} (f : α → Option β) (g : β → Option γ) (xs : List α) :
    (xs.mapM f).bind (fun ys => ys.mapM g) = xs.mapM fun x => (f x).bind g := by
  induction xs with
  | nil => rfl
  | cons x xs ih =>
    rw [List.mapM_cons, List.mapM_cons, ← ih]
    cases f x with
    | none => rfl
    | some y =>
      cases xs.mapM f with
      | none => cases first : g y <;> simp [first]
      | some ys => simp [List.mapM_cons]

theorem Maps.mapM_getElem?_none {ds : List D} {es : List E} (maps : Maps h ds es) {addrs : List ℕ}
    (missing : addrs.mapM (fun a => ds[a]?) = none) : addrs.mapM (fun a => es[a]?) = none := by
  have read := mapM_bind_mapM (fun a => ds[a]?) h addrs
  rw [missing, mapM_congr fun a _ => maps.getElem? a] at read
  exact read.symm

theorem Maps.set {ds : List D} {es : List E} (maps : Maps h ds es) (a : ℕ) {d : D} {e : E} (same : h d = some e) :
    Maps h (ds.set a d) (es.set a e) := by
  induction maps generalizing a with
  | nil => exact .nil
  | cons first rest ih =>
    cases a with
    | zero => exact .cons same rest
    | succ a => exact .cons first (ih a)

/-- The objects after a call map to the objects after the call. -/
theorem Hom.leave (hom : Hom A B h) {objects ds : List D} {objects' es : List E} (maps : Maps h objects objects')
    (read : ds.mapM h = some es) (op : Op) (addrs : List ℕ) :
    Maps h (A.leave op addrs ds objects) (B.leave op addrs es objects') := by
  cases addrs with
  | nil => exact maps
  | cons a addrs =>
    cases ds with
    | nil =>
      cases read
      exact maps
    | cons d ds =>
      obtain ⟨e, rest, first, later, rfl⟩ := mapM_cons_eq_some read
      exact maps.set a (hom.residue op d ds e rest first later)

/-- One instruction: either both fail, or the result has no image and the other run
fails, or everything maps. -/
theorem Hom.step (hom : Hom A B h) {s : State D} {t : State E} (maps : Maps h s.objects t.objects)
    (names : s.names = t.names) (i : Instr Op) :
    (InPlace.step A s i = none ∧ InPlace.step B t i = none) ∨
    ∃ d next, InPlace.step A s i = some (d, next) ∧
      ((h d = none ∧ InPlace.step B t i = none) ∨
        ∃ e next', h d = some e ∧ InPlace.step B t i = some (e, next') ∧ Maps h next.objects next'.objects ∧
          next.names = next'.names) := by
  have length := List.Forall₂.length_eq maps
  cases i with
  | call op args =>
    simp only [InPlace.step, Option.bind_eq_bind, ← names]
    cases args.mapM fun name => s.names[name]? with
    | none => exact .inl ⟨rfl, rfl⟩
    | some addrs =>
      rw [Option.bind_some, Option.bind_some]
      cases found : addrs.mapM fun a => s.objects[a]? with
      | none =>
        rw [maps.mapM_getElem?_none found]
        exact .inl ⟨rfl, rfl⟩
      | some ds =>
        obtain ⟨es, found', mapped⟩ := maps.mapM_getElem? found
        have result := hom.result op ds es mapped
        rw [found', Option.bind_some, Option.bind_some, ← result]
        cases A.result op ds with
        | none => exact .inl ⟨rfl, rfl⟩
        | some d =>
          refine .inr ⟨d, _, rfl, ?_⟩
          cases image : h d with
          | none => exact .inl ⟨rfl, by simp [image]⟩
          | some e =>
            refine .inr ⟨e, ⟨B.leave op addrs es t.objects ++ [e], s.names ++ [t.objects.length]⟩, rfl, ?_, ?_, ?_⟩
            · simp [image]
            · exact List.rel_append (hom.leave maps mapped op addrs) (.cons image .nil)
            · rw [length]
  | share name =>
    simp only [InPlace.step, Option.bind_eq_bind, ← names]
    cases s.names[name]? with
    | none => exact .inl ⟨rfl, rfl⟩
    | some a =>
      have image := maps.getElem? a
      rw [Option.bind_some, Option.bind_some, ← image]
      cases s.objects[a]? with
      | none => exact .inl ⟨rfl, rfl⟩
      | some d =>
        refine .inr ⟨d, _, rfl, ?_⟩
        cases same : h d with
        | none => exact .inl ⟨rfl, by simp [same]⟩
        | some e => exact .inr ⟨e, ⟨t.objects, s.names ++ [a]⟩, rfl, by simp [same], maps, rfl⟩

/-- **A homomorphism takes the outputs of a program to its outputs**, and a failure to a failure. -/
theorem Hom.outputs (hom : Hom A B h) {s : State D} {t : State E} (maps : Maps h s.objects t.objects)
    (names : s.names = t.names) (p : List (Instr Op)) :
    (InPlace.outputs A s p).bind (fun ds => ds.mapM h) = InPlace.outputs B t p := by
  induction p generalizing s t with
  | nil => rfl
  | cons i p ih =>
    unfold InPlace.outputs
    rcases hom.step maps names i with ⟨failed, failed'⟩ | ⟨d, next, ran, unmapped | mapped⟩
    · rw [failed, failed']
      rfl
    · obtain ⟨missing, failed⟩ := unmapped
      rw [ran, failed]
      simp only [Option.bind_eq_bind, Option.bind_some, Option.bind_none]
      cases InPlace.outputs A next p with
      | none => rfl
      | some ds => simp [List.mapM_cons, missing]
    · obtain ⟨e, next', image, ran', maps', names'⟩ := mapped
      have rest := ih maps' names'
      rw [ran, ran']
      simp only [Option.bind_eq_bind, Option.bind_some, ← rest]
      cases InPlace.outputs A next p with
      | none => rfl
      | some ds => simp [List.mapM_cons, image]

end

section
variable {A : Algebra Op D} {B : Algebra Op E} {h : D → Option E}

theorem Hom.outputs_empty (hom : Hom A B h) (p : List (Instr Op)) :
    (InPlace.outputs A .empty p).bind (fun ds => ds.mapM h) = InPlace.outputs B .empty p :=
  hom.outputs (s := .empty) (t := .empty) .nil rfl p

end

/-! ## Terms -/

/-- The string an operation returns, or the one it leaves. -/
inductive Term (Op : Type) where
  | result (op : Op) (args : List (Term Op))
  | residue (op : Op) (first : Term Op) (rest : List (Term Op))

/-- The algebra of terms. -/
def free (Op : Type) : Algebra Op (Term Op) where
  result op ts := some (.result op ts)
  residue := .residue

mutual

/-- What a term stands for. -/
def Term.value (A : Algebra Op D) : Term Op → Option D
  | .result op args => do
    let ds ← values A args
    A.result op ds
  | .residue op first rest => do
    let d ← first.value A
    let ds ← values A rest
    return A.residue op d ds

def values (A : Algebra Op D) : List (Term Op) → Option (List D)
  | [] => some []
  | t :: ts => do
    let d ← t.value A
    let ds ← values A ts
    return d :: ds

end

theorem values_eq (A : Algebra Op D) (ts : List (Term Op)) : values A ts = ts.mapM (Term.value A) := by
  induction ts with
  | nil => simp [values]
  | cons t ts ih => rw [values, List.mapM_cons, ih]

/-- **Evaluation is a homomorphism.** -/
theorem hom_value (A : Algebra Op D) : Hom (free Op) A (Term.value A) where
  result := by
    intro op ts ds mapped
    change Term.value A (.result op ts) = _
    rw [Term.value, values_eq, mapped]
    rfl
  residue := by
    intro op t ts d ds first mapped
    change Term.value A (.residue op t ts) = _
    rw [Term.value, values_eq, first, mapped]
    rfl

/-! ## Careful programs -/

section
variable {A : Algebra Op D}

/-- The addresses an instruction reads. -/
def reads (s : State D) : Instr Op → List ℕ
  | .call _ args => args.filterMap fun name => s.names[name]?
  | .share name => s.names[name]?.toList

/-- Two states with the same names, and with the same objects but for the spent ones. -/
structure Agree (spent : List ℕ) (s t : State D) : Prop where
  names : s.names = t.names
  length : s.objects.length = t.objects.length
  objects : ∀ a ∉ spent, s.objects[a]? = t.objects[a]?

theorem Agree.empty : Agree [] (State.empty : State D) .empty := ⟨rfl, rfl, fun _ _ => rfl⟩

theorem mem_reads_of_mapM {names args addrs : List ℕ} (found : args.mapM (fun name => names[name]?) = some addrs) :
    args.filterMap (fun name => names[name]?) = addrs := by
  induction args generalizing addrs with
  | nil =>
    cases found
    rfl
  | cons name args ih =>
    obtain ⟨a, rest, first, later, rfl⟩ := mapM_cons_eq_some found
    rw [List.filterMap_cons, first, ih later]

variable [DecidableEq D]

/-- The addresses whose objects have changed. -/
def changed (s next : State D) : List ℕ :=
  (List.range s.objects.length).filter fun a => next.objects[a]? ≠ s.objects[a]?

/-- No instruction reads a spent object, one that an earlier instruction has changed. -/
def Careful (A : Algebra Op D) : List ℕ → State D → List (Instr Op) → Prop
  | _, _, [] => True
  | spent, s, i :: p =>
    (∀ a ∈ reads s i, a ∉ spent) ∧
      match step A s i with
      | none => True
      | some (_, next) => Careful A (spent ++ changed s next) next p

theorem careful_none {spent : List ℕ} {s : State D} {i : Instr Op} {p : List (Instr Op)} (failed : step A s i = none) :
    (∀ a ∈ reads s i, a ∉ spent) ↔ Careful A spent s (i :: p) := by
  simp only [Careful, failed, and_true]

theorem careful_some {spent : List ℕ} {s next : State D} {i : Instr Op} {p : List (Instr Op)} {d : D}
    (ran : step A s i = some (d, next)) :
    (∀ a ∈ reads s i, a ∉ spent) ∧ Careful A (spent ++ changed s next) next p ↔ Careful A spent s (i :: p) := by
  simp only [Careful, ran]

instance Careful.decidable (A : Algebra Op D) : ∀ spent s (p : List (Instr Op)), Decidable (Careful A spent s p)
  | _, _, [] => .isTrue trivial
  | spent, s, i :: p =>
    match ran : step A s i with
    | none => decidable_of_iff _ (careful_none ran)
    | some (_, next) =>
      have := Careful.decidable A (spent ++ changed s next) next p
      decidable_of_iff ((∀ a ∈ reads s i, a ∉ spent) ∧ Careful A (spent ++ changed s next) next p) (careful_some ran)

/-- What is not said to have changed has not. -/
theorem kept_of_not_mem {s next : State D} {a : ℕ} (kept : a ∉ changed s next) (bound : a < s.objects.length) :
    next.objects[a]? = s.objects[a]? := by
  by_contra differ
  exact kept (List.mem_filter.mpr ⟨List.mem_range.mpr bound, decide_eq_true differ⟩)

/-- One instruction that reads no spent object returns the same without effects. -/
theorem Agree.step {spent : List ℕ} {s t : State D} (agree : Agree spent s t) {i : Instr Op}
    (unspent : ∀ a ∈ reads s i, a ∉ spent) :
    (InPlace.step A s i = none ∧ InPlace.step A.keeping t i = none) ∨
    ∃ d next next', InPlace.step A s i = some (d, next) ∧ InPlace.step A.keeping t i = some (d, next') ∧
      Agree (spent ++ changed s next) next next' := by
  cases i with
  | call op args =>
    simp only [InPlace.step, Option.bind_eq_bind, ← agree.names]
    cases found : args.mapM fun name => s.names[name]? with
    | none => exact .inl ⟨rfl, rfl⟩
    | some addrs =>
      have same : addrs.mapM (fun a => t.objects[a]?) = addrs.mapM fun a => s.objects[a]? := by
        refine mapM_congr fun a member => (agree.objects a (unspent a ?_)).symm
        change a ∈ args.filterMap fun name => s.names[name]?
        rwa [mem_reads_of_mapM found]
      rw [Option.bind_some, Option.bind_some, same]
      cases read : addrs.mapM fun a => s.objects[a]? with
      | none => exact .inl ⟨rfl, rfl⟩
      | some ds =>
        rw [Option.bind_some, Option.bind_some]
        cases result : A.result op ds with
        | none => exact .inl ⟨rfl, by simp [Algebra.keeping, result]⟩
        | some d =>
          refine .inr ⟨d, _, ⟨t.objects ++ [d], s.names ++ [t.objects.length]⟩, rfl, ?_, ?_⟩
          · simp [Algebra.keeping, result]
            exact leave_keeping (A := A) (same.trans read)
          · refine ⟨by rw [agree.length], by simp [agree.length], ?_⟩
            intro a safe
            obtain ⟨old, kept⟩ := not_or.mp fun either => safe (List.mem_append.mpr either)
            by_cases bound : a < s.objects.length
            · rw [kept_of_not_mem kept bound, agree.objects a old, List.getElem?_append_left (agree.length ▸ bound)]
            · have equal := agree.length
              rw [List.getElem?_append_right (by simp; omega), List.getElem?_append_right (by omega), length_leave, equal]
  | share name =>
    simp only [InPlace.step, Option.bind_eq_bind, ← agree.names]
    cases found : s.names[name]? with
    | none => exact .inl ⟨rfl, rfl⟩
    | some a =>
      have safe : a ∉ spent := unspent a (by simp [reads, found])
      rw [Option.bind_some, Option.bind_some, ← agree.objects a safe]
      cases s.objects[a]? with
      | none => exact .inl ⟨rfl, rfl⟩
      | some d =>
        refine .inr ⟨d, _, _, rfl, rfl, rfl, agree.length, ?_⟩
        intro b unspent'
        exact agree.objects b fun old => unspent' (List.mem_append_left _ old)

/-- **A careful program** returns what it returns when no operation has an effect. -/
theorem outputs_careful {spent : List ℕ} {s t : State D} (agree : Agree spent s t) {p : List (Instr Op)}
    (careful : Careful A spent s p) : outputs A s p = outputs A.keeping t p := by
  induction p generalizing spent s t with
  | nil => rfl
  | cons i p ih =>
    obtain ⟨unspent, later⟩ := careful
    unfold outputs
    rcases agree.step (A := A) unspent with ⟨failed, failed'⟩ | ⟨d, next, next', ran, ran', agree'⟩
    · rw [failed, failed']
      rfl
    · rw [ran] at later
      rw [ran, ran']
      simp only [Option.bind_eq_bind, Option.bind_some, ih agree' later]

end

/-! ## Pipelines -/

section
variable {A : Algebra Op D}

/-- Every operation is called on what the one before has returned. -/
def pipeline : ℕ → List Op → List (Instr Op)
  | _, [] => []
  | name, op :: ops => .call op [name] :: pipeline (name + 1) ops

/-- The values along a pipeline. -/
def along (A : Algebra Op D) : D → List Op → Option (List D)
  | _, [] => some []
  | d, op :: ops => do
    let d' ← A.result op [d]
    let ds ← along A d' ops
    return d' :: ds

/-- **A pipeline never sees an effect.** -/
theorem outputs_pipeline {s : State D} {name : ℕ} {d : D} {a : ℕ} (last : s.names.length = name + 1)
    (named : s.names[name]? = some a) (holds : s.objects[a]? = some d) (ops : List Op) :
    outputs A s (pipeline name ops) = along A d ops := by
  induction ops generalizing s name d a with
  | nil => rfl
  | cons op ops ih =>
    unfold pipeline outputs along
    have read : [name].mapM (fun name => s.names[name]?) = some [a] := by simp [named]
    have held : [a].mapM (fun a => s.objects[a]?) = some [d] := by simp [holds]
    simp only [step, Option.bind_eq_bind, read, Option.bind_some, held]
    cases A.result op [d] with
    | none => rfl
    | some d' =>
      let next : State D := ⟨A.leave op [a] [d] s.objects ++ [d'], s.names ++ [s.objects.length]⟩
      have fresh : next.names[name + 1]? = some s.objects.length := by simp [next, ← last]
      have value : next.objects[s.objects.length]? = some d' := by
        simp [next]
      have later := ih (by simp [next, last]) fresh value
      simp only [Option.bind_some, ← later]
      rfl

/-- The last value along a pipeline is that of the operations one after another. -/
theorem along_last {d e : D} {ops : List Op} (last : ops.foldlM (fun d op => A.result op [d]) d = some e) :
    ∃ ds, along A d ops = some ds ∧ (d :: ds).getLast? = some e := by
  induction ops generalizing d with
  | nil =>
    cases last
    exact ⟨[], rfl, rfl⟩
  | cons op ops ih =>
    rw [List.foldlM_cons] at last
    obtain ⟨d', first, rest⟩ := Option.bind_eq_some_iff.mp last
    obtain ⟨ds, later, same⟩ := ih rest
    refine ⟨d' :: ds, ?_, ?_⟩
    · rw [along, first, Option.bind_eq_bind, Option.bind_some, later]
      rfl
    · rw [List.getLast?_cons_cons, same]

end

end InPlace
