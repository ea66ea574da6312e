import KPlugin.Json.Write

/-!
# What the `Writer` accepts

A rapidjson `Writer` keeps a stack of levels and asserts that a call fits the
innermost one: one value at the top, a key before each value of an object, an end
where no key waits for its value. The levels below are that stack, each entry what
the level takes next, with keys and strings kept apart.
-/

namespace KPlugin.Json

/-- What comes next at one level of the output. -/
inductive Awaits where
  /-- The top-level value. -/
  | root
  /-- Nothing: the top-level value is written. -/
  | nothing
  /-- A key, or the end of the object. -/
  | key
  /-- The value of the last key. -/
  | value
  /-- An element, or the end of the array. -/
  | element
deriving DecidableEq, Repr

/-- What comes after a value, where one may stand. -/
def Awaits.afterValue : Awaits → Option Awaits
  | .root => some .nothing
  | .nothing => none
  | .key => none
  | .value => some .key
  | .element => some .element

/-- The `Writer`'s level stack. -/
structure Levels where
  top : Awaits
  outer : List Awaits
deriving DecidableEq, Repr

namespace Levels

/-- A value is written. -/
def value (l : Levels) : Option Levels :=
  l.top.afterValue.map fun a => ⟨a, l.outer⟩

/-- A container is opened whose items are `inner`. -/
def enter (l : Levels) (inner : Awaits) : Option Levels :=
  l.top.afterValue.map fun a => ⟨inner, a :: l.outer⟩

/-- The container that awaits one more item, `inner`, is closed instead. -/
def leave (l : Levels) (inner : Awaits) : Option Levels :=
  match l.outer with
  | [] => none
  | a :: outer => if l.top = inner then some ⟨a, outer⟩ else none

/-- One call, where the `Writer` takes it. -/
def step (l : Levels) : WriterCall → Option Levels
  | .null => l.value
  | .bool _ => l.value
  | .rawNumber _ => l.value
  | .string _ => l.value
  | .startObject => l.enter .key
  | .key _ => if l.top = .key then some ⟨.value, l.outer⟩ else none
  | .endObject => l.leave .key
  | .startArray => l.enter .element
  | .endArray => l.leave .element

/-- A sequence of calls. -/
def run (l : Levels) (calls : List WriterCall) : Option Levels :=
  calls.foldlM step l

/-- Before the first call. -/
def start : Levels := ⟨.root, []⟩

end Levels

/-- The `Writer` takes every call, and no container is open in the end. -/
def Accepted (calls : List WriterCall) : Prop :=
  ∃ a, Levels.start.run calls = some ⟨a, []⟩

/-! ## Runs -/

namespace Levels

theorem run_cons (l : Levels) (c : WriterCall) (calls : List WriterCall) :
    l.run (c :: calls) = (l.step c).bind fun l' => l'.run calls := rfl

theorem run_append (l : Levels) (first later : List WriterCall) :
    l.run (first ++ later) = (l.run first).bind fun l' => l'.run later := by
  rw [run, List.foldlM_append]
  rfl

/-- The inner container is closed where it awaits one more item. -/
theorem leave_inner (inner a : Awaits) (outer : List Awaits) : leave ⟨inner, a :: outer⟩ inner = some ⟨a, outer⟩ :=
  if_pos rfl

theorem run_append_of {l l' : Levels} {first : List WriterCall} (ran : l.run first = some l')
    (later : List WriterCall) : l.run (first ++ later) = l'.run later := by
  rw [run_append, ran]
  rfl

/-- Where a value may stand, so may a container that closes the levels it opens. -/
theorem run_container {l : Levels} {a inner : Awaits} {first last : WriterCall} {calls : List WriterCall}
    (place : l.top.afterValue = some a) (opens : l.step first = l.enter inner)
    (inside : Levels.run ⟨inner, a :: l.outer⟩ calls = some ⟨inner, a :: l.outer⟩)
    (closes : ∀ l', step l' last = l'.leave inner) :
    l.run (first :: calls ++ [last]) = some ⟨a, l.outer⟩ := by
  rw [List.cons_append, run_cons, opens, enter, place]
  simp only [Option.map_some, Option.bind_some]
  rw [run_append_of inside, run_cons, closes, leave_inner]
  rfl

/-- A container whose body the levels refuse, or whose end they refuse, is refused. -/
theorem run_container_eq_none {l : Levels} {inner : Awaits} {first last : WriterCall} {calls : List WriterCall}
    (opens : l.step first = l.enter inner)
    (stuck : ∀ a outer, Levels.run ⟨inner, a :: outer⟩ (calls ++ [last]) = none) :
    l.run (first :: calls ++ [last]) = none := by
  rw [List.cons_append, run_cons, opens, enter]
  cases l.top.afterValue with
  | none => rfl
  | some a => exact stuck a l.outer

/-! ## The bottom of the stack -/

/-- What a call does: a value is written or opened, a key is written, or a container
is closed. -/
theorem step_cases {l l' : Levels} {c : WriterCall} (stepped : l.step c = some l') :
    (∃ a, l.top.afterValue = some a ∧ (l' = ⟨a, l.outer⟩ ∨ ∃ inner, l' = ⟨inner, a :: l.outer⟩)) ∨
      (l.top = .key ∧ l' = ⟨.value, l.outer⟩) ∨ ∃ a outer, l.outer = a :: outer ∧ l' = ⟨a, outer⟩ := by
  have ofValue (h : l.value = some l') : ∃ a, l.top.afterValue = some a ∧
      (l' = ⟨a, l.outer⟩ ∨ ∃ inner, l' = ⟨inner, a :: l.outer⟩) := by
    obtain ⟨a, place, rfl⟩ := Option.map_eq_some_iff.mp h
    exact ⟨a, place, .inl rfl⟩
  have ofEnter {inner : Awaits} (h : l.enter inner = some l') : ∃ a, l.top.afterValue = some a ∧
      (l' = ⟨a, l.outer⟩ ∨ ∃ inner, l' = ⟨inner, a :: l.outer⟩) := by
    obtain ⟨a, place, rfl⟩ := Option.map_eq_some_iff.mp h
    exact ⟨a, place, .inr ⟨inner, rfl⟩⟩
  have ofLeave {inner : Awaits} (h : l.leave inner = some l') :
      ∃ a outer, l.outer = a :: outer ∧ l' = ⟨a, outer⟩ := by
    obtain ⟨top, outer⟩ := l
    cases outer with
    | nil => cases h
    | cons a outer =>
      rw [leave, Option.ite_none_right_eq_some] at h
      exact ⟨a, outer, rfl, (Option.some.inj h.2).symm⟩
  cases c with
  | null => exact .inl (ofValue stepped)
  | bool b => exact .inl (ofValue stepped)
  | rawNumber str => exact .inl (ofValue stepped)
  | string str => exact .inl (ofValue stepped)
  | startObject => exact .inl (ofEnter stepped)
  | startArray => exact .inl (ofEnter stepped)
  | key str =>
    rw [step, Option.ite_none_right_eq_some] at stepped
    exact .inr (.inl ⟨stepped.1, (Option.some.inj stepped.2).symm⟩)
  | endObject => exact .inr (.inr (ofLeave stepped))
  | endArray => exact .inr (.inr (ofLeave stepped))

/-- Below every open container the top-level value is being written. -/
def Rooted (l : Levels) : Prop :=
  l.outer = [] ∧ (l.top = .root ∨ l.top = .nothing) ∨ l.outer.getLast? = some .nothing

theorem rooted_start : start.Rooted := .inl ⟨rfl, .inl rfl⟩

/-- A call keeps the bottom of the stack, and one that leaves no container open has
written the top-level value. -/
theorem Rooted.step {l l' : Levels} {c : WriterCall} (rooted : l.Rooted) (stepped : l.step c = some l') :
    l'.Rooted ∧ (l'.outer = [] → l'.top = .nothing) := by
  obtain ⟨top, outer⟩ := l
  rcases step_cases stepped with ⟨a, place, rfl | ⟨inner, rfl⟩⟩ | ⟨waits, rfl⟩ | ⟨a, outer', rfl, rfl⟩
  · rcases rooted with ⟨rfl, rfl | rfl⟩ | bottom
    · cases place
      exact ⟨.inl ⟨rfl, .inr rfl⟩, fun _ => rfl⟩
    · cases place
    · refine ⟨.inr bottom, ?_⟩
      rintro rfl
      cases bottom
  · refine ⟨.inr ?_, nofun⟩
    rcases rooted with ⟨rfl, rfl | rfl⟩ | bottom
    · cases place
      rfl
    · cases place
    · rw [List.getLast?_cons, bottom]
      rfl
  · rcases rooted with ⟨-, top | top⟩ | bottom
    · cases top.symm.trans waits
    · cases top.symm.trans waits
    · refine ⟨.inr bottom, ?_⟩
      rintro rfl
      cases bottom
  · rcases rooted with ⟨empty, -⟩ | bottom
    · cases empty
    · cases outer' with
      | nil =>
        cases bottom
        exact ⟨.inl ⟨rfl, .inr rfl⟩, fun _ => rfl⟩
      | cons b outer' => exact ⟨.inr bottom, nofun⟩

/-- After the top-level value no call is accepted. -/
theorem step_nothing (c : WriterCall) : step ⟨.nothing, []⟩ c = none := by
  cases c <;> rfl

end Levels

end KPlugin.Json
