import KPlugin.Json.Levels

/-!
# `write_json` on the whole sort

The sort `JSON` also has `Float` and JSON-RPC's undef, which have no text. A
`Float` is a heap cell whose header `write_json` does not know: it writes nothing
and returns `false`, the lists around it skip what is left, and every open
container is still closed. Undef is a constant, and constants have no header to
test. What the `Writer` sees on the way is decided by the first of the two in
writing order.
-/

namespace KPlugin.Json

/-! ## The terms -/

mutual

/-- A term of sort `JSON`. -/
inductive JsonTerm where
  | null
  | undef
  | bool (b : Bool)
  | int (n : ℤ)
  | string (s : Bytes)
  | float (data : Bytes)
  | object (members : JsonMembers)
  | list (elements : JsonElements)

/-- The `JSONEntry` items of an object. -/
inductive JsonMembers where
  | nil
  | cons (key : Bytes) (val : JsonTerm) (rest : JsonMembers)

/-- The items of a list. -/
inductive JsonElements where
  | nil
  | cons (hd : JsonTerm) (tl : JsonElements)

end

mutual

/-- The block of a term, where `floatTag` is the tag of `inj{SortFloat{}, SortJSON{}}`.
A key's header, which `write_json` never looks at, is taken to be `strHdr`. -/
def JsonTerm.toBlock (floatTag : ℕ) : JsonTerm → Block
  | .null => Json.null
  | .undef => Json.undef
  | .bool b => .boolInj b
  | .int n => .intInj n
  | .string s => .stringInj s
  | .float data => .other floatTag data
  | .object ms => .object (ms.toBlock floatTag)
  | .list es => .listWrap (es.toBlock floatTag)

def JsonMembers.toBlock (floatTag : ℕ) : JsonMembers → Block
  | .nil => dotList
  | .cons k v rest => .list (.member (.stringInj k) (v.toBlock floatTag)) (rest.toBlock floatTag)

def JsonElements.toBlock (floatTag : ℕ) : JsonElements → Block
  | .nil => dotList
  | .cons hd tl => .list (hd.toBlock floatTag) (tl.toBlock floatTag)

end

mutual

/-- The term contains a `Float` or undef somewhere. -/
def JsonTerm.Unsupported : JsonTerm → Prop
  | .undef => True
  | .float _ => True
  | .object ms => ms.Unsupported
  | .list es => es.Unsupported
  | _ => False

def JsonMembers.Unsupported : JsonMembers → Prop
  | .nil => False
  | .cons _ v rest => v.Unsupported ∨ rest.Unsupported

def JsonElements.Unsupported : JsonElements → Prop
  | .nil => False
  | .cons hd tl => hd.Unsupported ∨ tl.Unsupported

end

/-! ## The first flaw -/

/-- Where the first node without a text stands. -/
inductive Flaw where
  /-- A `Float` at the top or in a list. -/
  | float
  /-- A `Float` that is the value of a member. -/
  | memberFloat
  | undef
deriving DecidableEq, Repr

/-- The flaw of a member whose value `v` has `flaw`. -/
def JsonTerm.inMember (v : JsonTerm) (flaw : Option Flaw) : Option Flaw :=
  match v with
  | .float _ => some .memberFloat
  | _ => flaw

mutual

/-- The first flaw of a term in writing order. -/
def JsonTerm.flaw : JsonTerm → Option Flaw
  | .undef => some .undef
  | .float _ => some .float
  | .object ms => ms.flaw
  | .list es => es.flaw
  | _ => none

def JsonMembers.flaw : JsonMembers → Option Flaw
  | .nil => none
  | .cons _ v rest => v.inMember v.flaw <|> rest.flaw

def JsonElements.flaw : JsonElements → Option Flaw
  | .nil => none
  | .cons hd tl => hd.flaw <|> tl.flaw

end

theorem JsonTerm.inMember_eq_none (v : JsonTerm) : v.inMember v.flaw = none ↔ v.flaw = none := by
  cases v <;> simp [inMember, flaw]

mutual

/-- The calls that write a term: a list stops after its first flawed item. -/
def JsonTerm.calls : JsonTerm → List WriterCall
  | .null => [.null]
  | .undef => []
  | .bool b => [.bool b]
  | .int n => [.rawNumber (int2string n)]
  | .string s => [.string s]
  | .float _ => []
  | .object ms => .startObject :: ms.calls ++ [.endObject]
  | .list es => .startArray :: es.calls ++ [.endArray]

def JsonMembers.calls : JsonMembers → List WriterCall
  | .nil => []
  | .cons k v rest => .key k :: v.calls ++ if v.flaw = none then rest.calls else []

def JsonElements.calls : JsonElements → List WriterCall
  | .nil => []
  | .cons hd tl => hd.calls ++ if hd.flaw = none then tl.calls else []

end

/-! ## What `write_json` does -/

/-- How `write_json` ends after the calls `after`. -/
def outcome (flaw : Option Flaw) (after : List WriterCall) : Except Fault (Bool × List WriterCall) :=
  match flaw with
  | none => .ok (true, after)
  | some .undef => .error .headerOfConstant
  | some .float => .ok (false, after)
  | some .memberFloat => .ok (false, after)

/-- Where the `Float` stands makes no difference to `write_json`. -/
theorem outcome_inMember (v : JsonTerm) (after : List WriterCall) :
    outcome (v.inMember v.flaw) after = outcome v.flaw after := by
  cases v <;> rfl

theorem run_error {α β : Type} {x : Write α} {before : List WriterCall} {fault : Fault}
    (first : x.run before = .error fault) (f : α → Write β) : (x >>= f).run before = .error fault := by
  rw [StateT.run_bind, first]
  rfl

/-- A container is closed whatever its body returned. -/
theorem run_container {body : Write Bool} {before calls : List WriterCall} {first last : WriterCall}
    {flaw : Option Flaw} (inside : body.run (before ++ [first]) = outcome flaw (before ++ [first] ++ calls)) :
    (do emit first; let returnValue ← body; emit last; pure returnValue : Write Bool).run before =
      outcome flaw (before ++ (first :: calls ++ [last])) := by
  rw [run_bind (run_emit _ _), show before ++ (first :: calls ++ [last]) = before ++ [first] ++ calls ++ [last] by simp]
  match flaw with
  | none => rw [run_bind inside, run_bind (run_emit _ _)]; rfl
  | some .float => rw [run_bind inside, run_bind (run_emit _ _)]; rfl
  | some .memberFloat => rw [run_bind inside, run_bind (run_emit _ _)]; rfl
  | some .undef => rw [run_error inside]; rfl

/-- The rest of a list is written when its first item was. -/
theorem run_rest {item rest : Write Bool} {before calls later : List WriterCall} {flaw flaw' : Option Flaw}
    (first : item.run before = outcome flaw (before ++ calls))
    (second : rest.run (before ++ calls) = outcome flaw' (before ++ calls ++ later)) :
    (do if ← item then rest else pure false : Write Bool).run before =
      outcome (flaw <|> flaw') (before ++ (calls ++ if flaw = none then later else [])) := by
  match flaw with
  | none => rw [run_bind first, if_pos rfl, if_pos rfl, second, List.append_assoc]; rfl
  | some .float => rw [run_bind first, if_neg nofun, if_neg nofun, List.append_nil]; rfl
  | some .memberFloat => rw [run_bind first, if_neg nofun, if_neg nofun, List.append_nil]; rfl
  | some .undef => rw [run_error first]; rfl

section
variable (floatTag : ℕ)

mutual

/-- **`write_json` on any term** makes the term's calls and ends as the first flaw has it. -/
theorem writeJson_jsonTerm (t : JsonTerm) (before : List WriterCall) :
    (writeJson (t.toBlock floatTag)).run before = outcome t.flaw (before ++ t.calls) := by
  cases t with
  | null => rfl
  | undef => rfl
  | bool b => rfl
  | int n => rfl
  | string s => rfl
  | float data =>
    rw [JsonTerm.calls, List.append_nil]
    rfl
  | object ms =>
    rw [JsonTerm.toBlock, writeJson]
    exact run_container (writeJson_jsonMembers ms _)
  | list es =>
    rw [JsonTerm.toBlock, writeJson]
    exact run_container (writeJson_jsonElements es _)

theorem writeJson_jsonMembers (ms : JsonMembers) (before : List WriterCall) :
    (writeJson (ms.toBlock floatTag)).run before = outcome ms.flaw (before ++ ms.calls) := by
  cases ms with
  | nil =>
    rw [JsonMembers.calls, List.append_nil]
    rfl
  | cons k v rest =>
    have entry : (writeJson (.member (.stringInj k) (v.toBlock floatTag))).run before =
        outcome (v.inMember v.flaw) (before ++ (.key k :: v.calls)) := by
      rw [writeJson, keyData, pure_bind, run_bind (run_emit _ _), writeJson_jsonTerm v, outcome_inMember,
        List.append_assoc]
      rfl
    have later := run_rest entry (writeJson_jsonMembers rest _)
    simp only [v.inMember_eq_none] at later
    rw [JsonMembers.toBlock, writeJson]
    exact later

theorem writeJson_jsonElements (es : JsonElements) (before : List WriterCall) :
    (writeJson (es.toBlock floatTag)).run before = outcome es.flaw (before ++ es.calls) := by
  cases es with
  | nil =>
    rw [JsonElements.calls, List.append_nil]
    rfl
  | cons hd tl =>
    rw [JsonElements.toBlock, writeJson]
    exact run_rest (writeJson_jsonTerm hd _) (writeJson_jsonElements tl _)

end

end

/-! ## Flaws and unsupported nodes -/

theorem orElse_ne_none {α : Type} (first second : Option α) :
    (first <|> second) ≠ none ↔ first ≠ none ∨ second ≠ none := by
  cases first <;> simp

mutual

theorem JsonTerm.unsupported_iff (t : JsonTerm) : t.Unsupported ↔ t.flaw ≠ none := by
  cases t with
  | null => exact iff_of_false id (not_not.mpr rfl)
  | undef => exact iff_of_true trivial nofun
  | bool b => exact iff_of_false id (not_not.mpr rfl)
  | int n => exact iff_of_false id (not_not.mpr rfl)
  | string s => exact iff_of_false id (not_not.mpr rfl)
  | float data => exact iff_of_true trivial nofun
  | object ms => exact ms.unsupported_iff
  | list es => exact es.unsupported_iff

theorem JsonMembers.unsupported_iff (ms : JsonMembers) : ms.Unsupported ↔ ms.flaw ≠ none := by
  cases ms with
  | nil => exact iff_of_false id (not_not.mpr rfl)
  | cons k v rest =>
    rw [JsonMembers.Unsupported, JsonMembers.flaw, orElse_ne_none, Ne, v.inMember_eq_none, v.unsupported_iff,
      rest.unsupported_iff]

theorem JsonElements.unsupported_iff (es : JsonElements) : es.Unsupported ↔ es.flaw ≠ none := by
  cases es with
  | nil => exact iff_of_false id (not_not.mpr rfl)
  | cons hd tl =>
    rw [JsonElements.Unsupported, JsonElements.flaw, orElse_ne_none, hd.unsupported_iff, tl.unsupported_iff]

end

/-! ## The level stack over a term -/

/-- The first flaw is a `Float` that no key waits for, or there is none. -/
def Sound (flaw : Option Flaw) : Prop :=
  flaw = none ∨ flaw = some .float

/-- A member's value with nothing below it that would leave a key alone is written. -/
theorem JsonTerm.calls_ne_nil {v : JsonTerm} (sound : Sound (v.inMember v.flaw)) : v.calls ≠ [] := by
  cases v with
  | undef => rcases sound with h | h <;> cases h
  | float data => rcases sound with h | h <;> cases h
  | null => exact List.cons_ne_nil _ _
  | bool b => exact List.cons_ne_nil _ _
  | int n => exact List.cons_ne_nil _ _
  | string s => exact List.cons_ne_nil _ _
  | object ms => exact List.cons_ne_nil _ _
  | list es => exact List.cons_ne_nil _ _

theorem JsonTerm.flaw_of_inMember {v : JsonTerm} (below : v.inMember v.flaw = some .float) :
    v.flaw = some .float := by
  cases v <;> first | exact below | cases below

theorem sound_orElse {first second : Option Flaw} (sound : Sound (first <|> second)) :
    first = none ∧ Sound second ∨ first = some .float := by
  match first with
  | none => exact .inl ⟨rfl, sound⟩
  | some flaw => rcases sound with h | h <;> cases h; exact .inr rfl

mutual

/-- A term whose first flaw, if any, leaves no key alone is one value. -/
theorem JsonTerm.run_calls (t : JsonTerm) (sound : Sound t.flaw) {l : Levels} {a : Awaits}
    (place : l.top.afterValue = some a) (nonempty : t.calls ≠ []) : l.run t.calls = some ⟨a, l.outer⟩ := by
  have scalar : l.value = some ⟨a, l.outer⟩ := by rw [Levels.value, place]; rfl
  cases t with
  | null => rw [JsonTerm.calls, Levels.run_cons, Levels.step, scalar]; rfl
  | undef => exact absurd rfl nonempty
  | bool b => rw [JsonTerm.calls, Levels.run_cons, Levels.step, scalar]; rfl
  | int n => rw [JsonTerm.calls, Levels.run_cons, Levels.step, scalar]; rfl
  | string s => rw [JsonTerm.calls, Levels.run_cons, Levels.step, scalar]; rfl
  | float data => exact absurd rfl nonempty
  | object ms => exact Levels.run_container place rfl (ms.run_calls sound) fun _ => rfl
  | list es => exact Levels.run_container place rfl (es.run_calls sound) fun _ => rfl

theorem JsonMembers.run_calls (ms : JsonMembers) (sound : Sound ms.flaw) {outer : List Awaits} :
    Levels.run ⟨.key, outer⟩ ms.calls = some ⟨.key, outer⟩ := by
  cases ms with
  | nil => rfl
  | cons k v rest =>
    rw [JsonMembers.calls, List.cons_append, Levels.run_cons, Levels.step, if_pos rfl, Option.bind_some]
    rcases sound_orElse sound with ⟨flawless, later⟩ | below
    · have written := JsonTerm.calls_ne_nil (.inl flawless)
      have flawless := v.inMember_eq_none.mp flawless
      rw [if_pos flawless, Levels.run_append_of (v.run_calls (.inl flawless) rfl written)]
      exact rest.run_calls later
    · have flaw := JsonTerm.flaw_of_inMember below
      rw [if_neg (by rw [flaw]; nofun), List.append_nil]
      exact v.run_calls (.inr flaw) rfl (JsonTerm.calls_ne_nil (.inr below))

theorem JsonElements.run_calls (es : JsonElements) (sound : Sound es.flaw) {outer : List Awaits} :
    Levels.run ⟨.element, outer⟩ es.calls = some ⟨.element, outer⟩ := by
  cases es with
  | nil => rfl
  | cons hd tl =>
    rw [JsonElements.calls]
    rcases sound_orElse sound with ⟨flawless, later⟩ | flaw
    · have written := JsonTerm.calls_ne_nil (.inl (hd.inMember_eq_none.mpr flawless))
      rw [if_pos flawless, Levels.run_append_of (hd.run_calls (.inl flawless) rfl written)]
      exact tl.run_calls later
    · rw [if_neg (by rw [flaw]; nofun), List.append_nil]
      by_cases nonempty : hd.calls = []
      · rw [nonempty]
        rfl
      · exact hd.run_calls (.inr flaw) rfl nonempty

end

theorem first_flaw {first second : Option Flaw} {flaw : Flaw} (found : (first <|> second) = some flaw) :
    first = some flaw ∨ first = none ∧ second = some flaw := by
  match first with
  | none => exact .inr ⟨rfl, found⟩
  | some _ => exact .inl found

/-- A key is left alone by its own `Float`, or by one deeper down. -/
theorem JsonTerm.alone_inMember (v : JsonTerm) (alone : v.inMember v.flaw = some .memberFloat) :
    (∃ data, v = .float data) ∨ v.flaw = some .memberFloat := by
  cases v with
  | float data => exact .inl ⟨data, rfl⟩
  | null => exact .inr alone
  | undef => exact .inr alone
  | bool b => exact .inr alone
  | int n => exact .inr alone
  | string s => exact .inr alone
  | object ms => exact .inr alone
  | list es => exact .inr alone

mutual

/-- A key left alone stops the `Writer` where its object is closed. -/
theorem JsonTerm.run_calls_eq_none (t : JsonTerm) (alone : t.flaw = some .memberFloat) (l : Levels) :
    l.run t.calls = none := by
  cases t with
  | null => cases alone
  | undef => cases alone
  | bool b => cases alone
  | int n => cases alone
  | string s => cases alone
  | float data => cases alone
  | object ms =>
    refine Levels.run_container_eq_none rfl fun a outer => ?_
    rw [Levels.run_append]
    rcases ms.run_calls_eq_none alone (a :: outer) with refused | waiting
    · rw [refused]
      rfl
    · rw [waiting]
      rfl
  | list es =>
    refine Levels.run_container_eq_none rfl fun a outer => ?_
    rw [Levels.run_append, es.run_calls_eq_none alone]
    rfl

theorem JsonMembers.run_calls_eq_none (ms : JsonMembers) (alone : ms.flaw = some .memberFloat)
    (outer : List Awaits) :
    Levels.run ⟨.key, outer⟩ ms.calls = none ∨ Levels.run ⟨.key, outer⟩ ms.calls = some ⟨.value, outer⟩ := by
  cases ms with
  | nil => cases alone
  | cons k v rest =>
    rw [JsonMembers.calls, List.cons_append, Levels.run_cons, Levels.step, if_pos rfl, Option.bind_some]
    rcases first_flaw alone with here | ⟨flawless, later⟩
    · rcases v.alone_inMember here with ⟨data, rfl⟩ | below
      · exact .inr rfl
      · left
        rw [Levels.run_append, v.run_calls_eq_none below]
        rfl
    · have written := JsonTerm.calls_ne_nil (.inl flawless)
      have flawless := v.inMember_eq_none.mp flawless
      rw [if_pos flawless, Levels.run_append_of (v.run_calls (.inl flawless) rfl written)]
      exact rest.run_calls_eq_none later outer

theorem JsonElements.run_calls_eq_none (es : JsonElements) (alone : es.flaw = some .memberFloat)
    (outer : List Awaits) : Levels.run ⟨.element, outer⟩ es.calls = none := by
  cases es with
  | nil => cases alone
  | cons hd tl =>
    rw [JsonElements.calls]
    rcases first_flaw alone with here | ⟨flawless, later⟩
    · rw [Levels.run_append, hd.run_calls_eq_none here]
      rfl
    · have written := JsonTerm.calls_ne_nil (.inl (hd.inMember_eq_none.mpr flawless))
      rw [if_pos flawless, Levels.run_append_of (hd.run_calls (.inl flawless) rfl written)]
      exact tl.run_calls_eq_none later outer

end

/-- **The `Writer` takes what a term writes** unless a key is left alone. -/
theorem JsonTerm.accepted (t : JsonTerm) (sound : Sound t.flaw) : Accepted t.calls := by
  by_cases nonempty : t.calls = []
  · rw [nonempty]
    exact ⟨.root, rfl⟩
  · exact ⟨.nothing, t.run_calls sound rfl nonempty⟩

theorem JsonTerm.not_accepted (t : JsonTerm) (alone : t.flaw = some .memberFloat) : ¬ Accepted t.calls := by
  rintro ⟨a, accepted⟩
  rw [t.run_calls_eq_none alone] at accepted
  cases accepted

/-! ## The law -/

/-- `write_json` returns, it returns `false` exactly for an unsupported term, and the
`Writer` takes its calls. -/
def WritesFaithfully (floatTag : ℕ) (t : JsonTerm) : Prop :=
  ∃ returned calls, (writeJson (t.toBlock floatTag)).run [] = .ok (returned, calls) ∧
    (returned = false ↔ t.Unsupported) ∧ Accepted calls

/-- **`write_json` is faithful** exactly when the first flaw, if there is one, is a
`Float` that is not a member's value. -/
theorem writes_faithfully_iff (floatTag : ℕ) (t : JsonTerm) : WritesFaithfully floatTag t ↔ Sound t.flaw := by
  rw [WritesFaithfully, writeJson_jsonTerm, List.nil_append, t.unsupported_iff]
  cases found : t.flaw with
  | none =>
    have accepted := t.accepted (.inl found)
    exact iff_of_true ⟨true, t.calls, rfl, by simp, accepted⟩ (.inl rfl)
  | some flaw =>
    cases flaw with
    | float =>
      have accepted := t.accepted (.inr found)
      exact iff_of_true ⟨false, t.calls, rfl, by simp, accepted⟩ (.inr rfl)
    | memberFloat =>
      constructor
      · rintro ⟨returned, calls, ran, -, accepted⟩
        cases ran
        exact absurd accepted (t.not_accepted found)
      · rintro (h | h) <;> cases h
    | undef =>
      constructor
      · rintro ⟨returned, calls, ran, -, -⟩
        cases ran
      · rintro (h | h) <;> cases h

/-- The object with one member, a `Float`. -/
def floatMember : JsonTerm := .object (.cons [ascii 'a'] (.float []) .nil)

/-- **Undef has no header to test, and a member's `Float` leaves its key alone.** -/
theorem undef_and_memberFloat_unfaithful :
    ((writeJson (JsonTerm.undef.toBlock 0)).run [] = .error .headerOfConstant ∧ ¬ WritesFaithfully 0 .undef) ∧
    ((writeJson (floatMember.toBlock 0)).run [] = .ok (false, [.startObject, .key [ascii 'a'], .endObject]) ∧
      Levels.start.run [.startObject, .key [ascii 'a'], .endObject] = none ∧ ¬ WritesFaithfully 0 floatMember) := by
  have faults : (writeJson (JsonTerm.undef.toBlock 0)).run [] = .error .headerOfConstant := rfl
  have ran : (writeJson (floatMember.toBlock 0)).run [] =
      .ok (false, [.startObject, .key [ascii 'a'], .endObject]) := rfl
  have refused : Levels.start.run [.startObject, .key [ascii 'a'], .endObject] = none := rfl
  refine ⟨⟨faults, ?_⟩, ran, refused, ?_⟩
  · rintro ⟨returned, calls, returns, -, -⟩
    rw [faults] at returns
    cases returns
  · rintro ⟨returned, calls, returns, -, a, accepted⟩
    rw [ran] at returns
    cases returns
    rw [refused] at accepted
    cases accepted

end KPlugin.Json
