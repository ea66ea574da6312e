import KPlugin.Json.Block
import KPlugin.Lib.Loop
import KPlugin.Runtime.Gmp

/-!
# `KoreHandler`

The handler rebuilds a term from the events of a rapidjson `Reader` on a flat
stack: every value is pushed, and the end of a container pops as many entries
as the reader counted, the last first, consing them onto the growing list.
-/

namespace KPlugin.Json
open Loop

/-- The calls a `Reader` makes on its handler under `kParseNumbersAsStringsFlag`. -/
inductive Event where
  | null
  | bool (b : Bool)
  | rawNumber (str : Bytes)
  | string (str : Bytes)
  | startObject
  | key (str : Bytes)
  | endObject (memberCount : ℕ)
  | startArray
  | endArray (elementCount : ℕ)
deriving DecidableEq, Repr

/-- `KoreHandler`; the head of the list is the `back` of the vector. -/
structure KoreHandler where
  result : Block
  stack : List Block
deriving DecidableEq, Repr

namespace KoreHandler

/-- `stack.back()` and `stack.pop_back()`. -/
def pop : List Block → Except Fault (Block × List Block)
  | [] => .error .emptyStack
  | b :: rest => .ok (b, rest)

/-- Make a block the result and push it. -/
def pushResult (h : KoreHandler) (b : Block) : KoreHandler := ⟨b, b :: h.stack⟩

/-- The loop body of `EndObject`. -/
def popMember (h : KoreHandler) : Except Fault KoreHandler := do
  let (val, stack) ← pop h.stack
  let (key, stack) ← pop stack
  pure ⟨.list (.member key val) h.result, stack⟩

/-- `EndObject`. -/
def endObject (h : KoreHandler) (memberCount : ℕ) : Except Fault KoreHandler := do
  let h ← forRangeM memberCount (fun _ => popMember) { h with result := dotList }
  pure { h with stack := .object h.result :: h.stack }

/-- The loop body of `EndArray`. -/
def popElement (h : KoreHandler) : Except Fault KoreHandler := do
  let (hd, stack) ← pop h.stack
  pure ⟨.list hd h.result, stack⟩

/-- `EndArray`. -/
def endArray (h : KoreHandler) (elementCount : ℕ) : Except Fault KoreHandler := do
  let h ← forRangeM elementCount (fun _ => popElement) { h with result := dotList }
  pure { h with stack := .listWrap h.result :: h.stack }

/-- One call on the handler; all of them return `true`. -/
def step (h : KoreHandler) : Event → Except Fault KoreHandler
  | .null => .ok { h with stack := null :: h.stack }
  | .bool b => .ok (h.pushResult (.boolInj b))
  | .rawNumber str => .ok (h.pushResult (.intInj (mpzInitSetStr str 10)))
  | .string str => .ok (h.pushResult (.stringInj str))
  | .startObject => .ok h
  | .key str => .ok (h.pushResult (.stringInj str))
  | .endObject memberCount => h.endObject memberCount
  | .startArray => .ok h
  | .endArray elementCount => h.endArray elementCount

/-- A sequence of calls. -/
def replay (h : KoreHandler) (events : List Event) : Except Fault KoreHandler := events.foldlM step h

end KoreHandler

/-- How many entries a call pops. -/
def Event.pops : Event → ℕ
  | .endObject memberCount => 2 * memberCount
  | .endArray elementCount => elementCount
  | _ => 0

namespace KoreHandler

/-- `replay`, refusing a call that would pop below the lowest `floor` entries. -/
def replayAbove (floor : ℕ) (h : KoreHandler) (events : List Event) : Except Fault KoreHandler :=
  events.foldlM (fun h e => if floor + e.pops ≤ h.stack.length then h.step e else .error .emptyStack) h

/-- The check only refuses. -/
theorem replay_of_replayAbove {floor : ℕ} {h h' : KoreHandler} {events : List Event}
    (checked : replayAbove floor h events = .ok h') : replay h events = .ok h' := by
  induction events generalizing h with
  | nil => exact checked
  | cons e events ih =>
    rw [replayAbove, List.foldlM_cons] at checked
    rw [replay, List.foldlM_cons]
    by_cases above : floor + e.pops ≤ h.stack.length
    · rw [if_pos above] at checked
      cases called : h.step e with
      | error fault =>
        rw [called] at checked
        cases checked
      | ok next =>
        rw [called] at checked
        exact ih checked
    · rw [if_neg above] at checked
      cases checked

theorem replayAbove_append {floor : ℕ} {h h' : KoreHandler} {first : List Event} (second : List Event)
    (ran : replayAbove floor h first = .ok h') :
    replayAbove floor h (first ++ second) = replayAbove floor h' second := by
  rw [replayAbove, List.foldlM_append]
  rw [replayAbove] at ran
  rw [ran]
  rfl

/-- A call that pops nothing of the floor is made. -/
theorem replayAbove_cons {floor : ℕ} {h k : KoreHandler} {e : Event} (events : List Event)
    (above : floor + e.pops ≤ h.stack.length) (called : h.step e = .ok k) :
    replayAbove floor h (e :: events) = replayAbove floor k events := by
  rw [replayAbove, List.foldlM_cons, if_pos above, called]
  rfl

end KoreHandler

end KPlugin.Json
