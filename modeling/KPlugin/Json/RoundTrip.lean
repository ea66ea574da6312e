import KPlugin.Json.Handler
import KPlugin.Json.Write

/-!
# Writing a term and reading it back

The writer recurses down right-nested lists, the handler rebuilds them from a
flat stack. Between the two stands the text; the `Reader` reports a bracket's
end together with the number of members or elements it saw, which
`countBrackets` adds to the writer's calls. The induction is mutual over terms,
members and elements. It generalises the counters of the enclosing brackets on
the writing side and the stack on the reading side: a list under construction
sits on the stack in reverse, each key below its value (`Members.pushed`,
`Elements.pushed`).
-/

namespace KPlugin.Json
open Loop KoreHandler

inductive Bracket where
  | object
  | array
deriving DecidableEq, Repr

/-- One more value in the innermost open bracket. -/
def bump : List (Bracket × ℕ) → List (Bracket × ℕ)
  | [] => []
  | (b, n) :: outer => (b, n + 1) :: outer

/-- The events a `Reader` delivers for the text of these calls. `outer` are the
open brackets, innermost first, with the number of values seen so far in each; a
bracket that closes nothing, or the wrong kind, has no text. -/
def countBrackets : List (Bracket × ℕ) → List WriterCall → Option (List Event)
  | _, [] => some []
  | outer, .null :: rest => (countBrackets (bump outer) rest).map (.null :: ·)
  | outer, .bool b :: rest => (countBrackets (bump outer) rest).map (.bool b :: ·)
  | outer, .rawNumber str :: rest => (countBrackets (bump outer) rest).map (.rawNumber str :: ·)
  | outer, .string str :: rest => (countBrackets (bump outer) rest).map (.string str :: ·)
  | outer, .key str :: rest => (countBrackets outer rest).map (.key str :: ·)
  | outer, .startObject :: rest => (countBrackets ((.object, 0) :: outer) rest).map (.startObject :: ·)
  | outer, .startArray :: rest => (countBrackets ((.array, 0) :: outer) rest).map (.startArray :: ·)
  | (.object, n) :: outer, .endObject :: rest => (countBrackets (bump outer) rest).map (.endObject n :: ·)
  | (.array, n) :: outer, .endArray :: rest => (countBrackets (bump outer) rest).map (.endArray n :: ·)
  | _, .endObject :: _ => none
  | _, .endArray :: _ => none

mutual

/-- The events of a JSON term. -/
def Term.events : Term → List Event
  | .null => [.null]
  | .bool b => [.bool b]
  | .int n => [.rawNumber (int2string n)]
  | .string s => [.string s]
  | .object ms => .startObject :: ms.events ++ [.endObject ms.length]
  | .list es => .startArray :: es.events ++ [.endArray es.length]

def Members.events : Members → List Event
  | .nil => []
  | .cons k v rest => .key k :: v.events ++ rest.events

def Elements.events : Elements → List Event
  | .nil => []
  | .cons hd tl => hd.events ++ tl.events

end

/-! ## Counting the writer's brackets -/

mutual

/-- The calls of a term count as one value of the enclosing bracket. -/
theorem countBrackets_term (t : Term) (outer : List (Bracket × ℕ)) (rest : List WriterCall) :
    countBrackets outer (t.calls ++ rest) = (countBrackets (bump outer) rest).map (t.events ++ ·) := by
  cases t with
  | null => rfl
  | bool b => rfl
  | int n => rfl
  | string s => rfl
  | object ms =>
    simp only [Term.calls, Term.events, List.cons_append, List.append_assoc, countBrackets,
      countBrackets_members ms, Option.map_map, List.nil_append, Nat.zero_add]
    rfl
  | list es =>
    simp only [Term.calls, Term.events, List.cons_append, List.append_assoc, countBrackets,
      countBrackets_elements es, Option.map_map, List.nil_append, Nat.zero_add]
    rfl

/-- Members count one each, for their values. -/
theorem countBrackets_members (ms : Members) (b : Bracket) (n : ℕ) (outer : List (Bracket × ℕ))
    (rest : List WriterCall) :
    countBrackets ((b, n) :: outer) (ms.calls ++ rest) =
      (countBrackets ((b, n + ms.length) :: outer) rest).map (ms.events ++ ·) := by
  cases ms with
  | nil =>
    simp only [Members.calls, Members.events, Members.length, List.nil_append, Nat.add_zero]
    exact Option.map_id'.symm
  | cons k v tail =>
    have count : n + 1 + tail.length = n + (tail.length + 1) := by omega
    simp only [Members.calls, Members.events, Members.length, List.cons_append, List.append_assoc, countBrackets,
      countBrackets_term v, bump, countBrackets_members tail, Option.map_map, count]
    rfl

theorem countBrackets_elements (es : Elements) (b : Bracket) (n : ℕ) (outer : List (Bracket × ℕ))
    (rest : List WriterCall) :
    countBrackets ((b, n) :: outer) (es.calls ++ rest) =
      (countBrackets ((b, n + es.length) :: outer) rest).map (es.events ++ ·) := by
  cases es with
  | nil =>
    simp only [Elements.calls, Elements.events, Elements.length, List.nil_append, Nat.add_zero]
    exact Option.map_id'.symm
  | cons hd tl =>
    have count : n + 1 + tl.length = n + (tl.length + 1) := by omega
    simp only [Elements.calls, Elements.events, Elements.length, List.append_assoc, countBrackets_term hd, bump,
      countBrackets_elements tl, Option.map_map, count]
    rfl

end

/-! ## Rebuilding on the stack -/

/-- The stack `S` with the entries of these members on it, the last on top. -/
def Members.pushed : Members → List Block → List Block
  | .nil, S => S
  | .cons k v rest, S => rest.pushed (v.toBlock :: .stringInj k :: S)

def Elements.pushed : Elements → List Block → List Block
  | .nil, S => S
  | .cons hd tl, S => tl.pushed (hd.toBlock :: S)

theorem Members.length_pushed (ms : Members) (S : List Block) : (ms.pushed S).length = 2 * ms.length + S.length := by
  cases ms with
  | nil => simp only [Members.pushed, Members.length, Nat.mul_zero, Nat.zero_add]
  | cons k v rest =>
    rw [Members.pushed, Members.length_pushed rest, Members.length, List.length_cons, List.length_cons]
    omega

theorem Elements.length_pushed (es : Elements) (S : List Block) : (es.pushed S).length = es.length + S.length := by
  cases es with
  | nil => simp only [Elements.pushed, Elements.length, Nat.zero_add]
  | cons hd tl =>
    rw [Elements.pushed, Elements.length_pushed tl, Elements.length, List.length_cons]
    omega

/-- The loop of `EndObject` takes the pushed members off again and conses them up. -/
theorem popMembers (ms : Members) (S : List Block) :
    forRangeM ms.length (fun _ => popMember) ⟨dotList, ms.pushed S⟩ = .ok ⟨ms.toBlock, S⟩ := by
  cases ms with
  | nil => rfl
  | cons k v rest =>
    rw [Members.length, forRangeM, Members.pushed, popMembers rest]
    rfl

theorem popElements (es : Elements) (S : List Block) :
    forRangeM es.length (fun _ => popElement) ⟨dotList, es.pushed S⟩ = .ok ⟨es.toBlock, S⟩ := by
  cases es with
  | nil => rfl
  | cons hd tl =>
    rw [Elements.length, forRangeM, Elements.pushed, popElements tl]
    rfl

mutual

/-- **The events of a term push its block** and pop nothing that was there before. -/
theorem replayAbove_term (t : Term) {floor : ℕ} {h : KoreHandler} (above : floor ≤ h.stack.length) :
    ∃ r, replayAbove floor h t.events = .ok ⟨r, t.toBlock :: h.stack⟩ := by
  cases t with
  | null => exact ⟨_, replayAbove_cons [] above rfl⟩
  | bool b => exact ⟨_, replayAbove_cons [] above rfl⟩
  | int n =>
    have called : h.step (.rawNumber (int2string n)) = .ok (h.pushResult (.intInj n)) := by
      rw [step, mpzInitSetStr_int2string]
    exact ⟨_, replayAbove_cons [] above called⟩
  | string s => exact ⟨_, replayAbove_cons [] above rfl⟩
  | object ms =>
    obtain ⟨r, inner⟩ := replayAbove_members ms above
    have called : step ⟨r, ms.pushed h.stack⟩ (.endObject ms.length) =
        .ok ⟨ms.toBlock, .object ms.toBlock :: h.stack⟩ := by
      rw [step, endObject, popMembers]
      rfl
    have enough : floor + (Event.endObject ms.length).pops ≤ (ms.pushed h.stack).length := by
      rw [Members.length_pushed, Event.pops]
      omega
    refine ⟨ms.toBlock, ?_⟩
    rw [Term.events, List.cons_append, replayAbove_cons (k := h) _ above rfl, replayAbove_append _ inner,
      replayAbove_cons _ enough called]
    rfl
  | list es =>
    obtain ⟨r, inner⟩ := replayAbove_elements es above
    have called : step ⟨r, es.pushed h.stack⟩ (.endArray es.length) =
        .ok ⟨es.toBlock, .listWrap es.toBlock :: h.stack⟩ := by
      rw [step, endArray, popElements]
      rfl
    have enough : floor + (Event.endArray es.length).pops ≤ (es.pushed h.stack).length := by
      rw [Elements.length_pushed, Event.pops]
      omega
    refine ⟨es.toBlock, ?_⟩
    rw [Term.events, List.cons_append, replayAbove_cons (k := h) _ above rfl, replayAbove_append _ inner,
      replayAbove_cons _ enough called]
    rfl

theorem replayAbove_members (ms : Members) {floor : ℕ} {h : KoreHandler} (above : floor ≤ h.stack.length) :
    ∃ r, replayAbove floor h ms.events = .ok ⟨r, ms.pushed h.stack⟩ := by
  cases ms with
  | nil => exact ⟨h.result, rfl⟩
  | cons k v rest =>
    let keyed := h.pushResult (.stringInj k)
    have keyAbove : floor ≤ keyed.stack.length := above.trans (Nat.le_succ _)
    obtain ⟨r, value⟩ := replayAbove_term v keyAbove
    have valueAbove : floor ≤ (⟨r, v.toBlock :: keyed.stack⟩ : KoreHandler).stack.length :=
      keyAbove.trans (Nat.le_succ _)
    obtain ⟨r', others⟩ := replayAbove_members rest valueAbove
    refine ⟨r', ?_⟩
    rw [Members.events, List.cons_append, replayAbove_cons (k := keyed) _ above rfl, replayAbove_append _ value,
      others]
    rfl

theorem replayAbove_elements (es : Elements) {floor : ℕ} {h : KoreHandler} (above : floor ≤ h.stack.length) :
    ∃ r, replayAbove floor h es.events = .ok ⟨r, es.pushed h.stack⟩ := by
  cases es with
  | nil => exact ⟨h.result, rfl⟩
  | cons hd tl =>
    obtain ⟨r, first⟩ := replayAbove_term hd above
    have headAbove : floor ≤ (⟨r, hd.toBlock :: h.stack⟩ : KoreHandler).stack.length := above.trans (Nat.le_succ _)
    obtain ⟨r', others⟩ := replayAbove_elements tl headAbove
    refine ⟨r', ?_⟩
    rw [Elements.events, replayAbove_append _ first, others]
    rfl

end

/-! ## The round trip -/

/-- The calls of a whole term have a text, whose events are the term's. -/
theorem countBrackets_calls (t : Term) : countBrackets [] t.calls = some t.events := by
  have count := countBrackets_term t [] []
  simpa only [List.append_nil, bump, countBrackets, Option.map_some] using count

/-- **Round trip**: `write_json` returns `true`, and the events of its calls,
replayed into a handler with any stack, never pop below that stack and leave the
block of the term on it. -/
theorem write_replay (t : Term) (h : KoreHandler) :
    ∃ calls events r,
      (writeJson t.toBlock).run [] = .ok (true, calls) ∧
      countBrackets [] calls = some events ∧
      replayAbove h.stack.length h events = .ok ⟨r, t.toBlock :: h.stack⟩ ∧
      replay h events = .ok ⟨r, t.toBlock :: h.stack⟩ := by
  obtain ⟨r, rebuilt⟩ := replayAbove_term t (Nat.le_refl h.stack.length)
  exact ⟨t.calls, t.events, r, writeJson_term t [], countBrackets_calls t, rebuilt, replay_of_replayAbove rebuilt⟩

end KPlugin.Json
