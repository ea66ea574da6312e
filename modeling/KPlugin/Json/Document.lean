import KPlugin.Json.Number
import KPlugin.Json.Read
import KPlugin.Json.RoundTrip

/-!
# What `hook_JSON_read` returns for a document

A document is a JSON value, its numbers still tokens. Whatever the value, its
events leave one block on the handler's stack, the block of the term in which each
number is what GMP made of it (`Value.read`). What the hook makes of that block
depends on its header, and the term is the one the document denotes only when GMP
kept every number.
-/

namespace KPlugin.Json
open Reader KoreHandler

/-! ## Documents -/

mutual

/-- A JSON value as it is written. -/
inductive Value where
  | null
  | bool (b : Bool)
  | number (t : NumberToken)
  | string (s : Bytes)
  | object (entries : Entries)
  | array (items : Items)

/-- The members of an object. -/
inductive Entries where
  | nil
  | cons (key : Bytes) (val : Value) (rest : Entries)

/-- The items of an array. -/
inductive Items where
  | nil
  | cons (hd : Value) (tl : Items)

end

def Entries.length : Entries → ℕ
  | .nil => 0
  | .cons _ _ rest => rest.length + 1

def Items.length : Items → ℕ
  | .nil => 0
  | .cons _ tl => tl.length + 1

mutual

/-- The events a reader delivers for the value. -/
def Value.events : Value → List Event
  | .null => [.null]
  | .bool b => [.bool b]
  | .number t => [.rawNumber t.text]
  | .string s => [.string s]
  | .object es => .startObject :: es.events ++ [.endObject es.length]
  | .array is => .startArray :: is.events ++ [.endArray is.length]

def Entries.events : Entries → List Event
  | .nil => []
  | .cons k v rest => .key k :: v.events ++ rest.events

def Items.events : Items → List Event
  | .nil => []
  | .cons hd tl => hd.events ++ tl.events

end

mutual

/-- The number tokens of a value, at any depth. -/
def Value.numbers : Value → List NumberToken
  | .number t => [t]
  | .object es => es.numbers
  | .array is => is.numbers
  | _ => []

def Entries.numbers : Entries → List NumberToken
  | .nil => []
  | .cons _ v rest => v.numbers ++ rest.numbers

def Items.numbers : Items → List NumberToken
  | .nil => []
  | .cons hd tl => hd.numbers ++ tl.numbers

end

mutual

/-- The term the value denotes: each number is the integer with its value. -/
inductive Value.Denotes : Value → Term → Prop where
  | null : Value.Denotes .null .null
  | bool (b : Bool) : Value.Denotes (.bool b) (.bool b)
  | number {t : NumberToken} {n : ℤ} (same : (n : ℚ) = t.value) : Value.Denotes (.number t) (.int n)
  | string (s : Bytes) : Value.Denotes (.string s) (.string s)
  | object {es : Entries} {ms : Members} (inner : Entries.Denotes es ms) : Value.Denotes (.object es) (.object ms)
  | array {is : Items} {es : Elements} (inner : Items.Denotes is es) : Value.Denotes (.array is) (.list es)

inductive Entries.Denotes : Entries → Members → Prop where
  | nil : Entries.Denotes .nil .nil
  | cons (k : Bytes) {v : Value} {t : Term} {rest : Entries} {ms : Members} (first : Value.Denotes v t)
      (later : Entries.Denotes rest ms) : Entries.Denotes (.cons k v rest) (.cons k t ms)

inductive Items.Denotes : Items → Elements → Prop where
  | nil : Items.Denotes .nil .nil
  | cons {v : Value} {t : Term} {rest : Items} {es : Elements} (first : Value.Denotes v t)
      (later : Items.Denotes rest es) : Items.Denotes (.cons v rest) (.cons t es)

end

/-- The value is an object or an array. -/
def Value.IsContainer : Value → Prop
  | .object _ => True
  | .array _ => True
  | _ => False

mutual

/-- The term the handler builds: each number is what GMP makes of its text. -/
def Value.read : Value → Term
  | .null => .null
  | .bool b => .bool b
  | .number t => .int (mpzInitSetStr t.text 10)
  | .string s => .string s
  | .object es => .object es.read
  | .array is => .list is.read

def Entries.read : Entries → Members
  | .nil => .nil
  | .cons k v rest => .cons k v.read rest.read

def Items.read : Items → Elements
  | .nil => .nil
  | .cons hd tl => .cons hd.read tl.read

end

/-! ## The handler on a document -/

/-- The event in which a number is written the way GMP would write it. -/
def Event.normalise : Event → Event
  | .rawNumber str => .rawNumber (int2string (mpzInitSetStr str 10))
  | e => e

/-- The handler does not see the difference. -/
theorem step_normalise (h : KoreHandler) (e : Event) : h.step e.normalise = h.step e := by
  cases e with
  | rawNumber str => rw [Event.normalise, step, step, mpzInitSetStr_int2string]
  | null => rfl
  | bool b => rfl
  | string str => rfl
  | startObject => rfl
  | key str => rfl
  | endObject n => rfl
  | startArray => rfl
  | endArray n => rfl

theorem replay_normalise (h : KoreHandler) (events : List Event) :
    h.replay (events.map Event.normalise) = h.replay events := by
  rw [replay, replay, List.foldlM_map]
  congr 1
  funext h e
  exact step_normalise h e

theorem Entries.length_read (es : Entries) : es.read.length = es.length := by
  cases es with
  | nil => rfl
  | cons k v rest => rw [Entries.read, Members.length, Entries.length, rest.length_read]

theorem Items.length_read (is : Items) : is.read.length = is.length := by
  cases is with
  | nil => rfl
  | cons hd tl => rw [Items.read, Elements.length, Items.length, tl.length_read]

mutual

/-- A document's events are those of the term the handler builds, but for the numbers' texts. -/
theorem Value.events_normalise (v : Value) : v.events.map Event.normalise = v.read.events := by
  cases v with
  | null => rfl
  | bool b => rfl
  | number t => rfl
  | string s => rfl
  | object es =>
    simp only [Value.events, Value.read, Term.events, List.map_append, List.map_cons, es.events_normalise,
      es.length_read]
    rfl
  | array is =>
    simp only [Value.events, Value.read, Term.events, List.map_append, List.map_cons, is.events_normalise,
      is.length_read]
    rfl

theorem Entries.events_normalise (es : Entries) : es.events.map Event.normalise = es.read.events := by
  cases es with
  | nil => rfl
  | cons k v rest =>
    simp only [Entries.events, Entries.read, Members.events, List.map_append, List.map_cons, v.events_normalise,
      rest.events_normalise]
    rfl

theorem Items.events_normalise (is : Items) : is.events.map Event.normalise = is.read.events := by
  cases is with
  | nil => rfl
  | cons hd tl =>
    simp only [Items.events, Items.read, Elements.events, List.map_append, hd.events_normalise, tl.events_normalise]

end

/-- **The events of any document push one block**, that of the term the handler builds. -/
theorem replay_value (v : Value) (h : KoreHandler) : ∃ r, h.replay v.events = .ok ⟨r, v.read.toBlock :: h.stack⟩ := by
  obtain ⟨r, rebuilt⟩ := replayAbove_term v.read (Nat.zero_le h.stack.length)
  refine ⟨r, ?_⟩
  rw [← replay_normalise, v.events_normalise]
  exact replay_of_replayAbove rebuilt

/-! ## The term a document denotes -/

mutual

/-- A block is the block of one term. -/
theorem Term.toBlock_injective (s t : Term) (same : s.toBlock = t.toBlock) : s = t := by
  cases s with
  | null => cases t <;> simp [Term.toBlock, Json.null] at same ⊢
  | bool b => cases t <;> simp [Term.toBlock, Json.null] at same ⊢; exact same
  | int n => cases t <;> simp [Term.toBlock, Json.null] at same ⊢; exact same
  | string s => cases t <;> simp [Term.toBlock, Json.null] at same ⊢; exact same
  | object ms => cases t <;> simp [Term.toBlock, Json.null] at same ⊢; exact ms.toBlock_injective _ same
  | list es => cases t <;> simp [Term.toBlock, Json.null] at same ⊢; exact es.toBlock_injective _ same

theorem Members.toBlock_injective (ms ns : Members) (same : ms.toBlock = ns.toBlock) : ms = ns := by
  cases ms with
  | nil => cases ns <;> simp [Members.toBlock, dotList] at same ⊢
  | cons k v rest =>
    cases ns with
    | nil => simp [Members.toBlock, dotList] at same
    | cons k' v' rest' =>
      simp only [Members.toBlock, Block.list.injEq, Block.member.injEq, Block.stringInj.injEq] at same
      obtain ⟨⟨rfl, first⟩, later⟩ := same
      rw [v.toBlock_injective v' first, rest.toBlock_injective rest' later]

theorem Elements.toBlock_injective (es fs : Elements) (same : es.toBlock = fs.toBlock) : es = fs := by
  cases es with
  | nil => cases fs <;> simp [Elements.toBlock, dotList] at same ⊢
  | cons hd tl =>
    cases fs with
    | nil => simp [Elements.toBlock, dotList] at same
    | cons hd' tl' =>
      simp only [Elements.toBlock, Block.list.injEq] at same
      rw [hd.toBlock_injective hd' same.1, tl.toBlock_injective tl' same.2]

end

mutual

/-- **The handler's term is the denoted one** exactly when GMP keeps every number. -/
theorem Value.denotes_read_iff (v : Value) : v.Denotes v.read ↔ ∀ t ∈ v.numbers, t.Plain ∨ t.AllZero := by
  cases v with
  | null => exact iff_of_true .null (List.forall_mem_nil _)
  | bool b => exact iff_of_true (.bool b) (List.forall_mem_nil _)
  | number t =>
    rw [Value.numbers, List.forall_mem_singleton, ← t.kept_iff]
    constructor
    · intro denotes
      cases denotes with
      | number same => exact same
    · exact .number
  | string s => exact iff_of_true (.string s) (List.forall_mem_nil _)
  | object es =>
    rw [Value.numbers, ← es.denotes_read_iff]
    constructor
    · intro denotes
      cases denotes with
      | object inner => exact inner
    · exact .object
  | array is =>
    rw [Value.numbers, ← is.denotes_read_iff]
    constructor
    · intro denotes
      cases denotes with
      | array inner => exact inner
    · exact .array

theorem Entries.denotes_read_iff (es : Entries) : es.Denotes es.read ↔ ∀ t ∈ es.numbers, t.Plain ∨ t.AllZero := by
  cases es with
  | nil => exact iff_of_true .nil (List.forall_mem_nil _)
  | cons k v rest =>
    rw [Entries.numbers, List.forall_mem_append, ← v.denotes_read_iff, ← rest.denotes_read_iff]
    constructor
    · intro denotes
      cases denotes with
      | cons _ first later => exact ⟨first, later⟩
    · rintro ⟨first, later⟩
      exact .cons k first later

theorem Items.denotes_read_iff (is : Items) : is.Denotes is.read ↔ ∀ t ∈ is.numbers, t.Plain ∨ t.AllZero := by
  cases is with
  | nil => exact iff_of_true .nil (List.forall_mem_nil _)
  | cons hd tl =>
    rw [Items.numbers, List.forall_mem_append, ← hd.denotes_read_iff, ← tl.denotes_read_iff]
    constructor
    · intro denotes
      cases denotes with
      | cons first later => exact ⟨first, later⟩
    · rintro ⟨first, later⟩
      exact .cons first later

end

/-! ## Readers that stop early -/

/-- A reader that stops early has faulted nothing. -/
theorem replay_prefix {h h' : KoreHandler} {first events : List Event} (isPrefix : first <+: events)
    (replayed : h.replay events = .ok h') : ∃ k, h.replay first = .ok k := by
  obtain ⟨rest, rfl⟩ := isPrefix
  rw [replay, List.foldlM_append] at replayed
  cases ran : first.foldlM step h with
  | error fault =>
    rw [ran] at replayed
    cases replayed
  | ok k => exact ⟨k, ran⟩

/-! ## Documents that are sent -/

/-- What JSON allows between tokens. -/
def isBlank (c : Byte) : Bool := c = ascii ' ' ∨ c = ascii '\n' ∨ c = ascii '\r' ∨ c = ascii '\t'

/-- White space only. -/
def White (bytes : Bytes) : Prop := ∀ c ∈ bytes, isBlank c = true

theorem white_nil : White [] := List.forall_mem_nil _

theorem white_append {first second : Bytes} : White (first ++ second) ↔ White first ∧ White second :=
  List.forall_mem_append

/-- White space ends where a text begins. -/
theorem White.prefix_of_append {blank space text rest : Bytes} (white : White blank)
    (begins : ∃ c rest, text = c :: rest ∧ isBlank c = false) (same : blank ++ rest = space ++ text) :
    blank <+: space := by
  have isPrefix : blank <+: space ++ text := ⟨rest, same⟩
  rcases List.prefix_or_prefix_of_prefix isPrefix (List.prefix_append space text) with within | ⟨more, longer⟩
  · exact within
  · cases more with
    | nil =>
      rw [← longer, List.append_nil]
    | cons b more =>
      -- the byte behind the white space is the first of the text
      obtain ⟨c, others, rfl, visible⟩ := begins
      rw [← longer, List.append_assoc, List.append_cancel_left_eq, List.cons_append] at same
      have blank := white b (by rw [← longer]; exact List.mem_append_right _ List.mem_cons_self)
      rw [(List.cons.inj same).1, visible] at blank
      cases blank

/-- A container document and a text of it: the reader skips white space in front of the
text and tells of the document. -/
structure Document (M : Parser) where
  text : Bytes
  value : Value
  container : value.IsContainer
  begins : ∃ c rest, text = c :: rest ∧ isBlank c = false
  tells : ∀ space, White space → Tells M (space ++ text) value.events

/-- The block that the handler builds. -/
def Document.block {M : Parser} (d : Document M) : Block := d.value.read.toBlock

/-- The hook injects an object and an array. -/
theorem readBlock_container {v : Value} (container : v.IsContainer) (r : Block) :
    readBlock .success ⟨r, [v.read.toBlock]⟩ = .ok (.jsonInj v.read.toBlock) := by
  cases v with
  | object es => rfl
  | array items => rfl
  | null => cases container
  | bool b => cases container
  | number t => cases container
  | string s => cases container

theorem Document.text_ne_nil {M : Parser} (d : Document M) : d.text ≠ [] := by
  obtain ⟨c, rest, begins, -⟩ := d.begins
  rw [begins]
  exact List.cons_ne_nil c rest

/-- **One call reads one document**, with the white space in front of it. -/
theorem hookJsonRead_document {M : Parser} (d : Document M) (garbage : Garbage) {fd : Fd} {space rest : Bytes}
    (white : White space) (sent : pending fd = space ++ d.text ++ rest) :
    ∃ enough, ∀ fuel, enough ≤ fuel → hookJsonRead M garbage fuel fd = .error .badCut ∨
      ∃ r group, hookJsonRead M garbage fuel fd = .ok r ∧ r.block = .jsonInj d.block ∧
        Took fd (space ++ d.text) r group := by
  obtain ⟨r, pushed⟩ := replay_value d.value ⟨garbage.result, []⟩
  have nonempty : space ++ d.text ≠ [] := List.append_ne_nil_of_right_ne_nil space d.text_ne_nil
  exact hookJsonRead_text (d.tells space white) nonempty sent pushed (readBlock_container d.container r)

end KPlugin.Json
