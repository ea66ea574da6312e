import KPlugin.Json.Pipeline

/-!
# The answer of `hook_JSON_read`

A call on a descriptor from which the reader accepts a document returns what the
header of the document's block makes of it: only an object and an array are
injected into `IOJSON`, the block of any other value is returned as it is, and of
`null` there is no header to look at.
-/

namespace KPlugin.Json
open Reader KoreHandler

/-- Run on the stream of `fd`, the reader stops with `result`, having told of the
document `v` as much as it read of it, and all of it when it succeeds. -/
def Reads (M : Parser) (garbage : Garbage) (fuel : ℕ) (fd : Fd) (v : Value) (result : ParseResult) : Prop :=
  ∃ is is' events, FDStream.new garbage.readbuf fd = .ok is ∧
    run .outOfFuel M FDStream.input collect fuel M.start is [] = .ok (result, is', events) ∧
    events <+: v.events ∧ (result = .success → events = v.events)

/-- What the dispatch on the header makes of an accepted document. -/
def Value.answer (v : Value) : Except Stop Block :=
  match v with
  | .null => .error (.fault .headerOfConstant)
  | .object es => .ok (.jsonInj (.object es.read.toBlock))
  | .array is => .ok (.jsonInj (.listWrap is.read.toBlock))
  | .bool b => .ok (.boolInj b)
  | .number t => .ok (.intInj (mpzInitSetStr t.text 10))
  | .string s => .ok (.stringInj s)

theorem readBlock_value (v : Value) (r : Block) : readBlock .success ⟨r, [v.read.toBlock]⟩ = v.answer := by
  cases v <;> rfl

section
variable {M : Parser} {garbage : Garbage} {fuel : ℕ} {fd : Fd} {v : Value} {result : ParseResult}

/-- **One call on a document**: the hook goes where the reader's result and, when it
succeeds, the document's block lead it. -/
theorem Reads.call (reads : Reads M garbage fuel fd v result) :
    ∃ (is : FDStream) (handler : KoreHandler),
      hookJsonRead M garbage fuel fd = (readBlock result handler).map (fun block => ⟨block, is.fd, is.unread⟩) ∧
      (result = .success → readBlock result handler = v.answer) := by
  obtain ⟨is, is', events, made, ran, isPrefix, whole⟩ := reads
  obtain ⟨r, pushed⟩ := replay_value v ⟨garbage.result, []⟩
  obtain ⟨handler, replayed⟩ := replay_prefix isPrefix pushed
  have along := run_of_collect [] ran (foldlM_handle replayed)
  refine ⟨is', handler, ?_, ?_⟩
  · rw [hookJsonRead, made]
    simp only [bind, Except.bind, along]
    cases readBlock result handler <;> rfl
  · rintro rfl
    rw [whole rfl, pushed] at replayed
    cases replayed
    exact readBlock_value v r

theorem Reads.call_success (reads : Reads M garbage fuel fd v .success) :
    ∃ is : FDStream, hookJsonRead M garbage fuel fd = v.answer.map fun block => ⟨block, is.fd, is.unread⟩ := by
  obtain ⟨is, handler, call, answer⟩ := reads.call
  rw [answer rfl] at call
  exact ⟨is, call⟩

/-! ## Numbers -/

/-- The hook returns one of its two error terms. -/
def ReportsFailure (call : Except Stop ReadResult) : Prop :=
  ∃ r, call = .ok r ∧ (r.block = .ioErrorInj eof ∨ r.block = .jsonInj undef)

/-- The block that `RawNumber` pushes for the token has the token's value. -/
def PushesValue (t : NumberToken) : Prop :=
  ∀ h : KoreHandler, ∃ n : ℤ, h.step (.rawNumber t.text) = .ok ⟨.intInj n, .intInj n :: h.stack⟩ ∧ (n : ℚ) = t.value

/-- The hook reports a failure exactly when the reader does. -/
theorem Reads.reportsFailure_iff (reads : Reads M garbage fuel fd v result) :
    ReportsFailure (hookJsonRead M garbage fuel fd) ↔ result ≠ .success := by
  cases result with
  | success =>
    obtain ⟨is, call⟩ := reads.call_success
    refine iff_of_false ?_ (not_not.mpr rfl)
    rintro ⟨r, returned, failure⟩
    rw [call] at returned
    cases v <;> cases returned <;> rcases failure with failure | failure <;> cases failure
  | documentEmpty =>
    obtain ⟨is, handler, call, -⟩ := reads.call
    exact iff_of_true ⟨_, call, .inl rfl⟩ nofun
  | failed =>
    obtain ⟨is, handler, call, -⟩ := reads.call
    exact iff_of_true ⟨_, call, .inr rfl⟩ nofun

theorem pushesValue_iff (t : NumberToken) : PushesValue t ↔ t.Plain ∨ t.AllZero := by
  rw [← t.kept_iff]
  constructor
  · intro pushes
    obtain ⟨n, called, same⟩ := pushes ⟨dotList, []⟩
    cases called
    exact same
  · intro same h
    exact ⟨_, rfl, same⟩

/-- **A number keeps its value or the call fails** exactly when the reader fails, or the
token has neither fraction nor exponent, or none of its digits counts. -/
theorem number_kept_or_failure_iff (reads : Reads M garbage fuel fd v result) : ∀ t ∈ v.numbers,
    (ReportsFailure (hookJsonRead M garbage fuel fd) ∨ PushesValue t ↔
      result ≠ .success ∨ t.Plain ∨ t.AllZero) := by
  intro t _
  rw [reads.reportsFailure_iff, pushesValue_iff]

/-! ## The top-level value -/

/-- The call returns the injection of the term the document denotes. -/
def ReturnsDocument (v : Value) (call : Except Stop ReadResult) : Prop :=
  ∃ t r, v.Denotes t ∧ call = .ok r ∧ r.block = .jsonInj t.toBlock

/-- **The hook returns an accepted document** exactly when it is an object or an array
whose numbers GMP keeps. -/
theorem returns_document_iff (reads : Reads M garbage fuel fd v .success) :
    ReturnsDocument v (hookJsonRead M garbage fuel fd) ↔
      v.IsContainer ∧ ∀ t ∈ v.numbers, t.Plain ∨ t.AllZero := by
  obtain ⟨is, call⟩ := reads.call_success
  rw [← v.denotes_read_iff]
  constructor
  · rintro ⟨t, r, denotes, returned, block⟩
    rw [call] at returned
    cases v with
    | null => cases returned
    | bool b => cases returned; cases block
    | number n => cases returned; cases block
    | string s => cases returned; cases block
    | object es =>
      cases returned
      have same : (Value.object es).read = t := Term.toBlock_injective _ _ (Block.jsonInj.inj block)
      exact ⟨trivial, same ▸ denotes⟩
    | array items =>
      cases returned
      have same : (Value.array items).read = t := Term.toBlock_injective _ _ (Block.jsonInj.inj block)
      exact ⟨trivial, same ▸ denotes⟩
  · rintro ⟨container, denotes⟩
    cases v with
    | object es => exact ⟨_, _, denotes, call, rfl⟩
    | array items => exact ⟨_, _, denotes, call, rfl⟩
    | null => cases container
    | bool b => cases container
    | number n => cases container
    | string s => cases container

end

/-! ## Some documents -/

/-- A reader of one fixed text: it takes the bytes of the script and hands on its
events, and fails on any other byte. -/
def scriptParser (script : List (Byte ⊕ Event)) : Parser where
  State := Option (List (Byte ⊕ Event))
  start := some script
  move
    | none => .stop .failed
    | some [] => .stop .success
    | some (.inl c :: rest) => .take fun a => if a = c then some rest else none
    | some (.inr e :: rest) => .emit e (some rest)

/-- The array of one number. -/
def arrayOf (t : NumberToken) : Value := .array (.cons (.number t) .nil)

/-- The script of an array of one number. -/
def arrayScript (t : NumberToken) : List (Byte ⊕ Event) :=
  .inl (ascii '[') :: .inr .startArray :: (t.text.map .inl ++
    [.inr (.rawNumber t.text), .inl (ascii ']'), .inr (.endArray 1)])

/-- A descriptor that holds a text in one chunk. -/
def oneText (c : Byte) (rest : Bytes) : Fd := [⟨c :: rest, List.cons_ne_nil _ _⟩]

def arrayFd (t : NumberToken) : Fd := oneText (ascii '[') (t.text ++ [ascii ']'])

theorem reads_fifteen : Reads (scriptParser (arrayScript fifteen)) zeroes 8 (arrayFd fifteen) (arrayOf fifteen) .success :=
  ⟨_, _, _, rfl, rfl, List.prefix_refl _, fun _ => rfl⟩

theorem reads_oneAndAHalf :
    Reads (scriptParser (arrayScript oneAndAHalf)) zeroes 9 (arrayFd oneAndAHalf) (arrayOf oneAndAHalf) .success :=
  ⟨_, _, _, rfl, rfl, List.prefix_refl _, fun _ => rfl⟩

/-- `[15]` keeps its number. -/
theorem number_kept_fifteen :
    ReportsFailure (hookJsonRead (scriptParser (arrayScript fifteen)) zeroes 8 (arrayFd fifteen)) ∨ PushesValue fifteen :=
  (number_kept_or_failure_iff reads_fifteen fifteen (List.mem_singleton_self _)).mpr (.inr (.inl ⟨rfl, rfl⟩))

/-- `[15]` is returned. -/
theorem returns_fifteen :
    ReturnsDocument (arrayOf fifteen) (hookJsonRead (scriptParser (arrayScript fifteen)) zeroes 8 (arrayFd fifteen)) := by
  refine (returns_document_iff reads_fifteen).mpr ⟨trivial, ?_⟩
  intro t member
  rw [List.mem_singleton.mp member]
  exact .inl ⟨rfl, rfl⟩

theorem oneAndAHalf_lost : ¬ (oneAndAHalf.Plain ∨ oneAndAHalf.AllZero) := by
  rintro (⟨noFraction, -⟩ | zero)
  · cases noFraction
  · exact absurd (zero 1 List.mem_cons_self) (by decide)

/-- **`[1.5]` becomes `[0]`.** -/
theorem number_replaced_by_zero :
    Reads (scriptParser (arrayScript oneAndAHalf)) zeroes 9 (arrayFd oneAndAHalf) (arrayOf oneAndAHalf) .success ∧
    hookJsonRead (scriptParser (arrayScript oneAndAHalf)) zeroes 9 (arrayFd oneAndAHalf) =
      .ok ⟨.jsonInj (.listWrap (.list (.intInj 0) dotList)), [], []⟩ ∧
    oneAndAHalf ∈ (arrayOf oneAndAHalf).numbers ∧
    ¬ (ReportsFailure (hookJsonRead (scriptParser (arrayScript oneAndAHalf)) zeroes 9 (arrayFd oneAndAHalf)) ∨
      PushesValue oneAndAHalf) := by
  refine ⟨reads_oneAndAHalf, rfl, List.mem_singleton_self _, ?_⟩
  rw [reads_oneAndAHalf.reportsFailure_iff, pushesValue_iff, or_iff_right (not_not.mpr rfl)]
  exact oneAndAHalf_lost

/-- The scripts of the texts `null` and `true`. -/
def nullScript : List (Byte ⊕ Event) :=
  [.inl (ascii 'n'), .inl (ascii 'u'), .inl (ascii 'l'), .inl (ascii 'l'), .inr .null]

def trueScript : List (Byte ⊕ Event) :=
  [.inl (ascii 't'), .inl (ascii 'r'), .inl (ascii 'u'), .inl (ascii 'e'), .inr (.bool true)]

def nullFd : Fd := oneText (ascii 'n') [ascii 'u', ascii 'l', ascii 'l']

def trueFd : Fd := oneText (ascii 't') [ascii 'r', ascii 'u', ascii 'e']

/-- **`null` makes the hook read a header that is not there**, and `true` is returned
without its injection. -/
theorem scalar_documents_not_returned :
    (Reads (scriptParser nullScript) zeroes 6 nullFd .null .success ∧
      hookJsonRead (scriptParser nullScript) zeroes 6 nullFd = .error (.fault .headerOfConstant)) ∧
    (Reads (scriptParser trueScript) zeroes 6 trueFd (.bool true) .success ∧
      hookJsonRead (scriptParser trueScript) zeroes 6 trueFd = .ok ⟨.boolInj true, [], []⟩) ∧
    ¬ ReturnsDocument .null (hookJsonRead (scriptParser nullScript) zeroes 6 nullFd) ∧
    ¬ ReturnsDocument (.bool true) (hookJsonRead (scriptParser trueScript) zeroes 6 trueFd) := by
  have faults : hookJsonRead (scriptParser nullScript) zeroes 6 nullFd = .error (.fault .headerOfConstant) := rfl
  have bare : hookJsonRead (scriptParser trueScript) zeroes 6 trueFd = .ok ⟨.boolInj true, [], []⟩ := rfl
  refine ⟨⟨⟨_, _, _, rfl, rfl, List.prefix_refl _, fun _ => rfl⟩, faults⟩,
    ⟨⟨_, _, _, rfl, rfl, List.prefix_refl _, fun _ => rfl⟩, bare⟩, ?_, ?_⟩
  · rintro ⟨t, r, -, returned, -⟩
    rw [faults] at returned
    cases returned
  · rintro ⟨t, r, -, returned, block⟩
    rw [bare] at returned
    cases returned
    cases block

end KPlugin.Json
