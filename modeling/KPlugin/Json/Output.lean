import KPlugin.Json.Read
import KPlugin.Json.Unsupported
import KPlugin.Lib.BufferedSink

/-!
# `hook_JSON_write`

The `Writer` lays out the calls of `write_json` as text and puts it into the writing
half of an `FDStream`, a buffer of `BUF_SIZE` bytes that `Flush` hands to one
`write(2)` whose result is not looked at. Flushed it is when it is full and when the
top-level value is complete, which on the failing path a container is as well.
-/

namespace KPlugin.Json
open BufferedSink

/-! ## The hook -/

/-- How rapidjson lays out a text: what it puts for each call. -/
structure Format where
  State : Type
  start : State
  put : State → WriterCall → Bytes × State

namespace Format
variable (F : Format)

def textFrom (s : F.State) : List WriterCall → Bytes
  | [] => []
  | c :: calls => (F.put s c).1 ++ textFrom (F.put s c).2 calls

/-- The text of a sequence of calls. -/
def text (calls : List WriterCall) : Bytes := F.textFrom F.start calls

/-- A container begins with its bracket. -/
structure Opens : Prop where
  object : ∀ s, ascii '\x7b' ∈ (F.put s .startObject).1
  array : ∀ s, ascii '[' ∈ (F.put s .startArray).1

end Format

/-- A `KoreWriter` on an `FDStream`, whose `writebuf` is the sink's buffer. -/
structure KoreWriter (F : Format) where
  format : F.State
  levels : Levels
  os : Sink Byte (Device Byte)

namespace KoreWriter
variable {F : Format}

/-- The writer on a fresh stream. -/
def new (F : Format) : KoreWriter F := ⟨F.start, Levels.start, ⟨[], ⟨0, []⟩⟩⟩

/-- One call: the text is put, and the stream flushed when no container is open. -/
def call (w : Schedule) (writer : KoreWriter F) (c : WriterCall) : Option (KoreWriter F) :=
  (writer.levels.step c).map fun levels =>
    let os := putAll bufSize w.write writer.os (F.put writer.format c).1
    ⟨(F.put writer.format c).2, levels, if levels.outer = [] then flush w.write os else os⟩

end KoreWriter

/-- The K item a call returns: `dotk`, or an item in front of it. -/
inductive KItem where
  | dotk
  | kseq (item : Block) (rest : KItem)
deriving DecidableEq, Repr

/-- Why a call returns nothing. -/
inductive WriteStop where
  | stop (s : Stop)
  /-- A call on the `Writer` fails its assertion. -/
  | assertFailed
deriving DecidableEq, Repr

/-- A call that returned: its item, the descriptor and what the stream had read ahead
of it, and what the descriptor accepted. -/
structure WriteResult where
  item : KItem
  fd : Fd
  lost : Bytes
  accepted : Bytes

/-- `hook_JSON_write` on a descriptor that `w` says what becomes of each `write` to.
`write_json` never looks at the `Writer`, so its calls are made once they are known. -/
def hookJsonWrite (F : Format) (w : Schedule) (garbage : ℕ → Byte) (json : Block) (fd : Fd) :
    Except WriteStop WriteResult := do
  let os ← (FDStream.new garbage fd).mapError .stop
  let (returned, calls) ← ((writeJson json).run []).mapError fun fault => .stop (.fault fault)
  match calls.foldlM (KoreWriter.call w) (KoreWriter.new F) with
  | none => throw .assertFailed
  | some writer =>
    let item := if returned then .dotk else .kseq (.putResponseError json) .dotk
    pure ⟨item, os.fd, os.unread, writer.os.device.accepted⟩

/-! ## The calls on the stream -/

namespace KoreWriter
variable {F : Format}

/-- A call the levels take. -/
theorem call_of_step {w : Schedule} {writer : KoreWriter F} {c : WriterCall} {l : Levels}
    (stepped : writer.levels.step c = some l) : writer.call w c = some ⟨(F.put writer.format c).2, l,
      if l.outer = [] then flush w.write (putAll bufSize w.write writer.os (F.put writer.format c).1)
      else putAll bufSize w.write writer.os (F.put writer.format c).1⟩ := by
  rw [call, stepped]
  rfl

/-- **The calls of a complete text** put the text and flush the stream once, behind it. -/
theorem foldlM_call (writer : KoreWriter F) (w : Schedule) {calls : List WriterCall} {l : Levels}
    (rooted : writer.levels.Rooted) (ran : writer.levels.run calls = some l) (closed : l.outer = [])
    (nonempty : calls ≠ []) :
    ∃ format, calls.foldlM (call w) writer =
      some ⟨format, l, flush w.write (putAll bufSize w.write writer.os (F.textFrom writer.format calls))⟩ := by
  induction calls generalizing writer with
  | nil => exact absurd rfl nonempty
  | cons c rest ih =>
    rw [Levels.run_cons, Option.bind_eq_some_iff] at ran
    obtain ⟨next, stepped, ran⟩ := ran
    obtain ⟨rooted', bottom⟩ := rooted.step stepped
    rw [List.foldlM_cons, call_of_step stepped, Format.textFrom, putAll_append]
    cases rest with
    | nil =>
      cases ran
      rw [if_pos closed]
      exact ⟨_, rfl⟩
    | cons d rest =>
      -- no call follows the top-level value, so a container is still open
      have isOpen : next.outer ≠ [] := by
        intro none
        have complete : next = ⟨.nothing, []⟩ := by
          obtain ⟨top, outer⟩ := next
          cases none
          cases bottom rfl
          rfl
        rw [complete, Levels.run_cons, Levels.step_nothing] at ran
        cases ran
      rw [if_neg isOpen]
      exact ih _ rooted' ran (List.cons_ne_nil _ _)

/-- Calls the levels refuse fail an assertion. -/
theorem foldlM_call_eq_none (writer : KoreWriter F) (w : Schedule) {calls : List WriterCall}
    (refused : writer.levels.run calls = none) : calls.foldlM (call w) writer = none := by
  induction calls generalizing writer with
  | nil => cases refused
  | cons c rest ih =>
    rw [Levels.run_cons] at refused
    rw [List.foldlM_cons]
    cases stepped : writer.levels.step c with
    | none =>
      rw [call, stepped]
      rfl
    | some next =>
      rw [stepped] at refused
      rw [call_of_step stepped]
      exact ih _ refused

end KoreWriter

/-! ## What the descriptor accepts -/

/-- What a descriptor accepts of a text: it is handed full buffers and a rest, and takes
of each what `w` says. -/
def Accepts (w : Schedule) (text accepted : Bytes) : Prop :=
  ∃ calls, BufferedSink.Delivered bufSize w.write text ⟨0, []⟩ ⟨calls, accepted⟩

theorem bufSize_pos : 0 < bufSize := by decide

section
variable {w : Schedule} {text accepted : Bytes}

/-- It accepts the text exactly when it takes every request whole. -/
theorem Accepts.all (accepts : Accepts w text accepted) :
    accepted = text ↔ EachRequest bufSize text.length 0 fun i n => w.result i n = some n := by
  obtain ⟨calls, delivered⟩ := accepts
  exact delivered.accepted_eq_iff bufSize_pos

/-- And nothing exactly when every request fails. -/
theorem Accepts.nothing (accepts : Accepts w text accepted) :
    accepted = [] ↔ EachRequest bufSize text.length 0 fun i n => w.result i n = none := by
  obtain ⟨calls, delivered⟩ := accepts
  exact delivered.accepted_eq_self_iff bufSize_pos

end

theorem Accepts.nil (w : Schedule) : Accepts w [] [] := by
  have idle : w.write ⟨0, []⟩ ([] : Bytes) = ⟨1, []⟩ := by simp [Schedule.write, Schedule.taken]
  exact ⟨1, idle ▸ .last _ (Nat.zero_le _)⟩

/-- What a fresh stream delivers of a text. -/
theorem accepts_flush (w : Schedule) (text : Bytes) :
    Accepts w text (flush w.write (putAll bufSize w.write ⟨[], ⟨0, []⟩⟩ text)).device.accepted :=
  ⟨_, flush_putAll w.write bufSize_pos ⟨[], ⟨0, []⟩⟩ text (Nat.zero_le _)⟩

section
variable (F : Format) (w : Schedule) (floatTag : ℕ) {t : JsonTerm}

/-- The item returned for a term. -/
def JsonTerm.item (t : JsonTerm) : KItem :=
  if t.flaw = none then .dotk else .kseq (.putResponseError (t.toBlock floatTag)) .dotk

/-- The calls of a sound term. -/
theorem foldlM_calls (sound : Sound t.flaw) :
    ∃ writer, t.calls.foldlM (KoreWriter.call w) (KoreWriter.new F) = some writer ∧
      Accepts w (F.text t.calls) writer.os.device.accepted := by
  by_cases nonempty : t.calls = []
  · rw [nonempty]
    exact ⟨_, rfl, Accepts.nil w⟩
  · have ran := t.run_calls (l := Levels.start) sound rfl nonempty
    obtain ⟨format, made⟩ := KoreWriter.foldlM_call (KoreWriter.new F) w Levels.rooted_start ran rfl nonempty
    exact ⟨_, made, accepts_flush w _⟩

/-- **One call** on a term whose first flaw, if any, leaves no key alone. -/
theorem hookJsonWrite_sound (sound : Sound t.flaw) : ∃ accepted, Accepts w (F.text t.calls) accepted ∧
    ∀ garbage fd, hookJsonWrite F w garbage (t.toBlock floatTag) fd =
      ((FDStream.new garbage fd).mapError WriteStop.stop).map fun os => ⟨t.item floatTag, os.fd, os.unread, accepted⟩ := by
  obtain ⟨writer, made, accepts⟩ := foldlM_calls F w sound
  refine ⟨_, accepts, fun garbage fd => ?_⟩
  rw [hookJsonWrite, writeJson_jsonTerm, List.nil_append, JsonTerm.item]
  cases FDStream.new garbage fd with
  | error stop => rfl
  | ok os =>
    rcases sound with found | found
    · rw [found]
      simp only [outcome, bind, Except.bind, Except.mapError, made]
      rfl
    · rw [found]
      simp only [outcome, bind, Except.bind, Except.mapError, made]
      rfl

/-- Any other term stops the call. -/
theorem hookJsonWrite_unsound (unsound : ¬ Sound t.flaw) (garbage : ℕ → Byte) (fd : Fd) (r : WriteResult) :
    hookJsonWrite F w garbage (t.toBlock floatTag) fd ≠ .ok r := by
  rw [hookJsonWrite, writeJson_jsonTerm, List.nil_append]
  cases FDStream.new garbage fd with
  | error stop => nofun
  | ok os =>
    cases found : t.flaw with
    | none => exact absurd (.inl found) unsound
    | some flaw =>
      cases flaw with
      | float => exact absurd (.inr found) unsound
      | undef => nofun
      | memberFloat =>
        have refused := KoreWriter.foldlM_call_eq_none (KoreWriter.new F) w (t.run_calls_eq_none found Levels.start)
        simp only [outcome, bind, Except.bind, Except.mapError, refused]
        nofun

/-- A call that returns is the call on a sound term. -/
theorem hookJsonWrite_returns {garbage : ℕ → Byte} {fd : Fd} {r : WriteResult}
    (returns : hookJsonWrite F w garbage (t.toBlock floatTag) fd = .ok r) :
    Sound t.flaw ∧ r.item = t.item floatTag ∧ Accepts w (F.text t.calls) r.accepted := by
  by_cases sound : Sound t.flaw
  · obtain ⟨accepted, accepts, call⟩ := hookJsonWrite_sound F w floatTag sound
    rw [call] at returns
    cases made : FDStream.new garbage fd with
    | error stop =>
      rw [made] at returns
      cases returns
    | ok os =>
      rw [made] at returns
      cases returns
      exact ⟨sound, rfl, accepts⟩
  · exact absurd returns (hookJsonWrite_unsound F w floatTag sound garbage fd r)

/-- On an empty descriptor a sound term's call returns. -/
theorem hookJsonWrite_empty (sound : Sound t.flaw) (garbage : ℕ → Byte) :
    ∃ r, hookJsonWrite F w garbage (t.toBlock floatTag) [] = .ok r := by
  obtain ⟨accepted, -, call⟩ := hookJsonWrite_sound F w floatTag sound
  exact ⟨_, call garbage []⟩

end

/-! ## The laws -/

section
variable (F : Format) (floatTag : ℕ)

/-- Whenever the call returns `dotk`, the descriptor has accepted the term's text. -/
def DeliversAll (w : Schedule) (t : JsonTerm) : Prop :=
  ∀ garbage fd r, hookJsonWrite F w garbage (t.toBlock floatTag) fd = .ok r → r.item = .dotk →
    r.accepted = F.text t.calls

/-- Whenever the call returns an error response, the descriptor has accepted nothing. -/
def SilentOnError (t : JsonTerm) : Prop :=
  ∀ w garbage fd r, hookJsonWrite F w garbage (t.toBlock floatTag) fd = .ok r →
    r.item = .kseq (.putResponseError (t.toBlock floatTag)) .dotk → r.accepted = []

/-- **`dotk` means delivered** exactly when every `write` takes the whole request. -/
theorem delivers_all_iff (w : Schedule) (t : JsonTerm) : DeliversAll F floatTag w t ↔
    t.flaw ≠ none ∨ EachRequest bufSize (F.text t.calls).length 0 fun i n => w.result i n = some n := by
  by_cases found : t.flaw = none
  · rw [or_iff_right (not_not.mpr found)]
    constructor
    · intro delivers
      obtain ⟨r, returns⟩ := hookJsonWrite_empty F w floatTag (.inl found) fun _ => 0
      obtain ⟨-, item, accepts⟩ := hookJsonWrite_returns F w floatTag returns
      rw [JsonTerm.item, if_pos found] at item
      exact accepts.all.mp (delivers _ _ r returns item)
    · intro whole garbage fd r returns _
      obtain ⟨-, -, accepts⟩ := hookJsonWrite_returns F w floatTag returns
      exact accepts.all.mpr whole
  · refine iff_of_true ?_ (.inl found)
    intro garbage fd r returns item
    obtain ⟨-, same, -⟩ := hookJsonWrite_returns F w floatTag returns
    rw [same, JsonTerm.item, if_neg found] at item
    cases item

/-- The term is an object or a list. -/
def JsonTerm.IsContainer : JsonTerm → Prop
  | .object _ => True
  | .list _ => True
  | _ => False

/-- Every `write` takes the whole request. -/
def whole : Schedule where
  result _ n := some n
  le := by
    intro i n k taken
    cases taken
    exact Nat.le_refl _
  pos := by
    intro i n k taken filled
    cases taken
    exact filled

/-- A container has a text, whatever is in it. -/
theorem text_ne_nil (opens : F.Opens) {t : JsonTerm} (container : t.IsContainer) : F.text t.calls ≠ [] := by
  cases t with
  | object ms => exact List.append_ne_nil_of_left_ne_nil (List.ne_nil_of_mem (opens.object _)) _
  | list es => exact List.append_ne_nil_of_left_ne_nil (List.ne_nil_of_mem (opens.array _)) _
  | null => cases container
  | undef => cases container
  | bool b => cases container
  | int n => cases container
  | string s => cases container
  | float data => cases container

/-- **An error response comes alone** unless the term is a container: what of it was
written reached the descriptor. -/
theorem silent_on_error_iff (opens : F.Opens) (t : JsonTerm) :
    SilentOnError F floatTag t ↔ ¬ (t.IsContainer ∧ t.flaw = some .float) := by
  constructor
  · rintro silent ⟨container, found⟩
    obtain ⟨r, returns⟩ := hookJsonWrite_empty F whole floatTag (.inr found) fun _ => 0
    obtain ⟨-, item, accepts⟩ := hookJsonWrite_returns F whole floatTag returns
    rw [JsonTerm.item, if_neg (by rw [found]; exact Option.some_ne_none _)] at item
    have all := accepts.all.mpr fun _ _ => rfl
    exact text_ne_nil F opens container (all.symm.trans (silent whole _ _ r returns item))
  · intro alone w garbage fd r returns item
    obtain ⟨sound, same, accepts⟩ := hookJsonWrite_returns F w floatTag returns
    have found : t.flaw = some .float := by
      rcases sound with none | found
      · rw [same, JsonTerm.item, if_pos none] at item
        cases item
      · exact found
    have unwritten : t.calls = [] := by
      cases t with
      | float data => rfl
      | object ms => exact absurd ⟨trivial, found⟩ alone
      | list es => exact absurd ⟨trivial, found⟩ alone
      | null => cases found
      | undef => cases found
      | bool b => cases found
      | int n => cases found
      | string s => cases found
    refine accepts.nothing.mpr ?_
    rw [unwritten]
    exact fun _ inside => absurd inside (Nat.not_lt_zero _)

end

/-! ## Some calls -/

/-- What a level puts before its next call, in an array or not, the `n`-th. -/
def separator : List (Bool × ℕ) → Bytes
  | [] => []
  | (_, 0) :: _ => []
  | (true, _) :: _ => [ascii ',']
  | (false, n) :: _ => if n % 2 = 0 then [ascii ','] else [ascii ':']

/-- The innermost level has seen one more call. -/
def counted : List (Bool × ℕ) → List (Bool × ℕ)
  | [] => []
  | (inArray, n) :: outer => (inArray, n + 1) :: outer

/-- The compact layout of texts in which nothing is escaped. -/
def compact : Format where
  State := List (Bool × ℕ)
  start := []
  put s
    | .null => (separator s ++ [ascii 'n', ascii 'u', ascii 'l', ascii 'l'], counted s)
    | .bool true => (separator s ++ [ascii 't', ascii 'r', ascii 'u', ascii 'e'], counted s)
    | .bool false => (separator s ++ [ascii 'f', ascii 'a', ascii 'l', ascii 's', ascii 'e'], counted s)
    | .rawNumber str => (separator s ++ str, counted s)
    | .string str => (separator s ++ ascii '"' :: str ++ [ascii '"'], counted s)
    | .key str => (separator s ++ ascii '"' :: str ++ [ascii '"'], counted s)
    | .startObject => (separator s ++ [ascii '\x7b'], (false, 0) :: counted s)
    | .startArray => (separator s ++ [ascii '['], (true, 0) :: counted s)
    | .endObject => ([ascii '\x7d'], s.tail)
    | .endArray => ([ascii ']'], s.tail)

example : compact.text [.startArray, .bool true, .startObject, .key [ascii 'k'], .rawNumber [ascii '7'], .endObject,
    .endArray] = [ascii '[', ascii 't', ascii 'r', ascii 'u', ascii 'e', ascii ',', ascii '\x7b', ascii '"', ascii 'k',
      ascii '"', ascii ':', ascii '7', ascii '\x7d', ascii ']'] := rfl

theorem compact_opens : compact.Opens where
  object _ := List.mem_append_right _ (List.mem_singleton_self _)
  array _ := List.mem_append_right _ (List.mem_singleton_self _)

/-- A `Float` alone writes nothing. -/
theorem silent_on_float : SilentOnError compact 0 (.float []) := by
  refine (silent_on_error_iff compact 0 compact_opens (.float [])).mpr ?_
  rintro ⟨container, -⟩
  cases container

/-- The list of one `Float`. -/
def listOfFloat : JsonTerm := .list (.cons (.float []) .nil)

/-- **`[1.5]` is answered with an error, and `[]` is written.** -/
theorem listOfFloat_writes_brackets :
    hookJsonWrite compact whole (fun _ => 0) (listOfFloat.toBlock 0) [] =
      .ok ⟨.kseq (.putResponseError (listOfFloat.toBlock 0)) .dotk, [], [], [ascii '[', ascii ']']⟩ ∧
    ¬ SilentOnError compact 0 listOfFloat := by
  have returns : hookJsonWrite compact whole (fun _ => 0) (listOfFloat.toBlock 0) [] =
      .ok ⟨.kseq (.putResponseError (listOfFloat.toBlock 0)) .dotk, [], [], [ascii '[', ascii ']']⟩ := rfl
  refine ⟨returns, ?_⟩
  intro silent
  cases silent whole _ _ _ returns rfl

/-- Every `write` takes one byte. -/
def oneByOne : Schedule where
  result _ n := some (min n 1)
  le := by
    intro i n k taken
    cases taken
    exact Nat.min_le_left _ _
  pos := by
    intro i n k taken filled
    cases taken
    omega

/-- **`null` is answered with `dotk` when only its `n` is written.** -/
theorem null_cut_short :
    hookJsonWrite compact oneByOne (fun _ => 0) (JsonTerm.null.toBlock 0) [] = .ok ⟨.dotk, [], [], [ascii 'n']⟩ ∧
    compact.text JsonTerm.null.calls = [ascii 'n', ascii 'u', ascii 'l', ascii 'l'] ∧
    ¬ DeliversAll compact 0 oneByOne .null := by
  have returns : hookJsonWrite compact oneByOne (fun _ => 0) (JsonTerm.null.toBlock 0) [] =
      .ok ⟨.dotk, [], [], [ascii 'n']⟩ := rfl
  refine ⟨returns, rfl, ?_⟩
  intro delivers
  cases delivers _ _ _ returns rfl

end KPlugin.Json
