import KPlugin.Json.FDStream
import KPlugin.Json.Handler

/-!
# `hook_JSON_read`

The rapidjson `Reader` is a parameter: a machine that looks at bytes, takes them
and calls the handler. Under `kParseStopWhenDoneFlag` it stops behind the last
byte of its document. The stream does not: a call takes whole chunks from the
descriptor and its destructor forgets what the reader has left of them.
-/

namespace KPlugin.Json
open Reader

/-- `ParseResult`, as far as the hook tells results apart. -/
inductive ParseResult where
  | success
  | documentEmpty
  | failed
deriving DecidableEq, Repr

/-- `Reader::Parse<kParseStopWhenDoneFlag | kParseNumbersAsStringsFlag>`. -/
abbrev Parser := Machine Byte Event ParseResult

/-- The handler as the sink of the reader's events. -/
def handle (h : KoreHandler) (e : Event) : Except Stop KoreHandler := (h.step e).mapError Stop.fault

/-- What a call returns, where it leaves the descriptor, and the bytes it took
from the descriptor that its stream still held at the end. -/
structure ReadResult where
  block : Block
  fd : Fd
  lost : Bytes

/-- The block for a parse result; the header of the top of the stack is read. -/
def readBlock (result : ParseResult) (handler : KoreHandler) : Except Stop Block :=
  match result with
  | .success =>
    match handler.stack with
    | [] => .error (.fault .emptyStack)
    | .const _ :: _ => .error (.fault .headerOfConstant)
    | .object data :: _ => .ok (.jsonInj (.object data))
    | .listWrap data :: _ => .ok (.jsonInj (.listWrap data))
    | semifinal :: _ => .ok semifinal
  | .documentEmpty => .ok (.ioErrorInj eof)
  | .failed => .ok (.jsonInj undef)

/-- The uninitialised memory of a call: the buffer and the handler's `result`. -/
structure Garbage where
  readbuf : ℕ → Byte
  result : Block

/-- `hook_JSON_read`. -/
def hookJsonRead (M : Parser) (garbage : Garbage) (fuel : ℕ) (fd : Fd) : Except Stop ReadResult := do
  let is ← FDStream.new garbage.readbuf fd
  let (result, is, handler) ← run .outOfFuel M FDStream.input handle fuel M.start is ⟨garbage.result, []⟩
  let block ← readBlock result handler
  pure ⟨block, is.fd, is.unread⟩

/-- On exactly this text the reader succeeds with these events, and looks no further. -/
def Tells (M : Parser) (text : Bytes) (events : List Event) : Prop :=
  ∃ fuel, run Stop.outOfFuel M (word Stop.pastEnd 0) collect fuel M.start text [] = .ok (.success, [], events)

/-! ## One call -/

/-- The stream during the parse of the document `text` at the beginning of `fd`:
`u` is what the reader still has to see of it. The chunks taken so far end with
the unread bytes, and all but the last lie strictly inside the document. -/
structure Reading (fd : Fd) (text : Bytes) (s : FDStream) (u : Bytes) : Prop where
  valid : s.Valid
  chunks : ∃ group taken, fd = group ++ s.fd ∧ text = taken ++ u ∧ pending group = taken ++ s.unread ∧
    ∀ inner, inner <+: group → inner ≠ group → (pending inner).length < text.length

theorem pending_append (fd fd' : Fd) : pending (fd ++ fd') = pending fd ++ pending fd' := by
  rw [pending, List.flatMap_append]
  rfl

/-- While the reader has something to see, the queue and the descriptor start with it. -/
theorem Reading.ahead {fd : Fd} {text rest u : Bytes} {s : FDStream} (reading : Reading fd text s u)
    (sent : pending fd = text ++ rest) : s.unread ++ pending s.fd = u ++ rest := by
  obtain ⟨group, taken, split, same, queue, -⟩ := reading.chunks
  rw [split, pending_append, queue, same, List.append_assoc, List.append_assoc] at sent
  exact List.append_cancel_left sent

/-- One more chunk, when the queue is used up and the document is not. -/
theorem Reading.refill {fd : Fd} {text u : Bytes} {s s' : FDStream} {chunk : Chunk} (reading : Reading fd text s u)
    (more : u ≠ []) (empty : s.unread = []) (next : s.fd = chunk :: s'.fd) (valid : s'.Valid)
    (queue' : s'.unread = chunk.bytes) : Reading fd text s' u := by
  obtain ⟨group, taken, split, same, queue, inside⟩ := reading.chunks
  rw [empty, List.append_nil] at queue
  refine ⟨valid, group ++ [chunk], taken, ?_, same, ?_, ?_⟩
  · rw [split, next, List.append_assoc, List.singleton_append]
  · rw [pending_append, queue, queue', pending, List.flatMap_singleton]
  · intro inner isPrefix proper
    have bound : (pending group).length < text.length := by
      rw [queue, same, List.length_append]
      exact Nat.lt_add_of_pos_right (List.length_pos_of_ne_nil more)
    rcases List.prefix_concat_iff.mp isPrefix with whole | within
    · exact absurd whole proper
    · by_cases all : inner = group
      · rw [all]
        exact bound
      · exact inside inner within all

/-- The first unread byte, when the reader takes it. -/
theorem Reading.advance {fd : Fd} {text u queue : Bytes} {s : FDStream} {c : Byte} (reading : Reading fd text s (c :: u))
    (first : s.unread = c :: queue) : Reading fd text s.advance u := by
  obtain ⟨group, taken, split, same, held, inside⟩ := reading.chunks
  have some : s.rsize > 0 := by
    rw [← FDStream.length_unread, first]
    exact Nat.succ_pos _
  have rest := FDStream.unread_cons reading.valid some
  rw [first] at rest
  have tail : s.advance.unread = queue := (List.cons.inj rest).2.symm
  have head : c = s.readbuf s.rhead := (List.cons.inj rest).1
  refine ⟨FDStream.advance_valid reading.valid, group, taken ++ [c], split, ?_, ?_, inside⟩
  · rw [same, List.append_assoc, List.singleton_append]
  · rw [held, first, tail, List.append_assoc, List.singleton_append]

/-- `Peek` shows the document. -/
theorem Reading.peek {fd : Fd} {text rest u : Bytes} {s : FDStream} {c : Byte} (sent : pending fd = text ++ rest)
    (reading : Reading fd text s (c :: u)) :
    s.peek = .error .badCut ∨ ∃ s' queue, s.peek = .ok (c, s') ∧ s'.unread = c :: queue ∧ Reading fd text s' (c :: u) := by
  have ahead := reading.ahead sent
  rcases FDStream.peek_cases reading.valid with ⟨b, queue, held, looked⟩ | ⟨empty, ended, looked⟩ |
    ⟨empty, refused⟩ | ⟨chunk, s', empty, next, valid, queue, looked⟩
  · rw [held] at ahead
    obtain rfl : b = c := (List.cons.inj ahead).1
    exact .inr ⟨s, queue, looked, held, reading⟩
  · rw [empty, ended] at ahead
    cases ahead
  · exact .inl refused
  · obtain ⟨b, bytes, first⟩ := List.exists_cons_of_ne_nil chunk.nonempty
    have shown : pending s.fd = b :: (bytes ++ pending s'.fd) := by
      rw [next, pending, List.flatMap_cons, first]
      rfl
    rw [empty, shown] at ahead
    obtain rfl : b = c := (List.cons.inj ahead).1
    refine .inr ⟨s', bytes, ?_, by rw [queue, first], reading.refill (List.cons_ne_nil _ _) empty next valid queue⟩
    rw [looked]
    simp only [first, List.head_cons]

/-- `Take` takes it. -/
theorem Reading.take {fd : Fd} {text rest u : Bytes} {s : FDStream} {c : Byte} (sent : pending fd = text ++ rest)
    (reading : Reading fd text s (c :: u)) :
    s.take = .error .badCut ∨ ∃ s', s.take = .ok (c, s') ∧ Reading fd text s' (if c = 0 then c :: u else u) := by
  rcases reading.peek sent with refused | ⟨s', queue, looked, held, reading'⟩
  · refine .inl ?_
    rw [FDStream.take, refused]
    rfl
  · refine .inr ?_
    by_cases nul : c = 0
    · refine ⟨s', ?_, by rw [if_pos nul]; exact reading'⟩
      rw [FDStream.take, looked]
      exact if_neg (not_not_intro nul)
    · refine ⟨s'.advance, ?_, by rw [if_neg nul]; exact reading'.advance held⟩
      rw [FDStream.take, looked]
      exact if_pos nul

/-- The constructor takes the first chunk. -/
theorem Reading.new {fd : Fd} {text rest : Bytes} (garbage : ℕ → Byte) (nonempty : text ≠ [])
    (sent : pending fd = text ++ rest) :
    FDStream.new garbage fd = .error .badCut ∨
      ∃ s, FDStream.new garbage fd = .ok s ∧ Reading fd text s text := by
  let fresh : FDStream := ⟨fd, garbage, 0, 0⟩
  have valid : fresh.Valid := ⟨show 0 < bufSize by decide, Nat.zero_le _⟩
  have start : Reading fd text fresh text := by
    refine ⟨valid, [], [], rfl, rfl, rfl, ?_⟩
    intro inner isPrefix proper
    exact absurd (List.prefix_nil.mp isPrefix) proper
  cases next : fd with
  | nil =>
    rw [next] at sent
    exact absurd (List.append_eq_nil_iff.mp sent.symm).1 nonempty
  | cons chunk others =>
    have first : fresh.fd = chunk :: others := next
    rw [← next]
    rcases FDStream.fillreadbuf_cons valid rfl first with refused | ⟨s, filled, valid', queue, left⟩
    · refine .inl ?_
      rw [FDStream.new, refused]
      rfl
    · refine .inr ⟨s, ?_, start.refill nonempty rfl (by rw [first, left]) valid' queue⟩
      rw [FDStream.new, filled]
      rfl

theorem foldlM_handle {h h' : KoreHandler} {events : List Event} (replayed : h.replay events = .ok h') :
    events.foldlM handle h = .ok h' := by
  induction events generalizing h with
  | nil =>
    cases replayed
    rfl
  | cons e events ih =>
    rw [KoreHandler.replay, List.foldlM_cons] at replayed
    rw [List.foldlM_cons]
    cases called : h.step e with
    | error fault =>
      rw [called] at replayed
      cases replayed
    | ok next =>
      rw [called] at replayed
      rw [handle, called]
      exact ih replayed

/-- What a call took from the descriptor for a document: whole chunks, all but
the last strictly inside it; what they hold beyond it is lost. -/
structure Took (fd : Fd) (text : Bytes) (r : ReadResult) (group : Fd) : Prop where
  split : fd = group ++ r.fd
  bytes : pending group = text ++ r.lost
  inside : ∀ inner, inner <+: group → inner ≠ group → (pending inner).length < text.length

/-- **One call reads one text**, if the kernel can cut the input so. -/
theorem hookJsonRead_text {M : Parser} {text rest : Bytes} {events : List Event} {garbage : Garbage} {fd : Fd}
    {handler : KoreHandler} {block : Block} (tells : Tells M text events) (nonempty : text ≠ [])
    (sent : pending fd = text ++ rest) (built : KoreHandler.replay ⟨garbage.result, []⟩ events = .ok handler)
    (answer : readBlock .success handler = .ok block) :
    ∃ enough, ∀ fuel, enough ≤ fuel → hookJsonRead M garbage fuel fd = .error .badCut ∨
      ∃ r group, hookJsonRead M garbage fuel fd = .ok r ∧ r.block = block ∧ Took fd text r group := by
  obtain ⟨enough, told⟩ := tells
  have exactRun := run_of_collect [] told (foldlM_handle built)
  refine ⟨enough, fun fuel more => ?_⟩
  have wordRun := run_mono more exactRun (by simp)
  rcases Reading.new garbage.readbuf nonempty sent with refused | ⟨s, made, reading⟩
  · refine .inl ?_
    rw [hookJsonRead, refused]
    rfl
  · have peeks : ∀ (s : FDStream) u a u', Reading fd text s u →
        (word (F := Stop) Stop.pastEnd (0 : Byte)).peek u = .ok (a, u') →
        Follows .badCut (Reading fd text) (FDStream.input.peek s) a u' := by
      intro s u a u' reading looked
      cases u with
      | nil => cases looked
      | cons c u =>
        cases looked
        rcases reading.peek sent with refused | ⟨s', queue, shown, held, reading'⟩
        · exact .inl refused
        · exact .inr ⟨s', shown, reading'⟩
    have takes : ∀ (s : FDStream) u a u', Reading fd text s u →
        (word (F := Stop) Stop.pastEnd (0 : Byte)).take u = .ok (a, u') →
        Follows .badCut (Reading fd text) (FDStream.input.take s) a u' := by
      intro s u a u' reading taken
      cases u with
      | nil => cases taken
      | cons c u =>
        cases taken
        exact reading.take sent
    rcases run_follows peeks takes reading wordRun with refused | ⟨s', ran, done⟩
    · refine .inl ?_
      rw [hookJsonRead, made]
      simp only [bind, Except.bind, refused]
    · obtain ⟨group, taken, split, same, queue, inside⟩ := done.chunks
      rw [List.append_nil] at same
      refine .inr ⟨⟨block, s'.fd, s'.unread⟩, group, ?_, rfl, split, by rw [queue, same], inside⟩
      rw [hookJsonRead, made]
      simp only [bind, Except.bind, ran, answer]
      rfl

end KPlugin.Json
