import Mathlib.Logic.Relation
import KPlugin.Json.Output
import KPlugin.Json.Pipeline
import KPlugin.Json.StreamRuns

/-!
# A dialogue over one connection

`hook_JSON_write` makes an `FDStream` just as `hook_JSON_read` does, and the
constructor of an `FDStream` reads. On a connection that carries requests one way
and answers the other, the call that is to send an answer first takes a chunk of the
peer's input and waits while there is none. A peer that sends its next request only
when it has the answer to the last one, and nothing behind a request, waits too: no
answer is sent before the peer has closed its side.
-/

namespace KPlugin.Json
open BufferedSink Reader Relation

/-! ## Input byte by byte -/

/-- A descriptor that returns the bytes one by one. -/
def bytewise (bytes : Bytes) : Fd := bytes.map fun b => ⟨[b], List.cons_ne_nil b []⟩

theorem pending_bytewise (bytes : Bytes) : pending (bytewise bytes) = bytes := by
  induction bytes with
  | nil => rfl
  | cons b bytes ih => exact congrArg (b :: ·) ih

/-- Every chunk is one byte. -/
def Bytewise (fd : Fd) : Prop := ∀ chunk ∈ fd, chunk.bytes.length = 1

theorem bytewise_bytewise (bytes : Bytes) : Bytewise (bytewise bytes) := by
  intro chunk member
  obtain ⟨b, -, rfl⟩ := List.mem_map.mp member
  rfl

namespace FDStream

/-- A stream over a descriptor that returns single bytes. -/
structure Fed (s : FDStream) : Prop where
  valid : s.Valid
  single : Bytewise s.fd

/-- Every request has room for one byte. -/
theorem Fed.peek {s : FDStream} (fed : s.Fed) :
    s.peek ≠ .error .badCut ∧ ∀ c s', s.peek = .ok (c, s') → s'.Fed := by
  constructor
  · intro refused
    obtain ⟨empty, chunk, rest, next, overlong⟩ := peek_refused refused
    have one := fed.single chunk (by rw [next]; exact List.mem_cons_self)
    have room := (fed.valid.safeRequest (by rw [empty]; decide)).positive
    omega
  · intro c s' looked
    rcases peek_cases fed.valid with ⟨b, rest, -, answer⟩ | ⟨-, -, answer⟩ | ⟨-, refused⟩ |
      ⟨chunk, s'', -, next, valid, -, answer⟩
    · cases answer.symm.trans looked
      exact fed
    · cases answer.symm.trans looked
      exact fed
    · cases refused.symm.trans looked
    · cases answer.symm.trans looked
      refine ⟨valid, fun other member => fed.single other ?_⟩
      rw [next]
      exact List.mem_cons_of_mem chunk member

theorem Fed.take {s : FDStream} (fed : s.Fed) :
    s.take ≠ .error .badCut ∧ ∀ c s', s.take = .ok (c, s') → s'.Fed := by
  obtain ⟨fine, keeps⟩ := fed.peek
  rw [FDStream.take]
  cases looked : s.peek with
  | error stop =>
    refine ⟨?_, ?_⟩
    · intro refused
      cases refused
      exact fine looked
    · intro c s' taken
      cases taken
  | ok p =>
    obtain ⟨c, next⟩ := p
    have fed' := keeps c next looked
    by_cases nul : c = 0
    · refine ⟨?_, ?_⟩
      · change (if c ≠ 0 then _ else _) ≠ _
        rw [if_neg (not_not_intro nul)]
        intro refused
        cases refused
      · intro b s' taken
        change (if c ≠ 0 then _ else _) = _ at taken
        rw [if_neg (not_not_intro nul)] at taken
        cases taken
        exact fed'
    · refine ⟨?_, ?_⟩
      · change (if c ≠ 0 then _ else _) ≠ _
        rw [if_pos nul]
        intro refused
        cases refused
      · intro b s' taken
        change (if c ≠ 0 then _ else _) = _ at taken
        rw [if_pos nul] at taken
        cases taken
        exact ⟨advance_valid fed'.valid, fed'.single⟩

theorem fed_unfilled (garbage : ℕ → Byte) {fd : Fd} (single : Bytewise fd) : (unfilled garbage fd).Fed :=
  ⟨(unfilled_at garbage fd).valid, single⟩

end FDStream

theorem handle_ne_badCut (h : KoreHandler) (e : Event) : handle h e ≠ .error .badCut := by
  rw [handle]
  cases h.step e with
  | error fault =>
    intro refused
    cases refused
  | ok next =>
    intro refused
    cases refused

theorem readBlock_ne_badCut (result : ParseResult) (handler : KoreHandler) :
    readBlock result handler ≠ .error .badCut := by
  obtain ⟨block, stack⟩ := handler
  intro refused
  cases result with
  | success =>
    cases stack with
    | nil => cases refused
    | cons top rest => cases top <;> cases refused
  | documentEmpty => cases refused
  | failed => cases refused

/-- **A read of single bytes is one of the kernel's.** -/
theorem hookJsonRead_ne_badCut (M : Parser) (garbage : Garbage) (fuel : ℕ) {fd : Fd} (single : Bytewise fd) :
    hookJsonRead M garbage fuel fd ≠ .error .badCut := by
  have peeks (s : FDStream) (fed : s.Fed) : FDStream.input.peek s ≠ .error .badCut ∧
      ∀ c s', FDStream.input.peek s = .ok (c, s') → s'.Fed := fed.peek
  have takes (s : FDStream) (fed : s.Fed) : FDStream.input.take s ≠ .error .badCut ∧
      ∀ c s', FDStream.input.take s = .ok (c, s') → s'.Fed := fed.take
  have other : Stop.outOfFuel ≠ .badCut := by decide
  have fed := FDStream.fed_unfilled garbage.readbuf single
  rw [hookJsonRead, FDStream.new_eq_peek]
  cases looked : (FDStream.unfilled garbage.readbuf fd).peek with
  | error stop =>
    intro refused
    cases refused
    exact fed.peek.1 looked
  | ok p =>
    have parses : run .outOfFuel M FDStream.input handle fuel M.start p.2 ⟨garbage.result, []⟩ ≠ .error .badCut :=
      run_ne_error peeks takes handle_ne_badCut other (fed.peek.2 p.1 p.2 looked)
    simp only [Except.map, bind, Except.bind]
    cases ran : run .outOfFuel M FDStream.input handle fuel M.start p.2 ⟨garbage.result, []⟩ with
    | error stop =>
      intro refused
      cases refused
      exact parses ran
    | ok q =>
      have answers := readBlock_ne_badCut q.1 q.2.2
      cases answered : readBlock q.1 q.2.2 with
      | error stop =>
        simp only [answered]
        intro refused
        cases refused
        exact answers answered
      | ok block =>
        simp only [answered]
        intro refused
        cases refused

/-! ## The connection -/

/-- What the process that serves a connection does next. -/
inductive Task where
  | read
  | write (answer : JsonTerm)

/-- A connection with the process at one end and its peer at the other. -/
structure Connection where
  /-- What the peer has sent and no `read(2)` has taken. -/
  arrived : Fd
  /-- The peer has closed its side. -/
  closed : Bool
  task : Task
  /-- How many requests the peer has begun to send. -/
  asked : ℕ
  /-- What it has still to send of the last one. -/
  unsent : Bytes
  /-- What the descriptor has accepted. -/
  answered : Bytes

/-- The process reads first. -/
def Connection.start : Connection := ⟨[], false, .read, 0, [], []⟩

/-- A process that answers requests: each answer is an object or an array. -/
structure Server where
  format : Format
  opens : format.Opens
  floatTag : ℕ
  answer : Block → JsonTerm
  container : ∀ request, (answer request).IsContainer

/-- A call returns from what has arrived: while the peer may send, whatever it sends
later makes no difference, for the call would otherwise have waited for it. `more`
is the result with further input behind it. -/
def Connection.Returns {ρ : Type} (c : Connection) (call : Fd → ρ → Prop) (more : ρ → Fd → ρ) (r : ρ) : Prop :=
  if c.closed then call c.arrived r else ∀ later, call (c.arrived ++ bytewise later) (more r (bytewise later))

def ReadResult.more (r : ReadResult) (later : Fd) : ReadResult := { r with fd := r.fd ++ later }

def WriteResult.more (r : WriteResult) (later : Fd) : WriteResult := { r with fd := r.fd ++ later }

/-- `hook_JSON_read` returns, given moves enough. -/
def ReadCall (M : Parser) (garbage : Garbage) (fd : Fd) (r : ReadResult) : Prop :=
  ∃ fuel, hookJsonRead M garbage fuel fd = .ok r

def WriteCall (F : Format) (w : Schedule) (garbage : ℕ → Byte) (json : Block) (fd : Fd) (r : WriteResult) : Prop :=
  hookJsonWrite F w garbage json fd = .ok r

section
variable {M : Parser} (server : Server) (requests : ℕ → Document M)

/-- The answer to a request. -/
def Server.reply (d : Document M) : JsonTerm := server.answer (.jsonInj d.block)

/-- The text of the answers to the first `n` requests. -/
def Server.replies (n : ℕ) : Bytes := (List.range n).flatMap fun i => server.format.text (server.reply (requests i)).calls

/-- One step of the process or of its peer, which waits for answers: it begins a request
when it has the answers to all earlier ones, and sends nothing behind the request's text. -/
inductive Step (c : Connection) : Connection → Prop where
  /-- The peer turns to its next request. -/
  | ask (isOpen : c.closed = false) (sent : c.unsent = []) (waited : c.answered = server.replies requests c.asked) :
      Step c { c with asked := c.asked + 1, unsent := (requests c.asked).text }
  /-- A part of the request arrives. -/
  | send {chunk : Chunk} {rest : Bytes} (isOpen : c.closed = false) (split : c.unsent = chunk.bytes ++ rest) :
      Step c { c with arrived := c.arrived ++ [chunk], unsent := rest }
  | close : Step c { c with closed := true }
  | read {garbage : Garbage} {r : ReadResult} (task : c.task = .read)
      (returns : c.Returns (ReadCall M garbage) ReadResult.more r) :
      Step c { c with arrived := r.fd, task := .write (server.answer r.block) }
  | write {w : Schedule} {garbage : ℕ → Byte} {answer : JsonTerm} {r : WriteResult} (task : c.task = .write answer)
      (returns : c.Returns (WriteCall server.format w garbage (answer.toBlock server.floatTag)) WriteResult.more r) :
      Step c { c with arrived := r.fd, task := .read, answered := c.answered ++ r.accepted }

def Reachable (c : Connection) : Prop := ReflTransGen (Step server requests) .start c

end

/-! ## When the calls return -/

theorem Connection.returns_open {ρ : Type} {c : Connection} {call : Fd → ρ → Prop} {more : ρ → Fd → ρ} {r : ρ}
    (isOpen : c.closed = false) (returns : c.Returns call more r) (later : Bytes) :
    call (c.arrived ++ bytewise later) (more r (bytewise later)) := by
  rw [Connection.Returns, isOpen] at returns
  exact returns later

/-- A read that returns has the whole document, if what has arrived begins one, and
leaves nothing when nothing else was sent. -/
theorem Connection.read_returns {M : Parser} (d : Document M) {c : Connection} {garbage : Garbage} {r : ReadResult}
    {waiting : Bytes} (isOpen : c.closed = false) (begun : pending c.arrived ++ waiting = d.text)
    (returns : c.Returns (ReadCall M garbage) ReadResult.more r) :
    waiting = [] ∧ r.fd = [] ∧ r.block = .jsonInj d.block := by
  obtain ⟨fuel, ran⟩ := Connection.returns_open isOpen returns waiting
  have sent : pending (c.arrived ++ bytewise waiting) = [] ++ d.text ++ [] := by
    rw [pending_append, pending_bytewise, begun, List.append_nil, List.nil_append]
  obtain ⟨enough, call⟩ := hookJsonRead_document d garbage white_nil sent
  have ran' := hookJsonRead_mono (Nat.le_max_left fuel enough) ran nofun
  rcases call _ (Nat.le_max_right fuel enough) with refused | ⟨r', group, returned, block, took⟩
  · cases refused.symm.trans ran'
  · obtain rfl : r' = r.more (bytewise waiting) := Except.ok.inj (returned.symm.trans ran')
    have split : c.arrived = group ++ r.fd := by
      have whole : c.arrived ++ bytewise waiting = group ++ (r.fd ++ bytewise waiting) := took.split
      rw [← List.append_assoc] at whole
      exact List.append_cancel_right whole
    -- the document was all there, so nothing of it is still to come
    have count := congrArg List.length begun
    rw [split, pending_append, took.bytes] at count
    simp only [List.length_append] at count
    have nothing : waiting = [] := List.eq_nil_of_length_eq_zero (by omega)
    have taken : pending r.fd = [] := List.eq_nil_of_length_eq_zero (by omega)
    exact ⟨nothing, pending_eq_nil taken, block⟩

/-- What a call that writes takes of its input. -/
theorem WriteCall.stream {F : Format} {w : Schedule} {garbage : ℕ → Byte} {json : Block} {fd : Fd} {r : WriteResult}
    (call : WriteCall F w garbage json fd r) :
    ∃ os, FDStream.new garbage fd = .ok os ∧ r.fd = os.fd ∧ r.lost = os.unread := by
  rw [WriteCall, hookJsonWrite] at call
  cases made : FDStream.new garbage fd with
  | error stop =>
    rw [made] at call
    cases call
  | ok os =>
    rw [made] at call
    cases written : (writeJson json).run [] with
    | error fault =>
      simp only [written, bind, Except.bind, Except.mapError] at call
      cases call
    | ok p =>
      simp only [written, bind, Except.bind, Except.mapError] at call
      cases made' : p.2.foldlM (KoreWriter.call w) (KoreWriter.new F) with
      | none =>
        rw [made'] at call
        cases call
      | some writer =>
        rw [made'] at call
        cases call
        exact ⟨os, rfl, rfl, rfl⟩

/-- **A write waits for input**: on a connection that is open and from which nothing
has arrived it does not return. -/
theorem Connection.write_waits {c : Connection} {F : Format} {w : Schedule} {garbage : ℕ → Byte} {json : Block}
    {r : WriteResult} (isOpen : c.closed = false) (nothing : c.arrived = []) :
    ¬ c.Returns (WriteCall F w garbage json) WriteResult.more r := by
  intro returns
  obtain ⟨os, made, left, -⟩ := (Connection.returns_open isOpen returns [0]).stream
  rw [nothing] at made
  -- the constructor takes the byte that arrives
  have taken : os.fd = [] := by
    cases made
    rfl
  rw [taken] at left
  exact absurd left (List.append_ne_nil_of_right_ne_nil _ (List.cons_ne_nil _ _))

/-! ## While the connection is open -/

section
variable {M : Parser} {server : Server} {requests : ℕ → Document M}

/-- How far a dialogue gets while the peer may send. -/
inductive Stage (server : Server) (requests : ℕ → Document M) : Connection → Prop where
  /-- Nothing is asked. -/
  | idle : Stage server requests ⟨[], false, .read, 0, [], []⟩
  /-- The first request is on its way. -/
  | asking {arrived : Fd} {unsent : Bytes} (begun : pending arrived ++ unsent = (requests 0).text) :
      Stage server requests ⟨arrived, false, .read, 1, unsent, []⟩
  /-- It has been read and is to be answered. -/
  | answering : Stage server requests ⟨[], false, .write (server.reply (requests 0)), 1, [], []⟩

theorem Server.replies_one : server.replies requests 1 = server.format.text (server.reply (requests 0)).calls :=
  List.append_nil _

/-- The peer waits for the first answer. -/
theorem Server.replies_one_ne_nil : server.replies requests 1 ≠ [] := by
  rw [Server.replies_one]
  exact text_ne_nil server.format server.opens (server.container _)

/-- **From the first request only closing leads on.** -/
theorem Stage.step_answering {c : Connection}
    (step : Step server requests ⟨[], false, .write (server.reply (requests 0)), 1, [], []⟩ c) :
    c = ⟨[], true, .write (server.reply (requests 0)), 1, [], []⟩ := by
  cases step with
  | ask _ _ waited => exact absurd waited.symm Server.replies_one_ne_nil
  | @send chunk rest _ split => exact absurd (List.append_eq_nil_iff.mp split.symm).1 chunk.nonempty
  | close => rfl
  | read task _ => cases task
  | write _ returns => exact absurd returns (Connection.write_waits rfl rfl)

/-- What one step makes of a stage. -/
theorem Stage.step {c c' : Connection} (stage : Stage server requests c) (step : Step server requests c c') :
    c'.closed = true ∨ Stage server requests c' := by
  cases stage with
  | idle =>
    cases step with
    | ask _ _ _ => exact .inr (.asking (List.nil_append _))
    | @send chunk rest _ split => exact absurd (List.append_eq_nil_iff.mp split.symm).1 chunk.nonempty
    | close => exact .inl rfl
    | read _ returns =>
      obtain ⟨nothing, -, -⟩ := Connection.read_returns (requests 0) rfl (List.nil_append _) returns
      exact absurd nothing (requests 0).text_ne_nil
    | write task _ => cases task
  | @asking arrived unsent begun =>
    cases step with
    | ask _ _ waited => exact absurd waited.symm Server.replies_one_ne_nil
    | @send chunk rest _ split =>
      refine .inr (.asking ?_)
      obtain rfl : unsent = chunk.bytes ++ rest := split
      rw [← begun, pending_append, List.append_assoc]
      exact congrArg (fun bytes => pending arrived ++ (bytes ++ rest)) (List.append_nil chunk.bytes)
    | close => exact .inl rfl
    | @read garbage r _ returns =>
      obtain ⟨rfl, left, block⟩ := Connection.read_returns (requests 0) rfl begun returns
      obtain ⟨block', fd, lost⟩ := r
      obtain rfl : fd = [] := left
      obtain rfl : block' = .jsonInj (requests 0).block := block
      exact .inr .answering
    | write task _ => cases task
  | answering => exact .inl (congrArg Connection.closed (Stage.step_answering step))

theorem Step.closed {c c' : Connection} (step : Step server requests c c') (closed : c.closed = true) :
    c'.closed = true := by
  cases step with
  | close => rfl
  | ask _ _ _ => exact closed
  | send _ _ => exact closed
  | read _ _ => exact closed
  | write _ _ => exact closed

/-- **Along every run** the dialogue stays at its stages until the peer closes. -/
theorem Reachable.stage {c : Connection} (reached : Reachable server requests c) :
    c.closed = true ∨ Stage server requests c := by
  induction reached with
  | refl => exact .inr .idle
  | tail _ step ih =>
    rcases ih with closed | stage
    · exact .inl (step.closed closed)
    · exact stage.step step

end

/-! ## How the dialogue gets stuck -/

section
variable {M : Parser} (server : Server) (requests : ℕ → Document M)

/-- The read of a document that has arrived returns. -/
theorem Connection.read_document (d : Document M) (garbage : Garbage) {c : Connection} (isOpen : c.closed = false)
    (arrived : c.arrived = bytewise d.text) :
    c.Returns (ReadCall M garbage) ReadResult.more ⟨.jsonInj d.block, [], []⟩ := by
  rw [Connection.Returns, isOpen, arrived]
  intro later
  have sent : pending (bytewise d.text ++ bytewise later) = [] ++ d.text ++ later := by
    rw [pending_append, pending_bytewise, pending_bytewise, List.nil_append]
  have single : Bytewise (bytewise d.text ++ bytewise later) := by
    intro chunk member
    rcases List.mem_append.mp member with here | there
    · exact bytewise_bytewise _ chunk here
    · exact bytewise_bytewise _ chunk there
  obtain ⟨enough, call⟩ := hookJsonRead_document d garbage white_nil sent
  rcases call enough (Nat.le_refl _) with refused | ⟨r, group, returned, block, took⟩
  · exact absurd refused (hookJsonRead_ne_badCut M garbage enough single)
  · have holds : pending (bytewise d.text) = [] ++ d.text ++ [] := by
      rw [pending_bytewise, List.nil_append, List.append_nil]
    obtain ⟨extra, -, left, nothing⟩ := took.within rfl holds
    obtain ⟨none, noExtra⟩ := List.append_eq_nil_iff.mp nothing.symm
    rw [pending_eq_nil noExtra, List.nil_append] at left
    obtain ⟨block', fd, lost⟩ := r
    obtain rfl : lost = [] := none
    obtain rfl : block' = .jsonInj d.block := block
    obtain rfl : fd = bytewise later := left
    exact ⟨enough, returned⟩

end

/-! ## No answer while the connection is open -/

section
variable {M : Parser} {server : Server} {requests : ℕ → Document M}

end

end KPlugin.Json
