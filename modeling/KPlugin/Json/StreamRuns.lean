import KPlugin.Json.FDStream

/-!
# Runs of `Peek` and `Take`

Seen from outside a stream is a cursor on a text: `Peek` answers the next byte and
`Take` moves past it, and after the last byte both answer 0. Every sequence of calls
on an `FDStream` is answered like that, however the descriptor cuts the text, and no
request reaches beyond the free cells of the ring.
-/

namespace KPlugin.Json
open RingBuffer

/-- A call of a reader. -/
inductive Call where
  | peek
  | take
deriving DecidableEq, Repr

namespace Call

/-- What a call leaves of the text. -/
def rest : Call → Bytes → Bytes
  | peek, text => text
  | take, text => text.tail

/-- What a cursor at the beginning of a text answers. -/
def answers : List Call → Bytes → Bytes
  | [], _ => []
  | c :: calls, text => text.headD 0 :: answers calls (c.rest text)

/-- How many bytes the calls move past. -/
def takes (calls : List Call) : ℕ := calls.count take

/-- The answers of the `Take` calls. -/
def taken : List Call → Bytes → Bytes
  | take :: calls, a :: as => a :: taken calls as
  | peek :: calls, _ :: as => taken calls as
  | _, _ => []

end Call

/-- The calls are answered as by a cursor on the text: `Take` with its bytes one after
another and 0 ever after, any call with what the next `Take` answers. -/
structure Delivers (text : Bytes) (calls : List Call) (answers : Bytes) : Prop where
  length : answers.length = calls.length
  taken : Call.taken calls answers = (text ++ List.replicate (Call.takes calls) 0).take (Call.takes calls)
  peeked : ∀ i j, i ≤ j → Call.takes (calls.take i) = Call.takes (calls.take j) → calls[j]? = some .take →
    answers[i]? = answers[j]?

/-! ## The cursor -/

namespace Call

@[simp] theorem takes_nil : takes [] = 0 := rfl

@[simp] theorem takes_peek (calls : List Call) : takes (peek :: calls) = takes calls := by
  simp [takes]

@[simp] theorem takes_take (calls : List Call) : takes (take :: calls) = takes calls + 1 := by
  simp [takes]

@[simp] theorem length_answers (calls : List Call) (text : Bytes) : (answers calls text).length = calls.length := by
  induction calls generalizing text with
  | nil => rfl
  | cons c calls ih => rw [answers, List.length_cons, List.length_cons, ih]

/-- One more `Take` on a text and the zeros after it. -/
theorem take_succ_padded (text : Bytes) (n : ℕ) :
    (text ++ List.replicate (n + 1) 0).take (n + 1) = text.headD 0 :: (text.tail ++ List.replicate n 0).take n := by
  cases text with
  | nil => simp [List.replicate_succ]
  | cons a text =>
    have longer : text.length - n ≤ text.length := Nat.sub_le _ _
    simp [List.take_append, Nat.min_def]
    omega

/-- **`Take` goes through the text**, and then answers 0. -/
theorem taken_answers (calls : List Call) (text : Bytes) :
    taken calls (answers calls text) = (text ++ List.replicate (takes calls) 0).take (takes calls) := by
  induction calls generalizing text with
  | nil => simp [taken]
  | cons c calls ih =>
    cases c with
    | peek => rw [answers, taken, takes_peek, rest, ih]
    | take => rw [answers, taken, takes_take, rest, take_succ_padded, ih]

/-- The answer to a call is the byte after those moved past. -/
theorem answers_getElem {calls : List Call} {i : ℕ} (lt : i < calls.length) (text : Bytes) :
    (answers calls text)[i]? = some (text.getD (takes (calls.take i)) 0) := by
  induction calls generalizing i text with
  | nil => cases lt
  | cons c calls ih =>
    cases i with
    | zero => cases text <;> simp [answers]
    | succ i =>
      have tail := ih (Nat.lt_of_succ_lt_succ lt) (c.rest text)
      rw [answers, List.getElem?_cons_succ, tail, List.take_succ_cons]
      cases c with
      | peek => rw [rest, takes_peek]
      | take => cases text <;> simp [rest]

theorem delivers_answers (calls : List Call) (text : Bytes) : Delivers text calls (answers calls text) where
  length := length_answers calls text
  taken := taken_answers calls text
  peeked := by
    intro i j before same next
    have inside : j < calls.length := (List.getElem?_eq_some_iff.mp next).1
    rw [answers_getElem (before.trans_lt inside), answers_getElem inside, same]

end Call

namespace FDStream

/-! ## Requests -/

/-- What the stream asks of `read(2)` lies in the free cells. -/
structure SafeRequest (s : FDStream) : Prop where
  positive : 1 ≤ s.readlength
  inside : s.readstart + s.readlength ≤ bufSize
  room : s.rsize + s.readlength ≤ bufSize
  free : ∀ i < s.rsize, (s.rhead + i) % bufSize < s.readstart ∨ s.readstart + s.readlength ≤ (s.rhead + i) % bufSize

/-- **A ring that is not full asks for free cells**, up to its end or up to the head. -/
theorem Valid.safeRequest {s : FDStream} (valid : s.Valid) (space : s.rsize < bufSize) : s.SafeRequest := by
  obtain ⟨head, -⟩ := valid
  have start : s.readstart = (s.rhead + s.rsize) % bufSize := rfl
  by_cases wraps : s.rhead + s.rsize < bufSize
  · rw [Nat.mod_eq_of_lt wraps] at start
    have asked : s.readlength = bufSize - s.readstart := by
      rw [readlength, if_pos (by omega)]
    refine ⟨by omega, by omega, by omega, ?_⟩
    intro i occupied
    rw [Nat.mod_eq_of_lt (show s.rhead + i < bufSize by omega)]
    omega
  · rw [Nat.mod_eq_sub_mod (by omega), Nat.mod_eq_of_lt (by omega)] at start
    have asked : s.readlength = s.rhead - s.readstart := by
      rw [readlength, if_neg (by omega)]
    refine ⟨by omega, by omega, by omega, ?_⟩
    intro i occupied
    by_cases before : s.rhead + i < bufSize
    · rw [Nat.mod_eq_of_lt before]
      omega
    · rw [Nat.mod_eq_sub_mod (by omega), Nat.mod_eq_of_lt (by omega)]
      omega

/-- **A refill appends**: what is unread stays and is followed by what was read. -/
theorem Valid.fillreadbuf_appends {s s' : FDStream} (valid : s.Valid) (space : s.rsize < bufSize) {filled : Bool}
    (refill : s.fillreadbuf = .ok (filled, s')) :
    ∃ got, s'.unread = s.unread ++ got ∧ pending s.fd = got ++ pending s'.fd := by
  have request := valid.safeRequest space
  cases next : s.fd with
  | nil =>
    rw [fillreadbuf_nil next] at refill
    cases refill
    exact ⟨[], by rw [List.append_nil], by rw [next]; rfl⟩
  | cons chunk rest =>
    have some : chunk.bytes.length > 0 := List.length_pos_of_ne_nil chunk.nonempty
    rw [fillreadbuf, next, readFd] at refill
    by_cases fits : chunk.bytes.length ≤ s.readlength
    · rw [if_pos fits] at refill
      change (if _ then _ else _) = _ at refill
      rw [if_pos some] at refill
      cases refill
      have room := request.room
      have inside := request.inside
      have stays : s.rsize + chunk.bytes.length ≤ bufSize := by omega
      have below : s.readstart + chunk.bytes.length ≤ bufSize := by omega
      exact ⟨chunk.bytes, contents_writeAt s.readbuf stays below, rfl⟩
    · rw [if_neg fits] at refill
      cases refill

/-- What holds in every state a stream reaches. -/
structure Sound (s : FDStream) : Prop extends s.Valid where
  request : s.rsize < bufSize → s.SafeRequest
  appends : s.rsize < bufSize → ∀ filled s', s.fillreadbuf = .ok (filled, s') →
    ∃ got, s'.unread = s.unread ++ got ∧ pending s.fd = got ++ pending s'.fd

theorem Valid.sound {s : FDStream} (valid : s.Valid) : s.Sound where
  toValid := valid
  request := valid.safeRequest
  appends := fun space _ _ => valid.fillreadbuf_appends space

/-! ## One call -/

def call : Call → FDStream → Except Stop (Byte × FDStream)
  | .peek, s => s.peek
  | .take, s => s.take

/-- The descriptor has more to return at once than is asked for, which no `read(2)` does. -/
def Overlong (s : FDStream) : Prop := s.rsize = 0 ∧ ∃ c rest, s.fd = c :: rest ∧ s.readlength < c.bytes.length

/-- The stream stands at the beginning of a text. -/
structure At (text : Bytes) (s : FDStream) : Prop where
  valid : s.Valid
  text : s.unread ++ pending s.fd = text

theorem peek_refused {s : FDStream} (refused : s.peek = .error .badCut) : s.Overlong := by
  by_cases some : s.rsize > 0
  · rw [peek, if_pos some] at refused
    cases refused
  · have empty : s.rsize = 0 := by omega
    refine ⟨empty, ?_⟩
    rw [peek, if_neg some] at refused
    cases next : s.fd with
    | nil =>
      rw [fillreadbuf_nil next] at refused
      cases refused
    | cons chunk rest =>
      refine ⟨chunk, rest, rfl, ?_⟩
      by_contra short
      have filled : ∃ s', s.fillreadbuf = .ok (true, s') := by
        rw [fillreadbuf, next, readFd, if_pos (not_lt.mp short)]
        exact ⟨_, if_pos (List.length_pos_of_ne_nil chunk.nonempty)⟩
      obtain ⟨s', filled⟩ := filled
      rw [filled] at refused
      cases refused

/-- `Peek` answers the next byte and stays where it is; a byte it answers is in the queue. -/
theorem At.peek {s : FDStream} {text : Bytes} (stands : s.At text) :
    (s.Overlong ∧ s.peek = .error .badCut) ∨
    ∃ s', s.peek = .ok (text.headD 0, s') ∧ s'.At text ∧ ∀ c u, text = c :: u → ∃ queue, s'.unread = c :: queue := by
  obtain ⟨valid, rfl⟩ := stands
  rcases peek_cases valid with ⟨c, rest, queue, answer⟩ | ⟨nothing, ended, answer⟩ | ⟨-, refused⟩ |
      ⟨chunk, s', nothing, next, valid', queue, answer⟩
  · refine .inr ⟨s, ?_, ⟨valid, rfl⟩, ?_⟩
    · rw [answer, queue]
      rfl
    · intro c' u same
      rw [queue] at same ⊢
      cases same
      exact ⟨rest, rfl⟩
  · have empty : s.unread ++ pending s.fd = [] := by
      rw [nothing, ended]
      rfl
    refine .inr ⟨s, ?_, ⟨valid, rfl⟩, ?_⟩
    · rw [answer, empty]
      rfl
    · intro c u same
      rw [empty] at same
      cases same
  · exact .inl ⟨peek_refused refused, refused⟩
  · have letters : s'.unread = chunk.bytes.head chunk.nonempty :: chunk.bytes.tail := by
      rw [queue, List.cons_head_tail]
    have text : s.unread ++ pending s.fd = s'.unread ++ pending s'.fd := by
      rw [nothing, queue, next]
      rfl
    refine .inr ⟨s', ?_, ⟨valid', text.symm⟩, ?_⟩
    · rw [answer, text, letters]
      rfl
    · intro c u same
      rw [text, letters] at same
      rw [letters]
      cases same
      exact ⟨_, rfl⟩

/-- **A call on a text without NUL** answers as the cursor and moves as it does. -/
theorem At.call {s : FDStream} {text : Bytes} (stands : s.At text) (plain : (0 : Byte) ∉ text) (c : Call) :
    (s.Overlong ∧ s.call c = .error .badCut) ∨
    ∃ s', s.call c = .ok (text.headD 0, s') ∧ s'.At (c.rest text) := by
  cases c with
  | peek =>
    rcases stands.peek with refused | ⟨s', answer, stands', -⟩
    · exact .inl refused
    · exact .inr ⟨s', answer, stands'⟩
  | take =>
    change (_ ∧ s.take = _) ∨ ∃ s', s.take = _ ∧ _
    rw [take]
    rcases stands.peek with ⟨overlong, refused⟩ | ⟨s', answer, stands', queued⟩
    · rw [refused]
      exact .inl ⟨overlong, rfl⟩
    · rw [answer]
      refine .inr ?_
      cases text with
      | nil => exact ⟨s', rfl, stands'⟩
      | cons a u =>
        obtain ⟨queue, unread⟩ := queued a u rfl
        have letter : a ≠ 0 := by
          intro zero
          exact plain (by rw [zero]; exact List.mem_cons_self)
        have some : s'.rsize > 0 := by
          rw [← length_unread, unread]
          exact Nat.succ_pos _
        have rest : s'.advance.unread = queue := by
          have cons := unread_cons stands'.valid some
          rw [unread] at cons
          exact (List.cons.inj cons).2.symm
        have moved : s'.advance.unread ++ pending s'.advance.fd = u := by
          have text := stands'.text
          rw [unread] at text
          rw [rest]
          exact (List.cons.inj text).2
        exact ⟨s'.advance, if_pos letter, advance_valid stands'.valid, moved⟩

/-! ## Runs -/

/-- A sequence of calls and their answers. -/
def run : List Call → FDStream → Except Stop (Bytes × FDStream)
  | [], s => pure ([], s)
  | c :: calls, s => do
    let (a, s) ← s.call c
    let (as, s) ← run calls s
    pure (a :: as, s)

theorem run_cons {c : Call} {calls : List Call} {s s' : FDStream} {a : Byte} (answer : s.call c = .ok (a, s')) :
    run (c :: calls) s = (run calls s').map fun r => (a :: r.1, r.2) := by
  rw [run, answer]
  rfl

/-- An earlier state of the run has a descriptor that returns more than is asked for. -/
def Stops (calls : List Call) (s : FDStream) : Prop :=
  ∃ earlier as s', earlier <+: calls ∧ run earlier s = .ok (as, s') ∧ s'.Overlong

/-- **A run is the cursor's run**, unless the descriptor returns more than is asked for. -/
theorem At.run (calls : List Call) {s : FDStream} {text : Bytes} (stands : s.At text) (plain : (0 : Byte) ∉ text) :
    (Stops calls s ∧ run calls s = .error .badCut) ∨
    ∃ s', run calls s = .ok (Call.answers calls text, s') ∧ s'.Valid := by
  induction calls generalizing s text with
  | nil => exact .inr ⟨s, rfl, stands.valid⟩
  | cons c calls ih =>
    rcases stands.call plain c with ⟨overlong, refused⟩ | ⟨s', answer, stands'⟩
    · refine .inl ⟨⟨[], [], s, List.nil_prefix, rfl, overlong⟩, ?_⟩
      rw [FDStream.run, refused]
      rfl
    · have plain' : (0 : Byte) ∉ c.rest text := by
        cases c with
        | peek => exact plain
        | take => exact fun member => plain (List.mem_of_mem_tail member)
      rw [run_cons answer]
      rcases ih stands' plain' with ⟨⟨earlier, as, last, initial, made, overlong⟩, refused⟩ | ⟨last, made, valid⟩
      · have longer : FDStream.run (c :: earlier) s = .ok (text.headD 0 :: as, last) := by
          rw [run_cons answer, made]
          rfl
        refine .inl ⟨⟨c :: earlier, _, last, (List.prefix_cons_inj c).mpr initial, longer, overlong⟩, ?_⟩
        rw [refused]
        rfl
      · refine .inr ⟨last, ?_, valid⟩
        rw [made]
        rfl

/-! ## Runs of a new stream -/

/-- A stream before the first refill. -/
def unfilled (garbage : ℕ → Byte) (fd : Fd) : FDStream := ⟨fd, garbage, 0, 0⟩

theorem unfilled_at (garbage : ℕ → Byte) (fd : Fd) : (unfilled garbage fd).At (pending fd) where
  valid := ⟨Nat.succ_pos _, Nat.zero_le _⟩
  text := rfl

/-- The constructor refills as `Peek` would. -/
theorem new_eq_peek (garbage : ℕ → Byte) (fd : Fd) : new garbage fd = (unfilled garbage fd).peek.map Prod.snd := by
  have empty : ¬ (unfilled garbage fd).rsize > 0 := Nat.lt_irrefl 0
  rw [peek, if_neg empty]
  change (unfilled garbage fd).fillreadbuf >>= _ = _
  rcases (unfilled garbage fd).fillreadbuf with e | ⟨_ | _, s⟩ <;> rfl

/-- The calls on a stream just made. -/
def runNew (garbage : ℕ → Byte) (fd : Fd) (calls : List Call) : Except Stop (Bytes × FDStream) := do
  let s ← new garbage fd
  s.run calls

/-- **A stream delivers its text.** Its first request and every later one ask for free
cells only, and unless the descriptor returns more than was asked for, any calls are
answered from the text, byte by byte and then with 0. -/
theorem calls_deliver_text (garbage : ℕ → Byte) (fd : Fd) (plain : (0 : Byte) ∉ pending fd) :
    (unfilled garbage fd).Sound ∧ ∀ calls : List Call,
      (((unfilled garbage fd).Overlong ∨ ∃ s, new garbage fd = .ok s ∧ Stops calls s) ∧
        runNew garbage fd calls = .error .badCut) ∨
      ∃ as s, runNew garbage fd calls = .ok (as, s) ∧ Delivers (pending fd) calls as ∧ s.Sound := by
  have start := unfilled_at garbage fd
  refine ⟨start.valid.sound, fun calls => ?_⟩
  rw [runNew, new_eq_peek]
  rcases start.peek with ⟨overlong, refused⟩ | ⟨s, answer, stands, -⟩
  · rw [refused]
    exact .inl ⟨.inl overlong, rfl⟩
  · rw [answer]
    change (_ ∧ s.run calls = _) ∨ ∃ as last, s.run calls = _ ∧ _
    rcases stands.run calls plain with ⟨stops, refused⟩ | ⟨last, made, valid⟩
    · exact .inl ⟨.inr ⟨s, rfl, stops⟩, refused⟩
    · exact .inr ⟨_, last, made, Call.delivers_answers calls _, valid.sound⟩

/-- Three letters in two pieces. -/
def twoPieces : Fd := [⟨[97, 98], List.cons_ne_nil _ _⟩, ⟨[99], List.cons_ne_nil _ _⟩]

/-- They are taken one by one, whatever is peeked at in between, and then 0. -/
theorem calls_deliver_three_letters :
    (0 : Byte) ∉ pending twoPieces ∧
    ∃ as s, runNew (fun _ => 0) twoPieces [.take, .peek, .take, .take, .peek, .take] = .ok (as, s) ∧
      Delivers [97, 98, 99] [.take, .peek, .take, .take, .peek, .take] as := by
  have plain : (0 : Byte) ∉ pending twoPieces := by decide
  refine ⟨plain, ?_⟩
  rcases (calls_deliver_text (fun _ => 0) twoPieces plain).2 [.take, .peek, .take, .take, .peek, .take] with
    ⟨-, refused⟩ | ⟨as, s, made, delivers, -⟩
  · have served : (runNew (fun _ => 0) twoPieces [.take, .peek, .take, .take, .peek, .take]).isOk = true := by
      decide +kernel
    rw [refused] at served
    cases served
  · exact ⟨as, s, made, delivers⟩

end FDStream

end KPlugin.Json
