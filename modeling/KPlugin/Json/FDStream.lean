import KPlugin.Json.Block
import KPlugin.Lib.Reader
import KPlugin.Lib.RingBuffer

/-!
# `FDStream`, the reading half

A stream buffers a file descriptor in a ring of `BUF_SIZE` bytes, refilled by
one `read(2)` when a byte is asked for and none is left. The descriptor is the
list of chunks its `read` calls will return, cut anywhere; after the last one
`read` reports the end of the file. A run in which a chunk is longer than the
request is no run of the kernel and stops with `badCut`.
-/

namespace KPlugin.Json
open RingBuffer

/-- What one successful `read` returns. -/
structure Chunk where
  bytes : Bytes
  nonempty : bytes ≠ []

/-- The rest of a file descriptor's input. -/
abbrev Fd := List Chunk

/-- The bytes still to come. -/
def pending (fd : Fd) : Bytes := fd.flatMap Chunk.bytes

/-- Why a run has no result. -/
inductive Stop where
  /-- More moves are needed. -/
  | outOfFuel
  /-- A chunk is longer than the request. -/
  | badCut
  /-- A reader is fed a word and reads past its end. -/
  | pastEnd
  | fault (f : Fault)
deriving DecidableEq, Repr

/-- `read(fd, buf, len)`; no bytes at the end of the file. -/
def readFd (len : ℕ) : Fd → Except Stop (Bytes × Fd)
  | [] => .ok ([], [])
  | c :: rest => if c.bytes.length ≤ len then .ok (c.bytes, rest) else .error .badCut

/-- `FDStream::BUF_SIZE`. -/
def bufSize : ℕ := 8192

structure FDStream where
  fd : Fd
  readbuf : ℕ → Byte
  rhead : ℕ
  rsize : ℕ

namespace FDStream

/-- Where `fillreadbuf` starts to read to. -/
def readstart (s : FDStream) : ℕ := (s.rhead + s.rsize) % bufSize

/-- How much `fillreadbuf` asks for. -/
def readlength (s : FDStream) : ℕ := (if s.readstart ≥ s.rhead then bufSize else s.rhead) - s.readstart

/-- `fillreadbuf`. -/
def fillreadbuf (s : FDStream) : Except Stop (Bool × FDStream) := do
  let (bytes, fd) ← readFd s.readlength s.fd
  if bytes.length > 0 then
    pure (true, { s with
      fd := fd, readbuf := writeAt s.readbuf s.readstart bytes, rsize := s.rsize + bytes.length })
  else pure (false, { s with fd := fd })

/-- The constructor, over the uninitialised bytes `garbage`. -/
def new (garbage : ℕ → Byte) (fd : Fd) : Except Stop FDStream := do
  let (_, s) ← fillreadbuf ⟨fd, garbage, 0, 0⟩
  pure s

/-- `Peek`. -/
def peek (s : FDStream) : Except Stop (Byte × FDStream) := do
  if s.rsize > 0 then pure (s.readbuf s.rhead, s)
  else
    let (filled, s) ← s.fillreadbuf
    if filled then pure (s.readbuf s.rhead, s) else pure (0, s)

/-- What `Take` does to the ring. -/
def advance (s : FDStream) : FDStream := { s with rhead := (s.rhead + 1) % bufSize, rsize := s.rsize - 1 }

/-- `Take`. -/
def take (s : FDStream) : Except Stop (Byte × FDStream) := do
  let (c, s) ← s.peek
  if c ≠ 0 then pure (c, s.advance) else pure (c, s)

def input : Reader.Input Stop FDStream Byte := ⟨peek, take⟩

/-! ## The queue -/

/-- The bytes taken from the descriptor and not yet from the stream. -/
def unread (s : FDStream) : Bytes := contents bufSize s.readbuf s.rhead s.rsize

/-- The ring indices stay inside the buffer. -/
structure Valid (s : FDStream) : Prop where
  head : s.rhead < bufSize
  size : s.rsize ≤ bufSize

theorem length_unread (s : FDStream) : s.unread.length = s.rsize := length_contents _ _ _ _

theorem unread_eq_nil_iff (s : FDStream) : s.unread = [] ↔ s.rsize = 0 := by
  rw [← List.length_eq_zero_iff, length_unread]

/-- The byte at `rhead` is the first unread one. -/
theorem unread_cons {s : FDStream} (valid : s.Valid) (some : s.rsize > 0) :
    s.unread = s.readbuf s.rhead :: s.advance.unread := by
  obtain ⟨n, size⟩ := Nat.exists_eq_succ_of_ne_zero (Nat.pos_iff_ne_zero.mp some)
  have rest : s.advance.unread = contents bufSize s.readbuf ((s.rhead + 1) % bufSize) n := by
    rw [unread, advance, size]
    rfl
  rw [rest, unread, size]
  exact contents_succ valid.head s.readbuf n

theorem advance_valid {s : FDStream} (valid : s.Valid) : s.advance.Valid where
  head := Nat.mod_lt _ (by decide)
  size := (Nat.sub_le _ _).trans valid.size

theorem fillreadbuf_nil {s : FDStream} (ended : s.fd = []) : s.fillreadbuf = .ok (false, s) := by
  rw [fillreadbuf, ended]
  cases s
  cases ended
  rfl

/-- **Refilling an empty buffer** makes the chunk the queue. -/
theorem fillreadbuf_cons {s : FDStream} {c : Chunk} {rest : Fd} (valid : s.Valid) (empty : s.rsize = 0)
    (next : s.fd = c :: rest) :
    s.fillreadbuf = .error .badCut ∨
      ∃ s', s.fillreadbuf = .ok (true, s') ∧ s'.Valid ∧ s'.unread = c.bytes ∧ s'.fd = rest := by
  have start : s.readstart = s.rhead := by
    rw [readstart, empty, Nat.add_zero, Nat.mod_eq_of_lt valid.head]
  have asked : s.readlength = bufSize - s.rhead := by
    rw [readlength, start, if_pos (Nat.le_refl _)]
  by_cases fits : c.bytes.length ≤ s.readlength
  · have got : readFd s.readlength s.fd = .ok (c.bytes, rest) := by
      rw [next, readFd, if_pos fits]
    have some : c.bytes.length > 0 := List.length_pos_of_ne_nil c.nonempty
    refine .inr ⟨{ s with
      fd := rest, readbuf := writeAt s.readbuf s.readstart c.bytes, rsize := s.rsize + c.bytes.length }, ?_, ?_, ?_, rfl⟩
    · rw [fillreadbuf, got]
      exact if_pos some
    · refine ⟨valid.head, ?_⟩
      have bound := valid.head
      simp only [empty, asked] at fits ⊢
      omega
    · have appended : contents bufSize (writeAt s.readbuf ((s.rhead + s.rsize) % bufSize) c.bytes) s.rhead
          (s.rsize + c.bytes.length) = contents bufSize s.readbuf s.rhead s.rsize ++ c.bytes := contents_writeAt s.readbuf
        (by omega) (by rw [empty, Nat.add_zero, Nat.mod_eq_of_lt valid.head]; have := valid.head; omega)
      rw [empty, contents_zero, List.nil_append] at appended
      rw [unread]
      simp only [empty, readstart]
      exact appended
  · have refused : readFd s.readlength s.fd = .error .badCut := by
      rw [next, readFd, if_neg fits]
    refine .inl ?_
    rw [fillreadbuf, refused]
    rfl

/-- **What `Peek` can do**: answer from the queue, report the end of the file,
or refill the queue by one chunk. -/
theorem peek_cases {s : FDStream} (valid : s.Valid) :
    (∃ c rest, s.unread = c :: rest ∧ s.peek = .ok (c, s)) ∨
    (s.unread = [] ∧ s.fd = [] ∧ s.peek = .ok (0, s)) ∨
    (s.unread = [] ∧ s.peek = .error .badCut) ∨
    ∃ chunk s', s.unread = [] ∧ s.fd = chunk :: s'.fd ∧ s'.Valid ∧ s'.unread = chunk.bytes ∧
      s.peek = .ok (chunk.bytes.head chunk.nonempty, s') := by
  by_cases some : s.rsize > 0
  · refine .inl ⟨_, _, unread_cons valid some, ?_⟩
    rw [peek, if_pos some]
    rfl
  · have empty : s.rsize = 0 := by omega
    have nothing : s.unread = [] := s.unread_eq_nil_iff.mpr empty
    refine .inr ?_
    cases next : s.fd with
    | nil =>
      refine .inl ⟨nothing, rfl, ?_⟩
      rw [peek, if_neg some, fillreadbuf_nil next]
      rfl
    | cons chunk rest =>
      refine .inr ?_
      rcases fillreadbuf_cons valid empty next with refused | ⟨s', filled, valid', queue, left⟩
      · refine .inl ⟨nothing, ?_⟩
        rw [peek, if_neg some, refused]
        rfl
      · refine .inr ⟨chunk, s', nothing, by rw [left], valid', queue, ?_⟩
        have positive : s'.rsize > 0 := by
          rw [← length_unread, queue]
          exact List.length_pos_of_ne_nil chunk.nonempty
        have first : s'.readbuf s'.rhead = chunk.bytes.head chunk.nonempty := by
          have cons := unread_cons valid' positive
          rw [queue] at cons
          simp only [cons, List.head_cons]
        rw [peek, if_neg some, filled, ← first]
        rfl

end FDStream

end KPlugin.Json
