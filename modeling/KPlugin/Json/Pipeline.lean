import KPlugin.Json.Document

/-!
# Calls in a row

Each call of `hook_JSON_read` builds a stream of its own, which takes whole
chunks and forgets what its reader leaves of the last one. Calls in a row
therefore return documents in a row, as far as GMP keeps their numbers, exactly
when no chunk holds bytes of two documents; white space between documents may
get lost. The induction is on the documents; more fuel changes no answer, so the
fuels of the single calls can be joined.
-/

namespace KPlugin.Json
open Reader

/-- `n` calls in a row: the blocks they return and the bytes each of them loses. -/
def reads (M : Parser) (garbage : Garbage) (fuel : ℕ) : ℕ → Fd → Except Stop (List Block × List Bytes)
  | 0, _ => .ok ([], [])
  | n + 1, fd => do
    let r ← hookJsonRead M garbage fuel fd
    let (blocks, lost) ← reads M garbage fuel n r.fd
    pure (r.block :: blocks, r.lost :: lost)

/-- The documents one after another, with white space around them. -/
inductive Sent {M : Parser} : List (Document M) → Bytes → Prop where
  | nil {space : Bytes} (white : White space) : Sent [] space
  | cons {d : Document M} {docs : List (Document M)} {space rest : Bytes} (white : White space) (later : Sent docs rest) :
      Sent (d :: docs) (space ++ d.text ++ rest)

/-- No chunk holds bytes of two documents: the chunks fall into groups, one after
another, each with one document, white space in front of it and bytes of the kind
`Behind` behind it, and a rest of white space. -/
inductive Separate {M : Parser} (Behind : Bytes → Prop) : List (Document M) → Fd → Prop where
  | nil {fd : Fd} (white : White (pending fd)) : Separate Behind [] fd
  | cons {d : Document M} {docs : List (Document M)} {group fd : Fd} {space behind : Bytes} (white : White space)
      (allowed : Behind behind) (bytes : pending group = space ++ d.text ++ behind) (later : Separate Behind docs fd) :
      Separate Behind (d :: docs) (group ++ fd)

/-- The call for a document returns the term that the document denotes. -/
def Document.Returned {M : Parser} (d : Document M) (block : Block) : Prop :=
  ∃ t, d.value.Denotes t ∧ block = .jsonInj t.toBlock

/-- Every call returns its document, and the bytes that it takes from the descriptor and
leaves unread are of the kind `Lost`. -/
def Delivered {M : Parser} (Lost : Bytes → Prop) (docs : List (Document M)) (garbage : Garbage) (fd : Fd) : Prop :=
  ∃ fuel blocks lost, reads M garbage fuel docs.length fd = .ok (blocks, lost) ∧
    List.Forall₂ Document.Returned docs blocks ∧ ∀ bytes ∈ lost, Lost bytes

/-- GMP keeps every number of the documents. -/
def NumbersKept {M : Parser} (docs : List (Document M)) : Prop :=
  ∀ d ∈ docs, ∀ t ∈ d.value.numbers, t.Plain ∨ t.AllZero

/-- The kernel can cut the input so: no call meets a chunk longer than its request. -/
def Legal (M : Parser) (garbage : Garbage) (n : ℕ) (fd : Fd) : Prop :=
  ∀ fuel, reads M garbage fuel n fd ≠ .error .badCut

theorem hookJsonRead_mono {M : Parser} {garbage : Garbage} {fd : Fd} {n m : ℕ} {x : Except Stop ReadResult}
    (more : n ≤ m) (ran : hookJsonRead M garbage n fd = x) (enough : x ≠ .error .outOfFuel) :
    hookJsonRead M garbage m fd = x := by
  unfold hookJsonRead at ran ⊢
  cases made : FDStream.new garbage.readbuf fd with
  | error f =>
    rw [made] at ran
    exact ran
  | ok s =>
    rw [made] at ran
    cases parsed : run Stop.outOfFuel M FDStream.input handle n M.start s ⟨garbage.result, []⟩ with
    | error f =>
      simp only [bind, Except.bind, parsed] at ran ⊢
      have enough' : (.error f : Except Stop (ParseResult × FDStream × KoreHandler)) ≠ .error .outOfFuel := by
        intro out
        cases out
        exact enough ran.symm
      rw [run_mono more parsed enough']
      exact ran
    | ok p =>
      simp only [bind, Except.bind, parsed] at ran ⊢
      rw [run_mono more parsed (by simp)]
      exact ran

theorem reads_succ_error {M : Parser} {garbage : Garbage} {fuel k : ℕ} {fd : Fd} {f : Stop}
    (failed : hookJsonRead M garbage fuel fd = .error f) : reads M garbage fuel (k + 1) fd = .error f := by
  rw [reads, failed]
  rfl

theorem reads_succ {M : Parser} {garbage : Garbage} {fuel k : ℕ} {fd : Fd} {r : ReadResult}
    (first : hookJsonRead M garbage fuel fd = .ok r) :
    reads M garbage fuel (k + 1) fd =
      (reads M garbage fuel k r.fd).map fun later => (r.block :: later.1, r.lost :: later.2) := by
  rw [reads, first]
  cases later : reads M garbage fuel k r.fd with
  | error f =>
    simp only [bind, Except.bind, later]
    rfl
  | ok p =>
    simp only [bind, Except.bind, later]
    rfl

theorem reads_mono {M : Parser} {garbage : Garbage} {k n m : ℕ} {fd : Fd} {x : Except Stop (List Block × List Bytes)}
    (more : n ≤ m) (ran : reads M garbage n k fd = x) (enough : x ≠ .error .outOfFuel) :
    reads M garbage m k fd = x := by
  induction k generalizing fd x with
  | zero => exact ran
  | succ k ih =>
    cases first : hookJsonRead M garbage n fd with
    | error f =>
      rw [reads_succ_error first] at ran
      subst ran
      exact reads_succ_error (hookJsonRead_mono more first (by simpa using enough))
    | ok r =>
      rw [reads_succ first] at ran
      rw [reads_succ (hookJsonRead_mono more first (by simp))]
      cases later : reads M garbage n k r.fd with
      | error f =>
        rw [later] at ran
        subst ran
        rw [ih later (by simpa [Except.map] using enough)]
      | ok p =>
        rw [later] at ran
        subst ran
        rw [ih later (by simp)]

theorem pending_eq_nil {fd : Fd} (nothing : pending fd = []) : fd = [] := by
  cases fd with
  | nil => rfl
  | cons chunk rest =>
    rw [pending, List.flatMap_cons] at nothing
    exact absurd (List.append_eq_nil_iff.mp nothing).1 chunk.nonempty

/-- A call takes no more than a group that holds its document. -/
theorem Took.within {fd group group' rest : Fd} {text behind : Bytes} {r : ReadResult} (took : Took fd text r group)
    (split : fd = group' ++ rest) (holds : pending group' = text ++ behind) :
    ∃ extra, group' = group ++ extra ∧ r.fd = extra ++ rest ∧ behind = r.lost ++ pending extra := by
  have isPrefix : group <+: fd := ⟨r.fd, took.split.symm⟩
  have isPrefix' : group' <+: fd := ⟨rest, split.symm⟩
  have within : group <+: group' := by
    rcases List.prefix_or_prefix_of_prefix isPrefix isPrefix' with within | beyond
    · exact within
    · by_cases same : group' = group
      · rw [same]
      · have short := took.inside group' beyond same
        rw [holds, List.length_append] at short
        omega
  obtain ⟨extra, rfl⟩ := within
  refine ⟨extra, rfl, ?_, ?_⟩
  · rw [took.split, List.append_assoc] at split
    exact List.append_cancel_left split
  · rw [pending_append, took.bytes, List.append_assoc] at holds
    exact (List.append_cancel_left holds).symm

/-! ## White space between the documents -/

section
variable {M : Parser} {docs : List (Document M)}

/-- White space at the beginning can go. -/
theorem Sent.of_append {space rest : Bytes} (sent : Sent docs (space ++ rest)) (white : White space) : Sent docs rest := by
  generalize whole : space ++ rest = bytes at sent
  cases sent with
  | nil blank =>
    rw [← whole] at blank
    exact .nil (white_append.mp blank).2
  | @cons d docs blank later blankWhite sent =>
    rw [List.append_assoc] at whole
    obtain ⟨c, others, begins, visible⟩ := d.begins
    have first : ∃ b others, d.text ++ later = b :: others ∧ isBlank b = false :=
      ⟨c, others ++ later, by rw [begins]; rfl, visible⟩
    obtain ⟨left, rfl⟩ := white.prefix_of_append first whole
    rw [List.append_assoc, List.append_cancel_left_eq] at whole
    rw [whole, ← List.append_assoc]
    exact .cons (white_append.mp blankWhite).2 sent

/-- And white space can come. -/
theorem Separate.append {Behind : Bytes → Prop} {extra fd : Fd} (separate : Separate Behind docs fd)
    (white : White (pending extra)) : Separate Behind docs (extra ++ fd) := by
  cases separate with
  | nil blank =>
    refine .nil ?_
    rw [pending_append]
    exact white_append.mpr ⟨white, blank⟩
  | @cons d docs group fd space behind blank allowed bytes later =>
    rw [← List.append_assoc]
    refine .cons (white_append.mpr ⟨white, blank⟩) allowed ?_ later
    rw [pending_append, bytes, List.append_assoc, List.append_assoc, List.append_assoc]

/-- The space in front of a document is where its text has not begun. -/
theorem Document.space_eq (d : Document M) {space space' rest rest' : Bytes} (white : White space) (white' : White space')
    (same : space ++ d.text ++ rest = space' ++ d.text ++ rest') : space = space' := by
  rw [List.append_assoc, List.append_assoc] at same
  obtain ⟨c, others, begins, visible⟩ := d.begins
  have first (rest : Bytes) : ∃ b others, d.text ++ rest = b :: others ∧ isBlank b = false :=
    ⟨c, others ++ rest, by rw [begins]; rfl, visible⟩
  have within := white.prefix_of_append (first rest') same
  have beyond := white'.prefix_of_append (first rest) same.symm
  exact within.eq_of_length (Nat.le_antisymm within.length_le beyond.length_le)

/-- A call returns its document exactly when GMP keeps the numbers. -/
theorem Document.returned_iff (d : Document M) :
    d.Returned (.jsonInj d.block) ↔ ∀ t ∈ d.value.numbers, t.Plain ∨ t.AllZero := by
  rw [← d.value.denotes_read_iff]
  constructor
  · rintro ⟨t, denotes, same⟩
    rwa [Term.toBlock_injective _ _ (Block.jsonInj.inj same)]
  · intro denotes
    exact ⟨_, denotes, rfl⟩

end

/-! ## The calls -/

section
variable {M : Parser} {garbage : Garbage} {enough : ℕ} {fd : Fd} {r : ReadResult}

/-- Later calls meet no oversized chunk either, since more fuel changes no answer. -/
theorem Legal.of_first {k : ℕ} (legal : Legal M garbage (k + 1) fd) (first : hookJsonRead M garbage enough fd = .ok r) :
    Legal M garbage k r.fd := by
  intro fuel refused
  have call := hookJsonRead_mono (Nat.le_max_right fuel enough) first (by simp)
  have later := reads_mono (Nat.le_max_left fuel enough) refused (by simp)
  refine legal (max fuel enough) ?_
  rw [reads_succ call, later]
  rfl

/-- The calls are the first one and those after it. -/
theorem delivered_cons_iff {Lost : Bytes → Prop} {d : Document M} {docs : List (Document M)}
    (first : hookJsonRead M garbage enough fd = .ok r) :
    Delivered Lost (d :: docs) garbage fd ↔ (d.Returned r.block ∧ Lost r.lost) ∧ Delivered Lost docs garbage r.fd := by
  constructor
  · rintro ⟨fuel, blocks, lost, ran, returned, kept⟩
    have call := hookJsonRead_mono (Nat.le_max_right fuel enough) first (by simp)
    have ran' := reads_mono (Nat.le_max_left fuel enough) ran (by simp)
    rw [List.length_cons, reads_succ call] at ran'
    cases later : reads M garbage (max fuel enough) docs.length r.fd with
    | error f =>
      rw [later] at ran'
      cases ran'
    | ok p =>
      rw [later] at ran'
      cases ran'
      obtain ⟨here, there⟩ := List.forall₂_cons.mp returned
      obtain ⟨lostHere, lostThere⟩ := List.forall_mem_cons.mp kept
      exact ⟨⟨here, lostHere⟩, max fuel enough, p.1, p.2, later, there, lostThere⟩
  · rintro ⟨⟨here, lostHere⟩, fuel, blocks, lost, ran, returned, kept⟩
    have call := hookJsonRead_mono (Nat.le_max_right fuel enough) first (by simp)
    have later := reads_mono (Nat.le_max_left fuel enough) ran (by simp)
    refine ⟨max fuel enough, r.block :: blocks, r.lost :: lost, ?_, .cons here returned, ?_⟩
    · rw [List.length_cons, reads_succ call, later]
      rfl
    · exact List.forall_mem_cons.mpr ⟨lostHere, kept⟩

/-- The chunks of the first document are taken by its call, with white space at most
behind them. -/
theorem Separate.of_first {Lost : Bytes → Prop} (white : ∀ bytes, Lost bytes → White bytes)
    (parts : ∀ first second, Lost (first ++ second) → Lost first) {d : Document M} {docs : List (Document M)} {group : Fd}
    {space : Bytes} (blank : White space) (took : Took fd (space ++ d.text) r group)
    (separate : Separate Lost (d :: docs) fd) : Lost r.lost ∧ Separate Lost docs r.fd := by
  generalize chunks : fd = all at separate
  cases separate with
  | @cons _ _ group' fd' space' behind blank' allowed holds later =>
  obtain rfl : space = space' := by
    have same := congrArg pending (took.split.symm.trans chunks)
    rw [pending_append, pending_append, took.bytes, holds, List.append_assoc, List.append_assoc _ behind] at same
    exact d.space_eq blank blank' same
  obtain ⟨extra, rfl, rest, same⟩ := took.within chunks holds
  have extraWhite : White (pending extra) := (white_append.mp (same ▸ white _ allowed)).2
  refine ⟨parts _ (pending extra) (same ▸ allowed), ?_⟩
  rw [rest]
  exact later.append extraWhite

end

/-- **When calls in a row read documents in a row**, for a kind of white space that may
get lost with every part of it. -/
theorem delivered_iff {M : Parser} {Lost : Bytes → Prop} (white : ∀ bytes, Lost bytes → White bytes)
    (parts : ∀ first second, Lost (first ++ second) → Lost first) (docs : List (Document M)) (garbage : Garbage) (fd : Fd)
    (sent : Sent docs (pending fd)) (legal : Legal M garbage docs.length fd) :
    Delivered Lost docs garbage fd ↔ NumbersKept docs ∧ Separate Lost docs fd := by
  induction docs generalizing fd with
  | nil =>
    cases sent with
    | nil blank =>
      refine iff_of_true ⟨0, [], [], rfl, .nil, ?_⟩ ⟨List.forall_mem_nil _, .nil blank⟩
      exact List.forall_mem_nil _
  | cons d docs ih =>
    generalize input : pending fd = bytes at sent
    cases sent with
    | @cons _ _ space rest blank sent =>
    obtain ⟨enough, call⟩ := hookJsonRead_document d garbage blank input
    rcases call enough (Nat.le_refl _) with refused | ⟨r, group, first, block, took⟩
    · exact absurd (reads_succ_error refused) (legal enough)
    have legal' : Legal M garbage docs.length r.fd := legal.of_first first
    have sent' (lostWhite : White r.lost) : Sent docs (pending r.fd) := by
      rw [took.split, pending_append, took.bytes, List.append_assoc] at input
      rw [← List.append_cancel_left input] at sent
      exact sent.of_append lostWhite
    rw [delivered_cons_iff first, NumbersKept, List.forall_mem_cons, ← d.returned_iff, ← block]
    constructor
    · rintro ⟨⟨here, lost⟩, delivered⟩
      obtain ⟨numbers, separate⟩ := (ih r.fd (sent' (white _ lost)) legal').mp delivered
      refine ⟨⟨here, numbers⟩, ?_⟩
      rw [took.split]
      exact .cons blank lost took.bytes separate
    · rintro ⟨⟨here, numbers⟩, separate⟩
      obtain ⟨lost, separate'⟩ := separate.of_first white parts blank took
      exact ⟨⟨here, lost⟩, (ih r.fd (sent' (white _ lost)) legal').mpr ⟨numbers, separate'⟩⟩

/-- **When calls in a row read documents in a row**: exactly when GMP keeps their numbers
and no chunk holds bytes of two documents. Not even white space gets lost exactly when
moreover every document ends with a chunk. -/
theorem delivered_iff_separate {M : Parser} (docs : List (Document M)) (garbage : Garbage) (fd : Fd)
    (sent : Sent docs (pending fd)) (legal : Legal M garbage docs.length fd) :
    (Delivered White docs garbage fd ↔ NumbersKept docs ∧ Separate White docs fd) ∧
      (Delivered (· = []) docs garbage fd ↔ NumbersKept docs ∧ Separate (· = []) docs fd) := by
  constructor
  · exact delivered_iff (fun _ white => white) (fun _ _ white => (white_append.mp white).1) docs garbage fd sent legal
  · refine delivered_iff ?_ ?_ docs garbage fd sent legal
    · rintro bytes rfl
      exact white_nil
    · intro first second nothing
      exact (List.append_eq_nil_iff.mp nothing).1

/-! ## Two documents in one chunk -/

/-- Calls that end tell whether the input is cut legally. -/
theorem legal_of_reads {M : Parser} {garbage : Garbage} {fuel n : ℕ} {fd : Fd} {out : List Block × List Bytes}
    (ran : reads M garbage fuel n fd = .ok out) : Legal M garbage n fd := by
  intro fuel' refused
  have answer := reads_mono (Nat.le_max_left fuel fuel') ran (by simp)
  rw [reads_mono (Nat.le_max_right fuel fuel') refused (by simp)] at answer
  cases answer

/-- The states of a reader of one empty array. -/
inductive ArrayState where
  | start
  | skipping
  | opening
  | opened
  | inside
  | closing
  | closed
  | stopped (result : ParseResult)

/-- A reader that makes the moves of rapidjson's on an empty array or an empty input,
with white space in front. -/
def emptyArrayParser : Parser where
  State := ArrayState
  start := .start
  move
    | .start => .peek fun c =>
      if isBlank c then .skipping
      else if c = 0 then .stopped .documentEmpty else if c = ascii '[' then .opening else .stopped .failed
    | .skipping => .take fun _ => .start
    | .opening => .take fun _ => .opened
    | .opened => .emit .startArray .inside
    | .inside => .peek fun c => if c = ascii ']' then .closing else .stopped .failed
    | .closing => .take fun _ => .closed
    | .closed => .emit (.endArray 0) (.stopped .success)
    | .stopped result => .stop result

theorem emptyArrayParser_tells (space : Bytes) (white : White space) :
    Tells emptyArrayParser (space ++ [ascii '[', ascii ']']) [.startArray, .endArray 0] := by
  induction space with
  | nil => exact ⟨7, rfl⟩
  | cons c space ih =>
    obtain ⟨blank, white⟩ := List.forall_mem_cons.mp white
    obtain ⟨fuel, told⟩ := ih white
    have visible : c ≠ 0 := by
      rintro rfl
      exact absurd blank (by decide)
    have skip : (if isBlank c then ArrayState.skipping else if c = 0 then .stopped .documentEmpty
        else if c = ascii '[' then .opening else .stopped .failed) = .skipping := if_pos blank
    let go (n : ℕ) (s : ArrayState) (input : Bytes) :=
      run Stop.outOfFuel emptyArrayParser (word Stop.pastEnd 0) collect n s input []
    refine ⟨fuel + 2, ?_⟩
    calc go (fuel + 2) .start (c :: (space ++ [ascii '[', ascii ']']))
      _ = go (fuel + 1) .skipping (c :: (space ++ [ascii '[', ascii ']'])) := congrArg (fun s => go (fuel + 1) s _) skip
      _ = go fuel .start (space ++ [ascii '[', ascii ']']) := congrArg (go fuel .start) (if_neg visible)
      _ = .ok (.success, [], [.startArray, .endArray 0]) := told

def emptyArray : Document emptyArrayParser where
  text := [ascii '[', ascii ']']
  value := .array .nil
  container := trivial
  begins := ⟨ascii '[', [ascii ']'], rfl, rfl⟩
  tells := emptyArrayParser_tells

/-- The two texts in one chunk. -/
def oneChunk : Fd := [⟨emptyArray.text ++ emptyArray.text, List.cons_ne_nil _ _⟩]

/-- The text and a newline. -/
def line : Chunk := ⟨emptyArray.text ++ [ascii '\n'], List.cons_ne_nil _ _⟩

def zeroes : Garbage := ⟨fun _ => 0, dotList⟩

/-- The second call finds the end of the file: its document went with the first. -/
theorem reads_oneChunk : reads emptyArrayParser zeroes 7 2 oneChunk =
    .ok ([.jsonInj (.listWrap dotList), .ioErrorInj eof], [emptyArray.text, []]) := rfl

theorem oneChunk_not_delivered :
    Sent [emptyArray, emptyArray] (pending oneChunk) ∧ Legal emptyArrayParser zeroes 2 oneChunk ∧
      ¬ Delivered White [emptyArray, emptyArray] zeroes oneChunk := by
  have last : Sent [emptyArray] ([] ++ emptyArray.text ++ []) := .cons white_nil (.nil white_nil)
  have sent : Sent [emptyArray, emptyArray] ([] ++ emptyArray.text ++ ([] ++ emptyArray.text ++ [])) :=
    .cons white_nil last
  refine ⟨sent, legal_of_reads reads_oneChunk, ?_⟩
  rintro ⟨fuel, blocks, lost, ran, returned, -⟩
  have answer := reads_mono (Nat.le_max_left 7 fuel) reads_oneChunk (by simp)
  have ran' := reads_mono (k := 2) (Nat.le_max_right 7 fuel) ran (by simp)
  rw [ran'] at answer
  cases answer
  obtain ⟨-, second⟩ := List.forall₂_cons.mp returned
  obtain ⟨⟨t, -, block⟩, -⟩ := List.forall₂_cons.mp second
  cases block

theorem reads_lines : reads emptyArrayParser zeroes 7 2 [line, line] =
    .ok ([.jsonInj (.listWrap dotList), .jsonInj (.listWrap dotList)], [[ascii '\n'], [ascii '\n']]) := rfl

/-- Two lines in a chunk each are delivered. -/
theorem lines_delivered : Delivered White [emptyArray, emptyArray] zeroes [line, line] := by
  have blank : White [ascii '\n'] := by
    intro c member
    rw [List.mem_singleton.mp member]
    rfl
  have lastSent : Sent [emptyArray] ([ascii '\n'] ++ emptyArray.text ++ [ascii '\n']) := .cons blank (.nil blank)
  have sent : Sent [emptyArray, emptyArray] ([] ++ emptyArray.text ++ ([ascii '\n'] ++ emptyArray.text ++ [ascii '\n'])) :=
    .cons white_nil lastSent
  have lastLine : Separate White [emptyArray] ([line] ++ []) := .cons white_nil blank rfl (.nil white_nil)
  have separate : Separate White [emptyArray, emptyArray] ([line] ++ ([line] ++ [])) := .cons white_nil blank rfl lastLine
  refine (delivered_iff_separate _ zeroes _ sent (legal_of_reads reads_lines)).1.mpr ⟨?_, separate⟩
  intro d member t number
  rcases List.mem_cons.mp member with rfl | member
  · cases number
  · rw [List.mem_singleton.mp member] at number
    cases number

end KPlugin.Json
