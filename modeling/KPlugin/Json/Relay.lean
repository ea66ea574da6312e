import Mathlib.Data.Nat.Digits.Lemmas
import KPlugin.Json.Answer
import KPlugin.Json.Output
import KPlugin.Json.StreamRuns

/-!
# A document that is read and written again

What `hook_JSON_read` makes of a document is a term, and `hook_JSON_write` makes a
text of the term. Between the two stand the numbers only: each is written the way
GMP writes the integer it was read as, so the document that comes out is the one
that went in when GMP would have written every number of it the same, and otherwise
one that is left alone from then on.
-/

namespace KPlugin.Json
open BufferedSink Numeral

/-! ## The numeral GMP writes -/

theorem mod_ten_lt (d : ℕ) : d % 10 < 10 := Nat.mod_lt d (by decide)

/-- The last decimal digit of a number. -/
def digit (d : ℕ) : Fin 10 := ⟨d % 10, mod_ten_lt d⟩

theorem digit_val (d : Fin 10) : digit d.val = d := Fin.ext (Nat.mod_eq_of_lt d.isLt)

/-- The decimal digits of a number, highest first. -/
def digitsOf (n : ℕ) : List (Fin 10) := if n = 0 then [digit 0] else (Nat.digits 10 n).reverse.map digit

theorem map_val_digit {ds : List ℕ} (bound : ∀ d ∈ ds, d < 10) : (ds.map digit).map Fin.val = ds := by
  rw [List.map_map]
  calc ds.map (Fin.val ∘ digit) = ds.map id := List.map_congr_left fun d small => Nat.mod_eq_of_lt (bound d small)
    _ = ds := List.map_id ds

theorem digits_lt_ten {n d : ℕ} (digit : d ∈ (Nat.digits 10 n).reverse) : d < 10 :=
  Nat.digits_lt_base (by decide) (List.mem_reverse.mp digit)

theorem digitsText_digitsOf (n : ℕ) : digitsText (digitsOf n) = write 10 n := by
  unfold digitsText digitsOf write
  by_cases zero : n = 0
  · rw [if_pos zero, if_pos zero]
    rfl
  · rw [if_neg zero, if_neg zero, map_val_digit fun _ => digits_lt_ten]

/-- A numeral has no superfluous zero in front. -/
theorem leading_digitsOf (n : ℕ) : digitsOf n = [0] ∨ ∃ d ds, digitsOf n = d :: ds ∧ d ≠ 0 := by
  unfold digitsOf
  by_cases zero : n = 0
  · exact .inl (if_pos zero)
  · rw [if_neg zero]
    have some : Nat.digits 10 n ≠ [] := Nat.digits_ne_nil_iff_ne_zero.mpr zero
    refine .inr ⟨_, _, (by rw [← List.dropLast_append_getLast some, List.reverse_append]; rfl), ?_⟩
    intro last
    have value := congrArg Fin.val last
    have small := Nat.digits_lt_base (b := 10) (by decide) (List.getLast_mem some)
    exact Nat.getLast_digit_ne_zero 10 zero ((Nat.mod_eq_of_lt small).symm.trans value)

/-- Without such zeros the digits are those of the number. -/
theorem digitsOf_decimal {ds : List (Fin 10)} (leading : ds = [0] ∨ ∃ d rest, ds = d :: rest ∧ d ≠ 0) :
    digitsOf (decimal ds) = ds := by
  rcases leading with rfl | ⟨d, rest, rfl, nonzero⟩
  · rfl
  · have positive : decimal (d :: rest) ≠ 0 := by
      rw [Ne, decimal_eq_zero_iff]
      intro zeros
      exact nonzero (zeros d List.mem_cons_self)
    have horner : decimal (d :: rest) = Nat.ofDigits 10 (((d :: rest).map Fin.val).reverse) := by
      rw [← foldl_reverse_eq_ofDigits, List.reverse_reverse]
      rfl
    have digits : Nat.digits 10 (decimal (d :: rest)) = ((d :: rest).map Fin.val).reverse := by
      rw [horner]
      refine Nat.digits_ofDigits 10 (by decide) _ (fun e member => val_lt_ten (List.mem_reverse.mp member)) ?_
      intro some
      rw [List.getLast_reverse]
      exact fun zero => nonzero (Fin.ext zero)
    rw [digitsOf, if_neg positive, digits, List.reverse_reverse, List.map_map]
    calc (d :: rest).map (digit ∘ Fin.val) = (d :: rest).map id := List.map_congr_left fun e _ => digit_val e
      _ = d :: rest := List.map_id _

namespace NumberToken

theorem leading_natAbs (n : ℤ) : digitsOf n.natAbs = [0] ∨ ∃ d ds, digitsOf n.natAbs = d :: ds ∧ d ≠ 0 :=
  leading_digitsOf n.natAbs

theorem no_fraction : ∀ ds ∈ (none : Option (List (Fin 10))), ds ≠ [] := by
  intro ds member
  cases member

/-- The token of an integer. -/
def ofInt (n : ℤ) : NumberToken where
  minus := decide (n < 0)
  int := digitsOf n.natAbs
  frac := none
  exp := none
  leading := leading_natAbs n
  nonempty := no_fraction

/-- The token is one GMP writes: an integer, and no zero with a sign. -/
def Canonical (t : NumberToken) : Prop := t.Plain ∧ ¬ (t.minus = true ∧ t.int = [digit 0])

/-- The token GMP writes for the integer it reads. -/
def written (t : NumberToken) : NumberToken := ofInt (mpzInitSetStr t.text 10)

theorem text_ofInt (n : ℤ) : (ofInt n).text = int2string n := by
  unfold text int2string tail
  by_cases negative : n < 0
  · simp only [ofInt, negative, decide_true, if_true, digitsText_digitsOf, Option.elim_none, List.append_nil]
    rfl
  · simp only [ofInt, negative, decide_false, if_false, digitsText_digitsOf, Option.elim_none, List.append_nil]
    rfl

theorem plain_ofInt (n : ℤ) : (ofInt n).Plain := ⟨rfl, rfl⟩

/-- **Reading a number and writing it again** gives the same token exactly when the
token is canonical. -/
theorem written_iff (t : NumberToken) : t.written = t ↔ t.Canonical := by
  unfold written
  constructor
  · intro same
    have plain : t.Plain := same ▸ plain_ofInt _
    refine ⟨plain, ?_⟩
    rintro ⟨minus, zero⟩
    have read : mpzInitSetStr t.text 10 = 0 := by
      rw [mpzInitSetStr_plain plain, minus, zero]
      rfl
    rw [read] at same
    rw [← same] at minus
    cases minus
  · rintro ⟨plain, signless⟩
    rw [mpzInitSetStr_plain plain]
    obtain ⟨minus, int, frac, exp, leading, nonempty⟩ := t
    obtain ⟨rfl, rfl⟩ := plain
    have sign : decide (signed minus (decimal int) < 0) = minus := by
      cases minus with
      | false => exact decide_eq_false (not_lt.mpr (Int.natCast_nonneg _))
      | true =>
        have positive : decimal int ≠ 0 := by
          intro zero
          have written := digitsOf_decimal leading
          rw [zero] at written
          exact signless ⟨rfl, written.symm⟩
        refine decide_eq_true ?_
        simp only [signed, if_true]
        omega
    have digits : digitsOf (signed minus (decimal int)).natAbs = int := by
      have magnitude : (signed minus (decimal int)).natAbs = decimal int := by
        cases minus <;> simp [signed]
      rw [magnitude, digitsOf_decimal leading]
    simp only [ofInt, sign, digits]

end NumberToken

/-! ## The document of a term -/

mutual

/-- The document `write_json` writes of a term. -/
def Term.document : Term → Value
  | .null => .null
  | .bool b => .bool b
  | .int n => .number (.ofInt n)
  | .string s => .string s
  | .object ms => .object ms.document
  | .list es => .array es.document

def Members.document : Members → Entries
  | .nil => .nil
  | .cons k v rest => .cons k v.document rest.document

def Elements.document : Elements → Items
  | .nil => .nil
  | .cons hd tl => .cons hd.document tl.document

end

theorem Members.length_document (ms : Members) : ms.document.length = ms.length := by
  cases ms with
  | nil => rfl
  | cons k v rest => rw [Members.document, Entries.length, Members.length, rest.length_document]

theorem Elements.length_document (es : Elements) : es.document.length = es.length := by
  cases es with
  | nil => rfl
  | cons hd tl => rw [Elements.document, Items.length, Elements.length, tl.length_document]

mutual

/-- The text of a term is that of its document. -/
theorem Term.events_document (t : Term) : t.document.events = t.events := by
  cases t with
  | null => rfl
  | bool b => rfl
  | int n => rw [Term.document, Value.events, Term.events, NumberToken.text_ofInt]
  | string s => rfl
  | object ms => rw [Term.document, Value.events, Term.events, ms.events_document, ms.length_document]
  | list es => rw [Term.document, Value.events, Term.events, es.events_document, es.length_document]

theorem Members.events_document (ms : Members) : ms.document.events = ms.events := by
  cases ms with
  | nil => rfl
  | cons k v rest => rw [Members.document, Entries.events, Members.events, v.events_document, rest.events_document]

theorem Elements.events_document (es : Elements) : es.document.events = es.events := by
  cases es with
  | nil => rfl
  | cons hd tl => rw [Elements.document, Items.events, Elements.events, hd.events_document, tl.events_document]

end

mutual

/-- The handler builds the term again from its document. -/
theorem Term.read_document (t : Term) : t.document.read = t := by
  cases t with
  | null => rfl
  | bool b => rfl
  | int n => rw [Term.document, Value.read, NumberToken.text_ofInt, mpzInitSetStr_int2string]
  | string s => rfl
  | object ms => rw [Term.document, Value.read, ms.read_document]
  | list es => rw [Term.document, Value.read, es.read_document]

theorem Members.read_document (ms : Members) : ms.document.read = ms := by
  cases ms with
  | nil => rfl
  | cons k v rest => rw [Members.document, Entries.read, v.read_document, rest.read_document]

theorem Elements.read_document (es : Elements) : es.document.read = es := by
  cases es with
  | nil => rfl
  | cons hd tl => rw [Elements.document, Items.read, hd.read_document, tl.read_document]

end

/-! ## The shape of a document -/

mutual

/-- The same document with other numbers. -/
def Value.renumber (f : NumberToken → NumberToken) : Value → Value
  | .null => .null
  | .bool b => .bool b
  | .number t => .number (f t)
  | .string s => .string s
  | .object es => .object (es.renumber f)
  | .array is => .array (is.renumber f)

def Entries.renumber (f : NumberToken → NumberToken) : Entries → Entries
  | .nil => .nil
  | .cons k v rest => .cons k (v.renumber f) (rest.renumber f)

def Items.renumber (f : NumberToken → NumberToken) : Items → Items
  | .nil => .nil
  | .cons hd tl => .cons (hd.renumber f) (tl.renumber f)

end

mutual

/-- **What is read and written again is the same document**, its numbers as GMP writes them. -/
theorem Value.document_read (v : Value) : v.read.document = v.renumber .written := by
  cases v with
  | null => rfl
  | bool b => rfl
  | number t => rfl
  | string s => rfl
  | object es => rw [Value.read, Term.document, Value.renumber, es.document_read]
  | array is => rw [Value.read, Term.document, Value.renumber, is.document_read]

theorem Entries.document_read (es : Entries) : es.read.document = es.renumber .written := by
  cases es with
  | nil => rfl
  | cons k v rest => rw [Entries.read, Members.document, Entries.renumber, v.document_read, rest.document_read]

theorem Items.document_read (is : Items) : is.read.document = is.renumber .written := by
  cases is with
  | nil => rfl
  | cons hd tl => rw [Items.read, Elements.document, Items.renumber, hd.document_read, tl.document_read]

end

mutual

/-- **A document comes out as it went in** exactly when every number of it is canonical. -/
theorem Value.renumber_written_iff (v : Value) : v.renumber .written = v ↔ ∀ t ∈ v.numbers, t.Canonical := by
  cases v with
  | null => exact iff_of_true rfl (List.forall_mem_nil _)
  | bool b => exact iff_of_true rfl (List.forall_mem_nil _)
  | number t => rw [Value.numbers, List.forall_mem_singleton, ← t.written_iff, Value.renumber, Value.number.injEq]
  | string s => exact iff_of_true rfl (List.forall_mem_nil _)
  | object es => rw [Value.numbers, ← es.renumber_written_iff, Value.renumber, Value.object.injEq]
  | array is => rw [Value.numbers, ← is.renumber_written_iff, Value.renumber, Value.array.injEq]

theorem Entries.renumber_written_iff (es : Entries) : es.renumber .written = es ↔ ∀ t ∈ es.numbers, t.Canonical := by
  cases es with
  | nil => exact iff_of_true rfl (List.forall_mem_nil _)
  | cons k v rest =>
    rw [Entries.numbers, List.forall_mem_append, ← v.renumber_written_iff, ← rest.renumber_written_iff,
      Entries.renumber, Entries.cons.injEq, and_iff_right rfl]

theorem Items.renumber_written_iff (is : Items) : is.renumber .written = is ↔ ∀ t ∈ is.numbers, t.Canonical := by
  cases is with
  | nil => exact iff_of_true rfl (List.forall_mem_nil _)
  | cons hd tl =>
    rw [Items.numbers, List.forall_mem_append, ← hd.renumber_written_iff, ← tl.renumber_written_iff, Items.renumber,
      Items.cons.injEq]

end

/-! ## The term as one of the whole sort -/

mutual

/-- The term among those that may hold a `Float` or undef. -/
def Term.toJson : Term → JsonTerm
  | .null => .null
  | .bool b => .bool b
  | .int n => .int n
  | .string s => .string s
  | .object ms => .object ms.toJson
  | .list es => .list es.toJson

def Members.toJson : Members → JsonMembers
  | .nil => .nil
  | .cons k v rest => .cons k v.toJson rest.toJson

def Elements.toJson : Elements → JsonElements
  | .nil => .nil
  | .cons hd tl => .cons hd.toJson tl.toJson

end

mutual

theorem Term.flaw_toJson (t : Term) : t.toJson.flaw = none := by
  cases t with
  | null => rfl
  | bool b => rfl
  | int n => rfl
  | string s => rfl
  | object ms => exact ms.flaw_toJson
  | list es => exact es.flaw_toJson

theorem Members.flaw_toJson (ms : Members) : ms.toJson.flaw = none := by
  cases ms with
  | nil => rfl
  | cons k v rest =>
    rw [Members.toJson, JsonMembers.flaw, v.toJson.inMember_eq_none.mpr v.flaw_toJson, rest.flaw_toJson]
    rfl

theorem Elements.flaw_toJson (es : Elements) : es.toJson.flaw = none := by
  cases es with
  | nil => rfl
  | cons hd tl =>
    rw [Elements.toJson, JsonElements.flaw, hd.flaw_toJson, tl.flaw_toJson]
    rfl

end

mutual

theorem Term.toBlock_toJson (floatTag : ℕ) (t : Term) : t.toJson.toBlock floatTag = t.toBlock := by
  cases t with
  | null => rfl
  | bool b => rfl
  | int n => rfl
  | string s => rfl
  | object ms => exact congrArg Block.object (ms.toBlock_toJson floatTag)
  | list es => exact congrArg Block.listWrap (es.toBlock_toJson floatTag)

theorem Members.toBlock_toJson (floatTag : ℕ) (ms : Members) : ms.toJson.toBlock floatTag = ms.toBlock := by
  cases ms with
  | nil => rfl
  | cons k v rest =>
    rw [Members.toJson, JsonMembers.toBlock, v.toBlock_toJson floatTag, rest.toBlock_toJson floatTag, Members.toBlock]

theorem Elements.toBlock_toJson (floatTag : ℕ) (es : Elements) : es.toJson.toBlock floatTag = es.toBlock := by
  cases es with
  | nil => rfl
  | cons hd tl =>
    rw [Elements.toJson, JsonElements.toBlock, hd.toBlock_toJson floatTag, tl.toBlock_toJson floatTag, Elements.toBlock]

end

mutual

theorem Term.calls_toJson (t : Term) : t.toJson.calls = t.calls := by
  cases t with
  | null => rfl
  | bool b => rfl
  | int n => rfl
  | string s => rfl
  | object ms => rw [Term.toJson, JsonTerm.calls, Term.calls, ms.calls_toJson]
  | list es => rw [Term.toJson, JsonTerm.calls, Term.calls, es.calls_toJson]

theorem Members.calls_toJson (ms : Members) : ms.toJson.calls = ms.calls := by
  cases ms with
  | nil => rfl
  | cons k v rest =>
    rw [Members.toJson, JsonMembers.calls, if_pos v.flaw_toJson, v.calls_toJson, rest.calls_toJson, Members.calls]

theorem Elements.calls_toJson (es : Elements) : es.toJson.calls = es.calls := by
  cases es with
  | nil => rfl
  | cons hd tl =>
    rw [Elements.toJson, JsonElements.calls, if_pos hd.flaw_toJson, hd.calls_toJson, tl.calls_toJson, Elements.calls]

end

/-- **One call** on a term returns `dotk`, whatever is read on the way, and writes the
text of the term as far as the descriptor accepts it. -/
theorem hookJsonWrite_term (F : Format) (w : Schedule) (t : Term) : ∃ accepted, Accepts w (F.text t.calls) accepted ∧
    ∀ garbage fd, (FDStream.unfilled garbage fd).Overlong ∨
      ∃ left lost, hookJsonWrite F w garbage t.toBlock fd = .ok ⟨.dotk, left, lost, accepted⟩ := by
  obtain ⟨accepted, accepts, call⟩ := hookJsonWrite_sound F w 0 (.inl t.flaw_toJson)
  rw [t.toBlock_toJson, JsonTerm.item, if_pos t.flaw_toJson] at call
  rw [t.calls_toJson] at accepts
  refine ⟨accepted, accepts, fun garbage fd => ?_⟩
  rw [call, FDStream.new_eq_peek]
  rcases (FDStream.unfilled_at garbage fd).peek with ⟨overlong, -⟩ | ⟨s, looked, -, -⟩
  · exact .inl overlong
  · rw [looked]
    exact .inr ⟨s.fd, s.unread, rfl⟩

/-! ## The relay -/

/-- An accepted object or array is returned as the term the handler builds of it. -/
theorem Reads.call_container {M : Parser} {garbage : Garbage} {fuel : ℕ} {fd : Fd} {v : Value}
    (reads : Reads M garbage fuel fd v .success) (container : v.IsContainer) :
    ∃ r, hookJsonRead M garbage fuel fd = .ok r ∧ r.block = .jsonInj v.read.toBlock := by
  obtain ⟨is, call⟩ := reads.call_success
  cases v with
  | object es => exact ⟨_, call, rfl⟩
  | array items => exact ⟨_, call, rfl⟩
  | null => cases container
  | bool b => cases container
  | number t => cases container
  | string s => cases container

theorem Value.renumber_container {v : Value} (f : NumberToken → NumberToken) (container : v.IsContainer) :
    (v.renumber f).IsContainer := by
  cases v with
  | object es => trivial
  | array items => trivial
  | null => cases container
  | bool b => cases container
  | number t => cases container
  | string s => cases container

/-- **A relayed document**: what is read can be written, the write returns and writes, as
far as the descriptor accepts it, a text with the events of the same document in GMP's
numbers; it is the very document that was read exactly when its numbers are canonical,
and whoever reads it has the same term. -/
theorem relayed_document {M : Parser} {garbage : Garbage} {fuel : ℕ} {fd : Fd} {v : Value}
    (reads : Reads M garbage fuel fd v .success) (container : v.IsContainer) :
    (∃ r, hookJsonRead M garbage fuel fd = .ok r ∧ r.block = .jsonInj v.read.toBlock) ∧
      (∀ F w, ∃ accepted, Accepts w (F.text v.read.calls) accepted ∧ ∀ g fd', (FDStream.unfilled g fd').Overlong ∨
        ∃ left lost, hookJsonWrite F w g v.read.toBlock fd' = .ok ⟨.dotk, left, lost, accepted⟩) ∧
      countBrackets [] v.read.calls = some (v.renumber .written).events ∧
      (v.renumber .written = v ↔ ∀ n ∈ v.numbers, n.Canonical) ∧
      ∀ M' g fuel' fd', Reads M' g fuel' fd' (v.renumber .written) .success →
        ∃ r, hookJsonRead M' g fuel' fd' = .ok r ∧ r.block = .jsonInj v.read.toBlock := by
  refine ⟨reads.call_container container, fun F w => hookJsonWrite_term F w v.read, ?_, v.renumber_written_iff, ?_⟩
  · rw [countBrackets_calls, ← v.document_read, Term.events_document]
  · intro M' g fuel' fd' again
    have answer := again.call_container (v.renumber_container .written container)
    rwa [← v.document_read, Term.read_document] at answer

/-- `[15]` comes out as `[15]`. -/
theorem relayed_fifteen :
    (∃ r, hookJsonRead (scriptParser (arrayScript fifteen)) zeroes 8 (arrayFd fifteen) = .ok r ∧
      r.block = .jsonInj (arrayOf fifteen).read.toBlock) ∧
    countBrackets [] (arrayOf fifteen).read.calls = some (arrayOf fifteen).events := by
  obtain ⟨read, -, events, same, -⟩ := relayed_document reads_fifteen trivial
  refine ⟨read, ?_⟩
  rw [events, same.mpr]
  intro n member
  rw [List.mem_singleton.mp member]
  exact ⟨⟨rfl, rfl⟩, nofun⟩

end KPlugin.Json
