import Mathlib.Data.List.TakeWhile
import KPlugin.Runtime.PluginUtil

/-!
# The trusted setup as a string

`create_trusted_setup_str.sh` turns a text file into a C++ source that declares its
text as a raw string literal, and `setup` writes that string to a file again. The
script reads line by line and puts a newline between two lines only, so it drops the
last newline, and with it whatever an unfinished line behind it holds; the compiler
ends the literal at the first parenthesis that a quotation mark follows. Which carriage
returns it takes for line ends is its own affair; a text without any is left as it is.
-/

namespace KPlugin.Kzg

/-! ## The script -/

def newline : Byte := ascii '\n'

/-- What the script prints before the first line. -/
def opening : Bytes := "const char *trusted_setup_str = R\"(".toList.map ascii

/-- What ends a raw string literal. -/
def delimiter : Bytes := [ascii ')', ascii '"']

/-- The `while` loop: `line` is what `read` has of its line so far. At the end of the
file `read` fails, whatever it has, and the loop is left. -/
def copyLines (firstLine : Bool) (line : Bytes) : Bytes → Bytes
  | [] => []
  | c :: rest =>
    if c = newline then (if firstLine then [] else [newline]) ++ line ++ copyLines false [] rest
    else copyLines firstLine (line ++ [c]) rest

/-- `create_trusted_setup_str.sh`: the file it writes for a file of lines. -/
def createTrustedSetupStr (input : Bytes) : Bytes :=
  opening ++ copyLines true [] input ++ delimiter ++ [ascii ';']

/-! ## The compiler and the hook -/

def carriageReturn : Byte := ascii '\r'

/-- The characters of a raw string literal without a delimiter of its own, up to the
first place where it can end, and the text behind it. -/
def rawBody : Bytes → Option (Bytes × Bytes)
  | [] => none
  | c :: rest =>
    if delimiter <+: c :: rest then some ([], rest.tail) else (rawBody rest).map fun (body, after) => (c :: body, after)

/-- `trusted_setup_str` of a source that is this one declaration, its line ends mapped. -/
def trustedSetupStr (lineEnds : Bytes → Bytes) (text : Bytes) : Option Bytes :=
  let source := lineEnds text
  if opening <+: source then
    match rawBody (source.drop opening.length) with
    | some (body, after) => if after = [ascii ';'] then some body else none
    | none => none
  else none

/-- What `fputs(trusted_setup_str, fp)` writes. -/
def fputs (str : Bytes) : Bytes := str.takeWhile (· ≠ 0)

/-- What `setup` writes to its temporary file in a program built with the source. -/
def setupFile (lineEnds : Bytes → Bytes) (text : Bytes) : Option Bytes := (trustedSetupStr lineEnds text).map fputs

/-- The mapping leaves a text without carriage returns alone. -/
def LeavesPlain (lineEnds : Bytes → Bytes) : Prop := ∀ text, carriageReturn ∉ text → lineEnds text = text

/-! ## What is kept -/

/-- Finished lines are copied, but for the last newline. -/
theorem copyLines_append_newline (firstLine : Bool) (line text : Bytes) :
    copyLines firstLine line (text ++ [newline]) = (if firstLine then [] else [newline]) ++ line ++ text := by
  induction text generalizing firstLine line with
  | nil => rw [List.nil_append, copyLines, if_pos rfl, copyLines, List.append_nil]
  | cons c text ih =>
    rw [List.cons_append, copyLines]
    by_cases ends : c = newline
    · rw [if_pos ends, ih, ends]
      simp only [Bool.false_eq_true, if_false, List.append_nil, List.singleton_append]
    · rw [if_neg ends, ih]
      simp only [List.append_assoc, List.singleton_append]

/-- **A literal that is closed behind its text** is read as the text exactly when it
could not end before. -/
theorem rawBody_append_iff (text after : Bytes) :
    rawBody (text ++ (delimiter ++ after)) = some (text, after) ↔ ¬ delimiter <:+: text := by
  induction text with
  | nil =>
    refine iff_of_true ?_ ?_
    · rw [List.nil_append, delimiter, List.cons_append, rawBody]
      exact if_pos ⟨after, rfl⟩
    · rw [List.infix_nil]
      exact List.cons_ne_nil _ _
  | cons c text ih =>
    have here : delimiter <+: c :: (text ++ (delimiter ++ after)) ↔ delimiter <+: c :: text := by
      rw [delimiter, List.cons_prefix_cons, List.cons_prefix_cons]
      refine and_congr_right fun _ => ?_
      cases text with
      | nil =>
        refine iff_of_false ?_ ?_
        · rw [List.nil_append, List.cons_append, List.cons_prefix_cons]
          rintro ⟨same, -⟩
          exact absurd same (by decide)
        · rw [List.prefix_nil]
          exact List.cons_ne_nil _ _
      | cons d text =>
        rw [List.cons_append, List.cons_prefix_cons, List.cons_prefix_cons]
        exact and_congr_right fun _ => iff_of_true (List.nil_prefix) (List.nil_prefix)
    rw [List.cons_append, rawBody, List.infix_cons_iff, not_or, ← ih]
    by_cases ends : delimiter <+: c :: text
    · rw [if_pos (here.mpr ends)]
      refine iff_of_false ?_ fun both => both.1 ends
      intro same
      cases same
    · rw [if_neg fun early => ends (here.mp early), and_iff_right ends]
      constructor
      · intro same
        obtain ⟨p, read, whole⟩ := Option.map_eq_some_iff.mp same
        cases whole
        exact read
      · intro read
        rw [read]
        rfl

/-- A literal's text is followed by what ends it. -/
theorem rawBody_split {source body after : Bytes} (read : rawBody source = some (body, after)) :
    source = body ++ (delimiter ++ after) := by
  induction source generalizing body with
  | nil => cases read
  | cons c rest ih =>
    rw [rawBody] at read
    by_cases ends : delimiter <+: c :: rest
    · rw [if_pos ends] at read
      cases read
      obtain ⟨after, same⟩ := ends
      rw [← same]
      cases same
      rfl
    · rw [if_neg ends, Option.map_eq_some_iff] at read
      obtain ⟨⟨body', after'⟩, later, whole⟩ := read
      cases whole
      rw [ih later, List.cons_append]

/-- The script makes no characters of its own but newlines. -/
theorem mem_copyLines {firstLine : Bool} {line text : Bytes} {c : Byte} (member : c ∈ copyLines firstLine line text) :
    c ∈ newline :: (line ++ text) := by
  induction text generalizing firstLine line with
  | nil => cases member
  | cons d text ih =>
    rw [copyLines] at member
    by_cases ends : d = newline
    · rw [if_pos ends, List.mem_append, List.mem_append] at member
      rcases member with (separator | here) | later
      · cases firstLine with
        | true => cases separator
        | false => exact List.mem_cons.mpr (.inl (List.mem_singleton.mp separator))
      · exact List.mem_cons_of_mem _ (List.mem_append_left _ here)
      · rcases List.mem_cons.mp (ih later) with same | there
        · exact List.mem_cons.mpr (.inl same)
        · exact List.mem_cons_of_mem _ (List.mem_append_right _ (List.mem_cons_of_mem d there))
    · rw [if_neg ends] at member
      have later := ih member
      rwa [List.append_assoc, List.singleton_append] at later

/-- Nor does it make a carriage return. -/
theorem carriageReturn_notMem {input : Bytes} (plain : carriageReturn ∉ input) :
    carriageReturn ∉ createTrustedSetupStr input := by
  have copied : carriageReturn ∉ copyLines true [] input := by
    intro member
    rcases List.mem_cons.mp (mem_copyLines member) with same | there
    · exact absurd same (by decide)
    · exact plain there
  have before : carriageReturn ∉ opening := by decide
  have behind : carriageReturn ∉ delimiter := by decide
  have last : carriageReturn ∉ [ascii ';'] := by decide
  simp only [createTrustedSetupStr, List.mem_append, not_or]
  exact ⟨⟨⟨before, copied⟩, behind⟩, last⟩

/-- **The string of the script's source** is what the script copied, unless the literal
ends in the middle of it. -/
theorem trustedSetupStr_eq_some_iff {lineEnds : Bytes → Bytes} (leaves : LeavesPlain lineEnds) {input : Bytes}
    (plain : carriageReturn ∉ input) (str : Bytes) :
    trustedSetupStr lineEnds (createTrustedSetupStr input) = some str ↔
      str = copyLines true [] input ∧ ¬ delimiter <:+: copyLines true [] input := by
  have source : createTrustedSetupStr input = opening ++ (copyLines true [] input ++ (delimiter ++ [ascii ';'])) := by
    rw [createTrustedSetupStr, List.append_assoc, List.append_assoc]
  unfold trustedSetupStr
  rw [leaves _ (carriageReturn_notMem plain), source, if_pos (List.prefix_append _ _), List.drop_left,
    ← rawBody_append_iff _ [ascii ';']]
  cases read : rawBody (copyLines true [] input ++ (delimiter ++ [ascii ';'])) with
  | none => exact iff_of_false nofun fun both => nomatch both.2
  | some p =>
    obtain ⟨body, after⟩ := p
    by_cases ended : after = [ascii ';']
    · subst ended
      have same := List.append_cancel_right (rawBody_split read)
      simp only [if_true, Option.some.injEq, same, and_true]
      exact eq_comm
    · refine iff_of_false ?_ ?_
      · simp only [ended, if_false]
        nofun
      · rintro ⟨-, whole⟩
        cases whole
        exact ended rfl

theorem fputs_eq_self {str : Bytes} (text : (0 : Byte) ∉ str) : fputs str = str := by
  rw [fputs, List.takeWhile_eq_self_iff]
  intro c member
  refine decide_eq_true ?_
  rintro rfl
  exact text member

/-- A newline behind a text ends no literal. -/
theorem delimiter_infix_append_newline (lines : Bytes) : delimiter <:+: lines ++ [newline] ↔ delimiter <:+: lines := by
  rw [List.infix_concat_iff, or_iff_right]
  rintro ⟨before, same⟩
  have split : (before ++ [ascii ')']) ++ [ascii '"'] = lines ++ [newline] := by
    rw [← same, List.append_assoc]
    rfl
  have last := (List.append_inj' split rfl).2
  exact absurd last (by decide)

/-- **The setup is the original file**, which is to hold no NUL and no carriage return, but
for its last newline exactly when the file ends with a newline and contains nothing that
would end the literal. -/
theorem setupFile_is_original_iff {lineEnds : Bytes → Bytes} (leaves : LeavesPlain lineEnds) (file : Bytes)
    (text : (0 : Byte) ∉ file) (plain : carriageReturn ∉ file) :
    (∃ contents, setupFile lineEnds (createTrustedSetupStr file) = some contents ∧ file = contents ++ [newline]) ↔
      (∃ lines, file = lines ++ [newline]) ∧ ¬ delimiter <:+: file := by
  have copied {lines : Bytes} (finished : file = lines ++ [newline]) : copyLines true [] file = lines := by
    rw [finished, copyLines_append_newline]
    rfl
  constructor
  · rintro ⟨contents, made, finished⟩
    obtain ⟨str, read, -⟩ := Option.map_eq_some_iff.mp made
    obtain ⟨-, whole⟩ := (trustedSetupStr_eq_some_iff leaves plain str).mp read
    rw [copied finished] at whole
    refine ⟨⟨contents, finished⟩, ?_⟩
    rwa [finished, delimiter_infix_append_newline]
  · rintro ⟨⟨lines, finished⟩, whole⟩
    rw [finished, delimiter_infix_append_newline] at whole
    have read := (trustedSetupStr_eq_some_iff leaves plain lines).mpr ⟨(copied finished).symm, by rwa [copied finished]⟩
    have noNul : (0 : Byte) ∉ lines := fun member => text (finished ▸ List.mem_append_left _ member)
    refine ⟨lines, ?_, finished⟩
    rw [setupFile, read, Option.map_some, fputs_eq_self noNul]

/-- A compiler for which LF, CR LF and CR end a line. -/
def anyLineEnd : Bytes → Bytes
  | [] => []
  | c :: rest =>
    if c ≠ carriageReturn then c :: anyLineEnd rest
    else if rest.head? = some newline then anyLineEnd rest else newline :: anyLineEnd rest

theorem anyLineEnd_leavesPlain : LeavesPlain anyLineEnd := by
  intro text plain
  induction text with
  | nil => rfl
  | cons c rest ih =>
    obtain ⟨other, later⟩ := not_or.mp (mt List.mem_cons.mpr plain)
    rw [anyLineEnd, if_pos (Ne.symm other), ih later]

/-- A file of two lines. -/
def twoLines : Bytes := [ascii '4', newline, ascii '6', newline]

/-- It comes back as it was. -/
theorem twoLines_original :
    ∃ contents, setupFile anyLineEnd (createTrustedSetupStr twoLines) = some contents ∧
      twoLines = contents ++ [newline] :=
  (setupFile_is_original_iff anyLineEnd_leavesPlain twoLines (by decide) (by decide)).mpr
    ⟨⟨[ascii '4', newline, ascii '6'], rfl⟩, by decide⟩

end KPlugin.Kzg
