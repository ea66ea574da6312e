import Mathlib.Data.Nat.Digits.Defs
import Mathlib.Tactic.IntervalCases
import Mathlib.Tactic.Ring

/-!
# Numerals in ASCII

Digits above nine are letters of either case when read and lower-case letters
when written. A numeral is read from the left, `acc * base + digit` for each
character, and refused at the first character that is no digit of the base; the
numeral of a number is read back as that number.
-/

namespace Numeral

abbrev Char8 := BitVec 8

/-- The value of a digit character in the bases up to 36. -/
def digitValue (c : Char8) : Option ℕ :=
  if 48 ≤ c.toNat ∧ c.toNat ≤ 57 then some (c.toNat - 48)
  else if 97 ≤ c.toNat ∧ c.toNat ≤ 122 then some (c.toNat - 87)
  else if 65 ≤ c.toNat ∧ c.toNat ≤ 90 then some (c.toNat - 55)
  else none

/-- The character of a digit, in lower case. -/
def digitChar (d : ℕ) : Char8 := if d < 10 then BitVec.ofNat 8 (48 + d) else BitVec.ofNat 8 (87 + d)

/-- Append one digit to the number read so far. -/
def pushDigit (base acc : ℕ) (c : Char8) : Option ℕ :=
  match digitValue c with
  | some d => if d < base then some (acc * base + d) else none
  | none => none

/-- Read a whole string as a numeral; the empty string is none. -/
def read (base : ℕ) (cs : List Char8) : Option ℕ := if cs = [] then none else cs.foldlM (pushDigit base) 0

/-- The numeral of a number, without leading zeros. -/
def write (base n : ℕ) : List Char8 := if n = 0 then [digitChar 0] else ((Nat.digits base n).reverse).map digitChar

theorem digitValue_digitChar {d : ℕ} (bound : d < 36) : digitValue (digitChar d) = some d := by
  interval_cases d <;> rfl

theorem pushDigit_of_digitValue {base d : ℕ} (acc : ℕ) {c : Char8} (digit : digitValue c = some d) (bound : d < base) :
    pushDigit base acc c = some (acc * base + d) := by
  rw [pushDigit, digit]
  exact if_pos bound

theorem pushDigit_digitChar {base d : ℕ} (acc : ℕ) (small : base ≤ 36) (bound : d < base) :
    pushDigit base acc (digitChar d) = some (acc * base + d) :=
  pushDigit_of_digitValue acc (digitValue_digitChar (bound.trans_le small)) bound

/-- Reading written digits is Horner's rule. -/
theorem foldlM_pushDigit {base : ℕ} (small : base ≤ 36) {ds : List ℕ} (bound : ∀ d ∈ ds, d < base) (acc : ℕ) :
    (ds.map digitChar).foldlM (pushDigit base) acc = some (ds.foldl (fun n d => n * base + d) acc) := by
  induction ds generalizing acc with
  | nil => rfl
  | cons d ds ih =>
    rw [List.map_cons, List.foldlM_cons, pushDigit_digitChar acc small (bound d List.mem_cons_self), List.foldl_cons]
    exact ih (fun e member => bound e (List.mem_cons_of_mem d member)) _

/-- Horner's rule from the highest digit is the positional value. -/
theorem foldl_reverse_eq_ofDigits (base : ℕ) (ds : List ℕ) :
    ds.reverse.foldl (fun n d => n * base + d) 0 = Nat.ofDigits base ds := by
  induction ds with
  | nil => rfl
  | cons d ds ih =>
    rw [List.reverse_cons, List.foldl_append, ih, List.foldl_cons, List.foldl_nil, Nat.ofDigits_cons]
    ring

theorem write_ne_nil (base n : ℕ) : write base n ≠ [] := by
  by_cases zero : n = 0
  · simp [write, zero]
  · simp [write, zero, Nat.digits_ne_nil_iff_ne_zero]

/-- **A written number reads back.** -/
theorem read_write {base : ℕ} (two : 1 < base) (small : base ≤ 36) (n : ℕ) : read base (write base n) = some n := by
  rw [read, if_neg (write_ne_nil base n)]
  by_cases zero : n = 0
  · rw [write, if_pos zero, List.foldlM_cons, pushDigit_digitChar 0 small (by omega), zero]
    simp
  · rw [write, if_neg zero, foldlM_pushDigit small, foldl_reverse_eq_ofDigits, Nat.ofDigits_digits]
    intro d member
    exact Nat.digits_lt_base two (List.mem_reverse.mp member)

/-- Every character of a numeral is a digit. -/
theorem mem_write {base n : ℕ} (two : 1 < base) {c : Char8} (member : c ∈ write base n) :
    ∃ d, d < base ∧ c = digitChar d := by
  by_cases zero : n = 0
  · rw [write, if_pos zero, List.mem_singleton] at member
    exact ⟨0, by omega, member⟩
  · rw [write, if_neg zero, List.mem_map] at member
    obtain ⟨d, digit, rfl⟩ := member
    exact ⟨d, Nat.digits_lt_base two (List.mem_reverse.mp digit), rfl⟩

end Numeral
