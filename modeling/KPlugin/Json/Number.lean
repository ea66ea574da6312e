import Mathlib.Algebra.Order.Field.Rat
import KPlugin.Runtime.Gmp

/-!
# JSON numbers and GMP integers

The reader hands the handler the text of a number, which has a fraction and an
exponent part that GMP's decimal syntax has not. `mpz_init_set_str` refuses such a
text, its answer is not looked at, and the variable keeps the 0 it was initialised
with.
-/

namespace KPlugin.Json
open Numeral

/-! ## Tokens -/

/-- The number of a digit string, highest digit first. -/
def decimal (ds : List (Fin 10)) : ℕ := (ds.map Fin.val).foldl (fun n d => n * 10 + d) 0

def digitsText (ds : List (Fin 10)) : Bytes := (ds.map Fin.val).map digitChar

/-- `exp`: the letter, an optional sign and at least one digit. -/
structure Exponent where
  upper : Bool
  /-- `some true` is the sign `-`. -/
  sign : Option Bool
  digits : List (Fin 10)
  nonempty : digits ≠ []

/-- `number`: an optional minus, an integer part without superfluous zeros, an
optional fraction and an optional exponent. -/
structure NumberToken where
  minus : Bool
  int : List (Fin 10)
  frac : Option (List (Fin 10))
  exp : Option Exponent
  leading : int = [0] ∨ ∃ d ds, int = d :: ds ∧ d ≠ 0
  nonempty : ∀ ds ∈ frac, ds ≠ []

def Exponent.text (e : Exponent) : Bytes :=
  (if e.upper then ascii 'E' else ascii 'e') ::
    ((match e.sign with
      | none => []
      | some minus => [if minus then ascii '-' else ascii '+']) ++ digitsText e.digits)

def Exponent.value (e : Exponent) : ℤ := if e.sign = some true then -(decimal e.digits : ℤ) else decimal e.digits

namespace NumberToken

/-- What follows the integer part. -/
def tail (t : NumberToken) : Bytes :=
  (t.frac.elim [] fun ds => ascii '.' :: digitsText ds) ++ t.exp.elim [] Exponent.text

def text (t : NumberToken) : Bytes := (if t.minus then [ascii '-'] else []) ++ (digitsText t.int ++ t.tail)

/-- The digits of the fraction. -/
def fraction (t : NumberToken) : List (Fin 10) := t.frac.getD []

/-- The power of ten that the digits are multiplied by. -/
def scale (t : NumberToken) : ℤ := t.exp.elim 0 Exponent.value - t.fraction.length

/-- **The numeric value**: the digits before and after the point as one number, scaled. -/
def value (t : NumberToken) : ℚ :=
  (if t.minus then -1 else 1) * (decimal (t.int ++ t.fraction) : ℚ) * 10 ^ t.scale

/-- The token is an integer in GMP's syntax too. -/
def Plain (t : NumberToken) : Prop := t.frac = none ∧ t.exp = none

/-- No digit counts, whatever the exponent. -/
def AllZero (t : NumberToken) : Prop := ∀ d ∈ t.int ++ t.fraction, d = 0

end NumberToken

/-! ## What GMP makes of a token -/

theorem foldl_eq_zero_iff (ds : List (Fin 10)) (acc : ℕ) :
    (ds.map Fin.val).foldl (fun n d => n * 10 + d) acc = 0 ↔ acc = 0 ∧ ∀ d ∈ ds, d = 0 := by
  induction ds generalizing acc with
  | nil => simp
  | cons d ds ih =>
    rw [List.map_cons, List.foldl_cons, ih, List.forall_mem_cons, ← and_assoc, ← Fin.val_eq_zero_iff]
    refine and_congr_left fun _ => ?_
    omega

/-- A digit string is zero when every digit is. -/
theorem decimal_eq_zero_iff (ds : List (Fin 10)) : decimal ds = 0 ↔ ∀ d ∈ ds, d = 0 := by
  rw [decimal, foldl_eq_zero_iff, and_iff_right rfl]

theorem val_lt_ten {ds : List (Fin 10)} {d : ℕ} (member : d ∈ ds.map Fin.val) : d < 10 := by
  obtain ⟨e, -, rfl⟩ := List.mem_map.mp member
  exact e.isLt

theorem filter_digitsText (ds : List (Fin 10)) : (digitsText ds).filter (fun c => !isSpace c) = digitsText ds := by
  rw [List.filter_eq_self]
  intro c member
  obtain ⟨d, digit, rfl⟩ := List.mem_map.mp member
  rw [isSpace_digitChar ((val_lt_ten digit).trans (by decide))]
  rfl

/-- What follows the integer part begins with no digit. -/
theorem NumberToken.tail_cases (t : NumberToken) :
    (t.Plain ∧ t.tail = []) ∨
      (¬ t.Plain ∧ ∃ c rest, t.tail = c :: rest ∧ isSpace c = false ∧ ∀ acc, pushDigit 10 acc c = none) := by
  unfold NumberToken.Plain NumberToken.tail
  cases t.frac with
  | some ds => exact .inr ⟨by simp, _, _, rfl, by decide, fun _ => rfl⟩
  | none =>
    cases t.exp with
    | none => exact .inl ⟨⟨rfl, rfl⟩, rfl⟩
    | some e =>
      refine .inr ⟨by simp, _, _, rfl, ?_⟩
      cases e.upper
      · exact ⟨by decide, fun _ => rfl⟩
      · exact ⟨by decide, fun _ => rfl⟩

/-- A numeral read with what follows it. -/
theorem read_digitsText_append {ds : List (Fin 10)} (rest : Bytes) (nonempty : ds ≠ []) :
    Numeral.read 10 (digitsText ds ++ rest) = rest.foldlM (pushDigit 10) (decimal ds) := by
  have some : digitsText ds ++ rest ≠ [] := by
    intro empty
    have none := (List.append_eq_nil_iff.mp empty).1
    exact nonempty (List.map_eq_nil_iff.mp (List.map_eq_nil_iff.mp none))
  rw [Numeral.read, if_neg some, List.foldlM_append, digitsText,
    foldlM_pushDigit (by decide) (fun d member => val_lt_ten member)]
  rfl

/-- The sign of a token. -/
def signed (minus : Bool) (n : ℕ) : ℤ := if minus then -(n : ℤ) else n

/-- GMP reads the sign, the integer part, and then what follows as more digits. -/
theorem mpzSetStr_digits (minus : Bool) {ds : List (Fin 10)} (rest : Bytes) (nonempty : ds ≠ []) :
    mpzSetStr ((if minus then [ascii '-'] else []) ++ (digitsText ds ++ rest)) 10 =
      ((rest.filter fun c => !isSpace c).foldlM (pushDigit 10) (decimal ds)).map (signed minus) := by
  have digits : (digitsText ds ++ rest).filter (fun c => !isSpace c) =
      digitsText ds ++ rest.filter fun c => !isSpace c := by
    rw [List.filter_append, filter_digitsText]
  obtain ⟨d, others, rfl⟩ := List.exists_cons_of_ne_nil nonempty
  have small : d.val < 36 := d.isLt.trans (by decide)
  have shown : digitsText (d :: others) ++ rest = digitChar d.val :: (digitsText others ++ rest) := rfl
  cases minus with
  | true =>
    rw [if_pos rfl, List.singleton_append, shown, mpzSetStr_minus _ (isSpace_digitChar small), ← shown, digits,
      read_digitsText_append _ nonempty]
    rfl
  | false =>
    rw [if_neg Bool.false_ne_true, List.nil_append, shown,
      mpzSetStr_cons _ (isSpace_digitChar small) (digitChar_ne_minus small), ← shown, digits,
      read_digitsText_append _ nonempty]
    rfl

namespace NumberToken

theorem int_ne_nil (t : NumberToken) : t.int ≠ [] := by
  rcases t.leading with zero | ⟨d, ds, more, -⟩
  · rw [zero]
    exact List.cons_ne_nil _ _
  · rw [more]
    exact List.cons_ne_nil _ _

/-- A plain token is read as the integer it is. -/
theorem mpzInitSetStr_plain {t : NumberToken} (plain : t.Plain) :
    mpzInitSetStr t.text 10 = signed t.minus (decimal t.int) := by
  rcases t.tail_cases with ⟨-, empty⟩ | ⟨other, -⟩
  · rw [mpzInitSetStr, text, mpzSetStr_digits t.minus _ t.int_ne_nil, empty]
    rfl
  · exact absurd plain other

/-- **Any other token is read as 0.** -/
theorem mpzInitSetStr_other {t : NumberToken} (other : ¬ t.Plain) : mpzInitSetStr t.text 10 = 0 := by
  rcases t.tail_cases with ⟨plain, -⟩ | ⟨-, c, rest, begins, visible, refused⟩
  · exact absurd plain other
  · have kept : (c :: rest).filter (fun c => !isSpace c) = c :: rest.filter fun c => !isSpace c := by
      rw [List.filter_cons_of_pos]
      rw [visible]
      rfl
    rw [mpzInitSetStr, text, mpzSetStr_digits t.minus _ t.int_ne_nil, begins, kept, List.foldlM_cons, refused]
    rfl

theorem value_plain {t : NumberToken} (plain : t.Plain) : t.value = (signed t.minus (decimal t.int) : ℤ) := by
  have noFraction : t.fraction = [] := by rw [fraction, plain.1, Option.getD_none]
  have noScale : t.scale = 0 := by
    rw [scale, plain.2, noFraction]
    rfl
  rw [value, noScale, noFraction, List.append_nil, zpow_zero, mul_one, signed]
  cases t.minus <;> simp

theorem value_eq_zero_iff (t : NumberToken) : t.value = 0 ↔ t.AllZero := by
  have sign : (if t.minus then -1 else 1 : ℚ) ≠ 0 := by
    cases t.minus <;> simp
  have power : (10 : ℚ) ^ t.scale ≠ 0 := zpow_ne_zero _ (by norm_num)
  rw [value, mul_eq_zero, or_iff_left power, mul_eq_zero, or_iff_right sign, Nat.cast_eq_zero, decimal_eq_zero_iff]
  rfl

/-- **When GMP's reading keeps the value**: on tokens without fraction and exponent,
and on those without a digit that counts. -/
theorem kept_iff (t : NumberToken) : (mpzInitSetStr t.text 10 : ℚ) = t.value ↔ t.Plain ∨ t.AllZero := by
  rw [← value_eq_zero_iff]
  by_cases plain : t.Plain
  · rw [mpzInitSetStr_plain plain, value_plain plain]
    exact iff_of_true rfl (.inl plain)
  · rw [mpzInitSetStr_other plain, Int.cast_zero, or_iff_right plain]
    exact eq_comm

end NumberToken

/-! ## Two tokens -/

/-- `15`. -/
def fifteen : NumberToken where
  minus := false
  int := [1, 5]
  frac := none
  exp := none
  leading := .inr ⟨1, [5], rfl, by decide⟩
  nonempty := nofun

/-- `1.5`. -/
def oneAndAHalf : NumberToken where
  minus := false
  int := [1]
  frac := some [5]
  exp := none
  leading := .inr ⟨1, [], rfl, by decide⟩
  nonempty := by
    intro ds fraction
    cases fraction
    exact List.cons_ne_nil _ _

end KPlugin.Json
