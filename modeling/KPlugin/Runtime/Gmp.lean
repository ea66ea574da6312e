import KPlugin.Lib.Numeral
import KPlugin.Runtime.PluginUtil

/-!
# GMP integers

K integers are `mpz_t` values of any size. The functions here are the ones the
hooks call, with GMP's documented results.
-/

namespace KPlugin
open Numeral Radix

/-- The characters `isspace` accepts. -/
def isSpace (c : Byte) : Bool := c = ascii ' ' ∨ (9 ≤ c.toNat ∧ c.toNat ≤ 13)

/-! ## Decimal text -/

/-- The digits that `mpz_set_str` reads: white space is ignored behind the first of them. -/
def mpzDigits (base : ℕ) (cs : Bytes) : Option ℕ :=
  if cs.head?.any isSpace then none else read base (cs.filter fun c => !isSpace c)

/-- `mpz_set_str`: white space is skipped in front of the sign, and `none` is its return value -1. -/
def mpzSetStr (str : Bytes) (base : ℕ) : Option ℤ :=
  match str.dropWhile isSpace with
  | [] => none
  | c :: cs =>
    if c = ascii '-' then (mpzDigits base cs).map (fun n : ℕ => -(n : ℤ))
    else (mpzDigits base (c :: cs)).map (fun n : ℕ => (n : ℤ))

/-- `mpz_init_set_str`: the variable holds 0 when the string is no numeral. -/
def mpzInitSetStr (str : Bytes) (base : ℕ) : ℤ := (mpzSetStr str base).getD 0

/-- `hook_STRING_int2string`: `mpz_get_str` in base 10. -/
def int2string (n : ℤ) : Bytes := if n < 0 then ascii '-' :: write 10 n.natAbs else write 10 n.natAbs

theorem isSpace_digitChar {d : ℕ} (bound : d < 36) : isSpace (digitChar d) = false := by
  interval_cases d <;> decide

theorem digitChar_ne_minus {d : ℕ} (bound : d < 36) : digitChar d ≠ ascii '-' := by
  interval_cases d <;> decide

/-- A numeral contains no white space. -/
theorem filter_write {base : ℕ} (two : 1 < base) (small : base ≤ 36) (n : ℕ) :
    (write base n).filter (fun c => !isSpace c) = write base n := by
  rw [List.filter_eq_self]
  intro c member
  obtain ⟨d, bound, rfl⟩ := mem_write two member
  rw [isSpace_digitChar (bound.trans_le small)]
  rfl

theorem mpzDigits_cons {base : ℕ} {c : Byte} (cs : Bytes) (visible : isSpace c = false) :
    mpzDigits base (c :: cs) = read base ((c :: cs).filter fun c => !isSpace c) := by
  refine if_neg ?_
  rw [List.head?_cons, Option.any_some, visible]
  exact Bool.false_ne_true

/-- A string that begins with neither a sign nor white space. -/
theorem mpzSetStr_cons {base : ℕ} {c : Byte} (cs : Bytes) (visible : isSpace c = false) (unsigned : c ≠ ascii '-') :
    mpzSetStr (c :: cs) base = (read base ((c :: cs).filter fun c => !isSpace c)).map (fun n : ℕ => (n : ℤ)) := by
  rw [mpzSetStr, List.dropWhile_cons_of_neg (by rw [visible]; exact Bool.false_ne_true)]
  simp only [if_neg unsigned, mpzDigits_cons cs visible]

/-- A string that begins with a sign. -/
theorem mpzSetStr_minus {base : ℕ} {c : Byte} (cs : Bytes) (visible : isSpace c = false) :
    mpzSetStr (ascii '-' :: c :: cs) base =
      (read base ((c :: cs).filter fun c => !isSpace c)).map (fun n : ℕ => -(n : ℤ)) := by
  rw [mpzSetStr, List.dropWhile_cons_of_neg (by decide)]
  simp only [if_true, mpzDigits_cons cs visible]

/-- A numeral has no sign. -/
theorem mpzSetStr_write {base : ℕ} (two : 1 < base) (small : base ≤ 36) (n : ℕ) :
    mpzSetStr (write base n) base = some (n : ℤ) ∧
      mpzSetStr (ascii '-' :: write base n) base = some (-(n : ℤ)) := by
  have visible := filter_write two small n
  have back := read_write two small n
  cases numeral : write base n with
  | nil => exact absurd numeral (write_ne_nil base n)
  | cons c cs =>
    obtain ⟨d, bound, rfl⟩ := mem_write two (by rw [numeral]; exact List.mem_cons_self)
    rw [numeral] at visible back
    have shown := isSpace_digitChar (bound.trans_le small)
    rw [mpzSetStr_cons cs shown (digitChar_ne_minus (bound.trans_le small)), mpzSetStr_minus cs shown, visible, back]
    exact ⟨rfl, rfl⟩

/-- **Decimal text reads back**, whatever the sign and the size. -/
theorem mpzInitSetStr_int2string (n : ℤ) : mpzInitSetStr (int2string n) 10 = n := by
  by_cases negative : n < 0
  · rw [mpzInitSetStr, int2string, if_pos negative, (mpzSetStr_write (by decide) (by decide) _).2, Option.getD_some]
    omega
  · rw [mpzInitSetStr, int2string, if_neg negative, (mpzSetStr_write (by decide) (by decide) _).1, Option.getD_some]
    omega

/-! ## Bytes -/

/-- `mpz_sizeinbase(m, 2)`: the bit length of the absolute value, 1 for zero. -/
def mpzSizeinbase2 (m : ℤ) : ℕ := m.natAbs.log2 + 1

/-- What `mpz_export(_, _, -1, 1, 0, 0, m)` writes: the bytes of the absolute
value, lowest first, none for zero. -/
def mpzExport (m : ℤ) : Bytes := if m = 0 then [] else digits 8 ((mpzSizeinbase2 m + 7) / 8) m.natAbs

/-- `mpz_import(_, n, -1, 1, 0, 0, le)`. -/
def mpzImport (le : Bytes) : ℤ := value le

/-- A zeroed buffer of `n` bytes after a write to its beginning. -/
def intoBuffer (n : ℕ) (bytes : Bytes) : Bytes := bytes ++ List.replicate (n - bytes.length) 0

theorem natAbs_lt_sizeinbase (m : ℤ) : m.natAbs < 2 ^ mpzSizeinbase2 m := Nat.lt_log2_self

/-- The bit length measures the absolute value. -/
theorem mpzSizeinbase2_le_iff (m : ℤ) {n : ℕ} (positive : 0 < n) : mpzSizeinbase2 m ≤ n ↔ m.natAbs < 2 ^ n := by
  constructor
  · intro short
    exact (natAbs_lt_sizeinbase m).trans_le (Nat.pow_le_pow_right (by decide) short)
  · intro small
    by_cases zero : m.natAbs = 0
    · rw [mpzSizeinbase2, zero]
      exact positive
    · exact (Nat.log2_lt zero).mpr small

theorem length_mpzExport_le (m : ℤ) : (mpzExport m).length ≤ (mpzSizeinbase2 m + 7) / 8 := by
  by_cases zero : m = 0
  · rw [mpzExport, if_pos zero]
    exact Nat.zero_le _
  · rw [mpzExport, if_neg zero, length_digits]

theorem value_mpzExport (m : ℤ) : value (mpzExport m) = m.natAbs := by
  by_cases zero : m = 0
  · rw [mpzExport, if_pos zero, zero]
    rfl
  · rw [mpzExport, if_neg zero]
    apply value_digits_of_lt
    calc m.natAbs < 2 ^ mpzSizeinbase2 m := natAbs_lt_sizeinbase m
      _ ≤ 2 ^ (8 * ((mpzSizeinbase2 m + 7) / 8)) := Nat.pow_le_pow_right (by decide) (by omega)
      _ = (2 ^ 8) ^ ((mpzSizeinbase2 m + 7) / 8) := pow_mul 2 8 _

/-- Zero bytes above a number change nothing. -/
theorem value_replicate_zero (k : ℕ) : value (List.replicate k (0 : Byte)) = 0 := by
  induction k with
  | zero => rfl
  | succ k ih =>
    rw [List.replicate_succ, value_cons, ih]
    rfl

theorem value_intoBuffer (n : ℕ) (bytes : Bytes) : value (intoBuffer n bytes) = value bytes := by
  rw [intoBuffer, value_append, value_replicate_zero, Nat.mul_zero, Nat.add_zero]

theorem length_intoBuffer {n : ℕ} {bytes : Bytes} (fits : bytes.length ≤ n) : (intoBuffer n bytes).length = n := by
  rw [intoBuffer, List.length_append, List.length_replicate, Nat.add_sub_cancel' fits]

/-- Cutting a buffer inside its zeroes keeps the number. -/
theorem value_take_intoBuffer {n k : ℕ} {bytes : Bytes} (long : bytes.length ≤ k) :
    value ((intoBuffer n bytes).take k) = value bytes := by
  rw [intoBuffer, List.take_append, List.take_of_length_le long, List.take_replicate, value_append,
    value_replicate_zero, Nat.mul_zero, Nat.add_zero]

end KPlugin
