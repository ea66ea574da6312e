import Mathlib.Tactic.Ring
import Mathlib.Data.List.Basic

/-!
# Numbers as fixed-width digit strings

A digit is a `BitVec w`, so the base is `2 ^ w`; bytes and nibbles are the
instances in use. `value` reads a string with its lowest digit first, `digits k`
writes the `k` lowest digits of a number in that order, and the big-endian forms
are the same on the reversed string. Leading zeros count: a string of `k` digits
and a number below `(2 ^ w) ^ k` determine each other.
-/

namespace Radix

variable {w : ℕ}

/-- The number with these digits, lowest first. -/
def value : List (BitVec w) → ℕ
  | [] => 0
  | d :: ds => d.toNat + 2 ^ w * value ds

/-- The `k` lowest digits of `n`, lowest first. -/
def digits (w : ℕ) : ℕ → ℕ → List (BitVec w)
  | 0, _ => []
  | k + 1, n => BitVec.ofNat w n :: digits w k (n / 2 ^ w)

/-- The number with these digits, highest first. -/
def valueBE (ds : List (BitVec w)) : ℕ := value ds.reverse

/-- The `k` lowest digits of `n`, highest first. -/
def digitsBE (w k n : ℕ) : List (BitVec w) := (digits w k n).reverse

@[simp] theorem value_nil : value ([] : List (BitVec w)) = 0 := rfl

@[simp] theorem value_cons (d : BitVec w) (ds : List (BitVec w)) :
    value (d :: ds) = d.toNat + 2 ^ w * value ds := rfl

@[simp] theorem length_digits (k n : ℕ) : (digits w k n).length = k := by
  induction k generalizing n with
  | zero => rfl
  | succ k ih => rw [digits, List.length_cons, ih]

@[simp] theorem length_digitsBE (k n : ℕ) : (digitsBE w k n).length = k := by
  rw [digitsBE, List.length_reverse, length_digits]

theorem value_append (ds es : List (BitVec w)) :
    value (ds ++ es) = value ds + (2 ^ w) ^ ds.length * value es := by
  induction ds with
  | nil => simp
  | cons d ds ih =>
    rw [List.cons_append, value_cons, ih, value_cons, List.length_cons, pow_succ]
    ring

theorem value_lt (ds : List (BitVec w)) : value ds < (2 ^ w) ^ ds.length := by
  induction ds with
  | nil => simp
  | cons d ds ih =>
    have digit := d.isLt
    have tail : 2 ^ w * (value ds + 1) ≤ 2 ^ w * (2 ^ w) ^ ds.length := Nat.mul_le_mul_left _ ih
    rw [value_cons, List.length_cons, pow_succ, Nat.mul_comm ((2 ^ w) ^ ds.length)]
    calc d.toNat + 2 ^ w * value ds < 2 ^ w + 2 ^ w * value ds := by omega
      _ = 2 ^ w * (value ds + 1) := by ring
      _ ≤ _ := tail

/-- Writing and reading back keeps what fits. -/
theorem value_digits (k n : ℕ) : value (digits w k n) = n % (2 ^ w) ^ k := by
  induction k generalizing n with
  | zero => simp [digits, Nat.mod_one]
  | succ k ih => rw [digits, value_cons, ih, BitVec.toNat_ofNat, pow_succ', Nat.mod_mul]

theorem value_digits_of_lt {k n : ℕ} (fits : n < (2 ^ w) ^ k) : value (digits w k n) = n := by
  rw [value_digits, Nat.mod_eq_of_lt fits]

/-- Reading and writing back gives the same string, leading zeros included. -/
theorem digits_value (ds : List (BitVec w)) : digits w ds.length (value ds) = ds := by
  induction ds with
  | nil => rfl
  | cons d ds ih =>
    have low : BitVec.ofNat w (d.toNat + 2 ^ w * value ds) = d := by
      apply BitVec.eq_of_toNat_eq
      rw [BitVec.toNat_ofNat, Nat.add_mul_mod_self_left, Nat.mod_eq_of_lt d.isLt]
    have high : (d.toNat + 2 ^ w * value ds) / 2 ^ w = value ds := by
      rw [Nat.add_mul_div_left _ _ (Nat.two_pow_pos w), Nat.div_eq_of_lt d.isLt, Nat.zero_add]
    rw [List.length_cons, digits, value_cons, low, high, ih]

theorem valueBE_lt (ds : List (BitVec w)) : valueBE ds < (2 ^ w) ^ ds.length := by
  rw [valueBE, ← List.length_reverse]
  exact value_lt _

theorem digitsBE_valueBE (ds : List (BitVec w)) : digitsBE w ds.length (valueBE ds) = ds := by
  rw [digitsBE, valueBE, ← List.length_reverse, digits_value, List.reverse_reverse]

theorem valueBE_digitsBE_of_lt {k n : ℕ} (fits : n < (2 ^ w) ^ k) : valueBE (digitsBE w k n) = n := by
  rw [digitsBE, valueBE, List.reverse_reverse, value_digits_of_lt fits]

/-! ## Arrays of numbers -/

/-- Numbers of `k` digits each, one after another. -/
def pack (w k : ℕ) {n : ℕ} (f : Fin n → ℕ) : List (BitVec w) := (List.ofFn f).flatMap (digits w k)

/-- The `n` numbers of `k` digits each at the front of a string. -/
def unpack (k n : ℕ) (ds : List (BitVec w)) : Fin n → ℕ := fun i => value ((ds.drop (k * i)).take k)

theorem pack_succ (k : ℕ) {n : ℕ} (f : Fin (n + 1) → ℕ) :
    pack w k f = digits w k (f 0) ++ pack w k fun i => f i.succ := by
  simp [pack, List.ofFn_succ]

@[simp] theorem length_pack (k : ℕ) {n : ℕ} (f : Fin n → ℕ) : (pack w k f).length = k * n := by
  induction n with
  | zero => simp [pack]
  | succ n ih =>
    rw [pack_succ, List.length_append, length_digits, ih]
    ring

/-- Numbers that fit their digits are read back. -/
theorem unpack_pack {k n : ℕ} {f : Fin n → ℕ} (fits : ∀ i, f i < (2 ^ w) ^ k) : unpack k n (pack w k f) = f := by
  induction n with
  | zero =>
    funext i
    exact i.elim0
  | succ n ih =>
    funext i
    rw [pack_succ]
    cases i using Fin.cases with
    | zero =>
      simp only [unpack, Fin.val_zero, Nat.mul_zero, List.drop_zero]
      rw [List.take_append_of_le_length (by simp), List.take_of_length_le (by simp), value_digits_of_lt (fits 0)]
    | succ i =>
      have tail := congrFun (ih fun i => fits i.succ) i
      have shift : k * (i.val + 1) = (digits w k (f 0)).length + k * i := by
        rw [length_digits]
        ring
      simp only [unpack, Fin.val_succ, shift]
      rw [List.drop_append, List.drop_eq_nil_of_le (by omega), List.nil_append, Nat.add_sub_cancel_left]
      exact tail

/-- Strings of whole numbers are rebuilt. -/
theorem pack_unpack {k n : ℕ} {ds : List (BitVec w)} (len : ds.length = k * n) : pack w k (unpack k n ds) = ds := by
  induction n generalizing ds with
  | zero =>
    rw [Nat.mul_zero] at len
    rw [List.length_eq_zero_iff.mp len]
    rfl
  | succ n ih =>
    have long : k ≤ ds.length := by
      rw [len]
      exact Nat.le_mul_of_pos_right k (Nat.succ_pos n)
    have head : digits w k (unpack k (n + 1) ds 0) = ds.take k := by
      have here : (ds.take k).length = k := by
        rw [List.length_take, Nat.min_eq_left long]
      have back := digits_value (ds.take k)
      rw [here] at back
      simpa [unpack] using back
    have tail : (fun i : Fin n => unpack k (n + 1) ds i.succ) = unpack k n (ds.drop k) := by
      funext i
      simp only [unpack, Fin.val_succ, List.drop_drop]
      congr 3
      ring
    have rest : (ds.drop k).length = k * n := by
      rw [List.length_drop, len, Nat.mul_succ, Nat.add_sub_cancel]
    rw [pack_succ, head, tail, ih rest, List.take_append_drop]

end Radix
