import KPlugin.Lib.Numeral
import KPlugin.Lib.Radix

/-!
# Bytes in hexadecimal

Two digits stand for each byte, the high one first and in either case. Such a
string has the length and, read as a numeral, the big-endian value of the bytes,
so it determines them, leading zeros included.
-/

namespace Hex
open Numeral Radix

/-- The string writes the bytes. -/
inductive HexDigits : List Char8 → List (BitVec 8) → Prop
  | nil : HexDigits [] []
  | cons {hi lo : Char8} {b : BitVec 8} {s : List Char8} {bytes : List (BitVec 8)} :
      digitValue hi = some (b.toNat / 16) → digitValue lo = some (b.toNat % 16) → HexDigits s bytes →
      HexDigits (hi :: lo :: s) (b :: bytes)

theorem HexDigits.length_eq {s : List Char8} {bytes : List (BitVec 8)} (hex : HexDigits s bytes) :
    s.length = 2 * bytes.length := by
  induction hex with
  | nil => rfl
  | cons hi lo hex ih =>
    simp only [List.length_cons, ih]
    ring

/-- Every character is a digit below 16. -/
theorem HexDigits.digit {s : List Char8} {bytes : List (BitVec 8)} (hex : HexDigits s bytes) {c : Char8}
    (member : c ∈ s) : ∃ d, digitValue c = some d ∧ d < 16 := by
  induction hex with
  | nil => cases member
  | @cons hi lo b s bytes high low hex ih =>
    rcases List.mem_cons.mp member with rfl | member
    · exact ⟨_, high, by have := b.isLt; omega⟩
    · rcases List.mem_cons.mp member with rfl | member
      · exact ⟨_, low, Nat.mod_lt _ (by decide)⟩
      · exact ih member

theorem valueBE_cons (b : BitVec 8) (bytes : List (BitVec 8)) :
    valueBE (b :: bytes) = b.toNat * 256 ^ bytes.length + valueBE bytes := by
  rw [valueBE, List.reverse_cons, value_append, List.length_reverse, value_cons, value_nil, valueBE]
  ring

/-- Reading from the left multiplies what was read before. -/
theorem HexDigits.foldlM_eq {s : List Char8} {bytes : List (BitVec 8)} (hex : HexDigits s bytes) (acc : ℕ) :
    s.foldlM (pushDigit 16) acc = some (acc * 256 ^ bytes.length + valueBE bytes) := by
  induction hex generalizing acc with
  | nil =>
    rw [List.length_nil, pow_zero, Nat.mul_one]
    rfl
  | @cons hi lo b s bytes high low hex ih =>
    have highBound : b.toNat / 16 < 16 := by
      have := b.isLt
      omega
    have lowBound : b.toNat % 16 < 16 := Nat.mod_lt _ (by decide)
    have byte : (acc * 16 + b.toNat / 16) * 16 + b.toNat % 16 = acc * 256 + b.toNat := by omega
    rw [List.foldlM_cons, pushDigit_of_digitValue acc high highBound]
    change ((lo :: s).foldlM (pushDigit 16) (acc * 16 + b.toNat / 16)) = _
    rw [List.foldlM_cons, pushDigit_of_digitValue _ low lowBound, byte]
    change s.foldlM (pushDigit 16) (acc * 256 + b.toNat) = _
    rw [ih, valueBE_cons, List.length_cons, pow_succ]
    congr 1
    ring

/-- **The numeral is the big-endian number.** -/
theorem HexDigits.read_eq {s : List Char8} {bytes : List (BitVec 8)} (hex : HexDigits s bytes) (nonempty : bytes ≠ []) :
    Numeral.read 16 s = some (valueBE bytes) := by
  have chars : s ≠ [] := by
    rintro rfl
    cases hex
    exact nonempty rfl
  unfold Numeral.read
  rw [if_neg chars, hex.foldlM_eq, Nat.zero_mul, Nat.zero_add]

end Hex
