import Mathlib.Data.Nat.Size
import KPlugin.Lib.Radix

/-!
# Pairs of integers in DER

An element is a tag, the length of its contents in one octet, and the contents. The
contents of an integer that is not negative are as few octets as leave the highest
bit clear, so a number whose highest bit is set has a zero octet in front, and zero
has one octet. A reader that accepts no other contents reads back the pair it was
written from.
-/

namespace Der
open Radix

abbrev Octets := List (BitVec 8)

/-- An element with contents of fewer than 128 octets. -/
def element (tag : BitVec 8) (contents : Octets) : Octets := tag :: BitVec.ofNat 8 contents.length :: contents

/-- The octets of a number, with the highest bit clear. -/
def contents (n : ℕ) : Octets := digitsBE 8 (n.size / 8 + 1) n

def integer (n : ℕ) : Octets := element 0x02 (contents n)

/-- The sequence of two integers. -/
def pair (r s : ℕ) : Octets := element 0x30 (integer r ++ integer s)

/-! ## Reading -/

/-- The contents of the first element, which must have this tag, and what comes after it. -/
def readElement (tag : BitVec 8) : Octets → Option (Octets × Octets)
  | t :: length :: rest =>
    if t = tag ∧ length.toNat < 128 ∧ length.toNat ≤ rest.length then
      some (rest.take length.toNat, rest.drop length.toNat)
    else none
  | _ => none

/-- Contents that are not the shortest are refused. -/
def readInteger (s : Octets) : Option (ℕ × Octets) := do
  let (body, rest) ← readElement 0x02 s
  if contents (valueBE body) = body then some (valueBE body, rest) else none

def readPair (s : Octets) : Option (ℕ × ℕ) := do
  let (body, rest) ← readElement 0x30 s
  let (first, more) ← readInteger body
  let (second, rest') ← readInteger more
  if rest = [] ∧ rest' = [] then some (first, second) else none

/-! ## What was written is read -/

theorem readElement_element (tag : BitVec 8) {body : Octets} (short : body.length < 128) (rest : Octets) :
    readElement tag (element tag body ++ rest) = some (body, rest) := by
  have length : (BitVec.ofNat 8 body.length).toNat = body.length := by
    rw [BitVec.toNat_ofNat]
    omega
  have fits : tag = tag ∧ body.length < 128 ∧ body.length ≤ (body ++ rest).length := by simp [short]
  unfold element
  rw [List.cons_append, List.cons_append, readElement, length, if_pos fits, List.take_left, List.drop_left]

theorem length_contents (n : ℕ) : (contents n).length = n.size / 8 + 1 := length_digitsBE _ _

/-- The highest bit has room. -/
theorem valueBE_contents (n : ℕ) : valueBE (contents n) = n := by
  apply valueBE_digitsBE_of_lt
  rw [← pow_mul]
  exact (Nat.lt_size_self n).trans_le (Nat.pow_le_pow_right (by decide) (by omega))

theorem readInteger_integer {n : ℕ} (short : (contents n).length < 128) (rest : Octets) :
    readInteger (integer n ++ rest) = some (n, rest) := by
  have body := readElement_element 0x02 short rest
  unfold readInteger integer
  rw [body]
  change (if contents (valueBE (contents n)) = contents n then some (valueBE (contents n), rest) else none) = _
  rw [valueBE_contents, if_pos rfl]

/-- A number of `k` octets takes at most one more. -/
theorem length_contents_le {n k : ℕ} (small : n < 2 ^ (8 * k)) : (contents n).length ≤ k + 1 := by
  have bits : n.size ≤ 8 * k := Nat.size_le.mpr small
  rw [length_contents]
  omega

theorem length_integer (n : ℕ) : (integer n).length = (contents n).length + 2 := rfl

/-- **A pair is read back**, if its numbers are short enough for lengths of one octet. -/
theorem readPair_pair {r s k : ℕ} (short : k ≤ 60) (r_small : r < 2 ^ (8 * k)) (s_small : s < 2 ^ (8 * k)) :
    readPair (pair r s) = some (r, s) := by
  have first := length_contents_le r_small
  have second := length_contents_le s_small
  have body : (integer r ++ integer s).length < 128 := by
    rw [List.length_append, length_integer, length_integer]
    omega
  have sequence := readElement_element 0x30 body []
  have head := readInteger_integer (n := r) (by omega) (integer s)
  have tail := readInteger_integer (n := s) (by omega) []
  rw [List.append_nil] at sequence tail
  unfold readPair pair
  rw [sequence]
  change ((readInteger (integer r ++ integer s)).bind _) = _
  rw [head]
  change ((readInteger (integer s)).bind _) = _
  rw [tail]
  rfl

/-- Zero, a number with its highest bit set, and the pair of both. -/
example : pair 0 128 = [0x30, 7, 2, 1, 0, 2, 2, 0, 128] := by decide

end Der
