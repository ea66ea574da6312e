import Mathlib.Data.Fin.VecNotation
import Mathlib.Data.Fintype.Basic
import KPlugin.Lib.ObjectHeap
import KPlugin.Lib.Radix

/-!
# Strings of the K runtime and `plugin_util.cpp`

K terms of sort `String` and `Bytes` are heap objects of bytes. `raw` and
`hexEncode` allocate the two forms in which the hooks return digests.
-/

namespace KPlugin
open ObjectHeap

abbrev Byte := BitVec 8

/-- The contents of a K `String` or `Bytes` object. -/
abbrev Bytes := List Byte

/-- The K heap, as far as the hooks read and write it. -/
abbrev KHeap := Heap Byte

/-- The byte of an ASCII character. -/
def ascii (c : Char) : Byte := BitVec.ofNat 8 c.toNat

/-- The conversion `%x` of one nibble. -/
def hexDigit (d : ℕ) : Byte := if d < 10 then ascii '0' + BitVec.ofNat 8 d else ascii 'a' + BitVec.ofNat 8 (d - 10)

/-- `snprintf(byte, sizeof(byte), "%02x", b)`. -/
def snprintf02x (b : Byte) : Bytes := [hexDigit (b.toNat / 16), hexDigit (b.toNat % 16)]

/-- The loop of `hexEncode`: characters `2 * i` and `2 * i + 1` come from byte `i`. -/
def hexEncodeData (digest : Bytes) : Bytes := digest.flatMap snprintf02x

/-- `hexEncode`. -/
def hexEncode (σ : KHeap) (digest : Bytes) : Addr × KHeap := alloc σ (hexEncodeData digest)

/-- `raw`. -/
def raw (σ : KHeap) (digest : Bytes) : Addr × KHeap := alloc σ digest

/-! ## Hex strings -/

/-- The lower-case hex digits in order. -/
def hexAlphabet : Fin 16 → Char :=
  !['0', '1', '2', '3', '4', '5', '6', '7', '8', '9', 'a', 'b', 'c', 'd', 'e', 'f']

/-- A byte string in lower-case hex, the high nibble of each byte first. -/
def hexString (bs : Bytes) : Bytes :=
  bs.flatMap fun b => [ascii (hexAlphabet ⟨b.toNat / 16, by omega⟩), ascii (hexAlphabet ⟨b.toNat % 16, by omega⟩)]

theorem hexDigit_eq (d : Fin 16) : hexDigit d = ascii (hexAlphabet d) := by
  revert d
  decide

/-- `hexEncode` writes lower-case hex. -/
theorem hexEncodeData_eq (bs : Bytes) : hexEncodeData bs = hexString bs := by
  have digits : ∀ b : Byte, snprintf02x b =
      [ascii (hexAlphabet ⟨b.toNat / 16, by omega⟩), ascii (hexAlphabet ⟨b.toNat % 16, by omega⟩)] := by
    intro b
    rw [snprintf02x, ← hexDigit_eq, ← hexDigit_eq]
  rw [hexEncodeData, hexString]
  congr 1
  funext b
  exact digits b

@[simp] theorem length_hexEncodeData (bs : Bytes) : (hexEncodeData bs).length = 2 * bs.length := by
  induction bs with
  | nil => rfl
  | cons b bs ih =>
    rw [hexEncodeData, List.flatMap_cons, List.length_append, ← hexEncodeData, ih, List.length_cons]
    simp only [snprintf02x, List.length_cons, List.length_nil]
    ring

end KPlugin
