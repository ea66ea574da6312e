import KPlugin.Lib.Hex
import KPlugin.Runtime.Gmp

/-!
# K strings and the hex functions of `ecdsa-test.k`

The strings that hooks return are parsed again by K rules: `#parseByteStack` and
`#parseHexWord` strip `0x` and go through an integer. On a string of hex digits
they give back its bytes, leading zeros included, and its big-endian value. A
partial K function is `none` where no rule applies.
-/

namespace KPlugin
open Hex Radix Numeral

/-- The characters of a literal. -/
def str (s : String) : Bytes := s.toList.map ascii

/-! ## Built-in functions -/

/-- The scan of `replaceAll`, with the number of characters of a match still to be dropped. -/
def replaceFrom (needle replacement : Bytes) : ℕ → Bytes → Bytes
  | _, [] => []
  | skip + 1, _ :: cs => replaceFrom needle replacement skip cs
  | 0, c :: cs =>
    if needle.isPrefixOf (c :: cs) then replacement ++ replaceFrom needle replacement (needle.length - 1) cs
    else c :: replaceFrom needle replacement 0 cs

/-- `replaceAll`: every occurrence, from the left and without overlap. -/
def replaceAll (s needle replacement : Bytes) : Bytes := replaceFrom needle replacement 0 s

/-- `String2Base`. -/
def string2Base (s : Bytes) (base : ℕ) : Option ℤ := mpzSetStr s base

/-- `Int2Bytes(length, n, BE)`: two's complement. -/
def int2BytesBE (length : ℕ) (n : ℤ) : Bytes := digitsBE 8 length (n % 256 ^ length).toNat

/-! ## Rules -/

def alignHexString (s : Bytes) : Bytes := if s.length % 2 = 0 then s else str "0" ++ s

def parseHexBytesAux (s : Bytes) : Option Bytes :=
  if s = [] then some []
  else if 2 ≤ s.length then (string2Base s 16).map (int2BytesBE (s.length / 2))
  else none

def parseHexBytes (s : Bytes) : Option Bytes := parseHexBytesAux (alignHexString s)

def parseByteStack (s : Bytes) : Option Bytes := parseHexBytes (replaceAll s (str "0x") [])

def parseHexWord (s : Bytes) : Option ℤ :=
  if s = [] then some 0
  else if s = str "0x" then some 0
  else string2Base (replaceAll s (str "0x") []) 16

/-! ## On hex digits -/

theorem digit_range {c : Byte} {d : ℕ} (digit : digitValue c = some d) (bound : d < 16) :
    (48 ≤ c.toNat ∧ c.toNat ≤ 57) ∨ (65 ≤ c.toNat ∧ c.toNat ≤ 70) ∨ 97 ≤ c.toNat ∧ c.toNat ≤ 102 := by
  unfold digitValue at digit
  split_ifs at digit with decimal lower upper
  · exact .inl decimal
  · have value := Option.some.inj digit
    omega
  · have value := Option.some.inj digit
    omega

/-- A hex digit is none of the characters that parsing treats in a special way. -/
theorem digit_ne {c : Byte} {d : ℕ} (digit : digitValue c = some d) (bound : d < 16) :
    isSpace c = false ∧ c ≠ ascii '-' ∧ c ≠ ascii 'x' := by
  have range := digit_range digit bound
  refine ⟨?_, ?_, ?_⟩
  · have space : c ≠ ascii ' ' := by
      rintro rfl
      exact absurd range (by decide)
    have control : ¬ (9 ≤ c.toNat ∧ c.toNat ≤ 13) := by omega
    unfold isSpace
    exact decide_eq_false fun either => either.elim space control
  · rintro rfl
    exact absurd range (by decide)
  · rintro rfl
    exact absurd range (by decide)

/-- Without an `x` nothing is replaced. -/
theorem replaceAll_of_no_x {s : Bytes} (noX : ∀ c ∈ s, c ≠ ascii 'x') : replaceAll s (str "0x") [] = s := by
  unfold replaceAll
  induction s with
  | nil => rfl
  | cons c s ih =>
    have rest := ih fun c' member => noX c' (List.mem_cons_of_mem c member)
    have noMatch : (str "0x").isPrefixOf (c :: s) = false := by
      cases s with
      | nil => simp [str, List.isPrefixOf]
      | cons c' s =>
        have second := noX c' (List.mem_cons_of_mem c List.mem_cons_self)
        simp [str, List.isPrefixOf, Ne.symm second]
    rw [replaceFrom, noMatch, rest]
    rfl

/-- The prefix `0x` is removed. -/
theorem replaceAll_prefix {s : Bytes} (noX : ∀ c ∈ s, c ≠ ascii 'x') :
    replaceAll (str "0x" ++ s) (str "0x") [] = s := by
  have rest := replaceAll_of_no_x noX
  unfold replaceAll at rest ⊢
  have start : replaceFrom (str "0x") [] 0 (str "0x" ++ s) = replaceFrom (str "0x") [] 0 s := by
    have isMatch : (str "0x").isPrefixOf (ascii '0' :: ascii 'x' :: s) = true := by simp [str, List.isPrefixOf]
    change replaceFrom (str "0x") [] 0 (ascii '0' :: ascii 'x' :: s) = _
    rw [replaceFrom, isMatch]
    rfl
  rw [start, rest]

section
variable {s bytes : Bytes}

theorem no_x_of_hex (hex : HexDigits s bytes) : ∀ c ∈ s, c ≠ ascii 'x' := by
  intro c member
  obtain ⟨d, digit, bound⟩ := hex.digit member
  exact (digit_ne digit bound).2.2

/-- Hex digits are a numeral, of the big-endian number. -/
theorem string2Base_hex (hex : HexDigits s bytes) (nonempty : bytes ≠ []) :
    string2Base s 16 = some (valueBE bytes : ℤ) := by
  have noSpace : s.filter (fun c => !isSpace c) = s := by
    rw [List.filter_eq_self]
    intro c member
    obtain ⟨d, digit, bound⟩ := hex.digit member
    rw [(digit_ne digit bound).1]
    rfl
  have numeral := hex.read_eq nonempty
  cases s with
  | nil =>
    cases hex
    exact absurd rfl nonempty
  | cons c s =>
    obtain ⟨d, digit, bound⟩ := hex.digit List.mem_cons_self
    obtain ⟨visible, unsigned, -⟩ := digit_ne digit bound
    rw [string2Base, mpzSetStr_cons s visible unsigned, noSpace, numeral, Option.map_some]

/-- Writing the number to as many bytes gives them back. -/
theorem int2BytesBE_valueBE (bytes : Bytes) : int2BytesBE bytes.length (valueBE bytes) = bytes := by
  have fits : (valueBE bytes : ℤ) < 256 ^ bytes.length := by exact_mod_cast valueBE_lt bytes
  unfold int2BytesBE
  rw [Int.emod_eq_of_lt (Int.natCast_nonneg _) fits, Int.toNat_natCast, digitsBE_valueBE]

theorem parseHexBytes_hex (hex : HexDigits s bytes) : parseHexBytes s = some bytes := by
  have length := hex.length_eq
  have even : s.length % 2 = 0 := by omega
  unfold parseHexBytes alignHexString
  rw [if_pos even]
  unfold parseHexBytesAux
  by_cases empty : bytes = []
  · have none : s = [] := List.eq_nil_of_length_eq_zero (by rw [length, empty]; rfl)
    rw [if_pos none, empty]
  · have positive : 0 < bytes.length := List.length_pos_iff.mpr empty
    have some : s ≠ [] := List.ne_nil_of_length_pos (by omega)
    have half : s.length / 2 = bytes.length := by omega
    rw [if_neg some, if_pos (by omega), string2Base_hex hex empty, half]
    exact congrArg Option.some (int2BytesBE_valueBE bytes)

/-- **`#parseByteStack` reads hex digits back**, with and without `0x`. -/
theorem parseByteStack_hex (hex : HexDigits s bytes) :
    parseByteStack s = some bytes ∧ parseByteStack (str "0x" ++ s) = some bytes := by
  unfold parseByteStack
  rw [replaceAll_of_no_x (no_x_of_hex hex), replaceAll_prefix (no_x_of_hex hex)]
  exact ⟨parseHexBytes_hex hex, parseHexBytes_hex hex⟩

/-- **`#parseHexWord` reads the number**. -/
theorem parseHexWord_hex (hex : HexDigits s bytes) (nonempty : bytes ≠ []) :
    parseHexWord s = some (valueBE bytes : ℤ) := by
  have length := hex.length_eq
  have positive : 0 < bytes.length := List.length_pos_iff.mpr nonempty
  have some : s ≠ [] := List.ne_nil_of_length_pos (by omega)
  have notPrefix : s ≠ str "0x" := by
    rintro rfl
    exact no_x_of_hex hex (ascii 'x') (by decide) rfl
  unfold parseHexWord
  rw [if_neg some, if_neg notPrefix, replaceAll_of_no_x (no_x_of_hex hex), string2Base_hex hex nonempty]

end

/-- `hexEncode` writes hex digits. -/
theorem hexDigits_hexEncodeData (bytes : Bytes) : HexDigits (hexEncodeData bytes) bytes := by
  have value : ∀ d : Fin 16, digitValue (hexDigit d) = some d.val := by decide
  induction bytes with
  | nil => exact .nil
  | cons b bytes ih =>
    have high : b.toNat / 16 < 16 := by
      have := b.isLt
      omega
    exact .cons (value ⟨_, high⟩) (value ⟨_, Nat.mod_lt _ (by decide)⟩) ih

end KPlugin
