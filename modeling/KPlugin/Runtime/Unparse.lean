import KPlugin.Runtime.KString

/-!
# Hex strings written and read back

`hexEncode` writes two digits for each byte. `#unparseData` writes a number of so
many bytes through one integer, with a byte 1 in front that keeps the leading
zeros and whose digit then becomes `0x`. `#parseByteStack` and `#parseHexWord`
read back what either wrote.
-/

namespace KPlugin
open Hex Radix Numeral ObjectHeap

/-! ## Built-in functions -/

/-- `Base2String`, `mpz_get_str` in a positive base. -/
def base2String (n : ℤ) (base : ℕ) : Bytes :=
  if n < 0 then ascii '-' :: write base n.natAbs else write base n.natAbs

/-- `replaceFirst`: the first occurrence from the left, if there is one. -/
def replaceFirst (needle replacement : Bytes) : Bytes → Bytes
  | [] => if needle.isPrefixOf [] then replacement else []
  | c :: cs =>
    if needle.isPrefixOf (c :: cs) then replacement ++ (c :: cs).drop needle.length
    else c :: replaceFirst needle replacement cs

/-- `padLeftBytes`. -/
def padLeftBytes (bytes : Bytes) (length : ℕ) (value : Byte) : Bytes :=
  List.replicate (length - bytes.length) value ++ bytes

/-- `Int2Bytes(n, BE, Unsigned)`: as few bytes as it takes, none for zero; there is no
rule for a negative number. -/
def int2BytesUnsignedBE (n : ℤ) : Option Bytes :=
  if n = 0 then some []
  else if 0 < n then some (int2BytesBE ((n.natAbs.log2 + 8) / 8) n)
  else none

/-! ## Rules -/

def asInteger (ws : Bytes) : ℤ := valueBE ws

def asByteStack (w : ℤ) : Option Bytes := int2BytesUnsignedBE w

def padToWidth (n : ℤ) (bytes : Bytes) : Bytes := if n ≥ 0 then padLeftBytes bytes n.toNat 0 else bytes

def unparseDataBytes (data : Bytes) : Option Bytes := do
  let one ← asByteStack 1
  some (replaceFirst (str "1") (str "0x") (base2String (asInteger (one ++ data)) 16))

def unparseData (data length : ℤ) : Option Bytes := do
  let bytes ← asByteStack data
  unparseDataBytes (padToWidth length bytes)

/-! ## `hexEncode` -/

/-- The digits are those of the alphabet. -/
theorem mem_hexEncodeData {bytes : Bytes} {c : Byte} (member : c ∈ hexEncodeData bytes) :
    ∃ d, c = ascii (hexAlphabet d) := by
  rw [hexEncodeData_eq, hexString, List.mem_flatMap] at member
  obtain ⟨b, -, digit⟩ := member
  rcases List.mem_cons.mp digit with high | low
  · exact ⟨_, high⟩
  · exact ⟨_, List.mem_singleton.mp low⟩

/-- The string `hexEncode` leaves on the heap. -/
theorem contents_hexEncode (σ : KHeap) (bytes : Bytes) :
    contents (hexEncode σ bytes).2 (hexEncode σ bytes).1 = hexEncodeData bytes := by
  simp [hexEncode, alloc, contents]

/-! ## The width -/

theorem valueBE_padLeftBytes (bytes : Bytes) (width : ℕ) : valueBE (padLeftBytes bytes width 0) = valueBE bytes := by
  rw [padLeftBytes, valueBE, List.reverse_append, List.reverse_replicate, value_append, value_replicate_zero,
    Nat.mul_zero, Nat.add_zero]
  rfl

/-- A number has the value it was written with. -/
theorem valueBE_int2BytesBE {length n : ℕ} (fits : n < 256 ^ length) : valueBE (int2BytesBE length n) = n := by
  have small : ((n : ℤ) % 256 ^ length).toNat = n := by
    rw [Int.emod_eq_of_lt (Int.natCast_nonneg n) (by exact_mod_cast fits), Int.toNat_natCast]
  rw [int2BytesBE, small]
  exact valueBE_digitsBE_of_lt fits

/-- A number below `256 ^ width` has at most `width` bytes, and these have its value. -/
theorem asByteStack_fits {n width : ℕ} (fits : n < 256 ^ width) :
    ∃ bytes, asByteStack n = some bytes ∧ bytes.length ≤ width ∧ valueBE bytes = n := by
  unfold asByteStack int2BytesUnsignedBE
  by_cases zero : n = 0
  · refine ⟨[], ?_, Nat.zero_le width, ?_⟩
    · rw [zero]
      rfl
    · rw [zero]
      rfl
  · have notZero : ¬ (n : ℤ) = 0 := by exact_mod_cast zero
    have positive : (0 : ℤ) < n := by omega
    have powers : ∀ k : ℕ, 256 ^ k = 2 ^ (8 * k) := fun k => (pow_mul 2 8 k).symm
    have bits : n.log2 < 8 * width := (Nat.log2_lt zero).mpr (by rw [← powers]; exact fits)
    have wide : n < 256 ^ ((n.log2 + 8) / 8) := by
      rw [powers]
      exact Nat.lt_log2_self.trans_le (Nat.pow_le_pow_right (by decide) (by omega))
    rw [if_neg notZero, if_pos positive, Int.natAbs_natCast]
    refine ⟨_, rfl, ?_, valueBE_int2BytesBE wide⟩
    rw [int2BytesBE, length_digitsBE]
    omega

/-- **The padded bytes** are the number in exactly as many bytes as asked for. -/
theorem padToWidth_asByteStack {n width : ℕ} (fits : n < 256 ^ width) :
    ∃ bytes, asByteStack n = some bytes ∧ padToWidth width bytes = digitsBE 8 width n := by
  obtain ⟨bytes, stack, short, value⟩ := asByteStack_fits fits
  refine ⟨bytes, stack, ?_⟩
  have length : (padLeftBytes bytes width 0).length = width := by
    rw [padLeftBytes, List.length_append, List.length_replicate, Nat.sub_add_cancel short]
  have back := digitsBE_valueBE (padLeftBytes bytes width 0)
  rw [length, valueBE_padLeftBytes, value] at back
  rw [padToWidth, if_pos (Int.natCast_nonneg width), Int.toNat_natCast, back]

/-! ## The digits -/

/-- One more digit is written at the end. -/
theorem write_push {base n d : ℕ} (two : 1 < base) (positive : n ≠ 0) (bound : d < base) :
    write base (n * base + d) = write base n ++ [digitChar d] := by
  have nonzero : n * base + d ≠ 0 := by
    have product : 0 < n * base := Nat.mul_pos (Nat.pos_of_ne_zero positive) (by omega)
    omega
  have split : Nat.digits base (n * base + d) = d :: Nat.digits base n := by
    rw [Nat.add_comm, Nat.mul_comm]
    exact Nat.digits_add base two d n bound (.inr positive)
  rw [write, if_neg nonzero, split, write, if_neg positive, List.reverse_cons, List.map_append]
  rfl

theorem hexDigit_eq_digitChar {d : ℕ} (bound : d < 16) : hexDigit d = digitChar d := by
  interval_cases d <;> decide

/-- **Bytes after a number that is not zero** are written as `hexEncode` writes them. -/
theorem write_append_bytes (bytes : Bytes) {n : ℕ} (positive : n ≠ 0) :
    write 16 (n * 256 ^ bytes.length + valueBE bytes) = write 16 n ++ hexEncodeData bytes := by
  induction bytes generalizing n with
  | nil => simp [hexEncodeData, valueBE]
  | cons b bytes ih =>
    have high : b.toNat / 16 < 16 := by
      have := b.isLt
      omega
    have low : b.toNat % 16 < 16 := Nat.mod_lt _ (by decide)
    have longer : n * 256 ^ (b :: bytes).length + valueBE (b :: bytes) =
        (n * 256 + b.toNat) * 256 ^ bytes.length + valueBE bytes := by
      rw [valueBE_cons, List.length_cons, pow_succ]
      ring
    have byte : n * 256 + b.toNat = (n * 16 + b.toNat / 16) * 16 + b.toNat % 16 := by omega
    have digits : write 16 (n * 256 + b.toNat) = write 16 n ++ snprintf02x b := by
      rw [byte, write_push (by decide) (by omega) low, write_push (by decide) positive high, snprintf02x,
        hexDigit_eq_digitChar high, hexDigit_eq_digitChar low, List.append_assoc]
      rfl
    rw [longer, ih (by omega), digits, List.append_assoc]
    rfl

/-- **`#unparseDataBytes`** is `0x` and the hex digits: the 1 in front is the first 1. -/
theorem unparseDataBytes_eq (bytes : Bytes) : unparseDataBytes bytes = some (str "0x" ++ hexEncodeData bytes) := by
  have one : asByteStack 1 = some [1] := by decide
  have number : asInteger ([1] ++ bytes) = (1 * 256 ^ bytes.length + valueBE bytes : ℕ) := by
    change ((valueBE (1 :: bytes) : ℕ) : ℤ) = _
    rw [valueBE_cons]
    rfl
  have numeral : base2String (asInteger ([1] ++ bytes)) 16 = ascii '1' :: hexEncodeData bytes := by
    have nonnegative : ¬ asInteger ([1] ++ bytes) < 0 := not_lt.mpr (Int.natCast_nonneg _)
    rw [base2String, if_neg nonnegative, number, Int.natAbs_natCast, write_append_bytes bytes Nat.one_ne_zero]
    rfl
  have first : (str "1").isPrefixOf (ascii '1' :: hexEncodeData bytes) = true := by simp [str, List.isPrefixOf]
  unfold unparseDataBytes
  rw [one]
  change some (replaceFirst (str "1") (str "0x") (base2String (asInteger ([1] ++ bytes)) 16)) = _
  rw [numeral, replaceFirst, if_pos first]
  rfl

/-- **`#parseHexWord` reads the number after `0x`**, and 0 when nothing comes after. -/
theorem parseHexWord_prefixed {s bytes : Bytes} (hex : HexDigits s bytes) :
    parseHexWord (str "0x" ++ s) = some (valueBE bytes : ℤ) := by
  have notEmpty : str "0x" ++ s ≠ [] := List.append_ne_nil_of_left_ne_nil (by decide) s
  unfold parseHexWord
  rw [if_neg notEmpty]
  by_cases empty : bytes = []
  · have length := hex.length_eq
    have nothing : s = [] := List.eq_nil_of_length_eq_zero (by rw [length, empty]; rfl)
    rw [nothing, List.append_nil, if_pos rfl, empty]
    rfl
  · have some : s ≠ [] := by
      rintro rfl
      cases hex
      exact empty rfl
    have longer : str "0x" ++ s ≠ str "0x" := by simpa using some
    rw [if_neg longer, replaceAll_prefix (no_x_of_hex hex), string2Base_hex hex empty]

/-! ## Round trips -/

/-- A negative number has no unsigned bytes. -/
theorem unparseData_negative {data : ℤ} (negative : data < 0) (length : ℤ) : unparseData data length = none := by
  have none : asByteStack data = none := by
    unfold asByteStack int2BytesUnsignedBE
    rw [if_neg (by omega), if_neg (by omega)]
  rw [unparseData, none]
  rfl

/-- The string of a number that fits. -/
theorem unparseData_eq {data width : ℕ} (fits : data < 256 ^ width) :
    unparseData data width = some (str "0x" ++ hexEncodeData (digitsBE 8 width data)) := by
  obtain ⟨bytes, stack, padded⟩ := padToWidth_asByteStack fits
  rw [unparseData, stack]
  change unparseDataBytes (padToWidth width bytes) = _
  rw [padded, unparseDataBytes_eq]

/-- **Hex strings are read back.** `hexEncode` writes two lower-case digits for each
byte, and the bytes are read back; `#unparseData` of a number that fits its width has
a value when the number is not negative, and the number and its bytes are read back. -/
theorem hex_round_trips :
    (∀ (σ : KHeap) (b : Bytes),
      (contents (hexEncode σ b).2 (hexEncode σ b).1).length = 2 * b.length ∧
      (∀ c ∈ contents (hexEncode σ b).2 (hexEncode σ b).1, ∃ d, c = ascii (hexAlphabet d)) ∧
      parseByteStack (contents (hexEncode σ b).2 (hexEncode σ b).1) = some b ∧
      parseByteStack (str "0x" ++ contents (hexEncode σ b).2 (hexEncode σ b).1) = some b) ∧
    ∀ (data : ℤ) (width : ℕ), data < 256 ^ width →
      ((∃ s, unparseData data width = some s) ↔ 0 ≤ data) ∧
      ∀ s, unparseData data width = some s →
        parseHexWord s = some data ∧ parseByteStack s = some (digitsBE 8 width data.toNat) := by
  constructor
  · intro σ b
    have read := parseByteStack_hex (hexDigits_hexEncodeData b)
    rw [contents_hexEncode]
    exact ⟨length_hexEncodeData b, fun _ => mem_hexEncodeData, read.1, read.2⟩
  · intro data width fits
    by_cases negative : data < 0
    · rw [unparseData_negative negative]
      constructor
      · simpa using negative
      · rintro s ⟨⟩
    · obtain ⟨n, rfl⟩ := Int.eq_ofNat_of_zero_le (not_lt.mp negative)
      have small : n < 256 ^ width := by exact_mod_cast fits
      have hex := hexDigits_hexEncodeData (digitsBE 8 width n)
      have number : valueBE (digitsBE 8 width n) = n := valueBE_digitsBE_of_lt small
      rw [unparseData_eq small]
      constructor
      · exact iff_of_true ⟨_, rfl⟩ (Int.natCast_nonneg n)
      · intro s same
        cases same
        rw [parseHexWord_prefixed hex, number, Int.toNat_natCast]
        exact ⟨rfl, (parseByteStack_hex hex).2⟩

/-- The empty string, and an address with leading zeros in 20 bytes. -/
theorem hex_round_trips_address :
    parseByteStack (contents (hexEncode [] []).2 (hexEncode [] []).1) = some [] ∧
    ∃ s, unparseData 0x1642 20 = some s ∧ parseHexWord s = some 0x1642 ∧
      parseByteStack s = some (digitsBE 8 20 (0x1642 : ℤ).toNat) := by
  obtain ⟨encoded, unparsed⟩ := hex_round_trips
  have address := unparsed 0x1642 20 (by decide)
  obtain ⟨s, value⟩ := address.1.mpr (by decide)
  exact ⟨(encoded [] []).2.2.1, s, value, address.2 s value⟩

end KPlugin
