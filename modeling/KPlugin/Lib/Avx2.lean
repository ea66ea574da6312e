import Mathlib.Data.Fin.VecNotation
import Mathlib.Data.Fintype.Basic
import Mathlib.Tactic.FinCases
import Mathlib.Tactic.IntervalCases
import KPlugin.Lib.Blocks

/-!
# 256-bit vectors and their lane operations

A vector is four 64-bit lanes, the lowest first; 32-bit and 8-bit elements are
read out of the lanes in little-endian order. Each operation is given by the
element it moves, at the granularity at which the instruction is specified. The
lemmas below it say what it does to whole 64-bit lanes for the immediates whose
elements move together.
-/

namespace Avx2
open Blocks

/-- `__m256i` as four 64-bit lanes. -/
abbrev M256i := Vector (BitVec 64) 4

/-- A 64-bit lane from its eight bytes. -/
def laneOfBytes (g : Fin 8 → BitVec 8) : BitVec 64 :=
  g 7 ++ g 6 ++ g 5 ++ g 4 ++ g 3 ++ g 2 ++ g 1 ++ g 0

def byteOfLane (x : BitVec 64) (k : Fin 8) : BitVec 8 := x.extractLsb' (8 * k) 8

/-- The `i`-th byte of a vector. -/
def byte (x : M256i) (i : Fin 32) : BitVec 8 := byteOfLane (x.get ⟨i / 8, by omega⟩) ⟨i % 8, by omega⟩

def ofBytes (f : Fin 32 → BitVec 8) : M256i := .ofFn fun j => laneOfBytes fun k => f ⟨8 * j + k, by omega⟩

/-- A 64-bit lane from its two halves. -/
def laneOfDwords (low high : BitVec 32) : BitVec 64 := high ++ low

/-- The `i`-th 32-bit element of a vector. -/
def dword (x : M256i) (i : Fin 8) : BitVec 32 := (x.get ⟨i / 2, by omega⟩).extractLsb' (32 * (i % 2)) 32

def ofDwords (f : Fin 8 → BitVec 32) : M256i :=
  .ofFn fun j => laneOfDwords (f ⟨2 * j, by omega⟩) (f ⟨2 * j + 1, by omega⟩)

/-- `_MM_SHUFFLE(z, y, x, w)`. -/
def mmShuffle (z y x w : ℕ) : ℕ := z <<< 6 ||| y <<< 4 ||| x <<< 2 ||| w

/-- `_mm256_add_epi64`. -/
def addEpi64 (a b : M256i) : M256i := .ofFn fun j => a.get j + b.get j

/-- `_mm256_xor_si256`. -/
def xorSi256 (a b : M256i) : M256i := .ofFn fun j => a.get j ^^^ b.get j

/-- `_mm256_or_si256`. -/
def orSi256 (a b : M256i) : M256i := .ofFn fun j => a.get j ||| b.get j

/-- `_mm256_srli_epi64`. -/
def srliEpi64 (a : M256i) (imm : ℕ) : M256i := .ofFn fun j => a.get j >>> imm

/-- `_mm256_unpacklo_epi64`: the low lanes of each 128-bit half, interleaved. -/
def unpackloEpi64 (a b : M256i) : M256i := #v[a.get 0, b.get 0, a.get 2, b.get 2]

/-- `_mm256_unpackhi_epi64`: the high lanes of each 128-bit half, interleaved. -/
def unpackhiEpi64 (a b : M256i) : M256i := #v[a.get 1, b.get 1, a.get 3, b.get 3]

/-- `_mm256_blend_epi32`: bit `i` of the immediate selects element `i` of `b`. -/
def blendEpi32 (a b : M256i) (imm : ℕ) : M256i :=
  ofDwords fun i => if imm.testBit i then dword b i else dword a i

/-- `_mm256_shuffle_epi32`: two bits of the immediate select an element of the same 128-bit half. -/
def shuffleEpi32 (a : M256i) (imm : ℕ) : M256i :=
  ofDwords fun i => dword a ⟨4 * (i / 4) + (imm >>> (2 * (i.val % 4))) % 4, by omega⟩

/-- `_mm256_shuffle_epi8`: each byte of `b` selects a byte of the same 128-bit half of `a`, or zero. -/
def shuffleEpi8 (a b : M256i) : M256i :=
  ofBytes fun i => if (byte b i).msb then 0 else byte a ⟨16 * (i / 16) + (byte b i).toNat % 16, by omega⟩

/-- `_mm256_alignr_epi8`: in each 128-bit half, `a` above `b` shifted down by `imm` bytes. -/
def alignrEpi8 (a b : M256i) (imm : ℕ) : M256i :=
  ofBytes fun i =>
    let k := i % 16 + imm
    if low : k < 16 then byte b ⟨16 * (i / 16) + k, by omega⟩
    else if high : k < 32 then byte a ⟨16 * (i / 16) + (k - 16), by omega⟩
    else 0

/-- `_mm256_permute4x64_epi64`. -/
def permute4x64Epi64 (a : M256i) (imm : ℕ) : M256i :=
  .ofFn fun j => a.get ⟨(imm >>> (2 * j.val)) % 4, Nat.mod_lt _ (by decide)⟩

/-- `_mm256_setr_epi8`: thirty-two bytes, the lowest first. -/
def setrEpi8 (e : Vector (BitVec 8) 32) : M256i := ofBytes e.get

/-- `_mm256_set_epi64x`: four lanes, the highest first. -/
def setEpi64x (e3 e2 e1 e0 : BitVec 64) : M256i := #v[e0, e1, e2, e3]

/-- `_mm256_broadcastsi128_si256` of the pair `lo, hi`. -/
def broadcastsi128 (lo hi : BitVec 64) : M256i := #v[lo, hi, lo, hi]

/-- `_mm256_i32gather_epi64` with scale 8: lane `j` is word `idx j` of the array. -/
def i32gatherEpi64 {n : ℕ} (base : Vector (BitVec 64) n) (idx : Fin 4 → Fin n) : M256i :=
  .ofFn fun j => base.get (idx j)

/-! ## Elements and lanes -/

/-- Bit `i` of a lane is bit `i % 8` of its byte `i / 8`. -/
theorem getLsbD_laneOfBytes (g : Fin 8 → BitVec 8) {i : ℕ} (hi : i < 64) :
    (laneOfBytes g).getLsbD i = (g ⟨i / 8, by omega⟩).getLsbD (i % 8) := by
  simp only [laneOfBytes, BitVec.getLsbD_append]
  interval_cases i <;> rfl

theorem laneOfBytes_byteOfLane (x : BitVec 64) : laneOfBytes (byteOfLane x) = x := by
  apply BitVec.eq_of_getLsbD_eq
  intro i hi
  rw [getLsbD_laneOfBytes _ hi, byteOfLane, BitVec.getLsbD_extractLsb']
  simp only [Nat.mod_lt i (show 8 > 0 by decide), decide_true, Bool.true_and]
  congr 1
  omega

/-- Bytes taken `n` places further on, wrapping around, rotate the lane. -/
theorem laneOfBytes_rotate (x : BitVec 64) {n : ℕ} (bound : n < 8) :
    laneOfBytes (fun k => byteOfLane x ⟨(k + n) % 8, Nat.mod_lt _ (by decide)⟩) = x.rotateRight (8 * n) := by
  apply BitVec.eq_of_getLsbD_eq
  intro i hi
  rw [getLsbD_laneOfBytes _ hi, byteOfLane, BitVec.getLsbD_extractLsb', BitVec.getLsbD_rotateRight]
  simp only [Nat.mod_lt i (show 8 > 0 by decide), decide_true, Bool.true_and, hi,
    Nat.mod_eq_of_lt (show 8 * n < 64 by omega)]
  by_cases low : i < 64 - 8 * n
  · simp only [low, decide_true, cond_true]
    congr 1
    omega
  · simp only [low, decide_false, cond_false]
    congr 1
    omega

theorem laneOfDwords_halves (x : BitVec 64) : laneOfDwords (x.extractLsb' 0 32) (x.extractLsb' 32 32) = x := by
  apply BitVec.eq_of_getLsbD_eq
  intro i hi
  simp only [laneOfDwords, BitVec.getLsbD_append, BitVec.getLsbD_extractLsb']
  by_cases low : i < 32
  · simp [low]
  · simp [low, show i - 32 < 32 by omega, show 32 + (i - 32) = i by omega]

/-- Exchanging the halves rotates the lane by 32. -/
theorem laneOfDwords_swap (x : BitVec 64) :
    laneOfDwords (x.extractLsb' 32 32) (x.extractLsb' 0 32) = x.rotateRight 32 := by
  apply BitVec.eq_of_getLsbD_eq
  intro i hi
  simp only [laneOfDwords, BitVec.getLsbD_append, BitVec.getLsbD_extractLsb', BitVec.getLsbD_rotateRight]
  by_cases low : i < 32
  · simp [low]
  · simp [low, hi, show i - 32 < 32 by omega]

theorem byteOfLane_laneOfBytes (g : Fin 8 → BitVec 8) (k : Fin 8) : byteOfLane (laneOfBytes g) k = g k := by
  apply BitVec.eq_of_getLsbD_eq
  intro i hi
  rw [byteOfLane, BitVec.getLsbD_extractLsb', getLsbD_laneOfBytes _ (by omega)]
  simp only [hi, decide_true, Bool.true_and, show (8 * k.val + i) / 8 = k by omega,
    show (8 * k.val + i) % 8 = i by omega]

@[simp] theorem byte_ofBytes (f : Fin 32 → BitVec 8) (i : Fin 32) : byte (ofBytes f) i = f i := by
  rw [byte, ofBytes, get_ofFn, byteOfLane_laneOfBytes]
  congr 1
  ext
  simp only
  omega

/-- A lane whose eight bytes are the bytes of `x` is `x`. -/
theorem ofBytes_lane {f : Fin 32 → BitVec 8} {j : Fin 4} {x : BitVec 64}
    (same : ∀ k : Fin 8, f ⟨8 * j + k, by omega⟩ = byteOfLane x k) : (ofBytes f).get j = x := by
  rw [ofBytes, get_ofFn, funext same, laneOfBytes_byteOfLane]

/-! ## Immediates that move whole lanes -/

/-- Four lanes are determined by their places. -/
theorem ext_lanes {x y : M256i} (h0 : x.get 0 = y.get 0) (h1 : x.get 1 = y.get 1) (h2 : x.get 2 = y.get 2)
    (h3 : x.get 3 = y.get 3) : x = y := by
  apply ext_get
  funext j
  fin_cases j
  · exact h0
  · exact h1
  · exact h2
  · exact h3

theorem get_lanes (a b c d : BitVec 64) : (#v[a, b, c, d] : M256i).get = ![a, b, c, d] := by
  funext j
  fin_cases j <;> rfl

theorem blendEpi32_F0 (a b : M256i) : blendEpi32 a b 0xF0 = #v[a.get 0, a.get 1, b.get 2, b.get 3] := by
  apply ext_lanes <;> exact laneOfDwords_halves _

theorem blendEpi32_33 (a b : M256i) : blendEpi32 a b 0x33 = #v[b.get 0, a.get 1, b.get 2, a.get 3] := by
  apply ext_lanes <;> exact laneOfDwords_halves _

theorem shuffleEpi32_1032 (a : M256i) : shuffleEpi32 a (mmShuffle 1 0 3 2) = #v[a.get 1, a.get 0, a.get 3, a.get 2] := by
  apply ext_lanes <;> exact laneOfDwords_halves _

theorem shuffleEpi32_2301 (a : M256i) : shuffleEpi32 a (mmShuffle 2 3 0 1) = .ofFn fun j => (a.get j).rotateRight 32 := by
  apply ext_lanes <;> exact laneOfDwords_swap _

theorem alignrEpi8_8 (a b : M256i) : alignrEpi8 a b 8 = #v[b.get 1, a.get 0, b.get 3, a.get 2] := by
  apply ext_lanes
  · refine ofBytes_lane (x := b.get 1) fun k => ?_
    fin_cases k <;> rfl
  · refine ofBytes_lane (x := a.get 0) fun k => ?_
    fin_cases k <;> rfl
  · refine ofBytes_lane (x := b.get 3) fun k => ?_
    fin_cases k <;> rfl
  · refine ofBytes_lane (x := a.get 2) fun k => ?_
    fin_cases k <;> rfl

theorem permute4x64Epi64_2103 (a : M256i) : permute4x64Epi64 a (mmShuffle 2 1 0 3) = .ofFn fun j => a.get (j + 3) := by
  apply ext_lanes <;> rfl

theorem permute4x64Epi64_1032 (a : M256i) : permute4x64Epi64 a (mmShuffle 1 0 3 2) = .ofFn fun j => a.get (j + 2) := by
  apply ext_lanes <;> rfl

theorem permute4x64Epi64_0321 (a : M256i) : permute4x64Epi64 a (mmShuffle 0 3 2 1) = .ofFn fun j => a.get (j + 1) := by
  apply ext_lanes <;> rfl

/-- A byte shuffle whose control wraps around inside each lane rotates the lanes. -/
theorem shuffleEpi8_rotate (a : M256i) {n : ℕ} (bound : n < 8) {control : Vector (BitVec 8) 32}
    (wraps : ∀ i, control.get i = BitVec.ofNat 8 (8 * (i % 16 / 8) + (i % 8 + n) % 8)) :
    shuffleEpi8 a (setrEpi8 control) = .ofFn fun j => (a.get j).rotateRight (8 * n) := by
  apply ext_get
  funext j
  rw [get_ofFn, ← laneOfBytes_rotate _ bound]
  refine ofBytes_lane fun k => ?_
  let v := 8 * ((8 * j.val + k.val) % 16 / 8) + ((8 * j.val + k.val) % 8 + n) % 8
  have small : v < 16 := by omega
  have select : byte (setrEpi8 control) ⟨8 * j + k, by omega⟩ = BitVec.ofNat 8 v := by
    rw [setrEpi8, byte_ofBytes, wraps]
  have plain : (BitVec.ofNat 8 v).msb = false := by
    rw [BitVec.msb_eq_decide, BitVec.toNat_ofNat, Nat.mod_eq_of_lt (by omega)]
    simp only [decide_eq_false_iff_not]
    omega
  have value : (BitVec.ofNat 8 v).toNat % 16 = v := by
    rw [BitVec.toNat_ofNat, Nat.mod_eq_of_lt (by omega : v < 2 ^ 8), Nat.mod_eq_of_lt small]
  rw [byteOfLane_laneOfBytes]
  simp only [select, plain, Bool.false_eq_true, if_false, value]
  rw [byte]
  congr 1
  · congr 1
    ext
    simp only [v]
    omega
  · ext
    simp only [v]
    omega

end Avx2
