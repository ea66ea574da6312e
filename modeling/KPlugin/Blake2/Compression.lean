import Mathlib.Data.Fin.VecNotation
import Mathlib.Data.Fintype.Basic
import Mathlib.Tactic.FinCases
import KPlugin.Lib.Blocks
import KPlugin.Lib.Loop

/-!
# The Blake2b compression function F

What the two implementations are for, in its own terms. The working vector is
a 4×4 matrix of words stored by rows. A round mixes the four columns, then the
four diagonals, each column and each diagonal independently of the others; the
mixing function is the composition of two half steps that differ in their
message word and rotation distances only. Every step is invertible, so the
rounds are a permutation of the working vectors.
-/

namespace KPlugin.Blake2
open Blocks Loop

/-- The 64-bit words of the compression function. -/
abbrev Word := BitVec 64

/-- The working vector `v[0..15]`. -/
abbrev State := Fin 16 → Word

/-- The initialization vector. -/
def iv : Fin 8 → Word :=
  ![0x6A09E667F3BCC908, 0xBB67AE8584CAA73B, 0x3C6EF372FE94F82B, 0xA54FF53A5F1D36F1,
    0x510E527FADE682D1, 0x9B05688C2B3E6C1F, 0x1F83D9ABFB41BD6B, 0x5BE0CD19137E2179]

/-- The message schedule: round `n` reads message word `schedule (n % 10) k` as its `k`-th word. -/
def schedule : Fin 10 → Fin 16 → Fin 16 :=
  ![![ 0,  1,  2,  3,  4,  5,  6,  7,  8,  9, 10, 11, 12, 13, 14, 15],
    ![14, 10,  4,  8,  9, 15, 13,  6,  1, 12,  0,  2, 11,  7,  5,  3],
    ![11,  8, 12,  0,  5,  2, 15, 13, 10, 14,  3,  6,  7,  1,  9,  4],
    ![ 7,  9,  3,  1, 13, 12, 11, 14,  2,  6,  5, 10,  4,  0, 15,  8],
    ![ 9,  0,  5,  7,  2,  4, 10, 15, 14,  1, 11, 12,  6,  8,  3, 13],
    ![ 2, 12,  6, 10,  0, 11,  8,  3,  4, 13,  7,  5, 15, 14,  1,  9],
    ![12,  5,  1, 15, 14, 13,  4, 10,  0,  7,  6,  3,  9,  2,  8, 11],
    ![13, 11,  7, 14, 12,  1,  3,  9,  5,  0, 15,  4,  8,  6,  2, 10],
    ![ 6, 15, 14,  9, 11,  3,  0,  8, 12,  2, 13,  7,  1,  4, 10,  5],
    ![10,  2,  8,  4,  7,  6,  1,  5, 15, 11,  9, 14,  3, 12, 13,  0]]

/-- Column `j` of the matrix holds the positions `j, 4 + j, 8 + j, 12 + j`. -/
def columns : Fin 4 × Fin 4 ≃ Fin 16 where
  toFun p := ⟨4 * p.2 + p.1, by omega⟩
  invFun i := (⟨i % 4, by omega⟩, ⟨i / 4, by omega⟩)
  left_inv := by rintro ⟨j, r⟩; revert j r; decide
  right_inv := by intro i; revert i; decide

/-- Diagonal `j` starts in column `j` and moves one column to the right in each row. -/
def diagonals : Fin 4 × Fin 4 ≃ Fin 16 where
  toFun p := ⟨4 * p.2 + (p.1 + p.2 : Fin 4), by omega⟩
  invFun i := ((⟨i % 4, by omega⟩ : Fin 4) - ⟨i / 4, by omega⟩, ⟨i / 4, by omega⟩)
  left_inv := by rintro ⟨j, r⟩; revert j r; decide
  right_inv := by intro i; revert i; decide

/-- Half of the mixing function: message word `x`, rotation distances `r` and `s`. -/
def half (x : Word) (r s : ℕ) (q : Fin 4 → Word) : Fin 4 → Word :=
  let a := q 0 + q 1 + x
  let d := (q 3 ^^^ a).rotateRight r
  let c := q 2 + d
  let b := (q 1 ^^^ c).rotateRight s
  ![a, b, c, d]

/-- The mixing function on one column or diagonal. -/
def mix (x y : Word) (q : Fin 4 → Word) : Fin 4 → Word :=
  half y 16 63 (half x 32 24 q)

/-- The schedule's places for column `j`. -/
def columnX (j : Fin 4) : Fin 16 := ⟨2 * j, by omega⟩

def columnY (j : Fin 4) : Fin 16 := ⟨2 * j + 1, by omega⟩

/-- The schedule's places for diagonal `j`. -/
def diagonalX (j : Fin 4) : Fin 16 := ⟨8 + 2 * j, by omega⟩

def diagonalY (j : Fin 4) : Fin 16 := ⟨8 + 2 * j + 1, by omega⟩

/-- One round on the schedule's sixteen words `w`. -/
def round (w : Fin 16 → Word) (v : State) : State :=
  stepAll diagonals (fun j => mix (w (diagonalX j)) (w (diagonalY j)))
    (stepAll columns (fun j => mix (w (columnX j)) (w (columnY j))) v)

/-- The words round `n` reads from the message block `m`. -/
def scheduled (m : Fin 16 → Word) (n : ℕ) : Fin 16 → Word :=
  fun k => m (schedule (Fin.ofNat 10 n) k)

/-- Rounds `0` to `n - 1`. -/
def rounds (m : Fin 16 → Word) (n : ℕ) : State → State :=
  forRange n fun i => round (scheduled m i)

/-- What the counter and the final flag change in the initialization vector. -/
def tweak (t : Fin 2 → Word) (final : Bool) : Fin 8 → Word :=
  ![0, 0, 0, 0, t 0, t 1, if final then BitVec.allOnes 64 else 0, 0]

/-- The lower half of the initial working vector. -/
def initLow (t : Fin 2 → Word) (final : Bool) : Fin 8 → Word :=
  fun i => iv i ^^^ tweak t final i

/-- The working vector with upper half `u` and lower half `l`. -/
def joinHalves (u l : Fin 8 → Word) : State :=
  fun i => if lt : i.val < 8 then u ⟨i, lt⟩ else l ⟨i - 8, by omega⟩

def upperHalf (v : State) : Fin 8 → Word := fun i => v ⟨i, by omega⟩

def lowerHalf (v : State) : Fin 8 → Word := fun i => v ⟨i + 8, by omega⟩

/-- **The compression function**: chaining value `h`, message block `m`,
counter `t`, final flag and `n` rounds. -/
def F (h : Fin 8 → Word) (m : Fin 16 → Word) (t : Fin 2 → Word) (final : Bool) (n : ℕ) : Fin 8 → Word :=
  let v := rounds m n (joinHalves h (initLow t final))
  fun i => h i ^^^ upperHalf v i ^^^ lowerHalf v i

/-! ## Invertibility -/

/-- The inverse of `half`. -/
def unhalf (x : Word) (r s : ℕ) (q : Fin 4 → Word) : Fin 4 → Word :=
  let b := (q 1).rotateLeft s ^^^ q 2
  let c := q 2 - q 3
  let d := (q 3).rotateLeft r ^^^ q 0
  let a := q 0 - b - x
  ![a, b, c, d]

/-- The inverse of `mix`. -/
def unmix (x y : Word) (q : Fin 4 → Word) : Fin 4 → Word :=
  unhalf x 32 24 (unhalf y 16 63 q)

/-- The inverse of `round`. -/
def unround (w : Fin 16 → Word) (v : State) : State :=
  stepAll columns (fun j => unmix (w (columnX j)) (w (columnY j)))
    (stepAll diagonals (fun j => unmix (w (diagonalX j)) (w (diagonalY j))) v)

/-- Rounds `n - 1` down to `0`, each undone. -/
def unrounds (m : Fin 16 → Word) (n : ℕ) : State → State :=
  forRangeDown n fun i => unround (scheduled m i)

theorem rotateLeft_rotateRight (x : Word) {r : ℕ} (bound : r < 64) : (x.rotateRight r).rotateLeft r = x := by
  ext i hi
  simp only [BitVec.getElem_rotateLeft, BitVec.getElem_rotateRight, Nat.mod_eq_of_lt bound]
  by_cases low : i < r
  · rw [dif_pos low, dif_neg (by omega)]
    congr 1
    omega
  · rw [dif_neg low, dif_pos (by omega)]
    congr 1
    omega

theorem rotateRight_rotateLeft (x : Word) {r : ℕ} (bound : r < 64) : (x.rotateLeft r).rotateRight r = x := by
  ext i hi
  simp only [BitVec.getElem_rotateLeft, BitVec.getElem_rotateRight, Nat.mod_eq_of_lt bound]
  by_cases low : i < 64 - r
  · rw [dif_pos low, dif_neg (by omega)]
    congr 1
    omega
  · rw [dif_neg low, dif_pos (by omega)]
    congr 1
    omega

/-- Four words are determined by their places. -/
theorem ext4 {q q' : Fin 4 → Word} (h0 : q 0 = q' 0) (h1 : q 1 = q' 1) (h2 : q 2 = q' 2) (h3 : q 3 = q' 3) :
    q = q' := by
  funext k
  fin_cases k
  · exact h0
  · exact h1
  · exact h2
  · exact h3

theorem xor_cancel (a b : Word) : a ^^^ b ^^^ b = a := by
  rw [BitVec.xor_assoc, BitVec.xor_self, BitVec.xor_zero]

theorem unhalf_half (x : Word) {r s : ℕ} (hr : r < 64) (hs : s < 64) (q : Fin 4 → Word) :
    unhalf x r s (half x r s q) = q := by
  apply ext4 <;>
    simp only [unhalf, half, Matrix.cons_val, rotateLeft_rotateRight _ hr, rotateLeft_rotateRight _ hs, xor_cancel]
  · bv_omega
  · bv_omega

theorem half_unhalf (x : Word) {r s : ℕ} (hr : r < 64) (hs : s < 64) (q : Fin 4 → Word) :
    half x r s (unhalf x r s q) = q := by
  have a : ∀ a b : Word, a - b - x + b + x = a := by
    intro a b
    bv_omega
  have c : ∀ c d : Word, c - d + d = c := by
    intro c d
    bv_omega
  apply ext4 <;>
    simp only [unhalf, half, Matrix.cons_val, a, c, xor_cancel, rotateRight_rotateLeft _ hr,
      rotateRight_rotateLeft _ hs]

theorem unmix_mix (x y : Word) : Function.LeftInverse (unmix x y) (mix x y) := by
  intro q
  rw [unmix, mix, unhalf_half y (by decide) (by decide), unhalf_half x (by decide) (by decide)]

theorem mix_unmix (x y : Word) : Function.RightInverse (unmix x y) (mix x y) := by
  intro q
  rw [unmix, mix, half_unhalf x (by decide) (by decide), half_unhalf y (by decide) (by decide)]

theorem unround_round (w : Fin 16 → Word) : Function.LeftInverse (unround w) (round w) := by
  intro v
  rw [unround, round, stepAll_leftInverse diagonals (fun j => unmix_mix _ _),
    stepAll_leftInverse columns (fun j => unmix_mix _ _)]

theorem round_unround (w : Fin 16 → Word) : Function.RightInverse (unround w) (round w) := by
  intro v
  rw [unround, round, stepAll_leftInverse columns (fun j => mix_unmix _ _),
    stepAll_leftInverse diagonals (fun j => mix_unmix _ _)]

/-- **The rounds are a permutation** of the working vectors. -/
def roundsPerm (m : Fin 16 → Word) (n : ℕ) : Equiv.Perm State where
  toFun := rounds m n
  invFun := unrounds m n
  left_inv := forRangeDown_leftInverse (fun _ => unround_round _) n
  right_inv := forRangeDown_rightInverse (fun _ => round_unround _) n

/-! ## Fixed points -/

theorem joinHalves_upper_lower (v : State) : joinHalves (upperHalf v) (lowerHalf v) = v := by
  funext i
  by_cases lt : i.val < 8
  · simp [joinHalves, lt, upperHalf]
  · simp only [joinHalves, lt, dite_false, lowerHalf]
    congr 1
    ext
    simp only
    omega

@[simp] theorem upperHalf_joinHalves (u l : Fin 8 → Word) : upperHalf (joinHalves u l) = u := by
  funext i
  simp [upperHalf, joinHalves]

@[simp] theorem lowerHalf_joinHalves (u l : Fin 8 → Word) : lowerHalf (joinHalves u l) = l := by
  funext i
  simp [lowerHalf, joinHalves]

/-- A word is kept by the final xor exactly when the two halves agree there. -/
theorem xor_xor_eq_self_iff (h u l : Word) : h ^^^ u ^^^ l = h ↔ u = l := by
  constructor
  · intro kept
    have cancel := congrArg (fun x => h ^^^ x) kept
    simpa [← BitVec.xor_assoc] using cancel
  · rintro rfl
    exact xor_cancel h u

/-- **Fixed points run backwards**: `F` keeps the chaining value exactly when
the initial working vector comes, by undoing the rounds, from a vector with two
equal halves. -/
theorem F_eq_self_iff (h : Fin 8 → Word) (m : Fin 16 → Word) (t : Fin 2 → Word) (final : Bool) (n : ℕ) :
    F h m t final n = h ↔ ∃ u, unrounds m n (joinHalves u u) = joinHalves h (initLow t final) := by
  have forward : F h m t final n = h ↔
      upperHalf (rounds m n (joinHalves h (initLow t final))) =
        lowerHalf (rounds m n (joinHalves h (initLow t final))) := by
    simp only [F, funext_iff, xor_xor_eq_self_iff]
  rw [forward]
  constructor
  · intro equal
    let v := rounds m n (joinHalves h (initLow t final))
    have halves : joinHalves (upperHalf v) (upperHalf v) = v :=
      calc joinHalves (upperHalf v) (upperHalf v)
          = joinHalves (upperHalf v) (lowerHalf v) := congrArg (joinHalves (upperHalf v)) equal
        _ = v := joinHalves_upper_lower v
    exact ⟨upperHalf v, by rw [halves]; exact (roundsPerm m n).symm_apply_apply _⟩
  · rintro ⟨u, origin⟩
    have run : rounds m n (joinHalves h (initLow t final)) = joinHalves u u := by
      rw [← origin]
      exact (roundsPerm m n).apply_symm_apply _
    rw [run, upperHalf_joinHalves, lowerHalf_joinHalves]

end KPlugin.Blake2
