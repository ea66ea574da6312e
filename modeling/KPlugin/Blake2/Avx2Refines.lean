import KPlugin.Blake2.Avx2

/-!
# The vector implementation computes F

The rows are the working vector (`Rows.state`). A half step on the registers is
the half step of `mix` on every column at once; after the diagonalisation the
columns of the registers are the diagonals of the working vector, so a vector
round is `round` on the words its four loads deliver. The loads deliver the
schedule, from the macros as from the table.
-/

namespace KPlugin.Blake2
open Blocks Loop Avx2

/-- The working vector held in four registers. -/
def Rows.state (s : Rows) : State :=
  fun i => ((![s.a, s.b, s.c, s.d] : Fin 4 → M256i) (columns.symm i).2).get (columns.symm i).1

/-- Lane `j` of the registers is column `j`. -/
theorem block_columns (s : Rows) (j : Fin 4) : block columns s.state j =
    ![s.a.get j, s.b.get j, s.c.get j, s.d.get j] := by
  funext r
  fin_cases r <;> fin_cases j <;> rfl

/-- Diagonal `j` starts in row `a` at lane `j`. -/
theorem block_diagonals (s : Rows) (j : Fin 4) :
    block diagonals s.state j = ![s.a.get j, s.b.get (j + 1), s.c.get (j + 2), s.d.get (j + 3)] := by
  funext r
  fin_cases r <;> fin_cases j <;> rfl

/-! ## Half steps -/

theorem rot32_lane (x : M256i) (j : Fin 4) : (rot32 x).get j = (x.get j).rotateRight 32 := by
  rw [rot32, shuffleEpi32_2301, get_ofFn]

theorem rot24_lane (x : M256i) (j : Fin 4) : (rot24 x).get j = (x.get j).rotateRight 24 := by
  rw [rot24, rotate24, shuffleEpi8_rotate x (n := 3) (by decide) (by decide), get_ofFn]

theorem rot16_lane (x : M256i) (j : Fin 4) : (rot16 x).get j = (x.get j).rotateRight 16 := by
  rw [rot16, rotate16, shuffleEpi8_rotate x (n := 2) (by decide) (by decide), get_ofFn]

theorem rot63_lane (x : M256i) (j : Fin 4) : (rot63 x).get j = (x.get j).rotateRight 63 := by
  have double : x.get j + x.get j = x.get j <<< 1 := by
    apply BitVec.eq_of_toNat_eq
    rw [BitVec.toNat_add, BitVec.toNat_shiftLeft, Nat.shiftLeft_eq]
    omega
  rw [BitVec.rotateRight_def]
  simp only [rot63, orSi256, srliEpi64, addEpi64, get_ofFn, double]

/-- `BLAKE2B_G1_V1` is the first half step on every column. -/
theorem blake2bG1V1_state (s : Rows) (m : M256i) :
    (blake2bG1V1 s m).state = stepAll columns (fun j => half (m.get j) 32 24) s.state := by
  have order : ∀ a x b : Word, a + x + b = a + b + x := fun a x b => by bv_omega
  apply ext_block (P := columns)
  intro j
  rw [block_stepAll, block_columns, block_columns]
  simp only [blake2bG1V1, rot32_lane, rot24_lane, addEpi64, xorSi256, get_ofFn, order _ (m.get j)]
  rfl

/-- `BLAKE2B_G2_V1` is the second half step on every column. -/
theorem blake2bG2V1_state (s : Rows) (m : M256i) :
    (blake2bG2V1 s m).state = stepAll columns (fun j => half (m.get j) 16 63) s.state := by
  have order : ∀ a x b : Word, a + x + b = a + b + x := fun a x b => by bv_omega
  apply ext_block (P := columns)
  intro j
  rw [block_stepAll, block_columns, block_columns]
  simp only [blake2bG2V1, rot16_lane, rot63_lane, addEpi64, xorSi256, get_ofFn, order _ (m.get j)]
  rfl

/-- Both half steps mix every column. -/
theorem mixColumns_state (s : Rows) (x y : M256i) :
    (blake2bG2V1 (blake2bG1V1 s x) y).state = stepAll columns (fun j => mix (x.get j) (y.get j)) s.state := by
  rw [blake2bG2V1_state, blake2bG1V1_state, stepAll_stepAll]
  rfl

/-! ## Diagonalisation -/

/-- After `BLAKE2B_DIAG_V1` lane `j` of the registers is diagonal `j - 1`. -/
theorem block_diag (s : Rows) (j : Fin 4) :
    block columns (blake2bDiagV1 s).state (j + 1) = block diagonals s.state j := by
  rw [block_columns, block_diagonals, blake2bDiagV1, permute4x64Epi64_2103, permute4x64Epi64_0321,
    permute4x64Epi64_1032]
  fin_cases j <;> rfl

theorem block_undiag (s : Rows) (j : Fin 4) :
    block diagonals (blake2bUndiagV1 s).state j = block columns s.state (j + 1) := by
  rw [block_columns, block_diagonals, blake2bUndiagV1, permute4x64Epi64_2103, permute4x64Epi64_0321,
    permute4x64Epi64_1032]
  fin_cases j <;> rfl

/-- Mixing the columns between the two permutations mixes the diagonals. -/
theorem mixDiagonals_state (s : Rows) (x y : M256i) :
    (blake2bUndiagV1 (blake2bG2V1 (blake2bG1V1 (blake2bDiagV1 s) x) y)).state =
      stepAll diagonals (fun j => mix (x.get (j + 1)) (y.get (j + 1))) s.state := by
  apply ext_block (P := diagonals)
  intro j
  rw [block_undiag, mixColumns_state, block_stepAll, block_diag, block_stepAll]

/-! ## Loads -/

/-- The schedule word that lane `j` of load `k` adds. -/
def loadOrder (k j : Fin 4) : Fin 16 :=
  ![columnX j, columnY j, diagonalX (j + 3), diagonalY (j + 3)] k

/-- **A vector round is a round of F** when its loads follow the schedule. -/
theorem blake2bRoundV1_state (w : Fin 16 → Word) {load : Fin 4 → M256i}
    (loads : ∀ k j, (load k).get j = w (loadOrder k j)) (s : Rows) :
    (blake2bRoundV1 load s).state = round w s.state := by
  simp only [blake2bRoundV1, mixDiagonals_state, mixColumns_state, loads]
  have column : ∀ j : Fin 4, j + 1 + 3 = j := by decide
  rw [round]
  congr 1
  funext j
  simp only [loadOrder, Matrix.cons_val, column]

/-- The table `indices` is the schedule in load order. -/
theorem indices_eq (r : Fin 10) (k j : Fin 4) :
    indices ⟨r, by omega⟩ (columns (j, k)) = schedule r (loadOrder k j) := by
  revert r k j
  decide

/-- The forty macros load the schedule. -/
theorem blake2bLoadMsg_eq (m : Vector Word 16) (r : Fin 10) (k j : Fin 4) :
    (blake2bLoadMsg r k (broadcastMsg m)).get j = m.get (schedule r (loadOrder k j)) := by
  revert j
  refine congrFun (?_ : _ = fun j => m.get (schedule r (loadOrder k j)))
  fin_cases r <;> fin_cases k <;>
  · simp only [blake2bLoadMsg, Matrix.cons_val, Fin.zero_eta, Fin.mk_one, Fin.reduceFinMk,
    blake2bLoadMsg_0_1, blake2bLoadMsg_0_2, blake2bLoadMsg_0_3, blake2bLoadMsg_0_4, blake2bLoadMsg_1_1,
    blake2bLoadMsg_1_2, blake2bLoadMsg_1_3, blake2bLoadMsg_1_4, blake2bLoadMsg_2_1, blake2bLoadMsg_2_2,
    blake2bLoadMsg_2_3, blake2bLoadMsg_2_4, blake2bLoadMsg_3_1, blake2bLoadMsg_3_2, blake2bLoadMsg_3_3,
    blake2bLoadMsg_3_4, blake2bLoadMsg_4_1, blake2bLoadMsg_4_2, blake2bLoadMsg_4_3, blake2bLoadMsg_4_4,
    blake2bLoadMsg_5_1, blake2bLoadMsg_5_2, blake2bLoadMsg_5_3, blake2bLoadMsg_5_4, blake2bLoadMsg_6_1,
    blake2bLoadMsg_6_2, blake2bLoadMsg_6_3, blake2bLoadMsg_6_4, blake2bLoadMsg_7_1, blake2bLoadMsg_7_2,
    blake2bLoadMsg_7_3, blake2bLoadMsg_7_4, blake2bLoadMsg_8_1, blake2bLoadMsg_8_2, blake2bLoadMsg_8_3,
    blake2bLoadMsg_8_4, blake2bLoadMsg_9_1, blake2bLoadMsg_9_2, blake2bLoadMsg_9_3, blake2bLoadMsg_9_4,
      blendEpi32_F0, blendEpi32_33, alignrEpi8_8, shuffleEpi32_1032, unpackloEpi64, unpackhiEpi64,
      broadcastMsg, broadcastsi128]
    apply ext4 <;> rfl

/-! ## The two loops -/

theorem scheduled_add (m : Fin 16 → Word) (i n : ℕ) : scheduled m (i * 10 + n) = scheduled m n := by
  have same : Fin.ofNat 10 (i * 10 + n) = Fin.ofNat 10 n := by
    apply Fin.ext
    change (i * 10 + n) % 10 = n % 10
    omega
  unfold scheduled
  rw [same]

theorem ofNat_of_lt {i : ℕ} (bound : i < 10) : Fin.ofNat 10 i = ⟨i, bound⟩ := Fin.ext (Nat.mod_eq_of_lt bound)

theorem macroRound_state (m : Vector Word 16) (r : Fin 10) (s : Rows) :
    (blake2bRoundV1 (fun k => blake2bLoadMsg r k (broadcastMsg m)) s).state = round (scheduled m.get r) s.state := by
  apply blake2bRoundV1_state
  intro k j
  rw [blake2bLoadMsg_eq]
  unfold scheduled
  rw [ofNat_of_lt r.isLt]

/-- One pass of the first loop is ten rounds. -/
theorem tenRounds_state (m : Vector Word 16) (i : ℕ) (s : Rows) :
    (tenRounds (broadcastMsg m) s).state = forRange 10 (fun n => round (scheduled m.get (i * 10 + n))) s.state := by
  simp only [tenRounds, macroRound_state, scheduled_add, forRange]
  rfl

/-- One pass of the second loop is one round, for an index below 10. -/
theorem tailRound_state (m : Vector Word 16) {i : ℕ} (bound : i < 10) (s : Rows) :
    (tailRound m i s).state = round (scheduled m.get i) s.state := by
  apply blake2bRoundV1_state
  intro k j
  have index : (⟨i % 12, Nat.mod_lt _ (by decide)⟩ : Fin 12) = ⟨i, by omega⟩ := by
    ext
    simp only
    omega
  simp only [blake2bLoadMsg_i, i32gatherEpi64, get_ofFn, index, scheduled, ofNat_of_lt bound]
  exact congrArg m.get (indices_eq ⟨i, bound⟩ k j)

/-- The second loop runs the remaining rounds. -/
theorem tailLoop_state (m : Vector Word 16) {n : ℕ} (bound : n ≤ 10) (s : Rows) :
    (forRange n (tailRound m) s).state = forRange n (fun i => round (scheduled m.get i)) s.state := by
  induction n with
  | zero => rfl
  | succ n ih => rw [forRange_succ, forRange_succ, tailRound_state m (by omega), ih (by omega)]

/-- **The two loops run all the rounds in order.** -/
theorem loops_state (m : Vector Word 16) (n : ℕ) (s : Rows) :
    (forRange (n % 10) (tailRound m) (forRange (n / 10) (fun _ => tenRounds (broadcastMsg m)) s)).state =
      rounds m.get n s.state := by
  have tens : (forRange (n / 10) (fun _ => tenRounds (broadcastMsg m)) s).state =
      forRange (n / 10 * 10) (fun i => round (scheduled m.get i)) s.state := by
    rw [forRange_mul]
    exact forRange_simulates (R := fun (r : Rows) v => r.state = v)
      (fun i r v same => by rw [tenRounds_state m i, same]) (n / 10) rfl
  have split : n = n / 10 * 10 + n % 10 := by omega
  rw [tailLoop_state m (by omega), tens, rounds]
  conv_rhs => rw [split, forRange_add]
  simp only [scheduled_add]

theorem upperHalf_state (s : Rows) :
    upperHalf s.state = ![s.a.get 0, s.a.get 1, s.a.get 2, s.a.get 3, s.b.get 0, s.b.get 1, s.b.get 2, s.b.get 3] := by
  funext i
  fin_cases i <;> rfl

theorem lowerHalf_state (s : Rows) :
    lowerHalf s.state = ![s.c.get 0, s.c.get 1, s.c.get 2, s.c.get 3, s.d.get 0, s.d.get 1, s.d.get 2, s.d.get 3] := by
  funext i
  fin_cases i <;> rfl

/-- The rows `h`, `k` with the last row xored by four words. The constants are
a variable here: as literals they would be evaluated bit by bit. -/
theorem rows_state (h k : Fin 8 → Word) (x y z : Word) :
    (⟨#v[h 0, h 1, h 2, h 3], #v[h 4, h 5, h 6, h 7], #v[k 0, k 1, k 2, k 3],
      xorSi256 #v[k 4, k 5, k 6, k 7] (setEpi64x 0 z y x)⟩ : Rows).state =
      joinHalves h (fun i => k i ^^^ ![0, 0, 0, 0, x, y, z, 0] i) := by
  rw [← joinHalves_upper_lower (Rows.state _), upperHalf_state, lowerHalf_state]
  congr 1
  · funext i
    fin_cases i <;> rfl
  · funext i
    simp only [xorSi256, setEpi64x, get_lanes, get_ofFn]
    fin_cases i <;> simp

/-- The registers before the loops hold the initial working vector. -/
theorem avx2Init_state (h : Vector Word 8) (t : Vector Word 2) (f : BitVec 8) :
    (⟨#v[h.get 0, h.get 1, h.get 2, h.get 3], #v[h.get 4, h.get 5, h.get 6, h.get 7],
      #v[blake2bIv 0, blake2bIv 1, blake2bIv 2, blake2bIv 3],
      xorSi256 #v[blake2bIv 4, blake2bIv 5, blake2bIv 6, blake2bIv 7]
        (setEpi64x 0 (if f ≠ 0 then 0xFFFFFFFFFFFFFFFF else 0) (t.get 1) (t.get 0))⟩ : Rows).state =
      joinHalves h.get (initLow t.get (f != 0)) := by
  have mask : (if f ≠ 0 then 0xFFFFFFFFFFFFFFFF else 0 : Word) =
      if (f != 0) = true then BitVec.allOnes 64 else 0 := by
    by_cases final : f = 0#8 <;> simp [final]
  rw [rows_state, mask, blake2bIv_eq]
  rfl

/-- **The vector implementation computes F.** -/
theorem avx2_eq_F (h : Vector Word 8) (m : Vector Word 16) (t : Vector Word 2) (f : BitVec 8) (n : BitVec 32) :
    (blake2bCompressAvx2 h m t f n).get = F h.get m.get t.get (f != 0) n.toNat := by
  let start : Rows := ⟨#v[h.get 0, h.get 1, h.get 2, h.get 3], #v[h.get 4, h.get 5, h.get 6, h.get 7],
    #v[blake2bIv 0, blake2bIv 1, blake2bIv 2, blake2bIv 3],
    xorSi256 #v[blake2bIv 4, blake2bIv 5, blake2bIv 6, blake2bIv 7]
      (setEpi64x 0 (if f ≠ 0 then 0xFFFFFFFFFFFFFFFF else 0) (t.get 1) (t.get 0))⟩
  let s := forRange (n.toNat % 10) (tailRound m)
    (forRange (n.toNat / 10) (fun _ => tenRounds (broadcastMsg m)) start)
  have final : s.state = rounds m.get n.toNat (joinHalves h.get (initLow t.get (f != 0))) := by
    rw [← avx2Init_state]
    exact loops_state m n.toNat start
  have stored : ∀ i, (blake2bCompressAvx2 h m t f n).get i =
      upperHalf s.state i ^^^ lowerHalf s.state i ^^^ h.get i := by
    intro i
    rw [upperHalf_state, lowerHalf_state]
    fin_cases i <;> rfl
  funext i
  rw [stored, final, BitVec.xor_comm, ← BitVec.xor_assoc]
  rfl

end KPlugin.Blake2
