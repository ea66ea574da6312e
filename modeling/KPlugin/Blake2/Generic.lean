import KPlugin.Blake2.Compression

/-!
# `blake2b_compress_generic`

The portable implementation: sixteen words in an array, mixed four at a time by
`B2B_G` at literal indices. One call of the macro on four distinct positions is
one `Blocks.stepAt`; the first four calls of a round touch the four columns, the
last four the four diagonals, so a round is `round` and the function is `F`.
-/

namespace KPlugin.Blake2
open Blocks Loop

/-- `ROTR64`. -/
def rotr64 (x : Word) (y : ℕ) : Word := (x >>> y) ^^^ (x <<< (64 - y))

/-- `B2B_G`, statement by statement. -/
def b2bG (a b c d : Fin 16) (x y : Word) (v : Vector Word 16) : Vector Word 16 :=
  let v := v.set a (v.get a + v.get b + x)
  let v := v.set d (rotr64 (v.get d ^^^ v.get a) 32)
  let v := v.set c (v.get c + v.get d)
  let v := v.set b (rotr64 (v.get b ^^^ v.get c) 24)
  let v := v.set a (v.get a + v.get b + y)
  let v := v.set d (rotr64 (v.get d ^^^ v.get a) 16)
  let v := v.set c (v.get c + v.get d)
  v.set b (rotr64 (v.get b ^^^ v.get c) 63)

/-- `blake2b_iv`. -/
def blake2bIv : Fin 8 → Word :=
  ![0x6A09E667F3BCC908, 0xBB67AE8584CAA73B, 0x3C6EF372FE94F82B, 0xA54FF53A5F1D36F1,
    0x510E527FADE682D1, 0x9B05688C2B3E6C1F, 0x1F83D9ABFB41BD6B, 0x5BE0CD19137E2179]

/-- `sigma[10][16]`. -/
def sigma : Fin 10 → Fin 16 → Fin 16 :=
  ![![0, 1, 2, 3, 4, 5, 6, 7, 8, 9, 10, 11, 12, 13, 14, 15],
    ![14, 10, 4, 8, 9, 15, 13, 6, 1, 12, 0, 2, 11, 7, 5, 3],
    ![11, 8, 12, 0, 5, 2, 15, 13, 10, 14, 3, 6, 7, 1, 9, 4],
    ![7, 9, 3, 1, 13, 12, 11, 14, 2, 6, 5, 10, 4, 0, 15, 8],
    ![9, 0, 5, 7, 2, 4, 10, 15, 14, 1, 11, 12, 6, 8, 3, 13],
    ![2, 12, 6, 10, 0, 11, 8, 3, 4, 13, 7, 5, 15, 14, 1, 9],
    ![12, 5, 1, 15, 14, 13, 4, 10, 0, 7, 6, 3, 9, 2, 8, 11],
    ![13, 11, 7, 14, 12, 1, 3, 9, 5, 0, 15, 4, 8, 6, 2, 10],
    ![6, 15, 14, 9, 11, 3, 0, 8, 12, 2, 13, 7, 1, 4, 10, 5],
    ![10, 2, 8, 4, 7, 6, 1, 5, 15, 11, 9, 14, 3, 12, 13, 0]]

/-- The body of the round loop. -/
def genericRound (m : Vector Word 16) (i : ℕ) (v : Vector Word 16) : Vector Word 16 :=
  let index := Fin.ofNat 10 i
  let v := b2bG 0 4 8 12 (m.get (sigma index 0)) (m.get (sigma index 1)) v
  let v := b2bG 1 5 9 13 (m.get (sigma index 2)) (m.get (sigma index 3)) v
  let v := b2bG 2 6 10 14 (m.get (sigma index 4)) (m.get (sigma index 5)) v
  let v := b2bG 3 7 11 15 (m.get (sigma index 6)) (m.get (sigma index 7)) v
  let v := b2bG 0 5 10 15 (m.get (sigma index 8)) (m.get (sigma index 9)) v
  let v := b2bG 1 6 11 12 (m.get (sigma index 10)) (m.get (sigma index 11)) v
  let v := b2bG 2 7 8 13 (m.get (sigma index 12)) (m.get (sigma index 13)) v
  b2bG 3 4 9 14 (m.get (sigma index 14)) (m.get (sigma index 15)) v

/-- The working vector before the rounds. -/
def genericInit (h : Vector Word 8) (t : Vector Word 2) (f : BitVec 8) : Vector Word 16 :=
  let v : Vector Word 16 := .ofFn (joinHalves h.get blake2bIv)
  let v := v.set 12 (v.get 12 ^^^ t.get 0)
  let v := v.set 13 (v.get 13 ^^^ t.get 1)
  if f ≠ 0 then v.set 14 (~~~ v.get 14) else v

/-- `blake2b_compress_generic`: what it leaves in `h`. -/
def blake2bCompressGeneric (h : Vector Word 8) (m : Vector Word 16) (t : Vector Word 2) (f : BitVec 8)
    (rounds : BitVec 32) : Vector Word 8 :=
  let v := forRange rounds.toNat (genericRound m) (genericInit h t f)
  .ofFn fun i => h.get i ^^^ (upperHalf v.get i ^^^ lowerHalf v.get i)

/-! ## One macro call is one block step -/

theorem rotr64_eq_rotateRight (x : Word) {y : ℕ} (pos : 0 < y) (bound : y < 64) : rotr64 x y = x.rotateRight y := by
  ext i hi
  simp only [rotr64, BitVec.getElem_xor, BitVec.getElem_ushiftRight, BitVec.getElem_shiftLeft,
    BitVec.getElem_rotateRight, Nat.mod_eq_of_lt bound]
  by_cases low : i < 64 - y
  · simp [low, BitVec.getLsbD_eq_getElem (show y + i < 64 by omega)]
  · simp [low, show 64 ≤ y + i by omega]

/-- On the four positions of an injective `p` the macro computes `mix`. -/
theorem b2bG_on {p : Fin 4 → Fin 16} (inj : Function.Injective p) (x y : Word) (v : Vector Word 16) (r : Fin 4) :
    (b2bG (p 0) (p 1) (p 2) (p 3) x y v).get (p r) = mix x y (fun k => v.get (p k)) r := by
  have apart : ∀ k l, k ≠ l → p k ≠ p l := fun k l ne same => ne (inj same)
  have rot : ∀ z y, 0 < y → y < 64 → rotr64 z y = z.rotateRight y := fun z y => rotr64_eq_rotateRight z
  fin_cases r <;>
    simp [b2bG, mix, half, apart, rot]

/-- The macro leaves every other position alone. -/
theorem b2bG_off {p : Fin 4 → Fin 16} {i : Fin 16} (off : ∀ k, i ≠ p k) (x y : Word) (v : Vector Word 16) :
    (b2bG (p 0) (p 1) (p 2) (p 3) x y v).get i = v.get i := by
  simp [b2bG, Function.update_apply, off]

/-- One macro call on the positions of block `j` is a step on that block. -/
theorem b2bG_eq_stepAt (P : Fin 4 × Fin 4 ≃ Fin 16) (j : Fin 4) (x : Fin 4 → Word) (y : Fin 4 → Word)
    (v : Vector Word 16) :
    (b2bG (P (j, 0)) (P (j, 1)) (P (j, 2)) (P (j, 3)) (x j) (y j) v).get =
      stepAt P (fun k => mix (x k) (y k)) v.get j := by
  have inj : Function.Injective fun r => P (j, r) := fun r s same => congrArg Prod.snd (P.injective same)
  apply ext_block (P := P)
  intro k
  rw [block_stepAt]
  funext r
  by_cases same : k = j
  · subst same
    rw [if_pos rfl]
    exact b2bG_on inj (x k) (y k) v r
  · rw [if_neg same]
    exact b2bG_off (p := fun r => P (j, r)) (fun s => P.injective.ne (by simp [same])) (x j) (y j) v

/-! ## The rounds -/

theorem blake2bIv_eq : blake2bIv = iv := rfl

theorem sigma_eq : sigma = schedule := by
  funext r k
  revert r k
  decide

/-- The first four calls mix the columns. -/
theorem columns_b2bG (w : Fin 16 → Word) (u : Vector Word 16) :
    (b2bG 3 7 11 15 (w 6) (w 7) (b2bG 2 6 10 14 (w 4) (w 5)
      (b2bG 1 5 9 13 (w 2) (w 3) (b2bG 0 4 8 12 (w 0) (w 1) u)))).get =
      stepAll columns (fun j => mix (w (columnX j)) (w (columnY j))) u.get := by
  rw [← foldl_stepAt columns _ [0, 1, 2, 3] (by decide) (by decide)]
  simp only [List.foldl_cons, List.foldl_nil, ← b2bG_eq_stepAt]
  rfl

/-- The last four calls mix the diagonals. -/
theorem diagonals_b2bG (w : Fin 16 → Word) (u : Vector Word 16) :
    (b2bG 3 4 9 14 (w 14) (w 15) (b2bG 2 7 8 13 (w 12) (w 13)
      (b2bG 1 6 11 12 (w 10) (w 11) (b2bG 0 5 10 15 (w 8) (w 9) u)))).get =
      stepAll diagonals (fun j => mix (w (diagonalX j)) (w (diagonalY j))) u.get := by
  rw [← foldl_stepAt diagonals _ [0, 1, 2, 3] (by decide) (by decide)]
  simp only [List.foldl_cons, List.foldl_nil, ← b2bG_eq_stepAt]
  rfl

/-- **One iteration of the loop is one round of F.** -/
theorem genericRound_eq (m : Vector Word 16) (i : ℕ) (v : Vector Word 16) :
    (genericRound m i v).get = round (scheduled m.get i) v.get := by
  rw [round, ← columns_b2bG, ← diagonals_b2bG]
  simp only [genericRound, sigma_eq]
  rfl

theorem genericInit_eq (h : Vector Word 8) (t : Vector Word 2) (f : BitVec 8) :
    (genericInit h t f).get = joinHalves h.get (initLow t.get (f != 0)) := by
  have set12 : ∀ (v : Vector Word 16) (a : Word), (v.set 12 a).get = Function.update v.get 12 a :=
    fun v => get_set v 12
  have set13 : ∀ (v : Vector Word 16) (a : Word), (v.set 13 a).get = Function.update v.get 13 a :=
    fun v => get_set v 13
  have set14 : ∀ (v : Vector Word 16) (a : Word), (v.set 14 a).get = Function.update v.get 14 a :=
    fun v => get_set v 14
  funext i
  by_cases final : f = 0#8
  · have flag : (f != 0) = false := by simp [final]
    rw [flag]
    fin_cases i <;> simp [genericInit, set12, set13, joinHalves, initLow, tweak, blake2bIv_eq, final]
  · have flag : (f != 0) = true := by simp [final]
    rw [flag]
    fin_cases i <;>
      simp [genericInit, set12, set13, set14, joinHalves, initLow, tweak, blake2bIv_eq, final, -BitVec.reduceAllOnes]

/-- **The portable implementation computes F.** -/
theorem generic_eq_F (h : Vector Word 8) (m : Vector Word 16) (t : Vector Word 2) (f : BitVec 8) (n : BitVec 32) :
    (blake2bCompressGeneric h m t f n).get = F h.get m.get t.get (f != 0) n.toNat := by
  have loop : (forRange n.toNat (genericRound m) (genericInit h t f)).get =
      rounds m.get n.toNat (joinHalves h.get (initLow t.get (f != 0))) := by
    rw [rounds, ← genericInit_eq]
    exact forRange_simulates (R := fun (x : Vector Word 16) v => x.get = v)
      (fun i x v same => by rw [genericRound_eq m i, same]) n.toNat rfl
  funext i
  simp only [blake2bCompressGeneric, get_ofFn, loop, F, upperHalf, lowerHalf, BitVec.xor_assoc]

end KPlugin.Blake2
