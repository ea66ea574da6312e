import KPlugin.Runtime.StringHooks

/-!
# The hash that the compression function is for

The chaining value, the block, the byte counter and the final flag of each step go into
one packed string; the digits that `Blake2Compress` returns are parsed and packed again
for the next block. The last chaining value is the BLAKE2b hash of the message, of which
the hook `Blake2b256` returns 32 bytes.
-/

namespace KPlugin.Blake2
open ObjectHeap InPlace Radix

/-! ## The hash -/

/-- The first chaining value of a hash of `nn` bytes without a key. -/
def blake2bStart (nn : ℕ) : Fin 8 → Word :=
  fun i => if i = 0 then iv 0 ^^^ 0x01010000 ^^^ BitVec.ofNat 64 nn else iv i

/-- The number of bytes so far, in two words. -/
def counter (t : ℕ) : Fin 2 → Word := ![BitVec.ofNat 64 t, BitVec.ofNat 64 (t / 2 ^ 64)]

/-- Zeros up to the size of a block. -/
def padBlock (s : Bytes) : Bytes := s ++ List.replicate (128 - s.length) 0

/-- The chaining value after `n` full blocks and a last one, the first `t` bytes being done. -/
def absorb : ℕ → (Fin 8 → Word) → ℕ → Bytes → Fin 8 → Word
  | 0, h, t, s => F h (wordsAt (padBlock s) 0 16) (counter (t + s.length)) true 12
  | n + 1, h, t, s =>
    absorb n (F h (wordsAt (s.take 128) 0 16) (counter (t + 128)) false 12) (t + 128) (s.drop 128)

/-- The blocks before the last one, which is empty for the empty message only. -/
def fullBlocks (message : Bytes) : ℕ := (message.length - 1) / 128

/-- A chaining value as bytes. -/
def chaining (h : Fin 8 → Word) : Bytes := pack 8 8 fun i => (h i).toNat

/-- **BLAKE2b** without a key, to `nn` bytes. -/
def blake2b (nn : ℕ) (message : Bytes) : Bytes :=
  (chaining (absorb (fullBlocks message) (blake2bStart nn) 0 message)).take nn

/-! ## Through the hook -/

/-- The counter and the flag. -/
def suffix (t : ℕ) (final : Bool) : Bytes := pack 8 8 (fun i => (counter t i).toNat) ++ [if final then 1 else 0]

/-- The argument of one step, of twelve rounds. -/
def params (h block : Bytes) (t : ℕ) (final : Bool) : Bytes :=
  digitsBE 8 4 12 ++ (h ++ (block ++ suffix t final))

/-- Pack, compress and parse. -/
def compressOps (block : Bytes) (t : ℕ) (final : Bool) : List StringOp :=
  [rule1 fun h => some (params h block t final), .blake2compress, rule1 parseByteStack]

def hashOps : ℕ → ℕ → Bytes → List StringOp
  | 0, t, s => compressOps (padBlock s) (t + s.length) true
  | n + 1, t, s => compressOps (s.take 128) (t + 128) false ++ hashOps n (t + 128) (s.drop 128)

/-- The calls that hash a message, each on the string that the one before has returned. -/
def hashProgram (nn : ℕ) (message : Bytes) : List (Instr StringOp) :=
  .call (.rule fun _ => some (chaining (blake2bStart nn))) [] ::
    pipeline 0 (hashOps (fullBlocks message) 0 message ++ [rule1 fun h => some (h.take nn)])

/-! ## One step -/

section
variable {h : Fin 8 → Word} {block : Bytes} {t : ℕ} {final : Bool}

theorem length_chaining (h : Fin 8 → Word) : (chaining h).length = 64 := length_pack 8 _

theorem wordsAt_pack {n : ℕ} {bs rest : Bytes} {off : ℕ} (f : Fin n → Word)
    (here : bs.drop off = pack 8 8 (fun i => (f i).toNat) ++ rest) : wordsAt bs off n = f := by
  funext i
  have length : (pack 8 8 fun i => (f i).toNat : Bytes).length = 8 * n := length_pack 8 _
  have fits : ∀ i, (f i).toNat < (2 ^ 8) ^ 8 := fun i => (f i).isLt
  unfold wordsAt
  rw [here, List.take_left' length, unpack_pack fits]
  simp

theorem wordsAt_block {bs rest : Bytes} {off : ℕ} (here : bs.drop off = block ++ rest) (length : block.length = 128) :
    wordsAt bs off 16 = wordsAt block 0 16 := by
  funext i
  unfold wordsAt
  rw [here, List.take_left' length, List.drop_zero, List.take_of_length_le (by omega)]

theorem take_params (h block : Bytes) (t : ℕ) (final : Bool) : (params h block t final).take 4 = digitsBE 8 4 12 :=
  List.take_left' rfl

theorem drop4_params (h block : Bytes) (t : ℕ) (final : Bool) :
    (params h block t final).drop 4 = h ++ (block ++ suffix t final) := List.drop_left' rfl

theorem drop68_params : (params (chaining h) block t final).drop 68 = block ++ suffix t final := by
  rw [show 68 = 4 + 64 from rfl, ← List.drop_drop, drop4_params]
  exact List.drop_left' (length_chaining h)

theorem drop196_params (length : block.length = 128) :
    (params (chaining h) block t final).drop 196 = suffix t final := by
  rw [show 196 = 68 + 128 from rfl, ← List.drop_drop, drop68_params]
  exact List.drop_left' length

theorem length_suffix : (suffix t final).length = 17 := by
  rw [suffix, List.length_append, length_pack]
  rfl

theorem length_params (length : block.length = 128) : (params (chaining h) block t final).length = 213 := by
  rw [params, List.length_append, List.length_append, List.length_append, length_chaining, length, length_suffix]
  rfl

/-- The flag is the last byte. -/
theorem getD_params (length : block.length = 128) :
    (params (chaining h) block t final).getD 212 0 = if final then 1 else 0 := by
  have last : (params (chaining h) block t final).drop 212 = [if final then 1 else 0] := by
    rw [show 212 = 196 + 16 from rfl, ← List.drop_drop, drop196_params length]
    exact List.drop_left' (length_pack 8 _)
  have head := congrArg List.head? last
  rw [List.head?_drop] at head
  rw [List.getD_eq_getElem?_getD, head]
  rfl

/-- The hook accepts the packed string and computes one step. -/
theorem eip152_params (length : block.length = 128) : eip152 (params (chaining h) block t final) =
    some (chaining (F h (wordsAt block 0 16) (counter t) final 12)) := by
  have flag : (params (chaining h) block t final).getD 212 0 = if final then 1 else 0 := getD_params length
  have good : WellFormed (params (chaining h) block t final) := by
    refine ⟨length_params length, ?_⟩
    rw [flag]
    cases final with
    | false => decide
    | true => decide
  have words : eip152Words (params (chaining h) block t final) = F h (wordsAt block 0 16) (counter t) final 12 := by
    have last : ((if final then 1 else 0 : Byte) == 1) = final := by cases final <;> rfl
    have twelve : valueBE (digitsBE 8 4 12 : Bytes) = 12 := by decide
    have state : wordsAt (params (chaining h) block t final) 4 8 = h := wordsAt_pack h (drop4_params ..)
    have count : wordsAt (params (chaining h) block t final) 196 2 = counter t :=
      wordsAt_pack (counter t) (drop196_params length)
    unfold eip152Words
    rw [state, wordsAt_block drop68_params length, count, flag, last, take_params, twelve]
  rw [eip152, if_pos good, words]
  rfl

/-- **Packing, compressing and parsing is one step** of the chain. -/
theorem compressOps_eq (A : Algebra StringOp Bytes) (rules : ∀ f ds, A.result (.rule f) ds = f ds)
    (compress : ∀ s, A.result .blake2compress [s] = some (compressed s)) (length : block.length = 128) :
    (compressOps block t final).foldlM (fun d op => A.result op [d]) (chaining h) =
      some (chaining (F h (wordsAt block 0 16) (counter t) final 12)) := by
  have digits : compressed (params (chaining h) block t final) =
      hexEncodeData (chaining (F h (wordsAt block 0 16) (counter t) final 12)) := by
    rw [compressed, eip152_params length, hexEncodeData_eq]
    rfl
  have parsed := (parseByteStack_hex (hexDigits_hexEncodeData (chaining (F h (wordsAt block 0 16) (counter t) final 12)))).1
  simp [compressOps, rule1, rules, compress, digits, parsed]

end

/-! ## The chain -/

theorem length_padBlock {s : Bytes} (short : s.length ≤ 128) : (padBlock s).length = 128 := by
  rw [padBlock, List.length_append, List.length_replicate]
  omega

/-- The steps of a message with `n` full blocks before the last one. -/
theorem hashOps_eq (A : Algebra StringOp Bytes) (rules : ∀ f ds, A.result (.rule f) ds = f ds)
    (compress : ∀ s, A.result .blake2compress [s] = some (compressed s)) (n : ℕ) (h : Fin 8 → Word) (t : ℕ) {s : Bytes}
    (full : 128 * n ≤ s.length) (short : s.length ≤ 128 * (n + 1)) :
    (hashOps n t s).foldlM (fun d op => A.result op [d]) (chaining h) = some (chaining (absorb n h t s)) := by
  induction n generalizing h t s with
  | zero => exact compressOps_eq A rules compress (length_padBlock (by omega))
  | succ n ih =>
    have block : (s.take 128).length = 128 := by
      rw [List.length_take]
      omega
    have rest : (s.drop 128).length = s.length - 128 := List.length_drop
    rw [hashOps, List.foldlM_append, compressOps_eq A rules compress block]
    exact ih _ _ (by omega) (by omega)

/-- **The calls hash**: the last string that they return is the BLAKE2b hash of the message. -/
theorem calls_hash (lib : Libraries) (nn : ℕ) (message : Bytes) :
    ∃ strings, heapOutputs (exec lib) .empty (hashProgram nn message) = some strings ∧
      strings.getLast? = some (blake2b nn message) := by
  let start := chaining (blake2bStart nn)
  let ops := hashOps (fullBlocks message) 0 message ++ [rule1 fun h => some (h.take nn)]
  have full : 128 * fullBlocks message ≤ message.length := by
    unfold fullBlocks
    omega
  have short : message.length ≤ 128 * (fullBlocks message + 1) := by
    unfold fullBlocks
    omega
  have last : ops.foldlM (fun d op => lib.algebra.result op [d]) start = some (blake2b nn message) := by
    rw [List.foldlM_append, hashOps_eq lib.algebra (fun _ _ => rfl) (fun _ => rfl) _ _ _ full short]
    rfl
  obtain ⟨strings, run, final⟩ := along_last last
  have rest : outputs lib.algebra ⟨[start], [0]⟩ (pipeline 0 ops) = some strings :=
    (outputs_pipeline rfl rfl rfl ops).trans run
  refine ⟨start :: strings, ?_, final⟩
  rw [heapOutputs_eq (exec_executes lib) live_empty]
  change (outputs lib.algebra ⟨[start], [0]⟩ (pipeline 0 ops)).bind (fun ds => some (start :: ds)) = _
  rw [rest]
  rfl

end KPlugin.Blake2
