import KPlugin.Blake2.Hook

/-!
# The precompile computes EIP-152, and what it does to its argument

`eip152` reads the packed argument as the EIP lays it out and applies F. The
hook returns its hex form on every well-formed argument and the empty string on
every other one, whichever implementation runs. The chaining value lies inside
the argument itself, so an accepted call also writes the result over its bytes
4 to 67: the argument survives exactly when its chaining value is a fixed point
of F, which can be told by running the rounds backwards.
-/

namespace KPlugin.Blake2
open ObjectHeap Radix

/-- The `n` little-endian words from byte `off`. -/
def wordsAt (bs : Bytes) (off n : ℕ) : Fin n → Word :=
  fun i => BitVec.ofNat 64 (unpack 8 n ((bs.drop off).take (8 * n)) i)

/-- The arguments the precompile accepts. -/
def WellFormed (bs : Bytes) : Prop := bs.length = 213 ∧ bs.getD 212 0 ≤ 1

instance (bs : Bytes) : Decidable (WellFormed bs) := inferInstanceAs (Decidable (_ ∧ _))

/-- The words F leaves for a packed argument. -/
def eip152Words (bs : Bytes) : Fin 8 → Word :=
  F (wordsAt bs 4 8) (wordsAt bs 68 16) (wordsAt bs 196 2) (bs.getD 212 0 == 1) (valueBE (bs.take 4))

/-- **EIP-152**: the 64 bytes of F for a well-formed argument. -/
def eip152 (bs : Bytes) : Option Bytes :=
  if WellFormed bs then some (pack 8 8 fun i => (eip152Words bs i).toNat) else none

/-! ## The decoder -/

theorem or_toNat {a : ℕ} (x y : BitVec 32) (low : y.toNat < 2 ^ a) (high : 2 ^ a ∣ x.toNat) :
    (x ||| y).toNat = x.toNat + y.toNat := by
  obtain ⟨k, multiple⟩ := high
  rw [BitVec.toNat_or, multiple, ← Nat.two_pow_add_eq_or_of_lt low]

/-- The shifted bytes are disjoint, so their `|` is the big-endian number. -/
theorem rounds_toNat (b0 b1 b2 b3 : Byte) :
    (b0.setWidth 32 <<< 24 ||| b1.setWidth 32 <<< 16 ||| b2.setWidth 32 <<< 8 ||| b3.setWidth 32 : BitVec 32).toNat =
      valueBE [b0, b1, b2, b3] := by
  have shifted : ∀ (b : Byte) (k : ℕ), k ≤ 24 → (b.setWidth 32 <<< k : BitVec 32).toNat = b.toNat * 2 ^ k := by
    intro b k bound
    have fits : b.toNat * 2 ^ k < 2 ^ 32 :=
      calc b.toNat * 2 ^ k < 2 ^ 8 * 2 ^ k := Nat.mul_lt_mul_of_pos_right b.isLt (Nat.two_pow_pos k)
        _ = 2 ^ (8 + k) := (pow_add 2 8 k).symm
        _ ≤ 2 ^ 32 := Nat.pow_le_pow_right (by decide) (by omega)
    have narrow : (b.setWidth 32 : BitVec 32).toNat = b.toNat := by
      rw [BitVec.toNat_setWidth, Nat.mod_eq_of_lt (by omega)]
    rw [BitVec.toNat_shiftLeft, Nat.shiftLeft_eq, narrow, Nat.mod_eq_of_lt fits]
  have h0 := shifted b0 24 (by decide)
  have h1 := shifted b1 16 (by decide)
  have h2 := shifted b2 8 (by decide)
  have h3 : (b3.setWidth 32 : BitVec 32).toNat = b3.toNat := by
    rw [BitVec.toNat_setWidth, Nat.mod_eq_of_lt (by omega)]
  have or1 := or_toNat (a := 24) (b0.setWidth 32 <<< 24) (b1.setWidth 32 <<< 16) (by omega) (by omega)
  have or2 := or_toNat (a := 16) (b0.setWidth 32 <<< 24 ||| b1.setWidth 32 <<< 16) (b2.setWidth 32 <<< 8) (by omega)
    (by omega)
  have or3 := or_toNat (a := 8) (b0.setWidth 32 <<< 24 ||| b1.setWidth 32 <<< 16 ||| b2.setWidth 32 <<< 8)
    (b3.setWidth 32) (by omega) (by omega)
  rw [or3, or2, or1, h0, h1, h2, h3]
  simp only [valueBE, List.reverse_cons, List.reverse_nil, List.nil_append, List.cons_append, value_cons, value_nil]
  omega

/-- The bytes the first shift expression reads are the first four. -/
theorem take_four {bs : Bytes} (long : 4 ≤ bs.length) :
    bs.take 4 = [bs.getD 0 0, bs.getD 1 0, bs.getD 2 0, bs.getD 3 0] := by
  obtain _ | ⟨b0, _ | ⟨b1, _ | ⟨b2, _ | ⟨b3, rest⟩⟩⟩⟩ := bs
  case cons.cons.cons.cons => rfl
  all_goals
    simp only [List.length_cons, List.length_nil] at long
    omega

/-- A flag the hook accepts is 0 or 1. -/
theorem flag_eq {f : BitVec 8} (accepted : f ≤ 1) : (f != 0) = (f == 1) := by
  have cases : f = 0 ∨ f = 1 := by
    have small : f.toNat ≤ 1 := accepted
    rcases Nat.le_one_iff_eq_zero_or_eq_one.mp small with zero | one
    · exact .inl (BitVec.eq_of_toNat_eq zero)
    · exact .inr (BitVec.eq_of_toNat_eq one)
  rcases cases with rfl | rfl <;> rfl

/-! ## The two paths of the hook -/

theorem loadWords_get (σ : KHeap) (a : Addr) (off n : ℕ) :
    (loadWords σ ⟨a, off⟩ n).get = wordsAt (contents σ a) off n := by
  rw [loadWords, Blocks.get_ofFn]
  rfl

/-- Either implementation stores F. -/
theorem blake2bCompress_eq (avx2 : Bool) (h m t : Ptr) (f : BitVec 8) (rounds : BitVec 32) (σ : KHeap) :
    blake2bCompress avx2 h m t f rounds σ =
      store σ h (pack 8 8 fun i => (F (loadWords σ h 8).get (loadWords σ m 16).get (loadWords σ t 2).get
        (f != 0) rounds.toNat i).toNat) := by
  cases avx2 with
  | false => rw [blake2bCompress, if_neg (by decide), storeWords, generic_eq_F]
  | true => rw [blake2bCompress, if_pos rfl, storeWords, avx2_eq_F]

/-- An ill-formed argument touches nothing and yields the empty string. -/
theorem hook_reject (avx2 : Bool) {params : Addr} {σ : KHeap} (bad : ¬ WellFormed (contents σ params)) :
    hookBlake2compress avx2 params σ = alloc σ [] := by
  unfold hookBlake2compress
  by_cases len : (contents σ params).length = 213
  · have flag : (contents σ params).getD 212 0 > 1 := by
      by_contra small
      exact bad ⟨len, BitVec.not_lt.mp small⟩
    simp only [len, ne_eq, not_true_eq_false, if_false, flag, if_true]
    rfl
  · simp only [ne_eq, len, not_false_eq_true, if_true]
    rfl

/-- A well-formed argument is overwritten from byte 4 with the words of F, and
the result is their hex form. -/
theorem hook_accept (avx2 : Bool) {params : Addr} {σ : KHeap} (good : WellFormed (contents σ params)) :
    let out := pack 8 8 fun i => (eip152Words (contents σ params) i).toNat
    hookBlake2compress avx2 params σ = alloc (store σ ⟨params, 4⟩ out) (hexString out) := by
  intro out
  obtain ⟨len, flag⟩ := good
  have live : params < σ.length := live_of_contents fun empty => by simp [empty] at len
  have stored : ∀ rounds : BitVec 32, rounds.toNat = valueBE ((contents σ params).take 4) →
      blake2bCompress avx2 ⟨params, 4⟩ ⟨params, 68⟩ ⟨params, 196⟩ ((contents σ params).getD 212 0) rounds σ =
        store σ ⟨params, 4⟩ out := by
    intro rounds same
    rw [blake2bCompress_eq, loadWords_get, loadWords_get, loadWords_get, flag_eq flag, same]
    rfl
  have width : out.length = 64 := length_pack 8 _
  have readBack : load (store σ ⟨params, 4⟩ out) ⟨params, 4⟩ 64 = out := by
    have written : ((splice (contents σ params) 4 out).drop 4).take out.length = out := drop_take_splice (by omega)
    rw [width] at written
    rw [load, contents_store_self live]
    exact written
  have accepted : ¬ (contents σ params).getD 212 0 > 1 := BitVec.not_lt.mpr flag
  unfold hookBlake2compress
  simp only [len, ne_eq, not_true_eq_false, if_false, accepted]
  rw [stored _ (by rw [rounds_toNat, take_four (by omega)]), readBack, hexEncode, hexEncodeData_eq]

/-! ## The result -/

/-- The string a call returns. -/
def resultString (avx2 : Bool) (params : Addr) (σ : KHeap) : Bytes :=
  contents (hookBlake2compress avx2 params σ).2 (hookBlake2compress avx2 params σ).1

theorem length_hexString (bs : Bytes) : (hexString bs).length = 2 * bs.length := by
  rw [← hexEncodeData_eq, length_hexEncodeData]

theorem resultString_eq (avx2 : Bool) (params : Addr) (σ : KHeap) :
    resultString avx2 params σ = ((eip152 (contents σ params)).map hexString).getD [] := by
  by_cases good : WellFormed (contents σ params)
  · rw [resultString, hook_accept avx2 good, contents_alloc_new, eip152, if_pos good]
    rfl
  · rw [resultString, hook_reject avx2 good, contents_alloc_new, eip152, if_neg good]
    rfl

theorem length_eip152 {bs out : Bytes} (result : eip152 bs = some out) : out.length = 64 := by
  unfold eip152 at result
  split at result
  · cases result
    exact length_pack 8 _
  · cases result

/-- **The hook is EIP-152 in hex**: 128 lower-case digits for a well-formed
argument, the empty string for every other one. -/
theorem hook_computes_eip152 (avx2 : Bool) (params : Addr) (σ : KHeap) :
    resultString avx2 params σ = ((eip152 (contents σ params)).map hexString).getD [] ∧
      (resultString avx2 params σ).length = if WellFormed (contents σ params) then 128 else 0 := by
  refine ⟨resultString_eq avx2 params σ, ?_⟩
  rw [resultString_eq]
  by_cases good : WellFormed (contents σ params)
  · obtain ⟨out, result⟩ : ∃ out, eip152 (contents σ params) = some out := ⟨_, if_pos good⟩
    rw [if_pos good, result, Option.map_some, Option.getD_some, length_hexString, length_eip152 result]
  · have nothing : eip152 (contents σ params) = none := if_neg good
    rw [if_neg good, nothing]
    rfl

/-- The test of the repository: 213 zero bytes. -/
example : resultString true 0 [List.replicate 213 0] = hexString (digitsBE 8 64
    0x08c9bcf367e6096a3ba7ca8485ae67bb2bf894fe72f36e3cf1361d5f3af54fa5d182e6ad7f520e511f6c3e2b8c68059b6bbd41fbabd9831f79217e1319cde05b) := by
  decide +kernel

/-! ## The argument after a call -/

/-- The chaining value of the argument is a fixed point of F: from some vector
with two equal halves, undoing the rounds gives the initial working vector. -/
def FixedPoint (bs : Bytes) : Prop :=
  ∃ u, unrounds (wordsAt bs 68 16) (valueBE (bs.take 4)) (joinHalves u u) =
    joinHalves (wordsAt bs 4 8) (initLow (wordsAt bs 196 2) (bs.getD 212 0 == 1))

/-- What a call leaves in its argument. -/
theorem contents_after (avx2 : Bool) (params : Addr) (σ : KHeap) :
    contents (hookBlake2compress avx2 params σ).2 params =
      if WellFormed (contents σ params) then
        splice (contents σ params) 4 (pack 8 8 fun i => (eip152Words (contents σ params) i).toNat)
      else contents σ params := by
  by_cases good : WellFormed (contents σ params)
  · have live : params < σ.length := live_of_contents fun empty => by simp [empty, WellFormed] at good
    rw [hook_accept avx2 good, if_pos good, contents_alloc_old (by rwa [length_store])]
    exact contents_store_self (p := ⟨params, 4⟩) live _
  · rw [hook_reject avx2 good, if_neg good, contents_alloc_nil]

/-- Words and the bytes they were read from determine each other. -/
theorem pack_words_iff {bs : Bytes} (long : 68 ≤ bs.length) (f : Fin 8 → Word) :
    pack 8 8 (fun i => (f i).toNat) = (bs.drop 4).take 64 ↔ f = wordsAt bs 4 8 := by
  have len : ((bs.drop 4).take 64).length = 8 * 8 := by
    rw [List.length_take, List.length_drop]
    omega
  constructor
  · intro same
    funext i
    have word := congrFun (unpack_pack (w := 8) (k := 8) (f := fun i => (f i).toNat) fun i => (f i).isLt) i
    rw [same] at word
    rw [wordsAt, word, BitVec.ofNat_toNat, BitVec.setWidth_eq]
  · rintro rfl
    have exact_words : (fun i => (wordsAt bs 4 8 i).toNat) = unpack 8 8 ((bs.drop 4).take 64) := by
      funext i
      have small : unpack 8 8 ((bs.drop 4).take 64) i < 2 ^ 64 := by
        have bound := value_lt (((bs.drop 4).take 64).drop (8 * i.val) |>.take 8)
        have short : ((((bs.drop 4).take 64).drop (8 * i.val)).take 8).length ≤ 8 := List.length_take_le _ _
        exact bound.trans_le (Nat.pow_le_pow_right (by decide) short)
      rw [wordsAt, BitVec.toNat_ofNat, Nat.mod_eq_of_lt small]
    rw [exact_words, pack_unpack len]

/-- The argument survives a call exactly when it is rejected or a fixed point. -/
theorem kept_iff (avx2 : Bool) (params : Addr) (σ : KHeap) :
    contents (hookBlake2compress avx2 params σ).2 params = contents σ params ↔
      ¬ WellFormed (contents σ params) ∨ FixedPoint (contents σ params) := by
  rw [contents_after]
  by_cases good : WellFormed (contents σ params)
  · have len := good.1
    have overwritten : splice (contents σ params) 4 (pack 8 8 fun i => (eip152Words (contents σ params) i).toNat) =
        contents σ params ↔ eip152Words (contents σ params) = wordsAt (contents σ params) 4 8 := by
      rw [← pack_words_iff (by omega)]
      constructor
      · intro same
        let packed : Bytes := pack 8 8 fun i => (eip152Words (contents σ params) i).toNat
        have fits : 4 + packed.length ≤ (contents σ params).length := by
          rw [length_pack]
          omega
        have written : ((splice (contents σ params) 4 packed).drop 4).take packed.length = packed :=
          drop_take_splice fits
        rw [same, length_pack] at written
        exact written.symm
      · intro same
        rw [same]
        exact splice_self _ 4 64 (by omega)
    rw [if_pos good, overwritten, eip152Words, F_eq_self_iff, FixedPoint]
    simp only [good, not_true_eq_false, false_or]
  · simp only [good, if_false, not_false_eq_true, true_or]

/-! ## Sequences of calls -/

/-- The strings that `n` successive calls on one argument return. -/
def callStrings (avx2 : Bool) (params : Addr) : ℕ → KHeap → List Bytes
  | 0, _ => []
  | n + 1, σ => resultString avx2 params σ :: callStrings avx2 params n (hookBlake2compress avx2 params σ).2

/-- What a pure function of the argument's contents does: it leaves them alone
and answers every later call like the first. -/
structure PureCall (avx2 : Bool) (params : Addr) (σ : KHeap) : Prop where
  kept : contents (hookBlake2compress avx2 params σ).2 params = contents σ params
  repeats : ∀ n, ∀ s ∈ callStrings avx2 params n σ, s = resultString avx2 params σ

/-- The result depends on the heap through the contents of the argument only. -/
theorem resultString_congr (avx2 : Bool) {params : Addr} {σ τ : KHeap}
    (same : contents σ params = contents τ params) : resultString avx2 params σ = resultString avx2 params τ := by
  rw [resultString_eq, resultString_eq, same]

/-- A call that keeps the argument is followed by calls that keep it too. -/
theorem callStrings_repeat (avx2 : Bool) {params : Addr} {σ : KHeap}
    (fixed : ¬ WellFormed (contents σ params) ∨ FixedPoint (contents σ params)) (n : ℕ) :
    ∀ s ∈ callStrings avx2 params n σ, s = resultString avx2 params σ := by
  induction n generalizing σ with
  | zero =>
    intro s member
    cases member
  | succ n ih =>
    intro s member
    have kept := (kept_iff avx2 params σ).mpr fixed
    rcases List.mem_cons.mp member with first | later
    · exact first
    · rw [ih (by rwa [kept]) s later]
      exact resultString_congr avx2 kept

/-- **When the hook is pure**: exactly on the arguments it rejects and on the
fixed points of F. -/
theorem pureCall_iff (avx2 : Bool) (params : Addr) (σ : KHeap) :
    PureCall avx2 params σ ↔ ¬ WellFormed (contents σ params) ∨ FixedPoint (contents σ params) := by
  constructor
  · intro pure
    exact (kept_iff avx2 params σ).mp pure.kept
  · intro fixed
    exact ⟨(kept_iff avx2 params σ).mpr fixed, callStrings_repeat avx2 fixed⟩

/-- The all-zero argument asks for zero rounds, so its chaining value would have
to be the initialization vector to survive. -/
theorem zeroArgument_not_pure :
    ¬ PureCall true 0 [List.replicate 213 0] ∧ ¬ PureCall false 0 [List.replicate 213 0] := by
  have good : WellFormed (List.replicate 213 (0 : Byte)) := ⟨List.length_replicate, by decide +kernel⟩
  have moved : ¬ FixedPoint (List.replicate 213 (0 : Byte)) := by
    rintro ⟨u, halves⟩
    have noRounds : valueBE ((List.replicate 213 (0 : Byte)).take 4) = 0 := by decide
    rw [noRounds] at halves
    have upper : u 0 = wordsAt (List.replicate 213 0) 4 8 0 := congrFun halves 0
    have lower : u 0 = initLow (wordsAt (List.replicate 213 0) 196 2) false 0 := congrFun halves 8
    rw [upper] at lower
    revert lower
    decide +kernel
  have both : ∀ avx2, ¬ PureCall avx2 0 [List.replicate 213 0] := by
    intro avx2 pure
    rcases (kept_iff avx2 0 _).mp pure.kept with bad | fixed
    · exact bad good
    · exact moved fixed
  exact ⟨both true, both false⟩

end KPlugin.Blake2
