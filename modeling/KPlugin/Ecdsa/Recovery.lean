import KPlugin.Ecdsa.Curve
import KPlugin.Ecdsa.Hooks

/-!
# What is recovered

With a library that recovers keys as the textbook says, `hook_KRYPTO_ecdsaRecover`
answers with the keys under which the signature verifies, one for each of the two values
of `v` it lets through. The values it refuses stand for nonces whose abscissa is not below the
order; short of those, a key is recovered exactly when its holder can make the signature.
-/

namespace KPlugin.Ecdsa
open Radix EcdsaScheme PrimeCurve

/-! ## What is assumed of libsecp256k1 -/

/-- The 64 bytes of a finite point. -/
def pointBytes (Q : Point) : Bytes := (coordinates Q).elim [] fun c => digitsBE 8 32 c.1.val ++ digitsBE 8 32 c.2.val

/-- The point with this abscissa whose ordinate has the parity of the recovery id. -/
def IsNonce (R : Point) (r recid : ℕ) : Prop := ∃ c, coordinates R = some c ∧ c.1.val = r ∧ c.2.val % 2 = recid

/-- What a signature says of the key: it is computed from the nonce's point and finite. -/
structure Recovers (h r s recid : ℕ) (Q : Point) : Prop where
  r_ne : r ≠ 0
  s_ne : s ≠ 0
  nonce : ∃ R, IsNonce R r recid ∧ recovered generator R (h : ZMod order) r s = Q
  finite : Q ≠ 0

/-- The textbook on the recovery ids 0 and 1; `sigOf` and `keyOf` say what the library's objects hold. -/
structure Secp256k1.Textbook (lib : Secp256k1) (sigOf : lib.Signature → ℕ → ℕ → ℕ → Prop)
    (keyOf : lib.Pubkey → Point → Prop) : Prop where
  parse : ∀ (r s : Bytes) (recid : ℕ), r.length = 32 → s.length = 32 → recid < 2 → valueBE r < order →
    valueBE s < order → ∃ sig, lib.parseCompact (r ++ s) recid = some sig ∧ sigOf sig (valueBE r) (valueBE s) recid
  parse_overflow : ∀ (r s : Bytes) (recid : ℕ), r.length = 32 → s.length = 32 →
    ¬ (valueBE r < order ∧ valueBE s < order) → lib.parseCompact (r ++ s) recid = none
  recover : ∀ sig r s recid (msg : Bytes), sigOf sig r s recid → msg.length = 32 → ∀ Q,
    Recovers (valueBE msg) r s recid Q → ∃ key, lib.recover sig msg = some key ∧ keyOf key Q
  recover_fails : ∀ sig r s recid (msg : Bytes), sigOf sig r s recid → msg.length = 32 →
    (∀ Q, ¬ Recovers (valueBE msg) r s recid Q) → lib.recover sig msg = none
  pubkeyCreate : ∀ seckey : Bytes, seckey.length = 32 → 0 < valueBE seckey ∧ valueBE seckey < order →
    ∃ key, lib.pubkeyCreate seckey = some key ∧ keyOf key ((valueBE seckey : ZMod order) • generator)
  pubkeySerialize : ∀ key Q, keyOf key Q → lib.pubkeySerialize key = 4 :: pointBytes Q

/-! ## Points and their bytes -/

theorem fieldModulus_lt : fieldModulus < 2 ^ 256 := by decide +kernel

theorem valueBE_residue (a : Fp) : valueBE (digitsBE 8 32 a.val) = a.val :=
  valueBE_digitsBE_of_lt (((ZMod.val_lt a).trans fieldModulus_lt).trans_eq (by rw [← pow_mul]))

theorem length_pointBytes {Q : Point} (finite : Q ≠ 0) : (pointBytes Q).length = 64 := by
  unfold pointBytes
  cases named : coordinates Q with
  | none => exact absurd ((coordinates_eq_none_iff Q).mp named) finite
  | some c => simp

theorem pointBytes_injective {P Q : Point} (finite : P ≠ 0) (same : pointBytes P = pointBytes Q) : P = Q := by
  have length := length_pointBytes finite
  apply coordinates_injective
  rw [same] at length
  unfold pointBytes at same length
  cases first : coordinates P with
  | none => exact absurd ((coordinates_eq_none_iff P).mp first) finite
  | some c =>
    cases second : coordinates Q with
    | none =>
      rw [second] at length
      cases length
    | some c' =>
      rw [first, second] at same
      obtain ⟨abscissa, ordinate⟩ := List.append_inj same (by rw [length_digitsBE, length_digitsBE])
      have x := congrArg valueBE abscissa
      have y := congrArg valueBE ordinate
      rw [valueBE_residue, valueBE_residue] at x y
      rw [Prod.ext (ZMod.val_injective _ x) (ZMod.val_injective _ y)]

/-- Abscissa and recovery id name one nonce. -/
theorem IsNonce.unique {R R' : Point} {r recid : ℕ} (first : IsNonce R r recid) (second : IsNonce R' r recid) :
    R = R' := by
  obtain ⟨c, named, abscissa, ordinate⟩ := first
  obtain ⟨c', named', abscissa', ordinate'⟩ := second
  apply secp256k1_generated.parity_injective
  have x : c.1 = c'.1 := ZMod.val_injective _ (abscissa.trans abscissa'.symm)
  rw [parity, parity, named, named', Option.map_some, Option.map_some, x, ordinate, ordinate']

theorem Recovers.unique {h r s recid : ℕ} {Q Q' : Point} (first : Recovers h r s recid Q)
    (second : Recovers h r s recid Q') : Q = Q' := by
  obtain ⟨R, nonce, rfl⟩ := first.nonce
  obtain ⟨R', nonce', rfl⟩ := second.nonce
  rw [nonce.unique nonce']

/-! ## What the hook answers -/

variable {lib : Secp256k1} {sigOf : lib.Signature → ℕ → ℕ → ℕ → Prop} {keyOf : lib.Pubkey → Point → Prop}
  {h r s : Bytes}

/-- Three words of 32 bytes. -/
structure Words (h r s : Bytes) : Prop where
  h : h.length = 32
  r : r.length = 32
  s : s.length = 32

/-- The hook past its own checks. -/
theorem hookEcdsaRecover_of_words (words : Words h r s) {recid : ℕ} (low : recid < 2) :
    hookEcdsaRecover lib h (27 + recid : ℕ) r s =
      ((lib.parseCompact (r ++ s) recid).bind fun sig => lib.recover sig h).elim []
        fun key => ((lib.pubkeySerialize key).drop 1).take 64 := by
  have lengths : ¬ (h.length ≠ 32 ∨ r.length ≠ 32 ∨ s.length ≠ 32) := by
    have := words.h
    have := words.r
    have := words.s
    omega
  have fits : mpzFitsUlong ((27 + recid : ℕ) : ℤ) := by
    unfold mpzFitsUlong
    omega
  have range : ¬ (27 + recid < 27 ∨ 27 + recid > 28) := by omega
  unfold hookEcdsaRecover
  simp only [if_neg lengths, if_neg (not_not.mpr fits), Int.toNat_natCast, if_neg range, Nat.add_sub_cancel_left]
  cases lib.parseCompact (r ++ s) recid with
  | none => rfl
  | some sig =>
    dsimp only [Option.bind_some]
    cases lib.recover sig h with
    | none => rfl
    | some key => rfl

/-- Other values are refused. -/
theorem hookEcdsaRecover_refused {v : ℤ} (other : ¬ ∃ recid < 2, v = (27 + recid : ℕ)) :
    hookEcdsaRecover lib h v r s = [] := by
  unfold hookEcdsaRecover
  by_cases lengths : h.length ≠ 32 ∨ r.length ≠ 32 ∨ s.length ≠ 32
  · rw [if_pos lengths]
  · rw [if_neg lengths]
    by_cases fits : mpzFitsUlong v
    · have range : v.toNat < 27 ∨ v.toNat > 28 := by
        by_contra inside
        apply other
        obtain ⟨positive, -⟩ := fits
        exact ⟨v.toNat - 27, by omega, by omega⟩
      simp only [if_neg (not_not.mpr fits), if_pos range]
    · simp only [if_pos fits]

/-- The numbers are in range and name a key. -/
structure Names (h r s recid : ℕ) (Q : Point) : Prop extends Recovers h r s recid Q where
  r_below : r < order
  s_below : s < order

/-- **The hook answers with the key that is named**, -/
theorem Secp256k1.Textbook.answer (textbook : lib.Textbook sigOf keyOf) (words : Words h r s) {recid : ℕ} (low : recid < 2)
    {Q : Point} (names : Names (valueBE h) (valueBE r) (valueBE s) recid Q) :
    hookEcdsaRecover lib h (27 + recid : ℕ) r s = pointBytes Q := by
  obtain ⟨sig, parsed, holds⟩ := textbook.parse r s recid words.r words.s low names.r_below names.s_below
  obtain ⟨key, found, holdsKey⟩ := textbook.recover sig _ _ recid h holds words.h Q names.toRecovers
  rw [hookEcdsaRecover_of_words words low]
  simp only [parsed, found, Option.bind_some, Option.elim_some, textbook.pubkeySerialize key Q holdsKey,
    List.drop_succ_cons, List.drop_zero]
  exact List.take_of_length_le (length_pointBytes names.finite).le

/-- and with nothing when none is. -/
theorem Secp256k1.Textbook.answer_nil (textbook : lib.Textbook sigOf keyOf) (words : Words h r s) {recid : ℕ}
    (low : recid < 2) (nobody : ∀ Q, ¬ Names (valueBE h) (valueBE r) (valueBE s) recid Q) :
    hookEcdsaRecover lib h (27 + recid : ℕ) r s = [] := by
  rw [hookEcdsaRecover_of_words words low]
  by_cases below : valueBE r < order ∧ valueBE s < order
  · obtain ⟨sig, parsed, holds⟩ := textbook.parse r s recid words.r words.s low below.1 below.2
    have fails := textbook.recover_fails sig _ _ recid h holds words.h fun Q recovers =>
      nobody Q { recovers with r_below := below.1, s_below := below.2 }
    rw [parsed, Option.bind_some, fails, Option.elim_none]
  · rw [textbook.parse_overflow r s recid words.r words.s below, Option.bind_none, Option.elim_none]

theorem Secp256k1.Textbook.answer_iff (textbook : lib.Textbook sigOf keyOf) (words : Words h r s) {Q : Point}
    (finite : Q ≠ 0) (v : ℤ) : hookEcdsaRecover lib h v r s = pointBytes Q ↔
      ∃ recid < 2, v = (27 + recid : ℕ) ∧ Names (valueBE h) (valueBE r) (valueBE s) recid Q := by
  have long := length_pointBytes finite
  constructor
  · intro answered
    by_cases low : ∃ recid < 2, v = (27 + recid : ℕ)
    · obtain ⟨recid, low, rfl⟩ := low
      by_cases somebody : ∃ Q', Names (valueBE h) (valueBE r) (valueBE s) recid Q'
      · obtain ⟨Q', names⟩ := somebody
        rw [textbook.answer words low names] at answered
        obtain rfl := pointBytes_injective names.finite answered
        exact ⟨recid, low, rfl, names⟩
      · rw [textbook.answer_nil words low fun Q' names => somebody ⟨Q', names⟩] at answered
        rw [← answered] at long
        cases long
    · rw [hookEcdsaRecover_refused low] at answered
      rw [← answered] at long
      cases long
  · rintro ⟨recid, low, rfl, names⟩
    exact textbook.answer words low names

/-- A signature names the keys under which the verifier arrives at its nonce. -/
theorem names_iff {h r s recid : ℕ} {Q : Point} (finite : Q ≠ 0) : Names h r s recid Q ↔
    (0 < r ∧ r < order) ∧ (0 < s ∧ s < order) ∧ IsNonce (verifierPoint generator Q (h : ZMod order) r s) r recid := by
  constructor
  · rintro ⟨⟨r_ne, s_ne, ⟨R, nonce, named⟩, -⟩, r_below, s_below⟩
    have r_range : 0 < r ∧ r < order := ⟨Nat.pos_of_ne_zero r_ne, r_below⟩
    have s_range : 0 < s ∧ s < order := ⟨Nat.pos_of_ne_zero s_ne, s_below⟩
    have arrives := (recovered_eq_iff (natCast_ne_zero_of_range r_range) (natCast_ne_zero_of_range s_range)).mp named
    rw [arrives]
    exact ⟨r_range, s_range, nonce⟩
  · rintro ⟨r_range, s_range, nonce⟩
    have named : recovered generator (verifierPoint generator Q (h : ZMod order) r s) (h : ZMod order) r s = Q :=
      (recovered_eq_iff (natCast_ne_zero_of_range r_range) (natCast_ne_zero_of_range s_range)).mpr rfl
    exact ⟨⟨r_range.1.ne', s_range.1.ne', ⟨_, nonce, named⟩, finite⟩, r_range.2, s_range.2⟩

/-- One of the two parities is that of the point. -/
theorem abscissa_eq_some_iff (P : Point) (r : ℕ) : abscissa P = some r ↔ ∃ recid < 2, IsNonce P r recid := by
  unfold abscissa
  constructor
  · intro named
    obtain ⟨c, known, rfl⟩ := Option.map_eq_some_iff.mp named
    exact ⟨c.2.val % 2, Nat.mod_lt _ two_pos, c, known, rfl, rfl⟩
  · rintro ⟨recid, -, c, known, rfl, -⟩
    rw [known, Option.map_some]

/-- Verification up to the order, and the abscissa itself. -/
theorem exists_names_iff {h r s : ℕ} {Q : Point} (finite : Q ≠ 0) : (∃ recid < 2, Names h r s recid Q) ↔
    EcdsaScheme.Verifies order generator abscissa Q h r s ∧
      abscissa (verifierPoint generator Q (h : ZMod order) r s) = some r := by
  constructor
  · rintro ⟨recid, low, names⟩
    obtain ⟨r_range, s_range, nonce⟩ := (names_iff finite).mp names
    have named := (abscissa_eq_some_iff _ r).mpr ⟨recid, low, nonce⟩
    exact ⟨⟨r_range, s_range, r, named, rfl⟩, named⟩
  · rintro ⟨verifies, named⟩
    obtain ⟨recid, low, nonce⟩ := (abscissa_eq_some_iff _ r).mp named
    exact ⟨recid, low, (names_iff finite).mpr ⟨verifies.r_range, verifies.s_range, nonce⟩⟩

/-! ## A library that computes in the group itself -/

/-- A signature by the secret `d` of the hash `h`, with its recovery id. -/
def IsSignature (d h : ℕ) (sig : ℕ × ℕ × ℕ) : Prop :=
  ∃ k : ZMod order, sign generator abscissa (d : ZMod order) k h = some (sig.1, sig.2.1) ∧
    IsNonce (k • generator) sig.1 sig.2.2

open Classical in
/-- Key objects are points, signatures the two numbers and the recovery id. -/
noncomputable def referenceSecp256k1 : Secp256k1 where
  Signature := ℕ × ℕ × ℕ
  Pubkey := Point
  signRecoverable msghash seckey :=
    if signed : ∃ sig, IsSignature (valueBE seckey) (valueBE msghash) sig then some signed.choose else none
  serializeCompact sig := some (digitsBE 8 32 sig.1 ++ digitsBE 8 32 sig.2.1, sig.2.2)
  parseCompact c recid :=
    if valueBE (c.take 32) < order ∧ valueBE (c.drop 32) < order then
      some (valueBE (c.take 32), valueBE (c.drop 32), recid)
    else none
  recover sig msghash :=
    if found : ∃ Q, Recovers (valueBE msghash) sig.1 sig.2.1 sig.2.2 Q then some found.choose else none
  pubkeyCreate seckey :=
    if 0 < valueBE seckey ∧ valueBE seckey < order then some ((valueBE seckey : ZMod order) • generator) else none
  pubkeySerialize Q := 4 :: pointBytes Q

theorem referenceSecp256k1_textbook :
    referenceSecp256k1.Textbook (fun sig r s recid => sig = (r, s, recid)) (fun key Q => key = Q) where
  parse := by
    intro r s recid length _ _ belowR belowS
    refine ⟨_, ?_, rfl⟩
    have first : (r ++ s).take 32 = r := List.take_left' length
    have second : (r ++ s).drop 32 = s := List.drop_left' length
    simp only [referenceSecp256k1, first, second]
    exact if_pos ⟨belowR, belowS⟩
  parse_overflow := by
    intro r s recid length _ overflow
    have first : (r ++ s).take 32 = r := List.take_left' length
    have second : (r ++ s).drop 32 = s := List.drop_left' length
    simp only [referenceSecp256k1, first, second]
    exact if_neg overflow
  recover := by
    rintro sig r s recid msg rfl _ Q recovers
    have found : ∃ Q, Recovers (valueBE msg) r s recid Q := ⟨Q, recovers⟩
    exact ⟨_, dif_pos found, found.choose_spec.unique recovers⟩
  recover_fails := by
    rintro sig r s recid msg rfl _ nobody
    exact dif_neg fun found => nobody _ found.choose_spec
  pubkeyCreate := by
    intro seckey _ range
    exact ⟨_, if_pos range, rfl⟩
  pubkeySerialize := by
    rintro key Q rfl
    rfl

theorem generatorX_below : generatorX < order ∧ generatorX < fieldModulus ∧ generatorX ≠ 0 := by decide +kernel

theorem abscissa_generator : abscissa generator = some generatorX :=
  congrArg some ((ZMod.val_natCast _ _).trans (Nat.mod_eq_of_lt generatorX_below.2.1))

/-- The secret 1 signs the hash zero with the nonce 1. -/
theorem sign_one : sign generator abscissa (1 : ZMod order) 1 0 = some (generatorX, generatorX) := by
  obtain ⟨below, -, nonzero⟩ := generatorX_below
  refine sign_eq_some_iff.mpr ⟨generatorX, ?_, Nat.mod_eq_of_lt below, ?_, nonzero, nonzero⟩
  · rw [one_smul, abscissa_generator]
  · rw [Nat.cast_zero, zero_add, mul_one, div_one, ZMod.val_natCast, Nat.mod_eq_of_lt below]

/-- The hash zero and the abscissa of the generator. -/
def hashZero : Bytes := digitsBE 8 32 0

def abscissaOne : Bytes := digitsBE 8 32 generatorX

theorem words_one : Words hashZero abscissaOne abscissaOne :=
  ⟨length_digitsBE _ _, length_digitsBE _ _, length_digitsBE _ _⟩

theorem value_one : valueBE hashZero = 0 ∧ valueBE abscissaOne = generatorX := by decide +kernel

/-! ## The hooks together -/

/-- **Recovery finds the keys that verify**: every answer is a key or nothing, a key is the
answer to one `v` at most, and the keys are those under which the signature verifies with `r`
the very abscissa of the verifier's point, not just its residue. -/
theorem recovers_verifying_keys (textbook : lib.Textbook sigOf keyOf) (words : Words h r s) :
    (∀ v, hookEcdsaRecover lib h v r s = [] ∨ ∃ Q, Q ≠ 0 ∧ hookEcdsaRecover lib h v r s = pointBytes Q) ∧
    ∀ Q, Q ≠ 0 →
      (∀ v v', hookEcdsaRecover lib h v r s = pointBytes Q → hookEcdsaRecover lib h v' r s = pointBytes Q → v = v') ∧
      ((∃ v, hookEcdsaRecover lib h v r s = pointBytes Q) ↔
        EcdsaScheme.Verifies order generator abscissa Q (valueBE h) (valueBE r) (valueBE s) ∧
          abscissa (verifierPoint generator Q (valueBE h : ZMod order) (valueBE r) (valueBE s)) = some (valueBE r)) := by
  refine ⟨?_, ?_⟩
  · intro v
    by_cases low : ∃ recid < 2, v = (27 + recid : ℕ)
    · obtain ⟨recid, low, rfl⟩ := low
      by_cases somebody : ∃ Q, Names (valueBE h) (valueBE r) (valueBE s) recid Q
      · obtain ⟨Q, names⟩ := somebody
        exact .inr ⟨Q, names.finite, textbook.answer words low names⟩
      · exact .inl (textbook.answer_nil words low fun Q names => somebody ⟨Q, names⟩)
    · exact .inl (hookEcdsaRecover_refused low)
  · intro Q finite
    constructor
    · intro v v' first second
      obtain ⟨recid, -, rfl, names⟩ := (textbook.answer_iff words finite v).mp first
      obtain ⟨recid', -, rfl, names'⟩ := (textbook.answer_iff words finite v').mp second
      obtain ⟨-, -, c, named, -, parity⟩ := (names_iff finite).mp names
      obtain ⟨-, -, c', named', -, parity'⟩ := (names_iff finite).mp names'
      obtain rfl := Option.some.inj (named.symm.trans named')
      rw [← parity, ← parity']
    · rw [← exists_names_iff finite]
      constructor
      · rintro ⟨v, answered⟩
        obtain ⟨recid, low, -, names⟩ := (textbook.answer_iff words finite v).mp answered
        exact ⟨recid, low, names⟩
      · rintro ⟨recid, low, names⟩
        exact ⟨_, textbook.answer words low names⟩

/-- The generator is recovered from the signature of its secret. -/
theorem recovers_verifying_keys_one :
    ∃ v, hookEcdsaRecover referenceSecp256k1 hashZero v abscissaOne abscissaOne = pointBytes generator := by
  obtain ⟨-, keys⟩ := recovers_verifying_keys referenceSecp256k1_textbook words_one
  refine (keys generator secp256k1_generated.finite).2.mpr ?_
  rw [value_one.1, value_one.2]
  have verifies := (verifies_iff_sign (abscissas secp256k1_short) 1).mpr ⟨1, sign_one⟩
  have point := verifierPoint_of_sign sign_one
  rw [one_smul] at verifies point
  rw [point, abscissa_generator]
  exact ⟨verifies, rfl⟩

/-- The opposite point has the other parity. -/
theorem IsNonce.neg {R : Point} {r recid : ℕ} (nonce : IsNonce R r recid) (low : recid < 2) :
    IsNonce (-R) r (1 - recid) := by
  obtain ⟨c, named, abscissa, parity⟩ := nonce
  have other := secp256k1_generated.neg_val (secp256k1_generated.ordinate_ne_zero named)
  refine ⟨(c.1, -c.2), coordinates_neg secp256k1_short named, abscissa, ?_⟩
  dsimp only
  omega

/-- The twin of a signature names the same key with the other recovery id. -/
theorem Names.twin {h r s s' recid : ℕ} {Q : Point} (names : Names h r s recid Q) (low : recid < 2)
    (sum : s + s' = order) : Names h r s' (1 - recid) Q := by
  have finite := names.finite
  obtain ⟨r_range, s_range, nonce⟩ := (names_iff finite).mp names
  have opposite : (s' : ZMod order) = -s := natCast_eq_neg (by rw [sum]; exact Nat.modEq_zero_iff_dvd.mpr dvd_rfl)
  refine (names_iff finite).mpr ⟨r_range, by omega, ?_⟩
  rw [opposite, verifierPoint_neg_right]
  exact nonce.neg low

/-- **Malleability**: with the other `v`, the opposite second number leads to the same answer. -/
theorem recovers_twin {s' : Bytes} (textbook : lib.Textbook sigOf keyOf) (words : Words h r s) (words' : Words h r s')
    (sum : valueBE s + valueBE s' = order) (v : ℤ) :
    hookEcdsaRecover lib h v r s = hookEcdsaRecover lib h (55 - v) r s' := by
  by_cases low : ∃ recid < 2, v = (27 + recid : ℕ)
  · obtain ⟨recid, low, rfl⟩ := low
    have other : (55 - (27 + recid : ℕ) : ℤ) = (27 + (1 - recid) : ℕ) := by omega
    rw [other]
    by_cases somebody : ∃ Q, Names (valueBE h) (valueBE r) (valueBE s) recid Q
    · obtain ⟨Q, names⟩ := somebody
      rw [textbook.answer words low names, textbook.answer words' (by omega) (names.twin low sum)]
    · rw [textbook.answer_nil words low fun Q names => somebody ⟨Q, names⟩, textbook.answer_nil words' (by omega) ?_]
      intro Q names
      apply somebody
      have back := names.twin (by omega) (by rw [add_comm]; exact sum)
      rw [show 1 - (1 - recid) = recid by omega] at back
      exact ⟨Q, back⟩
  · have other : ¬ ∃ recid < 2, 55 - v = (27 + recid : ℕ) := by
      rintro ⟨recid, below, same⟩
      exact low ⟨1 - recid, by omega, by omega⟩
    rw [hookEcdsaRecover_refused low, hookEcdsaRecover_refused other]

/-- The twin of that signature leads to the same answer. -/
theorem recovers_twin_one :
    hookEcdsaRecover referenceSecp256k1 hashZero 27 abscissaOne abscissaOne =
      hookEcdsaRecover referenceSecp256k1 hashZero 28 abscissaOne (digitsBE 8 32 (order - generatorX)) := by
  have words : Words hashZero abscissaOne (digitsBE 8 32 (order - generatorX)) :=
    ⟨length_digitsBE _ _, length_digitsBE _ _, length_digitsBE _ _⟩
  exact recovers_twin referenceSecp256k1_textbook words_one words (by decide +kernel) 27

theorem hexEncodeData_injective : Function.Injective hexEncodeData := by
  intro bs bs' same
  have back := (parseByteStack_hex (hexDigits_hexEncodeData bs)).1
  rw [same, (parseByteStack_hex (hexDigits_hexEncodeData bs')).1] at back
  exact (Option.some.inj back).symm

theorem secret_finite {d : ℕ} (range : 0 < d ∧ d < order) : (d : ZMod order) • generator ≠ 0 := by
  intro zero
  exact natCast_ne_zero_of_range range ((secp256k1_generated.smul_eq_zero_iff _).mp zero)

/-- The key of a secret in range. -/
theorem Secp256k1.Textbook.pubKey (textbook : lib.Textbook sigOf keyOf) {d : Bytes} (length : d.length = 32)
    (range : 0 < valueBE d ∧ valueBE d < order) :
    hookEcdsaPubKey lib d = hexEncodeData (pointBytes ((valueBE d : ZMod order) • generator)) := by
  obtain ⟨key, created, holds⟩ := textbook.pubkeyCreate d length range
  unfold hookEcdsaPubKey
  simp only [if_neg (not_not.mpr length), created, textbook.pubkeySerialize key _ holds, List.drop_succ_cons,
    List.drop_zero]
  rw [List.take_of_length_le (length_pointBytes (secret_finite range)).le]

/-- A signature names the signer's key when the nonce's abscissa is below the order. -/
theorem exists_names_signer_iff {d h r s : ℕ} (range : 0 < d ∧ d < order) :
    (∃ recid < 2, Names h r s recid ((d : ZMod order) • generator)) ↔
      ∃ (k : ZMod order) (x : ℕ), sign generator abscissa (d : ZMod order) k h = some (r, s) ∧
        abscissa (k • generator) = some x ∧ x < order := by
  rw [exists_names_iff (secret_finite range), verifies_iff_sign (abscissas secp256k1_short)]
  constructor
  · rintro ⟨⟨k, signed⟩, named⟩
    obtain ⟨x, known, residue, -⟩ := sign_eq_some_iff.mp signed
    rw [verifierPoint_of_sign signed] at named
    obtain rfl := Option.some.inj (known.symm.trans named)
    refine ⟨k, _, signed, named, ?_⟩
    rw [← residue]
    exact Nat.mod_lt _ order_prime.pos
  · rintro ⟨k, x, signed, known, below⟩
    obtain ⟨x', known', residue, -⟩ := sign_eq_some_iff.mp signed
    obtain rfl := Option.some.inj (known.symm.trans known')
    rw [Nat.mod_eq_of_lt below] at residue
    refine ⟨⟨k, signed⟩, ?_⟩
    rw [verifierPoint_of_sign signed, known, residue]

/-- **Recovery leads to `ECDSAPubKey` of the secret** for some `v` exactly when the holder of
the secret can make the signature with a nonce whose abscissa is below the order. -/
theorem recovers_signer (textbook : lib.Textbook sigOf keyOf) (words : Words h r s) {d : Bytes} (length : d.length = 32)
    (range : 0 < valueBE d ∧ valueBE d < order) :
    (∃ v, hookEcdsaPubKey lib d = hexEncodeData (hookEcdsaRecover lib h v r s)) ↔
      ∃ (k : ZMod order) (x : ℕ), sign generator abscissa (valueBE d : ZMod order) k (valueBE h) =
        some (valueBE r, valueBE s) ∧ abscissa (k • generator) = some x ∧ x < order := by
  rw [← exists_names_signer_iff range, textbook.pubKey length range]
  constructor
  · rintro ⟨v, same⟩
    have answered := (hexEncodeData_injective same).symm
    obtain ⟨recid, low, -, names⟩ := (textbook.answer_iff words (secret_finite range) v).mp answered
    exact ⟨recid, low, names⟩
  · rintro ⟨recid, low, names⟩
    exact ⟨_, by rw [textbook.answer words low names]⟩

/-- The key of the secret 1 is recovered. -/
theorem recovers_signer_one :
    ∃ v, hookEcdsaPubKey referenceSecp256k1 (digitsBE 8 32 1) =
      hexEncodeData (hookEcdsaRecover referenceSecp256k1 hashZero v abscissaOne abscissaOne) := by
  have one : valueBE (digitsBE 8 32 1 : Bytes) = 1 := by decide
  refine (recovers_signer referenceSecp256k1_textbook words_one (length_digitsBE _ _) ?_).mpr ?_
  · rw [one]
    exact ⟨one_pos, order_prime.one_lt⟩
  · refine ⟨1, generatorX, ?_, ?_, generatorX_below.1⟩
    · rw [one, value_one.1, value_one.2, Nat.cast_one]
      exact sign_one
    · rw [one_smul, abscissa_generator]

end KPlugin.Ecdsa
