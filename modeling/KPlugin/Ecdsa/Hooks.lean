import KPlugin.Runtime.KString

/-!
# The ECDSA hooks

Signing and deriving the public key answer in hex; recovery takes and answers raw
bytes. Every failure is the empty string. The hooks read their arguments and
write only strings they allocate, so they are functions of the contents.
-/

namespace KPlugin.Ecdsa

/-- What the hooks call of libsecp256k1; `none` is the return value 0. -/
structure Secp256k1 where
  /-- `secp256k1_ecdsa_recoverable_signature`. -/
  Signature : Type
  Pubkey : Type
  signRecoverable : (msghash seckey : Bytes) → Option Signature
  /-- The compact form and the recovery id. -/
  serializeCompact : Signature → Option (Bytes × ℕ)
  parseCompact : Bytes → ℕ → Option Signature
  recover : Signature → (msghash : Bytes) → Option Pubkey
  pubkeyCreate : (seckey : Bytes) → Option Pubkey
  /-- `SECP256K1_EC_UNCOMPRESSED`. -/
  pubkeySerialize : Pubkey → Bytes

/-- `mpz_fits_ulong_p`. -/
def mpzFitsUlong (v : ℤ) : Prop := 0 ≤ v ∧ v < 2 ^ 64

instance (v : ℤ) : Decidable (mpzFitsUlong v) := inferInstanceAs (Decidable (0 ≤ v ∧ v < 2 ^ 64))

def hookEcdsaRecover (lib : Secp256k1) (msg : Bytes) (v : ℤ) (r s : Bytes) : Bytes :=
  if msg.length ≠ 32 ∨ r.length ≠ 32 ∨ s.length ≠ 32 then []
  else
    let sigArr := r ++ s
    if ¬ mpzFitsUlong v then []
    else
      let vLong := v.toNat
      if vLong < 27 ∨ vLong > 28 then []
      else
        match lib.parseCompact sigArr (vLong - 27) with
        | none => []
        | some sig =>
          match lib.recover sig msg with
          | none => []
          | some key => ((lib.pubkeySerialize key).drop 1).take 64

def hookEcdsaSign (lib : Secp256k1) (mhash prikey : Bytes) : Bytes :=
  if prikey.length ≠ 32 ∨ mhash.length ≠ 32 then hexEncodeData []
  else
    match lib.signRecoverable mhash prikey with
    | none => hexEncodeData []
    | some sig =>
      match lib.serializeCompact sig with
      | none => hexEncodeData []
      | some (result, recid) => hexEncodeData (result ++ [BitVec.ofNat 8 recid])

def hookEcdsaPubKey (lib : Secp256k1) (prikey : Bytes) : Bytes :=
  if prikey.length ≠ 32 then hexEncodeData []
  else
    match lib.pubkeyCreate prikey with
    | none => hexEncodeData []
    | some pubkey => hexEncodeData (((lib.pubkeySerialize pubkey).drop 1).take 64)

/-- `hook_KRYPTO_keccak256`, for any function to digests. -/
def hookKeccak256 (keccak : Bytes → Vector Byte 32) (input : Bytes) : Bytes := hexEncodeData (keccak input).toList

/-! ## What is assumed of libsecp256k1 -/

structure Secp256k1.Implements (lib : Secp256k1) : Prop where
  /-- The compact form has 64 bytes and one of four recovery ids. -/
  serializeCompact : ∀ sig c recid, lib.serializeCompact sig = some (c, recid) → c.length = 64 ∧ recid < 4
  /-- A signature that went through its compact form recovers the key of the signer. -/
  recover : ∀ msghash seckey sig c recid, msghash.length = 32 → seckey.length = 32 →
    lib.signRecoverable msghash seckey = some sig → lib.serializeCompact sig = some (c, recid) →
    ∃ sig' key, lib.parseCompact c recid = some sig' ∧ lib.recover sig' msghash = some key ∧
      lib.pubkeyCreate seckey = some key
  /-- An uncompressed key is the byte 4 and the 64 bytes of the coordinates. -/
  pubkeySerialize : ∀ key, ∃ coordinates : Bytes, lib.pubkeySerialize key = 4 :: coordinates ∧ coordinates.length = 64

variable {lib : Secp256k1}

/-- A nonempty answer of `ECDSASign` is the hex form of `r`, `s` and the recovery id. -/
theorem sign_cases (impl : lib.Implements) {h d : Bytes} (signed : hookEcdsaSign lib h d ≠ []) :
    h.length = 32 ∧ d.length = 32 ∧ ∃ sig r s recid, lib.signRecoverable h d = some sig ∧
      lib.serializeCompact sig = some (r ++ s, recid) ∧ r.length = 32 ∧ s.length = 32 ∧ recid < 4 ∧
      hookEcdsaSign lib h d = hexEncodeData (r ++ s ++ [BitVec.ofNat 8 recid]) := by
  unfold hookEcdsaSign at signed ⊢
  by_cases lengths : d.length ≠ 32 ∨ h.length ≠ 32
  · rw [if_pos lengths] at signed
    exact absurd rfl signed
  · rw [if_neg lengths] at signed ⊢
    obtain ⟨lengthD, lengthH⟩ := not_or.mp lengths
    refine ⟨not_not.mp lengthH, not_not.mp lengthD, ?_⟩
    cases sign : lib.signRecoverable h d with
    | none =>
      rw [sign] at signed
      exact absurd rfl signed
    | some sig =>
      rw [sign] at signed
      cases compact : lib.serializeCompact sig with
      | none =>
        simp only [compact] at signed
        exact absurd rfl signed
      | some form =>
        obtain ⟨c, recid⟩ := form
        obtain ⟨length, small⟩ := impl.serializeCompact sig c recid compact
        refine ⟨sig, c.take 32, c.drop 32, recid, rfl, ?_, ?_, ?_, small, ?_⟩
        · rw [compact, List.take_append_drop]
        · rw [List.length_take, length]
          rfl
        · rw [List.length_drop, length]
        · simp only [compact, List.take_append_drop]

/-- The recovered key is the signer's, with the ids 0 and 1. -/
theorem recover_eq (impl : lib.Implements) {h d r s : Bytes} {sig : lib.Signature} {recid : ℕ} (lengthH : h.length = 32)
    (lengthD : d.length = 32) (sign : lib.signRecoverable h d = some sig)
    (compact : lib.serializeCompact sig = some (r ++ s, recid)) (lengthR : r.length = 32) (lengthS : s.length = 32)
    (low : recid ≤ 1) : ∃ coordinates : Bytes, coordinates.length = 64 ∧
      hookEcdsaRecover lib h (27 + recid) r s = coordinates ∧ hookEcdsaPubKey lib d = hexEncodeData coordinates := by
  obtain ⟨sig', key, parse, recover, create⟩ := impl.recover h d sig (r ++ s) recid lengthH lengthD sign compact
  obtain ⟨coordinates, serialized, length⟩ := impl.pubkeySerialize key
  have payload : ((lib.pubkeySerialize key).drop 1).take 64 = coordinates := by
    rw [serialized, List.drop_one, List.tail_cons, ← length, List.take_length]
  refine ⟨coordinates, length, ?_, ?_⟩
  · have lengths : ¬ (h.length ≠ 32 ∨ r.length ≠ 32 ∨ s.length ≠ 32) := by omega
    have fits : mpzFitsUlong (27 + (recid : ℤ)) := by
      unfold mpzFitsUlong
      omega
    have value : (27 + (recid : ℤ)).toNat = 27 + recid := by omega
    have range : ¬ (27 + recid < 27 ∨ 27 + recid > 28) := by omega
    unfold hookEcdsaRecover
    simp only [if_neg lengths, if_neg (not_not.mpr fits), value, if_neg range, Nat.add_sub_cancel_left, parse, recover,
      payload]
  · unfold hookEcdsaPubKey
    simp only [if_neg (not_not.mpr lengthD), create, payload]

/-- Other values of `v` than 27 and 28 are refused. -/
theorem recover_eq_nil (lib : Secp256k1) {v : ℤ} (high : 28 < v) (h r s : Bytes) : hookEcdsaRecover lib h v r s = [] := by
  unfold hookEcdsaRecover
  have range : v.toNat < 27 ∨ v.toNat > 28 := by omega
  by_cases lengths : h.length ≠ 32 ∨ r.length ≠ 32 ∨ s.length ≠ 32
  · rw [if_pos lengths]
  · rw [if_neg lengths]
    by_cases fits : mpzFitsUlong v
    · simp only [if_neg (not_not.mpr fits), if_pos range]
    · simp only [if_pos fits]

end KPlugin.Ecdsa
