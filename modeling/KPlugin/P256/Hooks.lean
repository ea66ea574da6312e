import KPlugin.Lib.Der
import KPlugin.P256.Curve
import KPlugin.Runtime.PluginUtil

/-!
# `hook_KRYPTO_p256verify`

The hook re-encodes the five fields of its input for OpenSSL, the key as an
uncompressed point and the signature in DER, and asks for a verification. Every
call on the way may fail, each in its own way; the answer is the 32-byte one exactly
when all of them succeed, and the empty string otherwise.
-/

namespace KPlugin.P256
open Radix

/-! ## The hook -/

/-- What the hook calls of OpenSSL; `none` is a null pointer and an `ℤ` a return code.
A call that changes its context answers with the context after it. -/
structure OpenSSL where
  KeyCtx : Type
  Pkey : Type
  EcdsaSig : Type
  Bignum : Type
  VerifyCtx : Type
  evpPkeyCtxNewFromName : (name : String) → Option KeyCtx
  evpPkeyFromdataInit : KeyCtx → ℤ × KeyCtx
  /-- With the parameters of the group name and the public key. -/
  evpPkeyFromdata : KeyCtx → (group : String) → (pub : Bytes) → ℤ × Option Pkey
  ecdsaSigNew : Option EcdsaSig
  /-- The first and the second call are told apart, since either may run out of memory. -/
  bnBin2bn : (second : Bool) → Bytes → Option Bignum
  ecdsaSigSet0 : EcdsaSig → Bignum → Bignum → ℤ × EcdsaSig
  /-- The length, and the buffer allocated for it. -/
  i2dEcdsaSig : EcdsaSig → ℤ × Option Bytes
  evpPkeyCtxNew : Pkey → Option VerifyCtx
  evpPkeyVerifyInit : VerifyCtx → ℤ × VerifyCtx
  evpPkeyVerify : VerifyCtx → (sig tbs : Bytes) → ℤ

def p256PubkeyFromCoords (lib : OpenSSL) (qx qy : Bytes) : Option lib.Pkey :=
  let pubkeyUncompressed := 0x04 :: (qx ++ qy)
  match lib.evpPkeyCtxNewFromName "EC" with
  | none => none
  | some pctx =>
    let (init, pctx) := lib.evpPkeyFromdataInit pctx
    if init ≤ 0 then none
    else
      let (made, pkey) := lib.evpPkeyFromdata pctx "prime256v1" pubkeyUncompressed
      if made ≤ 0 then none else pkey

/-- The DER buffer and `*out_len`. -/
def p256SigToDer (lib : OpenSSL) (rBytes sBytes : Bytes) : Option (Bytes × ℤ) :=
  match lib.ecdsaSigNew with
  | none => none
  | some sig =>
    match lib.bnBin2bn false rBytes, lib.bnBin2bn true sBytes with
    | some bnR, some bnS =>
      let (set, sig) := lib.ecdsaSigSet0 sig bnR bnS
      if set = 0 then none
      else
        let (outLen, sigDer) := lib.i2dEcdsaSig sig
        if outLen ≤ 0 then none else sigDer.map fun der => (der, outLen)
    | _, _ => none

def p256VerifyPrehash (lib : OpenSSL) (pkey : lib.Pkey) (sigDer : Bytes) (sigLen : ℤ) (hash : Bytes) : ℤ :=
  match lib.evpPkeyCtxNew pkey with
  | none => 0
  | some vctx =>
    let (init, vctx) := lib.evpPkeyVerifyInit vctx
    if init > 0 then (if lib.evpPkeyVerify vctx (sigDer.take sigLen.toNat) hash = 1 then 1 else 0) else 0

/-- The five slices `h`, `r_bytes`, `s_bytes`, `qx` and `qy`. -/
structure Slices where
  h : Bytes
  r : Bytes
  s : Bytes
  qx : Bytes
  qy : Bytes
  deriving DecidableEq

def slices (input : Bytes) : Slices where
  h := input.take 32
  r := (input.drop 32).take 32
  s := (input.drop 64).take 32
  qx := (input.drop 96).take 32
  qy := (input.drop 128).take 32

/-- `result`, with its last byte 1. -/
def accepted : Bytes := List.replicate 31 0 ++ [1]

def hookP256verify (lib : OpenSSL) (input : Bytes) : Bytes :=
  if input.length ≠ 160 then []
  else
    let f := slices input
    match p256PubkeyFromCoords lib f.qx f.qy with
    | none => []
    | some pkey =>
      match p256SigToDer lib f.r f.s with
      | none => []
      | some (sigDer, sigDerLen) => if p256VerifyPrehash lib pkey sigDer sigDerLen f.h ≠ 0 then accepted else []

/-! ## When every call succeeds -/

/-- The calls of `p256_pubkey_from_coords`, all of them successful. -/
structure KeyCalls (lib : OpenSSL) (qx qy : Bytes) (pkey : lib.Pkey) where
  pctx : lib.KeyCtx
  newFromName : lib.evpPkeyCtxNewFromName "EC" = some pctx
  init : 0 < (lib.evpPkeyFromdataInit pctx).1
  fromdata : 0 < (lib.evpPkeyFromdata (lib.evpPkeyFromdataInit pctx).2 "prime256v1" (0x04 :: (qx ++ qy))).1
  made : (lib.evpPkeyFromdata (lib.evpPkeyFromdataInit pctx).2 "prime256v1" (0x04 :: (qx ++ qy))).2 = some pkey

/-- The calls of `p256_sig_to_der`. -/
structure DerCalls (lib : OpenSSL) (r s : Bytes) (der : Bytes) where
  sig : lib.EcdsaSig
  sigNew : lib.ecdsaSigNew = some sig
  bnR : lib.Bignum
  bin2bnR : lib.bnBin2bn false r = some bnR
  bnS : lib.Bignum
  bin2bnS : lib.bnBin2bn true s = some bnS
  set0 : (lib.ecdsaSigSet0 sig bnR bnS).1 ≠ 0
  i2d : 0 < (lib.i2dEcdsaSig (lib.ecdsaSigSet0 sig bnR bnS).2).1
  buffer : Bytes
  written : (lib.i2dEcdsaSig (lib.ecdsaSigSet0 sig bnR bnS).2).2 = some buffer
  taken : buffer.take (lib.i2dEcdsaSig (lib.ecdsaSigSet0 sig bnR bnS).2).1.toNat = der

/-- The calls of `p256_verify_prehash`. -/
structure VerifyCalls (lib : OpenSSL) (pkey : lib.Pkey) (der hash : Bytes) where
  vctx : lib.VerifyCtx
  ctxNew : lib.evpPkeyCtxNew pkey = some vctx
  init : 0 < (lib.evpPkeyVerifyInit vctx).1
  verify : lib.evpPkeyVerify (lib.evpPkeyVerifyInit vctx).2 der hash = 1

/-- A run of the hook in which every call succeeds. -/
structure Calls (lib : OpenSSL) (f : Slices) where
  pkey : lib.Pkey
  der : Bytes
  key : KeyCalls lib f.qx f.qy pkey
  sig : DerCalls lib f.r f.s der
  verify : VerifyCalls lib pkey der f.h

variable {lib : OpenSSL}

theorem pubkey_eq_some_iff (qx qy : Bytes) (pkey : lib.Pkey) :
    p256PubkeyFromCoords lib qx qy = some pkey ↔ Nonempty (KeyCalls lib qx qy pkey) := by
  unfold p256PubkeyFromCoords
  constructor
  · intro run
    cases created : lib.evpPkeyCtxNewFromName "EC" with
    | none =>
      rw [created] at run
      cases run
    | some pctx =>
      simp only [created] at run
      by_cases init : (lib.evpPkeyFromdataInit pctx).1 ≤ 0
      · rw [if_pos init] at run
        cases run
      · rw [if_neg init] at run
        by_cases made : (lib.evpPkeyFromdata (lib.evpPkeyFromdataInit pctx).2 "prime256v1" (0x04 :: (qx ++ qy))).1 ≤ 0
        · rw [if_pos made] at run
          cases run
        · rw [if_neg made] at run
          exact ⟨⟨pctx, created, not_le.mp init, not_le.mp made, run⟩⟩
  · rintro ⟨⟨pctx, created, init, made, key⟩⟩
    simp only [created, if_neg (not_le.mpr init), if_neg (not_le.mpr made), key]

theorem sigToDer_iff (r s der : Bytes) :
    (∃ buffer len, p256SigToDer lib r s = some (buffer, len) ∧ buffer.take len.toNat = der) ↔
      Nonempty (DerCalls lib r s der) := by
  unfold p256SigToDer
  constructor
  · rintro ⟨buffer, len, run, taken⟩
    cases new : lib.ecdsaSigNew with
    | none =>
      rw [new] at run
      cases run
    | some sig =>
      simp only [new] at run
      cases first : lib.bnBin2bn false r with
      | none =>
        rw [first] at run
        cases run
      | some bnR =>
        cases second : lib.bnBin2bn true s with
        | none =>
          rw [first, second] at run
          cases run
        | some bnS =>
          simp only [first, second] at run
          by_cases set : (lib.ecdsaSigSet0 sig bnR bnS).1 = 0
          · rw [if_pos set] at run
            cases run
          · rw [if_neg set] at run
            by_cases short : (lib.i2dEcdsaSig (lib.ecdsaSigSet0 sig bnR bnS).2).1 ≤ 0
            · rw [if_pos short] at run
              cases run
            · rw [if_neg short, Option.map_eq_some_iff] at run
              obtain ⟨buffer', written, same⟩ := run
              cases same
              exact ⟨⟨sig, new, bnR, first, bnS, second, set, not_le.mp short, buffer, written, taken⟩⟩
  · rintro ⟨⟨sig, new, bnR, first, bnS, second, set, long, buffer, written, taken⟩⟩
    refine ⟨buffer, _, ?_, taken⟩
    simp only [new, first, second, if_neg set, if_neg (not_le.mpr long), written]
    rfl

theorem verifyPrehash_iff (pkey : lib.Pkey) (buffer : Bytes) (len : ℤ) (hash : Bytes) :
    p256VerifyPrehash lib pkey buffer len hash ≠ 0 ↔ Nonempty (VerifyCalls lib pkey (buffer.take len.toNat) hash) := by
  unfold p256VerifyPrehash
  constructor
  · intro run
    cases new : lib.evpPkeyCtxNew pkey with
    | none =>
      rw [new] at run
      exact absurd rfl run
    | some vctx =>
      simp only [new] at run
      by_cases init : (lib.evpPkeyVerifyInit vctx).1 > 0
      · rw [if_pos init] at run
        by_cases verified : lib.evpPkeyVerify (lib.evpPkeyVerifyInit vctx).2 (buffer.take len.toNat) hash = 1
        · exact ⟨⟨vctx, new, init, verified⟩⟩
        · rw [if_neg verified] at run
          exact absurd rfl run
      · rw [if_neg init] at run
        exact absurd rfl run
  · rintro ⟨⟨vctx, new, init, verified⟩⟩
    simp only [new, if_pos init, if_pos verified]
    exact one_ne_zero

/-- **The hook accepts exactly when every call succeeds**, whatever the calls do. -/
theorem hook_cases (lib : OpenSSL) (input : Bytes) :
    ((input.length = 160 ∧ Nonempty (Calls lib (slices input))) ∧ hookP256verify lib input = accepted) ∨
    (¬ (input.length = 160 ∧ Nonempty (Calls lib (slices input))) ∧ hookP256verify lib input = []) := by
  unfold hookP256verify
  by_cases length : input.length = 160
  · rw [and_iff_right length, if_neg (not_not.mpr length)]
    dsimp only
    cases key : p256PubkeyFromCoords lib (slices input).qx (slices input).qy with
    | none =>
      refine .inr ⟨?_, rfl⟩
      rintro ⟨calls⟩
      rw [(pubkey_eq_some_iff _ _ _).mpr ⟨calls.key⟩] at key
      cases key
    | some pkey =>
      have keyCalls := (pubkey_eq_some_iff _ _ _).mp key
      cases der : p256SigToDer lib (slices input).r (slices input).s with
      | none =>
        refine .inr ⟨?_, rfl⟩
        rintro ⟨calls⟩
        obtain ⟨buffer, len, run, -⟩ := (sigToDer_iff _ _ _).mpr ⟨calls.sig⟩
        rw [run] at der
        cases der
      | some sig =>
        obtain ⟨buffer, len⟩ := sig
        have derCalls := (sigToDer_iff _ _ _).mp ⟨buffer, len, der, rfl⟩
        have verifies := verifyPrehash_iff pkey buffer len (slices input).h
        by_cases valid : p256VerifyPrehash lib pkey buffer len (slices input).h ≠ 0
        · refine .inl ⟨?_, if_pos valid⟩
          obtain ⟨keyCalls⟩ := keyCalls
          obtain ⟨derCalls⟩ := derCalls
          obtain ⟨verifyCalls⟩ := verifies.mp valid
          exact ⟨⟨pkey, _, keyCalls, derCalls, verifyCalls⟩⟩
        · refine .inr ⟨?_, if_neg valid⟩
          rintro ⟨pkey', der', keyCalls', sigCalls', verifyCalls'⟩
          have sameKey := (pubkey_eq_some_iff _ _ _).mpr ⟨keyCalls'⟩
          rw [key] at sameKey
          cases sameKey
          obtain ⟨buffer', len', run, taken⟩ := (sigToDer_iff _ _ _).mpr ⟨sigCalls'⟩
          rw [der] at run
          cases run
          rw [← taken] at verifyCalls'
          exact valid (verifies.mpr ⟨verifyCalls'⟩)
  · rw [if_pos length]
    exact .inr ⟨fun both => length both.1, rfl⟩

end KPlugin.P256
