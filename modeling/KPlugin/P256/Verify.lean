import KPlugin.Curve.Term
import KPlugin.P256.Hooks

/-!
# What `P256Verify` decides

OpenSSL accepts the uncompressed encodings of the points of the curve and no other
string of that form, writes a signature in DER, and verifies as the textbook says. Then
the hook accepts an input exactly when its fields are a key on the curve and a
signature that verifies under it, unless a call fails that nothing in the input decides.
-/

namespace KPlugin.P256
open Radix PrimeCurve WeierstrassCurve.Affine

/-! ## What is decided -/

/-- The 64 bytes of two coordinates. -/
def encodePair (x y : Fp) : Bytes := digitsBE 8 32 x.val ++ digitsBE 8 32 y.val

/-- The fields are a point of the curve in residues and a signature that verifies under it. -/
structure ValidSlices (f : Slices) : Prop where
  x_below : valueBE f.qx < fieldModulus
  y_below : valueBE f.qy < fieldModulus
  onCurve : OnCurve (valueBE f.qx : Fp) (valueBE f.qy : Fp)
  verifies : ∃ Q : Point, coordinates Q = some ((valueBE f.qx : Fp), (valueBE f.qy : Fp)) ∧
    Verifies Q (valueBE f.h) (valueBE f.r) (valueBE f.s)

/-- None of the calls fails that have no reason in the input to fail. -/
structure Served (lib : OpenSSL) (f : Slices) : Prop where
  key : ∃ pctx, lib.evpPkeyCtxNewFromName "EC" = some pctx ∧ 0 < (lib.evpPkeyFromdataInit pctx).1
  sig : ∃ der, Nonempty (DerCalls lib f.r f.s der)
  verify : ∀ pkey, Nonempty (KeyCalls lib f.qx f.qy pkey) →
    ∃ vctx, lib.evpPkeyCtxNew pkey = some vctx ∧ 0 < (lib.evpPkeyVerifyInit vctx).1

/-- What is assumed of OpenSSL; `keyOf` says which point a key object holds. -/
structure OpenSSL.Documented (lib : OpenSSL) (keyOf : lib.Pkey → Point → Prop) : Prop where
  fromdata_accepts : ∀ ctx x y, OnCurve x y →
    0 < (lib.evpPkeyFromdata ctx "prime256v1" (0x04 :: encodePair x y)).1 ∧
      ∃ pkey, (lib.evpPkeyFromdata ctx "prime256v1" (0x04 :: encodePair x y)).2 = some pkey ∧
        ∀ Q : Point, coordinates Q = some (x, y) → keyOf pkey Q
  fromdata_refuses : ∀ ctx (c : Bytes), c.length = 64 → (∀ x y, OnCurve x y → c ≠ encodePair x y) →
    (lib.evpPkeyFromdata ctx "prime256v1" (0x04 :: c)).1 ≤ 0
  /-- The DER form of the numbers that were read from 32 bytes each. -/
  i2d : ∀ (r s : Bytes), r.length = 32 → s.length = 32 → ∀ der, DerCalls lib r s der →
    der = Der.pair (valueBE r) (valueBE s)
  verify : ∀ pkey Q vctx r s (hash : Bytes), keyOf pkey Q → lib.evpPkeyCtxNew pkey = some vctx →
    0 < (lib.evpPkeyVerifyInit vctx).1 → r < 2 ^ 256 → s < 2 ^ 256 → hash.length = 32 →
    (lib.evpPkeyVerify (lib.evpPkeyVerifyInit vctx).2 (Der.pair r s) hash = 1 ↔ Verifies Q (valueBE hash) r s)

/-! ## Encodings -/

/-- The two halves of a key are the coordinates. -/
theorem eq_encodePair_iff {qx qy : Bytes} (lengthX : qx.length = 32) (lengthY : qy.length = 32) (x y : Fp) :
    qx ++ qy = encodePair x y ↔ valueBE qx = x.val ∧ valueBE qy = y.val := by
  have fits : ∀ a : Fp, a.val < (2 ^ 8) ^ 32 := fun a => (ZMod.val_lt a).trans (by decide +kernel)
  constructor
  · intro same
    obtain ⟨first, second⟩ := List.append_inj same (by rw [lengthX, length_digitsBE])
    rw [first, second, valueBE_digitsBE_of_lt (fits x), valueBE_digitsBE_of_lt (fits y)]
    exact ⟨rfl, rfl⟩
  · rintro ⟨first, second⟩
    have backX := digitsBE_valueBE qx
    have backY := digitsBE_valueBE qy
    rw [lengthX, first] at backX
    rw [lengthY, second] at backY
    rw [encodePair, backX, backY]

theorem val_natCast_of_lt {n : ℕ} (below : n < fieldModulus) : (n : Fp).val = n := by
  rw [ZMod.val_natCast, Nat.mod_eq_of_lt below]

theorem coordinates_some {x y : Fp} (on : OnCurve x y) : ∃ Q : Point, coordinates Q = some (x, y) :=
  ⟨.some x y ((nonsingular_iff_onCurve x y).mpr on), rfl⟩

theorem onCurve_of_coordinates {Q : Point} {x y : Fp} (named : coordinates Q = some (x, y)) : OnCurve x y := by
  cases Q with
  | zero => cases named
  | some x' y' h =>
    cases named
    exact (nonsingular_iff_onCurve _ _).mp h

/-! ## The hook -/

/-- The fields of an input of the right length. -/
structure Slices.Full (f : Slices) : Prop where
  h : f.h.length = 32
  r : f.r.length = 32
  s : f.s.length = 32
  qx : f.qx.length = 32
  qy : f.qy.length = 32

theorem slices_full {input : Bytes} (length : input.length = 160) : (slices input).Full := by
  constructor
  all_goals
    simp only [slices, List.length_take, List.length_drop]
    omega

/-- A number of 32 bytes. -/
theorem valueBE_lt_of_full {bs : Bytes} (length : bs.length = 32) : valueBE bs < 2 ^ 256 := by
  have bound := valueBE_lt bs
  rw [length, ← pow_mul] at bound
  exact bound

variable {lib : OpenSSL} {keyOf : lib.Pkey → Point → Prop} {f : Slices}

/-- A key is made of the residues of a point of the curve only. -/
theorem OpenSSL.Documented.key_onCurve (documented : lib.Documented keyOf) (full : f.Full) {pkey : lib.Pkey}
    (calls : KeyCalls lib f.qx f.qy pkey) :
    valueBE f.qx < fieldModulus ∧ valueBE f.qy < fieldModulus ∧ OnCurve (valueBE f.qx : Fp) (valueBE f.qy : Fp) := by
  have lengths : (f.qx ++ f.qy).length = 64 := by rw [List.length_append, full.qx, full.qy]
  have known : ∃ x y, OnCurve x y ∧ f.qx ++ f.qy = encodePair x y := by
    by_contra unknown
    have other : ∀ x y, OnCurve x y → f.qx ++ f.qy ≠ encodePair x y := fun x y on same => unknown ⟨x, y, on, same⟩
    have refused := documented.fromdata_refuses (lib.evpPkeyFromdataInit calls.pctx).2 _ lengths other
    exact absurd calls.fromdata (not_lt.mpr refused)
  obtain ⟨x, y, on, same⟩ := known
  obtain ⟨first, second⟩ := (eq_encodePair_iff full.qx full.qy x y).mp same
  rw [first, second, ZMod.natCast_zmod_val, ZMod.natCast_zmod_val]
  exact ⟨ZMod.val_lt x, ZMod.val_lt y, on⟩

/-- **The key of a point of the curve is made** and holds it. -/
theorem OpenSSL.Documented.key_made (documented : lib.Documented keyOf) (full : f.Full) {pctx : lib.KeyCtx}
    (newFromName : lib.evpPkeyCtxNewFromName "EC" = some pctx) (init : 0 < (lib.evpPkeyFromdataInit pctx).1)
    (belowX : valueBE f.qx < fieldModulus) (belowY : valueBE f.qy < fieldModulus)
    (on : OnCurve (valueBE f.qx : Fp) (valueBE f.qy : Fp)) :
    ∃ pkey, Nonempty (KeyCalls lib f.qx f.qy pkey) ∧
      ∀ Q : Point, coordinates Q = some ((valueBE f.qx : Fp), (valueBE f.qy : Fp)) → keyOf pkey Q := by
  have encoded := (eq_encodePair_iff full.qx full.qy (valueBE f.qx : Fp) (valueBE f.qy : Fp)).mpr
    ⟨(val_natCast_of_lt belowX).symm, (val_natCast_of_lt belowY).symm⟩
  obtain ⟨positive, pkey, made, holds⟩ := documented.fromdata_accepts (lib.evpPkeyFromdataInit pctx).2 _ _ on
  rw [← encoded] at positive made
  exact ⟨pkey, ⟨⟨pctx, newFromName, init, positive, made⟩⟩, holds⟩

/-- The calls make one key. -/
theorem KeyCalls.unique {qx qy : Bytes} {pkey pkey' : lib.Pkey} (calls : KeyCalls lib qx qy pkey)
    (calls' : KeyCalls lib qx qy pkey') : pkey = pkey' := by
  have first := (pubkey_eq_some_iff qx qy pkey).mpr ⟨calls⟩
  have second := (pubkey_eq_some_iff qx qy pkey').mpr ⟨calls'⟩
  exact Option.some.inj (first.symm.trans second)

/-- **Every call succeeds** on valid fields, if it is served, and on no others. -/
theorem OpenSSL.Documented.calls_iff (documented : lib.Documented keyOf) (full : f.Full) :
    Nonempty (Calls lib f) ↔ ValidSlices f ∧ Served lib f := by
  have small := valueBE_lt_of_full full.r
  have small' := valueBE_lt_of_full full.s
  constructor
  · rintro ⟨pkey, der, key, sig, ⟨vctx, ctxNew, ready, verified⟩⟩
    obtain ⟨belowX, belowY, on⟩ := documented.key_onCurve full key
    obtain ⟨pkey', ⟨key'⟩, holds⟩ := documented.key_made full key.newFromName key.init belowX belowY on
    have same : pkey' = pkey := key'.unique key
    subst same
    obtain ⟨Q, named⟩ := coordinates_some on
    have written := documented.i2d _ _ full.r full.s der sig
    rw [written] at verified
    have verifies := (documented.verify pkey' Q vctx _ _ _ (holds Q named) ctxNew ready small small' full.h).mp verified
    refine ⟨⟨belowX, belowY, on, Q, named, verifies⟩, ⟨key.pctx, key.newFromName, key.init⟩, ⟨der, ⟨sig⟩⟩, ?_⟩
    rintro other ⟨calls⟩
    rw [calls.unique key']
    exact ⟨vctx, ctxNew, ready⟩
  · rintro ⟨valid, served⟩
    obtain ⟨pctx, newFromName, init⟩ := served.key
    obtain ⟨pkey, ⟨key⟩, holds⟩ := documented.key_made full newFromName init valid.x_below valid.y_below valid.onCurve
    obtain ⟨der, ⟨sig⟩⟩ := served.sig
    obtain ⟨vctx, ctxNew, ready⟩ := served.verify pkey ⟨key⟩
    obtain ⟨Q, named, verifies⟩ := valid.verifies
    have written := documented.i2d _ _ full.r full.s der sig
    have verified := (documented.verify pkey Q vctx _ _ _ (holds Q named) ctxNew ready small small' full.h).mpr verifies
    rw [← written] at verified
    exact ⟨⟨pkey, der, key, sig, vctx, ctxNew, ready, verified⟩⟩

theorem accepted_eq : accepted = digitsBE 8 32 1 := by decide

/-- The hook accepts when every call succeeds. -/
theorem hook_eq_one_iff (lib : OpenSSL) (input : Bytes) :
    hookP256verify lib input = digitsBE 8 32 1 ↔ input.length = 160 ∧ Nonempty (Calls lib (slices input)) := by
  rw [← accepted_eq]
  rcases hook_cases lib input with ⟨succeed, run⟩ | ⟨fail, run⟩
  · exact iff_of_true run succeed
  · rw [run]
    exact iff_of_false (by decide) fail

/-- **The hook answers one or nothing**; it answers one exactly when every call succeeds,
and with the OpenSSL that is documented exactly when the input is a hash, a signature and
a key of 32-byte numbers under which it verifies, and no call fails for another reason. -/
theorem p256verify_decides (lib : OpenSSL) :
    (∀ input, hookP256verify lib input = digitsBE 8 32 1 ∨ hookP256verify lib input = []) ∧
    (∀ input, hookP256verify lib input = digitsBE 8 32 1 ↔ input.length = 160 ∧ Nonempty (Calls lib (slices input))) ∧
    ∀ keyOf, lib.Documented keyOf → ∀ input,
      (hookP256verify lib input = digitsBE 8 32 1 ↔
        input.length = 160 ∧ ValidSlices (slices input) ∧ Served lib (slices input)) := by
  refine ⟨?_, hook_eq_one_iff lib, ?_⟩
  · intro input
    rw [← accepted_eq]
    exact (hook_cases lib input).imp And.right And.right
  · intro keyOf documented input
    rw [hook_eq_one_iff]
    exact and_congr_right fun length => documented.calls_iff (slices_full length)

/-! ## A library that computes in the group itself -/

/-- The uncompressed form of a point. -/
def IsUncompressed (pub : Bytes) (Q : Point) : Prop :=
  ∃ c : Fp × Fp, coordinates Q = some c ∧ pub = 0x04 :: encodePair c.1 c.2

open Classical in
/-- Key objects are points, signatures pairs of numbers. -/
noncomputable def referenceOpenSSL : OpenSSL where
  KeyCtx := Unit
  Pkey := Point
  EcdsaSig := ℕ × ℕ
  Bignum := ℕ
  VerifyCtx := Point
  evpPkeyCtxNewFromName _ := some ()
  evpPkeyFromdataInit _ := (1, ())
  evpPkeyFromdata _ _ pub :=
    if known : ∃ Q, IsUncompressed pub Q then (1, some known.choose) else (0, none)
  ecdsaSigNew := some (0, 0)
  bnBin2bn _ bs := some (valueBE bs)
  ecdsaSigSet0 _ r s := (1, (r, s))
  i2dEcdsaSig sig := ((Der.pair sig.1 sig.2).length, some (Der.pair sig.1 sig.2))
  evpPkeyCtxNew pkey := some pkey
  evpPkeyVerifyInit vctx := (1, vctx)
  evpPkeyVerify Q sig tbs :=
    if ∃ c, Der.readPair sig = some c ∧ Verifies Q (valueBE tbs) c.1 c.2 then 1 else 0

theorem encodePair_injective {x y x' y' : Fp} (same : encodePair x y = encodePair x' y') : x = x' ∧ y = y' := by
  have lengths : ∀ a : Fp, (digitsBE 8 32 a.val).length = 32 := fun a => length_digitsBE _ _
  have fits : ∀ a : Fp, a.val < (2 ^ 8) ^ 32 := fun a => (ZMod.val_lt a).trans (by decide +kernel)
  obtain ⟨first, second⟩ := (eq_encodePair_iff (lengths x) (lengths y) x' y').mp same
  rw [valueBE_digitsBE_of_lt (fits _)] at first second
  exact ⟨ZMod.val_injective _ first, ZMod.val_injective _ second⟩

theorem referenceOpenSSL_documented : referenceOpenSSL.Documented fun pkey Q => pkey = Q where
  fromdata_accepts := by
    intro ctx x y on
    obtain ⟨Q, named⟩ := coordinates_some on
    have known : ∃ Q, IsUncompressed (0x04 :: encodePair x y) Q := ⟨Q, _, named, rfl⟩
    have made : referenceOpenSSL.evpPkeyFromdata ctx "prime256v1" (0x04 :: encodePair x y) = (1, some known.choose) :=
      dif_pos known
    obtain ⟨c, coordinatesC, same⟩ := known.choose_spec
    obtain ⟨rfl, rfl⟩ := encodePair_injective (List.cons.inj same).2
    rw [made]
    exact ⟨one_pos, _, rfl, fun Q' named' => coordinates_injective (coordinatesC.trans named'.symm)⟩
  fromdata_refuses := by
    intro ctx c _ other
    have unknown : ¬ ∃ Q, IsUncompressed (0x04 :: c) Q := by
      rintro ⟨Q, ⟨x, y⟩, named, same⟩
      exact other x y (onCurve_of_coordinates named) (List.cons.inj same).2
    have refused : referenceOpenSSL.evpPkeyFromdata ctx "prime256v1" (0x04 :: c) = (0, none) := dif_neg unknown
    rw [refused]
  i2d := by
    rintro r s - - der ⟨sig, new, bnR, ⟨⟩, bnS, ⟨⟩, set, long, buffer, ⟨⟩, rfl⟩
    exact List.take_length
  verify := by
    rintro pkey Q vctx r s hash rfl ⟨⟩ _ r_small s_small _
    have read : Der.readPair (Der.pair r s) = some (r, s) := Der.readPair_pair (k := 32) (by decide) r_small s_small
    have meaning : (∃ c, Der.readPair (Der.pair r s) = some c ∧ Verifies pkey (valueBE hash) c.1 c.2) ↔
        Verifies pkey (valueBE hash) r s := by
      rw [read]
      constructor
      · rintro ⟨c, ⟨⟩, verifies⟩
        exact verifies
      · intro verifies
        exact ⟨_, rfl, verifies⟩
    rw [← meaning]
    by_cases verifies : ∃ c, Der.readPair (Der.pair r s) = some c ∧ Verifies pkey (valueBE hash) c.1 c.2
    · exact iff_of_true (if_pos verifies) verifies
    · have zero : referenceOpenSSL.evpPkeyVerify pkey (Der.pair r s) hash = 0 := if_neg verifies
      refine iff_of_false ?_ verifies
      change ¬ referenceOpenSSL.evpPkeyVerify pkey (Der.pair r s) hash = 1
      rw [zero]
      decide

/-! ## The hash zero -/

/-- The signature of the hash 0 whose two numbers are the abscissa of the key. -/
def zeroHashInput : Bytes :=
  digitsBE 8 32 0 ++ digitsBE 8 32 generatorX ++ digitsBE 8 32 generatorX ++ digitsBE 8 32 generatorX ++
    digitsBE 8 32 generatorY

theorem generatorX_below : generatorX < order ∧ generatorX < fieldModulus ∧ generatorY < fieldModulus := by decide +kernel

/-- The verifier's point is the key itself. -/
theorem zeroHash_verifies : Verifies generator 0 generatorX generatorX where
  r_range := ⟨by decide +kernel, generatorX_below.1⟩
  s_range := ⟨by decide +kernel, generatorX_below.1⟩
  abscissa := by
    have nonzero : (generatorX : ZMod order) ≠ 0 := natCast_ne_zero (by decide +kernel) generatorX_below.1
    have one : ((generatorX : ZMod order) / generatorX).val = 1 := by
      rw [div_self nonzero]
      exact ZMod.val_one'' order_prime.ne_one
    have key : verifierPoint generator 0 generatorX generatorX = generator := by
      rw [verifierPoint, one, Nat.cast_zero, zero_div, ZMod.val_zero, zero_nsmul, one_nsmul, zero_add]
    refine ⟨((generatorX : Fp), (generatorY : Fp)), ?_, ?_⟩
    · rw [key]
      rfl
    · rw [val_natCast_of_lt generatorX_below.2.1]

theorem zeroHash_slices : slices zeroHashInput =
    ⟨digitsBE 8 32 0, digitsBE 8 32 generatorX, digitsBE 8 32 generatorX, digitsBE 8 32 generatorX,
      digitsBE 8 32 generatorY⟩ := by
  decide +kernel

theorem zeroHash_valid : ValidSlices (slices zeroHashInput) := by
  have zero : valueBE (digitsBE 8 32 0) = 0 := by decide +kernel
  have abscissa : valueBE (digitsBE 8 32 generatorX) = generatorX := by decide +kernel
  have ordinate : valueBE (digitsBE 8 32 generatorY) = generatorY := by decide +kernel
  rw [zeroHash_slices]
  constructor
  · simp only [abscissa]
    exact generatorX_below.2.1
  · simp only [ordinate]
    exact generatorX_below.2.2
  · simp only [abscissa, ordinate]
    exact generator_onCurve
  · simp only [zero, abscissa, ordinate]
    exact ⟨generator, rfl, zeroHash_verifies⟩

theorem referenceOpenSSL_served (f : Slices) : Served referenceOpenSSL f where
  key := ⟨(), rfl, one_pos⟩
  sig := by
    have long : (0 : ℤ) < (Der.pair (valueBE f.r) (valueBE f.s)).length := by
      unfold Der.pair Der.element
      simp only [List.length_cons]
      omega
    exact ⟨_, ⟨(0, 0), rfl, valueBE f.r, rfl, valueBE f.s, rfl, one_ne_zero, long, _, rfl, rfl⟩⟩
  verify := fun pkey _ => ⟨pkey, rfl, one_pos⟩

/-- It is accepted; with a byte more, or when the verification reports an error, nothing is answered. -/
theorem p256verify_decides_zero_hash :
    hookP256verify referenceOpenSSL zeroHashInput = digitsBE 8 32 1 ∧
    hookP256verify referenceOpenSSL (zeroHashInput ++ [0]) = [] ∧
    hookP256verify { referenceOpenSSL with evpPkeyVerify := fun _ _ _ => -1 } zeroHashInput = [] := by
  have length : zeroHashInput.length = 160 := by decide +kernel
  obtain ⟨-, -, decides⟩ := p256verify_decides referenceOpenSSL
  obtain ⟨answers, succeeds, -⟩ := p256verify_decides { referenceOpenSSL with evpPkeyVerify := fun _ _ _ => -1 }
  refine ⟨?_, ?_, ?_⟩
  · exact (decides _ referenceOpenSSL_documented _).mpr ⟨length, zeroHash_valid, referenceOpenSSL_served _⟩
  · refine (p256verify_decides referenceOpenSSL).1 _ |>.resolve_left fun one => ?_
    have long := ((decides _ referenceOpenSSL_documented _).mp one).1
    rw [List.length_append, length] at long
    exact absurd long (by decide)
  · refine (answers _).resolve_left fun one => ?_
    obtain ⟨-, ⟨calls⟩⟩ := (succeeds _).mp one
    have reported : (-1 : ℤ) = 1 := calls.verify.verify
    omega

end KPlugin.P256
