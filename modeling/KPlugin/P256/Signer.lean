import KPlugin.P256.Group
import KPlugin.P256.Verify

/-!
# Who can sign

Every point of the curve is the public key of a secret, and the signatures that verify
under it are those that its holder can make with some nonce. So the hook accepts the
requests of signers and nothing else. Moreover, a verification sees of the hash its
residue only and of the verifier's point its abscissa only: requests that differ in
nothing else are answered alike.
-/

namespace KPlugin.P256
open Radix EcdsaScheme PrimeCurve

/-! ## The scheme -/

/-- The public key of a secret. -/
noncomputable def publicKey (d : ZMod order) : Point := d • generator

/-- The 64 bytes of a key. -/
def keyBytes (Q : Point) : Bytes := (coordinates Q).elim [] fun c => encodePair c.1 c.2

/-- The input that asks for the verification of a signature under the signer's key. -/
noncomputable def request (d : ZMod order) (h : ℕ) (sig : ℕ × ℕ) : Bytes :=
  digitsBE 8 32 h ++ digitsBE 8 32 sig.1 ++ digitsBE 8 32 sig.2 ++ keyBytes (publicKey d)

theorem coordinates_publicKey_eq_none_iff (d : ZMod order) : coordinates (publicKey d) = none ↔ d = 0 := by
  rw [coordinates_eq_none_iff, publicKey, curve_generated.smul_eq_zero_iff]

/-- A signature verifies as in the scheme. -/
theorem verifies_iff (Q : Point) (h r s : ℕ) : Verifies Q h r s ↔ EcdsaScheme.Verifies order generator abscissa Q h r s := by
  have point : EcdsaScheme.verifierPoint generator Q (h : ZMod order) r s = verifierPoint Q h r s := by
    rw [EcdsaScheme.verifierPoint, smul_eq_val_nsmul, smul_eq_val_nsmul, verifierPoint]
  constructor
  · rintro ⟨r_range, s_range, c, named, congruent⟩
    exact ⟨r_range, s_range, c.1.val, by rw [point, abscissa, named, Option.map_some], congruent⟩
  · rintro ⟨r_range, s_range, x, named, congruent⟩
    rw [point] at named
    obtain ⟨c, known, rfl⟩ := Option.map_eq_some_iff.mp named
    exact ⟨r_range, s_range, c, known, congruent⟩

/-! ## The requests of signers -/

/-- The input made of these fields. -/
def Slices.bytes (f : Slices) : Bytes := f.h ++ f.r ++ f.s ++ f.qx ++ f.qy

theorem Slices.Full.length_bytes {f : Slices} (full : f.Full) : f.bytes.length = 160 := by
  simp only [bytes, List.length_append, full.h, full.r, full.s, full.qx, full.qy]

theorem Slices.Full.slices_bytes {f : Slices} (full : f.Full) : slices f.bytes = f := by
  cases f with
  | mk h r s qx qy =>
    simp [slices, bytes, List.drop_append, List.drop_eq_nil_of_le, List.take_of_length_le, full.h, full.r, full.s,
      full.qx, full.qy]

theorem bytes_slices {input : Bytes} (length : input.length = 160) : (slices input).bytes = input := by
  have next : ∀ n, (input.drop n).take 32 ++ input.drop (n + 32) = input.drop n := by
    intro n
    rw [← List.drop_drop, List.take_append_drop]
  have last : (input.drop 128).take 32 = input.drop 128 := List.take_of_length_le (by rw [List.length_drop]; omega)
  unfold Slices.bytes slices
  rw [last, List.append_assoc, List.append_assoc, List.append_assoc, next 96, next 64, next 32]
  exact List.take_append_drop 32 input

/-- The fields of numbers and coordinates. -/
def Slices.ofNumbers (h r s : ℕ) (x y : Fp) : Slices :=
  ⟨digitsBE 8 32 h, digitsBE 8 32 r, digitsBE 8 32 s, digitsBE 8 32 x.val, digitsBE 8 32 y.val⟩

theorem Slices.full_ofNumbers (h r s : ℕ) (x y : Fp) : (ofNumbers h r s x y).Full := by
  constructor <;> exact length_digitsBE _ _

theorem valueBE_word {n : ℕ} (fits : n < 2 ^ 256) : valueBE (digitsBE 8 32 n) = n :=
  valueBE_digitsBE_of_lt (fits.trans_eq (by rw [← pow_mul]))

theorem digitsBE_word {bs : Bytes} (length : bs.length = 32) : digitsBE 8 32 (valueBE bs) = bs := by
  rw [← length]
  exact digitsBE_valueBE bs

theorem request_eq {d : ZMod order} {x y : Fp} (named : coordinates (publicKey d) = some (x, y)) (h r s : ℕ) :
    request d h (r, s) = (Slices.ofNumbers h r s x y).bytes := by
  simp only [request, keyBytes, named, Option.elim_some, Slices.ofNumbers, Slices.bytes, encodePair, List.append_assoc]

/-- **Valid fields are those of a signer's request.** -/
theorem validSlices_iff {f : Slices} (full : f.Full) :
    ValidSlices f ↔ ∃ d k sig, d ≠ 0 ∧ sign generator abscissa d k (valueBE f.h) = some sig ∧
      f.bytes = request d (valueBE f.h) sig := by
  constructor
  · rintro ⟨belowX, belowY, -, Q, named, verifies⟩
    obtain ⟨d, rfl⟩ := curve_generated.exists_smul_eq Q
    obtain ⟨k, signed⟩ := (verifies_iff_sign (abscissas curve_short) d).mp ((verifies_iff _ _ _ _).mp verifies)
    refine ⟨d, k, _, ?_, signed, ?_⟩
    · intro zero
      have infinite := (coordinates_publicKey_eq_none_iff d).mpr zero
      cases infinite.symm.trans named
    · rw [request_eq named, Slices.ofNumbers, val_natCast_of_lt belowX, val_natCast_of_lt belowY, digitsBE_word full.h,
        digitsBE_word full.r, digitsBE_word full.s, digitsBE_word full.qx, digitsBE_word full.qy]
  · rintro ⟨d, k, ⟨r, s⟩, finite, signed, same⟩
    have verifies : Verifies (publicKey d) (valueBE f.h) r s :=
      (verifies_iff _ _ _ _).mpr ((verifies_iff_sign (abscissas curve_short) d).mpr ⟨k, signed⟩)
    have small : order < 2 ^ 256 ∧ fieldModulus < 2 ^ 256 := by decide +kernel
    have residue : ∀ a : Fp, valueBE (digitsBE 8 32 a.val) = a.val := fun a =>
      valueBE_word ((ZMod.val_lt a).trans small.2)
    cases named : coordinates (publicKey d) with
    | none => exact absurd ((coordinates_publicKey_eq_none_iff d).mp named) finite
    | some c =>
      rw [request_eq named] at same
      have fields := congrArg slices same
      rw [full.slices_bytes, (Slices.full_ofNumbers _ _ _ _ _).slices_bytes] at fields
      have ordinate : valueBE f.qy = c.2.val := by rw [fields, Slices.ofNumbers, residue]
      have abscissa : valueBE f.qx = c.1.val := by rw [fields, Slices.ofNumbers, residue]
      have first : valueBE f.r = r := by
        rw [fields, Slices.ofNumbers, valueBE_word (verifies.r_range.2.trans small.1)]
      have second : valueBE f.s = s := by
        rw [fields, Slices.ofNumbers, valueBE_word (verifies.s_range.2.trans small.1)]
      constructor
      · rw [abscissa]
        exact ZMod.val_lt _
      · rw [ordinate]
        exact ZMod.val_lt _
      · rw [abscissa, ordinate, ZMod.natCast_zmod_val, ZMod.natCast_zmod_val]
        exact onCurve_of_coordinates named
      · rw [abscissa, ordinate, ZMod.natCast_zmod_val, ZMod.natCast_zmod_val, first, second]
        exact ⟨publicKey d, named, verifies⟩

/-! ## What the hook accepts -/

variable {lib : OpenSSL} {keyOf : lib.Pkey → Point → Prop}

/-- The hook of a library that is served decides validity. -/
theorem OpenSSL.Documented.hook_iff (documented : lib.Documented keyOf) (served : ∀ f, Served lib f) (input : Bytes) :
    hookP256verify lib input = digitsBE 8 32 1 ↔ input.length = 160 ∧ ValidSlices (slices input) := by
  rw [hook_eq_one_iff]
  refine and_congr_right fun length => ?_
  rw [documented.calls_iff (slices_full length)]
  exact and_iff_left (served _)

/-- **The hook accepts the requests of signers**, with whatever secret and nonce, and no other input. -/
theorem accepts_requests (documented : lib.Documented keyOf) (served : ∀ f, Served lib f) (input : Bytes) :
    hookP256verify lib input = digitsBE 8 32 1 ↔
      ∃ d k h sig, d ≠ 0 ∧ h < 2 ^ 256 ∧ sign generator abscissa d k h = some sig ∧ input = request d h sig := by
  rw [documented.hook_iff served]
  constructor
  · rintro ⟨length, valid⟩
    have full := slices_full length
    obtain ⟨d, k, sig, finite, signed, same⟩ := (validSlices_iff full).mp valid
    rw [bytes_slices length] at same
    exact ⟨d, k, _, sig, finite, valueBE_lt_of_full full.h, signed, same⟩
  · rintro ⟨d, k, h, ⟨r, s⟩, finite, small, signed, rfl⟩
    cases named : coordinates (publicKey d) with
    | none => exact absurd ((coordinates_publicKey_eq_none_iff d).mp named) finite
    | some c =>
      have full := Slices.full_ofNumbers h r s c.1 c.2
      have hash : valueBE (Slices.ofNumbers h r s c.1 c.2).h = h := valueBE_word small
      rw [request_eq named, full.slices_bytes]
      refine ⟨full.length_bytes, (validSlices_iff full).mpr ⟨d, k, (r, s), finite, ?_, ?_⟩⟩
      · rw [hash]
        exact signed
      · rw [hash, request_eq named]

/-- The signature of the hash zero was made by a signer. -/
theorem accepts_requests_zero_hash :
    ∃ d k h sig, d ≠ 0 ∧ h < 2 ^ 256 ∧ sign generator abscissa d k h = some sig ∧ zeroHashInput = request d h sig := by
  refine (accepts_requests referenceOpenSSL_documented referenceOpenSSL_served zeroHashInput).mp ?_
  exact (referenceOpenSSL_documented.hook_iff referenceOpenSSL_served _).mpr ⟨by decide +kernel, zeroHash_valid⟩

/-! ## Requests that are answered alike -/

/-- Another hash with the same residue, the opposite second number, or the opposite key and hash. -/
inductive Alike : Slices → Slices → Prop
  | hash (f : Slices) (h : Bytes) (length : h.length = 32) (same : valueBE h ≡ valueBE f.h [MOD order]) :
    Alike f { f with h := h }
  | twin (f : Slices) (s : Bytes) (length : s.length = 32) (sum : valueBE f.s + valueBE s = order) :
    Alike f { f with s := s }
  | mirror (f : Slices) (h qy : Bytes) (lengthH : h.length = 32) (lengthY : qy.length = 32)
    (hash : valueBE f.h + valueBE h ≡ 0 [MOD order]) (key : valueBE f.qy + valueBE qy = fieldModulus) :
    Alike f { f with h := h, qy := qy }

theorem Alike.full {f g : Slices} (alike : Alike f g) (full : f.Full) : g.Full := by
  cases alike with
  | hash h length same => exact { full with h := length }
  | twin s length sum => exact { full with s := length }
  | mirror h qy lengthH lengthY hash key => exact { full with h := lengthH, qy := lengthY }

theorem Alike.symm {f g : Slices} (alike : Alike f g) (full : f.Full) : Alike g f := by
  cases alike with
  | hash h length same => exact .hash { f with h := h } f.h full.h same.symm
  | twin s length sum => exact .twin { f with s := s } f.s full.s (by rw [add_comm]; exact sum)
  | mirror h qy lengthH lengthY hash key =>
    exact .mirror { f with h := h, qy := qy } f.h f.qy full.h full.qy (by rw [add_comm]; exact hash)
      (by rw [add_comm]; exact key)

/-- The change keeps valid fields valid. -/
theorem Alike.valid {f g : Slices} (alike : Alike f g) (valid : ValidSlices f) : ValidSlices g := by
  obtain ⟨belowX, belowY, on, Q, named, verifies⟩ := valid
  have verified := (verifies_iff _ _ _ _).mp verifies
  cases alike with
  | hash h length same =>
    exact ⟨belowX, belowY, on, Q, named, (verifies_iff _ _ _ _).mpr (verified.hash same)⟩
  | twin s length sum =>
    have verifies' := verified.twin (abscissas curve_short) sum
    exact ⟨belowX, belowY, on, Q, named, (verifies_iff _ _ _ _).mpr verifies'⟩
  | mirror h qy lengthH lengthY hash key =>
    have opposite : (valueBE qy : Fp) = -(valueBE f.qy : Fp) := by
      have zero : ((valueBE f.qy + valueBE qy : ℕ) : Fp) = 0 := by rw [key, ZMod.natCast_self]
      push_cast at zero
      exact eq_neg_of_add_eq_zero_right zero
    have finite : (valueBE f.qy : Fp) ≠ 0 := curve_generated.ordinate_ne_zero named
    have nonzero : valueBE f.qy ≠ 0 := by
      intro zero
      apply finite
      rw [zero, Nat.cast_zero]
    have below : valueBE qy < fieldModulus := by omega
    have negative : coordinates (-Q) = some ((valueBE f.qx : Fp), -(valueBE f.qy : Fp)) :=
      coordinates_neg curve_short named
    refine ⟨belowX, below, ?_, -Q, ?_, (verifies_iff _ _ _ _).mpr (verified.mirror (abscissas curve_short) hash)⟩
    · rw [opposite]
      exact onCurve_of_coordinates negative
    · rw [opposite]
      exact negative

/-- **Any number of such changes** leaves the answer as it is. -/
theorem answers_alike (documented : lib.Documented keyOf) (served : ∀ f, Served lib f) {f g : Slices} (full : f.Full)
    (changes : Relation.ReflTransGen Alike f g) : hookP256verify lib f.bytes = hookP256verify lib g.bytes := by
  have kept : g.Full ∧ (ValidSlices f ↔ ValidSlices g) := by
    induction changes with
    | refl => exact ⟨full, Iff.rfl⟩
    | tail _ alike ih =>
      obtain ⟨fullHere, same⟩ := ih
      exact ⟨alike.full fullHere, same.trans ⟨alike.valid, (alike.symm fullHere).valid⟩⟩
  obtain ⟨fullG, same⟩ := kept
  have accept : hookP256verify lib f.bytes = digitsBE 8 32 1 ↔ hookP256verify lib g.bytes = digitsBE 8 32 1 := by
    rw [documented.hook_iff served, documented.hook_iff served, full.length_bytes, fullG.length_bytes, full.slices_bytes,
      fullG.slices_bytes]
    exact and_congr_right fun _ => same
  rw [← accepted_eq] at accept
  rcases hook_cases lib f.bytes with ⟨_, one⟩ | ⟨_, nothing⟩
  · rw [one, accept.mp one]
  · rcases hook_cases lib g.bytes with ⟨_, one⟩ | ⟨_, nothing'⟩
    · rw [one, accept.mpr one]
    · rw [nothing, nothing']

/-- The accepted signature of the hash zero and its twin. -/
theorem answers_alike_twin :
    hookP256verify referenceOpenSSL (slices zeroHashInput).bytes =
      hookP256verify referenceOpenSSL
        { slices zeroHashInput with s := digitsBE 8 32 (order - generatorX) }.bytes := by
  have full : (slices zeroHashInput).Full := slices_full (by decide +kernel)
  refine answers_alike referenceOpenSSL_documented referenceOpenSSL_served full (.single ?_)
  refine .twin _ _ (length_digitsBE _ _) ?_
  decide +kernel

end KPlugin.P256
