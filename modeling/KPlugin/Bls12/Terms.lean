import KPlugin.Bls12.Blst

/-!
# Point terms and affine points

Field elements and scalars cross between GMP and blst as little-endian bytes.
The decoders of the two sorts of terms have the same shape, and so have the
encoders; what the hooks need of a sort is collected in `TermSort`. Decoding
what was encoded gives it back, and the encoded terms are the canonical ones.
-/

namespace KPlugin.Bls12
open Radix ShortWeierstrass

/-! ## Field elements and scalars -/

/-- `blst_fp_to_mpz_ptr`. -/
def blstFpToMpzPtr (blst : Blst) (fp : Fp) : ℤ := mpzImport (blst.lendianFromFp fp)

/-- `mpz_ptr_to_blst_fp`. -/
def mpzPtrToBlstFp (blst : Blst) (m : ℤ) : Option Fp :=
  if mpzSizeinbase2 m > 384 then none
  else some (blst.fpFromLendian (intoBuffer 48 (mpzExport m)))

/-- `mpz_ptr_to_blst_scalar`. -/
def mpzPtrToBlstScalar (blst : Blst) (m : ℤ) : Option Bytes :=
  if mpzSizeinbase2 m > 256 then none
  else some (blst.scalarFromLeBytes ((intoBuffer 32 (mpzExport m)).take ((mpzSizeinbase2 m + 7) / 8)))

/-! ## Points -/

/-- `blst_p1_affine_set_infinity` and `blst_p2_affine_set_infinity`. -/
def affineSetInfinity {K : Type} [Zero K] : K × K := (0, 0)

/-- `g1point_to_blst_p1_affine`; `none` is its answer `false`. -/
def g1pointToBlstP1Affine (blst : Blst) (g1p : G1Point) : Option (Fp × Fp) :=
  if g1p.x = 0 ∧ g1p.y = 0 then some affineSetInfinity
  else do
    let x ← mpzPtrToBlstFp blst g1p.x
    let y ← mpzPtrToBlstFp blst g1p.y
    some (x, y)

/-- `g2point_to_blst_p2_affine`. -/
def g2pointToBlstP2Affine (blst : Blst) (g2p : G2Point) : Option (Fp2 × Fp2) :=
  if g2p.x0 = 0 ∧ g2p.y0 = 0 ∧ g2p.x1 = 0 ∧ g2p.y1 = 0 then some affineSetInfinity
  else do
    let x0 ← mpzPtrToBlstFp blst g2p.x0
    let x1 ← mpzPtrToBlstFp blst g2p.x1
    let y0 ← mpzPtrToBlstFp blst g2p.y0
    let y1 ← mpzPtrToBlstFp blst g2p.y1
    some (⟨x0, x1⟩, ⟨y0, y1⟩)

/-- The coordinates `blst_p1_to_g1point` writes. -/
def g1pointOfAffine (blst : Blst) (a : Fp × Fp) : G1Point := ⟨blstFpToMpzPtr blst a.1, blstFpToMpzPtr blst a.2⟩

/-- The coordinates `blst_p2_to_g2point` writes. -/
def g2pointOfAffine (blst : Blst) (a : Fp2 × Fp2) : G2Point :=
  { x0 := blstFpToMpzPtr blst a.1.re
    x1 := blstFpToMpzPtr blst a.1.im
    y0 := blstFpToMpzPtr blst a.2.re
    y1 := blstFpToMpzPtr blst a.2.im }

/-! ## Which terms decode -/

/-- The absolute value fits 384 bits. -/
def FitsFp (m : ℤ) : Prop := m.natAbs < 2 ^ 384

/-- Both coordinates fit. -/
def Fits1 (t : G1Point) : Prop := FitsFp t.x ∧ FitsFp t.y

/-- All four coordinates fit. -/
def Fits2 (t : G2Point) : Prop := FitsFp t.x0 ∧ FitsFp t.x1 ∧ FitsFp t.y0 ∧ FitsFp t.y1

theorem fitsFp_zero : FitsFp 0 := by
  unfold FitsFp
  decide +kernel

theorem fitsFp_iff (m : ℤ) : FitsFp m ↔ mpzSizeinbase2 m ≤ 384 := (mpzSizeinbase2_le_iff m (by decide)).symm

/-- A coordinate is refused for its size alone. -/
theorem mpzPtrToBlstFp_eq_none_iff (blst : Blst) (m : ℤ) : mpzPtrToBlstFp blst m = none ↔ ¬ FitsFp m := by
  rw [fitsFp_iff, not_le]
  unfold mpzPtrToBlstFp
  by_cases long : mpzSizeinbase2 m > 384
  · rw [if_pos long]
    exact iff_of_true rfl long
  · rw [if_neg long]
    exact iff_of_false nofun long

/-- Two computations in a row fail when one of them does. -/
theorem bind_eq_none_iff {α β γ : Type} {a : Option α} {b : Option β} {f : α → β → γ} :
    (do let x ← a; let y ← b; some (f x y)) = none ↔ a = none ∨ b = none := by
  cases a <;> cases b <;> simp

/-- A G1 term is refused when a coordinate is. -/
theorem g1_decode_eq_none_iff (blst : Blst) (t : G1Point) : g1pointToBlstP1Affine blst t = none ↔ ¬ Fits1 t := by
  unfold g1pointToBlstP1Affine Fits1
  by_cases origin : t.x = 0 ∧ t.y = 0
  · rw [if_pos origin, origin.1, origin.2]
    exact iff_of_false nofun (not_not.mpr ⟨fitsFp_zero, fitsFp_zero⟩)
  · rw [if_neg origin, bind_eq_none_iff, mpzPtrToBlstFp_eq_none_iff, mpzPtrToBlstFp_eq_none_iff, not_and_or]

/-- A G2 term is refused when a coordinate is. -/
theorem g2_decode_eq_none_iff (blst : Blst) (t : G2Point) : g2pointToBlstP2Affine blst t = none ↔ ¬ Fits2 t := by
  unfold g2pointToBlstP2Affine Fits2
  by_cases origin : t.x0 = 0 ∧ t.y0 = 0 ∧ t.x1 = 0 ∧ t.y1 = 0
  · rw [if_pos origin, origin.1, origin.2.1, origin.2.2.1, origin.2.2.2]
    exact iff_of_false nofun (not_not.mpr ⟨fitsFp_zero, fitsFp_zero, fitsFp_zero, fitsFp_zero⟩)
  · rw [if_neg origin, not_and_or, not_and_or, not_and_or, ← mpzPtrToBlstFp_eq_none_iff blst t.x0,
      ← mpzPtrToBlstFp_eq_none_iff blst t.x1, ← mpzPtrToBlstFp_eq_none_iff blst t.y0,
      ← mpzPtrToBlstFp_eq_none_iff blst t.y1]
    cases mpzPtrToBlstFp blst t.x0 <;> cases mpzPtrToBlstFp blst t.x1 <;> cases mpzPtrToBlstFp blst t.y0 <;>
      cases mpzPtrToBlstFp blst t.y1 <;> simp

/-! ## Sorts -/

/-- A sort of point terms together with the operations on its curve. -/
structure TermSort (T K : Type) extends CurveOps K where
  decode : T → Option (K × K)
  encode : K × K → T
  inf : T

/-- `G1Point`. -/
def g1Sort (blst : Blst) : TermSort G1Point Fp where
  toCurveOps := blst.p1
  decode := g1pointToBlstP1Affine blst
  encode := g1pointOfAffine blst
  inf := G1Point.inf

/-- `G2Point`. -/
def g2Sort (blst : Blst) : TermSort G2Point Fp2 where
  toCurveOps := blst.p2
  decode := g2pointToBlstP2Affine blst
  encode := g2pointOfAffine blst
  inf := G2Point.inf

/-- Encoding and decoding fit together. -/
structure TermSort.Codec {T K : Type} [Zero K] [Neg K] (sort : TermSort T K) (canonical : T → Prop) (neg : T → T) :
    Prop where
  decode_encode : ∀ c, sort.decode (sort.encode c) = some c
  canonical_iff : ∀ t, canonical t ↔ ∃ c, sort.encode c = t
  encode_zero : sort.encode (0, 0) = sort.inf
  neg_encode : ∀ c, neg (sort.encode c) = sort.encode (c.1, -c.2)

/-! ## Inverses -/

variable {blst : Blst}

theorem blstFpToMpzPtr_eq (codec : blst.FpCodec) (a : Fp) : blstFpToMpzPtr blst a = a.val := by
  unfold blstFpToMpzPtr mpzImport
  have fits : a.val < (2 ^ 8) ^ 48 := (ZMod.val_lt a).trans (by decide +kernel)
  rw [codec.lendianFromFp, value_digits_of_lt fits]

/-- The export of a number of at most 384 bits fits its buffer. -/
theorem length_export_le {m : ℤ} {bits : ℕ} (short : mpzSizeinbase2 m ≤ bits) :
    (mpzExport m).length ≤ (bits + 7) / 8 := by
  have length := length_mpzExport_le m
  omega

/-- **What blst is given** for a coordinate that fits: 48 bytes with its absolute value. -/
theorem mpzPtrToBlstFp_of_fits (blst : Blst) {m : ℤ} (fits : FitsFp m) : ∃ le : Bytes,
    le.length = 48 ∧ value le = m.natAbs ∧ mpzPtrToBlstFp blst m = some (blst.fpFromLendian le) := by
  have short : mpzSizeinbase2 m ≤ 384 := (fitsFp_iff m).mp fits
  refine ⟨intoBuffer 48 (mpzExport m), length_intoBuffer (length_export_le short), ?_, ?_⟩
  · rw [value_intoBuffer, value_mpzExport]
  · unfold mpzPtrToBlstFp
    rw [if_neg (Nat.not_lt.mpr short)]

/-- A residue fits. -/
theorem fitsFp_of_canonical {m : ℤ} (bounds : 0 ≤ m ∧ m < blsFieldModulus) : FitsFp m := by
  have modulus : blsFieldModulus < 2 ^ 384 := by decide +kernel
  unfold FitsFp
  omega

theorem mpzPtrToBlstFp_eq (codec : blst.FpCodec) {m : ℤ} (bounds : 0 ≤ m ∧ m < blsFieldModulus) :
    mpzPtrToBlstFp blst m = some (m : Fp) := by
  obtain ⟨le, length, same, decoded⟩ := mpzPtrToBlstFp_of_fits blst (fitsFp_of_canonical bounds)
  have below : value le < blsFieldModulus := by omega
  rw [decoded, codec.fpFromLendian le length below, same, ← Int.cast_natCast, Int.natAbs_of_nonneg bounds.1]

/-- A field element survives the way out and back. -/
theorem mpzPtrToBlstFp_val (codec : blst.FpCodec) (a : Fp) : mpzPtrToBlstFp blst (a.val : ℤ) = some a := by
  rw [mpzPtrToBlstFp_eq codec (val_bounds a), intCast_val]

/-- A scalar of at most 256 bits is stored modulo the order of the groups. -/
theorem mpzPtrToBlstScalar_eq (codec : blst.ScalarCodec) {m : ℤ} (bounds : 0 ≤ m ∧ m < 2 ^ 256) :
    ∃ b, mpzPtrToBlstScalar blst m = some b ∧ value b = m.toNat % blsModulus := by
  have small : m.natAbs < 2 ^ 256 := by omega
  have short : mpzSizeinbase2 m ≤ 256 := (mpzSizeinbase2_le_iff m (by decide)).mpr small
  have absolute : m.natAbs = m.toNat := by omega
  unfold mpzPtrToBlstScalar
  rw [if_neg (Nat.not_lt.mpr short)]
  refine ⟨_, rfl, ?_⟩
  rw [codec, value_take_intoBuffer (length_mpzExport_le m), value_mpzExport, absolute]

theorem fp_eq_zero {a : Fp} (zero : (a.val : ℤ) = 0) : a = 0 := (ZMod.val_eq_zero a).mp (Int.ofNat_eq_zero.mp zero)

/-! ## The two codecs -/

theorem g1pointOfAffine_eq (codec : blst.FpCodec) (c : Fp × Fp) : g1pointOfAffine blst c = G1Point.ofResidues c := by
  unfold g1pointOfAffine G1Point.ofResidues
  rw [blstFpToMpzPtr_eq codec, blstFpToMpzPtr_eq codec]

theorem g1pointOfAffine_intCast (codec : blst.FpCodec) {t : G1Point} (canonical : t.Canonical blsFieldModulus) :
    g1pointOfAffine blst ((t.x : Fp), (t.y : Fp)) = t :=
  (g1pointOfAffine_eq codec _).trans (G1Point.ofResidues_intCast canonical)

theorem g1_decode_encode (codec : blst.FpCodec) (c : Fp × Fp) :
    g1pointToBlstP1Affine blst (g1pointOfAffine blst c) = some c := by
  rw [g1pointOfAffine_eq codec]
  unfold g1pointToBlstP1Affine G1Point.ofResidues
  by_cases origin : (c.1.val : ℤ) = 0 ∧ (c.2.val : ℤ) = 0
  · have same : affineSetInfinity = c := Prod.ext (fp_eq_zero origin.1).symm (fp_eq_zero origin.2).symm
    rw [if_pos origin, same]
  · simp only [if_neg origin, mpzPtrToBlstFp_val codec]
    rfl

theorem g1_codec (codec : blst.FpCodec) :
    (g1Sort blst).Codec (G1Point.Canonical blsFieldModulus) (G1Point.neg blsFieldModulus) where
  decode_encode := g1_decode_encode codec
  canonical_iff := by
    intro t
    constructor
    · intro canonical
      exact ⟨_, g1pointOfAffine_intCast codec canonical⟩
    · rintro ⟨c, rfl⟩
      change (g1pointOfAffine blst c).Canonical _
      rw [g1pointOfAffine_eq codec]
      exact G1Point.canonical_ofResidues c
  encode_zero := (g1pointOfAffine_eq codec _).trans G1Point.ofResidues_zero
  neg_encode := by
    intro c
    change G1Point.neg _ (g1pointOfAffine blst c) = g1pointOfAffine blst (c.1, -c.2)
    rw [g1pointOfAffine_eq codec, g1pointOfAffine_eq codec, G1Point.neg_ofResidues]

theorem g2pointOfAffine_eq (codec : blst.FpCodec) (c : Fp2 × Fp2) :
    g2pointOfAffine blst c = ⟨c.1.re.val, c.1.im.val, c.2.re.val, c.2.im.val⟩ := by
  unfold g2pointOfAffine
  simp only [blstFpToMpzPtr_eq codec]

theorem g2_decode_encode (codec : blst.FpCodec) (c : Fp2 × Fp2) :
    g2pointToBlstP2Affine blst (g2pointOfAffine blst c) = some c := by
  rw [g2pointOfAffine_eq codec]
  unfold g2pointToBlstP2Affine
  by_cases origin : (c.1.re.val : ℤ) = 0 ∧ (c.2.re.val : ℤ) = 0 ∧ (c.1.im.val : ℤ) = 0 ∧ (c.2.im.val : ℤ) = 0
  · rw [if_pos origin]
    obtain ⟨x0, y0, x1, y1⟩ := origin
    have first : c.1 = 0 := QuadraticAlgebra.ext (fp_eq_zero x0) (fp_eq_zero x1)
    have second : c.2 = 0 := QuadraticAlgebra.ext (fp_eq_zero y0) (fp_eq_zero y1)
    have same : affineSetInfinity = c := Prod.ext first.symm second.symm
    rw [same]
  · simp only [if_neg origin, mpzPtrToBlstFp_val codec]
    rfl

/-- A term with canonical coordinates is the term of their classes. -/
theorem g2pointOfAffine_intCast (codec : blst.FpCodec) {t : G2Point} (canonical : t.Canonical blsFieldModulus) :
    g2pointOfAffine blst (⟨(t.x0 : Fp), (t.x1 : Fp)⟩, ⟨(t.y0 : Fp), (t.y1 : Fp)⟩) = t := by
  obtain ⟨x0, x1, y0, y1⟩ := canonical
  rw [g2pointOfAffine_eq codec, val_intCast x0, val_intCast x1, val_intCast y0, val_intCast y1]

theorem g2_codec (codec : blst.FpCodec) :
    (g2Sort blst).Codec (G2Point.Canonical blsFieldModulus) (G2Point.neg blsFieldModulus) where
  decode_encode := g2_decode_encode codec
  canonical_iff := by
    intro t
    constructor
    · intro canonical
      exact ⟨_, g2pointOfAffine_intCast codec canonical⟩
    · rintro ⟨c, rfl⟩
      change (g2pointOfAffine blst c).Canonical _
      rw [g2pointOfAffine_eq codec]
      exact ⟨val_bounds _, val_bounds _, val_bounds _, val_bounds _⟩
  encode_zero := by
    refine (g2pointOfAffine_eq codec _).trans ?_
    change G2Point.mk (0 : Fp).val (0 : Fp).val (0 : Fp).val (0 : Fp).val = G2Point.inf
    rw [ZMod.val_zero]
    rfl
  neg_encode := by
    intro c
    change G2Point.neg _ (g2pointOfAffine blst c) = g2pointOfAffine blst (c.1, -c.2)
    rw [g2pointOfAffine_eq codec, g2pointOfAffine_eq codec]
    unfold G2Point.neg
    rw [QuadraticAlgebra.re_neg, QuadraticAlgebra.im_neg, val_neg, val_neg]

end KPlugin.Bls12
