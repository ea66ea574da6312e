import KPlugin.Bls12.Encodings
import KPlugin.Bls12.Multiples

/-!
# `hook_KRYPTO_bls12MapFpToG1` and `hook_KRYPTO_bls12MapFp2ToG2`

blst maps every field element into the subgroup. What the hooks add is the way in,
which refuses a number for its size and takes any other for the class of its absolute
value, and the way out, which writes the coordinates as residues.
-/

namespace KPlugin.Bls12
open ShortWeierstrass

/-! ## The hooks -/

/-- `blst_map_to_g1` and `blst_map_to_g2`. -/
structure BlstMaps (blst : Blst) where
  mapToG1 : Fp → blst.p1.Point
  mapToG2 : Fp2 → blst.p2.Point

def hookBls12MapFpToG1 {blst : Blst} (maps : BlstMaps blst) (element : ℤ) : Except Raise G1Point := do
  let e ← orInvalid "Invalid field element" (mpzPtrToBlstFp blst element)
  pure ((g1Sort blst).ofBlst (maps.mapToG1 e))

def hookBls12MapFp2ToG2 {blst : Blst} (maps : BlstMaps blst) (element0 element1 : ℤ) : Except Raise G2Point := do
  let e0 ← orInvalid "Invalid field element (first)" (mpzPtrToBlstFp blst element0)
  let e1 ← orInvalid "Invalid field element (second)" (mpzPtrToBlstFp blst element1)
  pure ((g2Sort blst).ofBlst (maps.mapToG2 ⟨e0, e1⟩))

/-! ## Where they land -/

/-- blst maps field elements to elements of the subgroups. -/
structure BlstMaps.Implements {blst : Blst} (maps : BlstMaps blst) (denotes1 : blst.p1.Point → (curve b1).Point → Prop)
    (denotes2 : blst.p2.Point → (curve b2).Point → Prop) : Prop where
  mapToG1 : ∀ u, ∃ P, denotes1 (maps.mapToG1 u) P ∧ blsModulus • P = 0
  mapToG2 : ∀ u, ∃ P, denotes2 (maps.mapToG2 u) P ∧ blsModulus • P = 0

/-- A map from some inputs, all of which stand for elements of a domain: it refuses
some for one reason each, and takes the others to canonical terms of the subgroup
which depend on the element only. -/
structure MapsIntoSubgroup {A D T : Type} (map : A → Except Raise T) (fits : A → Prop) (refusal : A → String)
    (element : A → D) (canonical : T → Prop) (onCurve inSubgroup : T → Bool) : Prop where
  refuses : ∀ a, ¬ fits a → map a = .error (.invalidArgument (refusal a))
  lands : ∀ a, fits a → ∃ t, map a = .ok t ∧ canonical t ∧ onCurve t = true ∧ inSubgroup t = true
  respects : ∀ a a', fits a → fits a' → element a = element a' → map a = map a'

section
variable {T K : Type} [Field K] [DecidableEq K] {sort : TermSort T K} {b : K} {canonical : T → Prop} {neg : T → T}
  {denotes : sort.Point → (curve b).Point → Prop}

/-- What denotes an element of the subgroup leaves as a term that passes every test. -/
theorem TermSort.Correct.ofBlst_mem (correct : sort.Correct b canonical neg denotes) {p : sort.Point}
    (lands : ∃ P, denotes p P ∧ blsModulus • P = 0) :
    canonical (sort.ofBlst p) ∧ sort.isOnCurve (sort.ofBlst p) = true ∧ sort.inSubgroup (sort.ofBlst p) = true := by
  obtain ⟨P, stands, order⟩ := lands
  rw [correct.ofBlst_eq stands]
  exact correct.term_mem ((mem_torsion P).mpr order)

end

variable {blst : Blst} {maps : BlstMaps blst}

theorem mapFpToG1_eq (reduces : blst.FpReduces) {m : ℤ} (fits : FitsFp m) :
    hookBls12MapFpToG1 maps m = .ok ((g1Sort blst).ofBlst (maps.mapToG1 (residue m))) := by
  unfold hookBls12MapFpToG1
  rw [mpzPtrToBlstFp_eq_residue reduces fits]
  rfl

theorem mapFp2ToG2_eq (reduces : blst.FpReduces) {m m' : ℤ} (fits : FitsFp m) (fits' : FitsFp m') :
    hookBls12MapFp2ToG2 maps m m' = .ok ((g2Sort blst).ofBlst (maps.mapToG2 ⟨residue m, residue m'⟩)) := by
  unfold hookBls12MapFp2ToG2
  rw [mpzPtrToBlstFp_eq_residue reduces fits, mpzPtrToBlstFp_eq_residue reduces fits']
  rfl

open Classical in
/-- The message names the first number that does not fit. -/
noncomputable def refusal2 (m : ℤ × ℤ) : String :=
  if FitsFp m.1 then "Invalid field element (second)" else "Invalid field element (first)"

/-- **The maps land in the subgroups.** They refuse exactly the numbers of more than 384
bits, and otherwise return a canonical term of the subgroup, which depends only on the
absolute value modulo `p`. -/
theorem maps_land_in_subgroups (fp : blst.FpCodec) (reduces : blst.FpReduces)
    {denotes1 : blst.p1.Point → (curve b1).Point → Prop} (p1 : blst.p1.Implements b1 blsModulus denotes1)
    {denotes2 : blst.p2.Point → (curve b2).Point → Prop} (p2 : blst.p2.Implements b2 blsModulus denotes2)
    (impl : maps.Implements denotes1 denotes2) :
    MapsIntoSubgroup (hookBls12MapFpToG1 maps) FitsFp (fun _ => "Invalid field element")
      (fun m => m.natAbs % blsFieldModulus) (G1Point.Canonical blsFieldModulus) (hookBls12G1OnCurve blst)
      (hookBls12G1InSubgroup blst) ∧
    MapsIntoSubgroup (fun m : ℤ × ℤ => hookBls12MapFp2ToG2 maps m.1 m.2) (fun m => FitsFp m.1 ∧ FitsFp m.2) refusal2
      (fun m => (m.1.natAbs % blsFieldModulus, m.2.natAbs % blsFieldModulus)) (G2Point.Canonical blsFieldModulus)
      (hookBls12G2OnCurve blst) (hookBls12G2InSubgroup blst) := by
  have sameResidue : ∀ m m' : ℤ, m.natAbs % blsFieldModulus = m'.natAbs % blsFieldModulus → residue m = residue m' :=
    fun m m' same => (ZMod.natCast_eq_natCast_iff' _ _ _).mpr same
  constructor
  · refine ⟨?_, ?_, ?_⟩
    · intro m long
      unfold hookBls12MapFpToG1
      rw [(mpzPtrToBlstFp_eq_none_iff blst m).mpr long]
      rfl
    · intro m fits
      exact ⟨_, mapFpToG1_eq reduces fits, (g1_correct fp p1).ofBlst_mem (impl.mapToG1 _)⟩
    · intro m m' fits fits' same
      rw [mapFpToG1_eq reduces fits, mapFpToG1_eq reduces fits', sameResidue m m' same]
  · refine ⟨?_, ?_, ?_⟩
    · rintro ⟨m, m'⟩ long
      unfold hookBls12MapFp2ToG2 refusal2
      by_cases fits : FitsFp m
      · have second : ¬ FitsFp m' := fun fits' => long ⟨fits, fits'⟩
        rw [mpzPtrToBlstFp_eq_residue reduces fits, (mpzPtrToBlstFp_eq_none_iff blst m').mpr second, if_pos fits]
        rfl
      · rw [(mpzPtrToBlstFp_eq_none_iff blst m).mpr fits, if_neg fits]
        rfl
    · rintro ⟨m, m'⟩ ⟨fits, fits'⟩
      exact ⟨_, mapFp2ToG2_eq reduces fits fits', (g2_correct fp p2).ofBlst_mem (impl.mapToG2 _)⟩
    · rintro ⟨m, m'⟩ ⟨n, n'⟩ ⟨fits, fits'⟩ ⟨fitsN, fitsN'⟩ same
      obtain ⟨first, second⟩ := Prod.mk.inj same
      change hookBls12MapFp2ToG2 maps m m' = hookBls12MapFp2ToG2 maps n n'
      rw [mapFp2ToG2_eq reduces fits fits', mapFp2ToG2_eq reduces fitsN fitsN', sameResidue m n first,
        sameResidue m' n' second]

/-! ## The images of zero -/

/-- `BLS12MapFpToG1(0)`. -/
def g1OfZero : G1Point where
  x := 0x11A9A0372B8F332D5C30DE9AD14E50372A73FA4C45D5F2FA5097F2D6FB93BCAC592F2E1711AC43DB0519870C7D0EA415
  y := 0x92C0F994164A0719F51C24BA3788DE240FF926B55F58C445116E8BC6A47CD63392FD4E8E22BDF9FEAA96EE773222133

/-- `BLS12MapFp2ToG2(0, 0)`. -/
def g2OfZero : G2Point where
  x0 := 0x18320896EC9EEF9D5E619848DC29CE266F413D02DD31D9B9D44EC0C79CD61F18B075DDBA6D7BD20B7FF27A4B324BFCE
  x1 := 0xA67D12118B5A35BB02D2E86B3EBFA7E23410DB93DE39FB06D7025FA95E96FFA428A7A27C3AE4DD4B40BD251AC658892
  y0 := 0x260E03644D1A2C321256B3246BAD2B895CAD13890CBE6F85DF55106A0D334604FB143C7A042D878006271865BC35941
  y1 := 0x4C69777A43F0BDA07679D5805E63F18CF4E0E7C6112AC7F70266D199B4F76AE27C6269A3CEEBDAE30806E9A76AADF5C

def g1OfZeroAffine : Fp × Fp := ((g1OfZero.x : Fp), (g1OfZero.y : Fp))

def g2OfZeroAffine : Fp2 × Fp2 :=
  (⟨(g2OfZero.x0 : Fp), (g2OfZero.x1 : Fp)⟩, ⟨(g2OfZero.y0 : Fp), (g2OfZero.y1 : Fp)⟩)

/-- Maps that agree with those of blst on zero. -/
noncomputable def referenceMaps : BlstMaps referenceBlst where
  mapToG1 _ := Sum.inl (elementOf b1 g1OfZeroAffine)
  mapToG2 _ := Sum.inl (elementOf b2 g2OfZeroAffine)

theorem g1OfZero_order : blsModulus • elementOf b1 g1OfZeroAffine = 0 :=
  (nsmul_elementOf_of_chain six_ne_zero_fp b1_ne_zero (by decide +kernel) (by decide +kernel) (by decide)
    (by decide +kernel)).2

theorem g2OfZero_order : blsModulus • elementOf b2 g2OfZeroAffine = 0 :=
  (nsmul_elementOf_of_chain six_ne_zero_fp2 b2_ne_zero (by decide +kernel) (by decide +kernel) (by decide)
    (by decide +kernel)).2

theorem referenceMaps_implements : referenceMaps.Implements (fun p P => p = .inl P) (fun p P => p = .inl P) where
  mapToG1 := fun _ => ⟨_, rfl, g1OfZero_order⟩
  mapToG2 := fun _ => ⟨_, rfl, g2OfZero_order⟩

/-- Zero has an image, `p` and `-p` have the same one, and a number of 385 bits is
refused wherever it stands. -/
theorem maps_land_in_subgroups_zero :
    (∃ t, hookBls12MapFpToG1 referenceMaps 0 = .ok t ∧ t.Canonical blsFieldModulus ∧
      hookBls12G1OnCurve referenceBlst t = true ∧ hookBls12G1InSubgroup referenceBlst t = true) ∧
    hookBls12MapFpToG1 referenceMaps 0 = hookBls12MapFpToG1 referenceMaps (-blsFieldModulus) ∧
    hookBls12MapFp2ToG2 referenceMaps 0 (2 ^ 384) = .error (.invalidArgument "Invalid field element (second)") ∧
    hookBls12MapFp2ToG2 referenceMaps 0 blsFieldModulus = hookBls12MapFp2ToG2 referenceMaps 0 0 := by
  obtain ⟨g1, g2⟩ := maps_land_in_subgroups referenceBlst_fpCodec referenceBlst_fpReduces referenceBlst_p1
    referenceBlst_p2 referenceMaps_implements
  have fitsP : FitsFp blsFieldModulus := by
    unfold FitsFp
    decide +kernel
  have fitsN : FitsFp (-blsFieldModulus) := by
    unfold FitsFp
    decide +kernel
  have long : ¬ FitsFp (2 ^ 384) := by
    unfold FitsFp
    decide +kernel
  refine ⟨g1.lands 0 fitsFp_zero, g1.respects 0 _ fitsFp_zero fitsN (by decide +kernel), ?_, ?_⟩
  · have refused := g2.refuses (0, 2 ^ 384) fun both => long both.2
    have second : refusal2 (0, 2 ^ 384) = "Invalid field element (second)" := if_pos fitsFp_zero
    exact second ▸ refused
  · exact g2.respects (0, blsFieldModulus) (0, 0) ⟨fitsFp_zero, fitsP⟩ ⟨fitsFp_zero, fitsFp_zero⟩ (by decide +kernel)

end KPlugin.Bls12
