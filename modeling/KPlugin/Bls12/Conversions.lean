import KPlugin.Bls12.Encodings
import KPlugin.Bls12.Refusals

/-!
# Integers handed to blst

The two conversions look at the bit length of an integer, which is that of its
absolute value, and export the absolute value. An integer that is not negative
arrives as itself; a negative one arrives with its sign lost, unless it is long
enough to be refused.
-/

namespace KPlugin.Bls12
open Radix

/-! ## What the conversions are for -/

/-- A number of at most so many bits, without a sign. -/
def HasBits (bits : ℕ) (m : ℤ) : Prop := 0 ≤ m ∧ m < 2 ^ bits

/-- The shortest little-endian string with a number, of one byte at least. -/
structure ShortestLe (le : Bytes) (m : ℤ) : Prop where
  nonempty : le ≠ []
  value : value le = m
  shortest : ∀ other : Bytes, other ≠ [] → Radix.value other = m → le.length ≤ other.length

/-- `mpz_ptr_to_blst_fp` hands over the number in 48 bytes, or refuses it; the buffer is
not overrun, and the field element read back is the residue. -/
structure FpConverts (m : ℤ) : Prop where
  encodes : HasBits 384 m → ∀ blst, mpzPtrToBlstFp blst m = some (blst.fpFromLendian (digits 8 48 m.toNat))
  refuses : ¬ HasBits 384 m → ∀ blst, mpzPtrToBlstFp blst m = none
  written : ∀ blst fp, mpzPtrToBlstFp blst m = some fp → (mpzExport m).length ≤ 48
  back : ∀ blst : Blst, blst.FpReduces → blst.FpCodec → ∀ fp, mpzPtrToBlstFp blst m = some fp →
    blstFpToMpzPtr blst fp = m % blsFieldModulus

/-- `mpz_ptr_to_blst_scalar` hands over the number in as few bytes as it takes, or
refuses it; the buffer is not overrun. -/
structure ScalarConverts (m : ℤ) : Prop where
  encodes : HasBits 256 m → ∃ le, ShortestLe le m ∧ ∀ blst, mpzPtrToBlstScalar blst m = some (blst.scalarFromLeBytes le)
  refuses : ¬ HasBits 256 m → ∀ blst, mpzPtrToBlstScalar blst m = none
  written : ∀ blst scalar, mpzPtrToBlstScalar blst m = some scalar → (mpzExport m).length ≤ 32

/-! ## Signs -/

theorem hasBits_iff {m : ℤ} (nonnegative : 0 ≤ m) (bits : ℕ) : HasBits bits m ↔ m.natAbs < 2 ^ bits := by
  obtain ⟨n, rfl⟩ := Int.eq_ofNat_of_zero_le nonnegative
  rw [HasBits, and_iff_right nonnegative, Int.natAbs_natCast]
  exact_mod_cast Iff.rfl

theorem not_hasBits_of_neg {m : ℤ} (negative : m < 0) (bits : ℕ) : ¬ HasBits bits m := by
  rintro ⟨nonnegative, -⟩
  omega

theorem not_hasBits_of_long {m : ℤ} {bits : ℕ} (long : 2 ^ bits ≤ m.natAbs) : ¬ HasBits bits m := by
  intro short
  exact absurd ((hasBits_iff short.1 bits).mp short) (Nat.not_lt.mpr long)

/-! ## Field elements -/

theorem mpzPtrToBlstFp_of_long (blst : Blst) {m : ℤ} (long : 2 ^ 384 ≤ m.natAbs) : mpzPtrToBlstFp blst m = none :=
  (mpzPtrToBlstFp_eq_none_iff blst m).mpr (Nat.not_lt.mpr long)

theorem fitsFp_of_converted {blst : Blst} {m : ℤ} {fp : Fp} (converted : mpzPtrToBlstFp blst m = some fp) : FitsFp m := by
  by_contra long
  rw [(mpzPtrToBlstFp_eq_none_iff blst m).mpr long] at converted
  cases converted

/-- **The buffer of 48 bytes** holds what is exported. -/
theorem length_export_of_fp {blst : Blst} {m : ℤ} {fp : Fp} (converted : mpzPtrToBlstFp blst m = some fp) :
    (mpzExport m).length ≤ 48 := by
  have fits := fitsFp_of_converted converted
  exact length_export_le ((fitsFp_iff m).mp fits)

/-- A number that is not negative arrives in its 48 bytes. -/
theorem mpzPtrToBlstFp_encodes (blst : Blst) {m : ℤ} (short : HasBits 384 m) :
    mpzPtrToBlstFp blst m = some (blst.fpFromLendian (digits 8 48 m.toNat)) := by
  obtain ⟨le, length, same, converted⟩ := mpzPtrToBlstFp_of_fits blst ((hasBits_iff short.1 384).mp short)
  have absolute : m.natAbs = m.toNat := by
    have nonnegative := short.1
    omega
  have string : le = digits 8 48 m.toNat := by
    rw [← absolute, ← same, ← length, digits_value]
  rw [converted, string]

/-- **There and back** an integer becomes the residue of its absolute value. -/
theorem blstFpToMpzPtr_of_fp {blst : Blst} (reduces : blst.FpReduces) (codec : blst.FpCodec) {m : ℤ} {fp : Fp}
    (converted : mpzPtrToBlstFp blst m = some fp) : blstFpToMpzPtr blst fp = (m.natAbs % blsFieldModulus : ℕ) := by
  have fits := fitsFp_of_converted converted
  rw [mpzPtrToBlstFp_eq_residue reduces fits] at converted
  cases converted
  rw [blstFpToMpzPtr_eq codec, residue, ZMod.val_natCast]

theorem fpConverts_iff (m : ℤ) : FpConverts m ↔ 0 ≤ m ∨ 2 ^ 384 ≤ m.natAbs := by
  constructor
  · intro converts
    by_contra neither
    obtain ⟨negative, short⟩ := not_or.mp neither
    have refused := converts.refuses (not_hasBits_of_neg (not_le.mp negative) 384) referenceBlst
    exact (mpzPtrToBlstFp_eq_none_iff referenceBlst m).mp refused (not_le.mp short)
  · intro kind
    by_cases nonnegative : 0 ≤ m
    · refine ⟨fun short blst => mpzPtrToBlstFp_encodes blst short, ?_, ?_, ?_⟩
      · intro long blst
        rw [hasBits_iff nonnegative, not_lt] at long
        exact mpzPtrToBlstFp_of_long blst long
      · intro blst fp converted
        exact length_export_of_fp converted
      · intro blst reduces codec fp converted
        rw [blstFpToMpzPtr_of_fp reduces codec converted, Int.natCast_mod, Int.natAbs_of_nonneg nonnegative]
    · have long := kind.resolve_left nonnegative
      have refused : ∀ blst, mpzPtrToBlstFp blst m = none := fun blst => mpzPtrToBlstFp_of_long blst long
      refine ⟨fun short => absurd short (not_hasBits_of_long long), fun _ => refused, ?_, ?_⟩
      · intro blst fp converted
        exact length_export_of_fp converted
      · intro blst _ _ fp converted
        rw [refused blst] at converted
        cases converted

/-! ## Scalars -/

/-- **The buffer of 32 bytes** holds what is exported. -/
theorem length_export_of_scalar {blst : Blst} {m : ℤ} {scalar : Bytes}
    (converted : mpzPtrToBlstScalar blst m = some scalar) : (mpzExport m).length ≤ 32 := by
  have fits : ¬ Oversized m := by
    intro long
    rw [(mpzPtrToBlstScalar_eq_none_iff blst m).mpr long] at converted
    cases converted
  have short : mpzSizeinbase2 m ≤ 256 := (mpzSizeinbase2_le_iff m (by decide)).mpr (not_le.mp fits)
  exact length_export_le short

/-- The bytes handed over as a scalar. -/
def scalarBytes (m : ℤ) : Bytes := (intoBuffer 32 (mpzExport m)).take ((mpzSizeinbase2 m + 7) / 8)

theorem mpzPtrToBlstScalar_of_short (blst : Blst) {m : ℤ} (short : ¬ Oversized m) :
    mpzPtrToBlstScalar blst m = some (blst.scalarFromLeBytes (scalarBytes m)) := by
  have bits : mpzSizeinbase2 m ≤ 256 := (mpzSizeinbase2_le_iff m (by decide)).mpr (not_le.mp short)
  unfold mpzPtrToBlstScalar
  rw [if_neg (Nat.not_lt.mpr bits)]
  rfl

theorem length_scalarBytes {m : ℤ} (bits : mpzSizeinbase2 m ≤ 256) :
    (scalarBytes m).length = (mpzSizeinbase2 m + 7) / 8 := by
  have exported : (mpzExport m).length ≤ 32 := length_export_le bits
  rw [scalarBytes, List.length_take, length_intoBuffer exported]
  omega

/-- A string of fewer bytes is too short for a number of so many bits. -/
theorem sizeinbase_le_of_value {m : ℤ} {le : Bytes} (nonempty : le ≠ []) (same : value le = m.natAbs) :
    (mpzSizeinbase2 m + 7) / 8 ≤ le.length := by
  have positive : 0 < le.length := List.length_pos_iff.mpr nonempty
  have bound : m.natAbs < 2 ^ (8 * le.length) := by
    rw [← same, pow_mul]
    exact value_lt le
  have bits := (mpzSizeinbase2_le_iff m (by omega)).mpr bound
  omega

/-- **As few bytes as it takes**, of the absolute value. -/
theorem scalarBytes_shortest {m : ℤ} (short : HasBits 256 m) : ShortestLe (scalarBytes m) m := by
  have absolute : (m.natAbs : ℤ) = m := Int.natAbs_of_nonneg short.1
  have bits : mpzSizeinbase2 m ≤ 256 := (mpzSizeinbase2_le_iff m (by decide)).mpr ((hasBits_iff short.1 256).mp short)
  have length := length_scalarBytes bits
  constructor
  · apply List.ne_nil_of_length_pos
    rw [length]
    have positive : 0 < mpzSizeinbase2 m := Nat.succ_pos _
    omega
  · rw [scalarBytes, value_take_intoBuffer (length_mpzExport_le m), value_mpzExport, absolute]
  · intro other nonempty same
    rw [length]
    exact sizeinbase_le_of_value nonempty (by omega)

theorem scalarConverts_iff (m : ℤ) : ScalarConverts m ↔ 0 ≤ m ∨ 2 ^ 256 ≤ m.natAbs := by
  constructor
  · intro converts
    by_contra neither
    obtain ⟨negative, short⟩ := not_or.mp neither
    have refused := converts.refuses (not_hasBits_of_neg (not_le.mp negative) 256) referenceBlst
    exact short ((mpzPtrToBlstScalar_eq_none_iff referenceBlst m).mp refused)
  · intro kind
    by_cases nonnegative : 0 ≤ m
    · refine ⟨?_, ?_, ?_⟩
      · intro short
        refine ⟨scalarBytes m, scalarBytes_shortest short, fun blst => mpzPtrToBlstScalar_of_short blst ?_⟩
        exact Nat.not_le.mpr ((hasBits_iff nonnegative 256).mp short)
      · intro long blst
        rw [hasBits_iff nonnegative, not_lt] at long
        exact (mpzPtrToBlstScalar_eq_none_iff blst m).mpr long
      · intro blst scalar converted
        exact length_export_of_scalar converted
    · have long := kind.resolve_left nonnegative
      refine ⟨fun short => absurd short (not_hasBits_of_long long), ?_, ?_⟩
      · intro _ blst
        exact (mpzPtrToBlstScalar_eq_none_iff blst m).mpr long
      · intro blst scalar converted
        exact length_export_of_scalar converted

/-- **The conversions are exact** on the integers that are not negative and on those
too long to be converted; on no others. -/
theorem conversions_exact_iff (m : ℤ) :
    (FpConverts m ↔ 0 ≤ m ∨ 2 ^ 384 ≤ m.natAbs) ∧ (ScalarConverts m ↔ 0 ≤ m ∨ 2 ^ 256 ≤ m.natAbs) :=
  ⟨fpConverts_iff m, scalarConverts_iff m⟩

/-- The sign of -2 is lost by both conversions, and 2 is read back. -/
theorem conversions_lose_sign :
    (mpzPtrToBlstFp referenceBlst (-2) = some (residue 2) ∧
      mpzPtrToBlstScalar referenceBlst (-2) = mpzPtrToBlstScalar referenceBlst 2 ∧
      mpzPtrToBlstScalar referenceBlst 2 ≠ none) ∧
    (¬ ∀ m, FpConverts m) ∧ ¬ ∀ m, ScalarConverts m := by
  have short : ∀ bits, 2 ≤ bits → ¬ ((0 : ℤ) ≤ -2 ∨ 2 ^ bits ≤ (-2 : ℤ).natAbs) := by
    intro bits enough
    have large : 2 ^ 2 ≤ 2 ^ bits := Nat.pow_le_pow_right (by decide) enough
    omega
  refine ⟨⟨?_, ?_, ?_⟩, ?_, ?_⟩
  · have fits : FitsFp (-2) := by
      unfold FitsFp
      decide +kernel
    exact mpzPtrToBlstFp_eq_residue referenceBlst_fpReduces fits
  · decide +kernel
  · decide +kernel
  · intro all
    exact short 384 (by decide) ((fpConverts_iff (-2)).mp (all (-2)))
  · intro all
    exact short 256 (by decide) ((scalarConverts_iff (-2)).mp (all (-2)))

end KPlugin.Bls12
