import KPlugin.Bls12.Refusals
import KPlugin.Curve.PairingChecks

/-!
# The hooks that answer true or false

Five hooks return a `Bool`. The manual lets every one of them evaluate to false on
a coordinate that does not fit 384 bits; the four tests of a single point do, and
the pairing check throws.
-/

namespace KPlugin.Bls12

/-- A call of one of the hooks with its arguments. -/
inductive BoolCall where
  | pairingCheck (g1 : List G1Point) (g2 : List G2Point)
  | g1InSubgroup (point : G1Point)
  | g2InSubgroup (point : G2Point)
  | g1OnCurve (point : G1Point)
  | g2OnCurve (point : G2Point)

namespace BoolCall

/-- The hook's answer. -/
def run (blst : BlstPairing) : BoolCall → Except Raise Bool
  | pairingCheck g1 g2 => hookBls12PairingCheck blst g1 g2
  | g1InSubgroup point => pure (hookBls12G1InSubgroup blst.toBlst point)
  | g2InSubgroup point => pure (hookBls12G2InSubgroup blst.toBlst point)
  | g1OnCurve point => pure (hookBls12G1OnCurve blst.toBlst point)
  | g2OnCurve point => pure (hookBls12G2OnCurve blst.toBlst point)

/-- Some coordinate of some point does not fit. -/
def Oversized : BoolCall → Prop
  | pairingCheck g1 g2 => (∃ P ∈ g1, ¬ Fits1 P) ∨ ∃ Q ∈ g2, ¬ Fits2 Q
  | g1InSubgroup point => ¬ Fits1 point
  | g2InSubgroup point => ¬ Fits2 point
  | g1OnCurve point => ¬ Fits1 point
  | g2OnCurve point => ¬ Fits2 point

/-- The call tests one point. -/
def TestsPoint : BoolCall → Prop
  | pairingCheck _ _ => False
  | _ => True

end BoolCall

section
variable {T K : Type} {sort : TermSort T K} {t : T}

theorem TermSort.inSubgroup_none (missing : sort.decode t = none) : sort.inSubgroup t = false := by
  unfold TermSort.inSubgroup
  rw [TermSort.toBlst_eq_none_iff t |>.mpr missing]

theorem TermSort.isOnCurve_none (missing : sort.decode t = none) : sort.isOnCurve t = false := by
  unfold TermSort.isOnCurve
  rw [TermSort.toBlst_eq_none_iff t |>.mpr missing]

end

/-- A pair of which a point does not decode. -/
def PairRefused (t : G1Point × G2Point) : Prop := ¬ Fits1 t.1 ∨ ¬ Fits2 t.2

/-- One iteration of the pairing check throws on such a pair and accepts the others. -/
theorem pairingStep_cases (blst : BlstPairing) (accum : blst.Fp12) (t : G1Point × G2Point) :
    (PairRefused t ∧ ∃ e, pairingStep blst accum t = .error e ∧ ∃ what, e = .invalidArgument what) ∨
    (¬ PairRefused t ∧ ∃ accum', pairingStep blst accum t = .ok accum') := by
  unfold PairRefused pairingStep
  rw [← g1_decode_eq_none_iff blst.toBlst, ← g2_decode_eq_none_iff blst.toBlst]
  cases g1pointToBlstP1Affine blst.toBlst t.1 with
  | none => exact .inl ⟨.inl rfl, _, rfl, _, rfl⟩
  | some p1 =>
    cases g2pointToBlstP2Affine blst.toBlst t.2 with
    | none => exact .inl ⟨.inr rfl, _, rfl, _, rfl⟩
    | some p2 => exact .inr ⟨by simp, _, rfl⟩

/-- **A point that does not fit makes the pairing check throw**, wherever it stands. -/
theorem pairingCheck_refuses (blst : BlstPairing) {g1 : List G1Point} {g2 : List G2Point}
    (oversized : (BoolCall.pairingCheck g1 g2).Oversized) : Refuses (hookBls12PairingCheck blst g1 g2) := by
  unfold hookBls12PairingCheck
  by_cases differ : g1.length ≠ g2.length
  · rw [if_pos differ]
    exact ⟨_, rfl⟩
  · have refused : ∃ t ∈ g1.zip g2, PairRefused t :=
      (exists_mem_zip_iff (not_not.mp differ) (fun P => ¬ Fits1 P) (fun Q => ¬ Fits2 Q)).mpr oversized
    obtain ⟨e, failed, what, rfl⟩ := (Loop.foldlM_error_iff (pairingStep_cases blst) (g1.zip g2) 1).mpr refused
    rw [if_neg differ, failed]
    exact ⟨what, rfl⟩

/-- **On a coordinate that does not fit** a call evaluates to false exactly when it
tests one point. -/
theorem oversized_evaluates_false_iff (blst : BlstPairing) (call : BoolCall) (oversized : call.Oversized) :
    call.run blst = .ok false ↔ call.TestsPoint := by
  cases call with
  | pairingCheck g1 g2 =>
    refine iff_of_false ?_ id
    obtain ⟨what, failed⟩ := pairingCheck_refuses blst oversized
    intro answered
    change hookBls12PairingCheck blst g1 g2 = _ at answered
    rw [failed] at answered
    cases answered
  | g1InSubgroup point =>
    exact iff_of_true (congrArg Except.ok (TermSort.inSubgroup_none ((g1_decode_eq_none_iff _ _).mpr oversized))) trivial
  | g2InSubgroup point =>
    exact iff_of_true (congrArg Except.ok (TermSort.inSubgroup_none ((g2_decode_eq_none_iff _ _).mpr oversized))) trivial
  | g1OnCurve point =>
    exact iff_of_true (congrArg Except.ok (TermSort.isOnCurve_none ((g1_decode_eq_none_iff _ _).mpr oversized))) trivial
  | g2OnCurve point =>
    exact iff_of_true (congrArg Except.ok (TermSort.isOnCurve_none ((g2_decode_eq_none_iff _ _).mpr oversized))) trivial

/-- A point whose abscissa has 385 bits. -/
def longPoint : G1Point := ⟨2 ^ 384, 0⟩

theorem longPoint_long : ¬ Fits1 longPoint := by
  unfold Fits1 FitsFp longPoint
  decide +kernel

/-- The curve test answers false. -/
theorem oversized_evaluates_false_longPoint :
    (BoolCall.g1OnCurve longPoint).run referenceBlstPairing = .ok false :=
  (oversized_evaluates_false_iff referenceBlstPairing (.g1OnCurve longPoint) longPoint_long).mpr trivial

/-- Next to infinity the pairing check throws. -/
theorem pairingCheck_throws_on_longPoint :
    hookBls12PairingCheck referenceBlstPairing [longPoint] [⟨0, 0, 0, 0⟩] =
      .error (.invalidArgument "Invalid point (first)") ∧
    ¬ ∀ call : BoolCall, call.Oversized → call.run referenceBlstPairing = .ok false := by
  have throws : hookBls12PairingCheck referenceBlstPairing [longPoint] [⟨0, 0, 0, 0⟩] =
      .error (.invalidArgument "Invalid point (first)") := by
    have missing : g1pointToBlstP1Affine referenceBlstPairing.toBlst longPoint = none :=
      (g1_decode_eq_none_iff _ _).mpr longPoint_long
    have sameLength : ¬ [longPoint].length ≠ [(⟨0, 0, 0, 0⟩ : G2Point)].length := by simp
    unfold hookBls12PairingCheck
    rw [if_neg sameLength, List.zip_cons_cons, List.foldlM_cons]
    unfold pairingStep
    rw [missing]
    rfl
  refine ⟨throws, ?_⟩
  intro evaluates
  have answered := evaluates (.pairingCheck [longPoint] [⟨0, 0, 0, 0⟩]) (.inl ⟨_, List.mem_cons_self, longPoint_long⟩)
  change hookBls12PairingCheck _ _ _ = _ at answered
  rw [throws] at answered
  cases answered

end KPlugin.Bls12
