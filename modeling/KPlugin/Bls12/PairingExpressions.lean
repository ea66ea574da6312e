import KPlugin.Bls12.Expressions
import KPlugin.Bls12.Pairing

/-!
# The pairing check on expressions

`BLS12PairingCheck` is called on lists that other hooks have built. The pairing is
bilinear on the subgroups, whose order is a prime, so the check can be multiplied out to
the leaves of the expressions, and on multiples of two generators it is an equation
between the multiples.
-/

namespace KPlugin.Bls12
open ShortWeierstrass GroupExpr Bilinear CheckedProduct

/-! ## The call -/

/-- Both lists are evaluated before the hook is called. -/
def pairingCheckOf (blst : BlstPairing) (maps : BlstMaps blst.toBlst)
    (calls : List (Expr1 blst.toBlst × Expr2 blst.toBlst)) : Except Raise Bool := do
  let g1 ← calls.mapM fun call => call.1.eval (g1Ops maps)
  let g2 ← calls.mapM fun call => call.2.eval (g2Ops maps)
  hookBls12PairingCheck blst g1 g2

/-! ## What is assumed of the pairing -/

/-- The final exponentiation of the Miller loop, on the subgroups. -/
def BlstPairing.onSubgroups (blst : BlstPairing) (P : torsion b1) (Q : torsion b2) : blst.Fp12 :=
  blst.finalExp (blst.millerLoop (pair Q.1) (pair P.1))

/-- Addition in either subgroup becomes multiplication. -/
structure BlstPairing.Bilinear (blst : BlstPairing) : Prop where
  add_left : ∀ P P' Q, blst.onSubgroups (P + P') Q = blst.onSubgroups P Q * blst.onSubgroups P' Q
  add_right : ∀ P Q Q', blst.onSubgroups P (Q + Q') = blst.onSubgroups P Q * blst.onSubgroups P Q'

theorem BlstPairing.Bilinear.isPairing {blst : BlstPairing} (bilinear : blst.Bilinear) (impl : blst.Implements) :
    IsPairing blst.onSubgroups where
  zero_left := fun Q => impl.infinity1 (pair Q.1)
  add_left := bilinear.add_left
  zero_right := fun P => impl.infinity2 (pair P.1)
  add_right := bilinear.add_right

/-! ## The check on decoded points -/

section
variable {blst : BlstPairing}

/-- Two terms of the subgroups, and the elements they decode to. -/
def DecodesPair (blst : BlstPairing) (t : G1Point × G2Point) (c : torsion b1 × torsion b2) : Prop :=
  (g1Sort blst.toBlst).Decodes t.1 c.1.1 ∧ (g2Sort blst.toBlst).Decodes t.2 c.2.1

/-- On terms of the subgroups the pairing of terms is that of the elements. -/
theorem millerValue_decoded {t : G1Point × G2Point} {c : torsion b1 × torsion b2} (decodes : DecodesPair blst t c) :
    ∃ v, millerValue blst t = .ok v ∧ blst.finalExp v = blsPairing blst t.1 t.2 ∧
      blsPairing blst t.1 t.2 = blst.onSubgroups c.1 c.2 := by
  have first : g1pointToBlstP1Affine blst.toBlst t.1 = some (pair c.1.1) := decodes.1
  have second : g2pointToBlstP2Affine blst.toBlst t.2 = some (pair c.2.1) := decodes.2
  refine ⟨blst.millerLoop (pair c.2.1) (pair c.1.1), ?_, ?_, ?_⟩
  · unfold millerValue
    rw [first, second]
    rfl
  · unfold blsPairing
    rw [first, second]
  · unfold blsPairing
    rw [first, second]
    rfl

open Classical in
/-- **The check compares the product over the elements with one.** -/
theorem BlstPairing.Implements.check_decoded (impl : blst.Implements) {g1 : List G1Point} {g2 : List G2Point}
    {elements : List (torsion b1 × torsion b2)} (sameLength : g1.length = g2.length)
    (decode : List.Forall₂ (DecodesPair blst) (g1.zip g2) elements) :
    hookBls12PairingCheck blst g1 g2 =
      .ok (decide ((elements.map fun c => blst.onSubgroups c.1 c.2).prod = 1)) := by
  have evaluates : ∀ t ∈ g1.zip g2,
      Evaluates blst.finalExp (millerValue blst) (fun _ => False) (fun t => blsPairing blst t.1 t.2) t := by
    intro t member
    have decoded := decode.imp fun t c decodes => And.intro (⟨c, decodes⟩ : ∃ c, DecodesPair blst t c) decodes
    obtain ⟨c, decodes⟩ := ((List.forall₂_and_left _ _).mp decoded).1 t member
    obtain ⟨v, run, same, -⟩ := millerValue_decoded decodes
    exact ⟨False.elim, fun _ => ⟨v, run, same⟩⟩
  have images : (g1.zip g2).map (fun t => blsPairing blst t.1 t.2) =
      elements.map fun c => blst.onSubgroups c.1 c.2 := by
    apply List.forall₂_eq_eq_eq ▸ List.forall₂_map_left_iff.mpr (List.forall₂_map_right_iff.mpr ?_)
    refine decode.imp fun t c decodes => ?_
    obtain ⟨v, -, -, same⟩ := millerValue_decoded decodes
    exact same
  obtain ⟨answer, run, tells⟩ := check_ok evaluates fun _ _ => id
  rw [impl.checksProduct.runs g1 g2 sameLength, run, Except.ok.injEq, Bool.eq_iff_iff, decide_eq_true_iff, tells,
    images]

end

/-! ## The check on expressions -/

section
variable {blst : BlstPairing} {maps : BlstMaps blst.toBlst} {element1 : Leaf1 blst.toBlst → torsion b1}
  {element2 : Leaf2 blst.toBlst → torsion b2}

/-- Two expressions mean a pair of elements. -/
noncomputable def meaning (element1 : Leaf1 blst.toBlst → torsion b1) (element2 : Leaf2 blst.toBlst → torsion b2)
    (call : Expr1 blst.toBlst × Expr2 blst.toBlst) : torsion b1 × torsion b2 :=
  (call.1.value element1 Scalar.weight, call.2.value element2 Scalar.weight)

/-- Two lists that correspond to a third are zipped along it. -/
theorem forall₂_zip_of {α β γ : Type} {R : α → γ → Prop} {S : β → γ → Prop} {xs : List α} {ys : List β} {zs : List γ}
    (first : List.Forall₂ R xs zs) (second : List.Forall₂ S ys zs) :
    List.Forall₂ (fun t z => R t.1 z ∧ S t.2 z) (xs.zip ys) zs := by
  induction first generalizing ys with
  | nil => exact .nil
  | cons related _ ih =>
    cases second with
    | cons related' rest => exact .cons ⟨related, related'⟩ (ih rest)

open Classical in
/-- **The check on expressions** compares the product over their meanings with one. -/
theorem pairingCheckOf_eq (impl : blst.Implements)
    (computes1 : (g1Ops maps).Computes (fun t P => (g1Sort blst.toBlst).Decodes t P.1)
      (fun P => (g1Sort blst.toBlst).term P.1) element1 Scalar.weight)
    (computes2 : (g2Ops maps).Computes (fun t P => (g2Sort blst.toBlst).Decodes t P.1)
      (fun P => (g2Sort blst.toBlst).term P.1) element2 Scalar.weight)
    (calls : List (Expr1 blst.toBlst × Expr2 blst.toBlst)) :
    pairingCheckOf blst maps calls = .ok (decide
      ((calls.map fun call => blst.onSubgroups (meaning element1 element2 call).1
        (meaning element1 element2 call).2).prod = 1)) := by
  obtain ⟨g1, run1, stand1⟩ := mapM_stands calls fun call => call.1.eval_stands computes1
  obtain ⟨g2, run2, stand2⟩ := mapM_stands calls fun call => call.2.eval_stands computes2
  have sameLength : g1.length = g2.length := stand1.length_eq.trans stand2.length_eq.symm
  have decode : List.Forall₂ (DecodesPair blst) (g1.zip g2) (calls.map (meaning element1 element2)) :=
    List.forall₂_map_right_iff.mpr (forall₂_zip_of stand1 stand2)
  have answer := impl.check_decoded sameLength decode
  rw [List.map_map] at answer
  unfold pairingCheckOf
  rw [run1, run2]
  exact answer

/-- Multiplying out every call keeps the product. -/
theorem prod_multiplyOut_calls (pairing : IsPairing blst.onSubgroups)
    (calls : List (Expr1 blst.toBlst × Expr2 blst.toBlst)) :
    ((calls.flatMap fun call => multiplyOut Scalar.weight reduceScalar call.1 call.2).map fun call =>
      blst.onSubgroups (meaning element1 element2 call).1 (meaning element1 element2 call).2).prod =
    (calls.map fun call =>
      blst.onSubgroups (meaning element1 element2 call).1 (meaning element1 element2 call).2).prod := by
  induction calls with
  | nil => rfl
  | cons call calls ih =>
    rw [List.flatMap_cons, List.map_append, List.prod_append, ih, List.map_cons, List.prod_cons]
    congr 1
    exact prod_multiplyOut pairing weight_reduce element1 element2 call.1 call.2

end

/-! ## The order of the groups is a prime -/

/-- Primes below the order, each proved from those before it. -/
def blsOrderCertificates : List Pratt.Certificate :=
  [⟨3, 2, [(2, 1)]⟩, ⟨5, 2, [(2, 2)]⟩, ⟨7, 3, [(2, 1), (3, 1)]⟩, ⟨11, 2, [(2, 1), (5, 1)]⟩,
    ⟨13, 2, [(2, 2), (3, 1)]⟩, ⟨17, 3, [(2, 4)]⟩, ⟨19, 2, [(2, 1), (3, 2)]⟩, ⟨23, 5, [(2, 1), (11, 1)]⟩,
    ⟨29, 2, [(2, 2), (7, 1)]⟩, ⟨43, 3, [(2, 1), (3, 1), (7, 1)]⟩, ⟨47, 5, [(2, 1), (23, 1)]⟩,
    ⟨53, 2, [(2, 2), (13, 1)]⟩, ⟨73, 5, [(2, 3), (3, 2)]⟩, ⟨79, 3, [(2, 1), (3, 1), (13, 1)]⟩,
    ⟨89, 3, [(2, 3), (11, 1)]⟩, ⟨97, 5, [(2, 5), (3, 1)]⟩, ⟨179, 2, [(2, 1), (89, 1)]⟩,
    ⟨359, 7, [(2, 1), (179, 1)]⟩, ⟨449, 3, [(2, 6), (7, 1)]⟩, ⟨523, 2, [(2, 1), (3, 2), (29, 1)]⟩,
    ⟨1607, 5, [(2, 1), (11, 1), (73, 1)]⟩, ⟨10177, 7, [(2, 6), (3, 1), (53, 1)]⟩,
    ⟨18329, 3, [(2, 3), (29, 1), (79, 1)]⟩, ⟨20921, 3, [(2, 3), (5, 1), (523, 1)]⟩,
    ⟨47737, 5, [(2, 3), (3, 3), (13, 1), (17, 1)]⟩, ⟨110573, 3, [(2, 2), (7, 1), (11, 1), (359, 1)]⟩,
    ⟨125527, 5, [(2, 1), (3, 1), (20921, 1)]⟩, ⟨609743, 5, [(2, 1), (7, 1), (97, 1), (449, 1)]⟩,
    ⟨859267, 2, [(2, 1), (3, 2), (47737, 1)]⟩, ⟨906349, 2, [(2, 2), (3, 1), (47, 1), (1607, 1)]⟩,
    ⟨2508409, 11, [(2, 3), (3, 4), (7, 2), (79, 1)]⟩, ⟨2529403, 2, [(2, 1), (3, 1), (23, 1), (18329, 1)]⟩,
    ⟨2653753, 5, [(2, 3), (3, 1), (110573, 1)]⟩, ⟨52437899, 2, [(2, 1), (43, 1), (609743, 1)]⟩,
    ⟨63690073, 7, [(2, 3), (3, 1), (2653753, 1)]⟩, ⟨254760293, 2, [(2, 2), (63690073, 1)]⟩,
    ⟨52435875175126190479447740508185965837690552500527637822603658699938581184513, 7, [(2, 32), (3, 1), (11, 1), (19, 1), (10177, 1), (125527, 1), (859267, 1), (906349, 2), (2508409, 1), (2529403, 1), (52437899, 1), (254760293, 2)]⟩]

theorem blsModulus_prime : blsModulus.Prime := by
  have checked : Pratt.checkChain [2] blsOrderCertificates = true := by decide +kernel
  have certified : ∃ c ∈ blsOrderCertificates, c.p = blsModulus := by decide +kernel
  exact Pratt.prime_of_certified checked certified

instance : Fact blsModulus.Prime := ⟨blsModulus_prime⟩

/-! ## A pairing of logarithms -/

section
variable {K : Type} [Field K] [DecidableEq K] {b : K}

/-- A homomorphism on the subgroup, read from the pair of an element. -/
noncomputable def onPairs (φ : torsion b →+ ZMod blsModulus) (c : K × K) : ZMod blsModulus := extend φ (elementOf b c)

theorem onPairs_pair (nonzero : b ≠ 0) (φ : torsion b →+ ZMod blsModulus) (P : torsion b) :
    onPairs φ (pair P.1) = φ P := by
  unfold onPairs
  rw [elementOf_pair nonzero, extend_coe]

end

/-- The library of the group elements, whose pairing multiplies values of two homomorphisms. -/
noncomputable abbrev bilinearReference (φ : torsion b1 →+ ZMod blsModulus) (ψ : torsion b2 →+ ZMod blsModulus) :
    BlstPairing where
  toBlst := referenceBlst
  Fp12 := Multiplicative (ZMod blsModulus)
  millerLoop Q P := .ofAdd (onPairs φ P * onPairs ψ Q)
  finalExp := MonoidHom.id _
  isOne := fun a : Multiplicative (ZMod blsModulus) => decide (a.toAdd = 0)

section
variable {φ : torsion b1 →+ ZMod blsModulus} {ψ : torsion b2 →+ ZMod blsModulus}

theorem bilinearReference_onSubgroups (P : torsion b1) (Q : torsion b2) :
    (bilinearReference φ ψ).onSubgroups P Q = ofLogarithms φ ψ P Q := by
  change Multiplicative.ofAdd (onPairs φ (pair P.1) * onPairs ψ (pair Q.1)) = _
  rw [onPairs_pair b1_ne_zero, onPairs_pair b2_ne_zero]
  rfl

theorem bilinearReference_bilinear : (bilinearReference φ ψ).Bilinear := by
  have same : (bilinearReference φ ψ).onSubgroups = ofLogarithms φ ψ := funext₂ bilinearReference_onSubgroups
  have pairing := same ▸ ofLogarithms_isPairing φ ψ
  exact ⟨pairing.add_left, pairing.add_right⟩

theorem bilinearReference_implements : (bilinearReference φ ψ).Implements where
  isOne := fun a => decide_eq_true_iff.trans toAdd_eq_zero
  infinity1 := by
    intro Q
    have zero : onPairs φ affineSetInfinity = 0 := (onPairs_pair b1_ne_zero φ 0).trans (map_zero φ)
    change Multiplicative.ofAdd (onPairs φ affineSetInfinity * onPairs ψ Q) = 1
    rw [zero, zero_mul, ofAdd_zero]
  infinity2 := by
    intro P
    have zero : onPairs ψ affineSetInfinity = 0 := (onPairs_pair b2_ne_zero ψ 0).trans (map_zero ψ)
    change Multiplicative.ofAdd (onPairs φ P * onPairs ψ affineSetInfinity) = 1
    rw [zero, mul_zero, ofAdd_zero]

end

section
variable {T K : Type} [Field K] [DecidableEq K] {b : K} {sort : TermSort T K} {canonical : T → Prop} {neg : T → T}
  {denotes : sort.Point → (curve b).Point → Prop}

/-- A finite point of the subgroup is a generator for some homomorphism. -/
theorem TermSort.Correct.exists_logarithm (correct : sort.Correct b canonical neg denotes) {t : T}
    (valid : canonical t ∧ sort.isOnCurve t = true ∧ sort.inSubgroup t = true) (finite : t ≠ sort.inf) :
    ∃ φ : torsion b →+ ZMod blsModulus, ∀ P : torsion b, sort.Decodes t P.1 → φ P = 1 := by
  obtain ⟨P, rfl, order⟩ := correct.exists_torsion valid
  have nonzero : (⟨P, (mem_torsion P).mpr order⟩ : torsion b) ≠ 0 := by
    intro zero
    apply finite
    rw [show P = 0 from congrArg Subtype.val zero, correct.term_zero]
  obtain ⟨φ, one⟩ := Bilinear.exists_logarithm order_torsion nonzero
  refine ⟨φ, fun Q decodes => ?_⟩
  have same : Q = ⟨P, (mem_torsion P).mpr order⟩ := Subtype.ext (correct.decodes_unique decodes (correct.decodes_term P))
  rw [same, one]

end

theorem exists_logarithm1 : ∃ φ : torsion b1 →+ ZMod blsModulus, ∀ P : torsion b1,
    (g1Sort referenceBlst).Decodes g1Generator P.1 → φ P = 1 :=
  (g1_correct referenceBlst_fpCodec referenceBlst_p1).exists_logarithm
    ⟨g1Generator_canonical, g1Generator_onCurve, g1Generator_inSubgroup⟩ (by decide)

theorem exists_logarithm2 : ∃ ψ : torsion b2 →+ ZMod blsModulus, ∀ Q : torsion b2,
    (g2Sort referenceBlst).Decodes g2Generator Q.1 → ψ Q = 1 :=
  (g2_correct referenceBlst_fpCodec referenceBlst_p2).exists_logarithm
    ⟨g2Generator_canonical, g2Generator_onCurve, g2Generator_inSubgroup⟩ (by decide)

/-- The pairing for which both generators have the logarithm 1. -/
noncomputable abbrev generatorPairing : BlstPairing := bilinearReference exists_logarithm1.choose exists_logarithm2.choose

/-- The image of zero as a leaf. -/
def g1ZeroLeaf : Leaf1 referenceBlst := .inr ⟨0, fitsFp_zero⟩

/-! ## Multiplying out -/

/-- **The check can be multiplied out**: each pair of expressions may be replaced by the
pairs of their leaves, with the product of the two coefficients on the first. -/
theorem pairingCheck_multiplies_out {blst : BlstPairing} (impl : blst.Implements) (bilinear : blst.Bilinear)
    (fp : blst.FpCodec) (scalarCodec : blst.ScalarCodec)
    {denotes1 : blst.p1.Point → (curve b1).Point → Prop} (p1 : blst.p1.Implements b1 blsModulus denotes1)
    {denotes2 : blst.p2.Point → (curve b2).Point → Prop} (p2 : blst.p2.Implements b2 blsModulus denotes2)
    {maps : BlstMaps blst.toBlst} (lands : maps.Implements denotes1 denotes2)
    (calls : List (Expr1 blst.toBlst × Expr2 blst.toBlst)) :
    pairingCheckOf blst maps (calls.flatMap fun call => multiplyOut Scalar.weight reduceScalar call.1 call.2) =
      pairingCheckOf blst maps calls := by
  obtain ⟨element1, computes1⟩ := g1Ops_computes fp scalarCodec p1 lands
  obtain ⟨element2, computes2⟩ := g2Ops_computes fp scalarCodec p2 lands
  rw [pairingCheckOf_eq impl computes1 computes2, pairingCheckOf_eq impl computes1 computes2,
    prod_multiplyOut_calls (bilinear.isPairing impl)]

/-- The sum of two leaves with a multiple of a third becomes two pairs of leaves. -/
theorem pairingCheck_multiplies_out_generators :
    pairingCheckOf generatorPairing referenceMaps
        [(.mul (.leaf g1GeneratorLeaf) (reduceScalar 3), .leaf g2GeneratorLeaf),
          (.mul (.leaf g1ZeroLeaf) (reduceScalar 3), .leaf g2GeneratorLeaf)] =
      pairingCheckOf generatorPairing referenceMaps
        [(.add (.leaf g1GeneratorLeaf) (.leaf g1ZeroLeaf), .mul (.leaf g2GeneratorLeaf) (reduceScalar 3))] :=
  @pairingCheck_multiplies_out generatorPairing bilinearReference_implements bilinearReference_bilinear
    referenceBlst_fpCodec referenceBlst_scalarCodec _ referenceBlst_p1 _ referenceBlst_p2 _ referenceMaps_implements
    [(.add (.leaf g1GeneratorLeaf) (.leaf g1ZeroLeaf), .mul (.leaf g2GeneratorLeaf) (reduceScalar 3))]

/-! ## Logarithms -/

/-- The point of a leaf is `k` times the point `G`. -/
def IsLogarithm {α T : Type} (ops : Ops α Scalar T Raise) (inf G : T) (a : α) (k : ZMod blsModulus) : Prop :=
  (do let t ← ops.leaf a; ops.add t inf) = ops.mul G (reduceScalar k.val)

section
variable {T K α : Type} [Field K] [DecidableEq K] {b : K} {sort : TermSort T K} {canonical : T → Prop} {neg : T → T}
  {denotes : sort.Point → (curve b).Point → Prop} {ops : Ops α Scalar T Raise} {element : α → torsion b}

/-- What the hooks can tell about a logarithm holds of the elements. -/
theorem TermSort.Correct.element_eq (correct : sort.Correct b canonical neg denotes)
    (computes : ops.Computes (fun t P => sort.Decodes t P.1) (fun P => sort.term P.1) element Scalar.weight) {G : T}
    {P : torsion b} (decodes : sort.Decodes G P.1) {a : α} {k : ZMod blsModulus}
    (log : IsLogarithm ops sort.inf G a k) : element a = residueMultiple P (order_torsion P) k := by
  obtain ⟨t, leaf, stands⟩ := computes.leaf a
  have infinity : sort.Decodes sort.inf (0 : torsion b).1 := correct.term_zero ▸ correct.decodes_term 0
  have sum := computes.add t sort.inf _ _ stands infinity
  have product := computes.mul G P (reduceScalar k.val) decodes
  unfold IsLogarithm at log
  rw [leaf, product] at log
  have same := Except.ok.inj (sum.symm.trans log)
  have equal : element a + 0 = (reduceScalar k.val).weight • P := Subtype.ext (correct.code.injective same)
  rw [residueMultiple_eq_val, ← weight_reduce, ← equal, add_zero]

/-- A point has the logarithm 1 to itself. -/
theorem TermSort.Correct.isLogarithm_one (correct : sort.Correct b canonical neg denotes)
    (computes : ops.Computes (fun t P => sort.Decodes t P.1) (fun P => sort.term P.1) element Scalar.weight) {t : T}
    {a : α} (leaf : ops.leaf a = .ok t) : IsLogarithm ops sort.inf t a 1 := by
  obtain ⟨u, same, stands⟩ := computes.leaf a
  obtain rfl : t = u := Except.ok.inj (leaf.symm.trans same)
  have infinity : sort.Decodes sort.inf (0 : torsion b).1 := correct.term_zero ▸ correct.decodes_term 0
  have sum := computes.add t sort.inf _ _ stands infinity
  have product := computes.mul t (element a) (reduceScalar (1 : ZMod blsModulus).val) stands
  rw [weight_reduce, ← residueMultiple_eq_val _ (order_torsion _), residueMultiple_one] at product
  rw [add_zero] at sum
  unfold IsLogarithm
  rw [leaf, product]
  exact sum

end

/-- **The check tells whether the sum of the products of the logarithms is zero**, the
logarithms of expressions being computed from those of their leaves. -/
theorem pairingCheck_tells_logarithms {blst : BlstPairing} (impl : blst.Implements) (bilinear : blst.Bilinear)
    (fp : blst.FpCodec) (scalarCodec : blst.ScalarCodec)
    {denotes1 : blst.p1.Point → (curve b1).Point → Prop} (p1 : blst.p1.Implements b1 blsModulus denotes1)
    {denotes2 : blst.p2.Point → (curve b2).Point → Prop} (p2 : blst.p2.Implements b2 blsModulus denotes2)
    {maps : BlstMaps blst.toBlst} (lands : maps.Implements denotes1 denotes2)
    {G1 : Member (hookBls12G1OnCurve blst.toBlst) (hookBls12G1InSubgroup blst.toBlst)}
    {G2 : Member (hookBls12G2OnCurve blst.toBlst) (hookBls12G2InSubgroup blst.toBlst)}
    (nondegenerate : blsPairing blst G1.1 G2.1 ≠ 1) {log1 : Leaf1 blst.toBlst → ZMod blsModulus}
    {log2 : Leaf2 blst.toBlst → ZMod blsModulus} (calls : List (Expr1 blst.toBlst × Expr2 blst.toBlst))
    (logs1 : ∀ call ∈ calls, ∀ t ∈ call.1.flat Scalar.weight, IsLogarithm (g1Ops maps) ⟨0, 0⟩ G1.1 t.1 (log1 t.1))
    (logs2 : ∀ call ∈ calls, ∀ t ∈ call.2.flat Scalar.weight,
      IsLogarithm (g2Ops maps) ⟨0, 0, 0, 0⟩ G2.1 t.1 (log2 t.1)) :
    pairingCheckOf blst maps calls = .ok (decide ((calls.map fun call =>
      call.1.value log1 Scalar.weight * call.2.value log2 Scalar.weight).sum = 0)) := by
  obtain ⟨element1, computes1⟩ := g1Ops_computes fp scalarCodec p1 lands
  obtain ⟨element2, computes2⟩ := g2Ops_computes fp scalarCodec p2 lands
  obtain ⟨t, leaf, decodes1⟩ := computes1.leaf (.inl G1)
  obtain rfl : G1.1 = t := Except.ok.inj leaf
  obtain ⟨u, leaf, decodes2⟩ := computes2.leaf (.inl G2)
  obtain rfl : G2.1 = u := Except.ok.inj leaf
  let φ := residueMultiple (element1 (.inl G1)) (order_torsion _)
  let ψ := residueMultiple (element2 (.inl G2)) (order_torsion _)
  have generators : blst.onSubgroups (φ 1) (ψ 1) ≠ 1 := by
    obtain ⟨v, -, -, same⟩ := millerValue_decoded (t := (G1.1, G2.1)) (c := (_, _)) ⟨decodes1, decodes2⟩
    have one : φ 1 = element1 (.inl G1) := residueMultiple_one _ _
    have one' : ψ 1 = element2 (.inl G2) := residueMultiple_one _ _
    rw [one, one', ← same]
    exact nondegenerate
  have meanings : calls.map (fun call => blst.onSubgroups (meaning element1 element2 call).1
        (meaning element1 element2 call).2) =
      calls.map fun call => blst.onSubgroups (φ (call.1.value log1 Scalar.weight))
        (ψ (call.2.value log2 Scalar.weight)) := by
    refine List.map_congr_left fun call member => ?_
    have first := Expr.value_eq_map φ fun t listed =>
      (g1_correct fp p1).element_eq computes1 decodes1 (logs1 call member t listed)
    have second := Expr.value_eq_map ψ fun t listed =>
      (g2_correct fp p2).element_eq computes2 decodes2 (logs2 call member t listed)
    exact congrArg₂ blst.onSubgroups first second
  have tells := (bilinear.isPairing impl).prod_eq_one_iff φ ψ generators
    (calls.map fun call => (call.1.value log1 Scalar.weight, call.2.value log2 Scalar.weight))
  rw [List.map_map, List.map_map] at tells
  classical
  rw [pairingCheckOf_eq impl computes1 computes2, Except.ok.injEq, Bool.eq_iff_iff, decide_eq_true_iff,
    decide_eq_true_iff, meanings]
  exact tells

theorem generatorPairing_nondegenerate : blsPairing generatorPairing g1Generator g2Generator ≠ 1 := by
  obtain ⟨P, decodes1⟩ := (g1_correct referenceBlst_fpCodec referenceBlst_p1).isOnCurve_iff g1Generator |>.mp
    g1Generator_onCurve
  have member1 := ((g1_correct referenceBlst_fpCodec referenceBlst_p1).inSubgroup_iff_mem decodes1).mp
    g1Generator_inSubgroup
  obtain ⟨Q, decodes2⟩ := (g2_correct referenceBlst_fpCodec referenceBlst_p2).isOnCurve_iff g2Generator |>.mp
    g2Generator_onCurve
  have member2 := ((g2_correct referenceBlst_fpCodec referenceBlst_p2).inSubgroup_iff_mem decodes2).mp
    g2Generator_inSubgroup
  have decodes : DecodesPair generatorPairing (g1Generator, g2Generator) (⟨P, member1⟩, ⟨Q, member2⟩) :=
    ⟨decodes1, decodes2⟩
  obtain ⟨v, -, -, same⟩ := millerValue_decoded decodes
  have log1 := exists_logarithm1.choose_spec ⟨P, member1⟩ decodes1
  have log2 := exists_logarithm2.choose_spec ⟨Q, member2⟩ decodes2
  have value : blsPairing generatorPairing g1Generator g2Generator =
      ofLogarithms exists_logarithm1.choose exists_logarithm2.choose ⟨P, member1⟩ ⟨Q, member2⟩ :=
    same.trans (bilinearReference_onSubgroups _ _)
  rw [value]
  exact ofLogarithms_ne_one log1 log2

/-- Three times the first generator against the second one, and the first generator
against `r - 3` times the second one, cancel; the two generators alone do not. -/
theorem pairingCheck_tells_logarithms_generators :
    pairingCheckOf generatorPairing referenceMaps
      [(.add (.mul (.leaf g1GeneratorLeaf) (reduceScalar 2)) (.leaf g1GeneratorLeaf), .leaf g2GeneratorLeaf),
        (.leaf g1GeneratorLeaf, .mul (.leaf g2GeneratorLeaf) (reduceScalar (blsModulus - 3)))] = .ok true ∧
    pairingCheckOf generatorPairing referenceMaps [(.leaf g1GeneratorLeaf, .leaf g2GeneratorLeaf)] = .ok false := by
  obtain ⟨_, computes1⟩ := g1Ops_computes referenceBlst_fpCodec referenceBlst_scalarCodec referenceBlst_p1
    referenceMaps_implements
  obtain ⟨_, computes2⟩ := g2Ops_computes referenceBlst_fpCodec referenceBlst_scalarCodec referenceBlst_p2
    referenceMaps_implements
  have log1 : IsLogarithm (g1Ops referenceMaps) ⟨0, 0⟩ g1Generator g1GeneratorLeaf 1 :=
    (g1_correct referenceBlst_fpCodec referenceBlst_p1).isLogarithm_one computes1 rfl
  have log2 : IsLogarithm (g2Ops referenceMaps) ⟨0, 0, 0, 0⟩ g2Generator g2GeneratorLeaf 1 :=
    (g2_correct referenceBlst_fpCodec referenceBlst_p2).isLogarithm_one computes2 rfl
  have tells := @pairingCheck_tells_logarithms generatorPairing bilinearReference_implements
    bilinearReference_bilinear referenceBlst_fpCodec referenceBlst_scalarCodec _ referenceBlst_p1 _ referenceBlst_p2
    _ referenceMaps_implements ⟨g1Generator, g1Generator_onCurve, g1Generator_inSubgroup⟩
    ⟨g2Generator, g2Generator_onCurve, g2Generator_inSubgroup⟩ generatorPairing_nondegenerate
    (fun _ => 1) (fun _ => 1)
  have triple : (Expr.add (.mul (.leaf g1GeneratorLeaf) (reduceScalar 2)) (.leaf g1GeneratorLeaf)).value
      (fun _ => (1 : ZMod blsModulus)) Scalar.weight = (3 : ℕ) := by
    have two : (reduceScalar 2).weight = 2 := by decide +kernel
    rw [Expr.value, Expr.value, Expr.value, Expr.value, two, nsmul_one]
    norm_num
  have opposite : (Expr.mul (.leaf g2GeneratorLeaf) (reduceScalar (blsModulus - 3))).value
      (fun _ => (1 : ZMod blsModulus)) Scalar.weight = (blsModulus - 3 : ℕ) := by
    have same : (reduceScalar (blsModulus - 3)).weight = blsModulus - 3 := by decide +kernel
    rw [Expr.value, Expr.value, same, nsmul_one]
  have order : 3 + (blsModulus - 3) = blsModulus := by decide +kernel
  have zero : ((3 : ℕ) : ZMod blsModulus) * 1 + (1 * ((blsModulus - 3 : ℕ) : ZMod blsModulus) + 0) = 0 := by
    rw [mul_one, one_mul, add_zero, ← Nat.cast_add, order, ZMod.natCast_self]
  rw [← triple, ← opposite] at zero
  constructor
  · rw [tells _ ?_ ?_, Except.ok.injEq, decide_eq_true_iff]
    · rw [List.map_cons, List.map_cons, List.map_nil, List.sum_cons, List.sum_cons, List.sum_nil]
      exact zero
    · intro call member t listed
      simp only [List.mem_cons, List.not_mem_nil, or_false] at member
      rcases member with rfl | rfl
      · have leaf : t.1 = g1GeneratorLeaf := by
          simp only [Expr.flat, scale, List.mem_append, List.mem_map, List.mem_singleton] at listed
          rcases listed with ⟨u, rfl, rfl⟩ | rfl <;> rfl
        exact leaf ▸ log1
      · rw [List.mem_singleton.mp listed]
        exact log1
    · intro call member t listed
      simp only [List.mem_cons, List.not_mem_nil, or_false] at member
      rcases member with rfl | rfl
      · rw [List.mem_singleton.mp listed]
        exact log2
      · obtain ⟨u, single, rfl⟩ := List.mem_map.mp listed
        rw [List.mem_singleton.mp single]
        exact log2
  · rw [tells _ ?_ ?_, Except.ok.injEq, decide_eq_false_iff_not]
    · simp [Expr.value]
    · intro call member t listed
      rw [List.mem_singleton.mp member] at listed
      rw [List.mem_singleton.mp listed]
      exact log1
    · intro call member t listed
      rw [List.mem_singleton.mp member] at listed
      rw [List.mem_singleton.mp listed]
      exact log2

end KPlugin.Bls12
