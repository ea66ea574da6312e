import KPlugin.Bn128.Expressions
import KPlugin.Lib.Bilinear

/-!
# What `BN128AtePairing` tells of logarithms

The hook is documented by discrete logarithms: it answers whether the sum of the products
of the logarithms is zero. On sums and multiples that the other hooks have computed the
logarithms follow from those of the leaves.
-/

namespace KPlugin.Bn128
open ShortWeierstrass GroupExpr Bilinear

variable {q r : ℕ}

/-! ## The call -/

/-- A term that `BN128G2Valid` accepts. -/
abbrev ValidG2 (libff : LibffG2 q r) := {t : G2Point // hookBn128g2valid libff t = .ok true}

/-- An expression for a point of G1, and a point of G2. -/
abbrev AteCall (libff : LibffG2 q r) := Expr (Annihilated libff.toLibffG1 r) Scalar × ValidG2 libff

/-- The first list is evaluated before the hook is called. -/
def ateOf (libff : LibffG2 q r) (calls : List (AteCall libff)) : Except Raise Bool := do
  let g1 ← calls.mapM fun call => call.1.eval (bnOps libff.toLibffG1 r)
  hookBn128ate libff.toLibffPairing g1 (calls.map fun call => call.2.1)

section
variable [Fact q.Prime] [Fact (∀ a : ZMod q, a ^ 2 ≠ -1 + 0 * a)]

/-! ## Terms of the twist -/

/-- The term of an element of the group of the twist. -/
noncomputable def term2 (Q : (Twist q).Point) : G2Point :=
  ⟨(pair Q).1.re.val, (pair Q).1.im.val, (pair Q).2.re.val, (pair Q).2.im.val⟩

theorem term2_canonical (Q : (Twist q).Point) : (term2 Q).Canonical q :=
  ⟨val_bounds _, val_bounds _, val_bounds _, val_bounds _⟩

theorem term2_zero : term2 (0 : (Twist q).Point) = ⟨0, 0, 0, 0⟩ := by
  have zero : ((0 : ZMod q).val : ℤ) = 0 := by rw [ZMod.val_zero, Nat.cast_zero]
  change G2Point.mk (0 : ZMod q).val (0 : ZMod q).val (0 : ZMod q).val (0 : ZMod q).val = _
  rw [zero]

theorem twistCoordinates_term2 (Q : (Twist q).Point) : twistCoordinates q (term2 Q) = pair Q := by
  unfold twistCoordinates term2
  rw [intCast_val, intCast_val, intCast_val, intCast_val]

/-- A canonical term is the term of the element with its coordinates. -/
theorem term2_of_coordinates {t : G2Point} (canonical : t.Canonical q) {Q : (Twist q).Point}
    (named : pair Q = twistCoordinates q t) : t = term2 Q := by
  obtain ⟨x0, x1, y0, y1⟩ := canonical
  unfold term2
  rw [named]
  unfold twistCoordinates
  rw [val_intCast x0, val_intCast x1, val_intCast y0, val_intCast y1]

variable (q r) in
/-- The points of the twist that `r` annihilates. -/
noncomputable def annihilated2 : AddSubgroup (Twist q).Point := (nsmulAddMonoidHom r).ker

theorem mem_annihilated2 (Q : (Twist q).Point) : Q ∈ annihilated2 q r ↔ r • Q = 0 := AddMonoidHom.mem_ker

theorem order_annihilated2 (Q : annihilated2 q r) : r • Q = 0 := Subtype.ext ((mem_annihilated2 Q.1).mp Q.2)

theorem NamesG2.exists_annihilated {t : G2Point} (names : NamesG2 q r t) : ∃ Q : annihilated2 q r, t = term2 Q.1 := by
  rcases names with rfl | ⟨canonical, -, Q, named, order⟩
  · exact ⟨0, term2_zero.symm⟩
  · exact ⟨⟨Q, (mem_annihilated2 Q).mpr order⟩, term2_of_coordinates canonical named⟩

/-- What the hook accepts is a term of the subgroup. -/
theorem LibffG2.ComputesInTwist.exists_annihilated {libff : LibffG2 q r} {denotes : libff.G2 → (Twist q).Point → Prop}
    (twist : libff.ComputesInTwist denotes) (limbs : libff.FourLimbs) (t : ValidG2 libff) :
    ∃ Q : annihilated2 q r, t.1 = term2 Q.1 := by
  have safe : Safe2 q t.1 := by
    by_contra bad
    have valid := t.2
    unfold hookBn128g2valid at valid
    rw [limbs.getPointG2_fails bad] at valid
    cases valid
  obtain ⟨b, returned, tells⟩ := (twist.bn128g2valid_tells_iff limbs t.1).mpr safe
  obtain rfl : true = b := Except.ok.inj (t.2.symm.trans returned)
  exact (tells.mp rfl).exists_annihilated

/-! ## What is assumed of the pairing -/

/-- The pairing of the terms of two points. -/
noncomputable def LibffPairing.onPoints (libff : LibffPairing q) (P : annihilated q r) (Q : annihilated2 q r) :
    libff.Fq12 := ate libff (term P.1) (term2 Q.1)

/-- Addition of points that `r` annihilates becomes multiplication. -/
structure LibffPairing.Bilinear (libff : LibffPairing q) (r : ℕ) : Prop where
  add_left : ∀ (P P' : annihilated q r) (Q : annihilated2 q r),
    libff.onPoints (P + P') Q = libff.onPoints P Q * libff.onPoints P' Q
  add_right : ∀ (P : annihilated q r) (Q Q' : annihilated2 q r),
    libff.onPoints P (Q + Q') = libff.onPoints P Q * libff.onPoints P Q'

theorem LibffPairing.Bilinear.isPairing {libff : LibffPairing q} (bilinear : libff.Bilinear r) :
    IsPairing (libff.onPoints (r := r)) where
  zero_left := fun _ => if_pos (.inl LibffG1.Implements.term_zero)
  add_left := bilinear.add_left
  zero_right := fun _ => if_pos (.inr term2_zero)
  add_right := bilinear.add_right

/-! ## The answer -/

open Classical in
/-- On terms of points the hook compares the product of their pairings with one. -/
theorem LibffPairing.Implements.ate_terms {libff : LibffPairing q} (impl : libff.Implements)
    (elements : List (annihilated q r × annihilated2 q r)) :
    hookBn128ate libff (elements.map fun c => term c.1.1) (elements.map fun c => term2 c.2.1) =
      .ok (decide ((elements.map fun c => libff.onPoints c.1 c.2).prod = 1)) := by
  have nonnegative1 : ∀ P ∈ elements.map fun c => term c.1.1, G1Point.Nonnegative P := by
    intro P member
    obtain ⟨c, -, rfl⟩ := List.mem_map.mp member
    have canonical : (term c.1.1).Canonical q := G1Point.canonical_ofResidues _
    exact ⟨canonical.1.1, canonical.2.1⟩
  have nonnegative2 : ∀ Q ∈ elements.map fun c => term2 c.2.1, G2Point.Nonnegative Q := by
    intro Q member
    obtain ⟨c, -, rfl⟩ := List.mem_map.mp member
    obtain ⟨x0, x1, y0, y1⟩ := term2_canonical c.2.1
    exact ⟨x0.1, x1.1, y0.1, y1.1⟩
  have accepted : ¬ Refused (rejects1 q) (rejects2 q) (elements.map fun c => term c.1.1)
      (elements.map fun c => term2 c.2.1) := by
    rintro (differ | ⟨P, member, outside⟩ | ⟨Q, member, outside⟩)
    · rw [List.length_map, List.length_map] at differ
      exact differ rfl
    · obtain ⟨c, -, rfl⟩ := List.mem_map.mp member
      obtain ⟨⟨-, x⟩, -, y⟩ : (term c.1.1).Canonical q := G1Point.canonical_ofResidues _
      unfold rejects1 at outside
      omega
    · obtain ⟨c, -, rfl⟩ := List.mem_map.mp member
      obtain ⟨⟨-, x0⟩, ⟨-, x1⟩, ⟨-, y0⟩, -, y1⟩ := term2_canonical c.2.1
      unfold rejects2 at outside
      omega
  obtain ⟨answer, run, tells⟩ := impl.contract.answers _ _ nonnegative1 nonnegative2 accepted
  rw [List.zip_map', List.map_map] at tells
  rw [run, Except.ok.injEq, Bool.eq_iff_iff, decide_eq_true_iff, tells]
  rfl

variable (q) in
/-- `t` is `k` times the point `H`. -/
def IsMultiple (H : G2Point) (k : ℕ) (t : G2Point) : Prop :=
  ∃ Q : (Twist q).Point, pair Q = twistCoordinates q H ∧ pair (k • Q) = twistCoordinates q t

section
variable {libff : LibffG2 q r} {element1 : Annihilated libff.toLibffG1 r → annihilated q r}
  {element2 : ValidG2 libff → annihilated2 q r}

open Classical in
/-- On expressions it compares the product over their meanings. -/
theorem LibffPairing.Implements.ateOf_eq (impl : libff.Implements)
    (computes : (bnOps libff.toLibffG1 r).Computes (fun t P => t = term P.1) (fun P => term P.1) element1 Scalar.weight)
    (same2 : ∀ t, t.1 = term2 (element2 t).1) (calls : List (AteCall libff)) :
    ateOf libff calls = .ok (decide
      ((calls.map fun call => libff.onPoints (call.1.value element1 Scalar.weight) (element2 call.2)).prod = 1)) := by
  obtain ⟨points, run, stand⟩ := mapM_stands calls fun call => call.1.eval_stands computes
  have terms : points = calls.map fun call => term (call.1.value element1 Scalar.weight).1 := by
    clear run
    induction stand with
    | nil => rfl
    | cons first _ ih => rw [List.map_cons, ← ih, first]
  have second : (calls.map fun call => call.2.1) = calls.map fun call => term2 (element2 call.2).1 :=
    List.map_congr_left fun call _ => same2 call.2
  have answer := impl.ate_terms (calls.map fun call => (call.1.value element1 Scalar.weight, element2 call.2))
  rw [List.map_map, List.map_map, List.map_map] at answer
  unfold ateOf
  rw [run, terms, second]
  exact answer

/-- The elements have the logarithms of their terms. -/
theorem LibffG2.ComputesInTwist.element_eq {denotes2 : libff.G2 → (Twist q).Point → Prop}
    (twist : libff.ComputesInTwist denotes2) [NeZero r] (same : ∀ t, t.1 = term2 (element2 t).1) {H t : ValidG2 libff}
    {k : ZMod r} (log : IsMultiple q H.1 k.val t.1) :
    element2 t = residueMultiple (element2 H) (order_annihilated2 _) k := by
  obtain ⟨Q, named, multiple⟩ := log
  rw [same H, twistCoordinates_term2] at named
  rw [same t, twistCoordinates_term2] at multiple
  have injective := pair_injective (twistB_ne_zero (q := q) twist.large)
  obtain rfl := injective named
  rw [residueMultiple_eq_val]
  exact Subtype.ext (injective multiple).symm

end

/-- **The hook answers whether the sum of the products of the logarithms is zero**, the
logarithms of expressions being computed from those of their leaves. -/
theorem ate_tells_logarithms [prime : Fact r.Prime] {libff : LibffG2 q r} (impl : libff.Implements)
    (limbs : libff.FourLimbs) (bilinear : libff.Bilinear r) (small : r < 2 ^ 256)
    {denotes1 : libff.G1 → (Curve q).Point → Prop} (g1 : libff.toLibffG1.Implements denotes1)
    {denotes2 : libff.G2 → (Twist q).Point → Prop} (twist : libff.ComputesInTwist denotes2)
    {G : Annihilated libff.toLibffG1 r} {H : ValidG2 libff} (nondegenerate : ate libff.toLibffPairing G.1 H.1 ≠ 1)
    {log1 : Annihilated libff.toLibffG1 r → ZMod r} {log2 : ValidG2 libff → ZMod r} (calls : List (AteCall libff))
    (logs1 : ∀ call ∈ calls, ∀ t ∈ call.1.flat Scalar.weight,
      hookBn128mul libff.toLibffG1 G.1 (log1 t.1).val = .ok t.1.1)
    (logs2 : ∀ call ∈ calls, IsMultiple q H.1 (log2 call.2).val call.2.1) :
    ateOf libff calls =
      .ok (decide ((calls.map fun call => call.1.value log1 Scalar.weight * log2 call.2).sum = 0)) := by
  obtain ⟨element1, same1, computes⟩ := g1.computes small
  choose element2 same2 using twist.exists_annihilated limbs
  let φ := residueMultiple (element1 G) (order_annihilated _)
  let ψ := residueMultiple (element2 H) (order_annihilated2 _)
  have generators : libff.onPoints (φ 1) (ψ 1) ≠ 1 := by
    have one : φ 1 = element1 G := residueMultiple_one _ _
    have one' : ψ 1 = element2 H := residueMultiple_one _ _
    unfold LibffPairing.onPoints
    rw [one, one', ← same1 G, ← same2 H]
    exact nondegenerate
  have meanings : calls.map (fun call => libff.onPoints (call.1.value element1 Scalar.weight) (element2 call.2)) =
      calls.map fun call => libff.onPoints (φ (call.1.value log1 Scalar.weight)) (ψ (log2 call.2)) := by
    refine List.map_congr_left fun call member => ?_
    have first := Expr.value_eq_map φ fun t listed => g1.element_eq small same1 (logs1 call member t listed)
    have second := twist.element_eq same2 (logs2 call member)
    exact congrArg₂ libff.onPoints first second
  have tells := bilinear.isPairing.prod_eq_one_iff φ ψ generators
    (calls.map fun call => (call.1.value log1 Scalar.weight, log2 call.2))
  rw [List.map_map, List.map_map] at tells
  classical
  rw [impl.ateOf_eq computes same2, Except.ok.injEq, Bool.eq_iff_iff, decide_eq_true_iff, decide_eq_true_iff, meanings]
  exact tells

end

/-! ## The order of the groups is a prime -/

/-- Primes below the order, each proved from those before it. -/
def bnScalarCertificates : List Pratt.Certificate :=
  [⟨3, 2, [(2, 1)]⟩, ⟨5, 2, [(2, 2)]⟩, ⟨7, 3, [(2, 1), (3, 1)]⟩, ⟨11, 2, [(2, 1), (5, 1)]⟩,
    ⟨13, 2, [(2, 2), (3, 1)]⟩, ⟨17, 3, [(2, 4)]⟩, ⟨19, 2, [(2, 1), (3, 2)]⟩, ⟨23, 5, [(2, 1), (11, 1)]⟩,
    ⟨29, 2, [(2, 2), (7, 1)]⟩, ⟨31, 3, [(2, 1), (3, 1), (5, 1)]⟩, ⟨37, 2, [(2, 2), (3, 2)]⟩,
    ⟨41, 6, [(2, 3), (5, 1)]⟩, ⟨47, 5, [(2, 1), (23, 1)]⟩, ⟨53, 2, [(2, 2), (13, 1)]⟩,
    ⟨71, 7, [(2, 1), (5, 1), (7, 1)]⟩, ⟨83, 2, [(2, 1), (41, 1)]⟩, ⟨107, 2, [(2, 1), (53, 1)]⟩,
    ⟨137, 3, [(2, 3), (17, 1)]⟩, ⟨223, 3, [(2, 1), (3, 1), (37, 1)]⟩, ⟨229, 6, [(2, 2), (3, 1), (19, 1)]⟩,
    ⟨379, 2, [(2, 1), (3, 3), (7, 1)]⟩, ⟨409, 21, [(2, 3), (3, 1), (17, 1)]⟩, ⟨449, 3, [(2, 6), (7, 1)]⟩,
    ⟨491, 2, [(2, 1), (5, 1), (7, 2)]⟩, ⟨661, 2, [(2, 2), (3, 1), (5, 1), (11, 1)]⟩,
    ⟨823, 3, [(2, 1), (3, 1), (137, 1)]⟩, ⟨853, 2, [(2, 2), (3, 1), (71, 1)]⟩, ⟨983, 5, [(2, 1), (491, 1)]⟩,
    ⟨1637, 2, [(2, 2), (409, 1)]⟩, ⟨3691, 2, [(2, 1), (3, 2), (5, 1), (41, 1)]⟩,
    ⟨4999, 3, [(2, 1), (3, 1), (7, 2), (17, 1)]⟩, ⟨5501, 2, [(2, 2), (5, 3), (11, 1)]⟩,
    ⟨11003, 2, [(2, 1), (5501, 1)]⟩, ⟨20963, 2, [(2, 1), (47, 1), (223, 1)]⟩, ⟨41927, 5, [(2, 1), (20963, 1)]⟩,
    ⟨93001, 14, [(2, 3), (3, 1), (5, 3), (31, 1)]⟩, ⟨237073, 15, [(2, 4), (3, 1), (11, 1), (449, 1)]⟩,
    ⟨1593227, 2, [(2, 1), (19, 1), (41927, 1)]⟩, ⟨405928799, 22, [(2, 1), (11, 1), (3691, 1), (4999, 1)]⟩,
    ⟨639533339, 2, [(2, 1), (229, 1), (853, 1), (1637, 1)]⟩,
    ⟨12048837557, 2, [(2, 2), (7, 2), (661, 1), (93001, 1)]⟩,
    ⟨5156902474397, 2, [(2, 2), (107, 1), (12048837557, 1)]⟩,
    ⟨1670836401704629, 2, [(2, 2), (3, 4), (5156902474397, 1)]⟩,
    ⟨65865678001877903, 5, [(2, 1), (83, 1), (379, 1), (1637, 1), (639533339, 1)]⟩,
    ⟨13818364434197438864469338081, 3, [(2, 5), (5, 1), (823, 1), (1593227, 1), (65865678001877903, 1)]⟩,
    ⟨21888242871839275222246405745257275088548364400416034343698204186575808495617, 5, [(2, 28), (3, 2), (13, 1), (29, 1), (983, 1), (11003, 1), (237073, 1), (405928799, 1), (1670836401704629, 1), (13818364434197438864469338081, 1)]⟩]

theorem bnScalarModulus_prime : bnScalarModulus.Prime := by
  have checked : Pratt.checkChain [2] bnScalarCertificates = true := by decide +kernel
  have certified : ∃ c ∈ bnScalarCertificates, c.p = bnScalarModulus := by decide +kernel
  exact Pratt.prime_of_certified checked certified

instance : Fact bnScalarModulus.Prime := ⟨bnScalarModulus_prime⟩

/-! ## A pairing of logarithms -/

/-- A homomorphism on the points of a group, zero on the pairs off its curve. -/
noncomputable def onElements {A C : Type} [AddCommGroup A] {S : AddSubgroup A} (φ : S →+ ZMod bnScalarModulus)
    (p : A ⊕ C) : ZMod bnScalarModulus := p.elim (extend φ) fun _ => 0

/-- The library of the groups, whose pairing multiplies values of two homomorphisms. -/
noncomputable abbrev bilinearReference (φ : annihilated bnFieldModulus bnScalarModulus →+ ZMod bnScalarModulus)
    (ψ : annihilated2 bnFieldModulus bnScalarModulus →+ ZMod bnScalarModulus) :
    LibffG2 bnFieldModulus bnScalarModulus where
  toLibffG1 := referenceLibff bnFieldModulus
  G2 := ReferenceG2
  g2 := referenceLibffG2.g2
  g2Zero := referenceLibffG2.g2Zero
  g2IsZero := referenceLibffG2.g2IsZero
  Fq12 := Multiplicative (ZMod bnScalarModulus)
  G1Precomp := ReferencePoint bnFieldModulus
  G2Precomp := ReferenceG2
  precomputeG1 := id
  precomputeG2 := id
  millerLoop p p' := .ofAdd (onElements φ p * onElements ψ p')
  finalExponentiation := MonoidHom.id _
  g2IsWellFormed := referenceLibffG2.g2IsWellFormed
  g2Smul := referenceLibffG2.g2Smul
  g2Add := referenceLibffG2.g2Add
  g2Eq := referenceLibffG2.g2Eq

section
variable {φ : annihilated bnFieldModulus bnScalarModulus →+ ZMod bnScalarModulus}
  {ψ : annihilated2 bnFieldModulus bnScalarModulus →+ ZMod bnScalarModulus}

/-- The term of a finite point enters as that point. -/
theorem referenceLibff_term {P : (Curve bnFieldModulus).Point} (finite : P ≠ 0) :
    (referenceLibff bnFieldModulus).g1 (term P).x (term P).y 1 = .inl P := by
  cases P with
  | zero => exact absurd rfl finite
  | some x y h =>
    refine Eq.trans ?_ (bn_implements.g1 x y h)
    change (referenceLibff bnFieldModulus).g1 (((x.val : ℕ) : ℤ) : ZMod bnFieldModulus)
      (((y.val : ℕ) : ℤ) : ZMod bnFieldModulus) 1 = _
    rw [intCast_val, intCast_val]

theorem referenceLibffG2_term2 {Q : (Twist bnFieldModulus).Point} (finite : Q ≠ 0) :
    referenceLibffG2.g2 ((term2 Q).x0, (term2 Q).x1) ((term2 Q).y0, (term2 Q).y1) (1, 0) = Sum.inl Q := by
  cases Q with
  | zero => exact absurd rfl finite
  | some x y h =>
    refine Eq.trans ?_ (referenceLibffG2_computes.g2 x y h)
    unfold term2
    rw [intCast_val, intCast_val, intCast_val, intCast_val]
    rfl

theorem bilinearReference_onPoints (P : annihilated bnFieldModulus bnScalarModulus)
    (Q : annihilated2 bnFieldModulus bnScalarModulus) :
    (bilinearReference φ ψ).onPoints P Q = ofLogarithms φ ψ P Q := by
  by_cases infinite : P = 0 ∨ Q = 0
  · have one : (bilinearReference φ ψ).onPoints P Q = 1 := by
      refine if_pos (infinite.imp ?_ ?_)
      · rintro rfl
        exact LibffG1.Implements.term_zero
      · rintro rfl
        exact term2_zero
    rw [one, ofLogarithms]
    rcases infinite with rfl | rfl
    · rw [map_zero, zero_mul, ofAdd_zero]
    · rw [map_zero, mul_zero, ofAdd_zero]
  · obtain ⟨finite1, finite2⟩ := not_or.mp infinite
    have nonzero1 : P.1 ≠ 0 := fun zero => finite1 (Subtype.ext zero)
    have nonzero2 : Q.1 ≠ 0 := fun zero => finite2 (Subtype.ext zero)
    have named : ¬ (term P.1 = ⟨0, 0⟩ ∨ term2 Q.1 = ⟨0, 0, 0, 0⟩) := by
      rintro (origin | origin)
      · rw [← LibffG1.Implements.term_zero (q := bnFieldModulus)] at origin
        exact nonzero1 (bn_implements.code.injective origin)
      · apply nonzero2
        rw [← pair_eq_zero_iff (twistB_ne_zero (by decide)), ← twistCoordinates_term2, origin]
        rfl
    unfold LibffPairing.onPoints
    refine (if_neg named).trans ?_
    change Multiplicative.ofAdd (onElements φ ((referenceLibff bnFieldModulus).g1 (term P.1).x (term P.1).y 1) *
      onElements ψ (referenceLibffG2.g2 ((term2 Q.1).x0, (term2 Q.1).x1) ((term2 Q.1).y0, (term2 Q.1).y1) (1, 0))) = _
    rw [referenceLibff_term nonzero1, referenceLibffG2_term2 nonzero2]
    change Multiplicative.ofAdd (extend φ P.1 * extend ψ Q.1) = _
    rw [extend_coe, extend_coe]
    rfl

theorem bilinearReference_bilinear : (bilinearReference φ ψ).Bilinear bnScalarModulus := by
  have same : (bilinearReference φ ψ).onPoints = ofLogarithms φ ψ := funext₂ bilinearReference_onPoints
  have pairing := same ▸ ofLogarithms_isPairing φ ψ
  exact ⟨pairing.add_left, pairing.add_right⟩

theorem bilinearReference_implements : (bilinearReference φ ψ).Implements where
  positive := by decide
  limbs := bn_implements.limbs
  bigint := bn_implements.bigint
  isZero_zero := (bn_implements.isZero _ 0 rfl).mpr rfl
  isZero_g1 := by
    intro x y
    change (referenceLibff bnFieldModulus).isZero ((referenceLibff bnFieldModulus).g1 x y 1) = false
    by_cases on : (Curve bnFieldModulus).Equation x y
    · have h := (nonsingular_iff bn_implements.six_ne_zero bn_implements.three_ne_zero).mpr (equation_iff.mp on)
      rw [bn_implements.g1 x y h]
      exact decide_eq_false (WeierstrassCurve.Affine.Point.some_ne_zero h)
    · have off : (referenceLibff bnFieldModulus).g1 x y 1 = Sum.inr (x, y) := if_neg on
      rw [off]
      rfl
  g2IsZero_zero := by
    change referenceLibffG2.g2IsZero (Sum.inl 0) = true
    exact decide_eq_true (p := (0 : (Twist bnFieldModulus).Point) = 0) rfl
  g2IsZero_g2 := by
    intro x y
    change referenceLibffG2.g2IsZero (referenceLibffG2.g2 x y (1, 0)) = false
    by_cases on : (Twist bnFieldModulus).Equation ⟨x.1, x.2⟩ ⟨y.1, y.2⟩
    · have large : 3 < bnFieldModulus := by decide
      have h := (nonsingular_iff (six_ne_zero_fq2 large) (twistB_ne_zero large)).mpr (equation_iff.mp on)
      have point := referenceLibffG2_computes.g2 ⟨x.1, x.2⟩ ⟨y.1, y.2⟩ h
      refine (congrArg referenceLibffG2.g2IsZero point).trans ?_
      exact decide_eq_false (WeierstrassCurve.Affine.Point.some_ne_zero h)
    · have off : referenceLibffG2.g2 x y (1, 0) = Sum.inr (⟨x.1, x.2⟩, ⟨y.1, y.2⟩) := if_neg on
      rw [off]
      rfl

theorem bilinearReference_twist : (bilinearReference φ ψ).ComputesInTwist fun p P => p = .inl P :=
  { referenceLibffG2_computes with }

end

/-! ## The generators -/

theorem generatorG2_onTwist : (twistCoordinates bnFieldModulus generatorG2).2 ^ 2 =
    (twistCoordinates bnFieldModulus generatorG2).1 ^ 3 + twistB bnFieldModulus := by
  have denominator : (⟨(9 : ℕ), 1⟩ : Fq2Field bnFieldModulus) ≠ 0 := by
    intro zero
    exact one_ne_zero (congrArg QuadraticAlgebra.im zero)
  have cleared : ((twistCoordinates bnFieldModulus generatorG2).2 ^ 2 -
      (twistCoordinates bnFieldModulus generatorG2).1 ^ 3) * ⟨(9 : ℕ), 1⟩ = ((3 : ℕ) : Fq2Field bnFieldModulus) := by
    decide +kernel
  unfold twistB
  rw [← cleared, mul_div_cancel_right₀ _ denominator]
  ring

theorem generatorG2_element :
    ∃ Q : annihilated2 bnFieldModulus bnScalarModulus, pair Q.1 = twistCoordinates bnFieldModulus generatorG2 := by
  have large : 3 < bnFieldModulus := by decide
  obtain ⟨named, order⟩ := nsmul_elementOf_of_chain (six_ne_zero_fq2 large) (twistB_ne_zero large)
    generatorG2_onTwist (by decide +kernel) (n := bnScalarModulus) (by decide) (by decide +kernel)
  exact ⟨⟨_, (mem_annihilated2 _).mpr order⟩, named⟩

theorem generatorLeaf_element : ∃ P : annihilated bnFieldModulus bnScalarModulus, generatorLeaf.1 = term P.1 :=
  bn_implements.exists_annihilated (by decide +kernel) generatorLeaf

theorem exists_logarithm1 : ∃ φ : annihilated bnFieldModulus bnScalarModulus →+ ZMod bnScalarModulus,
    φ generatorLeaf_element.choose = 1 := by
  refine Bilinear.exists_logarithm order_annihilated fun zero => ?_
  have named := generatorLeaf_element.choose_spec
  rw [zero] at named
  exact absurd (named.trans LibffG1.Implements.term_zero) (by decide)

theorem exists_logarithm2 : ∃ ψ : annihilated2 bnFieldModulus bnScalarModulus →+ ZMod bnScalarModulus,
    ψ generatorG2_element.choose = 1 := by
  refine Bilinear.exists_logarithm order_annihilated2 fun zero => ?_
  have named := generatorG2_element.choose_spec
  rw [zero] at named
  have finite : ((0, 0) : Fq2Field bnFieldModulus × Fq2Field bnFieldModulus) ≠
      twistCoordinates bnFieldModulus generatorG2 := by decide +kernel
  exact finite named

/-- The pairing for which both generators have the logarithm 1. -/
noncomputable abbrev generatorPairing : LibffG2 bnFieldModulus bnScalarModulus :=
  bilinearReference exists_logarithm1.choose exists_logarithm2.choose

theorem generatorG2_eq : generatorG2 = term2 generatorG2_element.choose.1 :=
  term2_of_coordinates generatorG2_canonical generatorG2_element.choose_spec

theorem generatorG2_valid : hookBn128g2valid generatorPairing generatorG2 = .ok true := by
  have canonical := generatorG2_canonical
  have safe : Safe2 bnFieldModulus generatorG2 := .inl generatorG2_nonnegative
  have order := (mem_annihilated2 _).mp generatorG2_element.choose.2
  have twist : generatorPairing.ComputesInTwist fun p P => p = .inl P := bilinearReference_twist
  obtain ⟨b, returned, tells⟩ := (twist.bn128g2valid_tells_iff referenceLibff_fourLimbs generatorG2).mpr safe
  have valid := tells.mpr (.inr ⟨canonical, generatorG2_onTwist, _, generatorG2_element.choose_spec, order⟩)
  rw [returned, valid]

def generatorLeafG2 : ValidG2 generatorPairing := ⟨generatorG2, generatorG2_valid⟩

theorem generatorPairing_nondegenerate : ate generatorPairing.toLibffPairing ⟨1, 2⟩ generatorG2 ≠ 1 := by
  have value : generatorPairing.onPoints generatorLeaf_element.choose generatorG2_element.choose = _ :=
    bilinearReference_onPoints _ _
  unfold LibffPairing.onPoints at value
  rw [← generatorLeaf_element.choose_spec, ← generatorG2_eq] at value
  change ate generatorPairing.toLibffPairing ⟨1, 2⟩ generatorG2 = _ at value
  rw [value]
  exact ofLogarithms_ne_one exists_logarithm1.choose_spec exists_logarithm2.choose_spec

theorem mul_generator_one : hookBn128mul (referenceLibff bnFieldModulus) ⟨1, 2⟩ (1 : ZMod bnScalarModulus).val =
    .ok ⟨1, 2⟩ := by
  have one : (1 : ZMod bnScalarModulus).val = 1 := ZMod.val_one _
  have multiple := bn_implements.mul_term generatorLeaf_element.choose.1 (n := 1) (by decide)
  rw [one_nsmul, ← generatorLeaf_element.choose_spec] at multiple
  rw [one]
  exact multiple

/-- `r - 1` times the first generator and the generator itself cancel against the second
one; the two generators alone do not. -/
theorem ate_tells_logarithms_generators :
    ateOf generatorPairing [(.mul (.leaf generatorLeaf) bnPredecessor, generatorLeafG2),
      (.leaf generatorLeaf, generatorLeafG2)] = .ok true ∧
    ateOf generatorPairing [(.leaf generatorLeaf, generatorLeafG2)] = .ok false := by
  have tells := @ate_tells_logarithms bnFieldModulus bnScalarModulus _ _ _ generatorPairing bilinearReference_implements
    referenceLibff_fourLimbs bilinearReference_bilinear (by decide +kernel) _ bn_implements _ bilinearReference_twist
    generatorLeaf generatorLeafG2 generatorPairing_nondegenerate (fun _ => 1) (fun _ => 1)
  have log1 : ∀ t : Annihilated (referenceLibff bnFieldModulus) bnScalarModulus, t = generatorLeaf →
      hookBn128mul (referenceLibff bnFieldModulus) generatorLeaf.1 (1 : ZMod bnScalarModulus).val = .ok t.1 := by
    rintro t rfl
    exact mul_generator_one
  have log2 : IsMultiple bnFieldModulus generatorG2 (1 : ZMod bnScalarModulus).val generatorG2 := by
    refine ⟨_, generatorG2_element.choose_spec, ?_⟩
    rw [ZMod.val_one, one_nsmul, generatorG2_element.choose_spec]
  have sum : (bnPredecessor.weight : ZMod bnScalarModulus) * 1 + (1 * 1 + 0) = 0 := by
    rw [mul_one, mul_one, add_zero, ← Nat.cast_one, ← Nat.cast_add, weight_bnPredecessor, ZMod.natCast_self]
  constructor
  · rw [tells _ ?_ ?_, Except.ok.injEq, decide_eq_true_iff]
    · rw [List.map_cons, List.map_cons, List.map_nil, List.sum_cons, List.sum_cons, List.sum_nil, Expr.value, Expr.value,
        Expr.value, nsmul_one]
      exact sum
    · intro call member t listed
      simp only [List.mem_cons, List.not_mem_nil, or_false] at member
      rcases member with rfl | rfl
      · obtain ⟨u, single, rfl⟩ := List.mem_map.mp listed
        rw [List.mem_singleton.mp single]
        exact log1 _ rfl
      · rw [List.mem_singleton.mp listed]
        exact log1 _ rfl
    · intro call member
      simp only [List.mem_cons, List.not_mem_nil, or_false] at member
      rcases member with rfl | rfl
      · exact log2
      · exact log2
  · rw [tells _ ?_ ?_, Except.ok.injEq, decide_eq_false_iff_not]
    · simp [Expr.value]
    · intro call member t listed
      rw [List.mem_singleton.mp member] at listed
      rw [List.mem_singleton.mp listed]
      exact log1 _ rfl
    · intro call member
      rw [List.mem_singleton.mp member]
      exact log2

end KPlugin.Bn128
