import KPlugin.Bls12.Blst

/-!
# `hook_KRYPTO_verifyKZGProof`

Each thread loads the trusted setup at its first call and keeps it. Loading may fail
and throw; the flag stays set then and the next call loads again, so a thread whose
flag is cleared has a complete setup whatever happened before. The four strings are
read as arrays of 48 and 32 bytes without a look at their lengths: a longer string
loses its end and a shorter one is continued by what lies behind it.
-/

namespace KPlugin.Kzg
open Radix
open Bls12 (blsModulus)

/-! ## The hook -/

/-- `C_KZG_RET`. -/
inductive Ret where
  | ok
  | badArgs
  | error
  | malloc
deriving DecidableEq, Repr

/-- What the hook calls of c-kzg and of the C library, in a world that decides which files
can be made and what memory there is. -/
structure CKzg where
  World : Type
  Settings : Type
  /-- A `thread_local` variable starts as zeros. -/
  zeroed : Settings
  /-- The contents of a `tmpfile()` after `fputs(trusted_setup_str, fp)`; `none` when there is no file. -/
  setupFile : World → Option Bytes
  loadTrustedSetupFile : World → Settings → Bytes → Ret × Settings
  /-- The value stored through the first argument, which holds `res` at the call. -/
  verifyKzgProof : (res : Bool) → Bytes → Bytes → Bytes → Bytes → Settings → Ret × Bool

/-- A K string and the memory behind it. -/
structure Text where
  data : Bytes
  beyond : ℕ → Byte

/-- The array of `n` bytes at the address of the data. -/
def Text.view (n : ℕ) (s : Text) : Bytes := (s.data ++ (List.range n).map s.beyond).take n

/-- How a call ends. -/
inductive Outcome where
  | returns (b : Bool)
  /-- `std::runtime_error`. -/
  | throws
  /-- Access through a null `FILE *`. -/
  | crashes
deriving DecidableEq, Repr

/-- The `thread_local` variables. -/
structure Thread (ckzg : CKzg) where
  settings : ckzg.Settings
  once : Bool

/-- The arguments of a call, the world it is made in, and what `res` holds before it is written. -/
structure Call (ckzg : CKzg) where
  world : ckzg.World
  res : Bool
  commitment : Text
  z : Text
  y : Text
  proof : Text

variable {ckzg : CKzg}

/-- `setup`, up to how it ends; the settings may be left half loaded. -/
def setup (world : ckzg.World) (s : ckzg.Settings) : Option Outcome × ckzg.Settings :=
  match ckzg.setupFile world with
  | none => (some .crashes, s)
  | some file =>
    let (ret, s) := ckzg.loadTrustedSetupFile world s file
    if ret ≠ .ok then (some .throws, s) else (none, s)

/-- The hook, over what `verify_kzg_proof` stores for the arrays that it is handed. -/
def hookWith (verified : Bytes → Bytes → Bytes → Bytes → ckzg.Settings → Bool) (st : Thread ckzg) (c : Call ckzg) :
    Outcome × Thread ckzg :=
  let verify := verified (c.commitment.view 48) (c.z.view 32) (c.y.view 32) (c.proof.view 48)
  if st.once then
    match setup c.world st.settings with
    | (some failure, settings) => (failure, { st with settings := settings })
    | (none, settings) => (.returns (verify settings), ⟨settings, false⟩)
  else (.returns (verify st.settings), st)

/-- The end of the hook, with loaded settings. -/
def verify (c : Call ckzg) (settings : ckzg.Settings) : Bool :=
  (ckzg.verifyKzgProof c.res (c.commitment.view 48) (c.z.view 32) (c.y.view 32) (c.proof.view 48) settings).2

def hookVerifyKZGProof (st : Thread ckzg) (c : Call ckzg) : Outcome × Thread ckzg :=
  hookWith (fun commitment z y proof settings => (ckzg.verifyKzgProof c.res commitment z y proof settings).2) st c

/-- A new thread. -/
def Thread.start (ckzg : CKzg) : Thread ckzg := ⟨ckzg.zeroed, true⟩

/-- Calls one after another; none is left after a crash. -/
def afterCalls : List (Call ckzg) → Thread ckzg → Option (Thread ckzg)
  | [], st => some st
  | c :: calls, st =>
    match hookVerifyKZGProof st c with
    | (.crashes, _) => none
    | (_, st) => afterCalls calls st

/-! ## What is assumed of c-kzg -/

/-- Loading reports success only when the setup is complete. With a complete setup,
false is stored first and true only for canonical fields and a valid proof. -/
structure CKzg.Behaves (ckzg : CKzg) (Complete : ckzg.Settings → Prop) (ProofValid : Bytes → Bytes → Bytes → Bytes → Prop) :
    Prop where
  load : ∀ world s file, (ckzg.loadTrustedSetupFile world s file).1 = .ok →
    Complete (ckzg.loadTrustedSetupFile world s file).2
  verify : ∀ res c z y p s, Complete s → c.length = 48 → z.length = 32 → y.length = 32 → p.length = 48 →
    ((ckzg.verifyKzgProof res c z y p s).2 = true ↔
      valueBE z < blsModulus ∧ valueBE y < blsModulus ∧ ProofValid c z y p)

/-! ## Threads -/

/-- A thread that will not load again has a complete setup. -/
def Loaded (Complete : ckzg.Settings → Prop) (st : Thread ckzg) : Prop := st.once = false → Complete st.settings

/-- Loading the setup fails in this world. -/
def SetupFails (world : ckzg.World) (s : ckzg.Settings) : Prop :=
  ∀ file, ckzg.setupFile world = some file → (ckzg.loadTrustedSetupFile world s file).1 ≠ .ok

section
variable {Complete : ckzg.Settings → Prop} {ProofValid : Bytes → Bytes → Bytes → Bytes → Prop}

theorem start_loaded : Loaded Complete (Thread.start ckzg) := by
  intro cleared
  cases cleared

/-- **What `setup` can do**: complete the settings, or fail. -/
theorem setup_cases (behaves : ckzg.Behaves Complete ProofValid) (world : ckzg.World) (s : ckzg.Settings) :
    (SetupFails world s ∧ ∃ failure s', setup world s = (some failure, s') ∧ ∀ b, failure ≠ .returns b) ∨
    (¬ SetupFails world s ∧ ∃ s', setup world s = (none, s') ∧ Complete s') := by
  unfold setup SetupFails
  cases made : ckzg.setupFile world with
  | none =>
    refine .inl ⟨?_, _, _, rfl, ?_⟩
    · simp
    · simp
  | some file =>
    by_cases loaded : (ckzg.loadTrustedSetupFile world s file).1 = .ok
    · refine .inr ⟨?_, _, if_neg (not_not.mpr loaded), behaves.load world s file loaded⟩
      intro fails
      exact fails file rfl loaded
    · refine .inl ⟨?_, .throws, _, if_pos loaded, ?_⟩
      · rintro file' same
        cases same
        exact loaded
      · simp

/-- **What a call can do**, whatever it is answered about the arrays: fail while the flag
is set, or return with a complete setup. -/
theorem hookWith_cases (behaves : ckzg.Behaves Complete ProofValid) {st : Thread ckzg} (loaded : Loaded Complete st)
    (world : ckzg.World) :
    (st.once = true ∧ SetupFails world st.settings ∧ ∃ failure s', (∀ b, failure ≠ .returns b) ∧
      ∀ verified c, c.world = world → hookWith verified st c = (failure, ⟨s', true⟩)) ∨
    (¬ (st.once = true ∧ SetupFails world st.settings) ∧ ∃ s', Complete s' ∧
      ∀ verified c, c.world = world → hookWith verified st c =
        (.returns (verified (c.commitment.view 48) (c.z.view 32) (c.y.view 32) (c.proof.view 48) s'), ⟨s', false⟩)) := by
  obtain ⟨settings, once⟩ := st
  cases once with
  | false =>
    refine .inr ⟨by simp, settings, loaded rfl, ?_⟩
    intro verified c _
    rfl
  | true =>
    rcases setup_cases behaves world settings with ⟨fails, failure, s', ended, failed⟩ | ⟨works, s', ended, complete⟩
    · refine .inl ⟨rfl, fails, failure, s', failed, ?_⟩
      rintro verified c rfl
      simp only [hookWith, ended, if_true]
    · refine .inr ⟨fun both => works both.2, s', complete, ?_⟩
      rintro verified c rfl
      simp only [hookWith, ended, if_true]

/-- A call of the hook itself. -/
theorem hook_cases (behaves : ckzg.Behaves Complete ProofValid) {st : Thread ckzg} (loaded : Loaded Complete st)
    (c : Call ckzg) :
    (st.once = true ∧ SetupFails c.world st.settings ∧
      ∃ failure s', hookVerifyKZGProof st c = (failure, ⟨s', true⟩) ∧ ∀ b, failure ≠ .returns b) ∨
    (¬ (st.once = true ∧ SetupFails c.world st.settings) ∧
      ∃ s', Complete s' ∧ hookVerifyKZGProof st c = (.returns (verify c s'), ⟨s', false⟩)) := by
  rcases hookWith_cases behaves loaded c.world with ⟨once, fails, failure, s', failed, ended⟩ |
    ⟨works, s', complete, ended⟩
  · exact .inl ⟨once, fails, failure, s', ended _ c rfl, failed⟩
  · exact .inr ⟨works, s', complete, ended _ c rfl⟩

theorem hook_loaded (behaves : ckzg.Behaves Complete ProofValid) {st : Thread ckzg} (loaded : Loaded Complete st)
    (c : Call ckzg) : Loaded Complete (hookVerifyKZGProof st c).2 := by
  rcases hook_cases behaves loaded c with ⟨-, -, failure, s', ended, -⟩ | ⟨-, s', complete, ended⟩
  · rw [ended]
    intro cleared
    cases cleared
  · rw [ended]
    exact fun _ => complete

/-- **After any calls**, failed ones included, a cleared flag means a complete setup. -/
theorem afterCalls_loaded (behaves : ckzg.Behaves Complete ProofValid) (calls : List (Call ckzg))
    {st st' : Thread ckzg} (loaded : Loaded Complete st) (reached : afterCalls calls st = some st') :
    Loaded Complete st' := by
  induction calls generalizing st with
  | nil =>
    cases reached
    exact loaded
  | cons c calls ih =>
    have next := hook_loaded behaves loaded c
    rw [afterCalls] at reached
    rcases hook : hookVerifyKZGProof st c with ⟨_ | _ | _, st''⟩
    · rw [hook] at reached next
      exact ih next reached
    · rw [hook] at reached next
      exact ih next reached
    · rw [hook] at reached
      cases reached

end

/-! ## Strings -/

theorem Text.length_view (n : ℕ) (s : Text) : (s.view n).length = n := by
  simp [Text.view]

/-- The array does not depend on the memory behind the string. -/
def Text.StaysInside (n : ℕ) (s : Text) : Prop := ∀ beyond, Text.view n ⟨s.data, beyond⟩ = s.view n

theorem Text.view_of_length {n : ℕ} {s : Text} (length : s.data.length = n) : s.view n = s.data := by
  rw [Text.view, ← length, List.take_left]

/-- A shorter string is continued by the memory behind it. -/
theorem Text.staysInside_iff (n : ℕ) (s : Text) : s.StaysInside n ↔ n ≤ s.data.length := by
  constructor
  · intro stays
    by_contra short
    have behind : ∀ b : Byte, (Text.view n ⟨s.data, fun _ => b⟩)[s.data.length]? = some b := by
      intro b
      have position : s.data.length < n := not_le.mp short
      simp only [Text.view, List.getElem?_take_of_lt position, List.getElem?_append_right le_rfl, Nat.sub_self]
      simp only [List.map_const', List.length_range, List.getElem?_replicate]
      exact if_pos (by omega)
    have same := (behind 0).symm.trans ((congrArg (fun v => v[s.data.length]?) ((stays _).trans (stays _).symm)).trans
      (behind 1))
    exact absurd (Option.some.inj same) (by decide)
  · intro long beyond
    rw [Text.view, Text.view, List.take_append_of_le_length long, List.take_append_of_le_length long]

/-! ## What a call promises -/

/-- The lengths that the arguments must have. -/
structure RightLengths (c : Call ckzg) : Prop where
  commitment : c.commitment.data.length = 48
  z : c.z.data.length = 32
  y : c.y.data.length = 32
  proof : c.proof.data.length = 48

/-- No argument is longer than the array it is read as. -/
structure NoTrailingBytes (c : Call ckzg) : Prop where
  commitment : c.commitment.data.length ≤ 48
  z : c.z.data.length ≤ 32
  y : c.y.data.length ≤ 32
  proof : c.proof.data.length ≤ 48

/-- What lies behind the four strings. -/
structure Behind where
  commitment : ℕ → Byte
  z : ℕ → Byte
  y : ℕ → Byte
  proof : ℕ → Byte

/-- The same call in other memory. -/
def Call.before (c : Call ckzg) (m : Behind) : Call ckzg :=
  { c with
    commitment := ⟨c.commitment.data, m.commitment⟩
    z := ⟨c.z.data, m.z⟩
    y := ⟨c.y.data, m.y⟩
    proof := ⟨c.proof.data, m.proof⟩ }

/-- The answer is whether the arguments have the right lengths, the fields are canonical
and the proof is valid. -/
def Right (ProofValid : Bytes → Bytes → Bytes → Bytes → Prop) (c : Call ckzg) (b : Bool) : Prop :=
  b = true ↔ RightLengths c ∧ valueBE c.z.data < blsModulus ∧ valueBE c.y.data < blsModulus ∧
    ProofValid c.commitment.data c.z.data c.y.data c.proof.data

/-- A call that returns has used a complete setup and answers right. Whatever c-kzg stores
for the arrays it is handed, how the call ends does not depend on the memory behind the
strings, and a string with trailing bytes is not accepted. -/
structure Meets (Complete : ckzg.Settings → Prop) (ProofValid : Bytes → Bytes → Bytes → Bytes → Prop) (st : Thread ckzg)
    (c : Call ckzg) : Prop where
  answers : ∀ b st', hookVerifyKZGProof st c = (.returns b, st') → Complete st'.settings ∧ Right ProofValid c b
  inside : ∀ verified m, (hookWith verified st (c.before m)).1 = (hookWith verified st c).1
  whole : ∀ verified st', hookWith verified st c = (.returns true, st') → NoTrailingBytes c

/-- Of these only the answer, with what c-kzg makes of the arrays and in any memory. -/
def AnswersRight (Complete : ckzg.Settings → Prop) (ProofValid : Bytes → Bytes → Bytes → Bytes → Prop) (st : Thread ckzg)
    (c : Call ckzg) : Prop :=
  ∀ m b st', hookVerifyKZGProof st (c.before m) = (.returns b, st') → Complete st'.settings ∧ Right ProofValid c b

/-- The bytes at the four addresses are a valid proof, with canonical fields. -/
def ArraysValid (ProofValid : Bytes → Bytes → Bytes → Bytes → Prop) (c : Call ckzg) : Prop :=
  valueBE (c.z.view 32) < blsModulus ∧ valueBE (c.y.view 32) < blsModulus ∧
    ProofValid (c.commitment.view 48) (c.z.view 32) (c.y.view 32) (c.proof.view 48)

section
variable {Complete : ckzg.Settings → Prop} {ProofValid : Bytes → Bytes → Bytes → Bytes → Prop}

/-- c-kzg judges the arrays. -/
theorem verify_eq_true_iff (behaves : ckzg.Behaves Complete ProofValid) (c : Call ckzg) {s : ckzg.Settings}
    (complete : Complete s) : verify c s = true ↔ ArraysValid ProofValid c :=
  behaves.verify _ _ _ _ _ _ complete (Text.length_view 48 _) (Text.length_view 32 _) (Text.length_view 32 _)
    (Text.length_view 48 _)

/-- Arguments of the right lengths are the arrays. -/
theorem RightLengths.arraysValid_iff {c : Call ckzg} (right : RightLengths c) : ArraysValid ProofValid c ↔
    valueBE c.z.data < blsModulus ∧ valueBE c.y.data < blsModulus ∧
      ProofValid c.commitment.data c.z.data c.y.data c.proof.data := by
  unfold ArraysValid
  rw [Text.view_of_length right.commitment, Text.view_of_length right.z, Text.view_of_length right.y,
    Text.view_of_length right.proof]

/-- And they are judged as they are. -/
theorem verify_iff (behaves : ckzg.Behaves Complete ProofValid) {c : Call ckzg} (right : RightLengths c)
    {s : ckzg.Settings} (complete : Complete s) :
    verify c s = true ↔ valueBE c.z.data < blsModulus ∧ valueBE c.y.data < blsModulus ∧
      ProofValid c.commitment.data c.z.data c.y.data c.proof.data :=
  (verify_eq_true_iff behaves c complete).trans right.arraysValid_iff

/-- The right lengths in any memory. -/
theorem RightLengths.before {c : Call ckzg} (right : RightLengths c) (m : Behind) : RightLengths (c.before m) :=
  ⟨right.commitment, right.z, right.y, right.proof⟩

/-- A hook whose end does not depend on the memory behind the strings, and that accepts no
trailing bytes, is handed strings of the right lengths. -/
theorem rightLengths_of_handed {c : Call ckzg} {s : ckzg.Settings}
    (inside : ∀ (verified : Bytes → Bytes → Bytes → Bytes → ckzg.Settings → Bool) m,
      verified ((c.before m).commitment.view 48) ((c.before m).z.view 32) ((c.before m).y.view 32)
        ((c.before m).proof.view 48) s =
      verified (c.commitment.view 48) (c.z.view 32) (c.y.view 32) (c.proof.view 48) s)
    (whole : NoTrailingBytes c) : RightLengths c := by
  have same (m : Behind) :
      ((c.before m).commitment.view 48, (c.before m).z.view 32, (c.before m).y.view 32, (c.before m).proof.view 48) =
      (c.commitment.view 48, c.z.view 32, c.y.view 32, c.proof.view 48) := by
    have handed := inside (fun k z y p _ =>
      decide ((k, z, y, p) = (c.commitment.view 48, c.z.view 32, c.y.view 32, c.proof.view 48))) m
    exact of_decide_eq_true (handed.trans (decide_eq_true rfl))
  simp only [Prod.mk.injEq] at same
  have everywhere (beyond : ℕ → Byte) := same ⟨beyond, beyond, beyond, beyond⟩
  exact ⟨le_antisymm whole.commitment ((Text.staysInside_iff 48 _).mp fun beyond => (everywhere beyond).1),
    le_antisymm whole.z ((Text.staysInside_iff 32 _).mp fun beyond => (everywhere beyond).2.1),
    le_antisymm whole.y ((Text.staysInside_iff 32 _).mp fun beyond => (everywhere beyond).2.2.1),
    le_antisymm whole.proof ((Text.staysInside_iff 48 _).mp fun beyond => (everywhere beyond).2.2.2)⟩

/-- The arrays of the right lengths are the same in any memory. -/
theorem RightLengths.handed {c : Call ckzg} (right : RightLengths c) {α : Type}
    (verified : Bytes → Bytes → Bytes → Bytes → α) (m : Behind) :
    verified ((c.before m).commitment.view 48) ((c.before m).z.view 32) ((c.before m).y.view 32)
      ((c.before m).proof.view 48) =
    verified (c.commitment.view 48) (c.z.view 32) (c.y.view 32) (c.proof.view 48) := by
  have right' := right.before m
  rw [Text.view_of_length right.commitment, Text.view_of_length right.z, Text.view_of_length right.y,
    Text.view_of_length right.proof, Text.view_of_length right'.commitment, Text.view_of_length right'.z,
    Text.view_of_length right'.y, Text.view_of_length right'.proof]
  rfl

/-- When a call keeps its whole promise. -/
theorem meets_iff (behaves : ckzg.Behaves Complete ProofValid) {st : Thread ckzg} (loaded : Loaded Complete st)
    (c : Call ckzg) :
    Meets Complete ProofValid st c ↔ RightLengths c ∨ (st.once = true ∧ SetupFails c.world st.settings) := by
  rcases hookWith_cases behaves loaded c.world with ⟨once, fails, failure, s', failed, ended⟩ |
    ⟨works, s', complete, ended⟩
  · refine iff_of_true ⟨?_, ?_, ?_⟩ (.inr ⟨once, fails⟩)
    · intro b st' returned
      exact absurd (congrArg Prod.fst ((ended _ c rfl).symm.trans returned)) (failed b)
    · intro verified m
      rw [ended verified c rfl, ended verified (c.before m) rfl]
    · intro verified st' returned
      exact absurd (congrArg Prod.fst ((ended _ c rfl).symm.trans returned)) (failed true)
  · rw [or_iff_left works]
    constructor
    · intro meets
      have accepted := ended (fun _ _ _ _ _ => true) c rfl
      refine rightLengths_of_handed (s := s') ?_ (meets.whole _ _ accepted)
      intro verified m
      have same := meets.inside verified m
      rw [ended verified c rfl, ended verified (c.before m) rfl] at same
      exact Outcome.returns.inj same
    · intro right
      refine ⟨?_, ?_, fun _ _ _ => ⟨right.commitment.le, right.z.le, right.y.le, right.proof.le⟩⟩
      · intro b st' returned
        rw [hookVerifyKZGProof, ended _ c rfl] at returned
        cases returned
        refine ⟨complete, ?_⟩
        rw [Right, and_iff_right right]
        exact verify_iff behaves right complete
      · intro verified m
        rw [ended verified c rfl, ended verified (c.before m) rfl, right.handed verified m]

/-- When it answers right, whatever c-kzg does not look at. -/
theorem answersRight_iff (behaves : ckzg.Behaves Complete ProofValid) {st : Thread ckzg} (loaded : Loaded Complete st)
    (c : Call ckzg) :
    AnswersRight Complete ProofValid st c ↔ RightLengths c ∨ (st.once = true ∧ SetupFails c.world st.settings) ∨
      ∀ m, ¬ ArraysValid ProofValid (c.before m) := by
  rcases hookWith_cases behaves loaded c.world with ⟨once, fails, failure, s', failed, ended⟩ |
    ⟨works, s', complete, ended⟩
  · refine iff_of_true ?_ (.inr (.inl ⟨once, fails⟩))
    intro m b st' returned
    exact absurd (congrArg Prod.fst ((ended _ (c.before m) rfl).symm.trans returned)) (failed b)
  · have answer (m : Behind) : hookVerifyKZGProof st (c.before m) = (.returns (verify (c.before m) s'), ⟨s', false⟩) :=
      ended _ (c.before m) rfl
    rw [or_iff_right works]
    constructor
    · intro answers
      by_cases right : RightLengths c
      · exact .inl right
      · refine .inr fun m valid => ?_
        obtain ⟨-, answered⟩ := answers m _ _ (answer m)
        exact right (answered.mp ((verify_eq_true_iff behaves _ complete).mpr valid)).1
    · intro condition m b st' returned
      rw [answer] at returned
      cases returned
      refine ⟨complete, ?_⟩
      by_cases right : RightLengths c
      · rw [Right, and_iff_right right]
        exact verify_iff behaves (right.before m) complete
      · have invalid := (or_iff_right right).mp condition
        refine iff_of_false ?_ fun both => right both.1
        exact mt (verify_eq_true_iff behaves (c.before m) complete).mp (invalid m)

/-- **A call after any others keeps its promise** exactly when the arguments have the
right lengths or the call has to load the setup and cannot. The answer alone is right also
when the arrays are no valid proof, whatever lies behind the strings. -/
theorem verifyKZGProof_meets_iff (behaves : ckzg.Behaves Complete ProofValid) (earlier : List (Call ckzg))
    (st : Thread ckzg) (reached : afterCalls earlier (Thread.start ckzg) = some st) (c : Call ckzg) :
    (Meets Complete ProofValid st c ↔ RightLengths c ∨ (st.once = true ∧ SetupFails c.world st.settings)) ∧
    (AnswersRight Complete ProofValid st c ↔ RightLengths c ∨ (st.once = true ∧ SetupFails c.world st.settings) ∨
      ∀ m, ¬ ArraysValid ProofValid (c.before m)) := by
  have loaded := afterCalls_loaded behaves earlier start_loaded reached
  exact ⟨meets_iff behaves loaded c, answersRight_iff behaves loaded c⟩

end

/-! ## The zero polynomial -/

/-- The encoding of infinity. -/
def infinity48 : Bytes := 0xc0 :: List.replicate 47 0

/-- c-kzg on commitments to the zero polynomial; the world says whether the setup file can be written. -/
def zeroPolynomialKzg : CKzg where
  World := Bool
  Settings := Bool
  zeroed := false
  setupFile works := some (if works then [1] else [])
  loadTrustedSetupFile _ _ file := if file = [1] then (.ok, true) else (.badArgs, false)
  verifyKzgProof _ c z y p complete := (.ok, complete && decide (valueBE z < blsModulus ∧ valueBE y < blsModulus ∧
    c = infinity48 ∧ valueBE y = 0 ∧ p = infinity48))

theorem zeroPolynomialKzg_behaves : zeroPolynomialKzg.Behaves (fun complete => complete = true) fun c _ y p =>
    c = infinity48 ∧ valueBE y = 0 ∧ p = infinity48 where
  load := by
    intro world s file loaded
    by_cases same : file = [1]
    · exact congrArg Prod.snd (if_pos same)
    · have failed : zeroPolynomialKzg.loadTrustedSetupFile world s file = (.badArgs, false) := if_neg same
      rw [failed] at loaded
      cases loaded
  verify := by
    intro res c z y p s complete _ _ _ _
    change (s && decide _) = true ↔ _
    rw [show s = true from complete, Bool.true_and, decide_eq_true_iff]

/-- The proof for the zero polynomial at 2, with something appended to the commitment. -/
def zeroProof (works : Bool) (appended : Bytes) : Call zeroPolynomialKzg where
  world := works
  res := true
  commitment := ⟨infinity48 ++ appended, fun _ => 0⟩
  z := ⟨List.replicate 31 0 ++ [2], fun _ => 0⟩
  y := ⟨List.replicate 32 0, fun _ => 0⟩
  proof := ⟨infinity48, fun _ => 0⟩

/-- A thread whose first call could not load the setup. -/
def afterFailure : Thread zeroPolynomialKzg := ⟨false, true⟩

/-- The second call loads it and keeps its promise. -/
theorem verifyKZGProof_meets_after_failure :
    afterCalls [zeroProof false []] (Thread.start zeroPolynomialKzg) = some afterFailure ∧
    (hookVerifyKZGProof afterFailure (zeroProof true [])).1 = .returns true ∧
    Meets (fun complete => complete = true) (fun c _ y p => c = infinity48 ∧ valueBE y = 0 ∧ p = infinity48) afterFailure
      (zeroProof true []) := by
  have reached : afterCalls [zeroProof false []] (Thread.start zeroPolynomialKzg) = some afterFailure := rfl
  have meets := verifyKZGProof_meets_iff zeroPolynomialKzg_behaves [zeroProof false []] afterFailure reached
  refine ⟨reached, by decide +kernel, (meets _).1.mpr (.inl ?_)⟩
  exact ⟨by decide, by decide, by decide, by decide⟩

/-- A commitment of 49 bytes is accepted as its first 48. -/
theorem verifyKZGProof_ignores_trailing_byte :
    (hookVerifyKZGProof (Thread.start zeroPolynomialKzg) (zeroProof true [1])).1 = .returns true ∧
    ¬ RightLengths (zeroProof true [1]) ∧
    ¬ ∀ c, Meets (fun complete => complete = true) (fun c _ y p => c = infinity48 ∧ valueBE y = 0 ∧ p = infinity48)
      (Thread.start zeroPolynomialKzg) c := by
  have accepted : hookVerifyKZGProof (Thread.start zeroPolynomialKzg) (zeroProof true [1]) =
      (.returns true, ⟨true, false⟩) := by
    have valid : verify (zeroProof true [1]) true = true := by decide +kernel
    change (Outcome.returns (verify (zeroProof true [1]) true), _) = _
    rw [valid]
  have long : ¬ RightLengths (zeroProof true [1]) := by
    intro right
    exact absurd right.commitment (by decide)
  refine ⟨congrArg Prod.fst accepted, long, ?_⟩
  intro all
  exact long (((all _).answers _ _ accepted).2.mp rfl).1

end KPlugin.Kzg
