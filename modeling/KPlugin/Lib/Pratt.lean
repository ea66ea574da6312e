import Mathlib.NumberTheory.LucasPrimality
import Mathlib.Data.Nat.Prime.Pow

/-!
# Pratt certificates

A certificate for `p` is a primitive root together with the factorization of
`p - 1`; a chain of certificates proves every factor before it is used, starting
from 2. Checking a chain is a Boolean computation on natural numbers.
-/

namespace Pratt

/-- `p` has the primitive root `root`, and `p - 1` is the product of the powers in `factors`. -/
structure Certificate where
  p : ℕ
  root : ℕ
  factors : List (ℕ × ℕ)

/-- `a ^ n % p` by repeated squaring, for `n` of at most `bits` bits. -/
def powMod (p : ℕ) : ℕ → ℕ → ℕ → ℕ
  | 0, _, _ => 1 % p
  | bits + 1, a, n =>
    let square := powMod p bits (a * a % p) (n / 2)
    if n % 2 = 1 then a * square % p else square

/-- One certificate, given primes proved before it. -/
def Certificate.check (proved : List ℕ) (c : Certificate) : Bool :=
  decide (c.p = (c.factors.map fun f => f.1 ^ f.2).prod + 1) &&
  c.factors.all (fun f => decide (f.1 ∈ proved)) &&
  decide (powMod c.p ((c.p - 1).log2 + 1) c.root (c.p - 1) = 1) &&
  c.factors.all fun f => decide (powMod c.p ((c.p - 1).log2 + 1) c.root ((c.p - 1) / f.1) ≠ 1)

/-- A chain of certificates. -/
def checkChain : List ℕ → List Certificate → Bool
  | _, [] => true
  | proved, c :: cs => c.check proved && checkChain (c.p :: proved) cs

theorem powMod_eq (p : ℕ) {bits n : ℕ} (a : ℕ) (fits : n < 2 ^ bits) : powMod p bits a n = a ^ n % p := by
  induction bits generalizing a n with
  | zero =>
    have zero : n = 0 := by omega
    rw [zero, pow_zero]
    rfl
  | succ bits ih =>
    have half : n / 2 < 2 ^ bits := by
      rw [pow_succ] at fits
      omega
    have square : powMod p bits (a * a % p) (n / 2) = (a * a) ^ (n / 2) % p := by
      rw [ih _ half, ← Nat.pow_mod]
    have split : n = 2 * (n / 2) + n % 2 := (Nat.div_add_mod n 2).symm
    rw [powMod, square]
    by_cases odd : n % 2 = 1
    · rw [if_pos odd, Nat.mul_mod, Nat.mod_mod, ← Nat.mul_mod, ← pow_two, ← pow_mul, ← pow_succ']
      congr 2
      omega
    · rw [if_neg odd, ← pow_two, ← pow_mul]
      congr 2
      omega

/-- A power computed by `powMod` is 1 exactly when it is 1 in `ZMod p`. -/
theorem powMod_eq_one_iff {p bits n : ℕ} (two : 1 < p) (a : ℕ) (fits : n < 2 ^ bits) :
    powMod p bits a n = 1 ↔ (a : ZMod p) ^ n = 1 := by
  have one : 1 % p = 1 := Nat.mod_eq_of_lt two
  have cast : (a : ZMod p) ^ n = 1 ↔ ((a ^ n : ℕ) : ZMod p) = (1 : ℕ) := by
    rw [Nat.cast_pow, Nat.cast_one]
  rw [powMod_eq p a fits, cast, ZMod.natCast_eq_natCast_iff', one]

/-- A prime factor of `p - 1` is one of the listed ones. -/
theorem mem_factors {factors : List (ℕ × ℕ)} (primes : ∀ f ∈ factors, f.1.Prime) {q : ℕ} (prime : q.Prime)
    (divides : q ∣ (factors.map fun f => f.1 ^ f.2).prod) : ∃ f ∈ factors, f.1 = q := by
  obtain ⟨power, member, divides⟩ := (Prime.dvd_prod_iff prime.prime).mp divides
  obtain ⟨f, listed, rfl⟩ := List.mem_map.mp member
  refine ⟨f, listed, ?_⟩
  exact ((Nat.prime_dvd_prime_iff_eq prime (primes f listed)).mp (prime.dvd_of_dvd_pow divides)).symm

theorem Certificate.prime {proved : List ℕ} (primes : ∀ q ∈ proved, q.Prime) {c : Certificate}
    (checked : c.check proved = true) : c.p.Prime := by
  simp only [Certificate.check, Bool.and_eq_true, decide_eq_true_eq, List.all_eq_true] at checked
  obtain ⟨⟨⟨product, listed⟩, root⟩, generates⟩ := checked
  have factorPrimes : ∀ f ∈ c.factors, f.1.Prime := fun f member => primes f.1 (listed f member)
  have positive : 0 < (c.factors.map fun f => f.1 ^ f.2).prod := by
    apply List.prod_pos
    intro power member
    obtain ⟨f, listed, rfl⟩ := List.mem_map.mp member
    exact pow_pos (factorPrimes f listed).pos _
  have two : 1 < c.p := by omega
  have fits : c.p - 1 < 2 ^ ((c.p - 1).log2 + 1) := Nat.lt_log2_self
  refine lucas_primality c.p (c.root : ZMod c.p) ((powMod_eq_one_iff two c.root fits).mp root) ?_
  intro q prime divides
  have inProduct : q ∣ (c.factors.map fun f => f.1 ^ f.2).prod := by
    rwa [product, Nat.add_sub_cancel] at divides
  obtain ⟨f, member, rfl⟩ := mem_factors factorPrimes prime inProduct
  have smaller : (c.p - 1) / f.1 < 2 ^ ((c.p - 1).log2 + 1) := (Nat.div_le_self _ _).trans_lt fits
  exact fun one => generates f member ((powMod_eq_one_iff two c.root smaller).mpr one)

/-- **A checked chain proves its primes.** -/
theorem prime_of_checkChain {proved : List ℕ} (primes : ∀ q ∈ proved, q.Prime) {cs : List Certificate}
    (checked : checkChain proved cs = true) : ∀ c ∈ cs, c.p.Prime := by
  induction cs generalizing proved with
  | nil =>
    intro c member
    cases member
  | cons c cs ih =>
    obtain ⟨first, rest⟩ := Bool.and_eq_true_iff.mp checked
    have prime := Certificate.prime primes first
    intro c' member
    rcases List.mem_cons.mp member with rfl | later
    · exact prime
    · refine ih ?_ rest c' later
      intro q known
      rcases List.mem_cons.mp known with rfl | known
      · exact prime
      · exact primes q known

/-- A number certified by a chain from 2 is prime. -/
theorem prime_of_certified {p : ℕ} {cs : List Certificate} (checked : checkChain [2] cs = true)
    (certified : ∃ c ∈ cs, c.p = p) : p.Prime := by
  have start : ∀ q ∈ [2], q.Prime := by
    intro q two
    rw [List.mem_singleton.mp two]
    exact Nat.prime_two
  obtain ⟨c, member, rfl⟩ := certified
  exact prime_of_checkChain start checked c member

end Pratt
