import KPlugin.Runtime.PluginUtil
import KPlugin.Blake2.Avx2Refines

/-!
# `hook_KRYPTO_blake2compress`

The hook reads its packed argument through pointers into the K term itself and
hands the pointer to the chaining value to the compression function, which
writes its result there; the result string is a hex copy of those bytes. The
machine is little-endian.
-/

namespace KPlugin.Blake2
open ObjectHeap Radix

/-- The words at a `uint64_t *`. -/
def loadWords (σ : KHeap) (p : Ptr) (n : ℕ) : Vector Word n :=
  .ofFn fun i => BitVec.ofNat 64 (unpack 8 n (load σ p (8 * n)) i)

/-- Assign `n` words at a `uint64_t *`. -/
def storeWords (σ : KHeap) (p : Ptr) {n : ℕ} (f : Vector Word n) : KHeap :=
  store σ p (pack 8 8 fun i => (f.get i).toNat)

/-- `blake2b_compress`: `avx2` is what `__builtin_cpu_supports` answers. -/
def blake2bCompress (avx2 : Bool) (h m t : Ptr) (f : BitVec 8) (rounds : BitVec 32) (σ : KHeap) : KHeap :=
  if avx2 then
    storeWords σ h (blake2bCompressAvx2 (loadWords σ h 8) (loadWords σ m 16) (loadWords σ t 2) f rounds)
  else
    storeWords σ h (blake2bCompressGeneric (loadWords σ h 8) (loadWords σ m 16) (loadWords σ t 2) f rounds)

/-- `hook_KRYPTO_blake2compress`. -/
def hookBlake2compress (avx2 : Bool) (params : Addr) (σ : KHeap) : Addr × KHeap :=
  let data := contents σ params
  if data.length ≠ 213 then hexEncode σ []
  else
    -- each byte is promoted to `int` before its shift
    let rounds : BitVec 32 := (data.getD 0 0).setWidth 32 <<< 24 ||| (data.getD 1 0).setWidth 32 <<< 16 |||
      (data.getD 2 0).setWidth 32 <<< 8 ||| (data.getD 3 0).setWidth 32
    let h : Ptr := ⟨params, 4⟩
    let m : Ptr := ⟨params, 68⟩
    let t : Ptr := ⟨params, 196⟩
    let f := data.getD 212 0
    if f > 1 then hexEncode σ []
    else
      let σ := blake2bCompress avx2 h m t f rounds σ
      hexEncode σ (load σ h 64)

/-- **The two implementations agree**: they leave the same eight words, and so
the dispatch does not depend on the processor. -/
theorem compress_agree :
    (∀ (h : Vector Word 8) (m : Vector Word 16) (t : Vector Word 2) (f : BitVec 8) (rounds : BitVec 32),
      blake2bCompressAvx2 h m t f rounds = blake2bCompressGeneric h m t f rounds) ∧
    ∀ (h m t : Ptr) (f : BitVec 8) (rounds : BitVec 32) (σ : KHeap),
      blake2bCompress true h m t f rounds σ = blake2bCompress false h m t f rounds σ := by
  have words : ∀ h m t f rounds, blake2bCompressAvx2 h m t f rounds = blake2bCompressGeneric h m t f rounds := by
    intro h m t f rounds
    apply Blocks.ext_get
    rw [avx2_eq_F, generic_eq_F]
  refine ⟨words, ?_⟩
  intro h m t f rounds σ
  simp only [blake2bCompress, words, if_true, Bool.false_eq_true, if_false]

end KPlugin.Blake2
