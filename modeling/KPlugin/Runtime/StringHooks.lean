import KPlugin.Blake2.Eip152
import KPlugin.Ecdsa.Address
import KPlugin.Lib.InPlace
import KPlugin.P256.Verify
import KPlugin.Runtime.Hashes

/-!
# The hooks on strings, called in any order

K declares the hooks as functions, and its terms share the strings that they return. The
machine below calls them on the heap, through addresses that several names may hold. The
strings it returns are the values of the terms it builds, in which one operation is no
function: `Blake2Compress` also leaves a string in its argument. A program that reads no
string after it was overwritten never sees that.
-/

namespace KPlugin
open ObjectHeap InPlace

/-- What the hooks call, and whether the processor has AVX2. -/
structure Libraries where
  digests : Digests
  secp256k1 : Ecdsa.Secp256k1
  openssl : P256.OpenSSL
  avx2 : Bool

/-- A hook, or a K function that builds a fresh string; `none` is where no rule applies. -/
inductive StringOp where
  | rule (f : List Bytes → Option Bytes)
  | hashRaw (h : HashHook)
  | hash (h : HashHook)
  | ecdsaRecover (v : ℤ)
  | ecdsaSign
  | ecdsaPubKey
  | p256verify
  | blake2compress

/-- A call on the heap. The elliptic curve hooks read their arguments and allocate what they return. -/
def exec (lib : Libraries) : StringOp → List Addr → KHeap → Option (Addr × KHeap)
  | .rule f, args, σ => (f (args.map (contents σ))).map (alloc σ)
  | .hashRaw h, [input], σ => h.raw lib.digests input σ
  | .hash h, [input], σ => h.hex lib.digests input σ
  | .ecdsaRecover v, [msg, r, s], σ =>
    some (alloc σ (Ecdsa.hookEcdsaRecover lib.secp256k1 (contents σ msg) v (contents σ r) (contents σ s)))
  | .ecdsaSign, [mhash, prikey], σ =>
    some (alloc σ (Ecdsa.hookEcdsaSign lib.secp256k1 (contents σ mhash) (contents σ prikey)))
  | .ecdsaPubKey, [prikey], σ => some (alloc σ (Ecdsa.hookEcdsaPubKey lib.secp256k1 (contents σ prikey)))
  | .p256verify, [input], σ => some (alloc σ (P256.hookP256verify lib.openssl (contents σ input)))
  | .blake2compress, [params], σ => some (Blake2.hookBlake2compress lib.avx2 params σ)
  | _, _, _ => none

/-! ## The strings -/

/-- What `Blake2Compress` returns for a string. -/
def compressed (s : Bytes) : Bytes := ((Blake2.eip152 s).map hexString).getD []

/-- What it leaves in its argument: the result over the chaining value of a string it accepts. -/
def overwritten (s : Bytes) : Bytes := ((Blake2.eip152 s).map (splice s 4)).getD s

/-- The operations on strings. The processor does not matter. -/
def stringAlgebra (digests : Digests) (secp256k1 : Ecdsa.Secp256k1) (openssl : P256.OpenSSL) :
    Algebra StringOp Bytes where
  result
    | .rule f, args => f args
    | .hashRaw h, [s] => h.digest digests s
    | .hash h, [s] => (h.digest digests s).map hexEncodeData
    | .ecdsaRecover v, [msg, r, s] => some (Ecdsa.hookEcdsaRecover secp256k1 msg v r s)
    | .ecdsaSign, [mhash, prikey] => some (Ecdsa.hookEcdsaSign secp256k1 mhash prikey)
    | .ecdsaPubKey, [prikey] => some (Ecdsa.hookEcdsaPubKey secp256k1 prikey)
    | .p256verify, [input] => some (P256.hookP256verify openssl input)
    | .blake2compress, [s] => some (compressed s)
    | _, _ => none
  residue
    | .blake2compress, s, [] => overwritten s
    | _, s, _ => s

/-- The operations on strings, as the libraries make them. -/
abbrev Libraries.algebra (lib : Libraries) : Algebra StringOp Bytes :=
  stringAlgebra lib.digests lib.secp256k1 lib.openssl

/-- Setting a live object to its contents changes nothing. -/
theorem set_contents {σ : KHeap} {a : Addr} (live : a < σ.length) : σ.set a (contents σ a) = σ := by
  have same : contents σ a = σ[a] := by simp [contents, live]
  rw [same, List.set_getElem_self]

theorem hookBlake2compress_eq (avx2 : Bool) {params : Addr} {σ : KHeap} (live : params < σ.length) :
    Blake2.hookBlake2compress avx2 params σ =
      alloc (σ.set params (overwritten (contents σ params))) (compressed (contents σ params)) := by
  by_cases good : Blake2.WellFormed (contents σ params)
  · have accepted : Blake2.eip152 (contents σ params) = some _ := if_pos good
    rw [Blake2.hook_accept avx2 good, overwritten, compressed, accepted]
    rfl
  · have rejected : Blake2.eip152 (contents σ params) = none := if_neg good
    rw [Blake2.hook_reject avx2 good, overwritten, compressed, rejected, Option.map_none, Option.getD_none,
      set_contents live]
    rfl

/-- **The hooks do what the algebra says**: they allocate their result and leave every
string alone, but for the argument of `Blake2Compress`. -/
theorem exec_executes (lib : Libraries) : Executes (exec lib) lib.algebra := by
  intro op addrs σ live
  have keeps : ∀ op : StringOp, op ≠ .blake2compress →
      lib.algebra.leave op addrs (addrs.map (contents σ)) σ = σ := by
    intro op harmless
    cases addrs with
    | nil => rfl
    | cons a addrs =>
      cases op with
      | blake2compress => exact absurd rfl harmless
      | rule | hashRaw | hash | ecdsaRecover | ecdsaSign | ecdsaPubKey | p256verify =>
        exact set_contents (live a List.mem_cons_self)
  cases op with
  | rule f =>
    rw [keeps (.rule f) nofun]
    rfl
  | hashRaw h =>
    rw [keeps (.hashRaw h) nofun]
    match addrs with
    | [] => rfl
    | [input] => exact h.raw_eq
    | _ :: _ :: _ => rfl
  | hash h =>
    rw [keeps (.hash h) nofun]
    match addrs with
    | [] => rfl
    | [input] => exact h.hex_eq.trans (Option.map_map ..).symm
    | _ :: _ :: _ => rfl
  | ecdsaRecover v =>
    rw [keeps (.ecdsaRecover v) nofun]
    match addrs with
    | [] | [_] | [_, _] => rfl
    | [msg, r, s] => rfl
    | _ :: _ :: _ :: _ :: _ => rfl
  | ecdsaSign =>
    rw [keeps (.ecdsaSign) nofun]
    match addrs with
    | [] | [_] => rfl
    | [mhash, prikey] => rfl
    | _ :: _ :: _ :: _ => rfl
  | ecdsaPubKey =>
    rw [keeps (.ecdsaPubKey) nofun]
    match addrs with
    | [] => rfl
    | [prikey] => rfl
    | _ :: _ :: _ => rfl
  | p256verify =>
    rw [keeps (.p256verify) nofun]
    match addrs with
    | [] => rfl
    | [input] => rfl
    | _ :: _ :: _ => rfl
  | blake2compress =>
    match addrs with
    | [] => rfl
    | [params] => exact congrArg some (hookBlake2compress_eq lib.avx2 (live params List.mem_cons_self))
    | _ :: _ :: _ => rfl

/-! ## Programs -/

/-- **Calls return the values of the terms they build.** In these terms the argument of a
`Blake2Compress` is another string afterwards; no other hook changes a string, and what a
hook returns depends on the strings it is given only. -/
theorem calls_return_values (lib : Libraries) (p : List (Instr StringOp)) :
    heapOutputs (exec lib) .empty p =
      (outputs (free StringOp) .empty p).bind fun terms => terms.mapM (Term.value lib.algebra) := by
  rw [heapOutputs_eq (exec_executes lib) live_empty]
  exact ((hom_value lib.algebra).outputs_empty p).symm

/-- **Without a string read after it was overwritten** the hooks are functions: each call
returns the value of the term as it is written. -/
theorem careful_calls_are_functions (lib : Libraries) {p : List (Instr StringOp)}
    (careful : Careful lib.algebra [] .empty p) :
    heapOutputs (exec lib) .empty p =
      (outputs (free StringOp).keeping .empty p).bind fun terms => terms.mapM (Term.value lib.algebra) := by
  rw [heapOutputs_eq (exec_executes lib) live_empty, outputs_careful .empty careful]
  exact ((hom_value lib.algebra).keeping.outputs_empty p).symm

/-! ## An example -/

/-- The libraries on the private key 1 alone. -/
noncomputable def librariesOne : Libraries where
  digests :=
    { sha512 := fun _ => .replicate 64 0
      evpSha512_256 := fun _ => none
      sha3_256 := fun _ => .replicate 32 0
      keccak256 := Ecdsa.keccakOne
      sha256 := fun _ => .replicate 32 0
      ripemd160 := fun _ => .replicate 20 0
      blake2b256 := fun _ => .replicate 32 0 }
  secp256k1 := Ecdsa.secp256k1One
  openssl := P256.referenceOpenSSL
  avx2 := true

/-- A K function of one string. -/
def rule1 (f : Bytes → Option Bytes) : StringOp := .rule fun args => args.head?.bind f

/-- Compress 213 zero bytes; sign with the key 1, take the signature apart and recover the key. -/
def exampleProgram : List (Instr StringOp) :=
  [.call (.rule fun _ => some (List.replicate 213 0)) [], .call .blake2compress [0],
    .call (.rule fun _ => some Ecdsa.keyOne) [], .share 2, .call .ecdsaSign [2, 3], .call (rule1 parseByteStack) [4],
    .call (rule1 fun sig => some (sig.take 32)) [5], .call (rule1 fun sig => some ((sig.drop 32).take 32)) [5],
    .call (.ecdsaRecover 28) [3, 6, 7], .call (rule1 parseByteStack) [1]]

theorem careful_calls_are_functions_example :
    (heapOutputs (exec librariesOne) .empty exampleProgram).bind (fun strings => strings[8]?) =
      some Ecdsa.pubkeyOne := by
  have careful : Careful librariesOne.algebra [] .empty exampleProgram := by decide +kernel
  rw [careful_calls_are_functions librariesOne careful]
  decide +kernel

end KPlugin
