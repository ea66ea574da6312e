import KPlugin.Runtime.KString

/-!
# The hash hooks

Each digest comes in two forms, as raw bytes and in hex. The hooks of one digest differ
in nothing else, and `#parseByteStack` takes the second form back to the first.
-/

namespace KPlugin
open ObjectHeap

/-- The digests of Crypto++, and that of OpenSSL, which is `none` when a call does not return 1. -/
structure Digests where
  sha512 : Bytes → Vector Byte 64
  evpSha512_256 : Bytes → Option (Vector Byte 32)
  sha3_256 : Bytes → Vector Byte 32
  keccak256 : Bytes → Vector Byte 32
  sha256 : Bytes → Vector Byte 32
  ripemd160 : Bytes → Vector Byte 20
  blake2b256 : Bytes → Vector Byte 32

/-! ## The hooks -/

section
variable (lib : Digests) (input : Addr) (σ : KHeap)

/-- `CalculateDigest`, then `raw`. -/
def rawDigest {n : ℕ} (digest : Bytes → Vector Byte n) : Addr × KHeap := raw σ (digest (contents σ input)).toList

/-- `CalculateDigest`, then `hexEncode`. -/
def hexDigest {n : ℕ} (digest : Bytes → Vector Byte n) : Addr × KHeap := hexEncode σ (digest (contents σ input)).toList

def hookSha512raw : Addr × KHeap := rawDigest input σ lib.sha512

def hookSha512 : Addr × KHeap := hexDigest input σ lib.sha512

/-- `none` is the `std::runtime_error`. -/
def sha512_256 : Option (Vector Byte 32) := lib.evpSha512_256 (contents σ input)

def hookSha512_256raw : Option (Addr × KHeap) := do
  let digest ← sha512_256 lib input σ
  return raw σ digest.toList

def hookSha512_256 : Option (Addr × KHeap) := do
  let digest ← sha512_256 lib input σ
  return hexEncode σ digest.toList

def hookSha3raw : Addr × KHeap := rawDigest input σ lib.sha3_256

def hookSha3 : Addr × KHeap := hexDigest input σ lib.sha3_256

def hookKeccak256raw : Addr × KHeap := rawDigest input σ lib.keccak256

def hookKeccak256 : Addr × KHeap := hexDigest input σ lib.keccak256

def hookSha256raw : Addr × KHeap := rawDigest input σ lib.sha256

def hookSha256 : Addr × KHeap := hexDigest input σ lib.sha256

def hookRipemd160raw : Addr × KHeap := rawDigest input σ lib.ripemd160

def hookRipemd160 : Addr × KHeap := hexDigest input σ lib.ripemd160

def hookBlake2b256raw : Addr × KHeap := rawDigest input σ lib.blake2b256

def hookBlake2b256 : Addr × KHeap := hexDigest input σ lib.blake2b256

end

/-! ## The seven digests -/

/-- One for each pair of hooks. -/
inductive HashHook where
  | sha512
  | sha512_256
  | sha3
  | keccak256
  | sha256
  | ripemd160
  | blake2b256
  deriving DecidableEq

namespace HashHook

/-- The hook with a raw result; only OpenSSL fails. -/
def raw (lib : Digests) (input : Addr) (σ : KHeap) : HashHook → Option (Addr × KHeap)
  | sha512 => hookSha512raw lib input σ
  | sha512_256 => hookSha512_256raw lib input σ
  | sha3 => hookSha3raw lib input σ
  | keccak256 => hookKeccak256raw lib input σ
  | sha256 => hookSha256raw lib input σ
  | ripemd160 => hookRipemd160raw lib input σ
  | blake2b256 => hookBlake2b256raw lib input σ

/-- The hook with a result in hex. -/
def hex (lib : Digests) (input : Addr) (σ : KHeap) : HashHook → Option (Addr × KHeap)
  | sha512 => hookSha512 lib input σ
  | sha512_256 => hookSha512_256 lib input σ
  | sha3 => hookSha3 lib input σ
  | keccak256 => hookKeccak256 lib input σ
  | sha256 => hookSha256 lib input σ
  | ripemd160 => hookRipemd160 lib input σ
  | blake2b256 => hookBlake2b256 lib input σ

/-- The digest of a string. -/
def digest (lib : Digests) (s : Bytes) : HashHook → Option Bytes
  | sha512 => some (lib.sha512 s).toList
  | sha512_256 => (lib.evpSha512_256 s).map Vector.toList
  | sha3 => some (lib.sha3_256 s).toList
  | keccak256 => some (lib.keccak256 s).toList
  | sha256 => some (lib.sha256 s).toList
  | ripemd160 => some (lib.ripemd160 s).toList
  | blake2b256 => some (lib.blake2b256 s).toList

/-- How many bytes a digest has. -/
def size : HashHook → ℕ
  | sha512 => 64
  | sha512_256 | sha3 | keccak256 | sha256 | blake2b256 => 32
  | ripemd160 => 20

variable {lib : Digests} {input : Addr} {σ : KHeap}

theorem raw_eq (h : HashHook) : h.raw lib input σ = (h.digest lib (contents σ input)).map (KPlugin.raw σ) := by
  cases h with
  | sha512_256 =>
    unfold raw digest hookSha512_256raw KPlugin.sha512_256
    cases lib.evpSha512_256 (contents σ input) <;> rfl
  | sha512 | sha3 | keccak256 | sha256 | ripemd160 | blake2b256 => rfl

theorem hex_eq (h : HashHook) : h.hex lib input σ = (h.digest lib (contents σ input)).map (hexEncode σ) := by
  cases h with
  | sha512_256 =>
    unfold hex digest hookSha512_256 KPlugin.sha512_256
    cases lib.evpSha512_256 (contents σ input) <;> rfl
  | sha512 | sha3 | keccak256 | sha256 | ripemd160 | blake2b256 => rfl

theorem length_digest {h : HashHook} {s d : Bytes} (digested : h.digest lib s = some d) : d.length = h.size := by
  cases h with
  | sha512_256 =>
    obtain ⟨v, -, same⟩ := Option.map_eq_some_iff.mp digested
    rw [← same]
    exact v.length_toList
  | sha512 | sha3 | keccak256 | sha256 | ripemd160 | blake2b256 =>
    rw [← Option.some.inj digested]
    exact Vector.length_toList

/-- Only OpenSSL fails. -/
theorem digest_eq_none {h : HashHook} {s : Bytes} (failed : h.digest lib s = none) : h = .sha512_256 := by
  cases h with
  | sha512_256 => rfl
  | sha512 | sha3 | keccak256 | sha256 | ripemd160 | blake2b256 => exact nomatch failed

end HashHook

/-- What the two hooks of a digest leave, when they return. -/
structure DecodesTo (σ : KHeap) (size : ℕ) (hex raw : Addr × KHeap) : Prop where
  fresh_raw : raw.1 = σ.length ∧ raw.2.length = σ.length + 1
  fresh_hex : hex.1 = σ.length ∧ hex.2.length = σ.length + 1
  length_raw : (contents raw.2 raw.1).length = size
  length_hex : (contents hex.2 hex.1).length = 2 * size
  decodes : parseByteStack (contents hex.2 hex.1) = some (contents raw.2 raw.1)
  kept : ∀ a < σ.length, contents raw.2 a = contents σ a ∧ contents hex.2 a = contents σ a

/-- **The hex form of a digest decodes to its raw form**: the two hooks of a digest both
return, or OpenSSL fails and both throw. What they return is one new string of the
documented length, and no string that was there has changed. -/
theorem hash_hex_decodes (lib : Digests) (h : HashHook) (input : Addr) (σ : KHeap) :
    (h = .sha512_256 ∧ h.raw lib input σ = none ∧ h.hex lib input σ = none) ∨
    ∃ raw hex, h.raw lib input σ = some raw ∧ h.hex lib input σ = some hex ∧ DecodesTo σ h.size hex raw := by
  cases digested : h.digest lib (contents σ input) with
  | none =>
    refine .inl ⟨HashHook.digest_eq_none digested, ?_, ?_⟩
    · rw [h.raw_eq, digested, Option.map_none]
    · rw [h.hex_eq, digested, Option.map_none]
  | some d =>
    refine .inr ⟨raw σ d, hexEncode σ d, ?_, ?_, ?_⟩
    · rw [h.raw_eq, digested, Option.map_some]
    · rw [h.hex_eq, digested, Option.map_some]
    · have length := HashHook.length_digest digested
      have digits := (parseByteStack_hex (hexDigits_hexEncodeData d)).1
      unfold raw hexEncode
      constructor
      · exact ⟨rfl, List.length_append⟩
      · exact ⟨rfl, List.length_append⟩
      · rw [contents_alloc_new, length]
      · rw [contents_alloc_new, length_hexEncodeData, length]
      · rw [contents_alloc_new, contents_alloc_new]
        exact digits
      · intro a live
        exact ⟨contents_alloc_old live d, contents_alloc_old live _⟩

end KPlugin
