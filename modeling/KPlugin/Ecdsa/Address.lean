import KPlugin.Ecdsa.Hooks

/-!
# Addresses

`ecdsa-test.k` derives an address from a private key by way of hex strings, and
from a signature by way of recovered bytes. The signature that a key makes leads
to the address of that key.
-/

namespace KPlugin.Ecdsa
open Hex Radix

/-! ## The rules -/

/-- `pow160`. -/
def pow160 : ℤ := 1461501637330902918203684832716283019655932542976

/-- `_ %Word _`. -/
def modWord (w0 w1 : ℤ) : ℤ := if w1 = 0 then 0 else w0 % w1

/-- `#addr`. -/
def addr (w : ℤ) : ℤ := modWord w pow160

/-- Sort `Account`. -/
inductive Account where
  | address (n : ℤ)
  | none
  deriving DecidableEq, Repr

section
variable (lib : Secp256k1) (keccak : Bytes → Vector Byte 32)

/-- `#addrFromPrivateKey`. -/
def addrFromPrivateKey (key : Bytes) : Option ℤ := do
  let prikey ← parseByteStack key
  let pubkey ← parseByteStack (hookEcdsaPubKey lib prikey)
  let word ← parseHexWord (hookKeccak256 keccak pubkey)
  some (addr word)

/-- `#sender` of a recovered key. -/
def senderAux2 (bytes : Bytes) : Option Account :=
  if bytes = [] then some .none
  else do
    let word ← parseHexWord (hookKeccak256 keccak bytes)
    some (.address (addr word))

/-- `#sender` of a signature. -/
def senderAux (ht : Bytes) (tw : ℤ) (tr ts : Bytes) : Option Account :=
  senderAux2 keccak (hookEcdsaRecover lib ht tw tr ts)

end

/-! ## What they compute -/

variable {lib : Secp256k1} (keccak : Bytes → Vector Byte 32)

/-- The address of a public key is the lower 160 bits of its digest. -/
def keyAddress (pubkey : Bytes) : ℤ := valueBE (keccak pubkey).toList % pow160

theorem addr_eq (w : ℤ) : addr w = w % pow160 := by
  have nonzero : pow160 ≠ 0 := by decide
  unfold addr modWord
  rw [if_neg nonzero]

theorem parseHexWord_keccak (pubkey : Bytes) :
    parseHexWord (hookKeccak256 keccak pubkey) = some (valueBE (keccak pubkey).toList : ℤ) := by
  have nonempty : (keccak pubkey).toList ≠ [] := by
    intro empty
    have length := (keccak pubkey).length_toList
    rw [empty] at length
    exact absurd length (by decide)
  exact parseHexWord_hex (hexDigits_hexEncodeData _) nonempty

/-- A recovered key is hashed as it is. -/
theorem senderAux2_eq {pubkey : Bytes} (nonempty : pubkey ≠ []) :
    senderAux2 keccak pubkey = some (.address (keyAddress keccak pubkey)) := by
  unfold senderAux2 keyAddress
  rw [if_neg nonempty, parseHexWord_keccak, ← addr_eq]
  rfl

/-- A derived key is written in hex, parsed back and then hashed. -/
theorem addrFromPrivateKey_eq {digits d pubkey : Bytes} (hex : HexDigits digits d)
    (derived : hookEcdsaPubKey lib d = hexEncodeData pubkey) :
    addrFromPrivateKey lib keccak (str "0x" ++ digits) = some (keyAddress keccak pubkey) := by
  have parsed := (parseByteStack_hex (hexDigits_hexEncodeData pubkey)).1
  unfold addrFromPrivateKey keyAddress
  rw [(parseByteStack_hex hex).2]
  change (do let pubkey ← parseByteStack (hookEcdsaPubKey lib d); _) = _
  rw [derived, parsed, ← addr_eq]
  change (do let word ← parseHexWord (hookKeccak256 keccak pubkey); _) = _
  rw [parseHexWord_keccak]
  rfl

/-- **A signature recovers the key that made it**: with the ids 0 and 1 the recovered
bytes are the public key and the sender is the key's address, and with the other
two ids nothing is recovered. -/
theorem recover_agrees_with_signer (impl : lib.Implements) {d h digits : Bytes} (hex : HexDigits digits d)
    (signed : hookEcdsaSign lib h d ≠ []) :
    ∃ (r s : Bytes) (v : Byte), r.length = 32 ∧ s.length = 32 ∧
      parseByteStack (hookEcdsaSign lib h d) = some (r ++ s ++ [v]) ∧
      ((v = 0 ∨ v = 1) → ∃ pubkey, pubkey.length = 64 ∧ hookEcdsaPubKey lib d = hexEncodeData pubkey ∧
        hookEcdsaRecover lib h (27 + v.toNat) r s = pubkey ∧
        ∃ a, addrFromPrivateKey lib keccak (str "0x" ++ digits) = some a ∧
          senderAux lib keccak h (27 + v.toNat) r s = some (.address a)) ∧
      (¬ (v = 0 ∨ v = 1) → (v = 2 ∨ v = 3) ∧ hookEcdsaRecover lib h (27 + v.toNat) r s = []) := by
  obtain ⟨lengthH, lengthD, sig, r, s, recid, sign, compact, lengthR, lengthS, small, answer⟩ := sign_cases impl signed
  have value : (BitVec.ofNat 8 recid).toNat = recid := by
    rw [BitVec.toNat_ofNat]
    omega
  refine ⟨r, s, BitVec.ofNat 8 recid, lengthR, lengthS, ?_, ?_, ?_⟩
  · rw [answer]
    exact (parseByteStack_hex (hexDigits_hexEncodeData _)).1
  · intro low
    have id : recid ≤ 1 := by
      rcases low with zero | one
      · rw [← value, zero]
        decide
      · rw [← value, one]
        decide
    obtain ⟨pubkey, length, recovered, derived⟩ :=
      recover_eq impl lengthH lengthD sign compact lengthR lengthS id
    have nonempty : pubkey ≠ [] := List.ne_nil_of_length_pos (by omega)
    rw [value]
    refine ⟨pubkey, length, derived, recovered, _, addrFromPrivateKey_eq keccak hex derived, ?_⟩
    unfold senderAux
    rw [recovered, senderAux2_eq keccak nonempty]
  · intro other
    have id : recid = 2 ∨ recid = 3 := by
      have zero : recid ≠ 0 := fun h => other (.inl (by rw [h]; rfl))
      have one : recid ≠ 1 := fun h => other (.inr (by rw [h]; rfl))
      omega
    refine ⟨?_, ?_⟩
    · rcases id with rfl | rfl
      · exact .inl rfl
      · exact .inr rfl
    · rw [value]
      exact recover_eq_nil lib (by omega) h r s

/-! ## The private key 1 -/

/-- The key 1, also taken as a message hash. -/
def keyOne : Bytes := digitsBE 8 32 1

/-- Its signature of the hash 1. -/
def signatureOne : Bytes := digitsBE 8 64
  0x6673FFAD2147741F04772B6F921F0BA6AF0C1E77FC439E65C36DEDF4092E88984C1A971652E0ADA880120EF8025E709FFF2080C4A39AAE068D12EED009B68C89

/-- Its public key. -/
def pubkeyOne : Bytes := digitsBE 8 64
  0x79BE667EF9DCBBAC55A06295CE870B07029BFCDB2DCE28D959F2815B16F81798483ADA7726A3C4655DA4FBFC0E1108A8FD17B448A68554199C47D08FFB10D4B8

/-- The library on this key and this hash alone. -/
def secp256k1One : Secp256k1 where
  Signature := Unit
  Pubkey := Unit
  signRecoverable msghash seckey := if msghash = keyOne ∧ seckey = keyOne then some () else none
  serializeCompact _ := some (signatureOne, 1)
  parseCompact c recid := if c = signatureOne ∧ recid = 1 then some () else none
  recover _ msghash := if msghash = keyOne then some () else none
  pubkeyCreate seckey := if seckey = keyOne then some () else none
  pubkeySerialize _ := 4 :: pubkeyOne

/-- The digest of its public key. -/
def keccakOne : Bytes → Vector Byte 32 := fun _ =>
  ⟨(digitsBE 8 32 0xC0A6C424AC7157AE408398DF7E5F4552091A69125D5DFCB7B8C2659029395BDF).toArray, by
    rw [List.size_toArray, length_digitsBE]⟩

theorem secp256k1One_implements : secp256k1One.Implements where
  serializeCompact := by
    rintro sig c recid same
    obtain ⟨rfl, rfl⟩ := Prod.mk.injEq .. ▸ Option.some.inj same
    exact ⟨length_digitsBE _ _, by decide⟩
  recover := by
    intro msghash seckey sig c recid _ _ sign compact
    obtain ⟨rfl, rfl⟩ := Prod.mk.injEq .. ▸ Option.some.inj compact
    by_cases one : msghash = keyOne ∧ seckey = keyOne
    · have parse : secp256k1One.parseCompact signatureOne 1 = some () := by simp [secp256k1One]
      exact ⟨(), (), parse, if_pos one.1, if_pos one.2⟩
    · exact nomatch (if_neg one).symm.trans sign
  pubkeySerialize := fun _ => ⟨pubkeyOne, rfl, length_digitsBE _ _⟩

/-- The key 1 signs the hash 1 with the id 1, and recovery leads to its key and address. -/
theorem recover_agrees_with_signer_one :
    ∃ (r s : Bytes) (v : Byte), parseByteStack (hookEcdsaSign secp256k1One keyOne keyOne) = some (r ++ s ++ [v]) ∧
      v = 1 ∧ hookEcdsaRecover secp256k1One keyOne 28 r s = pubkeyOne ∧
      senderAux secp256k1One keccakOne keyOne 28 r s = some (.address 0x7E5F4552091A69125D5DFCB7B8C2659029395BDF) := by
  have signed : hookEcdsaSign secp256k1One keyOne keyOne = hexEncodeData (signatureOne ++ [1]) := by decide +kernel
  have nonempty : hookEcdsaSign secp256k1One keyOne keyOne ≠ [] := by decide +kernel
  have derived : parseByteStack (hookEcdsaPubKey secp256k1One keyOne) = some pubkeyOne := by decide +kernel
  have address : addrFromPrivateKey secp256k1One keccakOne (str "0x" ++ hexEncodeData keyOne) =
      some 0x7E5F4552091A69125D5DFCB7B8C2659029395BDF := by decide +kernel
  obtain ⟨r, s, v, -, -, parsed, low, -⟩ := recover_agrees_with_signer keccakOne secp256k1One_implements
    (hexDigits_hexEncodeData keyOne) nonempty
  have form : r ++ s ++ [v] = signatureOne ++ [1] := by
    rw [signed, (parseByteStack_hex (hexDigits_hexEncodeData _)).1] at parsed
    exact (Option.some.inj parsed).symm
  have one : v = 1 := (List.append_inj' form rfl).2 |> List.singleton_inj.mp
  obtain ⟨pubkey, -, pubkeyHex, recovered, a, fromKey, sender⟩ := low (.inr one)
  rw [pubkeyHex, (parseByteStack_hex (hexDigits_hexEncodeData _)).1] at derived
  rw [fromKey] at address
  rw [one, Option.some.inj address] at sender
  rw [one] at recovered
  exact ⟨r, s, v, parsed, one, recovered.trans (Option.some.inj derived), sender⟩

end KPlugin.Ecdsa
