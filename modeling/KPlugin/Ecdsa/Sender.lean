import KPlugin.Ecdsa.Address
import KPlugin.Ecdsa.Recovery

/-!
# Who sent a transaction

`#sender` of a signature is the address of the key that is recovered. Whoever holds a
private key is the sender of what it signs, with whatever nonce, and of the twins of these
signatures; a signature that names no key has no sender.
-/

namespace KPlugin.Ecdsa
open Hex Radix EcdsaScheme PrimeCurve

variable {lib : Secp256k1} {sigOf : lib.Signature → ℕ → ℕ → ℕ → Prop} {keyOf : lib.Pubkey → Point → Prop}
  {h r s : Bytes} (keccak : Bytes → Vector Byte 32)

/-- The sender is the address of the key that is named. -/
theorem Secp256k1.Textbook.sender (textbook : lib.Textbook sigOf keyOf) (words : Words h r s) {recid : ℕ} (low : recid < 2)
    {Q : Point} (names : Names (valueBE h) (valueBE r) (valueBE s) recid Q) :
    senderAux lib keccak h (27 + recid : ℕ) r s = some (.address (keyAddress keccak (pointBytes Q))) := by
  have long := length_pointBytes names.finite
  have nonempty : pointBytes Q ≠ [] := List.ne_nil_of_length_pos (by omega)
  rw [senderAux, textbook.answer words low names, senderAux2_eq keccak nonempty]

/-- Nothing recovered, no sender. -/
theorem senderAux_of_nil {v : ℤ} (nothing : hookEcdsaRecover lib h v r s = []) :
    senderAux lib keccak h v r s = some .none := by
  rw [senderAux, nothing]
  exact if_pos rfl

/-- **`#sender` is never stuck**: it is the address of the one key that the signature names
with this `v`, and no account when there is none; the holder of a private key is the sender of
every signature it makes with a nonce whose abscissa is below the order, and of its twin. -/
theorem sender_is_signer (textbook : lib.Textbook sigOf keyOf) (words : Words h r s) :
    (∀ v : ℤ, (∃ recid Q, recid < 2 ∧ v = (27 + recid : ℕ) ∧ Names (valueBE h) (valueBE r) (valueBE s) recid Q ∧
        senderAux lib keccak h v r s = some (.address (keyAddress keccak (pointBytes Q)))) ∨
      ((∀ recid Q, recid < 2 → v = (27 + recid : ℕ) → ¬ Names (valueBE h) (valueBE r) (valueBE s) recid Q) ∧
        senderAux lib keccak h v r s = some .none)) ∧
    ∀ (digits d : Bytes) (k : ZMod order) (x : ℕ), HexDigits digits d → d.length = 32 →
      0 < valueBE d ∧ valueBE d < order →
      sign generator abscissa (valueBE d : ZMod order) k (valueBE h) = some (valueBE r, valueBE s) →
      abscissa (k • generator) = some x → x < order →
      ∃ v a : ℤ, (v = 27 ∨ v = 28) ∧ addrFromPrivateKey lib keccak (str "0x" ++ digits) = some a ∧
        senderAux lib keccak h v r s = some (.address a) ∧
        ∀ s' : Bytes, s'.length = 32 → valueBE s + valueBE s' = order →
          senderAux lib keccak h (55 - v) r s' = some (.address a) := by
  constructor
  · intro v
    by_cases low : ∃ recid < 2, v = (27 + recid : ℕ)
    · obtain ⟨recid, low, rfl⟩ := low
      by_cases somebody : ∃ Q, Names (valueBE h) (valueBE r) (valueBE s) recid Q
      · obtain ⟨Q, names⟩ := somebody
        exact .inl ⟨recid, Q, low, rfl, names, textbook.sender keccak words low names⟩
      · have nobody : ∀ Q, ¬ Names (valueBE h) (valueBE r) (valueBE s) recid Q := fun Q names => somebody ⟨Q, names⟩
        refine .inr ⟨?_, senderAux_of_nil keccak (textbook.answer_nil words low nobody)⟩
        intro recid' Q _ same
        obtain rfl : recid = recid' := by omega
        exact nobody Q
    · refine .inr ⟨?_, senderAux_of_nil keccak (hookEcdsaRecover_refused low)⟩
      intro recid Q below same
      exact absurd ⟨recid, below, same⟩ low
  · intro digits d k x hex length range signed known below
    obtain ⟨recid, low, names⟩ := (exists_names_signer_iff range).mpr ⟨k, x, signed, known, below⟩
    refine ⟨(27 + recid : ℕ), _, by omega, addrFromPrivateKey_eq keccak hex (textbook.pubKey length range),
      textbook.sender keccak words low names, ?_⟩
    intro s' lengthS sum
    have other : (55 - (27 + recid : ℕ) : ℤ) = (27 + (1 - recid) : ℕ) := by omega
    rw [other]
    exact textbook.sender keccak { words with s := lengthS } (by omega) (names.twin low sum)

/-- The private key 1 sent what it signed. -/
theorem sender_is_signer_one :
    ∃ v a : ℤ, (v = 27 ∨ v = 28) ∧
      addrFromPrivateKey referenceSecp256k1 keccakOne (str "0x" ++ hexEncodeData keyOne) = some a ∧
      senderAux referenceSecp256k1 keccakOne hashZero v abscissaOne abscissaOne = some (.address a) := by
  obtain ⟨-, signer⟩ := sender_is_signer keccakOne referenceSecp256k1_textbook words_one
  have one : valueBE keyOne = 1 := by decide
  have signed : sign generator abscissa (valueBE keyOne : ZMod order) 1 (valueBE hashZero) =
      some (valueBE abscissaOne, valueBE abscissaOne) := by
    rw [one, value_one.1, value_one.2, Nat.cast_one]
    exact sign_one
  have known : abscissa ((1 : ZMod order) • generator) = some generatorX := by rw [one_smul, abscissa_generator]
  have range : 0 < valueBE keyOne ∧ valueBE keyOne < order := by
    rw [one]
    exact ⟨one_pos, order_prime.one_lt⟩
  obtain ⟨v, a, small, address, sender, -⟩ := signer _ keyOne 1 generatorX (hexDigits_hexEncodeData keyOne)
    (length_digitsBE _ _) range signed known generatorX_below.1
  exact ⟨v, a, small, address, sender⟩

end KPlugin.Ecdsa
