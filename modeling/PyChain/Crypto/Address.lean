import PyChain.Crypto.Primitives

/-!
# The format of addresses

What the generator writes and what the validator accepts.  Both put a checksum
behind forty characters; the validator asks nothing else of them.
-/

namespace PyChain

open Foundation

variable [Crypto]

/-- Forty characters in the place of a key hash, with their checksum. -/
def addressOf (publicKeyHash : Str) : Str :=
  str "PYC_" ++ publicKeyHash ++ addressChecksum publicKeyHash

def HasGeneratorFormat (address : Str) : Prop :=
  exists publicKeyHash, publicKeyHash.length = 40 ∧ publicKeyHash.all isLowerHex = true ∧
    address = addressOf publicKeyHash

/-- A correct checksum behind forty characters that are not all lowercase hexadecimal. -/
def HasForeignHash (address : Str) : Prop :=
  exists publicKeyHash, publicKeyHash.length = 40 ∧ publicKeyHash.all isLowerHex = false ∧
    address = addressOf publicKeyHash

/-- The address of a twenty-byte key hash. -/
def IsKeyHashAddress (address : Str) : Prop :=
  exists keyHash : Bytes, keyHash.length = 20 ∧ address = addressOf (toHex keyHash)

theorem addressChecksum_length (publicKeyHash : Str) :
    (addressChecksum publicKeyHash).length = 8 := by
  unfold addressChecksum sha256Hex
  rw [List.length_take, toHex_length, Crypto.sha256_length]
  rfl

theorem addressOf_injective {x y : Str} (hx : x.length = 40) (hy : y.length = 40)
    (h : addressOf x = addressOf y) : x = y := by
  unfold addressOf at h
  rw [List.append_assoc, List.append_assoc] at h
  exact (List.append_inj (List.append_cancel_left h) (hx.trans hy.symm)).left

theorem validateAddress_iff {address : Str} :
    validateAddress address = true <->
      exists publicKeyHash, publicKeyHash.length = 40 ∧ address = addressOf publicKeyHash := by
  constructor
  · intro h
    have hlength := validateAddress_length h
    unfold validateAddress at h
    split at h
    · rename_i hfront
      dsimp only at h
      split at h
      · refine ⟨(address.drop 4).take 40, ?_, ?_⟩
        · rw [List.length_take, List.length_drop, hlength]
          rfl
        · rw [addressOf, ← of_decide_eq_true h, ← hfront, List.append_assoc,
            List.take_append_drop, List.take_append_drop]
      · cases h
    · cases h
  · intro h
    rcases h with ⟨publicKeyHash, hlength, rfl⟩
    have hfour : (str "PYC_").length = 4 := rfl
    have hfront : (addressOf publicKeyHash).take 4 = str "PYC_" := by
      rw [addressOf, List.append_assoc, List.take_left' hfour]
    have hdata : (addressOf publicKeyHash).drop 4 =
        publicKeyHash ++ addressChecksum publicKeyHash := by
      rw [addressOf, List.append_assoc, List.drop_left' hfour]
    unfold validateAddress
    rw [if_pos hfront, hdata]
    rw [if_pos (by rw [List.length_append, hlength, addressChecksum_length]),
      List.drop_left' hlength, List.take_left' hlength]
    exact decide_eq_true rfl

theorem publicKeyToAddress_generatorFormat (publicKey : VerifyingKey) :
    HasGeneratorFormat (publicKeyToAddress publicKey) := by
  have hhash := sha256Hex_isHash publicKey.toString
  unfold isHash at hhash
  rw [Bool.and_eq_true, decide_eq_true_eq] at hhash
  refine ⟨(sha256Hex publicKey.toString).take 40, ?_, ?_, rfl⟩
  · rw [List.length_take, hhash.left]
    rfl
  · rw [List.all_eq_true]
    intro c hc
    exact List.all_eq_true.mp hhash.right c (List.mem_of_mem_take hc)

theorem hasGeneratorFormat_iff {address : Str} :
    HasGeneratorFormat address <-> IsKeyHashAddress address := by
  constructor
  · intro h
    rcases h with ⟨publicKeyHash, hlength, hlower, rfl⟩
    rcases exists_toHex 20 publicKeyHash hlower hlength with ⟨keyHash, hbytes, rfl⟩
    exact ⟨keyHash, hbytes, rfl⟩
  · intro h
    rcases h with ⟨keyHash, hbytes, rfl⟩
    exact ⟨toHex keyHash, by rw [toHex_length, hbytes], toHex_isLowerHex keyHash, rfl⟩

theorem validateAddress_cases {address : Str} (h : validateAddress address = true) :
    HasGeneratorFormat address ∨ HasForeignHash address := by
  rcases validateAddress_iff.mp h with ⟨publicKeyHash, hlength, rfl⟩
  cases hlower : publicKeyHash.all isLowerHex with
  | true => exact Or.inl ⟨publicKeyHash, hlength, hlower, rfl⟩
  | false => exact Or.inr ⟨publicKeyHash, hlength, hlower, rfl⟩

theorem HasGeneratorFormat.validateAddress {address : Str} (h : HasGeneratorFormat address) :
    validateAddress address = true := by
  rcases h with ⟨publicKeyHash, hlength, _, heq⟩
  exact validateAddress_iff.mpr ⟨publicKeyHash, hlength, heq⟩

theorem HasForeignHash.validateAddress {address : Str} (h : HasForeignHash address) :
    validateAddress address = true := by
  rcases h with ⟨publicKeyHash, hlength, _, heq⟩
  exact validateAddress_iff.mpr ⟨publicKeyHash, hlength, heq⟩

theorem HasForeignHash.not_generatorFormat {address : Str} (h : HasForeignHash address) :
    ¬ HasGeneratorFormat address := by
  intro hformat
  rcases h with ⟨publicKeyHash, hlength, hforeign, rfl⟩
  rcases hformat with ⟨other, hother, hlower, heq⟩
  rw [addressOf_injective hlength hother heq, hlower] at hforeign
  cases hforeign

theorem HasForeignHash.ne_publicKeyToAddress {address : Str} (h : HasForeignHash address)
    (publicKey : VerifyingKey) : publicKeyToAddress publicKey ≠ address := by
  intro heq
  apply h.not_generatorFormat
  rw [← heq]
  exact publicKeyToAddress_generatorFormat publicKey

end PyChain
