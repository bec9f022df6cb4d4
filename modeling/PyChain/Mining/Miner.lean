import PyChain.Consensus.ProofOfWork

/-!
# The miner

Nonces are tried in order until the proof of work is met, the range is exhausted
or the stop event is set.  The readings of the stop event are an input.
-/

namespace PyChain

open Foundation

variable [Crypto]

/-- Try at most `room` nonces from `nonce` on. -/
def tryNonces (block : Block) (stopped : Int -> Bool) : Nat -> Int -> Option Block
  | 0, _ => none
  | room + 1, nonce =>
      if stopped nonce then none
      else
        let candidate := { block with nonce := nonce }
        if validateProofOfWork candidate then some candidate
        else tryNonces block stopped room (nonce + 1)

def mineBlockWithProgress (block : Block) (startNonce maxNonce : Int)
    (stopped : Int -> Bool) : Except PyError (Option Block) := do
  require (isValidDifficulty block.difficulty = true)
    (PyError.valueError "block.difficulty must be a valid difficulty")
  require (isValidNonce startNonce = true ∧ isValidNonce maxNonce = true)
    (PyError.valueError "nonce bounds must be unsigned 32-bit integers")
  require (startNonce ≤ maxNonce)
    (PyError.valueError "start_nonce cannot be greater than max_nonce")
  return tryNonces block stopped (maxNonce - startNonce + 1).toNat startNonce

theorem tryNonces_found {block mined : Block} {stopped : Int -> Bool} {room : Nat} :
    forall {nonce : Int}, tryNonces block stopped room nonce = some mined ->
      validateProofOfWork mined = true ∧ mined = { block with nonce := mined.nonce } ∧
        nonce ≤ mined.nonce ∧ mined.nonce < nonce + room := by
  induction room with
  | zero =>
      intro nonce h
      cases h
  | succ room ih =>
      intro nonce h
      unfold tryNonces at h
      by_cases hstopped : stopped nonce = true
      · rw [if_pos hstopped] at h
        cases h
      · rw [if_neg hstopped] at h
        by_cases hvalid : validateProofOfWork { block with nonce := nonce } = true
        · simp only [hvalid, if_true, Option.some.injEq] at h
          rw [← h]
          refine ⟨hvalid, rfl, le_refl _, ?_⟩
          change nonce < nonce + ((room + 1 : Nat) : Int)
          omega
        · simp only [hvalid] at h
          rcases ih h with ⟨hproof, hsame, hlow, hhigh⟩
          refine ⟨hproof, hsame, ?_, ?_⟩
          · omega
          · rw [Int.natCast_add]
            omega

/-- A mined block is its template with a nonce of the range that meets the proof of
work. -/
theorem mineBlockWithProgress_found {block mined : Block} {startNonce maxNonce : Int}
    {stopped : Int -> Bool}
    (h : mineBlockWithProgress block startNonce maxNonce stopped = .ok (some mined)) :
    validateProofOfWork mined = true ∧ mined = { block with nonce := mined.nonce } ∧
      startNonce ≤ mined.nonce ∧ mined.nonce ≤ maxNonce := by
  unfold mineBlockWithProgress at h
  rcases bind_eq_ok_iff.mp h with ⟨_, _, h⟩
  rcases bind_eq_ok_iff.mp h with ⟨_, _, h⟩
  rcases bind_eq_ok_iff.mp h with ⟨_, hrange, h⟩
  have hle := require_eq_ok_iff.mp hrange
  rcases tryNonces_found (Except.ok.inj h) with ⟨hproof, hsame, hlow, hhigh⟩
  refine ⟨hproof, hsame, hlow, ?_⟩
  rw [Int.toNat_of_nonneg (by omega)] at hhigh
  omega

end PyChain
