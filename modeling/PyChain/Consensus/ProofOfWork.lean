import PyChain.Blockchain.Block

/-!
# Difficulty and proof of work
-/

namespace PyChain

open Foundation

def MAX_TARGET : Int := 2 ^ 256

def MAX_DIFFICULTY : Int := MAX_TARGET

def MINING_DIFFICULTY : Int := 16

def MAX_NONCE : Int := 2 ^ 32 - 1

def isValidDifficulty (difficulty : Int) : Bool :=
  1 ≤ difficulty && difficulty ≤ MAX_DIFFICULTY

def targetFromDifficulty (difficulty : Int) : Except PyError Int := do
  require (isValidDifficulty difficulty = true)
    (PyError.valueError "difficulty must be an integer from 1 to MAX_DIFFICULTY")
  return MAX_TARGET / difficulty

def expectedDifficulty (previousDifficulty : Int) : Except PyError Int := do
  require (isValidDifficulty previousDifficulty = true)
    (PyError.valueError "previous_difficulty must be a valid difficulty")
  return MINING_DIFFICULTY

def isValidNonce (nonce : Int) : Bool :=
  0 ≤ nonce && nonce ≤ MAX_NONCE

/-- The integer a string of hexadecimal digits denotes. -/
def hexToInt (digits : Str) : Int :=
  digits.foldl (fun total c => 16 * total + ((hexValue c).getD 0 : Nat)) 0

def hashMeetsTarget (blockHash : Str) (difficulty : Int) : Except PyError Bool :=
  if isHash blockHash = false ∨ isValidDifficulty difficulty = false then .ok false
  else do
    let target <- targetFromDifficulty difficulty
    return decide (hexToInt blockHash < target)

variable [Crypto]

def validateProofOfWork (block : Block) : Bool :=
  if isValidNonce block.nonce = false then false
  else
    match hashMeetsTarget block.hash block.difficulty with
    | .ok answer => answer
    | .error _ => false

omit [Crypto] in
theorem expectedDifficulty_of_valid {previousDifficulty : Int}
    (h : isValidDifficulty previousDifficulty = true) :
    expectedDifficulty previousDifficulty = .ok MINING_DIFFICULTY := by
  unfold expectedDifficulty
  exact bind_eq_ok_iff.mpr ⟨(), require_eq_ok_iff.mpr h, rfl⟩

end PyChain
