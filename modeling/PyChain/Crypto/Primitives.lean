import PyChain.Foundation.Json.Parse

/-!
# Hashing, keys and addresses

SHA-256 and the ECDSA library are parameters: a 32-byte digest function, a
decoder of public key encodings and a signature check.  Everything the
repository builds on top of them (hexadecimal digests, address derivation and
address checking) is defined here.
-/

namespace PyChain

open Foundation

/-- Subclasses of `StorageError`. -/
inductive StorageErrorKind where
  | plain
  | corruption
  | version
  | conflict
  | closed
  | commitUncertain
  | configuration
deriving DecidableEq, Repr

/-- Subclasses of `NetworkError`. -/
inductive NetworkErrorKind where
  | plain
  | protocol
  | policyLimit
  | peerDisconnected
  | nodeClosed
  | nodeBusy
deriving DecidableEq, Repr

/-- The exceptions raised by the modelled functions, with their texts.  An error
of SQLite says whether its code is that of a malformed file.  An interrupt is
the one that is not an `Exception`. -/
inductive PyError where
  | valueError (message : String)
  | typeError (message : String)
  | indexError (message : String)
  | keyError
  | overflowError (message : String)
  | osError
  | runtimeError (message : String)
  | malformedPointError
  | sqliteError (malformed : Bool)
  | storageError (kind : StorageErrorKind) (message : String)
  | networkError (kind : NetworkErrorKind) (message : String)
  | keyboardInterrupt
deriving DecidableEq, Repr

/-- An ECDSA public key, identified with its raw point encoding. -/
structure VerifyingKey where
  toString : Bytes
deriving DecidableEq, Repr

/-- The primitives the repository takes from its libraries. -/
class Crypto where
  sha256 : Bytes -> Bytes
  sha256_length : forall data, (sha256 data).length = 32
  verifyingKeyFromString : Bytes -> Option VerifyingKey
  verify : VerifyingKey -> Bytes -> Bytes -> Bool

variable [Crypto]

def sha256Hex (data : Bytes) : Str :=
  toHex (Crypto.sha256 data)

def publicKeyFromHex (publicKeyHex : Str) : Except PyError VerifyingKey :=
  match fromHex publicKeyHex with
  | none => .error (.valueError "non-hexadecimal number found in fromhex() arg")
  | some data =>
      match Crypto.verifyingKeyFromString data with
      | none => .error .malformedPointError
      | some key => .ok key

def bytesFromHex (text : Str) : Except PyError Bytes :=
  match fromHex text with
  | none => .error (.valueError "non-hexadecimal number found in fromhex() arg")
  | some data => .ok data

/-- A `BadSignatureError` of the library is a negative answer. -/
def verifySignature (publicKey : VerifyingKey) (message signature : Bytes) : Bool :=
  Crypto.verify publicKey signature message

def addressChecksum (publicKeyHash : Str) : Str :=
  (sha256Hex (encodeUtf8 publicKeyHash)).take 8

def publicKeyToAddress (publicKey : VerifyingKey) : Str :=
  let publicKeyHash := (sha256Hex publicKey.toString).take 40
  str "PYC_" ++ publicKeyHash ++ addressChecksum publicKeyHash

def validateAddress (address : Str) : Bool :=
  if address.take 4 = str "PYC_" then
    let data := address.drop 4
    if data.length = 48 then
      data.drop 40 = addressChecksum (data.take 40)
    else false
  else false

def isHash (value : Str) : Bool :=
  value.length = 64 && value.all isLowerHex

/-!
## Digests
-/

theorem sha256Hex_isHash (data : Bytes) : isHash (sha256Hex data) = true := by
  unfold isHash sha256Hex
  rw [toHex_length, Crypto.sha256_length, toHex_isLowerHex]
  rfl

theorem fromHex_sha256Hex (data : Bytes) :
    fromHex (sha256Hex data) = some (Crypto.sha256 data) :=
  fromHex_toHex (Crypto.sha256 data)

theorem sha256_eq_of_sha256Hex_eq {x y : Bytes} (h : sha256Hex x = sha256Hex y) :
    Crypto.sha256 x = Crypto.sha256 y :=
  toHex_injective h

theorem sha256Hex_ne_nil (data : Bytes) : sha256Hex data ≠ [] := by
  intro hnil
  have hhash := sha256Hex_isHash data
  rw [hnil] at hhash
  exact absurd hhash (by decide)

theorem validateAddress_length {address : Str} (h : validateAddress address = true) :
    address.length = 52 := by
  unfold validateAddress at h
  by_cases hfront : address.take 4 = str "PYC_"
  · rw [if_pos hfront] at h
    have hdata : address.length - 4 = 48 := by
      simp only [List.length_drop, Bool.if_false_right, Bool.and_eq_true,
        decide_eq_true_eq] at h
      exact h.left
    omega
  · rw [if_neg hfront] at h
    cases h

/-- No two different byte strings of a set have the same digest. -/
def CollisionFreeOn (inputs : Bytes -> Prop) : Prop :=
  forall x y, inputs x -> inputs y -> Crypto.sha256 x = Crypto.sha256 y -> x = y

theorem CollisionFreeOn.hex_injective {inputs : Bytes -> Prop}
    (h : CollisionFreeOn inputs) {x y : Bytes} (hx : inputs x) (hy : inputs y)
    (hxy : sha256Hex x = sha256Hex y) : x = y :=
  h x y hx hy (sha256_eq_of_sha256Hex_eq hxy)

end PyChain
