import PyChain.Foundation.Base64
import PyChain.Network.Schemas

/-!
# Frames and signed items

A frame is a four-byte length and the canonical JSON text of an envelope.  A
signed item is the canonical encoding of a transaction or a block in base64.
Both readers scan the nesting of their input before they parse it.
-/

namespace PyChain

open Foundation

namespace Network

def MAX_JSON_DEPTH : Nat := 32

/-- The state of the nesting scan. -/
structure DepthScan where
  depth : Nat
  inString : Bool
  escaped : Bool
deriving DecidableEq, Repr

/-- One byte of the nesting scan; the depth never goes below zero because the
scan stops there. -/
def DepthScan.step (scan : DepthScan) (byte : UInt8) : Except PyError DepthScan :=
  if scan.inString then
    if scan.escaped then .ok { scan with escaped := false }
    else if byte.toNat = 92 then .ok { scan with escaped := true }
    else if byte.toNat = 34 then .ok { scan with inString := false }
    else .ok scan
  else if byte.toNat = 34 then .ok { scan with inString := true }
  else if byte.toNat = 91 ∨ byte.toNat = 123 then
    if scan.depth + 1 > MAX_JSON_DEPTH then
      .error (protocolError "JSON nesting exceeds protocol limit")
    else .ok { scan with depth := scan.depth + 1 }
  else if byte.toNat = 93 ∨ byte.toNat = 125 then
    if scan.depth = 0 then .error (protocolError "unbalanced JSON containers")
    else .ok { scan with depth := scan.depth - 1 }
  else .ok scan

def checkDepth (data : Bytes) : Except PyError Unit := do
  let scan <- data.foldlM DepthScan.step { depth := 0, inString := false, escaped := false }
  require (scan.inString = false ∧ scan.depth = 0)
    (protocolError "unterminated JSON string/container")

/-!
## Envelopes
-/

def limit (value : Nat) (name : String) : Except PyError Unit :=
  require (0 < value) (PyError.valueError (name ++ " must be a positive integer"))

def ENVELOPE_KEYS : List Str :=
  [str "version", str "type", str "request_id", str "payload"]

def envelope (message : Message) : Json :=
  .obj
    [(str "payload", message.payload), (str "request_id", message.requestId),
      (str "type", message.type), (str "version", message.version)]

/-- The big-endian bytes of a four-byte length. -/
def lengthPrefix (n : Nat) : Bytes :=
  [UInt8.ofNat (n / 2 ^ 24), UInt8.ofNat (n / 2 ^ 16 % 256), UInt8.ofNat (n / 2 ^ 8 % 256),
    UInt8.ofNat (n % 256)]

def encodeMessage (message : Message) (maxFrameBytes : Nat) : Except PyError Bytes := do
  limit maxFrameBytes "max_frame_bytes"
  let _ <- validateMessage message
  let body := Json.serialize (envelope message)
  require (body.length ≤ min maxFrameBytes (2 ^ 32 - 1))
    (policyLimitError "message exceeds frame byte limit")
  return lengthPrefix body.length ++ body

def loadEnvelope (body : Bytes) : Except PyError Json :=
  match decodeUtf8 body with
  | none => .error (protocolError "malformed envelope")
  | some text =>
      match Json.loads text with
      | .ok value => .ok value
      | .error .malformed => .error (protocolError "malformed envelope")
      | .error (.duplicateKey _) => .error (protocolError "duplicate JSON key")
      | .error .nonInteger =>
          .error (protocolError "floating-point/non-finite JSON numbers are unsupported")

/-- The keyword arguments of the message constructor. -/
def messageFields (fields : List (Str × Json)) : Except PyError Message := do
  let version <- Codec.field fields (str "version")
  let type <- Codec.field fields (str "type")
  let requestId <- Codec.field fields (str "request_id")
  let payload <- Codec.field fields (str "payload")
  return { type := type, payload := payload, requestId := requestId, version := version }

def readEnvelope (value : Json) : Except PyError Message :=
  match value with
  | .obj fields => do
      require ((fields.map Prod.fst).toFinset = ENVELOPE_KEYS.toFinset)
        (protocolError "envelope has missing or unexpected fields")
      messageFields fields
  | _ => .error (protocolError "envelope has missing or unexpected fields")

def decodeMessage (body : Bytes) (maxFrameBytes : Nat) : Except PyError Packet := do
  limit maxFrameBytes "max_frame_bytes"
  require (body ≠ []) (protocolError "frame body must be nonempty bytes")
  require (body.length ≤ maxFrameBytes) (policyLimitError "message exceeds frame byte limit")
  checkDepth body
  let parsed <- loadEnvelope body
  let message <- readEnvelope parsed
  let packet <- validateMessage message
  require (Json.serialize parsed = body) (protocolError "envelope is not canonical JSON")
  return packet

/-- The bytes of a body with U+FFFD in place of every lone surrogate. -/
def scalarBody (body : Bytes) : Bytes :=
  (Json.scalarEscapes false (body.map (fun byte => Char.ofNat byte.toNat))).map
    (fun c => UInt8.ofNat c.toNat)

/-- `decode_message` on whatever the other end may send.  Of the texts that pass the
schemas only the message of an ERROR can hold a lone surrogate, and nothing reads it;
here it holds U+FFFD instead. -/
def decodeReceived (body : Bytes) (maxFrameBytes : Nat) : Except PyError Packet :=
  match loadEnvelope body with
  | .ok _ => decodeMessage body maxFrameBytes
  | .error _ => decodeMessage (scalarBody body) maxFrameBytes

theorem decodeReceived_eq (body : Bytes) (maxFrameBytes : Nat) :
    exists other, other.length = body.length ∧
      decodeReceived body maxFrameBytes = decodeMessage other maxFrameBytes := by
  unfold decodeReceived
  split
  · exact ⟨body, rfl, rfl⟩
  · refine ⟨scalarBody body, ?_, rfl⟩
    unfold scalarBody
    rw [List.length_map, Json.scalarEscapes_length, List.length_map]

/-!
## Signed items
-/

/-- The error of the storage codec becomes a protocol error; others pass. -/
def signedItem {alpha : Type} (x : Except PyError alpha) : Except PyError alpha :=
  match x with
  | .ok a => .ok a
  | .error (.storageError .corruption _) => .error (protocolError "malformed signed item")
  | .error e => .error e

def pack {alpha : Type} (value : alpha) (encoder : alpha -> Except PyError Bytes)
    (maxItemBytes : Nat) : Except PyError Str := do
  limit maxItemBytes "max_item_bytes"
  let data <- signedItem (encoder value)
  require (data.length ≤ maxItemBytes) (policyLimitError "signed item exceeds byte limit")
  return Base64.encode data

def unpack {alpha : Type} (value : Str) (decoder : Bytes -> Except PyError alpha)
    (maxItemBytes : Nat) : Except PyError alpha := do
  limit maxItemBytes "max_item_bytes"
  require (value ≠ []) (protocolError "signed item must be a nonempty base64 string")
  require (value.length ≤ 4 * ((maxItemBytes + 2) / 3))
    (policyLimitError "encoded signed item exceeds byte limit")
  match Base64.decode value with
  | none => .error (protocolError "invalid base64 signed item")
  | some data =>
      require (data.length ≤ maxItemBytes) (policyLimitError "signed item exceeds byte limit")
      require (Base64.encode data = value) (protocolError "noncanonical base64 signed item")
      checkDepth data
      signedItem (decoder data)

section Items

variable [Crypto]

def packTransaction (transaction : Transaction) (maxItemBytes : Nat) : Except PyError Str :=
  pack transaction Codec.encodeTransaction maxItemBytes

def unpackTransaction (value : Str) (maxItemBytes : Nat) : Except PyError Transaction :=
  unpack value Codec.decodeTransaction maxItemBytes

def packBlock (block : Block) (maxItemBytes : Nat) : Except PyError Str :=
  pack block Codec.encodeBlock maxItemBytes

def unpackBlock (value : Str) (maxItemBytes : Nat) : Except PyError Block :=
  unpack value Codec.decodeBlock maxItemBytes

end Items

end Network

end PyChain
