import PyChain.Network.Config
import PyChain.Storage.Codec

/-!
# Message schemas

A message off the wire or about to be sent is a record of JSON values.  The
validator checks it field by field, in the order of the source, and hands back
the message read by its schema; ledger items stay opaque texts.
-/

namespace PyChain

open Foundation

namespace Network

/-- Protocol version 1 has fifteen message types. -/
inductive MessageType where
  | version
  | verack
  | getStatus
  | status
  | getPeers
  | peers
  | newTransaction
  | newBlock
  | getBlocks
  | blocks
  | getMempool
  | mempool
  | ping
  | pong
  | error
deriving DecidableEq, Repr

namespace MessageType

def text : MessageType -> Str
  | version => str "VERSION"
  | verack => str "VERACK"
  | getStatus => str "GET_STATUS"
  | status => str "STATUS"
  | getPeers => str "GET_PEERS"
  | peers => str "PEERS"
  | newTransaction => str "NEW_TRANSACTION"
  | newBlock => str "NEW_BLOCK"
  | getBlocks => str "GET_BLOCKS"
  | blocks => str "BLOCKS"
  | getMempool => str "GET_MEMPOOL"
  | mempool => str "MEMPOOL"
  | ping => str "PING"
  | pong => str "PONG"
  | error => str "ERROR"

def all : List MessageType :=
  [version, verack, getStatus, status, getPeers, peers, newTransaction, newBlock, getBlocks,
    blocks, getMempool, mempool, ping, pong, error]

def ofText (value : Str) : Option MessageType :=
  all.find? (fun kind => kind.text = value)

/-- The fields of each type, in increasing order. -/
def schema : MessageType -> List Str
  | version =>
      [str "connection_nonce", str "genesis_hash", str "height", str "listen_port",
        str "network_id", str "node_id", str "tip_hash"]
  | verack => []
  | getStatus => []
  | status => [str "height", str "tip_hash"]
  | getPeers => []
  | peers => [str "peers"]
  | newTransaction => [str "transaction"]
  | newBlock => [str "block"]
  | getBlocks => [str "anchor_hash", str "anchor_height", str "limit"]
  | blocks =>
      [str "anchor_hash", str "anchor_height", str "blocks", str "more", str "tip_hash",
        str "tip_height"]
  | getMempool => [str "cursor", str "limit", str "snapshot_id", str "tip_hash"]
  | mempool =>
      [str "cursor", str "done", str "next_cursor", str "snapshot_id", str "tip_hash",
        str "transactions"]
  | ping => [str "nonce"]
  | pong => [str "nonce"]
  | error => [str "code", str "message"]

/-- Requests and their answers carry the token of the request. -/
def requiresId : MessageType -> Bool
  | getStatus => true
  | getPeers => true
  | getBlocks => true
  | getMempool => true
  | peers => true
  | blocks => true
  | mempool => true
  | _ => false

def allowsId : MessageType -> Bool
  | status => true
  | error => true
  | _ => false

end MessageType

inductive ErrorCode where
  | badMessage
  | unsupportedVersion
  | wrongNetwork
  | unknownAnchor
  | forkUnsupported
  | staleTip
  | snapshotExpired
  | policyLimit
  | busy
deriving DecidableEq, Repr

namespace ErrorCode

def text : ErrorCode -> Str
  | badMessage => str "BAD_MESSAGE"
  | unsupportedVersion => str "UNSUPPORTED_VERSION"
  | wrongNetwork => str "WRONG_NETWORK"
  | unknownAnchor => str "UNKNOWN_ANCHOR"
  | forkUnsupported => str "FORK_UNSUPPORTED"
  | staleTip => str "STALE_TIP"
  | snapshotExpired => str "SNAPSHOT_EXPIRED"
  | policyLimit => str "POLICY_LIMIT"
  | busy => str "BUSY"

def all : List ErrorCode :=
  [badMessage, unsupportedVersion, wrongNetwork, unknownAnchor, forkUnsupported, staleTip,
    snapshotExpired, policyLimit, busy]

def ofText (value : Str) : Option ErrorCode :=
  all.find? (fun code => code.text = value)

end ErrorCode

structure Message where
  type : Json
  payload : Json
  requestId : Json
  version : Json

/-!
## Payloads read by their schema
-/

structure VersionPayload where
  networkId : Str
  genesisHash : Str
  nodeId : Str
  connectionNonce : Str
  listenPort : Nat
  height : Nat
  tipHash : Str
deriving DecidableEq, Repr

structure StatusPayload where
  height : Nat
  tipHash : Str
deriving DecidableEq, Repr

structure GetBlocksPayload where
  anchorHeight : Nat
  anchorHash : Str
  limit : Nat
deriving DecidableEq, Repr

structure BlocksPayload where
  anchorHeight : Nat
  anchorHash : Str
  tipHeight : Nat
  tipHash : Str
  blocks : List Str
  more : Bool
deriving DecidableEq, Repr

structure GetMempoolPayload where
  tipHash : Str
  snapshotId : Option Str
  cursor : Nat
  limit : Nat
deriving DecidableEq, Repr

structure MempoolPayload where
  tipHash : Str
  snapshotId : Str
  cursor : Nat
  transactions : List Str
  nextCursor : Nat
  done : Bool
deriving DecidableEq, Repr

inductive Payload where
  | version (payload : VersionPayload)
  | verack
  | getStatus
  | status (payload : StatusPayload)
  | getPeers
  | peers (endpoints : List Endpoint)
  | newTransaction (transaction : Str)
  | newBlock (block : Str)
  | getBlocks (payload : GetBlocksPayload)
  | blocks (payload : BlocksPayload)
  | getMempool (payload : GetMempoolPayload)
  | mempool (payload : MempoolPayload)
  | ping (nonce : Str)
  | pong (nonce : Str)
  | error (code : ErrorCode) (message : Str)
deriving DecidableEq, Repr

/-- A message read by its schema. -/
structure Packet where
  payload : Payload
  requestId : Option Str
deriving DecidableEq, Repr

namespace Payload

def type : Payload -> MessageType
  | version _ => .version
  | verack => .verack
  | getStatus => .getStatus
  | status _ => .status
  | getPeers => .getPeers
  | peers _ => .peers
  | newTransaction _ => .newTransaction
  | newBlock _ => .newBlock
  | getBlocks _ => .getBlocks
  | blocks _ => .blocks
  | getMempool _ => .getMempool
  | mempool _ => .mempool
  | ping _ => .ping
  | pong _ => .pong
  | error _ _ => .error

end Payload

def optionalText : Option Str -> Json
  | none => .null
  | some text => .str text

def endpointDict (endpoint : Endpoint) : Json :=
  .obj [(str "host", .str endpoint.host), (str "port", .int endpoint.port)]

/-- The fields of a payload, in increasing order of their names. -/
def Payload.fields : Payload -> List (Str × Json)
  | version payload =>
      [(str "connection_nonce", .str payload.connectionNonce),
        (str "genesis_hash", .str payload.genesisHash),
        (str "height", .int payload.height),
        (str "listen_port", .int payload.listenPort),
        (str "network_id", .str payload.networkId),
        (str "node_id", .str payload.nodeId),
        (str "tip_hash", .str payload.tipHash)]
  | verack => []
  | getStatus => []
  | status payload =>
      [(str "height", .int payload.height), (str "tip_hash", .str payload.tipHash)]
  | getPeers => []
  | peers endpoints => [(str "peers", .arr (endpoints.map endpointDict))]
  | newTransaction transaction => [(str "transaction", .str transaction)]
  | newBlock block => [(str "block", .str block)]
  | getBlocks payload =>
      [(str "anchor_hash", .str payload.anchorHash),
        (str "anchor_height", .int payload.anchorHeight),
        (str "limit", .int payload.limit)]
  | blocks payload =>
      [(str "anchor_hash", .str payload.anchorHash),
        (str "anchor_height", .int payload.anchorHeight),
        (str "blocks", .arr (payload.blocks.map Json.str)),
        (str "more", .bool payload.more),
        (str "tip_hash", .str payload.tipHash),
        (str "tip_height", .int payload.tipHeight)]
  | getMempool payload =>
      [(str "cursor", .int payload.cursor),
        (str "limit", .int payload.limit),
        (str "snapshot_id", optionalText payload.snapshotId),
        (str "tip_hash", .str payload.tipHash)]
  | mempool payload =>
      [(str "cursor", .int payload.cursor),
        (str "done", .bool payload.done),
        (str "next_cursor", .int payload.nextCursor),
        (str "snapshot_id", .str payload.snapshotId),
        (str "tip_hash", .str payload.tipHash),
        (str "transactions", .arr (payload.transactions.map Json.str))]
  | ping nonce => [(str "nonce", .str nonce)]
  | pong nonce => [(str "nonce", .str nonce)]
  | error code message => [(str "code", .str code.text), (str "message", .str message)]

def Packet.toMessage (packet : Packet) : Message :=
  { type := .str packet.payload.type.text
    payload := .obj packet.payload.fields
    requestId := optionalText packet.requestId
    version := .int PROTOCOL_VERSION }

/-!
## Validation
-/

def isToken (value : Str) : Bool :=
  value.length = 32 && value.all isLowerHex

/-- Nonempty ASCII text; its contents are checked by the owner of the chain. -/
def isItem (value : Str) : Bool :=
  value ≠ [] && value.all (fun c => c.toNat < 128)

def integer (fields : List (Str × Json)) (name : String) (minimum maximum : Nat) :
    Except PyError Nat := do
  match <- Codec.field fields (str name) with
  | .int n =>
      require ((minimum : Int) ≤ n ∧ n ≤ (maximum : Int)) (protocolError ("invalid " ++ name))
      return n.toNat
  | _ => .error (protocolError ("invalid " ++ name))

def hex (value : Json) (name : String) (pattern : Str -> Bool) : Except PyError Str :=
  match value with
  | .str text => do
      require (pattern text = true) (protocolError ("invalid " ++ name))
      return text
  | _ => .error (protocolError ("invalid " ++ name))

def hashField (fields : List (Str × Json)) (name : String) : Except PyError Str := do
  let value <- Codec.field fields (str name)
  hex value name isHash

def tokenField (fields : List (Str × Json)) (name : String) : Except PyError Str := do
  let value <- Codec.field fields (str name)
  hex value name isToken

def boolean (fields : List (Str × Json)) (name : String) : Except PyError Bool := do
  match <- Codec.field fields (str name) with
  | .bool value => return value
  | _ => .error (protocolError (name ++ " must be boolean"))

def item (value : Json) : Except PyError Str :=
  match value with
  | .str text => do
      require (isItem text = true)
        (protocolError "signed item must be an ASCII base64 string")
      return text
  | _ => .error (protocolError "signed item must be an ASCII base64 string")

/-- A list of signed items of bounded length. -/
def items (fields : List (Str × Json)) (name : String) (maximum : Nat) (message : String) :
    Except PyError (List Str) := do
  match <- Codec.field fields (str name) with
  | .arr values =>
      require (values.length ≤ maximum) (protocolError message)
      values.mapM item
  | _ => .error (protocolError message)

def readEndpoint (value : Json) : Except PyError Endpoint := do
  match value with
  | .obj fields =>
      require ((fields.map Prod.fst).toFinset = {str "host", str "port"})
        (protocolError "invalid peer endpoint fields")
      match <- Codec.field fields (str "host") with
      | .str host =>
          match localIPv4 host with
          | .error _ => .error (protocolError "invalid peer IPv4 address")
          | .ok _ =>
              match <- Codec.field fields (str "port") with
              | .int port =>
                  require (1 ≤ port ∧ port ≤ 65535) (protocolError "invalid peer port")
                  return { host := host, port := port.toNat }
              | _ => .error (protocolError "invalid peer port")
      | _ => .error (protocolError "invalid peer IPv4 address")
  | _ => .error (protocolError "invalid peer endpoint fields")

def readVersion (fields : List (Str × Json)) : Except PyError VersionPayload := do
  let height <- integer fields "height" 0 MAX_HEIGHT
  let genesisHash <- hashField fields "genesis_hash"
  let tipHash <- hashField fields "tip_hash"
  let nodeId <- tokenField fields "node_id"
  let connectionNonce <- tokenField fields "connection_nonce"
  match <- Codec.field fields (str "network_id") with
  | .str networkId =>
      require (networkId = NETWORK_ID) (protocolError "wrong network")
      let listenPort <- integer fields "listen_port" 1 65535
      return {
        networkId := networkId
        genesisHash := genesisHash
        nodeId := nodeId
        connectionNonce := connectionNonce
        listenPort := listenPort
        height := height
        tipHash := tipHash }
  | _ => .error (protocolError "wrong network")

def readStatus (fields : List (Str × Json)) : Except PyError StatusPayload := do
  let height <- integer fields "height" 0 MAX_HEIGHT
  let tipHash <- hashField fields "tip_hash"
  return { height := height, tipHash := tipHash }

def readGetBlocks (fields : List (Str × Json)) : Except PyError GetBlocksPayload := do
  let anchorHeight <- integer fields "anchor_height" 0 MAX_HEIGHT
  let anchorHash <- hashField fields "anchor_hash"
  let limit <- integer fields "limit" 1 MAX_BLOCK_BATCH
  return { anchorHeight := anchorHeight, anchorHash := anchorHash, limit := limit }

def readBlocks (fields : List (Str × Json)) : Except PyError BlocksPayload := do
  let anchorHeight <- integer fields "anchor_height" 0 MAX_HEIGHT
  let tipHeight <- integer fields "tip_height" 0 MAX_HEIGHT
  let tipHash <- hashField fields "tip_hash"
  let anchorHash <- hashField fields "anchor_hash"
  let more <- boolean fields "more"
  let blocks <- items fields "blocks" MAX_BLOCK_BATCH "invalid block batch"
  return {
    anchorHeight := anchorHeight
    anchorHash := anchorHash
    tipHeight := tipHeight
    tipHash := tipHash
    blocks := blocks
    more := more }

def readGetMempool (fields : List (Str × Json)) : Except PyError GetMempoolPayload := do
  let cursor <- integer fields "cursor" 0 MAX_HEIGHT
  let tipHash <- hashField fields "tip_hash"
  let limit <- integer fields "limit" 1 MAX_MEMPOOL_PAGE
  match <- Codec.field fields (str "snapshot_id") with
  | .null =>
      require (cursor = 0)
        (protocolError "first snapshot request must start at cursor zero")
      return { tipHash := tipHash, snapshotId := none, cursor := cursor, limit := limit }
  | value =>
      let snapshotId <- hex value "snapshot_id" isToken
      return {
        tipHash := tipHash
        snapshotId := some snapshotId
        cursor := cursor
        limit := limit }

def readMempool (fields : List (Str × Json)) : Except PyError MempoolPayload := do
  let cursor <- integer fields "cursor" 0 MAX_HEIGHT
  let nextCursor <- integer fields "next_cursor" 0 MAX_HEIGHT
  let tipHash <- hashField fields "tip_hash"
  let done <- boolean fields "done"
  let snapshotId <- tokenField fields "snapshot_id"
  let transactions <- items fields "transactions" MAX_MEMPOOL_PAGE "invalid mempool page"
  require (nextCursor = cursor + transactions.length)
    (protocolError "noncontiguous mempool cursor")
  require (done = true ∨ transactions ≠ [])
    (protocolError "unfinished mempool page must progress")
  return {
    tipHash := tipHash
    snapshotId := snapshotId
    cursor := cursor
    transactions := transactions
    nextCursor := nextCursor
    done := done }

def readPeers (fields : List (Str × Json)) : Except PyError (List Endpoint) := do
  match <- Codec.field fields (str "peers") with
  | .arr values =>
      require (values.length ≤ MAX_PEER_ENDPOINTS) (protocolError "invalid peers list")
      values.mapM readEndpoint
  | _ => .error (protocolError "invalid peers list")

def readItem (fields : List (Str × Json)) (name : String) : Except PyError Str := do
  let value <- Codec.field fields (str name)
  item value

def readError (fields : List (Str × Json)) : Except PyError (ErrorCode × Str) := do
  match <- Codec.field fields (str "code") with
  | .str text =>
      match ErrorCode.ofText text with
      | none => .error (protocolError "unknown error code")
      | some code =>
          match <- Codec.field fields (str "message") with
          | .str message =>
              require (message.length ≤ 256)
                (protocolError "error message exceeds 256 characters")
              return (code, message)
          | _ => .error (protocolError "error message exceeds 256 characters")
  | _ => .error (protocolError "unknown error code")

def readPayload (kind : MessageType) (fields : List (Str × Json)) : Except PyError Payload :=
  match kind with
  | .version => Payload.version <$> readVersion fields
  | .verack => .ok .verack
  | .getStatus => .ok .getStatus
  | .status => Payload.status <$> readStatus fields
  | .getPeers => .ok .getPeers
  | .peers => Payload.peers <$> readPeers fields
  | .newTransaction => Payload.newTransaction <$> readItem fields "transaction"
  | .newBlock => Payload.newBlock <$> readItem fields "block"
  | .getBlocks => Payload.getBlocks <$> readGetBlocks fields
  | .blocks => Payload.blocks <$> readBlocks fields
  | .getMempool => Payload.getMempool <$> readGetMempool fields
  | .mempool => Payload.mempool <$> readMempool fields
  | .ping => Payload.ping <$> tokenField fields "nonce"
  | .pong => Payload.pong <$> tokenField fields "nonce"
  | .error => (fun pair => Payload.error pair.1 pair.2) <$> readError fields

def readRequestId (kind : MessageType) (requestId : Json) : Except PyError (Option Str) :=
  match requestId with
  | .null =>
      if kind.requiresId then .error (protocolError "invalid request_id") else .ok none
  | value =>
      if kind.requiresId || kind.allowsId then some <$> hex value "request_id" isToken
      else .error (protocolError "control/announcement request_id must be null")

def readType (value : Json) : Except PyError MessageType :=
  match value with
  | .str text =>
      match MessageType.ofText text with
      | some kind => .ok kind
      | none => .error (protocolError "unknown message type")
  | _ => .error (protocolError "unknown message type")

/-- The validator; its answer is the message read by its schema. -/
def validateMessage (message : Message) : Except PyError Packet := do
  match message.version with
  | .int version =>
      require (version = PROTOCOL_VERSION) (protocolError "unsupported protocol version")
      let kind <- readType message.type
      match message.payload with
      | .obj fields =>
          require ((fields.map Prod.fst).toFinset = kind.schema.toFinset)
            (protocolError "payload has missing or unexpected fields")
          let requestId <- readRequestId kind message.requestId
          let payload <- readPayload kind fields
          return { payload := payload, requestId := requestId }
      | _ => .error (protocolError "payload has missing or unexpected fields")
  | _ => .error (protocolError "unsupported protocol version")

end Network

end PyChain
