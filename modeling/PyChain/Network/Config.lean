import Mathlib.Algebra.Ring.Nat
import Mathlib.Data.List.MinMax
import PyChain.Crypto.Primitives
import PyChain.Foundation.Raising

/-!
# Local networking policy

The protocol constants, the addresses a node may talk to and the limits of one
node.  A configuration carries the facts its constructor checks.  Durations and
clock readings are exact rationals.
-/

namespace PyChain

open Foundation

namespace Network

def PROTOCOL_VERSION : Nat := 1

def NETWORK_ID : Str := str "mini-blockchain-v1"

def MAX_FRAME_BYTES : Nat := 4 * 1024 * 1024

def MAX_ITEM_BYTES : Nat := 2 * 1024 * 1024

def MAX_HEIGHT : Nat := 2 ^ 63 - 1

def MAX_BLOCK_BATCH : Nat := 16

def MAX_MEMPOOL_PAGE : Nat := 32

def MAX_PEER_ENDPOINTS : Nat := 32

def protocolError (message : String) : PyError :=
  .networkError .protocol message

def policyLimitError (message : String) : PyError :=
  .networkError .policyLimit message

/-!
## Addresses
-/

/-- One decimal octet of an address literal, without leading zeros. -/
def parseOctet (text : Str) : Option Nat :=
  if text ≠ [] ∧ text.all Char.isDigit = true ∧ text.length ≤ 3 ∧
      (text = ['0'] ∨ text.head? ≠ some '0') ∧ Json.digitsValue text ≤ 255 then
    some (Json.digitsValue text)
  else none

/-- The value of an IPv4 literal. -/
def parseIPv4 (host : Str) : Option Nat :=
  match host.splitOn '.' with
  | [a, b, c, d] =>
      match parseOctet a, parseOctet b, parseOctet c, parseOctet d with
      | some w, some x, some y, some z => some (((w * 256 + x) * 256 + y) * 256 + z)
      | _, _, _, _ => none
  | _ => none

def renderIPv4 (address : Nat) : Str :=
  Nat.toDigits 10 (address / 2 ^ 24 % 256) ++ '.' ::
    (Nat.toDigits 10 (address / 2 ^ 16 % 256) ++ '.' ::
      (Nat.toDigits 10 (address / 2 ^ 8 % 256) ++ '.' :: Nat.toDigits 10 (address % 256)))

structure IPv4Network where
  networkAddress : Nat
  prefixlen : Nat
deriving DecidableEq, Repr

namespace IPv4Network

def size (network : IPv4Network) : Nat :=
  2 ^ (32 - network.prefixlen)

def contains (network : IPv4Network) (address : Nat) : Bool :=
  address / network.size * network.size = network.networkAddress

def broadcastAddress (network : IPv4Network) : Nat :=
  network.networkAddress + network.size - 1

end IPv4Network

def LOCAL_NETWORKS : List IPv4Network :=
  [{ networkAddress := 127 * 2 ^ 24, prefixlen := 8 },
    { networkAddress := 10 * 2 ^ 24, prefixlen := 8 },
    { networkAddress := 172 * 2 ^ 24 + 16 * 2 ^ 16, prefixlen := 12 },
    { networkAddress := 192 * 2 ^ 24 + 168 * 2 ^ 16, prefixlen := 16 }]

def localIPv4 (host : Str) : Except PyError Nat :=
  match parseIPv4 host with
  | none => .error (.valueError "host must be an IPv4 literal")
  | some address =>
      if LOCAL_NETWORKS.any (fun network => network.contains address) = false then
        .error (.valueError "host must be loopback or RFC1918 IPv4")
      else if LOCAL_NETWORKS.any (fun network => address = network.broadcastAddress) then
        .error (.valueError "broadcast addresses are not peer endpoints")
      else .ok address

/-- A listen address: a host literal and a port. -/
structure Endpoint where
  host : Str
  port : Nat
deriving DecidableEq, Repr

/-!
## Configurations
-/

structure NodeConfig where
  networks : List IPv4Network
  seeds : List Endpoint
  mempoolMaxTransactions : Option Int
  mempoolMaxBytes : Option Int
  maxPeers : Nat
  maxConcurrentDials : Nat
  maxFrameBytes : Nat
  maxItemBytes : Nat
  inboundMaxEvents : Nat
  inboundMaxBytes : Nat
  outboundMaxFrames : Nat
  outboundMaxBytes : Nat
  maxRequests : Nat
  blockBatchSize : Nat
  mempoolPageSize : Nat
  snapshotMaxTransactions : Nat
  snapshotMaxBytes : Nat
  snapshotGlobalBytes : Nat
  handshakeTimeout : Rat
  requestTimeout : Rat
  pingInterval : Rat
  pongTimeout : Rat
  statusInterval : Rat
  mempoolRefreshInterval : Rat
  snapshotIdleTimeout : Rat
  snapshotLifetime : Rat
  snapshotCooldown : Rat
  retryDelay : Rat
  reconnectInitial : Rat
  reconnectMax : Rat
  messageRate : Nat
  messageBurst : Nat
  byteRate : Nat
  byteBurst : Nat
  serviceRate : Nat
  serviceBurst : Nat
  discoveryInterval : Rat
  candidateTtl : Rat
  maxCandidates : Nat
  sizes_pos : forall size, size ∈ [maxPeers, maxConcurrentDials, maxFrameBytes, maxItemBytes,
    inboundMaxEvents, inboundMaxBytes, outboundMaxFrames, outboundMaxBytes, maxRequests,
    blockBatchSize, mempoolPageSize, snapshotMaxTransactions, snapshotMaxBytes,
    snapshotGlobalBytes, messageRate, messageBurst, byteRate, byteBurst, serviceRate,
    serviceBurst, maxCandidates] -> 0 < size
  durations_pos : forall duration, duration ∈ [handshakeTimeout, requestTimeout, pingInterval,
    pongTimeout, statusInterval, mempoolRefreshInterval, snapshotIdleTimeout,
    snapshotLifetime, snapshotCooldown, retryDelay, reconnectInitial, reconnectMax,
    discoveryInterval, candidateTtl] -> 0 < duration
  maxFrameBytes_le : maxFrameBytes ≤ 2 ^ 32 - 1
  maxRequests_le : maxRequests ≤ 4
  blockBatchSize_le : blockBatchSize ≤ MAX_BLOCK_BATCH
  mempoolPageSize_le : mempoolPageSize ≤ MAX_MEMPOOL_PAGE

namespace NodeConfig

/-- The most specific allowed subnet decides whether an address is a host. -/
def validateHost (config : NodeConfig) (host : Str) : Except PyError Str := do
  let address <- localIPv4 host
  let matching := config.networks.filter (fun network => network.contains address)
  match List.argmax IPv4Network.prefixlen matching with
  | none => .error (.valueError "host is outside allowed_cidrs")
  | some network =>
      if network.prefixlen < 31 ∧
          (address = network.networkAddress ∨ address = network.broadcastAddress) then
        .error (.valueError "subnet network/broadcast addresses are not endpoints")
      else return renderIPv4 address

def validateEndpoint (config : NodeConfig) (host : Str) (port : Nat) :
    Except PyError Endpoint := do
  require (1 ≤ port ∧ port ≤ 65535)
    (PyError.valueError "peer port must be an integer from 1 to 65535")
  let host <- config.validateHost host
  return { host := host, port := port }

/-- The policy of a configuration that names no option. -/
def default_ : NodeConfig where
  networks := [{ networkAddress := 127 * 2 ^ 24, prefixlen := 8 }]
  seeds := []
  mempoolMaxTransactions := none
  mempoolMaxBytes := none
  maxPeers := 8
  maxConcurrentDials := 2
  maxFrameBytes := MAX_FRAME_BYTES
  maxItemBytes := MAX_ITEM_BYTES
  inboundMaxEvents := 128
  inboundMaxBytes := 16 * 1024 * 1024
  outboundMaxFrames := 64
  outboundMaxBytes := 8 * 1024 * 1024
  maxRequests := 4
  blockBatchSize := MAX_BLOCK_BATCH
  mempoolPageSize := MAX_MEMPOOL_PAGE
  snapshotMaxTransactions := 4096
  snapshotMaxBytes := 4 * 1024 * 1024
  snapshotGlobalBytes := 16 * 1024 * 1024
  handshakeTimeout := 5
  requestTimeout := 10
  pingInterval := 30
  pongTimeout := 10
  statusInterval := 15
  mempoolRefreshInterval := 60
  snapshotIdleTimeout := 30
  snapshotLifetime := 300
  snapshotCooldown := 10
  retryDelay := 10
  reconnectInitial := 1
  reconnectMax := 30
  messageRate := 100
  messageBurst := 200
  byteRate := 8 * 1024 * 1024
  byteBurst := 16 * 1024 * 1024
  serviceRate := 10
  serviceBurst := 20
  discoveryInterval := 30
  candidateTtl := 600
  maxCandidates := 128
  sizes_pos := by decide
  durations_pos := by decide
  maxFrameBytes_le := by decide
  maxRequests_le := by decide
  blockBatchSize_le := by decide
  mempoolPageSize_le := by decide

end NodeConfig

end Network

end PyChain
