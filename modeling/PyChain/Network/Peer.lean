import PyChain.Network.Protocol
import PyChain.Network.TokenBucket

/-!
# One connection

The framed reader and the bounded writer of a connection.  Its owner sees the
message that a frame carries; the frames of the writer are determined by their
messages, so the queue holds messages.
-/

namespace PyChain

open Foundation

namespace Network

/-!
## Reading frames
-/

def fromBytesBig (a b c d : UInt8) : Nat :=
  ((a.toNat * 256 + b.toNat) * 256 + c.toNat) * 256 + d.toNat

/-- The body size a prefix announces. -/
def frameSize (maxFrameBytes : Nat) (a b c d : UInt8) : Except PyError Nat := do
  let size := fromBytesBig a b c d
  require (1 ≤ size ∧ size ≤ maxFrameBytes)
    (protocolError "frame length outside transport limits")
  return size

/-- Why a reader stopped: the stream ended inside or between frames, or a check
raised. -/
inductive ReadEnd where
  | incomplete (rest : Bytes)
  | raised (e : PyError)
deriving DecidableEq, Repr

/-- One turn of the reader on the bytes still to be read: the message and what
remains. -/
def readFrame (maxFrameBytes : Nat) (stream : Bytes) : Except ReadEnd (Packet × Bytes) :=
  match stream with
  | a :: b :: c :: d :: rest =>
      match frameSize maxFrameBytes a b c d with
      | .error e => .error (.raised e)
      | .ok size =>
          if rest.length < size then .error (.incomplete stream)
          else
            match decodeReceived (rest.take size) maxFrameBytes with
            | .error e => .error (.raised e)
            | .ok packet => .ok (packet, rest.drop size)
  | _ => .error (.incomplete stream)

/-- The turns of the reader; each one consumes at least its prefix. -/
def readTurns (maxFrameBytes : Nat) : Nat -> Bytes -> List Packet × ReadEnd
  | 0, stream => ([], .incomplete stream)
  | turns + 1, stream =>
      match readFrame maxFrameBytes stream with
      | .error reason => ([], reason)
      | .ok (packet, rest) =>
          let later := readTurns maxFrameBytes turns rest
          (packet :: later.1, later.2)

/-- All messages of a stream, and why the reader stopped. -/
def readLoop (maxFrameBytes : Nat) (stream : Bytes) : List Packet × ReadEnd :=
  readTurns maxFrameBytes stream.length stream

/-!
## Connections
-/

def Packet.frame (packet : Packet) : Bytes :=
  let body := Json.serialize (envelope packet.toMessage)
  lengthPrefix body.length ++ body

structure PeerConnection where
  connectionId : Str
  connectionNonce : Str
  remoteNonce : Option Str
  nodeId : Option Str
  outbound : Bool
  /-- The address of the other end of the socket. -/
  endpoint : Endpoint
  established : Bool
  closed : Bool
  /-- Whether the closing task has started. -/
  closing : Bool
  unexpectedError : Option PyError
  /-- Frames queued or held by the writer. -/
  queue : List Packet
  /-- The wire size the reader has reserved for the body it awaits. -/
  reading : Option Nat
  messageBucket : TokenBucket
  byteBucket : TokenBucket
deriving DecidableEq, Repr

namespace PeerConnection

def create (config : NodeConfig) (connectionId connectionNonce : Str) (outbound : Bool)
    (endpoint : Endpoint) (now : Rat) : PeerConnection :=
  { connectionId := connectionId
    connectionNonce := connectionNonce
    remoteNonce := none
    nodeId := none
    outbound := outbound
    endpoint := endpoint
    established := false
    closed := false
    closing := false
    unexpectedError := none
    queue := []
    reading := none
    messageBucket := TokenBucket.create config.messageRate config.messageBurst now
    byteBucket := TokenBucket.create config.byteRate config.byteBurst now }

/-- The buckets of a new connection pass their own checks. -/
theorem create_buckets (config : NodeConfig) (connectionId connectionNonce : Str)
    (outbound : Bool) (endpoint : Endpoint) (now : Rat) :
    let peer := create config connectionId connectionNonce outbound endpoint now
    TokenBucket.make config.messageRate config.messageBurst now = .ok peer.messageBucket ∧
      TokenBucket.make config.byteRate config.byteBurst now = .ok peer.byteBucket := by
  have hmessageRate : 0 < config.messageRate := config.sizes_pos _ (by simp)
  have hmessageBurst : 0 < config.messageBurst := config.sizes_pos _ (by simp)
  have hbyteRate : 0 < config.byteRate := config.sizes_pos _ (by simp)
  have hbyteBurst : 0 < config.byteBurst := config.sizes_pos _ (by simp)
  constructor
  · exact TokenBucket.make_eq_ok_iff.mpr
      ⟨⟨Nat.cast_pos.mpr hmessageRate, Nat.cast_pos.mpr hmessageBurst⟩, rfl⟩
  · exact TokenBucket.make_eq_ok_iff.mpr
      ⟨⟨Nat.cast_pos.mpr hbyteRate, Nat.cast_pos.mpr hbyteBurst⟩, rfl⟩

def outboundFrames (peer : PeerConnection) : Nat :=
  peer.queue.length

def outboundBytes (peer : PeerConnection) : Nat :=
  (peer.queue.map (fun packet => packet.frame.length)).sum

def beginClose (peer : PeerConnection) : PeerConnection :=
  if peer.closing then peer
  else { peer with closed := true, established := false, closing := true }

/-- Enqueue a frame, or close the connection when its queue is full. -/
def send (config : NodeConfig) (packet : Packet) (peer : PeerConnection) :
    Except PyError (Bool × PeerConnection) :=
  if peer.closed then .ok (false, peer)
  else do
    let frame <- encodeMessage packet.toMessage config.maxFrameBytes
    if config.outboundMaxFrames ≤ peer.outboundFrames ∨
        config.outboundMaxBytes < peer.outboundBytes + frame.length then
      return (false, peer.beginClose)
    else return (true, { peer with queue := peer.queue ++ [packet] })

end PeerConnection

end Network

end PyChain
