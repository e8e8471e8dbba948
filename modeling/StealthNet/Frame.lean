/-
  StealthNet.Frame
  ────────────────
  THE WIRE MESSAGES (`frame.rs`).

  An `OuterFrame` is what travels in a UDP datagram: the sender's id in the
  clear, a nonce, and the encryption of one `Message`.
-/
import StealthNet.Config
import StealthNet.Net.Addr

namespace StealthNet

/-- A 32-byte symmetric link key. -/
abbrev Key := Vector UInt8 32

/-- A 96-bit nonce. -/
abbrev Nonce := Vector UInt8 12

/-- The bytes of "STN1". -/
def MAGIC : Vector UInt8 4 := #v[0x53, 0x54, 0x4e, 0x31]

/-- The version of the frame format. -/
def VERSION : UInt8 := 1

/-- What is sent: the sender in the clear, everything else encrypted. -/
structure OuterFrame where
  magic : Vector UInt8 4
  version : UInt8
  senderId : String
  nonce : Nonce
  ciphertext : Bytes
  deriving DecidableEq

/-- Sent to every peer from time to time. -/
structure KeepaliveMsg where
  ttl : UInt8
  deriving DecidableEq

/-- A client asks a gateway for a stealth and an overlay address. -/
structure BootstrapReq where
  requestId : UInt64
  nodeId : String
  requestedStealth : String
  requestedOverlayIp : Option String
  capabilities : List String
  targetGatewayStealth : String
  deriving DecidableEq

/-- What the gateway assigns. -/
structure BootstrapResp where
  requestId : UInt64
  assignedStealth : String
  assignedOverlayIp : Option String
  homeGatewayStealth : String
  mtu : UInt32
  ok : Bool
  message : String
  deriving DecidableEq

/-- A client asks to be published by a gateway. -/
structure ClientRegister where
  requestId : UInt64
  srcStealth : String
  targetGatewayStealth : String
  client : PublicClientEntry
  ttl : UInt8
  deriving DecidableEq

/-- The gateway has entered the client. -/
structure ClientRegisterAck where
  requestId : UInt64
  srcStealth : String
  dstStealth : String
  ttl : UInt8
  ok : Bool
  message : String
  deriving DecidableEq

/-- An IP packet on its way to a stealth address. -/
structure DataMsg where
  srcStealth : String
  dstStealth : String
  ttl : UInt8
  innerPacket : Bytes
  deriving DecidableEq

/-- A ping of a stealth address. -/
structure PingReq where
  requestId : UInt64
  srcStealth : String
  targetStealth : String
  ttl : UInt8
  timestampMs : BitVec 128
  optionalInnerIp : Option String
  deriving DecidableEq

/-- The answer to a ping. -/
structure PingResp where
  requestId : UInt64
  srcStealth : String
  dstStealth : String
  ttl : UInt8
  timestampMs : BitVec 128
  responderId : String
  responderStealth : String
  deriving DecidableEq

/-- A request for the clients a gateway publishes. -/
structure PublicClientsReq where
  requestId : UInt64
  srcStealth : String
  targetStealth : String
  ttl : UInt8
  deriving DecidableEq

/-- The clients a gateway publishes. -/
structure PublicClientsResp where
  requestId : UInt64
  srcStealth : String
  dstStealth : String
  ttl : UInt8
  gatewayStealth : String
  clients : List PublicClientEntry
  deriving DecidableEq

/-- An error a peer reports. No node sends one. -/
structure ErrorMsg where
  code : UInt16
  message : String
  deriving DecidableEq

/-- The messages, in the order of their tags. -/
inductive Message
  | keepalive (msg : KeepaliveMsg)
  | bootstrapReq (req : BootstrapReq)
  | bootstrapResp (resp : BootstrapResp)
  | clientRegister (reg : ClientRegister)
  | clientRegisterAck (ack : ClientRegisterAck)
  | data (data : DataMsg)
  | pingReq (ping : PingReq)
  | pingResp (pong : PingResp)
  | publicClientsReq (req : PublicClientsReq)
  | publicClientsResp (resp : PublicClientsResp)
  | error (err : ErrorMsg)
  deriving DecidableEq

/-- The time-to-live a message carries, 0 for the kinds without one. -/
def Message.ttl : Message → UInt8
  | .keepalive m => m.ttl
  | .bootstrapReq _ => 0
  | .bootstrapResp _ => 0
  | .clientRegister m => m.ttl
  | .clientRegisterAck m => m.ttl
  | .data m => m.ttl
  | .pingReq m => m.ttl
  | .pingResp m => m.ttl
  | .publicClientsReq m => m.ttl
  | .publicClientsResp m => m.ttl
  | .error _ => 0

end StealthNet
