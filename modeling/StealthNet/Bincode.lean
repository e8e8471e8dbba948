/-
  StealthNet.Bincode
  ──────────────────
  THE BYTES OF FRAMES AND MESSAGES.

  What bincode writes for the types of `frame.rs`: fields in order, integers
  little-endian in their full width, a length of 8 bytes before texts and
  lists, a tag byte before options and a tag of 4 bytes before variants.  A
  reader ignores what follows a value.

  The laws come with the codecs (`Codec.read_write`).
-/
import StealthNet.Crypto
import StealthNet.Lib.Codec

namespace StealthNet

open Lib (Codec)

namespace Bincode

/-! ## §1. Fields. -/

/-- One byte. -/
def u8 : Codec UInt8 := Codec.byte

/-- Two bytes, the least significant first. -/
def u16 : Codec UInt16 := (Codec.word 2).iso UInt16.ofBitVec UInt16.toBitVec fun _ => rfl

/-- Four bytes. -/
def u32 : Codec UInt32 := (Codec.word 4).iso UInt32.ofBitVec UInt32.toBitVec fun _ => rfl

/-- Eight bytes. -/
def u64 : Codec UInt64 := (Codec.word 8).iso UInt64.ofBitVec UInt64.toBitVec fun _ => rfl

/-- Sixteen bytes. -/
def u128 : Codec (BitVec 128) := Codec.word 16

/-! ## §2. Structures. -/

/-- Both lists hold texts; the time-to-live is optional. -/
def publicClientEntry : Codec PublicClientEntry :=
  (Codec.text.seq (Codec.text.seq ((Codec.list Codec.text).seq
    ((Codec.list Codec.text).seq (Codec.option u64))))).iso
    (fun (publicId, clientStealth, advertisedPrefixes, capabilities, ttl) =>
      { publicId, clientStealth, advertisedPrefixes, capabilities, ttl })
    (fun e => (e.publicId, e.clientStealth, e.advertisedPrefixes, e.capabilities, e.ttl))
    fun _ => rfl

/-- The time-to-live alone. -/
def keepaliveMsg : Codec KeepaliveMsg := u8.iso KeepaliveMsg.mk KeepaliveMsg.ttl fun _ => rfl

/-- The fields of a `BootstrapReq`, in their order. -/
def bootstrapReq : Codec BootstrapReq :=
  (u64.seq (Codec.text.seq (Codec.text.seq ((Codec.option Codec.text).seq
    ((Codec.list Codec.text).seq Codec.text))))).iso
    (fun (requestId, nodeId, requestedStealth, requestedOverlayIp, capabilities,
        targetGatewayStealth) =>
      { requestId, nodeId, requestedStealth, requestedOverlayIp, capabilities,
        targetGatewayStealth })
    (fun m => (m.requestId, m.nodeId, m.requestedStealth, m.requestedOverlayIp, m.capabilities,
      m.targetGatewayStealth))
    fun _ => rfl

/-- The fields of a `BootstrapResp`. -/
def bootstrapResp : Codec BootstrapResp :=
  (u64.seq (Codec.text.seq ((Codec.option Codec.text).seq (Codec.text.seq
    (u32.seq (Codec.bool.seq Codec.text)))))).iso
    (fun (requestId, assignedStealth, assignedOverlayIp, homeGatewayStealth, mtu, ok, message) =>
      { requestId, assignedStealth, assignedOverlayIp, homeGatewayStealth, mtu, ok, message })
    (fun m => (m.requestId, m.assignedStealth, m.assignedOverlayIp, m.homeGatewayStealth, m.mtu,
      m.ok, m.message))
    fun _ => rfl

/-- The fields of a `ClientRegister`, the entry of the client among them. -/
def clientRegister : Codec ClientRegister :=
  (u64.seq (Codec.text.seq (Codec.text.seq (publicClientEntry.seq u8)))).iso
    (fun (requestId, srcStealth, targetGatewayStealth, client, ttl) =>
      { requestId, srcStealth, targetGatewayStealth, client, ttl })
    (fun m => (m.requestId, m.srcStealth, m.targetGatewayStealth, m.client, m.ttl))
    fun _ => rfl

/-- The fields of a `ClientRegisterAck`. -/
def clientRegisterAck : Codec ClientRegisterAck :=
  (u64.seq (Codec.text.seq (Codec.text.seq (u8.seq (Codec.bool.seq Codec.text))))).iso
    (fun (requestId, srcStealth, dstStealth, ttl, ok, message) =>
      { requestId, srcStealth, dstStealth, ttl, ok, message })
    (fun m => (m.requestId, m.srcStealth, m.dstStealth, m.ttl, m.ok, m.message))
    fun _ => rfl

/-- The packet is a list of bytes. -/
def dataMsg : Codec DataMsg :=
  (Codec.text.seq (Codec.text.seq (u8.seq (Codec.list u8)))).iso
    (fun (srcStealth, dstStealth, ttl, innerPacket) =>
      { srcStealth, dstStealth, ttl, innerPacket })
    (fun m => (m.srcStealth, m.dstStealth, m.ttl, m.innerPacket))
    fun _ => rfl

/-- The fields of a `PingReq`. -/
def pingReq : Codec PingReq :=
  (u64.seq (Codec.text.seq (Codec.text.seq (u8.seq (u128.seq (Codec.option Codec.text)))))).iso
    (fun (requestId, srcStealth, targetStealth, ttl, timestampMs, optionalInnerIp) =>
      { requestId, srcStealth, targetStealth, ttl, timestampMs, optionalInnerIp })
    (fun m => (m.requestId, m.srcStealth, m.targetStealth, m.ttl, m.timestampMs,
      m.optionalInnerIp))
    fun _ => rfl

/-- The fields of a `PingResp`. -/
def pingResp : Codec PingResp :=
  (u64.seq (Codec.text.seq (Codec.text.seq (u8.seq (u128.seq (Codec.text.seq
    Codec.text)))))).iso
    (fun (requestId, srcStealth, dstStealth, ttl, timestampMs, responderId, responderStealth) =>
      { requestId, srcStealth, dstStealth, ttl, timestampMs, responderId, responderStealth })
    (fun m => (m.requestId, m.srcStealth, m.dstStealth, m.ttl, m.timestampMs, m.responderId,
      m.responderStealth))
    fun _ => rfl

/-- The fields of a `PublicClientsReq`. -/
def publicClientsReq : Codec PublicClientsReq :=
  (u64.seq (Codec.text.seq (Codec.text.seq u8))).iso
    (fun (requestId, srcStealth, targetStealth, ttl) =>
      { requestId, srcStealth, targetStealth, ttl })
    (fun m => (m.requestId, m.srcStealth, m.targetStealth, m.ttl))
    fun _ => rfl

/-- The fields of a `PublicClientsResp`, the list of clients last. -/
def publicClientsResp : Codec PublicClientsResp :=
  (u64.seq (Codec.text.seq (Codec.text.seq (u8.seq (Codec.text.seq
    (Codec.list publicClientEntry)))))).iso
    (fun (requestId, srcStealth, dstStealth, ttl, gatewayStealth, clients) =>
      { requestId, srcStealth, dstStealth, ttl, gatewayStealth, clients })
    (fun m => (m.requestId, m.srcStealth, m.dstStealth, m.ttl, m.gatewayStealth, m.clients))
    fun _ => rfl

/-- A code and a text. -/
def errorMsg : Codec ErrorMsg :=
  (u16.seq Codec.text).iso (fun (code, message) => { code, message })
    (fun m => (m.code, m.message)) fun _ => rfl

/-! ## §3. Messages and frames. -/

/-- The rest of a variant, once its tag is read. -/
def readVariant (bs : Bytes) : Nat → Option (Message × Bytes)
  | 0 => (keepaliveMsg.read bs).map fun (m, bs) => (.keepalive m, bs)
  | 1 => (bootstrapReq.read bs).map fun (m, bs) => (.bootstrapReq m, bs)
  | 2 => (bootstrapResp.read bs).map fun (m, bs) => (.bootstrapResp m, bs)
  | 3 => (clientRegister.read bs).map fun (m, bs) => (.clientRegister m, bs)
  | 4 => (clientRegisterAck.read bs).map fun (m, bs) => (.clientRegisterAck m, bs)
  | 5 => (dataMsg.read bs).map fun (m, bs) => (.data m, bs)
  | 6 => (pingReq.read bs).map fun (m, bs) => (.pingReq m, bs)
  | 7 => (pingResp.read bs).map fun (m, bs) => (.pingResp m, bs)
  | 8 => (publicClientsReq.read bs).map fun (m, bs) => (.publicClientsReq m, bs)
  | 9 => (publicClientsResp.read bs).map fun (m, bs) => (.publicClientsResp m, bs)
  | 10 => (errorMsg.read bs).map fun (m, bs) => (.error m, bs)
  | _ => none

/-- A message starts with the number of its variant. -/
def message : Codec Message where
  write
    | .keepalive m => u32.write 0 ++ keepaliveMsg.write m
    | .bootstrapReq m => u32.write 1 ++ bootstrapReq.write m
    | .bootstrapResp m => u32.write 2 ++ bootstrapResp.write m
    | .clientRegister m => u32.write 3 ++ clientRegister.write m
    | .clientRegisterAck m => u32.write 4 ++ clientRegisterAck.write m
    | .data m => u32.write 5 ++ dataMsg.write m
    | .pingReq m => u32.write 6 ++ pingReq.write m
    | .pingResp m => u32.write 7 ++ pingResp.write m
    | .publicClientsReq m => u32.write 8 ++ publicClientsReq.write m
    | .publicClientsResp m => u32.write 9 ++ publicClientsResp.write m
    | .error m => u32.write 10 ++ errorMsg.write m
  read bs := (u32.read bs).bind fun (tag, bs) => readVariant bs tag.toNat
  read_write m rest := by
    cases m <;>
    · simp only [List.append_assoc, Codec.read_write, Option.bind_some, UInt32.reduceToNat]
      simp [readVariant]

/-- The magic and the nonce are arrays, which have no length in front. -/
def outerFrame : Codec OuterFrame :=
  ((Codec.vector u8 4).seq (u8.seq (Codec.text.seq ((Codec.vector u8 12).seq
    (Codec.list u8))))).iso
    (fun (magic, version, senderId, nonce, ciphertext) =>
      { magic, version, senderId, nonce, ciphertext })
    (fun f => (f.magic, f.version, f.senderId, f.nonce, f.ciphertext))
    fun _ => rfl

end Bincode

end StealthNet
