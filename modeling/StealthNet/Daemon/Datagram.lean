/-
  StealthNet.Daemon.Datagram
  ──────────────────────────
  RECEIVING (`handle_datagram`).

  `openDatagram` is the part up to the match on the message: frame, magic,
  version, sender, decryption, message.  Each arm of the match is a function
  of its own; the six relay branches share `relay`, which subtracts one from
  the ttl (a checked subtraction) and hands the rebuilt message on.

  An arm returns its verdict, the tables after the call, and its effects.
  Errors keep what the arm did to the tables before it failed.
-/
import StealthNet.Daemon.Send
import StealthNet.Ip

namespace StealthNet

open Lib (HashMap)

/-- How a call can fail: with an error, known by its text, or with the panic
of a checked subtraction. -/
inductive Fault
  | err (message : String)
  | overflow
  deriving DecidableEq

/-! ## §1. Opening a datagram. -/

/-- The checks in their order; the first that fails names the error. -/
def openDatagram (C : Crates) (peersById : HashMap String PeerRuntime) (packet : Bytes) :
    Except String (PeerRuntime × Message) :=
  match C.deserializeFrame packet with
  | none => .error "invalid outer frame"
  | some frame =>
      if frame.magic ≠ MAGIC then .error "bad magic"
      else if frame.version ≠ VERSION then .error s!"unsupported version {frame.version}"
      else
        match peersById.lookup frame.senderId with
        | none => .error s!"unknown sender {frame.senderId}"
        | some peer =>
            match decrypt C peer.key frame.nonce (asBytes frame.senderId) frame.ciphertext with
            | .error e => .error e
            | .ok plaintext =>
                match C.deserializeMessage plaintext with
                | .error _ => .error "invalid protocol message"
                | .ok msg => .ok (peer, msg)

/-! ## §2. Outcomes. -/

/-- A verdict, the tables after the call, and its effects. -/
structure Outcome (C : Crates) where
  result : Except Fault Unit
  tables : Tables
  effects : List (Effect C)

namespace Outcome

variable {C : Crates}

/-- Nothing more to do. -/
def done (t : Tables) : Outcome C := ⟨.ok (), t, []⟩

/-- End with an error. -/
def fail (t : Tables) (e : String) : Outcome C := ⟨.error (.err e), t, []⟩

/-- End with a send. -/
def ofSent (t : Tables) (r : Sent C) : Outcome C :=
  ⟨match r.result with
    | .ok () => .ok ()
    | .error e => .error (.err e), t, r.effects⟩

end Outcome

/-- `ttl -= 1` with overflow checks. -/
def decrementTtl (ttl : UInt8) : Except Fault UInt8 :=
  if ttl = 0 then .error .overflow else .ok (ttl - 1)

section

variable (C : Crates) (sh : Shared) (env : Env) (t : Tables)

/-- What the relay branches do: subtract one from the ttl, rebuild the
message, forward it. -/
def relay (ttl : UInt8) (target : String) (rebuild : UInt8 → Message) : Outcome C :=
  match decrementTtl ttl with
  | .error e => ⟨.error e, t, []⟩
  | .ok ttl => .ofSent t (forwardByStealth C sh env target (rebuild ttl))

/-! ## §3. The arms of the match. -/

/-- The answer to a bootstrap request: it assigns what was asked for. -/
def grant (req : BootstrapReq) : BootstrapResp :=
  { requestId := req.requestId
    assignedStealth := req.requestedStealth
    assignedOverlayIp := req.requestedOverlayIp
    homeGatewayStealth := sh.localStealth
    mtu := sh.config.transport.mtu
    ok := true
    message := "ok" }

/-- Only a gateway answers, and only what is addressed to it. -/
def handleBootstrapReq (peer : PeerRuntime) (req : BootstrapReq) : Outcome C :=
  if roleIsGateway sh.config ∧ req.targetGatewayStealth = sh.localStealth then
    .ofSent t (sendToPeer C sh env peer.cfg.id (.bootstrapResp (grant sh req)))
  else .done t

/-- Enter a client under its stealth; a later entry overwrites. -/
def Tables.register (reg : ClientRegister) : Tables :=
  { t with registeredClients := t.registeredClients.insert reg.client.clientStealth reg.client }

/-- The answer to a registration, addressed to where it says it comes from. -/
def registerAck (reg : ClientRegister) : ClientRegisterAck :=
  { requestId := reg.requestId
    srcStealth := sh.localStealth
    dstStealth := reg.srcStealth
    ttl := 16
    ok := true
    message := "registered" }

/-- The registration is kept whatever becomes of the acknowledgement. -/
def handleClientRegister (reg : ClientRegister) : Outcome C :=
  if reg.ttl = 0 then .done t
  -- for this gateway, by the message's own word; who sent it is not looked at
  else if reg.targetGatewayStealth = sh.localStealth then
    .ofSent (t.register reg)
      (forwardByStealth C sh env reg.srcStealth (.clientRegisterAck (registerAck sh reg)))
  else
    relay C sh env t reg.ttl reg.targetGatewayStealth fun ttl =>
      .clientRegister { reg with ttl }

/-- Delivery to the TUN is tested before the ttl. -/
def handleData (data : DataMsg) : Outcome C :=
  match packetDestination data.innerPacket with
  | none => .fail t "failed to parse inner packet destination"
  | some innerDst =>
      let isForThisGateway := data.dstStealth == sh.localStealth
      let isForLocalPrefix := sh.routing.ownsIp innerDst
      if isForThisGateway || isForLocalPrefix then
        match sh.tun with
        | none => .fail t "TUN is not initialized"
        -- a thread of its own writes the packet; a failed write is only logged
        | some _ => ⟨.ok (), t, [.tunWrite data.innerPacket]⟩
      -- not `0 <` as in the other arms
      else if 1 < data.ttl then
        relay C sh env t data.ttl data.dstStealth fun ttl => .data { data with ttl }
      else .done t

/-- The answer to a ping, with who the node is. -/
def pingResponse (ping : PingReq) : PingResp :=
  { requestId := ping.requestId
    srcStealth := sh.localStealth
    dstStealth := ping.srcStealth
    ttl := 16
    timestampMs := ping.timestampMs
    responderId := sh.config.node.id
    responderStealth := sh.localStealth }

/-- Answer a ping for this node, relay any other. -/
def handlePingReq (ping : PingReq) : Outcome C :=
  if ping.ttl = 0 then .done t
  else if ping.targetStealth = sh.localStealth then
    .ofSent t (forwardByStealth C sh env ping.srcStealth (.pingResp (pingResponse sh ping)))
  else
    relay C sh env t ping.ttl ping.targetStealth fun ttl => .pingReq { ping with ttl }

/-- `saturating_sub` on `u128`. -/
def saturatingSub (a b : BitVec 128) : BitVec 128 := if a < b then 0 else a - b

/-- What the admin thread gets of a response, with the time since the request. -/
def pingResult (pong : PingResp) : PingResult :=
  { target := pong.srcStealth
    ok := true
    rttMs := some (saturatingSub env.nowMs pong.timestampMs)
    responderStealth := some pong.responderStealth
    responderId := some pong.responderId
    error := none }

/-- Take the sender of a pending request out of its table and answer it. -/
def answerPending (κ : RequestKind) (requestId : UInt64) (payload : Payload κ) : Outcome C :=
  let pending := t.pending κ
  -- the entry is gone even if the channel is closed by now
  let t := t.setPending κ (pending.erase requestId)
  match pending.lookup requestId with
  | none => .done t
  | some tx => ⟨.ok (), t, [.reply κ tx payload]⟩

/-- Hand a response for this node to the thread that waits, relay any other. -/
def handlePingResp (pong : PingResp) : Outcome C :=
  if pong.ttl = 0 then .done t
  else if pong.dstStealth = sh.localStealth then
    answerPending C t .ping pong.requestId (pingResult env pong)
  else
    relay C sh env t pong.ttl pong.dstStealth fun ttl => .pingResp { pong with ttl }

/-- The configured entries followed by the registered ones, in map order. -/
def publishedClients : List PublicClientEntry :=
  let configured := match sh.config.publicClients with
    | some pc => if pc.enabled then pc.entries else []
    | none => []
  -- `enabled` is tested for the configured entries only
  configured ++ env.valuesOrder t.registeredClients.values

/-- The answer to a request for clients. -/
def clientsResponse (req : PublicClientsReq) : PublicClientsResp :=
  { requestId := req.requestId
    srcStealth := sh.localStealth
    dstStealth := req.srcStealth
    ttl := 16
    gatewayStealth := sh.localStealth
    clients := publishedClients sh env t }

/-- Answer a request for this node, relay any other. -/
def handlePublicClientsReq (req : PublicClientsReq) : Outcome C :=
  if req.ttl = 0 then .done t
  else if req.targetStealth = sh.localStealth then
    .ofSent t (forwardByStealth C sh env req.srcStealth
      (.publicClientsResp (clientsResponse sh env t req)))
  else
    relay C sh env t req.ttl req.targetStealth fun ttl => .publicClientsReq { req with ttl }

/-- As for a ping; the payload is the stealth and the list of the gateway. -/
def handlePublicClientsResp (resp : PublicClientsResp) : Outcome C :=
  if resp.ttl = 0 then .done t
  else if resp.dstStealth = sh.localStealth then
    answerPending C t .clients resp.requestId (resp.gatewayStealth, resp.clients)
  else
    relay C sh env t resp.ttl resp.dstStealth fun ttl => .publicClientsResp { resp with ttl }

/-! ## §4. The handler. -/

/-- The match on the message. -/
def dispatch (peer : PeerRuntime) : Message → Outcome C
  | .keepalive _ => .done t
  | .bootstrapReq req => handleBootstrapReq C sh env t peer req
  -- only the start-up waits for one
  | .bootstrapResp _ => .done t
  | .clientRegister reg => handleClientRegister C sh env t reg
  -- logged, whomever it is for
  | .clientRegisterAck _ => .done t
  | .data data => handleData C sh env t data
  | .pingReq ping => handlePingReq C sh env t ping
  | .pingResp pong => handlePingResp C sh env t pong
  | .publicClientsReq req => handlePublicClientsReq C sh env t req
  | .publicClientsResp resp => handlePublicClientsResp C sh env t resp
  | .error _ => .done t

/-- Open a datagram and handle its message. -/
def handleDatagram (packet : Bytes) : Outcome C :=
  match openDatagram C sh.peersById packet with
  | .error e => .fail t e
  | .ok (peer, msg) => dispatch C sh env t peer msg

/-- `handle_local_packet`: encapsulate a packet read from the TUN. -/
def handleLocalPacket (packet : Bytes) : Sent C :=
  match packetDestination packet with
  | none => .fail "could not parse packet destination"
  | some dstIp =>
      -- dropped without an error
      if dstIp.isMulticast then ⟨.ok (), []⟩
      else
        match sh.routing.lookup dstIp with
        | none => .fail s!"no route for {dstIp}"
        | some route =>
            forwardByStealth C sh env route.stealth (.data
              { srcStealth := sh.localStealth
                dstStealth := route.stealth
                ttl := 16
                innerPacket := packet })

end

end StealthNet
