/-
  StealthNet.Daemon.Bootstrap
  ───────────────────────────
  START-UP (`GatewayDaemon::new`, `perform_client_bootstrap`).

  A client asks its home gateway for a stealth address before it starts: one
  request out, then every received datagram goes through
  `decodeBootstrapResponse` until one of them decides.  A stream of datagrams
  that ends undecided is a receive that timed out.

  §1  the request and the decoder;
  §2  the receive loop and what an accepted response changes;
  §3  `new`;
  §4  the request, and what `new` returns.
-/
import StealthNet.Daemon.Send
import StealthNet.Lib.Except

namespace StealthNet

open Lib (HashMap)

section

variable (C : Crates)

/-! ## §1. The request and the decoder. -/

/-- The request of a client, up to the first receive. A zero read timeout is
refused by the socket. -/
def startBootstrap (env : Env) (config : Config) (peersById : HashMap String PeerRuntime) :
    Except String UInt64 × List (Effect C) :=
  match config.client with
  | none => (.error "client role requires [client] config section", [])
  | some clientCfg =>
      match peersById.lookup clientCfg.homeGatewayId with
      | none => (.error s!"unknown home gateway {clientCfg.homeGatewayId}", [])
      | some homePeer =>
          -- the clock, truncated to 64 bits
          let requestId : UInt64 := ⟨env.nowMs.setWidth 64⟩
          let requestedStealth := clientCfg.requestedStealth.getD config.node.stealth
          let requestedOverlayIp :=
            clientCfg.requestedOverlayIp.or (config.tun.bind fun t => t.address)
          let sent := sendDirect C env config.node.id homePeer.addr homePeer.key
            (.bootstrapReq
              { requestId
                nodeId := config.node.id
                requestedStealth
                requestedOverlayIp
                capabilities := clientCfg.registerCapabilities
                targetGatewayStealth := homePeer.cfg.stealth })
          match sent.result with
          | .error e => (.error e, sent.effects)
          | .ok () =>
              if clientCfg.bootstrapTimeoutMs = 0 then
                (.error "cannot set a 0 duration timeout", sent.effects)
              else (.ok requestId, sent.effects)

/-- `none` ignores the datagram, an error ends the bootstrap. The configuration
is an argument the source does not use either. -/
def decodeBootstrapResponse (_config : Config) (peersById : HashMap String PeerRuntime)
    (packet : Bytes) (expectedRequestId : UInt64) : Except String (Option BootstrapResp) :=
  match C.deserializeFrame packet with
  | none => .ok none
  | some frame =>
      if frame.magic ≠ MAGIC ∨ frame.version ≠ VERSION then .ok none
      else
        match peersById.lookup frame.senderId with
        | none => .ok none
        | some peer =>
            match decrypt C peer.key frame.nonce (asBytes frame.senderId) frame.ciphertext with
            -- `?` here, where the cases above ignore the datagram
            | .error e => .error e
            | .ok plaintext =>
                match C.deserializeMessage plaintext with
                | .error e => .error e
                | .ok (.bootstrapResp resp) =>
                    -- neither the sender nor its role is compared with the home gateway
                    if resp.requestId = expectedRequestId then .ok (some resp) else .ok none
                | .ok (.error err) => .error s!"bootstrap error: {err.message}"
                | .ok _ => .ok none

/-! ## §2. The receive loop. -/

/-- Take datagrams until one decides. There is an end to them where the receive times
out. -/
def receiveBootstrapResponse (config : Config) (peersById : HashMap String PeerRuntime)
    (requestId : UInt64) : List Bytes → Except String BootstrapResp
  | [] => .error "bootstrap receive failed"
  | packet :: rest =>
      match decodeBootstrapResponse C config peersById packet requestId with
      | .error e => .error e
      | .ok (some resp) => .ok resp
      | .ok none => receiveBootstrapResponse config peersById requestId rest

/-- The configuration after an accepted response. -/
def adoptAssignment (config : Config) (resp : BootstrapResp) : Config :=
  let config := { config with node := { config.node with stealth := resp.assignedStealth } }
  match resp.assignedOverlayIp with
  | none => config
  | some assigned =>
      let config := match config.tun with
        | some tun =>
            -- only what the configuration leaves open is filled in
            if tun.address = none then
              { config with tun := some { tun with address := some assigned } }
            else config
        | none => config
      if config.routing.ownedPrefixes = [] then
        { config with routing := { config.routing with ownedPrefixes := [assigned] } }
      else config

theorem adoptAssignment_client (config : Config) (resp : BootstrapResp) :
    (adoptAssignment config resp).client = config.client := by
  unfold adoptAssignment
  cases resp.assignedOverlayIp with
  | none => rfl
  | some assigned =>
      cases config.tun with
      | none =>
          dsimp only
          split <;> rfl
      | some tun =>
          dsimp only
          split <;> split <;> rfl

/-- What the client does with the response it waited for. -/
def concludeBootstrap (config : Config) (resp : BootstrapResp) : Except String Unit × Config :=
  if resp.ok then (.ok (), adoptAssignment config resp)
  else (.error s!"bootstrap rejected: {resp.message}", config)

/-- The verdict, the configuration afterwards, and what was sent. -/
structure BootstrapOutcome where
  result : Except String Unit
  config : Config
  effects : List (Effect C)

/-- Ask the home gateway, wait, and adopt what it assigned. -/
def performClientBootstrap (env : Env) (config : Config)
    (peersById : HashMap String PeerRuntime) (received : List Bytes) : BootstrapOutcome C :=
  match startBootstrap C env config peersById with
  | (.error e, effects) => ⟨.error e, config, effects⟩
  | (.ok requestId, effects) =>
      match receiveBootstrapResponse C config peersById requestId received with
      | .error e => ⟨.error e, config, effects⟩
      | .ok resp =>
          let (result, config) := concludeBootstrap config resp
          ⟨result, config, effects⟩

/-! ## §3. Construction. -/

/-- The tail of `new`, once the configuration is final. -/
def buildShared (env : Env) (config : Config) (peers : PeerTables) : Except String Shared := do
  let routing ← RoutingTable.fromConfig C config.routing
  let tun ← match config.tun with
    | some tunCfg =>
        if tunCfg.enabled then env.tunCreated.map fun _ => some ⟨tunCfg.name⟩ else .ok none
    | none => .ok none
  return { config, routing, tun
           peersById := peers.byId
           peersByStealth := peers.byStealth
           localStealth := config.node.stealth }

/-- Link the peers, bootstrap where the node is a client, and build what is shared. -/
def GatewayDaemon.new (env : Env) (identity : Identity) (config : Config)
    (received : List Bytes) : Except String Shared := do
  let peers ← peerTables C identity config
  let config ←
    if roleIsClient config then
      let boot := performClientBootstrap C env config peers.byId received
      boot.result.map fun _ => boot.config
    else .ok config
  buildShared C env config peers

end

variable {C : Crates}

/-! ## §4. What they come to. -/

/-- The overlay address a client asks for: its own setting, or else the address
of its TUN. -/
def requestedOverlayIp (config : Config) : Option String :=
  config.client.bind fun clientCfg =>
    clientCfg.requestedOverlayIp.or (config.tun.bind fun t => t.address)

/-- A call that sends the request of a client to its home gateway. -/
def AsksHome (config : Config) (peersById : HashMap String PeerRuntime) (call : SendCall C) : Prop :=
  ∃ clientCfg home req, config.client = some clientCfg ∧
    peersById.lookup clientCfg.homeGatewayId = some home ∧
    req.requestedOverlayIp = requestedOverlayIp config ∧
    call.With config.node.id home.addr home.key (.bootstrapReq req)

/-- Whether it starts or not, a bootstrap makes this one call at most. -/
theorem startBootstrap_asks (env : Env) (config : Config)
    (peersById : HashMap String PeerRuntime) :
    ∃ result, Sent.Spec (AsksHome (C := C) config peersById)
      ⟨result, (startBootstrap C env config peersById).2⟩ := by
  unfold startBootstrap
  split
  · exact ⟨_, .failed ""⟩
  · rename_i clientCfg hclient
    split
    · exact ⟨_, .failed ""⟩
    · rename_i home hhome
      dsimp only
      generalize hr : sendDirect C env config.node.id home.addr home.key _ = r
      have hspec := hr ▸ sendDirect_spec env config.node.id home.addr home.key _
      obtain ⟨result, effects⟩ := r
      refine ⟨result, ?_⟩
      have hasks : Sent.Spec (AsksHome (C := C) config peersById) ⟨result, effects⟩ := by
        refine hspec.mono fun call hto => ⟨clientCfg, home, _, hclient, hhome, ?_, hto⟩
        unfold requestedOverlayIp
        rw [hclient]
        rfl
      cases result with
      | error e => exact hasks
      | ok _ =>
          -- a timeout of zero is refused behind the send
          dsimp only
          split <;> exact hasks

theorem concludeBootstrap_id {config config' : Config} {resp : BootstrapResp}
    {result : Except String Unit} (h : concludeBootstrap config resp = (result, config')) :
    config'.node.id = config.node.id := by
  unfold concludeBootstrap at h
  split at h
  · obtain ⟨-, rfl⟩ := Prod.mk.inj h
    unfold adoptAssignment
    dsimp only
    split
    · rfl
    · split <;> split <;> try split
      all_goals rfl
  · obtain ⟨-, rfl⟩ := Prod.mk.inj h
    rfl

theorem performClientBootstrap_id {env : Env} {config : Config}
    {peersById : HashMap String PeerRuntime} {received : List Bytes} :
    (performClientBootstrap C env config peersById received).config.node.id = config.node.id := by
  unfold performClientBootstrap
  split
  · rfl
  · split
    · rfl
    · rename_i resp _
      exact concludeBootstrap_id rfl

theorem buildShared_eq_ok {env : Env} {config : Config} {peers : PeerTables} {sh : Shared}
    (h : buildShared C env config peers = .ok sh) :
    sh.config = config ∧ sh.peersById = peers.byId ∧ sh.peersByStealth = peers.byStealth ∧
      sh.localStealth = config.node.stealth := by
  unfold buildShared at h
  cases hrouting : RoutingTable.fromConfig C config.routing with
  | error e => simp [hrouting, bind, Except.bind] at h
  | ok routing =>
      rw [hrouting] at h
      cases htun : config.tun with
      | none =>
          rw [htun] at h
          obtain rfl := Except.ok.inj h
          exact ⟨rfl, rfl, rfl, rfl⟩
      | some tunCfg =>
          rw [htun] at h
          by_cases henabled : tunCfg.enabled
          · cases hcreated : env.tunCreated with
            | error e => simp [henabled, hcreated, Except.map, bind, Except.bind] at h
            | ok _ =>
                simp only [henabled, hcreated, Except.map, if_true] at h
                obtain rfl := Except.ok.inj h
                exact ⟨rfl, rfl, rfl, rfl⟩
          · simp only [henabled] at h
            obtain rfl := Except.ok.inj h
            exact ⟨rfl, rfl, rfl, rfl⟩

/-- What `new` returns is built from the peer tables of its configuration, and
keeps the node id. -/
theorem GatewayDaemon.new_eq_ok {env : Env} {identity : Identity} {config : Config}
    {received : List Bytes} {sh : Shared}
    (h : GatewayDaemon.new C env identity config received = .ok sh) :
    ∃ peers config', peerTables C identity config = .ok peers ∧
      buildShared C env config' peers = .ok sh ∧ config'.node.id = config.node.id := by
  unfold GatewayDaemon.new at h
  obtain ⟨peers, hpeers, h⟩ := Lib.Except.bind_eq_ok_iff.mp h
  dsimp only at h
  split at h
  · obtain ⟨config', hboot, h⟩ := Lib.Except.bind_eq_ok_iff.mp h
    obtain ⟨_, -, rfl⟩ := Lib.Except.map_eq_ok_iff.mp hboot
    exact ⟨peers, _, hpeers, h, performClientBootstrap_id⟩
  · exact ⟨peers, config, hpeers, h, rfl⟩

theorem GatewayDaemon.new_peers {env : Env} {identity : Identity} {config : Config}
    {received : List Bytes} {sh : Shared}
    (h : GatewayDaemon.new C env identity config received = .ok sh) :
    ∃ tables, peerTables C identity config = .ok tables ∧ sh.peersById = tables.byId ∧
      sh.peersByStealth = tables.byStealth := by
  obtain ⟨tables, config', htables, hsh, -⟩ := GatewayDaemon.new_eq_ok h
  obtain ⟨-, hbyId, hbyStealth, -⟩ := buildShared_eq_ok hsh
  exact ⟨tables, htables, hbyId, hbyStealth⟩

theorem GatewayDaemon.new_nodeId {env : Env} {identity : Identity} {config : Config}
    {received : List Bytes} {sh : Shared}
    (h : GatewayDaemon.new C env identity config received = .ok sh) :
    sh.config.node.id = config.node.id := by
  obtain ⟨tables, config', -, hsh, hid⟩ := GatewayDaemon.new_eq_ok h
  obtain ⟨hconfig, -⟩ := buildShared_eq_ok hsh
  rw [hconfig, hid]

end StealthNet
