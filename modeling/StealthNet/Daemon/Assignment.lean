/-
  StealthNet.Daemon.Assignment
  ────────────────────────────
  WHAT A GRANTED OVERLAY ADDRESS DOES TO A CONFIGURATION.

  The overlay address a client asks for comes back as it was, and where the
  client owned no prefix it becomes one.  It is read as an address for the TUN
  and as a prefix for the routing table; a text without a prefix length is
  the one and not the other, and then the daemon does not start although its
  bootstrap succeeded.

    • `performClientBootstrap_usable_iff` — which requests leave a client with
                                            a routing section it can use;
    • `GatewayDaemon.new_of_not_prefix`   — what becomes of the others.

  §1  request and response;
  §2  the routing section afterwards;
  §3  usable configurations.
-/
import StealthNet.Daemon.Grants
import StealthNet.Daemon.Deciding
import StealthNet.Lookup

namespace StealthNet

open Lib (HashMap)

section

variable {C : Crates} {env : Env} {config : Config} {peersById : HashMap String PeerRuntime}
  {received : List Bytes} {req : BootstrapReq} {resp : BootstrapResp}

/-! ## §1. Request and response. -/

/-- A bootstrap request among the calls of `send_direct`. -/
def SendCall.bootstrapReq? (call : SendCall C) : Option BootstrapReq :=
  match call.msg with
  | .bootstrapReq req => some req
  | _ => none

/-- The request of a bootstrap, with the response it accepts. -/
def exchange (C : Crates) (env : Env) (config : Config) (peersById : HashMap String PeerRuntime)
    (received : List Bytes) : Option (BootstrapReq × BootstrapResp) :=
  match startBootstrap C env config peersById with
  | (.error _, _) => none
  | (.ok requestId, effects) =>
      match receiveBootstrapResponse C config peersById requestId received with
      | .error _ => none
      | .ok resp =>
          ((sendCalls effects).findSome? SendCall.bootstrapReq?).map fun req => (req, resp)

/-- A response grants what was requested. -/
structure Echoes (req : BootstrapReq) (resp : BootstrapResp) : Prop where
  ok : resp.ok = true
  stealth : resp.assignedStealth = req.requestedStealth
  overlayIp : resp.assignedOverlayIp = req.requestedOverlayIp

instance decidableEchoes (req : BootstrapReq) (resp : BootstrapResp) :
    Decidable (Echoes req resp) :=
  decidable_of_iff (resp.ok = true ∧ resp.assignedStealth = req.requestedStealth ∧
      resp.assignedOverlayIp = req.requestedOverlayIp)
    ⟨fun h => ⟨h.1, h.2.1, h.2.2⟩, fun h => ⟨h.ok, h.stealth, h.overlayIp⟩⟩

/-- So does every answer of a gateway. -/
theorem handleDatagram_echoes {sh : Shared} {t : Tables} {packet : Bytes} {peer : PeerRuntime}
    {call : SendCall C}
    (hopen : openDatagram C sh.peersById packet = .ok (peer, .bootstrapReq req))
    (hcall : Effect.encrypted call ∈ (handleDatagram C sh env t packet).effects) :
    ∃ resp, call.msg = .bootstrapResp resp ∧ Echoes req resp :=
  ⟨grant sh req, handleBootstrapReq_grants hopen hcall, rfl, rfl, rfl⟩

/-- The request that is sent asks for the overlay address of the configuration. -/
theorem startBootstrap_requests {call : SendCall C}
    (hcall : Effect.encrypted call ∈ (startBootstrap C env config peersById).2)
    (hreq : call.bootstrapReq? = some req) :
    req.requestedOverlayIp = requestedOverlayIp config := by
  obtain ⟨result, hspec⟩ := startBootstrap_asks (C := C) env config peersById
  obtain ⟨clientCfg, home, req', -, -, hrequested, hto⟩ := hspec.of_encrypted hcall
  unfold SendCall.bootstrapReq? at hreq
  rw [hto.msg] at hreq
  obtain rfl := Option.some.inj hreq
  exact hrequested

theorem exchange_eq_some (h : exchange C env config peersById received = some (req, resp)) :
    req.requestedOverlayIp = requestedOverlayIp config ∧
      performClientBootstrap C env config peersById received
        = ⟨(concludeBootstrap config resp).1, (concludeBootstrap config resp).2,
            (startBootstrap C env config peersById).2⟩ := by
  unfold exchange at h
  unfold performClientBootstrap
  rcases hstart : startBootstrap C env config peersById with ⟨started, effects⟩
  rw [hstart] at h
  cases started with
  | error e => cases h
  | ok requestId =>
      dsimp only at h ⊢
      cases hreceive : receiveBootstrapResponse C config peersById requestId received with
      | error e =>
          rw [hreceive] at h
          cases h
      | ok resp' =>
          rw [hreceive] at h
          obtain ⟨req', hreq, heq⟩ := Option.map_eq_some_iff.mp h
          obtain ⟨rfl, rfl⟩ := Prod.mk.inj heq
          obtain ⟨call, hcall, hcallreq⟩ := List.exists_of_findSome?_eq_some hreq
          have hsent : Effect.encrypted call ∈ (startBootstrap C env config peersById).2 := by
            rw [hstart]
            exact mem_sendCalls.mp hcall
          exact ⟨startBootstrap_requests hsent hcallreq, rfl⟩

/-- A granted request is taken over, with the address that was requested. -/
theorem performClientBootstrap_of_echo
    (hexchange : exchange C env config peersById received = some (req, resp))
    (hechoes : Echoes req resp) :
    resp.assignedOverlayIp = requestedOverlayIp config ∧
      (performClientBootstrap C env config peersById received).result = .ok () ∧
      (performClientBootstrap C env config peersById received).config
        = adoptAssignment config resp := by
  obtain ⟨hrequested, houtcome⟩ := exchange_eq_some hexchange
  rw [houtcome]
  unfold concludeBootstrap
  rw [if_pos hechoes.ok]
  exact ⟨hechoes.overlayIp.trans hrequested, rfl, rfl⟩

/-! ## §2. The routing section afterwards. -/

/-- The address that is assigned becomes the one owned prefix, if there was none. -/
def RoutingConfig.own (cfg : RoutingConfig) : Option String → RoutingConfig
  | none => cfg
  | some assigned =>
      if cfg.ownedPrefixes = [] then { cfg with ownedPrefixes := [assigned] } else cfg

theorem RoutingConfig.own_of_empty {cfg : RoutingConfig} (h : cfg.ownedPrefixes = [])
    (assigned : String) : cfg.own (some assigned) = { cfg with ownedPrefixes := [assigned] } := by
  unfold RoutingConfig.own
  exact if_pos h

theorem RoutingConfig.own_of_ne {cfg : RoutingConfig} (h : cfg.ownedPrefixes ≠ [])
    (assigned : Option String) : cfg.own assigned = cfg := by
  unfold RoutingConfig.own
  cases assigned with
  | none => rfl
  | some assigned => exact if_neg h

theorem adoptAssignment_routing (config : Config) (resp : BootstrapResp) :
    (adoptAssignment config resp).routing = config.routing.own resp.assignedOverlayIp := by
  unfold adoptAssignment RoutingConfig.own
  cases resp.assignedOverlayIp with
  | none => rfl
  | some assigned =>
      cases config.tun with
      | none =>
          dsimp only
          split <;> rfl
      | some tun =>
          dsimp only
          split <;> split <;> rfl

theorem parseOwnedPrefix_eq_ok {s : String} {net : IpNet} :
    parseOwnedPrefix C s = .ok net ↔ C.parseIpNet s = some net := by
  unfold parseOwnedPrefix
  cases C.parseIpNet s with
  | none => simp
  | some net' => simp

/-- A single owned prefix is accepted if it is the text of one. -/
theorem fromConfig_single_iff {cfg : RoutingConfig} {table table' : RoutingTable}
    (h : RoutingTable.fromConfig C cfg = .ok table) (s : String) :
    RoutingTable.fromConfig C { cfg with ownedPrefixes := [s] } = .ok table' ↔
      ∃ net, C.parseIpNet s = some net ∧ table' = { table with ownedPrefixes := [net] } := by
  obtain ⟨hall, owned, -, rfl⟩ := fromConfig_eq_ok_iff.mp h
  rw [fromConfig_eq_ok_iff]
  constructor
  · rintro ⟨-, owned', howned, rfl⟩
    rw [Lib.Except.mapM_eq_ok_iff, List.forall₂_cons_left_iff] at howned
    obtain ⟨net, rest, hnet, hrest, rfl⟩ := howned
    obtain rfl := List.forall₂_nil_left_iff.mp hrest
    exact ⟨net, parseOwnedPrefix_eq_ok.mp hnet, rfl⟩
  · rintro ⟨net, hnet, rfl⟩
    refine ⟨hall, [net], ?_, rfl⟩
    rw [Lib.Except.mapM_eq_ok_iff]
    exact .cons (parseOwnedPrefix_eq_ok.mpr hnet) .nil

theorem fromConfig_single_error {cfg : RoutingConfig} {table : RoutingTable}
    (h : RoutingTable.fromConfig C cfg = .ok table) {s : String} (hs : C.parseIpNet s = none) :
    RoutingTable.fromConfig C { cfg with ownedPrefixes := [s] }
      = .error s!"invalid owned prefix {s}" := by
  unfold RoutingTable.fromConfig at h ⊢
  obtain ⟨routes, hroutes, -⟩ := Lib.Except.bind_eq_ok_iff.mp h
  have howned : [s].mapM (parseOwnedPrefix C) = .error s!"invalid owned prefix {s}" := by
    rw [List.mapM_cons]
    unfold parseOwnedPrefix
    rw [hs]
    rfl
  rw [hroutes, howned]
  rfl

/-! ## §3. Usable configurations. -/

/-- The address a text denotes, written with a prefix length or without one. -/
def overlayAddress (C : Crates) (s : String) : Option IpAddr :=
  ((C.parseIpNet s).map IpNet.addr).or (IpAddr.fromStr s)

/-- A routing section can be used after `cfg`: it is accepted, and where `cfg`
owned no prefix, its table owns the address that was assigned. -/
def Usable (C : Crates) (cfg cfg' : RoutingConfig) (assigned : Option String) : Prop :=
  ∃ table, RoutingTable.fromConfig C cfg' = .ok table ∧
    (cfg.ownedPrefixes = [] → ∀ s a, assigned = some s → overlayAddress C s = some a →
      table.ownsIp a = true)

/-- The address in the text of a prefix is owned by this prefix. -/
theorem ownsIp_single {table : RoutingTable} {s : String} {net : IpNet} {a : IpAddr}
    (hnet : C.parseIpNet s = some net) (ha : overlayAddress C s = some a) :
    ({ table with ownedPrefixes := [net] } : RoutingTable).ownsIp a = true := by
  unfold overlayAddress at ha
  rw [hnet] at ha
  obtain rfl := Option.some.inj ha
  unfold RoutingTable.ownsIp
  simp [net.contains_addr]

/-- An accepted section stays usable exactly if it takes over no text but that
of a prefix. -/
theorem own_usable_iff {cfg : RoutingConfig} {table : RoutingTable}
    (hrouting : RoutingTable.fromConfig C cfg = .ok table) (assigned : Option String) :
    Usable C cfg (cfg.own assigned) assigned ↔
      (cfg.ownedPrefixes = [] → ∀ s, assigned = some s → ∃ net, C.parseIpNet s = some net) := by
  unfold Usable
  by_cases hempty : cfg.ownedPrefixes = []
  · cases assigned with
    | none =>
        -- nothing is assigned, and nothing changes
        constructor
        · intro _ _ s h
          cases h
        · intro _
          refine ⟨table, hrouting, ?_⟩
          intro _ s a h
          cases h
    | some assigned =>
        rw [RoutingConfig.own_of_empty hempty]
        constructor
        · intro ⟨table', haccepted, _⟩ _ s h
          obtain rfl := Option.some.inj h
          obtain ⟨net, hnet, -⟩ := (fromConfig_single_iff hrouting _).mp haccepted
          exact ⟨net, hnet⟩
        · intro h
          obtain ⟨net, hnet⟩ := h hempty assigned rfl
          refine ⟨_, (fromConfig_single_iff hrouting assigned).mpr ⟨net, hnet, rfl⟩, ?_⟩
          intro _ s a hs ha
          obtain rfl := Option.some.inj hs
          exact ownsIp_single hnet ha
  · -- the owned prefixes of the configuration stay
    rw [RoutingConfig.own_of_ne hempty]
    constructor
    · intro _ h
      exact absurd h hempty
    · intro _
      refine ⟨table, hrouting, ?_⟩
      intro h
      exact absurd h hempty

/-- A bootstrap that succeeds leaves a routing section that can be used. -/
def KeepsUsable (C : Crates) (config : Config) (resp : BootstrapResp)
    (outcome : BootstrapOutcome C) : Prop :=
  outcome.result = .ok () →
    Usable C config.routing outcome.config.routing resp.assignedOverlayIp

/-- A configuration without owned prefixes asks for no overlay address, or for
one with its prefix length. -/
def RequestsPrefix (C : Crates) (config : Config) : Prop :=
  config.routing.ownedPrefixes = [] →
    ∀ s, requestedOverlayIp config = some s → ∃ net, C.parseIpNet s = some net

/-- A client whose request is granted as it was keeps a usable configuration
exactly if it asked for a prefix where it owned none. -/
theorem performClientBootstrap_usable_iff {table : RoutingTable}
    (hrouting : RoutingTable.fromConfig C config.routing = .ok table)
    (hexchange : exchange C env config peersById received = some (req, resp))
    (hechoes : Echoes req resp) :
    KeepsUsable C config resp (performClientBootstrap C env config peersById received) ↔
      RequestsPrefix C config := by
  obtain ⟨hassigned, hok, hconfig⟩ := performClientBootstrap_of_echo hexchange hechoes
  have hiff := own_usable_iff hrouting (requestedOverlayIp config)
  unfold KeepsUsable RequestsPrefix
  rw [hconfig, adoptAssignment_routing, hassigned, ← hiff]
  constructor
  · intro h
    exact h hok
  · intro h _
    exact h

/-- A client that asked for anything else does not start, although its
bootstrap succeeded. -/
theorem GatewayDaemon.new_of_not_prefix {identity : Identity} {peers : PeerTables}
    {table : RoutingTable} (hpeers : peerTables C identity config = .ok peers)
    (hclient : roleIsClient config = true)
    (hrouting : RoutingTable.fromConfig C config.routing = .ok table)
    (hexchange : exchange C env config peers.byId received = some (req, resp))
    (hechoes : Echoes req resp) (hnot : ¬ RequestsPrefix C config) :
    (performClientBootstrap C env config peers.byId received).result = .ok () ∧
      ∃ s, requestedOverlayIp config = some s ∧
        GatewayDaemon.new C env identity config received
          = .error s!"invalid owned prefix {s}" := by
  obtain ⟨hassigned, hok, hconfig⟩ := performClientBootstrap_of_echo hexchange hechoes
  obtain ⟨hempty, s, hs, hnone⟩ : config.routing.ownedPrefixes = [] ∧
      ∃ s, requestedOverlayIp config = some s ∧ C.parseIpNet s = none := by
    unfold RequestsPrefix at hnot
    simpa [Option.eq_none_iff_forall_ne_some] using hnot
  refine ⟨hok, s, hs, ?_⟩
  have hreject : RoutingTable.fromConfig C (adoptAssignment config resp).routing
      = .error s!"invalid owned prefix {s}" := by
    rw [adoptAssignment_routing, hassigned, hs, RoutingConfig.own_of_empty hempty]
    exact fromConfig_single_error hrouting hnone
  unfold GatewayDaemon.new
  rw [hpeers]
  simp only [bind, Except.bind, if_pos hclient, hok, hconfig, Except.map]
  unfold buildShared
  rw [hreject]
  rfl

end

namespace Line

/-- The first node as a client that owns no prefix and asks for an overlay
address. -/
def overlayClient (overlayIp : String) : Config :=
  { client 1 with
    routing := { (config 0).routing with ownedPrefixes := [] }
    client := (client 1).client.map fun clientCfg =>
      { clientCfg with requestedOverlayIp := some overlayIp } }

/-- What the middle node sends back to the request of a client. -/
def answers (clientConfig : Config) (tables : PeerTables) : List Bytes :=
  match GatewayDaemon.new Crates.ideal (Env.at 0) (identity 1) (config 1) [] with
  | .error _ => []
  | .ok sh =>
      (datagrams (startBootstrap Crates.ideal (Env.at 1) clientConfig tables.byId).2).flatMap
        fun request =>
          (datagrams (handleDatagram Crates.ideal sh (Env.at 2) .init request.bytes).effects).map
            Datagram.bytes

/-- An address with and without its prefix length: the middle node grants both
requests. Evaluated at once. -/
theorem answers_computed :
    ["10.50.0.2/32", "10.50.0.2"].all (fun overlayIp =>
      (RoutingTable.fromConfig Crates.ideal (overlayClient overlayIp).routing).toOption.isSome &&
      (peerTables Crates.ideal (identity 0) (overlayClient overlayIp)).toOption.any fun tables =>
        (exchange Crates.ideal (Env.at 1) (overlayClient overlayIp) tables.byId
          (answers (overlayClient overlayIp) tables)).any fun x =>
            decide (Echoes x.1 x.2)) = true := by
  decide +kernel

theorem overlayClient_answered (overlayIp : String)
    (h : overlayIp ∈ ["10.50.0.2/32", "10.50.0.2"]) :
    ∃ tables table req resp,
      peerTables Crates.ideal (identity 0) (overlayClient overlayIp) = .ok tables ∧
      RoutingTable.fromConfig Crates.ideal (overlayClient overlayIp).routing = .ok table ∧
      exchange Crates.ideal (Env.at 1) (overlayClient overlayIp) tables.byId
        (answers (overlayClient overlayIp) tables) = some (req, resp) ∧ Echoes req resp := by
  have hcheck := List.all_eq_true.mp answers_computed overlayIp h
  obtain ⟨hrouting, hcheck⟩ := Bool.and_eq_true_iff.mp hcheck
  obtain ⟨table, hrouting⟩ := Option.isSome_iff_exists.mp hrouting
  obtain ⟨tables, htables, hcheck⟩ := (Option.any_eq_true _ _).mp hcheck
  obtain ⟨⟨req, resp⟩, hexchange, hechoes⟩ := (Option.any_eq_true _ _).mp hcheck
  exact ⟨tables, table, req, resp, Lib.Except.toOption_eq_some_iff.mp htables,
    Lib.Except.toOption_eq_some_iff.mp hrouting, hexchange, of_decide_eq_true hechoes⟩

theorem not_requestsPrefix_bare : ¬ RequestsPrefix Crates.ideal (overlayClient "10.50.0.2") := by
  intro h
  obtain ⟨net, hnet⟩ := h rfl "10.50.0.2" rfl
  have hnone : Crates.ideal.parseIpNet "10.50.0.2" = none := by
    decide +kernel
  rw [hnone] at hnet
  cases hnet

/-- The client that asks without the prefix length is granted the address, and
does not start. -/
theorem bare_address_unusable : ∃ tables table received req resp,
    peerTables Crates.ideal (identity 0) (overlayClient "10.50.0.2") = .ok tables ∧
    RoutingTable.fromConfig Crates.ideal (overlayClient "10.50.0.2").routing = .ok table ∧
    exchange Crates.ideal (Env.at 1) (overlayClient "10.50.0.2") tables.byId received
      = some (req, resp) ∧
    Echoes req resp ∧
    ¬ KeepsUsable Crates.ideal (overlayClient "10.50.0.2") resp
      (performClientBootstrap Crates.ideal (Env.at 1) (overlayClient "10.50.0.2") tables.byId
        received) ∧
    GatewayDaemon.new Crates.ideal (Env.at 1) (identity 0) (overlayClient "10.50.0.2") received
      = .error "invalid owned prefix 10.50.0.2" := by
  obtain ⟨tables, table, req, resp, htables, hrouting, hexchange, hechoes⟩ :=
    overlayClient_answered "10.50.0.2" (by decide)
  obtain ⟨hok, s, hs, hnew⟩ := GatewayDaemon.new_of_not_prefix htables (by decide) hrouting
    hexchange hechoes not_requestsPrefix_bare
  obtain rfl := Option.some.inj (hs.symm.trans (rfl : _ = some "10.50.0.2"))
  refine ⟨tables, table, _, req, resp, htables, hrouting, hexchange, hechoes, ?_, hnew⟩
  intro hkeeps
  obtain ⟨hassigned, -, hconfig⟩ := performClientBootstrap_of_echo hexchange hechoes
  have husable := hkeeps hok
  rw [hconfig, adoptAssignment_routing, hassigned, own_usable_iff hrouting] at husable
  exact not_requestsPrefix_bare husable

/-- With the prefix length it starts, and owns the address. -/
theorem prefix_usable : ∃ tables received req resp,
    peerTables Crates.ideal (identity 0) (overlayClient "10.50.0.2/32") = .ok tables ∧
    exchange Crates.ideal (Env.at 1) (overlayClient "10.50.0.2/32") tables.byId received
      = some (req, resp) ∧
    KeepsUsable Crates.ideal (overlayClient "10.50.0.2/32") resp
      (performClientBootstrap Crates.ideal (Env.at 1) (overlayClient "10.50.0.2/32") tables.byId
        received) := by
  obtain ⟨tables, table, req, resp, htables, hrouting, hexchange, hechoes⟩ :=
    overlayClient_answered "10.50.0.2/32" (by decide)
  refine ⟨tables, _, req, resp, htables, hexchange,
    (performClientBootstrap_usable_iff hrouting hexchange hechoes).mpr ?_⟩
  intro _ s hs
  obtain rfl := Option.some.inj ((rfl : some "10.50.0.2/32" = _).trans hs)
  exact Option.isSome_iff_exists.mp (by decide +kernel)

end Line

end StealthNet
