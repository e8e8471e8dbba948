/-
  StealthNet.Network.Startup
  ──────────────────────────
  A CLIENT GETS ITS ASSIGNMENT.

  `Net.Run.bootstrap_agreement` says what a client that runs was granted.  Here
  it comes to run: where nothing from outside reaches the client, and nothing
  that descends from its start is lost, a client whose home gateway runs already
  and lists it runs with what it asked for, unless its receive times out before
  (`Net.Run.bootstrap_completes`).

  A client gives up on the first datagram that names one of its peers and does
  not decrypt.  Nodes never send it one: what is addressed to a client is
  sealed with the key that the client has for the sender
  (`Net.Run.key_of_call`).

    §1  what arrives at a client;
    §2  what the client makes of it;
    §3  the request;
    §4  from the request to the assignment.
-/
import StealthNet.Network.Agreement

namespace StealthNet

open Lib (HashMap)

section

variable {C : Crates} {ι : Type} {net : Net ι} {tr : List (Label C ι)} {s s₁ s' : State C ι}
  {l : Label C ι} {c : ι}

/-! ## §1. What arrives. -/

/-- The configured address of a peer is the address of the node with its id. -/
def Addressed (net : Net ι) : Prop :=
  ∀ i, ∀ cfg ∈ (net.config i).peers, ∀ j addr, cfg.id = (net.config j).node.id →
    SocketAddr.fromStr cfg.addr = some addr → net.host addr = some j

/-- Nothing that comes from the nodes only is forged. -/
theorem Honest.replays (h : Honest tr) : ∀ seen, replays seen tr = true := by
  induction tr with
  | nil => intro seen; rfl
  | cons l tr ih =>
      intro seen
      have hl : l.replays seen = true := by
        cases l with
        | inject i packet env did => exact absurd rfl (h _ List.mem_cons_self i packet env did)
        | act | deliver | drop => rfl
      show (l.replays seen && StealthNet.replays _ tr) = true
      rw [hl, ih fun l hl => h l (List.mem_cons_of_mem _ hl)]
      rfl

variable [DecidableEq ι]

/-- What is in flight was encrypted in a call. -/
theorem Net.Run.flight_called (hrun : net.Run tr s) {f : Flight C} (hf : f ∈ s.inflight) :
    ∃ A, Called tr A f.datagram.call := by
  obtain ⟨l, hl, hsent⟩ := Net.Run.sent hrun hf
  obtain ⟨A, did, hdoes, hu⟩ := Label.exists_does hsent
  obtain ⟨pre, post, rfl⟩ := List.append_of_mem hl
  obtain ⟨s₁, s₂, -, hstep, -⟩ := hrun.split_cons
  exact ⟨A, l, hl, did, hdoes, hstep.encrypted_of_udpSend hdoes hu⟩

/-- A call to the address of a node is under the key that this node has for the
caller, if it has one. -/
theorem Net.Run.key_of_call (hk : C.KeyAgreement) (hpeers : HonestPeers C net)
    (haddr : Addressed net) (hrun : net.Run tr s) {A B : ι} {call : SendCall C}
    (hcall : Called tr A call) (hhost : net.host call.addr = some B) {peers : PeerTables}
    (hB : peerTables C (net.identity B) (net.config B) = .ok peers) {q : PeerRuntime}
    (hq : peers.byId.lookup call.senderId = some q) : q.key = call.key := by
  obtain ⟨peersA, id, p, hA, hp, hto⟩ := Net.Run.called hrun hcall
  obtain ⟨-, hpmem, hplink⟩ := peerTables_lookup hA hp
  obtain ⟨hqid, hqmem, hqlink⟩ := peerTables_lookup hB hq
  -- the callee is the node at the address, and the sender id is the caller's
  obtain ⟨D, -, hDid, hDpub⟩ := hpeers.peers A _ hpmem
  have hD := haddr A _ hpmem D p.addr hDid hplink.addr
  rw [← hto.addr, hhost] at hD
  obtain rfl := Option.some.inj hD
  obtain ⟨A', -, hAid, hApub⟩ := hpeers.peers B _ hqmem
  obtain rfl : A' = A := by
    apply hpeers.ids
    rw [← hAid, hqid, hto.senderId]
  rw [hto.key]
  refine hplink.key_eq hk.x25519_comm hqlink hDid hAid ?_ ?_
  · rw [hDpub, decodePublicKey_base64 hk]
  · rw [hApub, decodePublicKey_base64 hk]

/-- What is sent to a running node by a node that it lists opens there. -/
theorem Net.Run.opens (hb : C.BincodeRoundTrips) (ho : C.AeadCorrect) (hk : C.KeyAgreement)
    (hpeers : HonestPeers C net) (haddr : Addressed net) (hrun : net.Run tr s) {f : Flight C}
    (hf : f ∈ s.inflight) {B : ι} (hhost : net.host f.datagram.call.addr = some B) {shB : Shared}
    {rtB : Runtime} (hB : s.node B = .running shB rtB) {cfg : PeerConfig}
    (hcfg : cfg ∈ (net.config B).peers) (hid : cfg.id = f.datagram.call.senderId) :
    ∃ q, shB.peersById.lookup f.datagram.call.senderId = some q ∧
      openDatagram C shB.peersById f.datagram.bytes = .ok (q, f.datagram.call.msg) := by
  have hbuilt := hrun.builtFrom B
  rw [hB] at hbuilt
  obtain ⟨peers, hpeersB, hbyId, -⟩ := hbuilt.peers
  obtain ⟨A, hcall⟩ := hrun.flight_called hf
  obtain ⟨q, hq⟩ := peerTables_lookup_isSome hpeersB hcfg
  rw [hid] at hq
  have hkey := hrun.key_of_call hk hpeers haddr hcall hhost hpeersB hq
  rw [hbyId]
  exact ⟨q, hq, openDatagram_of_known hb ho f.datagram hq hkey⟩

/-- Nobody sends an error. -/
theorem Net.Run.not_error (hrun : net.Run tr s) {A : ι} {call : SendCall C}
    (hcall : Called tr A call) (err : ErrorMsg) : call.msg ≠ .error err := by
  intro hmsg
  have emits : ∀ {sh : Shared} {env : Env} {t : Tables} {peer p : PeerRuntime} {m : Message},
      ¬ Emits sh env t peer m p (.error err) := by
    intro sh env t peer p m h
    generalize hm : Message.error err = m' at h
    cases h with
    | granted | acknowledged | ponged | published => cases hm
    | relayed hpass _ _ =>
        have htarget := hpass.addressed
        rw [← Message.relayTarget_withTtl, ← hm] at htarget
        cases htarget
  obtain ⟨pre, l, post, s₁, s₂, did, -, -, -, -, -, -, hcause⟩ := hrun.caused hcall
  cases hcause with
  | delivered _ _ _ _ hemit _ | injected _ _ _ hemit _ =>
      rw [hmsg] at hemit
      exact emits hemit
  | acted hlocal =>
      generalize s₁.node A = p at hlocal
      cases hlocal with
      | asked _ _ hto =>
          rw [hto.msg] at hmsg
          cases hmsg
      | originated horig _ =>
          rw [hmsg] at horig
          generalize hm : Message.error err = m at horig
          cases horig with
          | encapsulated | kept | registers => cases hm
          | @requested κ => cases κ <;> cases hm

/-! ## §2. What a client makes of it. -/

/-- The response a client takes from a message of a known peer. -/
def Message.responseTo (requestId : UInt64) : Message → Option BootstrapResp
  | .bootstrapResp resp => if resp.requestId = requestId then some resp else none
  | _ => none

omit [DecidableEq ι] in
/-- A client reads exactly what was sent to it, and ignores whom it does not
know. -/
theorem decodeBootstrapResponse_datagram (hb : C.BincodeRoundTrips) (ho : C.AeadCorrect)
    {config : Config} {peersById : HashMap String PeerRuntime} {requestId : UInt64}
    (d : Datagram C) (hkey : ∀ q, peersById.lookup d.call.senderId = some q → q.key = d.call.key)
    (hmsg : ∀ err, d.call.msg ≠ .error err) :
    decodeBootstrapResponse C config peersById d.bytes requestId
      = .ok ((peersById.lookup d.call.senderId).bind fun _ => d.call.msg.responseTo requestId) := by
  rw [decodeBootstrapResponse_eq]
  cases hq : peersById.lookup d.call.senderId with
  | none =>
      have hinspect : inspect C peersById d.bytes = .unknownSender d.call.senderId := by
        unfold inspect
        rw [hb.frame d.framed]
        have hq : peersById.lookup d.call.frame.senderId = none := hq
        simp only [hq]
        rfl
      rw [hinspect]
      rfl
  | some q =>
      rw [inspect_of_known hb ho d hq (hkey q hq)]
      simp only [hb.message d.call.serialized]
      cases hm : d.call.msg with
      | bootstrapResp resp =>
          show (if resp.requestId = requestId then _ else _)
            = Except.ok (if resp.requestId = requestId then some resp else none)
          split <;> rfl
      | error err => exact absurd hm (hmsg err)
      | _ => rfl

/-! ## §3. The request. -/

/-- What a client asks of its home gateway. -/
def bootRequest (config : Config) (clientCfg : ClientConfig) (home : PeerRuntime)
    (requestId : UInt64) : BootstrapReq :=
  { requestId
    nodeId := config.node.id
    requestedStealth := clientCfg.requestedStealth.getD config.node.stealth
    requestedOverlayIp := clientCfg.requestedOverlayIp.or (config.tun.bind fun t => t.address)
    capabilities := clientCfg.registerCapabilities
    targetGatewayStealth := home.cfg.stealth }

/-- What a client adopts, from a gateway that runs with `sh`. -/
def assignedConfig (config : Config) (clientCfg : ClientConfig) (home : PeerRuntime) (sh : Shared)
    (requestId : UInt64) : Config :=
  adoptAssignment config (grant sh (bootRequest config clientCfg home requestId))

omit [DecidableEq ι] in
/-- Of a response, a client adopts the stealth and the overlay address. -/
theorem adoptAssignment_congr {config : Config} {resp resp' : BootstrapResp}
    (hstealth : resp.assignedStealth = resp'.assignedStealth)
    (hip : resp.assignedOverlayIp = resp'.assignedOverlayIp) :
    adoptAssignment config resp = adoptAssignment config resp' := by
  unfold adoptAssignment
  rw [hstealth, hip]

omit [DecidableEq ι] in
/-- The same grant, for each request for the same. -/
theorem adoptAssignment_grant {config : Config} {clientCfg : ClientConfig} {home : PeerRuntime}
    {sh : Shared} {requestId : UInt64} {req : BootstrapReq} (hclient : config.client = some clientCfg)
    (hstealth : req.requestedStealth = clientCfg.requestedStealth.getD config.node.stealth)
    (hip : req.requestedOverlayIp = requestedOverlayIp config) :
    adoptAssignment config (grant sh req) = assignedConfig config clientCfg home sh requestId := by
  unfold requestedOverlayIp at hip
  rw [hclient] at hip
  exact adoptAssignment_congr hstealth hip

/-- Client `c` is configured to get its assignment from `H`, which runs as a
gateway and lists it. -/
structure Bootable (net : Net ι) (s : State C ι) (c H : ι) (shH : Shared)
    (clientCfg : ClientConfig) (peers : PeerTables) (home : PeerRuntime) : Prop where
  isClient : roleIsClient (net.config c) = true
  client : (net.config c).client = some clientCfg
  timeout : clientCfg.bootstrapTimeoutMs ≠ 0
  tables : peerTables C (net.identity c) (net.config c) = .ok peers
  home_peer : peers.byId.lookup clientCfg.homeGatewayId = some home
  gateway : (net.config H).node.id = clientCfg.homeGatewayId
  runs : s.Runs H shH
  role : roleIsGateway shH.config = true
  stealth : home.cfg.stealth = shH.localStealth
  listed : ∃ cfg ∈ (net.config H).peers, cfg.id = (net.config c).node.id

section

variable {H : ι} {shH : Shared} {clientCfg : ClientConfig} {peers : PeerTables}
  {home : PeerRuntime} {requestId : UInt64} {routing : RoutingTable}

theorem Bootable.later (h : Bootable net s c H shH clientCfg peers home)
    (hexec : Lib.Exec (Step net) s tr s') : Bootable net s' c H shH clientCfg peers home :=
  { h with runs := exec_shared hexec h.runs }

omit [DecidableEq ι] in
/-- A client that can send asks, with the clock as its request id. -/
theorem startBootstrap_ok (hC : C.Total) {env : Env} (henv : env.socketAccepts = true)
    {config : Config} {peersById : HashMap String PeerRuntime}
    (hclient : config.client = some clientCfg)
    (hhome : peersById.lookup clientCfg.homeGatewayId = some home)
    (htimeout : clientCfg.bootstrapTimeoutMs ≠ 0) :
    ∃ d : Datagram C, d.call.With config.node.id home.addr home.key
        (.bootstrapReq (bootRequest config clientCfg home ⟨env.nowMs.setWidth 64⟩)) ∧
      startBootstrap C env config peersById
        = (.ok ⟨env.nowMs.setWidth 64⟩, [.encrypted d.call, .udpSend d]) := by
  have hok := sendDirect_ok hC env henv config.node.id home.addr home.key
    (.bootstrapReq (bootRequest config clientCfg home ⟨env.nowMs.setWidth 64⟩))
  obtain ⟨d, hd, heff⟩ := (sendDirect_spec env _ _ _ _).exists_of_ok hok
  refine ⟨d, hd, ?_⟩
  unfold bootRequest at hok heff
  unfold startBootstrap
  rw [hclient]
  dsimp only
  rw [hhome]
  dsimp only
  rw [hok]
  dsimp only
  rw [if_neg htimeout, heff]

/-- The client asks, and waits. -/
theorem Step.asks (hC : C.Total) (hboot : Bootable net s c H shH clientCfg peers home) {env : Env}
    {did : Activity C} (hstep : Step net s (.act c .start env did) s')
    (henv : env.socketAccepts = true) :
    ∃ f ∈ s'.inflight, s.clock ∈ f.trail ∧
      f.datagram.call.With (net.config c).node.id home.addr home.key
        (.bootstrapReq (bootRequest (net.config c) clientCfg home ⟨env.nowMs.setWidth 64⟩)) ∧
      s'.node c = .booting (net.config c) peers ⟨env.nowMs.setWidth 64⟩ := by
  obtain ⟨d, hd, hsent⟩ := startBootstrap_ok hC henv hboot.client hboot.home_peer hboot.timeout
  have hact := hstep.act_of_act
  generalize s.node c = p at hact
  cases p with
  | running | booting | failed => cases hact
  | stopped =>
      have hstart : Phase.start C env (net.identity c) (net.config c)
          = (.booting (net.config c) peers ⟨env.nowMs.setWidth 64⟩,
              .sending [.encrypted d.call, .udpSend d]) := by
        unfold Phase.start
        rw [hboot.tables]
        dsimp only
        rw [if_pos hboot.isClient, hsent]
      obtain ⟨hp, rfl⟩ := Prod.mk.inj (hstart.symm.trans (Option.some.inj hact))
      have hflight : (⟨d, [s.clock]⟩ : Flight C) ∈ s'.inflight :=
        hstep.mem_inflight (Label.does_act ..) (List.mem_cons_of_mem _ List.mem_cons_self)
      exact ⟨_, hflight, List.mem_singleton_self _, hd, hp.symm⟩

/-! ## §4. From the request to the assignment. -/

omit [DecidableEq ι] in
/-- What the tail of `new` needs. -/
theorem buildShared_ok {env : Env} {config : Config}
    (hroutes : RoutingTable.fromConfig C config.routing = .ok routing)
    (htun : env.tunCreated = .ok ()) (peers : PeerTables) :
    ∃ sh, buildShared C env config peers = .ok sh := by
  unfold buildShared
  rw [hroutes, htun]
  cases config.tun with
  | none => exact ⟨_, rfl⟩
  | some tunCfg =>
      by_cases henabled : tunCfg.enabled = true
      · exact ⟨_, if_pos henabled⟩
      · exact ⟨_, if_neg henabled⟩

/-- A client that waits for its response, or runs with what it adopted. -/
def Phase.Boots (config assigned : Config) (peers : PeerTables) (requestId : UInt64)
    (p : Phase) : Prop :=
  p = .booting config peers requestId ∨ ∃ sh, p.shared = some sh ∧ sh.config = assigned

/-- A client that waits ignores what is sent to it, or it is the grant of its
request and the client starts to run. -/
theorem Step.boots_deliver (hb : C.BincodeRoundTrips) (ho : C.AeadCorrect) (hk : C.KeyAgreement)
    (hpeers : HonestPeers C net) (hkeys : KeysDetermineSecrets C net) (haddr : Addressed net)
    (hboot : Bootable net s c H shH clientCfg peers home) (hrun : net.Run tr s) {f : Flight C}
    {keep : Bool} {env : Env} {did : Activity C}
    (hideal : Unforgeable net (tr ++ [.deliver c f keep env did]))
    (hstep : Step net s (.deliver c f keep env did) s')
    (hroutes : RoutingTable.fromConfig C
      (assignedConfig (net.config c) clientCfg home shH requestId).routing = .ok routing)
    (htun : env.tunCreated = .ok ())
    (hc : s.node c = .booting (net.config c) peers requestId) :
    ((peers.byId.lookup f.datagram.call.senderId).bind fun _ => f.msg.responseTo requestId) = none ∧
        s'.node c = s.node c ∨
      ∃ sh, s'.Runs c sh ∧
        sh.config = assignedConfig (net.config c) clientCfg home shH requestId := by
  obtain ⟨hf, hhost, -⟩ := hstep.received_of_deliver
  obtain ⟨A, hcall⟩ := hrun.flight_called hf
  have hdecode : decodeBootstrapResponse C (net.config c) peers.byId f.datagram.bytes requestId = _ :=
    decodeBootstrapResponse_datagram hb ho f.datagram
      (fun q hq => hrun.key_of_call hk hpeers haddr hcall hhost hboot.tables hq)
      (hrun.not_error hcall)
  obtain ⟨did', -, hrec⟩ := hstep.receive_of_received (i := c) rfl
  rw [hc] at hrec
  cases hresp : (peers.byId.lookup f.datagram.call.senderId).bind fun _ =>
      f.datagram.call.msg.responseTo requestId with
  | none =>
      rw [hresp] at hdecode
      refine Or.inl ⟨hresp, ?_⟩
      unfold Phase.receive at hrec
      dsimp only at hrec
      rw [hdecode] at hrec
      rw [hc]
      exact (Prod.mk.inj hrec).1.symm
  | some resp =>
      rw [hresp] at hdecode
      -- what opens is the grant
      obtain ⟨peer, hopen⟩ := openDatagram_of_decode hdecode
      obtain ⟨clientCfg', H', shH', req, -, -, hclient, hid, hH, -, -, -, -, -, hstealth, hip,
        rfl, -⟩ :=
        hrun.granted_home hb ho hpeers hkeys hideal (Or.inl ⟨f, keep, env, rfl, rfl⟩) hboot.tables
          hopen
      obtain rfl := Option.some.inj (hclient.symm.trans hboot.client)
      obtain rfl : H' = H := hpeers.ids _ _ (hid.trans hboot.gateway.symm)
      obtain rfl := Option.some.inj (hH.symm.trans hboot.runs)
      have hadopt : adoptAssignment (net.config c) (grant shH' req)
          = assignedConfig (net.config c) clientCfg' home shH' requestId :=
        adoptAssignment_grant hclient hstealth hip
      obtain ⟨sh, hsh⟩ := buildShared_ok hroutes htun peers
      refine Or.inr ⟨sh, ?_, (buildShared_eq_ok hsh).1⟩
      unfold Phase.receive at hrec
      dsimp only at hrec
      rw [hdecode] at hrec
      dsimp only at hrec
      rw [show concludeBootstrap (net.config c) (grant shH' req) = (.ok (), _) from rfl, hadopt] at hrec
      dsimp only at hrec
      unfold Phase.launch at hrec
      rw [hsh] at hrec
      show (s'.node c).shared = some sh
      rw [← (Prod.mk.inj hrec).1]
      rfl

/-- Until its receive times out, the client waits, or runs with what it
adopted. -/
theorem exec_boots (hb : C.BincodeRoundTrips) (ho : C.AeadCorrect) (hk : C.KeyAgreement)
    (hpeers : HonestPeers C net) (hkeys : KeysDetermineSecrets C net) (haddr : Addressed net)
    {pre post : List (Label C ι)} (hboot : Bootable net s c H shH clientCfg peers home)
    (hrun : net.Run pre s) (hexec : Lib.Exec (Step net) s post s')
    (hideal : Unforgeable net (pre ++ post))
    (houtside : ∀ packet env did, .inject c packet env did ∉ post)
    (hwaits : ∀ env did, .act c .bootstrapTimeout env did ∉ post)
    (hroutes : RoutingTable.fromConfig C
      (assignedConfig (net.config c) clientCfg home shH requestId).routing = .ok routing)
    (htun : ∀ f keep env did, .deliver c f keep env did ∈ post → env.tunCreated = .ok ())
    (hc : s.node c = .booting (net.config c) peers requestId) :
    (s'.node c).Boots (net.config c) (assignedConfig (net.config c) clientCfg home shH requestId)
      peers requestId := by
  induction hexec with
  | refl => exact Or.inl hc
  | @snoc post s₁ l s₂ hexec hstep ih =>
      rw [← List.append_assoc] at hideal
      have hlast : l ∈ post ++ [l] := List.mem_append_right _ (List.mem_singleton_self l)
      rcases ih hideal.of_append
        (fun packet env did hm => houtside packet env did (List.mem_append_left _ hm))
        (fun env did hm => hwaits env did (List.mem_append_left _ hm))
        (fun f keep env did hm => htun f keep env did (List.mem_append_left _ hm)) with
        hwaiting | ⟨sh, hsh, hconfig⟩
      · -- it waits: nobody else changes this, and by itself it only times out
        have other : ∀ (j : ι) (did' : Activity C), l.Does j did' → j ≠ c →
            (s₂.node c).Boots (net.config c)
              (assignedConfig (net.config c) clientCfg home shH requestId) peers requestId := by
          intro j did' hdoes hne
          left
          rw [hstep.node_of_not_does fun did hd => hne (hdoes.unique hd).1]
          exact hwaiting
        cases l with
        | drop f =>
            left
            rw [hstep.node_of_not_does fun did hd => Label.not_does_drop hd]
            exact hwaiting
        | inject j packet env did =>
            by_cases hj : j = c
            · subst hj
              exact absurd hlast (houtside packet env did)
            · exact other j did (Label.does_inject ..) hj
        | act j ev env did =>
            by_cases hj : j = c
            · subst hj
              have hact := hstep.act_of_act
              rw [hwaiting] at hact
              cases ev with
              | bootstrapTimeout => exact absurd hlast (hwaits env did)
              | _ => cases hact
            · exact other j did (Label.does_act ..) hj
        | deliver j f keep env did =>
            by_cases hj : j = c
            · subst hj
              rcases hstep.boots_deliver hb ho hk hpeers hkeys haddr (hboot.later hexec)
                (hrun.append hexec) hideal hroutes (htun f keep env did hlast) hwaiting with
                ⟨-, hsame⟩ | ⟨sh, hsh, hconfig⟩
              · exact Or.inl (hsame.trans hwaiting)
              · exact Or.inr ⟨sh, hsh, hconfig⟩
            · exact other j did (Label.does_deliver ..) hj
      · exact Or.inr ⟨sh, hstep.shared hsh, hconfig⟩

/-- The gateway grants the request that is delivered to it, to the client. -/
theorem Step.granted_to (hb : C.BincodeRoundTrips) (ho : C.AeadCorrect) (hk : C.KeyAgreement)
    (hC : C.Total) (hpeers : HonestPeers C net) (haddr : Addressed net)
    (hboot : Bootable net s c H shH clientCfg peers home) (hrun : net.Run tr s) {f : Flight C}
    {keep : Bool} {env : Env} {did : Activity C}
    (hstep : Step net s (.deliver H f keep env did) s') (henv : env.socketAccepts = true)
    (hto : f.datagram.call.With (net.config c).node.id home.addr home.key
      (.bootstrapReq (bootRequest (net.config c) clientCfg home requestId))) :
    ∃ g ∈ s'.inflight, (∀ n ∈ f.trail, n ∈ g.trail) ∧ net.host g.datagram.call.addr = some c ∧
      g.datagram.call.senderId = clientCfg.homeGatewayId ∧
      g.msg = .bootstrapResp (grant shH (bootRequest (net.config c) clientCfg home requestId)) := by
  obtain ⟨rtH, hH⟩ := Phase.shared_eq_some.mp hboot.runs
  -- it opens, as a request of the client
  obtain ⟨hf, hhost, -⟩ := hstep.received_of_deliver
  obtain ⟨cfg, hcfg, hid⟩ := hboot.listed
  obtain ⟨q, hlook, hopen⟩ :=
    hrun.opens hb ho hk hpeers haddr hf hhost hH hcfg (hid.trans hto.senderId.symm)
  rw [hto.msg] at hopen
  rw [hto.senderId] at hlook
  obtain ⟨rt, hdid⟩ := hstep.handled hboot.runs (Or.inl hopen)
  -- it is for this gateway, which sends to the peer under the id of the client
  have hbuilt := hrun.builtFrom H
  rw [hH] at hbuilt
  obtain ⟨peersH, hpeersH, hbyId, -⟩ := hbuilt.peers
  obtain ⟨hqc, hqmem, hqlink⟩ := peerTables_lookup hpeersH (hbyId ▸ hlook)
  have hgateway : roleIsGateway shH.config = true ∧
      (bootRequest (net.config c) clientCfg home requestId).targetGatewayStealth
        = shH.localStealth := ⟨hboot.role, hboot.stealth⟩
  have heff : did.effects = (sendDirect C env shH.config.node.id q.addr q.key
      (.bootstrapResp (grant shH (bootRequest (net.config c) clientCfg home requestId)))).effects := by
    rw [hdid]
    show (handleBootstrapReq C shH env rt.tables q _).effects = _
    unfold handleBootstrapReq
    rw [if_pos hgateway]
    show (sendToPeer C shH env q.cfg.id _).effects = _
    unfold sendToPeer
    rw [hqc, hlook]
  obtain ⟨d, hd, hsent⟩ := (sendDirect_spec env _ _ _ _).exists_of_ok
    (sendDirect_ok hC env henv shH.config.node.id q.addr q.key (.bootstrapResp
      (grant shH (bootRequest (net.config c) clientCfg home requestId))))
  have hmem : Effect.udpSend d ∈ did.effects := by
    rw [heff, hsent]
    exact List.mem_cons_of_mem _ List.mem_cons_self
  refine ⟨_, hstep.mem_inflight (Label.does_deliver ..) hmem, ?_, ?_, ?_, hd.msg⟩
  · intro n hn
    exact List.mem_cons_of_mem _ hn
  · rw [hd.addr]
    exact haddr H _ hqmem c q.addr hqc hqlink.addr
  · rw [hd.senderId, hbuilt.nodeId, hboot.gateway]

/-- Where nothing from outside reaches a client after its start, nothing that
descends from the start is lost and all of it has been delivered, the client
runs with the assignment it asked its home gateway for, unless its receive timed
out before. The routes it adopts must be valid, and its TUN can be created. -/
theorem Net.Run.bootstrap_completes (hb : C.BincodeRoundTrips) (ho : C.AeadCorrect)
    (hk : C.KeyAgreement) (hC : C.Total) (hpeers : HonestPeers C net)
    (hkeys : KeysDetermineSecrets C net) (haddr : Addressed net) {pre post : List (Label C ι)}
    {s₂ : State C ι} (hrun : net.Run pre s) (hboot : Bootable net s c H shH clientCfg peers home)
    {env : Env} {did : Activity C} (hstep : Step net s (.act c .start env did) s₁)
    (henv : env.socketAccepts = true) (hpost : Lib.Exec (Step net) s₁ post s₂)
    (hideal : Unforgeable net (pre ++ .act c .start env did :: post))
    (houtside : ∀ packet env did, .inject c packet env did ∉ post)
    (hcomp : Completes s.clock post s₂) (hwaits : ∀ env did, .act c .bootstrapTimeout env did ∉ post)
    (hroutes : RoutingTable.fromConfig C
      (assignedConfig (net.config c) clientCfg home shH ⟨env.nowMs.setWidth 64⟩).routing = .ok routing)
    (htun : ∀ f keep env did, .deliver c f keep env did ∈ post → env.tunCreated = .ok ()) :
    ∃ sh, s₂.Runs c sh ∧
      sh.config = assignedConfig (net.config c) clientCfg home shH ⟨env.nowMs.setWidth 64⟩ := by
  obtain ⟨f, hf, hn, hto, hwaiting⟩ := hstep.asks hC hboot henv
  have hrun₁ : net.Run (pre ++ [.act c .start env did]) s₁ := hrun.snoc hstep
  have hboot₁ := hboot.later (.single hstep)
  rw [List.append_cons] at hideal
  -- the request is delivered to the gateway
  obtain ⟨tr₁, i, keep, envH, didH, tr₂, t₁, t₂, rfl, h₁, hstepH, h₂, henvH, hcomp₂⟩ :=
    hcomp.delivers hpost hf hn
  obtain rfl : i = H := by
    obtain ⟨hid, hmem, hlink⟩ := peerTables_lookup hboot.tables hboot.home_peer
    have hhost := haddr c _ hmem H home.addr (hid.trans hboot.gateway.symm) hlink.addr
    rw [← hto.addr] at hhost
    exact Option.some.inj (hstepH.received_of_deliver.2.1.symm.trans hhost)
  obtain ⟨g, hg, htrail, hhost, hsender, hmsg⟩ :=
    hstepH.granted_to hb ho hk hC hpeers haddr (hboot₁.later h₁) (hrun₁.append h₁) henvH hto
  -- its grant is delivered to the client
  obtain ⟨tr₃, j, keep', env', did', tr₄, u₁, u₂, rfl, h₃, hstep', h₄, -, -⟩ :=
    hcomp₂.delivers h₂ hg (htrail _ hn)
  obtain rfl : j = c := Option.some.inj (hstep'.received_of_deliver.2.1.symm.trans hhost)
  have hmid := h₁.append ((Lib.Exec.single hstepH).append h₃)
  rw [List.cons_append, List.nil_append] at hmid
  generalize hmids : tr₁ ++ .deliver i f keep envH didH :: tr₃ = mid at hmid
  have hall : tr₁ ++ .deliver i f keep envH didH :: (tr₃ ++ .deliver j g keep' env' did' :: tr₄)
      = mid ++ .deliver j g keep' env' did' :: tr₄ := by
    rw [← hmids, List.append_assoc, List.cons_append]
  rw [hall] at hideal houtside hwaits htun
  rw [← List.append_assoc, List.append_cons _ _ tr₄] at hideal
  have hlast : .deliver j g keep' env' did' ∈ mid ++ .deliver j g keep' env' did' :: tr₄ :=
    List.mem_append_right _ List.mem_cons_self
  rcases exec_boots hb ho hk hpeers hkeys haddr hboot₁ hrun₁ hmid hideal.of_append.of_append
    (fun packet env did hm => houtside packet env did (List.mem_append_left _ hm))
    (fun env did hm => hwaits env did (List.mem_append_left _ hm)) hroutes
    (fun f keep env did hm => htun f keep env did (List.mem_append_left _ hm)) hwaiting with
    hwaiting' | ⟨sh, hsh, hconfig⟩
  · rcases hstep'.boots_deliver hb ho hk hpeers hkeys haddr (hboot₁.later hmid) (hrun₁.append hmid)
      hideal.of_append hroutes (htun _ _ _ _ hlast) hwaiting' with ⟨hnone, -⟩ | ⟨sh, hsh, hconfig⟩
    · -- it is the response that the client waits for
      rw [hsender, hboot.home_peer, hmsg] at hnone
      cases (if_pos rfl).symm.trans hnone
    · exact ⟨sh, exec_shared h₄ hsh, hconfig⟩
  · exact ⟨sh, exec_shared ((Lib.Exec.single hstep').append h₄) hsh, hconfig⟩

end

end

namespace Home

theorem addressed : Addressed net := by
  have h : ∀ i : Fin 3, ∀ cfg ∈ (config i).peers, ∃ j, cfg.id = (config j).node.id ∧
      (SocketAddr.fromStr cfg.addr).bind net.host = some j := by
    decide +kernel
  intro i cfg hcfg j addr hid haddr
  obtain ⟨j', hid', hhost⟩ := h i cfg hcfg
  obtain rfl : j' = j := honestPeers.ids j' j (hid'.symm.trans hid)
  rw [haddr] at hhost
  exact hhost

/-- The two gateways start. -/
def booted : List (Move (Fin 3)) := [.act 1 .start, .act 2 .start]

/-- Before the client starts. -/
def waiting : Sim Crates.ideal (Fin 3) := (Sim.init _ _).play net Env.at booted

/-- A delivery, to a node that can create its TUN. -/
def deliversToTun : Label Crates.ideal (Fin 3) → Bool
  | .deliver _ _ _ env _ => env.tunCreated.toOption.isSome
  | _ => false

/-- What the client adopts has valid routes. -/
def assignable (shH : Shared) (peers : PeerTables) : Bool :=
  (config 0).client.any fun clientCfg => (peers.byId.lookup clientCfg.homeGatewayId).any fun home =>
    home.cfg.stealth == shH.localStealth && (RoutingTable.fromConfig Crates.ideal (assignedConfig
      (config 0) clientCfg home shH ⟨(Env.at waiting.clock).nowMs.setWidth 64⟩).routing).toOption.isSome

/-- The client starts, and its request and the response are delivered;
evaluated at once. -/
theorem startup_computed :
    ((Sim.init Crates.ideal (Fin 3)).run net Env.at booted).isSome = true ∧
    ((waiting.node 2).shared.any fun shH => roleIsGateway shH.config &&
      (peerTables Crates.ideal (Line.identity 0) (config 0)).toOption.any (assignable shH)) = true ∧
    ((waiting.step net Env.at (.act 0 .start)).any fun r =>
      (r.2.run net Env.at [.deliver 0 false, .deliver 0 false]).any fun r' =>
        decide (LossFree r'.1) && r'.2.inflight.isEmpty && r'.1.all deliversToTun) = true := by
  decide +kernel

/-- The client runs with its assignment. -/
theorem bootstrap_completed :
    ∃ (tr : List (Label Crates.ideal (Fin 3))) (s : State Crates.ideal (Fin 3)) (sh shH : Shared)
      (clientCfg : ClientConfig) (home : PeerRuntime) (requestId : UInt64), net.Run tr s ∧
      s.Runs 0 sh ∧ sh.config = assignedConfig (net.config 0) clientCfg home shH requestId := by
  obtain ⟨hboots, hassign, hruns⟩ := startup_computed
  obtain ⟨pre, hrun, hhonest⟩ := Sim.exists_run_play (by simp [booted]) hboots
  obtain ⟨shH, hH, hassign⟩ := (Option.any_eq_true _ _).mp hassign
  obtain ⟨hrole, hassign⟩ := Bool.and_eq_true_iff.mp hassign
  obtain ⟨peers, hpeers, hassign⟩ := (Option.any_eq_true _ _).mp hassign
  obtain ⟨clientCfg, hclient, hassign⟩ := (Option.any_eq_true _ _).mp hassign
  obtain ⟨home, hhome, hassign⟩ := (Option.any_eq_true _ _).mp hassign
  obtain ⟨hstealth, hroutes⟩ := Bool.and_eq_true_iff.mp hassign
  obtain rfl := Option.some.inj hclient
  obtain ⟨⟨l, s₁⟩, hstep, hcheck⟩ := (Option.any_eq_true _ _).mp hruns
  obtain ⟨⟨post, s₂⟩, hpost, hcheck⟩ := (Option.any_eq_true _ _).mp hcheck
  obtain ⟨hcheck, hdelivers⟩ := Bool.and_eq_true_iff.mp hcheck
  obtain ⟨hloss, hempty⟩ := Bool.and_eq_true_iff.mp hcheck
  obtain ⟨did, rfl⟩ := Sim.step_act hstep
  have hsound := Sim.step_sound hstep
  have hafter := Sim.run_sound hpost
  have hposts : Honest post := Sim.run_honest (by simp) hpost
  have hall : Honest (pre ++ .act 0 .start (Env.at waiting.clock) did :: post) := by
    refine hhonest.append ?_
    intro l hl
    rcases List.mem_cons.mp hl with rfl | hl
    · intro i packet env did heq
      cases heq
    · exact hposts l hl
  have hideal := Net.Run.unforgeable Crates.bincodeRoundTrips_ideal Crates.idealAead_ideal
    (hrun.append ((Lib.Exec.single hsound).append hafter)) (hall.replays [])
  have hcomp : Completes waiting.state.clock post s₂.state :=
    .of_lossFree (of_decide_eq_true hloss) (congrArg Multiset.ofList (List.isEmpty_iff.mp hempty))
  have hwaits : ∀ env did, .act 0 .bootstrapTimeout env did ∉ post := by
    intro env did hl
    cases List.all_eq_true.mp hdelivers _ hl
  have htun : ∀ f keep env did, .deliver 0 f keep env did ∈ post → env.tunCreated = .ok () := by
    intro f keep env did hl
    obtain ⟨_, hok⟩ := Option.isSome_iff_exists.mp (List.all_eq_true.mp hdelivers _ hl)
    exact Lib.Except.toOption_eq_some_iff.mp hok
  have hpeers : peerTables Crates.ideal (net.identity 0) (net.config 0) = .ok peers :=
    Lib.Except.toOption_eq_some_iff.mp hpeers
  obtain ⟨routing, hroutes⟩ := Option.isSome_iff_exists.mp hroutes
  have hroutes := Lib.Except.toOption_eq_some_iff.mp hroutes
  have hboot : Bootable net waiting.state 0 2 shH _ peers home :=
    { isClient := by decide
      client := rfl
      timeout := by decide
      tables := hpeers
      home_peer := hhome
      gateway := rfl
      runs := Sim.runs_iff.mpr hH
      role := hrole
      stealth := beq_iff_eq.mp hstealth
      listed := ⟨{ Line.peer 0 with stealth := "st-old" }, List.mem_cons_self, rfl⟩ }
  obtain ⟨sh, hsh, hconfig⟩ :=
    Net.Run.bootstrap_completes Crates.bincodeRoundTrips_ideal Crates.idealAead_ideal.toAeadCorrect
      Crates.keyAgreement_ideal Crates.total_ideal honestPeers keysDetermineSecrets addressed hrun
      hboot hsound rfl hafter hideal (fun packet env did hl => hposts _ hl 0 packet env did rfl) hcomp
      hwaits hroutes htun
  exact ⟨_, _, sh, shH, _, home, _, hrun.append ((Lib.Exec.single hsound).append hafter), hsh, hconfig⟩

end Home

end StealthNet
