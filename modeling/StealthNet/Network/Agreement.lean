/-
  StealthNet.Network.Agreement
  ────────────────────────────
  A CLIENT AND ITS GATEWAY AGREE ON THE ASSIGNMENT.

  A client takes the first response with its request id from whatever peer
  sends one.  Where its peers are nodes that run this code, this is enough
  against an attacker on the network: a gateway answers a bootstrap request to
  the node that made it, and a client makes its one request to its home
  gateway (`Net.Run.bootstrap_agreement`).

    §1  when a node starts to run;
    §2  who grants;
    §3  who asks;
    §4  agreement.
-/
import StealthNet.Network.Integrity

namespace StealthNet

open Lib (HashMap)

variable {C : Crates} {ι : Type}

section

variable [DecidableEq ι] {net : Net ι} {tr : List (Label C ι)} {s s' : State C ι} {l : Label C ι}
  {c : ι} {sh : Shared}

/-! ## §1. When a node starts to run. -/

/-- A node that runs started to run in one step. -/
theorem Net.Run.started (hrun : net.Run tr s) (hc : s.Runs c sh) :
    ∃ pre l post s₁ s₂, tr = pre ++ l :: post ∧ net.Run pre s₁ ∧ Step net s₁ l s₂ ∧
      Lib.Exec (Step net) s₂ post s ∧ (s₁.node c).shared = none ∧ s₂.Runs c sh := by
  refine hrun.history (I := fun tr s => s.Runs c sh → ∃ pre l post s₁ s₂, tr = pre ++ l :: post ∧
    net.Run pre s₁ ∧ Step net s₁ l s₂ ∧ Lib.Exec (Step net) s₂ post s ∧
    (s₁.node c).shared = none ∧ s₂.Runs c sh) ?_ ?_ hc
  · intro hc
    cases hc
  · intro tr s l s' hrun ih hstep hc
    cases hsh : (s.node c).shared with
    | none => exact ⟨tr, l, [], s, s', rfl, hrun, hstep, .refl, hsh, hc⟩
    | some sh' =>
        -- it ran before, with what it runs with now
        have hlater := hstep.shared hsh
        obtain rfl := Option.some.inj (hlater.symm.trans hc)
        obtain ⟨pre, l', post, s₁, s₂, rfl, hpre, hstep', hpost, hfirst⟩ := ih hsh
        exact ⟨pre, l', post ++ [l], s₁, s₂, List.append_assoc .., hpre, hstep', hpost.snoc hstep,
          hfirst⟩

theorem Phase.launch_config {env : Env} {config : Config} {peers : PeerTables}
    (h : (Phase.launch C env config peers).shared = some sh) : sh.config = config := by
  unfold Phase.launch at h
  split at h
  · cases h
  · rename_i sh' hbuild
    obtain rfl := Option.some.inj h
    exact (buildShared_eq_ok hbuild).1

/-- By itself a client gets no further than its request. -/
theorem Phase.act_client {env : Env} {identity : Identity} {config : Config} {p p' : Phase}
    {ev : LocalEvent} {did : Activity C} (h : p.act C env identity config ev = some (p', did))
    (hclient : roleIsClient config = true) (hp : p.shared = none) : p'.shared = none := by
  cases p with
  | running => cases hp
  | failed => cases ev <;> cases h
  | booting =>
      cases ev with
      | bootstrapTimeout =>
          obtain ⟨rfl, -⟩ := Prod.mk.inj (Option.some.inj h)
          rfl
      | _ => cases h
  | stopped =>
      cases ev with
      | start =>
          obtain rfl := (Prod.mk.inj (Option.some.inj h)).1
          show (Phase.start C env identity config).1.shared = none
          unfold Phase.start
          split
          · rfl
          · rw [if_pos hclient]
            split <;> rfl
      | _ => cases h

/-- A client starts to run when it receives a response to its request. -/
theorem Step.assigned (h : Step net s l s') (hrun : net.Run tr s) (hbefore : (s.node c).shared = none)
    (hc : s'.Runs c sh) (hclient : roleIsClient (net.config c) = true) :
    ∃ packet did peers peer resp, l.Receives c packet did ∧
      peerTables C (net.identity c) (net.config c) = .ok peers ∧
      openDatagram C peers.byId packet = .ok (peer, .bootstrapResp resp) ∧
      concludeBootstrap (net.config c) resp = (.ok (), sh.config) := by
  -- delivered or injected, it is the same datagram
  have received : ∀ {env : Env} {packet : Bytes} {did : Activity C}, l.Receives c packet did →
      (s.node c).receive C env packet = (s'.node c, did) →
      ∃ packet did peers peer resp, l.Receives c packet did ∧
        peerTables C (net.identity c) (net.config c) = .ok peers ∧
        openDatagram C peers.byId packet = .ok (peer, .bootstrapResp resp) ∧
        concludeBootstrap (net.config c) resp = (.ok (), sh.config) := by
    intro env packet did hl hrec
    have hbuilt := hrun.builtFrom c
    have hsh : ((s.node c).receive C env packet).1.shared = some sh := by
      rw [hrec]
      exact hc
    generalize s.node c = p at hbefore hbuilt hsh
    cases p with
    | stopped | failed => cases hsh
    | running sh' rt => cases hbefore
    | booting config peers requestId =>
        obtain ⟨rfl, hpeers⟩ := hbuilt
        simp only [Phase.receive] at hsh
        split at hsh
        · cases hsh
        · cases hsh
        · rename_i resp hdecode
          obtain ⟨peer, hopen⟩ := openDatagram_of_decode hdecode
          split at hsh
          · cases hsh
          · rename_i config' hconclude
            rw [Phase.launch_config hsh]
            exact ⟨packet, did, peers, peer, resp, hl, hpeers, hopen, hconclude⟩
  by_cases hdoes : ∃ did, l.Does c did
  · obtain ⟨did, ⟨ev, env, rfl⟩ | ⟨f, keep, env, rfl⟩ | ⟨packet, env, rfl⟩⟩ := hdoes
    · have hnone := Phase.act_client h.act_of_act hclient hbefore
      rw [show (s'.node c).shared = some sh from hc] at hnone
      cases hnone
    · obtain ⟨did', hdoes', hrec⟩ := h.receive_of_received (i := c) rfl
      obtain ⟨-, rfl⟩ := hdoes'.deliver_inv
      exact received (Or.inl ⟨f, keep, env, rfl, rfl⟩) hrec
    · obtain ⟨did', hdoes', hrec⟩ := h.receive_of_received (i := c) rfl
      obtain ⟨-, rfl⟩ := hdoes'.inject_inv
      exact received (Or.inr ⟨env, rfl⟩) hrec
  · -- another node takes the step
    have hnode := h.node_of_not_does fun did hd => hdoes ⟨did, hd⟩
    unfold State.Runs at hc
    rw [hnode, hbefore] at hc
    cases hc

/-! ## §2. Who grants. -/

/-- A call was made in a step of the run, for some cause. -/
theorem Net.Run.caused (hrun : net.Run tr s) {A : ι} {call : SendCall C} (hcall : Called tr A call) :
    ∃ pre l post s₁ s₂ did, tr = pre ++ l :: post ∧ net.Run pre s₁ ∧ Step net s₁ l s₂ ∧
      Lib.Exec (Step net) s₂ post s ∧ l.Does A did ∧ Effect.encrypted call ∈ did.effects ∧
      Cause net s₁ l A call := by
  obtain ⟨l, hl, did, hdoes, hmem⟩ := hcall
  obtain ⟨pre, post, rfl⟩ := List.append_of_mem hl
  obtain ⟨s₁, s₂, hpre, hstep, hpost⟩ := hrun.split_cons
  exact ⟨pre, l, post, s₁, s₂, did, rfl, hpre, hstep, hpost, hdoes, hmem, hstep.called hdoes hmem⟩

omit [DecidableEq ι] in
theorem Originates.not_bootstrapResp {rt : Runtime} {env : Env} {ev : LocalEvent} {p : PeerRuntime}
    {resp : BootstrapResp} : ¬ Originates sh rt env ev p (.bootstrapResp resp) := by
  intro h
  generalize hm : Message.bootstrapResp resp = m at h
  cases h with
  | encapsulated | kept | registers => cases hm
  | @requested κ => cases κ <;> cases hm

omit [DecidableEq ι] in
theorem Emits.bootstrapResp_inv {env : Env} {t : Tables} {peer p : PeerRuntime} {m : Message}
    {resp : BootstrapResp} (h : Emits sh env t peer m p (.bootstrapResp resp)) :
    ∃ req, m = .bootstrapReq req ∧ roleIsGateway sh.config = true ∧
      req.targetGatewayStealth = sh.localStealth ∧ resp = grant sh req ∧
      sh.peersById.lookup peer.cfg.id = some p := by
  generalize hm : Message.bootstrapResp resp = m' at h
  cases h with
  | granted hgateway htarget hp =>
      obtain rfl := Message.bootstrapResp.inj hm
      exact ⟨_, rfl, hgateway, htarget, rfl, hp⟩
  | acknowledged | ponged | published => cases hm
  | relayed hpass _ _ =>
      -- an assignment is not addressed, so nobody passes one on
      have htarget := hpass.addressed
      rw [← Message.relayTarget_withTtl, ← hm] at htarget
      cases htarget

/-- Node `A` handled `req` as a request of `peer`, and granted it to it. -/
structure GrantsRequest (net : Net ι) (tr : List (Label C ι)) (s : State C ι) (A : ι)
    (call : SendCall C) (resp : BootstrapResp) (sh : Shared) (peer : PeerRuntime) (req : BootstrapReq) : Prop where
  runs : s.Runs A sh
  gateway : roleIsGateway sh.config = true
  target : req.targetGatewayStealth = sh.localStealth
  granted : resp = grant sh req
  to_peer : ∃ q, sh.peersById.lookup peer.cfg.id = some q ∧ call.key = q.key
  handled : ∃ pre l post s₁ packet did, tr = pre ++ l :: post ∧ net.Run pre s₁ ∧
    l.Receives A packet did ∧ openDatagram C sh.peersById packet = .ok (peer, .bootstrapReq req)

/-- Who sends an assignment grants a request. -/
theorem Net.Run.granted (hrun : net.Run tr s) {A : ι} {call : SendCall C} (hcall : Called tr A call)
    {resp : BootstrapResp} (hmsg : call.msg = .bootstrapResp resp) :
    ∃ sh peer req, GrantsRequest net tr s A call resp sh peer req := by
  obtain ⟨pre, l, post, s₁, s₂, did, htr, hpre, hstep, hpost, -, -, hcause⟩ := hrun.caused hcall
  have hexec := (Lib.Exec.single hstep).append hpost
  cases hcause with
  | acted hlocal =>
      generalize s₁.node A = p at hlocal
      cases hlocal with
      | asked _ _ hto =>
          rw [hto.msg] at hmsg
          cases hmsg
      | originated horig _ =>
          rw [hmsg] at horig
          exact absurd horig Originates.not_bootstrapResp
  | @delivered _ f keep env did sh rt peer q m _ hf hA hopen _ hemit hto =>
      rw [hmsg] at hemit
      obtain ⟨req, rfl, hgateway, htarget, hgrant, hq⟩ := hemit.bootstrapResp_inv
      exact ⟨sh, peer, req, exec_shared hexec (State.runs_of_running hA), hgateway, htarget, hgrant,
        ⟨q, hq, hto.key⟩, pre, _, post, s₁, _, did, htr, hpre, Or.inl ⟨f, keep, env, rfl, rfl⟩, hopen⟩
  | @injected _ packet env did sh rt peer q m _ hA hopen _ hemit hto =>
      rw [hmsg] at hemit
      obtain ⟨req, rfl, hgateway, htarget, hgrant, hq⟩ := hemit.bootstrapResp_inv
      exact ⟨sh, peer, req, exec_shared hexec (State.runs_of_running hA), hgateway, htarget, hgrant,
        ⟨q, hq, hto.key⟩, pre, _, post, s₁, packet, did, htr, hpre, Or.inr ⟨env, rfl⟩, hopen⟩

/-! ## §3. Who asks. -/

omit [DecidableEq ι] in
/-- The request of a client asks its home gateway for what it is configured
with. -/
theorem startBootstrap_request {env : Env} {config : Config}
    {peersById : HashMap String PeerRuntime} {call : SendCall C}
    (hcall : Effect.encrypted call ∈ (startBootstrap C env config peersById).2) :
    ∃ clientCfg home req, config.client = some clientCfg ∧
      peersById.lookup clientCfg.homeGatewayId = some home ∧ call.msg = .bootstrapReq req ∧
      call.key = home.key ∧ req.targetGatewayStealth = home.cfg.stealth ∧
      req.requestedStealth = clientCfg.requestedStealth.getD config.node.stealth ∧
      req.requestedOverlayIp = requestedOverlayIp config := by
  unfold startBootstrap at hcall
  split at hcall
  · cases hcall
  · rename_i clientCfg hclient
    split at hcall
    · cases hcall
    · rename_i home hhome
      dsimp only at hcall
      generalize hr : sendDirect C env config.node.id home.addr home.key _ = r at hcall
      have hspec := hr ▸ sendDirect_spec env config.node.id home.addr home.key _
      have hmem : Effect.encrypted call ∈ r.effects := by
        split at hcall
        · exact hcall
        · split at hcall <;> exact hcall
      have hto := hspec.of_encrypted hmem
      refine ⟨clientCfg, home, _, hclient, hhome, hto.msg, hto.key, rfl, rfl, ?_⟩
      unfold requestedOverlayIp
      rw [hclient]
      rfl

omit [DecidableEq ι] in
theorem Phase.start_calls {env : Env} {identity : Identity} {config : Config} {call : SendCall C}
    (hcall : Effect.encrypted call ∈ (Phase.start C env identity config).2.effects) :
    ∃ peers, peerTables C identity config = .ok peers ∧
      Effect.encrypted call ∈ (startBootstrap C env config peers.byId).2 := by
  unfold Phase.start at hcall
  split at hcall
  · cases hcall
  · rename_i peers hpeers
    refine ⟨peers, hpeers, ?_⟩
    split at hcall
    · split at hcall
      · rename_i hstart
        rw [hstart]
        exact hcall
      · rename_i hstart
        rw [hstart]
        exact hcall
    · cases hcall

omit [DecidableEq ι] in
theorem Originates.not_bootstrapReq {rt : Runtime} {env : Env} {ev : LocalEvent} {p : PeerRuntime}
    {req : BootstrapReq} : ¬ Originates sh rt env ev p (.bootstrapReq req) := by
  intro h
  generalize hm : Message.bootstrapReq req = m at h
  cases h with
  | encapsulated | kept | registers => cases hm
  | @requested κ => cases κ <;> cases hm

omit [DecidableEq ι] in
theorem Emits.not_bootstrapReq {env : Env} {t : Tables} {peer p : PeerRuntime} {m : Message}
    {req : BootstrapReq} : ¬ Emits sh env t peer m p (.bootstrapReq req) := by
  intro h
  generalize hm : Message.bootstrapReq req = m' at h
  cases h with
  | granted | acknowledged | ponged | published => cases hm
  | relayed hpass _ _ =>
      have htarget := hpass.addressed
      rw [← Message.relayTarget_withTtl, ← hm] at htarget
      cases htarget

/-- Node `c` asked for its assignment with its key for its home gateway. -/
structure AskedHome (net : Net ι) (c : ι) (call : SendCall C) (req : BootstrapReq)
    (clientCfg : ClientConfig) : Prop where
  client : (net.config c).client = some clientCfg
  home : ∃ peers home, peerTables C (net.identity c) (net.config c) = .ok peers ∧
    peers.byId.lookup clientCfg.homeGatewayId = some home ∧ call.key = home.key ∧
    req.targetGatewayStealth = home.cfg.stealth
  stealth : req.requestedStealth = clientCfg.requestedStealth.getD (net.config c).node.stealth
  overlayIp : req.requestedOverlayIp = requestedOverlayIp (net.config c)

theorem Net.Run.askedHome (hrun : net.Run tr s) {call : SendCall C} (hcall : Called tr c call)
    {req : BootstrapReq} (hmsg : call.msg = .bootstrapReq req) :
    ∃ clientCfg, AskedHome net c call req clientCfg := by
  obtain ⟨pre, l, post, s₁, s₂, did, -, -, hstep, -, hdoes, hmem, hcause⟩ := hrun.caused hcall
  cases hcause with
  | delivered _ _ _ _ hemit _ | injected _ _ _ hemit _ =>
      rw [hmsg] at hemit
      exact absurd hemit Emits.not_bootstrapReq
  | acted hlocal =>
      obtain ⟨-, rfl⟩ := hdoes.act_inv
      have hact := hstep.act_of_act
      generalize s₁.node c = p at hlocal hact
      cases hlocal with
      | originated horig _ =>
          rw [hmsg] at horig
          exact absurd horig Originates.not_bootstrapReq
      | asked _ _ _ =>
          obtain ⟨-, rfl⟩ := Prod.mk.inj (Option.some.inj hact)
          obtain ⟨peers, hpeers, hcall⟩ := Phase.start_calls hmem
          obtain ⟨clientCfg, home, req', hclient, hhome, hmsg', hkey, htarget, hstealth, hip⟩ :=
            startBootstrap_request hcall
          obtain rfl := Message.bootstrapReq.inj (hmsg.symm.trans hmsg')
          exact ⟨clientCfg, hclient, ⟨peers, home, hpeers, hhome, hkey, htarget⟩, hstealth, hip⟩

/-! ## §4. Agreement. -/

omit [DecidableEq ι] in
/-- A node has different keys for different peers. -/
theorem HonestPeers.same_peer (hpeers : HonestPeers C net) (hkeys : KeysDetermineSecrets C net)
    {A : ι} {peers : PeerTables} (hA : peerTables C (net.identity A) (net.config A) = .ok peers)
    {id id' : String} {p q : PeerRuntime} (hp : peers.byId.lookup id = some p)
    (hq : peers.byId.lookup id' = some q) (hkey : p.key = q.key) : id = id' := by
  obtain ⟨hpid, hpmem, hplink⟩ := peerTables_lookup hA hp
  obtain ⟨hqid, hqmem, hqlink⟩ := peerTables_lookup hA hq
  obtain ⟨B, hBA, hBid, hBpub⟩ := hpeers.peers A _ hpmem
  obtain ⟨D, hDA, hDid, hDpub⟩ := hpeers.peers A _ hqmem
  have hAB := hplink.key
  have hAD := hqlink.key
  rw [hBpub, hkey] at hAB
  rw [hDpub] at hAD
  have hBD : B = D := by
    rcases hkeys _ _ _ _ _ _ _ hAB hAD with ⟨-, h⟩ | ⟨h, -⟩
    · exact hpeers.secrets _ _ h
    · exact absurd (hpeers.secrets _ _ h).symm hDA
  rw [← hpid, ← hqid, hBid, hDid, hBD]

/-- An assignment that opens at a client is the grant of the request that it made, by its
home gateway, which has the stealth that the client knows it by. -/
theorem Net.Run.granted_home (hb : C.BincodeRoundTrips) (ho : C.AeadCorrect)
    (hpeers : HonestPeers C net) (hkeys : KeysDetermineSecrets C net) (hrun : net.Run tr s)
    (hideal : Unforgeable net (tr ++ [l])) {packet : Bytes} {did : Activity C}
    (hl : l.Receives c packet did) {peers : PeerTables}
    (hpeersC : peerTables C (net.identity c) (net.config c) = .ok peers) {peer : PeerRuntime}
    {resp : BootstrapResp}
    (hopen : openDatagram C peers.byId packet = .ok (peer, .bootstrapResp resp)) :
    ∃ clientCfg H shH req asking granting, (net.config c).client = some clientCfg ∧
      (net.config H).node.id = clientCfg.homeGatewayId ∧ s.Runs H shH ∧
      roleIsGateway shH.config = true ∧
      Called tr c asking ∧ asking.msg = .bootstrapReq req ∧
      Called tr H granting ∧ granting.msg = .bootstrapResp resp ∧
      req.requestedStealth = clientCfg.requestedStealth.getD (net.config c).node.stealth ∧
      req.requestedOverlayIp = requestedOverlayIp (net.config c) ∧ resp = grant shH req ∧
      ∃ home, peers.byId.lookup clientCfg.homeGatewayId = some home ∧
        home.cfg.stealth = shH.localStealth := by
  -- the response came from the node it names, which granted a request
  obtain ⟨H, granting, hgrants⟩ :=
    Net.Run.authentic_of_open hb ho hpeers hkeys hrun hideal hl hpeersC hopen
  obtain ⟨shH, peer', req, hgranted⟩ := Net.Run.granted hrun hgrants.called hgrants.msg
  obtain ⟨pre₂, l₂, post₂, s₃, packet', did', rfl, hpre₂, hl₂, hopen'⟩ := hgranted.handled
  have hbuilt := hrun.builtFrom H
  obtain ⟨rtH, hH⟩ := Phase.shared_eq_some.mp hgranted.runs
  rw [hH] at hbuilt
  obtain ⟨peersH, hpeersH, hbyId, -⟩ := hbuilt.peers
  rw [hbyId] at hopen'
  have hideal₂ := hideal.of_append
  rw [List.append_cons] at hideal₂
  -- so did the request, and the response was sealed for who made it
  obtain ⟨c', asking, hasks⟩ :=
    Net.Run.authentic_of_open hb ho hpeers hkeys hpre₂ hideal₂.of_append hl₂ hpeersH hopen'
  obtain ⟨q, hq, hkey⟩ := hgranted.to_peer
  obtain ⟨peersH', p, hpeersH', hp, hkey', -⟩ := hgrants.receiver
  obtain rfl := Except.ok.inj (hpeersH'.symm.trans hpeersH)
  rw [hbyId] at hq
  have hid := hpeers.same_peer hkeys hpeersH hq hp (hkey.symm.trans hkey')
  obtain rfl : c' = c := hpeers.ids c' c (hasks.sender.trans hid)
  -- a client asks its home gateway only
  have hasked := hasks.called
  obtain ⟨clientCfg, hhome⟩ := Net.Run.askedHome hpre₂ hasked hasks.msg
  obtain ⟨peersC', home, hpeersC', hlook, hhomekey, htarget⟩ := hhome.home
  obtain rfl := Except.ok.inj (hpeersC'.symm.trans hpeersC)
  obtain ⟨peersC₂, p₂, hpeersC₂, hp₂, hkey₂, -⟩ := hasks.receiver
  obtain rfl := Except.ok.inj (hpeersC₂.symm.trans hpeersC')
  have hgateway := hpeers.same_peer hkeys hpeersC' hp₂ hlook (hkey₂.symm.trans hhomekey)
  obtain ⟨la, hla, hdida⟩ := hasks.called
  exact ⟨clientCfg, H, shH, req, asking, granting, hhome.client, hgateway, hgranted.runs,
    hgranted.gateway, ⟨la, List.mem_append_left _ hla, hdida⟩, hasks.msg, hgrants.called,
    hgrants.msg, hhome.stealth, hhome.overlayIp, hgranted.granted, home, hlook,
    htarget.symm.trans hgranted.target⟩

/-- A client that runs was granted the request it made, by its home gateway,
which has the stealth that the client knows it by. -/
theorem Net.Run.assigned (hb : C.BincodeRoundTrips) (ho : C.AeadCorrect)
    (hpeers : HonestPeers C net) (hkeys : KeysDetermineSecrets C net) (hrun : net.Run tr s)
    (hideal : Unforgeable net tr) (hc : s.Runs c sh)
    (hclient : roleIsClient (net.config c) = true) :
    ∃ clientCfg H shH req asking granting, (net.config c).client = some clientCfg ∧
      (net.config H).node.id = clientCfg.homeGatewayId ∧ s.Runs H shH ∧
      roleIsGateway shH.config = true ∧
      Called tr c asking ∧ asking.msg = .bootstrapReq req ∧
      Called tr H granting ∧ granting.msg = .bootstrapResp (grant shH req) ∧
      req.requestedStealth = clientCfg.requestedStealth.getD (net.config c).node.stealth ∧
      req.requestedOverlayIp = requestedOverlayIp (net.config c) ∧
      sh.config = adoptAssignment (net.config c) (grant shH req) ∧
      ∃ home, sh.peersById.lookup clientCfg.homeGatewayId = some home ∧
        home.cfg.stealth = shH.localStealth := by
  obtain ⟨pre, l, post, s₁, s₂, rfl, hpre, hstep, hpost, hbefore, hafter⟩ := hrun.started hc
  have hexec := (Lib.Exec.single hstep).append hpost
  rw [List.append_cons] at hideal
  obtain ⟨packet, did, peers, peer, resp, hl, hpeersC, hopen, hconclude⟩ :=
    hstep.assigned hpre hbefore hafter hclient
  obtain ⟨clientCfg, H, shH, req, asking, granting, hcfg, hid, hH, hgateway, hasked, hasking,
    hcalled, hgranting, hstealth, hip, rfl, home, hlook, hknown⟩ :=
    Net.Run.granted_home hb ho hpeers hkeys hpre hideal.of_append hl hpeersC hopen
  have hconfig : sh.config = adoptAssignment (net.config c) (grant shH req) := by
    unfold concludeBootstrap at hconclude
    split at hconclude
    · exact (Prod.mk.inj hconclude).2.symm
    · cases (Prod.mk.inj hconclude).1
  obtain ⟨la, hla, hdida⟩ := hasked
  obtain ⟨lg, hlg, hdidg⟩ := hcalled
  -- its peers are those it asked with
  have hbuilt := hrun.builtFrom c
  obtain ⟨rt, hrunning⟩ := Phase.shared_eq_some.mp hc
  rw [hrunning] at hbuilt
  obtain ⟨peers', hpeersC', hbyId, -⟩ := hbuilt.peers
  obtain rfl := Except.ok.inj (hpeersC'.symm.trans hpeersC)
  exact ⟨clientCfg, H, shH, req, asking, granting, hcfg, hid, exec_shared hexec hH, hgateway,
    ⟨la, List.mem_append_left _ hla, hdida⟩, hasking, ⟨lg, List.mem_append_left _ hlg, hdidg⟩,
    hgranting, hstealth, hip, hconfig, home, hbyId ▸ hlook, hknown⟩

/-- So the client and its home gateway agree, whatever was injected, lost,
delayed or repeated in between: the client runs with what it is configured to
ask for. -/
theorem Net.Run.bootstrap_agreement (hb : C.BincodeRoundTrips) (ho : C.AeadCorrect)
    (hpeers : HonestPeers C net) (hkeys : KeysDetermineSecrets C net) (hrun : net.Run tr s)
    (hideal : Unforgeable net tr) (hc : s.Runs c sh)
    (hclient : roleIsClient (net.config c) = true) :
    ∃ clientCfg H shH req asking granting, (net.config c).client = some clientCfg ∧
      (net.config H).node.id = clientCfg.homeGatewayId ∧ s.Runs H shH ∧
      roleIsGateway shH.config = true ∧
      Called tr c asking ∧ asking.msg = .bootstrapReq req ∧
      Called tr H granting ∧ granting.msg = .bootstrapResp (grant shH req) ∧
      req.requestedStealth = clientCfg.requestedStealth.getD (net.config c).node.stealth ∧
      req.requestedOverlayIp = requestedOverlayIp (net.config c) ∧
      sh.config = adoptAssignment (net.config c) (grant shH req) := by
  obtain ⟨clientCfg, H, shH, req, asking, granting, hcfg, hid, hH, hgateway, hasked, hasking,
    hcalled, hgranting, hstealth, hip, hconfig, -⟩ :=
    Net.Run.assigned hb ho hpeers hkeys hrun hideal hc hclient
  exact ⟨clientCfg, H, shH, req, asking, granting, hcfg, hid, hH, hgateway, hasked, hasking, hcalled,
    hgranting, hstealth, hip, hconfig⟩

end

/-- The client of the attacked network was granted its request by its gateway. -/
theorem Home.agreement_under_attack :
    ∃ (tr : List (Label Crates.ideal (Fin 3))) (s : State Crates.ideal (Fin 3)) (sh shH : Shared)
      (req : BootstrapReq), Attacked tr s ∧ s.Runs 0 sh ∧ s.Runs 2 shH ∧
      req.requestedStealth = Line.stealth 0 ∧
      sh.config = adoptAssignment (Home.net.config 0) (grant shH req) := by
  obtain ⟨tr, s, h⟩ := exists_attacked
  obtain ⟨sh, rt, hi, -⟩ := h.asks
  have hc : s.Runs 0 sh := State.runs_of_running hi
  obtain ⟨clientCfg, H, shH, req, asking, granting, hclient, hH, hruns, -, -, -, -, -, hstealth, -,
    hconfig⟩ :=
    Net.Run.bootstrap_agreement Crates.bincodeRoundTrips_ideal Crates.idealAead_ideal.toAeadCorrect
      honestPeers keysDetermineSecrets h.run h.ideal hc (by decide)
  obtain rfl := Option.some.inj hclient
  obtain rfl : H = 2 := honestPeers.ids H 2 hH
  exact ⟨tr, s, sh, shH, req, h, hc, hruns, hstealth, hconfig⟩

end StealthNet
