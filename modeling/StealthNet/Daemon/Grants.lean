/-
  StealthNet.Daemon.Grants
  ────────────────────────
  WHAT A GATEWAY GRANTS, AND WHOM IT REACHES BY IT.

  A gateway grants every stealth it is asked for.  Whether it then reaches the
  client under that stealth is decided by its own tables, which a grant does
  not touch: `Routed` says when they lead to the client, and
  `GatewayDaemon.grants` that they do so exactly then.
-/
import StealthNet.Daemon.Peers
import StealthNet.Daemon.Opening
import StealthNet.Daemon.Relay
import StealthNet.Ideal

namespace StealthNet

variable {C : Crates} {identity : Identity} {config : Config}

/-- The tables of a gateway give a stealth to a peer: it is the peer's own, or
no peer's, with an overlay route through this peer. -/
def Routed (config : Config) (sh : Shared) (stealth : String) (peer : PeerRuntime) : Prop :=
  peer.cfg.stealth = stealth ∨
    (∀ cfg ∈ config.peers, cfg.stealth ≠ stealth) ∧
      sh.routing.nextHopVia stealth = some peer.cfg.id

/-- Where ids and stealths are distinct, the next hop for a stealth is the
peer it is given to. -/
theorem nextHop_eq_some_iff {tables : PeerTables} {sh : Shared}
    (htables : peerTables C identity config = .ok tables) (hbyId : sh.peersById = tables.byId)
    (hbyStealth : sh.peersByStealth = tables.byStealth)
    (hids : (config.peers.map PeerConfig.id).Nodup)
    (hstealths : (config.peers.map PeerConfig.stealth).Nodup) {peer : PeerRuntime} {id : String}
    (hpeer : sh.peersById.lookup id = some peer) (stealth : String) :
    nextHop sh stealth = some peer ↔ Routed config sh stealth peer := by
  rw [hbyId] at hpeer
  obtain ⟨rfl, hmem, -⟩ := peerTables_lookup htables hpeer
  simp only [nextHop, Routed, hbyId, hbyStealth]
  cases hs : tables.byStealth.lookup stealth with
  | some holder =>
      -- the stealth is some peer's own, and the next hop is this peer
      obtain ⟨cfg, hcfg, rfl, rfl⟩ := peerTables_stealth htables hs
      obtain ⟨p, hp, rfl⟩ := peerTables_lookup_of_mem htables hids hcfg
      constructor
      · intro h
        obtain rfl := Option.some.inj (hp.symm.trans h)
        exact Or.inl rfl
      · rintro (h | ⟨hnone, -⟩)
        · -- two peers with one stealth would be one peer
          have hown := peerTables_stealth_of_mem htables hstealths hmem
          rw [h, hs] at hown
          rw [Option.some.inj hown]
          exact hpeer
        · exact absurd rfl (hnone _ hcfg)
  | none =>
      -- nobody's stealth, so that an overlay route decides
      have hnone : ∀ cfg ∈ config.peers, cfg.stealth ≠ stealth := by
        rintro cfg hcfg rfl
        rw [peerTables_stealth_of_mem htables hstealths hcfg] at hs
        cases hs
      constructor
      · intro h
        obtain ⟨via, hvia, hp⟩ := Option.bind_eq_some_iff.mp h
        obtain ⟨hid, -⟩ := peerTables_lookup htables hp
        exact Or.inr ⟨hnone, hid ▸ hvia⟩
      · rintro (h | ⟨-, hvia⟩)
        · exact absurd h (hnone _ hmem)
        · rw [hvia]
          exact hpeer

/-- The gateway answers a bootstrap request of a peer, ok, with a stealth. -/
def Granted (C : Crates) (sh : Shared) (peer : PeerRuntime) (stealth : String) : Prop :=
  ∃ env t packet req call resp,
    openDatagram C sh.peersById packet = .ok (peer, .bootstrapReq req) ∧
    Effect.encrypted call ∈ (handleDatagram C sh env t packet).effects ∧
    call.msg = .bootstrapResp resp ∧ resp.ok = true ∧ resp.assignedStealth = stealth

/-- The answer to a request for a stealth. -/
theorem handleBootstrapReq_grants {sh : Shared} {env : Env} {t : Tables} {packet : Bytes}
    {peer : PeerRuntime} {req : BootstrapReq} {call : SendCall C}
    (hopen : openDatagram C sh.peersById packet = .ok (peer, .bootstrapReq req))
    (hc : Effect.encrypted call ∈ (handleDatagram C sh env t packet).effects) :
    call.msg = .bootstrapResp (grant sh req) := by
  simp only [handleDatagram, hopen] at hc
  obtain ⟨p, hemit, -⟩ := (dispatch_handled (C := C) _).of_encrypted hc
  generalize call.msg = m at hemit
  cases hemit with
  | granted => rfl
  -- a request for a grant is not passed on
  | relayed hpass => simpa [Message.relayTarget] using hpass.addressed

/-- A gateway built from distinct peers answers every request that it answers
with the stealth that was asked for. It forwards this stealth to the client
exactly if its own tables give the stealth to the client, and they give none
to two. -/
theorem GatewayDaemon.grants {env : Env} {received : List Bytes} {sh : Shared}
    (hnew : GatewayDaemon.new C env identity config received = .ok sh)
    (hids : (config.peers.map PeerConfig.id).Nodup)
    (hstealths : (config.peers.map PeerConfig.stealth).Nodup) :
    (∀ packet peer req env' t call,
      openDatagram C sh.peersById packet = .ok (peer, .bootstrapReq req) →
      Effect.encrypted call ∈ (handleDatagram C sh env' t packet).effects →
      ∃ resp, call.msg = .bootstrapResp resp ∧ resp.ok = true ∧
        resp.assignedStealth = req.requestedStealth ∧
        (nextHop sh resp.assignedStealth = some peer ↔
          Routed config sh resp.assignedStealth peer) ∧
        (Routed config sh resp.assignedStealth peer → ∀ env'' msg,
          forwardByStealth C sh env'' resp.assignedStealth msg
            = sendDirect C env'' sh.config.node.id peer.addr peer.key msg)) ∧
    (∀ id id' peer peer' stealth, sh.peersById.lookup id = some peer →
      sh.peersById.lookup id' = some peer' → Routed config sh stealth peer →
      Routed config sh stealth peer' → peer = peer') := by
  obtain ⟨tables, htables, hbyId, hbyStealth⟩ := GatewayDaemon.new_peers hnew
  have hiff : ∀ {peer id}, sh.peersById.lookup id = some peer → ∀ stealth,
      nextHop sh stealth = some peer ↔ Routed config sh stealth peer :=
    fun hpeer => nextHop_eq_some_iff htables hbyId hbyStealth hids hstealths hpeer
  constructor
  · intro packet peer req env' t call hopen hc
    obtain ⟨senderId, hpeer⟩ := openDatagram_peer hopen
    -- the stealth that is granted is the one asked for
    have hreach := hiff hpeer req.requestedStealth
    refine ⟨grant sh req, handleBootstrapReq_grants hopen hc, rfl, rfl, hreach, ?_⟩
    intro hrouted env'' msg
    exact forwardByStealth_of_nextHop sh env'' (hreach.mpr hrouted) msg
  · intro id id' peer peer' stealth hp hp' h h'
    have := ((hiff hp stealth).mpr h).symm.trans ((hiff hp' stealth).mpr h')
    exact Option.some.inj this

/-- The peer of the middle node with a name, if its request for a stealth is
answered, ok, with that stealth. -/
def Line.grantee (sh : Shared) (i : Fin 3) (stealth : String) : Option PeerRuntime :=
  match openDatagram Crates.ideal sh.peersById (Line.datagram i 1 (Line.request i stealth)) with
  | .ok (peer, .bootstrapReq _) =>
      (sendCalls (handleDatagram Crates.ideal sh (Env.at 1) .init
        (Line.datagram i 1 (Line.request i stealth))).effects).findSome? fun call =>
          match call.msg with
          | .bootstrapResp resp =>
              if resp.ok = true ∧ resp.assignedStealth = stealth then some peer else none
          | _ => none
  | _ => none

theorem Line.granted_of_grantee {sh : Shared} {i : Fin 3} {stealth : String} {peer : PeerRuntime}
    (h : Line.grantee sh i stealth = some peer) : Granted Crates.ideal sh peer stealth := by
  unfold Line.grantee at h
  split at h
  · rename_i p req hopen
    obtain ⟨call, hcall, hresp⟩ := List.exists_of_findSome?_eq_some h
    split at hresp
    · rename_i resp hmsg
      split at hresp
      · rename_i hgrant
        obtain rfl := Option.some.inj hresp
        exact ⟨Env.at 1, .init, _, req, call, resp, hopen, mem_sendCalls.mp hcall, hmsg, hgrant⟩
      · cases hresp
    · cases hresp
  · cases h

/-- Both ends of the line ask the middle node for the stealth of the second.
Evaluated at once. -/
theorem Line.grants_computed :
    ((GatewayDaemon.new Crates.ideal (Env.at 0) (Line.identity 1) (Line.config 1)
      []).toOption.any fun sh => (Line.grantee sh 0 "st-b").any fun peer =>
        (Line.grantee sh 2 "st-b").any fun peer' => decide (peer ≠ peer') &&
          (datagrams (forwardByStealth Crates.ideal sh (Env.at 2) "st-b"
            (.keepalive ⟨4⟩)).effects).any fun d =>
              decide (d.call.addr ≠ peer.addr) && decide (d.call.key ≠ peer.key)) = true := by
  decide +kernel

/-- Both are granted it, and what the gateway forwards to this stealth does not
go to the first. -/
theorem Line.granted_twice : ∃ sh peer peer' stealth,
    GatewayDaemon.new Crates.ideal (Env.at 0) (Line.identity 1) (Line.config 1) [] = .ok sh ∧
    ((Line.config 1).peers.map PeerConfig.id).Nodup ∧
    ((Line.config 1).peers.map PeerConfig.stealth).Nodup ∧ peer ≠ peer' ∧
    Granted Crates.ideal sh peer stealth ∧ Granted Crates.ideal sh peer' stealth ∧
    ∃ env msg d, Effect.udpSend d ∈ (forwardByStealth Crates.ideal sh env stealth msg).effects ∧
      d.call.addr ≠ peer.addr ∧ d.call.key ≠ peer.key := by
  obtain ⟨sh, hnew, hcheck⟩ := (Option.any_eq_true _ _).mp Line.grants_computed
  obtain ⟨peer, hpeer, hcheck⟩ := (Option.any_eq_true _ _).mp hcheck
  obtain ⟨peer', hpeer', hcheck⟩ := (Option.any_eq_true _ _).mp hcheck
  obtain ⟨hne, hcheck⟩ := Bool.and_eq_true_iff.mp hcheck
  obtain ⟨d, hd, hcheck⟩ := List.any_eq_true.mp hcheck
  obtain ⟨haddr, hkey⟩ := Bool.and_eq_true_iff.mp hcheck
  exact ⟨sh, peer, peer', "st-b", Lib.Except.toOption_eq_some_iff.mp hnew, by decide, by decide,
    of_decide_eq_true hne, Line.granted_of_grantee hpeer, Line.granted_of_grantee hpeer', Env.at 2,
    .keepalive ⟨4⟩, d, mem_datagrams.mp hd, of_decide_eq_true haddr, of_decide_eq_true hkey⟩

/-- An end that asks for its own stealth is forwarded to. -/
theorem Line.granted_own : ∃ sh peer,
    GatewayDaemon.new Crates.ideal (Env.at 0) (Line.identity 1) (Line.config 1) [] = .ok sh ∧
    Granted Crates.ideal sh peer "st-a" ∧
    ∀ env msg, forwardByStealth Crates.ideal sh env "st-a" msg
      = sendDirect Crates.ideal env sh.config.node.id peer.addr peer.key msg := by
  have hcomputed : ((GatewayDaemon.new Crates.ideal (Env.at 0) (Line.identity 1) (Line.config 1)
      []).toOption.any fun sh => (Line.grantee sh 0 "st-a").any fun peer =>
        decide (peer.cfg.stealth = "st-a")) = true := by
    decide +kernel
  obtain ⟨sh, hnew, hcheck⟩ := (Option.any_eq_true _ _).mp hcomputed
  have hnew := Lib.Except.toOption_eq_some_iff.mp hnew
  obtain ⟨peer, hpeer, hown⟩ := (Option.any_eq_true _ _).mp hcheck
  have hgranted := Line.granted_of_grantee hpeer
  obtain ⟨env, t, packet, req, call, resp, hopen, hcall, hmsg, hok, hassigned⟩ := hgranted
  obtain ⟨resp', hmsg', -, -, -, hforward⟩ :=
    (GatewayDaemon.grants hnew (by decide) (by decide)).1 packet peer req env t call hopen hcall
  obtain rfl := Message.bootstrapResp.inj (hmsg.symm.trans hmsg')
  rw [hassigned] at hforward
  exact ⟨sh, peer, hnew, ⟨env, t, packet, req, call, resp, hopen, hcall, hmsg, hok,
    hassigned⟩, hforward (Or.inl (of_decide_eq_true hown))⟩

end StealthNet
