/-
  StealthNet.Daemon.Peers
  ───────────────────────
  THE PEER TABLES OF A CONFIGURATION.

  Both tables are filled in one pass over the configured peers, a later peer
  overwriting an earlier one with the same id or stealth.

    • `peerTables_lookup`          — an entry is a configured peer, with the
                                     key derived for it;
    • `peerTables_lookup_of_mem`,
      `peerTables_stealth_of_mem`  — where ids and stealths are distinct, every
                                     configured peer has its entries.
-/
import StealthNet.Daemon.Send
import StealthNet.Lib.Except

namespace StealthNet

open Lib (HashMap)

variable {C : Crates} {identity : Identity} {config : Config} {nodeId : String}

/-- A runtime peer comes from its configuration. -/
structure PeerRuntime.Linked (C : Crates) (identity : Identity) (nodeId : String)
    (p : PeerRuntime) : Prop where
  addr : SocketAddr.fromStr p.cfg.addr = some p.addr
  key : identity.deriveSharedKey C p.cfg.publicKey (asBytes (symmetricContext nodeId p.cfg.id))
    = .ok p.key

/-- Two nodes that link each other under their public keys derive one key. -/
theorem PeerRuntime.Linked.key_eq {identity' : Identity} {nodeId' : String} {p q : PeerRuntime}
    (hcomm : ∀ s s', C.x25519 s (C.x25519Public s') = C.x25519 s' (C.x25519Public s))
    (hp : p.Linked C identity nodeId) (hq : q.Linked C identity' nodeId')
    (hpid : p.cfg.id = nodeId') (hqid : q.cfg.id = nodeId)
    (hpkey : decodePublicKey C p.cfg.publicKey = .ok (identity'.publicKey C))
    (hqkey : decodePublicKey C q.cfg.publicKey = .ok (identity.publicKey C)) : q.key = p.key := by
  -- both keys are expanded from one secret, with one context
  have h := hp.key
  have h' := hq.key
  simp only [Identity.deriveSharedKey, hpkey, hpid] at h
  simp only [Identity.deriveSharedKey, hqkey, hqid] at h'
  rw [symmetricContext_comm, Identity.publicKey, hcomm] at h'
  exact Except.ok.inj (h'.symm.trans h)

theorem linkPeer_eq_ok {peer : PeerConfig} {p : PeerRuntime}
    (h : linkPeer C identity nodeId peer = .ok p) :
    p.cfg = peer ∧ p.Linked C identity nodeId := by
  unfold linkPeer at h
  cases haddr : SocketAddr.fromStr peer.addr with
  | none => simp [haddr, bind, Except.bind] at h
  | some addr =>
      rw [haddr] at h
      obtain ⟨addr', ha, h⟩ := Lib.Except.bind_eq_ok_iff.mp h
      obtain rfl := Except.ok.inj ha
      obtain ⟨key, hkey, h⟩ := Lib.Except.bind_eq_ok_iff.mp h
      obtain rfl := Except.ok.inj h
      exact ⟨rfl, haddr, hkey⟩

/-- The runtime peers a configuration gives, in order. -/
theorem peerTables_eq_ok {tables : PeerTables}
    (h : peerTables C identity config = .ok tables) :
    ∃ peers : List PeerRuntime, peers.map PeerRuntime.cfg = config.peers ∧
      (∀ p ∈ peers, p.Linked C identity config.node.id) ∧
      tables.byId = HashMap.fill ∅ (fun p => p.cfg.id) (fun p => p) peers ∧
      tables.byStealth = HashMap.fill ∅ (fun p => p.cfg.stealth) (fun p => p.cfg.id) peers := by
  unfold peerTables at h
  obtain ⟨peers, hpeers, h⟩ := Lib.Except.bind_eq_ok_iff.mp h
  obtain rfl := Except.ok.inj h
  -- link by link, each runtime peer belongs to the entry at its place
  have hall : List.Forall₂ (fun p cfg => p.Linked C identity config.node.id ∧ p.cfg = cfg)
      peers config.peers :=
    (Lib.Except.mapM_eq_ok_iff.mp hpeers).flip.imp fun _ _ hlink => (linkPeer_eq_ok hlink).symm
  obtain ⟨hlinked, hcfg⟩ := (List.forall₂_and_left _ _).mp hall
  refine ⟨peers, ?_, hlinked, rfl, rfl⟩
  rw [← List.forall₂_eq_eq_eq]
  exact List.forall₂_map_left_iff.mpr hcfg

/-- What is found under an id is a configured peer with this id. -/
theorem peerTables_lookup {tables : PeerTables} (h : peerTables C identity config = .ok tables)
    {id : String} {p : PeerRuntime} (hp : tables.byId.lookup id = some p) :
    p.cfg.id = id ∧ p.cfg ∈ config.peers ∧ p.Linked C identity config.node.id := by
  obtain ⟨peers, hcfg, hlinked, hbyId, -⟩ := peerTables_eq_ok h
  rw [hbyId] at hp
  rcases HashMap.lookup_fill hp with ⟨q, hq, hid, rfl⟩ | hnone
  · exact ⟨hid, hcfg ▸ List.mem_map_of_mem hq, hlinked q hq⟩
  · simp at hnone

/-- Under the id of a configured peer some peer is found. -/
theorem peerTables_lookup_isSome {tables : PeerTables}
    (h : peerTables C identity config = .ok tables) {cfg : PeerConfig}
    (hcfg : cfg ∈ config.peers) : ∃ p, tables.byId.lookup cfg.id = some p := by
  obtain ⟨peers, hmap, -, hbyId, -⟩ := peerTables_eq_ok h
  rw [← hmap] at hcfg
  obtain ⟨p, hp, rfl⟩ := List.mem_map.mp hcfg
  rw [hbyId]
  obtain ⟨q, -, -, hq⟩ :=
    HashMap.exists_lookup_fill (m := ∅) (fun p => p.cfg.id) (fun p => p) hp
  exact ⟨q, hq⟩

/-- Where ids are distinct, every configured peer is found under its id. -/
theorem peerTables_lookup_of_mem {tables : PeerTables}
    (h : peerTables C identity config = .ok tables)
    (hids : (config.peers.map PeerConfig.id).Nodup) {cfg : PeerConfig}
    (hcfg : cfg ∈ config.peers) :
    ∃ p, tables.byId.lookup cfg.id = some p ∧ p.cfg = cfg := by
  obtain ⟨peers, hmap, -, hbyId, -⟩ := peerTables_eq_ok h
  rw [← hmap] at hcfg hids
  rw [List.map_map] at hids
  obtain ⟨p, hp, rfl⟩ := List.mem_map.mp hcfg
  refine ⟨p, ?_, rfl⟩
  rw [hbyId]
  exact HashMap.lookup_fill_of_mem (fun p => p.cfg.id) (fun p => p) hids hp

/-- Where stealths are distinct, every configured stealth leads to its peer. -/
theorem peerTables_stealth_of_mem {tables : PeerTables}
    (h : peerTables C identity config = .ok tables)
    (hstealths : (config.peers.map PeerConfig.stealth).Nodup) {cfg : PeerConfig}
    (hcfg : cfg ∈ config.peers) : tables.byStealth.lookup cfg.stealth = some cfg.id := by
  obtain ⟨peers, hmap, -, -, hbyStealth⟩ := peerTables_eq_ok h
  rw [← hmap] at hcfg hstealths
  rw [List.map_map] at hstealths
  obtain ⟨p, hp, rfl⟩ := List.mem_map.mp hcfg
  rw [hbyStealth]
  exact HashMap.lookup_fill_of_mem (fun p => p.cfg.stealth) (fun p => p.cfg.id) hstealths hp

/-- A stealth that leads to an id is the stealth of a configured peer with
this id. -/
theorem peerTables_stealth {tables : PeerTables} (h : peerTables C identity config = .ok tables)
    {stealth id : String} (hs : tables.byStealth.lookup stealth = some id) :
    ∃ cfg ∈ config.peers, cfg.stealth = stealth ∧ cfg.id = id := by
  obtain ⟨peers, hmap, -, -, hbyStealth⟩ := peerTables_eq_ok h
  rw [hbyStealth] at hs
  rcases HashMap.lookup_fill hs with ⟨q, hq, hstealth, hid⟩ | hnone
  · exact ⟨q.cfg, hmap ▸ List.mem_map_of_mem hq, hstealth, hid⟩
  · simp at hnone

end StealthNet
