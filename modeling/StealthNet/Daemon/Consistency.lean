/-
  StealthNet.Daemon.Consistency
  ─────────────────────────────
  DO THE TWO PEER TABLES AGREE?

  `GatewayDaemon::new` fills `peers_by_stealth` and `peers_by_id` in one loop,
  and a later peer overwrites an earlier one in each of them on its own.  A
  stealth leads to the id of the last peer listed with it, and an id to the
  last peer listed with it.  So the stealth of a peer leads back to a peer
  with this stealth exactly if no peer listed later took the id away
  (`GatewayDaemon.consistent_iff`).
-/
import StealthNet.Daemon.Peers
import StealthNet.Daemon.Bootstrap
import StealthNet.Ideal

namespace StealthNet

open Lib (HashMap)

section

variable {C : Crates} {identity : Identity} {config : Config} {sh : Shared}

/-- The last peer listed with a stealth is also the last one listed with its
id. -/
def KeepsId (peers : List PeerConfig) (stealth : String) : Prop :=
  ∃ pre last post, peers = pre ++ last :: post ∧ last.stealth = stealth ∧
    ∀ later ∈ post, later.stealth ≠ stealth ∧ later.id ≠ last.id

/-- A stealth leads to a listed peer with this stealth, its address and its
link key, and whatever is forwarded to the stealth goes to such a peer. -/
structure Consistent (C : Crates) (identity : Identity) (config : Config) (sh : Shared)
    (stealth : String) : Prop where
  found : ∃ id p, sh.peersByStealth.lookup stealth = some id ∧ sh.peersById.lookup id = some p ∧
    p.cfg.stealth = stealth ∧ p.cfg ∈ config.peers ∧ p.Linked C identity config.node.id
  forwarded : ∀ env msg d, Effect.udpSend d ∈ (forwardByStealth C sh env stealth msg).effects →
    ∃ p, p.cfg.stealth = stealth ∧ p.cfg ∈ config.peers ∧ p.Linked C identity config.node.id ∧
      d.call.To sh p msg

/-- Where the id is kept, both tables hold the same peer. -/
theorem KeepsId.lookup {tables : PeerTables} (h : peerTables C identity config = .ok tables)
    {stealth : String} (hkeeps : KeepsId config.peers stealth) :
    ∃ p, tables.byStealth.lookup stealth = some p.cfg.id ∧
      tables.byId.lookup p.cfg.id = some p ∧ p.cfg.stealth = stealth := by
  obtain ⟨peers, hmap, -, hbyId, hbyStealth⟩ := peerTables_eq_ok h
  obtain ⟨pre, last, post, hsplit, hstealth, hlater⟩ := hkeeps
  rw [hsplit] at hmap
  -- the runtime peers split where the listed ones do
  obtain ⟨pre', rest, rfl, -, hrest⟩ := List.map_eq_append_iff.mp hmap
  obtain ⟨p, post', rfl, rfl, rfl⟩ := List.map_eq_cons_iff.mp hrest
  have hpost : ∀ q ∈ post', q.cfg.stealth ≠ stealth ∧ q.cfg.id ≠ p.cfg.id :=
    fun q hq => hlater q.cfg (List.mem_map_of_mem hq)
  subst hstealth
  refine ⟨p, ?_, ?_, rfl⟩
  · rw [hbyStealth]
    exact HashMap.lookup_fill_of_split (fun p => p.cfg.stealth) (fun p => p.cfg.id)
      fun q hq => (hpost q hq).1
  · rw [hbyId]
    exact HashMap.lookup_fill_of_split (fun p => p.cfg.id) (fun p => p) fun q hq => (hpost q hq).2

/-- Where both tables lead back to a stealth, its id was kept. -/
theorem keepsId_of_lookup {tables : PeerTables} (h : peerTables C identity config = .ok tables)
    {stealth id : String} {p : PeerRuntime} (hs : tables.byStealth.lookup stealth = some id)
    (hp : tables.byId.lookup id = some p) (hstealth : p.cfg.stealth = stealth) :
    KeepsId config.peers stealth := by
  obtain ⟨peers, hmap, -, hbyId, hbyStealth⟩ := peerTables_eq_ok h
  have hlisted : ∃ q ∈ peers, q.cfg.stealth = stealth := by
    rw [hbyStealth] at hs
    rcases HashMap.lookup_fill hs with ⟨q, hq, hqs, -⟩ | hnone
    · exact ⟨q, hq, hqs⟩
    · simp at hnone
  obtain ⟨q, hq, rfl⟩ := hlisted
  obtain ⟨pre, last, post, rfl, hlast, hpost⟩ := HashMap.exists_last (fun p => p.cfg.stealth) hq
  -- the stealth leads to the id of the last peer listed with it
  have hid : last.cfg.id = id := by
    have hlook : (HashMap.fill ∅ (fun p => p.cfg.stealth) (fun p => p.cfg.id)
        (pre ++ last :: post)).lookup last.cfg.stealth = some last.cfg.id :=
      HashMap.lookup_fill_of_split _ _ fun r hr => (hpost r hr).trans_eq hlast.symm
    rw [hbyStealth, ← hlast, hlook] at hs
    exact Option.some.inj hs
  refine ⟨pre.map PeerRuntime.cfg, last.cfg, post.map PeerRuntime.cfg, by rw [← hmap]; simp, hlast,
    fun later hlater => ?_⟩
  obtain ⟨r, hr, rfl⟩ := List.mem_map.mp hlater
  refine ⟨hpost r hr, fun hrid => ?_⟩
  -- a later peer with this id has another stealth, and so has the last of them
  obtain ⟨r', hr', hr'id, hlook⟩ := HashMap.exists_lookup_fill
    (m := HashMap.fill ∅ (fun p => p.cfg.id) (fun p => p) (pre ++ [last]))
    (fun p : PeerRuntime => p.cfg.id) (fun p => p) hr
  have hfill : HashMap.fill (HashMap.fill ∅ (fun p => p.cfg.id) (fun p => p) (pre ++ [last]))
      (fun p => p.cfg.id) (fun p => p) post = tables.byId := by
    rw [hbyId]
    simp [HashMap.fill]
  rw [hfill, hrid, hid, hp] at hlook
  rw [Option.some.inj hlook] at hstealth
  exact hpost r' hr' hstealth

/-- A listed stealth leads back to a peer with this stealth exactly if the last
peer listed with it keeps its id. -/
theorem GatewayDaemon.consistent_iff {env : Env} {received : List Bytes}
    (h : GatewayDaemon.new C env identity config received = .ok sh) :
    ∀ cfg ∈ config.peers,
      Consistent C identity config sh cfg.stealth ↔ KeepsId config.peers cfg.stealth := by
  obtain ⟨tables, htables, hbyId, hbyStealth⟩ := GatewayDaemon.new_peers h
  intro cfg hcfg
  constructor
  · intro hcons
    obtain ⟨id, p, hs, hp, hstealth, -⟩ := hcons.found
    exact keepsId_of_lookup htables (hbyStealth ▸ hs) (hbyId ▸ hp) hstealth
  · intro hkeeps
    obtain ⟨p, hs, hp, hstealth⟩ := hkeeps.lookup htables
    obtain ⟨-, hmem, hlinked⟩ := peerTables_lookup htables hp
    rw [← hbyStealth] at hs
    rw [← hbyId] at hp
    refine ⟨⟨p.cfg.id, p, hs, hp, hstealth, hmem, hlinked⟩, fun env msg d hd => ?_⟩
    -- the next hop goes through the same two lookups
    obtain ⟨⟨q, hq, hto⟩, -⟩ := (forwardByStealth_spec sh env cfg.stealth msg).of_udpSend hd
    simp only [nextHop, hs, hp, Option.some.injEq] at hq
    subst hq
    exact ⟨p, hstealth, hmem, hlinked, hto⟩

/-- Where no id is listed twice, every stealth is consistent. -/
theorem KeepsId.of_nodup {peers : List PeerConfig} (hids : (peers.map PeerConfig.id).Nodup)
    {cfg : PeerConfig} (hcfg : cfg ∈ peers) : KeepsId peers cfg.stealth := by
  obtain ⟨pre, last, post, rfl, hlast, hpost⟩ := HashMap.exists_last PeerConfig.stealth hcfg
  rw [List.map_append, List.map_cons, List.nodup_append, List.nodup_cons] at hids
  refine ⟨pre, last, post, rfl, hlast, fun later hlater => ⟨hpost later hlater, fun hid => ?_⟩⟩
  exact hids.2.1.1 (hid ▸ List.mem_map_of_mem hlater)

end

namespace Line

/-- The first node with the middle one listed twice, the second time under the
last node's stealth and address. -/
def relisted : Config :=
  { config 0 with peers := [peer 1, { peer 1 with stealth := stealth 2, addr := address 2 }] }

/-- What the middle node's stealth leads to. -/
theorem relisted_computed :
    (GatewayDaemon.new Crates.ideal (Env.at 0) (identity 0) relisted []).toOption.any (fun sh =>
      ((sh.peersByStealth.lookup (stealth 1)).bind sh.peersById.lookup).any
        (fun p => p.cfg.stealth == stealth 2) &&
      (datagrams (forwardByStealth Crates.ideal sh (Env.at 0) (stealth 1)
        (.keepalive ⟨4⟩)).effects).any fun d =>
          some d.call.addr == SocketAddr.fromStr (address 2)) = true := by
  decide +kernel

/-- The middle node's stealth leads to a peer with another stealth, and what
is forwarded to it goes to the last node's address. -/
theorem misdirected :
    ∃ sh id p d, GatewayDaemon.new Crates.ideal (Env.at 0) (identity 0) relisted [] = .ok sh ∧
      peer 1 ∈ relisted.peers ∧ sh.peersByStealth.lookup (peer 1).stealth = some id ∧
      sh.peersById.lookup id = some p ∧ p.cfg.stealth ≠ (peer 1).stealth ∧
      Effect.udpSend d ∈ (forwardByStealth Crates.ideal sh (Env.at 0) (peer 1).stealth
        (.keepalive ⟨4⟩)).effects ∧
      some d.call.addr = SocketAddr.fromStr (address 2) := by
  obtain ⟨sh, hsh, h⟩ := (Option.any_eq_true _ _).mp relisted_computed
  rw [Bool.and_eq_true] at h
  obtain ⟨p, hp, hstealth⟩ := (Option.any_eq_true _ _).mp h.1
  obtain ⟨id, hid, hp⟩ := Option.bind_eq_some_iff.mp hp
  obtain ⟨d, hd, haddr⟩ := List.any_eq_true.mp h.2
  refine ⟨sh, id, p, d, Lib.Except.toOption_eq_some_iff.mp hsh, List.mem_cons_self, hid, hp, ?_,
    mem_datagrams.mp hd, beq_iff_eq.mp haddr⟩
  rw [beq_iff_eq.mp hstealth]
  decide

/-- The stealth it was listed with last is consistent. -/
theorem relisted_consistent :
    ∃ sh, GatewayDaemon.new Crates.ideal (Env.at 0) (identity 0) relisted [] = .ok sh ∧
      Consistent Crates.ideal (identity 0) relisted sh (stealth 2) ∧
      ¬ Consistent Crates.ideal (identity 0) relisted sh (stealth 1) := by
  obtain ⟨sh, hsh, -⟩ := (Option.any_eq_true _ _).mp relisted_computed
  have hsh := Lib.Except.toOption_eq_some_iff.mp hsh
  have hiff := GatewayDaemon.consistent_iff hsh
  refine ⟨sh, hsh, (hiff _ (List.mem_cons_of_mem _ List.mem_cons_self)).mpr
    ⟨[peer 1], _, [], rfl, rfl, by simp⟩, fun hcons => ?_⟩
  obtain ⟨pre, last, post, hsplit, hstealth, hlater⟩ := (hiff _ List.mem_cons_self).mp hcons
  have hpeers : relisted.peers
      = [peer 1, { peer 1 with stealth := stealth 2, addr := address 2 }] := rfl
  rw [hpeers] at hsplit
  cases pre with
  | nil =>
      obtain ⟨rfl, rfl⟩ := List.cons.inj hsplit
      exact (hlater _ List.mem_cons_self).2 rfl
  | cons _ pre =>
      obtain ⟨-, hsplit⟩ := List.cons.inj hsplit
      cases pre with
      | nil =>
          obtain ⟨rfl, -⟩ := List.cons.inj hsplit
          have hne : stealth 2 ≠ stealth 1 := by decide
          exact hne hstealth
      | cons _ pre =>
          have hlen := congrArg List.length (List.cons.inj hsplit).2
          simp at hlen

end Line

end StealthNet
