/-
  StealthNet.Network.Links
  ────────────────────────
  LINKS BETWEEN RUNNING NODES.

  A node knows the sender of a datagram if it has a peer entry for the
  sender's id under the key the datagram was sealed with; then the datagram
  opens there (`State.dispatches`).  The next hop of a node for a stealth is
  a `link` if the node at its address knows the sender.

  In a network whose peers are configured mutually and correctly every next
  hop is one (`MutualPeers.link`).  Overlay routes are arbitrary.
-/
import StealthNet.Network.Simulator
import StealthNet.Network.Wire
import StealthNet.Daemon.Peers

namespace StealthNet

variable {C : Crates} {ι : Type}

/-! ## §1. Next hops. -/

/-- Node `j` knows `sh` under the key of `p`. -/
def State.knows (s : State C ι) (j : ι) (sh : Shared) (p : PeerRuntime) : Bool :=
  ((s.node j).shared.bind fun shj => shj.peersById.lookup sh.config.node.id).any fun q =>
    q.key == p.key

/-- The node a datagram for a stealth goes to next. -/
def hop (net : Net ι) (s : State C ι) (target : String) (i : ι) : Option ι :=
  (s.node i).shared.bind fun sh => (nextHop sh target).bind fun p => net.host p.addr

/-- The next hop, where it knows the sender. -/
def link (net : Net ι) (s : State C ι) (target : String) (i : ι) : Option ι :=
  (s.node i).shared.bind fun sh => (nextHop sh target).bind fun p =>
    (net.host p.addr).filter fun j => s.knows j sh p

variable {net : Net ι} {s : State C ι}

theorem State.knows_iff {j : ι} {sh : Shared} {p : PeerRuntime} :
    s.knows j sh p = true ↔ ∃ shj q, s.Runs j shj ∧
      shj.peersById.lookup sh.config.node.id = some q ∧ q.key = p.key := by
  simp only [State.knows, Option.any_eq_true, Option.bind_eq_some_iff, beq_iff_eq]
  constructor
  · rintro ⟨q, ⟨shj, hj, hq⟩, hkey⟩
    exact ⟨shj, q, hj, hq, hkey⟩
  · rintro ⟨shj, q, hj, hq, hkey⟩
    exact ⟨q, ⟨shj, hj, hq⟩, hkey⟩

theorem hop_eq {i : ι} {sh : Shared} (hi : s.Runs i sh) (target : String) :
    hop net s target i = (nextHop sh target).bind fun p => net.host p.addr := by
  simp only [hop, show (s.node i).shared = some sh from hi, Option.bind_some]

theorem link_eq_some_iff {i j : ι} {target : String} :
    link net s target i = some j ↔ ∃ sh p, s.Runs i sh ∧ nextHop sh target = some p ∧
      net.host p.addr = some j ∧ s.knows j sh p = true := by
  simp only [link, Option.bind_eq_some_iff, Option.filter_eq_some_iff]
  constructor
  · rintro ⟨sh, hi, p, hp, hj, hknows⟩
    exact ⟨sh, p, hi, hp, hj, hknows⟩
  · rintro ⟨sh, p, hi, hp, hj, hknows⟩
    exact ⟨sh, hi, p, hp, hj, hknows⟩

/-- What was sent to a peer opens at a node that knows the sender. -/
theorem State.opens (hb : C.BincodeRoundTrips) (ha : C.IdealAead) {j : ι} {sh : Shared}
    {p : PeerRuntime} (hknows : s.knows j sh p = true) {d : Datagram C} {m : Message}
    (hto : d.call.To sh p m) :
    ∃ shj q, s.Runs j shj ∧ openDatagram C shj.peersById d.bytes = .ok (q, m) := by
  obtain ⟨shj, q, hj, hq, hkey⟩ := State.knows_iff.mp hknows
  exact ⟨shj, q, hj, (openDatagram_datagram hb ha d).mpr ⟨by rw [hto.senderId]; exact hq,
    hkey.trans hto.key.symm, hto.msg.symm⟩⟩

/-! ## §2. Mutually configured peers. -/

/-- All nodes run, ids and stealths are distinct, and every configured peer is a node,
configured as it is, that has this node among its peers. -/
structure MutualPeers (C : Crates) (net : Net ι) (s : State C ι) : Prop where
  running : ∀ i, ∃ sh, s.Runs i sh
  ids : ∀ i j, (net.config i).node.id = (net.config j).node.id → i = j
  stealths : s.DistinctStealths
  peers : ∀ i, ∀ cfg ∈ (net.config i).peers, ∃ j sh, s.Runs j sh ∧
    cfg.id = (net.config j).node.id ∧ cfg.stealth = sh.localStealth ∧
    cfg.publicKey = (net.identity j).publicKeyBase64 C ∧
    (∃ addr, SocketAddr.fromStr cfg.addr = some addr ∧ net.host addr = some j) ∧
    ∃ cfg' ∈ (net.config j).peers, cfg'.id = (net.config i).node.id

variable [DecidableEq ι]

theorem State.knows_later {s s' : State C ι} {tr : List (Label C ι)}
    (hexec : Lib.Exec (Step net) s tr s') {j : ι} {sh : Shared} {p : PeerRuntime}
    (h : s.knows j sh p = true) : s'.knows j sh p = true := by
  obtain ⟨shj, q, hj, hq⟩ := State.knows_iff.mp h
  exact State.knows_iff.mpr ⟨shj, q, exec_shared hexec hj, hq⟩

/-- What a running node does with a datagram that opens. -/
theorem Step.handled {s s' : State C ι} {i : ι} {sh : Shared} (hi : s.Runs i sh) {f : Flight C}
    {keep : Bool} {env : Env} {did : Activity C}
    (hstep : Step net s (.deliver i f keep env did) s') {q : PeerRuntime} {m : Message}
    (h : openDatagram C sh.peersById f.datagram.bytes = .ok (q, m) ∨
      did.dispatched = some (q, m)) :
    ∃ rt : Runtime, did = ⟨some (q, m), none, (dispatch C sh env rt.tables q m).effects⟩ := by
  obtain ⟨-, -, hrec⟩ := hstep.received_of_deliver
  obtain ⟨rt, hn⟩ := Phase.shared_eq_some.mp hi
  refine ⟨rt, ?_⟩
  rw [hn] at hrec
  generalize s'.node i = p' at hrec
  cases hrec with
  | deaf hp => rcases hp with hp | hp <;> cases hp
  | refused hopen =>
      rcases h with h | h
      · rw [h] at hopen; cases hopen
      · cases h
  | handled hopen =>
      rcases h with h | h
      · rw [hopen] at h
        obtain ⟨rfl, rfl⟩ := Prod.mk.inj (Except.ok.inj h)
        rfl
      · obtain ⟨rfl, rfl⟩ := Prod.mk.inj (Option.some.inj h)
        rfl

/-- A datagram is dispatched where it is delivered, by a node that knows the
sender. -/
theorem State.dispatches (hb : C.BincodeRoundTrips) (ha : C.IdealAead) {s s' : State C ι} {i : ι}
    {sh : Shared} {p : PeerRuntime} (hknows : s.knows i sh p = true) {f : Flight C} {m : Message}
    (hto : f.datagram.call.To sh p m) {keep : Bool} {env : Env} {did : Activity C}
    (hstep : Step net s (.deliver i f keep env did) s') :
    ∃ (shi : Shared) (rt : Runtime) (q : PeerRuntime), s.Runs i shi ∧
      did = ⟨some (q, m), none, (dispatch C shi env rt.tables q m).effects⟩ := by
  obtain ⟨shi, q, hi, hopen⟩ := s.opens hb ha hknows hto
  obtain ⟨rt, hdid⟩ := hstep.handled hi (Or.inl hopen)
  exact ⟨shi, rt, q, hi, hdid⟩

/-- What does not change while the network runs on. -/
theorem MutualPeers.later {s s' : State C ι} {tr : List (Label C ι)} (h : MutualPeers C net s)
    (hexec : Lib.Exec (Step net) s tr s') : MutualPeers C net s' := by
  -- every node runs already, so it runs with what it ran with before
  have hback : ∀ {i sh}, s'.Runs i sh → s.Runs i sh := by
    intro i sh hi
    obtain ⟨sh', hi'⟩ := h.running i
    rw [← Option.some.inj ((exec_shared hexec hi').symm.trans hi)]
    exact hi'
  refine ⟨fun i => ?_, h.ids, fun i j sh sh' hi hj => h.stealths i j sh sh' (hback hi) (hback hj),
    fun i cfg hcfg => ?_⟩
  · obtain ⟨sh, hi⟩ := h.running i
    exact ⟨sh, exec_shared hexec hi⟩
  · obtain ⟨j, sh, hj, hrest⟩ := h.peers i cfg hcfg
    exact ⟨j, sh, exec_shared hexec hj, hrest⟩

/-- Each peer of a running node is a node that knows it. -/
theorem MutualPeers.link {s : State C ι} {tr : List (Label C ι)} (h : MutualPeers C net s)
    (hk : C.KeyAgreement) (hrun : net.Run tr s) {i : ι} {sh : Shared} (hi : s.Runs i sh)
    {id : String} {p : PeerRuntime} (hp : sh.peersById.lookup id = some p) :
    ∃ j, net.host p.addr = some j ∧ s.knows j sh p = true := by
  have built : ∀ {i sh}, s.Runs i sh → sh.BuiltFrom C (net.identity i) (net.config i) := by
    intro i sh hi
    obtain ⟨rt, hn⟩ := Phase.shared_eq_some.mp hi
    have := hrun.builtFrom i
    rwa [hn] at this
  obtain ⟨tables, htables, hbyId, -⟩ := (built hi).peers
  obtain ⟨-, hmem, hlink⟩ := peerTables_lookup htables (hbyId ▸ hp)
  obtain ⟨j, shj, hj, hid, -, hpub, ⟨addr, haddr, hhost⟩, cfg', hcfg', hid'⟩ :=
    h.peers i _ hmem
  obtain rfl : addr = p.addr := Option.some.inj (haddr.symm.trans hlink.addr)
  obtain ⟨tables', htables', hbyId', -⟩ := (built hj).peers
  obtain ⟨q, hq⟩ := peerTables_lookup_isSome htables' hcfg'
  obtain ⟨hqid, hqmem, hqlink⟩ := peerTables_lookup htables' hq
  -- the entry under which the other node finds this one is of this one
  obtain ⟨i', -, -, hi'id, -, hqpub, -, -⟩ := h.peers j _ hqmem
  obtain rfl : i' = i := h.ids _ _ (by rw [← hi'id, hqid, hid'])
  refine ⟨j, hhost, State.knows_iff.mpr ⟨shj, q, hj, ?_, ?_⟩⟩
  · rw [(built hi).nodeId, ← hid', hbyId']
    exact hq
  · -- each has the other's public key, so both derive one key
    refine hlink.key_eq hk.x25519_comm hqlink hid (hqid.trans hid') ?_ ?_
    · rw [hpub, decodePublicKey_base64 hk]
    · rw [hqpub, decodePublicKey_base64 hk]

/-- So every next hop is a link. -/
theorem MutualPeers.link_eq_hop {s : State C ι} {tr : List (Label C ι)} (h : MutualPeers C net s)
    (hk : C.KeyAgreement) (hrun : net.Run tr s) (target : String) :
    StealthNet.link net s target = hop net s target := by
  funext i
  obtain ⟨sh, hi⟩ := h.running i
  rw [hop_eq hi]
  cases hp : nextHop sh target with
  | none => simp [StealthNet.link, show (s.node i).shared = some sh from hi, hp]
  | some p =>
      obtain ⟨id, hpeer⟩ := nextHop_peer hp
      obtain ⟨j, hj, hknows⟩ := h.link hk hrun hi hpeer
      rw [Option.bind_some, hj]
      exact link_eq_some_iff.mpr ⟨sh, p, hi, hp, hj, hknows⟩

/-- The nodes in a line are such a network. -/
theorem Line.mutualPeers : MutualPeers Crates.ideal Line.net Line.started.state where
  running i := by
    obtain ⟨sh, hi, -⟩ := Line.runs_started i
    exact ⟨sh, hi⟩
  ids := by
    have h : ∀ i j : Fin 3, Line.name i = Line.name j → i = j := by decide
    exact h
  stealths := Line.distinctStealths .refl
  peers := by
    have h : ∀ i : Fin 3, ∀ cfg ∈ (Line.config i).peers, ∃ j, cfg = Line.peer j ∧
        (SocketAddr.fromStr (Line.address j)).bind Line.net.host = some j ∧
        Line.peer i ∈ (Line.config j).peers := by
      decide +kernel
    intro i cfg hcfg
    obtain ⟨j, rfl, hhost, hback⟩ := h i cfg hcfg
    obtain ⟨sh, hj, hstealth⟩ := Line.runs_started j
    exact ⟨j, sh, hj, rfl, hstealth.symm, rfl, Option.bind_eq_some_iff.mp hhost, _, hback, rfl⟩

end StealthNet
