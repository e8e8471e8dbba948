/-
  StealthNet.Network.Authentication
  ─────────────────────────────────
  WHOM A NODE LISTENS TO, WITH AN ATTACKER ON THE NETWORK.

  The attacker injects any bytes at any node: forged, modified, replayed,
  reflected to their sender or redirected to a third node.  What it cannot do
  is stated for the bytes it injects (`Unforgeable`): under a key of the
  network, decryption succeeds only on an output of encryption.

  Both directions of a link use one key, and the receiver picks the key by the
  sender id in the clear.  Since a key determines the two identities it is
  between, and no node has itself as a peer, the sender named in the clear is
  the node that sealed, and the receiver is the peer it sealed for
  (`Net.Run.authentic`).
-/
import StealthNet.Network.Wire
import StealthNet.Network.Simulator
import StealthNet.Daemon.Peers

namespace StealthNet

variable {C : Crates} {ι : Type}

/-! ## §1. The assumptions. -/

/-- Ids and secrets are distinct, and the configured peers of a node are other
nodes, with their ids and public keys. -/
structure HonestPeers (C : Crates) (net : Net ι) : Prop where
  ids : ∀ i j, (net.config i).node.id = (net.config j).node.id → i = j
  secrets : ∀ i j, (net.identity i).secret = (net.identity j).secret → i = j
  peers : ∀ i, ∀ cfg ∈ (net.config i).peers, ∃ j, j ≠ i ∧
    cfg.id = (net.config j).node.id ∧ cfg.publicKey = (net.identity j).publicKeyBase64 C

/-- Among the nodes, a derived key determines the pair of secrets. -/
def KeysDetermineSecrets (C : Crates) (net : Net ι) : Prop :=
  ∀ i j i' j' ctx ctx' key,
    (net.identity i).deriveSharedKey C ((net.identity j).publicKeyBase64 C) ctx = .ok key →
    (net.identity i').deriveSharedKey C ((net.identity j').publicKeyBase64 C) ctx' = .ok key →
    (net.identity i).secret = (net.identity i').secret ∧
        (net.identity j).secret = (net.identity j').secret ∨
      (net.identity i).secret = (net.identity j').secret ∧
        (net.identity j).secret = (net.identity i').secret

/-- Node `i` receives some bytes in this step. -/
def Label.Receives (l : Label C ι) (i : ι) (packet : Bytes) (did : Activity C) : Prop :=
  (∃ f keep env, l = .deliver i f keep env did ∧ packet = f.datagram.bytes) ∨
    ∃ env, l = .inject i packet env did

/-- Where a node decrypts with success, the ciphertext is an earlier output of
encryption with the same key, nonce and associated data. -/
def Unforgeable (net : Net ι) (tr : List (Label C ι)) : Prop :=
  ∀ pre l post i packet did peers frame peer plaintext, tr = pre ++ l :: post →
    l.Receives i packet did →
    peerTables C (net.identity i) (net.config i) = .ok peers →
    C.deserializeFrame packet = some frame →
    peers.byId.lookup frame.senderId = some peer →
    C.aeadOpen peer.key frame.nonce (asBytes frame.senderId) frame.ciphertext = some plaintext →
    ∃ j call, Called pre j call ∧ call.key = peer.key ∧ call.senderId = frame.senderId ∧
      call.nonce = frame.nonce ∧ call.ciphertext = frame.ciphertext

/-! ## §2. Who calls `send_direct`. -/

section

variable [DecidableEq ι] {net : Net ι}

theorem Shared.BuiltFrom.call {identity : Identity} {config : Config} {sh : Shared}
    (h : sh.BuiltFrom C identity config) {p : PeerRuntime} {id : String}
    (hp : sh.peersById.lookup id = some p) {call : SendCall C} (hto : call.To sh p call.msg) :
    ∃ peers id p, peerTables C identity config = .ok peers ∧ peers.byId.lookup id = some p ∧
      call.With config.node.id p.addr p.key call.msg := by
  obtain ⟨peers, hpeers, hbyId, -⟩ := h.peers
  exact ⟨peers, id, p, hpeers, hbyId ▸ hp, h.nodeId ▸ hto⟩

/-- A node calls with its own id, for a peer in its table. -/
theorem Net.Run.called {tr : List (Label C ι)} {s : State C ι} (hrun : net.Run tr s) {j : ι}
    {call : SendCall C} (hcall : Called tr j call) :
    ∃ peers id p, peerTables C (net.identity j) (net.config j) = .ok peers ∧
      peers.byId.lookup id = some p ∧
      call.With (net.config j).node.id p.addr p.key call.msg := by
  obtain ⟨l, hl, did, hd, hc⟩ := hcall
  obtain ⟨pre, post, rfl⟩ := List.append_of_mem hl
  obtain ⟨s₁, s₂, hpre, hstep, -⟩ := hrun.split_cons
  have hbuilt := Net.Run.builtFrom hpre j
  have hcause := hstep.called hd hc
  cases hcause with
  | acted hlocal =>
      generalize s₁.node j = p at hlocal hbuilt
      cases hlocal with
      | asked hpeers hhome hto =>
          exact ⟨_, _, _, hpeers, hhome, ⟨hto.senderId, hto.addr, hto.key, rfl⟩⟩
      | originated ho hto =>
          obtain ⟨id, hp⟩ := ho.to_peer
          exact hbuilt.call hp hto
  | delivered _ hn _ _ hemit hto | injected hn _ _ hemit hto =>
      rw [hn] at hbuilt
      obtain ⟨id, hp⟩ := hemit.to_peer
      exact hbuilt.call hp hto

/-! ## §3. An attacker that replays. -/

omit [DecidableEq ι] in
/-- What this step injects was seen before. -/
def Label.replays (seen : List Bytes) : Label C ι → Bool
  | .inject _ packet _ _ => seen.contains packet
  | _ => true

omit [DecidableEq ι] in
/-- Every packet that comes from outside is one that was seen, or sent, before. -/
def replays (seen : List Bytes) : List (Label C ι) → Bool
  | [] => true
  | l :: tr => l.replays seen && replays (seen ++ (datagrams l.effects).map Datagram.bytes) tr

omit [DecidableEq ι] in
theorem replays_inject {seen : List Bytes} {pre post : List (Label C ι)} {i : ι} {packet : Bytes}
    {env : Env} {did : Activity C} (h : replays seen (pre ++ .inject i packet env did :: post) = true) :
    packet ∈ seen ∨ ∃ l ∈ pre, ∃ d, Effect.udpSend d ∈ l.effects ∧ packet = d.bytes := by
  induction pre generalizing seen with
  | nil =>
      rw [List.nil_append, replays, Bool.and_eq_true] at h
      exact Or.inl (List.contains_iff_mem.mp h.1)
  | cons l pre ih =>
      rw [List.cons_append, replays, Bool.and_eq_true] at h
      rcases ih h.2 with hseen | ⟨l', hl', hd⟩
      · rcases List.mem_append.mp hseen with hseen | hseen
        · exact Or.inl hseen
        · obtain ⟨d, hd, rfl⟩ := List.mem_map.mp hseen
          exact Or.inr ⟨l, List.mem_cons_self, d, mem_datagrams.mp hd, rfl⟩
      · exact Or.inr ⟨l', List.mem_cons_of_mem _ hl', hd⟩

/-- What is in flight was sent. -/
theorem Net.Run.sent {tr : List (Label C ι)} {s : State C ι} (hrun : net.Run tr s) {f : Flight C}
    (hf : f ∈ s.inflight) : ∃ l ∈ tr, Effect.udpSend f.datagram ∈ l.effects := by
  refine hrun.history (I := fun tr s => ∀ f ∈ s.inflight, ∃ l ∈ tr,
    Effect.udpSend f.datagram ∈ l.effects) ?_ ?_ f hf
  · intro f hf
    simp [State.init] at hf
  · intro tr s l s' _ ih hstep f hf
    rcases hstep.inflight hf with hf | ⟨i, did, hdoes, hu, -⟩
    · obtain ⟨l', hl', hu⟩ := ih f hf
      exact ⟨l', List.mem_append_left _ hl', hu⟩
    · exact ⟨l, List.mem_append_right _ (List.mem_singleton_self l), hdoes.effects ▸ hu⟩

/-- With an ideal AEAD, an attacker that replays, reflects and redirects what
it recorded forges nothing. -/
theorem Net.Run.unforgeable (hb : C.BincodeRoundTrips) (ha : C.IdealAead)
    {tr : List (Label C ι)} {s : State C ι} (hrun : net.Run tr s) (hreplays : replays [] tr = true) :
    Unforgeable net tr := by
  rintro pre l post i packet did peers frame peer plaintext rfl hl - hframe - hopen
  obtain ⟨s₁, s₂, hpre, hstep, -⟩ := hrun.split_cons
  obtain ⟨l', hl', d, hu, rfl⟩ :
      ∃ l' ∈ pre, ∃ d, Effect.udpSend d ∈ l'.effects ∧ packet = d.bytes := by
    rcases hl with ⟨f, keep, env, rfl, rfl⟩ | ⟨env, rfl⟩
    · obtain ⟨l', hl', hu⟩ := Net.Run.sent hpre hstep.received_of_deliver.1
      exact ⟨l', hl', f.datagram, hu, rfl⟩
    · exact (replays_inject hreplays).resolve_left (by simp)
  -- the frame is the one that was sent, and opens under no other key
  obtain rfl := Option.some.inj ((hb.frame d.framed).symm.trans hframe)
  obtain ⟨hkey, -, -⟩ := ha.open_only d.call.encrypted hopen
  obtain ⟨j, did', hdoes, hu⟩ := Label.exists_does hu
  obtain ⟨pre₁, pre₂, rfl⟩ := List.append_of_mem hl'
  obtain ⟨t₁, t₂, -, hsend, -⟩ := hpre.split_cons
  exact ⟨j, d.call, ⟨l', hl', did', hdoes, hsend.encrypted_of_udpSend hdoes hu⟩, hkey.symm, rfl, rfl,
    rfl⟩

/-! ## §4. Authenticity. -/

/-- The node with the sender's id called `send_direct` on the message, with
its key for the receiver. -/
structure Authentic (net : Net ι) (tr : List (Label C ι)) (B : ι) (peer : PeerRuntime)
    (m : Message) (A : ι) (call : SendCall C) : Prop where
  sender : (net.config A).node.id = peer.cfg.id
  called : Called tr A call
  msg : call.msg = m
  receiver : ∃ peers p, peerTables C (net.identity A) (net.config A) = .ok peers ∧
    peers.byId.lookup (net.config B).node.id = some p ∧ call.key = p.key ∧ call.addr = p.addr

/-- A call under the key of a peer, with its id, is from this peer and for the
node that has the key. -/
theorem Net.Run.authentic_of_key (hpeers : HonestPeers C net) (hkeys : KeysDetermineSecrets C net)
    {tr : List (Label C ι)} {s : State C ι} (hrun : net.Run tr s) {B : ι} {peers : PeerTables}
    (hB : peerTables C (net.identity B) (net.config B) = .ok peers) {peer : PeerRuntime}
    {j : ι} {call : SendCall C} (hpeer : peers.byId.lookup call.senderId = some peer)
    (hcall : Called tr j call) (hkey : call.key = peer.key) :
    Authentic net tr B peer call.msg j call := by
  -- the caller has the id in the clear
  obtain ⟨peersJ, id, q, hJ, hq, hto⟩ := Net.Run.called hrun hcall
  obtain ⟨hpid, hpmem, hplink⟩ := peerTables_lookup hB hpeer
  obtain ⟨hqid, hqmem, hqlink⟩ := peerTables_lookup hJ hq
  obtain ⟨A, hAB, hAid, hApub⟩ := hpeers.peers B _ hpmem
  obtain rfl : A = j := by
    apply hpeers.ids
    rw [← hAid, hpid, hto.senderId]
  -- the key is the one between the caller and the receiver
  obtain ⟨D, hDA, hDid, hDpub⟩ := hpeers.peers A _ hqmem
  have hBA := hplink.key
  have hAD := hqlink.key
  rw [hApub] at hBA
  rw [hDpub, ← hto.key, hkey] at hAD
  have hDB : D = B := by
    rcases hkeys _ _ _ _ _ _ _ hBA hAD with ⟨h, -⟩ | ⟨h, -⟩
    · exact absurd (hpeers.secrets _ _ h).symm hAB
    · exact (hpeers.secrets _ _ h).symm
  subst hDB
  exact
    { sender := hAid.symm
      called := hcall
      msg := rfl
      receiver := ⟨peersJ, q, hJ, by rw [← hDid, hqid]; exact hq, hto.key, hto.addr⟩ }

/-- What opens at a node was sent to it by the peer it names. -/
theorem Net.Run.authentic_of_open (hb : C.BincodeRoundTrips) (ho : C.AeadCorrect)
    (hpeers : HonestPeers C net) (hkeys : KeysDetermineSecrets C net)
    {tr : List (Label C ι)} {s : State C ι} (hrun : net.Run tr s) {l : Label C ι}
    (hideal : Unforgeable net (tr ++ [l])) {B : ι} {packet : Bytes} {did : Activity C}
    (hl : l.Receives B packet did) {peers : PeerTables}
    (hB : peerTables C (net.identity B) (net.config B) = .ok peers) {peer : PeerRuntime}
    {m : Message} (hopen : openDatagram C peers.byId packet = .ok (peer, m)) :
    ∃ A call, Authentic net tr B peer m A call := by
  obtain ⟨senderId, plaintext, hinspect, hm⟩ := openDatagram_eq_ok_iff.mp hopen
  obtain ⟨frame, hframe, -, -, rfl, hpeer, haead⟩ := inspect_eq_authentic_iff.mp hinspect
  obtain ⟨j, call, hcall, hkey, hsender, hnonce, hct⟩ :=
    hideal tr l [] B packet did peers frame peer plaintext rfl hl hB hframe hpeer haead
  -- the plaintext is the one that was sealed
  have hseal := ho.open_seal call.encrypted
  rw [hkey, hsender, hnonce, hct, haead] at hseal
  obtain rfl := Option.some.inj hseal
  rw [hb.message call.serialized] at hm
  rw [← Except.ok.inj hm]
  exact ⟨j, call, hrun.authentic_of_key hpeers hkeys hB (hsender ▸ hpeer) hcall hkey⟩

theorem Step.received {s s' : State C ι} {l : Label C ι} (h : Step net s l s') {i : ι}
    {packet : Bytes} {did : Activity C} (hl : l.Receives i packet did) :
    ∃ env, Received C env packet (s.node i) (s'.node i) did := by
  rcases hl with ⟨f, keep, env, rfl, rfl⟩ | ⟨env, rfl⟩
  · exact ⟨env, h.received_of_deliver.2.2⟩
  · exact ⟨env, h.received_of_inject⟩

/-- Whatever the attacker injects, a received datagram either has its message
dispatched, and then the node it names as its sender sealed this message for
the receiver, or changes nothing, writes nothing and emits nothing; a client
that waits for its bootstrap may give up. -/
theorem Net.Run.authentic (hb : C.BincodeRoundTrips) (ho : C.AeadCorrect)
    (hpeers : HonestPeers C net) (hkeys : KeysDetermineSecrets C net)
    {tr : List (Label C ι)} {s s' : State C ι} {l : Label C ι} (hrun : net.Run tr s)
    (hstep : Step net s l s') (hideal : Unforgeable net (tr ++ [l])) {B : ι} {packet : Bytes}
    {did : Activity C} (hl : l.Receives B packet did) :
    (∃ peer m A call, did.dispatched = some (peer, m) ∧ Authentic net tr B peer m A call) ∨
      (did.dispatched = none ∧ did.effects = [] ∧
        (s'.node B = s.node B ∨
          (∃ config peers requestId, s.node B = .booting config peers requestId) ∧
            s'.node B = .failed)) := by
  have hbuilt := Net.Run.builtFrom hrun B
  obtain ⟨env, hrec⟩ := hstep.received hl
  generalize s.node B = p at hrec hbuilt
  generalize s'.node B = p' at hrec
  cases hrec with
  | deaf | refused => exact Or.inr ⟨rfl, rfl, Or.inl rfl⟩
  | @handled sh rt peer m hopen =>
      obtain ⟨peers, hB, hbyId, -⟩ := hbuilt.peers
      obtain ⟨A, call, hauth⟩ :=
        Net.Run.authentic_of_open hb ho hpeers hkeys hrun hideal hl hB (hbyId ▸ hopen)
      exact Or.inl ⟨peer, m, A, call, rfl, hauth⟩
  | @decided config config' peers requestId p' _ hp' =>
      obtain ⟨-, hB⟩ := hbuilt
      cases hopen : openDatagram C peers.byId packet with
      | ok opened =>
          obtain ⟨A, call, hauth⟩ :=
            Net.Run.authentic_of_open hb ho hpeers hkeys hrun hideal hl hB hopen
          exact Or.inl ⟨_, _, A, call, rfl, hauth⟩
      | error e =>
          refine Or.inr ⟨rfl, rfl, ?_⟩
          rcases hp' with rfl | rfl | ⟨-, peer, resp, hopen'⟩
          · exact Or.inl rfl
          · exact Or.inr ⟨⟨_, _, _, rfl⟩, rfl⟩
          · rw [hopen] at hopen'
            cases hopen'

end

namespace Line

theorem honestPeers : HonestPeers Crates.ideal net where
  ids := by
    have h : ∀ i j : Fin 3, name i = name j → i = j := by decide
    exact h
  secrets := by
    have h : ∀ i j : Fin 3, (identity i).secret = (identity j).secret → i = j := by decide +kernel
    exact h
  peers := by
    have h : ∀ i : Fin 3, ∀ cfg ∈ (config i).peers, ∃ j, j ≠ i ∧ cfg = peer j := by decide +kernel
    intro i cfg hcfg
    obtain ⟨j, hji, rfl⟩ := h i cfg hcfg
    exact ⟨j, hji, rfl, rfl⟩

theorem keysDetermineSecrets : KeysDetermineSecrets Crates.ideal net := by
  intro i j i' j' ctx ctx' key h h'
  rw [Crates.deriveSharedKey_ideal] at h h'
  have hpairs : ∀ i j i' j' : Fin 3,
      Vector.zipWith (· + ·) (identity i).secret (identity j).secret
        = Vector.zipWith (· + ·) (identity i').secret (identity j').secret →
      i = i' ∧ j = j' ∨ i = j' ∧ j = i' := by
    decide +kernel
  have hsum := Except.ok.inj (h.trans h'.symm)
  rcases hpairs i j i' j' hsum with ⟨rfl, rfl⟩ | ⟨rfl, rfl⟩
  · exact Or.inl ⟨rfl, rfl⟩
  · exact Or.inr ⟨rfl, rfl⟩

/-- The datagram for the middle node, seen on the wire. -/
def seen : Bytes :=
  ((started.play net Env.at [.act 0 (.tunRead packet)]).inflight.flatMap fun f => f.datagram.bytes)

/-- It is reflected to its sender and redirected to the third node. -/
def attack : List (Move (Fin 3)) :=
  boot ++ [.act 0 (.tunRead packet), .inject 0 seen, .inject 2 seen]

/-- What the middle node then dispatches is authentic. -/
theorem authentic_under_attack :
    ∃ (tr : List (Label Crates.ideal (Fin 3))) (s s' : State Crates.ideal (Fin 3))
      (l : Label Crates.ideal (Fin 3)) (did : Activity Crates.ideal) (peer : PeerRuntime)
      (m : Message) (A : Fin 3) (call : SendCall Crates.ideal),
      net.Run tr s ∧ Step net s l s' ∧ l.Does 1 did ∧
      did.dispatched = some (peer, m) ∧ Authentic net tr 1 peer m A call := by
  have hattack : ((Sim.init Crates.ideal (Fin 3)).run net Env.at attack).any (fun r =>
      (r.2.step net Env.at (.deliver 0 false)).any fun r' => replays [] (r.1 ++ [r'.1]) &&
        r'.1.activity.any fun a => a.1 == 1 && a.2.dispatched.isSome) = true := by
    decide +kernel
  obtain ⟨⟨tr, s⟩, hrun, hcheck⟩ := (Option.any_eq_true _ _).mp hattack
  obtain ⟨⟨l, s'⟩, hstep, hcheck⟩ := (Option.any_eq_true _ _).mp hcheck
  obtain ⟨hreplays, hact⟩ := Bool.and_eq_true_iff.mp hcheck
  obtain ⟨⟨i, did⟩, hact, hdid⟩ := (Option.any_eq_true _ _).mp hact
  obtain ⟨hi, hdid⟩ := Bool.and_eq_true_iff.mp hdid
  obtain rfl : i = 1 := beq_iff_eq.mp hi
  obtain ⟨j, f, did', rfl⟩ := Sim.step_deliver hstep
  obtain ⟨rfl, rfl⟩ := Prod.mk.inj (Option.some.inj hact)
  have hrun := Sim.run_sound hrun
  have hstep := Sim.step_sound hstep
  have hideal : Unforgeable net (tr ++ [_]) :=
    Net.Run.unforgeable Crates.bincodeRoundTrips_ideal Crates.idealAead_ideal (hrun.snoc hstep)
      hreplays
  rcases Net.Run.authentic Crates.bincodeRoundTrips_ideal Crates.idealAead_ideal.toAeadCorrect
    honestPeers keysDetermineSecrets hrun hstep hideal (Or.inl ⟨f, false, _, rfl, rfl⟩) with
    ⟨peer, m, A, call, hdis, hauth⟩ | ⟨hnone, -⟩
  · exact ⟨tr, _, _, _, did', peer, m, A, call, hrun, hstep, Label.does_deliver _ _ _ _ _, hdis,
      hauth⟩
  · rw [hnone] at hdid
    cases hdid

end Line

end StealthNet
