/-
  StealthNet.Network.Cases
  ────────────────────────
  EVERYTHING A NODE CAN DO IN ONE STEP.

    • `Phase.act_cases`     — a step by itself dispatches nothing, writes
                              nothing, and sends at most once (`LocalCall`);
    • `Phase.receive_cases` — a received datagram is refused, or decides a
                              bootstrap, or is dispatched (`Received`);
    • `Step.node`           — a step of the network is for each node one of
                              these, or nothing;
    • `Step.shared`         — a running node keeps running on the same tables
                              of peers and routes.

  Every invariant of a run is derived from these; no later proof unfolds
  `Phase.act` or `Phase.receive`.
-/
import StealthNet.Network.Basic

namespace StealthNet

variable {C : Crates}

/-! ## §1. What a node sends by itself. -/

/-- By itself, a running node sends a message to a peer `p`. -/
inductive Originates (sh : Shared) (rt : Runtime) (env : Env) :
    LocalEvent → PeerRuntime → Message → Prop
  | encapsulated {packet : Bytes} {dst : IpAddr} {route : RouteEntry} {p : PeerRuntime}
      (hdst : packetDestination packet = some dst) (hcast : dst.isMulticast = false)
      (hroute : sh.routing.lookup dst = some route) (hp : nextHop sh route.stealth = some p) :
      Originates sh rt env (.tunRead packet) p
        (.data { srcStealth := sh.localStealth, dstStealth := route.stealth, ttl := 16,
                 innerPacket := packet })
  | kept {peerId : String} {p : PeerRuntime} (hp : sh.peersById.lookup peerId = some p) :
      Originates sh rt env (.keepalive peerId) p (.keepalive { ttl := 4 })
  | registers {reg : ClientRegister} {peerId : String} {p : PeerRuntime}
      (hsrc : reg.srcStealth = sh.localStealth) (httl : reg.ttl = 16)
      (hp : sh.peersById.lookup peerId = some p) :
      Originates sh rt env .clientRegister p (.clientRegister reg)
  | requested {κ : RequestKind} {n : Nat} {job : Job κ} {req : Request κ} {p : PeerRuntime}
      (hjob : rt.jobs κ n = some job) (hreq : job.current = some req)
      (hstage : req.stage = .registered) (hp : nextHop sh req.target = some p) :
      Originates sh rt env (.admin κ n) p
        (requestMessage sh env job.target req.id req.target κ)

theorem Originates.to_peer {sh : Shared} {rt : Runtime} {env : Env} {ev : LocalEvent}
    {p : PeerRuntime} {m : Message} (h : Originates sh rt env ev p m) :
    ∃ id, sh.peersById.lookup id = some p := by
  cases h with
  | encapsulated _ _ _ hp | requested _ _ _ hp => exact nextHop_peer hp
  | kept hp | registers _ _ hp => exact ⟨_, hp⟩

theorem Originates.data_inv {sh : Shared} {rt : Runtime} {env : Env} {ev : LocalEvent}
    {p : PeerRuntime} {data : DataMsg} (h : Originates sh rt env ev p (.data data)) :
    ∃ dst route, ev = .tunRead data.innerPacket ∧
      packetDestination data.innerPacket = some dst ∧ dst.isMulticast = false ∧
      sh.routing.lookup dst = some route ∧ nextHop sh route.stealth = some p ∧
      data = { srcStealth := sh.localStealth, dstStealth := route.stealth, ttl := 16,
               innerPacket := data.innerPacket } := by
  generalize hm : Message.data data = m at h
  cases h with
  | encapsulated hdst hcast hroute hp =>
      obtain rfl := Message.data.inj hm
      exact ⟨_, _, rfl, hdst, hcast, hroute, hp, rfl⟩
  | kept | registers => cases hm
  | @requested κ => cases κ <;> cases hm

/-- A node originates a registration only where the periodic call is due. -/
theorem Originates.clientRegister_inv {sh : Shared} {rt : Runtime} {env : Env} {ev : LocalEvent}
    {p : PeerRuntime} {reg : ClientRegister} (h : Originates sh rt env ev p (.clientRegister reg)) :
    ev = .clientRegister := by
  generalize hm : Message.clientRegister reg = m at h
  cases h with
  | registers => rfl
  | encapsulated | kept => cases hm
  | @requested κ => cases κ <;> cases hm

/-- A call of `send_direct` a node makes by itself: a client asks its home
gateway, or a running node originates a message. -/
inductive LocalCall (C : Crates) (env : Env) (identity : Identity) (config : Config) :
    Phase → LocalEvent → SendCall C → Prop
  | asked {peers : PeerTables} {homeId : String} {home : PeerRuntime} {req : BootstrapReq}
      {call : SendCall C} (hpeers : peerTables C identity config = .ok peers)
      (hhome : peers.byId.lookup homeId = some home)
      (hto : call.With config.node.id home.addr home.key (.bootstrapReq req)) :
      LocalCall C env identity config .stopped .start call
  | originated {sh : Shared} {rt : Runtime} {ev : LocalEvent} {p : PeerRuntime}
      {call : SendCall C} (h : Originates sh rt env ev p call.msg)
      (hto : call.To sh p call.msg) :
      LocalCall C env identity config (.running sh rt) ev call

section

variable {env : Env} {sh : Shared}

theorem handleLocalPacket_spec (sh : Shared) (env : Env) (rt : Runtime) (packet : Bytes) :
    ∃ result, Sent.Spec
      (fun call => ∃ p, Originates sh rt env (.tunRead packet) p call.msg ∧
        call.To sh p call.msg)
      ⟨result, (handleLocalPacket C sh env packet).effects⟩ := by
  unfold handleLocalPacket
  split
  · exact ⟨_, .failed ""⟩
  · rename_i dst hdst
    split
    · exact ⟨_, .failed ""⟩
    · rename_i hcast
      split
      · exact ⟨_, .failed ""⟩
      · rename_i route hroute
        refine ⟨_, (forwardByStealth_spec sh env route.stealth _).mono ?_⟩
        rintro call ⟨p, hp, hto⟩
        refine ⟨p, ?_, hto.msg ▸ hto⟩
        rw [hto.msg]
        -- a packet that parses, is no multicast and has a route
        exact .encapsulated hdst (by simpa using hcast) hroute hp

theorem sendKeepalive_spec (rt : Runtime) (peerId : String) :
    Sent.Spec
      (fun call => ∃ p, Originates sh rt env (.keepalive peerId) p call.msg ∧
        call.To sh p call.msg)
      (sendKeepalive C sh env peerId) := by
  refine (sendToPeer_spec sh env peerId _).mono ?_
  rintro call ⟨p, hp, hto⟩
  exact ⟨p, hto.msg ▸ .kept hp, hto.msg ▸ hto⟩

theorem sendClientRegister_spec (rt : Runtime) :
    Sent.Spec
      (fun call => ∃ p, Originates sh rt env .clientRegister p call.msg ∧
        call.To sh p call.msg)
      (sendClientRegister C sh env rt.tables).1 := by
  unfold sendClientRegister
  split
  · exact .failed _
  · split
    · exact .failed _
    · refine (sendToPeer_spec sh env _ _).mono ?_
      rintro call ⟨p, hp, hto⟩
      refine ⟨p, ?_, hto.msg ▸ hto⟩
      rw [hto.msg]
      exact .registers rfl rfl hp

theorem startBootstrap_spec (env : Env) {identity : Identity} {config : Config} {peers : PeerTables}
    (hpeers : peerTables C identity config = .ok peers) :
    ∃ result, Sent.Spec (LocalCall C env identity config .stopped .start)
      ⟨result, (startBootstrap C env config peers.byId).2⟩ := by
  obtain ⟨result, hspec⟩ := startBootstrap_asks env config peers.byId
  refine ⟨result, hspec.mono fun call hasks => ?_⟩
  obtain ⟨clientCfg, home, req, -, hhome, -, hto⟩ := hasks
  exact .asked hpeers hhome hto

/-- What a running node does by itself, and where it is then. -/
inductive RunningAct (C : Crates) (env : Env) (sh : Shared) (rt : Runtime) :
    LocalEvent → Runtime → Activity C → Prop
  | tunRead {packet : Bytes} :
      RunningAct C env sh rt (.tunRead packet) rt
        (.sending (handleLocalPacket C sh env packet).effects)
  | keepalive {peerId : String} :
      RunningAct C env sh rt (.keepalive peerId) rt (.sending (sendKeepalive C sh env peerId).effects)
  | clientRegister (hrole : roleIsClient sh.config = true) :
      RunningAct C env sh rt .clientRegister
        { rt with tables := (sendClientRegister C sh env rt.tables).2 }
        (.sending (sendClientRegister C sh env rt.tables).1.effects)
  | queried {n : Nat} {request : AdminRequest} (hrequest : request.job = none) :
      RunningAct C env sh rt (.adminRequest n request) rt .idle
  | opened {n : Nat} {request : AdminRequest} {κ : RequestKind} {job : Job κ}
      (hrequest : request.job = some ⟨κ, job⟩) (hnone : rt.jobs κ n = none) :
      RunningAct C env sh rt (.adminRequest n request) (rt.setJob κ n job) .idle
  | advanced {κ : RequestKind} {n : Nat} {job : Job κ} {st : JobStep C κ}
      (hjob : rt.jobs κ n = some job)
      (hst : job.Advances sh env ⟨n, job.results.length⟩ rt.tables st) :
      RunningAct C env sh rt (.admin κ n)
        (({ rt with tables := st.tables } : Runtime).setJob κ n st.job)
        ⟨none, st.drew.map fun (id, target) => ⟨κ, id, ⟨n, job.results.length⟩, target⟩, st.effects⟩
  | replied {r : Reply} (hsending : rt.sending = some r) :
      RunningAct C env sh rt .reply
        (({ rt with sending := none } : Runtime).reply r.kind r.tx r.payload) .idle

/-- A running node keeps what it is made of. -/
theorem Phase.act_running {identity : Identity} {config : Config} {rt : Runtime} {ev : LocalEvent}
    {p' : Phase} {did : Activity C}
    (h : (Phase.running sh rt).act C env identity config ev = some (p', did)) :
    ∃ rt', p' = .running sh rt' ∧ RunningAct C env sh rt ev rt' did := by
  cases ev with
  -- these are for nodes that do not run yet
  | start | bootstrapTimeout => cases h
  | tunRead packet =>
      simp only [Phase.act] at h
      split at h
      · obtain ⟨rfl, rfl⟩ := Prod.mk.inj (Option.some.inj h)
        exact ⟨rt, rfl, .tunRead⟩
      · cases h
  | keepalive peerId =>
      obtain ⟨rfl, rfl⟩ := Prod.mk.inj (Option.some.inj h)
      exact ⟨rt, rfl, .keepalive⟩
  | clientRegister =>
      simp only [Phase.act] at h
      split at h
      · rename_i hrole
        obtain ⟨rfl, rfl⟩ := Prod.mk.inj (Option.some.inj h)
        exact ⟨_, rfl, .clientRegister hrole⟩
      · cases h
  | adminRequest n request =>
      obtain ⟨rt', hacc, heq⟩ := Option.map_eq_some_iff.mp h
      obtain ⟨rfl, rfl⟩ := Prod.mk.inj heq
      refine ⟨rt', rfl, ?_⟩
      unfold Runtime.accept at hacc
      split at hacc
      · rename_i hrequest
        obtain rfl := Option.some.inj hacc
        exact .queried hrequest
      · rename_i κ job hrequest
        split at hacc
        · rename_i hnone
          obtain rfl := Option.some.inj hacc
          exact .opened hrequest (Option.isNone_iff_eq_none.mp hnone)
        · cases hacc
  | admin κ n =>
      obtain ⟨⟨rt', did'⟩, hadv, heq⟩ := Option.map_eq_some_iff.mp h
      obtain ⟨rfl, rfl⟩ := Prod.mk.inj heq
      refine ⟨rt', rfl, ?_⟩
      unfold Runtime.advance at hadv
      split at hadv
      · cases hadv
      · rename_i job hjob
        dsimp only at hadv
        split at hadv
        · cases hadv
        · rename_i st hst
          obtain ⟨rfl, rfl⟩ := Prod.mk.inj (Option.some.inj hadv)
          exact .advanced hjob (Job.advance_cases hst)
  | reply =>
      obtain ⟨rt', hsend, heq⟩ := Option.map_eq_some_iff.mp h
      obtain ⟨rfl, rfl⟩ := Prod.mk.inj heq
      obtain ⟨r, hsending, rfl⟩ := Option.map_eq_some_iff.mp hsend
      exact ⟨_, rfl, .replied hsending⟩

/-- All it sends it originates. -/
theorem RunningAct.sends {rt rt' : Runtime} {ev : LocalEvent} {did : Activity C}
    (h : RunningAct C env sh rt ev rt' did) :
    did.dispatched = none ∧ ∃ result, Sent.Spec
      (fun call => ∃ p, Originates sh rt env ev p call.msg ∧ call.To sh p call.msg)
      ⟨result, did.effects⟩ := by
  refine ⟨by cases h <;> rfl, ?_⟩
  cases h with
  | tunRead => exact handleLocalPacket_spec sh env rt _
  | keepalive => exact ⟨_, sendKeepalive_spec rt _⟩
  | clientRegister _ => exact ⟨_, sendClientRegister_spec rt⟩
  | queried | opened | replied => exact ⟨_, .failed ""⟩
  | @advanced _ _ _ _ hjob hst =>
      cases hst with
      -- of the sections of a thread one sends
      | unresolved | drew | registered | received | timedOut | cleaned => exact ⟨_, .failed ""⟩
      | sent req stage r hreq hstage hr _ =>
          subst hr
          refine ⟨_, (forwardByStealth_spec sh env req.target _).mono ?_⟩
          intro call ⟨p, hp, hto⟩
          refine ⟨p, ?_, hto.msg ▸ hto⟩
          rw [hto.msg]
          exact .requested hjob hreq hstage hp

end

/-- A step of a node by itself. -/
structure Acted (C : Crates) (env : Env) (identity : Identity) (config : Config) (p : Phase)
    (ev : LocalEvent) (did : Activity C) : Prop where
  dispatched : did.dispatched = none
  sends : ∃ result, Sent.Spec (LocalCall C env identity config p ev) ⟨result, did.effects⟩

section

variable {env : Env} {identity : Identity} {config : Config}

theorem Acted.of_sends {sh : Shared} {rt : Runtime} {ev : LocalEvent} {did : Activity C}
    (hd : did.dispatched = none) {result : Except String Unit}
    (h : Sent.Spec
      (fun call => ∃ p, Originates sh rt env ev p call.msg ∧ call.To sh p call.msg)
      ⟨result, did.effects⟩) :
    Acted C env identity config (.running sh rt) ev did :=
  ⟨hd, result, h.mono fun _ ⟨_, horig, hto⟩ => .originated horig hto⟩

theorem Acted.idle {p : Phase} {ev : LocalEvent} :
    Acted C env identity config p ev .idle :=
  ⟨rfl, .error "", .failed ""⟩

theorem Phase.start_acted :
    Acted C env identity config .stopped .start (Phase.start C env identity config).2 := by
  unfold Phase.start
  split
  · exact .idle
  · rename_i peers hpeers
    split
    · obtain ⟨result, hspec⟩ := startBootstrap_spec env hpeers
      split <;> (rename_i hboot; rw [hboot] at hspec; exact ⟨rfl, result, hspec⟩)
    · exact .idle

theorem Phase.act_cases {p p' : Phase} {ev : LocalEvent} {did : Activity C}
    (h : p.act C env identity config ev = some (p', did)) :
    Acted C env identity config p ev did := by
  cases p with
  | running sh rt =>
      obtain ⟨_, -, hact⟩ := Phase.act_running h
      obtain ⟨hd, _, hspec⟩ := hact.sends
      exact .of_sends hd hspec
  | stopped =>
      cases ev with
      | start =>
          obtain ⟨-, rfl⟩ := Prod.mk.inj (Option.some.inj h)
          exact Phase.start_acted
      | _ => cases h
  | booting =>
      cases ev with
      | bootstrapTimeout =>
          obtain ⟨-, rfl⟩ := Prod.mk.inj (Option.some.inj h)
          exact .idle
      | _ => cases h
  | failed => cases ev <;> cases h

end

/-! ## §2. What a node does with a datagram. -/

/-- What a node is made of, once it runs. -/
def Phase.shared : Phase → Option Shared
  | .running sh _ => some sh
  | _ => none

theorem Phase.shared_eq_some {p : Phase} {sh : Shared} :
    p.shared = some sh ↔ ∃ rt, p = .running sh rt := by
  cases p with
  | running sh' rt => simp [Phase.shared]
  | _ => simp [Phase.shared]

/-- Node `i` runs with the shared state `sh`. -/
abbrev State.Runs {ι : Type} (s : State C ι) (i : ι) (sh : Shared) : Prop :=
  (s.node i).shared = some sh

theorem State.runs_of_running {ι : Type} {s : State C ι} {i : ι} {sh : Shared} {rt : Runtime}
    (h : s.node i = .running sh rt) : s.Runs i sh := by
  rw [State.Runs, h]
  rfl

/-- No two running nodes have the same stealth. -/
def State.DistinctStealths {ι : Type} (s : State C ι) : Prop :=
  ∀ i j sh sh', s.Runs i sh → s.Runs j sh' → sh.localStealth = sh'.localStealth → i = j

/-- A running node after an outcome. -/
def Runtime.settle (rt : Runtime) (o : Outcome C) : Runtime :=
  o.effects.foldl Runtime.apply { rt with tables := o.tables }

/-- A reply that waits to be sent touches no table. -/
theorem Runtime.tables_settle (rt : Runtime) (o : Outcome C) :
    (rt.settle o).tables = o.tables := by
  have happly : ∀ (effects : List (Effect C)) (rt : Runtime),
      (effects.foldl Runtime.apply rt).tables = rt.tables := by
    intro effects
    induction effects with
    | nil => intro rt; rfl
    | cons e effects ih =>
        intro rt
        rw [List.foldl_cons, ih]
        cases e <;> rfl
  rw [Runtime.settle, happly]

/-- Nor does sending it. -/
@[simp] theorem Runtime.tables_reply (rt : Runtime) (κ : RequestKind) (tx : Tx)
    (payload : Payload κ) : (rt.reply κ tx payload).tables = rt.tables := by
  unfold Runtime.reply
  split <;> rfl

@[simp] theorem Runtime.sending_reply (rt : Runtime) (κ : RequestKind) (tx : Tx)
    (payload : Payload κ) : (rt.reply κ tx payload).sending = rt.sending := by
  unfold Runtime.reply
  split <;> rfl

/-- A datagram is received: not at all, by a client that waits for its
bootstrap, or by a running node that refuses or dispatches it. -/
inductive Received (C : Crates) (env : Env) (packet : Bytes) :
    Phase → Phase → Activity C → Prop
  | deaf {p : Phase} (h : p = .stopped ∨ p = .failed) : Received C env packet p p .idle
  | decided {config config' : Config} {peers : PeerTables} {requestId : UInt64} {p' : Phase}
      (hid : config'.node.id = config.node.id)
      (hp' : p' = .booting config peers requestId ∨ p' = .failed ∨
        p' = .launch C env config' peers ∧
          ∃ peer resp, openDatagram C peers.byId packet = .ok (peer, .bootstrapResp resp)) :
      Received C env packet (.booting config peers requestId) p'
        ⟨(openDatagram C peers.byId packet).toOption, none, []⟩
  | refused {sh : Shared} {rt : Runtime} {e : String}
      (h : openDatagram C sh.peersById packet = .error e) :
      Received C env packet (.running sh rt) (.running sh rt) .idle
  | handled {sh : Shared} {rt : Runtime} {peer : PeerRuntime} {m : Message}
      (h : openDatagram C sh.peersById packet = .ok (peer, m)) :
      Received C env packet (.running sh rt)
        (.running sh (rt.settle (dispatch C sh env rt.tables peer m)))
        ⟨some (peer, m), none, (dispatch C sh env rt.tables peer m).effects⟩

theorem Phase.receive_cases (env : Env) (packet : Bytes) (p : Phase) :
    Received C env packet p (p.receive C env packet).1 (p.receive C env packet).2 := by
  cases p with
  | stopped => exact .deaf (Or.inl rfl)
  | failed => exact .deaf (Or.inr rfl)
  | booting config peers requestId =>
      simp only [Phase.receive]
      split
      · exact .decided rfl (Or.inr (Or.inl rfl))
      · exact .decided rfl (Or.inl rfl)
      · rename_i resp hdecode
        -- an accepted response opens in `handle_datagram` as well
        obtain ⟨peer, hopen⟩ := openDatagram_of_decode hdecode
        split
        · exact .decided rfl (Or.inr (Or.inl rfl))
        · rename_i config' hc
          exact .decided (concludeBootstrap_id hc) (Or.inr (Or.inr ⟨rfl, peer, resp, hopen⟩))
  | running sh rt =>
      simp only [Phase.receive, handleDatagram]
      cases hopen : openDatagram C sh.peersById packet with
      | error e => exact .refused hopen
      | ok opened => exact .handled hopen

/-- What is dispatched was opened. -/
theorem Received.opened {env : Env} {packet : Bytes} {p p' : Phase} {did : Activity C}
    (h : Received C env packet p p' did) {peer : PeerRuntime} {m : Message}
    (hd : did.dispatched = some (peer, m)) :
    ∃ peers, openDatagram C peers packet = .ok (peer, m) := by
  cases h with
  | deaf | refused => cases hd
  | handled hopen =>
      rw [← Option.some.inj hd]
      exact ⟨_, hopen⟩
  | @decided _ _ peers _ _ _ _ =>
      refine ⟨peers.byId, ?_⟩
      cases hopen : openDatagram C peers.byId packet with
      | error e => rw [hopen] at hd; cases hd
      | ok opened =>
          rw [hopen] at hd
          rw [← Option.some.inj hd]

/-! ## §3. What stays as it was built. -/

/-- What the identity and the configuration of a node fix of it for good. -/
structure Shared.BuiltFrom (C : Crates) (identity : Identity) (config : Config) (sh : Shared) :
    Prop where
  nodeId : sh.config.node.id = config.node.id
  peers : ∃ peers, peerTables C identity config = .ok peers ∧ sh.peersById = peers.byId ∧
    sh.peersByStealth = peers.byStealth

/-- The phase of a node with this identity and this configuration. -/
def Phase.BuiltFrom (C : Crates) (identity : Identity) (config : Config) : Phase → Prop
  | .booting config' peers _ => config' = config ∧ peerTables C identity config = .ok peers
  | .running sh _ => sh.BuiltFrom C identity config
  | _ => True

section

variable {env : Env} {identity : Identity} {config : Config}

theorem Phase.launch_builtFrom {config' : Config} {peers : PeerTables}
    (hid : config'.node.id = config.node.id)
    (hpeers : peerTables C identity config = .ok peers) :
    (Phase.launch C env config' peers).BuiltFrom C identity config := by
  unfold Phase.launch
  split
  · trivial
  · rename_i sh hsh
    obtain ⟨hcfg, hById, hByStealth, -⟩ := buildShared_eq_ok hsh
    exact ⟨by rw [hcfg, hid], peers, hpeers, hById, hByStealth⟩

theorem Phase.act_builtFrom {p p' : Phase} {ev : LocalEvent} {did : Activity C}
    (h : p.act C env identity config ev = some (p', did))
    (hp : p.BuiltFrom C identity config) : p'.BuiltFrom C identity config := by
  cases p with
  | failed => simp [Phase.act] at h
  | booting config' peers requestId =>
      cases ev with
      | bootstrapTimeout =>
          obtain ⟨rfl, -⟩ := Prod.mk.inj (Option.some.inj h)
          trivial
      | _ => simp [Phase.act] at h
  | running sh rt =>
      obtain ⟨_, rfl, -⟩ := Phase.act_running h
      exact hp
  | stopped =>
      cases ev with
      | start =>
          obtain ⟨rfl, -⟩ := Prod.mk.inj (Option.some.inj h)
          show Phase.BuiltFrom C identity config (Phase.start C env identity config).1
          unfold Phase.start
          split
          · trivial
          · rename_i peers hpeers
            split
            · split
              · trivial
              · exact ⟨rfl, hpeers⟩
            · exact Phase.launch_builtFrom rfl hpeers
      | _ => simp [Phase.act] at h

theorem Received.builtFrom {packet : Bytes} {p p' : Phase} {did : Activity C}
    (h : Received C env packet p p' did) (hp : p.BuiltFrom C identity config) :
    p'.BuiltFrom C identity config := by
  cases h with
  | deaf => exact hp
  | refused | handled => exact hp
  | decided hid hp' =>
      obtain ⟨rfl, hpeers⟩ := hp
      -- the client goes on waiting, gives up, or starts to run
      rcases hp' with rfl | rfl | ⟨rfl, -⟩
      · exact ⟨rfl, hpeers⟩
      · trivial
      · exact Phase.launch_builtFrom hid hpeers

end

/-! ## §4. Steps of the network. -/

section

variable {ι : Type} [DecidableEq ι] {net : Net ι} {s s' : State C ι} {l : Label C ι}

/-- What a step does to a node: nothing, a step by itself, or a datagram. -/
inductive NodeStep (C : Crates) (identity : Identity) (config : Config) :
    Phase → Phase → Prop
  | same {p : Phase} : NodeStep C identity config p p
  | act {p p' : Phase} {env : Env} {ev : LocalEvent} {did : Activity C}
      (h : p.act C env identity config ev = some (p', did)) : NodeStep C identity config p p'
  | receive {p p' : Phase} {env : Env} {packet : Bytes} {did : Activity C}
      (h : Received C env packet p p' did) : NodeStep C identity config p p'

theorem Step.node (h : Step net s l s') (i : ι) :
    NodeStep C (net.identity i) (net.config i) (s.node i) (s'.node i) := by
  cases h with
  | @act j ev env p did hact =>
      by_cases hij : i = j
      · subst hij
        rw [show (s.after i p s.inflight _).node i = p from Function.update_self ..]
        exact .act hact
      · rw [show (s.after j p s.inflight _).node i = s.node i from
          Function.update_of_ne hij ..]
        exact .same
  | @deliver j f rest keep env p did hf hi _ hrec =>
      by_cases hij : i = j
      · subst hij
        have hcases := Phase.receive_cases (C := C) env f.datagram.bytes (s.node i)
        rw [hrec] at hcases
        rw [show (s.after i p _ _).node i = p from Function.update_self ..]
        exact .receive hcases
      · rw [show (s.after j p _ _).node i = s.node i from Function.update_of_ne hij ..]
        exact .same
  | @inject j packet env p did _ hrec =>
      by_cases hij : i = j
      · subst hij
        have hcases := Phase.receive_cases (C := C) env packet (s.node i)
        rw [hrec] at hcases
        rw [show (s.after i p _ _).node i = p from Function.update_self ..]
        exact .receive hcases
      · rw [show (s.after j p _ _).node i = s.node i from Function.update_of_ne hij ..]
        exact .same
  | drop => exact .same

theorem NodeStep.running {identity : Identity} {config : Config} {p p' : Phase} {sh : Shared}
    (h : NodeStep C identity config p p') (hp : p.shared = some sh) : p'.shared = some sh := by
  obtain ⟨rt, rfl⟩ := Phase.shared_eq_some.mp hp
  cases h with
  | same => exact hp
  | act hact =>
      obtain ⟨_, rfl, -⟩ := Phase.act_running hact
      rfl
  | receive hrec =>
      cases hrec with
      | deaf h => rcases h with h | h <;> simp at h
      | refused | handled => rfl

theorem NodeStep.builtFrom {identity : Identity} {config : Config} {p p' : Phase}
    (h : NodeStep C identity config p p') (hp : p.BuiltFrom C identity config) :
    p'.BuiltFrom C identity config := by
  cases h with
  | same => exact hp
  | act hact => exact Phase.act_builtFrom hact hp
  | receive hrec => exact hrec.builtFrom hp

theorem Step.shared (h : Step net s l s') {i : ι} {sh : Shared}
    (hi : (s.node i).shared = some sh) : (s'.node i).shared = some sh :=
  (h.node i).running hi

theorem State.DistinctStealths.of_step {l : Label C ι} (h : s'.DistinctStealths)
    (hstep : Step net s l s') : s.DistinctStealths :=
  fun i j sh sh' hi hj => h i j sh sh' (hstep.shared hi) (hstep.shared hj)

/-- Once a node runs, its peers, routes and stealth are fixed. -/
theorem exec_shared {tr : List (Label C ι)} (h : Lib.Exec (Step net) s tr s') {i : ι}
    {sh : Shared} (hi : (s.node i).shared = some sh) : (s'.node i).shared = some sh :=
  h.stable hi fun _ _ _ hstep hs => hstep.shared hs

theorem Net.Run.builtFrom {tr : List (Label C ι)} (h : net.Run tr s) (i : ι) :
    (s.node i).BuiltFrom C (net.identity i) (net.config i) :=
  h.invariant (I := fun s => (s.node i).BuiltFrom C (net.identity i) (net.config i)) trivial
    fun _ _ _ hs hstep => (hstep.node i).builtFrom hs

/-- A step changes no node but the one that takes it. -/
theorem Step.node_of_not_does (h : Step net s l s') {i : ι} (hnot : ∀ did, ¬ l.Does i did) :
    s'.node i = s.node i := by
  -- whoever takes the step is another node
  have other : ∀ {j : ι} {did : Activity C}, l.Does j did → i ≠ j := by
    rintro j did hdoes rfl
    exact hnot did hdoes
  cases h with
  | act _ => exact Function.update_of_ne (other (Label.does_act ..)) ..
  | deliver => exact Function.update_of_ne (other (Label.does_deliver ..)) ..
  | inject => exact Function.update_of_ne (other (Label.does_inject ..)) ..
  | drop _ => rfl

/-- A label says all that is not determined. -/
theorem Step.deterministic {s₁ s₂ : State C ι} (h₁ : Step net s l s₁) (h₂ : Step net s l s₂) :
    s₁ = s₂ := by
  cases h₁ with
  | act h =>
      cases h₂ with
      | act h' =>
          obtain ⟨rfl, -⟩ := Prod.mk.inj (Option.some.inj (h.symm.trans h'))
          rfl
  | deliver hf _ _ h =>
      cases h₂ with
      | deliver hf' _ _ h' =>
          obtain ⟨rfl, -⟩ := Prod.mk.inj (h.symm.trans h')
          -- the label names the datagram, so what is left in flight is one multiset
          obtain rfl := (Multiset.cons_inj_right _).mp (hf.symm.trans hf')
          rfl
  | inject _ h =>
      cases h₂ with
      | inject _ h' =>
          obtain ⟨rfl, -⟩ := Prod.mk.inj (h.symm.trans h')
          rfl
  | drop hf =>
      cases h₂ with
      | drop hf' =>
          obtain rfl := (Multiset.cons_inj_right _).mp (hf.symm.trans hf')
          rfl

theorem Net.Run.deterministic {tr : List (Label C ι)} (h : net.Run tr s) (h' : net.Run tr s') :
    s = s' := by
  refine Lib.Exec.deterministic ?_ h h'
  intro s e s₁ s₂ hs hs'
  exact hs.deterministic hs'

theorem Step.clock (h : Step net s l s') : s'.clock = s.clock + 1 := by
  cases h <;> rfl

theorem exec_clock {tr : List (Label C ι)} (h : Lib.Exec (Step net) s tr s') :
    s'.clock = s.clock + tr.length := by
  induction h with
  | refl => rfl
  | snoc _ hs ih =>
      rw [hs.clock, ih, List.length_append, List.length_singleton]
      omega

end

end StealthNet
