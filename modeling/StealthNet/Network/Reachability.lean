/-
  StealthNet.Network.Reachability
  ───────────────────────────────
  PING REACHABILITY IS DATA REACHABILITY.

  A PingReq is dropped on arrival at ttl 0, even at its target; Data is
  delivered at any ttl but not relayed at ttl 1.  Both start with ttl 16, so
  both reach exactly the nodes that the next hops for the resolved stealth
  first arrive at within 16 hops (`Reaches`):

    • `ping_handled_iff`  — a ping sent for an address is answered by `D`;
    • `data_written_iff`  — a packet read for the address is written by `D`;
    • `ping_reachability_eq_data` — hence one exactly if the other.

  Both are `message_arrives` and `message_path` for the message at hand.
-/
import StealthNet.Network.Travel
import StealthNet.Network.Requests

namespace StealthNet

open Lib (FirstArrival firstArrival_one firstArrival_succ)

variable {C : Crates} {ι : Type}

/-! ## §1. The two observations. -/

/-- A datagram that descends from step `n` makes node `D` answer a ping. -/
def PingHandled (post : List (Label C ι)) (n : Nat) (D : ι) (sh : Shared) : Prop :=
  ∃ (g : Flight C) (keep : Bool) (env : Env) (did : Activity C) (q : PeerRuntime) (ping : PingReq),
    Label.deliver D g keep env did ∈ post ∧ n ∈ g.trail ∧
    did.dispatched = some (q, .pingReq ping) ∧ ping.ttl ≠ 0 ∧
    ping.targetStealth = sh.localStealth ∧
    did.effects = (forwardByStealth C sh env ping.srcStealth (.pingResp (pingResponse sh ping))).effects

/-- A datagram that descends from step `n` makes node `D` write a packet to
its TUN, being for the stealth of `D`. -/
def DataWritten (post : List (Label C ι)) (n : Nat) (D : ι) (sh : Shared) (packet : Bytes) : Prop :=
  ∃ (g : Flight C) (keep : Bool) (env : Env) (did : Activity C) (q : PeerRuntime) (data : DataMsg),
    Label.deliver D g keep env did ∈ post ∧ n ∈ g.trail ∧
    did.dispatched = some (q, .data data) ∧ data.dstStealth = sh.localStealth ∧
    data.innerPacket = packet ∧ Effect.tunWrite packet ∈ did.effects

/-- The stealth that `n₀` looks up for `a` is that of `D`, and its next hops
first arrive at `D` within 16 hops. -/
def Reaches (net : Net ι) (s : State C ι) (n₀ : ι) (sh₀ : Shared) (D : ι) (shD : Shared)
    (a : IpAddr) : Prop :=
  ∃ route k, sh₀.routing.lookup a = some route ∧ route.stealth = shD.localStealth ∧ k ≤ 16 ∧
    FirstArrival (hop net s route.stealth) n₀ D k

/-- A ping is answered by the node it is for. -/
theorem dispatch_ping {sh : Shared} {env : Env} {t : Tables} {q : PeerRuntime} {ping : PingReq}
    (httl : ping.ttl ≠ 0) (htarget : ping.targetStealth = sh.localStealth) :
    (dispatch C sh env t q (.pingReq ping)).effects
      = (forwardByStealth C sh env ping.srcStealth (.pingResp (pingResponse sh ping))).effects := by
  simp only [dispatch, handlePingReq, if_neg httl, if_pos htarget, Outcome.ofSent]

/-- Data for the stealth of a node with a TUN is written to it. -/
theorem dispatch_data {sh : Shared} {env : Env} {t : Tables} {q : PeerRuntime} {data : DataMsg}
    {a : IpAddr} (hdst : packetDestination data.innerPacket = some a)
    (hstealth : data.dstStealth = sh.localStealth) (htun : sh.tun.isSome = true) :
    Effect.tunWrite data.innerPacket ∈ (dispatch C sh env t q (.data data)).effects := by
  obtain ⟨tun, htun⟩ := Option.isSome_iff_exists.mp htun
  simp [dispatch, handleData, hdst, hstealth, htun]

theorem sixteen_toNat : (16 : UInt8).toNat = 16 := rfl

variable [DecidableEq ι] {net : Net ι}

/-- What a running node dispatches, it handles. -/
theorem delivered_of_dispatched {s₀ s s' : State C ι} {mid tr : List (Label C ι)} {n : Nat} {D : ι}
    {sh : Shared} (hD : s₀.Runs D sh) (hmid : Lib.Exec (Step net) s₀ mid s)
    (hexec : Lib.Exec (Step net) s tr s') {g : Flight C} {keep : Bool} {env : Env}
    {did : Activity C} {q : PeerRuntime} {m : Message}
    (hmem : Label.deliver D g keep env did ∈ tr) (hn : n ∈ g.trail)
    (hdid : did.dispatched = some (q, m)) : Delivered s₀ tr n D m := by
  obtain ⟨tr₁, tr₂, rfl⟩ := List.append_of_mem hmem
  obtain ⟨s₁, s₂, h₁, hstep, -⟩ := hexec.split_cons
  obtain ⟨rt, rfl⟩ := hstep.handled (exec_shared (hmid.append h₁) hD) (Or.inr hdid)
  exact ⟨g, keep, env, _, sh, rt, q, hmem, hn, hD, rfl⟩

/-! ## §2. The two events. -/

/-- In step `n` a ping thread of `n₀` sends its request for the address `a`. -/
def PingSent (net : Net ι) (s₀ : State C ι) (n₀ : ι) (a : IpAddr) (n : Nat)
    (post : List (Label C ι)) (s : State C ι) : Prop :=
  ∃ s₁ s₂ j env did sh rt job req, Happens net s₀ s₁ s₂ s (.act n₀ (.admin .ping j) env did) n post ∧
    env.socketAccepts = true ∧ s₁.node n₀ = .running sh rt ∧ rt.jobs .ping j = some job ∧
    job.current = some req ∧ req.stage = .registered ∧ IpAddr.fromStr job.target = some a

/-- In step `n` a packet for the address `a` is read from the TUN of `n₀`. -/
def PacketRead (net : Net ι) (s₀ : State C ι) (n₀ : ι) (a : IpAddr) (packet : Bytes) (n : Nat)
    (post : List (Label C ι)) (s : State C ι) : Prop :=
  ∃ s₁ s₂ env did, Happens net s₀ s₁ s₂ s (.act n₀ (.tunRead packet) env did) n post ∧
    env.socketAccepts = true ∧ packetDestination packet = some a

section

variable {s₀ s : State C ι} {pre post : List (Label C ι)} {n₀ : ι} {sh₀ : Shared} {a : IpAddr}
  {n : Nat}

/-- A ping for an address goes to the stealth that is looked up for it, and is
not sent without one. -/
theorem PingSent.sends (hrun : net.Run pre s₀) (h₀ : s₀.Runs n₀ sh₀)
    (h : PingSent net s₀ n₀ a n post s) :
    ∃ s₁ s₂ l did env route ping, Happens net s₀ s₁ s₂ s l n post ∧ l.Does n₀ did ∧
      env.socketAccepts = true ∧ sh₀.routing.lookup a = some route ∧
      did.effects = (forwardByStealth C sh₀ env route.stealth (.pingReq ping)).effects ∧
      ping.targetStealth = route.stealth ∧ ping.ttl = 16 := by
  obtain ⟨s₁, s₂, j, env, did, sh, rt, job, req, hhap, henv, hn₀, hjob, hreq, hstage, htarget⟩ := h
  obtain ⟨mid, hmid⟩ := hhap.before
  have hsh := exec_shared hmid h₀
  rw [hn₀] at hsh
  obtain rfl : sh = sh₀ := Option.some.inj hsh
  -- the target of the request was resolved when its id was drawn
  have hrun₁ : net.Run (pre ++ mid) s₁ := hrun.append hmid
  have hres := hrun₁.resolved hn₀ hjob hreq
  have hlookup : ∃ route, sh.routing.lookup a = some route ∧ route.stealth = req.target := by
    simp only [resolveTarget, htarget] at hres
    cases hroute : sh.routing.lookup a with
    | none => simp [hroute] at hres
    | some route => exact ⟨route, rfl, by simpa [hroute] using hres⟩
  obtain ⟨route, hroute, hstealth⟩ := hlookup
  have hact := hhap.step.act_of_act
  rw [hn₀] at hact
  obtain ⟨_, -, hact⟩ := Phase.act_running hact
  cases hact with
  | @advanced _ _ job' st hjob' hst =>
      obtain rfl := Option.some.inj (hjob.symm.trans hjob')
      refine ⟨s₁, s₂, _, _, env, route,
        { requestId := req.id
          srcStealth := sh.localStealth
          targetStealth := req.target
          ttl := 16
          timestampMs := env.nowMs
          optionalInnerIp := (IpAddr.fromStr job.target).map toString },
        hhap, Label.does_act .., henv, hroute, ?_, hstealth.symm, rfl⟩
      rw [hstealth]
      -- the thread has entered its id, so this is the section that sends
      cases hst with
      | unresolved _ hnone | drew _ hnone =>
          rw [hreq] at hnone
          cases hnone
      | sent req' stage r hreq' _ hr _ =>
          obtain rfl := Option.some.inj (hreq.symm.trans hreq')
          rw [hr]
          rfl
      | registered req' hreq' hstage' | timedOut req' hreq' hstage'
        | received req' _ _ hreq' hstage' | cleaned req' _ hreq' hstage' =>
          obtain rfl := Option.some.inj (hreq.symm.trans hreq')
          rw [hstage] at hstage'
          cases hstage'

/-- A packet for an address that is not multicast goes to the stealth that is
looked up for it; without one nothing happens. -/
theorem PacketRead.sends {packet : Bytes} (hcast : a.isMulticast = false) (h₀ : s₀.Runs n₀ sh₀)
    (h : PacketRead net s₀ n₀ a packet n post s) :
    ∃ s₁ s₂ l did env, Happens net s₀ s₁ s₂ s l n post ∧ l.Does n₀ did ∧
      env.socketAccepts = true ∧
      match sh₀.routing.lookup a with
      | none => did.effects = []
      | some route => did.effects = (forwardByStealth C sh₀ env route.stealth (.data
          { srcStealth := sh₀.localStealth
            dstStealth := route.stealth
            ttl := 16
            innerPacket := packet })).effects := by
  obtain ⟨s₁, s₂, env, did, hhap, henv, hdst⟩ := h
  obtain ⟨mid, hmid⟩ := hhap.before
  obtain ⟨rt, hn₀⟩ := Phase.shared_eq_some.mp (exec_shared hmid h₀)
  have hact := hhap.step.act_of_act
  rw [hn₀] at hact
  obtain ⟨_, -, hact⟩ := Phase.act_running hact
  cases hact with
  | tunRead =>
      refine ⟨s₁, s₂, _, _, env, hhap, Label.does_act .., henv, ?_⟩
      cases hroute : sh₀.routing.lookup a with
      | none => simp [Activity.sending, handleLocalPacket, hdst, hcast, hroute, Sent.fail]
      | some route => simp [Activity.sending, handleLocalPacket, hdst, hcast, hroute]

end

/-! ## §3. Where they get to. -/

section

variable {s₀ s : State C ι} {pre post : List (Label C ι)} {n₀ D : ι} {sh₀ shD : Shared}
  {a : IpAddr} {n : Nat}

/-- A ping is answered by `D` exactly if the address reaches `D`. -/
theorem ping_handled_iff (hb : C.BincodeRoundTrips) (ha : C.IdealAead) (hk : C.KeyAgreement)
    (hC : C.Total) (hrun : net.Run pre s₀) (hpeers : MutualPeers C net s₀)
    (h₀ : s₀.Runs n₀ sh₀) (hD : s₀.Runs D shD) (hsent : PingSent net s₀ n₀ a n post s)
    (hcomp : Completes n post s) :
    PingHandled post n D shD ↔ Reaches net s₀ n₀ sh₀ D shD a := by
  obtain ⟨s₁, s₂, l, did, env, route, ping, hhap, hdoes, henv, hroute, heff, htarget, httl⟩ :=
    hsent.sends hrun h₀
  obtain ⟨-, tr, hexec⟩ := hhap.run hrun
  constructor
  · rintro ⟨g, keep, env', did', q, pong, hmem, hgn, hdid, hne, hstealth, -⟩
    -- what `D` handles descends from the ping, so it is the ping at the end of its path
    have hdel := delivered_of_dispatched hD hexec hhap.after hmem hgn hdid
    obtain ⟨k, ttl', hm, hsum, -, harr⟩ := message_path hb ha hk hrun hpeers hhap hdoes h₀ heff
      (by rw [← htarget]; rfl) (by simp [Message.minTtl, Message.ttl]) hD hdel rfl
    obtain rfl := Message.pingReq.inj hm
    simp only [Message.ttl, httl, sixteen_toNat] at hsum
    have hpos : 1 ≤ ttl'.toNat := ne_zero_iff_one_le.mp hne
    exact ⟨route, k + 1, hroute, htarget ▸ hstealth, by omega,
      harr (by rw [← hstealth]; exact htarget)⟩
  · rintro ⟨route', k, hroute', hstealth, hk16, harr⟩
    obtain rfl := Option.some.inj (hroute.symm.trans hroute')
    obtain ⟨k, rfl⟩ := Nat.exists_eq_add_of_le' harr.pos
    rw [← hpeers.link_eq_hop hk hrun] at harr
    -- only `D` has the stealth, so every other node passes the ping on
    have hpass : ∀ b sh, s₀.Runs b sh → b ≠ D → PassesOn sh (.pingReq ping) route.stealth :=
      fun b sh hb' hbD => ⟨by rw [← htarget]; rfl,
        fun h => hbD (hpeers.stealths b D sh shD hb' hD (h.symm.trans hstealth)), by simp⟩
    obtain ⟨ttl', ⟨g, keep, env', did', sh', rt, q, hmem, hgn, hsh', rfl⟩, hsum⟩ :=
      message_arrives hb ha hC hhap hcomp hdoes h₀ henv heff hpass
        (by simp only [Message.minTtl, Message.ttl, httl, sixteen_toNat]; omega) harr
    obtain rfl := Option.some.inj (hD.symm.trans hsh')
    simp only [Message.ttl, httl, sixteen_toNat] at hsum
    -- after at most 16 hops one is left of the ttl
    have hne : ttl' ≠ 0 := by
      rintro rfl
      simp at hsum
      omega
    exact ⟨g, keep, env', _, q, _, hmem, hgn, rfl, hne, htarget.trans hstealth,
      dispatch_ping hne (htarget.trans hstealth)⟩

/-- A packet is written by `D` exactly if its destination reaches `D`. -/
theorem data_written_iff (hb : C.BincodeRoundTrips) (ha : C.IdealAead) (hk : C.KeyAgreement)
    (hC : C.Total) (hrun : net.Run pre s₀) (hpeers : MutualPeers C net s₀)
    (h₀ : s₀.Runs n₀ sh₀) (hD : s₀.Runs D shD) (hcast : a.isMulticast = false)
    (howner : ∀ i sh, s₀.Runs i sh → i ≠ D → sh.routing.ownsIp a = false)
    (htun : shD.tun.isSome = true) {packet : Bytes}
    (hread : PacketRead net s₀ n₀ a packet n post s) (hcomp : Completes n post s) :
    DataWritten post n D shD packet ↔ Reaches net s₀ n₀ sh₀ D shD a := by
  obtain ⟨s₁, s₂, l, did, env, hhap, hdoes, henv, heff⟩ := hread.sends hcast h₀
  have hdst : packetDestination packet = some a := by
    obtain ⟨-, -, -, -, -, -, h⟩ := hread
    exact h
  obtain ⟨-, tr, hexec⟩ := hhap.run hrun
  cases hroute : sh₀.routing.lookup a with
  | none =>
      rw [hroute] at heff
      constructor
      · rintro ⟨g, keep, env', did', q, data, hmem, hgn, -⟩
        -- without a route nothing is sent
        exact (hhap.silent hrun hdoes heff hmem hgn).elim
      · rintro ⟨route, k, hroute', -⟩
        rw [hroute] at hroute'
        cases hroute'
  | some route =>
      rw [hroute] at heff
      dsimp only at heff
      constructor
      · rintro ⟨g, keep, env', did', q, data, hmem, hgn, hdid, hstealth, -, -⟩
        have hdel := delivered_of_dispatched hD hexec hhap.after hmem hgn hdid
        obtain ⟨k, ttl', hm, -, henough, harr⟩ := message_path hb ha hk hrun hpeers hhap hdoes h₀
          heff rfl (by simp [Message.minTtl, Message.ttl]) hD hdel rfl
        obtain rfl := Message.data.inj hm
        simp only [Message.minTtl, Message.ttl, sixteen_toNat] at henough
        exact ⟨route, k + 1, hroute, hstealth, by omega, harr hstealth.symm⟩
      · rintro ⟨route', k, hroute', hstealth, hk16, harr⟩
        obtain rfl := Option.some.inj (hroute.symm.trans hroute')
        obtain ⟨k, rfl⟩ := Nat.exists_eq_add_of_le' harr.pos
        rw [← hpeers.link_eq_hop hk hrun] at harr
        -- nor does any other node own the address
        have hpass : ∀ b sh, s₀.Runs b sh → b ≠ D → PassesOn sh (.data
            { srcStealth := sh₀.localStealth, dstStealth := route.stealth, ttl := 16,
              innerPacket := packet }) route.stealth := by
          refine fun b sh hb' hbD => ⟨rfl, fun h => hbD (hpeers.stealths b D sh shD hb' hD
            (h.symm.trans hstealth)), ?_⟩
          rintro data hdata
          obtain rfl := Message.data.inj hdata
          exact ⟨a, hdst, howner b sh hb' hbD⟩
        obtain ⟨ttl', ⟨g, keep, env', did', sh', rt, q, hmem, hgn, hsh', rfl⟩, -⟩ :=
          message_arrives hb ha hC hhap hcomp hdoes h₀ henv heff hpass
            (by simp only [Message.minTtl, Message.ttl, sixteen_toNat]; omega) harr
        obtain rfl := Option.some.inj (hD.symm.trans hsh')
        exact ⟨g, keep, env', _, q, _, hmem, hgn, rfl, hstealth, rfl,
          dispatch_data hdst hstealth htun⟩

/-- A ping for an address is answered by `D` exactly if a packet to it is
written there: both exactly if the address reaches `D` from `n₀`.  Without a
route for the address no ping is sent. -/
theorem ping_reachability_eq_data (hb : C.BincodeRoundTrips) (ha : C.IdealAead)
    (hk : C.KeyAgreement) (hC : C.Total) (hrun : net.Run pre s₀) (hpeers : MutualPeers C net s₀)
    (h₀ : s₀.Runs n₀ sh₀) (hD : s₀.Runs D shD) (hcast : a.isMulticast = false)
    (howner : ∀ i sh, s₀.Runs i sh → i ≠ D → sh.routing.ownsIp a = false)
    (htun : shD.tun.isSome = true) :
    (∀ n post s, PingSent net s₀ n₀ a n post s → Completes n post s →
      (PingHandled post n D shD ↔ Reaches net s₀ n₀ sh₀ D shD a)) ∧
    (∀ packet n post s, PacketRead net s₀ n₀ a packet n post s → Completes n post s →
      (DataWritten post n D shD packet ↔ Reaches net s₀ n₀ sh₀ D shD a)) ∧
    (∀ n post s packet n' post' s', PingSent net s₀ n₀ a n post s → Completes n post s →
      PacketRead net s₀ n₀ a packet n' post' s' → Completes n' post' s' →
      (PingHandled post n D shD ↔ DataWritten post' n' D shD packet)) ∧
    (∀ n post s, PingSent net s₀ n₀ a n post s → (sh₀.routing.lookup a).isSome = true) := by
  have hping : ∀ n post s, PingSent net s₀ n₀ a n post s → Completes n post s →
      (PingHandled post n D shD ↔ Reaches net s₀ n₀ sh₀ D shD a) :=
    fun n post s hsent hcomp => ping_handled_iff hb ha hk hC hrun hpeers h₀ hD hsent hcomp
  have hdata : ∀ packet n post s, PacketRead net s₀ n₀ a packet n post s → Completes n post s →
      (DataWritten post n D shD packet ↔ Reaches net s₀ n₀ sh₀ D shD a) :=
    fun packet n post s hread hcomp =>
      data_written_iff hb ha hk hC hrun hpeers h₀ hD hcast howner htun hread hcomp
  refine ⟨hping, hdata, ?_, ?_⟩
  · intro n post s packet n' post' s' hsent hcomp hread hcomp'
    exact (hping n post s hsent hcomp).trans (hdata packet n' post' s' hread hcomp').symm
  · intro n post s hsent
    obtain ⟨_, _, _, _, _, route, _, -, -, -, hroute, -⟩ := hsent.sends hrun h₀
    rw [hroute]
    rfl

end

/-! ## §4. Along the line. -/

/-- An address behind the last node. -/
def Line.target : IpAddr := .v4 0x0a320307#32

/-- A ping is about to be sent. -/
def Line.asked : Sim Crates.ideal (Fin 3) := Line.started.play Line.net Env.at Line.asking

/-- The routes of the nodes, evaluated at once. -/
theorem Line.routes_computed :
    ((Line.started.node 0).shared.any fun sh =>
      (sh.routing.lookup Line.target).any fun route => route.stealth == Line.stealth 2) = true ∧
    hop Line.net Line.started.state (Line.stealth 2) 0 = some 1 ∧
    hop Line.net Line.started.state (Line.stealth 2) 1 = some 2 ∧
    (∀ i : Fin 3, i ≠ 2 →
      (Line.started.node i).shared.all (fun sh => !sh.routing.ownsIp Line.target) = true) ∧
    (Line.started.node 2).shared.all (fun sh => sh.tun.isSome) = true := by
  decide +kernel

/-- A ping and a packet along the line, evaluated at once. -/
theorem Line.runs_computed :
    (Line.started.run Line.net Env.at Line.asking).isSome = true ∧
    ((Line.asked.node 0).held.any fun (r : Shared × Runtime) =>
      (r.2.jobs .ping 0).any fun job => decide (IpAddr.fromStr job.target = some Line.target) &&
        job.current.any fun req => decide (req.stage = .registered)) = true ∧
    Line.asked.completes Line.net Env.at (.act 0 (.admin .ping 0)) (fun _ => true)
      Line.answering.tail = true ∧
    Line.started.completes Line.net Env.at (.act 0 (.tunRead Line.packet)) (fun _ => true)
      Line.delivery.tail = true := by
  decide +kernel

theorem Line.reaches {sh₀ shD : Shared} (h₀ : Line.started.state.Runs 0 sh₀)
    (hD : Line.started.state.Runs 2 shD) :
    Reaches Line.net Line.started.state 0 sh₀ 2 shD Line.target := by
  obtain ⟨hlookup, hfirst, hsecond, -, -⟩ := Line.routes_computed
  rw [Sim.runs_iff.mp h₀, Option.any_some] at hlookup
  obtain ⟨route, hroute, hstealth⟩ := (Option.any_eq_true _ _).mp hlookup
  have hstealth := beq_iff_eq.mp hstealth
  obtain ⟨sh, hsh, hsh'⟩ := Line.runs_started 2
  obtain rfl := Option.some.inj (hsh.symm.trans hD)
  refine ⟨route, 2, hroute, hstealth.trans hsh'.symm, by omega, ?_⟩
  rw [hstealth]
  exact firstArrival_succ.mpr ⟨1, hfirst, by decide, firstArrival_one.mpr hsecond⟩

theorem Line.ping_sent : ∃ n post s,
    PingSent Line.net Line.started.state 0 Line.target n post s ∧ Completes n post s := by
  obtain ⟨hasking, hready, hcompletes, -⟩ := Line.runs_computed
  obtain ⟨mid, hmid, -⟩ := Sim.exists_run_play (by simp [Line.asking]) hasking
  obtain ⟨l, s₂, post, s', hstep, -, hhap, hcomp⟩ :=
    Sim.exists_completes (s := Line.asked) ⟨mid, hmid⟩ hcompletes
  obtain ⟨did, rfl⟩ := Sim.step_act hstep
  obtain ⟨⟨sh, rt⟩, hheld, hready⟩ := (Option.any_eq_true _ _).mp hready
  obtain ⟨job, hjob, hready⟩ := (Option.any_eq_true _ _).mp hready
  obtain ⟨htarget, hready⟩ := Bool.and_eq_true_iff.mp hready
  obtain ⟨req, hreq, hstage⟩ := (Option.any_eq_true _ _).mp hready
  have hnode : Line.asked.state.node 0 = .running sh rt := Sim.running_iff.mpr hheld
  exact ⟨_, post, _, ⟨_, _, 0, _, did, sh, rt, job, req, hhap, Env.socketAccepts_at _, hnode, hjob,
    hreq, of_decide_eq_true hstage, of_decide_eq_true htarget⟩, hcomp⟩

theorem Line.packet_read : ∃ n post s,
    PacketRead Line.net Line.started.state 0 Line.target Line.packet n post s ∧
      Completes n post s := by
  obtain ⟨l, s₂, post, s', hstep, -, hhap, hcomp⟩ :=
    Sim.exists_completes ⟨[], .refl⟩ Line.runs_computed.2.2.2
  obtain ⟨did, rfl⟩ := Sim.step_act hstep
  exact ⟨_, post, _, ⟨_, _, _, did, hhap, Env.socketAccepts_at _, by decide⟩, hcomp⟩

/-- Both get to the node at the end. -/
theorem Line.ping_and_packet_arrive : ∃ n post s n' post' s' shD,
    PingSent Line.net Line.started.state 0 Line.target n post s ∧ PingHandled post n 2 shD ∧
    PacketRead Line.net Line.started.state 0 Line.target Line.packet n' post' s' ∧
    DataWritten post' n' 2 shD Line.packet := by
  obtain ⟨tr, hrun, -⟩ := Line.run_started
  obtain ⟨sh₀, h₀, -⟩ := Line.runs_started 0
  obtain ⟨shD, hD, -⟩ := Line.runs_started 2
  obtain ⟨-, -, -, hnotOwned, hhasTun⟩ := Line.routes_computed
  have howner : ∀ i sh, Line.started.state.Runs i sh → i ≠ 2 →
      sh.routing.ownsIp Line.target = false := by
    intro i sh hi hne
    have hall := hnotOwned i hne
    rw [Sim.runs_iff.mp hi] at hall
    simpa using hall
  have htun : shD.tun.isSome = true := by
    rwa [Sim.runs_iff.mp hD] at hhasTun
  obtain ⟨hping, hdata, -, -⟩ := ping_reachability_eq_data Crates.bincodeRoundTrips_ideal
    Crates.idealAead_ideal Crates.keyAgreement_ideal Crates.total_ideal hrun Line.mutualPeers h₀ hD
    (by decide) howner htun
  obtain ⟨n, post, s, hsent, hcomp⟩ := Line.ping_sent
  obtain ⟨n', post', s', hread, hcomp'⟩ := Line.packet_read
  exact ⟨n, post, s, n', post', s', shD, hsent,
    (hping n post s hsent hcomp).mpr (Line.reaches h₀ hD), hread,
    (hdata Line.packet n' post' s' hread hcomp').mpr (Line.reaches h₀ hD)⟩

end StealthNet
