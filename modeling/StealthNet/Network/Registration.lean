/-
  StealthNet.Network.Registration
  ───────────────────────────────
  THE ACKNOWLEDGEMENT OF A REGISTRATION.

  A gateway answers a registration and a ping alike: a fresh ttl of 16, sent
  towards the stealth of the origin.  Relays pass a PingResp on, but the arm
  of `handle_datagram` for a ClientRegisterAck has no relay branch.  So the
  PingResp arrives over every path of at most 16 links, and the
  acknowledgement only where the first link already leads to the client
  (`register_ack_delivered_iff`).
-/
import StealthNet.Network.Travel

namespace StealthNet

open Lib (FirstArrival firstArrival_one firstArrival_succ)

variable {C : Crates} {ι : Type}

/-! ## §1. Acknowledgements are never passed on. -/

/-- A node sends nothing on receiving an acknowledgement. -/
theorem not_emits_of_ack {sh : Shared} {env : Env} {t : Tables} {peer p : PeerRuntime}
    {ack : ClientRegisterAck} {m : Message} : ¬ Emits sh env t peer (.clientRegisterAck ack) p m := by
  generalize hack : Message.clientRegisterAck ack = m₀
  intro h
  cases h with
  | granted | acknowledged | ponged | published => cases hack
  | relayed hpass _ _ =>
      have haddr := hpass.addressed
      rw [← hack] at haddr
      cases haddr

/-! ## §2. The events. -/

/-- An acknowledgement that descends from step `n` is dispatched by the node
it is for. -/
def AckDelivered (post : List (Label C ι)) (n : Nat) (c : ι) (sh : Shared) : Prop :=
  ∃ (g : Flight C) (keep : Bool) (env : Env) (did : Activity C) (q : PeerRuntime)
    (ack : ClientRegisterAck), Label.deliver c g keep env did ∈ post ∧ n ∈ g.trail ∧
    did.dispatched = some (q, .clientRegisterAck ack) ∧ ack.dstStealth = sh.localStealth

/-- A PingResp that descends from step `n` is dispatched, with ttl left, by
the node it is for. -/
def PongDelivered (post : List (Label C ι)) (n : Nat) (c : ι) (sh : Shared) : Prop :=
  ∃ (g : Flight C) (keep : Bool) (env : Env) (did : Activity C) (q : PeerRuntime)
    (pong : PingResp), Label.deliver c g keep env did ∈ post ∧ n ∈ g.trail ∧
    did.dispatched = some (q, .pingResp pong) ∧ pong.dstStealth = sh.localStealth ∧ pong.ttl ≠ 0

section

variable [DecidableEq ι] {net : Net ι}

/-- In step `n` the gateway `G` handles a registration of the node with
stealth `origin`, as addressed to itself. -/
def RegistrationHandled (net : Net ι) (s₀ : State C ι) (G : ι) (sh : Shared) (origin : String)
    (n : Nat) (post : List (Label C ι)) (s : State C ι) : Prop :=
  ∃ s₁ s₂ f keep env did q reg, Happens net s₀ s₁ s₂ s (.deliver G f keep env did) n post ∧
    env.socketAccepts = true ∧ did.dispatched = some (q, .clientRegister reg) ∧ reg.ttl ≠ 0 ∧
    reg.targetGatewayStealth = sh.localStealth ∧ reg.srcStealth = origin

/-- In step `n` the node `G` handles a ping of the node with stealth `origin`,
as addressed to itself. -/
def PingAnswered (net : Net ι) (s₀ : State C ι) (G : ι) (sh : Shared) (origin : String)
    (n : Nat) (post : List (Label C ι)) (s : State C ι) : Prop :=
  ∃ s₁ s₂ f keep env did q ping, Happens net s₀ s₁ s₂ s (.deliver G f keep env did) n post ∧
    env.socketAccepts = true ∧ did.dispatched = some (q, .pingReq ping) ∧ ping.ttl ≠ 0 ∧
    ping.targetStealth = sh.localStealth ∧ ping.srcStealth = origin

/-! ## §3. What becomes of the answers. -/

section

variable {s₀ s : State C ι} {pre post : List (Label C ι)} {G c : ι} {shG shc : Shared} {n k : Nat}

/-- A datagram to this address that carries an acknowledgement. -/
def Flight.AckTo (g : Flight C) (addr : SocketAddr) : Prop :=
  g.datagram.call.addr = addr ∧ ∃ ack, g.msg = .clientRegisterAck ack

/-- Only the acknowledgement itself descends from a step that sends one. -/
theorem ack_descendants (hb : C.BincodeRoundTrips) (ha : C.IdealAead) {s s' : State C ι}
    {tr : List (Label C ι)} (hexec : Lib.Exec (Step net) s tr s') (hclock : n < s.clock)
    {addr : SocketAddr} (h₀ : ∀ g ∈ s.inflight, n ∈ g.trail → g.AckTo addr) :
    ∀ g ∈ s'.inflight, n ∈ g.trail → g.AckTo addr := by
  refine exec_descendants hexec hclock h₀ ?_
  intro _ _ _ _ g _ _ _ _ _ hstep hack hd
  obtain ⟨-, ack, hack⟩ := hack
  obtain ⟨-, -, hrec⟩ := hstep.received_of_deliver
  obtain ⟨sh, rt, peer, m', q, -, hopen, -, hemit, -⟩ :=
    hrec.called (hrec.encrypted_of_udpSend hd)
  obtain ⟨-, -, rfl⟩ := (openDatagram_datagram hb ha _).mp hopen
  rw [show g.datagram.call.msg = _ from hack] at hemit
  exact (not_emits_of_ack hemit).elim

/-- An acknowledgement is delivered exactly if the first link leads to the
client. -/
theorem ack_delivered_iff (hb : C.BincodeRoundTrips) (ha : C.IdealAead) (hC : C.Total)
    (hrun : net.Run pre s₀) (hG : s₀.Runs G shG)
    (hpath : FirstArrival (link net s₀ shc.localStealth) G c k)
    (hreg : RegistrationHandled net s₀ G shG shc.localStealth n post s)
    (hcomp : Completes n post s) :
    AckDelivered post n c shc ↔ link net s₀ shc.localStealth G = some c := by
  obtain ⟨s₁, s₂, f, keep, env, did, q, reg, hhap, henv, hdid, httl, htarget, hsrc⟩ := hreg
  obtain ⟨mid, hmid⟩ := hhap.before
  obtain ⟨rt, hdid⟩ := hhap.step.handled (exec_shared hmid hG) (Or.inr hdid)
  have hdoes := Label.does_deliver G f keep env did
  have heff : did.effects = (forwardByStealth C shG env shc.localStealth
      (.clientRegisterAck (registerAck shG reg))).effects := by
    simp only [hdid, dispatch, handleClientRegister, if_neg httl, if_pos htarget, hsrc, Outcome.ofSent]
  have hack₀ : ∀ g ∈ s₂.inflight, n ∈ g.trail →
      ∃ p, nextHop shG shc.localStealth = some p ∧ g.AckTo p.addr := by
    intro g hg hn
    have hu := hhap.udpSend_of_mem hrun hdoes hg hn
    rw [heff] at hu
    obtain ⟨p, hp, hto⟩ := ((forwardByStealth_spec shG env _ _).of_udpSend hu).1
    exact ⟨p, hp, hto.addr, _, hto.msg⟩
  constructor
  · rintro ⟨g, keep', env', did', q', ack, hmem, hgn, hdid', -⟩
    obtain ⟨tr₁, tr₂, rfl⟩ := List.append_of_mem hmem
    obtain ⟨t₁, t₂, h₁, hstep, -⟩ := hhap.after.split_cons
    obtain ⟨b, hlink⟩ := hpath.exists_next
    obtain ⟨sh, p, hsh, hp, hhost, -⟩ := link_eq_some_iff.mp hlink
    obtain rfl := Option.some.inj (hG.symm.trans hsh)
    -- all that descends from this step is the datagram to the next hop
    have hnext : g.AckTo p.addr := by
      refine ack_descendants hb ha h₁ hhap.clock_lt (fun g hg hn => ?_) g
        hstep.received_of_deliver.1 hgn
      obtain ⟨p', hp', hg⟩ := hack₀ g hg hn
      obtain rfl := Option.some.inj (hp.symm.trans hp')
      exact hg
    have hi := hstep.received_of_deliver.2.1
    rw [hnext.1, hhost] at hi
    rw [hlink, hi]
  · intro hlink
    obtain ⟨sh, p, hsh, hp, -, -⟩ := link_eq_some_iff.mp hlink
    obtain rfl := Option.some.inj (hG.symm.trans hsh)
    obtain ⟨d, hd, hforward⟩ :=
      forwardByStealth_ok hC shG env henv hp (.clientRegisterAck (registerAck shG reg))
    have hsent : Effect.udpSend d ∈ did.effects := by
      rw [heff, hforward]
      simp
    have hntrail : n ∈ (Label.deliver G f keep env did : Label C ι).trail s₁.clock := by
      rw [← hhap.clock]
      exact Label.clock_mem_trail _ _
    obtain ⟨tr₁, keep', env', did', tr₂, t₁, t₂, shi, rt', q', rfl, -, -, -, -, -, -, rfl⟩ :=
      exec_next hb ha (hmid.snoc hhap.step) hhap.after hcomp hlink hG hp
        (hhap.step.mem_inflight hdoes hsent) hntrail hd
    exact ⟨_, keep', env', _, q', _, List.mem_append_right _ (List.mem_cons_self ..), hntrail, rfl, hsrc⟩

/-- A PingResp is delivered over every path of at most 16 links. -/
theorem pong_delivered (hb : C.BincodeRoundTrips) (ha : C.IdealAead) (hC : C.Total)
    (hstealths : s₀.DistinctStealths) (hG : s₀.Runs G shG)
    (hc : s₀.Runs c shc) (hk : k ≤ 16)
    (hpath : FirstArrival (link net s₀ shc.localStealth) G c k)
    (hping : PingAnswered net s₀ G shG shc.localStealth n post s) (hcomp : Completes n post s) :
    PongDelivered post n c shc := by
  obtain ⟨s₁, s₂, f, keep, env, did, q, ping, hhap, henv, hdid, httl, htarget, hsrc⟩ := hping
  obtain ⟨mid, hmid⟩ := hhap.before
  obtain ⟨rt, hdid⟩ := hhap.step.handled (exec_shared hmid hG) (Or.inr hdid)
  have heff : did.effects = (forwardByStealth C shG env shc.localStealth
      (.pingResp (pingResponse shG ping))).effects := by
    simp only [hdid, dispatch, handlePingReq, if_neg httl, if_pos htarget, hsrc, Outcome.ofSent]
  have hpass : ∀ b sh, s₀.Runs b sh → b ≠ c →
      PassesOn sh (.pingResp (pingResponse shG ping)) shc.localStealth := fun b sh hb' hbc =>
    ⟨congrArg some hsrc, fun h => hbc (hstealths b c sh shc hb' hc h.symm), by simp⟩
  obtain ⟨k, rfl⟩ := Nat.exists_eq_add_of_le' hpath.pos
  have h16 : (Message.pingResp (pingResponse shG ping)).ttl.toNat = 16 := rfl
  obtain ⟨ttl', ⟨g, keep', env', did', sh', rt', q', hmem, hgn, -, rfl⟩, hsum⟩ :=
    message_arrives hb ha hC hhap hcomp (Label.does_deliver G f keep env did) hG henv heff hpass
      (by rw [h16]; simp only [Message.minTtl]; omega) hpath
  refine ⟨g, keep', env', _, q', _, hmem, hgn, rfl, hsrc, ?_⟩
  rintro rfl
  rw [h16] at hsum
  simp at hsum
  omega

/-- Over a path of at most 16 links from `G` back to the client, the
acknowledgement of a registration is delivered exactly if the next hop of `G`
is the client itself; a PingResp to the same stealth is always delivered. -/
theorem register_ack_delivered_iff (hb : C.BincodeRoundTrips) (ha : C.IdealAead) (hC : C.Total)
    (hrun : net.Run pre s₀) (hstealths : s₀.DistinctStealths) (hG : s₀.Runs G shG)
    (hc : s₀.Runs c shc) (hk : k ≤ 16)
    (hpath : FirstArrival (link net s₀ shc.localStealth) G c k) :
    (∀ n post s, RegistrationHandled net s₀ G shG shc.localStealth n post s → Completes n post s →
      (AckDelivered post n c shc ↔ link net s₀ shc.localStealth G = some c)) ∧
    (∀ n post s, PingAnswered net s₀ G shG shc.localStealth n post s → Completes n post s →
      PongDelivered post n c shc) :=
  ⟨fun _ _ _ hreg hcomp => ack_delivered_iff hb ha hC hrun hG hpath hreg hcomp,
    fun _ _ _ hping hcomp => pong_delivered hb ha hC hstealths hG hc hk hpath hping hcomp⟩

end

end

/-! ## §4. A client that its gateway reaches through a relay. -/

/-- A registration of `origin` for `target` that is not expired. -/
def Message.registers (target origin : String) : Message → Bool
  | .clientRegister reg =>
      reg.ttl != 0 && reg.targetGatewayStealth == target && reg.srcStealth == origin
  | _ => false

theorem Message.registers_eq_true {target origin : String} {m : Message} :
    m.registers target origin = true ↔ ∃ reg, m = .clientRegister reg ∧ reg.ttl ≠ 0 ∧
      reg.targetGatewayStealth = target ∧ reg.srcStealth = origin := by
  cases m <;> simp [registers, and_assoc]

/-- A ping of `target` by `origin` that is not expired. -/
def Message.pings (target origin : String) : Message → Bool
  | .pingReq ping => ping.ttl != 0 && ping.targetStealth == target && ping.srcStealth == origin
  | _ => false

theorem Message.pings_eq_true {target origin : String} {m : Message} :
    m.pings target origin = true ↔ ∃ ping, m = .pingReq ping ∧ ping.ttl ≠ 0 ∧
      ping.targetStealth = target ∧ ping.srcStealth = origin := by
  cases m <;> simp [pings, and_assoc]

/-- In this step a node dispatches a message of the given kind. -/
def Label.dispatches (i : Fin 3) (check : Message → Bool) (l : Label Crates.ideal (Fin 3)) : Bool :=
  l.activity.any fun a => a.1 == i && a.2.dispatched.any fun d => check d.2

theorem Label.dispatches_deliver {i j : Fin 3} {check : Message → Bool} {f : Flight Crates.ideal}
    {keep : Bool} {env : Env} {did : Activity Crates.ideal}
    (h : (Label.deliver j f keep env did).dispatches i check = true) :
    j = i ∧ ∃ q m, did.dispatched = some (q, m) ∧ check m = true := by
  obtain ⟨⟨_, _⟩, hact, h⟩ := (Option.any_eq_true _ _).mp h
  obtain ⟨rfl, rfl⟩ := Prod.mk.inj (Option.some.inj hact)
  obtain ⟨hj, h⟩ := Bool.and_eq_true_iff.mp h
  obtain ⟨⟨q, m⟩, hdid, hm⟩ := (Option.any_eq_true _ _).mp h
  exact ⟨beq_iff_eq.mp hj, q, m, hdid, hm⟩

namespace Home

/-- The first node of the line is a client of the last one, whose entry for it
has another stealth. -/
def config (i : Fin 3) : Config :=
  match i with
  | 0 => Line.client 2
  | 1 => Line.config 1
  | 2 => { Line.config 2 with peers := [{ Line.peer 0 with stealth := "st-old" }, Line.peer 1] }

/-- The line with these configurations. -/
def net : Net (Fin 3) := { Line.net with config := config }

/-- The gateway answers the bootstrap of the client. -/
def boot : List (Move (Fin 3)) :=
  [.act 1 .start, .act 2 .start, .act 0 .start, .deliver 0 false, .deliver 0 false]

/-- The gateways run, and the client has its grant. -/
def started : Sim Crates.ideal (Fin 3) := (Sim.init _ _).play net Env.at boot

/-- The registration is in flight. -/
def registering : Sim Crates.ideal (Fin 3) := started.play net Env.at [.act 0 .clientRegister]

/-- A ping of the client is in flight. -/
def asking : List (Move (Fin 3)) :=
  [.act 0 (.adminRequest 0 (.ping "st-b" 1 1000)), .act 0 (.admin .ping 0), .act 0 (.admin .ping 0),
    .act 0 (.admin .ping 0)]

/-- The ping is in flight. -/
def pinging : Sim Crates.ideal (Fin 3) := started.play net Env.at asking

/-- Evaluated at once. -/
theorem boot_computed : ((Sim.init Crates.ideal (Fin 3)).run net Env.at boot).isSome = true ∧
    (∀ i : Fin 3, (started.node i).shared.map Shared.localStealth = some (Line.stealth i)) ∧
    link net started.state (Line.stealth 0) 2 = some 1 ∧
    link net started.state (Line.stealth 0) 1 = some 0 := by
  decide +kernel

theorem run_started : ∃ tr, net.Run tr started.state := by
  obtain ⟨tr, hrun, -⟩ := Sim.exists_run_play (by simp [boot]) boot_computed.1
  exact ⟨tr, hrun⟩

theorem runs_started (i : Fin 3) :
    ∃ sh, started.state.Runs i sh ∧ sh.localStealth = Line.stealth i := by
  obtain ⟨sh, hsh, hstealth⟩ := Option.map_eq_some_iff.mp (boot_computed.2.1 i)
  exact ⟨sh, Sim.runs_iff.mpr hsh, hstealth⟩

theorem path : FirstArrival (link net started.state (Line.stealth 0)) 2 0 2 :=
  firstArrival_succ.mpr ⟨1, boot_computed.2.2.1, by decide,
    firstArrival_one.mpr boot_computed.2.2.2⟩

/-- Both are handled by the gateway, and what it sends is delivered; evaluated
at once. -/
theorem runs_computed :
    (started.run net Env.at [.act 0 .clientRegister]).isSome = true ∧
    registering.completes net Env.at (.deliver 0 false)
      (Label.dispatches 2 (Message.registers (Line.stealth 2) (Line.stealth 0)))
      [.deliver 0 false] = true ∧
    (started.run net Env.at asking).isSome = true ∧
    pinging.completes net Env.at (.deliver 0 false)
      (Label.dispatches 2 (Message.pings (Line.stealth 2) (Line.stealth 0)))
      [.deliver 0 false, .deliver 0 false] = true := by
  decide +kernel

theorem registration_handled {shG : Shared} (hG : shG.localStealth = Line.stealth 2) :
    ∃ n post s, RegistrationHandled net started.state 2 shG (Line.stealth 0) n post s ∧
      Completes n post s := by
  obtain ⟨hmoves, hcompletes, -, -⟩ := runs_computed
  obtain ⟨mid, hmid, -⟩ := Sim.exists_run_play (by simp) hmoves
  obtain ⟨l, s₂, post, s', hstep, hcheck, hhap, hcomp⟩ :=
    Sim.exists_completes (s := registering) ⟨mid, hmid⟩ hcompletes
  obtain ⟨i, f, did, rfl⟩ := Sim.step_deliver hstep
  obtain ⟨rfl, q, m, hdid, hm⟩ := Label.dispatches_deliver hcheck
  obtain ⟨reg, rfl, httl, htarget, hsrc⟩ := Message.registers_eq_true.mp hm
  exact ⟨_, post, _, ⟨_, _, f, _, _, did, q, reg, hhap, Env.socketAccepts_at _, hdid, httl,
    htarget.trans hG.symm, hsrc⟩, hcomp⟩

theorem ping_answered {shG : Shared} (hG : shG.localStealth = Line.stealth 2) :
    ∃ n post s, PingAnswered net started.state 2 shG (Line.stealth 0) n post s ∧
      Completes n post s := by
  obtain ⟨-, -, hmoves, hcompletes⟩ := runs_computed
  obtain ⟨mid, hmid, -⟩ := Sim.exists_run_play (by simp [asking]) hmoves
  obtain ⟨l, s₂, post, s', hstep, hcheck, hhap, hcomp⟩ :=
    Sim.exists_completes (s := pinging) ⟨mid, hmid⟩ hcompletes
  obtain ⟨i, f, did, rfl⟩ := Sim.step_deliver hstep
  obtain ⟨rfl, q, m, hdid, hm⟩ := Label.dispatches_deliver hcheck
  obtain ⟨ping, rfl, httl, htarget, hsrc⟩ := Message.pings_eq_true.mp hm
  exact ⟨_, post, _, ⟨_, _, f, _, _, did, q, ping, hhap, Env.socketAccepts_at _, hdid, httl,
    htarget.trans hG.symm, hsrc⟩, hcomp⟩

/-- The gateway handles the registration of the client and has a path of two
links back to it, but the acknowledgement is not delivered. -/
theorem ack_lost :
    ∃ pre n post s shG shc, net.Run pre started.state ∧ started.state.DistinctStealths ∧
      started.state.Runs 2 shG ∧ started.state.Runs 0 shc ∧
      FirstArrival (link net started.state shc.localStealth) 2 0 2 ∧
      RegistrationHandled net started.state 2 shG shc.localStealth n post s ∧
      Completes n post s ∧ ¬ AckDelivered post n 0 shc := by
  obtain ⟨pre, hrun⟩ := run_started
  obtain ⟨shG, hG, hstealthG⟩ := runs_started 2
  obtain ⟨shc, hc, hstealthc⟩ := runs_started 0
  obtain ⟨n, post, s, hreg, hcomp⟩ := registration_handled hstealthG
  rw [← hstealthc] at hreg
  have hpath := path
  have hlink := boot_computed.2.2.1
  rw [← hstealthc] at hpath hlink
  refine ⟨pre, n, post, s, shG, shc, hrun, State.distinctStealths_of (by decide) runs_started, hG, hc,
    hpath, hreg, hcomp, fun hack => ?_⟩
  have := (ack_delivered_iff Crates.bincodeRoundTrips_ideal Crates.idealAead_ideal
    Crates.total_ideal hrun hG hpath hreg hcomp).mp hack
  rw [hlink] at this
  cases this

/-- Over the same path the answer to a ping is. -/
theorem pong_arrives :
    ∃ n post s shG shc, started.state.Runs 2 shG ∧ started.state.Runs 0 shc ∧
      PingAnswered net started.state 2 shG shc.localStealth n post s ∧ Completes n post s ∧
      PongDelivered post n 0 shc := by
  obtain ⟨pre, hrun⟩ := run_started
  obtain ⟨shG, hG, hstealthG⟩ := runs_started 2
  obtain ⟨shc, hc, hstealthc⟩ := runs_started 0
  obtain ⟨n, post, s, hping, hcomp⟩ := ping_answered hstealthG
  rw [← hstealthc] at hping
  have hpath := path
  rw [← hstealthc] at hpath
  have hboth := register_ack_delivered_iff Crates.bincodeRoundTrips_ideal Crates.idealAead_ideal
    Crates.total_ideal hrun (State.distinctStealths_of (by decide) runs_started) hG hc
    (show 2 ≤ 16 by decide) hpath
  exact ⟨n, post, s, shG, shc, hG, hc, hping, hcomp, hboth.2 n post s hping hcomp⟩

end Home

end StealthNet
