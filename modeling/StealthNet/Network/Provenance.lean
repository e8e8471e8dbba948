/-
  StealthNet.Network.Provenance
  ─────────────────────────────
  WHERE THE PACKETS ON A TUN COME FROM.

  Among nodes that run this code, over a network that loses, reorders and
  duplicates datagrams:

    • `Net.Run.encapsulated`     — every Data in flight is, up to its ttl, one
                                   that some node made of a packet it read
                                   from its own TUN;
    • `Net.Run.tun_provenance`   — so is every packet written to a TUN, and
                                   the writer holds the stealth or owns the
                                   address it was meant for.

  Peers, routes and overlay routes are arbitrary.
-/
import StealthNet.Network.Wire
import StealthNet.Network.Simulator

namespace StealthNet

variable {C : Crates} {ι : Type}

/-- Node `S` read the inner packet of `data` from its TUN and encapsulated it
as `data`, up to the ttl. -/
structure Encapsulation (tr : List (Label C ι)) (s : State C ι) (data : DataMsg) (S : ι)
    (sh : Shared) (dst : IpAddr) (route : RouteEntry) : Prop where
  read : ∃ env did call, Label.act S (.tunRead data.innerPacket) env did ∈ tr ∧
    Effect.encrypted call ∈ did.effects ∧ call.msg = .data { data with ttl := 16 }
  shared : (s.node S).shared = some sh
  destination : packetDestination data.innerPacket = some dst
  unicast : dst.isMulticast = false
  routed : sh.routing.lookup dst = some route
  stealths : data.srcStealth = sh.localStealth ∧ data.dstStealth = route.stealth

section

variable {tr tr' : List (Label C ι)} {s s' : State C ι} {data : DataMsg} {S : ι} {sh : Shared}
  {dst : IpAddr} {route : RouteEntry}

/-- The ttl is no part of the provenance. -/
theorem Encapsulation.withTtl (h : Encapsulation tr s data S sh dst route) (ttl : UInt8) :
    Encapsulation tr s { data with ttl } S sh dst route :=
  { h with }

theorem Encapsulation.state (h : Encapsulation tr s data S sh dst route)
    (hs : (s'.node S).shared = some sh) : Encapsulation tr s' data S sh dst route :=
  { h with shared := hs }

variable [DecidableEq ι] {net : Net ι}

theorem Encapsulation.later (h : Encapsulation tr s data S sh dst route)
    (hexec : Lib.Exec (Step net) s tr' s') :
    Encapsulation (tr ++ tr') s' data S sh dst route := by
  obtain ⟨env, did, call, hl, hc, hmsg⟩ := h.read
  exact
    { h with
      read := ⟨env, did, call, List.mem_append_left _ hl, hc, hmsg⟩
      shared := exec_shared hexec h.shared }

end

variable [DecidableEq ι] {net : Net ι}

/-- Data in flight was encapsulated by some node, and relays touch its ttl
only. -/
theorem Net.Run.encapsulated (hb : C.BincodeRoundTrips) (ha : C.IdealAead)
    {tr : List (Label C ι)} {s : State C ι} (hrun : net.Run tr s) (hhonest : Honest tr)
    {f : Flight C} (hf : f ∈ s.inflight) {data : DataMsg} (hdata : f.msg = .data data) :
    ∃ S sh dst route, Encapsulation tr s data S sh dst route := by
  refine Net.Run.wire hb ha
    (P := fun tr s m => ∀ data, m = .data data →
      ∃ S sh dst route, Encapsulation tr s data S sh dst route)
    ?_ ?_ ?_ ?_ hrun hhonest f hf data hdata
  · -- later steps keep what the trace shows and what the node runs with
    intro tr s l s' m hstep h data hm
    obtain ⟨S, sh, dst, route, h⟩ := h data hm
    exact ⟨S, sh, dst, route, h.later (Lib.Exec.single hstep)⟩
  · intro _ _ _ _ hm
    cases hm
  · intro tr s s' i ev env did sh rt p m _ hstep hn ho hcall data hm
    subst hm
    -- the node made it of a packet it read just now
    obtain ⟨call, hc, hmsg⟩ := hcall
    obtain ⟨dst, route, rfl, hdst, hcast, hroute, -, hdata⟩ := ho.data_inv
    have hsh : (s'.node i).shared = some sh := hstep.shared (by rw [hn]; rfl)
    have h16 : { data with ttl := 16 } = data := by rw [hdata]
    refine ⟨i, sh, dst, route, ⟨env, did, call, by simp, hc, ?_⟩, hsh, hdst, hcast, hroute, ?_⟩
    · rw [hmsg, h16]
    · rw [hdata]
      exact ⟨rfl, rfl⟩
  · intro tr s s' i f keep env did sh rt peer p m' _ hstep _ hP _ hemit data hm
    subst hm
    -- a relay has it from the flight before, up to the ttl
    obtain ⟨d, hd, rfl⟩ := hemit.data_inv
    obtain ⟨S, shS, dst, route, h⟩ := hP d hd
    exact ⟨S, shS, dst, route, (h.later (Lib.Exec.single hstep)).withTtl _⟩

/-- Every packet written to a TUN was read, byte for byte, from the TUN of
some node, for a unicast destination whose route there names the writer's
stealth, or which the writer owns. A node that receives Data and sends Data
changes the ttl only. -/
theorem Net.Run.tun_provenance (hb : C.BincodeRoundTrips) (ha : C.IdealAead)
    {pre post : List (Label C ι)} {l : Label C ι} {s : State C ι}
    (hrun : net.Run (pre ++ l :: post) s) (hhonest : Honest (pre ++ l :: post)) :
    (∀ N did packet, l.Does N did → Effect.tunWrite packet ∈ did.effects →
      ∃ data S sh dst route shN, data.innerPacket = packet ∧
        Encapsulation pre s data S sh dst route ∧ (s.node N).shared = some shN ∧
        (shN.localStealth = route.stealth ∨ shN.routing.ownsIp dst = true)) ∧
    (∀ N f keep env did call data', l = .deliver N f keep env did →
      Effect.encrypted call ∈ did.effects → call.msg = .data data' →
      ∃ data, f.msg = .data data ∧ data' = { data with ttl := data.ttl - 1 }) := by
  obtain ⟨s₁, s₂, hpre, hstep, hpost⟩ := hrun.split_cons
  have hl : ∀ i packet env did, l ≠ .inject i packet env did := hhonest l (by simp)
  constructor
  · intro N did packet hd hw
    rcases hd with ⟨ev, env, rfl⟩ | ⟨f, keep, env, rfl⟩ | ⟨packet', env, rfl⟩
    · -- by itself a node writes to no TUN
      obtain ⟨_, hspec⟩ := (Phase.act_cases hstep.act_of_act).sends
      have hmem : packet ∈ tunWrites did.effects := mem_tunWrites.mpr hw
      rw [hspec.tunWrites_eq] at hmem
      simp at hmem
    · obtain ⟨hf, -, hrec⟩ := hstep.received_of_deliver
      generalize hn : s₁.node N = p at hrec
      generalize s₂.node N = p' at hrec
      cases hrec with
      | deaf | decided | refused => simp [Activity.idle] at hw
      | @handled sh rt peer m hopen =>
          obtain ⟨-, -, rfl⟩ := (openDatagram_datagram hb ha _).mp hopen
          obtain ⟨data, dst', hm, rfl, hdst', hlocal⟩ := (dispatch_handled _).of_tunWrite hw
          obtain ⟨S, shS, dst, route, h⟩ :=
            Net.Run.encapsulated hb ha hpre hhonest.of_append hf hm
          -- both nodes parsed one destination from the packet
          obtain rfl := Option.some.inj (hdst'.symm.trans h.destination)
          have hrest := Lib.Exec.append (Lib.Exec.single hstep) hpost
          refine ⟨data, S, shS, dst', route, sh, rfl, h.state (exec_shared hrest h.shared),
            exec_shared hrest (by rw [hn]; rfl), ?_⟩
          rcases hlocal with hlocal | howns
          · exact Or.inl (hlocal.symm.trans h.stealths.2)
          · exact Or.inr howns
    · exact absurd rfl (hl _ _ _ _)
  · rintro N f keep env did call data' rfl hc hmsg
    obtain ⟨-, -, hrec⟩ := hstep.received_of_deliver
    obtain ⟨sh, rt, peer, m, q, -, hopen, -, hemit, -⟩ := hrec.called hc
    obtain ⟨-, -, rfl⟩ := (openDatagram_datagram hb ha _).mp hopen
    rw [hmsg] at hemit
    exact hemit.data_inv

/-- A packet crosses the line, and was read at its other end. -/
theorem Line.packet_provenance :
    ∃ (pre post : List (Label Crates.ideal (Fin 3))) (l : Label Crates.ideal (Fin 3))
      (s : State Crates.ideal (Fin 3)) (data : DataMsg) (S : Fin 3) (sh : Shared) (dst : IpAddr)
      (route : RouteEntry), Line.net.Run (pre ++ l :: post) s ∧
      Effect.tunWrite Line.packet ∈ l.effects ∧ data.innerPacket = Line.packet ∧
      Encapsulation pre s data S sh dst route := by
  obtain ⟨tr₀, hrun₀, hhonest₀⟩ := Line.run_started
  obtain ⟨tr, s, hexec, hhonest, hwrite⟩ := Sim.exists_run Line.net Env.at Line.started
    Line.delivery (fun tr _ => tr.any fun l => tunWrites l.effects == [Line.packet])
    (by simp [Line.delivery]) (by decide +kernel)
  obtain ⟨l, hl, hwrite⟩ := List.any_eq_true.mp hwrite
  have hmem : Effect.tunWrite Line.packet ∈ l.effects := by
    rw [← mem_tunWrites, beq_iff_eq.mp hwrite]
    exact List.mem_singleton_self _
  obtain ⟨pre, post, rfl⟩ := List.append_of_mem hl
  have hrun := hrun₀.append hexec
  rw [← List.append_assoc] at hrun
  obtain ⟨N, did, hdoes, hw⟩ := Label.exists_does hmem
  obtain ⟨data, S, sh, dst, route, -, hinner, henc, -⟩ :=
    (Net.Run.tun_provenance Crates.bincodeRoundTrips_ideal Crates.idealAead_ideal hrun
      (List.append_assoc .. ▸ hhonest₀.append hhonest)).1 N did Line.packet hdoes hw
  exact ⟨tr₀ ++ pre, post, l, s.state, data, S, sh, dst, route, hrun, hmem, hinner, henc⟩

end StealthNet
