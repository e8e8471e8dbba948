/-
  StealthNet.Network.Integrity
  ────────────────────────────
  WHAT AN ATTACKER CANNOT MAKE THE NETWORK SHOW.

  The attacker injects whatever it likes at whatever node.  The network refines
  the service, where nobody writes a letter but the nodes, so what letters say
  (`Network.Letters`) is true of what is read and written at the ends:

    • `Net.Run.tun_integrity`   — a packet on a TUN was read at another, before,
                                  and is meant for where it is written;
    • `Net.Run.registry_truthful` — registries and lists of clients hold what
                                  clients say of themselves;
    • `Net.Run.reply_authentic` — the reply a thread gets is the one that the
                                  node it asked made to this very request.
-/
import StealthNet.Network.Letters
import StealthNet.Network.Refinement
import StealthNet.Network.Pending
import StealthNet.Network.Registration

namespace StealthNet

open Lib (HashMap)

variable {C : Crates} {ι : Type}

section

variable [DecidableEq ι] {net : Net ι} {tr : List (Label C ι)} {s : State C ι}

/-! ## §1. Packets. -/

/-- A packet written to a TUN has been read, byte for byte, from the TUN of a
node, for a unicast destination whose route there names the writer's stealth,
or which the writer owns. -/
theorem Net.Run.tun_integrity (hb : C.BincodeRoundTrips) (ho : C.AeadCorrect)
    (hpeers : HonestPeers C net) (hkeys : KeysDetermineSecrets C net) (hrun : net.Run tr s)
    (hideal : Unforgeable net tr) {before after : List (Seen ι)} {N : ι} {packet : Bytes}
    (hseen : Lib.seen Label.see tr = before ++ .wrote N packet :: after) :
    ∃ S sh dst route shN, Seen.read S packet ∈ before ∧ s.Runs S sh ∧
      packetDestination packet = some dst ∧ dst.isMulticast = false ∧
      sh.routing.lookup dst = some route ∧ s.Runs N shN ∧
      (shN.localStealth = route.stealth ∨ shN.routing.ownsIp dst = true) := by
  obtain ⟨atr, a, hserves, hrep, hsame⟩ := hrun.represented hb ho hpeers hkeys hideal
  have hjustified := Net.Serves.integrity hserves
  rw [hsame] at hjustified
  have hwrote := hjustified before (.wrote N packet) after hseen
  unfold Integrity Service.Runs at hwrote
  rw [hrep.node] at hwrote
  exact hwrote

/-! ## §2. Registries. -/

/-- Every entry in the registry of a node, and every list of clients that a
thread gets, is what running clients say of themselves, or what the node that
lists it is configured with. -/
theorem Net.Run.registry_truthful (hb : C.BincodeRoundTrips) (ho : C.AeadCorrect)
    (hpeers : HonestPeers C net) (hkeys : KeysDetermineSecrets C net) (hrun : net.Run tr s)
    (hideal : Unforgeable net tr) :
    (∀ G sh rt stealth entry, s.node G = .running sh rt →
      rt.tables.registeredClients.lookup stealth = some entry →
      entry.clientStealth = stealth ∧ Announced s.node entry) ∧
    ∀ i tx stealth clients, Seen.replied i .clients tx (stealth, clients) ∈ Lib.seen Label.see tr →
      Listed s.node stealth clients := by
  obtain ⟨atr, a, hserves, hrep, hsame⟩ := hrun.represented hb ho hpeers hkeys hideal
  rw [← hrep.node, ← hsame]
  constructor
  · intro G sh rt stealth entry hG hlook
    exact Net.Serves.registry hserves hG hlook
  · intro i tx stealth clients hseen
    exact Net.Serves.listed hserves hseen

/-! ## §3. Replies. -/

theorem exec_drawn_le {s' : State C ι} {tr : List (Label C ι)} (h : Lib.Exec (Step net) s tr s')
    {i : ι} {sh sh' : Shared} {rt rt' : Runtime} (hi : s.node i = .running sh rt)
    (hi' : s'.node i = .running sh' rt') : rt.tables.drawn ≤ rt'.tables.drawn := by
  have hlater : ∃ sh' rt', s'.node i = .running sh' rt' ∧ rt.tables.drawn ≤ rt'.tables.drawn := by
    refine h.stable (P := fun s => ∃ sh' rt', s.node i = .running sh' rt' ∧
      rt.tables.drawn ≤ rt'.tables.drawn) ⟨sh, rt, hi, Nat.le_refl _⟩ ?_
    intro s l s' hstep hs
    obtain ⟨sh₁, rt₁, hi₁, hle⟩ := hs
    obtain ⟨rt₂, hi₂, hrt⟩ := hstep.runtime hi₁
    exact ⟨sh₁, rt₂, hi₂, Nat.le_trans hle hrt.drawn_le⟩
  obtain ⟨sh₁, rt₁, hi₁, hle⟩ := hlater
  obtain ⟨-, rfl⟩ := Phase.running.inj (hi₁.symm.trans hi')
  exact hle

theorem State.DistinctStealths.of_exec {s' : State C ι} {tr : List (Label C ι)}
    (h : s'.DistinctStealths) (hexec : Lib.Exec (Step net) s tr s') : s.DistinctStealths := by
  intro i j sh sh' hi hj
  exact h i j sh sh' (exec_shared hexec hi) (exec_shared hexec hj)

/-- A reply is shown where a message is received that answers a pending
request. -/
theorem Step.replied {s s' : State C ι} {l : Label C ι} (h : Step net s l s') {i : ι}
    {κ : RequestKind} {tx : Tx} {payload : Payload κ} (ho : Seen.replied i κ tx payload ∈ l.see) :
    ∃ env packet sh rt peer m id, l.received = some (i, env, packet) ∧
      s.node i = .running sh rt ∧ openDatagram C sh.peersById packet = .ok (peer, m) ∧
      Answers sh env m κ id payload ∧ (rt.tables.pending κ).lookup id = some tx := by
  -- delivered or injected, a datagram shows what the node does with it
  have received : ∀ {j : ι} {env : Env} {packet : Bytes} {did : Activity C},
      l.received = some (j, env, packet) → l.see = did.see j →
      Received C env packet (s.node j) (s'.node j) did →
      ∃ env packet sh rt peer m id, l.received = some (i, env, packet) ∧
        s.node i = .running sh rt ∧ openDatagram C sh.peersById packet = .ok (peer, m) ∧
        Answers sh env m κ id payload ∧ (rt.tables.pending κ).lookup id = some tx := by
    intro j env packet did hl hsee hrec
    rw [hsee] at ho
    generalize hn : s.node j = p at hrec
    generalize s'.node j = p' at hrec
    cases hrec with
    | deaf | refused | decided => cases ho
    | @handled sh rt peer m hopen =>
        obtain ⟨e, he, heo⟩ := List.mem_filterMap.mp ho
        cases e with
        | reply κ' tx' payload' =>
            cases heo
            obtain ⟨id, hans, hlook⟩ := (dispatch_handled m).of_reply he
            exact ⟨env, packet, sh, rt, peer, m, id, hl, hn, hopen, hans, hlook⟩
        | _ => cases heo
  cases l with
  | drop f => cases ho
  | act j ev env did =>
      obtain ⟨_, hspec⟩ := (Phase.act_cases h.act_of_act).sends
      rcases List.mem_append.mp ho with ho | ho
      · cases ev with
        | tunRead => cases List.mem_singleton.mp ho
        | _ => cases ho
      · rcases List.mem_append.mp ho with ho | ho
        · obtain ⟨_, -, heq⟩ := Option.map_eq_some_iff.mp (Option.mem_toList.mp ho)
          cases heq
        · rw [hspec.see j] at ho
          cases ho
  | deliver j f keep env did => exact received rfl rfl h.received_of_deliver.2.2
  | inject j packet env did => exact received rfl rfl h.received_of_inject

/-- What a payload says of who made it. -/
def Payload.responder : (κ : RequestKind) → Payload κ → Option String
  | .ping, result => PingResult.responderStealth result
  | .clients, (stealth, _) => some stealth

omit [DecidableEq ι] in
theorem Answers.response {sh : Shared} {env : Env} {m : Message} {κ : RequestKind} {id : UInt64}
    {payload : Payload κ} (h : Answers sh env m κ id payload) :
    ∃ target, Payload.responder κ payload = some target ∧
      m.response = some ⟨κ, id, sh.localStealth, target⟩ := by
  cases h with
  | ping httl hdst => exact ⟨_, rfl, by rw [Message.response, hdst]⟩
  | clients httl hdst => exact ⟨_, rfl, by rw [Message.response, hdst]⟩

omit [DecidableEq ι] in
theorem issued_of_seen {i : ι} {ticket : Ticket} (h : Seen.drew i ticket ∈ Lib.seen Label.see tr) :
    Issued tr i ticket := by
  obtain ⟨l, hl, ho⟩ := Lib.mem_seen.mp h
  have drew : ∀ {j : ι} {did : Activity C}, Seen.drew i ticket ∈ did.see j →
      i = j ∧ did.drew = some ticket := by
    intro j did ho
    rcases List.mem_append.mp ho with ho | ho
    · obtain ⟨ticket', hdrew, heq⟩ := Option.map_eq_some_iff.mp (Option.mem_toList.mp ho)
      obtain ⟨rfl, rfl⟩ := Seen.drew.inj heq
      exact ⟨rfl, hdrew⟩
    · obtain ⟨e, -, heo⟩ := List.mem_filterMap.mp ho
      cases e <;> cases heo
  cases l with
  | drop f => cases ho
  | act j ev env did =>
      rcases List.mem_append.mp ho with ho | ho
      · cases ev with
        | tunRead => cases List.mem_singleton.mp ho
        | _ => cases ho
      · obtain ⟨rfl, hdrew⟩ := drew ho
        exact ⟨_, hl, did, Label.does_act .., hdrew⟩
  | deliver j f keep env did =>
      obtain ⟨rfl, hdrew⟩ := drew ho
      exact ⟨_, hl, did, Label.does_deliver .., hdrew⟩
  | inject j packet env did =>
      obtain ⟨rfl, hdrew⟩ := drew ho
      exact ⟨_, hl, did, Label.does_inject .., hdrew⟩

/-- What opens at a running node has been posted. -/
theorem Net.Run.posted_of_open (hb : C.BincodeRoundTrips) (ho : C.AeadCorrect)
    (hpeers : HonestPeers C net) (hkeys : KeysDetermineSecrets C net) (hrun : net.Run tr s)
    {s' : State C ι} {l : Label C ι} (hstep : Step net s l s') (hideal : Unforgeable net (tr ++ [l]))
    {i : ι} {env : Env} {packet : Bytes} (hl : l.received = some (i, env, packet)) {sh : Shared}
    {rt : Runtime} (hi : s.node i = .running sh rt) {peer : PeerRuntime} {m : Message}
    (hopen : openDatagram C sh.peersById packet = .ok (peer, m)) {a : Service ι}
    (hrep : Represents net tr s a) : ∃ x ∈ a.posted, x.content = m.content := by
  obtain ⟨did, hdoes, -⟩ := hstep.receive_of_received hl
  have hbuilt := hrun.builtFrom i
  rw [hi] at hbuilt
  obtain ⟨peers, hpeersI, hbyId, -⟩ := hbuilt.peers
  rw [hbyId] at hopen
  obtain ⟨A, call, hauth⟩ := Net.Run.authentic_of_open hb ho hpeers hkeys hrun hideal
    (Label.receives_of_received hl hdoes) hpeersI hopen
  rw [← hauth.msg]
  cases htarget : call.msg.relayTarget with
  | some target =>
      obtain ⟨x, hx, -, hcontent⟩ := hrep.addressed A call target hauth.called htarget
      exact ⟨x, hx, hcontent⟩
  | none =>
      exact ⟨_, hrep.direct A _ call hauth.called htarget (hauth.sentTo hrun), rfl⟩

/-- A reply in the next step: its ticket has been drawn, and the node it was
drawn for has sent this response to it. -/
theorem Net.Run.replied_authentic (hb : C.BincodeRoundTrips) (ho : C.AeadCorrect)
    (hpeers : HonestPeers C net) (hkeys : KeysDetermineSecrets C net) (hrun : net.Run tr s)
    {s' : State C ι} {l : Label C ι} (hstep : Step net s l s') (hideal : Unforgeable net (tr ++ [l]))
    (hstealths : s.DistinctStealths) {i : ι} {sh : Shared} {rt : Runtime}
    (hi : s.node i = .running sh rt) (hdrawn : rt.tables.drawn ≤ 2 ^ 64) {κ : RequestKind} {tx : Tx}
    {payload : Payload κ} (hreplied : Seen.replied i κ tx payload ∈ l.see) :
    ∃ id target j shj call, Seen.drew i ⟨κ, id, tx, target⟩ ∈ Lib.seen Label.see tr ∧
      Payload.responder κ payload = some target ∧ s.Runs j shj ∧ shj.localStealth = target ∧
      Called tr j call ∧ call.msg.response = some ⟨κ, id, sh.localStealth, target⟩ := by
  obtain ⟨env, packet, sh', rt', peer, m, id, hl, hi', hopen, hans, hlook⟩ := hstep.replied hreplied
  obtain ⟨rfl, rfl⟩ := Phase.running.inj (hi.symm.trans hi')
  obtain ⟨atr, a, hserves, hrep, hsame⟩ := hrun.represented hb ho hpeers hkeys hideal.of_append
  obtain ⟨x, hx, hcontent⟩ :=
    hrun.posted_of_open hb ho hpeers hkeys hstep hideal hl hi hopen hrep
  -- what the response says of its request is true
  obtain ⟨target, hresponder, hresponse⟩ := hans.response
  have hhead : x.content.response = some ⟨κ, id, sh.localStealth, target⟩ := by
    rw [hcontent, Message.response_content, hresponse]
  obtain ⟨⟨i', shi, tx', hasked⟩, j, shj, hresponded⟩ := Net.Serves.responded hserves hx hhead
  have hi' : s.Runs i' shi := by
    rw [State.Runs, ← hrep.node]
    exact hasked.runs
  obtain rfl : i = i' := hstealths i i' sh shi (State.runs_of_running hi) hi' hasked.src
  -- the id was drawn once, so for the thread that waits
  have hdrew := hasked.drew
  rw [hsame] at hdrew
  obtain ⟨job, req, hawaited, -, hissued⟩ := hrun.pending_issued hi hlook
  have hticket := (hrun.ids hi hdrawn).unique _ _ hissued (issued_of_seen hdrew) rfl
  obtain ⟨-, -, htx, htarget⟩ := Ticket.mk.inj hticket
  have htx' : tx' = tx := by
    rw [← htx, hawaited.iteration]
  subst htx'
  obtain ⟨y, hy, rfl, hycontent⟩ := hresponded.posted
  obtain ⟨call, hcalled, hposts⟩ := hrep.called y hy
  refine ⟨id, target, y.sender, shj, call, hdrew, hresponder, ?_, hresponded.target.symm, hcalled, ?_⟩
  · rw [State.Runs, ← hrep.node]
    exact hresponded.runs
  · rw [← Message.response_content, ← hposts.inv.2, hycontent, hhead]

/-- Every reply a thread gets was preceded by the draw of its ticket, and sent
as the response to it by the node whose stealth the ticket is for. -/
theorem Net.Run.reply_authentic (hb : C.BincodeRoundTrips) (ho : C.AeadCorrect)
    (hpeers : HonestPeers C net) (hkeys : KeysDetermineSecrets C net) (hrun : net.Run tr s)
    (hideal : Unforgeable net tr) (hstealths : s.DistinctStealths) {i : ι} {sh : Shared}
    {rt : Runtime} (hi : s.node i = .running sh rt) (hdrawn : rt.tables.drawn ≤ 2 ^ 64)
    {before after : List (Seen ι)} {κ : RequestKind} {tx : Tx} {payload : Payload κ}
    (hseen : Lib.seen Label.see tr = before ++ .replied i κ tx payload :: after) :
    ∃ id target j shj call, Seen.drew i ⟨κ, id, tx, target⟩ ∈ before ∧
      Payload.responder κ payload = some target ∧ s.Runs j shj ∧ shj.localStealth = target ∧
      Called tr j call ∧ call.msg.response = some ⟨κ, id, sh.localStealth, target⟩ := by
  obtain ⟨tr₁, l, tr₂, before', after', rfl, hsee, rfl⟩ := Lib.seen_eq_append_cons hseen
  obtain ⟨s₁, s₂, hrun₁, hstep, hrest⟩ := hrun.split_cons
  have hreplied : Seen.replied i κ tx payload ∈ l.see := by
    rw [hsee]
    exact List.mem_append_right _ List.mem_cons_self
  -- the node runs, with the same stealth, when the reply comes
  obtain ⟨-, -, sh₁, rt₁, -, -, -, -, hi₁, -, -, -⟩ := hstep.replied hreplied
  have hexec := (Lib.Exec.single hstep).append hrest
  have hsh : sh₁ = sh := by
    have hlater := exec_shared hexec (State.runs_of_running hi₁)
    rw [show (s.node i).shared = some sh from State.runs_of_running hi] at hlater
    exact (Option.some.inj hlater).symm
  subst hsh
  rw [List.append_cons] at hideal
  obtain ⟨id, target, j, shj, call, hdrew, hresponder, hj, hstealth, hcalled, hresponse⟩ :=
    Net.Run.replied_authentic hb ho hpeers hkeys hrun₁ hstep hideal.of_append (hstealths.of_exec hexec) hi₁
      (Nat.le_trans (exec_drawn_le hexec hi₁ hi) hdrawn) hreplied
  obtain ⟨l', hl', hdid⟩ := hcalled
  exact ⟨id, target, j, shj, call, List.mem_append_left _ hdrew, hresponder,
    exec_shared hexec hj, hstealth, ⟨l', List.mem_append_left _ hl', hdid⟩, hresponse⟩

end

/-! ## §4. A network under attack. -/

namespace Home

theorem honestPeers : HonestPeers Crates.ideal net where
  ids := by
    have h : ∀ i j : Fin 3, (config i).node.id = (config j).node.id → i = j := by decide
    exact h
  secrets := Line.honestPeers.secrets
  peers := by
    have h : ∀ i : Fin 3, ∀ cfg ∈ (config i).peers, ∃ j, j ≠ i ∧
        cfg.id = (config j).node.id ∧ cfg.publicKey = (Line.peer j).publicKey := by
      decide +kernel
    exact h

/-- Identities are those of the line. -/
theorem keysDetermineSecrets : KeysDetermineSecrets Crates.ideal net := Line.keysDetermineSecrets

/-- The registration of the client, seen on the wire. -/
def captured : Bytes := registering.inflight.flatMap fun f => f.datagram.bytes

/-- It is reflected to the client and redirected to the middle node, before a
packet crosses and a ping is answered. -/
def attack : List (Move (Fin 3)) :=
  boot ++ [.act 0 .clientRegister, .inject 0 captured, .inject 1 captured, .deliver 0 false,
    .deliver 0 false, .act 0 (.tunRead Line.packet), .deliver 0 false] ++ asking ++
    [.deliver 0 false, .deliver 0 false, .deliver 0 false]

/-- What is shown of the attacked network is one packet read, one packet
written, a draw and a reply. -/
def showsAttack : List (Seen (Fin 3)) → Bool
  | [.read 0 _, .wrote 2 packet, .drew 0 _, .replied 0 .ping _ _] => packet == Line.packet
  | _ => false

theorem showsAttack_eq_true {v : List (Seen (Fin 3))} (h : showsAttack v = true) :
    ∃ packet ticket tx payload, v = [.read 0 packet, .wrote 2 Line.packet, .drew 0 ticket,
      .replied 0 .ping tx payload] := by
  unfold showsAttack at h
  split at h
  · rw [beq_iff_eq.mp h]
    exact ⟨_, _, _, _, rfl⟩
  · cases h

/-- Evaluated at once. -/
theorem attack_computed :
    ((Sim.init Crates.ideal (Fin 3)).run net Env.at attack).any (fun r =>
      replays [] r.1 && showsAttack (Lib.seen Label.see r.1) &&
        decide (∀ i, (r.2.node i).shared.map Shared.localStealth = some (Line.stealth i)) &&
        (r.2.node 0).held.any (fun (h : Shared × Runtime) => decide (h.2.tables.drawn ≤ 2 ^ 64)) &&
        (r.2.node 2).held.any (fun (h : Shared × Runtime) =>
          (h.2.tables.registeredClients.lookup (Line.stealth 0)).isSome)) = true := by
  decide +kernel

/-- A run of the attacked network, and what is shown of it. -/
structure Attacked (tr : List (Label Crates.ideal (Fin 3))) (s : State Crates.ideal (Fin 3)) :
    Prop where
  run : net.Run tr s
  ideal : Unforgeable net tr
  shown : ∃ packet ticket tx payload, Lib.seen Label.see tr =
    [.read 0 packet, .wrote 2 Line.packet, .drew 0 ticket, .replied 0 .ping tx payload]
  stealths : s.DistinctStealths
  asks : ∃ sh rt, s.node 0 = .running sh rt ∧ rt.tables.drawn ≤ 2 ^ 64
  registers : ∃ sh rt entry, s.node 2 = .running sh rt ∧
    rt.tables.registeredClients.lookup (Line.stealth 0) = some entry

theorem exists_attacked : ∃ tr s, Attacked tr s := by
  obtain ⟨⟨tr, s⟩, hrun, hcheck⟩ := (Option.any_eq_true _ _).mp attack_computed
  obtain ⟨hcheck, hregistry⟩ := Bool.and_eq_true_iff.mp hcheck
  obtain ⟨hcheck, hdrawn⟩ := Bool.and_eq_true_iff.mp hcheck
  obtain ⟨hcheck, hstealths⟩ := Bool.and_eq_true_iff.mp hcheck
  obtain ⟨hreplays, hshows⟩ := Bool.and_eq_true_iff.mp hcheck
  have hrun := Sim.run_sound hrun
  obtain ⟨⟨sh, rt⟩, hheld, hdrawn⟩ := (Option.any_eq_true _ _).mp hdrawn
  obtain ⟨⟨sh₂, rt₂⟩, hheld₂, hregistry⟩ := (Option.any_eq_true _ _).mp hregistry
  obtain ⟨entry, hlook⟩ := Option.isSome_iff_exists.mp hregistry
  exact ⟨tr, s.state,
    { run := hrun
      ideal := Net.Run.unforgeable Crates.bincodeRoundTrips_ideal Crates.idealAead_ideal hrun hreplays
      shown := showsAttack_eq_true hshows
      stealths := Line.distinct_of_computed (of_decide_eq_true hstealths)
      asks := ⟨sh, rt, Sim.running_iff.mpr hheld, of_decide_eq_true hdrawn⟩
      registers := ⟨sh₂, rt₂, entry, Sim.running_iff.mpr hheld₂, hlook⟩ }⟩

/-- The service shows the same, without the attacker. -/
theorem attack_refines :
    ∃ (tr : List (Label Crates.ideal (Fin 3))) (s : State Crates.ideal (Fin 3))
      (atr : List (Service.Label Crates.ideal (Fin 3))) (a : Service (Fin 3)), Attacked tr s ∧
      Lib.Exec (Service.Step net) (Service.init (Fin 3)) atr a ∧ a.node = s.node ∧
      Lib.seen Service.Label.see atr = Lib.seen Label.see tr := by
  obtain ⟨tr, s, h⟩ := exists_attacked
  obtain ⟨atr, a, hexec⟩ := Net.Run.refines Crates.bincodeRoundTrips_ideal
    Crates.idealAead_ideal.toAeadCorrect honestPeers keysDetermineSecrets h.run h.ideal
  exact ⟨tr, s, atr, a, h, hexec⟩

/-- The packet that is written at the last node was read at the first. -/
theorem packet_under_attack :
    ∃ (tr : List (Label Crates.ideal (Fin 3))) (s : State Crates.ideal (Fin 3)) (sh : Shared)
      (dst : IpAddr) (route : RouteEntry), Attacked tr s ∧ s.Runs 0 sh ∧
      packetDestination Line.packet = some dst ∧ sh.routing.lookup dst = some route := by
  obtain ⟨tr, s, h⟩ := exists_attacked
  obtain ⟨packet, ticket, tx, payload, hshown⟩ := h.shown
  have hsplit : Lib.seen Label.see tr = [.read 0 packet] ++ .wrote 2 Line.packet ::
      [.drew 0 ticket, .replied 0 .ping tx payload] := hshown
  obtain ⟨S, sh, dst, route, shN, hread, hS, hdst, -, hroute, -⟩ :=
    Net.Run.tun_integrity Crates.bincodeRoundTrips_ideal Crates.idealAead_ideal.toAeadCorrect
      honestPeers keysDetermineSecrets h.run h.ideal hsplit
  obtain ⟨rfl, -⟩ := Seen.read.inj (List.mem_singleton.mp hread)
  exact ⟨tr, s, sh, dst, route, h, hS, hdst, hroute⟩

/-- The entry of the client at its gateway is what it says of itself. -/
theorem registry_under_attack :
    ∃ (tr : List (Label Crates.ideal (Fin 3))) (s : State Crates.ideal (Fin 3)) (sh : Shared)
      (rt : Runtime) (entry : PublicClientEntry), Attacked tr s ∧ s.node 2 = .running sh rt ∧
      rt.tables.registeredClients.lookup (Line.stealth 0) = some entry ∧
      Announced s.node entry := by
  obtain ⟨tr, s, h⟩ := exists_attacked
  obtain ⟨sh, rt, entry, hG, hlook⟩ := h.registers
  have htruthful := Net.Run.registry_truthful Crates.bincodeRoundTrips_ideal
    Crates.idealAead_ideal.toAeadCorrect honestPeers keysDetermineSecrets h.run h.ideal
  exact ⟨tr, s, sh, rt, entry, h, hG, hlook, (htruthful.1 2 sh rt _ entry hG hlook).2⟩

/-- The reply to the ping was sent by the node that was asked. -/
theorem reply_under_attack :
    ∃ (tr : List (Label Crates.ideal (Fin 3))) (s : State Crates.ideal (Fin 3)) (target : String)
      (j : Fin 3) (shj : Shared) (call : SendCall Crates.ideal), Attacked tr s ∧ s.Runs j shj ∧
      shj.localStealth = target ∧ Called tr j call ∧
      (call.msg.response.map Head.target) = some target := by
  obtain ⟨tr, s, h⟩ := exists_attacked
  obtain ⟨packet, ticket, tx, payload, hshown⟩ := h.shown
  obtain ⟨sh, rt, hi, hdrawn⟩ := h.asks
  have hsplit : Lib.seen Label.see tr = [.read 0 packet, .wrote 2 Line.packet, .drew 0 ticket] ++
      .replied 0 .ping tx payload :: [] := hshown
  obtain ⟨id, target, j, shj, call, -, -, hj, hstealth, hcalled, hresponse⟩ :=
    Net.Run.reply_authentic Crates.bincodeRoundTrips_ideal Crates.idealAead_ideal.toAeadCorrect
      honestPeers keysDetermineSecrets h.run h.ideal h.stealths hi hdrawn hsplit
  exact ⟨tr, s, target, j, shj, call, h, hj, hstealth, hcalled, by rw [hresponse]; rfl⟩

end Home

end StealthNet
