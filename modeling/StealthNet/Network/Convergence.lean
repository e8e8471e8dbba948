/-
  StealthNet.Network.Convergence
  ──────────────────────────────
  THE REGISTRY CONVERGES.

  Among nodes that run this code, over a network that loses, reorders and
  duplicates datagrams:

    • `Net.Run.registration`       — every ClientRegister in flight is, up to
                                     its ttl, one that some client sent, with
                                     the entry of that client;
    • `Net.Run.registry_converges` — so the registry of a node maps the
                                     stealths of the clients it has heard to
                                     their entries, and depends on nothing
                                     else.

  Clients are known by their stealths; gateways need not be.
-/
import StealthNet.Network.Registry
import StealthNet.Network.Registration

namespace StealthNet

open Lib (HashMap)

variable {C : Crates} {ι : Type}

/-! ## §1. What a client sends. -/

/-- A call of `send_client_register` sends the entry of this client. -/
theorem sendClientRegister_sends {sh : Shared} {env : Env} {t : Tables} {call : SendCall C}
    (hc : Effect.encrypted call ∈ (sendClientRegister C sh env t).1.effects) :
    ∃ cfg reg, sh.config.client = some cfg ∧ call.msg = .clientRegister reg ∧
      reg.srcStealth = sh.localStealth ∧ reg.client = registerEntry sh cfg ∧ reg.ttl = 16 := by
  unfold sendClientRegister at hc
  split at hc
  · simp [Sent.fail] at hc
  · rename_i cfg hcfg
    split at hc
    · simp [Sent.fail] at hc
    · obtain ⟨_, -, hto⟩ := (sendToPeer_spec sh env _ _).of_encrypted hc
      exact ⟨cfg, _, hcfg, hto.msg, rfl, rfl, rfl⟩

/-- The client `c` sent `reg`, up to the ttl. -/
structure Registration (tr : List (Label C ι)) (s : State C ι) (reg : ClientRegister) (c : ι)
    (sh : Shared) (cfg : ClientConfig) : Prop where
  sent : ∃ env did call, Label.act c .clientRegister env did ∈ tr ∧
    Effect.encrypted call ∈ did.effects ∧ call.msg = .clientRegister { reg with ttl := 16 }
  runs : s.Runs c sh
  role : roleIsClient sh.config = true
  configured : sh.config.client = some cfg
  src : reg.srcStealth = sh.localStealth
  entry : reg.client = registerEntry sh cfg

theorem Registration.withTtl {tr : List (Label C ι)} {s : State C ι} {reg : ClientRegister} {c : ι}
    {sh : Shared} {cfg : ClientConfig} (h : Registration tr s reg c sh cfg) (ttl : UInt8) :
    Registration tr s { reg with ttl } c sh cfg :=
  { h with }

/-- The entry of a client is kept under its stealth. -/
theorem Registration.key {tr : List (Label C ι)} {s : State C ι} {reg : ClientRegister} {c : ι}
    {sh : Shared} {cfg : ClientConfig} (h : Registration tr s reg c sh cfg) :
    reg.client.clientStealth = sh.localStealth := by
  rw [h.entry]
  rfl

section

variable [DecidableEq ι] {net : Net ι}

theorem Registration.later {tr tr' : List (Label C ι)} {s s' : State C ι} {reg : ClientRegister}
    {c : ι} {sh : Shared} {cfg : ClientConfig} (h : Registration tr s reg c sh cfg)
    (hexec : Lib.Exec (Step net) s tr' s') : Registration (tr ++ tr') s' reg c sh cfg := by
  obtain ⟨env, did, call, hl, hc, hmsg⟩ := h.sent
  exact
    { h with
      sent := ⟨env, did, call, List.mem_append_left _ hl, hc, hmsg⟩
      runs := exec_shared hexec h.runs }

/-! ## §2. What a gateway hears. -/

/-- Registrations in flight were sent by clients, and relays touch their ttl
only. -/
theorem Net.Run.registration (hb : C.BincodeRoundTrips) (ha : C.IdealAead)
    {tr : List (Label C ι)} {s : State C ι} (hrun : net.Run tr s) (hhonest : Honest tr)
    {f : Flight C} (hf : f ∈ s.inflight) {reg : ClientRegister} (hreg : f.msg = .clientRegister reg) :
    ∃ c sh cfg, Registration tr s reg c sh cfg := by
  refine Net.Run.wire hb ha
    (P := fun tr s m => ∀ reg, m = .clientRegister reg →
      ∃ c sh cfg, Registration tr s reg c sh cfg)
    ?_ ?_ ?_ ?_ hrun hhonest f hf reg hreg
  · intro tr s l s' m hstep h reg hm
    obtain ⟨c, sh, cfg, h⟩ := h reg hm
    exact ⟨c, sh, cfg, h.later (Lib.Exec.single hstep)⟩
  · intro _ _ _ _ hm
    cases hm
  · intro tr s s' i ev env did sh rt p m _ hstep hn ho hcall reg hm
    subst hm
    obtain ⟨call, hc, hmsg⟩ := hcall
    obtain rfl := ho.clientRegister_inv
    have hact := hstep.act_of_act
    rw [hn] at hact
    obtain ⟨rt', -, hact⟩ := Phase.act_running hact
    cases hact with
    | clientRegister hrole =>
        obtain ⟨cfg, reg', hcfg, hmsg', hsrc, hentry, httl⟩ := sendClientRegister_sends hc
        obtain rfl := Message.clientRegister.inj (hmsg.symm.trans hmsg')
        have h16 : { reg with ttl := 16 } = reg := by rw [← httl]
        refine ⟨i, sh, cfg, ⟨env, _, call, by simp, hc, ?_⟩, ?_, hrole, hcfg, hsrc, hentry⟩
        · rw [hmsg, h16]
        · exact hstep.shared (by rw [hn]; rfl)
  · intro tr s s' i f keep env did sh rt peer p m' _ hstep _ hP _ hemit reg hm
    subst hm
    obtain ⟨reg', hreg', rfl⟩ := hemit.clientRegister_inv
    obtain ⟨c, shc, cfg, h⟩ := hP reg' hreg'
    exact ⟨c, shc, cfg, (h.later (Lib.Exec.single hstep)).withTtl _⟩

/-- So was every registration a node has heard. -/
theorem Net.Run.registration_of_heard (hb : C.BincodeRoundTrips) (ha : C.IdealAead)
    {tr : List (Label C ι)} {s : State C ι} (hrun : net.Run tr s) (hhonest : Honest tr) {G : ι}
    {reg : ClientRegister} (hheard : Heard net tr G reg) :
    ∃ c sh cfg, Registration tr s reg c sh cfg := by
  obtain ⟨pre, l, post, s₁, rfl, hpre, env, packet, shG, rtG, peer, hl, -, hopen, -, -⟩ := hheard
  obtain ⟨s₁', s₂, hpre', hstep, hpost⟩ := hrun.split_cons
  obtain rfl := hpre.deterministic hpre'
  cases l with
  | act | drop => cases hl
  | inject i packet' env' did => exact absurd rfl (hhonest _ (by simp) i packet' env' did)
  | deliver i f keep env' did =>
      obtain ⟨rfl, rfl, rfl⟩ : i = G ∧ env' = env ∧ f.datagram.bytes = packet := by
        simpa only [Label.received, Option.some.injEq, Prod.mk.injEq] using hl
      obtain ⟨-, -, hmsg⟩ := (openDatagram_datagram hb ha _).mp hopen
      obtain ⟨c, sh, cfg, h⟩ := Net.Run.registration hb ha hpre hhonest.of_append
        hstep.received_of_deliver.1 hmsg.symm
      exact ⟨c, sh, cfg, h.later ((Lib.Exec.single hstep).append hpost)⟩

/-- Node `G` has heard the client `c`: it has handled, as addressed to itself
and with ttl left, a registration that `c` sent. -/
def ClientHeard (net : Net ι) (tr : List (Label C ι)) (s : State C ι) (G c : ι) (sh : Shared)
    (cfg : ClientConfig) : Prop :=
  ∃ reg, Heard net tr G reg ∧ Registration tr s reg c sh cfg

/-- The running clients have distinct stealths. -/
def State.DistinctClients (s : State C ι) : Prop :=
  ∀ c c' sh sh', s.Runs c sh → s.Runs c' sh' → roleIsClient sh.config = true →
    roleIsClient sh'.config = true → sh.localStealth = sh'.localStealth → c = c'

/-- In both states the running clients are the same daemons: they have the same
stealths and configurations. -/
def State.SameClients (s s' : State C ι) : Prop :=
  ∀ c sh sh', s.Runs c sh → s'.Runs c sh' → roleIsClient sh.config = true →
    sh.localStealth = sh'.localStealth ∧ sh.config = sh'.config

/-! ## §3. The registry. -/

section

variable {tr tr' : List (Label C ι)} {s s' : State C ι} {G : ι} {shG shG' : Shared}
  {rt rt' : Runtime}

/-- The registry maps the stealths of the clients heard to their entries. -/
theorem Net.Run.lookup_registry (hb : C.BincodeRoundTrips) (ha : C.IdealAead)
    (hrun : net.Run tr s) (hhonest : Honest tr) (hclients : s.DistinctClients)
    (hG : s.node G = .running shG rt) (stealth : String) (entry : PublicClientEntry) :
    rt.tables.registeredClients.lookup stealth = some entry ↔
      ∃ c sh cfg, ClientHeard net tr s G c sh cfg ∧ sh.localStealth = stealth ∧
        registerEntry sh cfg = entry := by
  obtain ⟨regs, hmem, hfill⟩ := hrun.registry hG
  rw [hfill]
  constructor
  · intro hlook
    rcases HashMap.lookup_fill hlook with ⟨reg, hreg, rfl, rfl⟩ | hnone
    · have hheard := (hmem reg).mp hreg
      obtain ⟨c, sh, cfg, h⟩ := Net.Run.registration_of_heard hb ha hrun hhonest hheard
      exact ⟨c, sh, cfg, ⟨reg, hheard, h⟩, h.key.symm, h.entry.symm⟩
    · simp at hnone
  · rintro ⟨c, sh, cfg, ⟨reg, hheard, h⟩, rfl, rfl⟩
    obtain ⟨reg', hreg', hkey, hlook⟩ := HashMap.exists_lookup_fill (m := ∅)
      (fun reg : ClientRegister => reg.client.clientStealth) ClientRegister.client
      ((hmem reg).mpr hheard)
    -- the entry may come from another message, but that is from the same client
    obtain ⟨c', sh', cfg', h'⟩ :=
      Net.Run.registration_of_heard hb ha hrun hhonest ((hmem reg').mp hreg')
    rw [h.key, h'.key] at hkey
    obtain rfl := hclients c' c sh' sh h'.runs h.runs h'.role h.role hkey
    obtain rfl := Option.some.inj (h'.runs.symm.trans h.runs)
    obtain rfl := Option.some.inj (h'.configured.symm.trans h.configured)
    rw [← h.key, hlook, h'.entry]

/-- A client heard in two runs has the same stealth and the same entry. -/
theorem ClientHeard.same {c : ι} {sh sh' : Shared} {cfg cfg' : ClientConfig}
    (h : ClientHeard net tr s G c sh cfg) (h' : ClientHeard net tr' s' G c sh' cfg')
    (hsame : s.SameClients s') :
    sh.localStealth = sh'.localStealth ∧ registerEntry sh cfg = registerEntry sh' cfg' := by
  obtain ⟨_, -, hreg⟩ := h
  obtain ⟨_, -, hreg'⟩ := h'
  obtain ⟨hstealth, hconfig⟩ := hsame c sh sh' hreg.runs hreg'.runs hreg.role
  have hcfg := hreg.configured
  rw [hconfig, hreg'.configured] at hcfg
  obtain rfl := Option.some.inj hcfg
  refine ⟨hstealth, ?_⟩
  unfold registerEntry
  rw [hstealth, hconfig]

/-- Which clients were heard determines the registry. -/
theorem Net.Run.lookup_registry_eq (hb : C.BincodeRoundTrips) (ha : C.IdealAead)
    (hrun : net.Run tr s) (hhonest : Honest tr) (hclients : s.DistinctClients)
    (hG : s.node G = .running shG rt) (hrun' : net.Run tr' s') (hhonest' : Honest tr')
    (hclients' : s'.DistinctClients) (hG' : s'.node G = .running shG' rt')
    (hsame : s.SameClients s')
    (hheard : ∀ c, (∃ sh cfg, ClientHeard net tr s G c sh cfg) ↔
      ∃ sh cfg, ClientHeard net tr' s' G c sh cfg) (stealth : String) :
    rt.tables.registeredClients.lookup stealth = rt'.tables.registeredClients.lookup stealth := by
  apply Option.ext
  intro entry
  rw [Net.Run.lookup_registry hb ha hrun hhonest hclients hG,
    Net.Run.lookup_registry hb ha hrun' hhonest' hclients' hG']
  constructor
  · rintro ⟨c, sh, cfg, h, rfl, rfl⟩
    obtain ⟨sh', cfg', h'⟩ := (hheard c).mp ⟨sh, cfg, h⟩
    obtain ⟨hstealth, hentry⟩ := h.same h' hsame
    exact ⟨c, sh', cfg', h', hstealth.symm, hentry.symm⟩
  · rintro ⟨c, sh', cfg', h', rfl, rfl⟩
    obtain ⟨sh, cfg, h⟩ := (hheard c).mpr ⟨sh', cfg', h'⟩
    obtain ⟨hstealth, hentry⟩ := h.same h' hsame
    exact ⟨c, sh, cfg, h, hstealth, hentry⟩

/-- Every client heard so far is listed once, unless the configuration has an
entry with its stealth. -/
theorem Net.Run.lists_heard (hb : C.BincodeRoundTrips) (ha : C.IdealAead)
    (hrun : net.Run tr s) (hhonest : Honest tr) (hclients : s.DistinctClients)
    (hG : s.node G = .running shG rt) (env : Env) {c : ι} {sh : Shared} {cfg : ClientConfig}
    (hheard : ClientHeard net tr s G c sh cfg)
    (hother : ∀ e ∈ configuredEntries shG, e.clientStealth ≠ sh.localStealth) :
    (publishedClients shG env rt.tables).filter (fun e => e.clientStealth = sh.localStealth)
      = [registerEntry sh cfg] := by
  have hlookup := Net.Run.lookup_registry hb ha hrun hhonest hclients hG
  have hkey : ∀ stealth entry, rt.tables.registeredClients.lookup stealth = some entry →
      entry.clientStealth = stealth := by
    intro stealth entry hlook
    obtain ⟨c, sh, cfg, -, rfl, rfl⟩ := (hlookup stealth entry).mp hlook
    rfl
  have hconfigured : (configuredEntries shG).filter
      (fun e => e.clientStealth = sh.localStealth) = [] := by
    rw [List.filter_eq_nil_iff]
    intro e he
    simpa using hother e he
  rw [publishedClients_eq, List.filter_append, hconfigured, List.nil_append]
  apply List.perm_singleton.mp
  apply ((env.valuesOrder_perm _).filter _).trans
  exact HashMap.filter_values_perm hkey ((hlookup _ _).mpr ⟨c, sh, cfg, hheard, rfl, rfl⟩)

/-- Whatever was lost, duplicated or overtaken on the way: the registry of a
node is the map from the stealths of the clients it has heard to their entries.
It depends on the set of these clients only, and every reply lists each of them
once, unless the configuration has an entry with its stealth. -/
theorem Net.Run.registry_converges (hb : C.BincodeRoundTrips) (ha : C.IdealAead)
    (hrun : net.Run tr s) (hhonest : Honest tr) (hclients : s.DistinctClients)
    (hG : s.node G = .running shG rt) :
    (∀ stealth entry, rt.tables.registeredClients.lookup stealth = some entry ↔
      ∃ c sh cfg, ClientHeard net tr s G c sh cfg ∧ sh.localStealth = stealth ∧
        registerEntry sh cfg = entry) ∧
    (∀ tr' s' shG' rt', net.Run tr' s' → Honest tr' → s'.DistinctClients →
      s'.node G = .running shG' rt' → s.SameClients s' →
      (∀ c, (∃ sh cfg, ClientHeard net tr s G c sh cfg) ↔
        ∃ sh cfg, ClientHeard net tr' s' G c sh cfg) →
      ∀ stealth, rt.tables.registeredClients.lookup stealth
        = rt'.tables.registeredClients.lookup stealth) ∧
    (∀ env req, req.ttl ≠ 0 → req.targetStealth = shG.localStealth →
      ∃ resp, handlePublicClientsReq C shG env rt.tables req
          = .ofSent rt.tables (forwardByStealth C shG env req.srcStealth (.publicClientsResp resp)) ∧
        ∀ c sh cfg, ClientHeard net tr s G c sh cfg →
          (∀ e ∈ configuredEntries shG, e.clientStealth ≠ sh.localStealth) →
          resp.clients.filter (fun e => e.clientStealth = sh.localStealth)
            = [registerEntry sh cfg]) := by
  refine ⟨?_, ?_, ?_⟩
  · exact Net.Run.lookup_registry hb ha hrun hhonest hclients hG
  · intro tr' s' shG' rt' hrun' hhonest' hclients' hG' hsame hheard
    exact Net.Run.lookup_registry_eq hb ha hrun hhonest hclients hG hrun' hhonest' hclients' hG'
      hsame hheard
  · intro env req httl htarget
    refine ⟨clientsResponse shG env rt.tables req, ?_, fun c sh cfg hheard hother => ?_⟩
    · simp only [handlePublicClientsReq, if_neg httl, if_pos htarget]
    · exact Net.Run.lists_heard hb ha hrun hhonest hclients hG env hheard hother

end

end

namespace Home

/-- The client registers twice. The second registration overtakes the first
one and is duplicated. -/
def repeating : List (Move (Fin 3)) :=
  [.act 0 .clientRegister, .act 0 .clientRegister, .deliver 1 true, .deliver 0 false,
    .deliver 0 false]

/-- Evaluated at once. -/
theorem repeating_computed :
    (started.run net Env.at repeating).isSome = true ∧
    ((started.play net Env.at repeating).node 2).held.any (fun (sh, rt) =>
      decide (configuredEntries sh = []) &&
      (rt.tables.registeredClients.lookup (Line.stealth 0)).isSome) = true := by
  decide +kernel

/-- The gateway lists the entry of the client once. -/
theorem listed_once :
    ∃ (tr : List (Label Crates.ideal (Fin 3))) (s : State Crates.ideal (Fin 3)) (shG : Shared)
      (rt : Runtime) (c : Fin 3) (sh : Shared) (cfg : ClientConfig) (resp : PublicClientsResp),
      net.Run tr s ∧ s.node 2 = .running shG rt ∧ ClientHeard net tr s 2 c sh cfg ∧
      sh.localStealth = Line.stealth 0 ∧
      handlePublicClientsReq Crates.ideal shG (Env.at 8) rt.tables ⟨0, "", shG.localStealth, 16⟩
        = .ofSent rt.tables (forwardByStealth Crates.ideal shG (Env.at 8) ""
            (.publicClientsResp resp)) ∧
      resp.clients.filter (fun e => e.clientStealth = sh.localStealth)
        = [registerEntry sh cfg] := by
  obtain ⟨tr₀, hrun₀, hhonest₀⟩ := Sim.exists_run_play (by simp [boot]) boot_computed.1
  obtain ⟨hmoves, hheld⟩ := repeating_computed
  obtain ⟨tr, hexec, hhonest⟩ := Sim.exists_run_play (by simp [repeating]) hmoves
  obtain ⟨⟨shG, rt⟩, hheld, hcheck⟩ := (Option.any_eq_true _ _).mp hheld
  rw [Bool.and_eq_true, decide_eq_true_eq] at hcheck
  obtain ⟨hconfigured, hsome⟩ := hcheck
  obtain ⟨entry, hlook⟩ := Option.isSome_iff_exists.mp hsome
  have hG := Sim.running_iff.mpr hheld
  have hruns : ∀ i, ∃ sh, (started.play net Env.at repeating).state.Runs i sh ∧
      sh.localStealth = Line.stealth i := by
    intro i
    obtain ⟨sh, hsh, hstealth⟩ := runs_started i
    exact ⟨sh, exec_shared hexec hsh, hstealth⟩
  have hdistinct := State.distinctStealths_of (by decide) hruns
  have hclients : (started.play net Env.at repeating).state.DistinctClients :=
    fun c c' sh sh' hc hc' _ _ heq => hdistinct c c' sh sh' hc hc' heq
  obtain ⟨hlookup, -, hreplies⟩ := Net.Run.registry_converges Crates.bincodeRoundTrips_ideal
    Crates.idealAead_ideal (Lib.Exec.append hrun₀ hexec) (hhonest₀.append hhonest) hclients hG
  obtain ⟨c, sh, cfg, hheard, hstealth, -⟩ := (hlookup _ _).mp hlook
  obtain ⟨resp, hreply, hlists⟩ := hreplies (Env.at 8) ⟨0, "", shG.localStealth, 16⟩ (by simp) rfl
  refine ⟨_, _, shG, rt, c, sh, cfg, resp, Lib.Exec.append hrun₀ hexec, hG, hheard, hstealth,
    hreply, hlists c sh cfg hheard fun e he => ?_⟩
  rw [hconfigured] at he
  cases he

end Home

end StealthNet
