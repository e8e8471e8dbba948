/-
  StealthNet.Network.Registry
  ───────────────────────────
  WHAT A GATEWAY HAS HEARD, AND WHAT IT PUBLISHES.

  A node hears a registration when it handles a ClientRegister for itself
  with ttl left.  Its registry is the map filled with what it has heard, in
  order (`Net.Run.registry`), whoever sent it and whatever else happened.

  The `public_clients` section of a configuration decides which of its own
  entries are published.  It decides nothing about the registry, and
  `max_entries` is not read at all.  So what is published keeps the policy
  exactly as long as what was heard does (`Net.Run.publishable_iff`).
-/
import StealthNet.Network.Jobs
import StealthNet.Network.Simulator
import Mathlib.Data.Set.Card

namespace StealthNet

open Lib (HashMap)

variable {C : Crates} {ι : Type}

/-! ## §1. Hearing. -/

/-- In this step node `i`, which runs, handles a registration for itself. -/
def Hears (s : State C ι) (l : Label C ι) (i : ι) (reg : ClientRegister) : Prop :=
  ∃ env packet sh rt peer, l.received = some (i, env, packet) ∧ s.node i = .running sh rt ∧
    openDatagram C sh.peersById packet = .ok (peer, .clientRegister reg) ∧ reg.ttl ≠ 0 ∧
    reg.targetGatewayStealth = sh.localStealth

section

variable [DecidableEq ι] {net : Net ι}

/-- In the run node `i` has handled a registration for itself. -/
def Heard (net : Net ι) (tr : List (Label C ι)) (i : ι) (reg : ClientRegister) : Prop :=
  ∃ pre l post s, tr = pre ++ l :: post ∧ net.Run pre s ∧ Hears s l i reg

theorem not_heard_nil {i : ι} {reg : ClientRegister} :
    ¬ Heard net ([] : List (Label C ι)) i reg := by
  rintro ⟨pre, l, post, s, h, -⟩
  simp at h

theorem heard_snoc {tr : List (Label C ι)} {s : State C ι} (hrun : net.Run tr s) {l : Label C ι}
    {i : ι} {reg : ClientRegister} :
    Heard net (tr ++ [l]) i reg ↔ Heard net tr i reg ∨ Hears s l i reg := by
  constructor
  · rintro ⟨pre, l', post, s', htr, hpre, hears⟩
    induction post using List.reverseRecOn with
    | nil =>
        obtain ⟨rfl, rfl⟩ := List.append_singleton_inj.mp htr
        obtain rfl := hrun.deterministic hpre
        exact Or.inr hears
    | append_singleton post l'' _ =>
        rw [← List.cons_append, ← List.append_assoc] at htr
        obtain ⟨rfl, -⟩ := List.append_singleton_inj.mp htr
        exact Or.inl ⟨pre, l', post, s', rfl, hpre, hears⟩
  · rintro (⟨pre, l', post, s', rfl, hpre, hears⟩ | hears)
    · exact ⟨pre, l', post ++ [l], s', by simp, hpre, hears⟩
    · exact ⟨tr, l, [], s, rfl, hrun, hears⟩

/-! ## §2. The registry is what was heard. -/

/-- A message that is no registration for this node leaves the registry. -/
theorem dispatch_registry_of_not (sh : Shared) (env : Env) (t : Tables) (peer : PeerRuntime)
    {m : Message} (hreg : registered sh t m = t) :
    (dispatch C sh env t peer m).tables.registeredClients = t.registeredClients := by
  have hhandled : Handled sh env t peer m (dispatch C sh env t peer m) := dispatch_handled m
  generalize dispatch C sh env t peer m = o at hhandled
  cases hhandled with
  | ignored | failed | written => rfl
  | sent r _ =>
      show (registered sh t m).registeredClients = t.registeredClients
      rw [hreg]
  | answered κ id payload _ =>
      simp only [answerPending]
      split <;> exact Tables.registeredClients_setPending t κ _

/-- In this packet the node finds a registration for itself. -/
def FindsRegister (C : Crates) (sh : Shared) (packet : Bytes) (reg : ClientRegister) : Prop :=
  ∃ peer, openDatagram C sh.peersById packet = .ok (peer, .clientRegister reg) ∧ reg.ttl ≠ 0 ∧
    reg.targetGatewayStealth = sh.localStealth

theorem FindsRegister.unique {sh : Shared} {packet : Bytes} {reg reg' : ClientRegister}
    (h : FindsRegister C sh packet reg) (h' : FindsRegister C sh packet reg') : reg' = reg := by
  obtain ⟨peer, hopen, -⟩ := h
  obtain ⟨peer', hopen', -⟩ := h'
  obtain ⟨-, heq⟩ := Prod.mk.inj (Except.ok.inj (hopen'.symm.trans hopen))
  exact Message.clientRegister.inj heq

/-- A packet changes the registry only as a registration for this node. -/
theorem handleDatagram_registry (sh : Shared) (env : Env) (t : Tables) (packet : Bytes) :
    (∃ reg, FindsRegister C sh packet reg ∧
      (handleDatagram C sh env t packet).tables.registeredClients
        = t.registeredClients.insert reg.client.clientStealth reg.client) ∨
    (∀ reg, ¬ FindsRegister C sh packet reg) ∧
      (handleDatagram C sh env t packet).tables.registeredClients = t.registeredClients := by
  unfold handleDatagram
  by_cases hfinds : ∃ reg, FindsRegister C sh packet reg
  · obtain ⟨reg, peer, hopen, httl, htarget⟩ := hfinds
    refine Or.inl ⟨reg, ⟨peer, hopen, httl, htarget⟩, ?_⟩
    rw [hopen]
    -- the entry is kept before the acknowledgement is sent
    show (handleClientRegister C sh env t reg).tables.registeredClients = _
    unfold handleClientRegister
    rw [if_neg httl, if_pos htarget]
    rfl
  · refine Or.inr ⟨fun reg hreg => hfinds ⟨reg, hreg⟩, ?_⟩
    cases hopen : openDatagram C sh.peersById packet with
    | error e => rfl
    | ok opened =>
        obtain ⟨peer, m⟩ := opened
        apply dispatch_registry_of_not
        apply registered_of_not
        intro reg hm httl htarget
        exact hfinds ⟨reg, peer, by rw [hopen, hm], httl, htarget⟩

/-- No section of an admin thread touches the registry. -/
theorem Job.Advances.registry {sh : Shared} {env : Env} {κ : RequestKind} {tx : Tx} {job : Job κ}
    {t : Tables} {st : JobStep C κ} (h : job.Advances sh env tx t st) :
    st.tables.registeredClients = t.registeredClients := by
  cases h with
  | unresolved | drew | sent | received | timedOut => rfl
  | registered | cleaned => exact Tables.registeredClients_setPending t κ _

/-- Nothing a node does by itself touches its registry. -/
theorem RunningAct.registry {env : Env} {sh : Shared} {rt rt' : Runtime} {ev : LocalEvent}
    {did : Activity C} (h : RunningAct C env sh rt ev rt' did) :
    rt'.tables.registeredClients = rt.tables.registeredClients := by
  cases h with
  | tunRead | keepalive | queried | opened => rfl
  | clientRegister _ =>
      show (sendClientRegister C sh env rt.tables).2.registeredClients = _
      unfold sendClientRegister
      split
      · rfl
      · split <;> rfl
  | advanced _ hst => exact hst.registry
  | replied => rw [Runtime.tables_reply]

/-- What a step does to the registry of a running node. -/
theorem Step.registry {s s' : State C ι} {l : Label C ι} (h : Step net s l s') {i : ι}
    {sh : Shared} {rt : Runtime} (hi : s.node i = .running sh rt) :
    ∃ rt', s'.node i = .running sh rt' ∧
      ((∃ reg, (∀ reg', Hears s l i reg' ↔ reg' = reg) ∧ rt'.tables.registeredClients
          = rt.tables.registeredClients.insert reg.client.clientStealth reg.client) ∨
        (∀ reg, ¬ Hears s l i reg) ∧
          rt'.tables.registeredClients = rt.tables.registeredClients) := by
  by_cases hreceives : ∃ env packet, l.received = some (i, env, packet)
  · obtain ⟨env, packet, hl⟩ := hreceives
    obtain ⟨hi', -⟩ := h.running_of_received hl hi
    refine ⟨_, hi', ?_⟩
    rw [Runtime.tables_settle]
    have hears_iff : ∀ reg, Hears s l i reg ↔ FindsRegister C sh packet reg := by
      intro reg
      constructor
      · intro hears
        obtain ⟨env', packet', sh', rt', peer, hl', hi', hopen, hreg⟩ := hears
        obtain ⟨rfl, rfl⟩ : env = env' ∧ packet = packet' := by simpa using hl.symm.trans hl'
        obtain ⟨rfl, rfl⟩ := Phase.running.inj (hi.symm.trans hi')
        exact ⟨peer, hopen, hreg⟩
      · intro hfinds
        obtain ⟨peer, hopen, hreg⟩ := hfinds
        exact ⟨env, packet, sh, rt, peer, hl, hi, hopen, hreg⟩
    rcases handleDatagram_registry (C := C) sh env rt.tables packet with
      ⟨reg, hfinds, hinsert⟩ | ⟨hnot, hsame⟩
    · refine Or.inl ⟨reg, fun reg' => ?_, hinsert⟩
      rw [hears_iff]
      constructor
      · exact hfinds.unique
      · intro heq
        rw [heq]
        exact hfinds
    · exact Or.inr ⟨fun reg hears => hnot reg ((hears_iff reg).mp hears), hsame⟩
  · have hdeaf : ∀ reg, ¬ Hears s l i reg := by
      rintro reg ⟨env, packet, _, _, _, hl, -⟩
      exact hreceives ⟨env, packet, hl⟩
    by_cases hacts : ∃ ev env did, l = .act i ev env did
    · obtain ⟨ev, env, did, rfl⟩ := hacts
      have hact := h.act_of_act
      rw [hi] at hact
      obtain ⟨rt', hi', hact⟩ := Phase.act_running hact
      exact ⟨rt', hi', Or.inr ⟨hdeaf, hact.registry⟩⟩
    · -- another node takes the step
      have hsame : s'.node i = s.node i := by
        apply h.node_of_not_does
        intro did hdoes
        rcases hdoes with ⟨ev, env, rfl⟩ | ⟨f, keep, env, rfl⟩ | ⟨packet, env, rfl⟩
        · exact hacts ⟨ev, env, did, rfl⟩
        · exact hreceives ⟨env, _, rfl⟩
        · exact hreceives ⟨env, packet, rfl⟩
      exact ⟨rt, hsame.trans hi, Or.inr ⟨hdeaf, rfl⟩⟩

/-- The registry of a running node is filled with the registrations it has
heard. -/
theorem Net.Run.registry {tr : List (Label C ι)} {s : State C ι} (hrun : net.Run tr s) {i : ι}
    {sh : Shared} {rt : Runtime} (hi : s.node i = .running sh rt) :
    ∃ regs : List ClientRegister, (∀ reg, reg ∈ regs ↔ Heard net tr i reg) ∧
      rt.tables.registeredClients
        = HashMap.fill ∅ (fun reg => reg.client.clientStealth) ClientRegister.client regs := by
  refine hrun.whileRunning (Q := fun tr => ∀ reg, ¬ Heard net tr i reg)
    (I := fun tr _ _ rt => ∃ regs : List ClientRegister,
      (∀ reg, reg ∈ regs ↔ Heard net tr i reg) ∧ rt.tables.registeredClients
        = HashMap.fill ∅ (fun reg => reg.client.clientStealth) ClientRegister.client regs)
    (fun _ => not_heard_nil) ?_ ?_ ?_ hi
  · -- a node hears nothing before it runs
    intro tr s l s' hrun _ hsh hnone reg hheard
    rcases (heard_snoc hrun).mp hheard with hheard | ⟨_, _, _, _, _, _, hn, -⟩
    · exact hnone reg hheard
    · rw [hn] at hsh
      cases hsh
  · intro tr s sh hnone
    exact ⟨[], fun reg => ⟨fun hmem => absurd hmem List.not_mem_nil,
      fun hheard => absurd hheard (hnone reg)⟩, rfl⟩
  · intro tr s l s' sh rt rt' hrun hstep hn hn' ih
    obtain ⟨regs, hmem, hfill⟩ := ih
    obtain ⟨rt'', hn'', hregistry⟩ := hstep.registry hn
    obtain ⟨-, rfl⟩ := Phase.running.inj (hn'.symm.trans hn'')
    rcases hregistry with ⟨reg, hears, hinsert⟩ | ⟨hdeaf, hsame⟩
    · refine ⟨regs ++ [reg], fun reg' => ?_, ?_⟩
      · rw [List.mem_append, List.mem_singleton, hmem, heard_snoc hrun, hears]
      · rw [hinsert, hfill, HashMap.fill_append]
    · refine ⟨regs, fun reg => ?_, hsame.trans hfill⟩
      rw [hmem, heard_snoc hrun]
      exact ⟨Or.inl, fun h => h.resolve_right (hdeaf reg)⟩

/-! ## §3. The publication policy. -/

/-- What the `public_clients` section of a configuration asks of a list of
clients: nobody without it or where it is disabled, and no more than
`max_entries`. -/
structure Publishable (section? : Option PublicClientsConfig) (clients : List PublicClientEntry) :
    Prop where
  hidden : (∀ pc, section? = some pc → pc.enabled = false) → clients = []
  bounded : ∀ pc n, section? = some pc → pc.maxEntries = some n → clients.length ≤ n

/-- A node answers every request for its clients that is for it, and what it
answers with is publishable. -/
def RepliesPublishable (C : Crates) (sh : Shared) (t : Tables) : Prop :=
  ∀ env req, req.ttl ≠ 0 → req.targetStealth = sh.localStealth →
    handlePublicClientsReq C sh env t req = .ofSent t (forwardByStealth C sh env req.srcStealth
      (.publicClientsResp (clientsResponse sh env t req))) ∧
    Publishable sh.config.publicClients (clientsResponse sh env t req).clients

/-- The entries a configuration publishes itself. -/
def configuredEntries (sh : Shared) : List PublicClientEntry :=
  match sh.config.publicClients with
  | some pc => if pc.enabled then pc.entries else []
  | none => []

/-- The stealths of the clients a node has heard registrations of. -/
def heardStealths (net : Net ι) (tr : List (Label C ι)) (i : ι) : Set String :=
  {stealth | ∃ reg, Heard net tr i reg ∧ reg.client.clientStealth = stealth}

/-- What a node has heard fits into its policy. -/
structure FitsPolicy (net : Net ι) (tr : List (Label C ι)) (i : ι) (sh : Shared) : Prop where
  silent : (∀ pc, sh.config.publicClients = some pc → pc.enabled = false) →
    ∀ reg, ¬ Heard net tr i reg
  room : ∀ pc n, sh.config.publicClients = some pc → pc.maxEntries = some n →
    (configuredEntries sh).length + (heardStealths net tr i).ncard ≤ n

theorem publishedClients_eq (sh : Shared) (env : Env) (t : Tables) :
    publishedClients sh env t
      = configuredEntries sh ++ env.valuesOrder t.registeredClients.values := rfl

theorem length_publishedClients (sh : Shared) (env : Env) (t : Tables) :
    (publishedClients sh env t).length
      = (configuredEntries sh).length + t.registeredClients.entries.length := by
  rw [publishedClients_eq, List.length_append, (env.valuesOrder_perm _).length_eq, HashMap.values,
    List.length_map]

section

variable {tr : List (Label C ι)} {s : State C ι} {i : ι} {sh : Shared} {rt : Runtime}

/-- The stealths heard are the keys of the registry. -/
theorem Net.Run.mem_heardStealths (hrun : net.Run tr s) (hi : s.node i = .running sh rt)
    (stealth : String) :
    stealth ∈ heardStealths net tr i ↔ stealth ∈ rt.tables.registeredClients := by
  obtain ⟨regs, hmem, hfill⟩ := hrun.registry hi
  rw [← AList.lookup_isSome, hfill]
  constructor
  · rintro ⟨reg, hheard, rfl⟩
    obtain ⟨reg', -, -, hlook⟩ := HashMap.exists_lookup_fill (m := ∅)
      (fun reg : ClientRegister => reg.client.clientStealth) ClientRegister.client
      ((hmem reg).mpr hheard)
    rw [hlook]
    rfl
  · intro hsome
    obtain ⟨entry, hlook⟩ := Option.isSome_iff_exists.mp hsome
    rcases HashMap.lookup_fill hlook with ⟨reg, hreg, hkey, -⟩ | hnone
    · exact ⟨reg, (hmem reg).mp hreg, hkey⟩
    · simp at hnone

/-- The registry has one entry for each stealth heard. -/
theorem Net.Run.ncard_heardStealths (hrun : net.Run tr s) (hi : s.node i = .running sh rt) :
    (heardStealths net tr i).ncard = rt.tables.registeredClients.entries.length := by
  have heq : heardStealths net tr i
      = ↑(rt.tables.registeredClients.keys.toFinset : Finset String) := by
    ext stealth
    simp [hrun.mem_heardStealths hi, AList.mem_keys]
  rw [heq, Set.ncard_coe_finset, List.toFinset_card_of_nodup rt.tables.registeredClients.keys_nodup]
  exact List.length_map _

theorem configuredEntries_of_disabled
    (h : ∀ pc, sh.config.publicClients = some pc → pc.enabled = false) :
    configuredEntries sh = [] := by
  unfold configuredEntries
  split
  · rename_i pc hpc
    rw [h pc hpc]
    rfl
  · rfl

/-- Every reply of a node keeps its publication policy exactly as long as what
it has heard fits into it. -/
theorem Net.Run.publishable_iff (hrun : net.Run tr s) (hi : s.node i = .running sh rt) :
    RepliesPublishable C sh rt.tables ↔ FitsPolicy net tr i sh := by
  have hlen : ∀ env req, (clientsResponse sh env rt.tables req).clients.length
      = (configuredEntries sh).length + (heardStealths net tr i).ncard := by
    intro env req
    rw [hrun.ncard_heardStealths hi]
    exact length_publishedClients sh env rt.tables
  constructor
  · intro h
    have hany := (h (Env.at 0) ⟨0, "", sh.localStealth, 16⟩ (by simp) rfl).2
    refine ⟨fun hdisabled reg hheard => ?_, fun pc n hpc hn => ?_⟩
    · have hmem := (hrun.mem_heardStealths hi _).mp ⟨reg, hheard, rfl⟩
      have hzero := hlen (Env.at 0) ⟨0, "", sh.localStealth, 16⟩
      rw [hany.hidden hdisabled, hrun.ncard_heardStealths hi, List.length_nil] at hzero
      have hnil : rt.tables.registeredClients.entries = [] := by
        apply List.eq_nil_of_length_eq_zero
        omega
      rw [AList.mem_keys, AList.keys, hnil] at hmem
      cases hmem
    · have hbounded := hany.bounded pc n hpc hn
      rwa [hlen] at hbounded
  · intro h env req httl htarget
    refine ⟨?_, fun hdisabled => ?_, fun pc n hpc hn => ?_⟩
    · simp only [handlePublicClientsReq, if_neg httl, if_pos htarget]
    · have hnone : heardStealths net tr i = ∅ := by
        apply Set.eq_empty_of_forall_notMem
        rintro stealth ⟨reg, hheard, -⟩
        exact h.silent hdisabled reg hheard
      apply List.eq_nil_of_length_eq_zero
      rw [hlen, hnone, configuredEntries_of_disabled hdisabled]
      simp
    · rw [hlen]
      exact h.room pc n hpc hn

end

end

namespace Line

/-- The first node asks the middle one for its clients. -/
def clientsRequest : PublicClientsReq :=
  { requestId := 1
    srcStealth := stealth 0
    targetStealth := stealth 1
    ttl := 16 }

/-- The middle node before and after a registration. Evaluated at once. -/
theorem registry_computed :
    (started.node 1).held.any (fun (sh, rt) =>
      decide (sh.config.publicClients = none) &&
      decide (rt.tables.registeredClients.entries = [])) = true ∧
    ((started.run net Env.at [.inject 1 (datagram 0 1 (.clientRegister registration))]).any
      fun r => (r.2.node 1).held.any fun (sh, rt) =>
        decide (sh.config.publicClients = none) && decide (sh.localStealth = stealth 1) &&
        decide ((clientsResponse sh (Env.at 4) rt.tables clientsRequest).clients
          = [registration.client]) &&
        decide ((datagrams (handleDatagram Crates.ideal sh (Env.at 4) rt.tables
          (datagram 0 1 (.publicClientsReq clientsRequest))).effects).map (fun d => d.call.msg)
            = [.publicClientsResp (clientsResponse sh (Env.at 4) rt.tables clientsRequest)])) = true := by
  decide +kernel

/-- Without a `public_clients` section, the middle node publishes a client that
has registered. -/
theorem published_without_section :
    ∃ (tr : List (Label Crates.ideal (Fin 3))) (s : State Crates.ideal (Fin 3)) (sh : Shared)
      (rt : Runtime) (resp : PublicClientsResp), net.Run tr s ∧ s.node 1 = .running sh rt ∧
      sh.config.publicClients = none ∧
      (datagrams (handleDatagram Crates.ideal sh (Env.at 4) rt.tables
        (datagram 0 1 (.publicClientsReq clientsRequest))).effects).map (fun d => d.call.msg)
          = [.publicClientsResp resp] ∧
      resp.clients = [registration.client] ∧ ¬ RepliesPublishable Crates.ideal sh rt.tables := by
  obtain ⟨tr₀, hrun₀, -⟩ := run_started
  obtain ⟨⟨tr, s⟩, hrun, hcheck⟩ := (Option.any_eq_true _ _).mp registry_computed.2
  obtain ⟨⟨sh, rt⟩, hheld, hcheck⟩ := (Option.any_eq_true _ _).mp hcheck
  simp only [Bool.and_eq_true, decide_eq_true_eq] at hcheck
  obtain ⟨⟨⟨hsection, hlocal⟩, hclients⟩, hsent⟩ := hcheck
  refine ⟨_, s.state, sh, rt, _, hrun₀.append (Sim.run_sound hrun), Phase.held_eq_some.mp hheld,
    hsection, hsent, hclients, fun hpublishable => ?_⟩
  obtain ⟨-, hhidden, -⟩ := hpublishable (Env.at 4) clientsRequest (by decide) hlocal.symm
  have hnil := hhidden fun pc hpc => by rw [hsection] at hpc; cases hpc
  rw [hclients] at hnil
  cases hnil

/-- Before anybody has registered, it publishes nobody. -/
theorem publishable_at_first :
    ∃ (tr : List (Label Crates.ideal (Fin 3))) (s : State Crates.ideal (Fin 3)) (sh : Shared)
      (rt : Runtime), net.Run tr s ∧ s.node 1 = .running sh rt ∧
      sh.config.publicClients = none ∧ RepliesPublishable Crates.ideal sh rt.tables := by
  obtain ⟨tr, hrun, -⟩ := run_started
  obtain ⟨⟨sh, rt⟩, hheld, hcheck⟩ := (Option.any_eq_true _ _).mp registry_computed.1
  rw [Bool.and_eq_true, decide_eq_true_eq, decide_eq_true_eq] at hcheck
  obtain ⟨hsection, hempty⟩ := hcheck
  have hi : started.state.node 1 = .running sh rt := Sim.running_iff.mpr hheld
  refine ⟨tr, _, sh, rt, hrun, hi, hsection, (Net.Run.publishable_iff hrun hi).mpr
    ⟨fun _ reg hheard => ?_, fun pc n hpc => ?_⟩⟩
  · have hmem := (hrun.mem_heardStealths hi _).mp ⟨reg, hheard, rfl⟩
    rw [AList.mem_keys, AList.keys, hempty] at hmem
    cases hmem
  · rw [hsection] at hpc
    cases hpc

end Line

end StealthNet
