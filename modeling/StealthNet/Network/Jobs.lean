/-
  StealthNet.Network.Jobs
  ───────────────────────
  HOW THE TABLES AND THREADS OF A RUNNING NODE CHANGE.

  `Step.runtime` says once everything a step of the network does to the tables
  and admin threads of a running node: nothing that matters to them, a new
  thread, a thread that advances, a pending request whose sender is taken for
  a reply, or a reply that is sent.  The invariants of requests are derived
  from these five cases.
-/
import StealthNet.Network.Wire

namespace StealthNet

variable {C : Crates} {ι : Type}

/-! ## §1. Threads. -/

namespace Runtime

@[simp] theorem setJob_tables (rt : Runtime) (κ : RequestKind) (n : Nat) (job : Job κ) :
    (rt.setJob κ n job).tables = rt.tables := rfl

@[simp] theorem setJob_jobs_self (rt : Runtime) (κ : RequestKind) (n : Nat) (job : Job κ) :
    (rt.setJob κ n job).jobs κ n = some job := by
  simp [setJob]

theorem setJob_jobs_of_ne (rt : Runtime) {κ κ' : RequestKind} {n n' : Nat} (job : Job κ)
    (h : κ' = κ → n' ≠ n) : (rt.setJob κ n job).jobs κ' n' = rt.jobs κ' n' := by
  by_cases hκ : κ' = κ
  · subst hκ
    simp [setJob, Function.update_of_ne (h rfl)]
  · simp [setJob, Function.update_of_ne hκ]

/-- A thread after one thread was set. -/
theorem setJob_jobs_cases {rt : Runtime} {κ κ' : RequestKind} {n n' : Nat} {job : Job κ}
    {job' : Job κ'} (h : (rt.setJob κ n job).jobs κ' n' = some job') :
    (∃ hκ : κ' = κ, n' = n ∧ job' = hκ ▸ job) ∨
      (κ' = κ → n' ≠ n) ∧ rt.jobs κ' n' = some job' := by
  by_cases hne : κ' = κ → n' ≠ n
  · exact Or.inr ⟨hne, by rwa [setJob_jobs_of_ne rt job hne] at h⟩
  · obtain ⟨rfl, hn⟩ := Classical.not_imp.mp hne
    obtain rfl := not_not.mp hn
    rw [setJob_jobs_self] at h
    exact Or.inl ⟨rfl, rfl, (Option.some.inj h).symm⟩

/-- A reply reaches one thread. -/
theorem jobs_reply_self (rt : Runtime) {κ : RequestKind} {tx : Tx} {job : Job κ}
    (h : rt.jobs κ tx.job = some job) (payload : Payload κ) :
    (rt.reply κ tx payload).jobs κ tx.job = some (job.deliver tx.iteration payload) := by
  unfold reply
  rw [h]
  exact setJob_jobs_self ..

theorem jobs_reply_of_ne (rt : Runtime) {κ κ' : RequestKind} {tx : Tx} {n : Nat}
    (payload : Payload κ) (h : κ' = κ → n ≠ tx.job) :
    (rt.reply κ tx payload).jobs κ' n = rt.jobs κ' n := by
  unfold reply
  split
  · rfl
  · exact setJob_jobs_of_ne rt _ h

end Runtime

/-- A payload for an iteration that has ended reaches nobody. -/
theorem Job.deliver_of_ne {κ : RequestKind} {job : Job κ} {iteration : Nat}
    (h : job.results.length ≠ iteration) (payload : Payload κ) :
    job.deliver iteration payload = job := if_neg h

/-- A payload for the iteration in progress is what its channel holds last. -/
theorem Job.deliver_of_current {κ : RequestKind} {job : Job κ} {iteration : Nat} {req : Request κ}
    (hlen : job.results.length = iteration) (hreq : job.current = some req) (payload : Payload κ) :
    job.deliver iteration payload
      = { job with current := some { req with rx := req.rx ++ [payload] } } := by
  rw [Job.deliver, if_pos hlen, hreq]
  rfl

/-- A new thread has no results and no request. -/
theorem AdminRequest.job_new {request : AdminRequest} {κ : RequestKind} {job : Job κ}
    (h : request.job = some ⟨κ, job⟩) : job.results = [] ∧ job.current = none := by
  cases request with
  | ping target count timeoutMs | clients target timeoutMs =>
      obtain ⟨rfl, hjob⟩ := Sigma.mk.inj (Option.some.inj h)
      obtain rfl := eq_of_heq hjob
      exact ⟨rfl, rfl⟩
  | _ => cases h

/-! ## §2. The steps of a running node. -/

/-- Same pending requests, and the counter as it was or drawn from once. -/
structure Tables.SameRequests (t t' : Tables) : Prop where
  pending : ∀ κ id, (t'.pending κ).lookup id = (t.pending κ).lookup id
  counter : t'.nextRequestId = t.nextRequestId ∧ t'.drawn = t.drawn ∨
    t'.nextRequestId = t.nextRequestId + 1 ∧ t'.drawn = t.drawn + 1

/-- What a step does to the tables and threads of node `i`. -/
inductive RuntimeStep (sh : Shared) (i : ι) (l : Label C ι) (rt : Runtime) : Runtime → Prop
  | kept {t : Tables} (ht : rt.tables.SameRequests t)
      (hdrew : ∀ did, l.Does i did → did.drew = none) :
      RuntimeStep sh i l rt { rt with tables := t }
  | opened {κ : RequestKind} {n : Nat} {job : Job κ} {request : AdminRequest} {env : Env}
      {did : Activity C} (hl : l = .act i (.adminRequest n request) env did)
      (hrequest : request.job = some ⟨κ, job⟩) (hnone : rt.jobs κ n = none)
      (hdrew : did.drew = none) :
      RuntimeStep sh i l rt (rt.setJob κ n job)
  | advanced {κ : RequestKind} {n : Nat} {job : Job κ} {env : Env} {did : Activity C}
      {st : JobStep C κ} (hl : l = .act i (.admin κ n) env did) (hjob : rt.jobs κ n = some job)
      (hst : job.Advances sh env ⟨n, job.results.length⟩ rt.tables st)
      (hdid : did = ⟨none, st.drew.map fun (id, target) =>
        ⟨κ, id, ⟨n, job.results.length⟩, target⟩, st.effects⟩) :
      RuntimeStep sh i l rt (({ rt with tables := st.tables } : Runtime).setJob κ n st.job)
  | answered {κ : RequestKind} {id : UInt64} {payload : Payload κ} {tx : Tx} {m : Message}
      {peer : PeerRuntime} {env : Env} {did : Activity C} (hdoes : l.Does i did)
      (hdid : did.dispatched = some (peer, m)) (hdrew : did.drew = none)
      (hans : Answers sh env m κ id payload) (htx : (rt.tables.pending κ).lookup id = some tx)
      (hreply : Effect.reply κ tx payload ∈ did.effects) (hnone : rt.sending = none) :
      RuntimeStep sh i l rt
        { rt with
            tables := rt.tables.setPending κ ((rt.tables.pending κ).erase id)
            sending := some ⟨κ, tx, payload⟩ }
  | replied {r : Reply} {env : Env} {did : Activity C} (hl : l = .act i .reply env did)
      (hsending : rt.sending = some r) (hdid : did = .idle) :
      RuntimeStep sh i l rt
        (({ rt with sending := none } : Runtime).reply r.kind r.tx r.payload)

/-- The same step, for one thread. -/
inductive JobCase (sh : Shared) (i : ι) (l : Label C ι) (rt : Runtime) (κ : RequestKind) (n : Nat)
    (job' : Job κ) : Prop
  | same (h : rt.jobs κ n = some job')
      (hdrew : ∀ did ticket, l.Does i did → did.drew = some ticket → ticket.kind = κ →
        ticket.tx.job ≠ n)
  | opened {request : AdminRequest} {env : Env} {did : Activity C}
      (hl : l = .act i (.adminRequest n request) env did)
      (hrequest : request.job = some ⟨κ, job'⟩) (hnone : rt.jobs κ n = none)
      (hdrew : did.drew = none)
  | advanced {job : Job κ} {env : Env} {did : Activity C} {st : JobStep C κ}
      (hl : l = .act i (.admin κ n) env did) (hjob : rt.jobs κ n = some job)
      (hst : job.Advances sh env ⟨n, job.results.length⟩ rt.tables st)
      (hdid : did = ⟨none, st.drew.map fun (id, target) =>
        ⟨κ, id, ⟨n, job.results.length⟩, target⟩, st.effects⟩)
      (hjob' : job' = st.job)
  | delivered {job : Job κ} {payload : Payload κ} {tx : Tx} {env : Env} {did : Activity C}
      (hl : l = .act i .reply env did) (hsending : rt.sending = some ⟨κ, tx, payload⟩)
      (hn : tx.job = n) (hjob : rt.jobs κ n = some job)
      (hjob' : job' = job.deliver tx.iteration payload) (hdid : did = .idle)

theorem RuntimeStep.job {sh : Shared} {i : ι} {l : Label C ι} {rt rt' : Runtime}
    (h : RuntimeStep sh i l rt rt') {κ : RequestKind} {n : Nat} {job' : Job κ}
    (hjob' : rt'.jobs κ n = some job') : JobCase sh i l rt κ n job' := by
  cases h with
  | kept _ hdrew =>
      refine .same hjob' fun did ticket hdoes hticket => ?_
      rw [hdrew did hdoes] at hticket
      cases hticket
  | @opened κ' n' job request env did hl hrequest hnone hdrew =>
      rcases Runtime.setJob_jobs_cases hjob' with ⟨rfl, rfl, rfl⟩ | ⟨-, hsame⟩
      · exact .opened hl hrequest hnone hdrew
      · refine .same hsame fun did' ticket hdoes hticket => ?_
        subst hl
        rw [hdoes.act_inv.2, hdrew] at hticket
        cases hticket
  | @advanced κ' n' job env did st hl hjob hst hdid =>
      rcases Runtime.setJob_jobs_cases hjob' with ⟨rfl, rfl, rfl⟩ | ⟨hne, hsame⟩
      · exact .advanced hl hjob hst hdid rfl
      · refine .same hsame fun did' ticket hdoes hticket hκ => ?_
        subst hl
        rw [hdoes.act_inv.2, hdid] at hticket
        obtain ⟨_, -, rfl⟩ := Option.map_eq_some_iff.mp hticket
        -- a thread draws ids for itself only
        exact (hne hκ.symm).symm
  -- the threads are as they were until the reply is sent
  | answered hdoes _ hdrew =>
      refine .same hjob' fun did' ticket hdoes' hticket => ?_
      rw [← (hdoes.unique hdoes').2, hdrew] at hticket
      cases hticket
  | @replied r env did hl hsending hdid =>
      have hsame : ∀ did' ticket, l.Does i did' → did'.drew = some ticket → ticket.kind = κ →
          ticket.tx.job ≠ n := by
        intro did' ticket hdoes' hticket
        subst hl
        rw [hdoes'.act_inv.2, hdid] at hticket
        cases hticket
      unfold Runtime.reply at hjob'
      split at hjob'
      · -- no such thread: the payload reaches nobody
        exact .same hjob' hsame
      · rename_i job hjob
        rcases Runtime.setJob_jobs_cases hjob' with ⟨rfl, rfl, rfl⟩ | ⟨-, hother⟩
        · exact .delivered hl hsending rfl hjob rfl hdid
        · exact .same hother hsame

theorem Tables.SameRequests.refl (t : Tables) : t.SameRequests t := ⟨fun _ _ => rfl, Or.inl ⟨rfl, rfl⟩⟩

theorem Tables.SameRequests.register (t : Tables) (reg : ClientRegister) :
    t.SameRequests (t.register reg) := by
  refine ⟨fun κ _ => ?_, Or.inl ⟨rfl, rfl⟩⟩
  cases κ <;> rfl

theorem Tables.SameRequests.registered (sh : Shared) (t : Tables) (m : Message) :
    t.SameRequests (registered sh t m) := by
  unfold StealthNet.registered
  split
  · split
    · exact register t _
    · exact refl t
  · exact refl t

/-- Erasing what is not there changes no request. -/
theorem Tables.SameRequests.erase {t : Tables} {κ : RequestKind} {id : UInt64}
    (h : (t.pending κ).lookup id = none) :
    t.SameRequests (t.setPending κ ((t.pending κ).erase id)) := by
  refine ⟨fun κ' id' => ?_, Or.inl ⟨by simp, by simp⟩⟩
  rw [Tables.lookup_pending_erase]
  split
  · rename_i hsame
    rw [hsame.1, hsame.2, h]
  · rfl

theorem sendClientRegister_tables (sh : Shared) (env : Env) (t : Tables) :
    t.SameRequests (sendClientRegister C sh env t).2 := by
  unfold sendClientRegister
  split
  · exact .refl t
  · split
    · exact .refl t
    · refine ⟨fun κ _ => ?_, Or.inr ⟨rfl, rfl⟩⟩
      cases κ <;> rfl

theorem foldl_apply_of_not_reply (effects : List (Effect C)) (rt : Runtime)
    (h : ∀ κ tx payload, Effect.reply κ tx payload ∉ effects) :
    effects.foldl Runtime.apply rt = rt := by
  induction effects with
  | nil => rfl
  | cons e effects ih =>
      have htail : ∀ κ tx payload, Effect.reply κ tx payload ∉ effects :=
        fun κ tx payload hmem => h κ tx payload (List.mem_cons_of_mem _ hmem)
      cases e with
      | reply κ tx payload => exact absurd (List.mem_cons_self ..) (h κ tx payload)
      | _ => exact ih htail

/-- A dispatched message changes the requests of a node only if it answers
one. -/
theorem Handled.runtime {sh : Shared} {env : Env} {rt : Runtime} {peer : PeerRuntime}
    {m : Message} {o : Outcome C} (h : Handled sh env rt.tables peer m o) {i : ι}
    {l : Label C ι} {did : Activity C} (hdoes : l.Does i did)
    (hdid : did = ⟨some (peer, m), none, o.effects⟩) (hnone : rt.sending = none) :
    RuntimeStep sh i l rt (rt.settle o) := by
  have hdrew : ∀ did', l.Does i did' → did'.drew = none := by
    intro did' hdoes'
    rw [← (hdoes.unique hdoes').2, hdid]
  cases h with
  | ignored | failed => exact .kept (.refl _) hdrew
  | sent r hr =>
      -- a send replies to no thread
      have hfold := foldl_apply_of_not_reply (Outcome.ofSent (registered sh rt.tables m) r).effects
        { rt with tables := registered sh rt.tables m } fun κ tx payload => hr.not_reply
      rw [Runtime.settle, show (Outcome.ofSent (registered sh rt.tables m) r).tables
        = registered sh rt.tables m from rfl, hfold]
      exact .kept (.registered sh rt.tables m) hdrew
  | written => exact .kept (.refl _) hdrew
  | answered κ id payload hans =>
      simp only [answerPending, Runtime.settle] at hdid ⊢
      cases htx : (rt.tables.pending κ).lookup id with
      -- an unsolicited or a late response finds no entry
      | none => exact .kept (.erase htx) hdrew
      | some tx =>
          rw [htx] at hdid
          exact .answered hdoes (by rw [hdid]) (by rw [hdid]) hans htx
            (by rw [hdid]; exact List.mem_singleton_self _) hnone

theorem issued_snoc {tr : List (Label C ι)} {l : Label C ι} {i : ι} {ticket : Ticket} :
    Issued (tr ++ [l]) i ticket
      ↔ Issued tr i ticket ∨ ∃ did, l.Does i did ∧ did.drew = some ticket := by
  constructor
  · rintro ⟨l', hl', did, hd, hdrew⟩
    rcases List.mem_append.mp hl' with hl' | hl'
    · exact Or.inl ⟨l', hl', did, hd, hdrew⟩
    · obtain rfl := List.mem_singleton.mp hl'
      exact Or.inr ⟨did, hd, hdrew⟩
  · rintro (⟨l', hl', did, hd, hdrew⟩ | ⟨did, hd, hdrew⟩)
    · exact ⟨l', List.mem_append_left _ hl', did, hd, hdrew⟩
    · exact ⟨l, by simp, did, hd, hdrew⟩

theorem Issued.snoc {tr : List (Label C ι)} {i : ι} {ticket : Ticket} (h : Issued tr i ticket)
    (l : Label C ι) : Issued (tr ++ [l]) i ticket :=
  issued_snoc.mpr (Or.inl h)

/-- What is issued after a step of the node was issued before or drawn in it. -/
theorem issued_snoc_iff {tr : List (Label C ι)} {l : Label C ι} {i : ι} {did : Activity C}
    (hdoes : l.Does i did) {ticket : Ticket} :
    Issued (tr ++ [l]) i ticket ↔ Issued tr i ticket ∨ did.drew = some ticket := by
  rw [issued_snoc]
  constructor
  · intro h
    rcases h with h | ⟨did', hdoes', hd⟩
    · exact Or.inl h
    · rw [(hdoes.unique hdoes').2]
      exact Or.inr hd
  · intro h
    rcases h with h | hd
    · exact Or.inl h
    · exact Or.inr ⟨did, hdoes, hd⟩

variable {net : Net ι}

theorem RunningAct.runtime {env : Env} {sh : Shared} {rt rt' : Runtime} {i : ι} {ev : LocalEvent}
    {did : Activity C} (h : RunningAct C env sh rt ev rt' did) :
    RuntimeStep sh i (Label.act i ev env did : Label C ι) rt rt' := by
  have hdrew : did.drew = none → ∀ did', (Label.act i ev env did : Label C ι).Does i did' →
      did'.drew = none := by
    intro hnone did' hdoes
    rw [← ((Label.does_act i ev env did).unique hdoes).2, hnone]
  cases h with
  | tunRead | keepalive | queried => exact .kept (.refl _) (hdrew rfl)
  | clientRegister _ => exact .kept (sendClientRegister_tables sh env rt.tables) (hdrew rfl)
  | opened hrequest hnone => exact .opened rfl hrequest hnone rfl
  | advanced hjob hst => exact .advanced rfl hjob hst rfl
  | replied hsending => exact .replied rfl hsending rfl

variable [DecidableEq ι]

/-- A step of the network, for a running node. -/
theorem Step.runtime {s s' : State C ι} {l : Label C ι} (h : Step net s l s') {i : ι}
    {sh : Shared} {rt : Runtime} (hi : s.node i = .running sh rt) :
    ∃ rt', s'.node i = .running sh rt' ∧ RuntimeStep sh i l rt rt' := by
  -- delivered or injected, a datagram does the same to the node
  have received : ∀ {p' : Phase} {env : Env} {packet : Bytes} {did : Activity C},
      Received C env packet (.running sh rt) p' did → l.Does i did →
      l.received = some (i, env, packet) →
      ∃ rt', p' = .running sh rt' ∧ RuntimeStep sh i l rt rt' := by
    intro p' env packet did hrec hdoes hl
    cases hrec with
    | deaf h => rcases h with h | h <;> cases h
    | refused _ =>
        refine ⟨rt, rfl, .kept (.refl _) fun did' hdoes' => ?_⟩
        rw [← (hdoes.unique hdoes').2]
        rfl
    | handled _ =>
        exact ⟨_, rfl, (dispatch_handled _).runtime hdoes rfl (h.sending_of_received hl hi)⟩
  by_cases hdoes : ∃ did, l.Does i did
  · obtain ⟨did, hdoes⟩ := hdoes
    have hact := hdoes
    rcases hact with ⟨ev, env, rfl⟩ | ⟨f, keep, env, rfl⟩ | ⟨packet, env, rfl⟩
    · have hact := h.act_of_act
      rw [hi] at hact
      obtain ⟨rt', hi', hact⟩ := Phase.act_running hact
      exact ⟨rt', hi', hact.runtime⟩
    · have hrec := h.received_of_deliver.2.2
      rw [hi] at hrec
      exact received hrec hdoes rfl
    · have hrec := h.received_of_inject
      rw [hi] at hrec
      exact received hrec hdoes rfl
  · -- another node takes the step
    have hnot : ∀ did, ¬ l.Does i did := fun did hd => hdoes ⟨did, hd⟩
    exact ⟨rt, (h.node_of_not_does hnot).trans hi, .kept (.refl _) fun did hd => absurd hd (hnot did)⟩

/-! ## §3. Invariants of running nodes. -/

theorem Phase.launch_init {env : Env} {config : Config} {peers : PeerTables} {sh : Shared}
    {rt : Runtime} (h : Phase.launch C env config peers = .running sh rt) : rt = .init := by
  unfold Phase.launch at h
  split at h
  · cases h
  · exact (Phase.running.inj h).2.symm

/-- A node that runs after a step has empty tables and no threads, and no id was
drawn in it. -/
def Fresh (p' : Phase) (did : Activity C) : Prop :=
  (∀ sh rt, p' = .running sh rt → rt = .init) ∧ did.drew = none

theorem Received.fresh {p p' : Phase} {env : Env} {packet : Bytes} {did : Activity C}
    (h : Received C env packet p p' did) (hp : p.shared = none) : Fresh p' did := by
  cases h with
  | deaf h => rcases h with rfl | rfl <;> exact ⟨fun _ _ h => (by cases h), rfl⟩
  | refused | handled => cases hp
  | decided _ hp' =>
      refine ⟨fun sh rt h => ?_, rfl⟩
      subst h
      rcases hp' with h | h | ⟨h, -⟩
      · cases h
      · cases h
      · exact Phase.launch_init h.symm

theorem Phase.start_fresh {env : Env} {identity : Identity} {config : Config} :
    Fresh (Phase.start C env identity config).1 (Phase.start C env identity config).2 := by
  unfold Phase.start
  split
  · exact ⟨fun _ _ h => (by cases h), rfl⟩
  · split
    · split <;> exact ⟨fun _ _ h => (by cases h), rfl⟩
    · exact ⟨fun _ _ h => Phase.launch_init h, rfl⟩

theorem Phase.act_fresh {p p' : Phase} {env : Env} {identity : Identity} {config : Config}
    {ev : LocalEvent} {did : Activity C} (h : p.act C env identity config ev = some (p', did))
    (hp : p.shared = none) : Fresh p' did := by
  cases p with
  | running sh rt => cases hp
  | failed => cases ev <;> cases h
  | stopped =>
      cases ev with
      | start =>
          obtain ⟨rfl, rfl⟩ := Prod.mk.inj (Option.some.inj h)
          exact Phase.start_fresh
      | _ => cases h
  | booting =>
      cases ev with
      | bootstrapTimeout =>
          obtain ⟨rfl, rfl⟩ := Prod.mk.inj (Option.some.inj h)
          exact ⟨fun _ _ h => (by cases h), rfl⟩
      | _ => cases h

/-- A node that starts running does so with empty tables and no threads, and
no id was drawn in this step. -/
theorem Step.starts {s s' : State C ι} {l : Label C ι} (h : Step net s l s') {i : ι}
    (hi : (s.node i).shared = none) :
    (∀ sh rt, s'.node i = .running sh rt → rt = .init) ∧
      ∀ did, l.Does i did → did.drew = none := by
  by_cases hdoes : ∃ did, l.Does i did
  · obtain ⟨did, hdoes⟩ := hdoes
    have hfresh : Fresh (s'.node i) did := by
      rcases hdoes with ⟨ev, env, rfl⟩ | ⟨f, keep, env, rfl⟩ | ⟨packet, env, rfl⟩
      · exact Phase.act_fresh h.act_of_act hi
      · exact h.received_of_deliver.2.2.fresh hi
      · exact h.received_of_inject.fresh hi
    refine ⟨hfresh.1, fun did' hdoes' => ?_⟩
    rw [← (hdoes.unique hdoes').2]
    exact hfresh.2
  · -- another node takes the step
    have hnot : ∀ did, ¬ l.Does i did := fun did hd => hdoes ⟨did, hd⟩
    refine ⟨fun sh rt hrun => ?_, fun did hd => absurd hd (hnot did)⟩
    rw [← h.node_of_not_does hnot, hrun] at hi
    cases hi

/-- What holds of a node when it starts and is preserved by its steps holds
while it runs. `Q` is what is known of the trace before it starts. -/
theorem Net.Run.whileRunning {i : ι} {Q : List (Label C ι) → Prop}
    {I : List (Label C ι) → State C ι → Shared → Runtime → Prop} (hnil : Q [])
    (hquiet : ∀ tr s l s', net.Run tr s → Step net s l s' → (s.node i).shared = none →
      Q tr → Q (tr ++ [l]))
    (hinit : ∀ tr s sh, Q tr → I tr s sh .init)
    (hstep : ∀ tr s l s' sh rt rt', net.Run tr s → Step net s l s' →
      s.node i = .running sh rt → s'.node i = .running sh rt' →
      I tr s sh rt → I (tr ++ [l]) s' sh rt')
    {tr : List (Label C ι)} {s : State C ι} (hrun : net.Run tr s) {sh : Shared} {rt : Runtime}
    (hi : s.node i = .running sh rt) : I tr s sh rt := by
  have hall := hrun.history
    (I := fun tr s => (∀ sh rt, s.node i = .running sh rt → I tr s sh rt) ∧
      ((s.node i).shared = none → Q tr)) ?_ ?_
  · exact hall.1 sh rt hi
  · exact ⟨fun sh rt h => (by cases h), fun _ => hnil⟩
  · intro tr s l s' hrun ⟨ih, hbefore⟩ hs
    cases hsh : (s.node i).shared with
    | some sh =>
        obtain ⟨rt, hn⟩ := Phase.shared_eq_some.mp hsh
        obtain ⟨rt', hn', -⟩ := hs.runtime hn
        refine ⟨fun sh' rt'' h => ?_, fun h => ?_⟩
        · obtain ⟨rfl, rfl⟩ := Phase.running.inj (hn'.symm.trans h)
          exact hstep tr s l s' sh rt rt' hrun hs hn hn' (ih sh rt hn)
        · rw [hn'] at h
          cases h
    | none =>
        have hQ := hquiet tr s l s' hrun hs hsh (hbefore hsh)
        refine ⟨fun sh rt h => ?_, fun _ => hQ⟩
        rw [(hs.starts hsh).1 sh rt h]
        exact hinit _ _ sh hQ

/-- The same rule with the case that the step is for a running node: before it
starts, a node has drawn no id. -/
theorem Net.Run.runtime {i : ι} {I : List (Label C ι) → State C ι → Shared → Runtime → Prop}
    (hinit : ∀ tr s sh, (∀ ticket, ¬ Issued tr i ticket) → I tr s sh .init)
    (hstep : ∀ tr s l s' sh rt rt', net.Run tr s → Step net s l s' →
      s.node i = .running sh rt → s'.node i = .running sh rt' → RuntimeStep sh i l rt rt' →
      I tr s sh rt → I (tr ++ [l]) s' sh rt')
    {tr : List (Label C ι)} {s : State C ι} (hrun : net.Run tr s) {sh : Shared} {rt : Runtime}
    (hi : s.node i = .running sh rt) : I tr s sh rt := by
  refine hrun.whileRunning (Q := fun tr => ∀ ticket, ¬ Issued tr i ticket) ?_ ?_ hinit ?_ hi
  · intro ticket h
    obtain ⟨l, hl, -⟩ := h
    cases hl
  · intro tr s l s' _ hs hsh hnone ticket h
    rcases issued_snoc.mp h with h | ⟨did, hd, h⟩
    · exact hnone ticket h
    · rw [(hs.starts hsh).2 did hd] at h
      cases h
  · intro tr s l s' sh rt rt' hrun hs hn hn' ih
    obtain ⟨rt'', hn'', hrt⟩ := hs.runtime hn
    obtain ⟨-, rfl⟩ := Phase.running.inj (hn'.symm.trans hn'')
    exact hstep tr s l s' sh rt rt' hrun hs hn hn' hrt ih

end StealthNet
