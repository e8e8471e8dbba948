/-
  StealthNet.Network.Requests
  ───────────────────────────
  IDS, THREADS AND PENDING ENTRIES OF A RUNNING NODE.

  Five invariants of the requests of a node, each from `RuntimeStep`:

    • `Net.Run.ids`      — before the counter wraps around, an id is drawn by
                           one request only;
    • `Net.Run.threads`  — a thread has one result for each id it drew, but
                           for the request in progress;
    • `Net.Run.pending`  — a pending entry belongs to a thread that waits for
                           its id and has received nothing, and so does a
                           reply about to be sent, or its thread is past it;
    • `Net.Run.waiting`  — a thread that waits and has received nothing has
                           its entry, or its reply is about to be sent;
    • `Net.Run.reply_for` — a reply about to be sent answers the request of its
                           iteration.
-/
import StealthNet.Network.Jobs

namespace StealthNet

open Lib (HashMap)

variable {C : Crates} {ι : Type}

/-! ## §1. Ids. -/

/-- A step draws no request id, or the next one. -/
theorem RuntimeStep.drew {sh : Shared} {i : ι} {l : Label C ι} {rt rt' : Runtime}
    (h : RuntimeStep sh i l rt rt') :
    (∀ did, l.Does i did → did.drew = none) ∧
      (rt'.tables.nextRequestId = rt.tables.nextRequestId ∧ rt'.tables.drawn = rt.tables.drawn ∨
        rt'.tables.nextRequestId = rt.tables.nextRequestId + 1 ∧
          rt'.tables.drawn = rt.tables.drawn + 1) ∨
    ∃ did ticket, l.Does i did ∧ did.drew = some ticket ∧
      ticket.id = rt.tables.nextRequestId ∧
      rt'.tables.nextRequestId = rt.tables.nextRequestId + 1 ∧
      rt'.tables.drawn = rt.tables.drawn + 1 := by
  cases h with
  | kept ht hdrew => exact Or.inl ⟨hdrew, ht.counter⟩
  | opened hl hrequest hnone hdrew =>
      subst hl
      refine Or.inl ⟨fun did' hdoes => ?_, Or.inl ⟨rfl, rfl⟩⟩
      rw [hdoes.act_inv.2, hdrew]
  | @advanced κ n job env did st hl hjob hst hdid =>
      subst hl
      have hnone : st.drew = none →
          ∀ did', (Label.act i (.admin κ n) env did : Label C ι).Does i did' → did'.drew = none := by
        intro hdrew did' hdoes
        rw [hdoes.act_inv.2, hdid, hdrew]
        rfl
      cases hst with
      | drew target _ _ _ =>
          exact Or.inr ⟨did, _, Label.does_act .., by rw [hdid]; rfl, rfl, rfl, rfl⟩
      | unresolved | sent | received | timedOut =>
          exact Or.inl ⟨hnone rfl, Or.inl ⟨rfl, rfl⟩⟩
      | registered | cleaned => exact Or.inl ⟨hnone rfl, Or.inl (by simp)⟩
  -- a reply draws nothing and leaves the counter
  | answered hdoes _ hdrew =>
      exact Or.inl ⟨fun did' hdoes' => by rw [← (hdoes.unique hdoes').2, hdrew], Or.inl (by simp)⟩
  | replied hl _ hdid =>
      subst hl
      refine Or.inl ⟨fun did' hdoes => ?_, Or.inl (by simp)⟩
      rw [hdoes.act_inv.2, hdid]
      rfl

/-- The ids a node drew, in order, count from 1. -/
structure IdsOk (tr : List (Label C ι)) (i : ι) (t : Tables) : Prop where
  counter : t.nextRequestId = UInt64.ofNat (t.drawn + 1)
  drawn : ∀ ticket, Issued tr i ticket → ∃ k < t.drawn, ticket.id = UInt64.ofNat (k + 1)
  unique : ∀ ticket ticket', Issued tr i ticket → Issued tr i ticket' →
    ticket.id = ticket'.id → ticket = ticket'

/-- Before the counter wraps around, the next id differs from all drawn. -/
theorem ofNat_succ_ne {k d : Nat} (hk : k < d) (hd : d + 1 ≤ 2 ^ 64) :
    UInt64.ofNat (k + 1) ≠ UInt64.ofNat (d + 1) := by
  intro h
  have := congrArg UInt64.toNat h
  -- neither side wraps around
  simp only [UInt64.toNat_ofNat'] at this
  omega

section

variable {tr : List (Label C ι)} {l : Label C ι} {i : ι} {t t' : Tables}

/-- In this step no request draws an id. -/
theorem IdsOk.skips (h : IdsOk tr i t) (hnone : ∀ did, l.Does i did → did.drew = none)
    (hcounter : t'.nextRequestId = t.nextRequestId ∧ t'.drawn = t.drawn ∨
      t'.nextRequestId = t.nextRequestId + 1 ∧ t'.drawn = t.drawn + 1) :
    IdsOk (tr ++ [l]) i t' := by
  have hold : ∀ ticket, Issued (tr ++ [l]) i ticket → Issued tr i ticket := by
    intro ticket ht
    rcases issued_snoc.mp ht with ht | ⟨did, hdoes, hd⟩
    · exact ht
    · rw [hnone did hdoes] at hd
      cases hd
  have hle : t.drawn ≤ t'.drawn := by
    rcases hcounter with ⟨-, h⟩ | ⟨-, h⟩ <;> omega
  refine ⟨?_, fun ticket ht => ?_, fun ticket ticket' ht ht' =>
    h.unique ticket ticket' (hold ticket ht) (hold ticket' ht')⟩
  · rcases hcounter with ⟨hnext, hdrawn⟩ | ⟨hnext, hdrawn⟩
    · rw [hnext, hdrawn, h.counter]
    · rw [hnext, hdrawn, h.counter, ← UInt64.ofNat_one, ← UInt64.ofNat_add]
  · obtain ⟨k, hk, hid⟩ := h.drawn ticket (hold ticket ht)
    exact ⟨k, by omega, hid⟩

/-- In this step a request draws the next id. -/
theorem IdsOk.draws (h : IdsOk tr i t) {did : Activity C} {ticket : Ticket} (hdoes : l.Does i did)
    (hdrew : did.drew = some ticket) (hid : ticket.id = t.nextRequestId)
    (hnext : t'.nextRequestId = t.nextRequestId + 1) (hsucc : t'.drawn = t.drawn + 1)
    (hdrawn : t.drawn + 1 ≤ 2 ^ 64) : IdsOk (tr ++ [l]) i t' := by
  have hsnoc : ∀ ticket', Issued (tr ++ [l]) i ticket' → Issued tr i ticket' ∨ ticket' = ticket := by
    intro ticket' ht
    rcases (issued_snoc_iff hdoes).mp ht with ht | hd
    · exact Or.inl ht
    · exact Or.inr (Option.some.inj (hd.symm.trans hdrew))
  -- the ids drawn before count up to the new one
  have hnew : ∀ ticket', Issued tr i ticket' → ticket'.id ≠ ticket.id := by
    intro ticket' ht
    obtain ⟨k, hk, hidk⟩ := h.drawn ticket' ht
    rw [hidk, hid, h.counter]
    exact ofNat_succ_ne hk hdrawn
  refine ⟨?_, fun ticket' ht => ?_, fun ticket₁ ticket₂ h₁ h₂ heq => ?_⟩
  · rw [hnext, hsucc, h.counter, ← UInt64.ofNat_one, ← UInt64.ofNat_add]
  · rcases hsnoc ticket' ht with ht | rfl
    · obtain ⟨k, hk, hidk⟩ := h.drawn ticket' ht
      exact ⟨k, by omega, hidk⟩
    · exact ⟨t.drawn, by omega, by rw [hid, h.counter]⟩
  · rcases hsnoc ticket₁ h₁ with h₁ | rfl <;> rcases hsnoc ticket₂ h₂ with h₂ | rfl
    · exact h.unique ticket₁ ticket₂ h₁ h₂ heq
    · exact absurd heq (hnew ticket₁ h₁)
    · exact absurd heq.symm (hnew ticket₂ h₂)
    · rfl

end

section

variable [DecidableEq ι] {net : Net ι} {tr : List (Label C ι)} {s : State C ι} {i : ι}
  {sh : Shared} {rt : Runtime}

theorem Net.Run.ids (hrun : net.Run tr s) (hi : s.node i = .running sh rt)
    (hdrawn : rt.tables.drawn ≤ 2 ^ 64) : IdsOk tr i rt.tables := by
  refine Net.Run.runtime
    (I := fun tr _ _ rt => rt.tables.drawn ≤ 2 ^ 64 → IdsOk tr i rt.tables)
    ?_ ?_ hrun hi hdrawn
  · intro tr s sh hnone _
    exact ⟨rfl, fun ticket h => absurd h (hnone ticket),
      fun ticket _ h => absurd h (hnone ticket)⟩
  · intro tr s l s' sh rt rt' _ _ _ _ hrt ih hdrawn
    rcases hrt.drew with ⟨hnone, hcounter⟩ | ⟨did, ticket, hdoes, hdrew, hid, hnext, hsucc⟩
    · have hle : rt.tables.drawn ≤ rt'.tables.drawn := by
        rcases hcounter with ⟨-, h⟩ | ⟨-, h⟩ <;> omega
      exact (ih (by omega)).skips hnone hcounter
    · exact (ih (by omega)).draws hdoes hdrew hid hnext hsucc (by omega)

end

/-! ## §2. Threads. -/

/-- What a section does to its thread, `drew` being the id it drew. -/
inductive Job.Moves {κ : RequestKind} (job : Job κ) : Job κ → Option (UInt64 × String) → Prop
  | begins (id : UInt64) (target : String) (hnone : job.current = none)
      (hmore : job.results.length < job.count) :
      Moves job { job with current := some ⟨id, target, .issued, []⟩ } (some (id, target))
  | keeps (req : Request κ) (stage : Stage) (hreq : job.current = some req)
      (hstage : stage ≠ .issued) :
      Moves job { job with current := some { req with stage } } none
  | ends (id : Option UInt64) (answer : Answer κ) (hmore : job.results.length < job.count ∨
        job.current.isSome = true)
      (hid : id = job.current.map Request.id) :
      Moves job (job.push id answer) none

theorem Job.results_push {κ : RequestKind} {job : Job κ} {k : Nat} {id id' : Option UInt64}
    {answer answer' : Answer κ} (h : (job.push id answer).results[k]? = some (id', answer')) :
    job.results[k]? = some (id', answer') ∨ k = job.results.length ∧ id' = id ∧ answer' = answer := by
  simp only [Job.push, List.getElem?_append] at h
  split at h
  · exact Or.inl h
  · obtain ⟨hlt, -⟩ := List.getElem?_eq_some_iff.mp h
    have hk : k = job.results.length := by simp at hlt; omega
    subst hk
    obtain ⟨rfl, rfl⟩ : id = id' ∧ answer = answer' := by simpa using h
    exact Or.inr ⟨rfl, rfl, rfl⟩

theorem Job.Advances.moves {sh : Shared} {env : Env} {κ : RequestKind} {tx : Tx} {job : Job κ}
    {t : Tables} {st : JobStep C κ} (h : job.Advances sh env tx t st) : job.Moves st.job st.drew := by
  cases h with
  | unresolved e hnone hmore _ => exact .ends none _ (Or.inl hmore) (by rw [hnone]; rfl)
  | drew target hnone hmore _ => exact .begins _ _ hnone hmore
  | registered req hreq _ => exact .keeps req _ hreq (by simp)
  | sent req stage r hreq _ _ hnext =>
      refine .keeps req _ hreq ?_
      rcases hnext with ⟨-, rfl⟩ | ⟨e, -, rfl⟩ <;> simp
  | received req _ _ hreq _ _ | cleaned req _ hreq _ =>
      exact .ends _ _ (Or.inr (by rw [hreq]; rfl)) (by rw [hreq]; rfl)
  | timedOut req hreq _ _ => exact .keeps req _ hreq (by simp)

/-- A payload changes at most what the channel of the request in progress
holds. -/
theorem Job.deliver_cases {κ : RequestKind} (job : Job κ) (iteration : Nat) (payload : Payload κ) :
    job.deliver iteration payload = job ∨
      ∃ req, job.current = some req ∧ job.results.length = iteration ∧
        job.deliver iteration payload
          = { job with current := some { req with rx := req.rx ++ [payload] } } := by
  by_cases hlen : job.results.length = iteration
  · cases hreq : job.current with
    | none =>
        left
        rw [Job.deliver, if_pos hlen, hreq, Option.map_none, ← hreq]
    | some req => exact Or.inr ⟨req, rfl, hlen, Job.deliver_of_current hlen hreq payload⟩
  · exact Or.inl (Job.deliver_of_ne hlen payload)

/-- What a thread was asked to do: its target, its timeout and its count. -/
def Job.task {κ : RequestKind} (job : Job κ) : String × UInt64 × Nat :=
  (job.target, job.timeoutMs, job.count)

theorem Job.Moves.task_eq {κ : RequestKind} {job job' : Job κ} {drew : Option (UInt64 × String)}
    (h : job.Moves job' drew) : job'.task = job.task := by
  cases h <;> rfl

theorem Job.task_deliver {κ : RequestKind} (job : Job κ) (iteration : Nat) (payload : Payload κ) :
    (job.deliver iteration payload).task = job.task := by
  unfold Job.deliver
  split <;> rfl

/-- Thread `n` of kind `κ`, accepted from an admin request: a result for each
id it drew, in order, but for the request in progress. -/
structure JobOk (tr : List (Label C ι)) (i : ι) (κ : RequestKind) (n : Nat) (job : Job κ) : Prop where
  accepted : ∃ request env did, Label.act i (.adminRequest n request) env did ∈ tr ∧
    request.job = some ⟨κ, .start κ job.target job.timeoutMs job.count⟩
  bound : job.results.length ≤ job.count
  more : job.current.isSome = true → job.results.length < job.count
  current : ∀ req, job.current = some req →
    Issued tr i ⟨κ, req.id, ⟨n, job.results.length⟩, req.target⟩
  results : ∀ k id answer, job.results[k]? = some (some id, answer) →
    ∃ target, Issued tr i ⟨κ, id, ⟨n, k⟩, target⟩
  issued : ∀ k id target, Issued tr i ⟨κ, id, ⟨n, k⟩, target⟩ →
    (∃ answer, job.results[k]? = some (some id, answer)) ∨
      k = job.results.length ∧ ∃ req, job.current = some req ∧ req.id = id ∧ req.target = target

/-- The threads of a node, and no id drawn by another. -/
structure ThreadsOk (tr : List (Label C ι)) (i : ι) (rt : Runtime) : Prop where
  jobs : ∀ κ n job, rt.jobs κ n = some job → JobOk tr i κ n job
  tickets : ∀ ticket, Issued tr i ticket → (rt.jobs ticket.kind ticket.tx.job).isSome = true

/-- What is issued to the iteration in progress is its request. -/
theorem JobOk.issued_current {tr : List (Label C ι)} {i : ι} {κ : RequestKind} {n : Nat}
    {job : Job κ} (h : JobOk tr i κ n job) {req : Request κ} (hreq : job.current = some req)
    {id : UInt64} {target : String}
    (hissued : Issued tr i ⟨κ, id, ⟨n, job.results.length⟩, target⟩) :
    req.id = id ∧ req.target = target := by
  rcases h.issued _ id target hissued with ⟨answer, hk⟩ | ⟨-, req', hreq', heq⟩
  · obtain ⟨hlt, -⟩ := List.getElem?_eq_some_iff.mp hk
    exact absurd hlt (Nat.lt_irrefl _)
  · obtain rfl := Option.some.inj (hreq.symm.trans hreq')
    exact heq

/-- A thread that did not change, in a step in which it drew no id. -/
theorem JobOk.snoc {tr : List (Label C ι)} {l : Label C ι} {i : ι} {κ : RequestKind} {n : Nat}
    {job : Job κ} (h : JobOk tr i κ n job)
    (hdrew : ∀ did ticket, l.Does i did → did.drew = some ticket → ticket.kind = κ →
      ticket.tx.job ≠ n) : JobOk (tr ++ [l]) i κ n job := by
  obtain ⟨request, env, did, hmem, hrequest⟩ := h.accepted
  refine ⟨⟨request, env, did, List.mem_append_left _ hmem, hrequest⟩, h.bound, h.more,
    fun req hreq => (h.current req hreq).snoc l, fun k id answer hk => ?_, fun k id target ht => ?_⟩
  · obtain ⟨target, ht⟩ := h.results k id answer hk
    exact ⟨target, ht.snoc l⟩
  · rcases issued_snoc.mp ht with ht | ⟨did, hdoes, hd⟩
    · exact h.issued k id target ht
    · exact absurd rfl (hdrew did _ hdoes hd rfl)

section

variable {tr : List (Label C ι)} {i : ι} {κ : RequestKind} {n : Nat} {job : Job κ}

theorem JobOk.snoc_of_none (h : JobOk tr i κ n job) {l : Label C ι} {did : Activity C}
    (hdoes : l.Does i did) (hdrew : did.drew = none) : JobOk (tr ++ [l]) i κ n job := by
  apply h.snoc
  intro did' ticket hdoes' hd
  rw [← (hdoes.unique hdoes').2, hdrew] at hd
  cases hd

theorem JobOk.accepted_snoc (h : JobOk tr i κ n job) (l : Label C ι) :
    ∃ request env did, Label.act i (.adminRequest n request) env did ∈ tr ++ [l] ∧
      request.job = some ⟨κ, .start κ job.target job.timeoutMs job.count⟩ := by
  obtain ⟨request, env, did, hmem, hrequest⟩ := h.accepted
  exact ⟨request, env, did, List.mem_append_left _ hmem, hrequest⟩

theorem JobOk.results_snoc (h : JobOk tr i κ n job) (l : Label C ι) (k : Nat) (id : UInt64)
    (answer : Answer κ) (hk : job.results[k]? = some (some id, answer)) :
    ∃ target, Issued (tr ++ [l]) i ⟨κ, id, ⟨n, k⟩, target⟩ := by
  obtain ⟨target, ht⟩ := h.results k id answer hk
  exact ⟨target, ht.snoc l⟩

/-- The thread draws an id. -/
theorem JobOk.begins {l : Label C ι} (h : JobOk tr i κ n job) {id : UInt64} {target : String}
    (hnone : job.current = none) (hmore : job.results.length < job.count) {did : Activity C}
    (hdoes : l.Does i did) (hdid : did.drew = some ⟨κ, id, ⟨n, job.results.length⟩, target⟩) :
    JobOk (tr ++ [l]) i κ n { job with current := some ⟨id, target, .issued, []⟩ } := by
  refine ⟨h.accepted_snoc l, h.bound, fun _ => hmore, ?_, h.results_snoc l, ?_⟩
  · intro req hreq
    obtain rfl := Option.some.inj hreq
    exact (issued_snoc_iff hdoes).mpr (Or.inr hdid)
  · intro k id' target' ht
    rcases (issued_snoc_iff hdoes).mp ht with ht | hd
    · rcases h.issued k id' target' ht with hans | ⟨-, req, hreq, -⟩
      · exact Or.inl hans
      · -- it was between two requests
        rw [hnone] at hreq
        cases hreq
    · rw [hdid] at hd
      obtain ⟨-, rfl, htx, rfl⟩ := Ticket.mk.inj (Option.some.inj hd)
      obtain ⟨-, rfl⟩ := Tx.mk.inj htx
      exact Or.inr ⟨rfl, _, rfl, rfl, rfl⟩

/-- The request of the thread changes, but neither its id nor its target. -/
theorem JobOk.replace (h : JobOk tr i κ n job) {req req' : Request κ}
    (hreq : job.current = some req) (hid : req'.id = req.id) (htarget : req'.target = req.target) :
    JobOk tr i κ n { job with current := some req' } := by
  have hsome : job.current.isSome = true := by
    rw [hreq]
    rfl
  refine ⟨h.accepted, h.bound, fun _ => h.more hsome, ?_, h.results, ?_⟩
  · intro req'' hreq''
    obtain rfl := Option.some.inj hreq''
    show Issued tr i ⟨κ, req'.id, ⟨n, job.results.length⟩, req'.target⟩
    rw [hid, htarget]
    exact h.current req hreq
  · intro k id target ht
    rcases h.issued k id target ht with hans | ⟨hk, req₀, hreq₀, hid₀, htarget₀⟩
    · exact Or.inl hans
    · obtain rfl := Option.some.inj (hreq.symm.trans hreq₀)
      exact Or.inr ⟨hk, _, rfl, hid.trans hid₀, htarget.trans htarget₀⟩

/-- The iteration ends with an answer. -/
theorem JobOk.ends {l : Label C ι} (h : JobOk tr i κ n job) {id : Option UInt64} {answer : Answer κ}
    (hmore : job.results.length < job.count ∨ job.current.isSome = true)
    (hid : id = job.current.map Request.id) {did : Activity C} (hdoes : l.Does i did)
    (hdrew : did.drew = none) : JobOk (tr ++ [l]) i κ n (job.push id answer) := by
  have hlt : job.results.length < job.count := hmore.elim (fun h => h) h.more
  refine ⟨h.accepted_snoc l, ?_, fun hsome => (by cases hsome), fun req hreq => (by cases hreq),
    ?_, ?_⟩
  · simpa [Job.push, Nat.succ_le_iff] using hlt
  · intro k id' answer' hk
    -- an old result, or the one that ends the iteration
    rcases Job.results_push hk with hk | ⟨rfl, hid', -⟩
    · exact h.results_snoc l k id' answer' hk
    · -- the new result has the id of the request that ends
      rw [hid] at hid'
      obtain ⟨req, hreq, rfl⟩ := Option.map_eq_some_iff.mp hid'.symm
      exact ⟨req.target, (h.current req hreq).snoc l⟩
  · intro k id' target' ht
    -- what was issued before has its result, or is the request that ends now
    rcases (issued_snoc_iff hdoes).mp ht with ht | hd
    · left
      rcases h.issued k id' target' ht with ⟨answer', hk⟩ | ⟨rfl, req, hreq, rfl, -⟩
      · obtain ⟨hkl, -⟩ := List.getElem?_eq_some_iff.mp hk
        exact ⟨answer', by rw [Job.push, List.getElem?_append_left hkl]; exact hk⟩
      · refine ⟨answer, ?_⟩
        rw [hid, hreq]
        simp [Job.push]
    · rw [hdrew] at hd
      cases hd

/-- A section of the thread. -/
theorem JobOk.moves {l : Label C ι} {job' : Job κ} {drew : Option (UInt64 × String)}
    (h : JobOk tr i κ n job) (hmoves : job.Moves job' drew) {did : Activity C}
    (hdoes : l.Does i did)
    (hdid : did.drew = drew.map fun (id, target) => ⟨κ, id, ⟨n, job.results.length⟩, target⟩) :
    JobOk (tr ++ [l]) i κ n job' := by
  cases hmoves with
  | begins id target hnone hmore => exact h.begins hnone hmore hdoes hdid
  | keeps req stage hreq _ =>
      have hkept : JobOk tr i κ n { job with current := some { req with stage } } :=
        h.replace hreq rfl rfl
      exact hkept.snoc_of_none hdoes hdid
  | ends id answer hmore hid => exact h.ends hmore hid hdoes hdid

end

/-- A payload that arrives. -/
theorem JobOk.deliver {tr : List (Label C ι)} {i : ι} {κ : RequestKind} {n : Nat} {job : Job κ}
    (h : JobOk tr i κ n job) (iteration : Nat) (payload : Payload κ) :
    JobOk tr i κ n (job.deliver iteration payload) := by
  rcases job.deliver_cases iteration payload with heq | ⟨req, hreq, -, heq⟩
  · rwa [heq]
  · rw [heq]
    exact h.replace hreq rfl rfl

/-- Threads are never forgotten. -/
theorem RuntimeStep.jobs_isSome {sh : Shared} {i : ι} {l : Label C ι} {rt rt' : Runtime}
    (h : RuntimeStep sh i l rt rt') {κ : RequestKind} {n : Nat}
    (hsome : (rt.jobs κ n).isSome = true) : (rt'.jobs κ n).isSome = true := by
  -- setting a thread removes none
  have hset : ∀ (rt : Runtime) (κ' : RequestKind) (n' : Nat) (job : Job κ'),
      (rt.jobs κ n).isSome = true → ((rt.setJob κ' n' job).jobs κ n).isSome = true := by
    intro rt κ' n' job hsome
    by_cases hne : κ = κ' → n ≠ n'
    · rwa [Runtime.setJob_jobs_of_ne rt job hne]
    · obtain ⟨rfl, hn⟩ := Classical.not_imp.mp hne
      obtain rfl := not_not.mp hn
      rw [Runtime.setJob_jobs_self]
      rfl
  cases h with
  | kept => exact hsome
  | opened | advanced => exact hset _ _ _ _ hsome
  | answered => exact hsome
  | replied =>
      unfold Runtime.reply
      split
      · exact hsome
      · exact hset _ _ _ _ hsome

/-- Nor do they forget what they were asked to do. -/
theorem RuntimeStep.task {sh : Shared} {i : ι} {l : Label C ι} {rt rt' : Runtime}
    (h : RuntimeStep sh i l rt rt') {κ : RequestKind} {n : Nat} {job : Job κ}
    (hjob : rt.jobs κ n = some job) : ∃ job', rt'.jobs κ n = some job' ∧ job'.task = job.task := by
  obtain ⟨job', hjob'⟩ := Option.isSome_iff_exists.mp (h.jobs_isSome (by rw [hjob]; rfl))
  refine ⟨job', hjob', ?_⟩
  cases h.job hjob' with
  | same hsame => rw [Option.some.inj (hjob.symm.trans hsame)]
  | opened _ _ hnone =>
      rw [hnone] at hjob
      cases hjob
  | advanced _ hjob₀ hst _ heq =>
      obtain rfl := Option.some.inj (hjob.symm.trans hjob₀)
      rw [heq]
      exact hst.moves.task_eq
  | delivered _ _ _ hjob₀ heq =>
      obtain rfl := Option.some.inj (hjob.symm.trans hjob₀)
      rw [heq]
      exact job.task_deliver _ _

/-- An id is drawn by a thread. -/
theorem RuntimeStep.jobs_of_drew {sh : Shared} {i : ι} {l : Label C ι} {rt rt' : Runtime}
    (h : RuntimeStep sh i l rt rt') {did : Activity C} {ticket : Ticket} (hdoes : l.Does i did)
    (hd : did.drew = some ticket) : (rt'.jobs ticket.kind ticket.tx.job).isSome = true := by
  cases h with
  | kept _ hdrew =>
      rw [hdrew did hdoes] at hd
      cases hd
  | opened hl _ _ hdrew =>
      subst hl
      rw [hdoes.act_inv.2, hdrew] at hd
      cases hd
  | advanced hl _ _ hdid =>
      subst hl
      rw [hdoes.act_inv.2, hdid] at hd
      obtain ⟨_, -, rfl⟩ := Option.map_eq_some_iff.mp hd
      simp
  | answered hdoes' _ hdrew =>
      rw [(hdoes.unique hdoes').2, hdrew] at hd
      cases hd
  | replied hl _ hdid =>
      subst hl
      rw [hdoes.act_inv.2, hdid] at hd
      cases hd

/-- A new thread. -/
theorem ThreadsOk.opened {tr : List (Label C ι)} {l : Label C ι} {i : ι} {rt : Runtime}
    (h : ThreadsOk tr i rt) {κ : RequestKind} {n : Nat} {job : Job κ} {request : AdminRequest}
    {env : Env} {did : Activity C} (hl : l = .act i (.adminRequest n request) env did)
    (hrequest : request.job = some ⟨κ, job⟩) (hnone : rt.jobs κ n = none)
    (hdrew : did.drew = none) : JobOk (tr ++ [l]) i κ n job := by
  subst hl
  obtain ⟨hresults, hcurrent⟩ := AdminRequest.job_new hrequest
  -- no id was drawn under its number, which was free
  have hfresh : ∀ k id target, ¬ Issued (tr ++ [Label.act i (.adminRequest n request) env did]) i
      ⟨κ, id, ⟨n, k⟩, target⟩ := by
    intro k id target ht
    rcases (issued_snoc_iff (Label.does_act ..)).mp ht with ht | hd
    · have hsome := h.tickets _ ht
      rw [hnone] at hsome
      cases hsome
    · rw [hdrew] at hd
      cases hd
  refine ⟨⟨request, env, did, by simp, ?_⟩, by simp [hresults],
    fun h => (by rw [hcurrent] at h; cases h), fun req h => (by rw [hcurrent] at h; cases h),
    fun k id answer h => (by simp [hresults] at h),
    fun k id target h => absurd h (hfresh k id target)⟩
  rw [hrequest]
  obtain ⟨_, _, _, _, _⟩ := job
  obtain rfl := hresults
  obtain rfl := hcurrent
  rfl

section

variable [DecidableEq ι] {net : Net ι} {tr : List (Label C ι)} {s : State C ι} {i : ι}
  {sh : Shared} {rt : Runtime}

theorem Net.Run.threads (hrun : net.Run tr s) (hi : s.node i = .running sh rt) :
    ThreadsOk tr i rt := by
  refine Net.Run.runtime (I := fun tr _ _ rt => ThreadsOk tr i rt) ?_ ?_ hrun hi
  · intro tr s sh hnone
    exact ⟨fun κ n job hjob => (by cases hjob), fun ticket h => absurd h (hnone ticket)⟩
  · intro tr s l s' sh rt rt' _ _ _ _ hrt ih
    refine ⟨fun κ n job' hjob' => ?_, fun ticket h => ?_⟩
    · cases hrt.job hjob' with
      | same hjob hdrew => exact (ih.jobs κ n job' hjob).snoc hdrew
      | opened hl hrequest hnone hdrew => exact ih.opened hl hrequest hnone hdrew
      | @advanced job env did st hl hjob hst hdid hjob' =>
          subst hjob' hl
          exact (ih.jobs κ n job hjob).moves hst.moves (Label.does_act ..) (by rw [hdid])
      | @delivered job payload tx env did hl _ _ hjob hjob' hdid =>
          subst hjob' hl hdid
          exact ((ih.jobs κ n job hjob).snoc_of_none (Label.does_act ..) rfl).deliver _ _
    · -- who drew before is still there, and who draws now is
      rcases issued_snoc.mp h with h | ⟨did, hdoes, hd⟩
      · exact hrt.jobs_isSome (ih.tickets ticket h)
      · exact hrt.jobs_of_drew hdoes hd

end

section

variable [DecidableEq ι] {net : Net ι} {tr : List (Label C ι)} {s : State C ι} {i : ι}
  {sh : Shared} {rt : Runtime} {κ : RequestKind} {n : Nat} {job : Job κ}

/-- The target of a ticket is what the target of its thread resolves to. -/
theorem Net.Run.ticket_resolved (hrun : net.Run tr s) (hi : s.node i = .running sh rt)
    (hjob : rt.jobs κ n = some job) {k : Nat} {id : UInt64} {stealth : String}
    (hissued : Issued tr i ⟨κ, id, ⟨n, k⟩, stealth⟩) :
    resolveTarget sh job.target = .ok stealth := by
  refine Net.Run.runtime
    (I := fun tr _ sh rt => ∀ κ n (job : Job κ), rt.jobs κ n = some job → ∀ k id stealth,
      Issued tr i ⟨κ, id, ⟨n, k⟩, stealth⟩ → resolveTarget sh job.target = .ok stealth)
    ?_ ?_ hrun hi κ n job hjob k id stealth hissued
  · intro tr s sh _ κ n job hjob
    cases hjob
  · intro tr s l s' sh rt rt' hrun _ hi _ hrt ih κ n job' hjob' k id stealth ht
    cases hrt.job hjob' with
    | same hjob hdrew =>
        rcases issued_snoc.mp ht with ht | ⟨did, hdoes, ht⟩
        · exact ih κ n job' hjob k id stealth ht
        · exact absurd rfl (hdrew did _ hdoes ht rfl)
    | opened hl hrequest hnone hdrew =>
        -- there was no thread of this number to draw an id
        subst hl
        rcases (issued_snoc_iff (Label.does_act ..)).mp ht with ht | ht
        · have hsome := (hrun.threads hi).tickets _ ht
          rw [hnone] at hsome
          cases hsome
        · rw [hdrew] at ht
          cases ht
    | @advanced job env did st hl hjob hst hdid heq =>
        subst hl heq
        rw [show st.job.target = job.target from congrArg Prod.fst hst.moves.task_eq]
        rcases (issued_snoc_iff (Label.does_act ..)).mp ht with ht | ht
        · exact ih κ n job hjob k id stealth ht
        · -- the id that is drawn now
          rw [hdid] at ht
          cases hst with
          | drew target _ _ hr =>
              obtain ⟨-, -, -, rfl⟩ := Ticket.mk.inj (Option.some.inj ht)
              exact hr
          | _ => cases ht
    | @delivered job payload tx env did hl _ _ hjob heq hdid =>
        subst hl heq hdid
        rcases (issued_snoc_iff (Label.does_act ..)).mp ht with ht | ht
        · rw [show (job.deliver tx.iteration payload).target = job.target from
            congrArg Prod.fst (job.task_deliver tx.iteration payload)]
          exact ih κ n job hjob k id stealth ht
        · cases ht

/-- So is the target of a request in progress. -/
theorem Net.Run.resolved (hrun : net.Run tr s) (hi : s.node i = .running sh rt)
    (hjob : rt.jobs κ n = some job) {req : Request κ} (hreq : job.current = some req) :
    resolveTarget sh job.target = .ok req.target :=
  hrun.ticket_resolved hi hjob (((hrun.threads hi).jobs κ n job hjob).current req hreq)

/-- A running node that accepts a request has a thread that begins with it. -/
theorem Step.accepted {s' : State C ι} {request : AdminRequest} {env : Env} {did : Activity C}
    (h : Step net s (.act i (.adminRequest n request) env did) s')
    (hrequest : request.job = some ⟨κ, job⟩) :
    ∃ sh rt', s'.node i = .running sh rt' ∧ rt'.jobs κ n = some job := by
  have hact := h.act_of_act
  cases hn : s.node i with
  | running sh rt =>
      rw [hn] at hact
      obtain ⟨rt', hi', hact⟩ := Phase.act_running hact
      refine ⟨sh, rt', hi', ?_⟩
      cases hact with
      | queried hnone =>
          rw [hnone] at hrequest
          cases hrequest
      | @opened _ _ κ' job' hrequest' _ =>
          obtain ⟨rfl, hjob⟩ := Sigma.mk.inj (Option.some.inj (hrequest'.symm.trans hrequest))
          obtain rfl := eq_of_heq hjob
          exact Runtime.setJob_jobs_self ..
  | _ =>
      rw [hn] at hact
      cases hact

/-- A request that is accepted has its thread, which does what it was asked. -/
theorem Net.Run.accepted (hrun : net.Run tr s) (hi : s.node i = .running sh rt)
    {request : AdminRequest} {job₀ : Job κ} (hrequest : request.job = some ⟨κ, job₀⟩) {env : Env}
    {did : Activity C} (hmem : Label.act i (.adminRequest n request) env did ∈ tr) :
    ∃ job, rt.jobs κ n = some job ∧ job.task = job₀.task := by
  refine Net.Run.whileRunning
    (Q := fun tr => ∀ request env did, Label.act i (.adminRequest n request) env did ∉ tr)
    (I := fun tr _ _ rt => ∀ request env did (job₀ : Job κ),
      Label.act i (.adminRequest n request) env did ∈ tr → request.job = some ⟨κ, job₀⟩ →
      ∃ job, rt.jobs κ n = some job ∧ job.task = job₀.task)
    ?_ ?_ ?_ ?_ hrun hi request env did job₀ hmem hrequest
  · intro request env did hmem
    cases hmem
  · -- only a running node accepts a request
    intro tr s l s' _ hstep hsh hnone request env did hmem
    rcases List.mem_append.mp hmem with hmem | hl
    · exact hnone request env did hmem
    · obtain rfl := List.mem_singleton.mp hl
      have hact := hstep.act_of_act
      cases hn : s.node i with
      | running sh rt =>
          rw [hn] at hsh
          cases hsh
      | _ =>
          rw [hn] at hact
          cases hact
  · intro tr s sh hnone request env did job₀ hmem
    exact absurd hmem (hnone request env did)
  · intro tr s l s' sh rt rt' _ hstep hi hi' ih request env did job₀ hmem hrequest
    obtain ⟨rt'', hi'', hrt⟩ := hstep.runtime hi
    obtain ⟨-, rfl⟩ := Phase.running.inj (hi'.symm.trans hi'')
    rcases List.mem_append.mp hmem with hmem | hl
    · obtain ⟨job, hjob, htask⟩ := ih request env did job₀ hmem hrequest
      obtain ⟨job', hjob', htask'⟩ := hrt.task hjob
      exact ⟨job', hjob', htask'.trans htask⟩
    · obtain rfl := List.mem_singleton.mp hl
      obtain ⟨sh', rt'', hi'', hjob⟩ := hstep.accepted hrequest
      obtain ⟨-, rfl⟩ := Phase.running.inj (hi'.symm.trans hi'')
      exact ⟨job₀, hjob, rfl⟩

end

/-! ## §3. Pending entries. -/

/-- The thread of a pending entry: it waits for this id and has received
nothing. -/
structure Awaited (rt : Runtime) (κ : RequestKind) (id : UInt64) (tx : Tx) (job : Job κ)
    (req : Request κ) : Prop where
  thread : rt.jobs κ tx.job = some job
  iteration : job.results.length = tx.iteration
  current : job.current = some req
  id : req.id = id
  empty : req.rx = []
  stage : req.stage ≠ .issued

/-- The thread of a reply about to be sent: it has no entry for this iteration
any more; it is past the iteration, or it waits and has received nothing. -/
structure ReplyOk (rt : Runtime) (r : Reply) : Prop where
  gone : ∀ id, (rt.tables.pending r.kind).lookup id ≠ some r.tx
  thread : ∃ job, rt.jobs r.kind r.tx.job = some job ∧ (r.tx.iteration < job.results.length ∨
    ∃ req, job.results.length = r.tx.iteration ∧ job.current = some req ∧ req.rx = [] ∧
      req.stage ≠ .issued)

/-- Entries and replies are of threads that wait for them. -/
structure PendingOk (rt : Runtime) : Prop where
  awaited : ∀ κ id tx, (rt.tables.pending κ).lookup id = some tx →
    ∃ job req, Awaited rt κ id tx job req
  reply : ∀ r, rt.sending = some r → ReplyOk rt r
  fresh : ∀ κ n (job : Job κ) req, rt.jobs κ n = some job → job.current = some req →
    req.stage = .issued → req.rx = []

/-- The pending tables after a section: an entry is old, or the thread enters
it. -/
theorem Job.Advances.pending {sh : Shared} {env : Env} {κ : RequestKind} {tx : Tx} {job : Job κ}
    {t : Tables} {st : JobStep C κ} (h : job.Advances sh env tx t st) {κ' : RequestKind}
    {id' : UInt64} {tx' : Tx} (hlook : (st.tables.pending κ').lookup id' = some tx') :
    (t.pending κ').lookup id' = some tx' ∨
      κ' = κ ∧ tx' = tx ∧ ∃ req, job.current = some req ∧ req.stage = .issued := by
  cases h with
  | unresolved | drew | sent | received | timedOut => exact Or.inl hlook
  | registered req hreq hstage =>
      rw [Tables.lookup_pending_insert] at hlook
      split at hlook
      · rename_i hsame
        exact Or.inr ⟨hsame.1, (Option.some.inj hlook).symm, req, hreq, hstage⟩
      · exact Or.inl hlook
  | cleaned req _ _ _ =>
      rw [Tables.lookup_pending_erase] at hlook
      split at hlook
      · cases hlook
      · exact Or.inl hlook

/-- A section of the thread that an entry belongs to. -/
theorem PendingOk.advances {rt : Runtime} (h : PendingOk rt) {sh : Shared} {env : Env}
    {κ : RequestKind} {n : Nat} {job : Job κ} {st : JobStep C κ} (hjob : rt.jobs κ n = some job)
    (hst : job.Advances sh env ⟨n, job.results.length⟩ rt.tables st) {id : UInt64} {tx : Tx}
    (hlook : (st.tables.pending κ).lookup id = some tx) (hn : tx.job = n) :
    ∃ req, st.job.results.length = tx.iteration ∧ st.job.current = some req ∧ req.id = id ∧
      req.rx = [] ∧ req.stage ≠ .issued := by
  -- the thread of an old entry waits, so it is in no other section
  have old : ∀ {id tx}, (rt.tables.pending κ).lookup id = some tx → tx.job = n →
      ∃ req, job.results.length = tx.iteration ∧ job.current = some req ∧ req.id = id ∧
        req.rx = [] ∧ req.stage ≠ .issued := by
    intro id tx hlook hn
    obtain ⟨job', req, hjob', hit, hreq, hid, hrx, hstage⟩ := h.awaited κ id tx hlook
    rw [hn] at hjob'
    obtain rfl := Option.some.inj (hjob.symm.trans hjob')
    exact ⟨req, hit, hreq, hid, hrx, hstage⟩
  cases hst with
  | unresolved e hnone _ _ | drew target hnone _ _ =>
      obtain ⟨req, -, hreq, -⟩ := old hlook hn
      rw [hnone] at hreq
      cases hreq
  | registered req hreq hstage =>
      rw [Tables.lookup_pending_insert] at hlook
      split at hlook
      · rename_i hid
        obtain rfl := Option.some.inj hlook
        exact ⟨_, rfl, rfl, hid.2.symm, h.fresh κ n job req hjob hreq hstage, by simp⟩
      · -- an entry of this thread under another id: but it has entered none yet
        obtain ⟨req', -, hreq', -, -, hstage'⟩ := old hlook hn
        obtain rfl := Option.some.inj (hreq.symm.trans hreq')
        exact absurd hstage hstage'
  | sent req stage r hreq _ _ hnext =>
      obtain ⟨req', hit, hreq', hid, hrx, -⟩ := old hlook hn
      obtain rfl := Option.some.inj (hreq.symm.trans hreq')
      refine ⟨_, hit, rfl, hid, hrx, ?_⟩
      rcases hnext with ⟨-, rfl⟩ | ⟨e, -, rfl⟩ <;> simp
  | received req payload rest hreq _ hrx =>
      -- the channel holds something, so the entry is gone already
      obtain ⟨req', -, hreq', -, hrx', -⟩ := old hlook hn
      obtain rfl := Option.some.inj (hreq.symm.trans hreq')
      rw [hrx] at hrx'
      cases hrx'
  | timedOut req hreq _ _ =>
      obtain ⟨req', hit, hreq', hid, hrx, -⟩ := old hlook hn
      obtain rfl := Option.some.inj (hreq.symm.trans hreq')
      exact ⟨_, hit, rfl, hid, hrx, by simp⟩
  | cleaned req e hreq _ =>
      rw [Tables.lookup_pending_erase] at hlook
      split at hlook
      · cases hlook
      · rename_i hne
        -- the entry that is erased is the only one of this thread
        obtain ⟨req', -, hreq', hid, -⟩ := old hlook hn
        obtain rfl := Option.some.inj (hreq.symm.trans hreq')
        exact absurd ⟨rfl, hid.symm⟩ hne

/-- Entries of other threads are as before. -/
theorem Awaited.setJob {rt : Runtime} {κ κ' : RequestKind} {id : UInt64} {tx : Tx} {job : Job κ}
    {req : Request κ} (h : Awaited rt κ id tx job req) (t : Tables) {n : Nat} {job' : Job κ'}
    (hne : κ = κ' → tx.job ≠ n) :
    Awaited (({ rt with tables := t } : Runtime).setJob κ' n job') κ id tx job req :=
  ⟨(Runtime.setJob_jobs_of_ne _ job' hne).trans h.thread, h.iteration, h.current, h.id, h.empty,
    h.stage⟩

/-- A thread awaits one id. -/
theorem Awaited.id_unique {rt : Runtime} {κ : RequestKind} {id id' : UInt64} {tx tx' : Tx}
    {job job' : Job κ} {req req' : Request κ} (h : Awaited rt κ id tx job req)
    (h' : Awaited rt κ id' tx' job' req') (hn : tx.job = tx'.job) : id = id' := by
  have hjob := h.thread
  rw [hn, h'.thread] at hjob
  obtain rfl := Option.some.inj hjob
  obtain rfl := Option.some.inj (h.current.symm.trans h'.current)
  exact h.id.symm.trans h'.id

/-- The entries after a step belong to waiting threads. -/
theorem PendingOk.awaited_step {sh : Shared} {i : ι} {l : Label C ι} {rt rt' : Runtime}
    (h : PendingOk rt) (hrt : RuntimeStep sh i l rt rt') {κ : RequestKind} {id : UInt64} {tx : Tx}
    (hlook : (rt'.tables.pending κ).lookup id = some tx) :
    ∃ job req, Awaited rt' κ id tx job req := by
  cases hrt with
  | kept ht _ =>
      obtain ⟨job, req, haw⟩ := h.awaited κ id tx ((ht.pending κ id).symm.trans hlook)
      exact ⟨job, req, haw.thread, haw.iteration, haw.current, haw.id, haw.empty, haw.stage⟩
  | @opened κ' n job' _ _ _ _ _ hnone _ =>
      obtain ⟨job, req, haw⟩ := h.awaited κ id tx hlook
      refine ⟨job, req, haw.setJob rt.tables ?_⟩
      rintro rfl rfl
      have hjob := haw.thread
      rw [hnone] at hjob
      cases hjob
  | @advanced κ' n job' env did st hl hjob hst _ =>
      -- an entry of the thread that advances, or of another one
      by_cases hsame : κ = κ' ∧ tx.job = n
      · obtain ⟨rfl, hn⟩ := hsame
        obtain ⟨req, hit, hreq, hid, hrx, hstage⟩ := h.advances hjob hst hlook hn
        exact ⟨st.job, req, by rw [hn, Runtime.setJob_jobs_self], hit, hreq, hid, hrx, hstage⟩
      · have hne : κ = κ' → tx.job ≠ n := fun hκ hn => hsame ⟨hκ, hn⟩
        rcases hst.pending hlook with hold | ⟨hκ, htx, -⟩
        · obtain ⟨job, req, haw⟩ := h.awaited κ id tx hold
          exact ⟨job, req, haw.setJob st.tables hne⟩
        · rw [htx] at hne
          exact absurd rfl (hne hκ)
  | answered =>
      rw [Tables.lookup_pending_erase] at hlook
      split at hlook
      · cases hlook
      · obtain ⟨job, req, haw⟩ := h.awaited κ id tx hlook
        exact ⟨job, req, haw.thread, haw.iteration, haw.current, haw.id, haw.empty, haw.stage⟩
  | @replied r env did _ hsending _ =>
      rw [Runtime.tables_reply] at hlook
      obtain ⟨job, req, haw⟩ := h.awaited κ id tx hlook
      refine ⟨job, req, ?_, haw.iteration, haw.current, haw.id, haw.empty, haw.stage⟩
      by_cases hsame : κ = r.kind ∧ tx.job = r.tx.job
      · obtain ⟨rfl, hn⟩ := hsame
        -- its entry is gone, so the reply is for an iteration that has ended
        have hne : job.results.length ≠ r.tx.iteration := by
          rw [haw.iteration]
          intro hit
          have htx : tx = r.tx := congrArg₂ Tx.mk hn hit
          exact (h.reply r hsending).gone id (htx ▸ hlook)
        have hjob := haw.thread
        rw [hn] at hjob ⊢
        rw [Runtime.jobs_reply_self { rt with sending := none } hjob, Job.deliver_of_ne hne]
      · rw [Runtime.jobs_reply_of_ne]
        · exact haw.thread
        · intro hκ hn
          exact hsame ⟨hκ, hn⟩

/-- A section of the thread of a reply. -/
theorem ReplyOk.advances {rt : Runtime} {r : Reply} (h : ReplyOk rt r) {sh : Shared} {env : Env}
    {κ : RequestKind} {n : Nat} {job : Job κ} {st : JobStep C κ} (hjob : rt.jobs κ n = some job)
    (hst : job.Advances sh env ⟨n, job.results.length⟩ rt.tables st) :
    ReplyOk (({ rt with tables := st.tables } : Runtime).setJob κ n st.job) r := by
  obtain ⟨job₀, hjob₀, hwhere⟩ := h.thread
  constructor
  · intro id hlook
    rcases hst.pending hlook with hold | ⟨hκ, htx, req, hreq, hstage⟩
    · exact h.gone id hold
    · -- a thread that enters its id has not been answered yet
      obtain ⟨κ', tx, payload⟩ := r
      obtain rfl : κ' = κ := hκ
      obtain rfl : tx = _ := htx
      obtain rfl := Option.some.inj (hjob.symm.trans hjob₀)
      rcases hwhere with hlt | ⟨req', -, hreq', -, hne⟩
      · exact Nat.lt_irrefl _ hlt
      · obtain rfl := Option.some.inj (hreq.symm.trans hreq')
        exact hne hstage
  · by_cases hsame : r.kind = κ ∧ r.tx.job = n
    · obtain ⟨κ', tx, payload⟩ := r
      obtain ⟨rfl, rfl⟩ := hsame
      obtain rfl := Option.some.inj (hjob.symm.trans hjob₀)
      refine ⟨st.job, Runtime.setJob_jobs_self .., ?_⟩
      have hmoves := hst.moves
      generalize st.job = job', st.drew = drew at hmoves
      cases hmoves with
      | begins id target hnone _ =>
          rcases hwhere with hlt | ⟨req, -, hreq, -⟩
          · exact Or.inl hlt
          · rw [hnone] at hreq
            cases hreq
      | keeps req stage hreq hstage =>
          rcases hwhere with hlt | ⟨req', hlen, hreq', hrx, -⟩
          · exact Or.inl hlt
          · obtain rfl := Option.some.inj (hreq.symm.trans hreq')
            exact Or.inr ⟨_, hlen, rfl, hrx, hstage⟩
      | ends id answer _ _ =>
          left
          show tx.iteration < (job.push id answer).results.length
          rw [Job.push, List.length_append, List.length_singleton, Nat.lt_succ_iff]
          rcases hwhere with hlt | ⟨-, hlen, -⟩
          · exact Nat.le_of_lt hlt
          · exact Nat.le_of_eq hlen.symm
    · refine ⟨job₀, ?_, hwhere⟩
      rw [Runtime.setJob_jobs_of_ne]
      · exact hjob₀
      · intro hκ hn
        exact hsame ⟨hκ, hn⟩

/-- A reply about to be sent, after a step. -/
theorem PendingOk.reply_step {sh : Shared} {i : ι} {l : Label C ι} {rt rt' : Runtime}
    (h : PendingOk rt) (hrt : RuntimeStep sh i l rt rt') {r : Reply} (hr : rt'.sending = some r) :
    ReplyOk rt' r := by
  cases hrt with
  | kept ht _ =>
      obtain ⟨hgone, hthread⟩ := h.reply r hr
      refine ⟨fun id hlook => hgone id ?_, hthread⟩
      rwa [ht.pending] at hlook
  | @opened κ n job _ _ _ _ _ hnone _ =>
      obtain ⟨hgone, job₀, hjob₀, hwhere⟩ := h.reply r hr
      refine ⟨hgone, job₀, ?_, hwhere⟩
      rw [Runtime.setJob_jobs_of_ne]
      · exact hjob₀
      · rintro rfl rfl
        rw [hnone] at hjob₀
        cases hjob₀
  | advanced _ hjob hst _ => exact (h.reply r hr).advances hjob hst
  | @answered κ id payload tx _ _ _ _ _ _ _ _ htx _ _ =>
      obtain rfl := Option.some.inj hr
      obtain ⟨job, req, haw⟩ := h.awaited κ id tx htx
      refine ⟨fun id' hlook => ?_, job, haw.thread,
        Or.inr ⟨req, haw.iteration, haw.current, haw.empty, haw.stage⟩⟩
      rw [Tables.lookup_pending_erase] at hlook
      split at hlook
      · cases hlook
      · -- the entry that was answered is the only one of its thread
        rename_i hne
        obtain ⟨job', req', haw'⟩ := h.awaited κ id' tx hlook
        exact hne ⟨rfl, haw'.id_unique haw rfl⟩
  | replied =>
      rw [Runtime.sending_reply] at hr
      cases hr

/-- A thread that has entered no id has received nothing. -/
theorem PendingOk.fresh_step {sh : Shared} {i : ι} {l : Label C ι} {rt rt' : Runtime}
    (h : PendingOk rt) (hrt : RuntimeStep sh i l rt rt') {κ : RequestKind} {n : Nat} {job' : Job κ}
    {req : Request κ} (hjob' : rt'.jobs κ n = some job') (hreq : job'.current = some req)
    (hstage : req.stage = .issued) : req.rx = [] := by
  cases hrt.job hjob' with
  | same hjob _ => exact h.fresh κ n job' req hjob hreq hstage
  | opened _ hrequest _ _ =>
      rw [(AdminRequest.job_new hrequest).2] at hreq
      cases hreq
  | @advanced job env did st _ hjob hst _ h' =>
      have hmoves := hst.moves
      rw [← h'] at hmoves
      generalize st.drew = drew at hmoves
      cases hmoves with
      | begins =>
          obtain rfl := Option.some.inj hreq
          rfl
      | keeps req₀ stage _ hne =>
          obtain rfl := Option.some.inj hreq
          exact absurd hstage hne
      | ends => cases hreq
  | @delivered job payload tx _ _ _ hsending hn hjob h' =>
      -- a payload only reaches a thread that has entered its id
      subst h' hn
      obtain ⟨job₀, hjob₀, hwhere⟩ := (h.reply _ hsending).thread
      obtain rfl := Option.some.inj (hjob.symm.trans hjob₀)
      rcases hwhere with hlt | ⟨req₀, hlen, hreq₀, -, hne⟩
      · rw [Job.deliver_of_ne (Nat.ne_of_gt hlt)] at hreq
        exact h.fresh κ tx.job job req hjob hreq hstage
      · rw [Job.deliver_of_current hlen hreq₀] at hreq
        obtain rfl := Option.some.inj hreq
        exact absurd hstage hne

theorem RuntimeStep.pendingOk {sh : Shared} {i : ι} {l : Label C ι} {rt rt' : Runtime}
    (hrt : RuntimeStep sh i l rt rt') (h : PendingOk rt) : PendingOk rt' :=
  ⟨fun _ _ _ hlook => h.awaited_step hrt hlook, fun _ hr => h.reply_step hrt hr,
    fun _ _ _ _ hjob' hreq hstage => h.fresh_step hrt hjob' hreq hstage⟩

section

variable [DecidableEq ι] {net : Net ι} {tr : List (Label C ι)} {s : State C ι} {i : ι}
  {sh : Shared} {rt : Runtime}

theorem Net.Run.pending (hrun : net.Run tr s) (hi : s.node i = .running sh rt) : PendingOk rt := by
  refine Net.Run.runtime (I := fun _ _ _ rt => PendingOk rt) ?_ ?_ hrun hi
  · intro tr s sh _
    refine ⟨fun κ id tx hlook => ?_, fun r hr => (by cases hr),
      fun κ n job req hjob => (by cases hjob)⟩
    cases κ <;> simp [Runtime.init, Tables.init, Tables.pending] at hlook
  · intro tr s l s' sh rt rt' _ _ _ _ hrt ih
    exact hrt.pendingOk ih

end

/-! ## §4. Waiting threads. -/

/-- A thread that has entered its id and received nothing has its entry, or
its reply is about to be sent. -/
def WaitingOk (rt : Runtime) : Prop :=
  ∀ κ n (job : Job κ) req, rt.jobs κ n = some job → job.current = some req →
    req.stage ≠ .issued → req.rx = [] →
    (rt.tables.pending κ).lookup req.id = some ⟨n, job.results.length⟩ ∨
      ∃ payload, rt.sending = some ⟨κ, ⟨n, job.results.length⟩, payload⟩

/-- No two threads wait for one id. -/
def DistinctIds (rt : Runtime) : Prop :=
  ∀ κ κ' n n' (job : Job κ) (job' : Job κ') req req', rt.jobs κ n = some job →
    rt.jobs κ' n' = some job' → job.current = some req → job'.current = some req' →
    req.id = req'.id → κ = κ' ∧ n = n'

theorem ThreadsOk.distinctIds {tr : List (Label C ι)} {i : ι} {rt : Runtime} (h : ThreadsOk tr i rt)
    (hids : IdsOk tr i rt.tables) : DistinctIds rt := by
  intro κ κ' n n' job job' req req' hjob hjob' hreq hreq' hid
  have heq := hids.unique _ _ ((h.jobs κ n job hjob).current req hreq)
    ((h.jobs κ' n' job' hjob').current req' hreq') hid
  obtain ⟨hκ, -, htx, -⟩ := Ticket.mk.inj heq
  exact ⟨hκ, (Tx.mk.inj htx).1⟩

/-- The entry of another thread survives a section. -/
theorem Job.Advances.lookup_of_ne {sh : Shared} {env : Env} {κ : RequestKind} {tx : Tx}
    {job : Job κ} {t : Tables} {st : JobStep C κ} (h : job.Advances sh env tx t st)
    {κ' : RequestKind} {id : UInt64} (hne : κ' = κ → ∀ req, job.current = some req → id ≠ req.id) :
    (st.tables.pending κ').lookup id = (t.pending κ').lookup id := by
  cases h with
  | unresolved | sent | received | timedOut => rfl
  | drew => cases κ' <;> rfl
  | registered req hreq _ =>
      rw [Tables.lookup_pending_insert, if_neg]
      intro hsame
      exact hne hsame.1 req hreq hsame.2
  | cleaned req _ hreq _ =>
      rw [Tables.lookup_pending_erase, if_neg]
      intro hsame
      exact hne hsame.1 req hreq hsame.2

/-- A section enters the id of its thread, or leaves it as it is. -/
theorem WaitingOk.advances {rt : Runtime} (h : WaitingOk rt) (hids : DistinctIds rt) {sh : Shared}
    {env : Env} {κ : RequestKind} {n : Nat} {job : Job κ} {st : JobStep C κ}
    (hjob : rt.jobs κ n = some job)
    (hst : job.Advances sh env ⟨n, job.results.length⟩ rt.tables st) :
    WaitingOk (({ rt with tables := st.tables } : Runtime).setJob κ n st.job) := by
  intro κ' n' job' req hjob' hreq hstage hrx
  rcases Runtime.setJob_jobs_cases hjob' with ⟨rfl, rfl, rfl⟩ | ⟨hne, hold⟩
  · cases hst with
    | unresolved | received | cleaned => cases hreq
    | drew =>
        obtain rfl := Option.some.inj hreq
        exact absurd rfl hstage
    | registered req₀ hreq₀ _ =>
        obtain rfl := Option.some.inj hreq
        simp
    | sent req₀ stage _ hreq₀ hstage₀ | timedOut req₀ hreq₀ hstage₀ _ =>
        obtain rfl := Option.some.inj hreq
        exact h _ _ job req₀ hjob hreq₀ (by rw [hstage₀]; simp) hrx
  · -- the section of another thread touches another id
    refine (h κ' n' job' req hold hreq hstage hrx).imp_left fun hlook => ?_
    rw [Runtime.setJob_tables, hst.lookup_of_ne]
    · exact hlook
    · rintro rfl req' hreq' hid
      exact hne rfl (hids _ _ _ _ job' job req req' hold hjob hreq hreq' hid).2

/-- The reply that is sent reaches the thread that waits for it. -/
theorem WaitingOk.replied {rt : Runtime} (h : WaitingOk rt) (hpending : PendingOk rt) {r : Reply}
    (hsending : rt.sending = some r) :
    WaitingOk (({ rt with sending := none } : Runtime).reply r.kind r.tx r.payload) := by
  intro κ n job req hjob hreq hstage hrx
  rw [Runtime.tables_reply]
  by_cases hsame : κ = r.kind ∧ n = r.tx.job
  · obtain ⟨rfl, rfl⟩ := hsame
    obtain ⟨job₀, hjob₀, -⟩ := (hpending.reply r hsending).thread
    rw [Runtime.jobs_reply_self { rt with sending := none } hjob₀] at hjob
    obtain rfl := Option.some.inj hjob
    rcases job₀.deliver_cases r.tx.iteration r.payload with heq | ⟨req₀, -, -, heq⟩
    · rw [heq] at hreq ⊢
      rcases h r.kind r.tx.job job₀ req hjob₀ hreq hstage hrx with hlook | ⟨payload, hsending'⟩
      · exact Or.inl hlook
      · -- the reply is for this iteration, and reaches it
        have hr := Option.some.inj (hsending.symm.trans hsending')
        have hit : r.tx.iteration = job₀.results.length := congrArg (fun r => r.tx.iteration) hr
        rw [Job.deliver_of_current hit.symm hreq] at heq
        have hrx' := congrArg Request.rx
          (Option.some.inj ((congrArg Job.current heq).trans hreq))
        rw [hrx] at hrx'
        cases hrx'
    · rw [heq] at hreq
      obtain rfl := Option.some.inj hreq
      -- the thread has received something
      exact absurd hrx (List.append_ne_nil_of_right_ne_nil _ (List.cons_ne_nil _ _))
  · rw [Runtime.jobs_reply_of_ne] at hjob
    · rcases h κ n job req hjob hreq hstage hrx with hlook | ⟨payload, hsending'⟩
      · exact Or.inl hlook
      · obtain rfl := Option.some.inj (hsending.symm.trans hsending')
        exact absurd ⟨rfl, rfl⟩ hsame
    · intro hκ hn
      exact hsame ⟨hκ, hn⟩

theorem RuntimeStep.waitingOk {sh : Shared} {i : ι} {l : Label C ι} {rt rt' : Runtime}
    (hrt : RuntimeStep sh i l rt rt') (h : WaitingOk rt) (hpending : PendingOk rt)
    (hids : DistinctIds rt) : WaitingOk rt' := by
  cases hrt with
  | kept ht _ =>
      intro κ n job req hjob hreq hstage hrx
      exact (h κ n job req hjob hreq hstage hrx).imp_left (ht.pending κ req.id).trans
  | opened _ hrequest _ _ =>
      intro κ n job req hjob hreq hstage hrx
      rcases Runtime.setJob_jobs_cases hjob with ⟨rfl, rfl, rfl⟩ | ⟨-, hold⟩
      · rw [(AdminRequest.job_new hrequest).2] at hreq
        cases hreq
      · exact h κ n job req hold hreq hstage hrx
  | advanced _ hjob hst _ => exact h.advances hids hjob hst
  | @answered κ' id' payload tx m peer env did _ _ _ _ htx _ hnone =>
      intro κ n job req hjob hreq hstage hrx
      rcases h κ n job req hjob hreq hstage hrx with hlook | ⟨payload', hsending⟩
      · by_cases hsame : κ = κ' ∧ req.id = id'
        · -- the sender of this request was taken
          obtain ⟨rfl, rfl⟩ := hsame
          obtain rfl := Option.some.inj (htx.symm.trans hlook)
          exact Or.inr ⟨payload, rfl⟩
        · left
          rw [Tables.lookup_pending_erase, if_neg hsame, hlook]
      · rw [hnone] at hsending
        cases hsending
  | replied _ hsending _ => exact h.replied hpending hsending

theorem RuntimeStep.drawn_le {sh : Shared} {i : ι} {l : Label C ι} {rt rt' : Runtime}
    (hrt : RuntimeStep sh i l rt rt') : rt.tables.drawn ≤ rt'.tables.drawn := by
  rcases hrt.drew with ⟨-, ⟨-, h⟩ | ⟨-, h⟩⟩ | ⟨_, _, -, -, -, -, h⟩ <;> omega

section

variable [DecidableEq ι] {net : Net ι} {tr : List (Label C ι)} {s : State C ι} {i : ι}
  {sh : Shared} {rt : Runtime}

theorem Net.Run.waiting (hrun : net.Run tr s) (hi : s.node i = .running sh rt)
    (hdrawn : rt.tables.drawn ≤ 2 ^ 64) : WaitingOk rt := by
  -- by induction, with the invariants above at the state before the step
  refine Net.Run.runtime (I := fun _ _ _ rt => rt.tables.drawn ≤ 2 ^ 64 → WaitingOk rt)
    ?_ ?_ hrun hi hdrawn
  · intro tr s sh _ _ κ n job req hjob
    cases hjob
  · intro tr s l s' sh rt rt' hrun _ hi _ hrt ih hdrawn
    have hle : rt.tables.drawn ≤ 2 ^ 64 := Nat.le_trans hrt.drawn_le hdrawn
    exact hrt.waitingOk (ih hle) (hrun.pending hi)
      ((hrun.threads hi).distinctIds (hrun.ids hi hle))

end

/-! ## §5. Replies. -/

/-- A reply for the request `id`: its id was drawn for this iteration, and the
node dispatched a response to it. -/
structure ReplyFor (tr : List (Label C ι)) (i : ι) (sh : Shared) (r : Reply) (id : UInt64) : Prop where
  issued : ∃ target, Issued tr i ⟨r.kind, id, r.tx, target⟩
  dispatched : ∃ l ∈ tr, ∃ did peer m env, l.Does i did ∧ did.dispatched = some (peer, m) ∧
    Answers sh env m r.kind id r.payload ∧ Effect.reply r.kind r.tx r.payload ∈ did.effects

theorem ReplyFor.snoc {tr : List (Label C ι)} {i : ι} {sh : Shared} {r : Reply} {id : UInt64}
    (h : ReplyFor tr i sh r id) (l : Label C ι) : ReplyFor (tr ++ [l]) i sh r id := by
  obtain ⟨⟨target, hissued⟩, l', hl', hrest⟩ := h
  exact ⟨⟨target, hissued.snoc l⟩, l', List.mem_append_left _ hl', hrest⟩

section

variable [DecidableEq ι] {net : Net ι} {tr : List (Label C ι)} {s : State C ι} {i : ι}
  {sh : Shared} {rt : Runtime}

/-- The reply the udp loop is about to send answers a request of this node. -/
theorem Net.Run.reply_for (hrun : net.Run tr s) (hi : s.node i = .running sh rt) {r : Reply}
    (hr : rt.sending = some r) : ∃ id, ReplyFor tr i sh r id := by
  refine Net.Run.runtime
    (I := fun tr _ sh rt => ∀ r, rt.sending = some r → ∃ id, ReplyFor tr i sh r id)
    ?_ ?_ hrun hi r hr
  · intro tr s sh _ r hr
    cases hr
  · intro tr s l s' sh rt rt' hrun _ hi _ hrt ih r hr
    have kept : rt.sending = some r → ∃ id, ReplyFor (tr ++ [l]) i sh r id := by
      intro hr
      obtain ⟨id, h⟩ := ih r hr
      exact ⟨id, h.snoc l⟩
    cases hrt with
    | kept | opened | advanced => exact kept hr
    | @answered κ id payload tx m peer env did hdoes hdid _ hans htx hreply _ =>
        -- the ticket is the one of the thread that waits
        obtain rfl := Option.some.inj hr
        obtain ⟨job, req, haw⟩ := (hrun.pending hi).awaited κ id tx htx
        have hissued := ((hrun.threads hi).jobs κ tx.job job haw.thread).current req haw.current
        rw [haw.id, haw.iteration] at hissued
        exact ⟨id, ⟨req.target, hissued.snoc l⟩, l, by simp, did, peer, m, env, hdoes, hdid, hans,
          hreply⟩
    | replied =>
        rw [Runtime.sending_reply] at hr
        cases hr

end

end StealthNet
