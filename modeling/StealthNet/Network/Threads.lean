/-
  StealthNet.Network.Threads
  ──────────────────────────
  ADMIN THREADS RUN THEIR PROGRAM.

  In a run of the network a thread takes its sections between the steps of
  everybody else.  What it takes, section by section, is the execution of
  `handle_admin_request` on the tables as it finds them
  (`Net.Run.thread_executes`).

    §1  one step, seen from a thread;
    §2  the program.
-/
import StealthNet.Daemon.Program
import StealthNet.Network.Correlation

namespace StealthNet

open Lib (Program)

section

variable {C : Crates} {ι : Type} [DecidableEq ι] {net : Net ι} {s s' : State C ι}
  {l : Label C ι} {i : ι} {κ : RequestKind} {n : Nat} {sh : Shared} {rt : Runtime} {job : Job κ}

/-! ## §1. One step. -/

/-- What a step does to one thread, and what its tables are after it. -/
inductive ThreadCase (sh : Shared) (i : ι) (l : Label C ι) (rt rt' : Runtime) (κ : RequestKind)
    (n : Nat) (job job' : Job κ) : Prop
  | own {env : Env} {did : Activity C} {st : JobStep C κ} (hl : l = .act i (.admin κ n) env did)
      (hst : job.Advances sh env ⟨n, job.results.length⟩ rt.tables st) (hjob' : job' = st.job)
      (htables : rt'.tables = st.tables) (heffects : did.effects = st.effects)
  | other (hl : ∀ env did, l ≠ .act i (.admin κ n) env did)
      (hjob' : job' = job ∨ ∃ iteration payload, job' = job.deliver iteration payload)

theorem Step.thread (h : Step net s l s') (hi : s.node i = .running sh rt)
    (hjob : rt.jobs κ n = some job) :
    ∃ rt' job', s'.node i = .running sh rt' ∧ rt'.jobs κ n = some job' ∧
      ThreadCase sh i l rt rt' κ n job job' := by
  by_cases hown : ∃ env did, l = .act i (.admin κ n) env did
  · obtain ⟨env, did, rfl⟩ := hown
    have hact := h.act_of_act
    rw [hi] at hact
    obtain ⟨rt', hi', hact⟩ := Phase.act_running hact
    cases hact with
    | @advanced _ _ job₀ st hjob₀ hst =>
        obtain rfl := Option.some.inj (hjob.symm.trans hjob₀)
        exact ⟨_, st.job, hi', Runtime.setJob_jobs_self .., .own rfl hst rfl rfl rfl⟩
  · have hother : ∀ env did, l ≠ .act i (.admin κ n) env did :=
      fun env did hl => hown ⟨env, did, hl⟩
    obtain ⟨rt', hi', hrt⟩ := h.runtime hi
    obtain ⟨job', hjob'⟩ := Option.isSome_iff_exists.mp
      (hrt.jobs_isSome (hjob ▸ rfl : (rt.jobs κ n).isSome = true))
    refine ⟨rt', job', hi', hjob', .other hother ?_⟩
    cases hrt.job hjob' with
    | same hsame => exact Or.inl (Option.some.inj (hsame.symm.trans hjob))
    | opened _ _ hnone =>
        rw [hjob] at hnone
        cases hnone
    | advanced hl => exact absurd hl (hother _ _)
    | @delivered job₀ payload tx _ _ _ _ _ hjob₀ hdeliver =>
        obtain rfl := Option.some.inj (hjob.symm.trans hjob₀)
        exact Or.inr ⟨tx.iteration, payload, hdeliver⟩

/-! ## §2. The program. -/

/-- What the channel of an iteration of thread `n` holds. -/
def Runtime.channel (rt : Runtime) (n : Nat) (κ : RequestKind) (iteration : Nat) :
    List (Payload κ) :=
  match rt.jobs κ n with
  | none => []
  | some job =>
      if job.results.length = iteration then (job.current.map Request.rx).getD [] else []

theorem Runtime.channel_current (hjob : rt.jobs κ n = some job) {req : Request κ}
    (hreq : job.current = some req) : rt.channel n κ job.results.length = req.rx := by
  unfold Runtime.channel
  rw [hjob]
  show (if job.results.length = job.results.length then (job.current.map Request.rx).getD [] else [])
    = req.rx
  rw [if_pos rfl, hreq]
  rfl

/-- What is delivered to a thread does not change what it has to do. -/
theorem Job.program_deliver (iteration : Nat) (payload : Payload κ) :
    (job.deliver iteration payload).program sh = job.program sh := by
  rcases job.deliver_cases iteration payload with heq | ⟨req, hreq, -, heq⟩
  · rw [heq]
  · rw [heq, Job.program_current, Job.program_some hreq]
    rfl

/-- A step of the network, with the program that thread `n` of node `i` still
has to run: a section of it on the tables of the node, if the step is of this
thread. -/
structure ThreadStep (net : Net ι) (i : ι) (κ : RequestKind) (n : Nat) {α : Type}
    (x : State C ι × AdminProgram α) (l : Label C ι) (y : State C ι × AdminProgram α) : Prop where
  step : Step net x.1 l y.1
  own : ∀ env did, l = .act i (.admin κ n) env did →
    ∃ sh rt rt', x.1.node i = .running sh rt ∧ y.1.node i = .running sh rt' ∧
      AdminProgram.Section C sh env n (rt.channel n) rt.tables x.2 y.2 rt'.tables did.effects
  other : (∀ env did, l ≠ .act i (.admin κ n) env did) → y.2 = x.2

/-- A thread that runs a program can go on with its result. -/
theorem ThreadStep.bind {α β : Type} {x y : State C ι × AdminProgram α}
    (h : ThreadStep net i κ n x l y) (f : α → AdminProgram β) :
    ThreadStep net i κ n (x.1, x.2 >>= f) l (y.1, y.2 >>= f) := by
  refine ⟨h.step, ?_, ?_⟩
  · intro env did hl
    obtain ⟨sh, rt, rt', hi, hi', hsection⟩ := h.own env did hl
    exact ⟨sh, rt, rt', hi, hi', hsection.bind f⟩
  · intro hother
    exact congrArg (· >>= f) (h.other hother)

theorem exec_thread_bind {α β : Type} {x y : State C ι × AdminProgram α} {tr : List (Label C ι)}
    (hexec : Lib.Exec (ThreadStep net i κ n) x tr y) (f : α → AdminProgram β) :
    Lib.Exec (ThreadStep net i κ n) (x.1, x.2 >>= f) tr (y.1, y.2 >>= f) := by
  induction hexec with
  | refl => exact .refl
  | snoc _ hstep ih => exact ih.snoc (hstep.bind f)

/-- `Clients` is one iteration. -/
theorem Net.Run.clients_once {tr : List (Label C ι)} (hrun : net.Run tr s)
    (hi : s.node i = .running sh rt) (hjob : rt.jobs κ n = some job) (hκ : κ = .clients) :
    job.count = 1 := by
  obtain ⟨request, env, did, -, hrequest⟩ := ((hrun.threads hi).jobs κ n job hjob).accepted
  subst hκ
  cases request with
  | ping =>
      obtain ⟨hκ, -⟩ := Sigma.mk.inj (Option.some.inj hrequest)
      cases hκ
  | clients target timeoutMs =>
      obtain ⟨-, hstart⟩ := Sigma.mk.inj (Option.some.inj hrequest)
      exact (congrArg Job.count (eq_of_heq hstart)).symm
  | _ => cases hrequest

theorem Net.Run.thread_step {tr : List (Label C ι)} (hrun : net.Run tr s) (h : Step net s l s')
    (hi : s.node i = .running sh rt) (hjob : rt.jobs κ n = some job) :
    ∃ rt' job', s'.node i = .running sh rt' ∧ rt'.jobs κ n = some job' ∧
      ThreadStep net i κ n (s, job.program sh) l (s', job'.program sh) := by
  obtain ⟨rt', job', hi', hjob', hcase⟩ := h.thread hi hjob
  refine ⟨rt', job', hi', hjob', ⟨h, ?_, ?_⟩⟩
  · intro env did hl
    cases hcase with
    | other hother => exact absurd hl (hother env did)
    | @own env' did' st hl' hst hst' htables heffects =>
        obtain ⟨-, -, rfl, rfl⟩ := Label.act.inj (hl.symm.trans hl')
        refine ⟨sh, rt, rt', hi, hi', ?_⟩
        rw [hst', htables, heffects]
        exact hst.section (hrun.clients_once hi hjob) fun req hreq =>
          Runtime.channel_current hjob hreq
  · intro hother
    cases hcase with
    | own hl => exact absurd hl (hother _ _)
    | other _ hsame =>
        rcases hsame with rfl | ⟨iteration, payload, rfl⟩
        · rfl
        · exact Job.program_deliver iteration payload

/-- A thread starts as the program it serves. -/
theorem AdminRequest.program_new {request : AdminRequest} (h : request.job = some ⟨κ, job⟩) :
    job.program sh = handleAdminRequest sh request := by
  cases request with
  | ping target count timeoutMs | clients target timeoutMs =>
      obtain ⟨rfl, hjob⟩ := Sigma.mk.inj (Option.some.inj h)
      obtain rfl := eq_of_heq hjob
      rfl
  | _ => cases h

/-- After its acceptance a thread runs `handle_admin_request`, whatever happens
in between. -/
theorem Net.Run.thread_runs {s₀ : State C ι} {pre tr : List (Label C ι)} (hrun : net.Run pre s₀)
    (h₀ : s₀.node i = .running sh rt) {request : AdminRequest}
    (hrequest : request.job = some ⟨κ, job⟩) (hjob : rt.jobs κ n = some job)
    (hexec : Lib.Exec (Step net) s₀ tr s) :
    ∃ rt' job', s.node i = .running sh rt' ∧ rt'.jobs κ n = some job' ∧
      Lib.Exec (ThreadStep net i κ n) (s₀, handleAdminRequest sh request) tr
        (s, job'.program sh) := by
  refine hexec.history (I := fun tr s => ∃ rt' job', s.node i = .running sh rt' ∧
    rt'.jobs κ n = some job' ∧ Lib.Exec (ThreadStep net i κ n)
      (s₀, handleAdminRequest sh request) tr (s, job'.program sh)) ?_ ?_
  · refine ⟨rt, job, h₀, hjob, ?_⟩
    rw [AdminRequest.program_new hrequest]
    exact .refl
  · intro tr s l s' htr ih hstep
    obtain ⟨rt', job', hi, hjob', hthread⟩ := ih
    obtain ⟨rt'', job'', hi', hjob'', hnext⟩ :=
      Net.Run.thread_step (hrun.append htr) hstep hi hjob'
    exact ⟨rt'', job'', hi', hjob'', hthread.snoc hnext⟩

/-- From the moment it is accepted, whatever happens in between, a thread runs
`handle_admin_request` on its request, one operation after the other, on the
tables and the network as they are at that time. When it has completed, it
has returned a response. -/
theorem Net.Run.thread_executes {s₀ : State C ι} {pre tr : List (Label C ι)}
    (hrun : net.Run pre s₀) (h₀ : s₀.node i = .running sh rt) {request : AdminRequest}
    (hrequest : request.job = some ⟨κ, job⟩) (hjob : rt.jobs κ n = some job)
    (hexec : Lib.Exec (Step net) s₀ tr s) :
    ∃ rt' job', s.node i = .running sh rt' ∧ rt'.jobs κ n = some job' ∧
      Lib.Exec (ThreadStep net i κ n) (s₀, handleAdminRequest sh request) tr
        (s, job'.program sh) ∧
      (job'.completed → ∃ response, job'.program sh = .pure response) := by
  obtain ⟨rt', job', hi, hjob', hthread⟩ := hrun.thread_runs h₀ hrequest hjob hexec
  exact ⟨rt', job', hi, hjob', hthread,
    Job.completed_program (Net.Run.clients_once (hrun.append hexec) hi hjob')⟩

end

namespace Line

/-- The request of the thread. -/
def pinging : AdminRequest := .ping "10.50.3.7" 1 1000

/-- Its thread, before the first section. -/
def isNew (job : Job .ping) : Bool :=
  job.target == "10.50.3.7" && job.timeoutMs == 1000 && job.count == 1 && job.results.isEmpty &&
    job.current.isNone

theorem job_of_isNew {job : Job .ping} (h : isNew job = true) :
    pinging.job = some ⟨.ping, job⟩ := by
  obtain ⟨target, timeoutMs, count, results, current⟩ := job
  simp only [isNew, Bool.and_eq_true, beq_iff_eq, List.isEmpty_iff, Option.isNone_iff_eq_none] at h
  obtain ⟨⟨⟨⟨rfl, rfl⟩, rfl⟩, rfl⟩, rfl⟩ := h
  rfl

/-- A ping over the line from its acceptance to its end, evaluated at once. -/
theorem thread_computed :
    ((Sim.init Crates.ideal (Fin 3)).run net Env.at (boot ++ [.act 0 (.adminRequest 0 pinging)])).any
      (fun r => (r.2.node 0).held.any (fun (h : Shared × Runtime) => (h.2.jobs .ping 0).any isNew) &&
        (r.2.run net Env.at ([.act 0 (.admin .ping 0), .act 0 (.admin .ping 0)] ++ answering)).any
          fun r' => (r'.2.node 0).held.any fun (h : Shared × Runtime) => (h.2.jobs .ping 0).any
            fun job => job.current.isNone && job.count == 1 && job.results.length == 1) = true := by
  decide +kernel

/-- A thread that has run to its end. -/
structure Served (s₀ s : State Crates.ideal (Fin 3)) (pre tr : List (Label Crates.ideal (Fin 3)))
    (sh : Shared) (rt₀ rt : Runtime) (job₀ job : Job .ping) : Prop where
  run : net.Run pre s₀
  accepted : s₀.node 0 = .running sh rt₀ ∧ rt₀.jobs .ping 0 = some job₀
  request : pinging.job = some ⟨.ping, job₀⟩
  exec : Lib.Exec (Step net) s₀ tr s
  served : s.node 0 = .running sh rt ∧ rt.jobs .ping 0 = some job
  completed : job.completed

theorem exists_served : ∃ s₀ s pre tr sh rt₀ rt job₀ job, Served s₀ s pre tr sh rt₀ rt job₀ job := by
  obtain ⟨⟨pre, s₀⟩, hrun, hcheck⟩ := (Option.any_eq_true _ _).mp thread_computed
  obtain ⟨hnew, hcheck⟩ := Bool.and_eq_true_iff.mp hcheck
  obtain ⟨⟨sh, rt₀⟩, hheld, hnew⟩ := (Option.any_eq_true _ _).mp hnew
  obtain ⟨job₀, hjob₀, hnew⟩ := (Option.any_eq_true _ _).mp hnew
  obtain ⟨⟨tr, s⟩, hexec, hcheck⟩ := (Option.any_eq_true _ _).mp hcheck
  obtain ⟨⟨sh', rt⟩, hheld', hcheck⟩ := (Option.any_eq_true _ _).mp hcheck
  obtain ⟨job, hjob, hcheck⟩ := (Option.any_eq_true _ _).mp hcheck
  obtain ⟨hcheck, hlength⟩ := Bool.and_eq_true_iff.mp hcheck
  obtain ⟨hnone, hcount⟩ := Bool.and_eq_true_iff.mp hcheck
  have hcount := beq_iff_eq.mp hcount
  have hlength := beq_iff_eq.mp hlength
  have hi₀ : s₀.state.node 0 = .running sh rt₀ := Sim.running_iff.mpr hheld
  have hi : s.state.node 0 = .running sh' rt := Sim.running_iff.mpr hheld'
  have hexec := Sim.run_sound hexec
  -- the node is made of the same throughout
  have hsh := exec_shared hexec (State.runs_of_running hi₀)
  obtain rfl := Option.some.inj (hsh.symm.trans (State.runs_of_running hi))
  exact ⟨s₀.state, s.state, pre, tr, sh, rt₀, rt, job₀, job,
    { run := Sim.run_sound hrun
      accepted := ⟨hi₀, hjob₀⟩
      request := job_of_isNew hnew
      exec := hexec
      served := ⟨hi, hjob⟩
      completed := ⟨Option.isNone_iff_eq_none.mp hnone, by omega⟩ }⟩

/-- The thread has run its program to the response. -/
theorem ping_executed : ∃ (s₀ s : State Crates.ideal (Fin 3))
    (pre tr : List (Label Crates.ideal (Fin 3))) (sh : Shared) (response : AdminResponse),
    net.Run pre s₀ ∧ Lib.Exec (ThreadStep net 0 .ping 0) (s₀, handleAdminRequest sh pinging) tr
      (s, .pure response) := by
  obtain ⟨s₀, s, pre, tr, sh, rt₀, rt, job₀, job, h⟩ := exists_served
  obtain ⟨rt', job', hi, hjob, hthread, hresponse⟩ :=
    Net.Run.thread_executes h.run h.accepted.1 h.request h.accepted.2 h.exec
  obtain ⟨-, rfl⟩ := Phase.running.inj (hi.symm.trans h.served.1)
  obtain rfl := Option.some.inj (hjob.symm.trans h.served.2)
  obtain ⟨response, hpure⟩ := hresponse h.completed
  rw [hpure] at hthread
  exact ⟨s₀, s, pre, tr, sh, response, h.run, hthread⟩

end Line

end StealthNet
