/-
  StealthNet.Network.Console
  ──────────────────────────
  WHAT `stealthctl` PRINTS IS SO, UNDER ATTACK.

  A thread ends each of its iterations with an answer: its target does not
  resolve, or nothing came of the request, or a payload came through the
  channel.  A payload comes from a response that was dispatched, so that the
  reply could be seen (`Net.Run.thread_ends`), and what can be seen had its
  moment at the node that was asked.  The thread serves the other end of a
  session of `stealthctl`, which prints what it returns
  (`Net.Run.console_truthful`).

    §1  a reply that can be seen;
    §2  how iterations end;
    §3  what is printed;
    §4  sessions.
-/
import StealthNet.Control
import StealthNet.Network.Linearization
import StealthNet.Network.Threads

namespace StealthNet

open Lib (Program)

variable {C : Crates} {ι : Type}

section

variable [DecidableEq ι] {net : Net ι} {tr : List (Label C ι)} {s s' : State C ι} {l : Label C ι}
  {i : ι} {κ : RequestKind} {n : Nat} {sh : Shared} {rt : Runtime} {job : Job κ}

/-! ## §1. Replies. -/

omit [DecidableEq ι] in
/-- A reply that a node takes out for a thread is seen. -/
theorem Label.Does.see_reply {did : Activity C} (hdoes : l.Does i did) {tx : Tx} {payload : Payload κ}
    (h : Effect.reply κ tx payload ∈ did.effects) : Seen.replied i κ tx payload ∈ l.see := by
  have hsee : Seen.replied i κ tx payload ∈ did.see i :=
    List.mem_append_right _ (List.mem_filterMap.mpr ⟨_, h, rfl⟩)
  rcases hdoes with ⟨ev, env, rfl⟩ | ⟨f, keep, env, rfl⟩ | ⟨packet, env, rfl⟩
  · exact List.mem_append_right _ hsee
  · exact hsee
  · exact hsee

/-- So is what the udp loop is about to send. -/
theorem Net.Run.reply_seen (hrun : net.Run tr s) (hi : s.node i = .running sh rt) {r : Reply}
    (hr : rt.sending = some r) :
    Seen.replied i r.kind r.tx r.payload ∈ Lib.seen Label.see tr := by
  obtain ⟨id, hfor⟩ := hrun.reply_for hi hr
  obtain ⟨l, hl, did, peer, m, env, hdoes, -, -, hreply⟩ := hfor.dispatched
  exact Lib.mem_seen.mpr ⟨l, hl, hdoes.see_reply hreply⟩

omit [DecidableEq ι] in
theorem seen_snoc {o : Seen ι} (h : o ∈ Lib.seen Label.see tr) (l : Label C ι) :
    o ∈ Lib.seen Label.see (tr ++ [l]) := by
  rw [Lib.seen_append]
  exact List.mem_append_left _ h

/-! ## §2. Iterations. -/

/-- The end of an iteration. -/
inductive Ended (tr : List (Label C ι)) (i : ι) (sh : Shared) (κ : RequestKind) (tx : Tx)
    (target : String) : Answer κ → Prop
  | unresolved {e : String} (hr : resolveTarget sh target = .error e) :
      Ended tr i sh κ tx target (.unresolved target e κ)
  | failed {stealth e : String} (hr : resolveTarget sh target = .ok stealth) :
      Ended tr i sh κ tx target (.failed stealth e κ)
  | received {payload : Payload κ} (env : Env)
      (hseen : Seen.replied i κ tx payload ∈ Lib.seen Label.see tr) :
      Ended tr i sh κ tx target (.received env κ payload)

omit [DecidableEq ι] in
theorem Ended.snoc {tx : Tx} {target : String} {answer : Answer κ}
    (h : Ended tr i sh κ tx target answer) (l : Label C ι) :
    Ended (tr ++ [l]) i sh κ tx target answer := by
  cases h with
  | unresolved hr => exact .unresolved hr
  | failed hr => exact .failed hr
  | received env hseen => exact .received env (seen_snoc hseen l)

/-- What thread `n` holds and has done so far. -/
structure ThreadEnds (tr : List (Label C ι)) (i : ι) (sh : Shared) (κ : RequestKind) (n : Nat)
    (job : Job κ) : Prop where
  channel : ∀ req, job.current = some req → ∀ payload ∈ req.rx,
    Seen.replied i κ ⟨n, job.results.length⟩ payload ∈ Lib.seen Label.see tr
  results : ∀ k id answer, job.results[k]? = some (id, answer) →
    Ended tr i sh κ ⟨n, k⟩ job.target answer

omit [DecidableEq ι] in
theorem ThreadEnds.snoc (h : ThreadEnds tr i sh κ n job) (l : Label C ι) :
    ThreadEnds (tr ++ [l]) i sh κ n job :=
  ⟨fun req hreq payload hrx => seen_snoc (h.channel req hreq payload hrx) l,
    fun k id answer hk => (h.results k id answer hk).snoc l⟩

omit [DecidableEq ι] in
/-- A section of a thread. -/
theorem ThreadEnds.advanced (h : ThreadEnds tr i sh κ n job) {env : Env} {st : JobStep C κ}
    {t : Tables} (hresolved : ∀ req, job.current = some req →
      resolveTarget sh job.target = .ok req.target)
    (hst : job.Advances sh env ⟨n, job.results.length⟩ t st) : ThreadEnds tr i sh κ n st.job := by
  -- an answer is added to those there are
  have pushed : ∀ {id : Option UInt64} {answer : Answer κ},
      Ended tr i sh κ ⟨n, job.results.length⟩ job.target answer →
      ThreadEnds tr i sh κ n (job.push id answer) := by
    intro id answer hended
    refine ⟨fun req hreq => (by cases hreq), fun k id' answer' hk => ?_⟩
    rcases Job.results_push hk with hk | ⟨rfl, -, rfl⟩
    · exact h.results k id' answer' hk
    · exact hended
  -- the iteration goes on with what is in its channel
  have goes_on : ∀ {req : Request κ} (stage : Stage), job.current = some req →
      ThreadEnds tr i sh κ n { job with current := some { req with stage } } := by
    intro req stage hreq
    refine ⟨fun req' hreq' payload hrx => ?_, h.results⟩
    obtain rfl := Option.some.inj hreq'
    exact h.channel req hreq payload hrx
  cases hst with
  | unresolved e _ _ hr => exact pushed (.unresolved hr)
  | drew target _ _ hr =>
      refine ⟨fun req hreq payload hrx => ?_, h.results⟩
      obtain rfl := Option.some.inj hreq
      cases hrx
  | registered req hreq => exact goes_on _ hreq
  | sent req stage _ hreq => exact goes_on stage hreq
  | received req payload rest hreq _ hrx =>
      exact pushed (.received env (h.channel req hreq payload (by rw [hrx]; simp)))
  | timedOut req hreq => exact goes_on _ hreq
  | cleaned req e hreq => exact pushed (.failed (hresolved req hreq))

/-- Every answer of a thread is what its iteration ended with. -/
theorem Net.Run.thread_ends (hrun : net.Run tr s) (hi : s.node i = .running sh rt)
    (hjob : rt.jobs κ n = some job) : ThreadEnds tr i sh κ n job := by
  refine Net.Run.runtime
    (I := fun tr _ sh rt => ∀ κ n (job : Job κ), rt.jobs κ n = some job →
      ThreadEnds tr i sh κ n job) ?_ ?_ hrun hi κ n job hjob
  · intro tr s sh _ κ n job hjob
    cases hjob
  · intro tr s l s' sh rt rt' hrun _ hi _ hrt ih κ n job' hjob'
    cases hrt.job hjob' with
    | same hjob _ => exact (ih κ n job' hjob).snoc l
    | opened _ hrequest =>
        obtain ⟨hresults, hcurrent⟩ := AdminRequest.job_new hrequest
        refine ⟨fun req hreq => ?_, fun k id answer hk => ?_⟩
        · rw [hcurrent] at hreq
          cases hreq
        · rw [hresults] at hk
          cases hk
    | @advanced job env did st _ hjob hst _ heq =>
        rw [heq]
        exact ((ih κ n job hjob).advanced (fun req hreq => hrun.resolved hi hjob hreq) hst).snoc l
    | @delivered job payload tx _ _ _ hsending hn hjob heq _ =>
        have h := (ih κ n job hjob).snoc l
        subst heq hn
        rcases job.deliver_cases tx.iteration payload with heq | ⟨req, hreq, hlen, heq⟩
        · rw [heq]
          exact h
        · rw [heq]
          refine ⟨fun req' hreq' payload' hrx => ?_, h.results⟩
          obtain rfl := Option.some.inj hreq'
          rcases List.mem_append.mp hrx with hrx | hrx
          · exact h.channel req hreq payload' hrx
          · -- what is sent last was taken out for this iteration
            obtain rfl := List.mem_singleton.mp hrx
            have hseen := seen_snoc (hrun.reply_seen hi hsending) l
            rw [show (⟨κ, tx, payload'⟩ : Reply).tx = ⟨tx.job, job.results.length⟩ by rw [hlen]] at hseen
            exact hseen

/-! ## §3. The operator. -/

/-- Iteration `tx` of a thread of node `i` got a reply: node `D` has the stealth
its target resolves to, and told this after the id was drawn and before the
reply came. -/
structure Told (net : Net ι) (tr : List (Label C ι)) (i : ι) (sh : Shared) (κ : RequestKind)
    (tx : Tx) (target : String) (payload : Payload κ) (D : ι) (shD : Shared) (rtD : Runtime) :
    Prop where
  resolved : resolveTarget sh target = .ok shD.localStealth
  moment : ∃ tr₁ tr₂ s₁, tr = tr₁ ++ tr₂ ∧ QueriedAt net tr₁ s₁ i κ tx payload D shD rtD ∧
    Seen.replied i κ tx payload ∈ Lib.seen Label.see tr₂

/-- What came through the channel of a thread was told by the node it asked. -/
theorem Net.Run.told (hb : C.BincodeRoundTrips) (ho : C.AeadCorrect) (hpeers : HonestPeers C net)
    (hkeys : KeysDetermineSecrets C net) (hrun : net.Run tr s) (hideal : Unforgeable net tr)
    (hstealths : s.DistinctStealths)
    (hdrawn : ∀ i sh rt, s.node i = .running sh rt → rt.tables.drawn ≤ 2 ^ 64)
    (hi : s.node i = .running sh rt) (hjob : rt.jobs κ n = some job) {k : Nat} {payload : Payload κ}
    (hseen : Seen.replied i κ ⟨n, k⟩ payload ∈ Lib.seen Label.see tr) :
    ∃ D shD rtD, Told net tr i sh κ ⟨n, k⟩ job.target payload D shD rtD := by
  obtain ⟨before, after, hsplit⟩ := List.append_of_mem hseen
  obtain ⟨tr₁, tr₂, s₁, D, shD, rtD, rfl, ⟨between, rfl⟩, -, hat⟩ :=
    Net.Run.queried hb ho hpeers hkeys hrun hideal hstealths hdrawn hsplit
  obtain ⟨id, hdrew⟩ := hat.drew
  have hticket : Issued (tr₁ ++ tr₂) i ⟨κ, id, ⟨n, k⟩, shD.localStealth⟩ := by
    apply issued_of_seen
    rw [Lib.seen_append]
    exact List.mem_append_left _ hdrew
  have hlater : Lib.seen Label.see tr₂ = between ++ .replied i κ ⟨n, k⟩ payload :: after := by
    rw [Lib.seen_append, List.append_assoc] at hsplit
    exact List.append_cancel_left hsplit
  refine ⟨D, shD, rtD, hrun.ticket_resolved hi hjob hticket, tr₁, tr₂, s₁, rfl, hat, ?_⟩
  rw [hlater]
  exact List.mem_append_right _ List.mem_cons_self

/-- A line about iteration `tx` of a ping. -/
inductive PingLine (net : Net ι) (tr : List (Label C ι)) (i : ι) (sh : Shared) (tx : Tx)
    (target : String) : String → Prop
  | unresolved {e : String} (hr : resolveTarget sh target = .error e) :
      PingLine net tr i sh tx target (failureLine target e)
  | failed {stealth e : String} (hr : resolveTarget sh target = .ok stealth) :
      PingLine net tr i sh tx target (failureLine stealth e)
  | replied {payload : Payload .ping} {D : ι} {shD : Shared} {rtD : Runtime} (rtt : BitVec 128)
      (htold : Told net tr i sh .ping tx target payload D shD rtD) :
      PingLine net tr i sh tx target
        (replyLine shD.localStealth (net.config D).node.id rtt)

/-- What is printed for a command that thread `n` serves. -/
inductive Shown (net : Net ι) (tr : List (Label C ι)) (i : ι) (sh : Shared) (n : Nat) :
    Command → Except String (List String) → Prop
  | ping {target : String} {count : UInt32} {timeoutMs : UInt64} {lines : List String}
      (hcount : lines.length = count.toNat)
      (hlines : ∀ k line, lines[k]? = some line → PingLine net tr i sh ⟨n, k⟩ target line) :
      Shown net tr i sh n (.ping target count timeoutMs) (.ok lines)
  | refused {target : String} {timeoutMs : UInt64} {e : String} :
      Shown net tr i sh n (.clients target timeoutMs) (.error e)
  | clients {target : String} {timeoutMs : UInt64} {payload : Payload .clients} {D : ι}
      {shD : Shared} {rtD : Runtime} {env : Env}
      (htold : Told net tr i sh .clients ⟨n, 0⟩ target payload D shD rtD) :
      Shown net tr i sh n (.clients target timeoutMs)
        (.ok (clientLines shD.localStealth (publishedClients shD env rtD.tables)))

/-- The line of a ping result. -/
theorem Ended.ping_line {tx : Tx} {target : String} {answer : Answer .ping}
    (htold : ∀ payload : Payload .ping,
      Seen.replied i .ping tx payload ∈ Lib.seen Label.see tr →
      ∃ D shD rtD, Told net tr i sh .ping tx target payload D shD rtD)
    (h : Ended tr i sh .ping tx target answer) :
    PingLine net tr i sh tx target (PingResult.line answer) := by
  cases h with
  | unresolved hr => exact .unresolved hr
  | failed hr => exact .failed hr
  | @received payload env hseen =>
      obtain ⟨D, shD, rtD, htold⟩ := htold payload hseen
      obtain ⟨tr₁, tr₂, s₁, -, hat, -⟩ := htold.moment
      obtain ⟨envD, rtt, heq⟩ := hat.tells
      have hnode : shD.config.node.id = (net.config D).node.id := by
        have hbuilt := hat.run.builtFrom D
        rw [hat.runs] at hbuilt
        exact hbuilt.nodeId
      rw [heq]
      show PingLine net tr i sh tx target (replyLine shD.localStealth shD.config.node.id env.elapsedMs)
      rw [hnode]
      exact .replied _ htold

/-- What is printed of the answer to `clients`. -/
theorem Ended.clients_shown {target : String} {answer : Answer .clients} (timeoutMs : UInt64)
    (htold : ∀ payload : Payload .clients,
      Seen.replied i .clients ⟨n, 0⟩ payload ∈ Lib.seen Label.see tr →
      ∃ D shD rtD, Told net tr i sh .clients ⟨n, 0⟩ target payload D shD rtD)
    (h : Ended tr i sh .clients ⟨n, 0⟩ target answer) :
    Shown net tr i sh n (.clients target timeoutMs) (printResponse answer) := by
  cases h with
  | unresolved | failed => exact .refused
  | @received payload env hseen =>
      obtain ⟨D, shD, rtD, htold⟩ := htold payload hseen
      obtain ⟨tr₁, tr₂, s₁, -, hat, -⟩ := htold.moment
      obtain ⟨envD, heq⟩ := hat.tells
      rw [heq]
      exact .clients htold

omit [DecidableEq ι] in
/-- A ping serves the command it was asked for. -/
theorem Command.ping_of_job {command : Command} {target : String} {timeoutMs : UInt64} {count : Nat}
    (h : command.request.job = some ⟨.ping, .start .ping target timeoutMs count⟩) :
    ∃ count', command = .ping target count' timeoutMs ∧ count'.toNat = count := by
  cases command with
  | ping target' count' timeoutMs' =>
      obtain ⟨-, hstart⟩ := Sigma.mk.inj (Option.some.inj h)
      obtain ⟨rfl, rfl, hcount, -⟩ := Job.mk.inj (eq_of_heq hstart)
      exact ⟨count', rfl, hcount⟩
  | clients =>
      obtain ⟨hκ, -⟩ := Sigma.mk.inj (Option.some.inj h)
      cases hκ
  | routes sub => cases sub <;> cases h
  | resolve => cases h

omit [DecidableEq ι] in
/-- So does a `clients` thread. -/
theorem Command.clients_of_job {command : Command} {target : String} {timeoutMs : UInt64}
    {count : Nat}
    (h : command.request.job = some ⟨.clients, .start .clients target timeoutMs count⟩) :
    command = .clients target timeoutMs := by
  cases command with
  | clients target' timeoutMs' =>
      obtain ⟨-, hstart⟩ := Sigma.mk.inj (Option.some.inj h)
      obtain ⟨rfl, rfl, -⟩ := Job.mk.inj (eq_of_heq hstart)
      rfl
  | ping =>
      obtain ⟨hκ, -⟩ := Sigma.mk.inj (Option.some.inj h)
      cases hκ
  | routes sub => cases sub <;> cases h
  | resolve => cases h

/-- What is printed for a thread that has completed. -/
theorem Net.Run.shown (hb : C.BincodeRoundTrips) (ho : C.AeadCorrect) (hpeers : HonestPeers C net)
    (hkeys : KeysDetermineSecrets C net) (hrun : net.Run tr s) (hideal : Unforgeable net tr)
    (hstealths : s.DistinctStealths)
    (hdrawn : ∀ i sh rt, s.node i = .running sh rt → rt.tables.drawn ≤ 2 ^ 64)
    (hi : s.node i = .running sh rt) (hjob : rt.jobs κ n = some job) (hdone : job.completed)
    {command : Command}
    (hcommand : command.request.job = some ⟨κ, .start κ job.target job.timeoutMs job.count⟩) :
    ∃ response, job.program sh = .pure response ∧
      Shown net tr i sh n command (printResponse response) := by
  have hends := hrun.thread_ends hi hjob
  have htold : ∀ k (payload : Payload κ),
      Seen.replied i κ ⟨n, k⟩ payload ∈ Lib.seen Label.see tr →
      ∃ D shD rtD, Told net tr i sh κ ⟨n, k⟩ job.target payload D shD rtD :=
    fun k payload hseen => hrun.told hb ho hpeers hkeys hideal hstealths hdrawn hi hjob hseen
  have hlength : job.results.length = job.count :=
    Nat.le_antisymm ((hrun.threads hi).jobs κ n job hjob).bound hdone.2
  cases κ with
  | ping =>
      obtain ⟨count, rfl, hcount⟩ := Command.ping_of_job hcommand
      refine ⟨_, Job.completed_ping hdone, .ping ?_ ?_⟩
      · rw [List.length_map, List.length_map, hlength, hcount]
      · intro k line hline
        rw [List.map_map, List.getElem?_map] at hline
        obtain ⟨⟨id, answer⟩, hk, rfl⟩ := Option.map_eq_some_iff.mp hline
        exact (hends.results k id answer hk).ping_line (htold k)
  | clients =>
      obtain rfl := Command.clients_of_job hcommand
      have hone := hrun.clients_once hi hjob rfl
      obtain ⟨id, response, hlast, hresponse⟩ := Job.completed_clients sh hone hdone
      refine ⟨response, hresponse, ?_⟩
      have hk : job.results[0]? = some (id, response) := by
        rw [List.getLast?_eq_getElem?, hlength, hone] at hlast
        exact hlast
      exact (hends.results 0 id response hk).clients_shown job.timeoutMs (htold 0)

/-! ## §4. Sessions. -/

/-- A thread was accepted in one step, and was then as its request makes it. -/
theorem Net.Run.accepted_at (hrun : net.Run tr s) (hi : s.node i = .running sh rt)
    (hjob : rt.jobs κ n = some job) :
    ∃ request env did pre post s₀ s₁ rt₁,
      tr = pre ++ .act i (.adminRequest n request) env did :: post ∧
      net.Run pre s₀ ∧ Step net s₀ (.act i (.adminRequest n request) env did) s₁ ∧
      Lib.Exec (Step net) s₁ post s ∧ s₁.node i = .running sh rt₁ ∧
      rt₁.jobs κ n = some (.start κ job.target job.timeoutMs job.count) ∧
      request.job = some ⟨κ, .start κ job.target job.timeoutMs job.count⟩ := by
  obtain ⟨request, env, did, hmem, hrequest⟩ := ((hrun.threads hi).jobs κ n job hjob).accepted
  obtain ⟨pre, post, rfl⟩ := List.append_of_mem hmem
  obtain ⟨s₀, s₁, hpre, hstep, hpost⟩ := hrun.split_cons
  obtain ⟨sh', rt₁, hi₁, hjob₁⟩ := hstep.accepted hrequest
  -- the node is made of the same since
  have hsh := exec_shared hpost (State.runs_of_running hi₁)
  obtain rfl := Option.some.inj (hsh.symm.trans (State.runs_of_running hi))
  exact ⟨request, env, did, pre, post, s₀, s₁, rt₁, rfl, hpre, hstep, hpost, hi₁, hjob₁, hrequest⟩

/-- Whatever an attacker injects: the thread that serves a `ping` or a `clients`
command runs the daemon's end of a session of `stealthctl` from its acceptance
on. When it has completed, the session has come to its end, and what is printed
is a failure or what the node that was asked told in between: of a ping, as many
times as was asked for. -/
theorem Net.Run.console_truthful (hb : C.BincodeRoundTrips) (ho : C.AeadCorrect)
    (hpeers : HonestPeers C net) (hkeys : KeysDetermineSecrets C net) {J : Json} (hJ : J.RoundTrips)
    (hrun : net.Run tr s) (hideal : Unforgeable net tr) (hstealths : s.DistinctStealths)
    (hdrawn : ∀ i sh rt, s.node i = .running sh rt → rt.tables.drawn ≤ 2 ^ 64)
    (hi : s.node i = .running sh rt) (hjob : rt.jobs κ n = some job) (hdone : job.completed) :
    ∃ command env did pre post s₀ s₁ response,
      tr = pre ++ .act i (.adminRequest n command.request) env did :: post ∧ net.Run pre s₀ ∧
      Step net s₀ (.act i (.adminRequest n command.request) env did) s₁ ∧
      job.program sh = .pure response ∧
      Lib.Exec (ThreadStep net i κ n) (s₁, session J sh command) post
        (s, .pure (printResponse response)) ∧
      Shown net tr i sh n command (printResponse response) := by
  obtain ⟨request, env, did, pre, post, s₀, s₁, rt₁, htr, hpre, hstep, hpost, hi₁, hjob₁, hrequest⟩ :=
    hrun.accepted_at hi hjob
  obtain ⟨command, rfl⟩ := Command.request_surjective request
  obtain ⟨response, hresponse, hshown⟩ :=
    hrun.shown hb ho hpeers hkeys hideal hstealths hdrawn hi hjob hdone hrequest
  obtain ⟨rt', job', hi', hjob', hthread⟩ :=
    Net.Run.thread_runs (hpre.snoc hstep) hi₁ hrequest hjob₁ hpost
  obtain ⟨-, rfl⟩ := Phase.running.inj (hi.symm.trans hi')
  obtain rfl := Option.some.inj (hjob.symm.trans hjob')
  -- the response crosses the socket
  have hsession := exec_thread_bind hthread fun response => Program.pure (printResponse response)
  rw [hresponse] at hsession
  refine ⟨command, env, did, pre, post, s₀, s₁, response, htr, hpre, hstep, hresponse, ?_, hshown⟩
  rw [session_eq hJ]
  exact hsession

end

/-! ## §5. A line that is printed. -/

namespace Home

/-- The attacked ping is read by the operator. -/
def printing : List (Move (Fin 3)) := attack ++ [.act 0 .reply, .act 0 (.admin .ping 0)]

/-- Evaluated at once. -/
theorem printing_computed :
    ((Sim.init Crates.ideal (Fin 3)).run net Env.at printing).any (fun r =>
      replays [] r.1 &&
        decide (∀ i, (r.2.node i).shared.map Shared.localStealth = some (Line.stealth i)) &&
        decide (∀ i, (r.2.node i).held.all (fun (h : Shared × Runtime) =>
          decide (h.2.tables.drawn ≤ 2 ^ 64)) = true) &&
        (r.2.node 0).held.any fun (h : Shared × Runtime) => (h.2.jobs .ping 0).any fun job =>
          job.current.isNone && job.count == 1 &&
            job.results.map (fun r => PingResult.line r.2)
              == ["reply from st-b id=b time=1 ms"]) = true := by
  decide +kernel

/-- A session prints one line, about the one moment at which the last node told
the client. -/
theorem line_printed :
    ∃ (tr post : List (Label Crates.ideal (Fin 3))) (s s₁ : State Crates.ideal (Fin 3))
      (sh : Shared) (command : Command), net.Run tr s ∧ s.Runs 0 sh ∧
      Lib.Exec (ThreadStep net 0 .ping 0) (s₁, session Json.ideal sh command) post
        (s, .pure (.ok ["reply from st-b id=b time=1 ms"])) ∧
      Shown net tr 0 sh 0 command (.ok ["reply from st-b id=b time=1 ms"]) := by
  obtain ⟨⟨tr, s⟩, hrun, hcheck⟩ := (Option.any_eq_true _ _).mp printing_computed
  obtain ⟨hcheck, hjob⟩ := Bool.and_eq_true_iff.mp hcheck
  obtain ⟨hcheck, hdrawn⟩ := Bool.and_eq_true_iff.mp hcheck
  obtain ⟨hreplays, hstealths⟩ := Bool.and_eq_true_iff.mp hcheck
  obtain ⟨⟨sh, rt⟩, hheld, hjob⟩ := (Option.any_eq_true _ _).mp hjob
  obtain ⟨job, hjob, hdone⟩ := (Option.any_eq_true _ _).mp hjob
  obtain ⟨hdone, hlines⟩ := Bool.and_eq_true_iff.mp hdone
  obtain ⟨hnone, hcount⟩ := Bool.and_eq_true_iff.mp hdone
  have hlines := beq_iff_eq.mp hlines
  have hrun := Sim.run_sound hrun
  have hi : s.state.node 0 = .running sh rt := Sim.running_iff.mpr hheld
  have hcompleted : job.completed := by
    have hlength := congrArg List.length hlines
    rw [List.length_map] at hlength
    exact ⟨Option.isNone_iff_eq_none.mp hnone, by rw [beq_iff_eq.mp hcount, hlength]; exact le_rfl⟩
  obtain ⟨command, env, did, pre, post, s₀, s₁, response, -, -, -, hresponse, hsession, hshown⟩ :=
    Net.Run.console_truthful Crates.bincodeRoundTrips_ideal Crates.idealAead_ideal.toAeadCorrect
      honestPeers keysDetermineSecrets Json.roundTrips_ideal hrun
      (Net.Run.unforgeable Crates.bincodeRoundTrips_ideal Crates.idealAead_ideal hrun hreplays)
      (Line.distinct_of_computed (of_decide_eq_true hstealths)) (Sim.drawn_le (of_decide_eq_true hdrawn))
      hi hjob hcompleted
  obtain rfl := Program.pure.inj ((Job.completed_ping hcompleted).symm.trans hresponse)
  have hprinted : printResponse (.pingResults (job.results.map Prod.snd))
      = .ok ["reply from st-b id=b time=1 ms"] := by
    show Except.ok ((job.results.map Prod.snd).map PingResult.line) = _
    rw [List.map_map]
    exact congrArg Except.ok hlines
  rw [hprinted] at hsession hshown
  exact ⟨tr, post, s.state, s₁, sh, command, hrun, State.runs_of_running hi, hsession, hshown⟩

end Home

end StealthNet
