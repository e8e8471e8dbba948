/-
  StealthNet.Network.Completion
  ─────────────────────────────
  A REQUEST THAT IS ANSWERED.

  An admin thread sends its request and waits.  Where nothing that descends from
  the request is lost, the next hops for its target lead there within 16 hops, and
  those of the target for the stealth of the asking node lead back within 16, the
  thread gets the answer of the node it asked, unless it gives up before
  (`Net.Run.request_completes`).

    §1  the request and the response as messages;
    §2  one way of 16 hops;
    §3  the waiting thread;
    §4  there and back;
    §5  networks of at most 16 nodes, where the ttl decides nothing.
-/
import StealthNet.Network.Reachability
import StealthNet.Network.Correlation
import StealthNet.Network.Integrity
import StealthNet.Network.Threads

namespace StealthNet

open Lib (walk FirstArrival firstArrival_one firstArrival_succ)

section

variable {C : Crates}

/-! ## §1. Messages. -/

section

variable {sh shj : Shared} {env envj : Env} {t : Tables} {m m' : Message} {head : Head}

/-- What a thread sends. -/
theorem requestMessage_head (sh : Shared) (env : Env) (target : String) (id : UInt64)
    (targetStealth : String) (κ : RequestKind) :
    (requestMessage sh env target id targetStealth κ).request
        = some ⟨κ, id, sh.localStealth, targetStealth⟩ ∧
      (requestMessage sh env target id targetStealth κ).ttl = 16 := by
  cases κ with
  | ping => exact ⟨rfl, rfl⟩
  | clients => exact ⟨rfl, rfl⟩

/-- Requests and responses are addressed, and forwarded with any ttl left. -/
theorem Message.request_addressed (h : m.request = some head) :
    m.relayTarget = some head.target ∧ m.minTtl = 1 := by
  cases m with
  | pingReq ping =>
      obtain rfl := Option.some.inj h
      exact ⟨rfl, rfl⟩
  | publicClientsReq req =>
      obtain rfl := Option.some.inj h
      exact ⟨rfl, rfl⟩
  | _ => cases h

/-- A node responds to a request for itself: `respond`, one case for each
kind. -/
inductive RespondsTo (sh : Shared) (env : Env) (t : Tables) : Message → Head → Message → Prop
  | ping {ping : PingReq} (httl : ping.ttl ≠ 0) (htarget : ping.targetStealth = sh.localStealth) :
      RespondsTo sh env t (.pingReq ping)
        ⟨.ping, ping.requestId, ping.srcStealth, ping.targetStealth⟩
        (.pingResp (pingResponse sh ping))
  | clients {req : PublicClientsReq} (httl : req.ttl ≠ 0)
      (htarget : req.targetStealth = sh.localStealth) :
      RespondsTo sh env t (.publicClientsReq req)
        ⟨.clients, req.requestId, req.srcStealth, req.targetStealth⟩
        (.publicClientsResp (clientsResponse sh env t req))

/-- A node that a request is for responds to it. -/
theorem exists_respondsTo (env : Env) (t : Tables) (hhead : m.request = some head)
    (httl : m.ttl ≠ 0) (htarget : head.target = sh.localStealth) :
    ∃ m', RespondsTo sh env t m head m' := by
  cases m with
  | pingReq ping =>
      obtain rfl := Option.some.inj hhead
      exact ⟨_, .ping httl htarget⟩
  | publicClientsReq req =>
      obtain rfl := Option.some.inj hhead
      exact ⟨_, .clients httl htarget⟩
  | _ => cases hhead

/-- The response goes back to the origin. -/
theorem RespondsTo.addressed (h : RespondsTo sh env t m head m') :
    m'.relayTarget = some head.src ∧ m'.minTtl = 1 ∧ m'.ttl = 16 := by
  cases h with
  | ping => exact ⟨rfl, rfl, rfl⟩
  | clients => exact ⟨rfl, rfl, rfl⟩

theorem RespondsTo.effects_eq (h : RespondsTo sh env t m head m') (q : PeerRuntime) :
    (dispatch C sh env t q m).effects = (forwardByStealth C sh env head.src m').effects := by
  cases h with
  | ping httl htarget => exact dispatch_ping httl htarget
  | @clients req httl htarget =>
      show (handlePublicClientsReq C sh env t req).effects = _
      unfold handlePublicClientsReq
      rw [if_neg httl, if_pos htarget]
      rfl

/-- Back at the origin, with ttl left, the response answers the request. -/
theorem RespondsTo.answers (h : RespondsTo shj envj t m head m') (hsrc : head.src = sh.localStealth)
    {ttl : UInt8} (httl : ttl ≠ 0) (env : Env) :
    ∃ payload, Answers sh env (m'.withTtl ttl) head.kind head.id payload := by
  cases h with
  | ping => exact ⟨_, .ping httl hsrc⟩
  | clients => exact ⟨_, .clients httl hsrc⟩

end

/-! ## §2. One way. -/

variable {ι : Type} [DecidableEq ι] {net : Net ι} {s₀ s s₁ s' : State C ι} {l : Label C ι}
  {tr : List (Label C ι)}

/-- A message that a node sends with ttl 16 towards a stealth which its links
first arrive at within 16 hops is dispatched there with ttl left. The links are
those of an earlier state. -/
theorem Step.arrives (hb : C.BincodeRoundTrips) (ha : C.IdealAead) (hC : C.Total)
    (hstealths : s₀.DistinctStealths) (hmid : ∃ mid, Lib.Exec (Step net) s₀ mid s)
    (hstep : Step net s l s₁) {a D : ι} {sha shD : Shared} {did : Activity C}
    (hdoes : l.Does a did) (hsha : s₀.Runs a sha) (hD : s₀.Runs D shD) {env : Env}
    (henv : env.socketAccepts = true) {m : Message} {target : String}
    (heff : did.effects = (forwardByStealth C sha env target m).effects)
    (htarget : m.relayTarget = some target) (hmin : m.minTtl = 1) (httl : m.ttl = 16)
    (hstealth : shD.localStealth = target) {k : Nat} (hk : k ≤ 16)
    (harr : FirstArrival (link net s₀ target) a D k) {n : Nat} (hn : n ∈ l.trail s.clock)
    (hexec : Lib.Exec (Step net) s₁ tr s') (hcomp : Completes n tr s') :
    ∃ ttl, ttl ≠ 0 ∧ Delivered s₀ tr n D (m.withTtl ttl) := by
  obtain ⟨mid, hmid⟩ := hmid
  obtain ⟨k, rfl⟩ := Nat.exists_eq_add_of_le' harr.pos
  obtain ⟨b, hb'⟩ := harr.exists_next
  obtain ⟨sh, p, hsh, hp, -⟩ := link_eq_some_iff.mp hb'
  obtain rfl := Option.some.inj (hsha.symm.trans hsh)
  obtain ⟨d, hd, hforward⟩ := forwardByStealth_ok hC sha env henv hp m
  have hsent : Effect.udpSend d ∈ did.effects := by
    rw [heff, hforward]
    exact List.mem_cons_of_mem _ List.mem_cons_self
  -- only `D` has the stealth, and the message is no packet
  have hpass : ∀ b sh, s₀.Runs b sh → b ≠ D → PassesOn sh m target := by
    intro b sh hb' hbD
    refine ⟨htarget, fun h => hbD (hstealths b D sh shD hb' hD (h.symm.trans hstealth.symm)), ?_⟩
    intro data hdata
    rw [hdata] at hmin
    cases hmin
  rw [← Message.withTtl_ttl m, httl] at hd
  obtain ⟨ttl, hdel, hsum⟩ := travels hb ha hC hpass (hmid.snoc hstep) hexec hcomp harr hsha hp
    (hstep.mem_inflight hdoes hsent) hn hd (by rw [hmin, sixteen_toNat]; omega)
  rw [sixteen_toNat] at hsum
  exact ⟨ttl, ne_zero_iff_one_le.mpr (by omega), hdel⟩

/-! ## §3. The thread. -/

section

variable {i : ι} {sh : Shared} {rt rt' : Runtime} {κ : RequestKind} {n : Nat} {job : Job κ}
  {req : Request κ} {rx : List (Payload κ)}

/-- The job while its request waits, with this in its channel. -/
def Job.waitingFor (job : Job κ) (req : Request κ) (rx : List (Payload κ)) : Job κ :=
  { job with current := some { req with stage := .waiting, rx } }

/-- A thread that takes no section keeps waiting, and loses nothing of what it
received. -/
theorem exec_waitingFor (hexec : Lib.Exec (Step net) s tr s')
    (hidle : ∀ l ∈ tr, l.advances i κ n = false) (hi : s.node i = .running sh rt)
    (hjob : rt.jobs κ n = some (job.waitingFor req rx)) :
    ∃ rt' rest, s'.node i = .running sh rt' ∧
      rt'.jobs κ n = some (job.waitingFor req (rx ++ rest)) := by
  refine hexec.history (I := fun tr s => (∀ l ∈ tr, l.advances i κ n = false) →
    ∃ rt' rest, s.node i = .running sh rt' ∧
      rt'.jobs κ n = some (job.waitingFor req (rx ++ rest))) ?_ ?_ hidle
  · intro _
    exact ⟨rt, [], hi, by rw [List.append_nil]; exact hjob⟩
  · intro tr s l s' _ ih hstep hidle
    obtain ⟨rt, rest, hi, hjob⟩ := ih fun l hl => hidle l (List.mem_append_left _ hl)
    obtain ⟨rt', job', hi', hjob', hcase⟩ := hstep.thread hi hjob
    have hnot := hidle l (List.mem_append_right _ (List.mem_singleton_self l))
    cases hcase with
    | own hl =>
        rw [Label.advances_eq_true.mpr ⟨_, _, hl⟩] at hnot
        cases hnot
    | other _ hsame =>
        rcases hsame with rfl | ⟨iteration, payload, rfl⟩
        · exact ⟨rt', rest, hi', hjob'⟩
        · rcases (job.waitingFor req (rx ++ rest)).deliver_cases iteration payload with
            heq | ⟨req', hreq', -, heq⟩
          · exact ⟨rt', rest, hi', by rw [hjob', heq]⟩
          · obtain rfl := Option.some.inj hreq'
            refine ⟨rt', rest ++ [payload], hi', ?_⟩
            rw [hjob', heq, ← List.append_assoc]
            rfl

/-- The thread waits, with a reply in its channel or in the hands of the udp
loop. -/
def Answering (rt : Runtime) {κ : RequestKind} (n : Nat) (job : Job κ) (req : Request κ) : Prop :=
  ∃ rx, rt.jobs κ n = some (job.waitingFor req rx) ∧
    (rx = [] → ∃ payload, rt.sending = some ⟨κ, ⟨n, job.results.length⟩, payload⟩)

/-- Once the response is dispatched, there is one for the thread. -/
theorem Net.Run.answered (hrun : net.Run tr s) (hi : s.node i = .running sh rt)
    (hdrawn : rt.tables.drawn ≤ 2 ^ 64) (hjob : rt.jobs κ n = some (job.waitingFor req rx))
    {f : Flight C} {keep : Bool} {env : Env} {did : Activity C}
    (hstep : Step net s (.deliver i f keep env did) s') {q : PeerRuntime} {m : Message}
    (hdid : did.dispatched = some (q, m)) {payload : Payload κ}
    (hans : Answers sh env m κ req.id payload) :
    ∃ rt', s'.node i = .running sh rt' ∧ Answering rt' n job req := by
  cases rx with
  | nil =>
      obtain ⟨rt', hi', hpromised⟩ :=
        hrun.first_response hi hdrawn hjob rfl rfl rfl hstep hdid hans
      exact ⟨rt', hi', [], hpromised.thread, fun _ => ⟨payload, hpromised.sending⟩⟩
  | cons first rest =>
      obtain ⟨rt', more, hi', hjob'⟩ := exec_waitingFor (.single hstep)
        (by intro l hl; rw [List.mem_singleton.mp hl]; rfl) hi hjob
      exact ⟨rt', hi', first :: (rest ++ more), hjob', fun hnil => (by cases hnil)⟩

/-- Until the thread takes a section there stays one for it: the loop sends it,
or it is in the channel. -/
theorem RuntimeStep.answering (hrt : RuntimeStep sh i l rt rt') (h : Answering rt n job req)
    (hidle : l.advances i κ n = false) : Answering rt' n job req := by
  obtain ⟨rx, hjob, hsending⟩ := h
  cases hrt with
  | kept => exact ⟨rx, hjob, hsending⟩
  | opened _ _ hnone =>
      refine ⟨rx, ?_, hsending⟩
      rw [Runtime.setJob_jobs_of_ne]
      · exact hjob
      · rintro rfl rfl
        rw [hjob] at hnone
        cases hnone
  | advanced hl =>
      refine ⟨rx, ?_, hsending⟩
      rw [Runtime.setJob_jobs_of_ne]
      · exact hjob
      · rintro rfl rfl
        rw [Label.advances_eq_true.mpr ⟨_, _, hl⟩] at hidle
        cases hidle
  | answered _ _ _ _ _ _ hnone =>
      -- the loop holds nothing, so the channel does
      refine ⟨rx, hjob, fun hrx => ?_⟩
      obtain ⟨payload, hsending⟩ := hsending hrx
      rw [hnone] at hsending
      cases hsending
  | @replied r _ _ _ hr _ =>
      by_cases hsame : κ = r.kind ∧ n = r.tx.job
      · obtain ⟨rfl, rfl⟩ := hsame
        have hjob' := Runtime.jobs_reply_self { rt with sending := none } hjob r.payload
        by_cases hlen : (job.waitingFor req rx).results.length = r.tx.iteration
        · -- now the channel holds it
          rw [Job.deliver_of_current hlen rfl] at hjob'
          exact ⟨rx ++ [r.payload], hjob', fun hnil => (by simp at hnil)⟩
        · -- a reply for another iteration is not the one for an empty channel
          rw [Job.deliver_of_ne hlen] at hjob'
          refine ⟨rx, hjob', fun hrx => ?_⟩
          obtain ⟨payload, hsending⟩ := hsending hrx
          have heq := Option.some.inj (hr.symm.trans hsending)
          exact absurd (congrArg (fun r => r.tx.iteration) heq).symm hlen
      · refine ⟨rx, ?_, fun hrx => ?_⟩
        · rw [Runtime.jobs_reply_of_ne]
          · exact hjob
          · intro hκ hn
            exact hsame ⟨hκ, hn⟩
        · obtain ⟨payload, hsending⟩ := hsending hrx
          obtain rfl := Option.some.inj (hr.symm.trans hsending)
          exact absurd ⟨rfl, rfl⟩ hsame

/-- What is received first is the answer of the node with the stealth of the
request. -/
theorem Net.Run.first_reports (hb : C.BincodeRoundTrips) (ha : C.IdealAead) (hrun : net.Run tr s)
    (hhonest : Honest tr) (hstealths : s.DistinctStealths) (hi : s.node i = .running sh rt)
    (hdrawn : rt.tables.drawn ≤ 2 ^ 64) {first : Payload κ} {rest : List (Payload κ)}
    (hjob : rt.jobs κ n = some (job.waitingFor req (first :: rest))) {D : ι} {shD : Shared}
    (hD : s.Runs D shD) (htarget : req.target = shD.localStealth) :
    ∃ env t, Reports shD env t κ first := by
  obtain ⟨j, shj, env, t, m₀, head, hj, hhand, -, hkind, hid, -, hstealth, hrep⟩ :=
    (hrun.replied hb ha hhonest hstealths hi).channel κ n _ _ hjob rfl first List.mem_cons_self
  have hissued := ((hrun.threads hi).jobs κ n _ hjob).current _ rfl
  -- the responder handled a request with this id, and there is one ticket for it
  obtain ⟨tr₁, tr₂, f, keep, didj, s₁, rt₁, q, rfl, -, -, -, -, -, ⟨tx, hissued'⟩, -⟩ := hhand
  have hissued' := hissued'.append (.deliver j f keep env didj :: tr₂)
  have heq := (hrun.ids hi hdrawn).unique _ _ hissued hissued' hid.symm
  obtain ⟨-, -, -, hsame⟩ := Ticket.mk.inj heq
  have hsame : req.target = head.target := hsame
  obtain rfl : j = D := hstealths j D shj shD hj hD (by rw [← hstealth, ← hsame, htarget])
  obtain rfl := Option.some.inj (hj.symm.trans hD)
  exact ⟨env, t, hrep⟩

end

/-! ## §4. There and back. -/

/-- The section of a thread that sends its request, where it is sent. -/
theorem Step.requests (hC : C.Total) {n₀ b : ι} {sh₀ : Shared} {rt : Runtime} {κ : RequestKind}
    {n : Nat} {job : Job κ} {req : Request κ} {env : Env} {did : Activity C}
    (hstep : Step net s (.act n₀ (.admin κ n) env did) s₁) (hi : s.node n₀ = .running sh₀ rt)
    (hjob : rt.jobs κ n = some job) (hreq : job.current = some req)
    (hstage : req.stage = .registered) (henv : env.socketAccepts = true)
    (hlink : link net s req.target n₀ = some b) :
    did.effects = (forwardByStealth C sh₀ env req.target
        (requestMessage sh₀ env job.target req.id req.target κ)).effects ∧
      ∃ rt₁, s₁.node n₀ = .running sh₀ rt₁ ∧
        rt₁.jobs κ n = some (job.waitingFor req req.rx) := by
  obtain ⟨sh, p, hsh, hp, -⟩ := link_eq_some_iff.mp hlink
  obtain rfl := Option.some.inj ((State.runs_of_running hi).symm.trans hsh)
  obtain ⟨d, -, hforward⟩ := forwardByStealth_ok hC sh₀ env henv hp
    (requestMessage sh₀ env job.target req.id req.target κ)
  obtain ⟨rt₁, job₁, hi₁, hjob₁, hcase⟩ := hstep.thread hi hjob
  cases hcase with
  | other hother => exact absurd rfl (hother env did)
  | @own env' did' st hl hst hst₁ htables heffects =>
      obtain ⟨-, -, rfl, rfl⟩ := Label.act.inj hl
      cases hst with
      | unresolved _ hnone | drew _ hnone =>
          rw [hreq] at hnone
          cases hnone
      | sent req' stage r hreq' _ hr hnext =>
          obtain rfl := Option.some.inj (hreq.symm.trans hreq')
          refine ⟨by rw [heffects, hr], rt₁, hi₁, ?_⟩
          rcases hnext with ⟨-, rfl⟩ | ⟨e, hfailed, -⟩
          · rw [hjob₁, hst₁]
            rfl
          · rw [hr, hforward] at hfailed
            cases hfailed
      | registered req' hreq' hstage' | timedOut req' hreq' hstage'
        | received req' _ _ hreq' hstage' | cleaned req' _ hreq' hstage' =>
          obtain rfl := Option.some.inj (hreq.symm.trans hreq')
          rw [hstage] at hstage'
          cases hstage'

/-- Where nothing that descends from the request is lost: a response to a request
that is sent, to a node within 16 hops there and back, is dispatched by the node
that sent it. -/
theorem Step.request_returns (hb : C.BincodeRoundTrips) (ha : C.IdealAead) (hC : C.Total)
    (hstealths : s.DistinctStealths) {post : List (Label C ι)} {s₂ : State C ι} {n₀ D : ι}
    {sh₀ shD : Shared} {rt : Runtime} {κ : RequestKind} {n : Nat} {job : Job κ} {req : Request κ}
    {env : Env} {did : Activity C} (hstep : Step net s (.act n₀ (.admin κ n) env did) s₁)
    (hi : s.node n₀ = .running sh₀ rt)
    (heff : did.effects = (forwardByStealth C sh₀ env req.target
      (requestMessage sh₀ env job.target req.id req.target κ)).effects)
    (henv : env.socketAccepts = true) (hpost : Lib.Exec (Step net) s₁ post s₂)
    (hcomp : Completes s.clock post s₂) (hD : s.Runs D shD)
    (htarget : shD.localStealth = req.target) {k k' : Nat}
    (hto : FirstArrival (link net s req.target) n₀ D k) (hk16 : k ≤ 16)
    (hback : FirstArrival (link net s sh₀.localStealth) D n₀ k') (hk16' : k' ≤ 16) :
    ∃ mid last v₁ v₂ g keep env' did' q m payload,
      post = mid ++ .deliver n₀ g keep env' did' :: last ∧ Lib.Exec (Step net) s₁ mid v₁ ∧
      Step net v₁ (.deliver n₀ g keep env' did') v₂ ∧ Lib.Exec (Step net) v₂ last s₂ ∧
      did'.dispatched = some (q, m) ∧ Answers sh₀ env' m κ req.id payload := by
  have h₀ := State.runs_of_running hi
  -- the request arrives
  obtain ⟨hhead, httl⟩ := requestMessage_head sh₀ env job.target req.id req.target κ
  obtain ⟨haddr, hmin⟩ := Message.request_addressed hhead
  obtain ⟨ttl, hne, g, keep, envD, didD, sh, rtD, q, hmem, hgn, hsh, hdidD⟩ :=
    hstep.arrives hb ha hC hstealths ⟨[], .refl⟩ (Label.does_act ..) h₀ hD henv heff haddr hmin
      httl htarget hk16 hto (Label.clock_mem_trail _ _) hpost hcomp
  obtain rfl := Option.some.inj (hsh.symm.trans hD)
  -- the node it is for responds
  obtain ⟨tr₁, tr₂, rfl⟩ := List.append_of_mem hmem
  obtain ⟨u₁, u₂, hexec₁, hstepD, hexec₂⟩ := hpost.split_cons
  obtain ⟨m', hresp⟩ := exists_respondsTo (m := (requestMessage sh₀ env job.target req.id req.target
      κ).withTtl ttl) envD rtD.tables (by rw [Message.request_withTtl]; exact hhead)
    (by rw [Message.ttl_withTtl haddr]; exact hne) htarget.symm
  obtain ⟨haddr', hmin', httl'⟩ := hresp.addressed
  have henvD : envD.socketAccepts = true :=
    hcomp.accepts D g keep envD didD (List.mem_append_right _ List.mem_cons_self) hgn
  have heffD : didD.effects = (forwardByStealth C sh envD sh₀.localStealth m').effects := by
    rw [hdidD]
    exact hresp.effects_eq q
  -- the response arrives back
  have hlater : Lib.Exec (Step net) s (.act n₀ (.admin κ n) env did :: tr₁) u₁ :=
    (Lib.Exec.single hstep).append hexec₁
  obtain ⟨ttl', hne', g', keep', env', did', sh', rtu', q', hmem', -, hsh', hdid'⟩ :=
    hstepD.arrives hb ha hC hstealths ⟨_, hlater⟩ (Label.does_deliver ..) hD h₀ henvD heffD haddr'
      hmin' httl' rfl hk16' hback (List.mem_cons_of_mem _ hgn) hexec₂
      (hcomp.of_subset fun l hl => List.mem_append_right _ (List.mem_cons_of_mem _ hl))
  obtain rfl := Option.some.inj (hsh'.symm.trans h₀)
  obtain ⟨payload, hans⟩ := hresp.answers rfl hne' env'
  obtain ⟨tr₃, tr₄, rfl⟩ := List.append_of_mem hmem'
  obtain ⟨v₁, v₂, hexec₃, hstep', hexec₄⟩ := hexec₂.split_cons
  refine ⟨tr₁ ++ .deliver D g keep envD didD :: tr₃, tr₄, v₁, v₂, g', keep', env', did', q', _,
    payload, ?_, hexec₁.append ((Lib.Exec.single hstepD).append hexec₃), hstep', hexec₄,
    by rw [hdid'], hans⟩
  rw [List.append_assoc, List.cons_append]

/-- In an honest network of mutual peers: a thread that has sent its request,
where the next hops lead to the target and back within 16 hops each, where
nothing that descends from the request is lost and all of it has been delivered,
and which takes no section meanwhile, holds the answer of the node it asked once
the udp loop has sent what it dispatched, and its next section takes this answer
as the result. -/
theorem Net.Run.request_completes (hb : C.BincodeRoundTrips) (ha : C.IdealAead)
    (hk : C.KeyAgreement) (hC : C.Total) {pre post : List (Label C ι)} {s₂ : State C ι}
    (hrun : net.Run pre s) (hpeers : MutualPeers C net s) {n₀ D : ι} {sh₀ shD : Shared}
    {rt rt' : Runtime} {κ : RequestKind} {n : Nat} {job : Job κ} {req : Request κ} {env : Env}
    {did : Activity C} (hstep : Step net s (.act n₀ (.admin κ n) env did) s₁)
    (hi : s.node n₀ = .running sh₀ rt) (hjob : rt.jobs κ n = some job)
    (hreq : job.current = some req) (hstage : req.stage = .registered)
    (henv : env.socketAccepts = true) (hpost : Lib.Exec (Step net) s₁ post s₂)
    (hhonest : Honest (pre ++ .act n₀ (.admin κ n) env did :: post))
    (hcomp : Completes s.clock post s₂) (hidle : ∀ l ∈ post, l.advances n₀ κ n = false)
    (hD : s.Runs D shD) (htarget : shD.localStealth = req.target) {k k' : Nat}
    (hto : FirstArrival (hop net s req.target) n₀ D k) (hk16 : k ≤ 16)
    (hback : FirstArrival (hop net s sh₀.localStealth) D n₀ k') (hk16' : k' ≤ 16)
    (hi' : s₂.node n₀ = .running sh₀ rt') (hsent : rt'.sending = none)
    (hdrawn : rt'.tables.drawn ≤ 2 ^ 64) :
    ∃ first rest envD t, rt'.jobs κ n = some (job.waitingFor req (first :: rest)) ∧
      Reports shD envD t κ first ∧
      ∀ env' tx t', (job.waitingFor req (first :: rest)).advance C sh₀ env' tx t'
        = some ⟨(job.waitingFor req (first :: rest)).push (some req.id) (.received env' κ first), t',
            [], none⟩ := by
  rw [← hpeers.link_eq_hop hk hrun] at hto hback
  -- the request is sent, and its response comes back
  obtain ⟨b, hlink⟩ := hto.exists_next
  obtain ⟨heff, rt₁, hi₁, hjob₁⟩ := hstep.requests hC hi hjob hreq hstage henv hlink
  obtain ⟨mid, last, v₁, v₂, g, keep, env', did', q, m, payload, rfl, hmid, hstep', hlast, hdid,
    hans⟩ := hstep.request_returns hb ha hC hpeers.stealths hi heff henv hpost hcomp hD htarget hto
      hk16 hback hk16'
  -- there the thread still waits
  obtain ⟨rtv, rx, hiv, hjobv⟩ :=
    exec_waitingFor hmid (fun l hl => hidle l (List.mem_append_left _ hl)) hi₁ hjob₁
  have hrunv : net.Run (pre ++ .act n₀ (.admin κ n) env did :: mid) v₁ :=
    hrun.append ((Lib.Exec.single hstep).append hmid)
  have hdrawnv : rtv.tables.drawn ≤ 2 ^ 64 :=
    Nat.le_trans (exec_drawn_le ((Lib.Exec.single hstep').append hlast) hiv hi') hdrawn
  obtain ⟨rtw, hiw, hw⟩ := hrunv.answered hiv hdrawnv hjobv hstep' hdid hans
  -- and the answer gets into its channel
  obtain ⟨rx, hjob', hrx⟩ := exec_runtime hlast hiw hi' (P := fun rt => Answering rt n job req)
    (fun l hl _ _ hrt h => hrt.answering h
      (hidle l (List.mem_append_right _ (List.mem_cons_of_mem _ hl)))) hw
  obtain ⟨first, rest, rfl⟩ : ∃ first rest, rx = first :: rest := by
    cases rx with
    | nil =>
        obtain ⟨payload', hsending⟩ := hrx rfl
        rw [hsent] at hsending
        cases hsending
    | cons first rest => exact ⟨first, rest, rfl⟩
  have hall := (Lib.Exec.single hstep).append hpost
  obtain ⟨envR, t, hreports⟩ := Net.Run.first_reports hb ha (hrun.append hall) hhonest
    (hpeers.later hall).stealths hi' hdrawn hjob' (exec_shared hall hD) htarget.symm
  refine ⟨first, rest, envR, t, hjob', hreports, ?_⟩
  intro env'' tx t'
  rfl

/-! ## §5. Networks of at most 16 nodes. -/

omit [DecidableEq ι] in
/-- The stealth that `n₀` looks up for `a` is that of `D`, and its next hops
lead to `D`, after however many hops. -/
def Leads (net : Net ι) (s : State C ι) (n₀ : ι) (sh₀ : Shared) (D : ι) (shD : Shared)
    (a : IpAddr) : Prop :=
  ∃ route k, sh₀.routing.lookup a = some route ∧ route.stealth = shD.localStealth ∧ 1 ≤ k ∧
    walk (hop net s route.stealth) k n₀ = some D

omit [DecidableEq ι] in
/-- No path is longer than there are nodes. -/
theorem reaches_iff_leads [Fintype ι] (hcard : Fintype.card ι ≤ 16) {n₀ D : ι} {sh₀ shD : Shared}
    {a : IpAddr} : Reaches net s n₀ sh₀ D shD a ↔ Leads net s n₀ sh₀ D shD a := by
  constructor
  · intro h
    obtain ⟨route, k, hroute, hstealth, -, harr⟩ := h
    exact ⟨route, k, hroute, hstealth, harr.pos, harr.arrives⟩
  · intro h
    obtain ⟨route, k, hroute, hstealth, hpos, hwalk⟩ := h
    obtain ⟨k', harr⟩ := Lib.exists_firstArrival hpos hwalk
    exact ⟨route, k', hroute, hstealth, Nat.le_trans harr.le_card hcard, harr⟩

/-- Among at most 16 nodes the ttl decides nothing: a ping is answered, and a
packet written, by the node its next hops lead to, however they lead there. -/
theorem ttl_suffices [Fintype ι] (hcard : Fintype.card ι ≤ 16) (hb : C.BincodeRoundTrips)
    (ha : C.IdealAead) (hk : C.KeyAgreement) (hC : C.Total) {pre : List (Label C ι)}
    (hrun : net.Run pre s) (hpeers : MutualPeers C net s) {n₀ D : ι} {sh₀ shD : Shared}
    (h₀ : s.Runs n₀ sh₀) (hD : s.Runs D shD) {a : IpAddr} :
    (∀ n post s', PingSent net s n₀ a n post s' → Completes n post s' →
      (PingHandled post n D shD ↔ Leads net s n₀ sh₀ D shD a)) ∧
    (a.isMulticast = false → shD.tun.isSome = true →
      (∀ i sh, s.Runs i sh → i ≠ D → sh.routing.ownsIp a = false) →
      ∀ packet n post s', PacketRead net s n₀ a packet n post s' → Completes n post s' →
        (DataWritten post n D shD packet ↔ Leads net s n₀ sh₀ D shD a)) := by
  rw [← reaches_iff_leads hcard]
  constructor
  · intro n post s' hsent hcomp
    exact ping_handled_iff hb ha hk hC hrun hpeers h₀ hD hsent hcomp
  · intro hcast htun howner packet n post s' hread hcomp
    exact data_written_iff hb ha hk hC hrun hpeers h₀ hD hcast howner htun hread hcomp

end

namespace Line

/-- A ping that is about to be sent to the node at the end. -/
def readyFor (job : Job .ping) : Bool :=
  job.current.any fun req => decide (req.stage = .registered) && req.target == stealth 2

/-- A ping goes there and back while its thread waits, evaluated at once. -/
theorem roundTrip_computed : (started.run net Env.at asking).any (fun r =>
    ((r.2.node 0).held.any fun (h : Shared × Runtime) => (h.2.jobs .ping 0).any readyFor) &&
    decide (hop net r.2.state (stealth 2) 0 = some 1 ∧ hop net r.2.state (stealth 2) 1 = some 2 ∧
      hop net r.2.state (stealth 0) 2 = some 1 ∧ hop net r.2.state (stealth 0) 1 = some 0) &&
    (r.2.step net Env.at (.act 0 (.admin .ping 0))).any fun r₁ =>
      (r₁.2.run net Env.at answering.tail.dropLast).any fun r₂ =>
        decide (LossFree r₂.1) && r₂.2.inflight.isEmpty &&
        r₂.1.all (fun l => !l.advances 0 .ping 0) &&
        (r₂.2.node 0).held.any fun (h : Shared × Runtime) =>
          h.2.sending.isNone && decide (h.2.tables.drawn ≤ 2 ^ 64)) = true := by
  decide +kernel

/-- Back at its thread is the answer of the node at the end. -/
theorem ping_completes : ∃ (tr : List (Label Crates.ideal (Fin 3)))
    (s : State Crates.ideal (Fin 3)) (sh : Shared) (rt : Runtime) (job : Job .ping)
    (first : PingResult), net.Run tr s ∧ s.node 0 = .running sh rt ∧ rt.jobs .ping 0 = some job ∧
    first.responderStealth = some (stealth 2) ∧
    ∃ st, job.advance Crates.ideal sh (Env.at 0) ⟨0, 0⟩ rt.tables = some st ∧
      st.job.results.map Prod.snd
        = job.results.map Prod.snd ++ [Answer.received (Env.at 0) .ping first] := by
  obtain ⟨tr₀, hrun₀, hhonest₀⟩ := run_started
  obtain ⟨⟨mid, s⟩, hmid, hcheck⟩ := (Option.any_eq_true _ _).mp roundTrip_computed
  obtain ⟨hready, hcheck⟩ := Bool.and_eq_true_iff.mp hcheck
  obtain ⟨hready, hhops⟩ := Bool.and_eq_true_iff.mp hready
  obtain ⟨⟨sh, rt⟩, hheld, hready⟩ := (Option.any_eq_true _ _).mp hready
  obtain ⟨job, hjob, hready⟩ := (Option.any_eq_true _ _).mp hready
  obtain ⟨req, hreq, hready⟩ := (Option.any_eq_true _ _).mp hready
  obtain ⟨hstage, htarget⟩ := Bool.and_eq_true_iff.mp hready
  obtain ⟨h01, h12, h21, h10⟩ := of_decide_eq_true hhops
  obtain ⟨⟨l, s₁⟩, hstep, hcheck⟩ := (Option.any_eq_true _ _).mp hcheck
  obtain ⟨⟨post, s₂⟩, hpost, hcheck⟩ := (Option.any_eq_true _ _).mp hcheck
  obtain ⟨hcheck, hheld'⟩ := Bool.and_eq_true_iff.mp hcheck
  obtain ⟨hcheck, hidle⟩ := Bool.and_eq_true_iff.mp hcheck
  obtain ⟨hloss, hempty⟩ := Bool.and_eq_true_iff.mp hcheck
  obtain ⟨⟨sh', rt'⟩, hheld', hheld''⟩ := (Option.any_eq_true _ _).mp hheld'
  obtain ⟨hsent, hdrawn⟩ := Bool.and_eq_true_iff.mp hheld''
  obtain ⟨did, rfl⟩ := Sim.step_act hstep
  have hexec := Sim.run_sound hmid
  have hsound := Sim.step_sound hstep
  have hafter := Sim.run_sound hpost
  have hrun : net.Run (tr₀ ++ mid) s.state := hrun₀.append hexec
  have hi : s.state.node 0 = .running sh rt := Sim.running_iff.mpr hheld
  have hi' : s₂.state.node 0 = .running sh' rt' := Sim.running_iff.mpr hheld'
  have hlater := (Lib.Exec.single hsound).append hafter
  have hsame := exec_shared hlater (State.runs_of_running hi)
  obtain rfl := Option.some.inj (hsame.symm.trans (State.runs_of_running hi'))
  obtain ⟨sh₀, h₀, hstealth₀⟩ := runs hexec 0
  obtain rfl := Option.some.inj (h₀.symm.trans (State.runs_of_running hi))
  obtain ⟨shD, hD, hstealthD⟩ := runs hexec 2
  have htarget : req.target = stealth 2 := beq_iff_eq.mp htarget
  have hhonest : Honest ((tr₀ ++ mid) ++ .act 0 (.admin .ping 0) (Env.at s.clock) did :: post) := by
    refine (hhonest₀.append (Sim.run_honest (by simp [asking]) hmid)).append ?_
    intro l' hl'
    rcases List.mem_cons.mp hl' with rfl | hl'
    · intro i packet env' did' heq
      cases heq
    · exact Sim.run_honest (by simp [answering]) hpost l' hl'
  have hcomp : Completes s.state.clock post s₂.state :=
    .of_lossFree (of_decide_eq_true hloss) (congrArg Multiset.ofList (List.isEmpty_iff.mp hempty))
  have hidle' : ∀ l ∈ post, l.advances 0 .ping 0 = false := by
    intro l' hl'
    have h := List.all_eq_true.mp hidle l' hl'
    rwa [Bool.not_eq_true'] at h
  obtain ⟨first, rest, envD, t, hjob', hreports, hnext⟩ :=
    Net.Run.request_completes Crates.bincodeRoundTrips_ideal Crates.idealAead_ideal
      Crates.keyAgreement_ideal Crates.total_ideal hrun (mutualPeers.later hexec) hsound hi hjob hreq
      (of_decide_eq_true hstage) rfl hafter hhonest hcomp hidle' hD (hstealthD.trans htarget.symm)
      (by rw [htarget]; exact firstArrival_succ.mpr ⟨1, h01, by decide, firstArrival_one.mpr h12⟩)
      (by decide : 2 ≤ 16)
      (by rw [hstealth₀]; exact firstArrival_succ.mpr ⟨1, h21, by decide, firstArrival_one.mpr h10⟩)
      (by decide : 2 ≤ 16) hi' (Option.isNone_iff_eq_none.mp hsent) (of_decide_eq_true hdrawn)
  refine ⟨_, s₂.state, _, rt', _, first, hrun.append hlater, hi', hjob',
    hreports.trans (congrArg some hstealthD), _, hnext (Env.at 0) ⟨0, 0⟩ rt'.tables, ?_⟩
  exact List.map_append ..

/-- A ping and a packet get to the end of the line. -/
theorem ttl_suffices_for_three : ∃ n post s n' post' s' shD,
    PingSent net started.state 0 target n post s ∧ PingHandled post n 2 shD ∧
    PacketRead net started.state 0 target packet n' post' s' ∧
    DataWritten post' n' 2 shD packet := by
  obtain ⟨tr, hrun, -⟩ := run_started
  obtain ⟨sh₀, h₀, -⟩ := runs_started 0
  obtain ⟨shD, hD, -⟩ := runs_started 2
  obtain ⟨-, -, -, hnotOwned, hhasTun⟩ := routes_computed
  have howner : ∀ i sh, started.state.Runs i sh → i ≠ 2 → sh.routing.ownsIp target = false := by
    intro i sh hi hne
    have hall := hnotOwned i hne
    rw [Sim.runs_iff.mp hi] at hall
    simpa using hall
  have htun : shD.tun.isSome = true := by
    rwa [Sim.runs_iff.mp hD] at hhasTun
  have hleads := (reaches_iff_leads (by decide)).mp (reaches h₀ hD)
  obtain ⟨hping, hdata⟩ := ttl_suffices (by decide) Crates.bincodeRoundTrips_ideal
    Crates.idealAead_ideal Crates.keyAgreement_ideal Crates.total_ideal hrun mutualPeers h₀ hD
    (a := target)
  obtain ⟨n, post, s, hsent, hcomp⟩ := ping_sent
  obtain ⟨n', post', s', hread, hcomp'⟩ := packet_read
  exact ⟨n, post, s, n', post', s', shD, hsent, (hping n post s hsent hcomp).mpr hleads, hread,
    (hdata (by decide) htun howner packet n' post' s' hread hcomp').mpr hleads⟩

end Line

end StealthNet
