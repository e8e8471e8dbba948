/-
  StealthNet.Network.Correlation
  ──────────────────────────────
  A RESPONSE COMPLETES THE REQUEST IT ANSWERS.

  The handler matches responses by id alone and never looks at the responder.
  What makes this right is kept as an invariant of everything in flight: a
  request on the wire was drawn and sent by the node whose stealth it carries,
  and a response on the wire was made, after that, by the node the request is
  for (`Net.Run.onWire`).  A payload in a channel, and then a result, has the
  same origin (`Net.Run.replied`).

    §1  requests and responses;
    §2  the invariant of the wire;
    §3  the invariant of channels and results;
    §4  the first response completes.
-/
import StealthNet.Network.Requests
import StealthNet.Network.Simulator

namespace StealthNet

variable {C : Crates} {ι : Type}

/-! ## §1. Requests and responses. -/

/-- What a request says of itself. -/
structure Head where
  kind : RequestKind
  id : UInt64
  src : String
  target : String
  deriving DecidableEq

/-- The head of a request. -/
def Message.request : Message → Option Head
  | .pingReq ping => some ⟨.ping, ping.requestId, ping.srcStealth, ping.targetStealth⟩
  | .publicClientsReq req => some ⟨.clients, req.requestId, req.srcStealth, req.targetStealth⟩
  | _ => none

/-- The message answers a request. -/
def Message.isResponse : Message → Bool
  | .pingResp _ | .publicClientsResp _ => true
  | _ => false

@[simp] theorem Message.request_withTtl (m : Message) (ttl : UInt8) :
    (m.withTtl ttl).request = m.request := by
  cases m <;> rfl

@[simp] theorem Message.isResponse_withTtl (m : Message) (ttl : UInt8) :
    (m.withTtl ttl).isResponse = m.isResponse := by
  cases m <;> rfl

/-- The response of a node to a request it handles as addressed to itself. -/
def respond (sh : Shared) (env : Env) (t : Tables) : Message → Option Message
  | .pingReq ping =>
      if ping.ttl ≠ 0 ∧ ping.targetStealth = sh.localStealth then
        some (.pingResp (pingResponse sh ping))
      else none
  | .publicClientsReq req =>
      if req.ttl ≠ 0 ∧ req.targetStealth = sh.localStealth then
        some (.publicClientsResp (clientsResponse sh env t req))
      else none
  | _ => none

/-- What the response of a node says, as a payload. -/
def Reports (sh : Shared) (env : Env) (t : Tables) : (κ : RequestKind) → Payload κ → Prop
  | .ping, result => PingResult.responderStealth result = some sh.localStealth
  | .clients, payload => payload = (sh.localStealth, publishedClients sh env t)

theorem respond_request {sh : Shared} {env : Env} {t : Tables} {m m' : Message}
    (h : respond sh env t m = some m') :
    ∃ head, m.request = some head ∧ head.target = sh.localStealth ∧ m.ttl ≠ 0 := by
  cases m with
  | pingReq ping | publicClientsReq req =>
      simp only [respond] at h
      split at h
      · rename_i hself
        exact ⟨_, rfl, hself.2, hself.1⟩
      · cases h
  | _ => cases h

/-- A node relays a message, responds to a request, or sends what is neither
request nor response. -/
theorem Emits.response_cases {sh : Shared} {env : Env} {t : Tables} {peer p : PeerRuntime}
    {m m' : Message} (h : Emits sh env t peer m p m') :
    (∃ ttl, m' = m.withTtl ttl) ∨ respond sh env t m = some m' ∧ m'.request = none ∨
      m'.request = none ∧ m'.isResponse = false := by
  cases h with
  | granted | acknowledged => exact Or.inr (Or.inr ⟨rfl, rfl⟩)
  | ponged httl htarget _ | published httl htarget _ =>
      exact Or.inr (Or.inl ⟨by simp [respond, httl, htarget], rfl⟩)
  | relayed => exact Or.inl ⟨_, rfl⟩

/-- By itself, a node sends no response, and a request for a thread only. -/
theorem Originates.request_cases {sh : Shared} {rt : Runtime} {env : Env} {ev : LocalEvent}
    {p : PeerRuntime} {m : Message} (h : Originates sh rt env ev p m) :
    m.isResponse = false ∧ ∀ head, m.request = some head →
      ∃ (n : Nat) (job : Job head.kind) (req : Request head.kind),
        rt.jobs head.kind n = some job ∧ job.current = some req ∧ req.id = head.id ∧
        req.target = head.target ∧ head.src = sh.localStealth := by
  cases h with
  | encapsulated | kept | registers => exact ⟨rfl, fun head h => (by cases h)⟩
  | @requested κ n job req _ hjob hreq =>
      cases κ <;>
      · refine ⟨rfl, fun head h => ?_⟩
        obtain rfl := Option.some.inj h
        exact ⟨n, job, req, hjob, hreq, rfl, rfl, rfl⟩

/-- The payload of a response says what its responder made it say, to the
origin and under the id of the request. -/
theorem Answers.reports {sh shj : Shared} {env envj : Env} {t : Tables} {m m₀ m₁ : Message}
    {κ : RequestKind} {id : UInt64} {payload : Payload κ} {ttl : UInt8} {head : Head}
    (hans : Answers sh env m κ id payload) (hresp : respond shj envj t m₀ = some m₁)
    (hm : m = m₁.withTtl ttl) (hhead : m₀.request = some head) :
    head.kind = κ ∧ head.id = id ∧ head.src = sh.localStealth ∧ Reports shj envj t κ payload := by
  subst hm
  cases m₀ with
  | pingReq ping =>
      simp only [respond] at hresp
      split at hresp
      · obtain rfl := Option.some.inj hresp
        obtain rfl := Option.some.inj hhead
        generalize hm : (Message.pingResp (pingResponse shj ping)).withTtl ttl = m at hans
        cases hans with
        | ping _ hdst =>
            obtain rfl := Message.pingResp.inj hm
            exact ⟨rfl, rfl, hdst, rfl⟩
        | clients => cases hm
      · cases hresp
  | publicClientsReq req =>
      simp only [respond] at hresp
      split at hresp
      · obtain rfl := Option.some.inj hresp
        obtain rfl := Option.some.inj hhead
        generalize hm : (Message.publicClientsResp (clientsResponse shj envj t req)).withTtl ttl = m
          at hans
        cases hans with
        | ping => cases hm
        | clients _ hdst =>
            obtain rfl := Message.publicClientsResp.inj hm
            exact ⟨rfl, rfl, hdst, rfl⟩
      · cases hresp
  | _ => cases hresp

/-! ## §2. The wire. -/

/-- Node `i` drew the id of a request and sent it. -/
def Requested (tr : List (Label C ι)) (i : ι) (head : Head) : Prop :=
  (∃ tx, Issued tr i ⟨head.kind, head.id, tx, head.target⟩) ∧
    ∃ call, Called tr i call ∧ call.msg.request = some head

theorem Called.snoc {tr : List (Label C ι)} {i : ι} {call : SendCall C} (h : Called tr i call)
    (l : Label C ι) : Called (tr ++ [l]) i call := by
  obtain ⟨l', hl', hdid⟩ := h
  exact ⟨l', List.mem_append_left _ hl', hdid⟩

theorem Requested.snoc {tr : List (Label C ι)} {i : ι} {head : Head} (h : Requested tr i head)
    (l : Label C ι) : Requested (tr ++ [l]) i head := by
  obtain ⟨⟨tx, hissued⟩, call, hcall, hmsg⟩ := h
  exact ⟨⟨tx, hissued.snoc _⟩, call, hcall.snoc l, hmsg⟩

section

variable [DecidableEq ι] {net : Net ι}

/-- In a step of `tr` node `j`, with the tables `t`, dispatched the request
`m₀`, which node `i` had sent before. -/
def Handling (net : Net ι) (tr : List (Label C ι)) (i j : ι) (sh : Shared) (env : Env) (t : Tables)
    (m₀ : Message) (head : Head) : Prop :=
  ∃ tr₁ tr₂ f keep did s₁ rt q, tr = tr₁ ++ .deliver j f keep env did :: tr₂ ∧ net.Run tr₁ s₁ ∧
    s₁.node j = .running sh rt ∧ t = rt.tables ∧ did.dispatched = some (q, m₀) ∧
    m₀.request = some head ∧ Requested tr₁ i head

theorem Handling.snoc {tr : List (Label C ι)} {i j : ι} {sh : Shared} {env : Env} {t : Tables}
    {m₀ : Message} {head : Head} (h : Handling net tr i j sh env t m₀ head) (l : Label C ι) :
    Handling net (tr ++ [l]) i j sh env t m₀ head := by
  obtain ⟨tr₁, tr₂, f, keep, did, s₁, rt, q, rfl, h⟩ := h
  exact ⟨tr₁, tr₂ ++ [l], f, keep, did, s₁, rt, q, by simp, h⟩

/-- Where the requests and responses in flight come from. -/
structure OnWire (net : Net ι) (tr : List (Label C ι)) (s : State C ι) (m : Message) : Prop where
  request : ∀ head, m.request = some head →
    ∃ i sh, s.Runs i sh ∧ head.src = sh.localStealth ∧ Requested tr i head
  response : m.isResponse = true → ∃ i shi j shj env t m₀ head m₁, s.Runs i shi ∧
    head.src = shi.localStealth ∧ s.Runs j shj ∧ Handling net tr i j shj env t m₀ head ∧
    respond shj env t m₀ = some m₁ ∧ m = m₁.withTtl m.ttl

theorem OnWire.snoc {tr : List (Label C ι)} {s s' : State C ι} {l : Label C ι} {m : Message}
    (h : OnWire net tr s m) (hstep : Step net s l s') : OnWire net (tr ++ [l]) s' m := by
  refine ⟨fun head hhead => ?_, fun hresp => ?_⟩
  · obtain ⟨i, sh, hi, hsrc, hreq⟩ := h.request head hhead
    exact ⟨i, sh, hstep.shared hi, hsrc, hreq.snoc l⟩
  · obtain ⟨i, shi, j, shj, env, t, m₀, head, m₁, hi, hsrc, hj, hhand, hrest⟩ := h.response hresp
    exact ⟨i, shi, j, shj, env, t, m₀, head, m₁, hstep.shared hi, hsrc, hstep.shared hj,
      hhand.snoc l, hrest⟩

theorem Net.Run.onWire (hb : C.BincodeRoundTrips) (ha : C.IdealAead) {tr : List (Label C ι)}
    {s : State C ι} (hrun : net.Run tr s) (hhonest : Honest tr) :
    ∀ f ∈ s.inflight, OnWire net tr s f.msg := by
  refine hrun.wire hb ha (P := OnWire net) (fun tr s l s' m hstep h => h.snoc hstep) ?_ ?_ ?_
    hhonest
  · exact fun tr s req => ⟨fun head h => (by cases h), fun h => (by cases h)⟩
  · -- a node sends a request of one of its threads
    intro tr s s' i ev env did sh rt p m hrun hstep hi horig hcall
    obtain ⟨hresp, hreq⟩ := horig.request_cases
    refine ⟨fun head hhead => ?_, fun h => (by rw [hresp] at h; cases h)⟩
    obtain ⟨n, job, req, hjob, hcurrent, hid, htarget, hsrc⟩ := hreq head hhead
    have hissued := ((hrun.threads hi).jobs _ n job hjob).current req hcurrent
    rw [hid, htarget] at hissued
    obtain ⟨call, hmem, hmsg⟩ := hcall
    refine ⟨i, sh, hstep.shared (by rw [hi]; rfl), hsrc,
      ⟨⟨_, hissued.snoc _⟩, call, ?_, by rw [hmsg, hhead]⟩⟩
    exact ⟨_, List.mem_append_right _ (List.mem_singleton_self _), did, Label.does_act .., hmem⟩
  · -- a node relays, responds, or sends something else
    intro tr s s' j f keep env did sh rt peer p m' hrun hstep hj ih hdid hemit
    rcases hemit.response_cases with ⟨ttl, rfl⟩ | ⟨hrespond, hnone⟩ | ⟨hnone, hresp⟩
    · have hlater := ih.snoc hstep
      refine ⟨fun head hhead => hlater.request head (by simpa using hhead), fun hresp => ?_⟩
      obtain ⟨i, shi, j', shj, env', t, m₀, head, m₁, hi, hsrc, hj', hhand, hrespond, hm⟩ :=
        hlater.response (by simpa using hresp)
      have hm₁ : f.msg.withTtl ttl = m₁.withTtl ttl := by rw [hm, Message.withTtl_withTtl]
      refine ⟨i, shi, j', shj, env', t, m₀, head, m₁, hi, hsrc, hj', hhand, hrespond, ?_⟩
      have hself := Message.withTtl_ttl (m₁.withTtl ttl)
      rw [Message.withTtl_withTtl] at hself
      rw [hm₁, hself]
    · obtain ⟨head, hhead, htarget, httl⟩ := respond_request hrespond
      obtain ⟨i, shi, hi, hsrc, hreq⟩ := ih.request head hhead
      refine ⟨fun head' h => (by rw [hnone] at h; cases h), fun _ => ?_⟩
      exact ⟨i, shi, j, sh, env, rt.tables, f.msg, head, m', hstep.shared hi, hsrc,
        hstep.shared (by rw [hj]; rfl),
        ⟨tr, [], f, keep, did, s, rt, peer, rfl, hrun, hj, rfl, hdid, hhead, hreq⟩, hrespond,
        (Message.withTtl_ttl m').symm⟩
    · exact ⟨fun head h => (by rw [hnone] at h; cases h), fun h => (by rw [hresp] at h; cases h)⟩

/-! ## §3. Channels and results. -/

/-- A result that reports a response. -/
def Answer.positive : (κ : RequestKind) → Answer κ → Bool
  | .ping, result => PingResult.ok result
  | .clients, .clientsResult _ _ => true
  | .clients, _ => false

theorem Answer.not_positive_unresolved (target error : String) (κ : RequestKind) :
    Answer.positive κ (.unresolved target error κ) = false := by
  cases κ <;> rfl

theorem Answer.not_positive_failed (target error : String) (κ : RequestKind) :
    Answer.positive κ (.failed target error κ) = false := by
  cases κ <;> rfl

/-- A payload for the request `id` of node `i`: the node the request is for
made it on handling that request. -/
def Replied (net : Net ι) (tr : List (Label C ι)) (s : State C ι) (i : ι) (sh : Shared)
    (κ : RequestKind) (id : UInt64) (payload : Payload κ) : Prop :=
  ∃ j shj env t m₀ head, s.Runs j shj ∧ Handling net tr i j shj env t m₀ head ∧ m₀.ttl ≠ 0 ∧
    head.kind = κ ∧ head.id = id ∧ head.src = sh.localStealth ∧ head.target = shj.localStealth ∧
    Reports shj env t κ payload

/-- The result `k` of thread `n` is a payload that its channel held when the
thread took this step. -/
def Completed (net : Net ι) (tr : List (Label C ι)) (s : State C ι) (i : ι) (sh : Shared)
    (κ : RequestKind) (n k : Nat) (id : Option UInt64) (answer : Answer κ) : Prop :=
  ∃ tr₀ tr₃ env did s₀ rt₀ job₀ reqId payload, tr = tr₀ ++ .act i (.admin κ n) env did :: tr₃ ∧
    net.Run tr₀ s₀ ∧ s₀.node i = .running sh rt₀ ∧ rt₀.jobs κ n = some job₀ ∧
    job₀.results.length = k ∧ id = some reqId ∧ answer = .received env κ payload ∧
    Replied net tr₀ s i sh κ reqId payload

theorem Replied.later {tr : List (Label C ι)} {s s' : State C ι} {l : Label C ι} {i : ι}
    {sh : Shared} {κ : RequestKind} {id : UInt64} {payload : Payload κ}
    (h : Replied net tr s i sh κ id payload) (hstep : Step net s l s') :
    Replied net tr s' i sh κ id payload ∧ Replied net (tr ++ [l]) s' i sh κ id payload := by
  obtain ⟨j, shj, env, t, m₀, head, hj, hhand, hrest⟩ := h
  exact ⟨⟨j, shj, env, t, m₀, head, hstep.shared hj, hhand, hrest⟩,
    ⟨j, shj, env, t, m₀, head, hstep.shared hj, hhand.snoc l, hrest⟩⟩

theorem Completed.later {tr : List (Label C ι)} {s s' : State C ι} {l : Label C ι} {i : ι}
    {sh : Shared} {κ : RequestKind} {n k : Nat} {id : Option UInt64} {answer : Answer κ}
    (h : Completed net tr s i sh κ n k id answer) (hstep : Step net s l s') :
    Completed net (tr ++ [l]) s' i sh κ n k id answer := by
  obtain ⟨tr₀, tr₃, env, did, s₀, rt₀, job₀, reqId, payload, rfl, hrun, hi, hjob, hlen, hid, hans,
    hrep⟩ := h
  exact ⟨tr₀, tr₃ ++ [l], env, did, s₀, rt₀, job₀, reqId, payload, by simp, hrun, hi, hjob, hlen,
    hid, hans, (hrep.later hstep).1⟩

/-- What the channels and results of a node hold, and what its udp loop is about
to send. -/
structure RepliesOk (net : Net ι) (tr : List (Label C ι)) (s : State C ι) (i : ι) (sh : Shared)
    (rt : Runtime) : Prop where
  sending : ∀ r, rt.sending = some r → ∃ id target, Issued tr i ⟨r.kind, id, r.tx, target⟩ ∧
    Replied net tr s i sh r.kind id r.payload
  channel : ∀ κ n (job : Job κ) req, rt.jobs κ n = some job → job.current = some req →
    ∀ payload ∈ req.rx, Replied net tr s i sh κ req.id payload
  results : ∀ κ n (job : Job κ), rt.jobs κ n = some job → ∀ k id answer,
    job.results[k]? = some (id, answer) → Answer.positive κ answer = true →
    Completed net tr s i sh κ n k id answer

/-- A response that is dispatched was made by the node that its request is
for. -/
theorem OnWire.replied {tr : List (Label C ι)} {s : State C ι} {m : Message}
    (h : OnWire net tr s m) (hstealths : s.DistinctStealths) {i : ι} {sh : Shared}
    (hi : s.Runs i sh) {env : Env} {κ : RequestKind} {id : UInt64} {payload : Payload κ}
    (hans : Answers sh env m κ id payload) : Replied net tr s i sh κ id payload := by
  have hresp : m.isResponse = true := by cases hans <;> rfl
  obtain ⟨i', shi, j, shj, env', t, m₀, head, m₁, hi', hsrc, hj, hhand, hrespond, hm⟩ :=
    h.response hresp
  obtain ⟨head', hhead, htarget, httl⟩ := respond_request hrespond
  have heq : head' = head := by
    obtain ⟨_, _, _, _, _, _, _, _, -, -, -, -, -, h, -⟩ := hhand
    exact Option.some.inj (hhead.symm.trans h)
  subst heq
  obtain ⟨hκ, hid, hsrc', hrep⟩ := hans.reports hrespond hm hhead
  obtain rfl : i' = i := hstealths i' i shi sh hi' hi (hsrc.symm.trans hsrc')
  exact ⟨j, shj, env', t, m₀, head', hj, hhand, httl, hκ, hid, hsrc', htarget, hrep⟩

/-- What the udp loop is about to send after a step is a reply. -/
theorem RepliesOk.sending_step (hb : C.BincodeRoundTrips) (ha : C.IdealAead)
    {tr : List (Label C ι)} {s s' : State C ι} {l : Label C ι} (hrun : net.Run tr s)
    (hstep : Step net s l s') (hhonest : Honest (tr ++ [l])) (hdistinct : s.DistinctStealths)
    {i : ι} {sh : Shared} {rt rt' : Runtime} (hi : s.node i = .running sh rt)
    (hrt : RuntimeStep sh i l rt rt') (h : RepliesOk net tr s i sh rt) {r : Reply}
    (hr : rt'.sending = some r) :
    ∃ id target, Issued (tr ++ [l]) i ⟨r.kind, id, r.tx, target⟩ ∧
      Replied net (tr ++ [l]) s' i sh r.kind id r.payload := by
  have kept : rt.sending = some r → ∃ id target, Issued (tr ++ [l]) i ⟨r.kind, id, r.tx, target⟩ ∧
      Replied net (tr ++ [l]) s' i sh r.kind id r.payload := by
    intro hr
    obtain ⟨id, target, hissued, hrep⟩ := h.sending r hr
    exact ⟨id, target, hissued.snoc l, (hrep.later hstep).2⟩
  cases hrt with
  | kept | opened | advanced => exact kept hr
  | @answered κ id payload tx m peer env did hdoes hdid _ hans htx _ _ =>
      -- the payload comes from a datagram that was in flight
      obtain rfl := Option.some.inj hr
      obtain ⟨job, req, haw⟩ := (hrun.pending hi).awaited κ id tx htx
      have hissued := ((hrun.threads hi).jobs κ tx.job job haw.thread).current req haw.current
      rw [haw.id, haw.iteration] at hissued
      obtain ⟨f, keep, env', rfl, hf, rfl⟩ := hstep.dispatched_inflight hb ha
        hhonest.of_append_right hdoes hdid
      have hwire := hrun.onWire hb ha hhonest.of_append f hf
      exact ⟨id, req.target, hissued.snoc _,
        ((hwire.replied hdistinct (State.runs_of_running hi) hans).later hstep).2⟩
  | replied =>
      rw [Runtime.sending_reply] at hr
      cases hr

/-- What is in a channel after a step is a reply. -/
theorem RepliesOk.channel_step {tr : List (Label C ι)} {s s' : State C ι} {l : Label C ι}
    (hrun : net.Run tr s) (hstep : Step net s l s') {i : ι} {sh : Shared} {rt rt' : Runtime}
    (hi : s.node i = .running sh rt) (hrt : RuntimeStep sh i l rt rt')
    (h : RepliesOk net tr s i sh rt) {κ : RequestKind} {n : Nat} {job' : Job κ} {req' : Request κ}
    (hjob' : rt'.jobs κ n = some job') (hreq' : job'.current = some req') {payload : Payload κ}
    (hrx : payload ∈ req'.rx) : Replied net (tr ++ [l]) s' i sh κ req'.id payload := by
  cases hrt.job hjob' with
  | same hjob _ => exact ((h.channel κ n job' req' hjob hreq' payload hrx).later hstep).2
  | opened _ hrequest _ _ =>
      rw [(AdminRequest.job_new hrequest).2] at hreq'
      cases hreq'
  | @advanced job env did st _ hjob hst _ heq =>
      have hmoves := hst.moves
      rw [← heq] at hmoves
      generalize st.drew = drew at hmoves
      cases hmoves with
      | begins =>
          obtain rfl := Option.some.inj hreq'
          cases hrx
      | keeps req stage hreq _ =>
          obtain rfl := Option.some.inj hreq'
          exact ((h.channel κ n job req hjob hreq payload hrx).later hstep).2
      | ends => cases hreq'
  | @delivered job payload' tx _ _ _ hsending hn hjob heq _ =>
      subst heq hn
      rcases job.deliver_cases tx.iteration payload' with heq | ⟨req, hreq, hlen, heq⟩
      · rw [heq] at hreq'
        exact ((h.channel κ tx.job job req' hjob hreq' payload hrx).later hstep).2
      · rw [heq] at hreq'
        obtain rfl := Option.some.inj hreq'
        rcases List.mem_append.mp hrx with hrx | hrx
        · exact ((h.channel κ tx.job job req hjob hreq payload hrx).later hstep).2
        · -- the reply that is sent is for the request in progress
          obtain rfl := List.mem_singleton.mp hrx
          obtain ⟨id, target, hissued, hrep⟩ := h.sending _ hsending
          have hok := (hrun.threads hi).jobs κ tx.job job hjob
          rw [show (⟨κ, tx, payload⟩ : Reply).tx = ⟨tx.job, job.results.length⟩ by rw [hlen]] at hissued
          obtain ⟨rfl, -⟩ := hok.issued_current hreq hissued
          exact (hrep.later hstep).2

/-- A result that reports a response has its reply. -/
theorem RepliesOk.results_step {tr : List (Label C ι)} {s s' : State C ι} {l : Label C ι}
    (hrun : net.Run tr s) (hstep : Step net s l s') {i : ι} {sh : Shared} {rt rt' : Runtime}
    (hi : s.node i = .running sh rt) (hrt : RuntimeStep sh i l rt rt')
    (h : RepliesOk net tr s i sh rt) {κ : RequestKind} {n : Nat} {job' : Job κ}
    (hjob' : rt'.jobs κ n = some job') {k : Nat} {id : Option UInt64} {answer : Answer κ}
    (hk : job'.results[k]? = some (id, answer)) (hpos : Answer.positive κ answer = true) :
    Completed net (tr ++ [l]) s' i sh κ n k id answer := by
  cases hrt.job hjob' with
  | same hjob _ => exact (h.results κ n job' hjob k id answer hk hpos).later hstep
  | opened _ hrequest _ _ =>
      rw [(AdminRequest.job_new hrequest).1] at hk
      cases hk
  | @advanced job env did st hl hjob hst _ heq =>
      subst heq
      have hkept : job.results[k]? = some (id, answer) →
          Completed net (tr ++ [l]) s' i sh κ n k id answer :=
        fun hk => (h.results κ n job hjob k id answer hk hpos).later hstep
      cases hst with
      | drew | registered | sent | timedOut => exact hkept hk
      | unresolved e _ _ _ =>
          rcases Job.results_push hk with hk | ⟨-, -, rfl⟩
          · exact hkept hk
          · rw [Answer.not_positive_unresolved] at hpos
            cases hpos
      | cleaned req e _ _ =>
          rcases Job.results_push hk with hk | ⟨-, -, rfl⟩
          · exact hkept hk
          · rw [Answer.not_positive_failed] at hpos
            cases hpos
      | received req payload rest hreq _ hrx =>
          rcases Job.results_push hk with hk | ⟨rfl, rfl, rfl⟩
          · exact hkept hk
          · -- the new result reports what was in the channel
            have hrep := h.channel κ n job req hjob hreq payload (by rw [hrx]; simp)
            subst hl
            exact ⟨tr, [], env, did, s, rt, job, req.id, payload, rfl, hrun, hi, hjob, rfl,
              rfl, rfl, (hrep.later hstep).1⟩
  | @delivered job payload tx _ _ _ _ _ hjob heq _ =>
      subst heq
      refine (h.results κ n job hjob k id answer ?_ hpos).later hstep
      rcases job.deliver_cases tx.iteration payload with heq | ⟨req, -, -, heq⟩
      · rwa [heq] at hk
      · rwa [heq] at hk

theorem Net.Run.replied (hb : C.BincodeRoundTrips) (ha : C.IdealAead) {tr : List (Label C ι)}
    {s : State C ι} (hrun : net.Run tr s) (hhonest : Honest tr) (hstealths : s.DistinctStealths)
    {i : ι} {sh : Shared} {rt : Runtime} (hi : s.node i = .running sh rt) :
    RepliesOk net tr s i sh rt := by
  refine Net.Run.runtime
    (I := fun tr s sh rt => Honest tr → s.DistinctStealths → RepliesOk net tr s i sh rt)
    ?_ ?_ hrun hi hhonest hstealths
  · intro tr s sh _ _ _
    exact ⟨fun r hr => (by cases hr), fun κ n job req hjob => (by cases hjob),
      fun κ n job hjob => (by cases hjob)⟩
  · intro tr s l s' sh rt rt' hrun hstep hi _ hrt ih hhonest hstealths
    have hdistinct := hstealths.of_step hstep
    have hold : RepliesOk net tr s i sh rt := ih hhonest.of_append hdistinct
    refine ⟨?_, ?_, ?_⟩
    · intro r hr
      exact hold.sending_step hb ha hrun hstep hhonest hdistinct hi hrt hr
    · intro κ n job req hjob hreq payload hrx
      exact hold.channel_step hrun hstep hi hrt hjob hreq hrx
    · intro κ n job hjob k id answer hk hpos
      exact hold.results_step hrun hstep hi hrt hjob hk hpos

/-! ## §4. The first response. -/

/-- A response is matched with the pending entry of its kind and id. -/
theorem Answers.dispatch {sh : Shared} {env : Env} {t : Tables} {q : PeerRuntime} {m : Message}
    {κ : RequestKind} {id : UInt64} {payload : Payload κ} (h : Answers sh env m κ id payload) :
    dispatch C sh env t q m = answerPending C t κ id payload := by
  cases h with
  | ping httl hdst =>
      simp only [StealthNet.dispatch, handlePingResp, if_neg httl, if_pos hdst]
  | clients httl hdst =>
      simp only [StealthNet.dispatch, handlePublicClientsResp, if_neg httl, if_pos hdst]

/-- What a running node becomes on dispatching a message. -/
theorem Step.settle {s s' : State C ι} {i : ι} {sh : Shared} {rt : Runtime}
    (hi : s.node i = .running sh rt) {f : Flight C} {keep : Bool} {env : Env} {did : Activity C}
    (hstep : Step net s (.deliver i f keep env did) s') {q : PeerRuntime} {m : Message}
    (hdid : did.dispatched = some (q, m)) :
    s'.node i = .running sh (rt.settle (dispatch C sh env rt.tables q m)) := by
  obtain ⟨-, -, hrec⟩ := hstep.received_of_deliver
  rw [hi] at hrec
  generalize s'.node i = p' at hrec
  cases hrec with
  | deaf hp => rcases hp with hp | hp <;> cases hp
  | refused => cases hdid
  | handled =>
      obtain ⟨rfl, rfl⟩ := Prod.mk.inj (Option.some.inj hdid)
      rfl

/-- Iteration `k` of thread `n` has the request `id` in progress, of which `P`
holds, or its answer, of which `Q` holds. -/
def AtIteration (rt : Runtime) (κ : RequestKind) (n k : Nat) (id : UInt64) (P : Request κ → Prop)
    (Q : Answer κ → Prop) : Prop :=
  ∃ job : Job κ, rt.jobs κ n = some job ∧
    ((∃ req, job.current = some req ∧ job.results.length = k ∧ req.id = id ∧ P req) ∨
      ∃ answer, job.results[k]? = some (some id, answer) ∧ Q answer)

omit [DecidableEq ι] in
/-- What the next section of a thread makes of a request stays so. -/
theorem RuntimeStep.atIteration {sh : Shared} {i : ι} {l : Label C ι} {rt rt' : Runtime}
    (hrt : RuntimeStep sh i l rt rt') {κ : RequestKind} {n k : Nat} {id : UInt64}
    {P : Request κ → Prop} {Q : Answer κ → Prop}
    (hdeliver : ∀ (req : Request κ) payload, P req → P { req with rx := req.rx ++ [payload] })
    (hsection : ∀ (job : Job κ) req env tx t (st : JobStep C κ), job.current = some req → P req →
      job.Advances sh env tx t st → ∃ answer, Q answer ∧ st.job = job.push (some req.id) answer)
    (h : AtIteration rt κ n k id P Q) : AtIteration rt' κ n k id P Q := by
  obtain ⟨job, hjob, hwhere⟩ := h
  obtain ⟨job', hjob'⟩ := Option.isSome_iff_exists.mp (hrt.jobs_isSome (by rw [hjob]; rfl))
  refine ⟨job', hjob', ?_⟩
  cases hrt.job hjob' with
  | same hsame _ =>
      obtain rfl := Option.some.inj (hjob.symm.trans hsame)
      exact hwhere
  | opened _ _ hnone _ =>
      rw [hnone] at hjob
      cases hjob
  | @advanced job₀ env did st _ hjob₀ hst _ heq =>
      obtain rfl := Option.some.inj (hjob.symm.trans hjob₀)
      rcases hwhere with ⟨req, hreq, rfl, rfl, hP⟩ | ⟨answer, hk, hQ⟩
      · -- the section ends the iteration
        obtain ⟨answer, hQ, hpush⟩ := hsection job req _ _ _ st hreq hP hst
        refine Or.inr ⟨answer, ?_, hQ⟩
        rw [heq, hpush]
        simp [Job.push]
      · refine Or.inr ⟨answer, ?_, hQ⟩
        obtain ⟨hlt, -⟩ := List.getElem?_eq_some_iff.mp hk
        have hmoves := hst.moves
        rw [← heq] at hmoves
        generalize st.drew = drew at hmoves
        cases hmoves with
        | begins | keeps => exact hk
        | ends id' answer' => rw [Job.push, List.getElem?_append_left hlt, hk]
  | @delivered job₀ payload tx _ _ _ _ _ hjob₀ heq _ =>
      obtain rfl := Option.some.inj (hjob.symm.trans hjob₀)
      subst heq
      rcases job.deliver_cases tx.iteration payload with heq | ⟨req₁, hreq₁, -, heq⟩
      · rwa [heq]
      · rw [heq]
        rcases hwhere with ⟨req, hreq, hlen, hid, hP⟩ | hdone
        · obtain rfl := Option.some.inj (hreq.symm.trans hreq₁)
          exact Or.inl ⟨_, rfl, hlen, hid, hdeliver req payload hP⟩
        · exact Or.inr hdone

/-- Thread `n` has received `payload` for the request of iteration `k`, or has
it as the result of that iteration. -/
def Fulfilled (rt : Runtime) (κ : RequestKind) (n k : Nat) (id : UInt64) (payload : Payload κ) :
    Prop :=
  AtIteration rt κ n k id (fun req => req.stage = .waiting ∧ ∃ rest, req.rx = payload :: rest)
    fun answer => ∃ env, answer = .received env κ payload

/-- Thread `n` has given up the request of iteration `k` with this error, or has
the failure as the result of that iteration. -/
def GivenUp (rt : Runtime) (κ : RequestKind) (n k : Nat) (id : UInt64) (error : String) : Prop :=
  AtIteration rt κ n k id (fun req => req.stage = .cleanup error)
    fun answer => ∃ target, answer = .failed target error κ

omit [DecidableEq ι] in
theorem RuntimeStep.fulfilled {sh : Shared} {i : ι} {l : Label C ι} {rt rt' : Runtime}
    (hrt : RuntimeStep sh i l rt rt') {κ : RequestKind} {n k : Nat} {id : UInt64}
    {payload : Payload κ} (h : Fulfilled rt κ n k id payload) : Fulfilled rt' κ n k id payload := by
  refine hrt.atIteration ?_ ?_ h
  · intro req payload' hP
    obtain ⟨hstage, rest, hrx⟩ := hP
    exact ⟨hstage, rest ++ [payload'], by simp [hrx]⟩
  · intro job req env tx t st hreq hP hst
    obtain ⟨hstage, rest, hrx⟩ := hP
    cases hst with
    | unresolved _ hnone | drew _ hnone =>
        rw [hreq] at hnone
        cases hnone
    | received req' payload' rest' hreq' _ hrx' =>
        -- the wait ends with this payload
        obtain rfl := Option.some.inj (hreq.symm.trans hreq')
        obtain ⟨rfl, -⟩ := List.cons.inj (hrx.symm.trans hrx')
        exact ⟨_, ⟨env, rfl⟩, rfl⟩
    | timedOut req' hreq' _ hrx' =>
        obtain rfl := Option.some.inj (hreq.symm.trans hreq')
        rw [hrx] at hrx'
        cases hrx'
    | registered req' hreq' hstage' | sent req' _ _ hreq' hstage' | cleaned req' _ hreq' hstage' =>
        obtain rfl := Option.some.inj (hreq.symm.trans hreq')
        rw [hstage] at hstage'
        cases hstage'

omit [DecidableEq ι] in
theorem RuntimeStep.givenUp {sh : Shared} {i : ι} {l : Label C ι} {rt rt' : Runtime}
    (hrt : RuntimeStep sh i l rt rt') {κ : RequestKind} {n k : Nat} {id : UInt64} {error : String}
    (h : GivenUp rt κ n k id error) : GivenUp rt' κ n k id error := by
  refine hrt.atIteration (fun _ _ hstage => hstage) ?_ h
  intro job req env tx t st hreq hstage hst
  cases hst with
  | unresolved _ hnone | drew _ hnone =>
      rw [hreq] at hnone
      cases hnone
  | cleaned req' error' hreq' hstage' =>
      obtain rfl := Option.some.inj (hreq.symm.trans hreq')
      obtain rfl := Stage.cleanup.inj (hstage.symm.trans hstage')
      exact ⟨_, ⟨_, rfl⟩, rfl⟩
  | registered req' hreq' hstage' | sent req' _ _ hreq' hstage' | timedOut req' hreq' hstage'
    | received req' _ _ hreq' hstage' =>
      obtain rfl := Option.some.inj (hreq.symm.trans hreq')
      rw [hstage] at hstage'
      cases hstage'

/-- What every step preserves of the tables and threads of a node. -/
theorem exec_runtime {s s' : State C ι} {tr : List (Label C ι)}
    (hexec : Lib.Exec (Step net) s tr s') {i : ι} {sh : Shared} {rt rt' : Runtime}
    (hi : s.node i = .running sh rt) (hi' : s'.node i = .running sh rt') {P : Runtime → Prop}
    (hstep : ∀ l ∈ tr, ∀ rt rt', RuntimeStep sh i l rt rt' → P rt → P rt') (h : P rt) : P rt' := by
  have hall := hexec.history
    (I := fun tr s => (∀ l ∈ tr, ∀ rt rt', RuntimeStep sh i l rt rt' → P rt → P rt') →
      ∃ rt, s.node i = .running sh rt ∧ P rt) (fun _ => ⟨rt, hi, h⟩) ?_ hstep
  · obtain ⟨rt'', hi'', h⟩ := hall
    obtain ⟨-, rfl⟩ := Phase.running.inj (hi'.symm.trans hi'')
    exact h
  · intro tr s l s' _ ih hs hall
    obtain ⟨rt, hi, h⟩ := ih fun l hl => hall l (List.mem_append_left _ hl)
    obtain ⟨rt', hi', hrt⟩ := hs.runtime hi
    exact ⟨rt', hi', hall l (by simp) rt rt' hrt h⟩

/-- The udp loop is about to send `payload` to thread `n`, whose request waits
and has received nothing. -/
structure Promised (rt : Runtime) {κ : RequestKind} (n : Nat) (job : Job κ) (req : Request κ)
    (payload : Payload κ) : Prop where
  sending : rt.sending = some ⟨κ, ⟨n, job.results.length⟩, payload⟩
  thread : rt.jobs κ n = some job
  current : job.current = some req
  stage : req.stage = .waiting
  empty : req.rx = []

section

variable {s s' : State C ι} {i : ι} {sh : Shared} {rt rt' : Runtime} {κ : RequestKind} {n : Nat}
  {job : Job κ} {req : Request κ} {payload : Payload κ}

/-- It stays so until the reply is sent or the thread takes a section. -/
theorem RuntimeStep.promised {l : Label C ι} (hrt : RuntimeStep sh i l rt rt')
    (h : Promised rt n job req payload) (hreply : l.replies i = false)
    (hadvance : l.advances i κ n = false) : Promised rt' n job req payload := by
  cases hrt with
  | kept => exact ⟨h.sending, h.thread, h.current, h.stage, h.empty⟩
  | opened _ _ hnone =>
      refine ⟨h.sending, ?_, h.current, h.stage, h.empty⟩
      rw [Runtime.setJob_jobs_of_ne]
      · exact h.thread
      · rintro rfl rfl
        rw [h.thread] at hnone
        cases hnone
  | advanced hl =>
      refine ⟨h.sending, ?_, h.current, h.stage, h.empty⟩
      rw [Runtime.setJob_jobs_of_ne]
      · exact h.thread
      · rintro rfl rfl
        rw [Label.advances_eq_true.mpr ⟨_, _, hl⟩] at hadvance
        cases hadvance
  | answered _ _ _ _ _ _ hnone =>
      rw [h.sending] at hnone
      cases hnone
  | replied hl =>
      rw [Label.replies_eq_true.mpr ⟨_, _, hl⟩] at hreply
      cases hreply

/-- The udp loop sends the reply it holds. -/
theorem Step.sent_reply {env : Env} {did : Activity C} (h : Step net s (.act i .reply env did) s')
    (hi : s.node i = .running sh rt) :
    ∃ r, rt.sending = some r ∧ s'.node i
      = .running sh (({ rt with sending := none } : Runtime).reply r.kind r.tx r.payload) := by
  have hact := h.act_of_act
  rw [hi] at hact
  obtain ⟨rt', hi', hact⟩ := Phase.act_running hact
  cases hact with
  | replied hsending => exact ⟨_, hsending, hi'⟩

/-- Sent in time, the reply is what the thread receives. -/
theorem Promised.sent (h : Promised rt n job req payload) (hi : s.node i = .running sh rt)
    {env : Env} {did : Activity C} (hstep : Step net s (.act i .reply env did) s') :
    ∃ rt', s'.node i = .running sh rt' ∧
      rt'.jobs κ n = some { job with current := some { req with rx := [payload] } } := by
  obtain ⟨r, hsending, hi'⟩ := hstep.sent_reply hi
  obtain rfl := Option.some.inj (h.sending.symm.trans hsending)
  refine ⟨_, hi', ?_⟩
  rw [Runtime.jobs_reply_self { rt with sending := none } h.thread,
    Job.deliver_of_current rfl h.current, h.empty]
  rfl

/-- The error of a wait that times out. -/
def Job.timeoutError (job : Job κ) : String := s!"timeout after {job.timeoutMs} ms"

/-- If the thread takes its next section before, the wait has timed out. -/
theorem Promised.late (h : Promised rt n job req payload) (hi : s.node i = .running sh rt)
    {env : Env} {did : Activity C} (hstep : Step net s (.act i (.admin κ n) env did) s') :
    ∃ rt', s'.node i = .running sh rt' ∧
      GivenUp rt' κ n job.results.length req.id job.timeoutError := by
  have hact := hstep.act_of_act
  rw [hi] at hact
  obtain ⟨rt', hi', hact⟩ := Phase.act_running hact
  refine ⟨rt', hi', ?_⟩
  cases hact with
  | @advanced _ _ job₀ st hjob hst =>
      obtain rfl := Option.some.inj (h.thread.symm.trans hjob)
      refine ⟨st.job, Runtime.setJob_jobs_self .., Or.inl ?_⟩
      cases hst with
      | unresolved _ hnone | drew _ hnone =>
          rw [h.current] at hnone
          cases hnone
      | timedOut req' hreq' =>
          obtain rfl := Option.some.inj (h.current.symm.trans hreq')
          exact ⟨_, rfl, rfl, rfl, rfl⟩
      | received req' _ _ hreq' _ hrx' =>
          obtain rfl := Option.some.inj (h.current.symm.trans hreq')
          rw [h.empty] at hrx'
          cases hrx'
      | registered req' hreq' hstage' | sent req' _ _ hreq' hstage' | cleaned req' _ hreq' hstage' =>
          obtain rfl := Option.some.inj (h.current.symm.trans hreq')
          rw [h.stage] at hstage'
          cases hstage'

/-- Where neither the udp loop sends nor the thread takes a section, the promise
stands. -/
theorem exec_promised {tr : List (Label C ι)} (hexec : Lib.Exec (Step net) s tr s')
    (hi : s.node i = .running sh rt) (h : Promised rt n job req payload)
    (hquiet : ∀ l ∈ tr, l.replies i = false ∧ l.advances i κ n = false) :
    ∃ rt', s'.node i = .running sh rt' ∧ Promised rt' n job req payload := by
  obtain ⟨rt', hi'⟩ := Phase.shared_eq_some.mp (exec_shared hexec (State.runs_of_running hi))
  refine ⟨rt', hi', ?_⟩
  exact exec_runtime hexec hi hi' (P := fun rt => Promised rt n job req payload)
    (fun l hl _ _ hrt h => hrt.promised h (hquiet l hl).1 (hquiet l hl).2) h

/-- The wait ends with the reply, if the reply is sent first. -/
theorem Promised.fulfilled (h : Promised rt n job req payload) (hi : s.node i = .running sh rt)
    {mid rest : List (Label C ι)} {env : Env} {did : Activity C}
    (hexec : Lib.Exec (Step net) s (mid ++ .act i .reply env did :: rest) s')
    (hquiet : ∀ l ∈ mid, l.replies i = false ∧ l.advances i κ n = false)
    (hi' : s'.node i = .running sh rt') :
    Fulfilled rt' κ n job.results.length req.id payload := by
  obtain ⟨s₁, s₂, hmid, hstep, hrest⟩ := hexec.split_cons
  obtain ⟨rt₁, hi₁, h₁⟩ := exec_promised hmid hi h hquiet
  obtain ⟨rt₂, hi₂, hjob₂⟩ := h₁.sent hi₁ hstep
  refine exec_runtime hrest hi₂ hi' (fun l _ rt rt' hrt => hrt.fulfilled) ?_
  exact ⟨_, hjob₂, Or.inl ⟨_, rfl, rfl, rfl, h.stage, [], rfl⟩⟩

/-- It ends with the timeout, if the thread looks first. -/
theorem Promised.givenUp (h : Promised rt n job req payload) (hi : s.node i = .running sh rt)
    {mid rest : List (Label C ι)} {env : Env} {did : Activity C}
    (hexec : Lib.Exec (Step net) s (mid ++ .act i (.admin κ n) env did :: rest) s')
    (hquiet : ∀ l ∈ mid, l.replies i = false ∧ l.advances i κ n = false)
    (hi' : s'.node i = .running sh rt') :
    GivenUp rt' κ n job.results.length req.id job.timeoutError := by
  obtain ⟨s₁, s₂, hmid, hstep, hrest⟩ := hexec.split_cons
  obtain ⟨rt₁, hi₁, h₁⟩ := exec_promised hmid hi h hquiet
  obtain ⟨rt₂, hi₂, hup⟩ := h₁.late hi₁ hstep
  exact exec_runtime hrest hi₂ hi' (fun l _ rt rt' hrt => hrt.givenUp) hup

/-- The sender of a waiting thread is taken by the first response that reaches
the node. -/
theorem Net.Run.first_response {tr : List (Label C ι)} (hrun : net.Run tr s)
    (hi : s.node i = .running sh rt) (hdrawn : rt.tables.drawn ≤ 2 ^ 64)
    (hjob : rt.jobs κ n = some job) (hreq : job.current = some req) (hstage : req.stage = .waiting)
    (hrx : req.rx = []) {f : Flight C} {keep : Bool} {env : Env} {did : Activity C}
    (hstep : Step net s (.deliver i f keep env did) s') {q : PeerRuntime} {m : Message}
    (hdid : did.dispatched = some (q, m)) (hans : Answers sh env m κ req.id payload) :
    ∃ rt', s'.node i = .running sh rt' ∧ Promised rt' n job req payload := by
  have hlook : (rt.tables.pending κ).lookup req.id = some ⟨n, job.results.length⟩ := by
    rcases hrun.waiting hi hdrawn κ n job req hjob hreq (by rw [hstage]; simp) hrx with
      hlook | ⟨payload', hsending⟩
    · exact hlook
    · -- the loop receives nothing before it has sent
      rw [hstep.sending_of_received rfl hi] at hsending
      cases hsending
  refine ⟨_, hstep.settle hi hdid, ?_⟩
  rw [hans.dispatch, answerPending, hlook]
  exact ⟨rfl, hjob, hreq, hstage, hrx⟩

/-- On dispatching a response a node changes no thread. -/
theorem Step.response_jobs (hi : s.node i = .running sh rt) {f : Flight C} {keep : Bool} {env : Env}
    {did : Activity C} (hstep : Step net s (.deliver i f keep env did) s') {q : PeerRuntime}
    {m : Message} (hdid : did.dispatched = some (q, m)) {id : UInt64}
    (hans : Answers sh env m κ id payload) :
    ∃ rt', s'.node i = .running sh rt' ∧ rt'.jobs = rt.jobs := by
  refine ⟨_, hstep.settle hi hdid, ?_⟩
  rw [hans.dispatch, answerPending]
  cases hlook : (rt.tables.pending κ).lookup id with
  | none => rfl
  | some tx => rfl

/-- A reply that is sent answers a request, and reaches no other. -/
theorem Net.Run.reply_frame {tr : List (Label C ι)} (hrun : net.Run tr s)
    (hi : s.node i = .running sh rt) {env : Env} {did : Activity C}
    (hstep : Step net s (.act i .reply env did) s') :
    ∃ r id, ReplyFor tr i sh r id ∧ ∀ (κ : RequestKind) n (job : Job κ), rt.jobs κ n = some job →
      (κ = r.kind → ∀ req, job.current = some req → req.id ≠ id) →
      ∃ rt', s'.node i = .running sh rt' ∧ rt'.jobs κ n = some job := by
  obtain ⟨r, hsending, hi'⟩ := hstep.sent_reply hi
  obtain ⟨id, hfor⟩ := hrun.reply_for hi hsending
  refine ⟨r, id, hfor, fun κ n job hjob hother => ⟨_, hi', ?_⟩⟩
  by_cases hsame : κ = r.kind ∧ n = r.tx.job
  · obtain ⟨rfl, rfl⟩ := hsame
    rw [Runtime.jobs_reply_self { rt with sending := none } hjob]
    rcases job.deliver_cases r.tx.iteration r.payload with heq | ⟨req, hreq, hlen, -⟩
    · rw [heq]
    · -- the reply is for the request in progress
      obtain ⟨target, hissued⟩ := hfor.issued
      have hok := (hrun.threads hi).jobs r.kind r.tx.job job hjob
      rw [show r.tx = ⟨r.tx.job, job.results.length⟩ by rw [hlen]] at hissued
      exact absurd (hok.issued_current hreq hissued).1 (hother rfl req hreq)
  · rw [Runtime.jobs_reply_of_ne]
    · exact hjob
    · intro hκ hn
      exact hsame ⟨hκ, hn⟩

end

/-! ## §5. Correlation. -/

/-- A ping result is of a request for the stealth that the target resolves to,
it reports this stealth, and the node with that stealth handled the request. -/
def PingMatched (tr : List (Label C ι)) (s : State C ι) (i : ι) (sh : Shared) (requested : String)
    (n k : Nat) (id : Option UInt64) (result : PingResult) : Prop :=
  ∃ reqId target, resolveTarget sh requested = .ok target ∧ id = some reqId ∧
    Issued tr i ⟨.ping, reqId, ⟨n, k⟩, target⟩ ∧
    result.responderStealth = some target ∧
    ∃ j shj q ping, s.Runs j shj ∧ shj.localStealth = target ∧ Dispatched tr j q (.pingReq ping) ∧
      ping.requestId = reqId ∧ ping.srcStealth = sh.localStealth ∧ ping.targetStealth = target ∧
      ping.ttl ≠ 0

/-- A list of clients is what the node with the stealth that the target resolves
to published when it handled the request, after it was sent and before the
thread took it as its result. -/
def ClientsMatched (net : Net ι) (tr : List (Label C ι)) (s : State C ι) (i : ι) (sh : Shared)
    (requested : String) (n k : Nat) (id : Option UInt64) (gatewayStealth : String)
    (clients : List PublicClientEntry) : Prop :=
  ∃ reqId target, resolveTarget sh requested = .ok target ∧ id = some reqId ∧
    Issued tr i ⟨.clients, reqId, ⟨n, k⟩, target⟩ ∧
    gatewayStealth = target ∧
    ∃ j shj tr₁ tr₂ tr₃ f keep env did env' did' s₁ rt₁ q req s₂ rt₂ job₂, s.Runs j shj ∧
      shj.localStealth = target ∧
      tr = tr₁ ++ .deliver j f keep env did :: tr₂ ++ .act i (.admin .clients n) env' did' :: tr₃ ∧
      (∃ call, Called tr₁ i call ∧
        call.msg.request = some ⟨.clients, reqId, sh.localStealth, target⟩) ∧
      net.Run tr₁ s₁ ∧ s₁.node j = .running shj rt₁ ∧
      did.dispatched = some (q, .publicClientsReq req) ∧ req.requestId = reqId ∧
      clients = publishedClients shj env rt₁.tables ∧
      net.Run (tr₁ ++ .deliver j f keep env did :: tr₂) s₂ ∧ s₂.node i = .running sh rt₂ ∧
      rt₂.jobs .clients n = some job₂ ∧ job₂.results.length = k

omit [DecidableEq ι] in
theorem Issued.append {tr : List (Label C ι)} {i : ι} {ticket : Ticket} (h : Issued tr i ticket)
    (tr' : List (Label C ι)) : Issued (tr ++ tr') i ticket := by
  obtain ⟨l, hl, hdid⟩ := h
  exact ⟨l, List.mem_append_left _ hl, hdid⟩

section

variable {tr : List (Label C ι)} {s : State C ι} {i : ι} {sh : Shared} {rt : Runtime}

/-- The request a completed result belongs to is the one its responder
handled. -/
theorem Completed.ticket (hrun : net.Run tr s) (hi : s.node i = .running sh rt)
    (hdrawn : rt.tables.drawn ≤ 2 ^ 64) {κ : RequestKind} {n k : Nat} {job : Job κ}
    (hjob : rt.jobs κ n = some job) {id : UInt64} {answer : Answer κ}
    (hk : job.results[k]? = some (some id, answer)) {tr₁ tr₂ : List (Label C ι)} {head : Head}
    (htr : tr = tr₁ ++ tr₂) (hreq : Requested tr₁ i head) (hid : head.id = id) :
    Issued tr i ⟨κ, id, ⟨n, k⟩, head.target⟩ := by
  obtain ⟨target, hissued⟩ := ((hrun.threads hi).jobs κ n job hjob).results k id answer hk
  obtain ⟨⟨tx, hissued'⟩, -⟩ := hreq
  have hissued' := hissued'.append tr₂
  rw [← htr] at hissued'
  have heq := (hrun.ids hi hdrawn).unique _ _ hissued hissued' hid.symm
  obtain ⟨-, -, -, rfl⟩ := Ticket.mk.inj heq
  exact hissued

theorem Net.Run.pingMatched (hb : C.BincodeRoundTrips) (ha : C.IdealAead) (hrun : net.Run tr s)
    (hhonest : Honest tr) (hstealths : s.DistinctStealths) (hi : s.node i = .running sh rt)
    (hdrawn : rt.tables.drawn ≤ 2 ^ 64) {n k : Nat} {job : Job .ping}
    (hjob : rt.jobs .ping n = some job) {id : Option UInt64} {result : PingResult}
    (hk : job.results[k]? = some (id, result)) (hok : result.ok = true) :
    PingMatched tr s i sh job.target n k id result := by
  obtain ⟨tr₀, tr₃, env, did, s₀, rt₀, job₀, reqId, payload, htr, -, -, -, -, rfl, rfl, j, shj,
    envj, t, m₀, head, hj, ⟨tr₁, tr₂, f, keep, didj, s₁, rt₁, q, rfl, -, -, -, hdid, hhead, hreq⟩,
    httl, hkind, hid, hsrc, htarget, hrep⟩ :=
    (hrun.replied hb ha hhonest hstealths hi).results .ping n job hjob k id result hk hok
  have htr' : tr = tr₁ ++ (.deliver j f keep envj didj :: tr₂
      ++ .act i (.admin .ping n) env did :: tr₃) := by
    rw [htr, List.append_assoc]
  have hissued := Completed.ticket hrun hi hdrawn hjob hk htr' hreq hid
  cases m₀ with
  | pingReq ping =>
      obtain rfl := Option.some.inj hhead
      refine ⟨reqId, _, hrun.ticket_resolved hi hjob hissued, rfl, hissued, ?_, j, shj, q, ping, hj,
        htarget.symm, ?_, hid, hsrc, rfl, httl⟩
      · rw [htarget]
        exact hrep
      · refine ⟨.deliver j f keep envj didj, ?_, didj, Label.does_deliver .., hdid⟩
        rw [htr']
        simp
  | publicClientsReq req =>
      obtain rfl := Option.some.inj hhead
      cases hkind
  | _ => cases hhead

theorem Net.Run.clientsMatched (hb : C.BincodeRoundTrips) (ha : C.IdealAead) (hrun : net.Run tr s)
    (hhonest : Honest tr) (hstealths : s.DistinctStealths) (hi : s.node i = .running sh rt)
    (hdrawn : rt.tables.drawn ≤ 2 ^ 64) {n k : Nat} {job : Job .clients}
    (hjob : rt.jobs .clients n = some job) {id : Option UInt64} {gatewayStealth : String}
    {clients : List PublicClientEntry}
    (hk : job.results[k]? = some (id, AdminResponse.clientsResult gatewayStealth clients)) :
    ClientsMatched net tr s i sh job.target n k id gatewayStealth clients := by
  obtain ⟨tr₀, tr₃, env, did, s₀, rt₀, job₀, reqId, payload, htr, hrun₀, hi₀, hjob₀, hlen, rfl,
    hanswer, j, shj, envj, t, m₀, head, hj, ⟨tr₁, tr₂, f, keep, didj, s₁, rt₁, q, rfl, hrun₁, hj₁,
    rfl, hdid, hhead, hreq⟩, httl, hkind, hid, hsrc, htarget, hrep⟩ :=
    (hrun.replied hb ha hhonest hstealths hi).results .clients n job hjob k id _ hk rfl
  have htr' : tr = tr₁ ++ (.deliver j f keep envj didj :: tr₂
      ++ .act i (.admin .clients n) env did :: tr₃) := by
    rw [htr, List.append_assoc]
  have hissued := Completed.ticket hrun hi hdrawn hjob hk htr' hreq hid
  obtain rfl : payload = (shj.localStealth, publishedClients shj envj rt₁.tables) := hrep
  obtain ⟨rfl, rfl⟩ := AdminResponse.clientsResult.inj hanswer
  cases m₀ with
  | publicClientsReq req =>
      obtain rfl := Option.some.inj hhead
      obtain ⟨-, call, hcall, hmsg⟩ := hreq
      refine ⟨reqId, _, hrun.ticket_resolved hi hjob hissued, rfl, hissued, htarget.symm, j, shj, tr₁,
        tr₂, tr₃, f, keep, envj, didj, env, did, s₁, rt₁, q, req, s₀, rt₀, job₀, hj, htarget.symm, htr,
        ⟨call, hcall, ?_⟩, hrun₁, hj₁, hdid, hid, rfl, hrun₀, hi₀, hjob₀, hlen⟩
      rw [hmsg, ← hsrc, ← hid]
  | pingReq ping =>
      obtain rfl := Option.some.inj hhead
      cases hkind
  | _ => cases hhead

/-- A payload for iteration `k` of thread `n` is in the hands of the udp loop,
which can send it. Sent before the thread takes its next section, it is the
answer; sent later, it is not, and the iteration ends with the error. -/
structure Decided (net : Net ι) (s : State C ι) (i : ι) (sh : Shared) (κ : RequestKind) (n k : Nat)
    (id : UInt64) (payload : Payload κ) (error : String) : Prop where
  ready : ∀ env, ∃ did s', Step net s (.act i .reply env did) s'
  sent : ∀ mid env did rest s' rt', Lib.Exec (Step net) s (mid ++ .act i .reply env did :: rest) s' →
    (∀ l ∈ mid, l.replies i = false ∧ l.advances i κ n = false) → s'.node i = .running sh rt' →
    Fulfilled rt' κ n k id payload
  late : ∀ mid env did rest s' rt',
    Lib.Exec (Step net) s (mid ++ .act i (.admin κ n) env did :: rest) s' →
    (∀ l ∈ mid, l.replies i = false ∧ l.advances i κ n = false) → s'.node i = .running sh rt' →
    GivenUp rt' κ n k id error

/-- The loop can send whenever it holds a reply. -/
theorem exists_reply {r : Reply} (hi : s.node i = .running sh rt) (hr : rt.sending = some r)
    (env : Env) : ∃ did s', Step net s (.act i .reply env did) s' := by
  have hact : (s.node i).act C env (net.identity i) (net.config i) .reply
      = some (.running sh (({ rt with sending := none } : Runtime).reply r.kind r.tx r.payload),
          .idle) := by
    rw [hi]
    show (rt.send).map _ = _
    rw [Runtime.send, hr]
    rfl
  exact ⟨_, _, .act hact⟩

theorem Promised.decided {κ : RequestKind} {n : Nat} {job : Job κ} {req : Request κ}
    {payload : Payload κ} (h : Promised rt n job req payload) (hi : s.node i = .running sh rt) :
    Decided net s i sh κ n job.results.length req.id payload job.timeoutError where
  ready := exists_reply hi h.sending
  sent := fun _ _ _ _ _ _ hexec hquiet hi' => h.fulfilled hi hexec hquiet hi'
  late := fun _ _ _ _ _ _ hexec hquiet hi' => h.givenUp hi hexec hquiet hi'

omit [DecidableEq ι] in
/-- A payload that was received ends the iteration in the next section. -/
theorem Fulfilled.next {κ : RequestKind} {n : Nat} {job : Job κ} {id : UInt64} {payload : Payload κ}
    (h : Fulfilled rt κ n job.results.length id payload) (hjob : rt.jobs κ n = some job) (sh : Shared)
    (env : Env) (tx : Tx) (t : Tables) :
    job.advance C sh env tx t
      = some ⟨job.push (some id) (.received env κ payload), t, [], none⟩ := by
  obtain ⟨job', hjob', hwhere⟩ := h
  obtain rfl := Option.some.inj (hjob.symm.trans hjob')
  rcases hwhere with ⟨req, hreq, -, rfl, hstage, rest, hrx⟩ | ⟨answer, hk, -⟩
  · simp only [Job.advance, hreq, hstage, hrx]
  · obtain ⟨hlt, -⟩ := List.getElem?_eq_some_iff.mp hk
    exact absurd hlt (Nat.lt_irrefl _)

/-- Requests and responses of a node belong together: each iteration of a ping
has one result, as many as were asked for; what a result reports was done by
the node its target resolves to; a response changes no thread by itself, the
reply it is taken for reaches no other request, and the first response that
finds its request waiting decides how it ends. -/
structure Correlated (net : Net ι) (tr : List (Label C ι)) (s : State C ι) (i : ι) (sh : Shared)
    (rt : Runtime) : Prop where
  iterations : ∀ κ n (job : Job κ), rt.jobs κ n = some job →
    JobOk tr i κ n job ∧ (job.completed → job.results.length = job.count)
  counts : ∀ n target c timeoutMs env did,
    Label.act i (.adminRequest n (.ping target c timeoutMs)) env did ∈ tr →
    ∃ job : Job .ping, rt.jobs .ping n = some job ∧ job.target = target ∧
      job.timeoutMs = timeoutMs ∧ (job.completed → job.results.length = c.toNat)
  pings : ∀ n (job : Job .ping), rt.jobs .ping n = some job → ∀ k id (result : PingResult),
    job.results[k]? = some (id, result) → result.ok = true →
    PingMatched tr s i sh job.target n k id result
  clients : ∀ n (job : Job .clients), rt.jobs .clients n = some job → ∀ k id gatewayStealth clients,
    job.results[k]? = some (id, AdminResponse.clientsResult gatewayStealth clients) →
    ClientsMatched net tr s i sh job.target n k id gatewayStealth clients
  response : ∀ s' f keep env did q m κ id (payload : Payload κ),
    Step net s (.deliver i f keep env did) s' → did.dispatched = some (q, m) →
    Answers sh env m κ id payload →
    (∃ rt', s'.node i = .running sh rt' ∧ rt'.jobs = rt.jobs) ∧
    ∀ n (job : Job κ) req, rt.jobs κ n = some job → job.current = some req → req.id = id →
      req.stage = .waiting → req.rx = [] →
      Decided net s' i sh κ n job.results.length id payload job.timeoutError
  reply : ∀ s' env did, Step net s (.act i .reply env did) s' →
    ∃ r id, ReplyFor tr i sh r id ∧ ∀ (κ : RequestKind) n (job : Job κ), rt.jobs κ n = some job →
      (κ = r.kind → ∀ req, job.current = some req → req.id ≠ id) →
      ∃ rt', s'.node i = .running sh rt' ∧ rt'.jobs κ n = some job
  next : ∀ κ n (job : Job κ) id payload, rt.jobs κ n = some job →
    Fulfilled rt κ n job.results.length id payload → ∀ env tx t, job.advance C sh env tx t
      = some ⟨job.push (some id) (.received env κ payload), t, [], none⟩

/-- In every run over a network that loses, reorders and duplicates
datagrams, requests and responses belong together at every node whose stealth
is its own and whose request counter has not wrapped around. -/
theorem request_response_correlation (hb : C.BincodeRoundTrips) (ha : C.IdealAead)
    (hrun : net.Run tr s) (hhonest : Honest tr) (hstealths : s.DistinctStealths)
    (hi : s.node i = .running sh rt) (hdrawn : rt.tables.drawn < 2 ^ 64) :
    Correlated net tr s i sh rt where
  iterations := by
    intro κ n job hjob
    have hok := (hrun.threads hi).jobs κ n job hjob
    exact ⟨hok, fun hdone => Nat.le_antisymm hok.bound hdone.2⟩
  counts := by
    intro n target c timeoutMs env did hmem
    have haccepted : ∃ job : Job .ping, rt.jobs .ping n = some job ∧
        job.task = (target, timeoutMs, c.toNat) := hrun.accepted hi rfl hmem
    obtain ⟨job, hjob, htask⟩ := haccepted
    obtain ⟨htarget, htimeout, hcount⟩ : job.target = target ∧ job.timeoutMs = timeoutMs ∧
        job.count = c.toNat := by simpa [Job.task] using htask
    refine ⟨job, hjob, htarget, htimeout, fun hdone => ?_⟩
    have hok := (hrun.threads hi).jobs .ping n job hjob
    rw [← hcount]
    exact Nat.le_antisymm hok.bound hdone.2
  pings := by
    intro n job hjob k id result hk hok
    exact hrun.pingMatched hb ha hhonest hstealths hi (Nat.le_of_lt hdrawn) hjob hk hok
  clients := by
    intro n job hjob k id gatewayStealth clients hk
    exact hrun.clientsMatched hb ha hhonest hstealths hi (Nat.le_of_lt hdrawn) hjob hk
  response := by
    intro s' f keep env did q m κ id payload hstep hdid hans
    refine ⟨hstep.response_jobs hi hdid hans, ?_⟩
    intro n job req hjob hreq hid hstage hrx
    subst hid
    obtain ⟨rt', hi', hpromised⟩ :=
      hrun.first_response hi (Nat.le_of_lt hdrawn) hjob hreq hstage hrx hstep hdid hans
    exact hpromised.decided hi'
  reply := fun _ _ _ hstep => hrun.reply_frame hi hstep
  next := fun _ _ _ _ _ hjob h env tx t => h.next hjob sh env tx t

end

end

namespace Line

/-- The one ping of a thread was answered. -/
def pinged (job : Job .ping) : Bool :=
  job.count == 1 && job.current.isNone && (job.results[0]?).any fun r => PingResult.ok r.2

/-- A ping along the line is answered by the node at its end. -/
theorem ping_matched :
    ∃ (tr : List (Label Crates.ideal (Fin 3))) (s : State Crates.ideal (Fin 3)) (sh : Shared)
      (rt : Runtime) (job : Job .ping) (id : Option UInt64) (result : PingResult),
      net.Run tr s ∧ s.node 0 = .running sh rt ∧ rt.jobs .ping 0 = some job ∧
      job.count = 1 ∧ job.results.length = 1 ∧ job.results[0]? = some (id, result) ∧
      result.ok = true ∧ PingMatched tr s 0 sh job.target 0 0 id result := by
  obtain ⟨tr₀, hrun₀, hhonest₀⟩ := run_started
  obtain ⟨tr, s, hexec, hhonest, hcheck⟩ := Sim.exists_run net Env.at started (asking ++ answering)
    (fun _ s => (s.node 0).held.any fun (r : Shared × Runtime) =>
      decide (r.2.tables.drawn < 2 ^ 64) && (r.2.jobs .ping 0).any pinged)
    (by simp [asking, answering]) (by decide +kernel)
  obtain ⟨⟨sh, rt⟩, hheld, hcheck⟩ := (Option.any_eq_true _ _).mp hcheck
  obtain ⟨hdrawn, hcheck⟩ := Bool.and_eq_true_iff.mp hcheck
  obtain ⟨job, hjob, hcheck⟩ := (Option.any_eq_true _ _).mp hcheck
  simp only [pinged, Bool.and_eq_true, beq_iff_eq, Option.isNone_iff_eq_none,
    Option.any_eq_true] at hcheck
  obtain ⟨⟨hcount, hnone⟩, ⟨id, result⟩, hresult, hok⟩ := hcheck
  have hi : s.state.node 0 = .running sh rt := Phase.held_eq_some.mp hheld
  have hall := request_response_correlation Crates.bincodeRoundTrips_ideal Crates.idealAead_ideal
    (hrun₀.append hexec) (hhonest₀.append hhonest) (distinctStealths hexec) hi
    (of_decide_eq_true hdrawn)
  have hlen : 1 ≤ job.results.length := (List.getElem?_eq_some_iff.mp hresult).1
  have hone := (hall.iterations .ping 0 job hjob).2 ⟨hnone, by omega⟩
  exact ⟨tr₀ ++ tr, s.state, sh, rt, job, id, result, hrun₀.append hexec, hi, hjob, hcount,
    hone.trans hcount, hresult, hok, hall.pings 0 job hjob 0 id result hresult hok⟩

/-- The wait times out when the response has been dispatched, but before it is
sent to the thread. -/
def losing : List (Move (Fin 3)) :=
  [.act 0 (.admin .ping 0), .act 0 .reply, .act 0 (.admin .ping 0)]

/-- A message answers the ping with this id. -/
def answersPing (sh : Shared) (id : UInt64) : Message → Bool
  | .pingResp pong => decide (pong.ttl ≠ 0) && pong.dstStealth == sh.localStealth && pong.requestId == id
  | _ => false

theorem answers_of_answersPing {sh : Shared} {id : UInt64} {m : Message}
    (h : answersPing sh id m = true) (env : Env) :
    ∃ payload : Payload .ping, Answers sh env m .ping id payload := by
  unfold answersPing at h
  split at h
  · simp only [Bool.and_eq_true, decide_eq_true_eq, beq_iff_eq] at h
    obtain ⟨⟨httl, hdst⟩, rfl⟩ := h
    exact ⟨_, .ping httl hdst⟩
  · cases h

/-- The ping waits and has received nothing. -/
def pingWaits (job : Job .ping) : Bool :=
  job.current.any fun req => decide (req.stage = .waiting) && req.rx.isEmpty && req.id == 1

/-- A ping is sent and answered, and the thread looks too early; evaluated at
once. -/
theorem losing_computed : (started.run net Env.at (asking ++ answering.take 4)).any (fun r =>
    (r.2.node 0).held.any (fun (h : Shared × Runtime) => decide (h.2.tables.drawn < 2 ^ 64) &&
      (h.2.jobs .ping 0).any pingWaits &&
      (r.2.step net Env.at (.deliver 0 false)).any fun r₁ =>
        (r₁.1.activity.any fun (i, did) => i == 0 &&
          did.dispatched.any fun (_, m) => answersPing h.1 1 m) &&
        (r₁.2.run net Env.at losing).any fun r₂ => (r₂.2.node 0).held.any fun h' =>
          (h'.2.jobs .ping 0).any fun job => job.current.isNone && job.count == 1 &&
            job.results == [(some 1, .failed "st-b" "timeout after 1000 ms" .ping)])) = true := by
  decide +kernel

/-- A response with ttl left reaches the ping that waits for it, first of all, and
the ping ends with the timeout all the same. -/
theorem first_response_lost :
    ∃ (tr post : List (Label Crates.ideal (Fin 3))) (s s' s'' : State Crates.ideal (Fin 3))
      (sh sh' : Shared) (rt rt' : Runtime) (job job' : Job .ping) (req : Request .ping)
      (f : Flight Crates.ideal) (env : Env) (did : Activity Crates.ideal) (q : PeerRuntime)
      (m : Message) (payload : Payload .ping),
      net.Run tr s ∧ Honest tr ∧ s.DistinctStealths ∧ s.node 0 = .running sh rt ∧
      rt.tables.drawn < 2 ^ 64 ∧ rt.jobs .ping 0 = some job ∧ job.current = some req ∧
      req.stage = .waiting ∧ req.rx = [] ∧ Step net s (.deliver 0 f false env did) s' ∧
      did.dispatched = some (q, m) ∧ Answers sh env m .ping req.id payload ∧
      Lib.Exec (Step net) s' post s'' ∧ s''.node 0 = .running sh' rt' ∧
      rt'.jobs .ping 0 = some job' ∧ job'.completed ∧
      job'.results = [(some req.id, .failed "st-b" "timeout after 1000 ms" .ping)] := by
  obtain ⟨tr₀, hrun₀, hhonest₀⟩ := run_started
  obtain ⟨⟨tr, s⟩, htr, hcheck⟩ := (Option.any_eq_true _ _).mp losing_computed
  obtain ⟨⟨sh, rt⟩, hheld, hcheck⟩ := (Option.any_eq_true _ _).mp hcheck
  obtain ⟨hcheck, hstep⟩ := Bool.and_eq_true_iff.mp hcheck
  obtain ⟨hdrawn, hwaits⟩ := Bool.and_eq_true_iff.mp hcheck
  obtain ⟨job, hjob, hwaits⟩ := (Option.any_eq_true _ _).mp hwaits
  obtain ⟨req, hreq, hwaits⟩ := (Option.any_eq_true _ _).mp hwaits
  obtain ⟨hwaits, hid⟩ := Bool.and_eq_true_iff.mp hwaits
  obtain ⟨hstage, hrx⟩ := Bool.and_eq_true_iff.mp hwaits
  obtain ⟨⟨l, s₁⟩, hstep, hcheck⟩ := (Option.any_eq_true _ _).mp hstep
  obtain ⟨hact, hcheck⟩ := Bool.and_eq_true_iff.mp hcheck
  obtain ⟨⟨i, did⟩, hact, hdoes⟩ := (Option.any_eq_true _ _).mp hact
  obtain ⟨hi, hsome⟩ := Bool.and_eq_true_iff.mp hdoes
  obtain ⟨⟨q, m⟩, hdid, hanswers⟩ := (Option.any_eq_true _ _).mp hsome
  obtain ⟨⟨post, s₂⟩, hpost, hcheck⟩ := (Option.any_eq_true _ _).mp hcheck
  obtain ⟨⟨sh', rt'⟩, hheld', hcheck⟩ := (Option.any_eq_true _ _).mp hcheck
  obtain ⟨job', hjob', hcheck⟩ := (Option.any_eq_true _ _).mp hcheck
  obtain ⟨hcheck, hresults⟩ := Bool.and_eq_true_iff.mp hcheck
  obtain ⟨hnone, hcount⟩ := Bool.and_eq_true_iff.mp hcheck
  obtain ⟨j, f, did', rfl⟩ := Sim.step_deliver hstep
  obtain ⟨rfl, rfl⟩ := Prod.mk.inj (Option.some.inj hact)
  obtain rfl := beq_iff_eq.mp hi
  obtain ⟨payload, hans⟩ := answers_of_answersPing hanswers (Env.at s.clock)
  have hexec := Sim.run_sound htr
  have hresults := beq_iff_eq.mp hresults
  refine ⟨tr₀ ++ tr, post, s.state, s₁.state, s₂.state, sh, sh', rt, rt', job, job', req, f, _, _, q,
    m, payload, hrun₀.append hexec,
    hhonest₀.append (Sim.run_honest (by simp [asking, answering]) htr), distinctStealths hexec,
    Sim.running_iff.mpr hheld, of_decide_eq_true hdrawn, hjob, hreq, of_decide_eq_true hstage,
    List.isEmpty_iff.mp hrx, Sim.step_sound hstep, hdid, ?_, Sim.run_sound hpost,
    Sim.running_iff.mpr hheld', hjob', ⟨Option.isNone_iff_eq_none.mp hnone, ?_⟩, ?_⟩
  · rw [beq_iff_eq.mp hid]
    exact hans
  · rw [beq_iff_eq.mp hcount, hresults]
    exact le_rfl
  · rw [beq_iff_eq.mp hid, hresults]

end Line

end StealthNet
