/-
  StealthNet.Network.Linearization
  ────────────────────────────────
  THE MOMENT OF A QUERY.

  A thread that asks a node draws an id, and gets a reply much later.  Its
  request and the response cross relays and the hands of an attacker, while
  registrations arrive at the node it asks.  All the same the reply is what
  this node says at one moment, after the id was drawn and before the reply
  came (`Net.Run.query_linearizes`): nobody gets an answer that was made for
  an earlier request, to this thread or to another.

  So what was registered before a query is in its result, and what is not lost
  is registered (`Net.Run.registration_listed`).

    §1  where a response comes from;
    §2  the moment of a query;
    §3  registries only grow;
    §4  queries in their order;
    §5  from a registration to the lists that follow it.
-/
import StealthNet.Network.Integrity
import StealthNet.Network.Startup

namespace StealthNet

open Lib (HashMap)

variable {C : Crates} {ι : Type}

section

variable [DecidableEq ι] {net : Net ι} {tr : List (Label C ι)} {s s' : State C ι} {l : Label C ι}

/-! ## §1. Where a response comes from. -/

/-- At this moment node `D` can respond so, and the id of the request has been
drawn. -/
structure RespondsAt (net : Net ι) (tr : List (Label C ι)) (s : State C ι) (head : Head) (D : ι)
    (shD : Shared) (rtD : Runtime) (env : Env) (content : Message) : Prop where
  run : net.Run tr s
  runs : s.node D = .running shD rtD
  responds : ∃ m m', m.request = some head ∧ respond shD env rtD.tables m = some m' ∧
    m'.content = content
  asked : ∃ i sh tx, s.Runs i sh ∧ head.src = sh.localStealth ∧
    Seen.drew i ⟨head.kind, head.id, tx, head.target⟩ ∈ Lib.seen Label.see tr

/-- There was such a moment. -/
def Arose (net : Net ι) (tr : List (Label C ι)) (head : Head) (content : Message) : Prop :=
  ∃ tr₁ tr₂ s₁ D shD rtD env, tr = tr₁ ++ tr₂ ∧ RespondsAt net tr₁ s₁ head D shD rtD env content

theorem Arose.append {head : Head} {content : Message} (h : Arose net tr head content)
    (tr' : List (Label C ι)) : Arose net (tr ++ tr') head content := by
  obtain ⟨tr₁, tr₂, s₁, D, shD, rtD, env, rfl, hat⟩ := h
  exact ⟨tr₁, tr₂ ++ tr', s₁, D, shD, rtD, env, List.append_assoc .., hat⟩

/-- A response that a node emits was made now, or is passed on. -/
theorem Net.Run.emitted_arose (hb : C.BincodeRoundTrips) (ho : C.AeadCorrect)
    (hpeers : HonestPeers C net) (hkeys : KeysDetermineSecrets C net) (hrun : net.Run tr s)
    (hstep : Step net s l s') (hideal : Unforgeable net (tr ++ [l])) {D : ι} {env : Env}
    {packet : Bytes} (hl : l.received = some (D, env, packet)) {shD : Shared} {rtD : Runtime}
    (hD : s.node D = .running shD rtD) {peer p : PeerRuntime} {m m' : Message}
    (hopen : openDatagram C shD.peersById packet = .ok (peer, m))
    (hemit : Emits shD env rtD.tables peer m p m') {head : Head} (hhead : m'.response = some head)
    (ih : ∀ A (call : SendCall C), Called tr A call → call.msg.response = some head →
      Arose net tr head call.msg.content) :
    Arose net tr head m'.content := by
  obtain ⟨atr, a, hserves, hrep, hsame⟩ := hrun.represented hb ho hpeers hkeys hideal.of_append
  obtain ⟨x, hx, hcontent⟩ :=
    hrun.posted_of_open hb ho hpeers hkeys hstep hideal hl hD hopen hrep
  rcases hemit.response_cases with ⟨ttl, rfl⟩ | ⟨hrespond, -⟩ | ⟨-, hnot⟩
  · -- what is passed on was sent before
    obtain ⟨call, hcalled, hposts⟩ := hrep.called x hx
    rw [hposts.inv.2] at hcontent
    rw [Message.content_withTtl, ← hcontent]
    refine ih _ call hcalled ?_
    rw [← Message.response_content, hcontent, ← Message.content_withTtl m ttl,
      Message.response_content, hhead]
  · obtain ⟨head', hrequest, hresponse, -⟩ := respond_response hrespond
    obtain rfl := Option.some.inj (hresponse.symm.trans hhead)
    have hrequest' : x.content.request = some head' := by
      rw [hcontent, show m.content.request = m.request from Message.request_withTtl .., hrequest]
    obtain ⟨i, sh, tx, hasked⟩ := Net.Serves.asked hserves hx hrequest'
    refine ⟨tr, [], s, D, shD, rtD, env, (List.append_nil tr).symm, hrun, hD,
      ⟨m, m', hrequest, hrespond, rfl⟩, i, sh, tx, ?_, hasked.src, ?_⟩
    · show (s.node i).shared = some sh
      rw [← hrep.node]
      exact hasked.runs
    · rw [← hsame]
      exact hasked.drew
  · rw [Message.isResponse_of_response hhead] at hnot
    cases hnot

/-- Whoever sends a response, some node made it, after its request had drawn its
id. -/
theorem Net.Run.response_arose (hb : C.BincodeRoundTrips) (ho : C.AeadCorrect)
    (hpeers : HonestPeers C net) (hkeys : KeysDetermineSecrets C net) (hrun : net.Run tr s)
    (hideal : Unforgeable net tr) {A : ι} {call : SendCall C} (hcall : Called tr A call)
    {head : Head} (hhead : call.msg.response = some head) :
    Arose net tr head call.msg.content := by
  refine hrun.history (I := fun tr _ => Unforgeable net tr → ∀ A (call : SendCall C) head,
    Called tr A call → call.msg.response = some head → Arose net tr head call.msg.content)
    ?_ ?_ hideal A call head hcall hhead
  · intro _ A call head hcall
    obtain ⟨l, hl, -⟩ := hcall
    cases hl
  · intro tr s l s' hrun ih hstep hideal A call head hcall hhead
    have ih := ih hideal.of_append
    rcases called_snoc.mp hcall with hcall | ⟨did, hdoes, hmem⟩
    · exact (ih A call head hcall hhead).append [l]
    · have hold : Arose net tr head call.msg.content := by
        cases hstep.called hdoes hmem with
        | acted hlocal =>
            -- by itself a node responds to nobody
            generalize s.node A = p at hlocal
            cases hlocal with
            | asked _ _ hto =>
                rw [hto.msg] at hhead
                cases hhead
            | originated horig _ =>
                have hnot := horig.request_cases.1
                rw [Message.isResponse_of_response hhead] at hnot
                cases hnot
        | delivered _ hA hopen _ hemit _ | injected hA hopen _ hemit _ =>
            exact Net.Run.emitted_arose hb ho hpeers hkeys hrun hstep hideal rfl hA hopen hemit hhead
              fun A' call' hcall' hhead' => ih A' call' head hcall' hhead'
      exact hold.append [l]

/-! ## §2. The moment of a query. -/

/-- What a node tells of itself in a response, as a payload. -/
def Tells (sh : Shared) (env : Env) (t : Tables) : (κ : RequestKind) → Payload κ → Prop
  | .ping, result => ∃ rtt, result =
      { target := sh.localStealth, ok := true, rttMs := some rtt,
        responderStealth := some sh.localStealth, responderId := some sh.config.node.id,
        error := none : PingResult }
  | .clients, payload => payload = (sh.localStealth, publishedClients sh env t)

omit [DecidableEq ι] in
/-- The payload of a response is what its responder tells, however often it was
passed on. -/
theorem Answers.tells {sh shD : Shared} {env envD : Env} {t : Tables} {m m₀ m₁ : Message}
    {κ : RequestKind} {id : UInt64} {payload : Payload κ} (hans : Answers sh env m κ id payload)
    (hresp : respond shD envD t m₀ = some m₁) (hm : m₁.content = m.content) :
    Tells shD envD t κ payload := by
  cases m₀ with
  | pingReq ping =>
      simp only [respond] at hresp
      split at hresp
      · obtain rfl := Option.some.inj hresp
        cases hans with
        | @ping pong =>
            obtain ⟨-, hsrc, -, -, -, hid, hstealth⟩ := PingResp.mk.inj (Message.pingResp.inj hm)
            refine ⟨saturatingSub env.nowMs pong.timestampMs, ?_⟩
            unfold pingResult
            rw [← hsrc, ← hid, ← hstealth]
            rfl
        | clients => cases hm
      · cases hresp
  | publicClientsReq req =>
      simp only [respond] at hresp
      split at hresp
      · obtain rfl := Option.some.inj hresp
        cases hans with
        | ping => cases hm
        | clients =>
            obtain ⟨-, -, -, -, hstealth, hclients⟩ :=
              PublicClientsResp.mk.inj (Message.publicClientsResp.inj hm)
            exact Prod.ext hstealth.symm hclients.symm
      · cases hresp
  | _ => cases hresp

/-- The moment of a query: after its id was drawn, the node it asks tells
this. -/
structure QueriedAt (net : Net ι) (tr : List (Label C ι)) (s : State C ι) (i : ι) (κ : RequestKind)
    (tx : Tx) (payload : Payload κ) (D : ι) (shD : Shared) (rtD : Runtime) : Prop where
  run : net.Run tr s
  drew : ∃ id, Seen.drew i ⟨κ, id, tx, shD.localStealth⟩ ∈ Lib.seen Label.see tr
  runs : s.node D = .running shD rtD
  tells : ∃ env, Tells shD env rtD.tables κ payload

/-- The moment of a query is not before its id is drawn. -/
theorem QueriedAt.later {tr₁ tr₂ base rest : List (Label C ι)} {s₁ : State C ι} {i : ι}
    {κ : RequestKind} {tx : Tx} {payload : Payload κ} {D : ι} {shD : Shared} {rtD : Runtime}
    (hat : QueriedAt net tr₁ s₁ i κ tx payload D shD rtD) (htr : base ++ rest = tr₁ ++ tr₂)
    (hfresh : ∀ ticket, Seen.drew i ticket ∈ Lib.seen Label.see base → ticket.kind = κ →
      ticket.tx ≠ tx) :
    ∃ mid, tr₁ = base ++ mid ∧ rest = mid ++ tr₂ := by
  rcases List.append_eq_append_iff.mp htr with ⟨mid, h₁, h₂⟩ | ⟨mid, h₁, -⟩
  · exact ⟨mid, h₁, h₂⟩
  · obtain ⟨id, hdrew⟩ := hat.drew
    refine absurd rfl (hfresh ⟨κ, id, tx, shD.localStealth⟩ ?_ rfl)
    rw [h₁, Lib.seen_append]
    exact List.mem_append_left _ hdrew

/-- A reply in the next step has had its moment. -/
theorem Net.Run.queried_step (hb : C.BincodeRoundTrips) (ho : C.AeadCorrect)
    (hpeers : HonestPeers C net) (hkeys : KeysDetermineSecrets C net) (hrun : net.Run tr s)
    (hstep : Step net s l s') (hideal : Unforgeable net (tr ++ [l]))
    (hstealths : s.DistinctStealths) {i : ι} {sh : Shared} {rt : Runtime}
    (hi : s.node i = .running sh rt) (hdrawn : rt.tables.drawn ≤ 2 ^ 64) {κ : RequestKind} {tx : Tx}
    {payload : Payload κ} (hreplied : Seen.replied i κ tx payload ∈ l.see) :
    ∃ tr₁ tr₂ s₁ D shD rtD, tr = tr₁ ++ tr₂ ∧ Lib.Exec (Step net) s₁ tr₂ s ∧
      QueriedAt net tr₁ s₁ i κ tx payload D shD rtD := by
  obtain ⟨env, packet, sh', rt', peer, m, id, hl, hi', hopen, hans, hlook⟩ := hstep.replied hreplied
  obtain ⟨rfl, rfl⟩ := Phase.running.inj (hi.symm.trans hi')
  obtain ⟨atr, a, hserves, hrep, hsame⟩ := hrun.represented hb ho hpeers hkeys hideal.of_append
  obtain ⟨x, hx, hcontent⟩ :=
    hrun.posted_of_open hb ho hpeers hkeys hstep hideal hl hi hopen hrep
  -- the response was sent, so it arose
  obtain ⟨call, hcalled, hposts⟩ := hrep.called x hx
  rw [hposts.inv.2] at hcontent
  obtain ⟨target, -, hresponse⟩ := hans.response
  have hhead : call.msg.response = some ⟨κ, id, sh.localStealth, target⟩ := by
    rw [← Message.response_content, hcontent, Message.response_content, hresponse]
  obtain ⟨tr₁, tr₂, s₁, D, shD, rtD, envD, rfl, hat⟩ :=
    hrun.response_arose hb ho hpeers hkeys hideal.of_append hcalled hhead
  obtain ⟨s₁', hrun₁, hexec⟩ := hrun.split
  obtain rfl := hat.run.deterministic hrun₁
  obtain ⟨m₀, m₁, hrequest, hrespond, hm₁⟩ := hat.responds
  have htells := hans.tells hrespond (hm₁.trans hcontent)
  obtain ⟨head', hrequest', -, htarget⟩ := respond_response hrespond
  obtain rfl := Option.some.inj (hrequest'.symm.trans hrequest)
  -- its id was drawn once, so for the iteration that gets the reply
  obtain ⟨i', shi, tx', hi', hsrc, hdrew⟩ := hat.asked
  obtain rfl : i = i' := hstealths i i' sh shi (State.runs_of_running hi) (exec_shared hexec hi') hsrc
  obtain ⟨job, req, hawaited, -, hissued⟩ := hrun.pending_issued hi hlook
  have hdrew' : Seen.drew i ⟨κ, id, tx', target⟩ ∈ Lib.seen Label.see (tr₁ ++ tr₂) := by
    rw [Lib.seen_append]
    exact List.mem_append_left _ hdrew
  have hticket := (hrun.ids hi hdrawn).unique _ _ hissued (issued_of_seen hdrew') rfl
  obtain ⟨-, -, htx, -⟩ := Ticket.mk.inj hticket
  have htx' : tx' = tx := by
    rw [← htx, hawaited.iteration]
  subst htx'
  obtain rfl : target = shD.localStealth := htarget
  exact ⟨tr₁, tr₂, s₁, D, shD, rtD, rfl, hexec, hrun₁, ⟨id, hdrew⟩, hat.runs, envD, htells⟩

/-- So has every reply in a run, before it was seen. -/
theorem Net.Run.queried (hb : C.BincodeRoundTrips) (ho : C.AeadCorrect)
    (hpeers : HonestPeers C net) (hkeys : KeysDetermineSecrets C net) (hrun : net.Run tr s)
    (hideal : Unforgeable net tr) (hstealths : s.DistinctStealths)
    (hdrawn : ∀ i sh rt, s.node i = .running sh rt → rt.tables.drawn ≤ 2 ^ 64) {i : ι}
    {κ : RequestKind} {tx : Tx} {payload : Payload κ} {before after : List (Seen ι)}
    (hseen : Lib.seen Label.see tr = before ++ .replied i κ tx payload :: after) :
    ∃ tr₁ tr₂ s₁ D shD rtD, tr = tr₁ ++ tr₂ ∧ Lib.seen Label.see tr₁ <+: before ∧
      Lib.Exec (Step net) s₁ tr₂ s ∧ QueriedAt net tr₁ s₁ i κ tx payload D shD rtD := by
  obtain ⟨mid, l, rest, before', after', rfl, hsee, rfl⟩ := Lib.seen_eq_append_cons hseen
  obtain ⟨u₁, u₂, hmid, hstep, hrest⟩ := hrun.split_cons
  have hlast := (Lib.Exec.single hstep).append hrest
  have hreplied : Seen.replied i κ tx payload ∈ l.see := by
    rw [hsee]
    exact List.mem_append_right _ List.mem_cons_self
  -- the node runs when the reply comes, so it still does
  obtain ⟨-, -, sh, rt, -, -, -, -, hi, -, -, -⟩ := hstep.replied hreplied
  obtain ⟨rt', hi'⟩ := Phase.shared_eq_some.mp (exec_shared hlast (State.runs_of_running hi))
  rw [List.append_cons] at hideal
  obtain ⟨tr₁, tr₂, s₁, D, shD, rtD, rfl, hexec, hat⟩ :=
    Net.Run.queried_step hb ho hpeers hkeys hmid hstep hideal.of_append (hstealths.of_exec hlast) hi
      (Nat.le_trans (exec_drawn_le hlast hi hi') (hdrawn i sh rt' hi')) hreplied
  refine ⟨tr₁, tr₂ ++ l :: rest, s₁, D, shD, rtD, List.append_assoc .., ?_, hexec.append hlast, hat⟩
  rw [Lib.seen_append, List.append_assoc]
  exact List.prefix_append _ _

/-! ## §3. Registries only grow. -/

/-- A stealth that is registered stays registered. -/
theorem exec_registered (hexec : Lib.Exec (Step net) s tr s') {G : ι} {shG : Shared} {rt : Runtime}
    (hG : s.node G = .running shG rt) {stealth : String} {entry : PublicClientEntry}
    (hlook : rt.tables.registeredClients.lookup stealth = some entry) :
    ∃ rt' entry', s'.node G = .running shG rt' ∧
      rt'.tables.registeredClients.lookup stealth = some entry' := by
  refine hexec.stable (P := fun s => ∃ rt entry, s.node G = .running shG rt ∧
    rt.tables.registeredClients.lookup stealth = some entry) ⟨rt, entry, hG, hlook⟩ ?_
  intro s l s' hstep h
  obtain ⟨rt, entry, hG, hlook⟩ := h
  obtain ⟨rt', hG', ⟨reg, -, hinsert⟩ | ⟨-, hsame⟩⟩ := hstep.registry hG
  · by_cases hkey : stealth = reg.client.clientStealth
    · exact ⟨rt', reg.client, hG', by rw [hinsert, HashMap.lookup_insert_eq, if_pos hkey]⟩
    · exact ⟨rt', entry, hG', by rw [hinsert, HashMap.lookup_insert_eq, if_neg hkey, hlook]⟩
  · exact ⟨rt', entry, hG', by rw [hsame, hlook]⟩

/-- Nor does its entry change, whatever an attacker injects. -/
theorem Net.Run.entry_stays (hb : C.BincodeRoundTrips) (ho : C.AeadCorrect)
    (hpeers : HonestPeers C net) (hkeys : KeysDetermineSecrets C net) {tr' : List (Label C ι)}
    (hrun : net.Run tr s) (hexec : Lib.Exec (Step net) s tr' s') (hideal : Unforgeable net (tr ++ tr'))
    (hstealths : s'.DistinctStealths) {G : ι} {shG : Shared} {rt : Runtime}
    (hG : s.node G = .running shG rt) {stealth : String} {entry : PublicClientEntry}
    (hlook : rt.tables.registeredClients.lookup stealth = some entry) :
    ∃ rt', s'.node G = .running shG rt' ∧
      rt'.tables.registeredClients.lookup stealth = some entry := by
  obtain ⟨rt', entry', hG', hlook'⟩ := exec_registered hexec hG hlook
  -- both entries are what the client with this stealth says of itself
  obtain ⟨atr, a, hserves, hrep, -⟩ := hrun.represented hb ho hpeers hkeys hideal.of_append
  obtain ⟨atr', a', hserves', hrep', -⟩ :=
    Net.Run.represented hb ho hpeers hkeys (hrun.append hexec) hideal
  obtain ⟨hkey, c, sh, cfg, hc, -, hclient, hentry⟩ :=
    Net.Serves.registry hserves (hrep.node ▸ hG) hlook
  obtain ⟨hkey', c', sh', cfg', hc', -, hclient', hentry'⟩ :=
    Net.Serves.registry hserves' (hrep'.node ▸ hG') hlook'
  rw [hrep.node] at hc
  rw [hrep'.node] at hc'
  have hc := exec_shared hexec hc
  have hsame : sh.localStealth = sh'.localStealth := by
    rw [hentry] at hkey
    rw [hentry'] at hkey'
    exact hkey.trans hkey'.symm
  obtain rfl := hstealths c c' sh sh' hc hc' hsame
  obtain rfl := Option.some.inj (hc.symm.trans hc')
  obtain rfl := Option.some.inj (hclient.symm.trans hclient')
  exact ⟨rt', hG', by rw [hlook', hentry, hentry']⟩

omit [DecidableEq ι] in
theorem mem_publishedClients_of_lookup {sh : Shared} {t : Tables} {stealth : String}
    {entry : PublicClientEntry} (env : Env)
    (h : t.registeredClients.lookup stealth = some entry) : entry ∈ publishedClients sh env t := by
  rw [publishedClients_eq]
  refine List.mem_append_right _ ((env.valuesOrder_perm _).mem_iff.mpr ?_)
  exact HashMap.mem_values.mpr ⟨stealth, h⟩

/-! ## §4. Queries in their order. -/

/-- A list that is asked for after another one came has all that is in it. -/
theorem Net.Run.reads_monotone (hb : C.BincodeRoundTrips) (ho : C.AeadCorrect)
    (hpeers : HonestPeers C net) (hkeys : KeysDetermineSecrets C net) (hrun : net.Run tr s)
    (hideal : Unforgeable net tr) (hstealths : s.DistinctStealths)
    (hdrawn : ∀ i sh rt, s.node i = .running sh rt → rt.tables.drawn ≤ 2 ^ 64) {i i' : ι} {tx tx' : Tx}
    {stealth : String} {clients clients' : List PublicClientEntry} {before mid after : List (Seen ι)}
    (hseen : Lib.seen Label.see tr = before ++ .replied i .clients tx (stealth, clients) ::
      (mid ++ .replied i' .clients tx' (stealth, clients') :: after))
    (hfresh : ∀ ticket, Seen.drew i' ticket ∈ before → ticket.kind = .clients → ticket.tx ≠ tx') :
    ∀ entry ∈ clients, entry ∈ clients' := by
  obtain ⟨tr₁, tr₂, s₁, D, shD, rtD, rfl, hearlier, -, hat⟩ :=
    Net.Run.queried hb ho hpeers hkeys hrun hideal hstealths hdrawn hseen
  rw [← List.cons_append, ← List.append_assoc] at hseen
  obtain ⟨tr₁', tr₂', s₁', D', shD', rtD', htr, -, hexec', hat'⟩ :=
    Net.Run.queried hb ho hpeers hkeys hrun hideal hstealths hdrawn hseen
  -- the second moment is not before the first
  obtain ⟨between, rfl, -⟩ :=
    hat'.later htr fun ticket hdrew hkind => hfresh ticket (hearlier.subset hdrew) hkind
  obtain ⟨v, hrun₁, hbetween⟩ := hat'.run.split
  obtain rfl := hat.run.deterministic hrun₁
  have hstealths' := hstealths.of_exec hexec'
  have hideal' : Unforgeable net (tr₁ ++ between) := by
    rw [htr] at hideal
    exact hideal.of_append
  -- it is the same node
  obtain ⟨env, htells⟩ := hat.tells
  obtain ⟨env', htells'⟩ := hat'.tells
  obtain ⟨rfl, rfl⟩ := Prod.mk.inj htells
  obtain ⟨hstealth, rfl⟩ := Prod.mk.inj htells'
  have hD := exec_shared hbetween (State.runs_of_running hat.runs)
  obtain rfl := hstealths' D D' shD shD' hD (State.runs_of_running hat'.runs) hstealth
  obtain rfl := Option.some.inj (hD.symm.trans (State.runs_of_running hat'.runs))
  intro entry hentry
  rcases mem_publishedClients hentry with hconfigured | ⟨key, hlook⟩
  · rw [publishedClients_eq]
    exact List.mem_append_left _ hconfigured
  · obtain ⟨rt, hD', hlook'⟩ := Net.Run.entry_stays hb ho hpeers hkeys hat.run hbetween hideal'
      hstealths' hat.runs hlook
    obtain ⟨-, rfl⟩ := Phase.running.inj (hat'.runs.symm.trans hD')
    exact mem_publishedClients_of_lookup env' hlook'

/-- Queries take place one at a time, each between its draw and its reply: every
reply is what the node asked tells at one moment in between, so that of two
lists of one node the later one has all that is in the earlier. -/
theorem Net.Run.query_linearizes (hb : C.BincodeRoundTrips) (ho : C.AeadCorrect)
    (hpeers : HonestPeers C net) (hkeys : KeysDetermineSecrets C net) (hrun : net.Run tr s)
    (hideal : Unforgeable net tr) (hstealths : s.DistinctStealths)
    (hdrawn : ∀ i sh rt, s.node i = .running sh rt → rt.tables.drawn ≤ 2 ^ 64) :
    (∀ i κ tx payload before after,
      Lib.seen Label.see tr = before ++ .replied i κ tx payload :: after →
      ∃ tr₁ tr₂ s₁ D shD rtD, tr = tr₁ ++ tr₂ ∧ Lib.seen Label.see tr₁ <+: before ∧
        QueriedAt net tr₁ s₁ i κ tx payload D shD rtD) ∧
    ∀ i i' tx tx' stealth clients clients' before mid after,
      Lib.seen Label.see tr = before ++ .replied i .clients tx (stealth, clients) ::
        (mid ++ .replied i' .clients tx' (stealth, clients') :: after) →
      (∀ ticket, Seen.drew i' ticket ∈ before → ticket.kind = .clients → ticket.tx ≠ tx') →
      ∀ entry ∈ clients, entry ∈ clients' := by
  constructor
  · intro i κ tx payload before after hseen
    obtain ⟨tr₁, tr₂, s₁, D, shD, rtD, htr, hearlier, -, hat⟩ :=
      Net.Run.queried hb ho hpeers hkeys hrun hideal hstealths hdrawn hseen
    exact ⟨tr₁, tr₂, s₁, D, shD, rtD, htr, hearlier, hat⟩
  · intro i i' tx tx' stealth clients clients' before mid after hseen hfresh
    exact Net.Run.reads_monotone hb ho hpeers hkeys hrun hideal hstealths hdrawn hseen hfresh

/-! ## §5. From a registration to the lists that follow it. -/

variable {c H : ι} {sh shH : Shared} {cfg : ClientConfig}

/-- `c` is a client that runs, with `H` as its home gateway, which lists it. -/
structure Registrable (net : Net ι) (s : State C ι) (c H : ι) (sh shH : Shared)
    (cfg : ClientConfig) : Prop where
  role : roleIsClient (net.config c) = true
  client : (net.config c).client = some cfg
  runs : s.Runs c sh
  gateway : (net.config H).node.id = cfg.homeGatewayId
  gateway_runs : s.Runs H shH
  listed : ∃ peer ∈ (net.config H).peers, peer.id = (net.config c).node.id

/-- It has its home gateway as a peer, under the stealth that the gateway has:
otherwise it would not run. -/
theorem Registrable.home (hb : C.BincodeRoundTrips) (ho : C.AeadCorrect)
    (hpeers : HonestPeers C net) (hkeys : KeysDetermineSecrets C net) (hrun : net.Run tr s)
    (hideal : Unforgeable net tr) (h : Registrable net s c H sh shH cfg) :
    sh.config.client = some cfg ∧ ∃ home, sh.peersById.lookup cfg.homeGatewayId = some home ∧
      home.cfg.stealth = shH.localStealth := by
  obtain ⟨clientCfg, H', shH', req, -, -, hclient, hgateway, hruns, -, -, -, -, -, -, -, hconfig, home,
    hhome, hknown⟩ := Net.Run.assigned hb ho hpeers hkeys hrun hideal h.runs h.role
  obtain rfl := Option.some.inj (hclient.symm.trans h.client)
  obtain rfl := hpeers.ids H' H (hgateway.trans h.gateway.symm)
  obtain rfl := Option.some.inj (hruns.symm.trans h.gateway_runs)
  refine ⟨?_, home, hhome, hknown⟩
  rw [hconfig, adoptAssignment_client, hclient]

/-- A client that can send sends its entry to its home gateway. -/
theorem Step.registers (hb : C.BincodeRoundTrips) (ho : C.AeadCorrect) (hC : C.Total)
    (hpeers : HonestPeers C net) (hkeys : KeysDetermineSecrets C net) (hrun : net.Run tr s)
    (hideal : Unforgeable net tr) (haddr : Addressed net) (h : Registrable net s c H sh shH cfg)
    {env : Env} {did : Activity C} (hstep : Step net s (.act c .clientRegister env did) s')
    (henv : env.socketAccepts = true) :
    ∃ f ∈ s'.inflight, s.clock ∈ f.trail ∧ net.host f.datagram.call.addr = some H ∧
      f.datagram.call.senderId = (net.config c).node.id ∧
      ∃ reg, f.msg = .clientRegister reg ∧ reg.targetGatewayStealth = shH.localStealth ∧
        reg.client = registerEntry sh cfg ∧ reg.ttl = 16 := by
  obtain ⟨rt, hc⟩ := Phase.shared_eq_some.mp h.runs
  have hbuilt := hrun.builtFrom c
  have hact := hstep.act_of_act
  rw [hc] at hact hbuilt
  obtain ⟨rt', -, hact⟩ := Phase.act_running hact
  obtain ⟨peers, hpeersC, hbyId, -⟩ := hbuilt.peers
  obtain ⟨hclient, home, hhome, hknown⟩ := h.home hb ho hpeers hkeys hrun hideal
  obtain ⟨hid, hmem, hlink⟩ := peerTables_lookup hpeersC (hbyId ▸ hhome)
  cases hact with
  | clientRegister hrole =>
      obtain ⟨d, hd, hsent⟩ := (sendDirect_spec env _ _ _ _).exists_of_ok (sendDirect_ok hC env henv
        sh.config.node.id home.addr home.key (.clientRegister
          { requestId := (rt.tables.drawRequestId).1
            srcStealth := sh.localStealth
            targetGatewayStealth := home.cfg.stealth
            client := registerEntry sh cfg
            ttl := 16 }))
      have heff : (sendClientRegister C sh env rt.tables).1.effects
          = [.encrypted d.call, .udpSend d] := by
        unfold sendClientRegister
        rw [hclient]
        dsimp only
        rw [hhome]
        dsimp only
        unfold sendToPeer
        rw [hid, hhome]
        exact hsent
      have hflight : (⟨d, [s.clock]⟩ : Flight C) ∈ s'.inflight := by
        refine hstep.mem_inflight (Label.does_act ..) ?_
        show Effect.udpSend d ∈ (sendClientRegister C sh env rt.tables).1.effects
        rw [heff]
        exact List.mem_cons_of_mem _ List.mem_cons_self
      refine ⟨_, hflight, List.mem_singleton_self _, ?_, ?_, _, hd.msg, hknown, rfl, rfl⟩
      · rw [hd.addr]
        exact haddr c _ hmem H home.addr (hid.trans h.gateway.symm) hlink.addr
      · rw [hd.senderId, hbuilt.nodeId]

/-- Delivered to the gateway, the entry is registered. -/
theorem Step.registered (hb : C.BincodeRoundTrips) (ho : C.AeadCorrect) (hk : C.KeyAgreement)
    (hpeers : HonestPeers C net) (haddr : Addressed net) (hrun : net.Run tr s) {f : Flight C}
    {keep : Bool} {env : Env} {did : Activity C}
    (hstep : Step net s (.deliver H f keep env did) s') {rtH : Runtime}
    (hH : s.node H = .running shH rtH) {peer : PeerConfig} (hpeer : peer ∈ (net.config H).peers)
    (hid : peer.id = f.datagram.call.senderId) {reg : ClientRegister}
    (hmsg : f.msg = .clientRegister reg) (htarget : reg.targetGatewayStealth = shH.localStealth)
    (httl : reg.ttl ≠ 0) :
    ∃ rtH', s'.node H = .running shH rtH' ∧
      rtH'.tables.registeredClients.lookup reg.client.clientStealth = some reg.client := by
  obtain ⟨hf, hhost, -⟩ := hstep.received_of_deliver
  obtain ⟨q, -, hopen⟩ := hrun.opens hb ho hk hpeers haddr hf hhost hH hpeer hid
  have hears : Hears s (.deliver H f keep env did) H reg :=
    ⟨env, _, shH, rtH, q, rfl, hH, by rw [hopen, ← hmsg]; rfl, httl, htarget⟩
  obtain ⟨rtH', hH', ⟨reg', hiff, hinsert⟩ | ⟨hdeaf, -⟩⟩ := hstep.registry hH
  · obtain rfl := (hiff reg).mp hears
    exact ⟨rtH', hH', by rw [hinsert, HashMap.lookup_insert_eq, if_pos rfl]⟩
  · exact absurd hears (hdeaf reg)

theorem Registrable.later (h : Registrable net s c H sh shH cfg)
    (hexec : Lib.Exec (Step net) s tr s') : Registrable net s' c H sh shH cfg :=
  { h with
    runs := exec_shared hexec h.runs
    gateway_runs := exec_shared hexec h.gateway_runs }

/-- Where nothing that descends from it is lost, a registration is registered.
The entry stays. -/
theorem Net.Run.registration_arrives (hb : C.BincodeRoundTrips) (ho : C.AeadCorrect)
    (hk : C.KeyAgreement) (hC : C.Total) (hpeers : HonestPeers C net)
    (hkeys : KeysDetermineSecrets C net) (haddr : Addressed net) {pre post later : List (Label C ι)}
    {s₁ s₂ s₃ : State C ι} (hrun : net.Run pre s) (hreg : Registrable net s c H sh shH cfg)
    {env : Env} {did : Activity C} (hstep : Step net s (.act c .clientRegister env did) s₁)
    (henv : env.socketAccepts = true) (hpost : Lib.Exec (Step net) s₁ post s₂)
    (hcomp : Completes s.clock post s₂) (hlater : Lib.Exec (Step net) s₂ later s₃)
    (hideal : Unforgeable net (pre ++ .act c .clientRegister env did :: (post ++ later)))
    (hstealths : s₃.DistinctStealths) :
    ∃ rtH, s₃.node H = .running shH rtH ∧
      rtH.tables.registeredClients.lookup sh.localStealth = some (registerEntry sh cfg) := by
  obtain ⟨f, hf, hn, hhost, hsender, reg, hmsg, htarget, hclient, httl⟩ :=
    hstep.registers hb ho hC hpeers hkeys hrun hideal.of_append haddr hreg henv
  have hreg₁ := hreg.later (.single hstep)
  -- the registration is delivered to the gateway
  obtain ⟨tr₁, i, keep, envH, didH, tr₂, t₁, t₂, rfl, h₁, hstepH, h₂, -, -⟩ :=
    hcomp.delivers hpost hf hn
  obtain rfl : i = H := Option.some.inj (hstepH.received_of_deliver.2.1.symm.trans hhost)
  obtain ⟨rtH, hH⟩ := Phase.shared_eq_some.mp (hreg₁.later h₁).gateway_runs
  obtain ⟨peer, hpeer, hid⟩ := hreg.listed
  have hrun₁ : net.Run (pre ++ [.act c .clientRegister env did] ++ tr₁) t₁ :=
    (hrun.snoc hstep).append h₁
  obtain ⟨rtH', hH', hlook⟩ := hstepH.registered hb ho hk hpeers haddr hrun₁ hH hpeer
    (hid.trans hsender.symm) hmsg htarget (by rw [httl]; decide)
  rw [hclient] at hlook
  rw [show pre ++ .act c .clientRegister env did :: (tr₁ ++ .deliver i f keep envH didH :: tr₂ ++ later)
    = pre ++ [.act c .clientRegister env did] ++ tr₁ ++ [.deliver i f keep envH didH] ++ (tr₂ ++ later)
    by simp] at hideal
  exact Net.Run.entry_stays hb ho hpeers hkeys (hrun₁.snoc hstepH) (h₂.append hlater) hideal hstealths
    hH' hlook

/-- Whatever an attacker injects: a registration that is not lost is registered,
for good, and is in every list of the gateway that a thread gets for a request
which it makes afterwards. -/
theorem Net.Run.registration_listed (hb : C.BincodeRoundTrips) (ho : C.AeadCorrect)
    (hk : C.KeyAgreement) (hC : C.Total) (hpeers : HonestPeers C net)
    (hkeys : KeysDetermineSecrets C net) (haddr : Addressed net) {pre post later : List (Label C ι)}
    {s₁ s₂ s₃ : State C ι} (hrun : net.Run pre s) (hreg : Registrable net s c H sh shH cfg)
    {env : Env} {did : Activity C} (hstep : Step net s (.act c .clientRegister env did) s₁)
    (henv : env.socketAccepts = true) (hpost : Lib.Exec (Step net) s₁ post s₂)
    (hcomp : Completes s.clock post s₂) (hlater : Lib.Exec (Step net) s₂ later s₃)
    (hideal : Unforgeable net (pre ++ .act c .clientRegister env did :: (post ++ later)))
    (hstealths : s₃.DistinctStealths)
    (hdrawn : ∀ i sh rt, s₃.node i = .running sh rt → rt.tables.drawn ≤ 2 ^ 64) :
    (∃ rtH, s₃.node H = .running shH rtH ∧
      rtH.tables.registeredClients.lookup sh.localStealth = some (registerEntry sh cfg)) ∧
    ∀ i tx clients, Seen.replied i .clients tx (shH.localStealth, clients) ∈ Lib.seen Label.see later →
      (∀ ticket, Seen.drew i ticket ∈
        Lib.seen Label.see (pre ++ .act c .clientRegister env did :: post) →
        ticket.kind = .clients → ticket.tx ≠ tx) →
      registerEntry sh cfg ∈ clients := by
  have arrives : ∀ {later : List (Label C ι)} {s₃ : State C ι}, Lib.Exec (Step net) s₂ later s₃ →
      Unforgeable net (pre ++ .act c .clientRegister env did :: (post ++ later)) →
      s₃.DistinctStealths → ∃ rtH, s₃.node H = .running shH rtH ∧
        rtH.tables.registeredClients.lookup sh.localStealth = some (registerEntry sh cfg) :=
    fun hlater hideal hstealths => hrun.registration_arrives hb ho hk hC hpeers hkeys haddr hreg hstep
      henv hpost hcomp hlater hideal hstealths
  refine ⟨arrives hlater hideal hstealths, ?_⟩
  intro i tx clients hreplied hfresh
  generalize hbase : pre ++ .act c .clientRegister env did :: post = base at hfresh
  have hrun₂ : net.Run base s₂ := by
    rw [← hbase]
    exact hrun.append ((Lib.Exec.single hstep).append hpost)
  have hsplit : ∀ tr : List (Label C ι),
      pre ++ .act c .clientRegister env did :: (post ++ tr) = base ++ tr := by
    intro tr
    rw [← hbase, List.append_assoc, List.cons_append]
  rw [hsplit] at hideal
  have hreplied : Seen.replied i .clients tx (shH.localStealth, clients)
      ∈ Lib.seen Label.see (base ++ later) := by
    rw [Lib.seen_append]
    exact List.mem_append_right _ hreplied
  obtain ⟨before, after, hseen⟩ := List.append_of_mem hreplied
  obtain ⟨tr₁, tr₂, v, D, shD, rtD, htr, -, hv, hat⟩ :=
    Net.Run.queried hb ho hpeers hkeys (hrun₂.append hlater) hideal hstealths hdrawn hseen
  obtain ⟨envD, htells⟩ := hat.tells
  obtain ⟨hstealth, hclients⟩ := Prod.mk.inj htells
  -- the query is later than the registration
  obtain ⟨mid, rfl, rfl⟩ := hat.later htr hfresh
  obtain ⟨v', hmid, -⟩ := hlater.split
  obtain rfl := hat.run.deterministic (hrun₂.append hmid)
  have hideal' : Unforgeable net (pre ++ .act c .clientRegister env did :: (post ++ mid)) := by
    rw [hsplit]
    rw [← List.append_assoc] at hideal
    exact hideal.of_append
  have hstealths' := hstealths.of_exec hv
  obtain ⟨rtH, hH, hlook⟩ := arrives hmid hideal' hstealths'
  -- and the node that is asked is the gateway
  obtain rfl : D = H := hstealths' D H shD shH (State.runs_of_running hat.runs)
    (State.runs_of_running hH) hstealth.symm
  obtain ⟨rfl, rfl⟩ := Phase.running.inj (hat.runs.symm.trans hH)
  rw [hclients]
  exact mem_publishedClients_of_lookup envD hlook

end

/-! ## §6. A client that is listed. -/

namespace Home

/-- The registration and its acknowledgement. -/
def arriving : List (Move (Fin 3)) := [.deliver 0 false, .deliver 0 false]

/-- Node `i` asks the gateway for its clients. -/
def querying (i : Fin 3) : List (Move (Fin 3)) :=
  [.act i (.adminRequest 0 (.clients (Line.stealth 2) 1000)), .act i (.admin .clients 0),
    .act i (.admin .clients 0), .act i (.admin .clients 0)]

/-- The client asks, and then the middle node; in between the registration is
reflected to the client. -/
def listing : List (Move (Fin 3)) :=
  querying 0 ++ [.inject 0 captured, .deliver 0 false, .deliver 0 false, .deliver 0 false] ++
    querying 1 ++ [.deliver 0 false, .deliver 0 false]

/-- Two requests, one after the other, are answered by the last node. -/
def showsListing : List (Seen (Fin 3)) → Bool
  | [.drew 0 _, .replied 0 .clients ⟨0, 0⟩ (st, _), .drew 1 _, .replied 1 .clients ⟨0, 0⟩ (st', _)] =>
      st == Line.stealth 2 && st' == Line.stealth 2
  | _ => false

theorem showsListing_eq_true {v : List (Seen (Fin 3))} (h : showsListing v = true) :
    ∃ ticket clients ticket' clients', v = [.drew 0 ticket,
      .replied 0 .clients ⟨0, 0⟩ (Line.stealth 2, clients), .drew 1 ticket',
      .replied 1 .clients ⟨0, 0⟩ (Line.stealth 2, clients')] := by
  unfold showsListing at h
  split at h
  · obtain ⟨hst, hst'⟩ := Bool.and_eq_true_iff.mp h
    rw [beq_iff_eq.mp hst, beq_iff_eq.mp hst']
    exact ⟨_, _, _, _, rfl⟩
  · cases h

/-- The client has the last node as its home gateway. -/
def registrable (s : Sim Crates.ideal (Fin 3)) : Bool :=
  (s.node 0).shared.isSome && (config 0).client.any fun cfg =>
    decide ((config 2).node.id = cfg.homeGatewayId) && (s.node 2).shared.any fun shH =>
      shH.localStealth == Line.stealth 2

/-- Evaluated at once. -/
theorem listing_computed :
    ((Sim.init Crates.ideal (Fin 3)).run net Env.at boot).any (fun r₀ => registrable r₀.2 &&
      (r₀.2.step net Env.at (.act 0 .clientRegister)).any fun r₁ =>
        (r₁.2.run net Env.at arriving).any fun r₂ => (r₂.2.run net Env.at listing).any fun r₃ =>
          replays [] (r₀.1 ++ r₁.1 :: (r₂.1 ++ r₃.1)) && decide (LossFree r₂.1) &&
          r₂.2.inflight.isEmpty && (Lib.seen Label.see (r₀.1 ++ r₁.1 :: r₂.1)).isEmpty &&
          showsListing (Lib.seen Label.see r₃.1) &&
          decide (∀ i, (r₃.2.node i).shared.map Shared.localStealth = some (Line.stealth i)) &&
          decide (∀ i, (r₃.2.node i).held.all (fun (h : Shared × Runtime) =>
            decide (h.2.tables.drawn ≤ 2 ^ 64)) = true)) = true := by
  decide +kernel

/-- A registration that is registered, and two lists after it. -/
structure Listing (pre post later : List (Label Crates.ideal (Fin 3)))
    (s s₁ s₂ s₃ : State Crates.ideal (Fin 3)) (env : Env) (did : Activity Crates.ideal)
    (sh shH : Shared) (cfg : ClientConfig) : Prop where
  run : net.Run pre s
  registrable : Registrable net s 0 2 sh shH cfg
  step : Step net s (.act 0 .clientRegister env did) s₁
  sends : env.socketAccepts = true
  posts : Lib.Exec (Step net) s₁ post s₂
  completes : Completes s.clock post s₂
  follows : Lib.Exec (Step net) s₂ later s₃
  ideal : Unforgeable net (pre ++ .act 0 .clientRegister env did :: (post ++ later))
  stealths : s₃.DistinctStealths
  drawn : ∀ i sh rt, s₃.node i = .running sh rt → rt.tables.drawn ≤ 2 ^ 64
  silent : Lib.seen Label.see (pre ++ .act 0 .clientRegister env did :: post) = []
  gateway : shH.localStealth = Line.stealth 2
  shown : ∃ ticket clients ticket' clients', Lib.seen Label.see later = [.drew 0 ticket,
    .replied 0 .clients ⟨0, 0⟩ (Line.stealth 2, clients), .drew 1 ticket',
    .replied 1 .clients ⟨0, 0⟩ (Line.stealth 2, clients')]

theorem registrable_sound {s : Sim Crates.ideal (Fin 3)} (h : registrable s = true) :
    ∃ sh shH cfg, Registrable net s.state 0 2 sh shH cfg ∧
      shH.localStealth = Line.stealth 2 := by
  obtain ⟨hsh, h⟩ := Bool.and_eq_true_iff.mp h
  obtain ⟨sh, hsh⟩ := Option.isSome_iff_exists.mp hsh
  obtain ⟨cfg, hcfg, h⟩ := (Option.any_eq_true _ _).mp h
  obtain ⟨hid, h⟩ := Bool.and_eq_true_iff.mp h
  obtain ⟨shH, hshH, hlocal⟩ := (Option.any_eq_true _ _).mp h
  exact ⟨sh, shH, cfg,
    { role := by decide
      client := hcfg
      runs := Sim.runs_iff.mpr hsh
      gateway := of_decide_eq_true hid
      gateway_runs := Sim.runs_iff.mpr hshH
      listed := ⟨{ Line.peer 0 with stealth := "st-old" }, List.mem_cons_self, rfl⟩ },
    beq_iff_eq.mp hlocal⟩

theorem exists_listing : ∃ pre post later s s₁ s₂ s₃ env did sh shH cfg,
    Listing pre post later s s₁ s₂ s₃ env did sh shH cfg := by
  obtain ⟨⟨pre, s⟩, hpre, hcheck⟩ := (Option.any_eq_true _ _).mp listing_computed
  obtain ⟨hregistrable, hcheck⟩ := Bool.and_eq_true_iff.mp hcheck
  obtain ⟨⟨l, s₁⟩, hstep, hcheck⟩ := (Option.any_eq_true _ _).mp hcheck
  obtain ⟨⟨post, s₂⟩, hpost, hcheck⟩ := (Option.any_eq_true _ _).mp hcheck
  obtain ⟨⟨later, s₃⟩, hlater, hcheck⟩ := (Option.any_eq_true _ _).mp hcheck
  obtain ⟨hcheck, hdrawn⟩ := Bool.and_eq_true_iff.mp hcheck
  obtain ⟨hcheck, hstealths⟩ := Bool.and_eq_true_iff.mp hcheck
  obtain ⟨hcheck, hshown⟩ := Bool.and_eq_true_iff.mp hcheck
  obtain ⟨hcheck, hsilent⟩ := Bool.and_eq_true_iff.mp hcheck
  obtain ⟨hcheck, hempty⟩ := Bool.and_eq_true_iff.mp hcheck
  obtain ⟨hreplays, hloss⟩ := Bool.and_eq_true_iff.mp hcheck
  obtain ⟨sh, shH, cfg, hreg, hlocal⟩ := registrable_sound hregistrable
  obtain ⟨did, rfl⟩ := Sim.step_act hstep
  have hrun : net.Run pre s.state := Sim.run_sound hpre
  have hsound := Sim.step_sound hstep
  have hposts := Sim.run_sound hpost
  have hfollows := Sim.run_sound hlater
  have hall := hrun.append ((Lib.Exec.single hsound).append (hposts.append hfollows))
  exact ⟨pre, post, later, _, _, _, _, _, did, sh, shH, cfg,
    { run := hrun
      registrable := hreg
      step := hsound
      sends := rfl
      posts := hposts
      completes := .of_lossFree (of_decide_eq_true hloss)
        (congrArg Multiset.ofList (List.isEmpty_iff.mp hempty))
      follows := hfollows
      ideal := Net.Run.unforgeable Crates.bincodeRoundTrips_ideal Crates.idealAead_ideal hall hreplays
      stealths := Line.distinct_of_computed (of_decide_eq_true hstealths)
      drawn := Sim.drawn_le (of_decide_eq_true hdrawn)
      silent := List.isEmpty_iff.mp hsilent
      gateway := hlocal
      shown := showsListing_eq_true hshown }⟩

/-- The client is in the first of the lists. -/
theorem listed_after_registration :
    ∃ (tr : List (Label Crates.ideal (Fin 3))) (s : State Crates.ideal (Fin 3)) (sh : Shared)
      (cfg : ClientConfig) (clients : List PublicClientEntry), net.Run tr s ∧ s.Runs 0 sh ∧
      (net.config 0).client = some cfg ∧
      Seen.replied 0 .clients ⟨0, 0⟩ (Line.stealth 2, clients) ∈ Lib.seen Label.see tr ∧
      registerEntry sh cfg ∈ clients := by
  obtain ⟨pre, post, later, s, s₁, s₂, s₃, env, did, sh, shH, cfg, h⟩ := exists_listing
  obtain ⟨ticket, clients, ticket', clients', hshown⟩ := h.shown
  have hlast := h.posts.append h.follows
  have hreplied : Seen.replied 0 .clients ⟨0, 0⟩ (shH.localStealth, clients)
      ∈ Lib.seen Label.see later := by
    rw [hshown, h.gateway]
    exact List.mem_cons_of_mem _ List.mem_cons_self
  obtain ⟨-, hlists⟩ :=
    Net.Run.registration_listed Crates.bincodeRoundTrips_ideal Crates.idealAead_ideal.toAeadCorrect
      Crates.keyAgreement_ideal Crates.total_ideal honestPeers keysDetermineSecrets addressed h.run
      h.registrable h.step h.sends h.posts h.completes h.follows h.ideal h.stealths h.drawn
  refine ⟨_, s₃, sh, cfg, clients, h.run.append ((Lib.Exec.single h.step).append hlast),
    exec_shared ((Lib.Exec.single h.step).append hlast) h.registrable.runs, h.registrable.client, ?_,
    hlists 0 ⟨0, 0⟩ clients hreplied ?_⟩
  · obtain ⟨l, hl, hsee⟩ := Lib.mem_seen.mp hreplied
    rw [← h.gateway]
    exact Lib.mem_seen.mpr ⟨l, List.mem_append_right _ (List.mem_append_right _
      (List.mem_append_right _ hl)), hsee⟩
  · intro ticket hdrew _
    rw [h.silent] at hdrew
    cases hdrew

/-- The list that the middle node gets has all that is in the list of the
client, and each was published at its moment. -/
theorem lists_in_order :
    ∃ (tr tr₁ tr₂ : List (Label Crates.ideal (Fin 3))) (s s₁ s₂ : State Crates.ideal (Fin 3))
      (D D' : Fin 3) (shD shD' : Shared) (rtD rtD' : Runtime)
      (clients clients' : List PublicClientEntry), net.Run tr s ∧
      QueriedAt net tr₁ s₁ 0 .clients ⟨0, 0⟩ (Line.stealth 2, clients) D shD rtD ∧
      QueriedAt net tr₂ s₂ 1 .clients ⟨0, 0⟩ (Line.stealth 2, clients') D' shD' rtD' ∧
      ∀ entry ∈ clients, entry ∈ clients' := by
  obtain ⟨pre, post, later, s, s₁, s₂, s₃, env, did, sh, shH, cfg, h⟩ := exists_listing
  obtain ⟨ticket, clients, ticket', clients', hshown⟩ := h.shown
  have hall : net.Run (pre ++ .act 0 .clientRegister env did :: (post ++ later)) s₃ :=
    h.run.append ((Lib.Exec.single h.step).append (h.posts.append h.follows))
  have hseen : Lib.seen Label.see (pre ++ .act 0 .clientRegister env did :: (post ++ later))
      = [.drew 0 ticket] ++ .replied 0 .clients ⟨0, 0⟩ (Line.stealth 2, clients) ::
        ([.drew 1 ticket'] ++ .replied 1 .clients ⟨0, 0⟩ (Line.stealth 2, clients') :: []) := by
    rw [← List.cons_append, ← List.append_assoc, Lib.seen_append, h.silent, hshown]
    rfl
  obtain ⟨hmoments, hgrows⟩ :=
    Net.Run.query_linearizes Crates.bincodeRoundTrips_ideal Crates.idealAead_ideal.toAeadCorrect
      honestPeers keysDetermineSecrets hall h.ideal h.stealths h.drawn
  obtain ⟨tr₁, -, u₁, D, shD, rtD, -, -, hat⟩ := hmoments 0 .clients _ _ _ _ hseen
  obtain ⟨tr₂, -, u₂, D', shD', rtD', -, -, hat'⟩ := hmoments 1 .clients _ _ _ _
    (hseen.trans (by rw [← List.cons_append, ← List.append_assoc]))
  refine ⟨_, tr₁, tr₂, s₃, u₁, u₂, D, D', shD, shD', rtD, rtD', clients, clients', hall, hat, hat',
    hgrows _ _ _ _ _ _ _ _ _ _ hseen ?_⟩
  intro ticket hdrew _
  cases List.mem_singleton.mp hdrew

end Home

end StealthNet
