/-
  StealthNet.Daemon.Program
  ─────────────────────────
  THE ADMIN THREAD AS IT IS WRITTEN (`handle_admin_request`).

  The body of an admin thread is one sequential program: it draws an id,
  enters its channel, sends, waits, cleans up.  Here it is written as in the
  source, over the operations at which other threads can come in between
  (`AdminOp`).  A `Job` is the same thread cut into sections; `Job.program` is
  what it still has to do, and each section is the next operation of that
  (`Job.Advances.section`).

    §1  the operations and the program;
    §2  what an operation does;
    §3  what a job still has to do;
    §4  its sections.
-/
import StealthNet.Daemon.Requests
import StealthNet.Lib.Program

namespace StealthNet

open Lib (HashMap Program)

/-! ## §1. The program. -/

/-- What a thread asks for. A channel is named by the iteration that creates
it; a message is made at the time it is sent. -/
inductive AdminOp
  | fetchAdd
  | insert (κ : RequestKind) (requestId : UInt64) (iteration : Nat)
  | forward (targetStealth : String) (msg : BitVec 128 → Message)
  | recvTimeout (κ : RequestKind) (iteration : Nat) (timeoutMs : UInt64)
  | remove (κ : RequestKind) (requestId : UInt64)

/-- What it gets: an id, the result of a send, what came with the time it
took, or nothing of interest. -/
abbrev AdminOp.Res : AdminOp → Type
  | .fetchAdd => UInt64
  | .insert _ _ _ => Unit
  | .forward _ _ => Except String Unit
  | .recvTimeout κ _ _ => Option (Payload κ × BitVec 128)
  | .remove _ _ => Unit

/-- A program of an admin thread. -/
abbrev AdminProgram := Program AdminOp AdminOp.Res

namespace AdminProgram

/-- `next_request_id.fetch_add(1)`. -/
def fetchAdd : AdminProgram UInt64 := .perform AdminOp.fetchAdd

/-- Enter the channel in the pending table. -/
def insert (κ : RequestKind) (requestId : UInt64) (iteration : Nat) : AdminProgram Unit :=
  .perform (AdminOp.insert κ requestId iteration)

/-- Send a message towards a stealth; it is made with the time of sending. -/
def forward (targetStealth : String) (msg : BitVec 128 → Message) :
    AdminProgram (Except String Unit) :=
  .perform (AdminOp.forward targetStealth msg)

/-- Wait on the channel of the iteration. -/
def recvTimeout (κ : RequestKind) (iteration : Nat) (timeoutMs : UInt64) :
    AdminProgram (Option (Payload κ × BitVec 128)) :=
  .perform (AdminOp.recvTimeout κ iteration timeoutMs)

/-- Take the entry out after a failure. -/
def remove (κ : RequestKind) (requestId : UInt64) : AdminProgram Unit :=
  .perform (AdminOp.remove κ requestId)

end AdminProgram

open AdminProgram

/-- A result without a response. -/
def PingResult.failed (target error : String) : PingResult :=
  { target, ok := false, rttMs := none, responderStealth := none, responderId := none,
    error := some error }

section

variable (sh : Shared)

/-- The body of the loop of `Ping`. -/
def pingOnce (target : String) (timeoutMs : UInt64) (iteration : Nat) : AdminProgram PingResult :=
  match resolveTarget sh target with
  | .error err => .pure (.failed target err)
  | .ok targetStealth => do
      let requestId ← fetchAdd
      insert .ping requestId iteration
      let sendResult ← forward targetStealth fun nowMs => .pingReq
        { requestId
          srcStealth := sh.localStealth
          targetStealth
          ttl := 16
          timestampMs := nowMs
          optionalInnerIp := (IpAddr.fromStr target).map toString }
      match sendResult with
      | .error err =>
          remove .ping requestId
          return .failed targetStealth err
      | .ok () =>
          match ← recvTimeout .ping iteration timeoutMs with
          | some (result, elapsed) => return { (result : PingResult) with rttMs := some elapsed }
          | none =>
              remove .ping requestId
              return .failed targetStealth s!"timeout after {timeoutMs} ms"

/-- `for _ in 0..count`, with the results so far. -/
def pingLoop (target : String) (timeoutMs : UInt64) :
    Nat → List PingResult → AdminProgram (List PingResult)
  | 0, results => .pure results
  | remaining + 1, results => do
      let result ← pingOnce sh target timeoutMs results.length
      pingLoop target timeoutMs remaining (results ++ [result])

/-- The arm of `Clients`. -/
def requestClients (target : String) (timeoutMs : UInt64) : AdminProgram AdminResponse :=
  match resolveTarget sh target with
  | .error err => .pure (.error err)
  | .ok targetStealth => do
      let requestId ← fetchAdd
      insert .clients requestId 0
      let sendResult ← forward targetStealth fun _ => .publicClientsReq
        { requestId
          srcStealth := sh.localStealth
          targetStealth
          ttl := 16 }
      match sendResult with
      | .error err =>
          remove .clients requestId
          return .error err
      | .ok () =>
          match ← recvTimeout .clients 0 timeoutMs with
          | some ((gatewayStealth, clients), _) => return .clientsResult gatewayStealth clients
          | none =>
              remove .clients requestId
              return .error s!"timeout after {timeoutMs} ms"

/-- `Ping` loops, `Clients` asks once, the others answer from the routing table. -/
def handleAdminRequest : AdminRequest → AdminProgram AdminResponse
  | .ping target count timeoutMs => do
      let results ← pingLoop sh target timeoutMs count.toNat []
      return .pingResults results
  | .clients target timeoutMs => requestClients sh target timeoutMs
  | .routesShow =>
      .pure (.routes (sh.routing.routes.map RouteDisplay.from) sh.routing.overlayRouteList)
  | .routesLookup ip =>
      .pure (.routeLookup ((IpAddr.fromStr ip).bind sh.routing.lookupDisplay))
  | .resolve target =>
      let result := match IpAddr.fromStr target with
        | some ip => (sh.routing.lookup ip).map fun route =>
            { stealth := route.stealth
              ip := some (toString ip)
              matchedPrefix := toString route.pfx }
        | none => sh.routing.reverseLookup target
      .pure (.resolved target result)

/-- What is answered at once is answered without an operation. -/
theorem handleAdminRequest_of_query {request : AdminRequest} {response : AdminResponse}
    (h : adminQuery sh request = some response) :
    handleAdminRequest sh request = .pure response := by
  cases request with
  | ping | clients => cases h
  | routesShow | routesLookup | resolve => rw [← Option.some.inj h]; rfl

end

/-! ## §2. Operations. -/

/-- An operation that was performed: its result, the tables after it, and what
it emitted. -/
structure Performed (C : Crates) (o : AdminOp) where
  result : o.Res
  tables : Tables
  effects : List (Effect C)

/-- Perform an operation for thread `n`, whose channels hold `channel`. -/
def AdminOp.perform (C : Crates) (sh : Shared) (env : Env) (n : Nat)
    (channel : (κ : RequestKind) → Nat → List (Payload κ)) (t : Tables) :
    (o : AdminOp) → Performed C o
  | .fetchAdd => ⟨t.drawRequestId.1, t.drawRequestId.2, []⟩
  | .insert κ requestId iteration =>
      ⟨(), t.setPending κ ((t.pending κ).insert requestId ⟨n, iteration⟩), []⟩
  | .forward targetStealth msg =>
      let sent := forwardByStealth C sh env targetStealth (msg env.nowMs)
      ⟨sent.result, t, sent.effects⟩
  -- what is in the channel is taken without looking at the clock
  | .recvTimeout κ iteration _ =>
      ⟨(channel κ iteration).head?.map fun payload => (payload, env.elapsedMs), t, []⟩
  | .remove κ requestId => ⟨(), t.setPending κ ((t.pending κ).erase requestId), []⟩

/-- What a thread does in one go: nothing anybody sees, or one operation. -/
inductive AdminProgram.Section (C : Crates) (sh : Shared) (env : Env) (n : Nat)
    (channel : (κ : RequestKind) → Nat → List (Payload κ)) (t : Tables) {α : Type} :
    AdminProgram α → AdminProgram α → Tables → List (Effect C) → Prop
  | silent (p : AdminProgram α) : Section C sh env n channel t p p t []
  | performed (o : AdminOp) (k : o.Res → AdminProgram α) :
      Section C sh env n channel t (.ask o k) (k (o.perform C sh env n channel t).result)
        (o.perform C sh env n channel t).tables (o.perform C sh env n channel t).effects

section

variable {C : Crates} {sh : Shared} {env : Env} {n : Nat}
  {channel : (κ : RequestKind) → Nat → List (Payload κ)} {t t' : Tables} {α : Type}
  {p q : AdminProgram α} {effects : List (Effect C)}

/-- A section in which `o` is performed, by its outcome. -/
theorem AdminProgram.Section.of_eq (o : AdminOp) {k : o.Res → AdminProgram α} (hp : p = .ask o k)
    (hq : q = k (o.perform C sh env n channel t).result)
    (ht : t' = (o.perform C sh env n channel t).tables)
    (heffects : effects = (o.perform C sh env n channel t).effects) :
    Section C sh env n channel t p q t' effects := by
  rw [hp, hq, ht, heffects]
  exact .performed o k

/-- A section of a program is one of the program that goes on with its result. -/
theorem AdminProgram.Section.bind {β : Type} (h : Section C sh env n channel t p q t' effects)
    (f : α → AdminProgram β) :
    Section C sh env n channel t (p >>= f) (q >>= f) t' effects := by
  cases h with
  | silent => exact .silent _
  | performed o k => exact .performed o fun r => k r >>= f

end

/-! ## §3. What is left to do. -/

/-- A response arrived after this time. -/
def Answer.receivedIn (elapsed : BitVec 128) : (κ : RequestKind) → Payload κ → Answer κ
  | .ping, result => { (result : PingResult) with rttMs := some elapsed }
  | .clients, (gatewayStealth, clients) => AdminResponse.clientsResult gatewayStealth clients

/-- The request of an iteration, at this time. -/
def requestAt (sh : Shared) (target : String) (id : UInt64) (targetStealth : String) :
    RequestKind → BitVec 128 → Message
  | .ping, nowMs => .pingReq
      { requestId := id
        srcStealth := sh.localStealth
        targetStealth
        ttl := 16
        timestampMs := nowMs
        optionalInnerIp := (IpAddr.fromStr target).map toString }
  | .clients, _ => .publicClientsReq
      { requestId := id
        srcStealth := sh.localStealth
        targetStealth
        ttl := 16 }

namespace Job

variable {κ : RequestKind} (sh : Shared) (job : Job κ)

/-- From a failure on. -/
def cleaning (req : Request κ) (error : String) : AdminProgram (Answer κ) := do
  remove κ req.id
  return .failed req.target error κ

/-- From the wait on. -/
def awaiting (req : Request κ) : AdminProgram (Answer κ) := do
  match ← recvTimeout κ job.results.length job.timeoutMs with
  | some (payload, elapsed) => return .receivedIn elapsed κ payload
  | none => cleaning req s!"timeout after {job.timeoutMs} ms"

/-- From the send on. -/
def sending (req : Request κ) : AdminProgram (Answer κ) := do
  match ← forward req.target (requestAt sh job.target req.id req.target κ) with
  | .error err => cleaning req err
  | .ok () => job.awaiting req

/-- The rest of an iteration. -/
def rest (req : Request κ) : AdminProgram (Answer κ) :=
  match req.stage with
  | .issued => do
      insert κ req.id job.results.length
      job.sending sh req
  | .registered => job.sending sh req
  | .waiting => job.awaiting req
  | .cleanup error => cleaning req error

/-- What follows the answer of an iteration. -/
def following : (κ : RequestKind) → Job κ → Answer κ → AdminProgram AdminResponse
  | .ping, job, result => do
      let results ← pingLoop sh job.target job.timeoutMs (job.count - (job.results.length + 1))
        (job.results.map Prod.snd ++ [result])
      return .pingResults results
  | .clients, _, response => .pure response

/-- What follows between two iterations. -/
def between : (κ : RequestKind) → Job κ → AdminProgram AdminResponse
  | .ping, job => do
      let results ← pingLoop sh job.target job.timeoutMs (job.count - job.results.length)
        (job.results.map Prod.snd)
      return .pingResults results
  | .clients, job =>
      match job.results.getLast? with
      | some (_, response) => .pure response
      | none => requestClients sh job.target job.timeoutMs

/-- What a job still has to do. -/
def program : AdminProgram AdminResponse :=
  match job.current with
  | none => between sh κ job
  | some req => job.rest sh req >>= following sh κ job

end Job

/-! ## §4. Sections. -/

section

variable {C : Crates} {sh : Shared} {env : Env} {κ : RequestKind} {job : Job κ}

theorem requestMessage_eq (target : String) (id : UInt64) (targetStealth : String) :
    requestMessage sh env target id targetStealth κ
      = requestAt sh target id targetStealth κ env.nowMs := by
  cases κ <;> rfl

theorem Answer.received_eq (payload : Payload κ) :
    Answer.received env κ payload = .receivedIn env.elapsedMs κ payload := by
  cases κ <;> rfl

namespace Job

/-- After an answer comes what follows it. -/
theorem program_push (id : Option UInt64) (answer : Answer κ) :
    (job.push id answer).program sh = following sh κ job answer := by
  show between sh κ (job.push id answer) = following sh κ job answer
  cases κ with
  | ping =>
      show (pingLoop sh job.target job.timeoutMs (job.count - (job.results ++ [(id, answer)]).length)
        ((job.results ++ [(id, answer)]).map Prod.snd) >>= _) = _
      rw [List.length_append, List.map_append]
      rfl
  | clients =>
      show (match (job.results ++ [(id, answer)]).getLast? with
        | some (_, response) => Program.pure response
        | none => _) = _
      rw [List.getLast?_concat]
      rfl

/-- The loop has iterations left. -/
theorem between_ping {job : Job .ping} (hmore : job.results.length < job.count) :
    between sh .ping job
      = pingOnce sh job.target job.timeoutMs job.results.length >>= following sh .ping job := by
  obtain ⟨remaining, hremaining⟩ := Nat.exists_eq_add_of_lt hmore
  have hleft : job.count - job.results.length = remaining + 1 := by omega
  have hnext : job.count - (job.results.length + 1) = remaining := by omega
  show (pingLoop sh _ _ (job.count - job.results.length) _ >>= _)
    = (_ >>= fun result => pingLoop sh _ _ (job.count - (job.results.length + 1)) _ >>= _)
  rw [hleft, hnext, pingLoop, List.length_map, Program.bind_assoc]

/-- There was no iteration yet. -/
theorem between_clients {job : Job .clients} (hone : job.count = 1)
    (hmore : job.results.length < job.count) :
    between sh .clients job
      = requestClients sh job.target job.timeoutMs >>= following sh .clients job := by
  have hnil : job.results = [] := List.length_eq_zero_iff.mp (by omega)
  show (match job.results.getLast? with
    | some (_, response) => Program.pure response
    | none => requestClients sh job.target job.timeoutMs) = _
  rw [hnil]
  exact (Program.bind_pure _).symm

/-- An iteration whose target does not resolve has its answer at once. -/
theorem between_unresolved (hone : κ = .clients → job.count = 1)
    (hmore : job.results.length < job.count) {e : String}
    (hr : resolveTarget sh job.target = .error e) :
    between sh κ job = following sh κ job (.unresolved job.target e κ) := by
  cases κ with
  | ping =>
      rw [between_ping hmore, pingOnce, hr]
      rfl
  | clients =>
      rw [between_clients (hone rfl) hmore, requestClients, hr]
      rfl

/-- An iteration whose target resolves draws its id. -/
theorem between_resolved (hone : κ = .clients → job.count = 1)
    (hmore : job.results.length < job.count) {target : String}
    (hr : resolveTarget sh job.target = .ok target) :
    between sh κ job = .ask AdminOp.fetchAdd fun id =>
      job.rest sh ⟨id, target, .issued, []⟩ >>= following sh κ job := by
  cases κ with
  | ping =>
      rw [between_ping hmore, pingOnce, hr]
      -- both ask for the same until the results of the send and of the wait
      refine Program.ask_congr fun id => Program.ask_congr fun _ => Program.ask_congr fun sent => ?_
      cases sent with
      | error err => rfl
      | ok _ =>
          refine Program.ask_congr fun received => ?_
          cases received <;> rfl
  | clients =>
      have hfirst : job.results.length = 0 := by
        have := hone rfl
        omega
      rw [between_clients (hone rfl) hmore, requestClients, hr]
      unfold rest sending awaiting
      rw [hfirst]
      refine Program.ask_congr fun id => Program.ask_congr fun _ => Program.ask_congr fun sent => ?_
      cases sent with
      | error err => rfl
      | ok _ =>
          refine Program.ask_congr fun received => ?_
          cases received <;> rfl

theorem program_none (hnone : job.current = none) : job.program sh = between sh κ job := by
  unfold program
  rw [hnone]

theorem program_some {req : Request κ} (hreq : job.current = some req) :
    job.program sh = job.rest sh req >>= following sh κ job := by
  unfold program
  rw [hreq]

/-- What follows an iteration is not changed by where it stands. -/
theorem program_current (req : Request κ) :
    ({ job with current := some req } : Job κ).program sh
      = job.rest sh req >>= following sh κ job := by
  cases κ <;> rfl

/-- A section of a job is a section of the program it still has to do. -/
theorem Advances.section {C : Crates} {env : Env} {n : Nat}
    {channel : (κ : RequestKind) → Nat → List (Payload κ)} {t : Tables} {st : JobStep C κ}
    (hone : κ = .clients → job.count = 1)
    (hchannel : ∀ req, job.current = some req → channel κ job.results.length = req.rx)
    (hst : job.Advances sh env ⟨n, job.results.length⟩ t st) :
    AdminProgram.Section C sh env n channel t (job.program sh) (st.job.program sh) st.tables
      st.effects := by
  cases hst with
  | unresolved e hnone hmore hr =>
      rw [program_none hnone, between_unresolved hone hmore hr]
      show AdminProgram.Section C sh env n channel t _ ((job.push none _).program sh) t []
      rw [program_push]
      exact .silent _
  | drew target hnone hmore hr =>
      rw [program_none hnone]
      exact .of_eq AdminOp.fetchAdd (between_resolved hone hmore hr) (program_current _) rfl rfl
  | registered req hreq hstage =>
      rw [program_some hreq, rest, hstage]
      exact .of_eq (AdminOp.insert κ req.id job.results.length) rfl (program_current _) rfl rfl
  | sent req stage r hreq hstage hr hnext =>
      rw [program_some hreq, rest, hstage]
      rw [requestMessage_eq] at hr
      refine .of_eq (AdminOp.forward req.target (requestAt sh job.target req.id req.target κ)) rfl
        ?_ rfl (congrArg Sent.effects hr)
      show _ = (match (forwardByStealth C sh env req.target _).result with
        | .error err => cleaning req err
        | .ok () => job.awaiting req) >>= following sh κ job
      rw [← hr, program_current]
      rcases hnext with ⟨hok, rfl⟩ | ⟨e, herr, rfl⟩
      · rw [hok]
        rfl
      · rw [herr]
        rfl
  | received req payload rest hreq hstage hrx =>
      rw [program_some hreq, Job.rest, hstage]
      refine .of_eq (AdminOp.recvTimeout κ job.results.length job.timeoutMs) rfl ?_ rfl rfl
      show (job.push (some req.id) (.received env κ payload)).program sh
        = (match (channel κ job.results.length).head?.map fun payload => (payload, env.elapsedMs) with
          | some (payload, elapsed) => Program.pure (.receivedIn elapsed κ payload)
          | none => cleaning req _) >>= following sh κ job
      rw [program_push, hchannel req hreq, hrx, Answer.received_eq]
      rfl
  | timedOut req hreq hstage hrx =>
      rw [program_some hreq, Job.rest, hstage]
      refine .of_eq (AdminOp.recvTimeout κ job.results.length job.timeoutMs) rfl ?_ rfl rfl
      show _ = (match (channel κ job.results.length).head?.map fun payload => (payload, env.elapsedMs) with
          | some (payload, elapsed) => Program.pure (.receivedIn elapsed κ payload)
          | none => cleaning req _) >>= following sh κ job
      rw [hchannel req hreq, hrx, program_current]
      rfl
  | cleaned req error hreq hstage =>
      rw [program_some hreq, Job.rest, hstage]
      refine .of_eq (AdminOp.remove κ req.id) rfl ?_ rfl rfl
      exact program_push (some req.id) (.failed req.target error κ)

/-- A ping that has completed responds with its results. -/
theorem completed_ping {job : Job .ping} (h : job.completed) :
    job.program sh = .pure (.pingResults (job.results.map Prod.snd)) := by
  obtain ⟨hnone, hcount⟩ := h
  rw [program_none hnone]
  show (pingLoop sh _ _ (job.count - job.results.length) _ >>= _) = _
  rw [Nat.sub_eq_zero_of_le hcount]
  rfl

/-- `Clients` responds with its one result. -/
theorem completed_clients (sh : Shared) {job : Job .clients} (hone : job.count = 1) (h : job.completed) :
    ∃ id response, job.results.getLast? = some (id, response) ∧
      job.program sh = .pure response := by
  obtain ⟨hnone, hcount⟩ := h
  have hne : job.results ≠ [] := List.ne_nil_of_length_pos (by omega)
  have hlast := List.getLast?_eq_some_getLast hne
  refine ⟨_, _, hlast, ?_⟩
  rw [program_none hnone]
  simp only [between, hlast]

/-- A job that has completed has nothing left to do but to respond. -/
theorem completed_program (hone : κ = .clients → job.count = 1) (h : job.completed) :
    ∃ response, job.program sh = .pure response := by
  cases κ with
  | ping => exact ⟨_, completed_ping h⟩
  | clients =>
      obtain ⟨-, response, -, hresponse⟩ := completed_clients sh (hone rfl) h
      exact ⟨response, hresponse⟩

end Job

end

end StealthNet
