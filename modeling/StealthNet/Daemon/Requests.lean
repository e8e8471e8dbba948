/-
  StealthNet.Daemon.Requests
  ──────────────────────────
  WHAT A DAEMON STARTS BY ITSELF (`handle_admin_request`,
  `send_client_register`, the keepalive loop).

  An admin thread serving `Ping` or `Clients` is a `Job` that advances one
  section at a time, since datagrams arrive and other threads run in between:
  draw an id and open a channel, enter the sending end in the pending table,
  send, wait on the channel, and after a failure remove the entry.  `Clients`
  is the same sequence as one iteration of `Ping`.
-/
import StealthNet.Daemon.Datagram

namespace StealthNet

open Lib (HashMap)

/-! ## §1. Targets. -/

/-- An address stands for the stealth it routes to, any other text for itself. -/
def resolveTarget (sh : Shared) (target : String) : Except String String :=
  match IpAddr.fromStr target with
  | some ip =>
      match sh.routing.lookup ip with
      | none => .error s!"no route for {ip}"
      | some route => .ok route.stealth
  | none => .ok target

/-! ## §2. Requests that wait. -/

/-- One result of a request: an entry of `PingResults`, or the response. -/
abbrev Answer : RequestKind → Type
  | .ping => PingResult
  | .clients => AdminResponse

/-- The target did not resolve. -/
def Answer.unresolved (target : String) (error : String) : (κ : RequestKind) → Answer κ
  | .ping =>
      { target, ok := false, rttMs := none, responderStealth := none, responderId := none,
        error := some error : PingResult }
  | .clients => AdminResponse.error error

/-- The send failed or the wait timed out. -/
def Answer.failed (targetStealth : String) (error : String) : (κ : RequestKind) → Answer κ
  | .ping =>
      { target := targetStealth, ok := false, rttMs := none, responderStealth := none,
        responderId := none, error := some error : PingResult }
  | .clients => AdminResponse.error error

/-- A response arrived. -/
def Answer.received (env : Env) : (κ : RequestKind) → Payload κ → Answer κ
  | .ping, result => { (result : PingResult) with rttMs := some env.elapsedMs }
  | .clients, (gatewayStealth, clients) => AdminResponse.clientsResult gatewayStealth clients

/-- Where an iteration stands between two locked sections. -/
inductive Stage
  | issued
  | registered
  | waiting
  | cleanup (error : String)
  deriving DecidableEq

/-- The iteration in progress: its id, the stealth its target resolved to, and
what its channel holds. -/
structure Request (κ : RequestKind) where
  id : UInt64
  target : String
  stage : Stage
  rx : List (Payload κ)

/-- An admin thread. Results are kept with the id of their request, which is
`none` where no id was drawn. -/
structure Job (κ : RequestKind) where
  target : String
  timeoutMs : UInt64
  count : Nat
  results : List (Option UInt64 × Answer κ)
  current : Option (Request κ)

/-- A thread that has done nothing yet. -/
def Job.start (κ : RequestKind) (target : String) (timeoutMs : UInt64) (count : Nat) : Job κ :=
  ⟨target, timeoutMs, count, [], none⟩

/-- The loop has ended. -/
def Job.completed {κ : RequestKind} (job : Job κ) : Prop :=
  job.current = none ∧ job.count ≤ job.results.length

/-- End the iteration in progress. -/
def Job.push {κ : RequestKind} (job : Job κ) (id : Option UInt64) (answer : Answer κ) : Job κ :=
  { job with results := job.results ++ [(id, answer)], current := none }

/-- The request of an iteration. -/
def requestMessage (sh : Shared) (env : Env) (target : String) (id : UInt64)
    (targetStealth : String) : RequestKind → Message
  | .ping => .pingReq
      { requestId := id
        srcStealth := sh.localStealth
        targetStealth
        ttl := 16
        timestampMs := env.nowMs
        optionalInnerIp := (IpAddr.fromStr target).map toString }
  | .clients => .publicClientsReq
      { requestId := id
        srcStealth := sh.localStealth
        targetStealth
        ttl := 16 }

/-- One section of an admin thread: the job, the tables and the effects after
it, and the id if it drew one. -/
structure JobStep (C : Crates) (κ : RequestKind) where
  job : Job κ
  tables : Tables
  effects : List (Effect C)
  drew : Option (UInt64 × String)

/-- Advance thread `tx.job` in iteration `tx.iteration`. A wait ends with what
the channel holds; it times out only on an empty channel. -/
def Job.advance (C : Crates) (sh : Shared) (env : Env) {κ : RequestKind} (tx : Tx)
    (job : Job κ) (t : Tables) : Option (JobStep C κ) :=
  match job.current with
  | none =>
      -- the loop bound is tested before each iteration
      if job.count ≤ job.results.length then none
      else
        match resolveTarget sh job.target with
        | .error e => some ⟨job.push none (.unresolved job.target e κ), t, [], none⟩
        | .ok target =>
            let (id, t) := t.drawRequestId
            some ⟨{ job with current := some ⟨id, target, .issued, []⟩ }, t, [],
              some (id, target)⟩
  | some req =>
      match req.stage with
      | .issued =>
          some ⟨{ job with current := some { req with stage := .registered } },
            t.setPending κ ((t.pending κ).insert req.id tx), [], none⟩
      | .registered =>
          let sent := forwardByStealth C sh env req.target
            (requestMessage sh env job.target req.id req.target κ)
          match sent.result with
          | .ok () =>
              some ⟨{ job with current := some { req with stage := .waiting } }, t,
                sent.effects, none⟩
          | .error e =>
              some ⟨{ job with current := some { req with stage := .cleanup e } }, t,
                sent.effects, none⟩
      | .waiting =>
          match req.rx with
          -- `recv_timeout` takes what is there before it looks at the clock
          | payload :: _ => some ⟨job.push (some req.id) (.received env κ payload), t, [], none⟩
          | [] =>
              some ⟨{ job with
                current := some { req with
                  stage := .cleanup s!"timeout after {job.timeoutMs} ms" } }, t, [], none⟩
      | .cleanup error =>
          -- a response may have taken the entry out already
          some ⟨job.push (some req.id) (.failed req.target error κ),
            t.setPending κ ((t.pending κ).erase req.id), [], none⟩

/-- The sections of a thread, one case each. -/
inductive Job.Advances {C : Crates} (sh : Shared) (env : Env) {κ : RequestKind} (tx : Tx)
    (job : Job κ) (t : Tables) : JobStep C κ → Prop
  | unresolved (e : String) (hnone : job.current = none)
      (hmore : job.results.length < job.count) (hr : resolveTarget sh job.target = .error e) :
      Advances sh env tx job t ⟨job.push none (.unresolved job.target e κ), t, [], none⟩
  | drew (target : String) (hnone : job.current = none)
      (hmore : job.results.length < job.count) (hr : resolveTarget sh job.target = .ok target) :
      Advances sh env tx job t
        ⟨{ job with current := some ⟨t.drawRequestId.1, target, .issued, []⟩ },
          t.drawRequestId.2, [], some (t.drawRequestId.1, target)⟩
  | registered (req : Request κ) (hreq : job.current = some req) (hstage : req.stage = .issued) :
      Advances sh env tx job t
        ⟨{ job with current := some { req with stage := .registered } },
          t.setPending κ ((t.pending κ).insert req.id tx), [], none⟩
  | sent (req : Request κ) (stage : Stage) (r : Sent C) (hreq : job.current = some req)
      (hstage : req.stage = .registered)
      (hr : r = forwardByStealth C sh env req.target
        (requestMessage sh env job.target req.id req.target κ))
      (hnext : r.result = .ok () ∧ stage = .waiting ∨
        ∃ e, r.result = .error e ∧ stage = .cleanup e) :
      Advances sh env tx job t
        ⟨{ job with current := some { req with stage } }, t, r.effects, none⟩
  | received (req : Request κ) (payload : Payload κ) (rest : List (Payload κ))
      (hreq : job.current = some req) (hstage : req.stage = .waiting)
      (hrx : req.rx = payload :: rest) :
      Advances sh env tx job t
        ⟨job.push (some req.id) (.received env κ payload), t, [], none⟩
  | timedOut (req : Request κ) (hreq : job.current = some req) (hstage : req.stage = .waiting)
      (hrx : req.rx = []) :
      Advances sh env tx job t
        ⟨{ job with
            current := some { req with stage := .cleanup s!"timeout after {job.timeoutMs} ms" } },
          t, [], none⟩
  | cleaned (req : Request κ) (error : String) (hreq : job.current = some req)
      (hstage : req.stage = .cleanup error) :
      Advances sh env tx job t
        ⟨job.push (some req.id) (.failed req.target error κ),
          t.setPending κ ((t.pending κ).erase req.id), [], none⟩

theorem Job.advance_cases {C : Crates} {sh : Shared} {env : Env} {κ : RequestKind} {tx : Tx}
    {job : Job κ} {t : Tables} {st : JobStep C κ} (h : job.advance C sh env tx t = some st) :
    job.Advances sh env tx t st := by
  unfold Job.advance at h
  split at h
  · rename_i hnone
    split at h
    · simp at h
    · rename_i hmore
      split at h
      · rename_i e hr
        obtain rfl := Option.some.inj h
        exact .unresolved e hnone (Nat.lt_of_not_le hmore) hr
      · rename_i target hr
        obtain rfl := Option.some.inj h
        exact .drew target hnone (Nat.lt_of_not_le hmore) hr
  · rename_i req hreq
    split at h
    · rename_i hstage
      obtain rfl := Option.some.inj h
      exact .registered req hreq hstage
    · rename_i hstage
      dsimp only at h
      split at h
      · rename_i hok
        obtain rfl := Option.some.inj h
        exact .sent req _ _ hreq hstage rfl (Or.inl ⟨hok, rfl⟩)
      · rename_i e herr
        obtain rfl := Option.some.inj h
        exact .sent req _ _ hreq hstage rfl (Or.inr ⟨e, herr, rfl⟩)
    · rename_i hstage
      split at h
      · rename_i payload rest hrx
        obtain rfl := Option.some.inj h
        exact .received req payload rest hreq hstage hrx
      · rename_i hrx
        obtain rfl := Option.some.inj h
        exact .timedOut req hreq hstage hrx
    · rename_i error hstage
      obtain rfl := Option.some.inj h
      exact .cleaned req error hreq hstage

/-! ## §3. Requests answered at once. -/

/-- `RoutesShow`, `RoutesLookup` and `Resolve`; the other two kinds wait. -/
def adminQuery (sh : Shared) : AdminRequest → Option AdminResponse
  | .routesShow =>
      some (.routes (sh.routing.routes.map RouteDisplay.from) sh.routing.overlayRouteList)
  | .routesLookup ip =>
      some (.routeLookup ((IpAddr.fromStr ip).bind sh.routing.lookupDisplay))
  | .resolve target =>
      let result := match IpAddr.fromStr target with
        | some ip => (sh.routing.lookup ip).map fun route =>
            { stealth := route.stealth
              ip := some (toString ip)
              matchedPrefix := toString route.pfx }
        | none => sh.routing.reverseLookup target
      some (.resolved target result)
  | .ping _ _ _ => none
  | .clients _ _ => none

/-! ## §4. Periodic messages. -/

/-- A keepalive to one peer. -/
def sendKeepalive (C : Crates) (sh : Shared) (env : Env) (peerId : String) : Sent C :=
  sendToPeer C sh env peerId (.keepalive { ttl := 4 })

/-- The entry a client registers. -/
def registerEntry (sh : Shared) (clientCfg : ClientConfig) : PublicClientEntry :=
  { publicId := clientCfg.publicId.getD sh.config.node.id
    clientStealth := sh.localStealth
    advertisedPrefixes := (sh.config.tun.bind fun tun => tun.address).toList
    capabilities := clientCfg.registerCapabilities
    ttl := some 300 }

/-- Register with the home gateway. The entry is the same each time, the id is not. -/
def sendClientRegister (C : Crates) (sh : Shared) (env : Env) (t : Tables) :
    Sent C × Tables :=
  match sh.config.client with
  | none => (.fail "missing client config", t)
  | some clientCfg =>
      match sh.peersById.lookup clientCfg.homeGatewayId with
      | none => (.fail s!"unknown home gateway {clientCfg.homeGatewayId}", t)
      | some homePeer =>
          -- the same counter as the admin threads draw from
          let (requestId, t) := t.drawRequestId
          (sendToPeer C sh env homePeer.cfg.id (.clientRegister
            { requestId
              srcStealth := sh.localStealth
              targetGatewayStealth := homePeer.cfg.stealth
              client := registerEntry sh clientCfg
              ttl := 16 }), t)

end StealthNet
