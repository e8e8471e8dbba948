/-
  StealthNet.Control
  ──────────────────
  THE COMMAND LINE TOOL (`stealthctl.rs`) AND ITS END OF THE ADMIN SOCKET.

  `stealthctl` writes one request as JSON, reads one response, and prints it.
  The thread of the daemon that is at the other end reads the request, runs
  `handle_admin_request` on it and writes what that returns.  Through the
  socket the two are `handle_admin_request` followed by `print_response`
  (`session_eq`), and a request that is not one gets no response.

    §1  commands;
    §2  what is printed;
    §3  the two ends of the socket;
    §4  an encoding for it.
-/
import StealthNet.Bincode
import StealthNet.Daemon.Program

namespace StealthNet

open Lib (Codec Program)

/-! ## §1. Commands. -/

/-- The subcommands of `routes`. -/
inductive RouteCommand
  | show
  | lookup (ip : String)
  deriving DecidableEq

/-- The commands of `stealthctl`. -/
inductive Command
  | ping (target : String) (count : UInt32) (timeoutMs : UInt64)
  | clients (target : String) (timeoutMs : UInt64)
  | routes (sub : RouteCommand)
  | resolve (target : String)
  deriving DecidableEq

/-- The request a command makes. -/
def Command.request : Command → AdminRequest
  | .ping target count timeoutMs => .ping target count timeoutMs
  | .clients target timeoutMs => .clients target timeoutMs
  | .routes .show => .routesShow
  | .routes (.lookup ip) => .routesLookup ip
  | .resolve target => .resolve target

/-- Every request is the request of a command. -/
theorem Command.request_surjective (request : AdminRequest) :
    ∃ command : Command, command.request = request := by
  cases request with
  | ping target count timeoutMs => exact ⟨.ping target count timeoutMs, rfl⟩
  | clients target timeoutMs => exact ⟨.clients target timeoutMs, rfl⟩
  | routesShow => exact ⟨.routes .show, rfl⟩
  | routesLookup ip => exact ⟨.routes (.lookup ip), rfl⟩
  | resolve target => exact ⟨.resolve target, rfl⟩

/-! ## §2. What is printed. -/

/-- `{:width}` for a string. -/
def padded (width : Nat) (s : String) : String := s.pushn ' ' (width - s.length)

/-- A ping that was answered. -/
def replyLine (stealth id : String) (rttMs : BitVec 128) : String :=
  s!"reply from {stealth} id={id} time={rttMs.toNat} ms"

/-- A ping that was not. -/
def failureLine (target error : String) : String := s!"ping {target} failed: {error}"

/-- One result of a ping; what it lacks is filled in. -/
def PingResult.line (item : PingResult) : String :=
  if item.ok then
    replyLine (item.responderStealth.getD "unknown") (item.responderId.getD "unknown")
      (item.rttMs.getD 0)
  else failureLine item.target (item.error.getD "unknown error")

/-- A client, and what it has to offer. -/
def PublicClientEntry.lines (client : PublicClientEntry) : List String :=
  let offers (what : String) (items : List String) : List String :=
    if items.isEmpty then [] else ["  " ++ what ++ ": " ++ String.intercalate ", " items]
  s!"- {client.publicId} ({client.clientStealth})" ::
    (offers "prefixes" client.advertisedPrefixes ++ offers "capabilities" client.capabilities)

/-- A gateway with its clients. -/
def clientLines (gatewayStealth : String) (clients : List PublicClientEntry) : List String :=
  s!"gateway: {gatewayStealth}" ::
    if clients.isEmpty then ["no public clients published"]
    else clients.flatMap PublicClientEntry.lines

/-- A route, its prefix and its stealth in columns. -/
def RouteDisplay.line (route : RouteDisplay) : String :=
  let shown := padded 20 route.pfx
  let stealth := padded 40 route.stealth
  s!"- {shown} -> {stealth} metric={route.metric} mode={route.mode}"

/-- What `stealthctl` prints, one element for each call of `println!`, or the error
it exits with. Texts of the network may contain newlines. -/
def printResponse : AdminResponse → Except String (List String)
  | .pingResults results => .ok (results.map PingResult.line)
  | .clientsResult gatewayStealth clients => .ok (clientLines gatewayStealth clients)
  | .routes routes overlayRoutes => .ok <|
      "IP -> stealth routes:" :: routes.map RouteDisplay.line ++
        ("" :: "overlay routes:" :: overlayRoutes.map fun route =>
          s!"- {route.destination} via {route.via}")
  | .routeLookup (some result) => .ok
      [s!"{result.ip} matches {result.matchedPrefix} -> {result.stealth} " ++
        s!"metric={result.metric} mode={result.mode}"]
  | .routeLookup none => .ok ["no route"]
  | .resolved target (some result) => .ok <|
      [s!"target: {target}", s!"stealth: {result.stealth}"] ++
        (result.ip.map fun ip => s!"ip: {ip}").toList ++
        [s!"matched_prefix: {result.matchedPrefix}"]
  | .resolved target none => .ok [s!"no resolution for {target}"]
  | .error message => .error message

/-! ## §3. The admin socket. -/

/-- The functions of `serde_json`, at the two types that cross the socket. -/
structure Json where
  requestToVec : AdminRequest → Except String Bytes
  requestFromSlice : Bytes → Except String AdminRequest
  responseToVec : AdminResponse → Except String Bytes
  responseFromSlice : Bytes → Except String AdminResponse

/-- What it writes it reads back, and it writes both types. -/
structure Json.RoundTrips (J : Json) : Prop where
  request : ∀ request, ∃ data, J.requestToVec request = .ok data ∧
    J.requestFromSlice data = .ok request
  response : ∀ response, ∃ data, J.responseToVec response = .ok data ∧
    J.responseFromSlice data = .ok response

section

variable (J : Json) (sh : Shared)

/-- The bytes of a response, at the end of a connection. -/
def writeResponse (response : AdminResponse) : Except String Bytes :=
  match J.responseToVec response with
  | .error _ => .error "failed to encode admin response"
  | .ok responseBytes => .ok responseBytes

/-- What is written to the stream before it is closed. -/
def handleAdminConnection (buf : Bytes) : AdminProgram (Except String Bytes) :=
  match J.requestFromSlice buf with
  | .error _ => .pure (.error "invalid admin request")
  | .ok request => do
      let response ← handleAdminRequest sh request
      return writeResponse J response

/-- What the tool makes of all it could read from the stream. A connection
that failed is closed, so that there is nothing to read. -/
def readResponse (written : Except String Bytes) : Except String (List String) :=
  let buf := match written with
    | .error _ => []
    | .ok responseBytes => responseBytes
  do
    let response ← J.responseFromSlice buf
    printResponse response

/-- A run of `stealthctl` and the connection that serves it. -/
def session (command : Command) : AdminProgram (Except String (List String)) :=
  match J.requestToVec command.request with
  | .error e => .pure (.error e)
  | .ok data => do
      let written ← handleAdminConnection J sh data
      return readResponse J written

variable {J sh}

/-- A response reaches the tool as it is. -/
theorem readResponse_written (hJ : J.RoundTrips) (response : AdminResponse) :
    readResponse J (writeResponse J response) = printResponse response := by
  obtain ⟨data, hto, hfrom⟩ := hJ.response response
  unfold readResponse writeResponse
  rw [hto]
  show (J.responseFromSlice data >>= printResponse) = printResponse response
  rw [hfrom]
  rfl

/-- Through the socket, `stealthctl` prints what `handle_admin_request` returns
for its command. -/
theorem session_eq (hJ : J.RoundTrips) (command : Command) :
    session J sh command
      = handleAdminRequest sh command.request >>= fun response => .pure (printResponse response) := by
  obtain ⟨data, hto, hfrom⟩ := hJ.request command.request
  have hconnection : handleAdminConnection J sh data
      = handleAdminRequest sh command.request >>= fun response => .pure (writeResponse J response) := by
    unfold handleAdminConnection
    rw [hfrom]
    rfl
  unfold session
  rw [hto]
  show (handleAdminConnection J sh data >>= fun written => Program.pure (readResponse J written)) = _
  rw [hconnection, Program.bind_assoc]
  show (handleAdminRequest sh command.request >>= fun response =>
    Program.pure (readResponse J (writeResponse J response))) = _
  simp only [readResponse_written hJ]

/-- What is answered at once is printed at once. -/
theorem session_of_query (hJ : J.RoundTrips) {command : Command} {response : AdminResponse}
    (h : adminQuery sh command.request = some response) :
    session J sh command = .pure (printResponse response) := by
  rw [session_eq hJ, handleAdminRequest_of_query sh h]
  rfl

end

/-! ## §4. An encoding. -/

namespace Json

/-- A request, with a binary format in place of JSON. -/
def request : Codec AdminRequest :=
  ((Codec.text.seq (Bincode.u32.seq Bincode.u64)).sum
    ((Codec.text.seq Bincode.u64).sum (Codec.unit.sum (Codec.text.sum Codec.text)))).iso
    (fun
      | .inl (target, count, timeoutMs) => .ping target count timeoutMs
      | .inr (.inl (target, timeoutMs)) => .clients target timeoutMs
      | .inr (.inr (.inl ())) => .routesShow
      | .inr (.inr (.inr (.inl ip))) => .routesLookup ip
      | .inr (.inr (.inr (.inr target))) => .resolve target)
    (fun
      | .ping target count timeoutMs => .inl (target, count, timeoutMs)
      | .clients target timeoutMs => .inr (.inl (target, timeoutMs))
      | .routesShow => .inr (.inr (.inl ()))
      | .routesLookup ip => .inr (.inr (.inr (.inl ip)))
      | .resolve target => .inr (.inr (.inr (.inr target))))
    fun r => by cases r <;> rfl

/-- The fields of a result, in their order. -/
def pingResult : Codec PingResult :=
  (Codec.text.seq (Codec.bool.seq ((Codec.option Bincode.u128).seq ((Codec.option Codec.text).seq
    ((Codec.option Codec.text).seq (Codec.option Codec.text)))))).iso
    (fun (target, ok, rttMs, responderStealth, responderId, error) =>
      { target, ok, rttMs, responderStealth, responderId, error })
    (fun r => (r.target, r.ok, r.rttMs, r.responderStealth, r.responderId, r.error))
    fun _ => rfl

/-- The fields of a route that is shown. -/
def routeDisplay : Codec RouteDisplay :=
  (Codec.text.seq (Codec.text.seq (Bincode.u32.seq Codec.text))).iso
    (fun (pfx, stealth, metric, mode) => { pfx, stealth, metric, mode })
    (fun r => (r.pfx, r.stealth, r.metric, r.mode)) fun _ => rfl

/-- Destination and next hop. -/
def overlayRouteEntry : Codec OverlayRouteEntry :=
  (Codec.text.seq Codec.text).iso (fun (destination, via) => { destination, via })
    (fun e => (e.destination, e.via)) fun _ => rfl

/-- The fields of the answer to `routes lookup`. -/
def lookupResult : Codec LookupResult :=
  (Codec.text.seq (Codec.text.seq (Codec.text.seq (Bincode.u32.seq Codec.text)))).iso
    (fun (ip, matchedPrefix, stealth, metric, mode) => { ip, matchedPrefix, stealth, metric, mode })
    (fun r => (r.ip, r.matchedPrefix, r.stealth, r.metric, r.mode)) fun _ => rfl

/-- The fields of the answer to `resolve`. -/
def resolveResult : Codec ResolveResult :=
  (Codec.text.seq ((Codec.option Codec.text).seq Codec.text)).iso
    (fun (stealth, ip, matchedPrefix) => { stealth, ip, matchedPrefix })
    (fun r => (r.stealth, r.ip, r.matchedPrefix)) fun _ => rfl

/-- A response in the same format. -/
def response : Codec AdminResponse :=
  ((Codec.list pingResult).sum ((Codec.text.seq (Codec.list Bincode.publicClientEntry)).sum
    (((Codec.list routeDisplay).seq (Codec.list overlayRouteEntry)).sum
      ((Codec.option lookupResult).sum
        ((Codec.text.seq (Codec.option resolveResult)).sum Codec.text))))).iso
    (fun
      | .inl results => .pingResults results
      | .inr (.inl (gatewayStealth, clients)) => .clientsResult gatewayStealth clients
      | .inr (.inr (.inl (routes, overlayRoutes))) => .routes routes overlayRoutes
      | .inr (.inr (.inr (.inl result))) => .routeLookup result
      | .inr (.inr (.inr (.inr (.inl (target, result))))) => .resolved target result
      | .inr (.inr (.inr (.inr (.inr message)))) => .error message)
    (fun
      | .pingResults results => .inl results
      | .clientsResult gatewayStealth clients => .inr (.inl (gatewayStealth, clients))
      | .routes routes overlayRoutes => .inr (.inr (.inl (routes, overlayRoutes)))
      | .routeLookup result => .inr (.inr (.inr (.inl result)))
      | .resolved target result => .inr (.inr (.inr (.inr (.inl (target, result)))))
      | .error message => .inr (.inr (.inr (.inr (.inr message)))))
    fun r => by cases r <;> rfl

/-- What a codec writes, and all that it reads. -/
def decode {α : Type} (c : Codec α) (data : Bytes) : Except String α :=
  match c.read data with
  | some (a, []) => .ok a
  | _ => .error "invalid data"

theorem decode_write {α : Type} (c : Codec α) (a : α) : decode c (c.write a) = .ok a := by
  have hread := c.read_write a []
  rw [List.append_nil] at hread
  unfold decode
  rw [hread]

/-- An encoding with the law that is asked of `serde_json`. -/
def ideal : Json where
  requestToVec r := .ok (request.write r)
  requestFromSlice := decode request
  responseToVec r := .ok (response.write r)
  responseFromSlice := decode response

theorem roundTrips_ideal : ideal.RoundTrips where
  request r := ⟨_, rfl, decode_write request r⟩
  response r := ⟨_, rfl, decode_write response r⟩

end Json

end StealthNet
