/-
  StealthNet.Admin
  ────────────────
  REQUESTS AND RESPONSES OF THE ADMIN SOCKET (`admin.rs`).
-/
import StealthNet.Routing

namespace StealthNet

/-- What `stealthctl` asks of a node. -/
inductive AdminRequest
  | ping (target : String) (count : UInt32) (timeoutMs : UInt64)
  | clients (target : String) (timeoutMs : UInt64)
  | routesShow
  | routesLookup (ip : String)
  | resolve (target : String)
  deriving DecidableEq

/-- The result of one ping. -/
structure PingResult where
  target : String
  ok : Bool
  rttMs : Option (BitVec 128)
  responderStealth : Option String
  responderId : Option String
  error : Option String
  deriving DecidableEq

/-- A route as it is shown, its prefix as a text. -/
structure RouteDisplay where
  pfx : String
  stealth : String
  metric : UInt32
  mode : String
  deriving DecidableEq

/-- What a node answers. -/
inductive AdminResponse
  | pingResults (results : List PingResult)
  | clientsResult (gatewayStealth : String) (clients : List PublicClientEntry)
  | routes (routes : List RouteDisplay) (overlayRoutes : List OverlayRouteEntry)
  | routeLookup (result : Option LookupResult)
  | resolved (target : String) (result : Option ResolveResult)
  | error (message : String)
  deriving DecidableEq

/-- The prefix is shown with its host bits. -/
def RouteDisplay.from (value : RouteEntry) : RouteDisplay :=
  ⟨toString value.pfx, value.stealth, value.metric, value.mode⟩

end StealthNet
