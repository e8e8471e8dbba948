/-
  StealthNet.Routing
  ──────────────────
  THE ROUTING TABLE OF A NODE (`routing.rs`).

  Two independent maps live here: IP prefix to stealth address, searched
  first hit first after a sort by prefix length, and stealth address to the
  id of the peer to forward through.
-/
import StealthNet.Crypto
import StealthNet.Lib.HashMap
import Mathlib.Data.List.Sort

namespace StealthNet

open Lib (HashMap)

/-- A route with its prefix read. -/
structure RouteEntry where
  pfx : IpNet
  stealth : String
  metric : UInt32
  mode : String
  deriving DecidableEq

/-- An overlay route as it is listed. -/
structure OverlayRouteEntry where
  destination : String
  via : String
  deriving DecidableEq

/-- The routes sorted, the next hops, and the prefixes the node owns. -/
structure RoutingTable where
  routes : List RouteEntry
  overlayRoutes : HashMap String String
  ownedPrefixes : List IpNet

/-- The answer to `routes lookup`. -/
structure LookupResult where
  ip : String
  matchedPrefix : String
  stealth : String
  metric : UInt32
  mode : String
  deriving DecidableEq

/-- The answer to `resolve`. -/
structure ResolveResult where
  stealth : String
  ip : Option String
  matchedPrefix : String
  deriving DecidableEq

/-- Read the prefix of a route. -/
def parseRoute (C : Crates) (route : StaticRouteConfig) : Except String RouteEntry :=
  match C.parseIpNet route.pfx with
  | none => .error s!"invalid route prefix {route.pfx}"
  | some pfx => .ok ⟨pfx, route.stealth, route.metric, route.mode⟩

/-- Read an owned prefix. -/
def parseOwnedPrefix (C : Crates) (p : String) : Except String IpNet :=
  match C.parseIpNet p with
  | none => .error s!"invalid owned prefix {p}"
  | some net => .ok net

namespace RoutingTable

/-- The sort is stable and by descending prefix length. -/
def fromConfig (C : Crates) (cfg : RoutingConfig) : Except String RoutingTable := do
  let routes ← cfg.staticMap.mapM (parseRoute C)
  -- the metric is no part of the key
  let routes := routes.insertionSort fun a b => b.pfx.prefixLen ≤ a.pfx.prefixLen
  let overlayRoutes :=
    HashMap.fill ∅ OverlayRouteConfig.destination OverlayRouteConfig.via cfg.overlayRoutes
  let ownedPrefixes ← cfg.ownedPrefixes.mapM (parseOwnedPrefix C)
  return { routes, overlayRoutes, ownedPrefixes }

/-- The first route that contains the address. -/
def lookup (table : RoutingTable) (ip : IpAddr) : Option RouteEntry :=
  table.routes.find? fun r => r.pfx.contains ip

/-- What a lookup found, as texts. -/
def lookupDisplay (table : RoutingTable) (ip : IpAddr) : Option LookupResult :=
  (table.lookup ip).map fun route =>
    { ip := toString ip
      matchedPrefix := toString route.pfx
      stealth := route.stealth
      metric := route.metric
      mode := route.mode }

/-- The first route to the stealth; its address stands for the node. -/
def reverseLookup (table : RoutingTable) (stealth : String) : Option ResolveResult :=
  (table.routes.find? fun r => r.stealth == stealth).map fun route =>
    { stealth := route.stealth
      ip := some (toString route.pfx.addr)
      matchedPrefix := toString route.pfx }

/-- The address is in an owned prefix. -/
def ownsIp (table : RoutingTable) (ip : IpAddr) : Bool :=
  table.ownedPrefixes.any fun p => p.contains ip

/-- The id of the peer to forward through. -/
def nextHopVia (table : RoutingTable) (destinationStealth : String) : Option String :=
  table.overlayRoutes.lookup destinationStealth

/-- The map is listed in some order. -/
def overlayRouteList (table : RoutingTable) : List OverlayRouteEntry :=
  table.overlayRoutes.entries.map fun e => ⟨e.1, e.2⟩

end RoutingTable

end StealthNet
