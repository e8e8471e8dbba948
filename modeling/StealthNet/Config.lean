/-
  StealthNet.Config
  ─────────────────
  THE CONFIGURATION OF A NODE (`config.rs`).

  Only the fields that a modelled function reads are kept, together with
  `max_entries`, which no function of the source reads.
-/
import Mathlib.Init

namespace StealthNet

/-- Section `[node]`: who the node is. -/
structure NodeConfig where
  id : String
  role : String
  stealth : String
  deriving DecidableEq

/-- Section `[transport]`. -/
structure TransportConfig where
  mtu : UInt32
  deriving DecidableEq

/-- Section `[tun]`: the device, if it is enabled. -/
structure TunConfig where
  enabled : Bool
  name : String
  address : Option String
  deriving DecidableEq

/-- An IP prefix, as a text, and the stealth address behind it. -/
structure StaticRouteConfig where
  pfx : String
  stealth : String
  metric : UInt32
  mode : String
  deriving DecidableEq

/-- A stealth address and the id of the peer to forward through. -/
structure OverlayRouteConfig where
  destination : String
  via : String
  deriving DecidableEq

/-- Section `[routing]`; all prefixes are texts here. -/
structure RoutingConfig where
  ownedPrefixes : List String
  staticMap : List StaticRouteConfig
  overlayRoutes : List OverlayRouteConfig
  deriving DecidableEq

/-- A client as it is published, in the configuration and on the wire. -/
structure PublicClientEntry where
  publicId : String
  clientStealth : String
  advertisedPrefixes : List String
  capabilities : List String
  ttl : Option UInt64
  deriving DecidableEq

/-- Section `[public_clients]`. -/
structure PublicClientsConfig where
  enabled : Bool
  maxEntries : Option Nat
  entries : List PublicClientEntry
  deriving DecidableEq

/-- Section `[client]`: what a client asks its home gateway for. -/
structure ClientConfig where
  homeGatewayId : String
  publicId : Option String
  requestedOverlayIp : Option String
  requestedStealth : Option String
  registerCapabilities : List String
  bootstrapTimeoutMs : UInt64
  deriving DecidableEq

/-- A peer, with its address and its public key as texts. -/
structure PeerConfig where
  id : String
  stealth : String
  addr : String
  publicKey : String
  deriving DecidableEq

/-- The configuration file. -/
structure Config where
  node : NodeConfig
  transport : TransportConfig
  tun : Option TunConfig
  routing : RoutingConfig
  publicClients : Option PublicClientsConfig
  client : Option ClientConfig
  peers : List PeerConfig
  deriving DecidableEq

/-- `eq_ignore_ascii_case`. -/
def eqIgnoreAsciiCase (a b : String) : Bool :=
  a.toList.map Char.toLower == b.toList.map Char.toLower

/-- The node bootstraps and registers itself. -/
def roleIsClient (config : Config) : Bool := eqIgnoreAsciiCase config.node.role "client"

/-- The node grants bootstrap requests. -/
def roleIsGateway (config : Config) : Bool := eqIgnoreAsciiCase config.node.role "gateway"

end StealthNet
