/-
  StealthNet.Display
  ──────────────────
  WHAT `routes show` SAYS.

  The admin socket shows the routes of a node as texts and its overlay routes
  in whatever order the map lists them; it does not show the owned prefixes.
  This is all there is to the routes: as a configuration, the answer gives the
  same entries in the same order and the same next hop for every stealth
  (`RoutingTable.shown_again`).

    §1  printed prefixes;
    §2  the table that is shown.
-/
import StealthNet.Daemon.Assignment
import StealthNet.Daemon.Requests

namespace StealthNet

open Lib (HashMap Descending)

/-! ## §1. Printed prefixes. -/

/-- The parser of prefixes reads what is printed. -/
structure Crates.PrefixRoundTrips (C : Crates) : Prop where
  parse_toString : ∀ net : IpNet, C.parseIpNet (toString net) = some net

theorem readPrefixLen_toDigits {maxDigits limit len : Nat} (hpos : 0 < maxDigits)
    (hlen : len < limit) (hlimit : limit ≤ 10 ^ maxDigits) :
    readPrefixLen maxDigits limit ('/' :: Nat.toDigits 10 len) = some (len, []) := by
  have hread : readNumber 10 (some maxDigits) true limit (Nat.toDigits 10 len ++ [])
      = some (len, []) :=
    readNumber_toDigits (by decide) (by decide) hpos (by omega) hlen (by simp)
  rw [List.append_nil] at hread
  exact hread

theorem toDigit_slash {radix : Nat} : toDigit radix '/' = none := by
  unfold toDigit
  rfl

theorem toList_toString_ipNet (net : IpNet) :
    (toString net).toList = (toString net.addr).toList ++ '/' :: Nat.toDigits 10 net.prefixLen := by
  show (toString net.addr ++ "/" ++ toString net.prefixLen).toList = _
  rw [String.toList_append, String.toList_append, List.append_assoc]
  simp

theorem readIpv4Net_toString (net : IpPrefix 32) :
    readIpv4Net (toString (IpNet.v4 net)).toList = some (.v4 net, []) := by
  rw [toList_toString_ipNet]
  have hread := readIpv4_showIpv4 (p := IpParser.ipnet) net.addr
    ('/' :: Nat.toDigits 10 net.prefixLen) (fun c hc => Option.some.inj hc ▸ toDigit_slash)
  have hlen := readPrefixLen_toDigits (by decide : 0 < 2) net.prefixLen.isLt (by decide)
  unfold readIpv4Net
  simp only [toString, IpNet.addr, IpNet.prefixLen, hread, hlen, bind, Option.bind_some, pure,
    Fin.ofNat_val_eq_self]

/-- The slash ends what is read of an IPv6 address, which is none of IPv4. -/
theorem readIpv4Net_toString_v6 (net : IpPrefix 128) :
    readIpv4Net (toString (IpNet.v6 net)).toList = none := by
  rw [toList_toString_ipNet]
  have hread := readIpv4_endsAt (p := IpParser.ipnet) toDigit_slash (by decide)
    (showIpv6 net.addr).toList (Nat.toDigits 10 net.prefixLen)
  rw [readIpv4_showIpv6] at hread
  unfold readIpv4Net
  simp only [toString, IpNet.addr, IpNet.prefixLen, hread, bind, Option.map_none, Option.bind_none]

theorem readIpv6Net_toString (net : IpPrefix 128) :
    readIpv6Net (toString (IpNet.v6 net)).toList = some (.v6 net, []) := by
  rw [toList_toString_ipNet]
  have hread := readIpv6_endsAt (p := IpParser.ipnet) toDigit_slash toDigit_slash (by decide)
    (by decide) (showIpv6 net.addr).toList (Nat.toDigits 10 net.prefixLen)
  rw [readIpv6_showIpv6] at hread
  have hlen := readPrefixLen_toDigits (by decide : 0 < 3) net.prefixLen.isLt (by decide)
  unfold readIpv6Net
  simp only [toString, IpNet.addr, IpNet.prefixLen, hread, hlen, bind, Option.map_some,
    Option.bind_some, List.nil_append, pure, Fin.ofNat_val_eq_self]

theorem readIpNet_toString (net : IpNet) : readIpNet (toString net).toList = some (net, []) := by
  unfold readIpNet
  cases net with
  | v4 net =>
      rw [readIpv4Net_toString]
      rfl
  | v6 net =>
      rw [readIpv4Net_toString_v6]
      exact readIpv6Net_toString net

theorem Crates.prefixRoundTrips_ideal : Crates.ideal.PrefixRoundTrips where
  parse_toString net := by
    show parseWith readIpNet (toString net) = some net
    unfold parseWith
    rw [readIpNet_toString]

/-! ## §2. The table that is shown. -/

/-- What is shown of a route, as an entry of the configuration. -/
def RouteDisplay.toConfig (route : RouteDisplay) : StaticRouteConfig :=
  ⟨route.pfx, route.stealth, route.metric, route.mode⟩

/-- What is shown of an overlay route, as an entry of the configuration. -/
def OverlayRouteEntry.toConfig (entry : OverlayRouteEntry) : OverlayRouteConfig :=
  ⟨entry.destination, entry.via⟩

/-- The configuration that an answer to `routes show` describes: it has no
owned prefixes, since none are shown. -/
def shownConfig (routes : List RouteDisplay) (overlayRoutes : List OverlayRouteEntry) :
    RoutingConfig :=
  { ownedPrefixes := []
    staticMap := routes.map RouteDisplay.toConfig
    overlayRoutes := overlayRoutes.map OverlayRouteEntry.toConfig }

section

variable {C : Crates} {cfg : RoutingConfig} {table : RoutingTable}

theorem parseRoute_shown (hp : C.PrefixRoundTrips) (e : RouteEntry) :
    parseRoute C (RouteDisplay.from e).toConfig = .ok e :=
  parseRoute_eq_ok.mpr ⟨hp.parse_toString e.pfx, rfl, rfl, rfl⟩

/-- The entries that are shown are the ones there are, in their order. -/
theorem staticEntries_shown (hp : C.PrefixRoundTrips) (routes : List RouteEntry)
    (overlay : List OverlayRouteEntry) :
    staticEntries C (shownConfig (routes.map RouteDisplay.from) overlay) = routes := by
  unfold staticEntries shownConfig
  rw [List.map_map, List.filterMap_map]
  have hsome : (fun route => (parseRoute C route).toOption) ∘
      (RouteDisplay.toConfig ∘ RouteDisplay.from) = some := by
    funext e
    show (parseRoute C (RouteDisplay.from e).toConfig).toOption = some e
    rw [parseRoute_shown hp]
    rfl
  rw [hsome, List.filterMap_some]

/-- The sorted entries of an accepted configuration stay as they are when they
are shown and sorted again. -/
theorem routes_shown (hp : C.PrefixRoundTrips) (h : RoutingTable.fromConfig C cfg = .ok table)
    (overlay : List OverlayRouteEntry) :
    (staticEntries C (shownConfig (table.routes.map RouteDisplay.from) overlay)).insertionSort
      (Descending fun e => e.pfx.prefixLen) = table.routes := by
  rw [staticEntries_shown hp]
  apply List.Pairwise.insertionSort_eq
  rw [routes_fromConfig h]
  exact Lib.pairwise_descending _

/-- Overlay routes give the next hops of the table that shows them, in whatever
order they are listed. -/
theorem lookup_shown {overlay : List OverlayRouteEntry}
    (hperm : overlay.Perm table.overlayRouteList) (stealth : String) :
    (HashMap.fill ∅ OverlayRouteConfig.destination OverlayRouteConfig.via
      (overlay.map OverlayRouteEntry.toConfig)).lookup stealth =
      table.overlayRoutes.lookup stealth := by
  apply HashMap.lookup_fill_of_perm
  have hlist := hperm.map fun e => (⟨e.destination, e.via⟩ : Sigma fun _ : String => String)
  unfold RoutingTable.overlayRouteList at hlist
  rw [List.map_map, show _ ∘ _ = (id : (Sigma fun _ : String => String) → _) from rfl,
    List.map_id] at hlist
  rw [List.map_map]
  exact hlist

/-- What a node answers to `routes show` is accepted as a configuration, in
whatever order the overlay routes are listed, and gives the same entries in the
same order and the same next hops. -/
theorem RoutingTable.shown_again {sh : Shared} {routes : List RouteDisplay}
    {overlayRoutes overlay : List OverlayRouteEntry} (hp : C.PrefixRoundTrips)
    (h : RoutingTable.fromConfig C cfg = .ok sh.routing)
    (hshown : adminQuery sh .routesShow = some (.routes routes overlayRoutes))
    (hperm : overlay.Perm overlayRoutes) :
    ∃ table, RoutingTable.fromConfig C (shownConfig routes overlay) = .ok table ∧
      table.routes = sh.routing.routes ∧
      ∀ stealth, table.nextHopVia stealth = sh.routing.nextHopVia stealth := by
  obtain ⟨rfl, rfl⟩ : sh.routing.routes.map RouteDisplay.from = routes ∧
      sh.routing.overlayRouteList = overlayRoutes := by
    simpa [adminQuery] using hshown
  refine ⟨_, fromConfig_eq_ok_iff.mpr ⟨?_, [], rfl, rfl⟩, ?_, ?_⟩
  · intro route hroute
    obtain ⟨shown, hshown, rfl⟩ := List.mem_map.mp hroute
    obtain ⟨e, -, rfl⟩ := List.mem_map.mp hshown
    exact ⟨e, parseRoute_shown hp e⟩
  · exact routes_shown hp h overlay
  · intro stealth
    exact lookup_shown hperm stealth

end

/-- Two families, host bits, and two ways for one stealth. -/
def Line.mixedRoutes : RoutingConfig :=
  { ownedPrefixes := ["10.50.1.7/24"]
    staticMap := [⟨"10.0.0.0/8", "st-r", 5, "direct"⟩, ⟨"2001:db8::1/32", "st-b", 10, "relay"⟩,
      ⟨"10.50.3.0/24", "st-b", 1, "direct"⟩]
    overlayRoutes := [⟨"st-b", "r"⟩, ⟨"st-b", "a"⟩, ⟨"st-r", "r"⟩] }

/-- A node of the line shows its table, and it is read again. -/
theorem Line.routes_shown_again :
    ∃ (sh : Shared) (table : RoutingTable) (routes : List RouteDisplay)
      (overlayRoutes : List OverlayRouteEntry),
      RoutingTable.fromConfig Crates.ideal mixedRoutes = .ok sh.routing ∧
      adminQuery sh .routesShow = some (.routes routes overlayRoutes) ∧
      RoutingTable.fromConfig Crates.ideal (shownConfig routes overlayRoutes.reverse) =
        .ok table ∧
      table.routes = sh.routing.routes ∧
      table.nextHopVia "st-b" = sh.routing.nextHopVia "st-b" := by
  have hsome : (RoutingTable.fromConfig Crates.ideal mixedRoutes).toOption.isSome = true := by
    decide +kernel
  obtain ⟨shown, htable⟩ := Option.isSome_iff_exists.mp hsome
  have htable := Lib.Except.toOption_eq_some_iff.mp htable
  let sh : Shared := ⟨config 1, shown, none, ∅, ∅, "st-r"⟩
  obtain ⟨table, hagain, hroutes, hnext⟩ :=
    @RoutingTable.shown_again _ _ sh _ _ _ Crates.prefixRoundTrips_ideal htable rfl
      (List.reverse_perm _)
  exact ⟨sh, table, _, _, htable, rfl, hagain, hroutes, hnext "st-b"⟩

end StealthNet
