/-
  StealthNet.Lookup
  ─────────────────
  WHICH ROUTE AN ADDRESS TAKES.

  The routes of a table stand in the order of their prefix lengths, the
  longest first and equally long ones as they were listed; a lookup takes the
  first that contains the address.

    • `lookup_longest`           — longest-prefix match; entries for different
                                   networks may be listed in any order;
    • `lookup_first_listed`      — between entries for one network the order
                                   of listing decides, and metrics do not;
    • `reverseLookup_resolves`   — the address reported for a stealth leads
                                   back to it, unless an entry of another
                                   stealth shadows it.

  §1  the entries of a static map;
  §2  forward;
  §3  backward.
-/
import StealthNet.Daemon.Requests
import StealthNet.Net.Prefix
import StealthNet.Net.Text
import StealthNet.Lib.FirstMatch
import StealthNet.Lib.Except
import StealthNet.Ideal

namespace StealthNet

open Lib (HashMap Preferred Descending)

variable {C : Crates} {cfg : RoutingConfig} {table : RoutingTable}

/-! ## §1. The entries of a static map. -/

/-- The entries of a static map, in order. An accepted map leaves none out. -/
def staticEntries (C : Crates) (cfg : RoutingConfig) : List RouteEntry :=
  cfg.staticMap.filterMap fun route => (parseRoute C route).toOption

/-- No two entries denote the same network. -/
def DistinctNetworks (C : Crates) (cfg : RoutingConfig) : Prop :=
  ((staticEntries C cfg).map fun e => e.pfx.trunc).Nodup

theorem parseRoute_eq_ok {route : StaticRouteConfig} {e : RouteEntry} :
    parseRoute C route = .ok e ↔ C.parseIpNet route.pfx = some e.pfx ∧
      e.stealth = route.stealth ∧ e.metric = route.metric ∧ e.mode = route.mode := by
  unfold parseRoute
  cases C.parseIpNet route.pfx with
  | none => simp
  | some pfx =>
      obtain ⟨pfx', stealth, metric, mode⟩ := e
      simp only [Except.ok.injEq, RouteEntry.mk.injEq, Option.some.injEq]
      constructor
      · rintro ⟨rfl, rfl, rfl, rfl⟩
        exact ⟨rfl, rfl, rfl, rfl⟩
      · rintro ⟨rfl, rfl, rfl, rfl⟩
        exact ⟨rfl, rfl, rfl, rfl⟩

theorem mem_staticEntries {e : RouteEntry} :
    e ∈ staticEntries C cfg ↔ ∃ route ∈ cfg.staticMap, parseRoute C route = .ok e := by
  simp only [staticEntries, List.mem_filterMap, Lib.Except.toOption_eq_some_iff]

/-- A configuration is accepted if all its texts are prefixes. -/
theorem fromConfig_eq_ok_iff :
    RoutingTable.fromConfig C cfg = .ok table ↔
      (∀ route ∈ cfg.staticMap, ∃ e, parseRoute C route = .ok e) ∧
      ∃ owned, cfg.ownedPrefixes.mapM (parseOwnedPrefix C) = .ok owned ∧
        table =
          { routes := (staticEntries C cfg).insertionSort (Descending fun e => e.pfx.prefixLen)
            overlayRoutes := HashMap.fill ∅ OverlayRouteConfig.destination OverlayRouteConfig.via
              cfg.overlayRoutes
            ownedPrefixes := owned } := by
  unfold RoutingTable.fromConfig
  rw [Lib.Except.bind_eq_ok_iff]
  constructor
  · rintro ⟨routes, hroutes, h⟩
    obtain ⟨hall, rfl⟩ := Lib.Except.mapM_eq_ok_iff_filterMap.mp hroutes
    obtain ⟨owned, howned, h⟩ := Lib.Except.bind_eq_ok_iff.mp h
    exact ⟨hall, owned, howned, (Except.ok.inj h).symm⟩
  · rintro ⟨hall, owned, howned, rfl⟩
    refine ⟨staticEntries C cfg, Lib.Except.mapM_eq_ok_iff_filterMap.mpr ⟨hall, rfl⟩, ?_⟩
    exact Lib.Except.bind_eq_ok_iff.mpr ⟨owned, howned, rfl⟩

theorem routes_fromConfig (h : RoutingTable.fromConfig C cfg = .ok table) :
    table.routes
      = (staticEntries C cfg).insertionSort (Descending fun e => e.pfx.prefixLen) := by
  obtain ⟨-, owned, -, rfl⟩ := fromConfig_eq_ok_iff.mp h
  rfl

/-- Other static routes are accepted where all their texts are prefixes. -/
theorem fromConfig_withStaticMap (h : RoutingTable.fromConfig C cfg = .ok table)
    (staticMap : List StaticRouteConfig)
    (hall : ∀ route ∈ staticMap, ∃ e, parseRoute C route = .ok e) :
    ∃ table', RoutingTable.fromConfig C { cfg with staticMap } = .ok table' := by
  obtain ⟨-, owned, howned, -⟩ := fromConfig_eq_ok_iff.mp h
  exact ⟨_, fromConfig_eq_ok_iff.mpr ⟨hall, owned, howned, rfl⟩⟩

/-! ## §2. Forward. -/

theorem lookup_eq (h : RoutingTable.fromConfig C cfg = .ok table) (ip : IpAddr) :
    table.lookup ip
      = ((staticEntries C cfg).insertionSort (Descending fun e => e.pfx.prefixLen)).find?
          fun e => e.pfx.contains ip := by
  unfold RoutingTable.lookup
  rw [routes_fromConfig h]

theorem lookup_eq_some_iff (h : RoutingTable.fromConfig C cfg = .ok table) {ip : IpAddr}
    {e : RouteEntry} :
    table.lookup ip = some e ↔
      Preferred (fun e => e.pfx.contains ip) (fun e => e.pfx.prefixLen) (staticEntries C cfg) e := by
  rw [lookup_eq h]
  exact Lib.find?_insertionSort_eq_some

theorem lookup_eq_none_iff (h : RoutingTable.fromConfig C cfg = .ok table) {ip : IpAddr} :
    table.lookup ip = none ↔ ∀ e ∈ staticEntries C cfg, e.pfx.contains ip = false := by
  rw [lookup_eq h]
  exact Lib.find?_insertionSort_eq_none

/-- Entries for different networks may be listed in any order. -/
theorem lookup_perm (h : RoutingTable.fromConfig C cfg = .ok table)
    (hdistinct : DistinctNetworks C cfg) {staticMap : List StaticRouteConfig}
    (hperm : staticMap.Perm cfg.staticMap) :
    ∃ table', RoutingTable.fromConfig C { cfg with staticMap } = .ok table' ∧
      ∀ ip, table'.lookup ip = table.lookup ip := by
  have hall := (fromConfig_eq_ok_iff.mp h).1
  obtain ⟨table', h'⟩ := fromConfig_withStaticMap h staticMap
    fun route hroute => hall route (hperm.mem_iff.mp hroute)
  refine ⟨table', h', fun ip => ?_⟩
  have hentries : (staticEntries C cfg).Perm (staticEntries C { cfg with staticMap }) :=
    (hperm.filterMap _).symm
  rw [lookup_eq h', lookup_eq h]
  refine (Lib.find?_insertionSort_perm hentries ?_).symm
  -- two entries of one length that contain an address denote one network
  intro a ha b hb hpa hpb hrank
  exact List.inj_on_of_nodup_map hdistinct ha hb (IpNet.trunc_eq_of_contains hpa hpb hrank)

/-- Lookup is longest-prefix match: nothing is found where no entry contains
the address, and otherwise an entry that contains it and is at least as long
as every other that does. -/
theorem lookup_longest (h : RoutingTable.fromConfig C cfg = .ok table) (ip : IpAddr) :
    (table.lookup ip = none ↔ ∀ e ∈ staticEntries C cfg, e.pfx.contains ip = false) ∧
      (∀ e, table.lookup ip = some e →
        e ∈ staticEntries C cfg ∧ e.pfx.contains ip = true ∧
          ∀ e' ∈ staticEntries C cfg, e'.pfx.contains ip = true →
            e'.pfx.prefixLen ≤ e.pfx.prefixLen) ∧
      (DistinctNetworks C cfg → ∀ staticMap, staticMap.Perm cfg.staticMap →
        ∃ table', RoutingTable.fromConfig C { cfg with staticMap } = .ok table' ∧
          table'.lookup ip = table.lookup ip) := by
  refine ⟨lookup_eq_none_iff h, fun e he => ?_, fun hdistinct staticMap hperm => ?_⟩
  · have hpref := (lookup_eq_some_iff h).mp he
    exact ⟨hpref.mem, hpref.passes, fun e' he' hp => hpref.best he' hp⟩
  · obtain ⟨table', h', hall⟩ := lookup_perm h hdistinct hperm
    exact ⟨table', h', hall ip⟩

namespace Line

theorem distinctNetworks (i : Fin 3) : DistinctNetworks Crates.ideal (config i).routing := by
  have h : ∀ i : Fin 3, ((staticEntries Crates.ideal (config i).routing).map fun e =>
      e.pfx.trunc).Nodup := by
    decide +kernel
  exact h i

/-- The last node's network, looked up in the table of the first node and in
the one with its routes listed backwards. -/
theorem longest_chosen :
    ∃ table table' e,
      RoutingTable.fromConfig Crates.ideal (config 0).routing = .ok table ∧
      RoutingTable.fromConfig Crates.ideal
        { (config 0).routing with staticMap := (config 0).routing.staticMap.reverse } = .ok table' ∧
      table.lookup (.v4 0x0a320307#32) = some e ∧ table'.lookup (.v4 0x0a320307#32) = some e ∧
      e.stealth = stealth 2 ∧
      ∀ e' ∈ staticEntries Crates.ideal (config 0).routing,
        e'.pfx.contains (.v4 0x0a320307#32) = true → e'.pfx.prefixLen ≤ e.pfx.prefixLen := by
  have hfound : (RoutingTable.fromConfig Crates.ideal (config 0).routing).toOption.any (fun table =>
      (table.lookup (.v4 0x0a320307#32)).any fun e => e.stealth == stealth 2) = true := by
    decide +kernel
  obtain ⟨table, htable, he⟩ := (Option.any_eq_true _ _).mp hfound
  obtain ⟨e, he, hstealth⟩ := (Option.any_eq_true _ _).mp he
  have htable := Lib.Except.toOption_eq_some_iff.mp htable
  obtain ⟨-, hbest, hperm⟩ := lookup_longest htable (.v4 0x0a320307#32)
  obtain ⟨table', htable', heq⟩ := hperm (distinctNetworks 0) _ (List.reverse_perm _)
  exact ⟨table, table', e, htable, htable', he, heq.trans he, beq_iff_eq.mp hstealth,
    (hbest e he).2.2⟩

end Line

/-! ### Metrics. -/

/-- A route with its metric forgotten. -/
def StaticRouteConfig.withoutMetric (route : StaticRouteConfig) : StaticRouteConfig :=
  { route with metric := 0 }

/-- An entry with its metric forgotten. -/
def RouteEntry.withoutMetric (e : RouteEntry) : RouteEntry := { e with metric := 0 }

theorem parseRoute_withoutMetric (route : StaticRouteConfig) :
    parseRoute C route.withoutMetric = (parseRoute C route).map RouteEntry.withoutMetric := by
  show parseRoute C { route with metric := 0 } = _
  unfold parseRoute
  dsimp only
  cases C.parseIpNet route.pfx <;> rfl

theorem staticEntries_withoutMetric :
    (staticEntries C cfg).map RouteEntry.withoutMetric
      = (cfg.staticMap.map StaticRouteConfig.withoutMetric).filterMap fun route =>
          (parseRoute C route).toOption := by
  unfold staticEntries
  rw [List.map_filterMap, List.filterMap_map]
  congr 1
  funext route
  show (parseRoute C route).toOption.map _ = (parseRoute C route.withoutMetric).toOption
  rw [parseRoute_withoutMetric]
  cases parseRoute C route <;> rfl

theorem lookup_withoutMetric (h : RoutingTable.fromConfig C cfg = .ok table) (ip : IpAddr) :
    (table.lookup ip).map RouteEntry.withoutMetric
      = (((staticEntries C cfg).map RouteEntry.withoutMetric).insertionSort
          (Descending fun e => e.pfx.prefixLen)).find? fun e => e.pfx.contains ip := by
  rw [lookup_eq h]
  exact (Lib.find?_insertionSort_map RouteEntry.withoutMetric (fun e => e.pfx.contains ip)
    (fun e => e.pfx.prefixLen) (staticEntries C cfg)).symm

/-- With other metrics the same routes are taken. -/
theorem lookup_metrics (h : RoutingTable.fromConfig C cfg = .ok table)
    {staticMap : List StaticRouteConfig}
    (hsame : staticMap.map StaticRouteConfig.withoutMetric
      = cfg.staticMap.map StaticRouteConfig.withoutMetric) :
    ∃ table', RoutingTable.fromConfig C { cfg with staticMap } = .ok table' ∧
      ∀ ip, (table'.lookup ip).map RouteEntry.withoutMetric
        = (table.lookup ip).map RouteEntry.withoutMetric := by
  have hall := (fromConfig_eq_ok_iff.mp h).1
  obtain ⟨table', h'⟩ := fromConfig_withStaticMap h staticMap (by
    intro route hroute
    have hmem := List.mem_map_of_mem (f := StaticRouteConfig.withoutMetric) hroute
    rw [hsame] at hmem
    obtain ⟨route', hroute', heq⟩ := List.mem_map.mp hmem
    obtain ⟨e, he⟩ := hall route' hroute'
    have hparse := parseRoute_withoutMetric (C := C) route
    rw [← heq, parseRoute_withoutMetric, he] at hparse
    obtain ⟨e', he', -⟩ := Lib.Except.map_eq_ok_iff.mp hparse.symm
    exact ⟨e', he'⟩)
  refine ⟨table', h', fun ip => ?_⟩
  rw [lookup_withoutMetric h', lookup_withoutMetric h, staticEntries_withoutMetric,
    staticEntries_withoutMetric, hsame]

/-- Of the longest entries that contain an address the first listed is taken,
whatever the metrics, by DATA encapsulation, resolve and ping alike. -/
theorem lookup_first_listed (h : RoutingTable.fromConfig C cfg = .ok table) (ip : IpAddr) :
    (∀ e, table.lookup ip = some e ↔
      Preferred (fun e => e.pfx.contains ip) (fun e => e.pfx.prefixLen) (staticEntries C cfg) e) ∧
    (∀ staticMap, staticMap.map StaticRouteConfig.withoutMetric
        = cfg.staticMap.map StaticRouteConfig.withoutMetric →
      ∃ table', RoutingTable.fromConfig C { cfg with staticMap } = .ok table' ∧
        (table'.lookup ip).map RouteEntry.withoutMetric
          = (table.lookup ip).map RouteEntry.withoutMetric) ∧
    (DistinctNetworks C cfg → ∀ staticMap, staticMap.Perm cfg.staticMap →
      ∃ table', RoutingTable.fromConfig C { cfg with staticMap } = .ok table' ∧
        table'.lookup ip = table.lookup ip) ∧
    ∀ sh e, sh.routing = table → table.lookup ip = some e →
      (∀ target, IpAddr.fromStr target = some ip →
        resolveTarget sh target = .ok e.stealth ∧
          adminQuery sh (.resolve target) = some (.resolved target (some
            { stealth := e.stealth, ip := some (toString ip), matchedPrefix := toString e.pfx }))) ∧
      ∀ env packet, packetDestination packet = some ip → ip.isMulticast = false →
        handleLocalPacket C sh env packet = forwardByStealth C sh env e.stealth (.data
          { srcStealth := sh.localStealth, dstStealth := e.stealth, ttl := 16,
            innerPacket := packet }) := by
  refine ⟨fun e => lookup_eq_some_iff h, fun staticMap hsame => ?_,
    fun hdistinct staticMap hperm => ?_, ?_⟩
  · obtain ⟨table', h', hall⟩ := lookup_metrics h hsame
    exact ⟨table', h', hall ip⟩
  · obtain ⟨table', h', hall⟩ := lookup_perm h hdistinct hperm
    exact ⟨table', h', hall ip⟩
  · rintro sh e rfl he
    refine ⟨fun target htarget => ⟨?_, ?_⟩, fun env packet hdst hcast => ?_⟩
    · unfold resolveTarget
      simp only [htarget, he]
    · unfold adminQuery
      simp only [htarget, he, Option.map_some]
    · unfold handleLocalPacket
      simp only [hdst, hcast, Bool.false_eq_true, if_false, he]

namespace Line

/-- Two routes to the network of the last node, the worse one listed first,
and a longer route to the front of it. -/
def redundant : RoutingConfig :=
  { ownedPrefixes := []
    staticMap :=
      [⟨"10.50.3.0/24", stealth 1, 20, "direct"⟩, ⟨"10.50.3.7/24", stealth 2, 10, "direct"⟩,
        ⟨"10.50.3.0/28", stealth 0, 10, "direct"⟩]
    overlayRoutes := [] }

/-- What the table of these routes answers. -/
theorem redundant_computed :
    (RoutingTable.fromConfig Crates.ideal redundant).toOption.any (fun table =>
      (table.lookup (.v4 0x0a3203c8#32)).any (fun e => e.stealth == stealth 1 && e.metric == 20 &&
        (staticEntries Crates.ideal redundant).any fun e' =>
          e'.pfx.trunc == e.pfx.trunc && e'.pfx.contains (.v4 0x0a3203c8#32) && e'.metric == 10) &&
      (table.reverseLookup (stealth 1)).any (fun res => res.ip == some "10.50.3.0") &&
      (table.lookup (.v4 0x0a320300#32)).any fun e => e.stealth == stealth 0) = true := by
  decide +kernel

/-- A route is taken although one to the same network has a smaller metric. -/
theorem metric_ignored :
    ∃ table e e', RoutingTable.fromConfig Crates.ideal redundant = .ok table ∧
      table.lookup (.v4 0x0a3203c8#32) = some e ∧
      e' ∈ staticEntries Crates.ideal redundant ∧ e'.pfx.contains (.v4 0x0a3203c8#32) = true ∧
      e'.pfx.trunc = e.pfx.trunc ∧ e'.metric < e.metric := by
  obtain ⟨table, htable, h⟩ := (Option.any_eq_true _ _).mp redundant_computed
  rw [Bool.and_eq_true, Bool.and_eq_true] at h
  obtain ⟨e, he, h⟩ := (Option.any_eq_true _ _).mp h.1.1
  simp only [Bool.and_eq_true, beq_iff_eq] at h
  obtain ⟨⟨-, hmetric⟩, h⟩ := h
  obtain ⟨e', he', h⟩ := List.any_eq_true.mp h
  simp only [Bool.and_eq_true, beq_iff_eq] at h
  refine ⟨table, e, e', Lib.Except.toOption_eq_some_iff.mp htable, he, he', h.1.2, h.1.1, ?_⟩
  rw [h.2, hmetric]
  decide

/-- The first listed of two routes to a network is the preferred one. -/
theorem first_listed :
    ∃ table e, RoutingTable.fromConfig Crates.ideal redundant = .ok table ∧
      e.stealth = stealth 1 ∧
      Preferred (fun e => e.pfx.contains (.v4 0x0a3203c8#32)) (fun e => e.pfx.prefixLen)
        (staticEntries Crates.ideal redundant) e := by
  obtain ⟨table, htable, h⟩ := (Option.any_eq_true _ _).mp redundant_computed
  rw [Bool.and_eq_true, Bool.and_eq_true] at h
  obtain ⟨e, he, h⟩ := (Option.any_eq_true _ _).mp h.1.1
  simp only [Bool.and_eq_true, beq_iff_eq] at h
  have htable := Lib.Except.toOption_eq_some_iff.mp htable
  exact ⟨table, e, htable, h.1.1, ((lookup_first_listed htable _).1 e).mp he⟩

end Line

/-! ## §3. Backward. -/

theorem reverseLookup_eq (h : RoutingTable.fromConfig C cfg = .ok table) (stealth : String) :
    table.reverseLookup stealth
      = (((staticEntries C cfg).insertionSort (Descending fun e => e.pfx.prefixLen)).find?
          fun e => e.stealth == stealth).map fun e =>
            { stealth := e.stealth
              ip := some (toString e.pfx.addr)
              matchedPrefix := toString e.pfx } := by
  unfold RoutingTable.reverseLookup
  rw [routes_fromConfig h]

/-- The address of the entry found for a stealth leads back to the stealth
exactly if it leads to that entry. -/
theorem lookup_addr_iff (h : RoutingTable.fromConfig C cfg = .ok table) {stealth : String}
    {e r : RouteEntry}
    (he : ((staticEntries C cfg).insertionSort (Descending fun e => e.pfx.prefixLen)).find?
      (fun e => e.stealth == stealth) = some e)
    (hr : table.lookup e.pfx.addr = some r) : r.stealth = stealth ↔ r = e := by
  constructor
  · intro hstealth
    rw [lookup_eq h] at hr
    exact Lib.find?_eq_of_passes hr he (beq_iff_eq.mpr hstealth) e.pfx.contains_addr
  · rintro rfl
    have hs := List.find?_some he
    exact beq_iff_eq.mp hs

theorem reverseLookup_isSome_iff (h : RoutingTable.fromConfig C cfg = .ok table)
    (stealth : String) :
    (table.reverseLookup stealth).isSome = true ↔
      ∃ route ∈ cfg.staticMap, route.stealth = stealth := by
  rw [reverseLookup_eq h, Option.isSome_map, List.find?_isSome]
  simp only [List.mem_insertionSort, mem_staticEntries]
  constructor
  · rintro ⟨e, ⟨route, hroute, he⟩, hs⟩
    exact ⟨route, hroute, by rw [← (parseRoute_eq_ok.mp he).2.1]; exact beq_iff_eq.mp hs⟩
  · rintro ⟨route, hroute, rfl⟩
    obtain ⟨e, he⟩ := (fromConfig_eq_ok_iff.mp h).1 route hroute
    exact ⟨e, ⟨route, hroute, he⟩, beq_iff_eq.mpr (parseRoute_eq_ok.mp he).2.1⟩

/-- The address an entry was written with has a route. -/
theorem lookup_addr_isSome (h : RoutingTable.fromConfig C cfg = .ok table) {e : RouteEntry}
    (he : e ∈ staticEntries C cfg) : ∃ r, table.lookup e.pfx.addr = some r := by
  rw [← Option.isSome_iff_exists, Option.isSome_iff_ne_none]
  intro hnone
  have hcontains := (lookup_eq_none_iff h).mp hnone e he
  rw [e.pfx.contains_addr] at hcontains
  cases hcontains

/-- It is the entry itself unless another stealth shadows it. -/
theorem lookup_addr_eq_iff (h : RoutingTable.fromConfig C cfg = .ok table) {stealth : String}
    {e r : RouteEntry} {pre post : List RouteEntry}
    (hsplit : staticEntries C cfg = pre ++ e :: post)
    (hpre : ∀ b ∈ pre, b.stealth = stealth → b.pfx.prefixLen < e.pfx.prefixLen)
    (hpost : ∀ b ∈ post, b.stealth = stealth → b.pfx.prefixLen ≤ e.pfx.prefixLen)
    (hs : e.stealth = stealth) (hr : table.lookup e.pfx.addr = some r) :
    r = e ↔
      (∀ b ∈ pre, b.stealth ≠ stealth → b.pfx.contains e.pfx.addr = true →
        b.pfx.prefixLen < e.pfx.prefixLen) ∧
      ∀ b ∈ post, b.stealth ≠ stealth → b.pfx.contains e.pfx.addr = true →
        b.pfx.prefixLen ≤ e.pfx.prefixLen := by
  have hfirst : e ∉ pre := fun hmem => absurd (hpre e hmem hs) (Nat.lt_irrefl _)
  constructor
  · rintro rfl
    have hpref := (lookup_eq_some_iff h).mp hr
    rw [hsplit] at hpref
    exact ⟨fun b hb _ hbc => hpref.lt_of_split hfirst b hb hbc,
      fun b hb _ hbc => hpref.best (by simp [hb]) hbc⟩
  · rintro ⟨hother, hother'⟩
    have hpref : Preferred (fun b => b.pfx.contains e.pfx.addr) (fun b => b.pfx.prefixLen)
        (staticEntries C cfg) e := by
      refine ⟨pre, post, hsplit, e.pfx.contains_addr, fun b hb hbc => ?_, fun b hb hbc => ?_⟩
      · by_cases hbs : b.stealth = stealth
        · exact hpre b hb hbs
        · exact hother b hb hbs hbc
      · by_cases hbs : b.stealth = stealth
        · exact hpost b hb hbs
        · exact hother' b hb hbs hbc
    exact ((lookup_eq_some_iff h).mp hr).unique hpref

/-- A stealth is found exactly if an entry has it. The address reported is the
one its first entry of the greatest length was written with, and a lookup of
this address leads back to the stealth unless an entry of another stealth that
contains the address is longer, or as long and listed earlier. -/
theorem reverseLookup_resolves (h : RoutingTable.fromConfig C cfg = .ok table) (stealth : String) :
    ((table.reverseLookup stealth).isSome = true ↔
      ∃ route ∈ cfg.staticMap, route.stealth = stealth) ∧
    ∀ res, table.reverseLookup stealth = some res →
      ∃ pre e post, staticEntries C cfg = pre ++ e :: post ∧ e.stealth = stealth ∧
        (∀ b ∈ pre, b.stealth = stealth → b.pfx.prefixLen < e.pfx.prefixLen) ∧
        (∀ b ∈ post, b.stealth = stealth → b.pfx.prefixLen ≤ e.pfx.prefixLen) ∧
        res.stealth = stealth ∧ res.ip = some (toString e.pfx.addr) ∧
        IpAddr.fromStr (toString e.pfx.addr) = some e.pfx.addr ∧
        ∃ r, table.lookup e.pfx.addr = some r ∧
          (∀ sh, sh.routing = table →
            resolveTarget sh (toString e.pfx.addr) = .ok r.stealth ∧
            adminQuery sh (.resolve (toString e.pfx.addr))
              = some (.resolved (toString e.pfx.addr) (some
                  { stealth := r.stealth
                    ip := some (toString e.pfx.addr)
                    matchedPrefix := toString r.pfx }))) ∧
          (r.stealth = stealth ↔
            (∀ b ∈ pre, b.stealth ≠ stealth → b.pfx.contains e.pfx.addr = true →
              b.pfx.prefixLen < e.pfx.prefixLen) ∧
            ∀ b ∈ post, b.stealth ≠ stealth → b.pfx.contains e.pfx.addr = true →
              b.pfx.prefixLen ≤ e.pfx.prefixLen) := by
  refine ⟨reverseLookup_isSome_iff h stealth, fun res hres => ?_⟩
  rw [reverseLookup_eq h] at hres
  obtain ⟨e, he, rfl⟩ := Option.map_eq_some_iff.mp hres
  obtain ⟨pre, post, hsplit, hs, hpre, hpost⟩ := Lib.find?_insertionSort_eq_some.mp he
  have hs : e.stealth = stealth := beq_iff_eq.mp hs
  have hpre : ∀ b ∈ pre, b.stealth = stealth → b.pfx.prefixLen < e.pfx.prefixLen :=
    fun b hb hbs => hpre b hb (beq_iff_eq.mpr hbs)
  have hpost : ∀ b ∈ post, b.stealth = stealth → b.pfx.prefixLen ≤ e.pfx.prefixLen :=
    fun b hb hbs => hpost b hb (beq_iff_eq.mpr hbs)
  obtain ⟨r, hr⟩ := lookup_addr_isSome h (e := e) (by rw [hsplit]; simp)
  have hparse := IpAddr.fromStr_toString e.pfx.addr
  refine ⟨pre, e, post, hsplit, hs, hpre, hpost, hs, rfl, hparse, r, hr, ?_, ?_⟩
  · intro sh hsh
    subst hsh
    unfold resolveTarget adminQuery
    simp only [hparse, hr, Option.map_some, and_self]
  · rw [lookup_addr_iff h he hr]
    exact lookup_addr_eq_iff h hsplit hpre hpost hs hr

namespace Line

/-- The address reported for the middle node's stealth leads to the first
node. -/
theorem reverse_shadowed :
    ∃ table res r, RoutingTable.fromConfig Crates.ideal redundant = .ok table ∧
      table.reverseLookup (stealth 1) = some res ∧
      res.ip.bind IpAddr.fromStr = some (.v4 0x0a320300#32) ∧
      table.lookup (.v4 0x0a320300#32) = some r ∧ r.stealth ≠ stealth 1 := by
  obtain ⟨table, htable, h⟩ := (Option.any_eq_true _ _).mp redundant_computed
  rw [Bool.and_eq_true, Bool.and_eq_true] at h
  obtain ⟨res, hres, hip⟩ := (Option.any_eq_true _ _).mp h.1.2
  obtain ⟨r, hr, hstealth⟩ := (Option.any_eq_true _ _).mp h.2
  refine ⟨table, res, r, Lib.Except.toOption_eq_some_iff.mp htable, hres, ?_, hr, ?_⟩
  · rw [beq_iff_eq.mp hip]
    decide
  · rw [beq_iff_eq.mp hstealth]
    decide

/-- The first node's own stealth and address lead to each other. -/
theorem reverse_resolved :
    ∃ table e r, RoutingTable.fromConfig Crates.ideal redundant = .ok table ∧
      e ∈ staticEntries Crates.ideal redundant ∧ e.stealth = stealth 0 ∧
      table.lookup e.pfx.addr = some r ∧ r.stealth = stealth 0 := by
  have hfound : (RoutingTable.fromConfig Crates.ideal redundant).toOption.any (fun table =>
      (table.reverseLookup (stealth 0)).isSome) = true := by
    decide +kernel
  obtain ⟨table, htable, hres⟩ := (Option.any_eq_true _ _).mp hfound
  have htable := Lib.Except.toOption_eq_some_iff.mp htable
  obtain ⟨res, hres⟩ := Option.isSome_iff_exists.mp hres
  obtain ⟨pre, e, post, hsplit, hs, -, -, -, -, -, r, hr, -, hiff⟩ :=
    (reverseLookup_resolves htable (stealth 0)).2 res hres
  have hlongest : ∀ e ∈ staticEntries Crates.ideal redundant, e.stealth = stealth 0 →
      ∀ b ∈ staticEntries Crates.ideal redundant, b.stealth ≠ stealth 0 →
        b.pfx.prefixLen < e.pfx.prefixLen := by
    decide +kernel
  have hmem : e ∈ staticEntries Crates.ideal redundant := by
    rw [hsplit]
    simp
  refine ⟨table, e, r, htable, hmem, hs, hr, hiff.mpr ⟨fun b hb hbs _ => ?_, fun b hb hbs _ => ?_⟩⟩
  · exact hlongest e hmem hs b (by rw [hsplit]; simp [hb]) hbs
  · exact (hlongest e hmem hs b (by rw [hsplit]; simp [hb]) hbs).le

end Line

end StealthNet
