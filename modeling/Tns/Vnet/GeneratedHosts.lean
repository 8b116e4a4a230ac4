import Tns.Vnet.GeneratedNetwork

/-!
# The hosts of a generated network

A host has a local route for each network that it sits on, and sends everything
else to the first router on one of them.  From there the tables of the routers
take a datagram to its destination.
-/

namespace Tns.Ip

open Wire

/-- What a node puts on a link for `sendIp_`. -/
def NetworkNode.Sends (n : NetworkNode) (destIP : Ipv4Address) (payload : List Byte)
    (protocol : Protocol) (emission : Emission) : Prop :=
  ∃ d iface, n.sendIp destIP payload protocol =
      .ok (.through emission.interface emission.nextHopAddr d) ∧
    n.interfaces[emission.interface]? = some iface ∧
    d.send iface emission.interface emission.nextHopAddr = some emission

/-- A payload that fits leaves through an interface that knows the next hop. -/
theorem NetworkNode.sends_of_nextHop {n : NetworkNode} {destIP nextHopAddr : Ipv4Address} {i : ℕ}
    {iface : NetworkInterface} {payload : List Byte} (hmine : n.isMyIpAddress destIP = false)
    (hquery : n.routingTable.queryRoutingTable destIP = .ok (.ok ⟨i, nextHopAddr⟩))
    (hiface : n.interfaces[i]? = some iface) (hup : iface.isUp)
    (hneighbor : nextHopAddr ∈ iface.neighborInterfaces)
    (hfits : payload.length ≤ MAX_DATAGRAM_SIZE - 20) (protocol : Protocol) :
    ∃ d, Conveys iface.ipAddress destIP payload protocol 16 d ∧
      n.Sends destIP payload protocol ⟨i, nextHopAddr, d.bytes⟩ := by
  have hmax : MAX_DATAGRAM_SIZE = 1400 := rfl
  have hnext := NetworkNode.nextHop_eq_ok.mpr ⟨hquery, hiface⟩
  have hsend := NetworkNode.sendIp_of_nextHop hmine hnext payload protocol
  rcases Datagram.make_cases iface.ipAddress destIP payload protocol with
    ⟨hlong, -⟩ | ⟨-, d, hmake, -⟩
  · omega
  · rw [hmake, Except.ok_bind] at hsend
    refine ⟨d, conveys_of_make hfits hmake, d, iface, hsend, hiface, ?_⟩
    exact if_pos ⟨hup, hneighbor⟩

end Tns.Ip

namespace Tns.Vnet

open Library Lnx Ip

namespace NetConfig

variable {c : NetConfig} {seat other gw : Seat} {node : Node} {now : TimePoint}

/-! ## The table of a host -/

/-- The local routes of a node. -/
def localRoutes (c : NetConfig) (node : Node) (now : TimePoint) : RoutingTable :=
  (RouterNode.ofLnx (c.interfaces node) [] now).routingTable

def defaultRoute (gw : Seat) (now : TimePoint) : RoutingTable.Entry where
  type := .static
  addr := { addr := 0 }
  mask := 0
  gateway := some { addr := gw.addr }
  interfaceIt := none
  metric := none
  lastRefresh := now

variable (now) in
theorem routingTable_hostNode (hhost : node.nodeType = .host)
    (hgw : (c.routerSeats node.name).head? = some gw) :
    ((c.config node).hostNode now).routingTable =
      c.localRoutes node now ++ [defaultRoute gw now] := by
  have hroutes : (c.config node).routes = [({ address := { addr := 0 }, maskLength := 0 },
      { addr := gw.addr })] := by
    have hrouter : ¬node.nodeType = .router := by simp [hhost]
    simp only [LnxConfig.routes, config, hgw, if_neg hrouter]
    rfl
  rw [LnxConfig.hostNode, hroutes]
  rfl

theorem mem_localRoutes {e : RoutingTable.Entry} (he : e ∈ c.localRoutes node now) :
    ∃ seat ∈ ownSeats c.seats node.name, ∃ d i, (c.interfaces node)[i]? = some d ∧
      c.Sits seat d ∧ e.subnet = d.subnet ∧ e.mask = MASK ∧ e.gateway = none ∧
        e.interface = .ok i := by
  obtain ⟨d, i, hd, rfl⟩ := RouterNode.mem_routingTable_ofLnx.mp he
  obtain ⟨seat, hseat, hsits⟩ := exists_sits (List.mem_of_getElem? hd)
  exact ⟨seat, hseat, d, i, hd, hsits, rfl, congrArg Prod.snd hsits.subnet, rfl, rfl⟩

variable (now) in
theorem exists_localRoute (hseat : seat ∈ ownSeats c.seats node.name) :
    ∃ e ∈ c.localRoutes node now, ∃ d, c.Sits seat d ∧ e.subnet = d.subnet ∧ e.mask = MASK := by
  obtain ⟨d, hd, hsits⟩ := exists_interface hseat
  obtain ⟨i, hi⟩ := List.mem_iff_getElem?.mp hd
  exact ⟨_, RouterNode.mem_routingTable_ofLnx.mpr ⟨d, i, hi, rfl⟩, d, hsits, rfl,
    congrArg Prod.snd hsits.subnet⟩

variable (gw now) in
/-- An address on a network of the host is looked up as one on its link. -/
theorem query_onLink (h : c.Good) (hseat : seat ∈ ownSeats c.seats node.name)
    (hother : other ∈ c.seats) (hnetwork : other.network = seat.network) :
    ∃ d i e, (c.localRoutes node now ++ [defaultRoute gw now]).query { addr := other.addr } =
        some e ∧ (c.interfaces node)[i]? = some d ∧ c.Sits seat d ∧ e.gateway = none ∧
      e.interface = .ok i := by
  obtain ⟨hmem, hnode⟩ := mem_ownSeats.mp hseat
  obtain ⟨e₀, he₀, d₀, hsits₀, hsubnet₀, hmask₀⟩ := exists_localRoute now hseat
  have hmatch₀ : e₀.isMatch { addr := other.addr } := by
    rw [isMatch_iff, hsubnet₀]
    exact (hsits₀.contains_iff h hmem hother).mpr hnetwork
  have hin : e₀ ∈ c.localRoutes node now ++ [defaultRoute gw now] :=
    List.mem_append.mpr (.inl he₀)
  cases hquery : (c.localRoutes node now ++ [defaultRoute gw now]).queryLongestPrefixMatch
      { addr := other.addr } with
  | none => exact absurd hmatch₀ (RoutingTable.queryLongestPrefixMatch_eq_none.mp hquery e₀ hin)
  | some e =>
      obtain ⟨he, hmatch, hlongest⟩ := RoutingTable.mem_of_queryLongestPrefixMatch hquery
      rcases List.mem_append.mp he with he | he
      · obtain ⟨seat', hseat', d, i, hd, hsits, hsubnet, -, hgateway, hinterface⟩ :=
          mem_localRoutes he
        obtain ⟨hmem', hnode'⟩ := mem_ownSeats.mp hseat'
        rw [isMatch_iff, hsubnet, hsits.contains_iff h hmem' hother] at hmatch
        obtain rfl := h.simple.seat_eq hmem' hmem (hnode'.trans hnode.symm)
          (hmatch.symm.trans hnetwork)
        exact ⟨d, i, e, hquery, hd, hsits, hgateway, hinterface⟩
      · obtain rfl := List.mem_singleton.mp he
        have hle : e₀.mask ≤ 0 := hlongest e₀ hin hmatch₀
        rw [hmask₀] at hle
        exact absurd hle (by decide)

/-- Any other address is looked up as one behind the default route. -/
theorem query_defaultRoute (h : c.Good) (hother : other ∈ c.seats)
    (hnetwork : ∀ seat ∈ ownSeats c.seats node.name, seat.network ≠ other.network) :
    (c.localRoutes node now ++ [defaultRoute gw now]).query { addr := other.addr } =
      some (defaultRoute gw now) := by
  have hmatch : (defaultRoute gw now).isMatch { addr := other.addr } := by
    change other.addr &&& 0 = 0 &&& 0
    rw [UInt32.and_zero, UInt32.and_zero]
  cases hquery : (c.localRoutes node now ++ [defaultRoute gw now]).queryLongestPrefixMatch
      { addr := other.addr } with
  | none =>
      have hnot := RoutingTable.queryLongestPrefixMatch_eq_none.mp hquery (defaultRoute gw now)
      exact absurd hmatch (hnot (List.mem_append.mpr (.inr (List.mem_singleton_self _))))
  | some e =>
      obtain ⟨he, hmatches, -⟩ := RoutingTable.mem_of_queryLongestPrefixMatch hquery
      rcases List.mem_append.mp he with he | he
      · obtain ⟨seat, hseat, d, i, -, hsits, hsubnet, -, -, -⟩ := mem_localRoutes he
        rw [isMatch_iff, hsubnet, hsits.contains_iff h (mem_ownSeats.mp hseat).1 hother] at hmatches
        exact absurd hmatches.symm (hnetwork seat hseat)
      · rwa [List.mem_singleton.mp he] at hquery

/-! ## Sending -/

theorem getElem?_interfaces_hostNode {d : InterfaceData} {i : ℕ}
    (hd : (c.interfaces node)[i]? = some d) :
    ((c.config node).hostNode now).interfaces[i]? = some {
      name := d.name, ipAddress := d.cidr.address, neighborInterfaces := d.neighborIpAddrs } := by
  have hinterfaces : ((c.config node).hostNode now).interfaces = (c.interfaces node).map fun d ↦ {
      name := d.name, ipAddress := d.cidr.address, neighborInterfaces := d.neighborIpAddrs } := rfl
  rw [hinterfaces, List.getElem?_map, hd]
  rfl

variable (now) in
theorem isMyIpAddress_hostNode (h : c.Good) (hother : other ∈ c.seats)
    (hnode : other.node ≠ node.name) :
    ((c.config node).hostNode now).isMyIpAddress { addr := other.addr } = false := by
  rw [Bool.eq_false_iff]
  intro hmine
  have hmine' : (nodeOf (c.interfaces node) now).isMyIpAddress { addr := other.addr } = true :=
    hmine
  rw [isMyIpAddress_nodeOf] at hmine'
  obtain ⟨d, hd, heq⟩ := hmine'
  obtain ⟨seat, hseat, hsits⟩ := exists_sits hd
  rw [hsits.cidr, Ipv4Address.mk.injEq] at heq
  obtain ⟨hmem, hname⟩ := mem_ownSeats.mp hseat
  obtain rfl := h.seat_eq_of_addr hmem hother heq.1
  exact hnode hname

variable {payload : List Byte}

variable (now) in
/-- A host hands a datagram for a node on one of its networks to that node, and any other to the
first router. -/
theorem exists_sends (h : c.Good) (hhost : node.nodeType = .host)
    (hgw : (c.routerSeats node.name).head? = some gw) (hother : other ∈ c.seats)
    (hnode : other.node ≠ node.name) (hfits : payload.length ≤ Wire.MAX_DATAGRAM_SIZE - 20)
    (protocol : Protocol) :
    ∃ source ∈ ownSeats c.seats node.name, ∃ via d i,
      (via = other ∨ via = gw ∧
        ∀ seat ∈ ownSeats c.seats node.name, seat.network ≠ other.network) ∧
      Wire.Conveys { addr := source.addr } { addr := other.addr } payload protocol 16 d ∧
      ((c.config node).hostNode now).Sends { addr := other.addr } payload protocol
        ⟨i, { addr := via.addr }, d.bytes⟩ := by
  have htable := routingTable_hostNode now hhost hgw
  have hmine := isMyIpAddress_hostNode now h hother hnode
  -- The next hop is on the network of a seat of the host, which names it as a neighbour.
  have hthrough : ∀ seat ∈ ownSeats c.seats node.name, ∀ via ∈ c.others seat, ∀ d i,
      (c.interfaces node)[i]? = some d → c.Sits seat d →
      ((c.config node).hostNode now).routingTable.queryRoutingTable { addr := other.addr } =
        .ok (.ok ⟨i, { addr := via.addr }⟩) →
      ∃ d, Wire.Conveys { addr := seat.addr } { addr := other.addr } payload protocol 16 d ∧
        ((c.config node).hostNode now).Sends { addr := other.addr } payload protocol
          ⟨i, { addr := via.addr }, d.bytes⟩ := by
    intro seat hseat via hvia d i hd hsits hquery
    have hneighbor : ({ addr := via.addr } : Ipv4Address) ∈ d.neighborIpAddrs :=
      (hsits.neighbors _).mpr ⟨via, hvia, rfl⟩
    obtain ⟨datagram, hconveys, hsends⟩ := NetworkNode.sends_of_nextHop hmine hquery
      (getElem?_interfaces_hostNode hd) rfl hneighbor hfits protocol
    have haddr : d.cidr.address = { addr := seat.addr } := by rw [hsits.cidr]
    rw [haddr] at hconveys
    exact ⟨datagram, hconveys, hsends⟩
  by_cases honLink : ∃ seat ∈ ownSeats c.seats node.name, seat.network = other.network
  · obtain ⟨seat, hseat, hnetwork⟩ := honLink
    obtain ⟨d, i, e, hquery, hd, hsits, hgateway, hinterface⟩ :=
      query_onLink gw now h hseat hother hnetwork.symm
    have hothers : other ∈ c.others seat :=
      mem_others.mpr ⟨hother, hnetwork.symm, (mem_ownSeats.mp hseat).2 ▸ hnode⟩
    obtain ⟨datagram, hconveys, hsends⟩ := hthrough seat hseat other hothers d i hd hsits
      (htable ▸ RipTopology.queryRoutingTable_onLink hquery hgateway hinterface)
    exact ⟨seat, hseat, other, datagram, i, .inl rfl, hconveys, hsends⟩
  · have hnetwork : ∀ seat ∈ ownSeats c.seats node.name, seat.network ≠ other.network :=
      fun seat hseat heq ↦ honLink ⟨seat, hseat, heq⟩
    obtain ⟨seat, hseat, hrouter⟩ := List.mem_flatMap.mp (List.mem_of_mem_head? hgw)
    obtain ⟨hothers, -⟩ := mem_routersOn.mp hrouter
    obtain ⟨hgwMem, hgwNetwork, -⟩ := mem_others.mp hothers
    obtain ⟨d, i, e, hquery, hd, hsits, -, hinterface⟩ :=
      query_onLink gw now h hseat hgwMem hgwNetwork
    obtain ⟨datagram, hconveys, hsends⟩ := hthrough seat hseat gw hothers d i hd hsits
      (htable ▸ RipTopology.queryRoutingTable_viaGateway (query_defaultRoute h hother hnetwork) rfl
        hquery hinterface)
    exact ⟨seat, hseat, gw, datagram, i, .inr ⟨rfl, hnetwork⟩, hconveys, hsends⟩

/-! ## From a host to any node -/

variable {r q : c.Router} {start : c.Router → TimePoint} {k : ℕ}
  {order : ℕ → c.Router → List (c.Router × Ipv4Address)}
  {reception : ℕ → c.Router → c.Router × Ipv4Address → Reception}
  {tables : c.Router → RoutingTable}

theorem Good.contains_subnetOf (h : c.Good) (hseat : seat ∈ c.seats) :
    Contains (subnetOf seat.network) { addr := seat.addr } := addr_and_mask h hseat

/-- Routers on a common network are neighbours. -/
theorem Good.adj (h : c.Good) (hseat : seat ∈ ownSeats c.seats q.1.name)
    (hother : other ∈ ownSeats c.seats r.1.name) (hnetwork : other.network = seat.network)
    (hne : r.1.name ≠ q.1.name) : (c.ripTopology h).graph.Adj r q := by
  obtain ⟨hmem, hname⟩ := mem_ownSeats.mp hother
  refine Topology.adj_of_owns ((h.owns_iff hmem).mpr hname)
    ((mem_ripNeighbors q.2.2).mpr ⟨seat, hseat, other, mem_routersOn.mpr ⟨?_, ?_⟩, rfl⟩)
  · refine mem_others.mpr ⟨hmem, hnetwork, ?_⟩
    rwa [hname, (mem_ownSeats.mp hseat).2]
  · rw [hname, nodeNamed_of_mem h.toNamed r.2.1]
    exact decide_eq_true r.2.2

def routers (c : NetConfig) : List c.Router :=
  c.nodes.attach.filterMap fun node ↦
    if hrouter : node.1.nodeType = .router then some ⟨node.1, node.2, hrouter⟩ else none

theorem mem_routers (r : c.Router) : r ∈ c.routers :=
  List.mem_filterMap.mpr ⟨⟨r.1, r.2.1⟩, List.mem_attach _ _, dif_pos r.2.2⟩

/-- The messages of a round arrive in the order of their senders. -/
def inOrder (c : NetConfig) (_ : ℕ) (r : c.Router) : List (c.Router × Ipv4Address) :=
  c.routers.flatMap fun q ↦
    ((c.ripNeighbors q.1).filter fun a ↦ ∃ d ∈ c.interfaces r.1, d.cidr.address = a).map
      fun a ↦ (q, a)

theorem arrive_inOrder (h : c.Good) : (c.ripTopology h).Arrive c.inOrder := by
  intro k r q a
  rw [inOrder, List.mem_flatMap]
  constructor
  · rintro ⟨q', -, hmem⟩
    obtain ⟨a', ha, heq⟩ := List.mem_map.mp hmem
    obtain ⟨rfl, rfl⟩ := Prod.mk.inj heq
    rw [List.mem_filter, decide_eq_true_eq] at ha
    exact ha
  · rintro ⟨ha, howns⟩
    exact ⟨q, mem_routers q, List.mem_map_of_mem
      (List.mem_filter.mpr ⟨ha, decide_eq_true howns⟩)⟩

/-- If every network names a node once, there are 114 networks or less, and the tables of the
routers come from `k` rounds, in whatever order the messages arrive, a host gets a datagram through
to any other node that is on one of its own networks or at hop distance `k` or less, and 14 or less,
from its first router. -/
theorem host_reaches (h : c.Good) (hcount : c.networks.length ≤ 114)
    (harrive : (c.ripTopology h).Arrive order)
    (hrounds : ∀ r, (c.ripTopology h).rounds start order reception k r = .ok (tables r))
    (hhost : node.nodeType = .host) (hgw : (c.routerSeats node.name).head? = some gw)
    (hgateway : gw.node = r.1.name) (hother : other ∈ c.seats) (hnode : other.node ≠ node.name)
    (hnear : (∃ seat ∈ ownSeats c.seats node.name, seat.network = other.network) ∨
      (c.ripTopology h).hops (subnetOf other.network) r ≤ min k 14)
    (hfits : payload.length ≤ Wire.MAX_DATAGRAM_SIZE - 20) (protocol : Protocol) :
    ∃ source ∈ ownSeats c.seats node.name, ∃ emission,
      ((c.config node).hostNode now).Sends { addr := other.addr } payload protocol emission ∧
      (RipTopology.Arrives { addr := source.addr } { addr := other.addr } payload protocol
          (.forwarded emission) ∨
        (c.ripTopology h).Owns r emission.nextHopAddr ∧ ∃ routers handled,
          RipTopology.Travels (c.ripTopology h).toTopology ((c.ripTopology h).node start tables) r
              emission.bytes routers handled ∧
            RipTopology.Arrives { addr := source.addr } { addr := other.addr } payload protocol
              handled ∧
            routers.Nodup) := by
  obtain ⟨source, hsource, via, d, i, hvia, hconveys, hsends⟩ :=
    exists_sends now h hhost hgw hother hnode hfits protocol
  refine ⟨source, hsource, _, hsends, ?_⟩
  rcases hvia with rfl | ⟨rfl, hfar⟩
  · left
    obtain ⟨d', haccepts, hnext⟩ := hconveys.next hfits
    exact .inr ⟨_, d', rfl, rfl, haccepts, hnext.intact⟩
  · right
    obtain ⟨seat, hseat, hrouter⟩ := List.mem_flatMap.mp (List.mem_of_mem_head? hgw)
    have hgwMem := (mem_others.mp (mem_routersOn.mp hrouter).1).1
    have hhops := hnear.resolve_left fun ⟨seat, hseat, heq⟩ ↦ hfar seat hseat heq
    obtain ⟨n, hn⟩ := ENat.ne_top_iff_exists.mp
      (ne_top_of_le_ne_top (ENat.natCast_ne_top (min k 14)) (by exact_mod_cast hhops))
    rw [← hn] at hhops
    have hle : n ≤ min k 14 := by exact_mod_cast hhops
    obtain ⟨routers, handled, htravels, harrives, hnodup, -, -⟩ :=
      RipTopology.exists_travels h.wired
        (RipTopology.converged_rounds (h.tablesFit hcount) harrive hrounds) rfl hfits
        (h.contains_subnetOf hother) (h.onLink hother) hn.symm (by omega) (by omega) hconveys
    exact ⟨(h.owns_iff hgwMem).mpr hgateway, routers, handled, htravels, harrives, hnodup⟩

/-- From one host to the other. -/
theorem host_reaches_exampleNet : ∃ (tables : exampleNet.Router → RoutingTable)
    (r : exampleNet.Router) (source : Seat) (emission : Emission),
    (∀ r, (exampleNet.ripTopology good_exampleNet).rounds (fun _ ↦ 0) exampleNet.inOrder
      (fun _ _ _ ↦ ⟨fun _ ↦ 0, fun _ ↦ 5⟩) 1 r = .ok (tables r)) ∧
    ((exampleNet.config ⟨['a'], .host, [], 0⟩).hostNode 0).Sends { addr := 0x0a020002 } [7] .TEST
      emission ∧
    (RipTopology.Arrives { addr := source.addr } { addr := 0x0a020002 } [7] .TEST
        (.forwarded emission) ∨
      (exampleNet.ripTopology good_exampleNet).Owns r emission.nextHopAddr ∧
        ∃ routers handled,
          RipTopology.Travels (exampleNet.ripTopology good_exampleNet).toTopology
              ((exampleNet.ripTopology good_exampleNet).node (fun _ ↦ 0) tables) r emission.bytes
              routers handled ∧
            RipTopology.Arrives { addr := source.addr } { addr := 0x0a020002 } [7] .TEST handled ∧
            routers.Nodup) := by
  have h := good_exampleNet
  let r : exampleNet.Router := ⟨⟨['r'], .router, [], 0⟩, by decide⟩
  let s : exampleNet.Router := ⟨⟨['s'], .router, [], 0⟩, by decide⟩
  choose tables hrounds hsound using
    @RipTopology.rounds_ok _ _ (fun _ ↦ 0) _ (fun _ _ _ ↦ ⟨fun _ ↦ 0, fun _ ↦ 5⟩)
      (h.tablesFit (by decide)) (arrive_inOrder h) 1
  have hr : ⟨['r'], 1, 0x0a010001, 5002⟩ ∈ ownSeats exampleNet.seats ['r'] := by decide
  have hs : ⟨['s'], 1, 0x0a010002, 5003⟩ ∈ ownSeats exampleNet.seats ['s'] := by decide
  have hfar : ⟨['s'], 2, 0x0a020001, 5004⟩ ∈ ownSeats exampleNet.seats ['s'] := by decide
  have hb : ⟨['b'], 2, 0x0a020002, 5005⟩ ∈ exampleNet.seats := by decide
  have hgw : (exampleNet.routerSeats ['a']).head? = some ⟨['r'], 0, 0x0a000002, 5001⟩ := by decide
  have hadj : (exampleNet.ripTopology h).graph.Adj r s := h.adj hs hr rfl (by decide)
  have hzero : (exampleNet.ripTopology h).hops (subnetOf 2) s = 0 :=
    h.hops_eq_zero hfar rfl
  have hhops : (exampleNet.ripTopology h).hops (subnetOf 2) r ≤ min (1 : ℕ) 14 := by
    have hle := Topology.hops_le_succ (s := subnetOf 2) hadj
    rw [hzero, zero_add] at hle
    exact hle.trans (by decide)
  have hhost : (⟨['a'], .host, [], 0⟩ : Node).nodeType = .host := rfl
  have hfits : [(7 : Byte)].length ≤ Wire.MAX_DATAGRAM_SIZE - 20 := by decide
  obtain ⟨source, -, emission, hsends, harrives⟩ :=
    host_reaches h (by decide) (arrive_inOrder h) hrounds hhost hgw rfl hb
      (by decide) (.inr hhops) hfits .TEST
  exact ⟨tables, r, source, emission, hrounds, hsends, harrives⟩

end NetConfig

end Tns.Vnet
