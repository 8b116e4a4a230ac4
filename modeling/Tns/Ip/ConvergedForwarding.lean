import Tns.Ip.Convergence

/-!
# Forwarding along converged tables

Once the rounds have made the routes to a subnet exact, the gateway of each route
is a neighbour that is one hop closer.  So a datagram for an address on the
subnet visits routers at ever smaller hop distances until the subnet is local,
and there its destination is on the link.
-/

namespace Tns.Ip

open Tns.Library Wire RoutingTable

/-- The address lies in the subnet. -/
def Contains (s : SubnetKey) (a : Ipv4Address) : Prop := a.addr &&& s.2 = s.1

instance (s : SubnetKey) (a : Ipv4Address) : Decidable (Contains s a) :=
  inferInstanceAs (Decidable (_ = _))

theorem isMatch_iff {e : RoutingTable.Entry} {a : Ipv4Address} :
    e.isMatch a ↔ Contains e.subnet a := Iff.rfl

theorem RouterNode.forwardDatagram_of_nextHop {r : RouterNode} {d : Wire.Datagram}
    {hop : QueryResult} {outInterface : NetworkInterface}
    (hnext : r.toNetworkNode.nextHop d.getDstAddr = .ok (.ok (hop, outInterface)))
    (hup : outInterface.isUp) (hneighbor : hop.nextHopAddr ∈ outInterface.neighborInterfaces) :
    r.forwardDatagram d = .ok (.forwarded ⟨hop.interface, hop.nextHopAddr, d.bytes⟩) := by
  rw [RouterNode.forwardDatagram, hnext, Except.ok_bind]
  simp only [Wire.Datagram.send, if_pos (And.intro hup hneighbor)]
  rfl

namespace Topology

variable {R : Type} {T : Topology R} {r q : R} {s : SubnetKey} {a : Ipv4Address}
  {entries entries' : RoutingTable}

/-- A router with an interface on the subnet of the address lists it as a neighbour there, unless
the address is its own. -/
def OnLink (T : Topology R) (a : Ipv4Address) : Prop :=
  ∀ r, ¬T.Owns r a → ∀ d ∈ T.interfaces r, Contains d.subnet a → a ∈ d.neighborIpAddrs

/-- No address lies in two subnets. -/
def Disjoint (T : Topology R) : Prop :=
  ∀ s s', T.Known s → T.Known s' → ∀ a, Contains s a → Contains s' a → s = s'

/-- The lookup of an address finds a route to its subnet. -/
theorem Sound.query (h : T.Sound r entries) (hdisjoint : T.Disjoint)
    (hin : ∃ e ∈ entries, e.subnet = s) (ha : Contains s a) :
    ∃ e ∈ entries, entries.query a = some e ∧ e.subnet = s := by
  obtain ⟨e₀, he₀, rfl⟩ := hin
  cases hquery : entries.queryLongestPrefixMatch a with
  | none => exact absurd (isMatch_iff.mpr ha) (queryLongestPrefixMatch_eq_none.mp hquery e₀ he₀)
  | some e =>
      obtain ⟨he, hmatch, -⟩ := mem_of_queryLongestPrefixMatch hquery
      refine ⟨e, he, hquery, ?_⟩
      exact hdisjoint _ _ (h.honest e he).1 (h.honest e₀ he₀).1 a (isMatch_iff.mp hmatch) ha

theorem Sound.interface (h : T.Sound r entries) {e : Entry} (he : e ∈ entries)
    (hlocal : e.isLocal) : ∃ d i, (T.interfaces r)[i]? = some d ∧ d.subnet = e.subnet ∧
      e.interface = .ok i ∧ e.gateway = none := by
  obtain ⟨now, hlocals⟩ := h.locals
  have hmem : e ∈ entries.locals := mem_locals.mpr ⟨he, hlocal⟩
  rw [hlocals] at hmem
  obtain ⟨d, i, hd, rfl⟩ := RouterNode.mem_routingTable_ofLnx.mp hmem
  exact ⟨d, i, hd, rfl, rfl, rfl⟩

/-- An address on a local subnet resolves to an interface on it. -/
theorem Sound.query_hasLocal (h : T.Sound r entries) (hdisjoint : T.Disjoint)
    (hlocal : T.HasLocal s r) (ha : Contains s a) :
    ∃ d i e, entries.query a = some e ∧ (T.interfaces r)[i]? = some d ∧ d.subnet = s ∧
      e.interface = .ok i ∧ e.gateway = none := by
  obtain ⟨e₀, he₀, hsubnet₀, -⟩ := h.hasRoute_of_hasLocal hlocal
  obtain ⟨e, he, hquery, rfl⟩ := h.query hdisjoint ⟨e₀, he₀, hsubnet₀⟩ ha
  have hzero := hops_eq_zero_iff.mpr hlocal
  obtain ⟨d, i, hd, hsubnet, hinterface, hgateway⟩ := h.interface he ((h.isLocal_iff he).mpr hzero)
  exact ⟨d, i, e, hquery, hd, hsubnet, hinterface, hgateway⟩

end Topology

namespace RipTopology

variable {R : Type} {T : RipTopology R} {r q : R} {s : SubnetKey} {a dst : Ipv4Address}
  {entries entries' : RoutingTable} {k d : ℕ}

/-- Neighbours share a subnet, on which they know each other. -/
structure Wired (T : RipTopology R) : Prop where
  disjoint : T.Disjoint
  shared : ∀ {r q a}, a ∈ T.ripNeighbors q → T.Owns r a →
    ∃ d ∈ T.interfaces r, Contains d.subnet (T.source q a)
  onLink : ∀ {r q a}, a ∈ T.ripNeighbors q → T.Owns r a → T.OnLink (T.source q a)

/-- The gateways of the learned routes are neighbours. -/
def GatewaysListed (T : RipTopology R) (r : R) (entries : RoutingTable) : Prop :=
  ∀ e ∈ entries, ¬e.isLocal → ∃ q a, a ∈ T.ripNeighbors q ∧ T.Owns r a ∧
    e.gateway = some (T.source q a)

theorem GatewaysListed.exchange {snapshot : RoutingTable} {reception : Reception}
    (h : T.GatewaysListed r entries) (ha : a ∈ T.ripNeighbors q) (howns : T.Owns r a)
    (hexchange : T.exchange snapshot q a reception entries = .ok entries') :
    T.GatewaysListed r entries' := by
  rw [RipTopology.exchange, Except.bind_eq_ok] at hexchange
  obtain ⟨ripResponse, -, hexchange⟩ := hexchange
  split at hexchange
  · cases hexchange
    exact h
  · rename_i datagram hmake
    obtain ⟨-, rfl⟩ := RouterNode.makeDatagram_eq_some.mp hmake
    obtain rfl | ⟨ripEntries, rfl⟩ :=
      handleArrival_cases (T.listed ha howns).2.port hexchange
    · exact h
    · refine handleRipEntries_induction (I := T.GatewaysListed r) ?_ h
      intro ripEntry _ now entries collect entries' hlearns h e he hlocal
      rcases hlearns.mem_cases he with he | ⟨hlearned, -⟩
      · exact h e he hlocal
      · exact ⟨q, a, ha, howns, hlearned.gateway⟩

variable {start : R → TimePoint} {order : ℕ → R → List (R × Ipv4Address)}
  {reception : ℕ → R → R × Ipv4Address → Reception}

theorem gatewaysListed_rounds (harrive : T.Arrive order)
    (hround : T.rounds start order reception k r = .ok entries) : T.GatewaysListed r entries := by
  induction k generalizing r entries with
  | zero =>
      obtain rfl := Except.ok.inj hround
      intro e he hlocal
      obtain ⟨_, _, -, rfl⟩ := RouterNode.mem_routingTable_ofLnx.mp he
      exact absurd rfl hlocal
  | succ k ih =>
      simp only [rounds, Except.bind_eq_ok] at hround
      obtain ⟨entries₀, hround₀, hfold⟩ := hround
      refine Except.foldlM_invariant (I := T.GatewaysListed r) ?_ hfold (ih hround₀)
      rintro ⟨q, a⟩ hmem entries₁ entries₂ h hstep
      obtain ⟨ha, howns⟩ := (harrive k r q a).mp hmem
      rw [Except.bind_eq_ok] at hstep
      obtain ⟨snapshot, -, hexchange⟩ := hstep
      exact h.exchange ha howns hexchange

/-! ## One router -/

/-- The router with the table. -/
def node (T : RipTopology R) (start : R → TimePoint) (tables : R → RoutingTable) (r : R) :
    RouterNode :=
  { RouterNode.ofLnx (T.interfaces r) (T.ripNeighbors r) (start r) with routingTable := tables r }

variable {tables : R → RoutingTable} {datagram : Wire.Datagram}

variable (start tables) in
theorem getElem?_interfaces_node {i : ℕ} {x : InterfaceData} (h : (T.interfaces r)[i]? = some x) :
    (T.node start tables r).interfaces[i]? = some {
      name := x.name, ipAddress := x.cidr.address, neighborInterfaces := x.neighborIpAddrs } := by
  simp only [node, RouterNode.ofLnx, List.getElem?_map, h]
  rfl

theorem isMyIpAddress_node : (T.node start tables r).isMyIpAddress a ↔ T.Owns r a := by
  simp only [node, RouterNode.ofLnx, RouterNode.isMyIpAddress, List.any_map, List.any_eq_true,
    Function.comp_apply, decide_eq_true_eq, Topology.Owns]

theorem datagramHandler_of_owns (howns : T.Owns r datagram.getDstAddr) :
    (T.node start tables r).datagramHandler datagram = .ok (.delivered datagram) := by
  rw [RouterNode.datagramHandler, if_pos (isMyIpAddress_node.mpr howns)]

/-- A router forwards to a next hop that it knows on the link. -/
theorem datagramHandler_of_nextHop {i : ℕ} {x : InterfaceData} {g : Ipv4Address}
    (howns : ¬T.Owns r datagram.getDstAddr) (hx : (T.interfaces r)[i]? = some x)
    (hquery : (tables r).queryRoutingTable datagram.getDstAddr = .ok (.ok ⟨i, g⟩))
    (hg : g ∈ x.neighborIpAddrs) : (T.node start tables r).datagramHandler datagram =
      .ok (.forwarded ⟨i, g, datagram.updateChecksum.bytes⟩) := by
  have hmine : ¬(T.node start tables r).isMyIpAddress datagram.getDstAddr :=
    isMyIpAddress_node.not.mpr howns
  have hiface := getElem?_interfaces_node start tables hx
  rw [RouterNode.datagramHandler, if_neg hmine]
  have hnext : (T.node start tables r).toNetworkNode.nextHop datagram.updateChecksum.getDstAddr =
      .ok (.ok (⟨i, g⟩, _)) := NetworkNode.nextHop_eq_ok.mpr ⟨hquery, hiface⟩
  exact RouterNode.forwardDatagram_of_nextHop hnext rfl hg

theorem queryRoutingTable_onLink {e : RoutingTable.Entry} {i : ℕ}
    (hquery : entries.query dst = some e) (hgateway : e.gateway = none)
    (hinterface : e.interface = .ok i) : entries.queryRoutingTable dst = .ok (.ok ⟨i, dst⟩) := by
  simp only [queryRoutingTable, hquery, hgateway, hinterface]
  rfl

theorem queryRoutingTable_viaGateway {e e' : RoutingTable.Entry} {i : ℕ} {g : Ipv4Address}
    (hquery : entries.query dst = some e) (hgateway : e.gateway = some g)
    (hquery' : entries.query g = some e') (hinterface : e'.interface = .ok i) :
    entries.queryRoutingTable dst = .ok (.ok ⟨i, g⟩) := by
  simp only [queryRoutingTable, hquery, hgateway, hquery', hinterface]
  rfl

variable (start) in
/-- A router on the subnet of the destination hands the datagram to it. -/
theorem forwards_onLink (hwired : T.Wired) (hsound : T.Sound r (tables r))
    (hlocal : T.HasLocal s r) (hcontains : Contains s datagram.getDstAddr)
    (honLink : T.OnLink datagram.getDstAddr) (howns : ¬T.Owns r datagram.getDstAddr) :
    ∃ i, (T.node start tables r).datagramHandler datagram =
      .ok (.forwarded ⟨i, datagram.getDstAddr, datagram.updateChecksum.bytes⟩) := by
  obtain ⟨x, i, e, hquery, hx, rfl, hinterface, hgateway⟩ :=
    hsound.query_hasLocal hwired.disjoint hlocal hcontains
  refine ⟨i, datagramHandler_of_nextHop howns hx ?_ ?_⟩
  · exact queryRoutingTable_onLink hquery hgateway hinterface
  · exact honLink r howns x (List.mem_of_getElem? hx) hcontains

variable (start) in
/-- Any other router hands it to a neighbour that is one hop closer. -/
theorem forwards_closer (hwired : T.Wired) (hsound : T.Sound r (tables r))
    (hgateways : T.GatewaysListed r (tables r)) (hexact : T.Exact k r (tables r))
    (hhops : T.hops s r = (d + 1 : ℕ)) (hd : d + 1 ≤ min k 15)
    (hcontains : Contains s datagram.getDstAddr) (howns : ¬T.Owns r datagram.getDstAddr) :
    ∃ q i g, T.Owns q g ∧ T.hops s q = d ∧ (T.node start tables r).datagramHandler datagram =
      .ok (.forwarded ⟨i, g, datagram.updateChecksum.bytes⟩) := by
  obtain ⟨gateway, hroute⟩ := hexact s (d + 1) hhops (by omega) (by omega)
  obtain ⟨⟨e₀, he₀, hsubnet₀⟩, hall⟩ := hsound.routesTo hroute
  obtain ⟨e, he, hquery, rfl⟩ := hsound.query hwired.disjoint ⟨e₀, he₀, hsubnet₀⟩ hcontains
  obtain ⟨hmetric, -⟩ := hall e he rfl
  have hlocal : ¬e.isLocal := by
    rw [hsound.isLocal_iff he, hhops]
    exact_mod_cast Nat.succ_ne_zero d
  obtain ⟨q, a, ha, hrowns, hgateway⟩ := hgateways e he hlocal
  obtain ⟨-, hqowns⟩ := T.listed ha hrowns
  have hadj : T.graph.Adj r q := Topology.adj_of_owns hrowns ha
  have hcloser : T.hops e.subnet q = d := by
    have hle := (hsound.learned e (mem_learned.mpr ⟨he, hlocal⟩)).closer q _ hgateway hqowns
      (d + 1) hmetric (by omega)
    have hge := Topology.hops_le_succ (s := e.subnet) hadj
    rw [hhops] at hge
    have heq : T.hops e.subnet q + 1 = (d + 1 : ℕ) := le_antisymm hle hge
    obtain ⟨n, hn, hdn⟩ := Topology.exists_of_add_one_eq heq
    rw [hn, Nat.add_right_cancel hdn]
  obtain ⟨x₀, hx₀, hshared⟩ := hwired.shared ha hrowns
  obtain ⟨x, i, e', hquery', hx, hsubnet, hinterface, -⟩ :=
    hsound.query_hasLocal hwired.disjoint ⟨x₀, hx₀, rfl⟩ hshared
  refine ⟨q, i, T.source q a, hqowns, hcloser, datagramHandler_of_nextHop howns hx ?_ ?_⟩
  · exact queryRoutingTable_viaGateway hquery hgateway hquery' hinterface
  · apply hwired.onLink ha hrowns r ?_ x (List.mem_of_getElem? hx)
    · rwa [hsubnet]
    · intro hown
      obtain rfl := hown.unique hqowns
      exact hadj.ne rfl

/-! ## All routers -/

/-- The course of a byte string through the routers.  Each of them accepts it and handles it, and
what one forwards to an address of a router arrives there. -/
inductive Travels (T : Topology R) (node : R → RouterNode) :
    R → List Byte → List R → Handled → Prop
  | last {r : R} {onLink : List Byte} {d : Wire.Datagram} {handled : Handled}
      (haccepts : Accepts onLink d) (hhandle : (node r).datagramHandler d = .ok handled)
      (hend : ∀ emission, handled = .forwarded emission → ∀ q, ¬T.Owns q emission.nextHopAddr) :
      Travels T node r onLink [r] handled
  | hop {r q : R} {onLink : List Byte} {d : Wire.Datagram} {emission : Emission}
      {routers : List R} {handled : Handled} (haccepts : Accepts onLink d)
      (hhandle : (node r).datagramHandler d = .ok (.forwarded emission))
      (howns : T.Owns q emission.nextHopAddr)
      (tail : Travels T node q emission.bytes routers handled) :
      Travels T node r onLink (r :: routers) handled

/-- A router gets the datagram intact, or the node at its destination does. -/
def Arrives (srcAddr dstAddr : Ipv4Address) (payload : List Byte) (protocol : Protocol)
    (handled : Handled) : Prop :=
  (∃ d, handled = .delivered d ∧ Intact srcAddr dstAddr payload protocol d) ∨
    ∃ emission d, handled = .forwarded emission ∧ emission.nextHopAddr = dstAddr ∧
      Accepts emission.bytes d ∧ Intact srcAddr dstAddr payload protocol d

/-- What the course of a datagram needs of the tables. -/
structure Converged (T : RipTopology R) (k : ℕ) (tables : R → RoutingTable) : Prop where
  sound : ∀ r, T.Sound r (tables r)
  gateways : ∀ r, T.GatewaysListed r (tables r)
  exact : ∀ r, T.Exact k r (tables r)

theorem converged_rounds (hfit : T.TablesFit) (harrive : T.Arrive order)
    (hrounds : ∀ r, T.rounds start order reception k r = .ok (tables r)) :
    T.Converged k tables := by
  have hall : ∀ r, T.Sound r (tables r) ∧ T.Exact k r (tables r) := by
    intro r
    obtain ⟨entries, hround, hsound, hexact⟩ : ∃ entries,
        T.rounds start order reception k r = .ok entries ∧ T.Sound r entries ∧
          T.Exact k r entries := rounds_ok hfit harrive k r
    obtain rfl := Except.ok.inj (hround.symm.trans (hrounds r))
    exact ⟨hsound, hexact⟩
  exact ⟨fun r ↦ (hall r).1, fun r ↦ gatewaysListed_rounds harrive (hrounds r), fun r ↦ (hall r).2⟩

/-- The router that has the address is on its subnet. -/
theorem hops_eq_zero_of_owns (hwired : T.Wired) (hknown : T.Known s) (hcontains : Contains s dst)
    (howns : T.Owns q dst) : T.hops s q = 0 := by
  obtain ⟨x, hx, rfl⟩ := howns
  have hlocal : T.HasLocal x.subnet q := ⟨x, hx, rfl⟩
  obtain rfl := hwired.disjoint s x.subnet hknown ⟨q, hlocal⟩ _ hcontains rfl
  exact Topology.hops_eq_zero_iff.mpr hlocal

variable {srcAddr : Ipv4Address} {payload : List Byte} {protocol : Protocol} {ttl : ℕ}

theorem exists_travels (hwired : T.Wired) (hconverged : T.Converged k tables)
    (hport : dst.port = 0) (hfits : payload.length ≤ MAX_DATAGRAM_SIZE - 20)
    (hcontains : Contains s dst) (honLink : T.OnLink dst) (hhops : T.hops s r = d)
    (hd : d ≤ min k 15) (httl : d + 2 ≤ ttl)
    (h : Conveys srcAddr dst payload protocol ttl datagram) :
    ∃ routers handled,
      Travels T.toTopology (T.node start tables) r datagram.bytes routers handled ∧
        Arrives srcAddr dst payload protocol handled ∧ routers.Nodup ∧
        routers.length ≤ d + 2 ∧ ∀ q ∈ routers, T.hops s q ≤ d := by
  have hknown := Topology.known_of_hops hhops
  induction d generalizing r datagram ttl with
  | zero =>
      have hlocal : T.HasLocal s r := Topology.hops_eq_zero_iff.mp hhops
      obtain ⟨ttl, rfl⟩ : ∃ t, ttl = t + 2 := ⟨ttl - 2, by omega⟩
      obtain ⟨d₁, haccepts, h₁⟩ := h.next hfits
      obtain rfl : d₁.getDstAddr = dst := h₁.intact.getDstAddr hport
      by_cases howns : T.Owns r d₁.getDstAddr
      · have hhandle : (T.node start tables r).datagramHandler d₁ = .ok (.delivered d₁) :=
          datagramHandler_of_owns howns
        refine ⟨[r], .delivered d₁, .last haccepts hhandle nofun, .inl ⟨d₁, rfl, h₁.intact⟩,
          List.nodup_singleton r, Nat.le_add_left 1 1, ?_⟩
        intro q hq
        rw [List.mem_singleton.mp hq, hhops]
      · obtain ⟨i, hhandle⟩ := forwards_onLink start hwired (hconverged.sound r) hlocal
          hcontains honLink howns
        obtain ⟨d₂, haccepts₂, h₂⟩ := h₁.next hfits
        by_cases hrouter : ∃ q, T.Owns q d₁.getDstAddr
        · obtain ⟨q, hq⟩ := hrouter
          have hdst : d₂.getDstAddr = d₁.getDstAddr := h₂.intact.getDstAddr hport
          have hhandle₂ : (T.node start tables q).datagramHandler d₂ = .ok (.delivered d₂) :=
            datagramHandler_of_owns (hdst ▸ hq)
          refine ⟨[r, q], .delivered d₂, .hop haccepts hhandle hq (.last haccepts₂ hhandle₂ nofun),
            .inl ⟨d₂, rfl, h₂.intact⟩, ?_, le_rfl, ?_⟩
          · rw [List.nodup_cons, List.mem_singleton]
            refine ⟨?_, List.nodup_singleton q⟩
            rintro rfl
            exact howns hq
          · intro q' hq'
            rcases List.mem_cons.mp hq' with rfl | hq'
            · rw [hhops]
            · rw [List.mem_singleton.mp hq', hops_eq_zero_of_owns hwired hknown hcontains hq]
              exact zero_le
        · refine ⟨[r], _, .last haccepts hhandle ?_, .inr ⟨_, d₂, rfl, rfl, haccepts₂, h₂.intact⟩,
            List.nodup_singleton r, Nat.le_add_left 1 1, ?_⟩
          · rintro emission heq q hq
            obtain rfl := Handled.forwarded.inj (heq.symm)
            exact hrouter ⟨q, hq⟩
          · intro q hq
            rw [List.mem_singleton.mp hq, hhops]
  | succ d ih =>
      obtain ⟨ttl, rfl⟩ : ∃ t, ttl = t + 1 := ⟨ttl - 1, by omega⟩
      obtain ⟨d₁, haccepts, h₁⟩ := h.next hfits
      have hdst : d₁.getDstAddr = dst := h₁.intact.getDstAddr hport
      have howns : ¬T.Owns r d₁.getDstAddr := by
        intro hown
        rw [hdst] at hown
        have hzero := hops_eq_zero_of_owns hwired hknown hcontains hown
        rw [hhops] at hzero
        exact absurd hzero (by exact_mod_cast Nat.succ_ne_zero d)
      obtain ⟨q, i, g, hqowns, hcloser, hhandle⟩ := forwards_closer start hwired
        (hconverged.sound r) (hconverged.gateways r) (hconverged.exact r) hhops hd
        (hdst ▸ hcontains) howns
      obtain ⟨routers, handled, htravels, harrives, hnodup, hlength, hall⟩ :=
        ih hcloser (by omega) (by omega) h₁
      refine ⟨r :: routers, handled, .hop haccepts hhandle hqowns htravels, harrives, ?_, ?_, ?_⟩
      · rw [List.nodup_cons]
        refine ⟨?_, hnodup⟩
        intro hmem
        have hle := hall r hmem
        rw [hhops, Nat.cast_le] at hle
        omega
      · rw [List.length_cons]
        omega
      · intro q' hq'
        rcases List.mem_cons.mp hq' with rfl | hq'
        · rw [hhops]
        · exact (hall q' hq').trans (by exact_mod_cast Nat.le_succ d)

/-- After `k` rounds, a datagram for an address on a subnet at hop distance `d`, up to `k` and 14,
arrives: it visits no router twice and at most `d + 2` of them, and no table or TTL stops it. -/
theorem delivers (hwired : T.Wired) (hfit : T.TablesFit) (harrive : T.Arrive order)
    (hrounds : ∀ r, T.rounds start order reception k r = .ok (tables r)) (hport : dst.port = 0)
    (hfits : payload.length ≤ MAX_DATAGRAM_SIZE - 20)
    (hmake : Wire.Datagram.make srcAddr dst payload protocol = .ok datagram)
    (hcontains : Contains s dst) (honLink : T.OnLink dst) (hhops : T.hops s r = d)
    (hd : d ≤ min k 14) :
    ∃ routers handled,
      Travels T.toTopology (T.node start tables) r datagram.bytes routers handled ∧
        Arrives srcAddr dst payload protocol handled ∧ routers.Nodup ∧ routers.length ≤ d + 2 := by
  obtain ⟨routers, handled, htravels, harrives, hnodup, hlength, -⟩ :=
    exists_travels hwired (converged_rounds hfit harrive hrounds) hport hfits hcontains honLink
      hhops (by omega) (by omega) (conveys_of_make hfits hmake)
  exact ⟨routers, handled, htravels, harrives, hnodup, hlength⟩

theorem mask_linkTopology {n : ℕ} (h : (linkTopology n).Known s) : s.2 = 0xffffff00 := by
  obtain ⟨r, x, hx, rfl⟩ := h
  change x.cidr.mask = _
  rw [Subnet.mask, Topology.maskLength_linkInterfaces hx]
  rfl

theorem wired_linkTopology : (linkTopology 1).Wired := by
  have hinterfaces : ∀ r, ∀ x ∈ (linkTopology 1).interfaces r,
      Contains x.subnet (Topology.linkAddress !r) →
        Topology.linkAddress (!r) ∈ x.neighborIpAddrs := by
    intro r x hx hcontains
    cases r with
    | true =>
        obtain rfl := List.mem_singleton.mp hx
        exact List.mem_singleton_self _
    | false =>
        obtain ⟨i, hi, rfl⟩ := List.mem_map.mp hx
        obtain rfl | rfl : i = 0 ∨ i = 1 := by
          have hlt : i < 2 := List.mem_range.mp hi
          omega
        · exact List.mem_singleton_self _
        · exact absurd hcontains (by decide)
  constructor
  · intro s s' hs hs' a ha ha'
    have hmask : s.2 = s'.2 := (mask_linkTopology hs).trans (mask_linkTopology hs').symm
    refine Prod.ext ?_ hmask
    rw [← ha, ← ha', hmask]
  · intro r q a ha howns
    obtain rfl := Topology.mem_ripNeighbors_twoRouters.mp ha
    obtain rfl := Topology.owns_twoRouters.mp howns
    cases q with
    | false => exact ⟨_, List.mem_singleton_self _, by decide⟩
    | true => exact ⟨_, List.mem_map_of_mem (List.mem_range.mpr Nat.two_pos), by decide⟩
  · intro r q a _ _ r' hr' x hx hcontains
    have hne : r' = !q := by
      have hne : r' ≠ q := fun heq ↦ hr' (Topology.owns_twoRouters.mpr heq)
      cases r' <;> cases q <;> simp_all
    subst hne
    have hneighbor := hinterfaces (!q) x hx
    rw [Bool.not_not] at hneighbor
    exact hneighbor hcontains

/-- From the second router to an address of the first that is not on the link. -/
theorem delivers_link : ∃ (tables : Bool → RoutingTable) (datagram : Wire.Datagram)
    (routers : List Bool) (handled : Handled),
    (∀ r, (linkTopology 1).rounds (fun _ ↦ 0) linkOrder linkReception 1 r =
      .ok (tables r)) ∧
      Travels (linkTopology 1).toTopology ((linkTopology 1).node (fun _ ↦ 0) tables) true
        datagram.bytes routers handled ∧
      Arrives { addr := 0x0a000002 } { addr := 0x0a000101 } [7] .TEST handled ∧
      routers.Nodup ∧ routers.length ≤ 1 + 2 := by
  have hfit : (linkTopology 1).TablesFit := tablesFit_linkTopology (by decide)
  choose tables hrounds hsound using
    @rounds_ok _ _ (fun _ ↦ 0) _ linkReception hfit (arrive_linkOrder 1) 1
  have honLink : (linkTopology 1).OnLink { addr := 0x0a000101 } := by
    intro r hr x hx hcontains
    cases r with
    | false =>
        have hmem : Topology.ownInterface 1 ∈ (linkTopology 1).interfaces false :=
          List.mem_map_of_mem (List.mem_range.mpr one_lt_two)
        exact absurd ⟨_, hmem, by decide⟩ hr
    | true =>
        obtain rfl := List.mem_singleton.mp hx
        exact absurd hcontains (by decide)
  have hmake : Wire.Datagram.make { addr := 0x0a000002 } { addr := 0x0a000101 } [7] .TEST =
      .ok _ := rfl
  have hhops := hops_linkTopology (n := 1) (i := 1) le_rfl (by decide)
  obtain ⟨routers, handled, htravels, harrives, hnodup, hlength⟩ :=
    delivers wired_linkTopology hfit (arrive_linkOrder 1) hrounds rfl (by decide) hmake
      (s := (0x0a000100, 0xffffff00)) (by decide) honLink hhops (by decide)
  exact ⟨tables, _, routers, handled, hrounds, htravels, harrives, hnodup, hlength⟩

end RipTopology

end Tns.Ip
