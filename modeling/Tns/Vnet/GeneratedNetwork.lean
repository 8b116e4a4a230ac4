import Tns.Ip.ConvergedForwarding
import Tns.Vnet.GeneratedNode

/-!
# The routers of a generated network

The routers that the files set up form a topology for RIP in which neighbours
share a link.  So their tables converge, and a datagram reaches every address
that the generator has assigned.
-/

namespace Tns.Vnet

open Library Lnx Ip

/-- The mask of a prefix. -/
def MASK : UInt32 := 0xffffff00

theorem toNat_and_mask (x : UInt32) : (x &&& MASK).toNat = x.toNat / 2 ^ 8 * 2 ^ 8 := by
  have hlt := x.toNat_lt
  have hmask : MASK.toNat = (2 ^ 24 - 1) <<< 8 := by decide
  have hhigh : x.toNat / 2 ^ 8 < 2 ^ 24 := by omega
  rw [UInt32.toNat_and, hmask]
  apply Nat.eq_of_testBit_eq
  intro i
  rw [Nat.testBit_and, Nat.testBit_shiftLeft, Nat.testBit_two_pow_sub_one,
    ← Nat.shiftLeft_eq, ← Nat.shiftRight_eq_div_pow, Nat.testBit_shiftLeft,
    Nat.testBit_shiftRight]
  by_cases hi : 8 ≤ i
  · rw [Nat.add_sub_cancel' hi, decide_eq_true hi, Bool.true_and, Bool.true_and]
    by_cases hsmall : i - 8 < 24
    · rw [decide_eq_true hsmall, Bool.and_true]
    · rw [decide_eq_false hsmall, Bool.and_false]
      have hpow : x.toNat < 2 ^ i := hlt.trans_le (Nat.pow_le_pow_right (by decide) (by omega))
      exact (Nat.testBit_lt_two_pow hpow).symm
  · rw [decide_eq_false hi, Bool.false_and, Bool.and_false, Bool.false_and]

theorem and_mask_eq_iff {x y : UInt32} : x &&& MASK = y &&& MASK ↔
    x.toNat / 2 ^ 8 = y.toNat / 2 ^ 8 := by
  rw [← UInt32.toNat_inj, toNat_and_mask, toNat_and_mask]
  omega

namespace NetConfig

variable {c : NetConfig} {seat other : Seat} {node : Node} {d : InterfaceData}

theorem Sits.subnet (h : c.Sits seat d) : d.subnet = (seat.addr &&& MASK, MASK) := by
  have hmask : ∀ a : Ipv4Address, ({ address := a, maskLength := 24 } : Subnet).mask = MASK := by
    intro a
    simp only [Subnet.mask]
    decide
  rw [InterfaceData.subnet, h.cidr, hmask]

/-- The addresses on the subnet of a seat are those of its network. -/
theorem Sits.contains_iff (hgood : c.Good) (h : c.Sits seat d) (hseat : seat ∈ c.seats)
    (hother : other ∈ c.seats) :
    Contains d.subnet { addr := other.addr } ↔ other.network = seat.network := by
  rw [Contains, h.subnet, and_mask_eq_iff, hgood.network_eq_iff hother hseat]

/-- The routers of the network. -/
abbrev Router (c : NetConfig) := { node : Node // node ∈ c.nodes ∧ node.nodeType = .router }

def ripNeighbors (c : NetConfig) (node : Node) : List Ipv4Address :=
  (c.config node).ripNeighbors.map fun addr ↦ { addr }

theorem mem_ripNeighbors (hrouter : node.nodeType = .router) {a : Ipv4Address} :
    a ∈ c.ripNeighbors node ↔
      ∃ seat ∈ ownSeats c.seats node.name,
        ∃ other ∈ c.routersOn seat, a = { addr := other.addr } := by
  rw [ripNeighbors, config, if_pos hrouter, List.map_map, List.mem_map, routerSeats]
  constructor
  · rintro ⟨other, hmem, rfl⟩
    obtain ⟨seat, hseat, hother⟩ := List.mem_flatMap.mp hmem
    exact ⟨seat, hseat, other, hother, rfl⟩
  · rintro ⟨seat, hseat, other, hother, rfl⟩
    exact ⟨other, List.mem_flatMap.mpr ⟨seat, hseat, hother⟩, rfl⟩

theorem mem_routersOn : other ∈ c.routersOn seat ↔
    other ∈ c.others seat ∧ (c.nodeNamed other.node).isRouter = true := by
  rw [routersOn, List.mem_filter]

/-- The address from which a node sends to one on its links. -/
def sourceOf (c : NetConfig) (node : Node) (a : Ipv4Address) : Ipv4Address :=
  ((c.interfaces node).find? fun d ↦ Contains d.subnet a).elim a fun d ↦ d.cidr.address

theorem sourceOf_eq (hgood : c.Good) (hseat : seat ∈ ownSeats c.seats node.name)
    (hother : other ∈ c.seats) (hnetwork : other.network = seat.network) :
    c.sourceOf node { addr := other.addr } = { addr := seat.addr } := by
  obtain ⟨hmem, hnode⟩ := mem_ownSeats.mp hseat
  rw [sourceOf]
  cases hfind : (c.interfaces node).find? fun d ↦ Contains d.subnet { addr := other.addr } with
  | none =>
      obtain ⟨d, hd, hsits⟩ := exists_interface hseat
      have hnot := List.find?_eq_none.mp hfind d hd
      exact absurd (decide_eq_true ((hsits.contains_iff hgood hmem hother).mpr hnetwork)) hnot
  | some d =>
      obtain ⟨seat', hseat', hsits⟩ := exists_sits (List.mem_of_find?_eq_some hfind)
      obtain ⟨hmem', hnode'⟩ := mem_ownSeats.mp hseat'
      have hcontains : Contains d.subnet { addr := other.addr } := by
        simpa using List.find?_some hfind
      have hnetwork' := (hsits.contains_iff hgood hmem' hother).mp hcontains
      obtain rfl := hgood.simple.seat_eq hmem' hmem (hnode'.trans hnode.symm)
        (hnetwork'.symm.trans hnetwork)
      change d.cidr.address = _
      rw [hsits.cidr]

/-- A router sends RIP messages to the other routers on its links, from its own address there. -/
theorem Good.shares (h : c.Good) {q r : c.Router} {a : Ipv4Address}
    (ha : a ∈ c.ripNeighbors q.1) (howns : ∃ d ∈ c.interfaces r.1, d.cidr.address = a) :
    ∃ seat ∈ ownSeats c.seats q.1.name, ∃ other ∈ ownSeats c.seats r.1.name,
      seat ∈ c.routersOn other ∧ other ∈ c.routersOn seat ∧
        a = { addr := other.addr } ∧ c.sourceOf q.1 a = { addr := seat.addr } := by
  obtain ⟨seat, hseat, other, hrouter, rfl⟩ := (mem_ripNeighbors q.2.2).mp ha
  obtain ⟨hothers, hisRouter⟩ := mem_routersOn.mp hrouter
  obtain ⟨hmem, hnetwork, hnode⟩ := mem_others.mp hothers
  obtain ⟨d, hd, haddr⟩ := howns
  obtain ⟨other', hown, hsits⟩ := exists_sits hd
  rw [hsits.cidr, Ipv4Address.mk.injEq] at haddr
  obtain rfl := h.seat_eq_of_addr (mem_ownSeats.mp hown).1 hmem haddr.1
  obtain ⟨hseatMem, hseatNode⟩ := mem_ownSeats.mp hseat
  refine ⟨seat, hseat, other', hown, mem_routersOn.mpr ⟨?_, ?_⟩, hrouter, rfl,
    sourceOf_eq h hseat hmem hnetwork⟩
  · exact mem_others.mpr ⟨hseatMem, hnetwork.symm, hnode.symm⟩
  · rw [hseatNode, nodeNamed_of_mem h.toNamed q.2.1]
    exact decide_eq_true q.2.2

/-- The routers that the files set up. -/
def ripTopology (c : NetConfig) (h : c.Good) : RipTopology c.Router where
  interfaces r := c.interfaces r.1
  ripNeighbors r := c.ripNeighbors r.1
  owner := by
    intro r q d hd d' hd' heq
    obtain ⟨seat, hseat, hsits⟩ := exists_sits hd
    obtain ⟨seat', hseat', hsits'⟩ := exists_sits hd'
    rw [hsits.cidr, hsits'.cidr, Ipv4Address.mk.injEq] at heq
    obtain ⟨hmem, hnode⟩ := mem_ownSeats.mp hseat
    obtain ⟨hmem', hnode'⟩ := mem_ownSeats.mp hseat'
    obtain rfl := h.seat_eq_of_addr hmem hmem' heq.1
    exact Subtype.ext
      (List.inj_on_of_nodup_map h.names r.2.1 q.2.1 (hnode.symm.trans hnode'))
  subnets := by
    intro r q d hd d' hd' _
    obtain ⟨seat, -, hsits⟩ := exists_sits hd
    obtain ⟨seat', -, hsits'⟩ := exists_sits hd'
    rw [hsits.subnet, hsits'.subnet]
  others := by
    intro r a ha d hd heq
    obtain ⟨seat, hseat, other, hother, -, hrouter, rfl, -⟩ :=
      h.shares ha (r := r) ⟨d, hd, heq⟩
    have hnode := (mem_others.mp (mem_routersOn.mp hrouter).1).2.2
    exact hnode ((mem_ownSeats.mp hother).2.trans (mem_ownSeats.mp hseat).2.symm)
  port := by
    intro r d hd
    obtain ⟨seat, -, hsits⟩ := exists_sits hd
    rw [hsits.cidr]
  neighborPort := by
    intro r a ha
    obtain ⟨addr, -, rfl⟩ := List.mem_map.mp ha
    rfl
  source q a := c.sourceOf q.1 a
  listed := by
    intro r q a ha howns
    obtain ⟨seat, hseat, other, hother, hrouter, -, rfl, hsource⟩ := h.shares ha howns
    rw [hsource]
    refine ⟨(mem_ripNeighbors r.2.2).mpr ⟨other, hother, seat, hrouter, rfl⟩, ?_⟩
    obtain ⟨d, hd, hsits⟩ := exists_interface hseat
    exact ⟨d, hd, by rw [hsits.cidr]⟩

variable {r : c.Router} {s : SubnetKey}

theorem Good.owns_iff (h : c.Good) (hseat : seat ∈ c.seats) :
    (c.ripTopology h).Owns r { addr := seat.addr } ↔ seat.node = r.1.name := by
  constructor
  · rintro ⟨d, hd, heq⟩
    obtain ⟨seat', hseat', hsits⟩ := exists_sits hd
    rw [hsits.cidr, Ipv4Address.mk.injEq] at heq
    obtain ⟨hmem, hnode⟩ := mem_ownSeats.mp hseat'
    obtain rfl := h.seat_eq_of_addr hmem hseat heq.1
    exact hnode
  · intro hnode
    obtain ⟨d, hd, hsits⟩ := exists_interface (mem_ownSeats.mpr ⟨hseat, hnode⟩)
    exact ⟨d, hd, by rw [hsits.cidr]⟩

/-- Every router on the network of a seat lists its address as a neighbour. -/
theorem Good.onLink (h : c.Good) (hseat : seat ∈ c.seats) :
    (c.ripTopology h).OnLink { addr := seat.addr } := by
  intro r howns d hd hcontains
  obtain ⟨own, hown, hsits⟩ := exists_sits hd
  obtain ⟨hmem, hnode⟩ := mem_ownSeats.mp hown
  rw [hsits.neighbors]
  refine ⟨seat, mem_others.mpr ⟨hseat, ?_, ?_⟩, rfl⟩
  · exact (hsits.contains_iff h hmem hseat).mp hcontains
  · intro heq
    exact howns ((h.owns_iff hseat).mpr (heq.trans hnode))

theorem Good.known_mask (h : c.Good) (hknown : (c.ripTopology h).Known s) :
    ∃ seat ∈ c.seats, s = (seat.addr &&& MASK, MASK) := by
  obtain ⟨r, d, hd, rfl⟩ := hknown
  obtain ⟨seat, hseat, hsits⟩ := exists_sits hd
  exact ⟨seat, (mem_ownSeats.mp hseat).1, hsits.subnet⟩

/-- Routers that exchange RIP messages are neighbours on a link. -/
theorem Good.wired (h : c.Good) : (c.ripTopology h).Wired := by
  constructor
  · intro s s' hs hs' a ha ha'
    obtain ⟨seat, -, rfl⟩ := h.known_mask hs
    obtain ⟨seat', -, rfl⟩ := h.known_mask hs'
    have heq : seat.addr &&& MASK = seat'.addr &&& MASK := ha.symm.trans ha'
    rw [heq]
  · intro r q a ha howns
    obtain ⟨seat, hseat, other, hother, hrouter, -, rfl, hsource⟩ := h.shares ha howns
    obtain ⟨d, hd, hsits⟩ := exists_interface hother
    refine ⟨d, hd, ?_⟩
    change Contains d.subnet (c.sourceOf q.1 _)
    rw [hsource, hsits.contains_iff h (mem_ownSeats.mp hother).1 (mem_ownSeats.mp hseat).1]
    exact (mem_others.mp (mem_routersOn.mp hrouter).1).2.1
  · intro r q a ha howns
    obtain ⟨seat, hseat, other, hother, hrouter, -, rfl, hsource⟩ := h.shares ha howns
    change (c.ripTopology h).OnLink (c.sourceOf q.1 _)
    rw [hsource]
    exact h.onLink (mem_ownSeats.mp hseat).1

theorem addr_and_mask (h : c.Good) (hseat : seat ∈ c.seats) :
    seat.addr &&& MASK = prefixAddr seat.network := by
  obtain ⟨position, hplace⟩ := h.exists_place hseat
  have hposition := hplace.position_lt
  have hnetwork := hplace.network_lt
  rw [← UInt32.toNat_inj, toNat_and_mask, hplace.addr, toNat_addrOf hnetwork hposition, prefixAddr,
    UInt32.toNat_ofNat']
  omega

/-- The subnet of a network. -/
def subnetOf (network : ℕ) : SubnetKey := (prefixAddr network, MASK)

theorem Sits.subnet_eq (h : c.Good) (hsits : c.Sits seat d) (hseat : seat ∈ c.seats) :
    d.subnet = subnetOf seat.network := by
  rw [hsits.subnet, addr_and_mask h hseat]
  rfl

theorem Good.hops_eq_zero (h : c.Good) {network : ℕ} (hseat : seat ∈ ownSeats c.seats r.1.name)
    (hnetwork : seat.network = network) : (c.ripTopology h).hops (subnetOf network) r = 0 := by
  subst hnetwork
  obtain ⟨d, hd, hsits⟩ := exists_interface hseat
  exact Topology.hops_eq_zero_iff.mpr ⟨d, hd, hsits.subnet_eq h (mem_ownSeats.mp hseat).1⟩

/-- A node has one interface for each of its networks. -/
theorem Good.nodup_networks (h : c.Good) (node : Node) :
    ((ownSeats c.seats node.name).map Seat.network).Nodup := by
  refine List.Nodup.map_on ?_ (c.nodup_seats.filter _)
  intro seat hseat other hother hnetwork
  obtain ⟨hmem, hnode⟩ := mem_ownSeats.mp hseat
  obtain ⟨hmem', hnode'⟩ := mem_ownSeats.mp hother
  exact h.simple.seat_eq hmem hmem' (hnode.trans hnode'.symm) hnetwork

theorem Good.network_lt (h : c.Good) (hseat : seat ∈ c.seats) :
    seat.network < c.networks.length := by
  obtain ⟨_, hplace⟩ := h.exists_place hseat
  obtain ⟨net, hnet, -⟩ := hplace.link
  exact (List.getElem?_eq_some_iff.mp hnet).1

/-- A router has a route for each network at most.  They fit into one datagram if there are no more
than 114 networks. -/
theorem Good.tablesFit (h : c.Good) (hcount : c.networks.length ≤ 114) :
    (c.ripTopology h).TablesFit := by
  intro r
  let own := ((ownSeats c.seats r.1.name).map Seat.network).toFinset
  have hown : own ⊆ Finset.range c.networks.length := by
    intro network hnetwork
    obtain ⟨seat, hseat, rfl⟩ := List.mem_map.mp (List.mem_toFinset.mp hnetwork)
    exact Finset.mem_range.mpr (h.network_lt (mem_ownSeats.mp hseat).1)
  have hinterfaces : (c.interfaces r.1).length = own.card := by
    rw [interfaces, config, List.length_map, List.length_map, List.length_zipIdx,
      List.toFinset_card_of_nodup (h.nodup_networks r.1), List.length_map]
  let prefixes := (Finset.range c.networks.length \ own).image subnetOf
  have hsubset : (c.ripTopology h).remote r ⊆ prefixes := by
    intro s hs
    obtain ⟨q, d, hd, rfl⟩ := Topology.known_of_mem_remote hs
    obtain ⟨seat, hseat, hsits⟩ := exists_sits hd
    obtain ⟨hmem, -⟩ := mem_ownSeats.mp hseat
    rw [hsits.subnet_eq h hmem] at hs ⊢
    rw [Finset.mem_coe, Finset.mem_image]
    refine ⟨seat.network, Finset.mem_sdiff.mpr ⟨Finset.mem_range.mpr (h.network_lt hmem), ?_⟩, rfl⟩
    intro hlocal
    obtain ⟨other, hother, hnetwork⟩ := List.mem_map.mp (List.mem_toFinset.mp hlocal)
    exact hs.1.ne' (h.hops_eq_zero hother hnetwork)
  have hremote : ((c.ripTopology h).remote r).encard ≤ (c.networks.length - own.card : ℕ) := by
    calc ((c.ripTopology h).remote r).encard
        ≤ (prefixes : Set SubnetKey).encard := Set.encard_le_encard hsubset
      _ ≤ (c.networks.length - own.card : ℕ) := by
          rw [Set.encard_coe_eq_coe_finsetCard, Nat.cast_le, ← Finset.card_range c.networks.length,
            ← Finset.card_sdiff_of_subset hown]
          exact Finset.card_image_le
  have hle : own.card ≤ c.networks.length := by
    simpa using Finset.card_le_card hown
  calc ((c.interfaces r.1).length : ℕ∞) + ((c.ripTopology h).remote r).encard
      ≤ own.card + (c.networks.length - own.card : ℕ) := add_le_add (by rw [hinterfaces]) hremote
    _ ≤ 114 := by
        norm_cast
        omega

/-! ## From the file of the network to its nodes -/

variable {json : NetJson} {c' : NetConfig} {inetAton : String → Option UInt32}
  {openSocket : OpenSocket}

theorem good_of_build (hread : fromJson json = .ok c) (hbuild : c.build = .ok c')
    (hsimple : c.Simple) (hprintable : c.Printable) : c.Good ∧ c' = c.assigned := by
  have hnamed := named_of_fromJson hread
  obtain ⟨hends, rfl⟩ := (build_eq_ok hnamed.fresh).mp hbuild
  exact ⟨{ hnamed, hprintable with simple := hsimple, ends_le := hends }, rfl⟩

/-- Two hosts with two routers between them. -/
def exampleJson : NetJson where
  nodes := [(['a'], .host), (['r'], .router), (['s'], .router), (['b'], .host)]
  networks := [⟨['l'], [['a'], ['r']]⟩, ⟨['m'], [['r'], ['s']]⟩, ⟨['n'], [['s'], ['b']]⟩]

def exampleNet : NetConfig where
  nodes := [⟨['a'], .host, [], 0⟩, ⟨['r'], .router, [], 0⟩, ⟨['s'], .router, [], 0⟩,
    ⟨['b'], .host, [], 0⟩]
  networks := exampleJson.networks

theorem fromJson_exampleJson : fromJson exampleJson = .ok exampleNet := rfl

theorem build_exampleNet : exampleNet.build = .ok exampleNet.assigned :=
  (build_eq_ok (named_of_fromJson fromJson_exampleJson).fresh).mpr ⟨by decide, rfl⟩

theorem simple_exampleNet : exampleNet.Simple := by
  unfold Simple
  decide

theorem printable_exampleNet : exampleNet.Printable := ⟨by decide, by decide⟩

theorem good_exampleNet : exampleNet.Good :=
  (good_of_build fromJson_exampleJson build_exampleNet simple_exampleNet printable_exampleNet).1

/-- The interface that the file of a node sets up for a seat. -/
def link (c : NetConfig) (node : Node) (seat : Seat × ℕ) : LinkInterface :=
  (c.config node).linkInterface (interfaceOf seat)

/-- The neighbour that an interface knows under the address of another end of its link is on the
port that the interface of that end is bound to, and no other interface of the network is. -/
theorem sent_to_owner (h : c.Good) (hcount : c.seats.length ≤ 60536) {i : ℕ}
    (hseat : (seat, i) ∈ (ownSeats c.seats node.name).zipIdx) (hother : other ∈ c.others seat) :
    ∃ entry, (c.link node (seat, i)).findNextHopInterface { addr := other.addr } = some entry ∧
      entry.udpAddr = LOCALHOST ∧
      ∀ (node' : Node) (seat' : Seat) (j : ℕ),
        (seat', j) ∈ (ownSeats c.seats node'.name).zipIdx →
          ((c.link node' (seat', j)).udpPort = entry.udpPort ↔ seat' = other) := by
  have hmemOther := (mem_others.mp hother).1
  have hentry : ((c.link node (seat, i)).findNextHopInterface { addr := other.addr }) =
      some (neighborOf i other).entry := by
    rw [link, findNextHopInterface_eq_lookup]
    cases hlookup : lookup NetworkInterfaceEntry.ipAddress
        ((c.config node).entriesOf (interfaceOf (seat, i)).name) { addr := other.addr } with
    | none =>
        have hneighbor := (mem_neighborsOf hseat).mpr ⟨other, hother, rfl⟩
        have habsent := lookup_eq_none.mp hlookup _ (mem_entriesOf.mpr ⟨_, hneighbor, rfl⟩)
        exact absurd rfl habsent
    | some entry =>
        obtain ⟨neighbor, hneighbor, rfl⟩ := mem_entriesOf.mp (mem_of_lookup hlookup)
        obtain ⟨other', hother', rfl⟩ := (mem_neighborsOf hseat).mp hneighbor
        have haddr : other'.addr = other.addr :=
          congrArg Ipv4Address.addr (key_of_lookup hlookup)
        rw [h.seat_eq_of_addr (mem_others.mp hother').1 hmemOther haddr]
  refine ⟨_, hentry, rfl, ?_⟩
  intro node' seat' j hseat'
  have hown := List.mem_of_getElem? (List.mk_mem_zipIdx_iff_getElem?.mp hseat')
  constructor
  · intro hport
    exact seat_eq_of_udpPort hcount (mem_ownSeats.mp hown).1 hmemOther hport
  · rintro rfl
    rfl

/-- The first host and its router. -/
theorem sent_to_owner_exampleNet :
    let seat : Seat := ⟨['a'], 0, 0x0a000001, 5000⟩
    let other : Seat := ⟨['r'], 0, 0x0a000002, 5001⟩
    ∃ entry, (exampleNet.link ⟨['a'], .host, [], 0⟩ (seat, 0)).findNextHopInterface
          { addr := 0x0a000002 } = some entry ∧
      entry.udpAddr = LOCALHOST ∧
      ∀ (node' : Node) (seat' : Seat) (j : ℕ),
        (seat', j) ∈ (ownSeats exampleNet.seats node'.name).zipIdx →
          ((exampleNet.link node' (seat', j)).udpPort = entry.udpPort ↔ seat' = other) := by
  intro seat other
  have hseat : (seat, 0) ∈ (ownSeats exampleNet.seats
      (⟨['a'], .host, [], 0⟩ : Node).name).zipIdx := by decide
  have hother : other ∈ exampleNet.others seat := by decide
  exact sent_to_owner good_exampleNet (by decide) hseat hother

end NetConfig

end Tns.Vnet
