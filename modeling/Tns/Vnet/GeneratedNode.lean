import Tns.Lnx.NodeSetup
import Tns.Vnet.WrittenConfig

/-!
# The nodes of a generated network

The file of a node is read as its seats and the other seats on their networks,
and sets up a router or a host with them.
-/

namespace Tns.Vnet

open Library Lnx

namespace NetConfig

/-- The names can stand in comments. -/
structure Printable (c : NetConfig) : Prop where
  nodes : ∀ node ∈ c.nodes, '\n' ∉ node.name ∧ node.name.length ≤ 1900
  networks : ∀ net ∈ c.networks, '\n' ∉ net.name ∧ net.name.length ≤ 1900

/-- The network can be built, and its files can be read. -/
structure Good (c : NetConfig) : Prop extends c.Named, c.Printable where
  simple : c.Simple
  ends_le : ∀ net ∈ c.networks, net.links.length ≤ 254

variable {c : NetConfig} {seat other : Seat} {node : Node} {index : ℕ}

/-! ## Bounds -/

theorem toNat_addrOf {network position : ℕ} (hnetwork : network < 256)
    (hposition : position < 254) :
    (addrOf network position).toNat = 10 * 2 ^ 24 + network * 2 ^ 16 + (position + 1) := by
  rw [addrOf, prefixAddr, UInt32.toNat_add, UInt32.toNat_ofNat', UInt32.toNat_ofNat']
  omega

/-- Where a seat comes from. -/
structure Place (c : NetConfig) (seat : Seat) (position : ℕ) : Prop where
  link : ∃ net, c.networks[seat.network]? = some net ∧ net.links[position]? = some seat.node
  addr : seat.addr = addrOf seat.network position
  position_lt : position < 254
  network_lt : seat.network < 256

theorem Good.exists_place (h : c.Good) (hseat : seat ∈ c.seats) :
    ∃ position, c.Place seat position := by
  obtain ⟨port, hfilter⟩ := c.filter_network seat.network
  have hmem : seat ∈ c.seats.filter fun other ↦ other.network = seat.network :=
    List.mem_filter.mpr ⟨hseat, decide_eq_true rfl⟩
  rw [hfilter, mem_seatsOf] at hmem
  obtain ⟨j, hj, -, haddr, -⟩ := hmem
  cases hnet : c.networks[seat.network]? with
  | none =>
      rw [hnet] at hj
      cases hj
  | some net =>
      rw [hnet] at hj
      obtain ⟨hlt, -⟩ := List.getElem?_eq_some_iff.mp hnet
      obtain ⟨hposition, -⟩ := List.getElem?_eq_some_iff.mp hj
      rw [Nat.zero_add] at haddr
      exact ⟨j, ⟨net, hnet, hj⟩, haddr,
        hposition.trans_le (h.ends_le net (List.mem_of_getElem? hnet)), hlt.trans_le h.length_le⟩

/-- A seat lies in the prefix of its network. -/
theorem Good.network_eq_iff (h : c.Good) (hseat : seat ∈ c.seats) (hother : other ∈ c.seats) :
    seat.addr.toNat / 2 ^ 8 = other.addr.toNat / 2 ^ 8 ↔ seat.network = other.network := by
  obtain ⟨i, hi⟩ := h.exists_place hseat
  obtain ⟨j, hj⟩ := h.exists_place hother
  have hi' := hi.position_lt
  have hj' := hj.position_lt
  rw [hi.addr, hj.addr, toNat_addrOf hi.network_lt hi', toNat_addrOf hj.network_lt hj']
  omega

/-- No two seats share an address. -/
theorem Good.seat_eq_of_addr (h : c.Good) (hseat : seat ∈ c.seats) (hother : other ∈ c.seats)
    (haddr : seat.addr = other.addr) : seat = other := by
  have hnetwork := (h.network_eq_iff hseat hother).mp (by rw [haddr])
  obtain ⟨i, hi⟩ := h.exists_place hseat
  obtain ⟨j, hj⟩ := h.exists_place hother
  have htoNat := congrArg UInt32.toNat haddr
  rw [hi.addr, hj.addr, toNat_addrOf hi.network_lt hi.position_lt,
    toNat_addrOf hj.network_lt hj.position_lt, hnetwork] at htoNat
  have hposition : i = j := by omega
  obtain ⟨net, hnet, hnode⟩ := hi.link
  obtain ⟨net', hnet', hnode'⟩ := hj.link
  rw [← hnetwork, hnet, Option.some.injEq] at hnet'
  rw [← hnet', ← hposition, hnode, Option.some.injEq] at hnode'
  exact h.simple.seat_eq hseat hother hnode' hnetwork

theorem nodup_seats (c : NetConfig) : c.seats.Nodup := by
  have hports : (c.seats.map Seat.udpPort).Nodup := by
    rw [seats, map_udpPort_seatsFrom]
    exact List.nodup_range'
  exact hports.of_map

theorem mem_ownSeats {name : List Char} :
    seat ∈ ownSeats c.seats name ↔ seat ∈ c.seats ∧ seat.node = name := by
  rw [ownSeats, List.mem_filter, decide_eq_true_eq]

def interfaceOf (seat : Seat × ℕ) : LnxInterface where
  name := ifName seat.2
  assignedIp := seat.1.addr
  prefixLen := 24
  udpAddr := LOCALHOST
  udpPort := .ofNat seat.1.udpPort

def neighborOf (index : ℕ) (other : Seat) : LnxNeighbor where
  destAddr := other.addr
  udpAddr := LOCALHOST
  udpPort := .ofNat other.udpPort
  ifname := ifName index

/-- What the file of a node says. -/
def config (c : NetConfig) (node : Node) : LnxConfig where
  interfaces := (ownSeats c.seats node.name).zipIdx.map interfaceOf
  neighbors := (ownSeats c.seats node.name).zipIdx.flatMap fun seat ↦
    (c.others seat.1).map (neighborOf seat.2)
  ripNeighbors := if node.nodeType = .router then (c.routerSeats node.name).map Seat.addr else []
  staticRoutes :=
    if node.nodeType = .router then []
    else (c.routerSeats node.name).head?.toList.map fun seat ↦
      { networkAddr := 0, prefixLen := 0, nextHop := seat.addr }
  routingMode := if node.nodeType = .router then .rip else .static

theorem ifName_inj {i j : ℕ} (h : ifName i = ifName j) : i = j := by
  have hdigits := congrArg (fun digits ↦ Nat.ofDigitChars 10 digits 0) (List.append_cancel_left h)
  simpa only [Nat.ofDigitChars_toDigits (by decide : 1 < 10) le_rfl] using hdigits

theorem toNat_udpPort (hcount : c.seats.length ≤ 60536) (hseat : seat ∈ c.seats) :
    (UInt16.ofNat seat.udpPort).toNat = seat.udpPort := by
  have hmem : seat.udpPort ∈ c.seats.map Seat.udpPort := List.mem_map_of_mem hseat
  rw [seats, map_udpPort_seatsFrom, List.mem_range'_1] at hmem
  have hlt : seat.udpPort < 5000 + c.seats.length := hmem.2
  rw [UInt16.toNat_ofNat']
  omega

/-- As long as there are ports, every end of a link has one of its own. -/
theorem seat_eq_of_udpPort (hcount : c.seats.length ≤ 60536) (hseat : seat ∈ c.seats)
    (hother : other ∈ c.seats) (hport : UInt16.ofNat seat.udpPort = .ofNat other.udpPort) :
    seat = other := by
  have htoNat := congrArg UInt16.toNat hport
  rw [toNat_udpPort hcount hseat, toNat_udpPort hcount hother] at htoNat
  have hnodup : (c.seats.map Seat.udpPort).Nodup := by
    rw [seats, map_udpPort_seatsFrom]
    exact List.nodup_range'
  exact List.inj_on_of_nodup_map hnodup hseat hother htoNat

variable {openSocket : OpenSocket}

/-- The interface is the one of the seat. -/
structure Sits (c : NetConfig) (seat : Seat) (d : Ip.InterfaceData) : Prop where
  cidr : d.cidr = { address := { addr := seat.addr }, maskLength := 24 }
  neighbors : ∀ a, a ∈ d.neighborIpAddrs ↔ ∃ other ∈ c.others seat, a = { addr := other.addr }

theorem mem_neighborsOf (hseat : (seat, index) ∈ (ownSeats c.seats node.name).zipIdx)
    {neighbor : LnxNeighbor} : neighbor ∈ (c.config node).neighborsOf (ifName index) ↔
      ∃ other ∈ c.others seat, neighborOf index other = neighbor := by
  rw [LnxConfig.neighborsOf, List.mem_filter, decide_eq_true_eq, config, List.mem_flatMap]
  constructor
  · rintro ⟨⟨⟨seat', j⟩, hseat', hmem⟩, hname⟩
    obtain ⟨other, hother, rfl⟩ := List.mem_map.mp hmem
    obtain rfl : j = index := ifName_inj hname
    have hget := List.mk_mem_zipIdx_iff_getElem?.mp hseat
    have hget' := List.mk_mem_zipIdx_iff_getElem?.mp hseat'
    obtain rfl := Option.some.inj (hget'.symm.trans hget)
    exact ⟨other, hother, rfl⟩
  · rintro ⟨other, hother, rfl⟩
    exact ⟨⟨(seat, index), hseat, List.mem_map_of_mem hother⟩, rfl⟩

theorem sits_interfaceOf (hseat : (seat, index) ∈ (ownSeats c.seats node.name).zipIdx) :
    c.Sits seat ((c.config node).interfaceData (interfaceOf (seat, index))) := by
  refine ⟨rfl, ?_⟩
  intro a
  rw [LnxConfig.interfaceData, List.mem_map]
  constructor
  · rintro ⟨entry, hentry, rfl⟩
    obtain ⟨neighbor, hneighbor, rfl⟩ := mem_entriesOf.mp hentry
    obtain ⟨other, hother, rfl⟩ := (mem_neighborsOf hseat).mp hneighbor
    exact ⟨other, hother, rfl⟩
  · rintro ⟨other, hother, rfl⟩
    have hneighbor := (mem_neighborsOf hseat).mpr ⟨other, hother, rfl⟩
    exact ⟨_, mem_entriesOf.mpr ⟨_, hneighbor, rfl⟩, rfl⟩

/-- The interfaces of a node. -/
def interfaces (c : NetConfig) (node : Node) : List Ip.InterfaceData :=
  (c.config node).interfaces.map (c.config node).interfaceData

theorem exists_sits {d : Ip.InterfaceData} (hd : d ∈ c.interfaces node) :
    ∃ seat ∈ ownSeats c.seats node.name, c.Sits seat d := by
  obtain ⟨x, hx, rfl⟩ := List.mem_map.mp hd
  obtain ⟨⟨seat, i⟩, hseat, rfl⟩ := List.mem_map.mp hx
  have hown := List.mem_of_getElem? (List.mk_mem_zipIdx_iff_getElem?.mp hseat)
  exact ⟨seat, hown, sits_interfaceOf hseat⟩

theorem exists_interface (hseat : seat ∈ ownSeats c.seats node.name) :
    ∃ d ∈ c.interfaces node, c.Sits seat d := by
  obtain ⟨i, hi⟩ := List.mem_iff_getElem?.mp hseat
  have hpair := List.mk_mem_zipIdx_iff_getElem?.mpr hi
  exact ⟨_, List.mem_map_of_mem (List.mem_map_of_mem hpair), sits_interfaceOf hpair⟩

end NetConfig

end Tns.Vnet
