import Tns.Vnet.Seats

/-!
# The files of a generated network

What `write_config` writes for a node is a file of lines in the documented form:
the seats of the node with the other seats on their networks, and either the
routers to send RIP messages to or a default route.
-/

namespace Tns.Vnet

open Library Lnx

/-- `127.0.0.1`. -/
def LOCALHOST : UInt32 := 0x7f000001

/-- The name of an interface. -/
def ifName (index : ℕ) : List Char := chars "if" ++ Nat.toDigits 10 index

def blankLine : Line := { entry := none, comment := [] }

def commentLine (text : List Char) : Line := { entry := none, comment := '#' :: ' ' :: text }

def entryLine (entry : Entry) : Line := { entry := some entry, comment := [] }

namespace NetConfig

variable (c : NetConfig)

/-- The other seats on the network of a seat. -/
def others (seat : Seat) : List Seat :=
  (c.seats.filter fun other ↦ other.network = seat.network).filter fun other ↦
    other.node ≠ seat.node

/-- The node of the name. -/
def nodeNamed (name : List Char) : Node :=
  (c.nodes.find? fun node ↦ node.name = name).getD { name, nodeType := .other [] }

/-- The seats of other routers on the network of a seat. -/
def routersOn (seat : Seat) : List Seat :=
  (c.others seat).filter fun other ↦ (c.nodeNamed other.node).isRouter

/-- The seats of other routers on the networks of a node. -/
def routerSeats (name : List Char) : List Seat := (ownSeats c.seats name).flatMap c.routersOn

def neighborLineOf (index : ℕ) (other : Seat) : Line where
  entry := some (.neighbor other.addr LOCALHOST other.udpPort (ifName index))
  comment := chars " # " ++ other.node

def interfaceLine (seat : Seat) (index : ℕ) : Line where
  entry := some (.interface (ifName index) seat.addr 24 LOCALHOST seat.udpPort)
  comment := chars " # to network " ++ c.networkName seat.network

def interfaceLines (seat : Seat × ℕ) : List Line :=
  c.interfaceLine seat.1 seat.2 :: (c.others seat.1).map (neighborLineOf seat.2) ++ [blankLine]

def routingLines (node : Node) : List Line :=
  match node.nodeType with
  | .router =>
      entryLine (.routing .rip) :: blankLine ::
        if 0 < (c.routerSeats node.name).length then
          commentLine (chars "Neighbor routers that should be sent RIP messages") ::
            (c.routerSeats node.name).map fun seat ↦ entryLine (.advertiseTo seat.addr)
        else []
  | .host =>
      match c.routerSeats node.name with
      | [] => []
      | seat :: _ => [entryLine (.routing .static), blankLine,
          commentLine (chars "Default route"), entryLine (.route 0 0 seat.addr)]
  | .other _ => []

/-- The lines of the file of a node. -/
def lines (node : Node) : List Line :=
  commentLine (chars "Auto-generated configuration for " ++ node.name) :: blankLine ::
    (ownSeats c.seats node.name).zipIdx.flatMap c.interfaceLines ++ blankLine ::
      c.routingLines node

end NetConfig

/-! ## Texts -/

section Texts

variable {c : NetConfig} {seat other : Seat} {index : ℕ}

end Texts

/-! ## Files -/

namespace NetConfig

/-- No network names a node twice. -/
def Simple (c : NetConfig) : Prop := ∀ net ∈ c.networks, net.links.Nodup

variable {c : NetConfig} {seat other : Seat} {node : Node} {index : ℕ}

theorem nodeNamed_of_mem (hnamed : c.Named) (hnode : node ∈ c.nodes) :
    c.nodeNamed node.name = node := by
  rw [nodeNamed]
  cases hfind : c.nodes.find? fun node' ↦ node'.name = node.name with
  | none => exact absurd (decide_eq_true rfl) (List.find?_eq_none.mp hfind node hnode)
  | some node' =>
      have heq : node'.name = node.name := by simpa using List.find?_some hfind
      exact List.inj_on_of_nodup_map hnamed.names (List.mem_of_find?_eq_some hfind) hnode heq

theorem filter_network (c : NetConfig) (network : ℕ) :
    ∃ port, c.seats.filter (fun seat ↦ seat.network = network) =
      seatsOf network (c.networks[network]?.elim [] Network.links) 0 port := by
  have hfilter := filter_network_seatsFrom c.networks 0 UDP_PORT_START network
  rwa [Nat.zero_add] at hfilter

/-- The ends of the links of a network are named in the order of its seats. -/
theorem map_node_filter (c : NetConfig) (network : ℕ) :
    (c.seats.filter fun seat ↦ seat.network = network).map Seat.node =
      c.networks[network]?.elim [] Network.links := by
  obtain ⟨port, hfilter⟩ := c.filter_network network
  rw [hfilter, map_node_seatsOf]

/-- A node has one seat on a network. -/
theorem Simple.seat_eq (h : c.Simple) (hseat : seat ∈ c.seats) (hother : other ∈ c.seats)
    (hnode : seat.node = other.node) (hnetwork : seat.network = other.network) : seat = other := by
  have hnodup : ((c.seats.filter fun s ↦ s.network = other.network).map Seat.node).Nodup := by
    rw [map_node_filter]
    cases hnet : c.networks[other.network]? with
    | none => exact List.nodup_nil
    | some net => exact h net (List.mem_of_getElem? hnet)
  refine List.inj_on_of_nodup_map hnodup ?_ ?_ hnode
  · exact List.mem_filter.mpr ⟨hseat, decide_eq_true hnetwork⟩
  · exact List.mem_filter.mpr ⟨hother, decide_eq_true rfl⟩

theorem mem_others : other ∈ c.others seat ↔
    other ∈ c.seats ∧ other.network = seat.network ∧ other.node ≠ seat.node := by
  rw [others, List.mem_filter, List.mem_filter, decide_eq_true_eq, decide_eq_true_eq, and_assoc]

end NetConfig

end Tns.Vnet
