import Mathlib.Data.List.Nodup
import Tns.Vnet.NetConfig

/-!
# The addresses of a generated network

Every end of a link gets a seat: an address of the prefix of its network, and a
port of its own.  The interfaces of a node are its seats, in order.
-/

namespace Tns.Vnet

open Library Lnx

/-- What the end of a link gets. -/
structure Seat where
  node : List Char
  network : ℕ
  addr : UInt32
  udpPort : ℕ
  deriving DecidableEq

/-- The address of the end at the position of the network. -/
def addrOf (network position : ℕ) : UInt32 := prefixAddr network + .ofNat (position + 1)

/-- The seats of a network, from the given position and port on. -/
def seatsOf (network : ℕ) (links : List (List Char)) (position port : ℕ) : List Seat :=
  match links with
  | [] => []
  | name :: links =>
      { node := name, network, addr := addrOf network position, udpPort := port } ::
        seatsOf network links (position + 1) (port + 1)

/-- The seats of the networks, from the given number and port on. -/
def seatsFrom (networks : List Network) (network port : ℕ) : List Seat :=
  match networks with
  | [] => []
  | net :: networks =>
      seatsOf network net.links 0 port ++
        seatsFrom networks (network + 1) (port + net.links.length)

def Seat.interface (seat : Seat) (index : ℕ) : Interface where
  name := chars "if" ++ Nat.toDigits 10 index
  addr := seat.addr
  network := seat.network
  udpPort := seat.udpPort

/-- The seats of the node. -/
def ownSeats (seats : List Seat) (name : List Char) : List Seat :=
  seats.filter fun seat ↦ seat.node = name

/-- The node with an interface for each of its seats. -/
def Node.seated (node : Node) (seats : List Seat) : Node :=
  let own := ownSeats seats node.name
  { node with
    interfaces := own.zipIdx.map fun seat ↦ seat.1.interface seat.2
    ifIndex := own.length }

namespace NetConfig

variable (c : NetConfig)

def seats : List Seat := seatsFrom c.networks 0 UDP_PORT_START

/-- The network with all addresses. -/
def assigned : NetConfig := { c with nodes := c.nodes.map fun node ↦ node.seated c.seats }

/-- No node has an interface. -/
def Fresh : Prop := ∀ node ∈ c.nodes, node.interfaces = [] ∧ node.ifIndex = 0

end NetConfig

/-! ## `build` -/

section Build

variable {nodes : List Node} {done : List Seat} {links : List (List Char)} {name : List Char}
  {network position : ℕ} {networks : List Network}

theorem length_seatsOf (network : ℕ) (links : List (List Char)) (position port : ℕ) :
    (seatsOf network links position port).length = links.length := by
  induction links generalizing position port with
  | nil => rfl
  | cons name links ih => rw [seatsOf, List.length_cons, List.length_cons, ih]

/-- The nodes when the seats have been taken. -/
def assignment (nodes : List Node) (done : List Seat) : Assignment where
  nodes := nodes.map fun node ↦ node.seated done
  nextPort := UDP_PORT_START + done.length

theorem seated_append (node : Node) (done : List Seat) (seat : Seat) :
    node.seated (done ++ [seat]) = if node.name = seat.node then
      (node.seated done).addIface seat.addr seat.network seat.udpPort else node.seated done := by
  rw [Node.seated, ownSeats, List.filter_append]
  by_cases heq : node.name = seat.node
  · rw [if_pos heq, List.filter_cons_of_pos (by simp [heq]), List.filter_nil, List.zipIdx_append,
      List.map_append, List.length_append, Nat.zero_add]
    rfl
  · rw [if_neg heq, List.filter_cons_of_neg (by simp [Ne.symm heq]), List.filter_nil,
      List.append_nil]
    rfl

theorem assignLink_assignment (hposition : position < 254) :
    assignLink network (assignment nodes done) (name, position) =
      .ok (assignment nodes (done ++ [{
        node := name, network, addr := addrOf network position
        udpPort := UDP_PORT_START + done.length }])) := by
  rw [assignLink, nextIp, if_pos hposition, Except.ok_bind]
  simp only [assignment, List.map_map, seated_append, List.length_append, List.length_singleton]
  rfl

theorem foldlM_assignLink (hlength : position + links.length ≤ 254) :
    (links.zipIdx position).foldlM (assignLink network) (assignment nodes done) =
      .ok (assignment nodes
        (done ++ seatsOf network links position (UDP_PORT_START + done.length))) := by
  induction links generalizing position done with
  | nil => rw [seatsOf, List.append_nil]; rfl
  | cons name links ih =>
      rw [List.length_cons] at hlength
      rw [List.zipIdx_cons, List.foldlM_cons, assignLink_assignment (by omega), Except.ok_bind,
        ih (by omega), seatsOf, List.append_assoc, List.length_append, List.length_singleton,
        Nat.add_assoc]
      rfl

theorem foldlM_assignLink_eq_error (hlength : 254 < position + links.length)
    (hposition : position ≤ 254) : ∃ e, (links.zipIdx position).foldlM (assignLink network)
      (assignment nodes done) = .error e := by
  induction links generalizing position done with
  | nil =>
      rw [List.length_nil] at hlength
      omega
  | cons name links ih =>
      rw [List.length_cons] at hlength
      rw [List.zipIdx_cons, List.foldlM_cons]
      by_cases hlt : position < 254
      · rw [assignLink_assignment hlt, Except.ok_bind]
        exact ih (by omega) (by omega)
      · rw [assignLink, nextIp, if_neg hlt]
        exact ⟨_, rfl⟩

variable {net : Network}

theorem assignNetwork_assignment (hlength : net.links.length ≤ 254) :
    assignNetwork (assignment nodes done) (net, network) =
      .ok (assignment nodes
        (done ++ seatsOf network net.links 0 (UDP_PORT_START + done.length))) :=
  foldlM_assignLink (by rwa [Nat.zero_add])

variable (nodes done network) in
theorem assignNetwork_eq_error (hlength : ¬net.links.length ≤ 254) :
    ∃ e, assignNetwork (assignment nodes done) (net, network) = .error e := by
  have hlt : 254 < 0 + net.links.length := by omega
  exact foldlM_assignLink_eq_error hlt (Nat.zero_le _)

theorem foldlM_assignNetwork (hlength : ∀ net ∈ networks, net.links.length ≤ 254) :
    (networks.zipIdx network).foldlM assignNetwork (assignment nodes done) =
      .ok (assignment nodes
        (done ++ seatsFrom networks network (UDP_PORT_START + done.length))) := by
  induction networks generalizing network done with
  | nil => rw [seatsFrom, List.append_nil]; rfl
  | cons net networks ih =>
      obtain ⟨hnet, hlength⟩ := List.forall_mem_cons.mp hlength
      rw [List.zipIdx_cons, List.foldlM_cons, assignNetwork_assignment hnet, Except.ok_bind,
        ih hlength, seatsFrom, List.append_assoc, List.length_append, length_seatsOf,
        Nat.add_assoc]

variable (nodes done network) in
theorem foldlM_assignNetwork_eq_error (hlength : ¬∀ net ∈ networks, net.links.length ≤ 254) :
    ∃ e, (networks.zipIdx network).foldlM assignNetwork (assignment nodes done) = .error e := by
  induction networks generalizing network done with
  | nil => exact absurd (by simp) hlength
  | cons net networks ih =>
      rw [List.zipIdx_cons, List.foldlM_cons]
      by_cases hnet : net.links.length ≤ 254
      · rw [assignNetwork_assignment hnet, Except.ok_bind]
        exact ih _ _ fun hall ↦ hlength (List.forall_mem_cons.mpr ⟨hnet, hall⟩)
      · obtain ⟨e, he⟩ := assignNetwork_eq_error nodes done network hnet
        exact ⟨e, by rw [he, Except.error_bind]⟩

namespace NetConfig

variable {c c' : NetConfig}

/-- `build` gives every end of a link its seat, unless a network has more ends than addresses. -/
theorem build_eq_ok (hfresh : c.Fresh) :
    c.build = .ok c' ↔ (∀ net ∈ c.networks, net.links.length ≤ 254) ∧ c' = c.assigned := by
  have hstart : ({ nodes := c.nodes } : Assignment) = assignment c.nodes [] := by
    have hnodes : c.nodes.map (fun node ↦ node.seated []) = c.nodes := by
      conv_rhs => rw [← List.map_id c.nodes]
      apply List.map_congr_left
      intro node hnode
      obtain ⟨hinterfaces, hindex⟩ := hfresh node hnode
      obtain ⟨name, nodeType, interfaces, ifIndex⟩ := node
      subst hinterfaces hindex
      rfl
    rw [assignment, hnodes]
    rfl
  rw [build, hstart]
  by_cases hlength : ∀ net ∈ c.networks, net.links.length ≤ 254
  · rw [foldlM_assignNetwork hlength, Except.ok_bind]
    constructor
    · intro h
      exact ⟨hlength, (Except.ok.inj h).symm⟩
    · rintro ⟨-, rfl⟩
      rfl
  · obtain ⟨e, he⟩ := foldlM_assignNetwork_eq_error c.nodes [] 0 hlength
    rw [he, Except.error_bind]
    exact iff_of_false nofun fun h ↦ hlength h.1

end NetConfig

end Build

/-! ## Seats -/

section Seats

variable {seat : Seat} {links : List (List Char)} {network position port : ℕ}
  {networks : List Network}

theorem mem_seatsOf : seat ∈ seatsOf network links position port ↔
    ∃ j, links[j]? = some seat.node ∧ seat.network = network ∧
      seat.addr = addrOf network (position + j) ∧ seat.udpPort = port + j := by
  induction links generalizing position port with
  | nil => simp [seatsOf]
  | cons name links ih =>
      rw [seatsOf, List.mem_cons, ih]
      constructor
      · rintro (rfl | ⟨j, hj, hnetwork, haddr, hport⟩)
        · exact ⟨0, rfl, rfl, rfl, rfl⟩
        · refine ⟨j + 1, hj, hnetwork, ?_, ?_⟩
          · rw [haddr, Nat.add_right_comm, Nat.add_assoc]
          · omega
      · rintro ⟨j, hj, hnetwork, haddr, hport⟩
        cases j with
        | zero =>
            obtain ⟨node, network', addr, udpPort⟩ := seat
            simp only [List.getElem?_cons_zero, Option.some.injEq] at hj hnetwork haddr hport
            subst hj hnetwork haddr hport
            exact .inl rfl
        | succ j =>
            refine .inr ⟨j, hj, hnetwork, ?_, ?_⟩
            · rw [haddr, Nat.add_right_comm, Nat.add_assoc]
            · omega

theorem map_node_seatsOf (network : ℕ) (links : List (List Char)) (position port : ℕ) :
    (seatsOf network links position port).map Seat.node = links := by
  induction links generalizing position port with
  | nil => rfl
  | cons name links ih => rw [seatsOf, List.map_cons, ih]

theorem map_udpPort_seatsOf (network : ℕ) (links : List (List Char)) (position port : ℕ) :
    (seatsOf network links position port).map Seat.udpPort = List.range' port links.length := by
  induction links generalizing position port with
  | nil => rfl
  | cons name links ih => rw [seatsOf, List.map_cons, ih, List.length_cons, List.range'_succ]

/-- No two ends share a port. -/
theorem map_udpPort_seatsFrom (networks : List Network) (network port : ℕ) :
    (seatsFrom networks network port).map Seat.udpPort =
      List.range' port (seatsFrom networks network port).length := by
  induction networks generalizing network port with
  | nil => rfl
  | cons net networks ih =>
      rw [seatsFrom, List.map_append, map_udpPort_seatsOf, ih, List.length_append,
        length_seatsOf, List.range'_append_1]

theorem network_of_mem_seatsFrom (hseat : seat ∈ seatsFrom networks network port) :
    network ≤ seat.network := by
  induction networks generalizing network port with
  | nil => cases hseat
  | cons net networks ih =>
      rw [seatsFrom, List.mem_append, mem_seatsOf] at hseat
      rcases hseat with ⟨-, -, hnetwork, -⟩ | hseat
      · exact hnetwork.ge
      · exact Nat.le_of_succ_le (ih hseat)

/-- The seats of one network. -/
theorem filter_network_seatsFrom (networks : List Network) (network port i : ℕ) :
    ∃ port', (seatsFrom networks network port).filter (fun seat ↦ seat.network = network + i) =
      seatsOf (network + i) (networks[i]?.elim [] Network.links) 0 port' := by
  induction networks generalizing network port i with
  | nil => exact ⟨0, rfl⟩
  | cons net networks ih =>
      rw [seatsFrom, List.filter_append]
      cases i with
      | zero =>
          refine ⟨port, ?_⟩
          rw [List.filter_eq_self.mpr, List.filter_eq_nil_iff.mpr, List.append_nil]
          · rfl
          · intro seat hseat
            have hle := network_of_mem_seatsFrom hseat
            rw [decide_eq_true_eq]
            omega
          · intro seat hseat
            obtain ⟨j, -, hnetwork, -⟩ := mem_seatsOf.mp hseat
            rw [decide_eq_true_eq]
            exact hnetwork
      | succ i =>
          obtain ⟨port', hfilter⟩ := ih (network + 1) (port + net.links.length) i
          refine ⟨port', ?_⟩
          rw [Nat.add_right_comm, Nat.add_assoc] at hfilter
          rw [hfilter, List.filter_eq_nil_iff.mpr, List.nil_append]
          · rfl
          · intro seat hseat
            obtain ⟨j, -, hnetwork, -⟩ := mem_seatsOf.mp hseat
            rw [decide_eq_true_eq]
            omega

end Seats

/-! ## What the file of the network promises -/

namespace NetConfig

/-- The nodes have different names, and the networks, of which there are no more than prefixes,
name only nodes. -/
structure Named (c : NetConfig) : Prop where
  fresh : c.Fresh
  names : (c.nodes.map Node.name).Nodup
  links : ∀ net ∈ c.networks, ∀ name ∈ net.links, ∃ node ∈ c.nodes, node.name = name
  length_le : c.networks.length ≤ 256

theorem names_setNode {nodes : List Node} {node : Node} (h : (nodes.map Node.name).Nodup) :
    ((setNode nodes node).map Node.name).Nodup := by
  rw [setNode]
  split
  · rw [List.map_map]
    have hnames : nodes.map (Node.name ∘ fun n ↦ if n.name = node.name then node else n) =
        nodes.map Node.name := by
      apply List.map_congr_left
      intro n _
      by_cases heq : n.name = node.name
      · rw [Function.comp_apply, if_pos heq, heq]
      · rw [Function.comp_apply, if_neg heq]
    rwa [hnames]
  · rename_i hnew
    rw [List.any_eq_true, not_exists] at hnew
    rw [List.map_append, List.map_singleton, List.nodup_append]
    refine ⟨h, List.nodup_singleton _, ?_⟩
    intro name hname name' hname' heq
    rw [List.mem_singleton] at hname'
    obtain ⟨n, hn, rfl⟩ := List.mem_map.mp hname
    exact hnew n ⟨hn, decide_eq_true (heq.trans hname')⟩

theorem mem_setNode {nodes : List Node} {node n : Node} (h : n ∈ setNode nodes node) :
    n ∈ nodes ∨ n = node := by
  rw [setNode] at h
  split at h
  · obtain ⟨n', hn', rfl⟩ := List.mem_map.mp h
    split
    · exact .inr rfl
    · exact .inl hn'
  · rcases List.mem_append.mp h with hn | hn
    · exact .inl hn
    · exact .inr (List.mem_singleton.mp hn)

theorem forM_getNodes {nodes : List Node} {links : List (List Char)}
    (h : getNodes nodes links = .ok ()) : ∀ name ∈ links, ∃ node ∈ nodes, node.name = name := by
  induction links with
  | nil => simp
  | cons name links ih =>
      rw [getNodes, List.forM_eq_forM, List.forM_cons, Except.bind_eq_ok] at h
      obtain ⟨⟨⟩, hname, hlinks⟩ := h
      rw [List.forall_mem_cons]
      refine ⟨?_, ih hlinks⟩
      split at hname
      · rename_i hany
        obtain ⟨node, hnode, heq⟩ := List.any_eq_true.mp hany
        exact ⟨node, hnode, of_decide_eq_true heq⟩
      · cases hname

theorem makeNetwork_eq_ok {nodes : List Node} {net net' : Network} {i : ℕ}
    (h : makeNetwork nodes (net, i) = .ok net') :
    net' = net ∧ i ≤ 255 ∧ ∀ name ∈ net.links, ∃ node ∈ nodes, node.name = name := by
  rw [makeNetwork, Except.bind_eq_ok] at h
  obtain ⟨⟨⟩, hlinks, hmake⟩ := h
  split at hmake
  · cases hmake
  · rename_i hle
    exact ⟨(Except.ok.inj hmake).symm, Nat.le_of_not_lt hle, forM_getNodes hlinks⟩

theorem named_of_fromJson {json : NetJson} {c : NetConfig} (h : fromJson json = .ok c) :
    c.Named := by
  rw [fromJson, Except.bind_eq_ok] at h
  obtain ⟨networks, hnetworks, h⟩ := h
  obtain rfl := Except.pure_eq_ok.mp h
  have hnodes : ∀ (ds : List (List Char × NodeType)) (nodes : List Node),
      ((nodes.map Node.name).Nodup ∧ ∀ n ∈ nodes, n.interfaces = [] ∧ n.ifIndex = 0) →
      let nodes' := ds.foldl (fun nodes d ↦ setNode nodes { name := d.1, nodeType := d.2 }) nodes
      (nodes'.map Node.name).Nodup ∧ ∀ n ∈ nodes', n.interfaces = [] ∧ n.ifIndex = 0 := by
    intro ds
    induction ds with
    | nil => exact fun nodes h ↦ h
    | cons d ds ih =>
        intro nodes h
        refine ih _ ⟨names_setNode h.1, ?_⟩
        intro n hn
        rcases mem_setNode hn with hn | rfl
        · exact h.2 n hn
        · exact ⟨rfl, rfl⟩
  obtain ⟨hnames, hfresh⟩ := hnodes json.nodes [] ⟨List.nodup_nil, by simp⟩
  refine ⟨hfresh, hnames, ?_, ?_⟩
  · intro net hnet
    obtain ⟨⟨net', i⟩, -, hmake⟩ := Except.exists_of_mapM hnetworks hnet
    obtain ⟨rfl, -, hlinks⟩ := makeNetwork_eq_ok hmake
    exact hlinks
  · change networks.length ≤ 256
    have hall := Except.mapM_eq_ok.mp hnetworks
    have hlength := hall.length_eq
    by_contra hgt
    have hi : networks.length - 1 < json.networks.zipIdx.length := by omega
    have hmake := hall.get hi (by omega)
    rw [List.get_eq_getElem, List.getElem_zipIdx, Nat.zero_add] at hmake
    have hle : networks.length - 1 ≤ 255 := (makeNetwork_eq_ok hmake).2.1
    omega

end NetConfig

end Tns.Vnet
