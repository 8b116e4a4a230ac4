import Tns.Lnx.ConfigLines

/-!
# Generated networks

`vnet_generate` reads the nodes of a network and the links that they share,
gives an address and a port to every end of a link, and writes an `.lnx` file
for each node.  A string is the list of the bytes that are written for it.  A
node is shared by all links that name it, so it is found by its name.
-/

namespace Tns.Vnet

open Library Lnx

def UDP_PORT_START : ℕ := 5000

/-- The type of a node is any string, and these two have a meaning. -/
inductive NodeType where
  | host
  | router
  | other (type : List Char)
  deriving DecidableEq, Repr

/-- An exception of the generator. -/
inductive PyException where
  | valueError (msg : String)
  | addressValueError
  deriving DecidableEq, Repr

/-- `Interface`, on the network at position `network`, with the port of its `udp_addr`. -/
structure Interface where
  name : List Char
  addr : UInt32
  network : ℕ
  udpPort : ℕ
  deriving DecidableEq, Repr

structure Node where
  name : List Char
  nodeType : NodeType
  interfaces : List Interface := []
  ifIndex : ℕ := 0
  deriving DecidableEq, Repr

/-- `Network`, with the names of the nodes. -/
structure Network where
  name : List Char
  links : List (List Char)
  deriving DecidableEq, Repr

structure NetConfig where
  nodes : List Node
  networks : List Network
  deriving DecidableEq, Repr

/-! ## Reading the network -/

/-- The file that is read: nodes with their types, and networks with the names of their nodes. -/
structure NetJson where
  nodes : List (List Char × NodeType)
  networks : List Network

/-- `nodes[name] = node`: a name that is there already keeps its place. -/
def setNode (nodes : List Node) (node : Node) : List Node :=
  if nodes.any (·.name = node.name) then nodes.map fun n ↦ if n.name = node.name then node else n
  else nodes ++ [node]

/-- `_get_node`, of every link. -/
def getNodes (nodes : List Node) (links : List (List Char)) : Except PyException Unit :=
  links.forM fun name ↦
    if nodes.any (·.name = name) then .ok ()
    else .error (.valueError ("No node definition found for " ++ String.ofList name))

/-- The constructor of the network at the position, whose prefix is `10.{position}.0.0/24`. -/
def makeNetwork (nodes : List Node) (network : Network × ℕ) : Except PyException Network := do
  getNodes nodes network.1.links
  if 255 < network.2 then .error .addressValueError else .ok network.1

def fromJson (json : NetJson) : Except PyException NetConfig := do
  let nodes := json.nodes.foldl (fun nodes d ↦ setNode nodes { name := d.1, nodeType := d.2 }) []
  let networks ← json.networks.zipIdx.mapM (makeNetwork nodes)
  return { nodes, networks }

/-! ## Addresses -/

/-- The prefix of the network at the position. -/
def prefixAddr (network : ℕ) : UInt32 := .ofNat (10 * 2 ^ 24 + network * 2 ^ 16)

/-- `next_ip`, when it was called `n` times. -/
def nextIp (network n : ℕ) : Except PyException UInt32 :=
  if n < 254 then .ok (prefixAddr network + .ofNat (n + 1))
  else .error (.valueError ("Out of addresses in prefix " ++
    String.ofList (inetNtop (prefixAddr network)) ++ "/24"))

def Node.addIface (node : Node) (ip : UInt32) (network udpPort : ℕ) : Node :=
  { node with
    interfaces := node.interfaces ++ [{
      name := chars "if" ++ Nat.toDigits 10 node.ifIndex, addr := ip, network, udpPort }]
    ifIndex := node.ifIndex + 1 }

/-- The nodes while addresses are assigned, and the next port. -/
structure Assignment where
  nodes : List Node
  nextPort : ℕ := UDP_PORT_START

/-- A pass of the inner loop of `build`: the end of the link at position `link.2`. -/
def assignLink (network : ℕ) (s : Assignment) (link : List Char × ℕ) :
    Except PyException Assignment := do
  let assignedIp ← nextIp network link.2
  return {
    nodes := s.nodes.map fun node ↦
      if node.name = link.1 then node.addIface assignedIp network s.nextPort else node
    nextPort := s.nextPort + 1 }

def assignNetwork (s : Assignment) (network : Network × ℕ) : Except PyException Assignment :=
  network.1.links.zipIdx.foldlM (assignLink network.2) s

def NetConfig.build (c : NetConfig) : Except PyException NetConfig := do
  let s ← c.networks.zipIdx.foldlM assignNetwork { nodes := c.nodes }
  return { c with nodes := s.nodes }

/-! ## Writing the files -/

namespace Interface

/-- `udp_addr`. -/
def udpAddr (iface : Interface) : List Char :=
  chars "127.0.0.1:" ++ Nat.toDigits 10 iface.udpPort

end Interface

def Node.isRouter (node : Node) : Bool := node.nodeType = .router

namespace NetConfig

variable (c : NetConfig) (self : Node)

/-- The name of the network. -/
def networkName (network : ℕ) : List Char := c.networks[network]?.elim [] Network.name

end NetConfig

end Tns.Vnet
