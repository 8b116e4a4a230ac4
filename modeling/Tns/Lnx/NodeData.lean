import Tns.HostNode
import Tns.Ip.Cidr
import Tns.Library.KeyedList
import Tns.Lnx.ConfigLines

/-!
# From a configuration file to a node

`parseLnx` turns what was read back into text, with the neighbours listed under
the name of their interface, and the constructors of the interfaces and of the
nodes read that text again.  `inet_aton` is a parameter, and so is what the
operating system answers when a socket is opened.
-/

namespace Tns.Lnx

open Library Ip

structure ParsedIfaceData where
  name : String
  cidr : String
  ipAddrs : List String
  udpPorts : List UInt16
  udpAddrs : List String
  udpPort : UInt16

structure RoutingData where
  destAddr : String
  nextHop : String

structure NetworkNodeData where
  interfaces : List ParsedIfaceData
  routes : List RoutingData
  ripNeighbors : List String

/-- The static maps `ifaceNameTo____`.  They keep their entries from one file to the next. -/
structure NeighborMaps where
  ipAddrs : String → List String := fun _ ↦ []
  udpPorts : String → List UInt16 := fun _ ↦ []
  udpAddrs : String → List String := fun _ ↦ []

/-- `ifaceNameTo____[ifName].emplace_back(value)`. -/
def emplaceBack {α : Type} (map : String → List α) (ifName : String) (value : α) :
    String → List α :=
  Function.update map ifName (map ifName ++ [value])

/-- `inet_ntop` into a `std::string`. -/
def addrString (addr : UInt32) : String := String.ofList (inetNtop addr)

/-- `addr/prefixLen`, through a `std::stringstream`. -/
def cidrString (addr : UInt32) (prefixLen : ℤ) : String :=
  addrString addr ++ "/" ++ toString prefixLen

def createNeighbor (maps : NeighborMaps) (neighbor : LnxNeighbor) : NeighborMaps :=
  let ifName := String.ofList neighbor.ifname
  { ipAddrs := emplaceBack maps.ipAddrs ifName (addrString neighbor.destAddr)
    udpAddrs := emplaceBack maps.udpAddrs ifName (addrString neighbor.udpAddr)
    udpPorts := emplaceBack maps.udpPorts ifName neighbor.udpPort }

def createInterface (maps : NeighborMaps) (interface : LnxInterface) : ParsedIfaceData :=
  let interfaceName := String.ofList interface.name
  { name := interfaceName
    cidr := cidrString interface.assignedIp interface.prefixLen
    ipAddrs := maps.ipAddrs interfaceName
    udpPorts := maps.udpPorts interfaceName
    udpAddrs := maps.udpAddrs interfaceName
    udpPort := interface.udpPort }

def createStaticRoute (route : LnxStaticRoute) : RoutingData where
  destAddr := cidrString route.networkAddr route.prefixLen
  nextHop := addrString route.nextHop

def createRipNeighbor (ripNeighbor : UInt32) : String := addrString ripNeighbor

def parseLnx (maps : NeighborMaps) (file : List Char) :
    Except Failure (NetworkNodeData × NeighborMaps) := do
  let config ← lnxconfigParse file
  let maps := config.neighbors.foldl createNeighbor maps
  return ({
    interfaces := config.interfaces.map (createInterface maps)
    routes := config.staticRoutes.map createStaticRoute
    ripNeighbors := config.ripNeighbors.map createRipNeighbor }, maps)

/-! ## Interfaces -/

/-- What ends the construction of a node. -/
inductive SetupFault where
  | file (failure : Failure)
  | std (e : StdException)
  | node (fault : Wire.Fault)
  | systemError (what : String)
  deriving DecidableEq, Repr

/-- `NetworkInterface::NetworkInterfaceEntry`. -/
structure NetworkInterfaceEntry where
  ipAddress : Ipv4Address
  udpAddr : UInt32
  udpPort : UInt16
  deriving DecidableEq, Repr

/-- What the constructor of `NetworkInterface` sets up. -/
structure LinkInterface where
  data : InterfaceData
  neighborInterfaces : List NetworkInterfaceEntry
  /-- Where the socket is bound. -/
  udpAddr : UInt32
  udpPort : UInt16

/-- The address of a socket. -/
structure SockAddr where
  addr : UInt32
  port : UInt16
  deriving DecidableEq, Repr

def LinkInterface.sockAddr (iface : LinkInterface) : SockAddr where
  addr := iface.udpAddr
  port := iface.udpPort

/-- The result of `socket` and `bind` for an address, after sockets have been bound to those of the
list: the name of the call that fails, if one does. -/
abbrev OpenSocket := List SockAddr → SockAddr → Except String Unit

section Constructors

variable (inetAton : String → Option UInt32) (openSocket : OpenSocket)

/-- A pass of the loop over the neighbours, with the address that `inet_aton` has written. -/
def neighborEntry (neighbor : String × String × UInt16) :
    Except SetupFault NetworkInterfaceEntry :=
  match inetAton (cStr neighbor.2.1) with
  | none => .error (.systemError "NetworkInterface::NetworkInterface(): inet_aton()")
  | some udpAddr =>
      match Ipv4Address.ofString inetAton neighbor.1 with
      | .error e => .error (.std e)
      | .ok ipAddress => .ok { ipAddress, udpAddr, udpPort := neighbor.2.2 }

/-- `operator<` of `Ipv4Address`. -/
def addrLt (a b : Ipv4Address) : Bool :=
  a.addr < b.addr || a.addr == b.addr && a.port < b.port

/-- `std::sort`, by address. -/
def sortEntries (entries : List NetworkInterfaceEntry) : List NetworkInterfaceEntry :=
  entries.mergeSort fun entry1 entry2 ↦ !addrLt entry2.ipAddress entry1.ipAddress

/-- The constructor of `NetworkInterface`, after the node has bound the sockets of the list. -/
def makeInterface (bound : List SockAddr) (d : ParsedIfaceData) :
    Except SetupFault LinkInterface := do
  if d.ipAddrs.length ≠ d.udpPorts.length ∨ d.ipAddrs.length ≠ d.udpAddrs.length then
    .error (.std (.invalidArgument ("NetworkInterface::NetworkInterface(): neighborIpAddrs, " ++
      "neighborUdpPorts, and neighborUdpAddrs must have the same size")))
  else
    match parseCidr inetAton d.cidr with
    | .error e => .error (.std e)
    | .ok (.error e) =>
        .error (.node (.runtimeError ("NetworkInterface::NetworkInterface(): " ++ e)))
    | .ok (.ok cidr) =>
        let entries ← (d.ipAddrs.zip (d.udpAddrs.zip d.udpPorts)).mapM (neighborEntry inetAton)
        let neighborInterfaces := sortEntries entries
        let iface : LinkInterface := {
          data := {
            name := d.name, cidr
            neighborIpAddrs := neighborInterfaces.map NetworkInterfaceEntry.ipAddress }
          neighborInterfaces
          -- The socket address is still that of the last neighbour.
          udpAddr := (entries.getLast?.map NetworkInterfaceEntry.udpAddr).getD 0
          udpPort := d.udpPort }
        match openSocket bound iface.sockAddr with
        | .error call =>
            .error (.systemError ("NetworkInterface::NetworkInterface(): " ++ call))
        | .ok () => return iface

/-- `findNextHopInterface`: the first element of the equal range. -/
def LinkInterface.findNextHopInterface (iface : LinkInterface) (nextHopAddr : Ipv4Address) :
    Option NetworkInterfaceEntry :=
  (equalRange addrLt NetworkInterfaceEntry.ipAddress iface.neighborInterfaces nextHopAddr).head?

/-! ## Nodes -/

section Faults

variable {α : Type}

def ofFile (r : Except Failure α) : Except SetupFault α := r.mapError .file
def ofStd (r : Except StdException α) : Except SetupFault α := r.mapError .std
def ofNode (r : Except Wire.Fault α) : Except SetupFault α := r.mapError .node

end Faults

/-- A node while its interfaces are added, with the addresses of their sockets. -/
structure Initializing where
  node : NetworkNode := { interfaces := [], routingTable := [] }
  bound : List SockAddr := []

/-- A pass of the loop of `NetworkNode::initialize_`. -/
def addIface (now : TimePoint) (s : Initializing) (ifaceData : ParsedIfaceData) :
    Except SetupFault Initializing := do
  let iface ← makeInterface inetAton openSocket s.bound ifaceData
  let node ← ofNode (s.node.addInterface now iface.data)
  return { node, bound := s.bound ++ [iface.sockAddr] }

/-- `NetworkNode::initialize_`. -/
def initializeNode (data : NetworkNodeData) (now : TimePoint) : Except SetupFault NetworkNode :=
  Initializing.node <$> data.interfaces.foldlM (addIface inetAton openSocket now) {}

/-- The constructor of `RouterNode`. -/
def routerNode (lnxFile : List Char) (now : TimePoint) : Except SetupFault RouterNode := do
  let (nodeData, _) ← ofFile (parseLnx {} lnxFile)
  let n ← initializeNode inetAton openSocket nodeData now
  let ripNeighbors ← nodeData.ripNeighbors.mapM fun ripNeighbor ↦
    ofStd (Ipv4Address.ofString inetAton ripNeighbor)
  return { interfaces := n.interfaces, routingTable := n.routingTable, ripNeighbors }

/-- `addStaticRoute_`.  A destination that `parseCidr` refuses is passed over. -/
def addStaticRoute (n : NetworkNode) (route : RoutingData) (now : TimePoint) :
    Except SetupFault NetworkNode := do
  let gateway ← ofStd (Ipv4Address.ofString inetAton route.nextHop)
  match parseCidr inetAton route.destAddr with
  | .error e => .error (.std e)
  | .ok (.error _) => return n
  | .ok (.ok subnet) =>
      return { n with routingTable := n.routingTable.addStaticRoute subnet gateway now }

/-- The constructor of `HostNode`, up to the TCP stack. -/
def hostNode (lnxFile : List Char) (now : TimePoint) : Except SetupFault NetworkNode := do
  let (nodeData, _) ← ofFile (parseLnx {} lnxFile)
  let n ← initializeNode inetAton openSocket nodeData now
  nodeData.routes.foldlM (fun n route ↦ addStaticRoute inetAton n route now) n

end Constructors

end Tns.Lnx
