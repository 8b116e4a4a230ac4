import Tns.Ip.NextHop

/-!
# Routers

A router is its interfaces, its routing table and the neighbours that it sends
RIP messages to.  A message leaves through the interface that the routing table
resolves its destination to, if that interface is up.
-/

namespace Tns.Ip

open Tns.Library

/-- `NetworkInterface`, with the addresses of the interfaces on its link. -/
structure NetworkInterface where
  name : String
  ipAddress : Ipv4Address
  neighborInterfaces : List Ipv4Address
  isUp : Bool := true

/-- What an `.lnx` file says about an interface. -/
structure InterfaceData where
  name : String
  cidr : Subnet
  neighborIpAddrs : List Ipv4Address

structure Datagram where
  srcAddr : Ipv4Address
  dstAddr : Ipv4Address
  payload : List Byte

/-- What becomes of a payload handed to `sendIp_`. -/
inductive Sent where
  | dropped
  /-- The destination is an address of the router: its own handler gets the datagram. -/
  | toItself (datagram : Datagram)
  /-- The datagram is put on the link of the interface. -/
  | onLink (interface : ℕ) (nextHopAddr : Ipv4Address) (datagram : Datagram)

/-- `sendDatagram`, of the interface at position `i`.  One that is down sends nothing. -/
def NetworkInterface.sendDatagram (iface : NetworkInterface) (i : ℕ) (datagram : Datagram)
    (nextHopAddr : Ipv4Address) : Sent :=
  if iface.isUp ∧ nextHopAddr ∈ iface.neighborInterfaces then .onLink i nextHopAddr datagram
  else .dropped

/-- `RouterNode`. -/
structure RouterNode where
  interfaces : List NetworkInterface
  routingTable : RoutingTable
  ripNeighbors : List Ipv4Address

namespace RouterNode

/-- `NetworkNode::initialize_` and the constructor of `RouterNode`. -/
def ofLnx (interfaces : List InterfaceData) (ripNeighbors : List Ipv4Address)
    (now : TimePoint) : RouterNode where
  interfaces := interfaces.map fun d ↦
    { name := d.name, ipAddress := d.cidr.address, neighborInterfaces := d.neighborIpAddrs }
  routingTable := interfaces.zipIdx.foldl (fun t d ↦ t.addLocalRoute d.1.cidr d.2 now) []
  ripNeighbors := ripNeighbors

theorem routingTable_ofLnx (interfaces : List InterfaceData) (ripNeighbors : List Ipv4Address)
    (now : TimePoint) :
    (ofLnx interfaces ripNeighbors now).routingTable = interfaces.zipIdx.map fun d ↦ {
      type := .local, addr := d.1.cidr.address, mask := d.1.cidr.mask, gateway := none
      interfaceIt := some d.2, metric := some 0, lastRefresh := now } := by
  simp only [ofLnx, RoutingTable.addLocalRoute, RoutingTable.addEntry,
    List.foldl_append_eq_append, List.nil_append, ← List.flatMap_def, ← List.map_eq_flatMap]

/-- A new router has the local routes of its interfaces. -/
theorem mem_routingTable_ofLnx {interfaces : List InterfaceData} {ripNeighbors : List Ipv4Address}
    {now : TimePoint} {e : RoutingTable.Entry} :
    e ∈ (ofLnx interfaces ripNeighbors now).routingTable ↔
      ∃ d i, interfaces[i]? = some d ∧ e = {
        type := .local, addr := d.cidr.address, mask := d.cidr.mask, gateway := none
        interfaceIt := some i, metric := some 0, lastRefresh := now } := by
  simp only [routingTable_ofLnx, List.mem_map, Prod.exists, List.mem_zipIdx_iff_getElem?,
    eq_comm (a := e)]

def findInterface (r : RouterNode) (name : String) : Option ℕ :=
  r.interfaces.findIdx? fun iface ↦ iface.name = name

def isOn (r : RouterNode) (i : ℕ) : Bool := r.interfaces[i]?.any NetworkInterface.isUp

def setUp (r : RouterNode) (i : ℕ) (isUp : Bool) : RouterNode :=
  { r with interfaces := r.interfaces.modify i fun iface ↦ { iface with isUp } }

def turnOn (r : RouterNode) (i : ℕ) : RouterNode := r.setUp i true
def turnOff (r : RouterNode) (i : ℕ) : RouterNode := r.setUp i false

@[simp] theorem routingTable_setUp (r : RouterNode) (i : ℕ) (isUp : Bool) :
    (r.setUp i isUp).routingTable = r.routingTable := rfl

@[simp] theorem ripNeighbors_setUp (r : RouterNode) (i : ℕ) (isUp : Bool) :
    (r.setUp i isUp).ripNeighbors = r.ripNeighbors := rfl

/-! ## Sending -/

def isMyIpAddress (r : RouterNode) (addr : Ipv4Address) : Bool :=
  r.interfaces.any fun iface ↦ iface.ipAddress = addr

/-- The constructor of `Datagram` for sending.  The length of a payload is a `std::uint16_t`, and
`makeIpv4Header` refuses those that leave no room for the header. -/
def makeDatagram (srcAddr dstAddr : Ipv4Address) (payload : List Byte) : Option Datagram :=
  if 65535 - 20 < payload.length % 2 ^ 16 then none else some { srcAddr, dstAddr, payload }

/-- `sendIp_`.  A payload that is refused makes it throw: nothing is sent, and `sendRipMessage_`
catches the exception. -/
def sendIp (r : RouterNode) (destIP : Ipv4Address) (payload : List Byte) : Except Fault Sent :=
  if r.isMyIpAddress destIP then
    match makeDatagram .LOCALHOST destIP payload with
    | none => .ok .dropped
    | some datagram => .ok (.toItself datagram)
  else do
    match ← r.routingTable.queryRoutingTable destIP with
    | .error _ => return .dropped
    | .ok nextHop =>
        match r.interfaces[nextHop.interface]? with
        | none => .error .undefinedBehaviour
        | some outInterface =>
            match makeDatagram outInterface.ipAddress destIP payload with
            | none => return .dropped
            | some datagram =>
                return outInterface.sendDatagram nextHop.interface datagram nextHop.nextHopAddr

def sendRipMessage (r : RouterNode) (ripMessage : RipMessage) (destIP : Ipv4Address) :
    Except Fault Sent :=
  r.sendIp destIP (ripMessage.encode destIP)

def broadcastRipMessage (r : RouterNode) (ripMessage : RipMessage) : Except Fault (List Sent) :=
  r.ripNeighbors.mapM (r.sendRipMessage ripMessage)

/-- `broadcastRipMessage_`, called if the message has entries. -/
def broadcastNonempty (r : RouterNode) (ripMessage : RipMessage) : Except Fault (List Sent) :=
  if ripMessage.entries ≠ [] then r.broadcastRipMessage ripMessage else .ok []

/-! ## Runs -/

/-- `RIP_EXPIRATION_TIME`, 12 seconds. -/
def RIP_EXPIRATION_TIME : TimePoint := 12000000000

/-- A call of the console, a pass of a thread, or a RIP packet that arrives. -/
inductive RouterCall where
  | enableInterface (name : String)
  | disableInterface (name : String)
  | ripThread
  | ripCleanerThread (now : TimePoint)
  | broadcastRequest
  | ripProtocolHandler (payload : List Byte) (srcAddr : Ipv4Address) (now : ℕ → TimePoint)

def enableInterface (r : RouterNode) (name : String) : Except Fault (List Sent × RouterNode) :=
  match r.findInterface name with
  | none => .ok ([], r)
  | some iface =>
      if r.isOn iface then
        .ok ([], r)
      else do
        let r := r.turnOn iface
        let ripResponse ← r.routingTable.enableLocalRoute iface
        let sent ← r.broadcastRipMessage ripResponse
        return (sent, r)

def disableInterface (r : RouterNode) (name : String) : Except Fault (List Sent × RouterNode) :=
  match r.findInterface name with
  | none => .ok ([], r)
  | some iface =>
      if r.isOn iface then do
        let ripResponse ← r.routingTable.disableLocalRoute iface
        let sent ← r.broadcastRipMessage ripResponse
        return (sent, r.turnOff iface)
      else .ok ([], r)

/-- `ripProtocolHandler_`. -/
def ripProtocolHandler (r : RouterNode) (payload : List Byte) (srcAddr : Ipv4Address)
    (now : ℕ → TimePoint) : Except Fault (List Sent × RouterNode) := do
  let ripMessage ← RipMessage.decode payload
  match ripMessage.command with
  | .request =>
      let ripResponse ← r.routingTable.generateRipEntries
      if ripResponse.entries ≠ [] then
        let sent ← r.sendRipMessage ripResponse srcAddr
        return ([sent], r)
      else return ([], r)
  | .response =>
      let (ripResponse, routingTable) :=
        r.routingTable.handleRipEntries ripMessage.entries srcAddr now
      let r := { r with routingTable }
      let sent ← r.broadcastNonempty (← ripResponse)
      return (sent, r)
  | .unknown _ => return ([], r)

def step (r : RouterNode) : RouterCall → Except Fault (List Sent × RouterNode)
  | .enableInterface name => r.enableInterface name
  | .disableInterface name => r.disableInterface name
  | .ripThread => do
      let ripResponse ← r.routingTable.generateRipEntries
      let sent ← r.broadcastNonempty ripResponse
      return (sent, r)
  | .ripCleanerThread now => do
      let (ripResponse, routingTable) :=
        r.routingTable.removeStaleRipEntries RIP_EXPIRATION_TIME now
      let r := { r with routingTable }
      let sent ← r.broadcastNonempty (← ripResponse)
      return (sent, r)
  | .broadcastRequest => do
      let sent ← r.broadcastRipMessage (← RipMessage.makeRequest)
      return (sent, r)
  | .ripProtocolHandler payload srcAddr now => r.ripProtocolHandler payload srcAddr now

abbrev Step := Transition RouterNode RouterCall (List Sent)

/-! ## What a message takes to leave -/

/-- A message to the address leaves through an interface that is up. -/
def Reaches (r : RouterNode) (destIP : Ipv4Address) : Prop :=
  r.isMyIpAddress destIP = false ∧ ∃ nextHop outInterface,
    r.routingTable.queryRoutingTable destIP = .ok (.ok nextHop) ∧
      r.interfaces[nextHop.interface]? = some outInterface ∧ outInterface.isUp ∧
        nextHop.nextHopAddr ∈ outInterface.neighborInterfaces

/-- The length that `sendIp_` passes on leaves room for the header. -/
def Fits (payload : List Byte) : Prop := payload.length % 2 ^ 16 ≤ 65535 - 20

/-- The datagram takes the payload from the router to the address. -/
structure Carries (r : RouterNode) (destIP : Ipv4Address) (payload : List Byte)
    (datagram : Datagram) : Prop where
  payload : datagram.payload = payload
  dstAddr : datagram.dstAddr = destIP
  srcAddr : r.isMyIpAddress datagram.srcAddr

theorem makeDatagram_eq_some {srcAddr dstAddr : Ipv4Address} {payload : List Byte}
    {datagram : Datagram} : makeDatagram srcAddr dstAddr payload = some datagram ↔
      Fits payload ∧ datagram = { srcAddr, dstAddr, payload } := by
  unfold makeDatagram Fits
  split
  · rename_i hlong
    exact iff_of_false nofun fun h ↦ absurd h.1 (not_le.mpr hlong)
  · rename_i hfits
    rw [Option.some.injEq, eq_comm, and_iff_right (not_lt.mp hfits)]

theorem reaches_of_sendIp {r : RouterNode} {destIP nextHopAddr : Ipv4Address}
    {payload : List Byte} {interface : ℕ} {datagram : Datagram}
    (h : r.sendIp destIP payload = .ok (.onLink interface nextHopAddr datagram)) :
    r.Reaches destIP ∧ Fits payload ∧ r.Carries destIP payload datagram := by
  unfold sendIp at h
  split at h
  · split at h <;> cases h
  · rename_i hmine
    rw [Except.bind_eq_ok] at h
    obtain ⟨result, hquery, h⟩ := h
    split at h
    · cases h
    · rename_i nextHop
      split at h
      · cases h
      · rename_i outInterface hinterface
        split at h
        · cases h
        · rename_i datagram' hmake
          obtain ⟨hfits, rfl⟩ := makeDatagram_eq_some.mp hmake
          rw [Except.pure_eq_ok, NetworkInterface.sendDatagram] at h
          split at h
          · rename_i hup
            cases h
            have hsrc : r.isMyIpAddress outInterface.ipAddress :=
              List.any_eq_true.mpr ⟨outInterface, List.mem_of_getElem? hinterface, by simp⟩
            exact ⟨⟨by simpa using hmine, nextHop, outInterface, hquery, hinterface, hup⟩,
              hfits, rfl, rfl, hsrc⟩
          · cases h

theorem sendIp_of_reaches {r : RouterNode} {destIP : Ipv4Address} (h : r.Reaches destIP)
    {payload : List Byte} (hfits : Fits payload) :
    ∃ interface nextHopAddr datagram,
      r.sendIp destIP payload = .ok (.onLink interface nextHopAddr datagram) ∧
        datagram.payload = payload := by
  obtain ⟨hmine, nextHop, outInterface, hquery, hinterface, hup⟩ := h
  refine ⟨nextHop.interface, nextHop.nextHopAddr, ⟨outInterface.ipAddress, destIP, payload⟩, ?_,
    rfl⟩
  rw [sendIp, hmine, if_neg Bool.false_ne_true, hquery, Except.ok_bind]
  simp only [hinterface, makeDatagram_eq_some.mpr ⟨hfits, rfl⟩]
  rw [NetworkInterface.sendDatagram, if_pos hup]
  rfl

theorem of_broadcastRipMessage {r : RouterNode} {ripMessage : RipMessage} {sent : List Sent}
    (h : r.broadcastRipMessage ripMessage = .ok sent) {interface : ℕ} {nextHopAddr : Ipv4Address}
    {datagram : Datagram} (hmem : .onLink interface nextHopAddr datagram ∈ sent) :
    ∃ neighbor ∈ r.ripNeighbors, r.Reaches neighbor ∧ Fits (ripMessage.encode neighbor) ∧
      r.Carries neighbor (ripMessage.encode neighbor) datagram := by
  obtain ⟨neighbor, hneighbor, hsend⟩ := Except.exists_of_mapM h hmem
  exact ⟨neighbor, hneighbor, reaches_of_sendIp hsend⟩

/-- A broadcast gets through to every neighbour that is reached. -/
theorem broadcastRipMessage_of_reaches {r : RouterNode} {ripMessage : RipMessage}
    {sent : List Sent} (h : r.broadcastRipMessage ripMessage = .ok sent) {neighbor : Ipv4Address}
    (hneighbor : neighbor ∈ r.ripNeighbors) (hreaches : r.Reaches neighbor)
    (hfits : Fits (ripMessage.encode neighbor)) :
    ∃ interface nextHopAddr datagram, .onLink interface nextHopAddr datagram ∈ sent ∧
      datagram.payload = ripMessage.encode neighbor := by
  obtain ⟨interface, nextHopAddr, datagram, hsend, hpayload⟩ := sendIp_of_reaches hreaches hfits
  obtain ⟨sent₁, hmem, hsent₁⟩ := Except.exists_mem_of_mapM h hneighbor
  obtain rfl := Except.ok.inj (hsend.symm.trans hsent₁)
  exact ⟨interface, nextHopAddr, datagram, hmem, hpayload⟩

theorem of_broadcastNonempty {r : RouterNode} {ripMessage : RipMessage} {sent : List Sent}
    (h : r.broadcastNonempty ripMessage = .ok sent) {interface : ℕ} {nextHopAddr : Ipv4Address}
    {datagram : Datagram} (hmem : .onLink interface nextHopAddr datagram ∈ sent) :
    ∃ neighbor ∈ r.ripNeighbors, r.Reaches neighbor ∧ Fits (ripMessage.encode neighbor) ∧
      r.Carries neighbor (ripMessage.encode neighbor) datagram := by
  unfold broadcastNonempty at h
  split at h
  · exact of_broadcastRipMessage h hmem
  · cases h
    cases hmem

/-! ## What is advertised -/

/-- The payload advertises the subnet with the cost. -/
def Advertises (payload : List Byte) (s : SubnetKey) (cost : UInt32) : Prop :=
  ∃ entries, RipMessage.advertised payload = .ok entries ∧
    ∃ entry ∈ entries, entry.subnet = s ∧ entry.cost = cost

/-- An advertised subnet is one of the message, with its cost or poisoned. -/
theorem exists_of_advertises {msg : RipMessage} (hmade : msg.Made) {destIP : Ipv4Address}
    {s : SubnetKey} {cost : UInt32} (h : Advertises (msg.encode destIP) s cost) :
    ∃ entry ∈ msg.entries, entry.subnet = s ∧ (cost = entry.cost ∨ cost = INFINITY) := by
  obtain ⟨entries, hentries, entry, hentry, rfl, rfl⟩ := h
  rw [hmade.advertised_encode, Except.ok.injEq] at hentries
  subst hentries
  rw [RipMessage.poisoned, ← List.map_uncurry_zip_eq_zipWith] at hentry
  obtain ⟨⟨e, learnedFrom⟩, hzip, rfl⟩ := List.mem_map.mp hentry
  refine ⟨e, (List.of_mem_zip hzip).1, rfl, ?_⟩
  simp only [Function.uncurry_apply_pair, RipMessage.poison]
  split
  · exact .inr rfl
  · exact .inl rfl

/-! ## The interfaces of a router on two links -/

def if0 : InterfaceData where
  name := "if0"
  cidr := { address := { addr := 0x0a000001 }, maskLength := 24 }
  neighborIpAddrs := [{ addr := 0x0a000002 }]

def if1 : InterfaceData where
  name := "if1"
  cidr := { address := { addr := 0x0a000101 }, maskLength := 24 }
  neighborIpAddrs := [{ addr := 0x0a000102 }]

end RouterNode

end Tns.Ip
