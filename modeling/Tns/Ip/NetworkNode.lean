import Tns.Ip.Datagram
import Tns.Ip.RouterNode

/-!
# Nodes and the datagrams they handle

A node sends a payload in a datagram of its own, and handles the datagrams that
its interfaces receive.  A host keeps those for the address of the interface; a
router keeps those for one of its addresses and forwards the others.
-/

namespace Tns.Ip

/-- What a node has put on the link of an interface, for the neighbour with the address. -/
structure Emission where
  interface : ℕ
  nextHopAddr : Ipv4Address
  bytes : List Byte
  deriving DecidableEq

/-- `NetworkInterface::sendDatagram`, of the interface at position `i`. -/
def Wire.Datagram.send (d : Wire.Datagram) (iface : NetworkInterface) (i : ℕ)
    (nextHopAddr : Ipv4Address) : Option Emission :=
  if iface.isUp ∧ nextHopAddr ∈ iface.neighborInterfaces then
    some { interface := i, nextHopAddr, bytes := d.bytes }
  else none

/-- `NetworkNode`. -/
structure NetworkNode where
  interfaces : List NetworkInterface
  routingTable : RoutingTable

/-- What `sendIp_` does with a payload. -/
inductive Outgoing where
  | unreachable (e : QueryError)
  /-- The protocol handler of the node itself gets the datagram. -/
  | toItself (d : Wire.Datagram)
  /-- `sendDatagram` of an interface is called. -/
  | through (interface : ℕ) (nextHopAddr : Ipv4Address) (d : Wire.Datagram)

namespace NetworkNode

def isMyIpAddress (n : NetworkNode) (addr : Ipv4Address) : Bool :=
  n.interfaces.any fun iface ↦ iface.ipAddress = addr

/-- `*interface` and the next hop of `queryRoutingTable_`. -/
def nextHop (n : NetworkNode) (destIP : Ipv4Address) :
    Except Wire.Fault (Except QueryError (QueryResult × NetworkInterface)) :=
  match n.routingTable.queryRoutingTable destIP with
  | .error _ => .error .undefinedBehaviour
  | .ok (.error e) => .ok (.error e)
  | .ok (.ok hop) =>
      match n.interfaces[hop.interface]? with
      | none => .error .undefinedBehaviour
      | some iface => .ok (.ok (hop, iface))

/-- `sendIp_`, up to the call of `sendDatagram`. -/
def sendIp (n : NetworkNode) (destIP : Ipv4Address) (payload : List Byte) (protocol : Protocol) :
    Except Wire.Fault Outgoing :=
  if n.isMyIpAddress destIP then do
    let d ← Wire.Datagram.make .LOCALHOST destIP payload protocol
    return .toItself d
  else do
    match ← n.nextHop destIP with
    | .error e => return .unreachable e
    | .ok (hop, outInterface) =>
        let d ← Wire.Datagram.make outInterface.ipAddress destIP payload protocol
        return .through hop.interface hop.nextHopAddr d

theorem nextHop_eq_ok {n : NetworkNode} {destIP : Ipv4Address} {hop : QueryResult}
    {iface : NetworkInterface} : n.nextHop destIP = .ok (.ok (hop, iface)) ↔
      n.routingTable.queryRoutingTable destIP = .ok (.ok hop) ∧
        n.interfaces[hop.interface]? = some iface := by
  unfold nextHop
  split
  · rename_i hquery
    exact iff_of_false nofun fun h ↦ by cases hquery.symm.trans h.1
  · rename_i hquery
    exact iff_of_false nofun fun h ↦ by cases hquery.symm.trans h.1
  · rename_i hop' hquery
    rw [hquery, Except.ok.injEq, Except.ok.injEq]
    split
    · rename_i hnone
      refine iff_of_false nofun ?_
      rintro ⟨rfl, hsome⟩
      cases hnone.symm.trans hsome
    · rename_i iface' hsome
      rw [Except.ok.injEq, Except.ok.injEq, Prod.mk.injEq]
      apply and_congr_right
      rintro rfl
      rw [hsome, Option.some.injEq]

/-- A payload for a reachable address leaves with the address of the interface. -/
theorem sendIp_of_nextHop {n : NetworkNode} {destIP : Ipv4Address} {hop : QueryResult}
    {iface : NetworkInterface} (hmine : n.isMyIpAddress destIP = false)
    (hnext : n.nextHop destIP = .ok (.ok (hop, iface))) (payload : List Byte)
    (protocol : Protocol) : n.sendIp destIP payload protocol = do
      let d ← Wire.Datagram.make iface.ipAddress destIP payload protocol
      return .through hop.interface hop.nextHopAddr d := by
  rw [sendIp, hmine, if_neg Bool.false_ne_true, hnext, Except.ok_bind]

end NetworkNode

/-- What `datagramHandler_` does with a datagram. -/
inductive Handled where
  /-- The handler of its protocol gets it. -/
  | delivered (d : Wire.Datagram)
  | forwarded (emission : Emission)
  | discarded

/-- `HostNode::datagramHandler_`. -/
def NetworkNode.hostHandler (_ : NetworkNode) (d : Wire.Datagram) (infaceAddr : Ipv4Address) :
    Except Wire.Fault Handled :=
  if infaceAddr = d.getDstAddr then .ok (.delivered d) else .ok .discarded

namespace RouterNode

def toNetworkNode (r : RouterNode) : NetworkNode where
  interfaces := r.interfaces
  routingTable := r.routingTable

/-- `forwardDatagram_`. -/
def forwardDatagram (r : RouterNode) (d : Wire.Datagram) : Except Wire.Fault Handled := do
  match ← r.toNetworkNode.nextHop d.getDstAddr with
  | .error _ => return .discarded
  | .ok (hop, outInterface) =>
      match d.send outInterface hop.interface hop.nextHopAddr with
      | none => return .discarded
      | some emission => return .forwarded emission

/-- `RouterNode::datagramHandler_`. -/
def datagramHandler (r : RouterNode) (d : Wire.Datagram) : Except Wire.Fault Handled :=
  if r.isMyIpAddress d.getDstAddr then .ok (.delivered d)
  else r.forwardDatagram d.updateChecksum

theorem bytes_of_send {d : Wire.Datagram} {iface : NetworkInterface} {i : ℕ}
    {nextHopAddr : Ipv4Address} {emission : Emission}
    (h : d.send iface i nextHopAddr = some emission) : emission.bytes = d.bytes := by
  unfold Wire.Datagram.send at h
  split at h
  · obtain rfl := Option.some.inj h
    rfl
  · cases h

/-- A router forwards what is for none of its addresses, with the checksum updated. -/
theorem of_forwarded {r : RouterNode} {d : Wire.Datagram} {emission : Emission}
    (h : r.datagramHandler d = .ok (.forwarded emission)) :
    r.isMyIpAddress d.getDstAddr = false ∧ emission.bytes = d.updateChecksum.bytes := by
  unfold datagramHandler at h
  split at h
  · cases h
  · rename_i hmine
    refine ⟨Bool.eq_false_iff.mpr hmine, ?_⟩
    unfold forwardDatagram at h
    rw [Except.bind_eq_ok] at h
    obtain ⟨hop, -, h⟩ := h
    split at h
    · cases h
    · split at h
      · cases h
      · rename_i emission' hsend
        obtain rfl : emission' = emission := by simpa using h
        exact bytes_of_send hsend

/-! ## What the routers of the routing protocol send -/

/-- The datagram shows the addresses and the payload of the one on the link. -/
structure Shows (datagram : Datagram) (d : Wire.Datagram) : Prop where
  srcAddr : datagram.srcAddr.addr = d.getSrcAddr.addr
  dstAddr : datagram.dstAddr.addr = d.getDstAddr.addr
  payload : datagram.payload = d.payload

theorem shows_of_make {srcAddr dstAddr : Ipv4Address} {payload : List Byte}
    {datagram : Datagram} (h : makeDatagram srcAddr dstAddr payload = some datagram)
    (protocol : Protocol) :
    ∃ d, Wire.Datagram.make srcAddr dstAddr payload protocol = .ok d ∧ Shows datagram d := by
  obtain ⟨hfits, rfl⟩ := makeDatagram_eq_some.mp h
  rcases Wire.Datagram.make_cases srcAddr dstAddr payload protocol with
    ⟨hlong, -⟩ | ⟨-, d, hmake, hmade⟩
  · exact absurd hfits (not_le.mpr hlong)
  · exact ⟨d, hmake, hmade.saddr.symm, hmade.daddr.symm, hmade.payload.symm⟩

/-- What a router puts on a link for `sendIp_` is a datagram of its own on that link. -/
theorem exists_through_of_sendIp {r : RouterNode} {destIP nextHopAddr : Ipv4Address}
    {payload : List Byte} {interface : ℕ} {datagram : Datagram}
    (h : r.sendIp destIP payload = .ok (.onLink interface nextHopAddr datagram)) :
    ∃ d iface, r.toNetworkNode.sendIp destIP payload .RIP =
        .ok (.through interface nextHopAddr d) ∧ r.interfaces[interface]? = some iface ∧
      d.send iface interface nextHopAddr =
        some { interface, nextHopAddr, bytes := d.bytes } ∧ Shows datagram d := by
  unfold sendIp at h
  split at h
  · split at h <;> cases h
  · rename_i hmine
    rw [Except.bind_eq_ok] at h
    obtain ⟨result, hquery, h⟩ := h
    split at h
    · cases h
    · rename_i nextHop
      split at h
      · cases h
      · rename_i outInterface hinterface
        split at h
        · cases h
        · rename_i datagram' hmake
          rw [Except.pure_eq_ok, NetworkInterface.sendDatagram] at h
          split at h
          · rename_i hup
            cases h
            obtain ⟨d, hd, hshows⟩ := shows_of_make hmake .RIP
            refine ⟨d, outInterface, ?_, hinterface, if_pos hup, hshows⟩
            have hnext : r.toNetworkNode.nextHop destIP = .ok (.ok (nextHop, outInterface)) :=
              NetworkNode.nextHop_eq_ok.mpr ⟨hquery, hinterface⟩
            have hmine' : r.toNetworkNode.isMyIpAddress destIP = false :=
              Bool.eq_false_iff.mpr hmine
            rw [NetworkNode.sendIp_of_nextHop hmine' hnext, hd, Except.ok_bind]
            rfl
          · cases h

end RouterNode

end Tns.Ip
