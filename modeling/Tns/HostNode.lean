import Tns.Ip.NetworkNode
import Tns.Tcp.Listener
import Tns.Tcp.Segment

/-!
# Hosts

A host runs a TCP stack over its interfaces.  `tcpConnect` takes the address of
the first interface for the local one of the session, and with it the checksums
of the session are computed; the address that a datagram leaves with is that of
the interface on its route.
-/

namespace Tns

open Library Tcp

/-- An address of a session as the argument of `sendIp_`. -/
def Tcp.Ipv4Address.toIp (a : Tcp.Ipv4Address) : Ip.Ipv4Address where
  addr := a.addr
  port := a.port

/-- The session as the peer has it. -/
def Tcp.SessionTuple.swap (tuple : SessionTuple) : SessionTuple where
  «local» := tuple.remote
  remote := tuple.local

/-- The front of `TcpStack::tcpProtocolHandler`: the session that a socket is looked up by, and
the packet that its handler gets. -/
def Tcp.Wire.receive (datagram : Ip.Wire.Datagram) : Except String (SessionTuple × Tcp.Packet) := do
  let packet ← Wire.Packet.makePacketFromPayload datagram.getSrcAddr.addr
    datagram.getDstAddr.addr datagram.payload
  let sess : SessionTuple := {
    «local» := { addr := datagram.getDstAddr.addr, port := packet.getDstPortHost }
    remote := { addr := datagram.getSrcAddr.addr, port := packet.getSrcPortHost } }
  return (sess, packet.toTcpPacket)

/-- `TcpStack::vConnect`, with the port that `generatePortNumber_` draws. -/
def Tcp.TcpStack.vConnect {M N : ℕ} (s : TcpStack M N) (localIP : Ip.Ipv4Address)
    (remote : Tcp.Ipv4Address) (port : UInt16) (sendBuf : Vector Byte M) (recvBuf : Vector Byte N)
    (isn : UInt32) (now : TimePoint) :
    Exec (Except SocketError SocketRef × List Action × TcpStack M N) :=
  s.createActiveConnection { «local» := { addr := localIP.addr, port }, remote } sendBuf recvBuf isn
    now

/-! ## Nodes -/

namespace Ip.NetworkNode

/-- The body of the loop of `NetworkNode::initialize_`. -/
def addInterface (now : Ip.TimePoint) (n : NetworkNode) (data : InterfaceData) :
    Except Ip.Wire.Fault NetworkNode :=
  if n.isMyIpAddress data.cidr.address then
    .error (.runtimeError
      ("NetworkNode::NetworkNode(): Found duplicate interface IP address: " ++
        data.cidr.address.toStringAddr ++ "/" ++ toString data.cidr.maskLength))
  else if n.interfaces.any (·.name = data.name) then
    .error (.runtimeError
      ("NetworkNode::NetworkNode(): Found duplicate interface name: " ++ data.name))
  else .ok {
    interfaces := n.interfaces ++ [{
      name := data.name, ipAddress := data.cidr.address
      neighborInterfaces := data.neighborIpAddrs }]
    routingTable := n.routingTable.addLocalRoute data.cidr n.interfaces.length now }

/-- `NetworkNode::initialize_`. -/
def ofLnx (interfaces : List InterfaceData) (now : Ip.TimePoint) :
    Except Ip.Wire.Fault NetworkNode :=
  interfaces.foldlM (addInterface now) { interfaces := [], routingTable := [] }

/-- `enableInterface` and `disableInterface`, which go on with the end of the interfaces if there
is none of the name.  The message that the routing table makes is discarded. -/
def setInterface (n : NetworkNode) (name : String) (isUp : Bool) :
    Except Ip.Wire.Fault NetworkNode :=
  match n.interfaces.findIdx? fun iface ↦ iface.name = name with
  | none => .error .undefinedBehaviour
  | some i => .ok { n with interfaces := n.interfaces.modify i fun iface ↦ { iface with isUp } }

def enableInterface (n : NetworkNode) (name : String) : Except Ip.Wire.Fault NetworkNode :=
  n.setInterface name true

def disableInterface (n : NetworkNode) (name : String) : Except Ip.Wire.Fault NetworkNode :=
  n.setInterface name false

end Ip.NetworkNode

/-- `HostNode`. -/
structure HostNode (M N : ℕ) extends Ip.NetworkNode where
  tcpStack : TcpStack M N := {}

/-- What happens at a host after a connection was made: a call of the console, or a segment that
a socket sends. -/
inductive HostCall where
  | enableInterface (name : String)
  | disableInterface (name : String)
  | sendPacket (tuple : SessionTuple) (packet : Tcp.Packet)

namespace HostNode

variable {M N : ℕ}

/-- The constructor, for the data of an `.lnx` file. -/
def ofLnx (M N : ℕ) (interfaces : List Ip.InterfaceData)
    (routes : List (Ip.Subnet × Ip.Ipv4Address)) (now : Ip.TimePoint) :
    Except Ip.Wire.Fault (HostNode M N) := do
  let n ← Ip.NetworkNode.ofLnx interfaces now
  return { n with
    routingTable := routes.foldl (fun t route ↦ t.addStaticRoute route.1 route.2 now)
      n.routingTable }

/-- `tcpConnect`, up to the wait for the SYN-ACK. -/
def tcpConnect (h : HostNode M N) (remoteIP : Ip.Ipv4Address) (remotePort port : UInt16)
    (sendBuf : Vector Byte M) (recvBuf : Vector Byte N) (isn : UInt32) (now : TimePoint) :
    Exec (Except SocketError SocketRef × List Action × HostNode M N) :=
  match h.interfaces with
  | [] => .error .undefinedBehaviour
  | first :: _ => do
      let (result, actions, tcpStack) ← h.tcpStack.vConnect first.ipAddress
        { addr := remoteIP.addr, port := remotePort } port sendBuf recvBuf isn now
      return (result, actions, { h with tcpStack })

end HostNode

namespace Ip.NetworkNode

/-- `TcpStack::sendPacket`, with the callback that the constructor of `HostNode` registers. -/
def sendPacket (n : NetworkNode) (tuple : SessionTuple) (packet : Tcp.Packet) :
    Except Ip.Wire.Fault Outgoing :=
  n.sendIp tuple.remote.toIp (Tcp.Wire.Packet.ofTcpPacket tuple packet).serialize .TCP

def hostStep (n : NetworkNode) : HostCall → Except Ip.Wire.Fault (Option Outgoing × NetworkNode)
  | .enableInterface name => do
      let n ← n.enableInterface name
      return (none, n)
  | .disableInterface name => do
      let n ← n.disableInterface name
      return (none, n)
  | .sendPacket tuple packet => do
      let out ← n.sendPacket tuple packet
      return (some out, n)

abbrev HostStep := Transition NetworkNode HostCall (Option Outgoing)

end Ip.NetworkNode

/-! ## The addresses of a datagram -/

/-- The datagram that `sendIp_` makes. -/
def Ip.Outgoing.datagram : Ip.Outgoing → Option Ip.Wire.Datagram
  | .unreachable _ => none
  | .toItself d => some d
  | .through _ _ d => some d

/-- The datagram of a segment has the local address of the session for its source; the peer
accepts the segment under its session, and what the peer sends under that session comes back to
the session. -/
structure Tcp.SessionTuple.Agrees (tuple : SessionTuple) (packet : Tcp.Packet)
    (d : Ip.Wire.Datagram) : Prop where
  srcAddr : d.getSrcAddr.addr = tuple.local.addr
  arrives : Wire.receive d = .ok (tuple.swap, packet)
  replies : ∀ (reply : Tcp.Packet) (d' : Ip.Wire.Datagram),
    d'.getSrcAddr = d.getDstAddr → d'.getDstAddr = d.getSrcAddr →
    d'.payload = (Wire.Packet.ofTcpPacket tuple.swap reply).serialize →
    Wire.receive d' = .ok (tuple, reply)

/-- A segment between the addresses of its session is accepted. -/
theorem Tcp.Wire.receive_eq (tuple : SessionTuple) {packet : Tcp.Packet} {d : Ip.Wire.Datagram}
    (hsrc : d.getSrcAddr.addr = tuple.local.addr) (hdst : d.getDstAddr.addr = tuple.remote.addr)
    (hpayload : d.payload = (Packet.ofTcpPacket tuple packet).serialize) :
    receive d = .ok (tuple.swap, packet) := by
  obtain ⟨received, hmake, hpacket, hsport, hdport⟩ :=
    Packet.makePacketFromPayload_ofTcpPacket tuple packet
  rw [receive, hsrc, hdst, hpayload, hmake, Except.ok_bind, hpacket, hsport, hdport]
  rfl

theorem Tcp.SessionTuple.agrees_of_srcAddr {tuple : SessionTuple} {packet : Tcp.Packet}
    {d : Ip.Wire.Datagram} (hsrc : d.getSrcAddr.addr = tuple.local.addr)
    (hdst : d.getDstAddr.addr = tuple.remote.addr)
    (hpayload : d.payload = (Wire.Packet.ofTcpPacket tuple packet).serialize) :
    tuple.Agrees packet d where
  srcAddr := hsrc
  arrives := Wire.receive_eq tuple hsrc hdst hpayload
  replies := by
    intro reply d' hsrc' hdst' hpayload'
    apply Wire.receive_eq tuple.swap
    · rw [hsrc']
      exact hdst
    · rw [hdst']
      exact hsrc
    · exact hpayload'

/-! ## The route of a datagram -/

namespace Ip.NetworkNode

variable {n n' : NetworkNode}

theorem of_sendIp {destIP : Ip.Ipv4Address} {payload : List Byte} {protocol : Protocol}
    {out : Outgoing} {d : Ip.Wire.Datagram} (h : n.sendIp destIP payload protocol = .ok out)
    (hd : out.datagram = some d) :
    d.getDstAddr.addr = destIP.addr ∧ d.payload = payload ∧
      (n.isMyIpAddress destIP = true ∧ d.getSrcAddr.addr = Ip.Ipv4Address.LOCALHOST.addr ∨
        n.isMyIpAddress destIP = false ∧ ∃ hop iface,
          n.nextHop destIP = .ok (.ok (hop, iface)) ∧
            d.getSrcAddr.addr = iface.ipAddress.addr) := by
  unfold sendIp at h
  split at h
  · rename_i hmine
    rw [Except.bind_eq_ok] at h
    obtain ⟨d', hmake, h⟩ := h
    obtain rfl := Except.pure_eq_ok.mp h
    obtain rfl := Option.some.inj hd
    have hmade := Wire.Datagram.made_of_make hmake
    exact ⟨hmade.daddr, hmade.payload, .inl ⟨hmine, hmade.saddr⟩⟩
  · rename_i hmine
    rw [Except.bind_eq_ok] at h
    obtain ⟨route, hroute, h⟩ := h
    split at h
    · obtain rfl := Except.pure_eq_ok.mp h
      cases hd
    · rename_i hop iface
      rw [Except.bind_eq_ok] at h
      obtain ⟨d', hmake, h⟩ := h
      obtain rfl := Except.pure_eq_ok.mp h
      obtain rfl := Option.some.inj hd
      have hmade := Wire.Datagram.made_of_make hmake
      exact ⟨hmade.daddr, hmade.payload,
        .inr ⟨Bool.eq_false_iff.mpr hmine, hop, iface, hroute, hmade.saddr⟩⟩

/-- A payload that leaves room for the header gets a datagram. -/
theorem exists_datagram_of_sendIp {destIP : Ip.Ipv4Address} {hop : QueryResult}
    {iface : NetworkInterface} (hroute : n.nextHop destIP = .ok (.ok (hop, iface)))
    {payload : List Byte} (hfits : payload.length ≤ 65535 - 20) (protocol : Protocol) :
    ∃ out d, n.sendIp destIP payload protocol = .ok out ∧ out.datagram = some d := by
  have hmod : payload.length % 2 ^ 16 ≤ 65535 - 20 := (Nat.mod_le _ _).trans hfits
  have hmake : ∀ srcAddr, ∃ d, Wire.Datagram.make srcAddr destIP payload protocol = .ok d := by
    intro srcAddr
    rcases Wire.Datagram.make_cases srcAddr destIP payload protocol with
      ⟨hlong, -⟩ | ⟨-, d, hmake, -⟩
    · exact absurd hmod (not_le.mpr hlong)
    · exact ⟨d, hmake⟩
  by_cases hmine : n.isMyIpAddress destIP = true
  · obtain ⟨d, hd⟩ := hmake .LOCALHOST
    refine ⟨.toItself d, d, ?_, rfl⟩
    rw [sendIp, if_pos hmine, hd]
    rfl
  · obtain ⟨d, hd⟩ := hmake iface.ipAddress
    refine ⟨.through hop.interface hop.nextHopAddr d, d, ?_, rfl⟩
    rw [sendIp_of_nextHop (Bool.eq_false_iff.mpr hmine) hroute, hd]
    rfl

/-- The nodes have the same routing table and the same addresses. -/
structure SameRoutes (n n' : NetworkNode) : Prop where
  routingTable : n'.routingTable = n.routingTable
  addresses : n'.interfaces.map NetworkInterface.ipAddress =
    n.interfaces.map NetworkInterface.ipAddress

theorem SameRoutes.isMyIpAddress (h : SameRoutes n n') (addr : Ip.Ipv4Address) :
    n'.isMyIpAddress addr = n.isMyIpAddress addr := by
  have hany : ∀ n : NetworkNode, n.isMyIpAddress addr =
      (n.interfaces.map NetworkInterface.ipAddress).any (decide <| · = addr) := by
    intro n
    rw [List.any_map]
    rfl
  rw [hany, hany, h.addresses]

/-- A datagram for the address leaves both nodes with the same address. -/
theorem SameRoutes.ipAddress_eq (h : SameRoutes n n') {destIP : Ip.Ipv4Address}
    {hop hop' : QueryResult} {iface iface' : NetworkInterface}
    (hroute : n.nextHop destIP = .ok (.ok (hop, iface)))
    (hroute' : n'.nextHop destIP = .ok (.ok (hop', iface'))) :
    iface'.ipAddress = iface.ipAddress := by
  obtain ⟨hquery, hiface⟩ := nextHop_eq_ok.mp hroute
  obtain ⟨hquery', hiface'⟩ := nextHop_eq_ok.mp hroute'
  rw [h.routingTable, hquery, Except.ok.injEq, Except.ok.injEq] at hquery'
  subst hquery'
  have haddress := congrArg (·[hop.interface]?) h.addresses
  simpa only [List.getElem?_map, hiface, hiface', Option.map_some, Option.some.injEq]
    using haddress

/-- No call takes a route or an address away from a host. -/
theorem sameRoutes_setInterface {name : String} {isUp : Bool}
    (h : n.setInterface name isUp = .ok n') : SameRoutes n n' := by
  unfold setInterface at h
  split at h
  · cases h
  · obtain rfl := Except.ok.inj h
    refine ⟨rfl, ?_⟩
    apply List.ext_getElem?
    intro j
    rw [List.getElem?_map, List.getElem?_modify, List.getElem?_map]
    cases n.interfaces[j]? with
    | none => rfl
    | some iface =>
        simp only [Option.map_eq_map, Option.map_some]
        split <;> rfl

theorem sameRoutes_hostStep {t : HostStep} (h : Fires hostStep t) : SameRoutes t.pre t.post := by
  obtain ⟨n, call, out, n'⟩ := t
  cases call with
  | enableInterface name =>
      obtain ⟨n₁, hset, hpure⟩ := Except.bind_eq_ok.mp h
      obtain ⟨-, rfl⟩ := Prod.mk.inj (Except.pure_eq_ok.mp hpure)
      exact sameRoutes_setInterface hset
  | disableInterface name =>
      obtain ⟨n₁, hset, hpure⟩ := Except.bind_eq_ok.mp h
      obtain ⟨-, rfl⟩ := Prod.mk.inj (Except.pure_eq_ok.mp hpure)
      exact sameRoutes_setInterface hset
  | sendPacket tuple packet =>
      obtain ⟨out', -, hpure⟩ := Except.bind_eq_ok.mp h
      obtain rfl : n = n' := (Prod.mk.inj (Except.pure_eq_ok.mp hpure)).2
      exact ⟨rfl, rfl⟩

theorem sameRoutes_of_run {tr : List HostStep} (hrun : Trace hostStep n tr n') :
    ∀ t ∈ tr, SameRoutes n t.pre := by
  have hkeep : ∀ t : HostStep, Fires hostStep t → SameRoutes n t.pre → True →
      SameRoutes n t.post := by
    intro t hfires hpre _
    have hstep := sameRoutes_hostStep hfires
    exact ⟨hstep.routingTable.trans hpre.routingTable, hstep.addresses.trans hpre.addresses⟩
  intro t ht
  exact ((hrun.invariant hkeep ⟨rfl, rfl⟩ fun _ _ ↦ trivial).2 t ht).1

end Ip.NetworkNode

/-- A new socket has the tuple that it was made for. -/
theorem Tcp.TcpStack.tuple_of_createActiveConnection {M N : ℕ} {s s' : TcpStack M N}
    {tuple : SessionTuple} {sendBuf : Vector Byte M} {recvBuf : Vector Byte N} {isn : UInt32}
    {now : TimePoint} {ref : SocketRef} {actions : List Action} {e : TableSocket M N}
    (hcreate : s.createActiveConnection tuple sendBuf recvBuf isn now = .ok (.ok ref, actions, s'))
    (hsock : s'.normalSocket ref = .ok e) : e.tuple = tuple := by
  simp only [createActiveConnection, createNormalSocket, Exec.bind_eq_ok, Prod.exists] at hcreate
  obtain ⟨result, s₁, hnew, hcreate⟩ := hcreate
  cases result with
  | error error => simp at hcreate
  | ok ref' =>
      simp only [Exec.bind_eq_ok, Exec.pure_eq_ok, Prod.exists, Prod.mk.injEq,
        Except.ok.injEq] at hcreate
      obtain ⟨e₁, hsock₁, actions', sock, -, rfl, -, rfl⟩ := hcreate
      obtain ⟨hlookup₁, href₁⟩ := normalSocket_eq_ok.mp hsock₁
      obtain ⟨-, -, hnew'⟩ := lookup_of_createSocket hnew
      rw [hnew', if_pos rfl, Option.some.injEq] at hlookup₁
      obtain ⟨hlookup, -⟩ := normalSocket_eq_ok.mp hsock
      subst href₁
      have hset := (lookup_setSocket (s := s₁) (.normal { e₁ with sock }) e₁.ref.id).trans
        (if_pos rfl)
      obtain rfl : { e₁ with sock } = e :=
        Socket.normal.inj (Option.some.inj (hset.symm.trans hlookup))
      exact (congrArg TableSocket.tuple (Socket.normal.inj hlookup₁)).symm

theorem Tcp.TcpStack.of_createSocket_error {M N : ℕ} {s s' : TcpStack M N} {new : NewSocket M N}
    {error : SocketError} (h : s.createSocket new = .ok (.error error, s')) :
    (s.find new.key).isSome ∨ ¬s.freeSocketIDs.Nonempty := by
  unfold createSocket at h
  split at h
  · rename_i hkey
    exact .inl hkey
  · split at h
    · rename_i e s₁ hnext
      unfold getNextSocketId at hnext
      split at hnext
      · cases hnext
      · rename_i hempty
        exact .inr hempty
    · simp only [Exec.bind_eq_ok, Exec.pure_eq_ok, Prod.exists, Prod.mk.injEq] at h
      obtain ⟨_, _, -, hr, -⟩ := h
      cases hr

/-- A new session gets a socket as long as an id is free. -/
theorem Tcp.TcpStack.exists_createActiveConnection {M N : ℕ} {s : TcpStack M N}
    (hs : Consistent ∅ s) (hfree : s.freeSocketIDs.Nonempty) {tuple : SessionTuple}
    (hnew : s.find (.normal tuple) = none) (sendBuf : Vector Byte M) (recvBuf : Vector Byte N)
    (isn : UInt32) (now : TimePoint) :
    ∃ ref actions s' e, s.createActiveConnection tuple sendBuf recvBuf isn now =
      .ok (.ok ref, actions, s') ∧ s'.normalSocket ref = .ok e := by
  obtain ⟨r, s₁, hcreate, -, hlookup⟩ :=
    hs.createSocket (.normal tuple (.createNormalSocket sendBuf recvBuf isn))
  simp only [createActiveConnection, createNormalSocket, hcreate, Exec.ok_bind]
  cases r with
  | error error =>
      rcases of_createSocket_error hcreate with hsome | hempty
      · rw [NewSocket.key, hnew] at hsome
        cases hsome
      · exact absurd hfree hempty
  | ok ref =>
      have hsock := normalSocket_eq_ok.mpr ⟨hlookup ref rfl, rfl⟩
      obtain ⟨actions, sock, hsyn⟩ : ∃ actions sock,
          (NormalSocket.createNormalSocket sendBuf recvBuf isn).createActiveConnection now =
            .ok (actions, sock) := ⟨_, _, rfl⟩
      simp only [hsock, Exec.ok_bind, hsyn]
      refine ⟨ref, actions, s₁.setSocket (.normal ⟨ref, tuple, sock⟩), ⟨ref, tuple, sock⟩, rfl, ?_⟩
      rw [normalSocket_eq_ok]
      exact ⟨(lookup_setSocket _ _).trans (if_pos rfl), rfl⟩

namespace Ip.NetworkNode

/-- Every segment of the session agrees with its datagram, in every run of the host. -/
def SegmentsAgree (n : NetworkNode) (tuple : SessionTuple) : Prop :=
  ∀ (tr : List HostStep) (n' : NetworkNode), Trace hostStep n tr n' →
    ∀ t ∈ tr, ∀ (packet : Tcp.Packet) (out : Outgoing),
      t.label = .sendPacket tuple packet → t.out = some out →
      ∀ d, out.datagram = some d → tuple.Agrees packet d

/-- It takes the interface on the route to have the local address of the session. -/
theorem segmentsAgree_iff_of_nextHop {n : NetworkNode} {tuple : SessionTuple} {hop : QueryResult}
    {iface : NetworkInterface} (hroute : n.nextHop tuple.remote.toIp = .ok (.ok (hop, iface))) :
    n.SegmentsAgree tuple ↔
      if n.isMyIpAddress tuple.remote.toIp then
        tuple.local.addr = Ip.Ipv4Address.LOCALHOST.addr
      else iface.ipAddress.addr = tuple.local.addr := by
  constructor
  · intro hagree
    let packet := Tcp.Packet.makeSynPacket 0 0
    have hlen : (Tcp.Wire.Packet.ofTcpPacket tuple packet).serialize.length = 20 := rfl
    obtain ⟨out, d, hsend, hd⟩ := exists_datagram_of_sendIp hroute (hlen.le.trans (by decide)) .TCP
    have hstep : hostStep n (.sendPacket tuple packet) = .ok (some out, n) :=
      Except.bind_eq_ok.mpr ⟨out, hsend, rfl⟩
    have hrun : Trace hostStep n [⟨n, _, _, n⟩] n := .cons hstep (.nil n)
    have hsrc := (hagree _ _ hrun _ List.mem_cons_self packet out rfl rfl d hd).srcAddr
    obtain ⟨-, -, ⟨hmine, hlocal⟩ | ⟨hmine, hop', iface', hroute', hiface⟩⟩ := of_sendIp hsend hd
    · rw [if_pos hmine]
      exact hsrc.symm.trans hlocal
    · rw [hroute, Except.ok.injEq, Except.ok.injEq, Prod.mk.injEq] at hroute'
      obtain ⟨rfl, rfl⟩ := hroute'
      rw [if_neg (Bool.eq_false_iff.mp hmine)]
      exact hiface.symm.trans hsrc
  · intro hcond tr n' hrun t ht packet out hlabel hout d hd
    have hsame := sameRoutes_of_run hrun t ht
    have hfires := hrun.fires t ht
    rw [Fires, hlabel, hout] at hfires
    obtain ⟨out', hsend, hpure⟩ := Except.bind_eq_ok.mp hfires
    obtain rfl : out' = out := Option.some.inj (Prod.mk.inj (Except.pure_eq_ok.mp hpure)).1
    obtain ⟨hdst, hpayload, hsource⟩ := of_sendIp hsend hd
    refine SessionTuple.agrees_of_srcAddr ?_ hdst hpayload
    rcases hsource with ⟨hmine, hlocal⟩ | ⟨hmine, hop', iface', hroute', hiface⟩
    · rw [hsame.isMyIpAddress] at hmine
      rw [if_pos hmine] at hcond
      exact hlocal.trans hcond.symm
    · rw [hsame.isMyIpAddress] at hmine
      rw [if_neg (Bool.eq_false_iff.mp hmine)] at hcond
      rw [hiface, hsame.ipAddress_eq hroute hroute']
      exact hcond

end Ip.NetworkNode

namespace HostNode

variable {M N : ℕ} {h h₁ : HostNode M N} {remoteIP : Ip.Ipv4Address} {remotePort port : UInt16}
  {sendBuf : Vector Byte M} {recvBuf : Vector Byte N} {isn : UInt32} {now : TimePoint}
  {ref : SocketRef} {actions : List Action} {e : TableSocket M N}
  {first : Ip.NetworkInterface}

/-- The session of the socket that `tcpConnect` makes. -/
theorem of_tcpConnect
    (hconnect : h.tcpConnect remoteIP remotePort port sendBuf recvBuf isn now =
      .ok (.ok ref, actions, h₁))
    (hsock : h₁.tcpStack.normalSocket ref = .ok e) (hfirst : h.interfaces.head? = some first) :
    h₁.toNetworkNode = h.toNetworkNode ∧ e.tuple = {
      «local» := { addr := first.ipAddress.addr, port }
      remote := { addr := remoteIP.addr, port := remotePort } } := by
  unfold tcpConnect at hconnect
  split at hconnect
  · cases hconnect
  · rename_i first' rest hinterfaces
    rw [hinterfaces, List.head?_cons, Option.some.injEq] at hfirst
    subst hfirst
    rw [Exec.bind_eq_ok] at hconnect
    obtain ⟨⟨result, actions', tcpStack⟩, hvConnect, hpure⟩ := hconnect
    obtain ⟨rfl, -, rfl⟩ : result = .ok ref ∧ actions' = actions ∧
        { h with tcpStack } = h₁ := by simpa using hpure
    exact ⟨rfl, TcpStack.tuple_of_createActiveConnection hvConnect hsock⟩

/-- The segments of a connection agree with their datagrams, if and only if the interface on the
route to the remote address has the address of the first interface.  For a remote address that is
the host's own, the first interface has to have the address that `sendIp_` then takes. -/
theorem segmentsAgree_iff
    (hconnect : h.tcpConnect remoteIP remotePort port sendBuf recvBuf isn now =
      .ok (.ok ref, actions, h₁))
    (hsock : h₁.tcpStack.normalSocket ref = .ok e) (hfirst : h.interfaces.head? = some first)
    {hop : Ip.QueryResult} {iface : Ip.NetworkInterface}
    (hroute : h.nextHop { addr := remoteIP.addr, port := remotePort } = .ok (.ok (hop, iface))) :
    h₁.SegmentsAgree e.tuple ↔
      if h.isMyIpAddress { addr := remoteIP.addr, port := remotePort } then
        first.ipAddress.addr = Ip.Ipv4Address.LOCALHOST.addr
      else iface.ipAddress.addr = first.ipAddress.addr := by
  obtain ⟨hnode, htuple⟩ := of_tcpConnect hconnect hsock hfirst
  rw [hnode, htuple]
  exact Ip.NetworkNode.segmentsAgree_iff_of_nextHop hroute

def if0 : Ip.NetworkInterface where
  name := "if0"
  ipAddress := { addr := 0x0a000001 }
  neighborInterfaces := [{ addr := 0x0a000002 }]

def if1 : Ip.NetworkInterface where
  name := "if1"
  ipAddress := { addr := 0x0a000101 }
  neighborInterfaces := [{ addr := 0x0a000102 }]

/-- A host on two links with a default route. -/
def twoLinks (gateway : Ip.Ipv4Address) : HostNode 1 1 where
  interfaces := [if0, if1]
  routingTable := [
    ⟨.local, { addr := 0x0a000001 }, 0xffffff00, none, some 0, some 0, 0⟩,
    ⟨.local, { addr := 0x0a000101 }, 0xffffff00, none, some 1, some 0, 0⟩,
    ⟨.static, { addr := 0 }, 0, some gateway, none, none, 0⟩]

theorem ofLnx_twoLinks (gateway : Ip.Ipv4Address) :
    ofLnx 1 1 [Ip.RouterNode.if0, Ip.RouterNode.if1] [(⟨{ addr := 0 }, 0⟩, gateway)] 0 =
      .ok (twoLinks gateway) := rfl

theorem exists_tcpConnect_twoLinks (gateway remoteIP : Ip.Ipv4Address)
    (remotePort port : UInt16) :
    ∃ ref actions h₁ e, (twoLinks gateway).tcpConnect remoteIP remotePort port
        (Vector.replicate 1 0) (Vector.replicate 1 0) 7 0 = .ok (.ok ref, actions, h₁) ∧
      h₁.tcpStack.normalSocket ref = .ok e := by
  have hnew : (twoLinks gateway).tcpStack.find
      (.normal ⟨⟨0x0a000001, port⟩, ⟨remoteIP.addr, remotePort⟩⟩) = none := by
    rfl
  obtain ⟨ref, actions, s, e, hcreate, hsock⟩ :=
    TcpStack.exists_createActiveConnection TcpStack.Consistent.init ⟨1, TcpStack.isLeast_init.1⟩
      hnew (Vector.replicate 1 0) (Vector.replicate 1 0) 7 0
  exact ⟨ref, actions, { twoLinks gateway with tcpStack := s }, e,
    Exec.bind_eq_ok.mpr ⟨_, hcreate, rfl⟩, hsock⟩

/-- A connection through a gateway on the first link. -/
theorem segmentsAgree_iff_twoLinks :
    ∃ (h₁ : HostNode 1 1) (e : TableSocket 1 1),
      e.tuple.remote = { addr := 0x0a020005, port := 80 } ∧ (h₁.SegmentsAgree e.tuple ↔
        if (twoLinks { addr := 0x0a000002 }).isMyIpAddress { addr := 0x0a020005, port := 80 } then
          (0x0a000001 : UInt32) = Ip.Ipv4Address.LOCALHOST.addr
        else (0x0a000001 : UInt32) = 0x0a000001) := by
  obtain ⟨ref, actions, h₁, e, hconnect, hsock⟩ :=
    exists_tcpConnect_twoLinks { addr := 0x0a000002 } { addr := 0x0a020005 } 80 1024
  have htuple := (of_tcpConnect hconnect hsock rfl).2
  have hroute : (twoLinks { addr := 0x0a000002 }).nextHop { addr := 0x0a020005, port := 80 } =
      .ok (.ok (⟨0, { addr := 0x0a000002 }⟩, if0)) := by
    rfl
  exact ⟨h₁, e, congrArg SessionTuple.remote htuple, segmentsAgree_iff hconnect hsock rfl hroute⟩

/-- A connection through the second link: its segments leave with the second address. -/
theorem not_segmentsAgree :
    ¬∀ (interfaces : List Ip.InterfaceData) (routes : List (Ip.Subnet × Ip.Ipv4Address))
      (start : Ip.TimePoint) (h h₁ : HostNode 1 1) (remoteIP : Ip.Ipv4Address)
      (remotePort port : UInt16) (sendBuf recvBuf : Vector Byte 1) (isn : UInt32)
      (now : TimePoint) (ref : SocketRef) (actions : List Action) (e : TableSocket 1 1),
      ofLnx 1 1 interfaces routes start = .ok h →
      h.tcpConnect remoteIP remotePort port sendBuf recvBuf isn now =
        .ok (.ok ref, actions, h₁) →
      h₁.tcpStack.normalSocket ref = .ok e →
      (∃ hop iface, h.nextHop { addr := remoteIP.addr, port := remotePort } =
        .ok (.ok (hop, iface))) →
      h₁.SegmentsAgree e.tuple := by
  intro hall
  obtain ⟨ref, actions, h₁, e, hconnect, hsock⟩ :=
    exists_tcpConnect_twoLinks { addr := 0x0a000102 } { addr := 0x0a020005 } 80 1024
  obtain ⟨hnode, htuple⟩ := of_tcpConnect hconnect hsock rfl
  have hroute : (twoLinks { addr := 0x0a000102 }).nextHop { addr := 0x0a020005, port := 80 } =
      .ok (.ok (⟨1, { addr := 0x0a000102 }⟩, if1)) := by
    rfl
  have hagree := hall _ _ 0 _ h₁ _ _ _ _ _ _ _ ref actions e (ofLnx_twoLinks _) hconnect hsock
    ⟨_, _, hroute⟩
  rw [hnode, htuple] at hagree
  have hcond := (Ip.NetworkNode.segmentsAgree_iff_of_nextHop hroute).mp hagree
  exact absurd hcond (by decide)

end HostNode

end Tns
