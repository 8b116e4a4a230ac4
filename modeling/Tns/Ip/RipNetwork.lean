import Tns.Ip.RipDelivery
import Tns.Ip.Topology

/-!
# Networks running RIP

The routers of a topology broadcast, request, answer, expire routes and learn
from each other in any order.  A datagram that has been sent arrives at any
later time, any number of times, or never.  As long as no message that arrives
is too long for its receiver's buffer, all tables and all messages in flight are
honest.
-/

namespace Tns.Ip

open Tns.Library RoutingTable
open RouterNode (RouterCall)

variable {R : Type}

/-- A payload, with the router that has sent it. -/
structure InFlight (R : Type) where
  sender : R
  sent : Sent

structure Network (R : Type) where
  nodes : R → RouterNode
  inFlight : List (InFlight R)

/-- A pass of a thread of a router, or the arrival of the datagram at position `i`. -/
inductive NetworkCall (R : Type) where
  | ripThread (r : R)
  | ripCleanerThread (r : R) (now : TimePoint)
  | broadcastRequest (r : R)
  | arrives (i : ℕ) (r : R) (reception : Reception)

/-- The datagram that has been sent. -/
def Sent.datagram? : Sent → Option Datagram
  | .dropped => none
  | .toItself datagram => some datagram
  | .onLink _ _ datagram => some datagram

/-- The datagram is on a link and does not fit into the buffer of `recvDatagram`. -/
def Sent.Overruns : Sent → Prop
  | .onLink _ _ datagram => Wire.MAX_DATAGRAM_SIZE - 20 < datagram.payload.length
  | _ => False

instance : DecidablePred Sent.Overruns
  | .dropped | .toItself _ => inferInstanceAs (Decidable False)
  | .onLink _ _ _ => inferInstanceAs (Decidable (_ < _))

namespace Network

/-- What a router runs.  A datagram for another address is only passed on. -/
def routerCall (net : Network R) : NetworkCall R → Option (R × RouterCall)
  | .ripThread r => some (r, .ripThread)
  | .ripCleanerThread r now => some (r, .ripCleanerThread now)
  | .broadcastRequest r => some (r, .broadcastRequest)
  | .arrives i r reception => do
      let { sent, .. } ← net.inFlight[i]?
      let datagram ← sent.arrival reception.behind
      if (net.nodes r).isMyIpAddress datagram.dstAddr then
        return (r, .ripProtocolHandler datagram.payload datagram.srcAddr reception.now)
      else none

variable [DecidableEq R]

def step (net : Network R) (call : NetworkCall R) : Except Fault (List Sent × Network R) :=
  match net.routerCall call with
  | none => .ok ([], net)
  | some (r, call) => do
      let (sent, node) ← (net.nodes r).step call
      let inFlight := sent.map fun sent ↦ { sender := r, sent }
      return (sent, {
        nodes := Function.update net.nodes r node, inFlight := net.inFlight ++ inFlight })

abbrev Step (R : Type) := Transition (Network R) (NetworkCall R) (List Sent)

/-- The datagram that arrives is longer than the receiver's buffer. -/
def Overruns {R : Type} (t : Step R) : Prop :=
  match t.label with
  | .arrives i _ _ => ∃ message ∈ t.pre.inFlight[i]?, message.sent.Overruns
  | _ => False

instance {R : Type} (t : Step R) : Decidable (Overruns t) := by
  unfold Overruns
  split <;> infer_instance

end Network

namespace Topology

/-- Every router has just been set up, and nothing has been sent. -/
def start (T : Topology R) (now : R → TimePoint) : Network R where
  nodes r := .ofLnx (T.interfaces r) (T.ripNeighbors r) (now r)
  inFlight := []

/-- The router has its addresses and neighbours, and an honest table. -/
structure HonestNode (T : Topology R) (r : R) (node : RouterNode) : Prop where
  addresses : ∀ a, node.isMyIpAddress a ↔ T.Owns r a
  ripNeighbors : node.ripNeighbors = T.ripNeighbors r
  table : T.HonestTable r node.routingTable

/-- The datagram carries an honest message of its sender to a neighbour. -/
structure HonestMessage (T : Topology R) (sender : R) (datagram : Datagram) : Prop where
  encodes : ∃ msg : RipMessage, msg.Made ∧ datagram.payload = msg.encode datagram.dstAddr ∧
    ∀ entry ∈ msg.entries, T.HonestEntry sender entry
  source : T.Owns sender datagram.srcAddr
  toNeighbor : ∀ r, T.Owns r datagram.dstAddr → T.graph.Adj r sender
  portless : datagram.Portless

/-- The payload leaves in an honest message, if it does. -/
def HonestSent (T : Topology R) (sender : R) : Sent → Prop
  | .dropped => True
  | .toItself _ => False
  | .onLink _ _ datagram => T.HonestMessage sender datagram

/-- The call is one that a thread makes, or the arrival of an honest message of a neighbour. -/
def HonestCall (T : Topology R) (r : R) : RouterCall → Prop
  | .ripThread | .ripCleanerThread _ | .broadcastRequest => True
  | .ripProtocolHandler payload srcAddr _ => ∃ q msg destIP, T.graph.Adj r q ∧ T.Owns q srcAddr ∧
      RipMessage.Made msg ∧ payload = msg.encode destIP ∧
        ∀ entry ∈ msg.entries, T.HonestEntry q entry
  | .enableInterface _ | .disableInterface _ => False

structure HonestNetwork (T : Topology R) (net : Network R) : Prop where
  nodes : ∀ r, T.HonestNode r (net.nodes r)
  inFlight : ∀ message ∈ net.inFlight, T.HonestSent message.sender message.sent

variable {T : Topology R} {r : R} {node node' : RouterNode}

theorem honestNetwork_start (now : R → TimePoint) : T.HonestNetwork (T.start now) := by
  refine ⟨?_, nofun⟩
  intro r
  refine ⟨?_, rfl, honestTable_ofLnx (now r)⟩
  intro a
  simp [RouterNode.isMyIpAddress, start, RouterNode.ofLnx, Owns]

/-! ## What a router sends -/

/-- Only the router itself has an address of its own. -/
theorem HonestNode.sendIp_cases (hnode : T.HonestNode r node) {destIP : Ipv4Address}
    (hdest : ∀ q, T.Owns q destIP → T.graph.Adj q r) {payload : List Byte} {sent : Sent}
    (hsend : node.sendIp destIP payload = .ok sent) :
    sent = .dropped ∨ ∃ interface nextHopAddr datagram,
      sent = .onLink interface nextHopAddr datagram ∧ node.Carries destIP payload datagram := by
  cases sent with
  | dropped => exact .inl rfl
  | toItself =>
      have hmine : node.isMyIpAddress destIP := by
        by_contra hother
        rw [RouterNode.sendIp, if_neg hother, Except.bind_eq_ok] at hsend
        obtain ⟨result, -, hsend⟩ := hsend
        split at hsend
        · cases hsend
        · split at hsend
          · cases hsend
          · split at hsend
            · cases hsend
            · rw [Except.pure_eq_ok, NetworkInterface.sendDatagram] at hsend
              split at hsend <;> cases hsend
      exact absurd (hdest r ((hnode.addresses destIP).mp hmine)) T.graph.irrefl
  | onLink interface nextHopAddr datagram =>
      exact .inr ⟨_, _, _, rfl, (RouterNode.reaches_of_sendIp hsend).2.2⟩

theorem HonestNode.sendRipMessage (hnode : T.HonestNode r node) {msg : RipMessage}
    (hmade : msg.Made) (hentries : ∀ entry ∈ msg.entries, T.HonestEntry r entry)
    {destIP : Ipv4Address} (hport : destIP.port = 0)
    (hdest : ∀ q, T.Owns q destIP → T.graph.Adj q r) {sent : Sent}
    (hsend : node.sendRipMessage msg destIP = .ok sent) : T.HonestSent r sent := by
  rcases hnode.sendIp_cases hdest hsend with rfl | ⟨_, _, datagram, rfl, hpayload, rfl, hsrc⟩
  · exact trivial
  · have howns := (hnode.addresses _).mp hsrc
    exact ⟨⟨msg, hmade, hpayload, hentries⟩, howns, hdest, ⟨howns.port, hport⟩⟩

theorem HonestNode.broadcastRipMessage (hnode : T.HonestNode r node) {msg : RipMessage}
    (hmade : msg.Made) (hentries : ∀ entry ∈ msg.entries, T.HonestEntry r entry)
    {sent : List Sent} (hsend : node.broadcastRipMessage msg = .ok sent) :
    ∀ x ∈ sent, T.HonestSent r x := by
  intro x hx
  obtain ⟨neighbor, hneighbor, hsend⟩ := Except.exists_of_mapM hsend hx
  rw [hnode.ripNeighbors] at hneighbor
  exact hnode.sendRipMessage hmade hentries (T.neighborPort neighbor hneighbor)
    (fun q hq ↦ adj_of_owns hq hneighbor) hsend

theorem HonestNode.broadcastNonempty (hnode : T.HonestNode r node) {msg : RipMessage}
    (hmade : msg.Made) (hentries : ∀ entry ∈ msg.entries, T.HonestEntry r entry)
    {sent : List Sent} (hsend : node.broadcastNonempty msg = .ok sent) :
    ∀ x ∈ sent, T.HonestSent r x := by
  unfold RouterNode.broadcastNonempty at hsend
  split at hsend
  · exact hnode.broadcastRipMessage hmade hentries hsend
  · cases hsend
    exact nofun

theorem HonestNode.ripProtocolHandler (hnode : T.HonestNode r node) {payload : List Byte}
    {srcAddr : Ipv4Address} {now : ℕ → TimePoint}
    (hcall : T.HonestCall r (.ripProtocolHandler payload srcAddr now)) {sent : List Sent}
    (hstep : node.ripProtocolHandler payload srcAddr now = .ok (sent, node')) :
    T.HonestNode r node' ∧ ∀ x ∈ sent, T.HonestSent r x := by
  obtain ⟨q, msg₀, destIP, hadj, hsrc, hmade, rfl, hhonest⟩ := hcall
  simp only [RouterNode.ripProtocolHandler, Except.bind_eq_ok] at hstep
  obtain ⟨msg, hdecode, hstep⟩ := hstep
  have hreceived := honest_decode hadj hmade hdecode hhonest
  split at hstep
  · -- The answer to a request goes to the neighbour that has sent it.
    simp only [Except.bind_eq_ok] at hstep
    obtain ⟨ripResponse, hresponse, hstep⟩ := hstep
    split at hstep
    · simp only [Except.bind_eq_ok, Except.pure_eq_ok, Prod.mk.injEq] at hstep
      obtain ⟨_, hsend, rfl, rfl⟩ := hstep
      refine ⟨hnode, ?_⟩
      intro x hx
      obtain rfl := List.mem_singleton.mp hx
      obtain ⟨-, hmade', -⟩ := generateRipEntries_cases hresponse
      refine hnode.sendRipMessage hmade' (hnode.table.generateRipEntries hresponse) hsrc.port ?_
        hsend
      intro q' hq'
      obtain rfl := hq'.unique hsrc
      exact hadj.symm
    · simp only [Except.pure_eq_ok, Prod.mk.injEq] at hstep
      obtain ⟨rfl, rfl⟩ := hstep
      exact ⟨hnode, List.forall_mem_nil _⟩
  · simp only [Except.bind_eq_ok, Except.pure_eq_ok, Prod.mk.injEq] at hstep
    obtain ⟨ripResponse, hresponse, _, hbroadcast, rfl, rfl⟩ := hstep
    have hnode' : T.HonestNode r { node with
        routingTable := (node.routingTable.handleRipEntries msg.entries srcAddr now).2 } :=
      ⟨hnode.addresses, hnode.ripNeighbors, hnode.table.handleRipEntries hreceived srcAddr now⟩
    exact ⟨hnode', hnode'.broadcastNonempty (RipMessage.made_of_make hresponse)
      (honest_handleRipEntries hreceived hresponse) hbroadcast⟩
  · cases hstep
    exact ⟨hnode, List.forall_mem_nil _⟩

/-- An honest router that makes an honest call stays honest, and all that it sends is. -/
theorem HonestNode.step (hnode : T.HonestNode r node) {call : RouterCall}
    (hcall : T.HonestCall r call) {sent : List Sent} (hstep : node.step call = .ok (sent, node')) :
    T.HonestNode r node' ∧ ∀ x ∈ sent, T.HonestSent r x := by
  cases call with
  | enableInterface => exact hcall.elim
  | disableInterface => exact hcall.elim
  | ripThread =>
      simp only [RouterNode.step, Except.bind_eq_ok, Except.pure_eq_ok, Prod.mk.injEq] at hstep
      obtain ⟨msg, hmsg, _, hbroadcast, rfl, rfl⟩ := hstep
      obtain ⟨-, hmade, -⟩ := generateRipEntries_cases hmsg
      exact ⟨hnode,
        hnode.broadcastNonempty hmade (hnode.table.generateRipEntries hmsg) hbroadcast⟩
  | ripCleanerThread now =>
      simp only [RouterNode.step, Except.bind_eq_ok, Except.pure_eq_ok, Prod.mk.injEq] at hstep
      obtain ⟨msg, hmsg, _, hbroadcast, rfl, rfl⟩ := hstep
      have hnode' : T.HonestNode r { node with routingTable :=
          (node.routingTable.removeStaleRipEntries RouterNode.RIP_EXPIRATION_TIME now).2 } :=
        ⟨hnode.addresses, hnode.ripNeighbors, hnode.table.removeStaleRipEntries _ now⟩
      exact ⟨hnode', hnode'.broadcastNonempty (RipMessage.made_of_make hmsg)
        (hnode.table.expired hmsg) hbroadcast⟩
  | broadcastRequest =>
      simp only [RouterNode.step, Except.bind_eq_ok, Except.pure_eq_ok, Prod.mk.injEq] at hstep
      obtain ⟨msg, hmsg, _, hbroadcast, rfl, rfl⟩ := hstep
      have hentries : ∀ entry ∈ msg.entries, T.HonestEntry r entry := by
        obtain ⟨-, -, rfl⟩ := RipMessage.make_eq_ok.mp hmsg
        exact List.forall_mem_nil _
      exact ⟨hnode,
        hnode.broadcastRipMessage (RipMessage.made_of_make hmsg) hentries hbroadcast⟩
  | ripProtocolHandler payload srcAddr now => exact hnode.ripProtocolHandler hcall hstep

/-! ## Runs -/

/-- What does not overrun the receiver's buffer arrives as the neighbour has sent it. -/
theorem HonestNetwork.routerCall {t : Network.Step R} (hnet : T.HonestNetwork t.pre)
    (hfits : ¬Network.Overruns t) {routerCall : RouterCall}
    (h : t.pre.routerCall t.label = some (r, routerCall)) : T.HonestCall r routerCall := by
  obtain ⟨net, call, sent, net'⟩ := t
  cases call with
  | arrives i r' reception =>
      simp only [Network.routerCall, Option.bind_eq_bind, Option.bind_eq_some_iff] at h
      obtain ⟨⟨sender, sent⟩, hmessage, datagram, harrival, h⟩ := h
      have hsent := hnet.inFlight _ (List.mem_of_getElem? hmessage)
      cases sent with
      | dropped => cases harrival
      | toItself => exact hsent.elim
      | onLink interface nextHopAddr datagram' =>
          obtain ⟨⟨msg, hmade, hpayload, hentries⟩, hsource, htoNeighbor, hportless⟩ := hsent
          have hle : datagram'.payload.length ≤ Wire.MAX_DATAGRAM_SIZE - 20 := by
            by_contra hlong
            exact hfits ⟨_, hmessage, not_le.mp hlong⟩
          rw [Sent.arrival, hportless.arrival hle, Option.some.injEq] at harrival
          subst harrival
          split at h
          · rename_i hmine
            cases h
            have howns := ((hnet.nodes r).addresses _).mp hmine
            exact ⟨sender, msg, _, htoNeighbor r howns, hsource, hmade, hpayload, hentries⟩
          · cases h
  | _ =>
      cases h
      exact trivial

theorem HonestNetwork.step [DecidableEq R] {t : Network.Step R} (hfires : Fires Network.step t)
    (hfits : ¬Network.Overruns t) (hnet : T.HonestNetwork t.pre) : T.HonestNetwork t.post := by
  rw [Fires, Network.step] at hfires
  split at hfires
  · obtain ⟨-, hpost⟩ := Prod.mk.inj (Except.ok.inj hfires)
    rwa [← hpost]
  · rename_i r routerCall hcall
    simp only [Except.bind_eq_ok, Except.pure_eq_ok, Prod.mk.injEq] at hfires
    obtain ⟨⟨sent, node⟩, hstep, -, hpost⟩ := hfires
    obtain ⟨hnode, hsent⟩ := (hnet.nodes r).step (hnet.routerCall hfits hcall) hstep
    rw [← hpost]
    constructor
    · intro q
      rcases eq_or_ne q r with rfl | hne
      · simpa only [Function.update_self] using hnode
      · simpa only [Function.update_of_ne hne] using hnet.nodes q
    · intro message hmessage
      rcases List.mem_append.mp hmessage with hmessage | hmessage
      · exact hnet.inFlight message hmessage
      · obtain ⟨x, hx, rfl⟩ := List.mem_map.mp hmessage
        exact hsent x hx

/-- As long as no message of more than 114 entries arrives, no metric and no cost in flight is below
the hop distance from the router that has it. -/
theorem honest_of_run [DecidableEq R] {now : R → TimePoint} {tr : List (Network.Step R)}
    {net : Network R} (hrun : Trace Network.step (T.start now) tr net)
    (hfits : ∀ t ∈ tr, ¬Network.Overruns t) :
    (∀ r, ∀ e ∈ (net.nodes r).routingTable,
      ∃ m : ℕ, e.metric = some m ∧ min 16 (T.hops e.subnet r) ≤ m) ∧
    ∀ message ∈ net.inFlight, ∀ datagram, message.sent.datagram? = some datagram →
      ∀ s cost, RouterNode.Advertises datagram.payload s cost →
        min 16 (T.hops s message.sender) ≤ cost.toNat := by
  have hnet := (hrun.invariant (A := fun t ↦ ¬Network.Overruns t)
    (fun _ hfires hpre hfits ↦ hpre.step hfires hfits) (honestNetwork_start now) hfits).1
  constructor
  · intro r e he
    obtain ⟨-, m, hmetric, -, hhonest⟩ := (hnet.nodes r).table e he
    exact ⟨m, hmetric, hhonest⟩
  · rintro ⟨sender, sent⟩ hmessage datagram hdatagram s cost hadvertises
    have hsent := hnet.inFlight _ hmessage
    cases sent with
    | dropped => cases hdatagram
    | toItself => exact hsent.elim
    | onLink =>
        cases hdatagram
        obtain ⟨msg, hmade, hpayload, hentries⟩ := hsent.encodes
        rw [hpayload] at hadvertises
        obtain ⟨entry, hentry, rfl, rfl | rfl⟩ :=
          RouterNode.exists_of_advertises hmade hadvertises
        · exact (hentries entry hentry).2.2
        · exact honest_sixteen _ _

/-! ## Two routers -/

/-- The address of a router on the link between two. -/
def linkAddress : Bool → Ipv4Address
  | false => { addr := 0x0a000001 }
  | true => { addr := 0x0a000002 }

/-- An interface of the first router.  The one with number 0 is on the link. -/
def ownInterface (i : ℕ) : InterfaceData where
  name := "if" ++ toString i
  cidr := { address := { addr := .ofNat (0x0a000001 + 256 * i) }, maskLength := 24 }
  neighborIpAddrs := if i = 0 then [linkAddress true] else []

theorem ownInterface_ne (i : ℕ) : (ownInterface i).cidr.address ≠ linkAddress true := by
  intro heq
  have haddr : (UInt32.ofNat (0x0a000001 + 256 * i)).toNat = 0x0a000002 :=
    congrArg (fun a ↦ a.addr.toNat) heq
  rw [UInt32.toNat_ofNat'] at haddr
  omega

def linkInterfaces (n : ℕ) : Bool → List InterfaceData
  | false => (List.range (n + 1)).map ownInterface
  | true => [{
      name := "if0"
      cidr := { address := linkAddress true, maskLength := 24 }
      neighborIpAddrs := [linkAddress false] }]

theorem maskLength_linkInterfaces {n : ℕ} {r : Bool} {d : InterfaceData}
    (hd : d ∈ linkInterfaces n r) : d.cidr.maskLength = 24 := by
  cases r with
  | false =>
      obtain ⟨i, -, rfl⟩ := List.mem_map.mp hd
      rfl
  | true =>
      obtain rfl := List.mem_singleton.mp hd
      rfl

theorem owner_linkInterfaces {n : ℕ} {r q : Bool} {d d' : InterfaceData}
    (hd : d ∈ linkInterfaces n r) (hd' : d' ∈ linkInterfaces n q)
    (heq : d.cidr.address = d'.cidr.address) : r = q := by
  cases r with
  | false =>
      cases q with
      | false => rfl
      | true =>
          obtain ⟨i, -, rfl⟩ := List.mem_map.mp hd
          obtain rfl := List.mem_singleton.mp hd'
          exact absurd heq (ownInterface_ne i)
  | true =>
      cases q with
      | false =>
          obtain rfl := List.mem_singleton.mp hd
          obtain ⟨i, -, rfl⟩ := List.mem_map.mp hd'
          exact absurd heq.symm (ownInterface_ne i)
      | true => rfl

theorem exists_linkInterfaces (n : ℕ) (r : Bool) :
    ∃ d ∈ linkInterfaces n r, d.cidr.address = linkAddress r := by
  cases r with
  | false => exact ⟨ownInterface 0, List.mem_map_of_mem (List.mem_range.mpr n.succ_pos), rfl⟩
  | true => exact ⟨_, List.mem_singleton_self _, rfl⟩

/-- Two routers on a link.  The first has `n` subnets of its own, too. -/
def twoRouters (n : ℕ) : Topology Bool where
  interfaces := linkInterfaces n
  ripNeighbors r := [linkAddress !r]
  owner _ hd _ hd' heq := owner_linkInterfaces hd hd' heq
  subnets d hd d' hd' _ := by
    rw [InterfaceData.subnet, InterfaceData.subnet, Subnet.mask, Subnet.mask,
      maskLength_linkInterfaces hd, maskLength_linkInterfaces hd']
  others {r} a ha d hd heq := by
    obtain rfl := List.mem_singleton.mp ha
    obtain ⟨d', hd', heq'⟩ := exists_linkInterfaces n !r
    have hself : r = !r := owner_linkInterfaces hd hd' (heq.trans heq'.symm)
    cases r <;> cases hself
  port {r} d hd := by
    cases r with
    | false =>
        obtain ⟨i, -, rfl⟩ := List.mem_map.mp hd
        rfl
    | true =>
        obtain rfl := List.mem_singleton.mp hd
        rfl
  neighborPort {r} a ha := by
    obtain rfl := List.mem_singleton.mp ha
    cases r <;> rfl

theorem mem_ripNeighbors_twoRouters {n : ℕ} {r : Bool} {a : Ipv4Address} :
    a ∈ (twoRouters n).ripNeighbors r ↔ a = linkAddress !r := List.mem_singleton

theorem owns_twoRouters {n : ℕ} {r q : Bool} : (twoRouters n).Owns r (linkAddress q) ↔ r = q := by
  constructor
  · intro h
    exact h.unique (exists_linkInterfaces n q)
  · rintro rfl
    exact exists_linkInterfaces n r

theorem honest_of_run_broadcast : ∃ (tr : List (Network.Step Bool)) (net : Network Bool),
    Trace Network.step ((twoRouters 1).start fun _ ↦ 0) tr net ∧
      (net.nodes true).routingTable.map RoutingTable.Entry.metric = [some 0, some 1] ∧
      ∀ e ∈ (net.nodes true).routingTable,
        ∃ m : ℕ, e.metric = some m ∧ min 16 ((twoRouters 1).hops e.subnet true) ≤ m := by
  have hrun : Trace Network.step ((twoRouters 1).start fun _ ↦ 0) _ _ :=
    .cons (l := .ripThread false) rfl
      (.cons (l := .arrives 0 true ⟨fun _ ↦ 0, fun _ ↦ 5⟩) rfl (.nil _))
  exact ⟨_, _, hrun, by decide, (honest_of_run hrun (by decide)).1 true⟩

/-- The first router broadcasts 115 routes.  The mask of the last one is not in the buffer. -/
def overrun : List (NetworkCall Bool) :=
  [.ripThread false, .arrives 0 true ⟨fun _ ↦ 0, fun _ ↦ 5⟩]

theorem exists_record_overrun : ∃ tr net,
    record Network.step ((twoRouters 114).start fun _ ↦ 0) overrun = .ok (tr, net) ∧
      ∃ e ∈ (net.nodes true).routingTable, e.subnet = (0, 0) ∧ e.metric = some 1 := by
  have hall : (record Network.step ((twoRouters 114).start fun _ ↦ 0) overrun).toOption.any
      fun run ↦ (run.2.nodes true).routingTable.any
        fun e ↦ e.subnet = (0, 0) ∧ e.metric = some 1 := by
    decide +kernel
  rw [Option.any_eq_true] at hall
  obtain ⟨⟨tr, net⟩, hrecord, hany⟩ := hall
  obtain ⟨e, he, hroute⟩ := List.any_eq_true.mp hany
  refine ⟨tr, net, ?_, e, he, of_decide_eq_true hroute⟩
  cases hresult : record Network.step ((twoRouters 114).start fun _ ↦ 0) overrun with
  | error e =>
      rw [hresult] at hrecord
      cases hrecord
  | ok run =>
      rw [hresult] at hrecord
      exact congrArg Except.ok (Option.some.inj hrecord)

/-- The second router gets a route to all addresses, which are nobody's subnet. -/
theorem not_honest_of_run : ¬∀ (R : Type) [Finite R] [DecidableEq R] (T : Topology R)
    (now : R → TimePoint) (tr : List (Network.Step R)) (net : Network R),
    Trace Network.step (T.start now) tr net →
      ∀ r, ∀ e ∈ (net.nodes r).routingTable,
        ∃ m : ℕ, e.metric = some m ∧ min 16 (T.hops e.subnet r) ≤ m := by
  intro h
  obtain ⟨tr, net, hrecord, e, he, hsubnet, hmetric⟩ := exists_record_overrun
  obtain ⟨m, hm, hle⟩ := h Bool (twoRouters 114) (fun _ ↦ 0) tr net (.of_record hrecord) true e he
  obtain rfl := Option.some.inj (hmetric.symm.trans hm)
  have hhops : (twoRouters 114).hops e.subnet true ≤ 1 :=
    (min_le_iff.mp hle).resolve_left (by decide)
  obtain ⟨n, hn⟩ := ENat.ne_top_iff_exists.mp (ne_top_of_le_ne_top (by decide) hhops)
  obtain ⟨r, d, hd, heq⟩ := known_of_hops hn.symm
  have hmask : d.cidr.mask = 0 := congrArg Prod.snd (heq.trans hsubnet)
  rw [Subnet.mask, maskLength_linkInterfaces hd] at hmask
  exact absurd hmask (by decide)

end Topology

end Tns.Ip
