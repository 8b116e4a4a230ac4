import Tns.Ip.RouterNode

/-!
# Disabled interfaces

`disableInterface` announces once that the local subnet is unreachable, and
leaves the metric of its route as it is.  The triggered updates never advertise
the subnet again, but every response with the whole table does.
-/

namespace Tns.Ip

open Tns.Library

namespace RoutingTable

/-- The subnet has a local route. -/
def HasLocal (s : SubnetKey) (entries : RoutingTable) : Prop :=
  ∃ e ∈ entries, e.isLocal ∧ e.subnet = s

/-- The local routes of a router with `n` interfaces. -/
structure LocalRoutes (n : ℕ) (entries : RoutingTable) : Prop where
  /-- An entry with the network address of a local route is one too. -/
  alone : ∀ l ∈ entries, l.isLocal → ∀ e ∈ entries, e.network = l.network → e.isLocal
  metric : ∀ l ∈ entries, l.isLocal → l.metric = some 0 ∧ l.gateway = none
  each : ∀ i < n, ∃ l ∈ entries, l.isLocal ∧ l.interfaceIt = some i

variable {n : ℕ} {s : SubnetKey} {learnedFrom : Ipv4Address} {now : TimePoint}
  {ripEntry : RipMessage.Entry} {entries entries' : RoutingTable} {collect : Bool}

theorem LocalRoutes.learns (hlearns : Learns learnedFrom now ripEntry entries collect entries')
    (h : LocalRoutes n entries) : LocalRoutes n entries' := by
  have hold : ∀ l ∈ entries', l.isLocal → l ∈ entries := by
    intro l hl hlocal
    rcases hlearns.mem_cases hl with hl | ⟨hlearned, -⟩
    · exact hl
    · exact absurd hlocal hlearned.notLocal
  refine ⟨?_, fun l hl hlocal ↦ h.metric l (hold l hl hlocal) hlocal, ?_⟩
  · intro l hl hlocal e he hnetwork
    have hl := hold l hl hlocal
    rcases hlearns.mem_cases he with he | ⟨hlearned, hcase⟩
    · exact h.alone l hl hlocal e he hnetwork
    · rcases hcase with ⟨e₀, he₀, hno, hsubnet, -⟩ | ⟨-, -, -, habsent⟩
      · have hsame : e₀.network = l.network := (congrArg Prod.fst hsubnet).trans hnetwork
        exact absurd (h.alone l hl hlocal e₀ he₀ hsame) hno
      · exact absurd (hnetwork.symm.trans hlearned.network) (habsent l hl)
  · intro i hi
    obtain ⟨l, hl, hlocal, hinterface⟩ := h.each i hi
    exact ⟨l, hlearns.mem_of_isLocal hl hlocal, hlocal, hinterface⟩

theorem HasLocal.learns (hlearns : Learns learnedFrom now ripEntry entries collect entries')
    (h : HasLocal s entries) : HasLocal s entries' := by
  obtain ⟨e, he, hlocal, hsubnet⟩ := h
  exact ⟨e, hlearns.mem_of_isLocal he hlocal, hlocal, hsubnet⟩

/-- The subnet of a local route is never collected for a triggered update. -/
theorem Learns.not_collect (hlearns : Learns learnedFrom now ripEntry entries collect entries')
    (hroutes : LocalRoutes n entries) (h : HasLocal s entries) (hsubnet : ripEntry.subnet = s) :
    collect = false := by
  obtain ⟨l, hl, hlocal, hl'⟩ := h
  have hnetwork : l.network = ripEntry.network := congrArg Prod.fst (hl'.trans hsubnet.symm)
  cases hlearns with
  | ignored => rfl
  | updated pre e post hpre he hno =>
      exact absurd (hroutes.alone l hl hlocal e (by simp) (he.trans hnetwork.symm)) hno
  | added _ habsent => exact absurd hnetwork (habsent l hl)
  | refused => rfl

theorem subnet_ne_of_mem_handleLoop (hroutes : LocalRoutes n entries) (h : HasLocal s entries)
    {ripEntries : List RipMessage.Entry} {now : ℕ → TimePoint}
    (hmem : ripEntry ∈ (handleLoop learnedFrom entries ripEntries now).1) :
    ripEntry.subnet ≠ s := by
  induction ripEntries generalizing entries now with
  | nil => cases hmem
  | cons head ripEntries ih =>
      have hlearns := learns_handleRipEntry entries head learnedFrom (now 0)
      have htail : ripEntry ∈ (handleLoop learnedFrom _ ripEntries fun i ↦ now (i + 1)).1 →
          ripEntry.subnet ≠ s := ih (hroutes.learns hlearns) (h.learns hlearns)
      simp only [handleLoop] at hmem
      split at hmem
      · rename_i hcollect
        rcases List.mem_cons.mp hmem with rfl | hmem
        · intro hsubnet
          rw [hlearns.not_collect hroutes h hsubnet] at hcollect
          cases hcollect
        · exact htail hmem
      · exact htail hmem

theorem mem_removeStaleRipEntries_of_isLocal {expirationTime : TimePoint} {e : Entry}
    (he : e ∈ entries) (hlocal : e.isLocal) :
    e ∈ (entries.removeStaleRipEntries expirationTime now).2 := by
  rw [(removeStaleRipEntries_perm entries expirationTime now).mem_iff, List.mem_filter]
  refine ⟨he, decide_eq_true ?_⟩
  intro hrip
  have htype : e.type = .local := hlocal
  rw [hrip] at htype
  cases htype

theorem LocalRoutes.removeStaleRipEntries (expirationTime now : TimePoint)
    (h : LocalRoutes n entries) :
    LocalRoutes n (entries.removeStaleRipEntries expirationTime now).2 := by
  refine ⟨?_, ?_, ?_⟩
  · intro l hl hlocal e he
    exact h.alone l (mem_of_mem_removeStaleRipEntries hl) hlocal e
      (mem_of_mem_removeStaleRipEntries he)
  · intro l hl
    exact h.metric l (mem_of_mem_removeStaleRipEntries hl)
  · intro i hi
    obtain ⟨l, hl, hlocal, hinterface⟩ := h.each i hi
    exact ⟨l, mem_removeStaleRipEntries_of_isLocal hl hlocal, hlocal, hinterface⟩

end RoutingTable

namespace RouterNode

open RoutingTable

/-- A message that the step puts on a link advertises the subnet as reachable. -/
def Promises (s : SubnetKey) (t : Step) : Prop :=
  ∃ interface nextHopAddr datagram, .onLink interface nextHopAddr datagram ∈ t.out ∧
    ∃ cost, Advertises datagram.payload s cost ∧ cost.toNat < 16

/-- The response with the whole table is short enough to be sent. -/
def TableFits (r : RouterNode) : Prop :=
  (4 + 12 * r.routingTable.length) % 2 ^ 16 ≤ 65535 - 20

/-- The step sends the whole table, or announces another interface than `i` on the subnet, to an
address that it reaches. -/
def Reannounces (i : ℕ) (s : SubnetKey) (t : Step) : Prop :=
  match t.label with
  | .ripThread =>
      t.pre.TableFits ∧ ∃ neighbor ∈ t.pre.ripNeighbors, t.pre.Reaches neighbor
  | .ripProtocolHandler payload srcAddr _ =>
      (∃ msg, RipMessage.decode payload = .ok msg ∧ msg.command = .request) ∧
        t.pre.TableFits ∧ t.pre.Reaches srcAddr
  | .enableInterface name =>
      ∃ iface ≠ i, t.pre.findInterface name = some iface ∧ t.pre.isOn iface = false ∧
        (∃ e, t.pre.routingTable.localRoute iface = some e ∧ e.subnet = s) ∧
        ∃ neighbor ∈ t.pre.ripNeighbors, (t.pre.turnOn iface).Reaches neighbor
  | .disableInterface _ | .ripCleanerThread _ | .broadcastRequest => False

/-- The step disables interface `i`, which is up. -/
def Disables (i : ℕ) (t : Step) : Prop :=
  ∃ name, t.label = .disableInterface name ∧ t.pre.findInterface name = some i ∧
    t.pre.isOn i = true

/-- The step enables interface `i`. -/
def Enables (i : ℕ) (t : Step) : Prop :=
  ∃ name, t.label = .enableInterface name ∧ t.pre.findInterface name = some i

/-- The router has `n` interfaces, and its table their local routes. -/
structure Keeps (n : ℕ) (r : RouterNode) : Prop where
  count : r.interfaces.length = n
  routes : LocalRoutes n r.routingTable

variable {n i : ℕ} {s : SubnetKey} {r r' : RouterNode} {sent : List Sent}

@[simp] theorem length_interfaces_setUp (r : RouterNode) (i : ℕ) (isUp : Bool) :
    (r.setUp i isUp).interfaces.length = r.interfaces.length := by simp [setUp]

/-- Where the table of a router after a step comes from. -/
inductive TableAfter (r : RouterNode) : RoutingTable → Prop
  | same : TableAfter r r.routingTable
  | handled (ripEntries : List RipMessage.Entry) (srcAddr : Ipv4Address) (now : ℕ → TimePoint) :
      TableAfter r (r.routingTable.handleRipEntries ripEntries srcAddr now).2
  | cleaned (now : TimePoint) :
      TableAfter r (r.routingTable.removeStaleRipEntries RIP_EXPIRATION_TIME now).2

theorem tableAfter_step {call : RouterCall} (h : r.step call = .ok (sent, r')) :
    r'.interfaces.length = r.interfaces.length ∧ TableAfter r r'.routingTable := by
  cases call with
  | enableInterface name =>
      simp only [step, enableInterface] at h
      split at h
      · cases h
        exact ⟨rfl, .same⟩
      · split at h
        · cases h
          exact ⟨rfl, .same⟩
        · simp only [Except.bind_eq_ok, Except.pure_eq_ok, Prod.mk.injEq] at h
          obtain ⟨_, -, _, -, -, rfl⟩ := h
          exact ⟨length_interfaces_setUp .., .same⟩
  | disableInterface name =>
      simp only [step, disableInterface] at h
      split at h
      · cases h
        exact ⟨rfl, .same⟩
      · split at h
        · simp only [Except.bind_eq_ok, Except.pure_eq_ok, Prod.mk.injEq] at h
          obtain ⟨_, -, _, -, -, rfl⟩ := h
          exact ⟨length_interfaces_setUp .., .same⟩
        · cases h
          exact ⟨rfl, .same⟩
  | ripThread =>
      simp only [step, Except.bind_eq_ok, Except.pure_eq_ok, Prod.mk.injEq] at h
      obtain ⟨_, -, _, -, -, rfl⟩ := h
      exact ⟨rfl, .same⟩
  | ripCleanerThread now =>
      simp only [step, Except.bind_eq_ok, Except.pure_eq_ok, Prod.mk.injEq] at h
      obtain ⟨_, -, _, -, -, rfl⟩ := h
      exact ⟨rfl, .cleaned now⟩
  | broadcastRequest =>
      simp only [step, Except.bind_eq_ok, Except.pure_eq_ok, Prod.mk.injEq] at h
      obtain ⟨_, -, _, -, -, rfl⟩ := h
      exact ⟨rfl, .same⟩
  | ripProtocolHandler payload srcAddr now =>
      simp only [step, ripProtocolHandler, Except.bind_eq_ok] at h
      obtain ⟨msg, -, h⟩ := h
      split at h
      · simp only [Except.bind_eq_ok] at h
        obtain ⟨ripResponse, -, h⟩ := h
        split at h
        · simp only [Except.bind_eq_ok, Except.pure_eq_ok, Prod.mk.injEq] at h
          obtain ⟨_, -, -, rfl⟩ := h
          exact ⟨rfl, .same⟩
        · simp only [Except.pure_eq_ok, Prod.mk.injEq] at h
          obtain ⟨-, rfl⟩ := h
          exact ⟨rfl, .same⟩
      · simp only [Except.bind_eq_ok, Except.pure_eq_ok, Prod.mk.injEq] at h
        obtain ⟨_, -, _, -, -, rfl⟩ := h
        exact ⟨rfl, .handled _ srcAddr now⟩
      · cases h
        exact ⟨rfl, .same⟩

/-- What the loop that learns routes and the cleaner keep of a table, every step keeps. -/
theorem TableAfter.induction {I : RoutingTable → Prop}
    (hlearn : ∀ {learnedFrom now ripEntry entries collect entries'},
      Learns learnedFrom now ripEntry entries collect entries' → I entries → I entries')
    (hremove : ∀ {entries} now, I entries →
      I (entries.removeStaleRipEntries RIP_EXPIRATION_TIME now).2)
    {entries : RoutingTable} (hafter : TableAfter r entries) (h : I r.routingTable) :
    I entries := by
  cases hafter with
  | same => exact h
  | handled ripEntries srcAddr now =>
      exact handleRipEntries_induction (fun _ _ _ _ _ _ hlearns ↦ hlearn hlearns) h
  | cleaned now => exact hremove now h

theorem Keeps.step {t : Step} (hfires : Fires step t) (h : Keeps n t.pre) : Keeps n t.post := by
  obtain ⟨hcount, hafter⟩ := tableAfter_step hfires
  refine ⟨hcount.trans h.count, ?_⟩
  exact hafter.induction (fun hlearns ↦ .learns hlearns)
    (fun now ↦ .removeStaleRipEntries RIP_EXPIRATION_TIME now) h.routes

theorem hasLocal_step {t : Step} (hfires : Fires RouterNode.step t)
    (h : HasLocal s t.pre.routingTable) : HasLocal s t.post.routingTable := by
  refine (tableAfter_step hfires).2.induction (fun hlearns ↦ .learns hlearns) ?_ h
  rintro entries now ⟨e, he, hlocal, hsubnet⟩
  exact ⟨e, mem_removeStaleRipEntries_of_isLocal he hlocal, hlocal, hsubnet⟩

/-! ## What is advertised -/

/-- The response with the whole table advertises every local subnet at cost 0. -/
theorem advertises_of_generateRipEntries {entries : RoutingTable} {msg : RipMessage}
    (h : entries.generateRipEntries = .ok msg) (hroutes : LocalRoutes n entries)
    (hlocal : HasLocal s entries) (destIP : Ipv4Address) :
    Advertises (msg.encode destIP) s 0 := by
  obtain ⟨e, he, helocal, rfl⟩ := hlocal
  obtain ⟨hmetric, hgateway⟩ := hroutes.metric e he helocal
  obtain ⟨ripEntry, hadvertise, hmem⟩ := mem_poisoned_of_generateRipEntries h he destIP
  obtain ⟨-, hmade, -⟩ := generateRipEntries_cases h
  rw [Entry.advertise, hmetric] at hadvertise
  obtain rfl := Except.ok.inj hadvertise
  refine ⟨_, hmade.advertised_encode destIP, _, hmem, rfl, ?_⟩
  rw [RipMessage.poison, hgateway]
  rfl

theorem localRouteResponse_cases {entries : RoutingTable} {iface : ℕ} {cost : UInt32}
    {msg : RipMessage} (h : entries.localRouteResponse iface cost = .ok msg) :
    msg.Made ∧ ∀ entry ∈ msg.entries, entry.cost = cost ∧
      ∃ e, entries.localRoute iface = some e ∧ e.subnet = entry.subnet := by
  unfold localRouteResponse at h
  split at h
  · rename_i e hlocal
    refine ⟨RipMessage.made_of_make h, ?_⟩
    obtain ⟨-, -, rfl⟩ := RipMessage.make_eq_ok.mp h
    intro entry hentry
    obtain rfl := List.mem_singleton.mp hentry
    exact ⟨rfl, e, hlocal, rfl⟩
  · refine ⟨RipMessage.made_of_make h, ?_⟩
    obtain ⟨-, -, rfl⟩ := RipMessage.make_eq_ok.mp h
    intro entry hentry
    cases hentry

theorem local_of_localRoute {entries : RoutingTable} {iface : ℕ} {e : Entry}
    (h : entries.localRoute iface = some e) : e ∈ entries ∧ e.isLocal := by
  have hlocal := List.find?_some h
  rw [decide_eq_true_eq] at hlocal
  exact ⟨List.mem_of_find?_eq_some h, hlocal.1⟩

/-- The triggered update of an interface that goes up advertises its subnet at cost 0. -/
theorem advertises_of_enableLocalRoute {entries : RoutingTable} {iface : ℕ} {e : Entry}
    {msg : RipMessage} (h : entries.enableLocalRoute iface = .ok msg)
    (hroutes : LocalRoutes n entries) (he : entries.localRoute iface = some e)
    (destIP : Ipv4Address) :
    Fits (msg.encode destIP) ∧ Advertises (msg.encode destIP) e.subnet 0 := by
  obtain ⟨hmem, hlocal⟩ := local_of_localRoute he
  obtain ⟨-, hgateway⟩ := hroutes.metric e hmem hlocal
  rw [enableLocalRoute, localRouteResponse, he] at h
  have hmade := RipMessage.made_of_make h
  obtain ⟨-, -, rfl⟩ := RipMessage.make_eq_ok.mp h
  refine ⟨?_, _, hmade.advertised_encode destIP, _, List.mem_singleton_self _, rfl, ?_⟩
  · rw [Fits, hmade.length_encode, List.length_singleton]
    decide
  · rw [RipMessage.poison, hgateway]
    rfl

theorem fits_iff_of_generateRipEntries {msg : RipMessage}
    (h : r.routingTable.generateRipEntries = .ok msg) (destIP : Ipv4Address) :
    Fits (msg.encode destIP) ↔ r.TableFits := by
  obtain ⟨-, hmade, hall, -⟩ := generateRipEntries_cases h
  rw [Fits, TableFits, hmade.length_encode, hall.length_eq]

/-! ## What a step promises -/

theorem not_promises_of_nil {t : Step} (h : t.out = []) : ¬Promises s t := by
  rintro ⟨_, _, _, hmem, -⟩
  rw [h] at hmem
  cases hmem

/-- A step whose messages are all encodings of one that has only unreachable entries for the
subnet does not promise it. -/
theorem not_promises_of_message {t : Step} {msg : RipMessage}
    (hmade : msg.Made) (hcost : ∀ entry ∈ msg.entries, entry.subnet = s → entry.cost = INFINITY)
    (hout : ∀ interface nextHopAddr datagram, .onLink interface nextHopAddr datagram ∈ t.out →
      ∃ neighbor, datagram.payload = msg.encode neighbor) :
    ¬Promises s t := by
  rintro ⟨interface, nextHopAddr, datagram, hmem, cost, hadvertises, hlt⟩
  obtain ⟨neighbor, hpayload⟩ := hout _ _ _ hmem
  rw [hpayload] at hadvertises
  have hinfinity : cost = INFINITY := by
    obtain ⟨entry, hentry, hsubnet, rfl | rfl⟩ := exists_of_advertises hmade hadvertises
    · exact hcost entry hentry hsubnet
    · rfl
  rw [hinfinity, toNat_infinity] at hlt
  omega

theorem not_promises_broadcastRipMessage {t : Step} {msg : RipMessage}
    (hbroadcast : r.broadcastRipMessage msg = .ok t.out) (hmade : msg.Made)
    (hcost : ∀ entry ∈ msg.entries, entry.subnet = s → entry.cost = INFINITY) :
    ¬Promises s t := by
  apply not_promises_of_message hmade hcost
  intro interface nextHopAddr datagram hmem
  obtain ⟨neighbor, -, -, -, hcarries⟩ := of_broadcastRipMessage hbroadcast hmem
  exact ⟨neighbor, hcarries.payload⟩

theorem not_promises_broadcastNonempty {t : Step} {msg : RipMessage}
    (hbroadcast : r.broadcastNonempty msg = .ok t.out) (hmade : msg.Made)
    (hcost : ∀ entry ∈ msg.entries, entry.subnet = s → entry.cost = INFINITY) :
    ¬Promises s t := by
  apply not_promises_of_message hmade hcost
  intro interface nextHopAddr datagram hmem
  obtain ⟨neighbor, -, -, -, hcarries⟩ := of_broadcastNonempty hbroadcast hmem
  exact ⟨neighbor, hcarries.payload⟩

theorem promises_of_onLink {t : Step} {interface : ℕ} {nextHopAddr : Ipv4Address}
    {datagram : Datagram} (hmem : .onLink interface nextHopAddr datagram ∈ t.out)
    (h : Advertises datagram.payload s 0) : Promises s t :=
  ⟨interface, nextHopAddr, datagram, hmem, 0, h, by decide⟩

theorem entries_ne_nil {entries : RoutingTable} {msg : RipMessage}
    (h : entries.generateRipEntries = .ok msg) (hlocal : HasLocal s entries) :
    msg.entries ≠ [] := by
  obtain ⟨e, he, -⟩ := hlocal
  obtain ⟨-, -, hall, -⟩ := generateRipEntries_cases h
  intro hnil
  rw [hnil, List.forall₂_nil_right_iff] at hall
  rw [hall] at he
  cases he

theorem promises_ripThread {r r' : RouterNode} {sent : List Sent}
    (h : r.step .ripThread = .ok (sent, r')) (hkeep : Keeps n r)
    (hlocal : HasLocal s r.routingTable) :
    Promises s ⟨r, .ripThread, sent, r'⟩ ↔ Reannounces i s ⟨r, .ripThread, sent, r'⟩ := by
  simp only [step, Except.bind_eq_ok, Except.pure_eq_ok, Prod.mk.injEq] at h
  obtain ⟨msg, hmsg, _, hbroadcast, rfl, -⟩ := h
  constructor
  · rintro ⟨interface, nextHopAddr, datagram, hmem, -⟩
    obtain ⟨neighbor, hneighbor, hreaches, hfits, -⟩ := of_broadcastNonempty hbroadcast hmem
    exact ⟨(fits_iff_of_generateRipEntries hmsg neighbor).mp hfits, neighbor, hneighbor, hreaches⟩
  · rintro ⟨hfits, neighbor, hneighbor, hreaches⟩
    rw [broadcastNonempty, if_pos (entries_ne_nil hmsg hlocal)] at hbroadcast
    obtain ⟨_, _, _, hmem, hpayload⟩ := broadcastRipMessage_of_reaches hbroadcast hneighbor hreaches
      ((fits_iff_of_generateRipEntries hmsg neighbor).mpr hfits)
    apply promises_of_onLink hmem
    rw [hpayload]
    exact advertises_of_generateRipEntries hmsg hkeep.routes hlocal neighbor

theorem promises_enableInterface {name : String}
    (h : r.step (.enableInterface name) = .ok (sent, r')) (hkeep : Keeps n r)
    (hother : r.findInterface name ≠ some i) :
    Promises s ⟨r, .enableInterface name, sent, r'⟩ ↔
      Reannounces i s ⟨r, .enableInterface name, sent, r'⟩ := by
  simp only [step, enableInterface] at h
  split at h
  · rename_i hfind
    cases h
    apply iff_of_false (not_promises_of_nil rfl)
    rintro ⟨iface, -, hfind', -⟩
    simp only [hfind, reduceCtorEq] at hfind'
  · rename_i iface hfind
    split at h
    · rename_i hon
      cases h
      apply iff_of_false (not_promises_of_nil rfl)
      rintro ⟨iface', -, hfind', hoff, -⟩
      obtain rfl := Option.some.inj (hfind.symm.trans hfind')
      exact absurd hon (by simp [hoff])
    · rename_i hoff
      simp only [Except.bind_eq_ok, Except.pure_eq_ok, Prod.mk.injEq] at h
      obtain ⟨msg, hmsg, _, hbroadcast, rfl, -⟩ := h
      constructor
      · rintro ⟨interface, nextHopAddr, datagram, hmem, cost, hadvertises, -⟩
        obtain ⟨neighbor, hneighbor, hreaches, -, hcarries⟩ :=
          of_broadcastRipMessage hbroadcast hmem
        rw [hcarries.payload] at hadvertises
        obtain ⟨hmade, hentries⟩ := localRouteResponse_cases hmsg
        obtain ⟨entry, hentry, hsubnet, -⟩ := exists_of_advertises hmade hadvertises
        obtain ⟨-, e, he, hesubnet⟩ := hentries entry hentry
        have hne : iface ≠ i := fun heq ↦ hother (heq ▸ hfind)
        exact ⟨iface, hne, hfind, by simpa using hoff, ⟨e, he, hesubnet.trans hsubnet⟩, neighbor,
          hneighbor, hreaches⟩
      · rintro ⟨iface', -, hfind', -, ⟨e, he, rfl⟩, neighbor, hneighbor, hreaches⟩
        obtain rfl := Option.some.inj (hfind.symm.trans hfind')
        obtain ⟨hfits, hadvertises⟩ :=
          advertises_of_enableLocalRoute hmsg hkeep.routes he neighbor
        obtain ⟨_, _, _, hmem, hpayload⟩ :=
          broadcastRipMessage_of_reaches hbroadcast hneighbor hreaches hfits
        apply promises_of_onLink hmem
        rwa [hpayload]

theorem not_promises_disableInterface {name : String}
    (h : r.step (.disableInterface name) = .ok (sent, r')) :
    ¬Promises s ⟨r, .disableInterface name, sent, r'⟩ := by
  simp only [step, disableInterface] at h
  split at h
  · cases h
    exact not_promises_of_nil rfl
  · split at h
    · simp only [Except.bind_eq_ok, Except.pure_eq_ok, Prod.mk.injEq] at h
      obtain ⟨msg, hmsg, _, hbroadcast, rfl, -⟩ := h
      obtain ⟨hmade, hentries⟩ := localRouteResponse_cases hmsg
      exact not_promises_broadcastRipMessage hbroadcast hmade fun entry he _ ↦
        (hentries entry he).1
    · cases h
      exact not_promises_of_nil rfl

theorem promises_ripProtocolHandler {payload : List Byte} {srcAddr : Ipv4Address}
    {now : ℕ → TimePoint} (h : r.step (.ripProtocolHandler payload srcAddr now) = .ok (sent, r'))
    (hkeep : Keeps n r) (hlocal : HasLocal s r.routingTable) :
    Promises s ⟨r, .ripProtocolHandler payload srcAddr now, sent, r'⟩ ↔
      Reannounces i s ⟨r, .ripProtocolHandler payload srcAddr now, sent, r'⟩ := by
  simp only [step, ripProtocolHandler, Except.bind_eq_ok] at h
  obtain ⟨msg, hdecode, h⟩ := h
  have hother (hcommand : msg.command ≠ .request) :
      ¬Reannounces i s ⟨r, .ripProtocolHandler payload srcAddr now, sent, r'⟩ := by
    rintro ⟨⟨msg', hdecode', hrequest⟩, -⟩
    obtain rfl := Except.ok.inj (hdecode.symm.trans hdecode')
    exact hcommand hrequest
  split at h
  · rename_i hcommand
    simp only [Except.bind_eq_ok] at h
    obtain ⟨ripResponse, hresponse, h⟩ := h
    rw [if_pos (entries_ne_nil hresponse hlocal)] at h
    simp only [Except.bind_eq_ok, Except.pure_eq_ok, Prod.mk.injEq] at h
    obtain ⟨_, hsend, rfl, -⟩ := h
    constructor
    · rintro ⟨interface, nextHopAddr, datagram, hmem, -⟩
      obtain rfl := List.mem_singleton.mp hmem
      obtain ⟨hreaches, hfits, -⟩ := reaches_of_sendIp hsend
      exact ⟨⟨msg, hdecode, hcommand⟩, (fits_iff_of_generateRipEntries hresponse _).mp hfits,
        hreaches⟩
    · rintro ⟨-, hfits, hreaches⟩
      obtain ⟨_, _, _, hsend', hpayload⟩ := sendIp_of_reaches hreaches
        ((fits_iff_of_generateRipEntries hresponse srcAddr).mpr hfits)
      obtain rfl := Except.ok.inj (hsend'.symm.trans hsend)
      apply promises_of_onLink List.mem_cons_self
      rw [hpayload]
      exact advertises_of_generateRipEntries hresponse hkeep.routes hlocal srcAddr
  · rename_i hcommand
    apply iff_of_false _ (hother (by simp [hcommand]))
    simp only [Except.bind_eq_ok, Except.pure_eq_ok, Prod.mk.injEq] at h
    obtain ⟨ripResponse, hresponse, _, hbroadcast, rfl, -⟩ := h
    apply not_promises_broadcastNonempty hbroadcast (RipMessage.made_of_make hresponse)
    obtain ⟨-, -, rfl⟩ := RipMessage.make_eq_ok.mp hresponse
    intro entry he hsubnet
    exact absurd hsubnet (subnet_ne_of_mem_handleLoop hkeep.routes hlocal he)
  · rename_i hcommand
    cases h
    exact iff_of_false (not_promises_of_nil rfl) (hother (by simp [hcommand]))

/-- While the subnet has a local route, a step promises it exactly if it announces it anew. -/
theorem promises_iff {t : Step} (hfires : Fires RouterNode.step t) (hkeep : Keeps n t.pre)
    (hlocal : HasLocal s t.pre.routingTable) (hoff : ¬Enables i t) :
    Promises s t ↔ Reannounces i s t := by
  obtain ⟨r, call, sent, r'⟩ := t
  simp only [Fires] at hfires hkeep hlocal
  cases call with
  | enableInterface name =>
      exact promises_enableInterface hfires hkeep fun hfind ↦ hoff ⟨name, rfl, hfind⟩
  | disableInterface name => exact iff_of_false (not_promises_disableInterface hfires) not_false
  | ripThread => exact promises_ripThread hfires hkeep hlocal
  | ripCleanerThread now =>
      refine iff_of_false ?_ not_false
      simp only [RouterNode.step, Except.bind_eq_ok, Except.pure_eq_ok, Prod.mk.injEq] at hfires
      obtain ⟨msg, hmsg, _, hbroadcast, rfl, -⟩ := hfires
      apply not_promises_broadcastNonempty hbroadcast (RipMessage.made_of_make hmsg)
      obtain ⟨-, -, rfl⟩ := RipMessage.make_eq_ok.mp hmsg
      exact fun entry he _ ↦ (of_mem_removeLoop he).1
  | broadcastRequest =>
      refine iff_of_false ?_ not_false
      simp only [RouterNode.step, Except.bind_eq_ok, Except.pure_eq_ok, Prod.mk.injEq] at hfires
      obtain ⟨msg, hmsg, _, hbroadcast, rfl, -⟩ := hfires
      apply not_promises_broadcastRipMessage hbroadcast (RipMessage.made_of_make hmsg)
      obtain ⟨-, -, rfl⟩ := RipMessage.make_eq_ok.mp hmsg
      exact fun entry he ↦ absurd he List.not_mem_nil
  | ripProtocolHandler payload srcAddr now => exact promises_ripProtocolHandler hfires hkeep hlocal

/-! ## Runs -/

variable {interfaces : List InterfaceData} {ripNeighbors : List Ipv4Address} {now : TimePoint}

theorem keeps_ofLnx : Keeps interfaces.length (ofLnx interfaces ripNeighbors now) := by
  refine ⟨List.length_map _, ?_, ?_, ?_⟩
  · intro l _ _ e he _
    obtain ⟨_, _, -, rfl⟩ := mem_routingTable_ofLnx.mp he
    rfl
  · intro l hl _
    obtain ⟨_, _, -, rfl⟩ := mem_routingTable_ofLnx.mp hl
    exact ⟨rfl, rfl⟩
  · intro i hi
    exact ⟨_, mem_routingTable_ofLnx.mpr ⟨_, i, List.getElem?_eq_getElem hi, rfl⟩, rfl, rfl⟩

theorem Keeps.localRoute {i : ℕ} (h : Keeps n r) (hon : r.isOn i = true) :
    ∃ e, r.routingTable.localRoute i = some e := by
  have hlt : i < n := by
    rw [← h.count]
    by_contra hge
    rw [isOn, List.getElem?_eq_none (not_lt.mp hge)] at hon
    cases hon
  obtain ⟨l, hl, hlocal, hinterface⟩ := h.routes.each i hlt
  apply Option.isSome_iff_exists.mp
  rw [RoutingTable.localRoute, List.find?_isSome]
  exact ⟨l, hl, decide_eq_true ⟨hlocal, hinterface⟩⟩

/-- In every run of a router, between a step that disables an interface and the next that enables
it, a message promises its local subnet exactly if a step announces the subnet anew. -/
theorem withdrawn_iff_of_run {r : RouterNode} {before after : List Step} {t : Step}
    (hrun : Trace RouterNode.step (ofLnx interfaces ripNeighbors now) (before ++ t :: after) r)
    (hdisables : Disables i t) (hoff : ∀ u ∈ after, ¬Enables i u) :
    ∃ e, t.pre.routingTable.localRoute i = some e ∧
      ((∀ u ∈ after, ¬Promises e.subnet u) ↔ ∀ u ∈ after, ¬Reannounces i e.subnet u) := by
  obtain ⟨hbefore, hstep⟩ := hrun.to_pre
  have hkeep : Keeps interfaces.length t.pre :=
    (hbefore.invariant (A := fun _ ↦ True) (fun _ hfires hpre _ ↦ hpre.step hfires)
      keeps_ofLnx fun _ _ ↦ trivial).1
  obtain ⟨name, -, -, hon⟩ := hdisables
  obtain ⟨e, he⟩ := hkeep.localRoute hon
  refine ⟨e, he, ?_⟩
  obtain ⟨hmem, hlocal⟩ := local_of_localRoute he
  have hhas : HasLocal e.subnet t.pre.routingTable := ⟨e, hmem, hlocal, rfl⟩
  obtain ⟨r₁, -, htail⟩ := hrun.of_append
  cases htail with
  | cons head tail =>
      refine tail.forall_iff (D := fun u ↦ ¬Enables i u)
        (I := fun r ↦ Keeps interfaces.length r ∧ HasLocal e.subnet r.routingTable) ?_ ?_
        ⟨hkeep.step hstep, hasLocal_step hstep hhas⟩ hoff
      · intro u hfires hu hno
        exact not_congr (promises_iff hfires hu.1 hu.2 hno)
      · intro u hfires hu _ _
        exact ⟨hu.1.step hfires, hasLocal_step hfires hu.2⟩

/-! ## A router on two links -/

/-- The RIP neighbour is on the link of `if1`. -/
def onTwoLinks : RouterNode := ofLnx [if0, if1] [{ addr := 0x0a000102 }] 0

def subnet₀ : SubnetKey := (0x0a000000, 0xffffff00)

def offTwoLinks : RouterNode := onTwoLinks.turnOff 0

theorem keeps_onTwoLinks : Keeps 2 onTwoLinks :=
  @keeps_ofLnx [if0, if1] _ _

/-- A run that disables `if0` and goes on with one more step. -/
theorem trace_disable_if0 {call : RouterCall} {sent : List Sent}
    (h : offTwoLinks.step call = .ok (sent, offTwoLinks)) : ∃ disabled,
    Trace RouterNode.step (ofLnx [if0, if1] [{ addr := 0x0a000102 }] 0)
      ([] ++ ⟨onTwoLinks, .disableInterface "if0", disabled, offTwoLinks⟩ ::
        [⟨offTwoLinks, call, sent, offTwoLinks⟩]) offTwoLinks := by
  obtain ⟨disabled, hdisable⟩ : ∃ disabled,
      onTwoLinks.step (.disableInterface "if0") = .ok (disabled, offTwoLinks) := ⟨_, rfl⟩
  exact ⟨disabled, .cons hdisable (.cons h (.nil _))⟩

theorem disables_if0 (disabled : List Sent) :
    Disables 0 ⟨onTwoLinks, .disableInterface "if0", disabled, offTwoLinks⟩ :=
  ⟨"if0", rfl, rfl, rfl⟩

/-- With nothing but a pass of the cleaner after it, the withdrawal stands. -/
theorem withdrawn_iff_of_run_cleaner :
    offTwoLinks.step (.ripCleanerThread 1) = .ok ([], offTwoLinks) ∧
      ¬Promises subnet₀ ⟨offTwoLinks, .ripCleanerThread 1, [], offTwoLinks⟩ := by
  have hcleaner : offTwoLinks.step (.ripCleanerThread 1) = .ok ([], offTwoLinks) := by
    simp [step, offTwoLinks, onTwoLinks, ofLnx, addLocalRoute, addEntry, removeStaleRipEntries,
      removeLoop, RipMessage.makeResponse, RipMessage.make, broadcastNonempty, turnOff, setUp]
  refine ⟨hcleaner, ?_⟩
  obtain ⟨disabled, hrun⟩ := trace_disable_if0 hcleaner
  obtain ⟨e, he, hiff⟩ := withdrawn_iff_of_run hrun (disables_if0 disabled) (by simp [Enables])
  have hsubnet : e.subnet = subnet₀ := by
    obtain rfl := Option.some.inj (he.symm.trans rfl)
    decide
  rw [← hsubnet]
  apply hiff.mpr _ _ List.mem_cons_self
  intro u hu
  obtain rfl := List.mem_singleton.mp hu
  exact not_false

/-- The next periodic response advertises the subnet of the disabled interface. -/
theorem not_withdrawn : ¬∀ (interfaces : List InterfaceData) (ripNeighbors : List Ipv4Address)
    (now : TimePoint) (r : RouterNode) (before after : List Step) (t : Step) (i : ℕ) (e : Entry),
    Trace RouterNode.step (ofLnx interfaces ripNeighbors now) (before ++ t :: after) r →
    Disables i t → (∀ u ∈ after, ¬Enables i u) → t.pre.routingTable.localRoute i = some e →
    ∀ u ∈ after, ¬Promises e.subnet u := by
  intro h
  obtain ⟨sent, hthread⟩ : ∃ sent, offTwoLinks.step .ripThread = .ok (sent, offTwoLinks) :=
    ⟨_, rfl⟩
  obtain ⟨disabled, hrun⟩ := trace_disable_if0 hthread
  obtain ⟨e, he⟩ := keeps_onTwoLinks.localRoute (i := 0) rfl
  obtain ⟨hmem, hlocal⟩ := local_of_localRoute he
  have hkeep : Keeps 2 offTwoLinks := keeps_onTwoLinks.step (hrun.fires _ List.mem_cons_self)
  have hno := h _ _ _ _ _ _ _ 0 e hrun (disables_if0 disabled) (by simp [Enables]) he
  apply hno _ List.mem_cons_self
  apply (promises_ripThread (i := 0) hthread hkeep ⟨e, hmem, hlocal, rfl⟩).mpr
  have hfits : offTwoLinks.TableFits := by
    unfold TableFits
    decide
  refine ⟨hfits, { addr := 0x0a000102 }, List.mem_cons_self, rfl, ?_⟩
  exact ⟨_, _, rfl, rfl, rfl, by decide⟩

end RouterNode

end Tns.Ip
