import Tns.Ip.RouterNode
import Tns.Library.HopDistance

/-!
# Topologies

The routers of a network, with the subnets on their interfaces and the
addresses they send RIP messages to.  A number is honest at a router if it is
not below the hop distance of the subnet, as far as that is below infinity.
What a router sends is honest where its table is, and what it receives is one
hop further away.
-/

namespace Tns.Ip

open Tns.Library RoutingTable

def InterfaceData.subnet (d : InterfaceData) : SubnetKey :=
  (d.cidr.address.addr &&& d.cidr.mask, d.cidr.mask)

/-- The routers `R` of a network. -/
structure Topology (R : Type) where
  interfaces : R → List InterfaceData
  ripNeighbors : R → List Ipv4Address
  /-- An address belongs to one router. -/
  owner : ∀ {r q}, ∀ d ∈ interfaces r, ∀ d' ∈ interfaces q, d.cidr.address = d'.cidr.address → r = q
  /-- Different subnets have different network addresses. -/
  subnets : ∀ {r q}, ∀ d ∈ interfaces r, ∀ d' ∈ interfaces q,
    d.subnet.1 = d'.subnet.1 → d.subnet.2 = d'.subnet.2
  /-- The neighbours of a router are other routers. -/
  others : ∀ {r}, ∀ a ∈ ripNeighbors r, ∀ d ∈ interfaces r, d.cidr.address ≠ a
  /-- The addresses that a file gives have no port. -/
  port : ∀ {r}, ∀ d ∈ interfaces r, d.cidr.address.port = 0
  neighborPort : ∀ {r}, ∀ a ∈ ripNeighbors r, a.port = 0

namespace Topology

variable {R : Type} (T : Topology R)

def Owns (r : R) (a : Ipv4Address) : Prop := ∃ d ∈ T.interfaces r, d.cidr.address = a

/-- The subnet is local at the router. -/
def HasLocal (s : SubnetKey) (r : R) : Prop := ∃ d ∈ T.interfaces r, d.subnet = s

/-- The subnet is one of the network. -/
def Known (s : SubnetKey) : Prop := ∃ r, T.HasLocal s r

/-- Two routers are neighbours if one sends RIP messages to the other. -/
def graph : SimpleGraph R := .fromRel fun r q ↦ ∃ a ∈ T.ripNeighbors q, T.Owns r a

/-- The hop distance from a router to the nearest one where the subnet is local. -/
noncomputable def hops (s : SubnetKey) (r : R) : ℕ∞ := hopDistance T.graph {q | T.HasLocal s q} r

/-- The number promises no path to the subnet that is shorter than any that exists. -/
def Honest (r : R) (s : SubnetKey) (m : ℕ) : Prop := min 16 (T.hops s r) ≤ m

def HonestTable (r : R) (entries : RoutingTable) : Prop :=
  ∀ e ∈ entries, T.Known e.subnet ∧ ∃ m, e.metric = some m ∧ m ≤ 16 ∧ T.Honest r e.subnet m

def HonestEntry (r : R) (entry : RipMessage.Entry) : Prop :=
  T.Known entry.subnet ∧ entry.cost.toNat ≤ 16 ∧ T.Honest r entry.subnet entry.cost.toNat

variable {T} {r q : R} {s s' : SubnetKey} {a : Ipv4Address}

theorem Owns.unique (hr : T.Owns r a) (hq : T.Owns q a) : r = q := by
  obtain ⟨d, hd, rfl⟩ := hr
  obtain ⟨d', hd', heq⟩ := hq
  exact T.owner d hd d' hd' heq.symm

theorem Owns.port (h : T.Owns r a) : a.port = 0 := by
  obtain ⟨d, hd, rfl⟩ := h
  exact T.port d hd

theorem adj_of_owns (hr : T.Owns r a) (ha : a ∈ T.ripNeighbors q) : T.graph.Adj r q := by
  rw [graph, SimpleGraph.fromRel_adj]
  refine ⟨?_, .inl ⟨a, ha, hr⟩⟩
  rintro rfl
  obtain ⟨d, hd, heq⟩ := hr
  exact T.others a ha d hd heq

theorem Known.eq (h : T.Known s) (h' : T.Known s') (heq : s.1 = s'.1) : s = s' := by
  obtain ⟨r, d, hd, rfl⟩ := h
  obtain ⟨q, d', hd', rfl⟩ := h'
  exact Prod.ext heq (T.subnets d hd d' hd' heq)

/-! ## Honest numbers -/

theorem hops_eq_zero_iff : T.hops s r = 0 ↔ T.HasLocal s r := hopDistance_eq_zero_iff

theorem known_of_hops {d : ℕ} (h : T.hops s r = d) : T.Known s := by
  obtain ⟨q, hq, -⟩ := exists_edist_eq_hopDistance h
  exact ⟨q, hq⟩

theorem hops_le_succ (h : T.graph.Adj r q) : T.hops s r ≤ T.hops s q + 1 := hopDistance_le_succ h

theorem honest_of_hasLocal (h : T.HasLocal s r) (m : ℕ) : T.Honest r s m := by
  rw [Honest, hops_eq_zero_iff.mpr h]
  exact (min_le_right _ _).trans bot_le

theorem honest_sixteen (r : R) (s : SubnetKey) : T.Honest r s 16 := min_le_left _ _

theorem honest_iff {m : ℕ} : T.Honest r s m ↔ (m < 16 → T.hops s r ≤ m) := by
  rw [Honest, min_le_iff, or_iff_not_imp_left, not_le, ← Nat.cast_ofNat, Nat.cast_lt]

/-- A neighbour is at most one hop further away. -/
theorem Honest.received (hadj : T.graph.Adj r q) {m : ℕ} (h : T.Honest q s m) :
    T.Honest r s (min (m + 1) 16) := by
  rw [honest_iff] at h ⊢
  intro hlt
  have hm : min (m + 1) 16 = m + 1 := by omega
  rw [hm]
  calc T.hops s r
      ≤ T.hops s q + 1 := hops_le_succ hadj
    _ ≤ m + 1 := by gcongr; exact h (by omega)
    _ = (m + 1 : ℕ) := by push_cast; rfl

theorem toNat_receivedCost {cost : UInt32} (h : cost.toNat ≤ 16) :
    (RipMessage.receivedCost cost).toNat = min (cost.toNat + 1) 16 := by
  have hsucc : (cost + 1).toNat = cost.toNat + 1 := by
    rw [UInt32.toNat_add, UInt32.toNat_one]
    omega
  have hle : cost + 1 ≤ INFINITY ↔ cost.toNat + 1 ≤ 16 := by
    rw [UInt32.le_iff_toNat_le, hsucc, toNat_infinity]
  simp only [RipMessage.receivedCost, min_def, hle]
  split
  · exact hsucc
  · rfl

theorem HonestEntry.received (hadj : T.graph.Adj r q) {entry : RipMessage.Entry}
    (h : T.HonestEntry q entry) : T.HonestEntry r (RipMessage.received entry) := by
  obtain ⟨hknown, hle, hhonest⟩ := h
  have hcost := toNat_receivedCost hle
  refine ⟨hknown, ?_, ?_⟩
  · rw [RipMessage.received, hcost]
    exact min_le_right _ _
  · rw [RipMessage.received, hcost]
    exact hhonest.received hadj

theorem HonestEntry.poison {entry : RipMessage.Entry} (h : T.HonestEntry q entry)
    (destIP : Ipv4Address) (learnedFrom : Option Ipv4Address) :
    T.HonestEntry q (RipMessage.poison destIP entry learnedFrom) := by
  obtain ⟨hknown, hle, hhonest⟩ := h
  refine ⟨hknown, ?_, ?_⟩
  · rw [RipMessage.poison]
    split
    · exact le_rfl
    · exact hle
  · rw [RipMessage.poison]
    split
    · exact honest_sixteen _ _
    · exact hhonest

theorem honest_poisoned {msg : RipMessage} (h : ∀ entry ∈ msg.entries, T.HonestEntry q entry)
    (destIP : Ipv4Address) : ∀ entry ∈ msg.poisoned destIP, T.HonestEntry q entry := by
  intro entry hentry
  rw [RipMessage.poisoned, ← List.map_uncurry_zip_eq_zipWith] at hentry
  obtain ⟨⟨entry, learnedFrom⟩, hzip, rfl⟩ := List.mem_map.mp hentry
  exact (h entry (List.of_mem_zip hzip).1).poison destIP learnedFrom

/-- What a neighbour decodes of an honest message is honest there. -/
theorem honest_decode (hadj : T.graph.Adj r q) {msg msg' : RipMessage} (hmade : msg.Made)
    {destIP : Ipv4Address} (hdecode : RipMessage.decode (msg.encode destIP) = .ok msg')
    (h : ∀ entry ∈ msg.entries, T.HonestEntry q entry) :
    ∀ entry ∈ msg'.entries, T.HonestEntry r entry := by
  rw [hmade.decode_encode, Except.ok.injEq] at hdecode
  subst hdecode
  intro entry hentry
  obtain ⟨entry, hpoisoned, rfl⟩ := List.mem_map.mp hentry
  exact (honest_poisoned h destIP entry hpoisoned).received hadj

/-! ## Honest tables -/

variable {entries entries' : RoutingTable}

theorem honestTable_ofLnx (now : TimePoint) :
    T.HonestTable r (RouterNode.ofLnx (T.interfaces r) (T.ripNeighbors r) now).routingTable := by
  intro e he
  obtain ⟨d, i, hd, rfl⟩ := RouterNode.mem_routingTable_ofLnx.mp he
  have hlocal : T.HasLocal d.subnet r := ⟨d, List.mem_of_getElem? hd, rfl⟩
  exact ⟨⟨r, hlocal⟩, 0, rfl, Nat.zero_le _, honest_of_hasLocal hlocal 0⟩

theorem HonestTable.learns {learnedFrom : Ipv4Address} {now : TimePoint}
    {ripEntry : RipMessage.Entry} {collect : Bool}
    (hlearns : Learns learnedFrom now ripEntry entries collect entries')
    (hentry : T.HonestEntry r ripEntry) (h : T.HonestTable r entries) :
    T.HonestTable r entries' := by
  obtain ⟨hripEntry, hle, hhonest⟩ := hentry
  intro e he
  rcases hlearns.mem_cases he with he | ⟨hlearned, hcase⟩
  · exact h e he
  · have hknown : T.Known e.subnet := by
      rcases hcase with ⟨e₀, he₀, -, hsubnet, -⟩ | ⟨hsubnet, -⟩
      · rw [← hsubnet]
        exact (h e₀ he₀).1
      · rwa [hsubnet]
    refine ⟨hknown, _, hlearned.metric, hle, ?_⟩
    rwa [hknown.eq hripEntry hlearned.network]

theorem HonestTable.handleRipEntries {ripEntries : List RipMessage.Entry}
    (hentries : ∀ entry ∈ ripEntries, T.HonestEntry r entry) (h : T.HonestTable r entries)
    (learnedFrom : Ipv4Address) (now : ℕ → TimePoint) :
    T.HonestTable r (entries.handleRipEntries ripEntries learnedFrom now).2 :=
  handleRipEntries_induction
    (fun ripEntry hmem _ _ _ _ hlearns ↦ .learns hlearns (hentries ripEntry hmem)) h

theorem HonestTable.removeStaleRipEntries (h : T.HonestTable r entries)
    (expirationTime now : TimePoint) :
    T.HonestTable r (entries.removeStaleRipEntries expirationTime now).2 :=
  fun e he ↦ h e (mem_of_mem_removeStaleRipEntries he)

/-! ## Honest messages -/

theorem HonestTable.generateRipEntries (h : T.HonestTable r entries) {msg : RipMessage}
    (hmsg : entries.generateRipEntries = .ok msg) :
    ∀ entry ∈ msg.entries, T.HonestEntry r entry := by
  obtain ⟨-, -, hall, -⟩ := generateRipEntries_cases hmsg
  intro entry hentry
  obtain ⟨e, he, hadvertise⟩ := Except.exists_of_mapM (Except.mapM_eq_ok.mpr hall) hentry
  obtain ⟨hknown, m, hmetric, hle, hhonest⟩ := h e he
  rw [Entry.advertise, hmetric] at hadvertise
  obtain rfl := Except.ok.inj hadvertise
  have hcost : (UInt32.ofNat m).toNat = m := by
    rw [UInt32.toNat_ofNat']
    omega
  refine ⟨hknown, hcost.trans_le hle, ?_⟩
  change T.Honest r e.subnet (UInt32.ofNat m).toNat
  rwa [hcost]

theorem honest_handleRipEntries {ripEntries : List RipMessage.Entry}
    (hentries : ∀ entry ∈ ripEntries, T.HonestEntry r entry) {learnedFrom : Ipv4Address}
    {now : ℕ → TimePoint} {msg : RipMessage}
    (hmsg : (entries.handleRipEntries ripEntries learnedFrom now).1 = .ok msg) :
    ∀ entry ∈ msg.entries, T.HonestEntry r entry := by
  obtain ⟨-, -, rfl⟩ := RipMessage.make_eq_ok.mp hmsg
  intro entry hentry
  exact hentries entry ((handleLoop_sublist ..).subset hentry)

theorem HonestTable.expired (h : T.HonestTable r entries) {expirationTime now : TimePoint}
    {msg : RipMessage} (hmsg : (entries.removeStaleRipEntries expirationTime now).1 = .ok msg) :
    ∀ entry ∈ msg.entries, T.HonestEntry r entry := by
  obtain ⟨-, -, rfl⟩ := RipMessage.make_eq_ok.mp hmsg
  intro entry hentry
  obtain ⟨hcost, e, he, hsubnet⟩ := of_mem_removeLoop hentry
  rw [HonestEntry, hcost, ← hsubnet]
  exact ⟨(h e he).1, le_rfl, honest_sixteen r e.subnet⟩

end Topology

end Tns.Ip
