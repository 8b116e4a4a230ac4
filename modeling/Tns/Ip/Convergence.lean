import Mathlib.Data.Set.Card
import Tns.Ip.RipNetwork

/-!
# Convergence

In a round every router sends its whole table to its neighbours and learns from
theirs.  A learned route leads to a neighbour that is closer, so its owner never
poisons the route that a router further away depends on: after `k` rounds the
metrics of the subnets up to `k` hops away are exact, and they and their
gateways stay.
-/

namespace Tns.Ip

open Tns.Library

namespace RoutingTable

variable {learnedFrom : Ipv4Address} {now : TimePoint} {ripEntry : RipMessage.Entry}
  {entries entries' : RoutingTable} {collect : Bool} {s : SubnetKey} {d : ℕ}
  {gateway : Option Ipv4Address}

/-- Some route to the subnet has the metric and the gateway. -/
def HasRoute (entries : RoutingTable) (s : SubnetKey) (d : ℕ) (gateway : Option Ipv4Address) :
    Prop :=
  ∃ e ∈ entries, e.subnet = s ∧ e.metric = some d ∧ e.gateway = gateway

/-- There are routes to the subnet, and all have the metric and the gateway. -/
def RoutesTo (entries : RoutingTable) (s : SubnetKey) (d : ℕ) (gateway : Option Ipv4Address) :
    Prop :=
  (∃ e ∈ entries, e.subnet = s) ∧
    ∀ e ∈ entries, e.subnet = s → e.metric = some d ∧ e.gateway = gateway

def locals (entries : RoutingTable) : RoutingTable := entries.filter fun e ↦ e.isLocal

def learned (entries : RoutingTable) : RoutingTable := entries.filter fun e ↦ ¬e.isLocal

theorem mem_locals {e : Entry} : e ∈ entries.locals ↔ e ∈ entries ∧ e.isLocal := by
  rw [locals, List.mem_filter, decide_eq_true_eq]

theorem mem_learned {e : Entry} : e ∈ entries.learned ↔ e ∈ entries ∧ ¬e.isLocal := by
  rw [learned, List.mem_filter, decide_eq_true_eq]

theorem length_locals_add_learned (entries : RoutingTable) :
    entries.locals.length + entries.learned.length = entries.length := by
  rw [locals, learned, List.length_eq_length_filter_add (l := entries) fun e ↦ e.isLocal]
  simp

theorem locals_append_cons {e : Entry} (hlocal : ¬e.isLocal) (pre post : RoutingTable) :
    locals (pre ++ e :: post) = pre.locals ++ post.locals := by
  rw [locals, List.filter_append, List.filter_cons_of_neg (by simpa using hlocal)]
  rfl

theorem learned_append_cons {e : Entry} (hlocal : ¬e.isLocal) (pre post : RoutingTable) :
    learned (pre ++ e :: post) = pre.learned ++ e :: post.learned := by
  rw [learned, List.filter_append, List.filter_cons_of_pos (by simpa using hlocal)]
  rfl

theorem Learns.locals (h : Learns learnedFrom now ripEntry entries collect entries') :
    entries'.locals = entries.locals := by
  cases h with
  | ignored => rfl
  | updated pre e post hpre hnetwork hlocal =>
      rw [locals_append_cons hlocal, locals_append_cons (by exact hlocal)]
  | added =>
      rw [RoutingTable.locals, List.filter_append, RoutingTable.locals]
      exact List.append_nil _
  | refused => rfl

theorem Learns.learned (h : Learns learnedFrom now ripEntry entries collect entries') :
    entries'.learned.map Entry.network = entries.learned.map Entry.network ∨
      (∀ e ∈ entries, e.network ≠ ripEntry.network) ∧ entries'.learned.map Entry.network =
        entries.learned.map Entry.network ++ [ripEntry.network] := by
  cases h with
  | ignored => exact .inl rfl
  | updated pre e post hpre hnetwork hlocal =>
      left
      rw [learned_append_cons hlocal, learned_append_cons (by exact hlocal)]
      simp [Entry.network]
  | added _ habsent =>
      refine .inr ⟨habsent, ?_⟩
      rw [RoutingTable.learned, List.filter_append, List.map_append]
      rfl
  | refused => exact .inl rfl

end RoutingTable

open RoutingTable

namespace Topology

variable {R : Type} {T : Topology R} {r q : R} {s : SubnetKey} {d k : ℕ}

/-- The subnets that are not local at the router, but no further away than a metric can say. -/
def remote (T : Topology R) (r : R) : Set SubnetKey := {s | 0 < T.hops s r ∧ T.hops s r ≤ 15}

theorem known_of_mem_remote (h : s ∈ T.remote r) : T.Known s := by
  obtain ⟨n, hn⟩ := ENat.ne_top_iff_exists.mp (ne_top_of_le_ne_top (by decide) h.2)
  exact known_of_hops hn.symm

/-- The learned route leads to a neighbour that is closer to its subnet. -/
structure Learned (T : Topology R) (r : R) (e : Entry) : Prop where
  remote : e.subnet ∈ T.remote r
  closer : ∀ q g, e.gateway = some g → T.Owns q g → ∀ m : ℕ, e.metric = some m → m < 16 →
    T.hops e.subnet q + 1 ≤ m

/-- What is true of the table of a router in every round. -/
structure Sound (T : Topology R) (r : R) (entries : RoutingTable) : Prop where
  honest : T.HonestTable r entries
  locals : ∃ now, entries.locals =
    (RouterNode.ofLnx (T.interfaces r) (T.ripNeighbors r) now).routingTable
  learned : ∀ e ∈ entries.learned, T.Learned r e
  once : (entries.learned.map Entry.network).Nodup

/-- What a router decodes of the whole table of its neighbour `q`, whose metrics are exact up to
`k` hops. -/
structure Heard (T : Topology R) (k : ℕ) (r q : R) (g : Ipv4Address)
    (ripEntries : List RipMessage.Entry) : Prop where
  adj : T.graph.Adj r q
  owns : T.Owns q g
  honest : ∀ entry ∈ ripEntries, T.HonestEntry r entry
  closer : ∀ entry ∈ ripEntries, entry.cost.toNat < 16 →
    T.hops entry.subnet q + 1 ≤ entry.cost.toNat
  complete : ∀ s (d : ℕ), T.hops s q = d → T.hops s r = d + 1 → d ≤ k → d < 15 →
    ∃ entry ∈ ripEntries, entry.subnet = s
  exact : ∀ s (d : ℕ), T.hops s q = d → T.hops s r = d + 1 → d ≤ k → d < 15 →
    ∀ entry ∈ ripEntries, entry.subnet = s → entry.cost.toNat = d + 1

/-! ## Sound tables -/

variable {entries entries' : RoutingTable} {e : Entry}

theorem Sound.of_isLocal (h : T.Sound r entries) (he : e ∈ entries) (hlocal : e.isLocal) :
    T.HasLocal e.subnet r ∧ e.metric = some 0 ∧ e.gateway = none := by
  obtain ⟨now, hlocals⟩ := h.locals
  have hmem : e ∈ entries.locals := mem_locals.mpr ⟨he, hlocal⟩
  rw [hlocals] at hmem
  obtain ⟨d, i, hd, rfl⟩ := RouterNode.mem_routingTable_ofLnx.mp hmem
  exact ⟨⟨d, List.mem_of_getElem? hd, rfl⟩, rfl, rfl⟩

theorem Sound.hasRoute_of_hasLocal (h : T.Sound r entries) (hlocal : T.HasLocal s r) :
    entries.HasRoute s 0 none := by
  obtain ⟨d, hd, rfl⟩ := hlocal
  obtain ⟨now, hlocals⟩ := h.locals
  obtain ⟨i, hi⟩ := List.mem_iff_getElem?.mp hd
  have hmem : _ ∈ (RouterNode.ofLnx (T.interfaces r) (T.ripNeighbors r) now).routingTable :=
    RouterNode.mem_routingTable_ofLnx.mpr ⟨d, i, hi, rfl⟩
  rw [← hlocals] at hmem
  exact ⟨_, (mem_locals.mp hmem).1, rfl, rfl, rfl⟩

theorem Sound.isLocal_iff (h : T.Sound r entries) (he : e ∈ entries) :
    e.isLocal ↔ T.hops e.subnet r = 0 := by
  constructor
  · intro hlocal
    exact hops_eq_zero_iff.mpr (h.of_isLocal he hlocal).1
  · intro hzero
    by_contra hlocal
    exact (h.learned e (mem_learned.mpr ⟨he, hlocal⟩)).remote.1.ne' hzero

/-- A network has one learned route at most. -/
theorem Sound.eq_of_network (h : T.Sound r entries) {e' : Entry} (he : e ∈ entries.learned)
    (he' : e' ∈ entries.learned) (heq : e.network = e'.network) : e = e' :=
  List.inj_on_of_nodup_map h.once he he' heq

theorem Sound.routesTo (h : T.Sound r entries) {gateway : Option Ipv4Address}
    (hroute : entries.HasRoute s d gateway) : entries.RoutesTo s d gateway := by
  obtain ⟨e, he, rfl, hmetric, hgateway⟩ := hroute
  refine ⟨⟨e, he, rfl⟩, ?_⟩
  intro e' he' hsubnet
  have hiff : e'.isLocal ↔ e.isLocal := by
    rw [h.isLocal_iff he', h.isLocal_iff he, hsubnet]
  by_cases hlocal : e.isLocal
  · obtain ⟨-, hzero, hnone⟩ := h.of_isLocal he hlocal
    obtain ⟨-, hzero', hnone'⟩ := h.of_isLocal he' (hiff.mpr hlocal)
    exact ⟨hzero'.trans (hzero.symm.trans hmetric), hnone'.trans (hnone.symm.trans hgateway)⟩
  · obtain rfl : e' = e :=
      h.eq_of_network (mem_learned.mpr ⟨he', hiff.not.mpr hlocal⟩) (mem_learned.mpr ⟨he, hlocal⟩)
        (congrArg Prod.fst hsubnet)
    exact ⟨hmetric, hgateway⟩

theorem Sound.metric_ge (h : T.Sound r entries) (hhops : T.hops e.subnet r = d) (hd : d < 16)
    (he : e ∈ entries) {m : ℕ} (hmetric : e.metric = some m) : d ≤ m := by
  obtain ⟨-, m', hmetric', -, hhonest⟩ := h.honest e he
  obtain rfl := Option.some.inj (hmetric.symm.trans hmetric')
  by_contra hlt
  have hle := honest_iff.mp hhonest (by omega)
  rw [hhops, Nat.cast_le] at hle
  omega

/-- The table has no more routes than there are interfaces and other subnets. -/
theorem Sound.length_le (h : T.Sound r entries) {n : ℕ}
    (hsize : (T.interfaces r).length + (T.remote r).encard ≤ n) : entries.length ≤ n := by
  have hnodup : (entries.learned.map Entry.subnet).Nodup :=
    .of_map Prod.fst (by rw [List.map_map]; exact h.once)
  have hremote : ((entries.learned.map Entry.subnet).toFinset : Set SubnetKey) ⊆ T.remote r := by
    intro s hs
    rw [List.coe_toFinset, Set.mem_ofPred_eq, List.mem_map] at hs
    obtain ⟨e, he, rfl⟩ := hs
    exact (h.learned e he).remote
  have hlearned : (entries.learned.length : ℕ∞) ≤ (T.remote r).encard := by
    have hle := Set.encard_le_encard hremote
    rwa [Set.encard_coe_eq_coe_finsetCard, List.toFinset_card_of_nodup hnodup,
      List.length_map] at hle
  obtain ⟨now, hlocals⟩ := h.locals
  have hlength : entries.locals.length = (T.interfaces r).length := by
    rw [hlocals, RouterNode.routingTable_ofLnx, List.length_map, List.length_zipIdx]
  have hle : ((T.interfaces r).length + entries.learned.length : ℕ∞) ≤ n :=
    (add_le_add le_rfl hlearned).trans hsize
  rw [← length_locals_add_learned, hlength]
  exact_mod_cast hle

theorem sound_ofLnx (now : TimePoint) :
    T.Sound r (RouterNode.ofLnx (T.interfaces r) (T.ripNeighbors r) now).routingTable := by
  have hall : ∀ e ∈ (RouterNode.ofLnx (T.interfaces r) (T.ripNeighbors r) now).routingTable,
      e.isLocal := by
    intro e he
    obtain ⟨_, _, -, rfl⟩ := RouterNode.mem_routingTable_ofLnx.mp he
    rfl
  have hlearned : (RouterNode.ofLnx (T.interfaces r) (T.ripNeighbors r) now).routingTable.learned =
      [] := List.filter_eq_nil_iff.mpr fun e he ↦ by simpa using hall e he
  refine ⟨honestTable_ofLnx now, ⟨now, ?_⟩, ?_, ?_⟩
  · exact List.filter_eq_self.mpr fun e he ↦ decide_eq_true (hall e he)
  · rw [hlearned]
    exact nofun
  · rw [hlearned]
    exact .nil

/-! ## One advertised entry -/

theorem exists_of_add_one_eq {x : ℕ∞} (h : x + 1 = d) : ∃ n : ℕ, x = n ∧ d = n + 1 := by
  cases x with
  | top =>
      rw [top_add] at h
      exact absurd h (ENat.top_ne_natCast d)
  | coe n => exact ⟨n, rfl, by exact_mod_cast h.symm⟩

variable {g : Ipv4Address} {ripEntries : List RipMessage.Entry} {ripEntry : RipMessage.Entry}
  {now : TimePoint} {collect : Bool} {gateway : Option Ipv4Address}

theorem Sound.learns (h : T.Sound r entries) (hheard : T.Heard k r q g ripEntries)
    (hmem : ripEntry ∈ ripEntries) (hlearns : Learns g now ripEntry entries collect entries') :
    T.Sound r entries' := by
  have hhonest := h.honest.learns hlearns (hheard.honest ripEntry hmem)
  refine ⟨hhonest, ?_, ?_, ?_⟩
  · rw [hlearns.locals]
    exact h.locals
  · intro e he
    obtain ⟨he, hlocal⟩ := mem_learned.mp he
    rcases hlearns.mem_cases he with hold | ⟨hlearned, hcase⟩
    · exact h.learned e (mem_learned.mpr ⟨hold, hlocal⟩)
    · have hsubnet : e.subnet = ripEntry.subnet :=
        (hhonest e he).1.eq (hheard.honest ripEntry hmem).1 hlearned.network
      constructor
      · rcases hcase with ⟨e₀, he₀, hlocal₀, heq, -⟩ | ⟨-, -, hcost, habsent⟩
        · rw [← heq]
          exact (h.learned e₀ (mem_learned.mpr ⟨he₀, hlocal₀⟩)).remote
        · have hlt : ripEntry.cost.toNat < 16 := UInt32.lt_iff_toNat_lt.mp hcost
          constructor
          · apply pos_of_ne_zero
            intro hzero
            obtain ⟨l, hl, hl', -⟩ := h.hasRoute_of_hasLocal (hops_eq_zero_iff.mp hzero)
            exact habsent l hl ((congrArg Prod.fst hl').trans hlearned.network)
          · rw [hsubnet]
            refine (honest_iff.mp (hheard.honest ripEntry hmem).2.2 hlt).trans ?_
            exact_mod_cast Nat.le_of_lt_succ hlt
      · intro q' g' hg' howns m hm hlt
        obtain rfl := Option.some.inj (hlearned.gateway.symm.trans hg')
        obtain rfl := howns.unique hheard.owns
        obtain rfl := Option.some.inj (hlearned.metric.symm.trans hm)
        rw [hsubnet]
        exact hheard.closer ripEntry hmem hlt
  · rcases hlearns.learned with heq | ⟨habsent, heq⟩
    · rw [heq]
      exact h.once
    · rw [heq, ← List.concat_eq_append]
      apply h.once.concat
      intro hin
      obtain ⟨e, he, hnetwork⟩ := List.mem_map.mp hin
      exact habsent e (mem_learned.mp he).1 hnetwork

/-- An exact route stays, with its gateway: nothing smaller is advertised, and its gateway
advertises the same again. -/
theorem hasRoute_learns (h : T.Sound r entries) (hheard : T.Heard k r q g ripEntries)
    (hmem : ripEntry ∈ ripEntries) (hlearns : Learns g now ripEntry entries collect entries')
    (hhops : T.hops s r = d) (hle : d ≤ k + 1) (hd : d ≤ 15)
    (hroute : entries.HasRoute s d gateway) : entries'.HasRoute s d gateway := by
  obtain ⟨e₁, he₁, hsubnet, hmetric, hgateway⟩ := hroute
  have hentry := hheard.honest ripEntry hmem
  cases hlearns with
  | ignored => exact ⟨e₁, he₁, hsubnet, hmetric, hgateway⟩
  | updated pre e post hpre hnetwork hlocal hupdate =>
      rw [List.mem_append, List.mem_cons] at he₁
      rcases he₁ with hold | rfl | hold
      · exact ⟨e₁, List.mem_append_left _ hold, hsubnet, hmetric, hgateway⟩
      · have hknown := (h.honest e₁ (by simp)).1
        have hsame : ripEntry.subnet = s :=
          (hentry.1.eq hknown hnetwork.symm).trans hsubnet
        have hlower : d ≤ ripEntry.cost.toNat := by
          by_contra hlt
          have hhonest := honest_iff.mp hentry.2.2 (by omega)
          rw [hsame, hhops, Nat.cast_le] at hhonest
          omega
        have hnot : ¬e₁.exceeds ripEntry.cost := by
          rintro ⟨m, hm, hlt⟩
          rw [hmetric, Option.mem_some_iff] at hm
          omega
        have hg : e₁.gateway = some g := hupdate.resolve_left hnot
        have hlearned := h.learned e₁ (mem_learned.mpr ⟨by simp, hlocal⟩)
        have hcloser := hlearned.closer q g hg hheard.owns d hmetric (by omega)
        rw [hsubnet] at hcloser
        have heq : T.hops s q + 1 = d :=
          le_antisymm hcloser (hhops.symm.trans_le (hops_le_succ hheard.adj))
        obtain ⟨n, hn, rfl⟩ := exists_of_add_one_eq heq
        have hcost := hheard.exact s n hn hhops (by omega) (by omega) ripEntry hmem hsame
        exact ⟨_, List.mem_append_right _ List.mem_cons_self, hsubnet,
          congrArg some hcost, hg.symm.trans hgateway⟩
      · exact ⟨e₁, by simp [hold], hsubnet, hmetric, hgateway⟩
  | added => exact ⟨e₁, List.mem_append_left _ he₁, hsubnet, hmetric, hgateway⟩
  | refused => exact ⟨e₁, he₁, hsubnet, hmetric, hgateway⟩

/-- A subnet one hop further away than at the neighbour is learned exactly. -/
theorem exists_hasRoute_learns (h : T.Sound r entries) (hheard : T.Heard k r q g ripEntries)
    (hmem : ripEntry ∈ ripEntries) (hlearns : Learns g now ripEntry entries collect entries')
    (hnear : T.hops s q = d) (hhops : T.hops s r = d + 1) (hle : d ≤ k) (hd : d < 15)
    (hsubnet : ripEntry.subnet = s) : ∃ gateway, entries'.HasRoute s (d + 1) gateway := by
  have hcost := hheard.exact s d hnear hhops hle hd ripEntry hmem hsubnet
  have hknown := (hheard.honest ripEntry hmem).1
  have hsame : ∀ e ∈ entries, e.network = ripEntry.network → e.subnet = s := by
    intro e he hnetwork
    exact ((h.honest e he).1.eq hknown hnetwork).trans hsubnet
  have hhops' : T.hops s r = (d + 1 : ℕ) := by rw [hhops]; push_cast; rfl
  cases hlearns with
  | ignored pre e post hpre hnetwork hkeep =>
      have he : e ∈ pre ++ e :: post := by simp
      have hes := hsame e he hnetwork
      have hlocal : ¬e.isLocal := by
        rw [h.isLocal_iff he, hes, hhops']
        exact_mod_cast Nat.succ_ne_zero d
      obtain ⟨-, m, hm, -⟩ := h.honest e he
      have hge := h.metric_ge (hes ▸ hhops') (by omega) he hm
      have hle : m ≤ d + 1 := by
        by_contra hlt
        exact (hkeep.resolve_left hlocal).1 ⟨m, hm, by omega⟩
      exact ⟨e.gateway, e, he, hes, by rw [hm, le_antisymm hle hge], rfl⟩
  | updated pre e post hpre hnetwork =>
      have hes := hsame e (by simp) hnetwork
      exact ⟨some g, _, List.mem_append_right _ List.mem_cons_self, hes, congrArg some hcost, rfl⟩
  | added =>
      exact ⟨some g, _, List.mem_append_right _ List.mem_cons_self, hsubnet,
        congrArg some hcost, rfl⟩
  | refused _ _ hge =>
      have hlt : ripEntry.cost < INFINITY := by
        rw [UInt32.lt_iff_toNat_lt, hcost, toNat_infinity]
        omega
      exact absurd hlt hge

/-- What the messages of a round make of a table, where the subnets in `near` have been heard
of. -/
structure Improves (T : Topology R) (k : ℕ) (r : R) (entries entries' : RoutingTable)
    (near : SubnetKey → ℕ → Prop) : Prop where
  sound : T.Sound r entries'
  keeps : ∀ s (d : ℕ) gateway, T.hops s r = d → d ≤ k + 1 → d ≤ 15 →
    entries.HasRoute s d gateway → entries'.HasRoute s d gateway
  learns : ∀ s (d : ℕ), near s d → T.hops s r = d + 1 → d ≤ k → d < 15 →
    ∃ gateway, entries'.HasRoute s (d + 1) gateway

variable {near near' : SubnetKey → ℕ → Prop}

theorem Improves.refl (h : T.Sound r entries) (hnear : ∀ s d, ¬near s d) :
    T.Improves k r entries entries near :=
  ⟨h, fun _ _ _ _ _ _ hroute ↦ hroute, fun s d hs ↦ absurd hs (hnear s d)⟩

theorem Improves.mono (h : T.Improves k r entries entries' near)
    (hnear : ∀ s (d : ℕ), T.hops s r = d + 1 → d ≤ k → d < 15 → near' s d → near s d) :
    T.Improves k r entries entries' near' :=
  ⟨h.sound, h.keeps, fun s d hs hhops hle hd ↦
    h.learns s d (hnear s d hhops hle hd hs) hhops hle hd⟩

/-- What has been learned stays. -/
theorem Improves.trans {entries'' : RoutingTable} (h : T.Improves k r entries entries' near)
    (h' : T.Improves k r entries' entries'' near') :
    T.Improves k r entries entries'' fun s d ↦ near s d ∨ near' s d := by
  refine ⟨h'.sound, ?_, ?_⟩
  · intro s d gateway hhops hle hd hroute
    exact h'.keeps s d gateway hhops hle hd (h.keeps s d gateway hhops hle hd hroute)
  · rintro s d (hs | hs) hhops hle hd
    · obtain ⟨gateway, hroute⟩ := h.learns s d hs hhops hle hd
      exact ⟨gateway, h'.keeps s (d + 1) gateway (by exact_mod_cast hhops) (by omega) (by omega)
        hroute⟩
    · exact h'.learns s d hs hhops hle hd

theorem improves_learns (h : T.Sound r entries) (hheard : T.Heard k r q g ripEntries)
    (hmem : ripEntry ∈ ripEntries) (hlearns : Learns g now ripEntry entries collect entries') :
    T.Improves k r entries entries' fun s d ↦ T.hops s q = d ∧ ripEntry.subnet = s :=
  ⟨h.learns hheard hmem hlearns,
    fun _ _ _ hhops hle hd ↦ hasRoute_learns h hheard hmem hlearns hhops hle hd,
    fun _ _ hs hhops hle hd ↦
      exists_hasRoute_learns h hheard hmem hlearns hs.1 hhops hle hd hs.2⟩

/-! ## One message -/

theorem improves_handleLoop (h : T.Sound r entries) (hheard : T.Heard k r q g ripEntries)
    (now : ℕ → TimePoint) :
    T.Improves k r entries (handleLoop g entries ripEntries now).2 fun s d ↦ T.hops s q = d := by
  have hloop : T.Improves k r entries (handleLoop g entries ripEntries now).2
      fun s d ↦ T.hops s q = d ∧ ∃ entry ∈ ripEntries, entry.subnet = s := by
    refine handleLoop_induction_handled (I := fun handled entries' ↦
      T.Improves k r entries entries'
        fun s d ↦ T.hops s q = d ∧ ∃ entry ∈ handled, entry.subnet = s) ?_ (.refl h (by simp))
    intro handled ripEntry hmem now entries₁ collect entries₂ hlearns hpast
    refine (hpast.trans (improves_learns hpast.sound hheard hmem hlearns)).mono ?_
    rintro s d - - - ⟨hs, entry, hentry, hsubnet⟩
    rcases List.mem_append.mp hentry with hentry | hentry
    · exact .inl ⟨hs, entry, hentry, hsubnet⟩
    · obtain rfl := List.mem_singleton.mp hentry
      exact .inr ⟨hs, hsubnet⟩
  apply hloop.mono
  intro s d hhops hle hd hs
  exact ⟨hs, hheard.complete s d hs hhops hle hd⟩

/-- The routes of a router are exact up to `k` hops. -/
def Exact (T : Topology R) (k : ℕ) (r : R) (entries : RoutingTable) : Prop :=
  ∀ s (d : ℕ), T.hops s r = d → d ≤ k → d ≤ 15 → ∃ gateway, entries.HasRoute s d gateway

theorem of_advertise {ripEntry : RipMessage.Entry} (h : e.advertise = .ok ripEntry) :
    ripEntry.subnet = e.subnet ∧ ∃ m, e.metric = some m ∧ ripEntry.cost = .ofNat m := by
  unfold Entry.advertise at h
  split at h
  · rename_i m hmetric
    cases h
    exact ⟨rfl, m, hmetric, rfl⟩
  · cases h

/-- A neighbour further away is never sent a poisoned route. -/
theorem Sound.gateway_ne (h : T.Sound q entries) {a : Ipv4Address} (howns : T.Owns r a)
    (he : e ∈ entries) (hmetric : e.metric = some d) (hd : d < 16)
    (hfar : T.hops e.subnet r = d + 1) : e.gateway ≠ some a := by
  intro hgateway
  by_cases hlocal : e.isLocal
  · rw [(h.of_isLocal he hlocal).2.2] at hgateway
    cases hgateway
  · have hcloser := (h.learned e (mem_learned.mpr ⟨he, hlocal⟩)).closer r a hgateway howns d
      hmetric hd
    rw [hfar] at hcloser
    have hle : d + 1 + 1 ≤ d := by exact_mod_cast hcloser
    omega

theorem heard_decode {msg msg' : RipMessage} {a : Ipv4Address} (h : T.Sound q entries)
    (hexact : T.Exact k q entries) (hmsg : entries.generateRipEntries = .ok msg)
    (hdecode : RipMessage.decode (msg.encode a) = .ok msg') (howns : T.Owns r a)
    (hadj : T.graph.Adj r q) (hg : T.Owns q g) : T.Heard k r q g msg'.entries := by
  obtain ⟨-, hmade, -⟩ := generateRipEntries_cases hmsg
  have hentries := h.honest.generateRipEntries hmsg
  have hhonest := honest_decode hadj hmade hdecode hentries
  rw [hmade.decode_encode, Except.ok.injEq] at hdecode
  subst hdecode
  refine ⟨hadj, hg, hhonest, ?_, ?_, ?_⟩
  · intro entry hentry hlt
    obtain ⟨poisoned, hpoisoned, rfl⟩ := List.mem_map.mp hentry
    obtain ⟨-, hle, hcost⟩ := honest_poisoned hentries a poisoned hpoisoned
    rw [RipMessage.received, toNat_receivedCost hle] at hlt ⊢
    have hsucc : min (poisoned.cost.toNat + 1) 16 = poisoned.cost.toNat + 1 := by omega
    rw [hsucc, Nat.cast_add, Nat.cast_one]
    exact add_le_add (honest_iff.mp hcost (by omega)) le_rfl
  · intro s d hs hhops hle hd
    obtain ⟨gateway, e, he, rfl, hmetric, -⟩ := hexact s d hs hle hd.le
    obtain ⟨ripEntry, hadvertise, hmem⟩ := mem_poisoned_of_generateRipEntries hmsg he a
    exact ⟨_, List.mem_map_of_mem hmem, (of_advertise hadvertise).1⟩
  · intro s d hs hhops hle hd entry hentry hsubnet
    obtain ⟨poisoned, hpoisoned, rfl⟩ := List.mem_map.mp hentry
    obtain ⟨e, he, ripEntry, hadvertise, rfl⟩ := exists_of_mem_poisoned hmsg hpoisoned
    obtain ⟨hes, m, hm, hcost⟩ := of_advertise hadvertise
    have hes : e.subnet = s := hes.symm.trans hsubnet
    obtain ⟨gateway, hroute⟩ := hexact s d hs hle hd.le
    obtain ⟨hmetric, -⟩ := (h.routesTo hroute).2 e he hes
    obtain rfl := Option.some.inj (hm.symm.trans hmetric)
    have hne := h.gateway_ne howns he hm (by omega) (hes ▸ hhops)
    have hofNat : (UInt32.ofNat m).toNat = m := by
      rw [UInt32.toNat_ofNat']
      omega
    have hcost' : (RipMessage.poison a ripEntry e.gateway).cost.toNat = m := by
      rw [RipMessage.poison, if_neg hne, hcost, hofNat]
    rw [RipMessage.received, toNat_receivedCost (by omega), hcost']
    omega

end Topology

/-! ## Rounds -/

/-- A topology whose routers list each other as neighbours.  A message arrives with the address
under which the receiver lists the sender. -/
structure RipTopology (R : Type) extends Topology R where
  source : R → Ipv4Address → Ipv4Address
  listed : ∀ {r q a}, a ∈ ripNeighbors q → toTopology.Owns r a →
    source q a ∈ ripNeighbors r ∧ toTopology.Owns q (source q a)

namespace RipTopology

variable {R : Type}

/-- What a router makes of a response that its neighbour has sent. -/
def handleArrival (datagram : Datagram) (reception : Reception) (entries : RoutingTable) :
    Except Fault RoutingTable :=
  match datagram.arrival reception.behind with
  | none => .ok entries
  | some datagram => do
      let ripMessage ← RipMessage.decode datagram.payload
      let (triggered, entries) :=
        entries.handleRipEntries ripMessage.entries datagram.srcAddr reception.now
      let _ ← triggered
      return entries

/-- What a router makes of the whole table that its neighbour `q` sends to its address `a`.  If the
table is too long for a datagram, `sendRipMessage_` catches the exception, and nothing is sent. -/
def exchange (T : RipTopology R) (snapshot : RoutingTable) (q : R) (a : Ipv4Address)
    (reception : Reception) (entries : RoutingTable) : Except Fault RoutingTable := do
  let ripResponse ← snapshot.generateRipEntries
  match RouterNode.makeDatagram (T.source q a) a (ripResponse.encode a) with
  | none => return entries
  | some datagram => handleArrival datagram reception entries

/-- The tables after `k` rounds.  In a round the messages arrive in the order `order`, with the
tables before the round. -/
def rounds (T : RipTopology R) (start : R → TimePoint) (order : ℕ → R → List (R × Ipv4Address))
    (reception : ℕ → R → R × Ipv4Address → Reception) : ℕ → R → Except Fault RoutingTable
  | 0, r => .ok (RouterNode.ofLnx (T.interfaces r) (T.ripNeighbors r) (start r)).routingTable
  | k + 1, r => do
      let entries ← rounds T start order reception k r
      (order k r).foldlM (fun entries message ↦ do
        let snapshot ← rounds T start order reception k message.1
        T.exchange snapshot message.1 message.2 (reception k r message) entries) entries

/-- In each round exactly the messages to its own addresses arrive at a router. -/
def Arrive (T : RipTopology R) (order : ℕ → R → List (R × Ipv4Address)) : Prop :=
  ∀ k r q a, (q, a) ∈ order k r ↔ a ∈ T.ripNeighbors q ∧ T.Owns r a

/-- The routes of every router fit into one datagram. -/
def TablesFit (T : RipTopology R) : Prop :=
  ∀ r, (T.interfaces r).length + (T.remote r).encard ≤ 114

variable {T : RipTopology R} {k : ℕ} {r q : R} {snapshot entries : RoutingTable}

theorem generateRipEntries_of_sound (hfit : T.TablesFit) (h : T.Sound q snapshot) :
    ∃ msg, snapshot.generateRipEntries = .ok msg ∧ msg.Made ∧ msg.entries.length ≤ 114 := by
  obtain ⟨ripEntries, hmap⟩ : ∃ ripEntries, snapshot.mapM Entry.advertise = .ok ripEntries := by
    apply Except.exists_mapM
    intro e he
    obtain ⟨-, m, hmetric, -⟩ := h.honest e he
    exact ⟨_, by rw [Entry.advertise, hmetric]⟩
  have hlength := (Except.mapM_eq_ok.mp hmap).length_eq
  have hle : snapshot.length ≤ 114 := h.length_le (hfit q)
  have hmake : RipMessage.make .response ripEntries (snapshot.map Entry.gateway) =
      .ok ⟨.response, ripEntries, snapshot.map Entry.gateway⟩ := by
    rw [RipMessage.make_eq_ok, List.length_map]
    exact ⟨by omega, hlength.symm, rfl⟩
  refine ⟨_, ?_, RipMessage.made_of_make hmake, hlength.symm.trans_le hle⟩
  rw [generateRipEntries, hmap, Except.ok_bind, RipMessage.makeResponse, hmake]

/-- Whatever has become of its payload, all routes that a response brings lead to its sender. -/
theorem handleArrival_cases {datagram : Datagram} {reception : Reception}
    {entries' : RoutingTable} (hport : datagram.srcAddr.port = 0)
    (h : handleArrival datagram reception entries = .ok entries') :
    entries' = entries ∨ ∃ ripEntries,
      entries' = (entries.handleRipEntries ripEntries datagram.srcAddr reception.now).2 := by
  unfold handleArrival at h
  split at h
  · cases h
    exact .inl rfl
  · rename_i datagram' harrival
    simp only [Except.bind_eq_ok, Except.pure_eq_ok] at h
    obtain ⟨ripMessage, -, _, -, rfl⟩ := h
    rw [Datagram.srcAddr_of_arrival hport harrival]
    exact .inr ⟨_, rfl⟩

/-- A response of up to 114 entries arrives, and it is handled without an exception. -/
theorem handleArrival_ok {msg msg' : RipMessage} (hmade : msg.Made)
    (hsize : msg.entries.length ≤ 114) {a : Ipv4Address} (ha : a ∈ T.ripNeighbors q)
    (howns : T.Owns r a) (hdecode : RipMessage.decode (msg.encode a) = .ok msg')
    (reception : Reception) (entries : RoutingTable) :
    ∃ datagram, RouterNode.makeDatagram (T.source q a) a (msg.encode a) = some datagram ∧
      handleArrival datagram reception entries =
        .ok (handleLoop (T.source q a) entries msg'.entries reception.now).2 := by
  have hmax : Wire.MAX_DATAGRAM_SIZE = 1400 := rfl
  have hfits := (hmade.encode_fits_iff a).mpr hsize
  have hmake : RouterNode.makeDatagram (T.source q a) a (msg.encode a) =
      some ⟨T.source q a, a, msg.encode a⟩ := by
    refine RouterNode.makeDatagram_eq_some.mpr ⟨?_, rfl⟩
    rw [RouterNode.Fits, Nat.mod_eq_of_lt (by omega)]
    omega
  have hportless : Datagram.Portless ⟨T.source q a, a, msg.encode a⟩ :=
    ⟨(T.listed ha howns).2.port, howns.port⟩
  have hlength := (handleLoop_sublist (T.source q a) entries _ reception.now).length_le.trans
    (RipMessage.length_le_of_decode hdecode)
  refine ⟨_, hmake, ?_⟩
  simp only [handleArrival, hportless.arrival hfits, hdecode, Except.ok_bind, handleRipEntries]
  rw [RipMessage.makeResponse, RipMessage.make, if_neg (not_lt.mpr hlength), if_neg (by simp)]
  rfl

theorem exchange_ok (hfit : T.TablesFit) (hsnapshot : T.Sound q snapshot)
    (hexact : T.Exact k q snapshot) (h : T.Sound r entries) {a : Ipv4Address}
    (ha : a ∈ T.ripNeighbors q) (howns : T.Owns r a) (reception : Reception) :
    ∃ entries', T.exchange snapshot q a reception entries = .ok entries' ∧
      T.Improves k r entries entries' fun s d ↦ T.hops s q = d := by
  obtain ⟨msg, hmsg, hmade, hsize⟩ := generateRipEntries_of_sound hfit hsnapshot
  have hdecode := hmade.decode_encode a
  have hheard := Topology.heard_decode hsnapshot hexact hmsg hdecode howns
    (Topology.adj_of_owns howns ha) (T.listed ha howns).2
  obtain ⟨datagram, hmake, harrival⟩ :=
    handleArrival_ok hmade hsize ha howns hdecode reception entries
  refine ⟨_, ?_, Topology.improves_handleLoop h hheard reception.now⟩
  rw [exchange, hmsg, Except.ok_bind]
  simp only [hmake]
  exact harrival

/-- Every subnet is one hop closer at some neighbour, whose message arrives. -/
theorem exists_message (T : RipTopology R) {s : SubnetKey} {d : ℕ}
    (h : T.hops s r = d + 1) : ∃ q a, T.hops s q = d ∧ a ∈ T.ripNeighbors q ∧ T.Owns r a := by
  obtain ⟨q, hadj, hdist⟩ := exists_adj_of_hopDistance_eq h
  rw [Topology.graph, SimpleGraph.fromRel_adj] at hadj
  obtain ⟨-, ⟨a, ha, howns⟩ | ⟨a, ha, howns⟩⟩ := hadj
  · exact ⟨q, a, hdist, ha, howns⟩
  · exact ⟨q, T.source r a, hdist, T.listed ha howns⟩

variable {start : R → TimePoint} {order : ℕ → R → List (R × Ipv4Address)}
  {reception : ℕ → R → R × Ipv4Address → Reception}

theorem rounds_succ (hfit : T.TablesFit) (harrive : T.Arrive order)
    (hall : ∀ r, ∃ entries, T.rounds start order reception k r = .ok entries ∧
      T.Sound r entries ∧ T.Exact k r entries)
    (hround : T.rounds start order reception k r = .ok entries) :
    ∃ entries', T.rounds start order reception (k + 1) r = .ok entries' ∧
      T.Improves k r entries entries' fun s d ↦ T.hops s r = d + 1 := by
  have hsound : T.Sound r entries := by
    obtain ⟨entries', hround', hsound, -⟩ := hall r
    obtain rfl := Except.ok.inj (hround.symm.trans hround')
    exact hsound
  have hmessages : ∃ entries', T.rounds start order reception (k + 1) r = .ok entries' ∧
      T.Improves k r entries entries'
        fun s d ↦ ∃ message : R × Ipv4Address, message ∈ order k r ∧ T.hops s message.1 = d := by
    simp only [rounds, hround, Except.ok_bind]
    refine Except.foldlM_induction (I := fun taken entries' ↦ T.Improves k r entries entries'
      fun s d ↦ ∃ message : R × Ipv4Address, message ∈ taken ∧ T.hops s message.1 = d) ?_
      (.refl hsound (by simp))
    rintro taken ⟨q, a⟩ hmem entries₁ hpast
    obtain ⟨ha, howns⟩ := (harrive k r q a).mp hmem
    obtain ⟨snapshot, hsnapshot, hsound', hexact⟩ := hall q
    obtain ⟨entries₂, hexchange, himproves⟩ :=
      exchange_ok hfit hsound' hexact hpast.sound ha howns (reception k r (q, a))
    refine ⟨entries₂, ?_, ?_⟩
    · rw [hsnapshot, Except.ok_bind, hexchange]
    · apply (hpast.trans himproves).mono
      rintro s d - - - ⟨message, hmessage, hs⟩
      rcases List.mem_append.mp hmessage with hmessage | hmessage
      · exact .inl ⟨message, hmessage, hs⟩
      · obtain rfl := List.mem_singleton.mp hmessage
        exact .inr hs
  obtain ⟨entries', hround', himproves⟩ := hmessages
  refine ⟨entries', hround', himproves.mono ?_⟩
  intro s d hhops _ _ _
  obtain ⟨q, a, hs, ha, howns⟩ := T.exists_message hhops
  exact ⟨(q, a), (harrive k r q a).mpr ⟨ha, howns⟩, hs⟩

theorem rounds_ok (hfit : T.TablesFit) (harrive : T.Arrive order) (k : ℕ) :
    ∀ r, ∃ entries, T.rounds start order reception k r = .ok entries ∧
      T.Sound r entries ∧ T.Exact k r entries := by
  -- The routes with no hops are local in every round.
  have hlocal : ∀ {r entries s}, T.Sound r entries → T.hops s r = (0 : ℕ) →
      ∃ gateway, entries.HasRoute s 0 gateway := fun hsound hzero ↦
    ⟨none, hsound.hasRoute_of_hasLocal (Topology.hops_eq_zero_iff.mp hzero)⟩
  induction k with
  | zero =>
      intro r
      refine ⟨_, rfl, Topology.sound_ofLnx (start r), ?_⟩
      intro s d hhops hle hd
      obtain rfl := Nat.le_zero.mp hle
      exact hlocal (Topology.sound_ofLnx (start r)) hhops
  | succ k ih =>
      intro r
      obtain ⟨entries, hround, -⟩ := ih r
      obtain ⟨entries', hround', himproves⟩ := rounds_succ hfit harrive ih hround
      refine ⟨entries', hround', himproves.sound, ?_⟩
      intro s d hhops hle hd
      cases d with
      | zero => exact hlocal himproves.sound hhops
      | succ d =>
          have hhops' : T.hops s r = d + 1 := by exact_mod_cast hhops
          exact himproves.learns s d hhops' hhops' (by omega) (by omega)

/-- A route that is exact after `k` rounds is the same after all later ones. -/
theorem hasRoute_rounds (hfit : T.TablesFit) (harrive : T.Arrive order) {s : SubnetKey} {d : ℕ}
    {gateway : Option Ipv4Address} (hhops : T.hops s r = d) (hle : d ≤ min k 15)
    (hround : T.rounds start order reception k r = .ok entries)
    (hroute : entries.HasRoute s d gateway) {j : ℕ} (hj : k ≤ j) :
    ∃ entries', T.rounds start order reception j r = .ok entries' ∧ T.Sound r entries' ∧
      entries'.HasRoute s d gateway := by
  induction j, hj using Nat.le_induction with
  | base =>
      obtain ⟨entries', hround', hsound, -⟩ :
          ∃ entries', T.rounds start order reception k r = .ok entries' ∧ T.Sound r entries' ∧
            T.Exact k r entries' := rounds_ok hfit harrive k r
      obtain rfl := Except.ok.inj (hround.symm.trans hround')
      exact ⟨entries, hround, hsound, hroute⟩
  | succ j hj ih =>
      obtain ⟨entries₁, hround₁, -, hroute₁⟩ := ih
      obtain ⟨entries₂, hround₂, himproves⟩ :=
        rounds_succ hfit harrive (rounds_ok hfit harrive j) hround₁
      exact ⟨entries₂, hround₂, himproves.sound,
        himproves.keeps s d gateway hhops (by omega) (by omega) hroute₁⟩

/-- If the routes of every router fit into one datagram, every round completes.  After `k` rounds
all routes to a subnet at hop distance `d`, up to `k` and 15, have the metric `d`, and they keep it
and their gateway in all later rounds. -/
theorem rounds_converge (hfit : T.TablesFit) (harrive : T.Arrive order) (k : ℕ) (r : R) :
    ∃ entries, T.rounds start order reception k r = .ok entries ∧
      ∀ s (d : ℕ), T.hops s r = d → d ≤ min k 15 →
        ∃ gateway, entries.RoutesTo s d gateway ∧
          ∀ j ≥ k, ∃ entries', T.rounds start order reception j r = .ok entries' ∧
            entries'.RoutesTo s d gateway := by
  obtain ⟨entries, hround, hsound, hexact⟩ := rounds_ok hfit harrive k r
  refine ⟨entries, hround, ?_⟩
  intro s d hhops hle
  obtain ⟨gateway, hroute⟩ := hexact s d hhops (by omega) (by omega)
  refine ⟨gateway, hsound.routesTo hroute, ?_⟩
  intro j hj
  obtain ⟨entries', hround', hsound', hroute'⟩ :=
    hasRoute_rounds hfit harrive hhops hle hround hroute hj
  exact ⟨entries', hround', hsound'.routesTo hroute'⟩

/-! ## Two routers -/

/-- Two routers on a link that list each other. -/
def linkTopology (n : ℕ) : RipTopology Bool where
  toTopology := .twoRouters n
  source q _ := Topology.linkAddress q
  listed {r q a} ha howns := by
    rw [Topology.mem_ripNeighbors_twoRouters] at ha ⊢
    subst ha
    rw [Topology.owns_twoRouters] at howns ⊢
    rw [howns, Bool.not_not]
    exact ⟨rfl, rfl⟩

def linkReception (_ : ℕ) (_ : Bool) (_ : Bool × Ipv4Address) : Reception where
  behind _ := 0
  now _ := 5

def linkOrder (_ : ℕ) (r : Bool) : List (Bool × Ipv4Address) := [(!r, Topology.linkAddress r)]

theorem arrive_linkOrder (n : ℕ) : (linkTopology n).Arrive linkOrder := by
  intro k r q a
  rw [linkOrder, List.mem_singleton, Prod.mk.injEq]
  constructor
  · rintro ⟨rfl, rfl⟩
    refine ⟨Topology.mem_ripNeighbors_twoRouters.mpr ?_, Topology.owns_twoRouters.mpr rfl⟩
    rw [Bool.not_not]
  · rintro ⟨ha, howns⟩
    obtain rfl := Topology.mem_ripNeighbors_twoRouters.mp ha
    obtain rfl := Topology.owns_twoRouters.mp howns
    rw [Bool.not_not]
    exact ⟨rfl, rfl⟩

theorem length_interfaces_linkTopology (n : ℕ) :
    ((linkTopology n).interfaces false).length = n + 1 :=
  (List.length_map _).trans List.length_range

theorem tablesFit_linkTopology {n : ℕ} (hn : 2 * (n + 1) ≤ 114) :
    (linkTopology n).TablesFit := by
  have hknown : ∀ s, (linkTopology n).Known s →
      s ∈ (Finset.range (n + 1)).image fun i ↦ (Topology.ownInterface i).subnet := by
    rintro s ⟨r, d, hd, rfl⟩
    rw [Finset.mem_image]
    cases r with
    | false =>
        obtain ⟨i, hi, rfl⟩ := List.mem_map.mp hd
        exact ⟨i, Finset.mem_range.mpr (List.mem_range.mp hi), rfl⟩
    | true =>
        obtain rfl := List.mem_singleton.mp hd
        exact ⟨0, Finset.mem_range.mpr n.succ_pos, by decide⟩
  intro r
  have hinterfaces : ((linkTopology n).interfaces r).length ≤ n + 1 := by
    cases r with
    | false => exact (length_interfaces_linkTopology n).le
    | true => exact Nat.le_add_left 1 n
  have hremote : ((linkTopology n).remote r).encard ≤ (n + 1 : ℕ) := by
    calc ((linkTopology n).remote r).encard
        ≤ ((Finset.range (n + 1)).image fun i ↦
            (Topology.ownInterface i).subnet : Set SubnetKey).encard :=
          Set.encard_le_encard fun s hs ↦ hknown s (Topology.known_of_mem_remote hs)
      _ ≤ (n + 1 : ℕ) := by
          rw [Set.encard_coe_eq_coe_finsetCard, Nat.cast_le]
          exact Finset.card_image_le.trans_eq (Finset.card_range _)
  calc (((linkTopology n).interfaces r).length : ℕ∞) + ((linkTopology n).remote r).encard
      ≤ (n + 1 : ℕ) + (n + 1 : ℕ) := add_le_add (by exact_mod_cast hinterfaces) hremote
    _ ≤ 114 := by
        norm_cast
        omega

/-- A subnet that only the first router has is one hop away from the second. -/
theorem hops_linkTopology {n i : ℕ} (hi : i ≤ n)
    (hne : (Topology.ownInterface i).subnet ≠ (0x0a000000, 0xffffff00)) :
    (linkTopology n).hops (Topology.ownInterface i).subnet true = 1 := by
  have hlocal : (linkTopology n).HasLocal (Topology.ownInterface i).subnet false :=
    ⟨_, List.mem_map_of_mem (List.mem_range.mpr (Nat.lt_succ_of_le hi)), rfl⟩
  have hadj : (linkTopology n).graph.Adj true false :=
    Topology.adj_of_owns (Topology.owns_twoRouters.mpr rfl)
      (Topology.mem_ripNeighbors_twoRouters.mpr rfl)
  apply le_antisymm
  · have hle := Topology.hops_le_succ (s := (Topology.ownInterface i).subnet) hadj
    rwa [Topology.hops_eq_zero_iff.mpr hlocal, zero_add] at hle
  · rw [Order.one_le_iff_pos]
    apply pos_of_ne_zero
    intro hzero
    obtain ⟨d, hd, hsubnet⟩ := Topology.hops_eq_zero_iff.mp hzero
    obtain rfl := List.mem_singleton.mp hd
    exact hne (hsubnet.symm.trans (by decide))

/-- After one round the second router has a route to the subnet of the first. -/
theorem rounds_converge_link : ∃ entries gateway,
    (linkTopology 1).rounds (fun _ ↦ 0) linkOrder linkReception 1 true = .ok entries ∧
      entries.RoutesTo (0x0a000100, 0xffffff00) 1 gateway := by
  obtain ⟨entries, hround, hall⟩ : ∃ entries,
      (linkTopology 1).rounds (fun _ ↦ 0) linkOrder linkReception 1 true = .ok entries ∧ _ :=
    rounds_converge (tablesFit_linkTopology (by decide)) (arrive_linkOrder 1) 1 true
  obtain ⟨gateway, hroutes, -⟩ := hall _ 1 (hops_linkTopology le_rfl (by decide)) (by decide)
  exact ⟨entries, gateway, hround, hroutes⟩

/-- The first router sends 115 routes.  The mask of the last one is not in the buffer. -/
theorem rounds_overrun {entries : RoutingTable}
    (h : (linkTopology 114).rounds (fun _ ↦ 0) linkOrder linkReception 1 true = .ok entries) :
    ∀ e ∈ entries, e.subnet ≠ (Topology.ownInterface 114).subnet := by
  have hall : ((linkTopology 114).rounds (fun _ ↦ 0) linkOrder linkReception 1 true).toOption.all
      fun entries ↦ entries.all fun e ↦ e.subnet ≠ (Topology.ownInterface 114).subnet := by
    decide +kernel
  rw [h] at hall
  intro e he
  exact of_decide_eq_true (List.all_eq_true.mp hall e he)

/-- A round completes only if the local routes fit into a message. -/
theorem le_of_rounds_linkTopology {n : ℕ} {start : Bool → TimePoint} {entries : RoutingTable}
    (h : (linkTopology n).rounds start linkOrder linkReception 1 true = .ok entries) :
    n + 1 ≤ 65535 := by
  simp only [rounds, linkOrder, Except.ok_bind, List.foldlM_cons, exchange,
    Except.bind_eq_ok] at h
  obtain ⟨_, ⟨msg, hmsg, -⟩, -⟩ := h
  obtain ⟨-, hmade, hall, -⟩ := generateRipEntries_cases hmsg
  have hle := hall.length_eq.trans_le hmade.length_le
  rwa [RouterNode.routingTable_ofLnx, List.length_map, List.length_zipIdx, Bool.not_true,
    length_interfaces_linkTopology] at hle

/-- With 65536 local routes the first router cannot make a response.  With 115 it makes and sends
one, but the second router never learns of the last subnet. -/
theorem not_rounds_converge :
    (∀ entries, (linkTopology 65535).rounds (fun _ ↦ 0) linkOrder linkReception 1 true ≠
      .ok entries) ∧
    ¬∀ (R : Type) [Finite R] (T : RipTopology R)
      (start : R → TimePoint) (order : ℕ → R → List (R × Ipv4Address))
      (reception : ℕ → R → R × Ipv4Address → Reception), T.Arrive order → ∀ k r,
      ∃ entries, T.rounds start order reception k r = .ok entries ∧
        ∀ s (d : ℕ), T.hops s r = d → d ≤ min k 15 →
          ∃ gateway, entries.RoutesTo s d gateway ∧
            ∀ j ≥ k, ∃ entries', T.rounds start order reception j r = .ok entries' ∧
              entries'.RoutesTo s d gateway := by
  constructor
  · intro entries hround
    exact absurd (le_of_rounds_linkTopology hround) (by decide)
  · intro h
    obtain ⟨entries, hround, hall⟩ := h Bool (linkTopology 114) (fun _ ↦ 0) linkOrder
      linkReception (arrive_linkOrder 114) 1 true
    obtain ⟨-, ⟨⟨e, he, hsubnet⟩, -⟩, -⟩ :=
      hall _ 1 (hops_linkTopology le_rfl (by decide)) (by decide)
    exact rounds_overrun hround e he hsubnet

end RipTopology

end Tns.Ip
