import Tns.Ip.LearnedMetric
import Tns.Library.KeyedList

/-!
# The distance-vector update

For each advertised subnet the rule says what becomes of its entry.  The code
looks a subnet up by its network address alone, so that it applies the rule to
the wrong entry when another subnet with the same network address comes first.
-/

namespace Tns.Ip

open Tns.Library

namespace RoutingTable

/-- No two entries are for the same subnet. -/
def DistinctSubnets (entries : RoutingTable) : Prop := (entries.map Entry.subnet).Nodup

/-! ## The rule -/

/-- What becomes of the entry of an advertised subnet. -/
def distanceVector (ripEntry : RipMessage.Entry) (neighbor : Ipv4Address) (now : TimePoint) :
    Option Entry → Option Entry
  | none => if ripEntry.cost.toNat < 16 then some (.ofRip ripEntry neighbor now) else none
  | some e =>
      if e.isLocal then
        some e
      else if e.exceeds ripEntry.cost then
        some { e with
          metric := some ripEntry.cost.toNat, gateway := some neighbor, lastRefresh := now }
      else if e.gateway = some neighbor then
        some { e with metric := some ripEntry.cost.toNat, lastRefresh := now }
      else some e

/-- The subnet is added or its metric changes. -/
def Triggers (before after : Option Entry) : Prop :=
  before.map Entry.metric ≠ after.map Entry.metric

instance (before after : Option Entry) : Decidable (Triggers before after) :=
  inferInstanceAs (Decidable (_ ≠ _))

/-- The rule applied to each advertised subnet in turn: the subnets of the triggered update, and
the entry of each subnet in the end. -/
def distanceVectorRun (neighbor : Ipv4Address) :
    (SubnetKey → Option Entry) → List RipMessage.Entry → (ℕ → TimePoint) →
      List RipMessage.Entry × (SubnetKey → Option Entry)
  | table, [], _ => ([], table)
  | table, ripEntry :: ripEntries, now =>
      let after := distanceVector ripEntry neighbor (now 0) (table ripEntry.subnet)
      let (updated, table') := distanceVectorRun neighbor
        (Function.update table ripEntry.subnet after) ripEntries fun i ↦ now (i + 1)
      (if Triggers (table ripEntry.subnet) after then ripEntry :: updated else updated, table')

/-! ## What the code does -/

/-- One pass of the loop does to the table what the rule does to the advertised subnet, and
collects the subnet if the rule adds it or changes its metric. -/
structure FollowsRule (neighbor : Ipv4Address) (entries : RoutingTable)
    (ripEntry : RipMessage.Entry) (now : TimePoint) : Prop where
  table : lookup Entry.subnet (entries.handleRipEntry ripEntry neighbor now).2 =
    Function.update (lookup Entry.subnet entries) ripEntry.subnet
      (distanceVector ripEntry neighbor now (lookup Entry.subnet entries ripEntry.subnet))
  collect : (entries.handleRipEntry ripEntry neighbor now).1 = true ↔
    Triggers (lookup Entry.subnet entries ripEntry.subnet)
      (distanceVector ripEntry neighbor now (lookup Entry.subnet entries ripEntry.subnet))

/-- The entry stays as it is when its subnet is advertised. -/
def Entry.Ignores (neighbor : Ipv4Address) (cost : UInt32) (now : TimePoint) (e : Entry) : Prop :=
  e.isLocal ∨ ¬e.exceeds cost ∧
    (e.gateway = some neighbor → e.metric = some cost.toNat ∧ e.lastRefresh = now)

/-- The first entry with the network address of the advertised subnet has its mask as well, or
neither that entry nor the one of the advertised subnet is to change. -/
def Unconfused (neighbor : Ipv4Address) (entries : RoutingTable) (ripEntry : RipMessage.Entry)
    (now : TimePoint) : Prop :=
  ∀ e, lookup Entry.network entries ripEntry.network = some e → e.mask = ripEntry.mask ∨
    e.Ignores neighbor ripEntry.cost now ∧
      match lookup Entry.subnet entries ripEntry.subnet with
      | none => 16 ≤ ripEntry.cost.toNat
      | some own => own.Ignores neighbor ripEntry.cost now

/-- `P` holds of the table that each pass of the loop starts from. -/
def EachPass (neighbor : Ipv4Address)
    (P : RoutingTable → RipMessage.Entry → TimePoint → Prop) :
    RoutingTable → List RipMessage.Entry → (ℕ → TimePoint) → Prop
  | _, [], _ => True
  | entries, ripEntry :: ripEntries, now =>
      P entries ripEntry (now 0) ∧
        EachPass neighbor P (entries.handleRipEntry ripEntry neighbor (now 0)).2 ripEntries
          fun i ↦ now (i + 1)

/-- `handleRipEntries_` implements the rule: every pass follows it, the response and the table in
the end are those of the rule, and no subnet has two entries. -/
structure ImplementsDistanceVector (neighbor : Ipv4Address) (entries : RoutingTable)
    (ripEntries : List RipMessage.Entry) (now : ℕ → TimePoint) : Prop where
  passes : EachPass neighbor (FollowsRule neighbor) entries ripEntries now
  response : (entries.handleRipEntries ripEntries neighbor now).1 = .ok
    { command := .response
      entries := (distanceVectorRun neighbor (lookup Entry.subnet entries) ripEntries now).1
      learnedFrom := (distanceVectorRun neighbor (lookup Entry.subnet entries) ripEntries now).1.map
        fun _ ↦ some neighbor }
  table : lookup Entry.subnet (entries.handleRipEntries ripEntries neighbor now).2 =
    (distanceVectorRun neighbor (lookup Entry.subnet entries) ripEntries now).2
  distinct : DistinctSubnets (entries.handleRipEntries ripEntries neighbor now).2

variable {neighbor : Ipv4Address} {entries entries' : RoutingTable} {ripEntry : RipMessage.Entry}
  {now : TimePoint} {collect : Bool}

theorem distanceVector_some (e : Entry) :
    distanceVector ripEntry neighbor now (some e) =
      some (if e.isLocal ∨ ¬e.exceeds ripEntry.cost ∧ e.gateway ≠ some neighbor then e
        else { e with
          lastRefresh := now, metric := some ripEntry.cost.toNat, gateway := some neighbor }) := by
  unfold distanceVector
  by_cases hlocal : e.isLocal
  · simp [hlocal]
  by_cases hexceeds : e.exceeds ripEntry.cost
  · simp [hlocal, hexceeds]
  by_cases hgateway : e.gateway = some neighbor
  · simp [hlocal, hexceeds, hgateway]
  · simp [hlocal, hexceeds, hgateway]

theorem Entry.ignores_iff {e : Entry} : e.Ignores neighbor ripEntry.cost now ↔
    distanceVector ripEntry neighbor now (some e) = some e := by
  rw [distanceVector_some, Option.some.injEq]
  split
  · rename_i hkeep
    refine iff_of_true ?_ rfl
    exact hkeep.imp_right fun h ↦ ⟨h.1, fun hgateway ↦ absurd hgateway h.2⟩
  · rename_i hchange
    rw [not_or, not_and_or, not_not, not_not] at hchange
    obtain ⟨hlocal, hchange⟩ := hchange
    constructor
    · rintro (h | ⟨hexceeds, h⟩)
      · exact absurd h hlocal
      · have hgateway := hchange.resolve_left hexceeds
        obtain ⟨hmetric, hrefresh⟩ := h hgateway
        rw [← hmetric, ← hrefresh, ← hgateway]
    · intro heq
      have hmetric : e.metric = some ripEntry.cost.toNat := by
        conv_lhs => rw [← heq]
      have hrefresh : e.lastRefresh = now := by
        conv_lhs => rw [← heq]
      refine .inr ⟨?_, fun _ ↦ ⟨hmetric, hrefresh⟩⟩
      rintro ⟨m, hm, hlt⟩
      rw [hmetric, Option.mem_some_iff] at hm
      omega

/-- The entry of the advertised subnet, if any, is not to change. -/
theorem distanceVector_eq_self_iff {own : Option Entry} :
    distanceVector ripEntry neighbor now own = own ↔
      match own with
      | none => 16 ≤ ripEntry.cost.toNat
      | some own => own.Ignores neighbor ripEntry.cost now := by
  cases own with
  | none =>
      by_cases hcost : ripEntry.cost.toNat < 16
      · simp [distanceVector, hcost]
      · simp [distanceVector, hcost, not_lt.mp hcost]
  | some e => exact Entry.ignores_iff.symm

theorem not_triggers_self {own : Option Entry} : ¬Triggers own own := fun h ↦ h rfl

/-- A pass that leaves the table alone follows the rule if the rule does too. -/
theorem followsRule_ignored_iff :
    (lookup Entry.subnet entries = Function.update (lookup Entry.subnet entries) ripEntry.subnet
        (distanceVector ripEntry neighbor now (lookup Entry.subnet entries ripEntry.subnet)) ∧
      (false = true ↔ Triggers (lookup Entry.subnet entries ripEntry.subnet)
        (distanceVector ripEntry neighbor now (lookup Entry.subnet entries ripEntry.subnet)))) ↔
      distanceVector ripEntry neighbor now (lookup Entry.subnet entries ripEntry.subnet) =
        lookup Entry.subnet entries ripEntry.subnet := by
  rw [Function.eq_update_self_iff, eq_comm, and_iff_left_iff_imp]
  intro hown
  rw [hown]
  exact iff_of_false nofun not_triggers_self

theorem lookup_network_of_first {pre post : RoutingTable} {e : Entry}
    (hpre : ∀ x ∈ pre, x.network ≠ ripEntry.network) (hnetwork : e.network = ripEntry.network) :
    lookup Entry.network (pre ++ e :: post) ripEntry.network = some e := by
  rw [← hnetwork] at hpre ⊢
  exact lookup_of_first hpre

theorem ne_subnet_of_network {pre : RoutingTable} {e : Entry}
    (hpre : ∀ x ∈ pre, x.network ≠ ripEntry.network) (hnetwork : e.network = ripEntry.network) :
    ∀ x ∈ pre, x.subnet ≠ e.subnet := by
  intro x hx heq
  exact hpre x hx ((congrArg Prod.fst heq).trans hnetwork)

theorem lookup_subnet_of_absent (habsent : ∀ x ∈ entries, x.network ≠ ripEntry.network) :
    lookup Entry.subnet entries ripEntry.subnet = none :=
  lookup_eq_none.mpr fun x hx heq ↦ habsent x hx (congrArg Prod.fst heq)

/-- A pass follows the rule if and only if the lookup by network address does no harm. -/
theorem Learns.followsRule_iff (h : Learns neighbor now ripEntry entries collect entries') :
    (lookup Entry.subnet entries' =
        Function.update (lookup Entry.subnet entries) ripEntry.subnet
          (distanceVector ripEntry neighbor now (lookup Entry.subnet entries ripEntry.subnet)) ∧
      (collect = true ↔ Triggers (lookup Entry.subnet entries ripEntry.subnet)
        (distanceVector ripEntry neighbor now (lookup Entry.subnet entries ripEntry.subnet)))) ↔
      Unconfused neighbor entries ripEntry now := by
  cases h with
  | ignored pre e post hpre hnetwork hkeep =>
      have hignores : e.Ignores neighbor ripEntry.cost now :=
        hkeep.imp_right fun h ↦ ⟨h.1, fun hgateway ↦ absurd hgateway h.2⟩
      rw [followsRule_ignored_iff, Unconfused, lookup_network_of_first hpre hnetwork]
      simp only [Option.some.injEq, forall_eq']
      rw [← distanceVector_eq_self_iff]
      constructor
      · exact fun hown ↦ .inr ⟨hignores, hown⟩
      · rintro (hmask | ⟨-, hown⟩)
        · have hsubnet : e.subnet = ripEntry.subnet := Prod.ext hnetwork hmask
          rw [← hsubnet, lookup_of_first (ne_subnet_of_network hpre hnetwork)]
          exact Entry.ignores_iff.mp hignores
        · exact hown
  | updated pre e post hpre hnetwork hlocal hupdate =>
      have hfirst := ne_subnet_of_network hpre hnetwork
      have hrule : distanceVector ripEntry neighbor now (some e) = some { e with
          lastRefresh := now
          metric := some ripEntry.cost.toNat
          gateway := some neighbor } := by
        rw [distanceVector_some, if_neg]
        rintro (h | ⟨hexceeds, hgateway⟩)
        · exact hlocal h
        · exact hupdate.elim hexceeds hgateway
      rw [lookup_replace hfirst (b := { e with
          lastRefresh := now
          metric := some ripEntry.cost.toNat
          gateway := some neighbor }) rfl, Unconfused, lookup_network_of_first hpre hnetwork]
      simp only [Option.some.injEq, forall_eq', ← distanceVector_eq_self_iff]
      by_cases hmask : e.mask = ripEntry.mask
      · have hsubnet : e.subnet = ripEntry.subnet := Prod.ext hnetwork hmask
        rw [← hsubnet, lookup_of_first hfirst, hrule]
        refine iff_of_true ⟨rfl, ?_⟩ (.inl hmask)
        simp [Triggers]
      · have hsubnet : ripEntry.subnet ≠ e.subnet := fun h ↦ hmask (congrArg Prod.snd h).symm
        rw [or_iff_right hmask, Entry.ignores_iff, hrule, Option.some.injEq]
        rw [update_eq_update_iff hsubnet.symm, lookup_of_first hfirst, Option.some.injEq,
          and_iff_left_iff_imp]
        rintro ⟨heq, hadvertised⟩
        have hmetric : e.metric = some ripEntry.cost.toNat := by
          conv_lhs => rw [← heq]
        rw [hadvertised]
        exact iff_of_false (by simp [hmetric]) not_triggers_self
  | added _ habsent hcost =>
      rw [lookup_subnet_of_absent habsent,
        lookup_concat (a := .ofRip ripEntry neighbor now)
          (fun x hx heq ↦ habsent x hx (congrArg Prod.fst heq))]
      have hrule : distanceVector ripEntry neighbor now none =
          some (.ofRip ripEntry neighbor now) := if_pos (UInt32.lt_iff_toNat_lt.mp hcost)
      rw [hrule]
      refine iff_of_true ⟨rfl, iff_of_true rfl nofun⟩ ?_
      intro e he
      rw [lookup_eq_none.mpr habsent] at he
      cases he
  | refused _ habsent hcost =>
      rw [followsRule_ignored_iff, lookup_subnet_of_absent habsent]
      have hrule : distanceVector ripEntry neighbor now none = none :=
        if_neg fun h ↦ hcost (UInt32.lt_iff_toNat_lt.mpr h)
      refine iff_of_true hrule ?_
      intro e he
      rw [lookup_eq_none.mpr habsent] at he
      cases he

theorem followsRule_iff (entries : RoutingTable) (ripEntry : RipMessage.Entry) (now : TimePoint) :
    FollowsRule neighbor entries ripEntry now ↔ Unconfused neighbor entries ripEntry now := by
  rw [← (learns_handleRipEntry entries ripEntry neighbor now).followsRule_iff]
  exact ⟨fun h ↦ ⟨h.table, h.collect⟩, fun h ↦ ⟨h.1, h.2⟩⟩

/-! ## The whole loop -/

theorem eachPass_congr {P Q : RoutingTable → RipMessage.Entry → TimePoint → Prop}
    (h : ∀ entries ripEntry now, P entries ripEntry now ↔ Q entries ripEntry now)
    (entries : RoutingTable) (ripEntries : List RipMessage.Entry) (now : ℕ → TimePoint) :
    EachPass neighbor P entries ripEntries now ↔ EachPass neighbor Q entries ripEntries now := by
  induction ripEntries generalizing entries now with
  | nil => exact Iff.rfl
  | cons ripEntry ripEntries ih => exact and_congr (h _ _ _) (ih _ _)

/-- Passes that follow the rule make the loop the run of the rule. -/
theorem handleLoop_eq_of_followsRule {entries : RoutingTable} {ripEntries : List RipMessage.Entry}
    {now : ℕ → TimePoint} (h : EachPass neighbor (FollowsRule neighbor) entries ripEntries now) :
    ((handleLoop neighbor entries ripEntries now).1,
        lookup Entry.subnet (handleLoop neighbor entries ripEntries now).2) =
      distanceVectorRun neighbor (lookup Entry.subnet entries) ripEntries now := by
  induction ripEntries generalizing entries now with
  | nil => rfl
  | cons ripEntry ripEntries ih =>
      obtain ⟨hpass, hrest⟩ := h
      have htail := ih hrest
      rw [hpass.table] at htail
      simp only [handleLoop, distanceVectorRun, ← htail, Prod.mk.injEq, and_true]
      simp only [hpass.collect]

theorem DistinctSubnets.learns (hlearns : Learns neighbor now ripEntry entries collect entries')
    (h : DistinctSubnets entries) : DistinctSubnets entries' := by
  unfold DistinctSubnets at h ⊢
  cases hlearns with
  | ignored => exact h
  | updated pre e post =>
      rw [List.map_append, List.map_cons] at h ⊢
      exact h
  | added _ habsent =>
      rw [List.map_append, List.map_singleton, ← List.concat_eq_append]
      apply List.Nodup.concat _ h
      intro hmem
      obtain ⟨x, hx, heq⟩ := List.mem_map.mp hmem
      exact habsent x hx (congrArg Prod.fst heq)
  | refused => exact h

/-- For every table with distinct subnets and every received message, `handleRipEntries_`
implements the distance-vector rule if and only if no pass confuses two subnets with the same
network address. -/
theorem implementsDistanceVector_iff {payload : List Byte} {msg : RipMessage}
    (hdecode : RipMessage.decode payload = .ok msg) (entries : RoutingTable)
    (hdistinct : DistinctSubnets entries) (neighbor : Ipv4Address) (now : ℕ → TimePoint) :
    ImplementsDistanceVector neighbor entries msg.entries now ↔
      EachPass neighbor (Unconfused neighbor) entries msg.entries now := by
  constructor
  · intro h
    exact (eachPass_congr followsRule_iff _ _ _).mp h.passes
  · intro h
    have hpasses := (eachPass_congr followsRule_iff _ _ _).mpr h
    have heq := handleLoop_eq_of_followsRule hpasses
    have hlength := (handleLoop_sublist neighbor entries msg.entries now).length_le.trans
      (RipMessage.length_le_of_decode hdecode)
    refine ⟨hpasses, ?_, congrArg Prod.snd heq,
      handleRipEntries_induction (fun _ _ _ _ _ _ hlearns ↦ .learns hlearns) hdistinct⟩
    rw [← heq]
    exact RipMessage.make_eq_ok.mpr ⟨hlength, (List.length_map _).symm, rfl⟩

/-- A response that advertises a subnet none of whose network address is in the table. -/
theorem implementsDistanceVector_iff_absent :
    ∃ (payload : List Byte) (msg : RipMessage) (entries : RoutingTable) (neighbor : Ipv4Address)
      (now : ℕ → TimePoint), RipMessage.decode payload = .ok msg ∧ DistinctSubnets entries ∧
        EachPass neighbor (Unconfused neighbor) entries msg.entries now ∧
        (ImplementsDistanceVector neighbor entries msg.entries now ↔
          EachPass neighbor (Unconfused neighbor) entries msg.entries now) := by
  have hdecode : RipMessage.decode (oneEntry [0, 0, 0, 3]) = .ok
      { command := .response, entries := [⟨4, 0x0a000200, 0xffffff00⟩], learnedFrom := [] } := rfl
  have hdistinct : DistinctSubnets [localRoute₁] := by
    unfold DistinctSubnets
    decide
  refine ⟨_, _, [localRoute₁], { addr := 0x0a000002 }, fun _ ↦ 5, hdecode, hdistinct,
    ⟨?_, trivial⟩, implementsDistanceVector_iff hdecode _ hdistinct _ _⟩
  intro e he
  have hnone : lookup Entry.network [localRoute₁] 0x0a000200 = none := by decide
  rw [RipMessage.Entry.network] at he
  cases hnone.symm.trans he

/-- `10.0.0.0/24` is advertised to a router with a local route to `10.0.0.0/8`, and not added. -/
theorem not_implementsDistanceVector :
    ∃ (payload : List Byte) (msg : RipMessage) (entries : RoutingTable) (neighbor : Ipv4Address)
      (now : ℕ → TimePoint), RipMessage.decode payload = .ok msg ∧ DistinctSubnets entries ∧
        msg.entries.map RipMessage.Entry.subnet = [(0x0a000000, 0xffffff00)] ∧
        entries.map Entry.subnet = [(0x0a000000, 0xff000000)] ∧
        (entries.handleRipEntries msg.entries neighbor now).2 = entries ∧
        ¬ImplementsDistanceVector neighbor entries msg.entries now := by
  let entries : RoutingTable := [{ localRoute₁ with mask := 0xff000000 }]
  let ripEntry : RipMessage.Entry := ⟨2, 0x0a000000, 0xffffff00⟩
  have hdecode : RipMessage.decode
      [0, 2, 0, 1, 0, 0, 0, 1, 10, 0, 0, 0, 255, 255, 255, 0] = .ok
      { command := .response, entries := [ripEntry], learnedFrom := [] } := rfl
  have hdistinct : DistinctSubnets entries := by
    unfold DistinctSubnets
    decide
  refine ⟨_, _, entries, { addr := 0x0a000002 }, fun _ ↦ 5, hdecode, hdistinct, by decide,
    by decide, by decide, ?_⟩
  intro h
  have htable := congrFun h.passes.1.table (0x0a000000, 0xffffff00)
  rw [Function.update_apply] at htable
  exact absurd htable (by decide)

end RoutingTable

end Tns.Ip
