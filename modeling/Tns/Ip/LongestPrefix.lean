import Mathlib.Data.List.Nodup
import Tns.Ip.RoutingTable
import Tns.Library.Trace

/-!
# Unique entries

The loop that learns routes adds an entry only if no entry has its network
address, and the cleaner only drops entries.  So the network addresses stay
distinct, and of the entries that match a destination one has the greatest mask.
-/

namespace Tns.Ip

open Tns.Library

namespace RoutingTable

/-- A change of the table of a router. -/
inductive TableCall where
  | handleRipEntries (ripEntries : List RipMessage.Entry) (learnedFrom : Ipv4Address)
      (now : ℕ → TimePoint)
  | removeStaleRipEntries (expirationTime now : TimePoint)

/-- A call returns its response, or what it throws when the table has been changed. -/
def step (entries : RoutingTable) :
    TableCall → Except Fault (Except Fault RipMessage × RoutingTable)
  | .handleRipEntries ripEntries learnedFrom now =>
      .ok (entries.handleRipEntries ripEntries learnedFrom now)
  | .removeStaleRipEntries expirationTime now =>
      .ok (entries.removeStaleRipEntries expirationTime now)

abbrev Step := Transition RoutingTable TableCall (Except Fault RipMessage)

/-- What one advertised entry and the cleaner keep, every call keeps. -/
theorem step_induction {I : RoutingTable → Prop}
    (hlearn : ∀ {learnedFrom now ripEntry entries collect entries'},
      Learns learnedFrom now ripEntry entries collect entries' → I entries → I entries')
    (hremove : ∀ {entries} (expirationTime now), I entries →
      I (entries.removeStaleRipEntries expirationTime now).2)
    {t : Step} (hfires : Fires step t) (h : I t.pre) : I t.post := by
  obtain ⟨entries, call, out, entries'⟩ := t
  simp only [Fires] at hfires h ⊢
  cases call with
  | handleRipEntries ripEntries learnedFrom now =>
      obtain ⟨-, rfl⟩ := Prod.mk.inj (Except.ok.inj hfires)
      exact handleRipEntries_induction (fun _ _ _ _ _ _ hlearns ↦ hlearn hlearns) h
  | removeStaleRipEntries expirationTime now =>
      obtain ⟨-, rfl⟩ := Prod.mk.inj (Except.ok.inj hfires)
      exact hremove expirationTime now h

/-! ## Distinct network addresses -/

def networks (entries : RoutingTable) : List UInt32 := entries.map Entry.network

/-- No two entries have the same network address. -/
def Distinct (entries : RoutingTable) : Prop := entries.networks.Nodup

theorem Distinct.perm {entries entries' : RoutingTable} (h : Distinct entries)
    (hperm : entries'.Perm entries) : Distinct entries' :=
  (hperm.map Entry.network).nodup_iff.mpr h

theorem Learns.networks {learnedFrom : Ipv4Address} {now : TimePoint}
    {ripEntry : RipMessage.Entry} {entries entries' : RoutingTable} {collect : Bool}
    (h : Learns learnedFrom now ripEntry entries collect entries') :
    entries'.networks = entries.networks ∨
      ripEntry.network ∉ entries.networks ∧
        entries'.networks = entries.networks ++ [ripEntry.network] := by
  cases h with
  | ignored => exact .inl rfl
  | updated pre e post =>
      left
      simp [RoutingTable.networks, Entry.network]
  | added _ habsent =>
      right
      constructor
      · intro hmem
        obtain ⟨x, hx, heq⟩ := List.mem_map.mp hmem
        exact habsent x hx heq
      · simp [RoutingTable.networks]
  | refused => exact .inl rfl

theorem Distinct.learns {learnedFrom : Ipv4Address} {now : TimePoint}
    {ripEntry : RipMessage.Entry} {entries entries' : RoutingTable} {collect : Bool}
    (hlearns : Learns learnedFrom now ripEntry entries collect entries') (h : Distinct entries) :
    Distinct entries' := by
  unfold Distinct
  rcases hlearns.networks with heq | ⟨habsent, heq⟩
  · rw [heq]
    exact h
  · rw [heq, ← List.concat_eq_append]
    exact List.Nodup.concat habsent h

theorem Distinct.removeStaleRipEntries {entries : RoutingTable} (expirationTime now : TimePoint)
    (h : Distinct entries) :
    Distinct (entries.removeStaleRipEntries expirationTime now).2 := by
  refine Distinct.perm ?_ (removeStaleRipEntries_perm entries expirationTime now)
  exact h.sublist (List.filter_sublist.map Entry.network)

/-! ## The longest prefix -/

/-- The destination is in the subnet of the entry. -/
def Entry.isMatch (addr : Ipv4Address) (entry : Entry) : Prop :=
  sameSubnet addr entry.addr entry.mask

instance (addr : Ipv4Address) (entry : Entry) : Decidable (entry.isMatch addr) :=
  inferInstanceAs (Decidable (sameSubnet _ _ _))

theorem queryLongestPrefixMatch_eq (entries : RoutingTable) (addr : Ipv4Address) :
    entries.queryLongestPrefixMatch addr =
      (entries.filter (Entry.isMatch addr)).argmax Entry.mask := by
  rw [queryLongestPrefixMatch, List.argmax, List.foldl_filter]
  congr 1
  funext longestPrefixEntry entry
  by_cases hmatch : entry.isMatch addr
  · have hsame : sameSubnet addr entry.addr entry.mask := hmatch
    cases longestPrefixEntry <;> simp [longerPrefix, List.argAux, hmatch, hsame]
  · have hsame : ¬sameSubnet addr entry.addr entry.mask := hmatch
    simp [longerPrefix, hmatch, hsame]

/-- The lookup fails exactly if no entry matches. -/
theorem queryLongestPrefixMatch_eq_none {entries : RoutingTable} {addr : Ipv4Address} :
    entries.queryLongestPrefixMatch addr = none ↔ ∀ e ∈ entries, ¬e.isMatch addr := by
  rw [queryLongestPrefixMatch_eq, List.argmax_eq_none, List.filter_eq_nil_iff]
  simp

theorem mem_of_queryLongestPrefixMatch {entries : RoutingTable} {addr : Ipv4Address} {e : Entry}
    (h : entries.queryLongestPrefixMatch addr = some e) :
    e ∈ entries ∧ e.isMatch addr ∧ ∀ e' ∈ entries, e'.isMatch addr → e'.mask ≤ e.mask := by
  rw [queryLongestPrefixMatch_eq] at h
  have hmem := List.mem_filter.mp (List.argmax_mem h)
  refine ⟨hmem.1, of_decide_eq_true hmem.2, ?_⟩
  intro e' he' hmatch
  have hnlt := List.not_lt_of_mem_argmax (List.mem_filter.mpr ⟨he', decide_eq_true hmatch⟩) h
  exact not_lt.mp hnlt

/-- Two entries that match and have the same mask have the same network address. -/
theorem Entry.network_eq_of_isMatch {addr : Ipv4Address} {e e' : Entry} (h : e.isMatch addr)
    (h' : e'.isMatch addr) (hmask : e.mask = e'.mask) : e.network = e'.network := by
  simp only [isMatch, sameSubnet] at h h'
  rw [network, network, ← h, ← h', hmask]

theorem Distinct.eq_of_network {entries : RoutingTable} (h : Distinct entries) {e e' : Entry}
    (he : e ∈ entries) (he' : e' ∈ entries) (hnetwork : e.network = e'.network) : e = e' :=
  List.inj_on_of_nodup_map h he he' hnetwork

/-- With distinct network addresses the lookup finds the one entry with the greatest mask. -/
theorem Distinct.queryLongestPrefixMatch_eq_some {entries : RoutingTable} (h : Distinct entries)
    {addr : Ipv4Address} {e : Entry} :
    entries.queryLongestPrefixMatch addr = some e ↔
      e ∈ entries ∧ e.isMatch addr ∧
        ∀ e' ∈ entries, e'.isMatch addr → e' ≠ e → e'.mask < e.mask := by
  constructor
  · intro hquery
    obtain ⟨he, hmatch, hmax⟩ := mem_of_queryLongestPrefixMatch hquery
    refine ⟨he, hmatch, ?_⟩
    intro e' he' hmatch' hne
    apply lt_of_le_of_ne (hmax e' he' hmatch')
    intro hmask
    exact hne (h.eq_of_network he' he (Entry.network_eq_of_isMatch hmatch' hmatch hmask))
  · rintro ⟨he, hmatch, hmax⟩
    cases hquery : entries.queryLongestPrefixMatch addr with
    | none => exact absurd hmatch (queryLongestPrefixMatch_eq_none.mp hquery e he)
    | some e' =>
        obtain ⟨he', hmatch', hmax'⟩ := mem_of_queryLongestPrefixMatch hquery
        by_contra hne
        have hlt := hmax e' he' hmatch' fun heq ↦ hne (congrArg some heq)
        exact absurd (hmax' e he hmatch) (not_le_of_gt hlt)

theorem Distinct.queryLongestPrefixMatch_perm {entries entries' : RoutingTable}
    (h : Distinct entries) (hperm : entries'.Perm entries) (addr : Ipv4Address) :
    entries'.queryLongestPrefixMatch addr = entries.queryLongestPrefixMatch addr := by
  apply Option.ext
  intro e
  simp only [h.queryLongestPrefixMatch_eq_some,
    (h.perm hperm).queryLongestPrefixMatch_eq_some, hperm.mem_iff]

/-! ## Runs -/

theorem Distinct.of_run {entries₀ entries : RoutingTable} {tr : List Step} (h : Distinct entries₀)
    (hrun : Trace step entries₀ tr entries) : Distinct entries :=
  (hrun.invariant (I := Distinct) (A := fun _ ↦ True)
    (fun _ hfires hpre _ ↦ step_induction .learns .removeStaleRipEntries hfires hpre) h
    fun _ _ ↦ trivial).1

/-- In every table reached from local routes with distinct network addresses the network addresses
are distinct, and a lookup does not depend on the order of the entries. -/
theorem lookup_of_run {entries₀ entries : RoutingTable} {tr : List Step}
    (hdistinct : Distinct entries₀)
    (hrun : Trace step entries₀ tr entries) :
    Distinct entries ∧ ∀ addr : Ipv4Address,
      (∀ entries' : RoutingTable, entries'.Perm entries →
        entries'.queryLongestPrefixMatch addr = entries.queryLongestPrefixMatch addr) ∧
      (∀ e, entries.queryLongestPrefixMatch addr = some e ↔
        e ∈ entries ∧ e.isMatch addr ∧
          ∀ e' ∈ entries, e'.isMatch addr → e' ≠ e → e'.mask < e.mask) ∧
      (entries.queryLongestPrefixMatch addr = none ↔ ∀ e ∈ entries, ¬e.isMatch addr) := by
  have h := hdistinct.of_run hrun
  refine ⟨h, fun addr ↦ ⟨?_, ?_, queryLongestPrefixMatch_eq_none⟩⟩
  · intro entries' hperm
    exact h.queryLongestPrefixMatch_perm hperm addr
  · intro e
    exact h.queryLongestPrefixMatch_eq_some

/-- Two local routes, a subnet advertised twice in one response, and a pass of the cleaner after
which the learned route is gone. -/
theorem lookup_of_run_cleaned :
    ∃ (entries₀ entries : RoutingTable) (tr : List Step),
      Distinct entries₀ ∧ Trace step entries₀ tr entries ∧
        tr.map (·.post.length) = [3, 2] ∧ entries = entries₀ ∧ Distinct entries ∧
        ∀ addr : Ipv4Address,
          (∀ entries' : RoutingTable, entries'.Perm entries →
            entries'.queryLongestPrefixMatch addr = entries.queryLongestPrefixMatch addr) ∧
          (∀ e, entries.queryLongestPrefixMatch addr = some e ↔
            e ∈ entries ∧ e.isMatch addr ∧
              ∀ e' ∈ entries, e'.isMatch addr → e' ≠ e → e'.mask < e.mask) ∧
          (entries.queryLongestPrefixMatch addr = none ↔ ∀ e ∈ entries, ¬e.isMatch addr) := by
  let route (addr : UInt32) (i : ℕ) : Entry :=
    { type := .local, addr := { addr }, mask := 0xffffff00, gateway := none, interfaceIt := some i
      metric := some 0, lastRefresh := 0 }
  let entries₀ : RoutingTable := [route 0x0a000001 0, route 0x0a000101 1]
  let ripEntries : List RipMessage.Entry :=
    [⟨1, 0x0a000200, 0xffffff00⟩, ⟨2, 0x0a000200, 0xffffff00⟩]
  have hdistinct : Distinct entries₀ := by
    unfold Distinct
    decide
  let learned := entries₀ ++ [Entry.ofRip ⟨2, 0x0a000200, 0xffffff00⟩ { addr := 0x0a000002 } 5]
  have hlearned : (entries₀.handleRipEntries ripEntries { addr := 0x0a000002 } fun _ ↦ 5).2 =
      learned := by decide
  have hremoved : (learned.removeStaleRipEntries 12 20).2 = entries₀ := by
    simp [removeStaleRipEntries, removeLoop, learned, entries₀, route, Entry.ofRip, swapPop]
  have hfirst : step entries₀ (.handleRipEntries ripEntries { addr := 0x0a000002 } fun _ ↦ 5) =
      .ok ((entries₀.handleRipEntries ripEntries { addr := 0x0a000002 } fun _ ↦ 5).1, learned) :=
    hlearned ▸ rfl
  have hsecond : step learned (.removeStaleRipEntries 12 20) =
      .ok ((learned.removeStaleRipEntries 12 20).1, entries₀) := hremoved ▸ rfl
  have hrun : Trace step entries₀ _ entries₀ := .cons hfirst (.cons hsecond (.nil _))
  exact ⟨entries₀, _, _, hdistinct, hrun, rfl, rfl, lookup_of_run hdistinct hrun⟩

end RoutingTable

end Tns.Ip
