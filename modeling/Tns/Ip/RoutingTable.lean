import Mathlib.Data.List.MinMax
import Mathlib.Data.List.Perm.Basic
import Tns.Ip.RipMessage

/-!
# The routing table

A vector of entries, searched from the front.  `handleRipEntries_` looks an
advertised subnet up by its network address, and `removeStaleRipEntries_` fills
each gap with the last entry.
-/

namespace Tns.Ip

/-- `RoutingTable::EntryType`. -/
inductive EntryType where
  | «local» | rip | static
  deriving DecidableEq, Repr

/-- `RoutingTable::Entry`.  `interfaceIt` is a position in `interfaces_`, and `none` is
`interfaces_.end()`. -/
structure RoutingTable.Entry where
  type : EntryType
  addr : Ipv4Address
  mask : UInt32
  gateway : Option Ipv4Address
  interfaceIt : Option ℕ
  metric : Option ℕ
  lastRefresh : TimePoint
  deriving DecidableEq, Repr

/-- `entries_`. -/
abbrev RoutingTable := List RoutingTable.Entry

/-- A network address and a mask. -/
abbrev SubnetKey := UInt32 × UInt32

namespace RipMessage.Entry

/-- The network address that an advertised entry is looked up by. -/
def network (entry : RipMessage.Entry) : UInt32 := entry.address &&& entry.mask

def subnet (entry : RipMessage.Entry) : SubnetKey := (entry.network, entry.mask)

end RipMessage.Entry

namespace RoutingTable

namespace Entry

def network (entry : Entry) : UInt32 := entry.addr.addr &&& entry.mask

def subnet (entry : Entry) : SubnetKey := (entry.network, entry.mask)

/-- The entry of a local route. -/
def isLocal (entry : Entry) : Prop := entry.type = .local

instance (entry : Entry) : Decidable entry.isLocal := inferInstanceAs (Decidable (_ = _))

/-- `ripEntry.cost < it->metric`: no number is less than a metric that is missing. -/
def exceeds (entry : Entry) (cost : UInt32) : Prop := ∃ m ∈ entry.metric, cost.toNat < m

instance (entry : Entry) (cost : UInt32) : Decidable (entry.exceeds cost) :=
  decidable_of_iff (entry.metric.any fun m ↦ cost.toNat < m) (by
    cases h : entry.metric <;> simp [exceeds, h])

/-- What the loop of `handleRipEntries_` does with the entry it finds, and whether it goes on to
collect the triggered update. -/
def update (entry : Entry) (cost : UInt32) (learnedFrom : Ipv4Address) (now : TimePoint) :
    Bool × Entry :=
  if entry.type = .local then
    (false, entry)
  else if entry.exceeds cost then
    (true, { entry with
      lastRefresh := now, metric := some cost.toNat, gateway := some learnedFrom })
  else if entry.gateway = some learnedFrom then
    let entry := { entry with lastRefresh := now }
    if some cost.toNat = entry.metric then
      (false, entry)
    else (true, { entry with metric := some cost.toNat })
  else (false, entry)

/-- The entry that `handleRipEntries_` adds. -/
def ofRip (ripEntry : RipMessage.Entry) (learnedFrom : Ipv4Address) (now : TimePoint) : Entry where
  type := .rip
  addr := { addr := ripEntry.address }
  mask := ripEntry.mask
  gateway := some learnedFrom
  interfaceIt := none
  metric := some ripEntry.cost.toNat
  lastRefresh := now

@[simp] theorem network_ofRip (ripEntry : RipMessage.Entry) (learnedFrom : Ipv4Address)
    (now : TimePoint) : (ofRip ripEntry learnedFrom now).network = ripEntry.network := rfl

end Entry

/-! ## Lookups -/

/-- `queryFirstMatch_`. -/
def queryFirstMatch (entries : RoutingTable) (addr : Ipv4Address) : Option Entry :=
  entries.find? fun entry ↦ sameSubnet addr entry.addr entry.mask

/-- The body of the loop of `queryLongestPrefixMatch_`. -/
def longerPrefix (addr : Ipv4Address) (longestPrefixEntry : Option Entry) (entry : Entry) :
    Option Entry :=
  if sameSubnet addr entry.addr entry.mask then
    match longestPrefixEntry with
    | none => some entry
    | some longest => if longest.mask < entry.mask then some entry else some longest
  else longestPrefixEntry

/-- `queryLongestPrefixMatch_`. -/
def queryLongestPrefixMatch (entries : RoutingTable) (addr : Ipv4Address) : Option Entry :=
  entries.foldl (longerPrefix addr) none

inductive QueryStrategy where
  | firstMatch | longestPrefixMatch

/-- `query_`. -/
def query (entries : RoutingTable) (addr : Ipv4Address) :
    (strategy : QueryStrategy := .longestPrefixMatch) → Option Entry
  | .firstMatch => entries.queryFirstMatch addr
  | .longestPrefixMatch => entries.queryLongestPrefixMatch addr

/-- `findEntryNoLock_`. -/
def findEntry (entries : RoutingTable) (addr : Ipv4Address) (maskHost : UInt32) :
    Option (Fin entries.length) :=
  entries.findFinIdx? fun entry ↦ entry.addr.addr &&& entry.mask = addr.addr &&& maskHost

/-! ## Updates -/

/-- `addEntry_`, for a CIDR that has been parsed. -/
def addEntry (entries : RoutingTable) (type : EntryType) (subnet : Subnet)
    (gateway : Option Ipv4Address) (interfaceIt : Option ℕ) (metric : Option ℕ) (now : TimePoint) :
    RoutingTable :=
  entries ++ [{
    type, addr := subnet.address, mask := subnet.mask, gateway, interfaceIt, metric
    lastRefresh := now }]

/-- The local route that `enableLocalRoute_` and `disableLocalRoute_` find.  Neither changes
it. -/
def localRoute (entries : RoutingTable) (interfaceIt : ℕ) : Option Entry :=
  entries.find? fun entry ↦ entry.type = .local ∧ entry.interfaceIt = some interfaceIt

def localRouteResponse (entries : RoutingTable) (interfaceIt : ℕ) (cost : UInt32) :
    Except Fault RipMessage :=
  match entries.localRoute interfaceIt with
  | some it =>
      RipMessage.makeResponse [{ cost, address := it.addr.addr, mask := it.mask }] [it.gateway]
  | none => RipMessage.makeResponse [] []

def enableLocalRoute (entries : RoutingTable) (interfaceIt : ℕ) : Except Fault RipMessage :=
  entries.localRouteResponse interfaceIt 0

def disableLocalRoute (entries : RoutingTable) (interfaceIt : ℕ) : Except Fault RipMessage :=
  entries.localRouteResponse interfaceIt INFINITY

/-- What `generateRipEntries_` advertises of an entry. -/
def Entry.advertise (entry : Entry) : Except Fault RipMessage.Entry :=
  match entry.metric with
  | some metric => .ok { cost := .ofNat metric, address := entry.addr.addr, mask := entry.mask }
  | none => .error .badOptionalAccess

/-- `generateRipEntries_`. -/
def generateRipEntries (entries : RoutingTable) : Except Fault RipMessage := do
  let ripEntries ← entries.mapM Entry.advertise
  RipMessage.makeResponse ripEntries (entries.map Entry.gateway)

/-- The body of the loop of `handleRipEntries_`, and whether it collects the triggered update. -/
def handleRipEntry (entries : RoutingTable) (ripEntry : RipMessage.Entry)
    (learnedFrom : Ipv4Address) (now : TimePoint) : Bool × RoutingTable :=
  match entries.findEntry { addr := ripEntry.address } ripEntry.mask with
  | some it =>
      let (collect, entry) := entries[it].update ripEntry.cost learnedFrom now
      (collect, entries.set it entry)
  | none =>
      if ripEntry.cost < INFINITY then
        (true, entries ++ [.ofRip ripEntry learnedFrom now])
      else (false, entries)

/-- The loop of `handleRipEntries_`.  The clock is read for each entry. -/
def handleLoop (learnedFrom : Ipv4Address) :
    RoutingTable → List RipMessage.Entry → (ℕ → TimePoint) → List RipMessage.Entry × RoutingTable
  | entries, [], _ => ([], entries)
  | entries, ripEntry :: ripEntries, now =>
      let (collect, entries) := entries.handleRipEntry ripEntry learnedFrom (now 0)
      let (updatedEntries, entries) :=
        handleLoop learnedFrom entries ripEntries fun i ↦ now (i + 1)
      (if collect then ripEntry :: updatedEntries else updatedEntries, entries)

/-- `handleRipEntries_`.  The table stays changed if the response is too long. -/
def handleRipEntries (entries : RoutingTable) (ripEntries : List RipMessage.Entry)
    (learnedFrom : Ipv4Address) (now : ℕ → TimePoint) : Except Fault RipMessage × RoutingTable :=
  let (updatedEntries, entries) := handleLoop learnedFrom entries ripEntries now
  (RipMessage.makeResponse updatedEntries (updatedEntries.map fun _ ↦ some learnedFrom), entries)

/-- `*it = entries_.back(); entries_.pop_back();`, for the entries after `it`. -/
def swapPop (rest : RoutingTable) : RoutingTable :=
  if h : rest ≠ [] then rest.getLast h :: rest.dropLast else []

theorem swapPop_perm (rest : RoutingTable) : (swapPop rest).Perm rest := by
  unfold swapPop
  split
  · rename_i h
    exact (List.perm_append_singleton _ _).symm.trans (.of_eq (List.dropLast_append_getLast h))
  · rename_i h
    rw [not_not.mp h]

@[simp] theorem length_swapPop (rest : RoutingTable) : (swapPop rest).length = rest.length :=
  (swapPop_perm rest).length_eq

/-- The loop of `removeStaleRipEntries_`, from the iterator to the end: what it collects for the
triggered update, and what it keeps. -/
def removeLoop (expirationTime : TimePoint) (now : TimePoint) :
    RoutingTable → List RipMessage.Entry × RoutingTable
  | [] => ([], [])
  | it :: rest =>
      if it.type = .rip then
        if it.metric = some INFINITY.toNat then
          removeLoop expirationTime now (swapPop rest)
        else if expirationTime < now - it.lastRefresh then
          let (expiredEntries, kept) := removeLoop expirationTime now (swapPop rest)
          ({ cost := INFINITY, address := it.addr.addr, mask := it.mask } :: expiredEntries, kept)
        else
          let (expiredEntries, kept) := removeLoop expirationTime now rest
          (expiredEntries, it :: kept)
      else
        let (expiredEntries, kept) := removeLoop expirationTime now rest
        (expiredEntries, it :: kept)
termination_by rest => rest.length
decreasing_by all_goals simp

/-- `removeStaleRipEntries_`. -/
def removeStaleRipEntries (entries : RoutingTable) (expirationTime now : TimePoint) :
    Except Fault RipMessage × RoutingTable :=
  let (expiredEntries, entries) := removeLoop expirationTime now entries
  (RipMessage.makeResponse expiredEntries (expiredEntries.map fun _ ↦ none), entries)

/-! ## What an update does -/

theorem Entry.update_eq (entry : Entry) (cost : UInt32) (learnedFrom : Ipv4Address)
    (now : TimePoint) :
    entry.update cost learnedFrom now =
      if entry.isLocal ∨ ¬entry.exceeds cost ∧ entry.gateway ≠ some learnedFrom then (false, entry)
      else (decide (entry.metric ≠ some cost.toNat), { entry with
        lastRefresh := now, metric := some cost.toNat, gateway := some learnedFrom }) := by
  unfold update isLocal
  by_cases hlocal : entry.type = .local
  · simp [hlocal]
  by_cases hexceeds : entry.exceeds cost
  · have hne : entry.metric ≠ some cost.toNat := by
      intro heq
      obtain ⟨m, hm, hlt⟩ := hexceeds
      rw [heq, Option.mem_some_iff] at hm
      omega
    simp [hlocal, hexceeds, hne]
  by_cases hgateway : entry.gateway = some learnedFrom
  · by_cases hmetric : entry.metric = some cost.toNat
    · simp [hlocal, hexceeds, hgateway, hmetric]
    · simp [hlocal, hexceeds, hgateway, hmetric, Ne.symm hmetric]
  · simp [hlocal, hexceeds, hgateway]

/-- An entry keeps its type, its subnet and its interface. -/
structure Entry.SameSubnet (e e' : Entry) : Prop where
  type : e'.type = e.type
  addr : e'.addr = e.addr
  mask : e'.mask = e.mask
  interfaceIt : e'.interfaceIt = e.interfaceIt

/-- Everything that one advertised entry can do to a table. -/
inductive Learns (learnedFrom : Ipv4Address) (now : TimePoint) (ripEntry : RipMessage.Entry) :
    RoutingTable → Bool → RoutingTable → Prop
  | ignored (pre : RoutingTable) (e : Entry) (post : RoutingTable)
      (hpre : ∀ x ∈ pre, x.network ≠ ripEntry.network) (hnetwork : e.network = ripEntry.network)
      (hkeep : e.isLocal ∨ ¬e.exceeds ripEntry.cost ∧ e.gateway ≠ some learnedFrom) :
      Learns learnedFrom now ripEntry (pre ++ e :: post) false (pre ++ e :: post)
  | updated (pre : RoutingTable) (e : Entry) (post : RoutingTable)
      (hpre : ∀ x ∈ pre, x.network ≠ ripEntry.network) (hnetwork : e.network = ripEntry.network)
      (hlocal : ¬e.isLocal) (hupdate : e.exceeds ripEntry.cost ∨ e.gateway = some learnedFrom) :
      Learns learnedFrom now ripEntry (pre ++ e :: post)
        (decide (e.metric ≠ some ripEntry.cost.toNat))
        (pre ++ { e with
          lastRefresh := now
          metric := some ripEntry.cost.toNat
          gateway := some learnedFrom } :: post)
  | added (entries : RoutingTable) (habsent : ∀ x ∈ entries, x.network ≠ ripEntry.network)
      (hcost : ripEntry.cost < INFINITY) :
      Learns learnedFrom now ripEntry entries true (entries ++ [.ofRip ripEntry learnedFrom now])
  | refused (entries : RoutingTable) (habsent : ∀ x ∈ entries, x.network ≠ ripEntry.network)
      (hcost : ¬ripEntry.cost < INFINITY) :
      Learns learnedFrom now ripEntry entries false entries

/-- A pass of the loop over the advertised entry has added or updated the entry. -/
structure Entry.LearnedFrom (learnedFrom : Ipv4Address) (ripEntry : RipMessage.Entry)
    (e : Entry) : Prop where
  notLocal : ¬e.isLocal
  network : e.network = ripEntry.network
  metric : e.metric = some ripEntry.cost.toNat
  gateway : e.gateway = some learnedFrom

section Learns

variable {learnedFrom : Ipv4Address} {now : TimePoint} {ripEntry : RipMessage.Entry}
  {entries entries' : RoutingTable} {collect : Bool}

/-- An entry of the table after a pass is an old one, an update of an old one, or a new one. -/
theorem Learns.mem_cases (h : Learns learnedFrom now ripEntry entries collect entries') {e : Entry}
    (he : e ∈ entries') : e ∈ entries ∨ e.LearnedFrom learnedFrom ripEntry ∧
      ((∃ e₀ ∈ entries, ¬e₀.isLocal ∧ e₀.subnet = e.subnet ∧ e₀.interfaceIt = e.interfaceIt) ∨
        e.subnet = ripEntry.subnet ∧ e.interfaceIt = none ∧ ripEntry.cost < INFINITY ∧
          ∀ x ∈ entries, x.network ≠ ripEntry.network) := by
  cases h with
  | ignored => exact .inl he
  | updated pre e₀ post hpre hnetwork hlocal =>
      rw [List.mem_append, List.mem_cons] at he
      rcases he with he | rfl | he
      · exact .inl (List.mem_append_left _ he)
      · exact .inr ⟨⟨hlocal, hnetwork, rfl, rfl⟩, .inl ⟨e₀, by simp, hlocal, rfl, rfl⟩⟩
      · exact .inl (List.mem_append_right _ (List.mem_cons_of_mem _ he))
  | added _ habsent hcost =>
      rcases List.mem_append.mp he with he | he
      · exact .inl he
      · obtain rfl := List.mem_singleton.mp he
        exact .inr ⟨⟨nofun, rfl, rfl, rfl⟩, .inr ⟨rfl, rfl, hcost, habsent⟩⟩
  | refused => exact .inl he

theorem Learns.mem_of_isLocal (h : Learns learnedFrom now ripEntry entries collect entries')
    {e : Entry} (he : e ∈ entries) (hlocal : e.isLocal) : e ∈ entries' := by
  cases h with
  | ignored => exact he
  | updated pre e₀ post hpre hnetwork hlocal₀ =>
      rw [List.mem_append, List.mem_cons] at he ⊢
      rcases he with he | rfl | he
      · exact .inl he
      · exact absurd hlocal hlocal₀
      · exact .inr (.inr he)
  | added => exact List.mem_append_left _ he
  | refused => exact he

end Learns

theorem exists_of_findEntry {entries : RoutingTable} {addr : Ipv4Address} {maskHost : UInt32}
    {it : Fin entries.length} (h : entries.findEntry addr maskHost = some it) :
    ∃ pre post, entries = pre ++ entries[it] :: post ∧
      (∀ x ∈ pre, x.network ≠ addr.addr &&& maskHost) ∧
      entries[it].network = addr.addr &&& maskHost ∧
      ∀ e, entries.set it e = pre ++ e :: post := by
  simp only [findEntry, List.findFinIdx?_eq_some_iff, decide_eq_true_eq] at h
  obtain ⟨hit, hbefore⟩ := h
  refine ⟨entries.take it, entries.drop (it + 1), ?_, ?_, hit, ?_⟩
  · exact (List.take_append_drop it.val entries).symm.trans (by
      rw [List.drop_eq_getElem_cons it.isLt]
      rfl)
  · intro x hx
    obtain ⟨i, hi, rfl⟩ := List.mem_take_iff_getElem.mp hx
    exact hbefore ⟨i, by omega⟩ (by
      rw [Fin.lt_def]
      dsimp only
      omega)
  · intro e
    exact List.set_eq_take_append_cons_drop.trans (if_pos it.isLt)

theorem learns_handleRipEntry (entries : RoutingTable) (ripEntry : RipMessage.Entry)
    (learnedFrom : Ipv4Address) (now : TimePoint) :
    Learns learnedFrom now ripEntry entries
      (entries.handleRipEntry ripEntry learnedFrom now).1
      (entries.handleRipEntry ripEntry learnedFrom now).2 := by
  unfold handleRipEntry
  split
  · rename_i it h
    obtain ⟨pre, post, hentries, hpre, hnetwork, hset⟩ := exists_of_findEntry h
    simp only [hset, Entry.update_eq]
    generalize entries[it] = e at hentries hnetwork
    subst hentries
    split
    · exact .ignored pre e post hpre hnetwork ‹_›
    · rename_i hupdate
      simp only [not_or, not_and_or, not_not] at hupdate
      exact .updated pre e post hpre hnetwork hupdate.1 hupdate.2
  · rename_i h
    have habsent : ∀ x ∈ entries, x.network ≠ ripEntry.network := by
      simpa [findEntry, Entry.network, RipMessage.Entry.network] using h
    split
    · exact .added entries habsent ‹_›
    · exact .refused entries habsent ‹_›

/-- What holds of the entries handled so far holds of all after the loop. -/
theorem handleLoop_induction_handled {I : List RipMessage.Entry → RoutingTable → Prop}
    {learnedFrom : Ipv4Address} {ripEntries : List RipMessage.Entry}
    (hstep : ∀ handled, ∀ ripEntry ∈ ripEntries, ∀ now entries collect entries',
      Learns learnedFrom now ripEntry entries collect entries' →
      I handled entries → I (handled ++ [ripEntry]) entries')
    {entries : RoutingTable} {now : ℕ → TimePoint} (h : I [] entries) :
    I ripEntries (handleLoop learnedFrom entries ripEntries now).2 := by
  suffices hall : ∀ rest ⊆ ripEntries, ∀ handled entries now, I handled entries →
      I (handled ++ rest) (handleLoop learnedFrom entries rest now).2 from
    hall ripEntries (List.Subset.refl _) [] entries now h
  intro rest hrest
  induction rest with
  | nil =>
      intro handled entries now h
      rwa [List.append_nil]
  | cons ripEntry rest ih =>
      intro handled entries now h
      obtain ⟨hmem, hrest⟩ := List.cons_subset.mp hrest
      have hpass := hstep handled ripEntry hmem _ _ _ _
        (learns_handleRipEntry entries ripEntry learnedFrom (now 0)) h
      have htail := ih hrest _ _ (fun i ↦ now (i + 1)) hpass
      rwa [List.append_assoc, List.singleton_append] at htail

/-- What every pass of the loop keeps holds of the table it leaves. -/
theorem handleLoop_induction {I : RoutingTable → Prop} {learnedFrom : Ipv4Address}
    {ripEntries : List RipMessage.Entry}
    (hstep : ∀ ripEntry ∈ ripEntries, ∀ now entries collect entries',
      Learns learnedFrom now ripEntry entries collect entries' → I entries → I entries')
    {entries : RoutingTable} {now : ℕ → TimePoint} (h : I entries) :
    I (handleLoop learnedFrom entries ripEntries now).2 :=
  handleLoop_induction_handled (I := fun _ ↦ I) (fun _ ↦ hstep) h

/-- What is collected for a triggered update has been received. -/
theorem handleLoop_sublist (learnedFrom : Ipv4Address) (entries : RoutingTable)
    (ripEntries : List RipMessage.Entry) (now : ℕ → TimePoint) :
    (handleLoop learnedFrom entries ripEntries now).1.Sublist ripEntries := by
  induction ripEntries generalizing entries now with
  | nil => exact .slnil
  | cons ripEntry ripEntries ih =>
      have htail := ih (entries.handleRipEntry ripEntry learnedFrom (now 0)).2 fun i ↦ now (i + 1)
      simp only [handleLoop]
      split
      · exact htail.cons_cons ripEntry
      · exact htail.cons ripEntry

theorem handleRipEntries_induction {I : RoutingTable → Prop} {learnedFrom : Ipv4Address}
    {ripEntries : List RipMessage.Entry}
    (hstep : ∀ ripEntry ∈ ripEntries, ∀ now entries collect entries',
      Learns learnedFrom now ripEntry entries collect entries' → I entries → I entries')
    {entries : RoutingTable} {now : ℕ → TimePoint} (h : I entries) :
    I (entries.handleRipEntries ripEntries learnedFrom now).2 :=
  handleLoop_induction hstep h

/-! ## What is generated -/

theorem mem_zip_of_forall₂ {α β γ : Type} {R : α → β → Prop} {f : α → γ} {as : List α}
    {bs : List β} (h : List.Forall₂ R as bs) {a : α} (ha : a ∈ as) :
    ∃ b, (b, f a) ∈ bs.zip (as.map f) ∧ R a b := by
  induction h with
  | nil => cases ha
  | cons hhead _ ih =>
      rcases List.mem_cons.mp ha with rfl | ha
      · exact ⟨_, List.mem_cons_self, hhead⟩
      · obtain ⟨b, hb, hab⟩ := ih ha
        exact ⟨b, List.mem_cons_of_mem _ hb, hab⟩

theorem exists_of_mem_zip {α β γ : Type} {R : α → β → Prop} {f : α → γ} {as : List α}
    {bs : List β} (h : List.Forall₂ R as bs) {b : β} {c : γ} (hmem : (b, c) ∈ bs.zip (as.map f)) :
    ∃ a ∈ as, R a b ∧ c = f a := by
  induction h with
  | nil => cases hmem
  | cons hhead _ ih =>
      rcases List.mem_cons.mp hmem with heq | hmem
      · obtain ⟨rfl, rfl⟩ := Prod.mk.inj heq
        exact ⟨_, List.mem_cons_self, hhead, rfl⟩
      · obtain ⟨a, ha, hab, hc⟩ := ih hmem
        exact ⟨a, List.mem_cons_of_mem _ ha, hab, hc⟩

theorem generateRipEntries_cases {entries : RoutingTable} {msg : RipMessage}
    (h : entries.generateRipEntries = .ok msg) : msg.command = .response ∧ msg.Made ∧
      List.Forall₂ (fun e ripEntry ↦ Entry.advertise e = .ok ripEntry) entries msg.entries ∧
        msg.learnedFrom = entries.map Entry.gateway := by
  simp only [generateRipEntries, Except.bind_eq_ok] at h
  obtain ⟨ripEntries, hmap, hmake⟩ := h
  have hmade := RipMessage.made_of_make hmake
  obtain ⟨-, -, rfl⟩ := RipMessage.make_eq_ok.mp hmake
  exact ⟨rfl, hmade, Except.mapM_eq_ok.mp hmap, rfl⟩

/-- Every entry of the table is advertised to every neighbour. -/
theorem mem_poisoned_of_generateRipEntries {entries : RoutingTable} {msg : RipMessage}
    (h : entries.generateRipEntries = .ok msg) {e : Entry} (he : e ∈ entries)
    (destIP : Ipv4Address) :
    ∃ ripEntry, e.advertise = .ok ripEntry ∧
      RipMessage.poison destIP ripEntry e.gateway ∈ msg.poisoned destIP := by
  obtain ⟨-, -, hall, hlearned⟩ := generateRipEntries_cases h
  obtain ⟨ripEntry, hzip, hadvertise⟩ := mem_zip_of_forall₂ (f := Entry.gateway) hall he
  refine ⟨ripEntry, hadvertise, ?_⟩
  rw [RipMessage.poisoned, hlearned, ← List.map_uncurry_zip_eq_zipWith]
  exact List.mem_map_of_mem hzip

/-- Nothing else is advertised. -/
theorem exists_of_mem_poisoned {entries : RoutingTable} {msg : RipMessage}
    (h : entries.generateRipEntries = .ok msg) {destIP : Ipv4Address} {entry : RipMessage.Entry}
    (hentry : entry ∈ msg.poisoned destIP) :
    ∃ e ∈ entries, ∃ ripEntry, e.advertise = .ok ripEntry ∧
      entry = RipMessage.poison destIP ripEntry e.gateway := by
  obtain ⟨-, -, hall, hlearned⟩ := generateRipEntries_cases h
  rw [RipMessage.poisoned, hlearned, ← List.map_uncurry_zip_eq_zipWith] at hentry
  obtain ⟨⟨ripEntry, learnedFrom⟩, hzip, rfl⟩ := List.mem_map.mp hentry
  obtain ⟨e, he, hadvertise, rfl⟩ := exists_of_mem_zip hall hzip
  exact ⟨e, he, ripEntry, hadvertise, rfl⟩

/-! ## What the cleaner does -/

/-- The cleaner keeps an entry. -/
def Entry.isFresh (expirationTime now : TimePoint) (entry : Entry) : Prop :=
  entry.type = .rip → entry.metric ≠ some INFINITY.toNat ∧ ¬expirationTime < now - entry.lastRefresh

instance (expirationTime now : TimePoint) (entry : Entry) :
    Decidable (entry.isFresh expirationTime now) :=
  inferInstanceAs (Decidable (_ → _))

/-- The cleaner keeps the fresh entries, in some order. -/
theorem removeLoop_perm (expirationTime now : TimePoint) (entries : RoutingTable) :
    (removeLoop expirationTime now entries).2.Perm
      (entries.filter (Entry.isFresh expirationTime now)) := by
  fun_induction removeLoop expirationTime now entries with
  | case1 => exact .nil
  | case2 it rest hrip hmetric ih =>
      rw [List.filter_cons_of_neg (by simp [Entry.isFresh, hrip, hmetric])]
      exact ih.trans ((swapPop_perm rest).filter _)
  | case3 it rest hrip hmetric hexpired expiredEntries kept heq ih =>
      rw [List.filter_cons_of_neg (by simp [Entry.isFresh, hrip, hexpired])]
      rw [heq] at ih
      exact ih.trans ((swapPop_perm rest).filter _)
  | case4 it rest hrip hmetric hexpired expiredEntries kept heq ih =>
      rw [List.filter_cons_of_pos (by
        simp only [Entry.isFresh, hrip, hexpired, decide_eq_true_eq]
        exact fun _ ↦ ⟨hmetric, not_false⟩)]
      rw [heq] at ih
      exact ih.cons it
  | case5 it rest hrip expiredEntries kept heq ih =>
      rw [List.filter_cons_of_pos (by simp [Entry.isFresh, hrip])]
      rw [heq] at ih
      exact ih.cons it

theorem removeStaleRipEntries_perm (entries : RoutingTable) (expirationTime now : TimePoint) :
    (entries.removeStaleRipEntries expirationTime now).2.Perm
      (entries.filter (Entry.isFresh expirationTime now)) :=
  removeLoop_perm expirationTime now entries

/-- The cleaner removes an entry for its age. -/
def Entry.isAged (expirationTime now : TimePoint) (entry : Entry) : Prop :=
  entry.type = .rip ∧ entry.metric ≠ some INFINITY.toNat ∧ expirationTime < now - entry.lastRefresh

instance (expirationTime now : TimePoint) (entry : Entry) :
    Decidable (entry.isAged expirationTime now) :=
  inferInstanceAs (Decidable (_ ∧ _))

/-- What the triggered update says of an entry that is removed for its age. -/
def Entry.withdraw (entry : Entry) : RipMessage.Entry where
  cost := INFINITY
  address := entry.addr.addr
  mask := entry.mask

/-- The cleaner withdraws the entries that it removes for their age, in some order. -/
theorem removeLoop_withdraw_perm (expirationTime now : TimePoint) (entries : RoutingTable) :
    (removeLoop expirationTime now entries).1.Perm
      ((entries.filter (Entry.isAged expirationTime now)).map Entry.withdraw) := by
  have hswap (rest : RoutingTable) :
      (((swapPop rest).filter (Entry.isAged expirationTime now)).map Entry.withdraw).Perm
        ((rest.filter (Entry.isAged expirationTime now)).map Entry.withdraw) :=
    ((swapPop_perm rest).filter _).map _
  fun_induction removeLoop expirationTime now entries with
  | case1 => exact .nil
  | case2 it rest hrip hmetric ih =>
      rw [List.filter_cons_of_neg (by simp [Entry.isAged, hmetric])]
      exact ih.trans (hswap rest)
  | case3 it rest hrip hmetric hexpired expiredEntries kept heq ih =>
      have haged : it.isAged expirationTime now := ⟨hrip, hmetric, hexpired⟩
      rw [List.filter_cons_of_pos (by simpa using haged), List.map_cons]
      rw [heq] at ih
      exact (ih.trans (hswap rest)).cons it.withdraw
  | case4 it rest hrip hmetric hexpired expiredEntries kept heq ih =>
      rw [List.filter_cons_of_neg (by simp [Entry.isAged, hexpired])]
      rwa [heq] at ih
  | case5 it rest hrip expiredEntries kept heq ih =>
      rw [List.filter_cons_of_neg (by simp [Entry.isAged, hrip])]
      rwa [heq] at ih

theorem of_mem_removeLoop {expirationTime now : TimePoint} {entries : RoutingTable}
    {ripEntry : RipMessage.Entry} (h : ripEntry ∈ (removeLoop expirationTime now entries).1) :
    ripEntry.cost = INFINITY ∧ ∃ e ∈ entries, e.subnet = ripEntry.subnet := by
  rw [(removeLoop_withdraw_perm expirationTime now entries).mem_iff] at h
  obtain ⟨e, he, rfl⟩ := List.mem_map.mp h
  exact ⟨rfl, e, List.mem_of_mem_filter he, rfl⟩

theorem mem_of_mem_removeStaleRipEntries {entries : RoutingTable} {expirationTime now : TimePoint}
    {e : Entry} (h : e ∈ (entries.removeStaleRipEntries expirationTime now).2) : e ∈ entries :=
  List.mem_of_mem_filter ((removeStaleRipEntries_perm entries expirationTime now).mem_iff.mp h)

/-- A response that withdraws `removed`, with an entry for each of its entries. -/
structure Withdraws (removed : RoutingTable) (msg : RipMessage) : Prop where
  command : msg.command = .response
  entries : msg.entries.Perm (removed.map Entry.withdraw)
  learnedFrom : msg.learnedFrom = msg.entries.map fun _ ↦ none

/-- The cleaner keeps exactly the fresh entries, and withdraws exactly those that it removes for
their age if a response can hold them. -/
theorem removeStaleRipEntries_exact (entries : RoutingTable) (expirationTime now : TimePoint) :
    (entries.removeStaleRipEntries expirationTime now).2.Perm
        (entries.filter (Entry.isFresh expirationTime now)) ∧
      (entries.countP (Entry.isAged expirationTime now) ≤ 65535 ∧
          (∃ msg, (entries.removeStaleRipEntries expirationTime now).1 = .ok msg ∧
            Withdraws (entries.filter (Entry.isAged expirationTime now)) msg) ∨
        65535 < entries.countP (Entry.isAged expirationTime now) ∧
          (entries.removeStaleRipEntries expirationTime now).1 = .error (.invalidArgument
            "RipMessage::RipMessage() : Number of entries is greater than limit of uint16_t")) := by
  refine ⟨removeStaleRipEntries_perm entries expirationTime now, ?_⟩
  have hperm := removeLoop_withdraw_perm expirationTime now entries
  have hlength := hperm.length_eq
  rw [List.length_map, ← List.countP_eq_length_filter] at hlength
  rw [← hlength]
  simp only [removeStaleRipEntries]
  generalize (removeLoop expirationTime now entries).1 = expiredEntries at hperm
  by_cases hfits : expiredEntries.length ≤ 65535
  · left
    let msg : RipMessage := ⟨.response, expiredEntries, expiredEntries.map fun _ ↦ none⟩
    refine ⟨hfits, msg, ?_, rfl, hperm, rfl⟩
    exact RipMessage.make_eq_ok.mpr ⟨hfits, (List.length_map _).symm, rfl⟩
  · have hlong : 65535 < expiredEntries.length := not_le.mp hfits
    refine .inr ⟨hlong, ?_⟩
    rw [RipMessage.makeResponse, RipMessage.make, if_pos hlong]

/-- The `n` first subnets 10.x.y.0/24, learned from a neighbour and never refreshed. -/
def unrefreshed (n : ℕ) : RoutingTable :=
  (List.range n).map fun i ↦ {
    type := .rip, addr := { addr := .ofNat (0x0a000000 + 2 ^ 8 * i) }, mask := 0xffffff00
    gateway := some { addr := 0xc0a80001 }, interfaceIt := none, metric := some 2
    lastRefresh := 0 }

theorem length_aged_unrefreshed (n : ℕ) :
    ((unrefreshed n).filter (Entry.isAged 12 13)).length = n := by
  rw [List.filter_eq_self.mpr, unrefreshed, List.length_map, List.length_range]
  intro e he
  obtain ⟨i, -, rfl⟩ := List.mem_map.mp he
  rfl

theorem length_le_of_removeStaleRipEntries {entries : RoutingTable}
    {expirationTime now : TimePoint} {msg : RipMessage}
    (h : (entries.removeStaleRipEntries expirationTime now).1 = .ok msg) :
    msg.entries.length ≤ 65535 :=
  (RipMessage.made_of_make h).length_le

/-- All 65536 subnets expire at once: the table is cleaned, and there is no response. -/
theorem not_withdraws : ¬∀ (entries : RoutingTable) (expirationTime now : TimePoint),
    (entries.removeStaleRipEntries expirationTime now).2.Perm
        (entries.filter (Entry.isFresh expirationTime now)) ∧
      ∃ msg, (entries.removeStaleRipEntries expirationTime now).1 = .ok msg ∧
        Withdraws (entries.filter (Entry.isAged expirationTime now)) msg := by
  intro h
  obtain ⟨-, msg, hmsg, hwithdraws⟩ := h (unrefreshed 65536) 12 13
  have hle := length_le_of_removeStaleRipEntries hmsg
  have hlength := hwithdraws.entries.length_eq
  rw [List.length_map, length_aged_unrefreshed] at hlength
  omega

end RoutingTable

end Tns.Ip
