import Tns.Ip.LongestPrefix

/-!
# Learned metrics

A received cost is incremented in 32 bits before it is capped, so that the
largest one becomes 0.  Every other cost `c` is stored as `min (c + 1) 16`.
-/

namespace Tns.Ip

open Tns.Library

namespace RipMessage

/-- The cost in the bytes of entry `i`, before it is incremented. -/
def advertisedCost (payload : List Byte) (i : ℕ) : Option UInt32 :=
  (ntoh32 (payload.drop (4 + 12 * i))).toOption.map Prod.fst

theorem drop_of_ntoh16 {p p' : List Byte} {x : UInt16} (h : ntoh16 p = .ok (x, p')) :
    p' = p.drop 2 := by
  unfold ntoh16 at h
  split at h
  · exact ((Prod.mk.inj (Except.ok.inj h)).2).symm
  · cases h

theorem drop_of_ntoh32 {p p' : List Byte} {x : UInt32} (h : ntoh32 p = .ok (x, p')) :
    p' = p.drop 4 := by
  unfold ntoh32 at h
  split at h
  · exact ((Prod.mk.inj (Except.ok.inj h)).2).symm
  · cases h

theorem decodeEntry_cases {p p' : List Byte} {entry : Entry}
    (h : decodeEntry p = .ok (entry, p')) :
    p' = p.drop 12 ∧ ∃ cost p₁, ntoh32 p = .ok (cost, p₁) ∧ entry.cost = receivedCost cost := by
  simp only [decodeEntry, readEntry, Except.bind_eq_ok, Except.pure_eq_ok, Prod.mk.injEq] at h
  obtain ⟨-, ⟨⟨cost, p₁⟩, hcost, ⟨address, p₂⟩, haddress, ⟨mask, p₃⟩, hmask, rfl⟩, rfl, rfl⟩ := h
  refine ⟨?_, cost, p₁, hcost, rfl⟩
  simp only
  rw [drop_of_ntoh32 hmask, drop_of_ntoh32 haddress, drop_of_ntoh32 hcost, List.drop_drop,
    List.drop_drop]

/-- A reader that consumes `k` bytes reads item `i` at the offset `k * i`. -/
theorem read_of_readMany {α : Type} {read : List Byte → Except Fault (α × List Byte)} {k : ℕ}
    (hread : ∀ {p p' a}, read p = .ok (a, p') → p' = p.drop k) {n i : ℕ} {p : List Byte}
    {as : List α} {a : α} (h : readMany read n p = .ok as) (hi : as[i]? = some a) :
    ∃ p', read (p.drop (k * i)) = .ok (a, p') := by
  induction n generalizing p as i with
  | zero =>
      cases h
      simp at hi
  | succ n ih =>
      simp only [readMany, Except.bind_eq_ok, Except.pure_eq_ok] at h
      obtain ⟨⟨head, p₁⟩, hhead, tail, htail, rfl⟩ := h
      cases i with
      | zero =>
          obtain rfl : head = a := by simpa using hi
          exact ⟨p₁, by simpa using hhead⟩
      | succ i =>
          obtain ⟨p', hp'⟩ := ih htail (by simpa using hi)
          refine ⟨p', ?_⟩
          rw [hread hhead, List.drop_drop] at hp'
          rwa [Nat.mul_succ, Nat.add_comm]

/-- A received entry carries the incremented cost of its bytes. -/
theorem advertisedCost_of_decode {payload : List Byte} {msg : RipMessage} {i : ℕ} {entry : Entry}
    (h : decode payload = .ok msg) (hi : msg.entries[i]? = some entry) :
    ∃ cost, advertisedCost payload i = some cost ∧ entry.cost = receivedCost cost := by
  simp only [decode, Except.bind_eq_ok, Except.pure_eq_ok] at h
  obtain ⟨⟨command, p₁⟩, hcommand, ⟨numEntries, p₂⟩, hnum, entries, hentries, rfl⟩ := h
  simp only at hentries hi
  obtain ⟨p', hp'⟩ := read_of_readMany (fun h ↦ (decodeEntry_cases h).1) hentries hi
  obtain ⟨-, cost, p'', hcost, hstored⟩ := decodeEntry_cases hp'
  refine ⟨cost, ?_, hstored⟩
  rw [drop_of_ntoh16 hnum, drop_of_ntoh16 hcommand, List.drop_drop, List.drop_drop,
    ← Nat.add_assoc] at hcost
  rw [advertisedCost, hcost]
  rfl

/-- The increment and the cap are exact except for the largest cost. -/
theorem toNat_receivedCost_iff (cost : UInt32) :
    (receivedCost cost).toNat = min (cost.toNat + 1) 16 ↔ cost ≠ 0xffffffff := by
  constructor
  · rintro h rfl
    exact absurd h (by decide)
  · intro hne
    have hlt := cost.toNat_lt
    have hmax : cost.toNat ≠ 2 ^ 32 - 1 := by
      intro heq
      apply hne
      rw [← UInt32.toNat_inj, heq]
      rfl
    have hadd : (cost + 1).toNat = cost.toNat + 1 :=
      UInt32.toNat_add_of_lt (by rw [UInt32.toNat_one]; omega)
    rw [receivedCost, min_def]
    split <;> rename_i hle <;> rw [UInt32.le_iff_toNat_le, hadd, toNat_infinity] at hle
    · omega
    · rw [toNat_infinity]
      omega

end RipMessage

namespace RoutingTable

/-- What a router does to its table when a datagram of the protocol arrives, and what its
cleaner does. -/
inductive RipCall where
  | ripProtocolHandler (payload : List Byte) (srcAddr : Ipv4Address) (now : ℕ → TimePoint)
  | removeStaleRipEntries (expirationTime now : TimePoint)

def ripStep (entries : RoutingTable) : RipCall → Except Fault (Unit × RoutingTable)
  | .ripProtocolHandler payload srcAddr now => do
      let ripMessage ← RipMessage.decode payload
      match ripMessage.command with
      | .response => return ((), (entries.handleRipEntries ripMessage.entries srcAddr now).2)
      | .request | .unknown _ => return ((), entries)
  | .removeStaleRipEntries expirationTime now =>
      return ((), (entries.removeStaleRipEntries expirationTime now).2)

abbrev RipStep := Transition RoutingTable RipCall Unit

/-- The response that a step handles, with its bytes. -/
def Receives (t : RipStep) (payload : List Byte) (msg : RipMessage) : Prop :=
  (∃ srcAddr now, t.label = .ripProtocolHandler payload srcAddr now) ∧
    RipMessage.decode payload = .ok msg ∧ msg.command = .response

/-- Every learned metric is in range. -/
def InRange (entries : RoutingTable) : Prop :=
  ∀ e ∈ entries, e.type = .rip → ∃ m, e.metric = some m ∧ 1 ≤ m ∧ m ≤ 16

/-- A step stores each cost `c` as `min (c + 1) 16`, in the message and in the table, and leaves
every learned metric in range. -/
structure StoresExactly (t : RipStep) : Prop where
  decoded : ∀ payload msg, Receives t payload msg → ∀ (i : ℕ) entry cost,
    msg.entries[i]? = some entry → RipMessage.advertisedCost payload i = some cost →
      entry.cost.toNat = min (cost.toNat + 1) 16
  stored : ∀ e ∈ t.post, e ∈ t.pre ∨ ∃ payload msg, Receives t payload msg ∧
    ∃ i < msg.entries.length, ∃ cost, RipMessage.advertisedCost payload i = some cost ∧
      e.metric = some (min (cost.toNat + 1) 16)
  range : InRange t.post

/-- A response advertises the largest cost. -/
def AdvertisesMax (t : RipStep) : Prop :=
  ∃ payload msg, Receives t payload msg ∧
    ∃ i < msg.entries.length, RipMessage.advertisedCost payload i = some 0xffffffff

theorem metric_of_mem_handleRipEntries {entries : RoutingTable}
    {ripEntries : List RipMessage.Entry} {learnedFrom : Ipv4Address} {now : ℕ → TimePoint}
    {e : Entry} (he : e ∈ (entries.handleRipEntries ripEntries learnedFrom now).2) :
    e ∈ entries ∨ ∃ ripEntry ∈ ripEntries, e.metric = some ripEntry.cost.toNat := by
  refine handleRipEntries_induction
    (I := fun entries' ↦ ∀ e ∈ entries',
      e ∈ entries ∨ ∃ ripEntry ∈ ripEntries, e.metric = some ripEntry.cost.toNat)
    ?_ (fun e he ↦ .inl he) e he
  intro ripEntry hmem now entries₁ collect entries₂ hlearns h e he
  rcases hlearns.mem_cases he with he | ⟨hlearned, -⟩
  · exact h e he
  · exact .inr ⟨ripEntry, hmem, hlearned.metric⟩

/-- Where the entries after a step come from. -/
theorem mem_of_ripStep {t : RipStep} (hfires : Fires ripStep t) {e : Entry} (he : e ∈ t.post) :
    e ∈ t.pre ∨ ∃ payload msg, Receives t payload msg ∧
      ∃ (i : ℕ) (entry : RipMessage.Entry), msg.entries[i]? = some entry ∧
        e.metric = some entry.cost.toNat := by
  obtain ⟨entries, call, out, entries'⟩ := t
  simp only [Fires] at hfires he ⊢
  cases call with
  | ripProtocolHandler payload srcAddr now =>
      simp only [ripStep, Except.bind_eq_ok] at hfires
      obtain ⟨msg, hdecode, hfires⟩ := hfires
      cases hcommand : msg.command <;>
        simp only [hcommand, Except.pure_eq_ok, Prod.mk.injEq, true_and] at hfires <;> subst hfires
      · exact .inl he
      · rcases metric_of_mem_handleRipEntries he with he | ⟨ripEntry, hmem, hmetric⟩
        · exact .inl he
        · obtain ⟨i, hi⟩ := List.mem_iff_getElem?.mp hmem
          exact .inr ⟨payload, msg, ⟨⟨srcAddr, now, rfl⟩, hdecode, hcommand⟩, i, ripEntry, hi,
            hmetric⟩
      · exact .inl he
  | removeStaleRipEntries expirationTime now =>
      simp only [ripStep, Except.pure_eq_ok, Prod.mk.injEq, true_and] at hfires
      subst hfires
      exact .inl (mem_of_mem_removeStaleRipEntries he)

/-- A step on a table in range is exact if and only if it does not see the largest cost. -/
theorem storesExactly_iff {t : RipStep} (hfires : Fires ripStep t) (hrange : InRange t.pre) :
    StoresExactly t ↔ ¬AdvertisesMax t := by
  constructor
  · rintro hexact ⟨payload, msg, hreceives, i, hi, hcost⟩
    have hentry := List.getElem?_eq_getElem hi
    obtain ⟨cost, hcost', hreceived⟩ := RipMessage.advertisedCost_of_decode hreceives.2.1 hentry
    obtain rfl : cost = 0xffffffff := Option.some.inj (hcost'.symm.trans hcost)
    have hstored := hexact.decoded payload msg hreceives i _ _ hentry hcost
    rw [hreceived] at hstored
    exact absurd hstored (by decide)
  · intro hno
    have hexact : ∀ payload msg, Receives t payload msg → ∀ (i : ℕ) entry cost,
        msg.entries[i]? = some entry → RipMessage.advertisedCost payload i = some cost →
          entry.cost.toNat = min (cost.toNat + 1) 16 := by
      intro payload msg hreceives i entry cost hentry hcost
      obtain ⟨cost', hcost', hreceived⟩ :=
        RipMessage.advertisedCost_of_decode hreceives.2.1 hentry
      obtain rfl : cost' = cost := Option.some.inj (hcost'.symm.trans hcost)
      rw [hreceived, RipMessage.toNat_receivedCost_iff]
      rintro rfl
      obtain ⟨hi, -⟩ := List.getElem?_eq_some_iff.mp hentry
      exact hno ⟨payload, msg, hreceives, i, hi, hcost⟩
    have hstored : ∀ e ∈ t.post, e ∈ t.pre ∨ ∃ payload msg, Receives t payload msg ∧
        ∃ i < msg.entries.length, ∃ cost, RipMessage.advertisedCost payload i = some cost ∧
          e.metric = some (min (cost.toNat + 1) 16) := by
      intro e he
      rcases mem_of_ripStep hfires he with he | ⟨payload, msg, hreceives, i, entry, hentry, hmetric⟩
      · exact .inl he
      · obtain ⟨cost, hcost, -⟩ := RipMessage.advertisedCost_of_decode hreceives.2.1 hentry
        rw [hexact payload msg hreceives i entry cost hentry hcost] at hmetric
        obtain ⟨hi, -⟩ := List.getElem?_eq_some_iff.mp hentry
        exact .inr ⟨payload, msg, hreceives, i, hi, cost, hcost, hmetric⟩
    refine ⟨hexact, hstored, ?_⟩
    intro e he hrip
    rcases hstored e he with he | ⟨_, _, _, _, _, cost, _, hmetric⟩
    · exact hrange e he hrip
    · exact ⟨_, hmetric, by omega, by omega⟩

/-- In every run of responses and cleaner passes from local routes, every step stores the costs
exactly and leaves every learned metric between 1 and 16, if and only if no response advertises the
cost `2 ^ 32 - 1`. -/
theorem storesExactly_iff_of_run {entries₀ entries : RoutingTable} {tr : List RipStep}
    (hlocal : ∀ e ∈ entries₀, e.isLocal) (hrun : Trace ripStep entries₀ tr entries) :
    (∀ t ∈ tr, StoresExactly t) ↔ ∀ t ∈ tr, ¬AdvertisesMax t := by
  have hrange : InRange entries₀ := by
    intro e he hrip
    have htype : e.type = .local := hlocal e he
    rw [hrip] at htype
    cases htype
  refine hrun.forall_iff (I := InRange) (D := fun _ ↦ True) ?_ ?_ hrange fun _ _ ↦ trivial
  · intro t hfires hpre _
    exact storesExactly_iff hfires hpre
  · intro t hfires hpre _ hno
    exact ((storesExactly_iff hfires hpre).mpr hno).range

/-- A response that advertises `10.0.2.0/24` with a cost in network byte order. -/
def oneEntry (cost : List Byte) : List Byte :=
  [0, 2, 0, 1] ++ cost ++ [10, 0, 2, 0, 255, 255, 255, 0]

def localRoute₁ : Entry :=
  { type := .local, addr := { addr := 0x0a000001 }, mask := 0xffffff00, gateway := none
    interfaceIt := some 0, metric := some 0, lastRefresh := 0 }

/-- A subnet advertised with cost 3 is stored with metric 4. -/
theorem storesExactly_iff_of_run_three :
    ∃ (entries₀ entries : RoutingTable) (tr : List RipStep), (∀ e ∈ entries₀, e.isLocal) ∧
      Trace ripStep entries₀ tr entries ∧ entries.map Entry.metric = [some 0, some 4] ∧
        (∀ t ∈ tr, ¬AdvertisesMax t) ∧
        ((∀ t ∈ tr, StoresExactly t) ↔ ∀ t ∈ tr, ¬AdvertisesMax t) := by
  have hlocal : ∀ e ∈ [localRoute₁], e.isLocal := by decide
  have hrun : Trace ripStep [localRoute₁] _ _ :=
    .cons (l := .ripProtocolHandler (oneEntry [0, 0, 0, 3]) { addr := 0x0a000002 } fun _ ↦ 5) rfl
      (.nil _)
  refine ⟨_, _, _, hlocal, hrun, rfl, ?_, storesExactly_iff_of_run hlocal hrun⟩
  rw [List.forall_mem_singleton]
  rintro ⟨payload, msg, ⟨⟨srcAddr, now, hlabel⟩, hdecode, -⟩, i, hi, hcost⟩
  cases hlabel
  cases hdecode
  obtain rfl : i = 0 := by simpa using hi
  exact absurd hcost (by decide)

/-- A subnet advertised with cost `2 ^ 32 - 1` is stored with metric 0. -/
theorem not_storesExactly :
    ∃ (entries₀ entries : RoutingTable) (tr : List RipStep), (∀ e ∈ entries₀, e.isLocal) ∧
      Trace ripStep entries₀ tr entries ∧
        (∃ e ∈ entries, e.type = .rip ∧ e.metric = some 0) ∧ ¬InRange entries ∧
        ∃ t ∈ tr, ¬StoresExactly t := by
  have hlocal : ∀ e ∈ [localRoute₁], e.isLocal := by decide
  let e : Entry := .ofRip ⟨0, 0x0a000200, 0xffffff00⟩ { addr := 0x0a000002 } 5
  have hrun : Trace ripStep [localRoute₁] _ [localRoute₁, e] :=
    .cons (l := .ripProtocolHandler (oneEntry [255, 255, 255, 255]) { addr := 0x0a000002 }
      fun _ ↦ 5) rfl (.nil _)
  have hrange : ¬InRange [localRoute₁, e] := by
    intro hrange
    obtain ⟨m, hm, hpos, -⟩ := hrange e (by simp) rfl
    cases hm
    cases hpos
  exact ⟨_, _, _, hlocal, hrun, ⟨e, by simp, rfl, rfl⟩, hrange, _, List.mem_singleton_self _,
    fun hexact ↦ hrange hexact.range⟩

end RoutingTable

end Tns.Ip
