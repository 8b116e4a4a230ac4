import Tns.Ip.LongestPrefix

/-!
# Next hops

`queryRoutingTable_` looks the destination up, and the gateway of the entry it
finds.  Only local routes have an interface, so the second lookup has to end at
one.
-/

namespace Tns.Ip

open Tns.Library

/-- The `std::string` that `queryRoutingTable_` returns in place of a next hop. -/
inductive QueryError where
  | unreachableDestination (destIP : Ipv4Address)
  | unreachableGateway (gateway : Ipv4Address)
  deriving DecidableEq, Repr

def QueryError.message : QueryError → String
  | .unreachableDestination destIP => "Unreachable destination " ++ destIP.toStringAddr
  | .unreachableGateway gateway => "Unreachable gateway " ++ gateway.toStringAddr

/-- `QueryResult_`, with the position of the interface in `interfaces_`. -/
structure QueryResult where
  interface : ℕ
  nextHopAddr : Ipv4Address
  deriving DecidableEq, Repr

namespace RoutingTable

/-- `*entry->interfaceIt`. -/
def Entry.interface (entry : Entry) : Except Fault ℕ :=
  match entry.interfaceIt with
  | some i => .ok i
  | none => .error .undefinedBehaviour

/-- `queryRoutingTable_`. -/
def queryRoutingTable (entries : RoutingTable) (destIP : Ipv4Address)
    (strategy : QueryStrategy := .longestPrefixMatch) :
    Except Fault (Except QueryError QueryResult) :=
  match entries.query destIP strategy with
  | none => .ok (.error (.unreachableDestination destIP))
  | some entry =>
      match entry.gateway with
      | some gateway =>
          match entries.query gateway strategy with
          | none => .ok (.error (.unreachableGateway gateway))
          | some entry => do
              let interface ← entry.interface
              return .ok { interface, nextHopAddr := gateway }
      | none => do
          let interface ← entry.interface
          return .ok { interface, nextHopAddr := destIP }

theorem mem_of_query {entries : RoutingTable} {addr : Ipv4Address} {strategy : QueryStrategy}
    {e : Entry} (h : entries.query addr strategy = some e) : e ∈ entries := by
  cases strategy with
  | firstMatch => exact List.mem_of_find?_eq_some h
  | longestPrefixMatch => exact (mem_of_queryLongestPrefixMatch h).1

/-! ## Tables of a node -/

def addLocalRoute (entries : RoutingTable) (subnet : Subnet) (interfaceIt : ℕ) (now : TimePoint) :
    RoutingTable :=
  entries.addEntry .local subnet none (some interfaceIt) (some 0) now

def addStaticRoute (entries : RoutingTable) (subnet : Subnet) (gateway : Ipv4Address)
    (now : TimePoint) : RoutingTable :=
  entries.addEntry .static subnet (some gateway) none none now

def addRipRoute (entries : RoutingTable) (subnet : Subnet) (gateway : Ipv4Address) (metric : ℕ)
    (now : TimePoint) : RoutingTable :=
  entries.addEntry .rip subnet (some gateway) none (some metric) now

/-- What a node with `n` interfaces does to its table. -/
inductive NodeCall (n : ℕ) where
  | addLocalRoute (subnet : Subnet) (interfaceIt : Fin n) (now : TimePoint)
  | addStaticRoute (subnet : Subnet) (gateway : Ipv4Address) (now : TimePoint)
  | addRipRoute (subnet : Subnet) (gateway : Ipv4Address) (metric : ℕ) (now : TimePoint)
  | table (call : TableCall)

def nodeStep (n : ℕ) (entries : RoutingTable) : NodeCall n → Except Fault (Unit × RoutingTable)
  | .addLocalRoute subnet interfaceIt now =>
      .ok ((), entries.addLocalRoute subnet interfaceIt now)
  | .addStaticRoute subnet gateway now => .ok ((), entries.addStaticRoute subnet gateway now)
  | .addRipRoute subnet gateway metric now =>
      .ok ((), entries.addRipRoute subnet gateway metric now)
  | .table call => do
      let (_, entries) ← entries.step call
      return ((), entries)

abbrev NodeStep (n : ℕ) := Transition RoutingTable (NodeCall n) Unit

/-- A local route has an interface and no gateway, and every other route a gateway and no
interface. -/
structure Entry.Routes (n : ℕ) (e : Entry) : Prop where
  onLink : e.isLocal → e.gateway = none ∧ ∃ i < n, e.interfaceIt = some i
  viaGateway : ¬e.isLocal → e.gateway.isSome ∧ e.interfaceIt = none

def AllRoute (n : ℕ) (entries : RoutingTable) : Prop := ∀ e ∈ entries, e.Routes n

variable {n : ℕ} {entries : RoutingTable}

theorem AllRoute.append (h : AllRoute n entries) {e : Entry} (he : e.Routes n) :
    AllRoute n (entries ++ [e]) := by
  intro x hx
  rcases List.mem_append.mp hx with hx | hx
  · exact h x hx
  · rwa [List.mem_singleton.mp hx]

theorem AllRoute.learns {learnedFrom : Ipv4Address} {now : TimePoint}
    {ripEntry : RipMessage.Entry} {entries' : RoutingTable} {collect : Bool}
    (hlearns : Learns learnedFrom now ripEntry entries collect entries')
    (h : AllRoute n entries) : AllRoute n entries' := by
  intro x hx
  rcases hlearns.mem_cases hx with hx | ⟨hlearned, hcase⟩
  · exact h x hx
  · have hgateway : x.gateway.isSome := Option.isSome_iff_exists.mpr ⟨_, hlearned.gateway⟩
    refine ⟨fun hlocal ↦ absurd hlocal hlearned.notLocal, fun _ ↦ ⟨hgateway, ?_⟩⟩
    rcases hcase with ⟨e, he, hlocal, -, hinterface⟩ | ⟨-, hinterface, -⟩
    · exact hinterface.symm.trans ((h e he).viaGateway hlocal).2
    · exact hinterface

theorem AllRoute.nodeStep {t : NodeStep n} (hfires : Fires (nodeStep n) t)
    (h : AllRoute n t.pre) : AllRoute n t.post := by
  obtain ⟨entries, call, out, entries'⟩ := t
  simp only [Fires] at hfires h ⊢
  cases call with
  | addLocalRoute subnet interfaceIt now =>
      obtain ⟨-, rfl⟩ := Prod.mk.inj (Except.ok.inj hfires)
      apply h.append
      exact ⟨fun _ ↦ ⟨rfl, interfaceIt, interfaceIt.isLt, rfl⟩, fun hlocal ↦ absurd rfl hlocal⟩
  | addStaticRoute subnet gateway now =>
      obtain ⟨-, rfl⟩ := Prod.mk.inj (Except.ok.inj hfires)
      apply h.append
      exact ⟨(fun hlocal ↦ by cases hlocal), fun _ ↦ ⟨rfl, rfl⟩⟩
  | addRipRoute subnet gateway metric now =>
      obtain ⟨-, rfl⟩ := Prod.mk.inj (Except.ok.inj hfires)
      apply h.append
      exact ⟨(fun hlocal ↦ by cases hlocal), fun _ ↦ ⟨rfl, rfl⟩⟩
  | table call =>
      simp only [RoutingTable.nodeStep, Except.bind_eq_ok, Except.pure_eq_ok, Prod.mk.injEq,
        true_and] at hfires
      obtain ⟨⟨response, entries₁⟩, hstep, rfl⟩ := hfires
      refine step_induction (t := ⟨entries, call, response, entries₁⟩) .learns ?_ hstep h
      intro entries expirationTime now h e he
      exact h e (mem_of_mem_removeStaleRipEntries he)

theorem AllRoute.of_run {tr : List (NodeStep n)}
    (hrun : Trace (RoutingTable.nodeStep n) [] tr entries) : AllRoute n entries :=
  (hrun.invariant (I := AllRoute n) (A := fun _ ↦ True) (fun _ hfires hpre _ ↦ hpre.nodeStep hfires)
    (fun _ he ↦ by cases he) fun _ _ ↦ trivial).1

/-! ## Resolving a destination -/

/-- The call ends, with an error or at one of the `n` interfaces. -/
def EndsOnInterface (n : ℕ) (result : Except Fault (Except QueryError QueryResult)) : Prop :=
  ∃ r, result = .ok r ∧ ∀ hop, r = .ok hop → hop.interface < n

/-- A gateway that the lookup finds is itself on link or not found. -/
def GatewayOnLink (entries : RoutingTable) (destIP : Ipv4Address) (strategy : QueryStrategy) :
    Prop :=
  ∀ e gateway, entries.query destIP strategy = some e → e.gateway = some gateway →
    ∀ e', entries.query gateway strategy = some e' → e'.isLocal

/-- Dereferencing the interface of an entry is defined exactly for local routes. -/
theorem Entry.Routes.endsOnInterface_iff {e : Entry} (h : e.Routes n) (nextHopAddr : Ipv4Address) :
    EndsOnInterface n (do
      let interface ← e.interface
      return .ok { interface, nextHopAddr }) ↔ e.isLocal := by
  constructor
  · rintro ⟨r, hr, -⟩
    by_contra hlocal
    rw [Entry.interface, (h.viaGateway hlocal).2] at hr
    cases hr
  · intro hlocal
    obtain ⟨-, i, hi, hinterface⟩ := h.onLink hlocal
    rw [Entry.interface, hinterface]
    refine ⟨_, rfl, ?_⟩
    intro hop hhop
    obtain rfl := Except.ok.inj hhop
    exact hi

theorem AllRoute.endsOnInterface_iff (h : AllRoute n entries) (destIP : Ipv4Address)
    (strategy : QueryStrategy) :
    EndsOnInterface n (entries.queryRoutingTable destIP strategy) ↔
      GatewayOnLink entries destIP strategy := by
  unfold queryRoutingTable GatewayOnLink
  cases hquery : entries.query destIP strategy with
  | none => exact ⟨fun _ ↦ nofun, fun _ ↦ ⟨_, rfl, nofun⟩⟩
  | some e =>
      have he := h e (mem_of_query hquery)
      simp only [Option.some.injEq]
      cases hgateway : e.gateway with
      | none =>
          have hlocal : e.isLocal := by
            by_contra hlocal
            have hsome := (he.viaGateway hlocal).1
            rw [hgateway] at hsome
            cases hsome
          rw [he.endsOnInterface_iff]
          refine iff_of_true hlocal ?_
          rintro e' gateway rfl heq
          rw [hgateway] at heq
          cases heq
      | some gateway =>
          cases hquery' : entries.query gateway strategy with
          | none =>
              simp only [hquery']
              refine iff_of_true ⟨_, rfl, nofun⟩ ?_
              rintro e₁ gateway₁ rfl heq e' he'
              obtain rfl := Option.some.inj (hgateway.symm.trans heq)
              rw [hquery'] at he'
              cases he'
          | some e' =>
              simp only [hquery']
              rw [(h e' (mem_of_query hquery')).endsOnInterface_iff]
              constructor
              · rintro hlocal e₁ gateway₁ rfl heq e₂ he₂
                obtain rfl := Option.some.inj (hgateway.symm.trans heq)
                obtain rfl := Option.some.inj (hquery'.symm.trans he₂)
                exact hlocal
              · intro hall
                exact hall e gateway rfl hgateway e' hquery'

/-- In every table that a node with `n` interfaces reaches, `queryRoutingTable_` ends with an error
or at one of the interfaces, if and only if the entry found for the gateway is a local route. -/
theorem endsOnInterface_iff_of_run {tr : List (NodeStep n)}
    (hrun : Trace (RoutingTable.nodeStep n) [] tr entries) (destIP : Ipv4Address)
    (strategy : QueryStrategy) :
    EndsOnInterface n (entries.queryRoutingTable destIP strategy) ↔
      GatewayOnLink entries destIP strategy :=
  (AllRoute.of_run hrun).endsOnInterface_iff destIP strategy

/-- A host whose default route has its gateway on link. -/
theorem endsOnInterface_iff_of_run_host :
    ∃ (entries : RoutingTable) (tr : List (NodeStep 1)),
      Trace (RoutingTable.nodeStep 1) [] tr entries ∧
        entries.queryRoutingTable { addr := 0x08080808 } =
          .ok (.ok { interface := 0, nextHopAddr := { addr := 0x0a000001 } }) ∧
        (EndsOnInterface 1 (entries.queryRoutingTable { addr := 0x08080808 }) ↔
          GatewayOnLink entries { addr := 0x08080808 } .longestPrefixMatch) := by
  have hrun : Trace (RoutingTable.nodeStep 1) [] _ _ :=
    .cons (l := .addLocalRoute ⟨{ addr := 0x0a000002 }, 24⟩ 0 0) rfl
      (.cons (l := .addStaticRoute ⟨{ addr := 0 }, 0⟩ { addr := 0x0a000001 } 0) rfl (.nil _))
  exact ⟨_, _, hrun, by decide, endsOnInterface_iff_of_run hrun _ _⟩

/-- A router learns two routes from a neighbour, one of them to the address of the neighbour, and
the lookup of the other dereferences the end of the interfaces. -/
theorem not_endsOnInterface :
    ∃ (entries : RoutingTable) (tr : List (NodeStep 1)),
      Trace (RoutingTable.nodeStep 1) [] tr entries ∧
        entries.queryRoutingTable { addr := 0x0a000205 } = .error .undefinedBehaviour ∧
        ¬EndsOnInterface 1 (entries.queryRoutingTable { addr := 0x0a000205 }) := by
  let ripEntries : List RipMessage.Entry :=
    [⟨1, 0x0a000200, 0xffffff00⟩, ⟨1, 0x0a000002, 0xffffffff⟩]
  let entries : RoutingTable :=
    [⟨.local, { addr := 0x0a000001 }, 0xffffff00, none, some 0, some 0, 0⟩,
      .ofRip ⟨1, 0x0a000200, 0xffffff00⟩ { addr := 0x0a000002 } 5,
      .ofRip ⟨1, 0x0a000002, 0xffffffff⟩ { addr := 0x0a000002 } 5]
  have hrun : Trace (RoutingTable.nodeStep 1) [] _ entries :=
    .cons (l := .addLocalRoute ⟨{ addr := 0x0a000001 }, 24⟩ 0 0) rfl
      (.cons (l := .table (.handleRipEntries ripEntries { addr := 0x0a000002 } fun _ ↦ 5)) rfl
        (.nil _))
  have herror : entries.queryRoutingTable { addr := 0x0a000205 } = .error .undefinedBehaviour := by
    decide
  refine ⟨entries, _, hrun, herror, ?_⟩
  rintro ⟨r, hr, -⟩
  cases herror.symm.trans hr

end RoutingTable

end Tns.Ip
