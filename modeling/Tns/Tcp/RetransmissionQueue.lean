import Mathlib.Data.List.TakeWhile
import Tns.Tcp.Packet

/-!
# The retransmission queue

Packets wait here, in sending order, until they are acknowledged entirely.  A
zero-window probe has a place of its own.  Clock readings are nanoseconds of
the steady clock, the estimator's durations are milliseconds.
-/

namespace Tns.Tcp

/-- A reading of the steady clock, in nanoseconds. -/
abbrev TimePoint := ℕ

def nsPerMs : ℕ := 1000000

def MAX_RETRANSMISSIONS : ℕ := 5

/-- `RtoEstimator`.  The smoothing factors `0.875` and `1.5` are exact binary fractions, so
the estimate is the truncation of an exact rational. -/
structure RtoEstimator where
  srtt : ℕ := 300
  rto : ℕ := 500
  deriving DecidableEq

namespace RtoEstimator

def MIN_RTO : ℕ := 500
def MAX_RTO : ℕ := 1000

def addRttSample (r : RtoEstimator) (rtt : ℕ) : RtoEstimator :=
  let srtt := (7 * (r.srtt * nsPerMs) + rtt) / (8 * nsPerMs)
  { srtt, rto := max MIN_RTO (min (3 * srtt / 2) MAX_RTO) }

end RtoEstimator

namespace RetransmissionQueue

structure Entry where
  packet : Packet
  lastSent : TimePoint
  counter : ℕ := 0
  deriving DecidableEq

namespace Entry

/-- A 64-bit sum: the end of an entry does not wrap with the sequence numbers. -/
def getEndExclusive (e : Entry) : ℕ := e.packet.seqNum.toNat + e.packet.payload.length

def getRtt (e : Entry) (now : TimePoint) : ℕ := now - e.lastSent

def hasNotResent (e : Entry) : Bool := e.counter == 0

def hasExpired (e : Entry) (now : TimePoint) (rto : ℕ) : Bool :=
  decide (rto * nsPerMs < e.getRtt now)

def hasExpiredExponential (e : Entry) (now : TimePoint) (rto : ℕ) : Bool :=
  decide (rto * nsPerMs * 2 ^ e.counter < e.getRtt now)

def refreshTimestamp (e : Entry) (now : TimePoint) : Entry := { e with lastSent := now }

def resetCounter (e : Entry) : Entry := { e with counter := 0 }

end Entry

end RetransmissionQueue

open RetransmissionQueue

structure RetransmissionQueue where
  rto : RtoEstimator := {}
  deque : List Entry := []
  zwpEntry : Option Entry := none
  deriving DecidableEq

namespace RetransmissionQueue

/-- Remove the packets `ack` acknowledges entirely: those before the first one whose end
is greater (`upper_bound`). -/
def onAck (q : RetransmissionQueue) (ack : UInt32) (now : TimePoint) : RetransmissionQueue :=
  let acked := q.deque.takeWhile (fun e ↦ e.getEndExclusive ≤ ack.toNat)
  let samples := acked.filter Entry.hasNotResent
  { rto := samples.foldl (fun r e ↦ r.addRttSample (e.getRtt now)) q.rto
    deque := q.deque.dropWhile (fun e ↦ e.getEndExclusive ≤ ack.toNat)
    zwpEntry := q.zwpEntry.filter (fun e ↦ ¬e.getEndExclusive ≤ ack.toNat) }

def enqueue (q : RetransmissionQueue) (packet : Packet) (now : TimePoint) :
    Exec RetransmissionQueue := do
  Exec.assertThat (∀ e ∈ q.deque.getLast?, e.getEndExclusive ≤ packet.seqNum.toNat)
    "Packet enqueued to the retransmission queue is out of order"
  return { q with deque := q.deque ++ [{ packet, lastSent := now }] }

def enqueueZwp (q : RetransmissionQueue) (packet : Packet) (now : TimePoint) :
    Exec RetransmissionQueue := do
  Exec.assertThat (q.zwpEntry = none) "ZWP already exists in the retransmission queue"
  return { q with zwpEntry := some { packet, lastSent := now } }

def resetZwpCounter (q : RetransmissionQueue) : RetransmissionQueue :=
  { q with zwpEntry := q.zwpEntry.map Entry.resetCounter }

/-- The filter on regular entries: older than the timeout and inside the window. -/
def isExpired (now : TimePoint) (rto : ℕ) (rightWindowEdge : UInt32) (e : Entry) : Bool :=
  e.hasExpired now rto && decide (e.getEndExclusive ≤ rightWindowEdge.toNat)

/-- The loop over the regular entries.  Returns the updated entries and, unless one of
them ran out of retransmissions, the entries to resend. -/
def expireLoop (now : TimePoint) (rto : ℕ) (rightWindowEdge : UInt32) :
    List Entry → List Entry × Except SocketError (List Entry)
  | [] => ([], .ok [])
  | e :: es =>
      if isExpired now rto rightWindowEdge e then
        let e := { e with counter := e.counter + 1 }
        if MAX_RETRANSMISSIONS < e.counter then
          (e :: es, .error .timeout)
        else
          let e := e.refreshTimestamp now
          let (rest, expired) := expireLoop now rto rightWindowEdge es
          (e :: rest, expired.map (e :: ·))
      else
        let (rest, expired) := expireLoop now rto rightWindowEdge es
        (e :: rest, expired)

def getExpiredEntries (q : RetransmissionQueue) (rightWindowEdge : UInt32) (now : TimePoint) :
    Except SocketError (List Entry) × RetransmissionQueue :=
  let rtoEst := q.rto.rto
  let (deque, expired) := expireLoop now rtoEst rightWindowEdge q.deque
  let q := { q with deque }
  match expired with
  | .error err => (.error err, q)
  | .ok expiredEntries =>
      match q.zwpEntry with
      | none => (.ok expiredEntries, q)
      | some z =>
          if z.hasExpiredExponential now rtoEst then
            let z := { z with counter := z.counter + 1 }.refreshTimestamp now
            (.ok (expiredEntries ++ [z]), { q with zwpEntry := some z })
          else (.ok expiredEntries, q)

variable {q q' : RetransmissionQueue}

@[simp] theorem resetZwpCounter_deque (q : RetransmissionQueue) :
    q.resetZwpCounter.deque = q.deque := rfl

theorem mem_onAck {ack : UInt32} {now : TimePoint} {e : Entry}
    (he : e ∈ (q.onAck ack now).deque) : e ∈ q.deque :=
  (List.dropWhile_sublist _).subset he

theorem enqueue_cases {packet : Packet} {now : TimePoint} (h : q.enqueue packet now = .ok q') :
    q' = { q with deque := q.deque ++ [{ packet, lastSent := now }] } := by
  simp only [enqueue, Exec.bind_eq_ok, Exec.pure_eq_ok] at h
  obtain ⟨-, -, rfl⟩ := h
  rfl

theorem enqueueZwp_cases {packet : Packet} {now : TimePoint}
    (h : q.enqueueZwp packet now = .ok q') :
    q' = { q with zwpEntry := some { packet, lastSent := now } } := by
  simp only [enqueueZwp, Exec.bind_eq_ok, Exec.pure_eq_ok] at h
  obtain ⟨-, -, rfl⟩ := h
  rfl

/-- Retransmission keeps the packets that wait, and resends some of them in their order. -/
theorem expireLoop_packets (now : TimePoint) (rto : ℕ) (rightWindowEdge : UInt32)
    (l : List Entry) :
    (expireLoop now rto rightWindowEdge l).1.map Entry.packet = l.map Entry.packet ∧
      ∀ es, (expireLoop now rto rightWindowEdge l).2 = .ok es →
        (es.map Entry.packet).Sublist (l.map Entry.packet) := by
  induction l with
  | nil =>
      refine ⟨rfl, fun es hes ↦ ?_⟩
      obtain rfl := Except.ok.inj hes
      exact List.Sublist.refl _
  | cons e l ih =>
      obtain ⟨hrest, hsub⟩ := ih
      simp only [expireLoop]
      split
      · split
        · exact ⟨rfl, nofun⟩
        · refine ⟨by simp [hrest, Entry.refreshTimestamp], fun es hes ↦ ?_⟩
          cases hexp : (expireLoop now rto rightWindowEdge l).2 with
          | error err => simp [hexp, Except.map] at hes
          | ok rest =>
              simp only [hexp, Except.map, Except.ok.injEq] at hes
              subst hes
              exact (hsub rest hexp).cons_cons _
      · exact ⟨by simp [hrest], fun es hes ↦ (hsub es hes).cons _⟩

def Only (P : Packet → Prop) (q : RetransmissionQueue) : Prop :=
  (∀ e ∈ q.deque, P e.packet) ∧ ∀ e, q.zwpEntry = some e → P e.packet

namespace Only

variable {P Q : Packet → Prop}

theorem mono (h : Only P q) (hPQ : ∀ p, P p → Q p) : Only Q q :=
  ⟨fun e he ↦ hPQ _ (h.1 e he), fun e he ↦ hPQ _ (h.2 e he)⟩

theorem onAck (h : Only P q) (ack : UInt32) (now : TimePoint) : Only P (q.onAck ack now) := by
  refine ⟨fun e he ↦ h.1 e (mem_onAck he), fun e he ↦ h.2 e ?_⟩
  exact (Option.filter_eq_some_iff.mp he).1

theorem resetZwpCounter (h : Only P q) : Only P q.resetZwpCounter := by
  refine ⟨h.1, fun e he ↦ ?_⟩
  obtain ⟨f, hf, rfl⟩ := Option.map_eq_some_iff.mp he
  exact h.2 f hf

theorem enqueue {packet : Packet} {now : TimePoint} (h : Only P q) (hpacket : P packet)
    (henq : q.enqueue packet now = .ok q') : Only P q' := by
  obtain rfl := enqueue_cases henq
  refine ⟨fun e he ↦ ?_, h.2⟩
  rcases List.mem_append.mp he with he | he
  · exact h.1 e he
  · obtain rfl := List.mem_singleton.mp he
    exact hpacket

theorem enqueueZwp {packet : Packet} {now : TimePoint} (h : Only P q) (hpacket : P packet)
    (henq : q.enqueueZwp packet now = .ok q') : Only P q' := by
  obtain rfl := enqueueZwp_cases henq
  refine ⟨h.1, fun e he ↦ ?_⟩
  obtain rfl := Option.some.inj he
  exact hpacket

theorem getExpiredEntries (h : Only P q) (rightWindowEdge : UInt32) (now : TimePoint) :
    Only P (q.getExpiredEntries rightWindowEdge now).2 ∧
      ∀ es, (q.getExpiredEntries rightWindowEdge now).1 = .ok es → ∀ e ∈ es, P e.packet := by
  obtain ⟨hkeep, hsub⟩ := expireLoop_packets now q.rto.rto rightWindowEdge q.deque
  have hmem : ∀ l : List Entry, (∀ x ∈ l.map Entry.packet, x ∈ q.deque.map Entry.packet) →
      ∀ e ∈ l, P e.packet := by
    intro l hl e he
    obtain ⟨f, hf, heq⟩ := List.mem_map.mp (hl _ (List.mem_map_of_mem he))
    exact heq ▸ h.1 f hf
  have hdeque := hmem _ fun x hx ↦ hkeep ▸ hx
  simp only [RetransmissionQueue.getExpiredEntries]
  split
  · exact ⟨⟨hdeque, h.2⟩, nofun⟩
  · rename_i expired hexp
    have hexpired := hmem expired (hsub _ hexp).subset
    split
    · rename_i hnone
      refine ⟨⟨hdeque, fun e he ↦ ?_⟩, fun es hes ↦ Except.ok.inj hes ▸ hexpired⟩
      rw [hnone] at he
      cases he
    · rename_i z hz
      split
      · refine ⟨⟨hdeque, fun e he ↦ ?_⟩, fun es hes e he ↦ ?_⟩
        · obtain rfl := Option.some.inj he
          exact h.2 z hz
        · obtain rfl := Except.ok.inj hes
          rcases List.mem_append.mp he with he | he
          · exact hexpired e he
          · obtain rfl := List.mem_singleton.mp he
            exact h.2 z hz
      · exact ⟨⟨hdeque, h.2⟩, fun es hes ↦ Except.ok.inj hes ▸ hexpired⟩

end Only

/-- The entries end in the order in which they wait. -/
def Sorted (q : RetransmissionQueue) : Prop :=
  q.deque.Pairwise fun e f ↦ e.getEndExclusive ≤ f.getEndExclusive

/-- The order depends on the packets only. -/
theorem sorted_iff : Sorted q ↔ (q.deque.map Entry.packet).Pairwise fun p p' ↦
    p.seqNum.toNat + p.payload.length ≤ p'.seqNum.toNat + p'.payload.length := by
  rw [List.pairwise_map]
  rfl

namespace Sorted

theorem onAck (h : Sorted q) (ack : UInt32) (now : TimePoint) : Sorted (q.onAck ack now) :=
  List.Pairwise.sublist (List.dropWhile_sublist _) h

theorem enqueue {packet : Packet} {now : TimePoint} (h : Sorted q)
    (henq : q.enqueue packet now = .ok q') : Sorted q' := by
  simp only [RetransmissionQueue.enqueue, Exec.bind_eq_ok, Exec.assertThat_eq_ok,
    Exec.pure_eq_ok] at henq
  obtain ⟨-, hlast, rfl⟩ := henq
  refine List.pairwise_append.mpr ⟨h, List.pairwise_singleton _ _, ?_⟩
  intro e he f hf
  obtain rfl := List.mem_singleton.mp hf
  rcases List.eq_nil_or_concat q.deque with hnil | ⟨l, x, hconcat⟩
  · simp [hnil] at he
  have hx : x.getEndExclusive ≤ packet.seqNum.toNat := hlast x (by simp [hconcat])
  have hex : e.getEndExclusive ≤ x.getEndExclusive := by
    rw [Sorted, hconcat, List.concat_eq_append, List.pairwise_append] at h
    rw [hconcat, List.concat_eq_append, List.mem_append, List.mem_singleton] at he
    rcases he with he | rfl
    · exact h.2.2 e he x (by simp)
    · exact le_rfl
  exact (hex.trans hx).trans (Nat.le_add_right _ _)

/-- In a queue that is ordered by the ends of the payloads, `onAck` keeps the packets that end
after the acknowledgment number. -/
theorem onAck_eq_filter (h : Sorted q) (ack : UInt32) (now : TimePoint) :
    (q.onAck ack now).deque = q.deque.filter fun e ↦ ack.toNat < e.getEndExclusive := by
  obtain ⟨rto, deque, zwpEntry⟩ := q
  simp only [Sorted, RetransmissionQueue.onAck] at h ⊢
  induction deque with
  | nil => rfl
  | cons e l ih =>
      obtain ⟨hle, hl⟩ := List.pairwise_cons.mp h
      by_cases hacked : e.getEndExclusive ≤ ack.toNat
      · rw [List.dropWhile_cons_of_pos (by simpa using hacked),
          List.filter_cons_of_neg (by simpa using hacked), ih hl]
      · rw [List.dropWhile_cons_of_neg (by simpa using hacked), eq_comm, List.filter_eq_self]
        have hlt := not_le.mp hacked
        rw [List.forall_mem_cons]
        exact ⟨by simpa using hlt, fun f hf ↦ by simpa using hlt.trans_le (hle f hf)⟩

theorem lt_of_mem_onAck (h : Sorted q) {ack : UInt32} {now : TimePoint} {e : Entry}
    (he : e ∈ (q.onAck ack now).deque) : ack.toNat < e.getEndExclusive := by
  rw [h.onAck_eq_filter] at he
  simpa using (List.mem_filter.mp he).2

end Sorted

end RetransmissionQueue

end Tns.Tcp
