import Tns.Library.Trace
import Tns.Tcp.RetransmissionQueue

/-!
# How often a packet is sent

`getExpiredEntries` resends what has waited too long inside the window, and gives
up once one of these packets has used up its retransmissions.  The back-off of
the probe is a floating-point test; here it is any test.
-/

namespace Tns.Tcp

open Tns.Library RetransmissionQueue

namespace RetransmissionQueue

variable {now : TimePoint} {rto : ℕ} {edge : UInt32} {l : List Entry}

/-- An entry that is sent again at `now`. -/
def Entry.resent (e : Entry) (now : TimePoint) : Entry :=
  { e with counter := e.counter + 1, lastSent := now }

/-- `getExpiredEntries` with the back-off test of the probe left open. -/
def getExpiredEntriesBy (backOff : Entry → TimePoint → ℕ → Bool) (q : RetransmissionQueue)
    (rightWindowEdge : UInt32) (now : TimePoint) :
    Except SocketError (List Entry) × RetransmissionQueue :=
  let rtoEst := q.rto.rto
  let (deque, expired) := expireLoop now rtoEst rightWindowEdge q.deque
  let q := { q with deque }
  match expired with
  | .error err => (.error err, q)
  | .ok expiredEntries =>
      match q.zwpEntry with
      | none => (.ok expiredEntries, q)
      | some z =>
          if backOff z now rtoEst then
            let z := { z with counter := z.counter + 1 }.refreshTimestamp now
            (.ok (expiredEntries ++ [z]), { q with zwpEntry := some z })
          else (.ok expiredEntries, q)

theorem getExpiredEntriesBy_exponential (q : RetransmissionQueue) (rightWindowEdge : UInt32)
    (now : TimePoint) : q.getExpiredEntriesBy Entry.hasExpiredExponential rightWindowEdge now =
      q.getExpiredEntries rightWindowEdge now := rfl

/-- Older than the timeout, and ending at the right edge of the window or before it. -/
def Due (q : RetransmissionQueue) (rightWindowEdge : UInt32) (now : TimePoint) (e : Entry) :
    Prop :=
  q.rto.rto * nsPerMs < now - e.lastSent ∧ e.getEndExclusive ≤ rightWindowEdge.toNat

instance (q : RetransmissionQueue) (rightWindowEdge : UInt32) (now : TimePoint) :
    DecidablePred (q.Due rightWindowEdge now) :=
  fun e ↦ inferInstanceAs (Decidable (_ < now - e.lastSent ∧ _))

/-- Some entry that is due has used up its retransmissions. -/
def OutOfRetransmissions (q : RetransmissionQueue) (rightWindowEdge : UInt32)
    (now : TimePoint) : Prop :=
  ∃ e ∈ q.deque, q.Due rightWindowEdge now e ∧ MAX_RETRANSMISSIONS ≤ e.counter

theorem isExpired_iff_due (q : RetransmissionQueue) (e : Entry) :
    isExpired now q.rto.rto edge e = true ↔ q.Due edge now e := by
  rw [isExpired, Bool.and_eq_true, Entry.hasExpired, decide_eq_true_iff, decide_eq_true_iff]
  rfl

/-- The loop stops at the first entry that is out of retransmissions. -/
theorem expireLoop_timeout
    (h : ∃ e ∈ l, isExpired now rto edge e = true ∧ MAX_RETRANSMISSIONS ≤ e.counter) :
    (expireLoop now rto edge l).2 = .error .timeout := by
  obtain ⟨e, he, hexp, hmax⟩ := h
  induction l with
  | nil => cases he
  | cons f l ih =>
      simp only [expireLoop]
      rcases List.mem_cons.mp he with rfl | he
      · rw [if_pos hexp, if_pos (Nat.lt_succ_of_le hmax)]
      · split
        · split
          · rfl
          · rw [ih he]
            rfl
        · exact ih he

/-- Otherwise it resends the expired entries in their order. -/
theorem expireLoop_ok
    (h : ∀ e ∈ l, isExpired now rto edge e = true → e.counter < MAX_RETRANSMISSIONS) :
    expireLoop now rto edge l =
      (l.map fun e ↦ if isExpired now rto edge e then e.resent now else e,
        .ok ((l.filter (isExpired now rto edge)).map (Entry.resent · now))) := by
  induction l with
  | nil => rfl
  | cons e l ih =>
      rw [List.forall_mem_cons] at h
      rw [expireLoop, ih h.2, List.map_cons]
      by_cases hexp : isExpired now rto edge e = true
      · have hmax := h.1 hexp
        rw [if_pos hexp, if_neg (not_lt.mpr hmax), if_pos hexp, List.filter_cons_of_pos hexp]
        rfl
      · rw [if_neg hexp, if_neg hexp, List.filter_cons_of_neg hexp]

theorem expireLoop_counter (now : TimePoint) (rto : ℕ) (edge : UInt32) (l : List Entry) :
    List.Forall₂ (fun e e' ↦ e.counter ≤ e'.counter) l (expireLoop now rto edge l).1 := by
  induction l with
  | nil => exact .nil
  | cons e l ih =>
      simp only [expireLoop]
      split
      · split
        · exact .cons (Nat.le_succ _) (List.forall₂_same.mpr fun _ _ ↦ le_rfl)
        · exact .cons (Nat.le_succ _) ih
      · exact .cons le_rfl ih

/-- What the call is for: the entries that are due, and then the probe if its back-off is over,
are resent and nothing else changes, or the connection times out because one of the entries
that are due is out of retransmissions. -/
structure ResendsDue (backOff : Entry → TimePoint → ℕ → Bool) (q : RetransmissionQueue)
    (edge : UInt32) (now : TimePoint) : Prop where
  timeout : (q.getExpiredEntriesBy backOff edge now).1 = .error .timeout ↔
    q.OutOfRetransmissions edge now
  resent : ¬q.OutOfRetransmissions edge now → q.getExpiredEntriesBy backOff edge now =
    (.ok ((q.deque.filter (q.Due edge now)).map (Entry.resent · now) ++
        ((q.zwpEntry.filter (backOff · now q.rto.rto)).map (Entry.resent · now)).toList),
      { q with
        deque := q.deque.map fun e ↦ if q.Due edge now e then e.resent now else e
        zwpEntry := q.zwpEntry.map fun z ↦
          if backOff z now q.rto.rto then z.resent now else z })

theorem getExpiredEntriesBy_of_not_out {backOff : Entry → TimePoint → ℕ → Bool}
    {q : RetransmissionQueue} (h : ¬q.OutOfRetransmissions edge now) :
    q.getExpiredEntriesBy backOff edge now =
      (.ok ((q.deque.filter (q.Due edge now)).map (Entry.resent · now) ++
          ((q.zwpEntry.filter (backOff · now q.rto.rto)).map (Entry.resent · now)).toList),
        { q with
          deque := q.deque.map fun e ↦ if q.Due edge now e then e.resent now else e
          zwpEntry := q.zwpEntry.map fun z ↦
            if backOff z now q.rto.rto then z.resent now else z }) := by
  have hmax : ∀ e ∈ q.deque, isExpired now q.rto.rto edge e = true →
      e.counter < MAX_RETRANSMISSIONS := by
    intro e he hexp
    by_contra hmax
    exact h ⟨e, he, (isExpired_iff_due q e).mp hexp, not_lt.mp hmax⟩
  have hloop := expireLoop_ok hmax
  have hfilter : q.deque.filter (isExpired now q.rto.rto edge) =
      q.deque.filter (q.Due edge now) :=
    List.filter_congr fun e _ ↦ by
      rw [← Bool.coe_iff_coe, decide_eq_true_iff, isExpired_iff_due]
  simp only [isExpired_iff_due, hfilter] at hloop
  rw [getExpiredEntriesBy, hloop]
  cases hz : q.zwpEntry with
  | none => simp
  | some z =>
      by_cases hback : backOff z now q.rto.rto = true
      · simp [hback, Option.filter_some, Entry.resent, Entry.refreshTimestamp]
      · simp [hback, Option.filter_some]

theorem getExpiredEntriesBy_deque (backOff : Entry → TimePoint → ℕ → Bool)
    (q : RetransmissionQueue) (edge : UInt32) (now : TimePoint) :
    (q.getExpiredEntriesBy backOff edge now).2.deque =
      (expireLoop now q.rto.rto edge q.deque).1 := by
  simp only [getExpiredEntriesBy]
  split
  · rfl
  · split
    · rfl
    · split <;> rfl

theorem resendsDue (backOff : Entry → TimePoint → ℕ → Bool) (q : RetransmissionQueue)
    (edge : UInt32) (now : TimePoint) : ResendsDue backOff q edge now := by
  refine ⟨⟨fun htimeout ↦ ?_, ?_⟩, getExpiredEntriesBy_of_not_out⟩
  · by_contra hout
    rw [getExpiredEntriesBy_of_not_out hout] at htimeout
    cases htimeout
  · rintro ⟨e, he, hdue, hmax⟩
    have hout : ∃ e ∈ q.deque, isExpired now q.rto.rto edge e = true ∧
        MAX_RETRANSMISSIONS ≤ e.counter := ⟨e, he, (isExpired_iff_due q e).mpr hdue, hmax⟩
    simp only [getExpiredEntriesBy, expireLoop_timeout hout]

end RetransmissionQueue

/-- A retransmission queue in use, and how often each regular packet has been sent: those
acknowledged and those that wait, in the order in which they were enqueued. -/
structure Resending where
  queue : RetransmissionQueue := {}
  acked : List ℕ := []
  waiting : List ℕ := []

inductive QueueCall where
  | enqueue (packet : Packet) (now : TimePoint)
  | enqueueZwp (packet : Packet) (now : TimePoint)
  | onAck (ack : UInt32) (now : TimePoint)
  | resetZwpCounter
  | getExpiredEntries (rightWindowEdge : UInt32) (now : TimePoint)
  deriving DecidableEq

namespace Resending

variable {backOff : Entry → TimePoint → ℕ → Bool} {s s' : Resending}

/-- One call.  A packet is sent when it is enqueued and when it is among the entries that
`getExpiredEntries` returns. -/
def step (backOff : Entry → TimePoint → ℕ → Bool) (s : Resending) :
    QueueCall → Exec (Except SocketError (List Entry) × Resending)
  | .enqueue packet now => do
      let queue ← s.queue.enqueue packet now
      return (.ok [], { s with queue, waiting := s.waiting ++ [1] })
  | .enqueueZwp packet now => do
      let queue ← s.queue.enqueueZwp packet now
      return (.ok [], { s with queue })
  | .onAck ack now =>
      let queue := s.queue.onAck ack now
      let n := s.queue.deque.length - queue.deque.length
      .ok (.ok [],
        { queue, acked := s.acked ++ s.waiting.take n, waiting := s.waiting.drop n })
  | .resetZwpCounter => .ok (.ok [], { s with queue := s.queue.resetZwpCounter })
  | .getExpiredEntries edge now =>
      match s.queue.getExpiredEntriesBy backOff edge now with
      | (.error e, queue) => .ok (.error e, { s with queue })
      | (.ok expired, queue) =>
          let waiting := List.zipWith (fun e n ↦ if s.queue.Due edge now e then n + 1 else n)
            s.queue.deque s.waiting
          .ok (.ok expired, { s with queue, waiting })

abbrev Step := Transition Resending QueueCall (Except SocketError (List Entry))

/-- No packet is sent more often than its counter says, nor more often than is allowed. -/
structure Bounded (s : Resending) : Prop where
  counted : List.Forall₂ (fun e n ↦ n ≤ 1 + e.counter) s.queue.deque s.waiting
  sent_le : ∀ n ∈ s.acked ++ s.waiting, n ≤ 1 + MAX_RETRANSMISSIONS

theorem counted_of_le {l l' : List Entry} {ns : List ℕ}
    (h : List.Forall₂ (fun e n ↦ n ≤ 1 + e.counter) l ns)
    (hle : List.Forall₂ (fun e e' ↦ e.counter ≤ e'.counter) l l') :
    List.Forall₂ (fun e n ↦ n ≤ 1 + e.counter) l' ns := by
  induction hle generalizing ns with
  | nil =>
      cases h
      exact .nil
  | cons hhead _ ih =>
      cases h with
      | cons hn hns => exact .cons (hn.trans (Nat.add_le_add_left hhead 1)) (ih hns)

theorem bounded_resent {P : Entry → Prop} [DecidablePred P] {l : List Entry} {ns : List ℕ}
    (h : List.Forall₂ (fun e n ↦ n ≤ 1 + e.counter) l ns)
    (hmax : ∀ e ∈ l, P e → e.counter < MAX_RETRANSMISSIONS)
    (hns : ∀ n ∈ ns, n ≤ 1 + MAX_RETRANSMISSIONS) (now : TimePoint) :
    List.Forall₂ (fun e n ↦ n ≤ 1 + e.counter)
        (l.map fun e ↦ if P e then e.resent now else e)
        (List.zipWith (fun e n ↦ if P e then n + 1 else n) l ns) ∧
      ∀ n ∈ List.zipWith (fun e n ↦ if P e then n + 1 else n) l ns,
        n ≤ 1 + MAX_RETRANSMISSIONS := by
  induction h with
  | nil => exact ⟨.nil, List.forall_mem_nil _⟩
  | @cons e n l ns hle h ih =>
      rw [List.forall_mem_cons] at hmax hns
      obtain ⟨hcounted, hsent⟩ := ih hmax.2 hns.2
      rw [List.map_cons, List.zipWith_cons_cons, List.forall_mem_cons]
      by_cases hP : P e
      · have hlt := hmax.1 hP
        simp only [hP, if_true]
        refine ⟨.cons ?_ hcounted, ?_, hsent⟩
        · simp only [Entry.resent]
          omega
        · omega
      · simp only [hP, if_false]
        exact ⟨.cons hle hcounted, hns.1, hsent⟩

theorem Bounded.step {t : Step} (hfires : Fires (Resending.step backOff) t)
    (h : Bounded t.pre) : Bounded t.post := by
  obtain ⟨s, l, out, s'⟩ := t
  simp only [Fires] at hfires h ⊢
  cases l with
  | enqueue packet now =>
      simp only [Resending.step, Exec.bind_eq_ok, Exec.pure_eq_ok, Prod.mk.injEq] at hfires
      obtain ⟨queue, henq, -, rfl⟩ := hfires
      obtain rfl := enqueue_cases henq
      refine ⟨List.rel_append h.counted (.cons le_rfl .nil), ?_⟩
      rw [← List.append_assoc, List.forall_mem_append]
      exact ⟨h.sent_le, by simp⟩
  | enqueueZwp packet now =>
      simp only [Resending.step, Exec.bind_eq_ok, Exec.pure_eq_ok, Prod.mk.injEq] at hfires
      obtain ⟨queue, henq, -, rfl⟩ := hfires
      obtain rfl := enqueueZwp_cases henq
      exact ⟨h.counted, h.sent_le⟩
  | onAck ack now =>
      simp only [Resending.step, Except.ok.injEq, Prod.mk.injEq] at hfires
      obtain ⟨-, rfl⟩ := hfires
      refine ⟨?_, ?_⟩
      · have hdrop : (s.queue.onAck ack now).deque =
            s.queue.deque.drop (s.queue.deque.length - (s.queue.onAck ack now).deque.length) :=
          List.suffix_iff_eq_drop.mp (List.dropWhile_suffix _)
        have hcounted := List.forall₂_drop
          (s.queue.deque.length - (s.queue.onAck ack now).deque.length) h.counted
        rwa [← hdrop] at hcounted
      · rw [List.append_assoc, List.take_append_drop]
        exact h.sent_le
  | resetZwpCounter =>
      simp only [Resending.step, Except.ok.injEq, Prod.mk.injEq] at hfires
      obtain ⟨-, rfl⟩ := hfires
      exact ⟨h.counted, h.sent_le⟩
  | getExpiredEntries edge now =>
      have hsent := List.forall_mem_append.mp h.sent_le
      by_cases hout : s.queue.OutOfRetransmissions edge now
      · -- counters may have been raised, but nothing is sent
        have htimeout := (resendsDue backOff s.queue edge now).timeout.mpr hout
        have hcounter : List.Forall₂ (fun e e' ↦ e.counter ≤ e'.counter) s.queue.deque
            (s.queue.getExpiredEntriesBy backOff edge now).2.deque := by
          rw [getExpiredEntriesBy_deque]
          exact expireLoop_counter _ _ _ _
        simp only [Resending.step] at hfires
        split at hfires <;> rename_i heq <;> rw [heq] at htimeout hcounter
        · cases hfires
          exact ⟨counted_of_le h.counted hcounter, h.sent_le⟩
        · cases htimeout
      · have hmax : ∀ e ∈ s.queue.deque, s.queue.Due edge now e →
            e.counter < MAX_RETRANSMISSIONS :=
          fun e he hdue ↦ not_le.mp fun hmax ↦ hout ⟨e, he, hdue, hmax⟩
        obtain ⟨hcounted, hwaiting⟩ := bounded_resent h.counted hmax hsent.2 now
        simp only [Resending.step, getExpiredEntriesBy_of_not_out hout, Except.ok.injEq,
          Prod.mk.injEq] at hfires
        obtain ⟨-, rfl⟩ := hfires
        exact ⟨hcounted, List.forall_mem_append.mpr ⟨hsent.1, hwaiting⟩⟩

/-- Every call resends what is due, in every run no packet is sent more often than once and
`MAX_RETRANSMISSIONS` times again, and the connection times out only for an entry of the queue
inside the window that is out of retransmissions. -/
theorem resends_run {tr : List Step} (h : Trace (step backOff) {} tr s) :
    (∀ q edge now, ResendsDue backOff q edge now) ∧
      (∀ n ∈ s.acked ++ s.waiting, n ≤ 1 + MAX_RETRANSMISSIONS) ∧
      ∀ t ∈ tr, t.out = .error .timeout → ∃ edge now, t.label = .getExpiredEntries edge now ∧
        t.pre.queue.OutOfRetransmissions edge now := by
  refine ⟨resendsDue backOff, ?_, ?_⟩
  · have hstart : Bounded {} := ⟨.nil, List.forall_mem_nil _⟩
    exact (Trace.invariant (I := Bounded) (A := fun _ ↦ True)
      (fun t hfires h _ ↦ h.step hfires) h hstart fun _ _ ↦ trivial).1.sent_le
  · rintro ⟨s, l, out, s'⟩ ht rfl
    have hfires := h.fires _ ht
    simp only [Fires] at hfires
    cases l with
    | getExpiredEntries edge now =>
        refine ⟨edge, now, rfl, (resendsDue backOff s.queue edge now).timeout.mp ?_⟩
        simp only [step] at hfires
        split at hfires <;> rename_i heq <;> cases hfires
        rw [heq]
    | enqueue packet now =>
        simp only [step, Exec.bind_eq_ok, Exec.pure_eq_ok, Prod.mk.injEq] at hfires
        obtain ⟨-, -, hout, -⟩ := hfires
        cases hout
    | enqueueZwp packet now =>
        simp only [step, Exec.bind_eq_ok, Exec.pure_eq_ok, Prod.mk.injEq] at hfires
        obtain ⟨-, -, hout, -⟩ := hfires
        cases hout
    | onAck ack now => cases hfires
    | resetZwpCounter => cases hfires

/-- A packet that is sent and resent five times, and then runs out of retransmissions. -/
theorem resends_run_timeout :
    ∃ (tr : List Step) (s : Resending),
      Trace (step Entry.hasExpiredExponential) {} tr s ∧ s.waiting = [6] ∧
        tr.getLast?.map Transition.out = some (.error .timeout) ∧
        (∀ q edge now, ResendsDue Entry.hasExpiredExponential q edge now) ∧
        (∀ n ∈ s.acked ++ s.waiting, n ≤ 1 + MAX_RETRANSMISSIONS) ∧
        ∀ t ∈ tr, t.out = .error .timeout → ∃ edge now, t.label = .getExpiredEntries edge now ∧
          t.pre.queue.OutOfRetransmissions edge now := by
  have hrun : Trace (step Entry.hasExpiredExponential) {} _ _ :=
    .cons (l := .enqueue (.makeAckPacket 10 0 8 [1]) 0) rfl
    (.cons (l := .getExpiredEntries 20 1000000000) rfl
    (.cons (l := .getExpiredEntries 20 2000000000) rfl
    (.cons (l := .getExpiredEntries 20 3000000000) rfl
    (.cons (l := .getExpiredEntries 20 4000000000) rfl
    (.cons (l := .getExpiredEntries 20 5000000000) rfl
    (.cons (l := .getExpiredEntries 20 6000000000) rfl (.nil _)))))))
  exact ⟨_, _, hrun, rfl, rfl, resends_run hrun⟩

end Resending

end Tns.Tcp
