import Tns.Tcp.Resending

/-!
# Sequence space and the retransmission queue

A SYN and a FIN take a sequence number of their own besides the bytes of the
payload.  The queue orders its entries by the end of their payloads, and so an
acknowledgment up to a FIN, which does not cover it, removes it.
-/

namespace Tns.Tcp

open Tns.Library RetransmissionQueue

namespace Packet

/-- The packet has the SYN or the FIN flag. -/
def TakesNumber (p : Packet) : Prop := p.flags &&& (TH_SYN ||| TH_FIN) ≠ 0

instance (p : Packet) : Decidable p.TakesNumber := inferInstanceAs (Decidable (_ ≠ _))

/-- How many sequence numbers the packet occupies. -/
def sequenceLength (p : Packet) : ℕ := p.payload.length + if p.TakesNumber then 1 else 0

/-- The packet occupies the sequence number `n`. -/
def Occupies (p : Packet) (n : ℕ) : Prop :=
  p.seqNum.toNat ≤ n ∧ n < p.seqNum.toNat + p.sequenceLength

/-- Some sequence number from `ack` on is occupied by the packet. -/
def Unacked (ack : UInt32) (p : Packet) : Prop := ∃ n ≥ ack.toNat, p.Occupies n

/-- The packets that the sockets enqueue. -/
inductive OfSocket : Packet → Prop
  | syn (seqNum : UInt32) (wndSize : UInt16) : OfSocket (makeSynPacket seqNum wndSize)
  | synAck (seqNum ackNum : UInt32) (wndSize : UInt16) :
      OfSocket (makeSynAckPacket seqNum ackNum wndSize)
  | data (seqNum ackNum : UInt32) (wndSize : UInt16) (payload : List Byte)
      (hdata : payload ≠ []) : OfSocket (makeAckPacket seqNum ackNum wndSize payload)
  | fin (seqNum : UInt32) (wndSize : UInt16) : OfSocket (makeFinPacket seqNum wndSize)

variable {p : Packet} {ack : UInt32}

theorem unacked_iff :
    p.Unacked ack ↔ 0 < p.sequenceLength ∧ ack.toNat < p.seqNum.toNat + p.sequenceLength := by
  constructor
  · rintro ⟨n, hack, hle, hlt⟩
    exact ⟨by omega, hack.trans_lt hlt⟩
  · rintro ⟨hpos, hlt⟩
    exact ⟨max ack.toNat p.seqNum.toNat, le_max_left _ _, le_max_right _ _, by omega⟩

instance (ack : UInt32) (p : Packet) : Decidable (p.Unacked ack) :=
  decidable_of_iff _ unacked_iff.symm

namespace OfSocket

/-- What takes a number has no payload, and everything else has some. -/
theorem payload_eq_nil_iff (h : OfSocket p) : p.payload = [] ↔ p.TakesNumber := by
  cases h with
  | syn => exact iff_of_true rfl (show TH_SYN &&& (TH_SYN ||| TH_FIN) ≠ 0 by decide)
  | synAck =>
      exact iff_of_true rfl (show (TH_SYN ||| TH_ACK) &&& (TH_SYN ||| TH_FIN) ≠ 0 by decide)
  | data seqNum ackNum wndSize payload hdata =>
      refine iff_of_false hdata fun htakes ↦ htakes ?_
      show TH_ACK &&& (TH_SYN ||| TH_FIN) = 0
      decide
  | fin => exact iff_of_true rfl (show TH_FIN &&& (TH_SYN ||| TH_FIN) ≠ 0 by decide)

theorem sequenceLength_pos (h : OfSocket p) : 0 < p.sequenceLength := by
  rw [sequenceLength]
  split
  · exact Nat.succ_pos _
  · rename_i htakes
    exact List.length_pos_of_ne_nil (mt h.payload_eq_nil_iff.mp htakes)

/-- The end of the payload decides whether a packet is acknowledged, except for a packet that
takes the number `ack` itself. -/
theorem unacked_iff_payload (h : OfSocket p) : (p.Unacked ack →
      ack.toNat < p.seqNum.toNat + p.payload.length) ↔ (p.TakesNumber → p.seqNum ≠ ack) := by
  rw [unacked_iff, and_iff_right h.sequenceLength_pos, sequenceLength]
  by_cases htakes : p.TakesNumber
  · have hlength : p.payload.length = 0 :=
      List.length_eq_zero_iff.mpr (h.payload_eq_nil_iff.mpr htakes)
    rw [hlength, if_pos htakes, ← UInt32.toNat_inj.ne]
    constructor
    · intro hacked _ heq
      omega
    · intro hne hlt
      have := hne htakes
      omega
  · rw [if_neg htakes, Nat.add_zero]
    exact iff_of_true id fun htakes' ↦ absurd htakes' htakes

end OfSocket

end Packet

namespace Resending

variable {backOff : Entry → TimePoint → ℕ → Bool} {s s' : Resending}

/-- Only packets of the sockets are enqueued. -/
def EnqueuesOfSocket (t : Step) : Prop :=
  ∀ packet now, t.label = .enqueue packet now → packet.OfSocket

/-- The entries are packets of the sockets, in the order of their ends. -/
structure SocketQueue (s : Resending) : Prop where
  sorted : s.queue.Sorted
  ofSocket : ∀ e ∈ s.queue.deque, e.packet.OfSocket

theorem SocketQueue.step {t : Step} (hfires : Fires (Resending.step backOff) t)
    (h : SocketQueue t.pre) (hsocket : EnqueuesOfSocket t) : SocketQueue t.post := by
  obtain ⟨s, l, out, s'⟩ := t
  simp only [Fires] at hfires h ⊢
  cases l with
  | enqueue packet now =>
      simp only [Resending.step, Exec.bind_eq_ok, Exec.pure_eq_ok, Prod.mk.injEq] at hfires
      obtain ⟨queue, henq, -, rfl⟩ := hfires
      refine ⟨h.sorted.enqueue henq, ?_⟩
      simp only [enqueue_cases henq, List.forall_mem_append]
      exact ⟨h.ofSocket, by simpa using hsocket packet now rfl⟩
  | enqueueZwp packet now =>
      simp only [Resending.step, Exec.bind_eq_ok, Exec.pure_eq_ok, Prod.mk.injEq] at hfires
      obtain ⟨queue, henq, -, rfl⟩ := hfires
      obtain rfl := enqueueZwp_cases henq
      exact ⟨h.sorted, h.ofSocket⟩
  | onAck ack now =>
      simp only [Resending.step, Except.ok.injEq, Prod.mk.injEq] at hfires
      obtain ⟨-, rfl⟩ := hfires
      exact ⟨h.sorted.onAck ack now, fun e he ↦ h.ofSocket e (mem_onAck he)⟩
  | resetZwpCounter =>
      simp only [Resending.step, Except.ok.injEq, Prod.mk.injEq] at hfires
      obtain ⟨-, rfl⟩ := hfires
      exact ⟨h.sorted, h.ofSocket⟩
  | getExpiredEntries edge now =>
      have hdeque : s'.queue.deque.map Entry.packet = s.queue.deque.map Entry.packet := by
        rw [← (expireLoop_packets now s.queue.rto.rto edge s.queue.deque).1,
          ← getExpiredEntriesBy_deque backOff]
        simp only [Resending.step] at hfires
        split at hfires <;> rename_i heq <;> rw [heq] <;> cases hfires <;> rfl
      refine ⟨sorted_iff.mpr (hdeque ▸ sorted_iff.mp h.sorted), fun e he ↦ ?_⟩
      obtain ⟨f, hf, heq⟩ := List.mem_map.mp (hdeque ▸ List.mem_map_of_mem he)
      exact heq ▸ h.ofSocket f hf

/-- In every run in which the sockets enqueue their packets, `onAck` keeps exactly the packets
that occupy a number from the acknowledgment number on, if no SYN and no FIN in the queue has
this number, and only then. -/
theorem onAck_exact_iff {tr : List Step} (h : Trace (step backOff) {} tr s)
    (hsocket : ∀ t ∈ tr, EnqueuesOfSocket t) (ack : UInt32) (now : TimePoint) :
    (s.queue.onAck ack now).deque = s.queue.deque.filter (fun e ↦ e.packet.Unacked ack) ↔
      ∀ e ∈ s.queue.deque, e.packet.TakesNumber → e.packet.seqNum ≠ ack := by
  have hstart : SocketQueue {} := ⟨List.Pairwise.nil, List.forall_mem_nil _⟩
  have hqueue : SocketQueue s := (Trace.invariant (I := SocketQueue)
    (fun t hfires h hsocket ↦ h.step hfires hsocket) h hstart hsocket).1
  rw [hqueue.sorted.onAck_eq_filter ack now]
  constructor
  · intro hfilter e he
    apply (hqueue.ofSocket e he).unacked_iff_payload.mp
    intro hunacked
    have hmem : e ∈ s.queue.deque.filter fun e ↦ ack.toNat < e.getEndExclusive :=
      hfilter ▸ List.mem_filter.mpr ⟨he, decide_eq_true hunacked⟩
    exact of_decide_eq_true (List.mem_filter.mp hmem).2
  · intro hne
    apply List.filter_congr
    intro e he
    have hsocket := hqueue.ofSocket e he
    apply decide_eq_decide.mpr
    constructor
    · intro hlt
      rw [Packet.unacked_iff, and_iff_right hsocket.sequenceLength_pos]
      exact hlt.trans_le (Nat.add_le_add_left (Nat.le_add_right _ _) _)
    · exact hsocket.unacked_iff_payload.mpr (hne e he)

/-- A SYN, three bytes and a FIN, and an acknowledgment inside the bytes. -/
theorem onAck_exact_iff_data :
    ∃ (tr : List Step) (s : Resending), Trace (step Entry.hasExpiredExponential) {} tr s ∧
      s.queue.deque.length = 3 ∧
      ((s.queue.onAck 102 0).deque = s.queue.deque.filter (fun e ↦ e.packet.Unacked 102) ↔
        ∀ e ∈ s.queue.deque, e.packet.TakesNumber → e.packet.seqNum ≠ 102) := by
  have hrun : Trace (step Entry.hasExpiredExponential) {} _ _ :=
    .cons (l := .enqueue (.makeSynPacket 100 8) 0) rfl
    (.cons (l := .enqueue (.makeAckPacket 101 7 8 [1, 2, 3]) 0) rfl
    (.cons (l := .enqueue (.makeFinPacket 104 8) 0) rfl (.nil _)))
  refine ⟨_, _, hrun, rfl, onAck_exact_iff hrun ?_ 102 0⟩
  simp only [List.forall_mem_cons, EnqueuesOfSocket]
  refine ⟨?_, ?_, ?_, List.forall_mem_nil _⟩
  · rintro packet now ⟨⟩
    exact .syn 100 8
  · rintro packet now ⟨⟩
    exact .data 101 7 8 [1, 2, 3] (by simp)
  · rintro packet now ⟨⟩
    exact .fin 104 8

/-- The acknowledgment of the three bytes removes the FIN too. -/
theorem not_onAck_exact :
    ∃ (tr : List Step) (s : Resending), Trace (step Entry.hasExpiredExponential) {} tr s ∧
      (∀ t ∈ tr, EnqueuesOfSocket t) ∧ (∃ e ∈ s.queue.deque, e.packet = .makeFinPacket 104 8) ∧
      (s.queue.onAck 104 0).deque = [] ∧
      (s.queue.onAck 104 0).deque ≠ s.queue.deque.filter (fun e ↦ e.packet.Unacked 104) := by
  refine ⟨_, _, .cons (l := .enqueue (.makeAckPacket 101 7 8 [1, 2, 3]) 0) rfl
    (.cons (l := .enqueue (.makeFinPacket 104 8) 0) rfl (.nil _)), ?_, ?_, rfl, by decide⟩
  · simp only [List.forall_mem_cons, EnqueuesOfSocket]
    refine ⟨?_, ?_, List.forall_mem_nil _⟩
    · rintro packet now ⟨⟩
      exact .data 101 7 8 [1, 2, 3] (by simp)
    · rintro packet now ⟨⟩
      exact .fin 104 8
  · exact ⟨_, List.mem_cons_of_mem _ List.mem_cons_self, rfl⟩

end Resending

end Tns.Tcp
