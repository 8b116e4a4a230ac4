import Tns.Tcp.RetransmissionQueue

/-!
# The order of the numbers

Two threads take sequence numbers from one counter and enqueue the packets with
them later.  As long as each moves in its turn, the numbers taken stay apart, and
the packets that wait lie before those that are still to be enqueued.
-/

namespace Tns.Tcp

open RetransmissionQueue

namespace RetransmissionQueue

variable {q q' q'' : RetransmissionQueue}

def Waits (q : RetransmissionQueue) (packet : Packet) : Prop :=
  (∃ e ∈ q.deque, e.packet = packet) ∨ ∃ e, q.zwpEntry = some e ∧ e.packet = packet

theorem only_waits (q : RetransmissionQueue) : q.Only q.Waits :=
  ⟨fun e he ↦ .inl ⟨e, he, rfl⟩, fun e he ↦ .inr ⟨e, he, rfl⟩⟩

theorem Only.of_waits {P : Packet → Prop} {packet : Packet} (h : q.Only P)
    (hpacket : q.Waits packet) : P packet := by
  rcases hpacket with ⟨e, he, rfl⟩ | ⟨e, he, rfl⟩
  · exact h.1 e he
  · exact h.2 e he

theorem enqueue_of_end_le {packet : Packet} (now : TimePoint)
    (hend : ∀ e ∈ q.deque, e.getEndExclusive ≤ packet.seqNum.toNat) :
    q.enqueue packet now = .ok { q with deque := q.deque ++ [{ packet, lastSent := now }] } := by
  have hlast : ∀ e ∈ q.deque.getLast?, e.getEndExclusive ≤ packet.seqNum.toNat :=
    fun e he ↦ hend e (List.mem_of_getLast? he)
  rw [enqueue, Exec.assertThat, if_pos hlast, Exec.ok_bind]
  rfl

/-- The packets that wait in `q'` are some of those that wait in `q`, in their order. -/
structure Retains (q q' : RetransmissionQueue) : Prop where
  deque : (q'.deque.map Entry.packet).Sublist (q.deque.map Entry.packet)
  zwpEntry : q'.zwpEntry = none ∨ q'.zwpEntry.map Entry.packet = q.zwpEntry.map Entry.packet

namespace Retains

theorem refl (q : RetransmissionQueue) : Retains q q := ⟨List.Sublist.refl _, .inr rfl⟩

theorem trans (h : Retains q q') (h' : Retains q' q'') : Retains q q'' := by
  refine ⟨h'.deque.trans h.deque, ?_⟩
  rcases h'.zwpEntry with hnone | heq
  · exact .inl hnone
  · rcases h.zwpEntry with hnone | heq'
    · left
      rw [hnone] at heq
      exact Option.map_eq_none_iff.mp heq
    · exact .inr (heq.trans heq')

theorem onAck (q : RetransmissionQueue) (ack : UInt32) (now : TimePoint) :
    Retains q (q.onAck ack now) := by
  refine ⟨(List.dropWhile_sublist _).map _, ?_⟩
  cases hz : q.zwpEntry with
  | none => exact .inl (by simp [RetransmissionQueue.onAck, hz])
  | some z =>
      simp only [RetransmissionQueue.onAck, hz, Option.filter_some]
      split
      · exact .inr rfl
      · exact .inl rfl

theorem resetZwpCounter (q : RetransmissionQueue) : Retains q q.resetZwpCounter := by
  refine ⟨List.Sublist.refl _, .inr ?_⟩
  rw [RetransmissionQueue.resetZwpCounter, Option.map_map]
  rfl

theorem getExpiredEntries (q : RetransmissionQueue) (rightWindowEdge : UInt32) (now : TimePoint) :
    Retains q (q.getExpiredEntries rightWindowEdge now).2 := by
  obtain ⟨hkeep, -⟩ := expireLoop_packets now q.rto.rto rightWindowEdge q.deque
  simp only [RetransmissionQueue.getExpiredEntries]
  split
  · exact ⟨hkeep ▸ List.Sublist.refl _, .inr rfl⟩
  · split
    · exact ⟨hkeep ▸ List.Sublist.refl _, .inr rfl⟩
    · rename_i z hz
      split
      · exact ⟨hkeep ▸ List.Sublist.refl _, .inr (by rw [hz]; rfl)⟩
      · exact ⟨hkeep ▸ List.Sublist.refl _, .inr rfl⟩

theorem mem (h : Retains q q') {e' : Entry} (he' : e' ∈ q'.deque) :
    ∃ e ∈ q.deque, e.packet = e'.packet :=
  List.mem_map.mp (h.deque.subset (List.mem_map_of_mem he'))

theorem only {P : Packet → Prop} (h : Retains q q') (hP : q.Only P) : q'.Only P := by
  constructor
  · intro e' he'
    obtain ⟨e, he, heq⟩ := h.mem he'
    exact heq ▸ hP.1 e he
  · intro e' he'
    rcases h.zwpEntry with hnone | heq
    · rw [hnone] at he'
      cases he'
    · rw [he', Option.map_some] at heq
      obtain ⟨e, he, hpacket⟩ := Option.map_eq_some_iff.mp heq.symm
      exact hpacket ▸ hP.2 e he

theorem sorted (h : Retains q q') (hq : q.Sorted) : q'.Sorted := by
  rw [sorted_iff] at hq ⊢
  exact hq.sublist h.deque

end Retains

end RetransmissionQueue

/-- What the order of the packets depends on: SND.NXT, the segment that the sender thread has
taken, the number that `getNxt` has read, the number of the FIN that is taken, and the packets
that wait. -/
structure Numbers where
  nxt : UInt32
  held : Option (UInt32 × List Byte)
  read : Option UInt32
  fin : Option UInt32
  queue : RetransmissionQueue

/-- The number `f` is none of the `n` numbers from `seq` on. -/
def Misses (f seq : UInt32) (n : ℕ) : Prop := seq.toNat + n ≤ f.toNat ∨ f.toNat < seq.toNat

namespace Numbers

variable {n n' : Numbers} {packets : List Packet}

/-- The moves of the two threads, each in its turn, with the data packets that they send. -/
inductive Moves (n : Numbers) : List Packet → Numbers → Prop
  | keep (packets : List Packet) (q : RetransmissionQueue)
      (hsent : ∀ packet ∈ packets, n.queue.Waits packet) (hq : n.queue.Retains q) :
      Moves n packets { n with queue := q }
  | exit : Moves n [] { n with held := none }
  | take (data : List Byte) (hread : n.read = none ∨ data = [])
      (hlt : n.nxt.toNat + data.length < 2 ^ 32) :
      Moves n []
        { n with nxt := n.nxt + UInt32.ofNat data.length, held := some (n.nxt, data) }
  | enqueue (seq : UInt32) (data : List Byte) (packet : Packet) (now : TimePoint)
      (q : RetransmissionQueue) (hheld : n.held = some (seq, data)) (hseq : packet.seqNum = seq)
      (hdata : packet.payload = data) (henq : n.queue.enqueue packet now = .ok q)
      (hturn : ∀ fin, n.fin = some fin → seq ≤ fin) :
      Moves n [packet] { n with held := none, queue := q }
  | probe (packet : Packet) (now : TimePoint) (q : RetransmissionQueue) (hread : n.read = none)
      (hseq : packet.seqNum = n.nxt) (hdata : packet.payload.length = 1)
      (henq : n.queue.enqueueZwp packet now = .ok q) (hlt : n.nxt.toNat + 1 < 2 ^ 32) :
      Moves n [packet] { n with nxt := n.nxt + 1, queue := q }
  | getNxt : Moves n [] { n with read := some n.nxt }
  | takeFin (seq : UInt32) (hread : n.read = some seq) (hlt : n.nxt.toNat + 1 < 2 ^ 32) :
      Moves n [] { n with nxt := n.nxt + 1, read := none, fin := some seq }
  | enqueueFin (fin : UInt32) (packet : Packet) (now : TimePoint) (q : RetransmissionQueue)
      (hfin : n.fin = some fin) (hseq : packet.seqNum = fin) (hdata : packet.payload = [])
      (henq : n.queue.enqueue packet now = .ok q)
      (hturn : ∀ seq data, n.held = some (seq, data) → fin ≤ seq) :
      Moves n [] { n with fin := none, queue := q }

/-- All numbers that are taken lie before SND.NXT and apart from each other, and the packets
that wait lie before those not yet enqueued. -/
structure InOrder (n : Numbers) : Prop where
  sorted : n.queue.Sorted
  queue : n.queue.Only fun packet ↦ packet.seqNum.toNat + packet.payload.length ≤ n.nxt.toNat
  held : ∀ seq data, n.held = some (seq, data) → seq.toNat + data.length ≤ n.nxt.toNat ∧
    ∀ e ∈ n.queue.deque, e.getEndExclusive ≤ seq.toNat
  read : ∀ seq, n.read = some seq → seq = n.nxt
  fin : ∀ fin, n.fin = some fin → fin.toNat < n.nxt.toNat ∧
    ∀ e ∈ n.queue.deque, e.getEndExclusive ≤ fin.toNat
  apart : ∀ seq data fin, n.held = some (seq, data) → n.fin = some fin →
    Misses fin seq data.length

theorem toNat_nxt {x : UInt32} {k : ℕ} (hlt : x.toNat + k < 2 ^ 32) :
    (x + UInt32.ofNat k).toNat = x.toNat + k := by
  have hk : (UInt32.ofNat k).toNat = k := UInt32.toNat_ofNat_of_lt (by omega)
  rw [UInt32.toNat_add_of_lt (by omega), hk]

theorem toNat_nxt_one {x : UInt32} (hlt : x.toNat + 1 < 2 ^ 32) : (x + 1).toNat = x.toNat + 1 :=
  toNat_nxt (k := 1) hlt

theorem Moves.nxt_le (h : Moves n packets n') : n.nxt.toNat ≤ n'.nxt.toNat := by
  cases h with
  | take data hread hlt =>
      rw [toNat_nxt hlt]
      omega
  | probe packet now q hread hseq hdata henq hlt =>
      rw [toNat_nxt_one hlt]
      omega
  | takeFin seq hread hlt =>
      rw [toNat_nxt_one hlt]
      omega
  | _ => exact le_rfl

/-- What is sent waited in the queue, was held, or is a probe with the next number. -/
theorem Moves.forall_sent {P : UInt32 → ℕ → Prop} (h : Moves n packets n')
    (hqueue : n.queue.Only fun packet ↦ P packet.seqNum packet.payload.length)
    (hheld : ∀ seq data, n.held = some (seq, data) → P seq data.length)
    (hnxt : n.nxt.toNat < n'.nxt.toNat → P n.nxt 1) :
    ∀ packet ∈ packets, P packet.seqNum packet.payload.length := by
  intro packet hpacket
  cases h with
  | keep packets q hsent hq => exact hqueue.of_waits (hsent packet hpacket)
  | enqueue seq data packet' now q hseg hseq hdata henq hturn =>
      obtain rfl := List.mem_singleton.mp hpacket
      rw [hseq, hdata]
      exact hheld seq data hseg
  | probe packet' now q hread hseq hdata henq hlt =>
      obtain rfl := List.mem_singleton.mp hpacket
      rw [hseq, hdata]
      apply hnxt
      rw [toNat_nxt_one hlt]
      omega
  | _ => cases hpacket

namespace InOrder

theorem keep {q : RetransmissionQueue} (h : InOrder n) (hq : n.queue.Retains q) :
    InOrder { n with queue := q } := by
  have hmem : ∀ m, (∀ e ∈ n.queue.deque, e.getEndExclusive ≤ m) →
      ∀ e' ∈ q.deque, e'.getEndExclusive ≤ m := by
    intro m hm e' he'
    obtain ⟨e, he, heq⟩ := hq.mem he'
    have hle := hm e he
    rwa [Entry.getEndExclusive, heq] at hle
  exact
    { sorted := hq.sorted h.sorted
      queue := hq.only h.queue
      held := fun seq data hheld ↦ ⟨(h.held seq data hheld).1, hmem _ (h.held seq data hheld).2⟩
      read := h.read
      fin := fun fin hfin ↦ ⟨(h.fin fin hfin).1, hmem _ (h.fin fin hfin).2⟩
      apart := h.apart }

theorem exit (h : InOrder n) : InOrder { n with held := none } :=
  { sorted := h.sorted, queue := h.queue, held := nofun, read := h.read, fin := h.fin
    apart := nofun }

theorem end_le (h : InOrder n) : ∀ e ∈ n.queue.deque, e.getEndExclusive ≤ n.nxt.toNat :=
  fun e he ↦ h.queue.1 e he

theorem take {data : List Byte} (h : InOrder n) (hread : n.read = none ∨ data = [])
    (hlt : n.nxt.toNat + data.length < 2 ^ 32) :
    InOrder { n with
      nxt := n.nxt + UInt32.ofNat data.length, held := some (n.nxt, data) } := by
  have hnxt := toNat_nxt hlt
  refine
    { sorted := h.sorted
      queue := h.queue.mono fun p hp ↦ ?_
      held := ?_
      read := ?_
      fin := fun fin hfin ↦ ⟨?_, (h.fin fin hfin).2⟩
      apart := ?_ }
  · simp only [hnxt]
    omega
  · rintro seq data' hheld
    obtain ⟨rfl, rfl⟩ := Prod.mk.inj (Option.some.inj hheld)
    exact ⟨hnxt.ge, h.end_le⟩
  · intro seq hseq
    rcases hread with hnone | rfl
    · exact absurd (hnone.symm.trans hseq) nofun
    · simpa using h.read seq hseq
  · have hfin' := (h.fin fin hfin).1
    simp only [hnxt]
    omega
  · rintro seq data' fin hheld hfin
    obtain ⟨rfl, rfl⟩ := Prod.mk.inj (Option.some.inj hheld)
    exact .inr (h.fin fin hfin).1

theorem mem_enqueue {q q' : RetransmissionQueue} {packet : Packet} {now : TimePoint} {m : ℕ}
    (henq : q.enqueue packet now = .ok q') (hm : ∀ e ∈ q.deque, e.getEndExclusive ≤ m)
    (hpacket : packet.seqNum.toNat + packet.payload.length ≤ m) :
    ∀ e ∈ q'.deque, e.getEndExclusive ≤ m := by
  obtain rfl := enqueue_cases henq
  intro e he
  rcases List.mem_append.mp he with he | he
  · exact hm e he
  · obtain rfl := List.mem_singleton.mp he
    exact hpacket

theorem enqueue {seq : UInt32} {data : List Byte} {packet : Packet} {now : TimePoint}
    {q : RetransmissionQueue} (h : InOrder n) (hheld : n.held = some (seq, data))
    (hseq : packet.seqNum = seq) (hdata : packet.payload = data)
    (henq : n.queue.enqueue packet now = .ok q) (hturn : ∀ fin, n.fin = some fin → seq ≤ fin) :
    InOrder { n with held := none, queue := q } := by
  subst hseq hdata
  refine
    { sorted := h.sorted.enqueue henq
      queue := h.queue.enqueue (h.held _ _ hheld).1 henq
      held := nofun
      read := h.read
      fin := fun fin hfin ↦ ⟨(h.fin fin hfin).1, ?_⟩
      apart := nofun }
  refine mem_enqueue henq (h.fin fin hfin).2 ?_
  -- the segment and the FIN lie apart, and it is the segment's turn
  have hle := UInt32.le_iff_toNat_le.mp (hturn fin hfin)
  rcases h.apart _ _ fin hheld hfin with hbefore | hafter
  · exact hbefore
  · omega

theorem probe {packet : Packet} {now : TimePoint} {q : RetransmissionQueue} (h : InOrder n)
    (hread : n.read = none) (hseq : packet.seqNum = n.nxt) (hdata : packet.payload.length = 1)
    (henq : n.queue.enqueueZwp packet now = .ok q) (hlt : n.nxt.toNat + 1 < 2 ^ 32) :
    InOrder { n with nxt := n.nxt + 1, queue := q } := by
  have hnxt := toNat_nxt_one hlt
  have hqueue : n.queue.Only fun p ↦ p.seqNum.toNat + p.payload.length ≤ (n.nxt + 1).toNat :=
    h.queue.mono fun p hp ↦ by omega
  have hpacket : packet.seqNum.toNat + packet.payload.length ≤ (n.nxt + 1).toNat := by
    rw [hnxt, hseq, hdata]
  have hdeque : q.deque = n.queue.deque := by
    obtain rfl := enqueueZwp_cases henq
    rfl
  refine
    { sorted := ?_
      queue := hqueue.enqueueZwp hpacket henq
      held := fun seq data hheld ↦ ?_
      read := fun seq hseq' ↦ absurd (hread.symm.trans hseq') nofun
      fin := fun fin hfin ↦ ?_
      apart := h.apart }
  · rw [Sorted, hdeque]
    exact h.sorted
  · have hle := (h.held seq data hheld).1
    refine ⟨?_, hdeque ▸ (h.held seq data hheld).2⟩
    simp only [hnxt]
    omega
  · have hlt := (h.fin fin hfin).1
    refine ⟨?_, hdeque ▸ (h.fin fin hfin).2⟩
    simp only [hnxt]
    omega

theorem getNxt (h : InOrder n) : InOrder { n with read := some n.nxt } :=
  { h with read := fun _ hseq ↦ (Option.some.inj hseq).symm }

theorem takeFin {seq : UInt32} (h : InOrder n) (hread : n.read = some seq)
    (hlt : n.nxt.toNat + 1 < 2 ^ 32) :
    InOrder { n with nxt := n.nxt + 1, read := none, fin := some seq } := by
  have hnxt := toNat_nxt_one hlt
  obtain rfl := h.read seq hread
  refine
    { sorted := h.sorted
      queue := h.queue.mono fun p hp ↦ ?_
      held := fun seq data hheld ↦ ⟨?_, (h.held seq data hheld).2⟩
      read := nofun
      fin := fun fin hfin ↦ ?_
      apart := fun seq data fin hheld hfin ↦ ?_ }
  · simp only [hnxt]
    omega
  · have hle := (h.held seq data hheld).1
    simp only [hnxt]
    omega
  · obtain rfl := Option.some.inj hfin
    refine ⟨?_, h.end_le⟩
    simp only [hnxt]
    omega
  · obtain rfl := Option.some.inj hfin
    exact .inl (h.held seq data hheld).1

theorem enqueueFin {fin : UInt32} {packet : Packet} {now : TimePoint} {q : RetransmissionQueue}
    (h : InOrder n) (hfin : n.fin = some fin) (hseq : packet.seqNum = fin)
    (hdata : packet.payload = []) (henq : n.queue.enqueue packet now = .ok q)
    (hturn : ∀ seq data, n.held = some (seq, data) → fin ≤ seq) :
    InOrder { n with fin := none, queue := q } := by
  have hlt := (h.fin fin hfin).1
  subst hseq
  refine
    { sorted := h.sorted.enqueue henq
      queue := h.queue.enqueue ?_ henq
      held := fun seq data hheld ↦ ⟨(h.held seq data hheld).1, ?_⟩
      read := h.read
      fin := nofun
      apart := nofun }
  · rw [hdata, List.length_nil]
    omega
  · refine mem_enqueue henq (h.held seq data hheld).2 ?_
    rw [hdata, List.length_nil]
    exact UInt32.le_iff_toNat_le.mp (hturn seq data hheld)

theorem move (h : InOrder n) (hmove : Moves n packets n') : InOrder n' := by
  cases hmove with
  | keep packets q hsent hq => exact h.keep hq
  | exit => exact h.exit
  | take data hread hlt => exact h.take hread hlt
  | enqueue seq data packet now q hheld hseq hdata henq hturn =>
      exact h.enqueue hheld hseq hdata henq hturn
  | probe packet now q hread hseq hdata henq hlt => exact h.probe hread hseq hdata henq hlt
  | getNxt => exact h.getNxt
  | takeFin seq hread hlt => exact h.takeFin hread hlt
  | enqueueFin fin packet now q hfin hseq hdata henq hturn =>
      exact h.enqueueFin hfin hseq hdata henq hturn

theorem sent_le (h : InOrder n) (hmove : Moves n packets n') :
    ∀ packet ∈ packets, packet.seqNum.toNat + packet.payload.length ≤ n'.nxt.toNat := by
  have hle := hmove.nxt_le
  refine hmove.forall_sent (P := fun seq len ↦ seq.toNat + len ≤ n'.nxt.toNat)
    (h.queue.mono fun p hp ↦ hp.trans hle) ?_ id
  exact fun seq data hheld ↦ (h.held seq data hheld).1.trans hle

end InOrder

/-- The number `f` is taken, but by none of the packets sent or to be sent. -/
structure Skips (f : UInt32) (n : Numbers) : Prop where
  lt : f.toNat < n.nxt.toNat
  held : ∀ seq data, n.held = some (seq, data) → Misses f seq data.length
  queue : n.queue.Only fun packet ↦ Misses f packet.seqNum packet.payload.length

namespace Skips

variable {f : UInt32}

theorem sent (h : Skips f n) (hmove : Moves n packets n') :
    ∀ packet ∈ packets, Misses f packet.seqNum packet.payload.length :=
  hmove.forall_sent h.queue h.held fun _ ↦ .inr h.lt

theorem move (h : Skips f n) (hmove : Moves n packets n') : Skips f n' := by
  have hsent := h.sent hmove
  have hlt := h.lt.trans_le hmove.nxt_le
  cases hmove with
  | keep packets q _ hq => exact ⟨hlt, h.held, hq.only h.queue⟩
  | exit => exact ⟨hlt, nofun, h.queue⟩
  | take data hread _ =>
      refine ⟨hlt, fun seq data' hheld ↦ ?_, h.queue⟩
      obtain ⟨rfl, rfl⟩ := Prod.mk.inj (Option.some.inj hheld)
      exact .inr h.lt
  | enqueue seq data packet now q hheld hseq hdata henq hturn =>
      exact ⟨hlt, nofun, h.queue.enqueue (hsent packet List.mem_cons_self) henq⟩
  | probe packet now q hread hseq hdata henq _ =>
      exact ⟨hlt, h.held, h.queue.enqueueZwp (hsent packet List.mem_cons_self) henq⟩
  | getNxt => exact ⟨hlt, h.held, h.queue⟩
  | takeFin seq hread _ => exact ⟨hlt, h.held, h.queue⟩
  | enqueueFin fin packet now q hfin hseq hdata henq hturn =>
      refine ⟨hlt, h.held, h.queue.enqueue ?_ henq⟩
      rw [hdata, Misses, List.length_nil]
      omega

end Skips

/-- The number of the FIN is skipped from the move on that takes it. -/
theorem InOrder.skips (h : InOrder n) {seq : UInt32} (hlt : n.nxt.toNat + 1 < 2 ^ 32) :
    Skips n.nxt { n with nxt := n.nxt + 1, read := none, fin := some seq } := by
  refine ⟨?_, fun seq data hheld ↦ .inl (h.held seq data hheld).1, h.queue.mono fun p hp ↦ .inl hp⟩
  rw [toNat_nxt_one hlt]
  omega

end Numbers

end Tns.Tcp
