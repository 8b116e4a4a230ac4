import Mathlib.Data.List.Forall2
import Tns.Library.Trace
import Tns.Tcp.SendBuffer

/-!
# Independence of the initial sequence number

Two send buffers that start at different initial sequence numbers and make the
same calls behave alike as long as no sequence number of either reaches `2 ^ 32`.
The size functions subtract modulo `2 ^ 32`, but `onAck` and the retransmission
queue compare sequence numbers as integers.
-/

namespace Tns.Tcp

open Tns.Library Tns.Library.Cyclic RetransmissionQueue

/-- The calls of a run, with sequence numbers given by their distance from the initial one. -/
inductive SeqCall where
  | write (bytesLeft : List Byte)
  | sendReadyData (buffSize : ℕ)
  | writeAndSendOne
  | enqueue (flags : UInt8) (d : ℕ) (ackNum : UInt32) (wndSize : UInt16) (payload : List Byte)
      (now : TimePoint)
  | onAck (d : ℕ) (wndSize : UInt32) (now : TimePoint)
  deriving DecidableEq

inductive SeqReturn where
  | size (r : Except SocketError ℕ)
  | segment (r : Except SocketError (UInt32 × List Byte))
  | unaNxt (una nxt : UInt32)
  | nothing

namespace SeqReturn

/-- The same return value with all sequence numbers moved by `k`. -/
def shift (k : UInt32) : SeqReturn → SeqReturn
  | size r => size r
  | segment r => segment (r.map fun (seq, data) ↦ (seq + k, data))
  | unaNxt una nxt => unaNxt (una + k) (nxt + k)
  | nothing => nothing

end SeqReturn

namespace SendBuffer

variable {N : ℕ} {b b' c : SendBuffer N}

/-- One call of a run whose sequence numbers are counted from `base`. -/
def seqCall (base : UInt32) (b : SendBuffer N) : SeqCall → Exec (SeqReturn × SendBuffer N)
  | .write bytesLeft => do
      let (r, _, b) ← b.write bytesLeft
      return (.size r, b)
  | .sendReadyData buffSize => do
      let (r, b) ← b.sendReadyData buffSize
      return (.segment r, b)
  | .writeAndSendOne => .ok (.nothing, b.writeAndSendOne)
  | .enqueue flags d ackNum wndSize payload now => do
      let packet : Packet :=
        { flags, seqNum := base + UInt32.ofNat d, ackNum, wndSize, payload }
      let q ← b.retransmitQueue.enqueue packet now
      return (.nothing, { b with retransmitQueue := q })
  | .onAck d wndSize now =>
      let (unaNxt, _, b) := b.onAck (base + UInt32.ofNat d) wndSize now
      .ok (.unaNxt unaNxt.1 unaNxt.2, b)

abbrev SeqStep (N : ℕ) := Transition (SendBuffer N) SeqCall SeqReturn

/-- With every sequence number counted from `i` and from `j`, no one reaches `2 ^ 32`.
Acknowledgments are for what has been sent, and no empty buffer is to be filled from 0 on,
where the last position to read would be below 0. -/
def NoWrap (i j : UInt32) (b : SendBuffer N) : SeqCall → Prop
  | .write bytesLeft =>
      b.nbw.toNat + bytesLeft.length < 2 ^ 32 ∧
        b.nbw.toNat - i.toNat + j.toNat + bytesLeft.length < 2 ^ 32
  | .sendReadyData buffSize => 0 < buffSize ∨ 0 < b.nxt.toNat - i.toNat + j.toNat
  | .writeAndSendOne =>
      b.nbw.toNat + 1 < 2 ^ 32 ∧ b.nbw.toNat - i.toNat + j.toNat + 1 < 2 ^ 32
  | .enqueue _ d _ _ _ _ => i.toNat + d < 2 ^ 32 ∧ j.toNat + d < 2 ^ 32
  | .onAck d _ _ => i.toNat + d ≤ b.nxt.toNat

instance (i j : UInt32) (b : SendBuffer N) : DecidablePred (NoWrap i j b)
  | .write _ => inferInstanceAs (Decidable (_ ∧ _))
  | .sendReadyData _ => inferInstanceAs (Decidable (_ ∨ _))
  | .writeAndSendOne => inferInstanceAs (Decidable (_ ∧ _))
  | .enqueue _ _ _ _ _ _ => inferInstanceAs (Decidable (_ ∧ _))
  | .onAck _ _ _ => inferInstanceAs (Decidable (_ ≤ _))

/-- The same entry, counted from `i` and from `j`. -/
structure SameEntry (i j : UInt32) (e f : Entry) : Prop where
  seqNum : e.packet.seqNum.toNat + j.toNat = f.packet.seqNum.toNat + i.toNat
  packet : f.packet = { e.packet with seqNum := f.packet.seqNum }
  lastSent : f.lastSent = e.lastSent
  counter : f.counter = e.counter

/-- The arrays hold the same bytes at the same distance from `i` and from `j`. -/
def SameMemory (i j : UInt32) (v w : Vector Byte N) : Prop :=
  ∀ k, i.toNat ≤ k → cell w (k - i.toNat + j.toNat) = cell v k

/-- `writeAndSendOne` passes over no unsent data.  Otherwise it moves `nbw_` past a cell that
has not been written, whose content is sent later. -/
def SkipsNothing (b : SendBuffer N) : SeqCall → Prop
  | .writeAndSendOne => b.nxt = b.nbw
  | _ => True

instance (b : SendBuffer N) : DecidablePred (SkipsNothing b)
  | .writeAndSendOne => inferInstanceAs (Decidable (_ = _))
  | .write _ | .sendReadyData _ | .enqueue _ _ _ _ _ _ | .onAck _ _ _ =>
      inferInstanceAs (Decidable True)

/-- The same buffer, counted from `i` and from `j`.  Unless the whole memory is known to be
the same (`mem`), only the cells of unsent data have to agree. -/
structure Same (i j : UInt32) (mem : Prop) (b c : SendBuffer N) : Prop where
  base : i.toNat ≤ b.una.toNat
  una : b.una.toNat + j.toNat = c.una.toNat + i.toNat
  nxt : b.nxt.toNat + j.toNat = c.nxt.toNat + i.toNat
  nbw : b.nbw.toNat + j.toNat = c.nbw.toNat + i.toNat
  wnd : c.wnd = b.wnd
  stopped : c.stopped = b.stopped
  zwp : b.zwp.state = .pause ∧ c.zwp.state = .pause
  ordered : b.Ordered
  cells : ∀ k, i.toNat ≤ k → mem ∨ b.nxt.toNat ≤ k ∧ k < b.nbw.toNat →
    cell c.buf (k - i.toNat + j.toNat) = cell b.buf k
  rto : c.retransmitQueue.rto = b.retransmitQueue.rto
  deque : List.Forall₂ (SameEntry i j) b.retransmitQueue.deque c.retransmitQueue.deque
  sorted : b.retransmitQueue.Sorted ∧ c.retransmitQueue.Sorted

variable {i j : UInt32} {mem : Prop}

namespace SameEntry

variable {e f : Entry}

theorem getEndExclusive_eq (h : SameEntry i j e f) :
    e.getEndExclusive + j.toNat = f.getEndExclusive + i.toNat := by
  have hseq := h.seqNum
  rw [Entry.getEndExclusive, Entry.getEndExclusive, congrArg Packet.payload h.packet]
  simp only
  omega

theorem getLast? {l m : List Entry} (h : List.Forall₂ (SameEntry i j) l m) :
    ∀ f ∈ m.getLast?, ∃ e ∈ l.getLast?, SameEntry i j e f := by
  induction h with
  | nil => simp
  | @cons e f l m hef hlm ih =>
      cases hlm with
      | nil => simpa using hef
      | cons hef' hlm' => simpa [List.getLast?_cons_cons] using ih

theorem onAck {q r : RetransmissionQueue} (a a' : UInt32) (now : TimePoint)
    (h : List.Forall₂ (SameEntry i j) q.deque r.deque) (hrto : r.rto = q.rto)
    (ha : a.toNat + j.toNat = a'.toNat + i.toNat) :
    List.Forall₂ (SameEntry i j) (q.onAck a now).deque (r.onAck a' now).deque ∧
      (r.onAck a' now).rto = (q.onAck a now).rto := by
  obtain ⟨rto, l, z⟩ := q
  obtain ⟨rto', m, z'⟩ := r
  simp only [RetransmissionQueue.onAck] at h hrto ⊢
  subst hrto
  induction h generalizing rto' with
  | nil => simp
  | @cons e f l m hef hlm ih =>
      have hend := hef.getEndExclusive_eq
      by_cases hle : e.getEndExclusive ≤ a.toNat
      · have hle' : f.getEndExclusive ≤ a'.toNat := by omega
        have hnot : f.hasNotResent = e.hasNotResent := by
          rw [Entry.hasNotResent, Entry.hasNotResent, hef.counter]
        have hrtt : f.getRtt now = e.getRtt now := by
          rw [Entry.getRtt, Entry.getRtt, hef.lastSent]
        rw [List.dropWhile_cons_of_pos (by simpa using hle),
          List.dropWhile_cons_of_pos (by simpa using hle'),
          List.takeWhile_cons_of_pos (by simpa using hle'),
          List.takeWhile_cons_of_pos (by simpa using hle), List.filter_cons, List.filter_cons,
          hnot]
        split
        · rw [List.foldl_cons, List.foldl_cons, hrtt]
          exact ih _
        · exact ih _
      · have hle' : ¬f.getEndExclusive ≤ a'.toNat := by omega
        rw [List.dropWhile_cons_of_neg (by simpa using hle),
          List.dropWhile_cons_of_neg (by simpa using hle'),
          List.takeWhile_cons_of_neg (by simpa using hle'),
          List.takeWhile_cons_of_neg (by simpa using hle)]
        exact ⟨.cons hef hlm, rfl⟩

end SameEntry

/-- An acknowledgment of data sent is accepted, frees the space of what it acknowledges and
leaves no entry in the queue that it acknowledges entirely. -/
def Accepts (b b' : SendBuffer N) (ackNum : UInt32) : Prop :=
  b'.una = ackNum ∧ (b'.nbw - b'.una).toNat + (ackNum.toNat - b.una.toNat) = (b.nbw - b.una).toNat ∧
    ∀ e ∈ b'.retransmitQueue.deque, ackNum.toNat < e.getEndExclusive

theorem accepts_onAck (hord : b.Ordered) (hzwp : b.zwp.state = .pause)
    (hsorted : b.retransmitQueue.Sorted) {ackNum wndSize : UInt32} {now : TimePoint}
    (hacc : b.una < ackNum ∧ ackNum ≤ b.nxt) :
    Accepts b (b.onAck ackNum wndSize now).2.2 ackNum := by
  rw [onAck_of_pause _ _ _ _ hzwp]
  simp only [hacc, and_self, if_true]
  have h₁ := UInt32.lt_iff_toNat_lt.mp hacc.1
  have h₂ := UInt32.le_iff_toNat_le.mp hacc.2
  have h₃ := hord.nxt_le_nbw
  refine ⟨rfl, ?_, fun e he ↦ hsorted.lt_of_mem_onAck he⟩
  rw [UInt32.toNat_sub_of_le _ _ (UInt32.le_iff_toNat_le.mpr (by simp only; omega)),
    UInt32.toNat_sub_of_le _ _ (UInt32.le_iff_toNat_le.mpr (by omega))]
  simp only
  omega

namespace Same

theorem init (bufI bufJ : Vector Byte N) (i j w : UInt32) :
    Same i j (SameMemory i j bufI bufJ) (init bufI i w) (SendBuffer.init bufJ j w) where
  base := le_rfl
  una := Nat.add_comm _ _
  nxt := Nat.add_comm _ _
  nbw := Nat.add_comm _ _
  wnd := rfl
  stopped := rfl
  zwp := ⟨rfl, rfl⟩
  ordered := Ordered.init bufI i w
  cells k hk hcell := by
    rcases hcell with hmem | ⟨hge, hlt⟩
    · exact hmem k hk
    · exact absurd hlt hge.not_gt
  rto := rfl
  deque := .nil
  sorted := ⟨List.Pairwise.nil, List.Pairwise.nil⟩

theorem ordered' (h : Same i j mem b c) : c.Ordered := by
  have h₁ := h.ordered.una_le_nxt
  have h₂ := h.ordered.nxt_le_nbw
  have := h.una
  have := h.nxt
  have := h.nbw
  exact ⟨by omega, by omega⟩

theorem sizeCanSend_eq (h : Same i j mem b c) : c.sizeCanSend = b.sizeCanSend := by
  rw [h.ordered.sizeCanSend_eq, h.ordered'.sizeCanSend_eq, h.wnd]
  have := h.una
  have := h.nxt
  have := h.nbw
  omega

theorem sizeUsed_eq (h : Same i j mem b c) : (c.nbw - c.una).toNat = (b.nbw - b.una).toNat := by
  have h₁ := h.ordered.una_le_nxt
  have h₂ := h.ordered.nxt_le_nbw
  have := h.una
  have := h.nbw
  rw [UInt32.toNat_sub_of_le _ _ (UInt32.le_iff_toNat_le.mpr (by omega)),
    UInt32.toNat_sub_of_le _ _ (UInt32.le_iff_toNat_le.mpr (by omega))]
  omega

theorem sizeFree_eq (h : Same i j mem b c) : c.sizeFree = b.sizeFree := by
  rw [sizeFree, sizeFree, h.sizeUsed_eq]

theorem write (hN : 0 < N) (h : Same i j mem b c) {bytes : List Byte} {o : SeqReturn}
    (hwrap : NoWrap i j b (.write bytes)) (hcall : b.seqCall i (.write bytes) = .ok (o, b')) :
    ∃ c', c.seqCall j (.write bytes) = .ok (o.shift (j - i), c') ∧ Same i j mem b' c' := by
  simp only [seqCall, Exec.bind_eq_ok, Exec.pure_eq_ok, Prod.mk.injEq, Prod.exists] at hcall
  obtain ⟨r, wakes, b₁, hwrite, rfl, rfl⟩ := hcall
  rcases write_cases hwrite with ⟨hstop, rfl, -, rfl⟩ | ⟨hstop, hfree, n, rb, hring, rfl, -, rfl⟩
  · rw [seqCall, write_of_stopped _ (h.stopped.trans hstop)]
    exact ⟨c, rfl, h⟩
  have huna := h.una
  have hnxt := h.nxt
  have hnbw := h.nbw
  have hbase := h.base
  have hord₁ := h.ordered.una_le_nxt
  have hord₂ := h.ordered.nxt_le_nbw
  -- The range to fill is the same one, moved, so as many bytes are stored.
  have hlast := h.ordered.last_eq hN
  have hlast' := h.ordered'.last_eq hN
  obtain ⟨m, rc, hring'⟩ := RingBuffer.exists_write c.toRingBuffer bytes
    c.nbw.toNat (c.una.toNat + N - 1) (by omega)
  have hsize := RingBuffer.write_size (hlast ▸ hring)
  have hsize' := RingBuffer.write_size hring'
  obtain rfl : m = n := by
    rw [hsize, hsize', RingBuffer.writeSize, RingBuffer.writeSize]
    split <;> split <;> omega
  obtain ⟨wakes', hwrite'⟩ := write_of_ring (h.stopped.trans hstop) (h.sizeFree_eq ▸ hfree)
    (hlast' ▸ hring')
  refine ⟨_, by rw [seqCall, hwrite']; rfl, ?_⟩
  have hle := RingBuffer.write_le_length hring
  obtain ⟨hwrap₁, hwrap₂⟩ := hwrap
  have hofNat := UInt32.toNat_ofNat_of_lt (n := m) (by omega)
  have hnew : (b.nbw + UInt32.ofNat m).toNat = b.nbw.toNat + m := by
    rw [UInt32.toNat_add_of_lt (by omega), hofNat]
  have hnew' : (c.nbw + UInt32.ofNat m).toNat = c.nbw.toNat + m := by
    rw [UInt32.toNat_add_of_lt (by omega), hofNat]
  refine ⟨h.base, h.una, h.nxt, ?_, h.wnd, h.stopped, h.zwp, ⟨hord₁, ?_⟩, ?_, h.rto, h.deque,
    h.sorted⟩
  · simp only [hnew, hnew']
    omega
  · simp only [hnew]
    omega
  · intro k hk hcell
    simp only [hnew] at hcell
    refine RingBuffer.cell_write_shift (hlast ▸ hring) hring' (by omega) (by omega) hk fun hout ↦
      h.cells k hk (hcell.imp_right fun hin ↦ ⟨hin.1, ?_⟩)
    by_contra hnbw
    exact hout (k - b.nbw.toNat) (by omega) (by rw [Nat.add_sub_cancel' (by omega)])

theorem sendReadyData (h : Same i j mem b c) {buffSize : ℕ} {o : SeqReturn}
    (hwrap : NoWrap i j b (.sendReadyData buffSize))
    (hcall : b.seqCall i (.sendReadyData buffSize) = .ok (o, b')) :
    ∃ c', c.seqCall j (.sendReadyData buffSize) = .ok (o.shift (j - i), c') ∧
      Same i j mem b' c' := by
  simp only [seqCall, Exec.bind_eq_ok, Exec.pure_eq_ok, Prod.mk.injEq, Prod.exists] at hcall
  obtain ⟨r, b₁, hsend, rfl, rfl⟩ := hcall
  rcases sendReadyData_cases hsend with ⟨hstop, rfl, rfl⟩ | ⟨hstop, hpos, data, hread, hlen, rfl, -⟩
  · rw [seqCall, sendReadyData_of_stopped _ (h.stopped.trans hstop)]
    exact ⟨c, rfl, h⟩
  obtain ⟨-, -, hnbwle, hfit, hnew, hwnd, hord, hb⟩ := h.ordered.sendReadyData hsend
  have huna := h.una
  have hnxt := h.nxt
  have hnbw := h.nbw
  have hbase := h.base
  have hord₁ := h.ordered.una_le_nxt
  have hread' : c.toRingBuffer.read buffSize c.nxt.toNat
      (sizeSub (c.nxt.toNat + min b.sizeCanSend buffSize) 1) = .ok data := by
    rcases Nat.eq_zero_or_pos buffSize with rfl | hbuff
    · obtain rfl : data = [] := List.eq_nil_of_length_eq_zero (by omega)
      apply RingBuffer.read_of_lt
      simp only [NoWrap, Nat.lt_irrefl, false_or] at hwrap
      rw [Nat.min_zero, Nat.add_zero, sizeSub_of_le (by omega)]
      omega
    · rw [sizeSub_of_le (by omega)] at hread ⊢
      exact RingBuffer.read_shift hread (by omega) (by omega) (by omega) (by omega)
        fun k hk hk' ↦ h.cells k (by omega) (.inr ⟨hk, by omega⟩)
  have hcan := h.sizeCanSend_eq
  have hsend' := sendReadyData_of_read (h.stopped.trans hstop) (hcan ▸ hpos)
    (hcan ▸ hread') (hcan ▸ hlen)
  have hout : (SeqReturn.segment (.ok (b.nxt, data))).shift (j - i) =
      .segment (.ok (c.nxt, data)) := by
    simp [SeqReturn.shift, Except.map, UInt32.eq_add_sub hnxt]
  refine ⟨_, by rw [seqCall, hsend', hout]; rfl, ?_⟩
  have hnew' := (h.ordered'.sendReadyData hsend').2.2.2.2.1
  simp only at hnew'
  rw [hb] at hnew hord ⊢
  simp only at hnew
  refine ⟨h.base, h.una, ?_, h.nbw, by simp only [h.wnd], h.stopped, h.zwp, hord, ?_, h.rto,
    h.deque, h.sorted⟩
  · simp only [hnew, hnew']
    omega
  · intro k hk hcell
    simp only [hnew] at hcell
    exact h.cells k hk (hcell.imp_right fun hin ↦ ⟨by omega, hin.2⟩)

theorem writeAndSendOne (h : Same i j mem b c) (hwrap : NoWrap i j b .writeAndSendOne)
    (hskip : mem ∨ b.nxt = b.nbw) : Same i j mem b.writeAndSendOne c.writeAndSendOne := by
  obtain ⟨hwrap₁, hwrap₂⟩ := hwrap
  have hbase := h.base
  have hnxt := h.nxt
  have hnbw := h.nbw
  have hord₁ := h.ordered.una_le_nxt
  have hord₂ := h.ordered.nxt_le_nbw
  have hone : ∀ x : UInt32, x.toNat + 1 < 2 ^ 32 → (x + 1).toNat = x.toNat + 1 :=
    fun x hx ↦ UInt32.toNat_add_of_lt hx
  have hbnxt := hone b.nxt (by omega)
  have hbnbw := hone b.nbw hwrap₁
  have hcnxt := hone c.nxt (by omega)
  have hcnbw := hone c.nbw (by omega)
  simp only [SendBuffer.writeAndSendOne]
  refine ⟨h.base, h.una, ?_, ?_, h.wnd, h.stopped, h.zwp, ⟨?_, ?_⟩, ?_, h.rto, h.deque,
    h.sorted⟩
  · simp only [hbnxt, hcnxt]
    omega
  · simp only [hbnbw, hcnbw]
    omega
  · simp only [hbnxt]
    omega
  · simp only [hbnxt, hbnbw]
    omega
  · intro k hk hcell
    simp only [hbnxt, hbnbw] at hcell
    rcases hskip with hmem | heq
    · exact h.cells k hk (.inl hmem)
    · rw [heq] at hcell
      exact h.cells k hk (hcell.imp_right fun ⟨hge, hlt⟩ ↦ absurd hlt hge.not_gt)

theorem enqueue (h : Same i j mem b c) {flags : UInt8} {d : ℕ} {ackNum : UInt32} {wndSize : UInt16}
    {payload : List Byte} {now : TimePoint} {o : SeqReturn}
    (hwrap : NoWrap i j b (.enqueue flags d ackNum wndSize payload now))
    (hcall : b.seqCall i (.enqueue flags d ackNum wndSize payload now) = .ok (o, b')) :
    ∃ c', c.seqCall j (.enqueue flags d ackNum wndSize payload now) = .ok (o.shift (j - i), c') ∧
      Same i j mem b' c' := by
  simp only [seqCall, Exec.bind_eq_ok, Exec.pure_eq_ok, Prod.mk.injEq] at hcall
  obtain ⟨q, henq, rfl, rfl⟩ := hcall
  obtain ⟨hwrap₁, hwrap₂⟩ := hwrap
  have hofNat := UInt32.toNat_ofNat_of_lt (n := d) (by omega)
  have hseq : (i + UInt32.ofNat d).toNat = i.toNat + d := by
    rw [UInt32.toNat_add_of_lt (by omega), hofNat]
  have hseq' : (j + UInt32.ofNat d).toNat = j.toNat + d := by
    rw [UInt32.toNat_add_of_lt (by omega), hofNat]
  have hlast : ∀ f ∈ c.retransmitQueue.deque.getLast?,
      f.getEndExclusive ≤ (j + UInt32.ofNat d).toNat := by
    intro f hf
    obtain ⟨e, he, hef⟩ := SameEntry.getLast? h.deque f hf
    simp only [RetransmissionQueue.enqueue, Exec.bind_eq_ok, Exec.assertThat_eq_ok] at henq
    have hle := henq.choose_spec.1 e he
    have hend := hef.getEndExclusive_eq
    omega
  have henq' : ∃ r, c.retransmitQueue.enqueue
      { flags, seqNum := j + UInt32.ofNat d, ackNum, wndSize, payload } now = .ok r := by
    rw [RetransmissionQueue.enqueue, Exec.assertThat, if_pos hlast]
    exact ⟨_, rfl⟩
  obtain ⟨r, henq'⟩ := henq'
  refine ⟨{ c with retransmitQueue := r }, by rw [seqCall, henq']; rfl, ?_⟩
  have hsorted := h.sorted.1.enqueue henq
  have hsorted' := h.sorted.2.enqueue henq'
  rw [enqueue_cases henq] at hsorted ⊢
  rw [enqueue_cases henq'] at hsorted' ⊢
  refine ⟨h.base, h.una, h.nxt, h.nbw, h.wnd, h.stopped, h.zwp, ⟨h.ordered.1, h.ordered.2⟩,
    h.cells, h.rto, ?_, hsorted, hsorted'⟩
  refine List.rel_append h.deque (.cons ⟨?_, rfl, rfl, rfl⟩ .nil)
  simp only [hseq, hseq']
  omega

theorem onAck (h : Same i j mem b c) {d : ℕ} (wndSize : UInt32) (now : TimePoint)
    (hle : i.toNat + d ≤ b.nxt.toNat) :
    Same i j mem (b.onAck (i + UInt32.ofNat d) wndSize now).2.2
      (c.onAck (j + UInt32.ofNat d) wndSize now).2.2 := by
  have huna := h.una
  have hnxt := h.nxt
  have hbase := h.base
  have hb := b.nxt.toNat_lt
  have hc := c.nxt.toNat_lt
  have hord₁ := h.ordered.una_le_nxt
  have hofNat := UInt32.toNat_ofNat_of_lt (n := d) (by omega)
  have hack : (i + UInt32.ofNat d).toNat = i.toNat + d := by
    rw [UInt32.toNat_add_of_lt (by omega), hofNat]
  have hack' : (j + UInt32.ofNat d).toNat = j.toNat + d := by
    rw [UInt32.toNat_add_of_lt (by omega), hofNat]
  have hacc : (c.una < j + UInt32.ofNat d ∧ j + UInt32.ofNat d ≤ c.nxt) ↔
      (b.una < i + UInt32.ofNat d ∧ i + UInt32.ofNat d ≤ b.nxt) := by
    simp only [UInt32.lt_iff_toNat_lt, UInt32.le_iff_toNat_le, hack, hack']
    omega
  have hnew : c.una ≤ j + UInt32.ofNat d ↔ b.una ≤ i + UInt32.ofNat d := by
    simp only [UInt32.le_iff_toNat_le, hack, hack']
    omega
  obtain ⟨hdeque, hrto⟩ := SameEntry.onAck (i + UInt32.ofNat d) (j + UInt32.ofNat d) now
    h.deque h.rto (by omega)
  have hord := h.ordered.onAck (i + UInt32.ofNat d) wndSize now
  rw [onAck_of_pause _ _ _ _ h.zwp.1] at hord ⊢
  rw [onAck_of_pause _ _ _ _ h.zwp.2]
  simp only [hacc, hnew]
  by_cases hin : b.una < i + UInt32.ofNat d ∧ i + UInt32.ofNat d ≤ b.nxt
  · simp only [hin, and_self, if_true] at hord ⊢
    refine ⟨by simp only [hack]; omega, by simp only [hack, hack']; omega, h.nxt, h.nbw, ?_,
      h.stopped, h.zwp, hord, h.cells, hrto, hdeque, h.sorted.1.onAck _ _, h.sorted.2.onAck _ _⟩
    simp only [h.wnd]
  · simp only [hin, if_false] at hord ⊢
    refine ⟨h.base, h.una, h.nxt, h.nbw, ?_, h.stopped, h.zwp, hord, h.cells, h.rto, h.deque,
      h.sorted⟩
    simp only [h.wnd]

end Same

/-- The two runs make the same call: the returned values are the same up to the distance of
the initial sequence numbers, so are the sizes afterwards, and new acknowledgments are
accepted in both. -/
structure SameStep (i j : UInt32) (t t' : SeqStep N) : Prop where
  label : t'.label = t.label
  out : t'.out = t.out.shift (j - i)
  sizeFree : t'.post.sizeFree = t.post.sizeFree
  sizeCanSend : t'.post.sizeCanSend = t.post.sizeCanSend
  accepts : ∀ d wndSize now, t.label = .onAck d wndSize now → t.pre.una.toNat < i.toNat + d →
    Accepts t.pre t.post (i + UInt32.ofNat d) ∧ Accepts t'.pre t'.post (j + UInt32.ofNat d)

theorem sameStep (hN : 0 < N) (h : Same i j mem b c) {l : SeqCall} {o : SeqReturn}
    (hwrap : NoWrap i j b l) (hskip : mem ∨ SkipsNothing b l)
    (hcall : b.seqCall i l = .ok (o, b')) :
    ∃ o' c', c.seqCall j l = .ok (o', c') ∧ Same i j mem b' c' ∧
      SameStep i j ⟨b, l, o, b'⟩ ⟨c, l, o', c'⟩ := by
  have hmk : (hnot : ∀ d wndSize now, l ≠ .onAck d wndSize now) →
      (∃ c', c.seqCall j l = .ok (o.shift (j - i), c') ∧ Same i j mem b' c') →
      ∃ o' c', c.seqCall j l = .ok (o', c') ∧ Same i j mem b' c' ∧
        SameStep i j ⟨b, l, o, b'⟩ ⟨c, l, o', c'⟩ := by
    rintro hnot ⟨c', hcall', hsame⟩
    exact ⟨_, c', hcall', hsame, rfl, rfl, hsame.sizeFree_eq, hsame.sizeCanSend_eq,
      fun d wndSize now hl _ ↦ absurd hl (hnot d wndSize now)⟩
  cases l with
  | write bytes => exact hmk (by simp) (h.write hN hwrap hcall)
  | sendReadyData buffSize => exact hmk (by simp) (h.sendReadyData hwrap hcall)
  | enqueue flags d ackNum wndSize payload now => exact hmk (by simp) (h.enqueue hwrap hcall)
  | writeAndSendOne =>
      simp only [seqCall, Except.ok.injEq, Prod.mk.injEq] at hcall
      obtain ⟨rfl, rfl⟩ := hcall
      exact hmk (by simp) ⟨_, rfl, h.writeAndSendOne hwrap hskip⟩
  | onAck d wndSize now =>
      simp only [seqCall, Except.ok.injEq, Prod.mk.injEq] at hcall
      obtain ⟨rfl, rfl⟩ := hcall
      have hsame := h.onAck wndSize now hwrap
      refine ⟨.unaNxt (c.onAck (j + UInt32.ofNat d) wndSize now).1.1
          (c.onAck (j + UInt32.ofNat d) wndSize now).1.2,
        (c.onAck (j + UInt32.ofNat d) wndSize now).2.2, rfl, hsame, rfl, ?_, hsame.sizeFree_eq,
        hsame.sizeCanSend_eq, ?_⟩
      · change SeqReturn.unaNxt _ _ = SeqReturn.unaNxt (_ + _) (_ + _)
        rw [onAck_result, onAck_result]
        exact congrArg₂ _ (UInt32.eq_add_sub hsame.una) (UInt32.eq_add_sub hsame.nxt)
      · rintro d' wndSize' now' hl hlt
        obtain ⟨rfl, rfl, rfl⟩ := SeqCall.onAck.inj hl
        have hnxt := h.nxt
        have huna := h.una
        have hb := b.nxt.toNat_lt
        have hc := c.nxt.toNat_lt
        simp only [NoWrap] at hwrap
        have hofNat := UInt32.toNat_ofNat_of_lt (n := d) (by omega)
        have hack : (i + UInt32.ofNat d).toNat = i.toNat + d := by
          rw [UInt32.toNat_add_of_lt (by omega), hofNat]
        have hack' : (j + UInt32.ofNat d).toNat = j.toNat + d := by
          rw [UInt32.toNat_add_of_lt (by omega), hofNat]
        simp only at hlt
        constructor
        · apply accepts_onAck h.ordered h.zwp.1 h.sorted.1
          rw [UInt32.lt_iff_toNat_lt, UInt32.le_iff_toNat_le]
          omega
        · apply accepts_onAck h.ordered' h.zwp.2 h.sorted.2
          rw [UInt32.lt_iff_toNat_lt, UInt32.le_iff_toNat_le]
          omega

/-- Every run without wrap can be made from any other initial sequence number, with the same
sizes and bytes and with sequence numbers at the same distance.  The content of the two arrays
at the start matters only to a run that sends what it has not written. -/
theorem exists_sameRun (hN : 0 < N) (i j windowSize : UInt32) (bufI bufJ : Vector Byte N)
    {tr : List (SeqStep N)} (h : Trace (seqCall i) (init bufI i windowSize) tr b)
    (hwrap : ∀ t ∈ tr, NoWrap i j t.pre t.label)
    (hskip : SameMemory i j bufI bufJ ∨ ∀ t ∈ tr, SkipsNothing t.pre t.label) :
    ∃ tr' c, Trace (seqCall j) (init bufJ j windowSize) tr' c ∧
      List.Forall₂ (SameStep i j) tr tr' := by
  have hstart := Same.init bufI bufJ i j windowSize
  generalize SameMemory i j bufI bufJ = mem at hstart hskip
  generalize SendBuffer.init bufJ j windowSize = c at hstart ⊢
  generalize SendBuffer.init bufI i windowSize = b₀ at h hstart
  induction h generalizing c with
  | nil b => exact ⟨[], c, .nil c, .nil⟩
  | @cons b b₁ b₂ l o tr head tail ih =>
      obtain ⟨o', c', hcall', hsame, hstep⟩ := sameStep hN hstart (hwrap _ List.mem_cons_self)
        (hskip.imp_right fun hall ↦ hall _ List.mem_cons_self) head
      obtain ⟨tr', c'', htail, hrest⟩ := ih (fun t ht ↦ hwrap t (List.mem_cons_of_mem _ ht))
        (hskip.imp_right fun hall t ht ↦ hall t (List.mem_cons_of_mem _ ht)) c' hsame
      exact ⟨_, c'', .cons hcall' htail, .cons hstep hrest⟩

/-- A handshake, a segment of three bytes and its acknowledgment, from 5 and from 0. -/
theorem exists_sameRun_handshake :
    ∃ (tr : List (SeqStep 8)) (b : SendBuffer 8),
      Trace (seqCall 5) (init (Vector.replicate 8 0) 5 10) tr b ∧ b.una = 9 ∧
      ∃ tr' c, Trace (seqCall 0) (init (Vector.replicate 8 1) 0 10) tr' c ∧
        List.Forall₂ (SameStep 5 0) tr tr' := by
  refine ⟨_, _, .cons (l := .writeAndSendOne) rfl (.cons (l := .enqueue TH_SYN 0 0 8 [] 0) rfl
    (.cons (l := .onAck 1 10 1) rfl (.cons (l := .write [1, 2, 3]) rfl
    (.cons (l := .sendReadyData 8) rfl (.cons (l := .enqueue TH_ACK 1 0 8 [1, 2, 3] 2) rfl
    (.cons (l := .onAck 4 7 3) rfl (.nil _))))))), rfl, ?_⟩
  exact exists_sameRun (by decide) 5 0 10 (Vector.replicate 8 0) (Vector.replicate 8 1)
    (.cons rfl (.cons rfl (.cons rfl (.cons rfl (.cons rfl (.cons rfl (.cons rfl
    (.nil _)))))))) (by decide) (.inr (by decide))

/-- From `2 ^ 32 - 1` the acknowledgment of the SYN is refused, from 0 it is accepted. -/
theorem not_sameRun :
    ∃ (tr tr' : List (SeqStep 65535)) (b c : SendBuffer 65535),
      Trace (seqCall 4294967295) (init (Vector.replicate 65535 0) 4294967295 65535) tr b ∧
      Trace (seqCall 0) (init (Vector.replicate 65535 0) 0 65535) tr' c ∧
      tr.map (·.label) = tr'.map (·.label) ∧
      b.una = 4294967295 ∧ b.nxt = 0 ∧ c.una = 1 ∧ c.nxt = 1 ∧
      ¬List.Forall₂ (SameStep 4294967295 0) tr tr' := by
  refine ⟨_, _, _, _,
    .cons (l := .writeAndSendOne) rfl (.cons (l := .onAck 1 65535 0) rfl (.nil _)),
    .cons (l := .writeAndSendOne) rfl (.cons (l := .onAck 1 65535 0) rfl (.nil _)),
    rfl, rfl, rfl, rfl, rfl, fun hsame ↦ ?_⟩
  have hout := (List.forall₂_cons.mp (List.forall₂_cons.mp hsame).2).1.out
  exact absurd (SeqReturn.unaNxt.inj hout).1 (by decide)

end SendBuffer

end Tns.Tcp
