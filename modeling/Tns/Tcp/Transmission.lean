import Tns.Library.Trace
import Tns.Tcp.SendInvariant

/-!
# Transmission

Threads that write, the sender thread, the zero-window-probe thread, the handling
of acknowledgments and retransmission share one send buffer.  However they
interleave, every segment is a slice of what has been written, and the sender
thread stays inside the window last advertised.
-/

namespace Tns.Tcp

open Tns.Library Tns.Library.Cyclic RetransmissionQueue

/-- A send buffer in use.  `pending` are the segments that `sendReadyData` has returned and
that are not enqueued yet.  The last three fields only record: the bytes written so far, and
the last acknowledgment whose number was not below `una_`. -/
structure Transmitting (N : ℕ) where
  buffer : SendBuffer N
  pending : List (UInt32 × List Byte) := []
  zwp : ZwpThread := .entry
  written : List Byte := []
  lastAck : UInt32
  lastWnd : UInt32

/-- The sections of the threads.  `ack` and `wnd` are the fields that a packet takes from the
receive buffer. -/
inductive TransmitCall where
  | write (bytesLeft : List Byte)
  | sendReadyData (buffSize : ℕ)
  | enqueue (ack : UInt32) (wnd : UInt16) (now : TimePoint)
  | zwp (timeout : Bool) (ack : UInt32) (wnd : UInt16) (now : TimePoint)
  | onAck (ackNum wndSize : UInt32) (now : TimePoint)
  | retransmit (rightWindowEdge : UInt32) (now : TimePoint)
  deriving DecidableEq

namespace Transmitting

variable {N : ℕ} {s s' : Transmitting N} {start : ℕ}

/-- From the constructor of the buffer on. -/
def init (buf : Vector Byte N) (isn windowSize : UInt32) : Transmitting N :=
  { buffer := SendBuffer.init buf isn windowSize, lastAck := isn, lastWnd := windowSize }

/-- Run a section; the result is the segments it returns or sends. -/
def step (s : Transmitting N) :
    TransmitCall → Exec (List (UInt32 × List Byte) × Transmitting N)
  | .write bytesLeft => do
      match ← s.buffer.write bytesLeft with
      | (.error _, _, buffer) => return ([], { s with buffer })
      | (.ok n, _, buffer) =>
          return ([], { s with buffer, written := s.written ++ bytesLeft.take n })
  | .sendReadyData buffSize => do
      match ← s.buffer.sendReadyData buffSize with
      | (.error _, buffer) => return ([], { s with buffer })
      | (.ok segment, buffer) =>
          return ([segment], { s with buffer, pending := s.pending ++ [segment] })
  | .enqueue ack wnd now =>
      match s.pending with
      | [] => .error .blocks
      | (seq, data) :: pending => do
          let packet := Packet.makeAckPacket seq ack wnd data
          let q ← s.buffer.retransmitQueue.enqueue packet now
          return ([(seq, data)],
            { s with buffer := { s.buffer with retransmitQueue := q }, pending })
  | .zwp timeout ack wnd now => do
      let (probe, zwp, buffer) ← s.buffer.zwpStep s.zwp timeout
      match probe with
      | none => return ([], { s with buffer, zwp })
      | some (seq, data) =>
          let packet := Packet.makeAckPacket seq ack wnd [data]
          let q ← buffer.retransmitQueue.enqueueZwp packet now
          return ([(seq, [data])],
            { s with buffer := { buffer with retransmitQueue := q }, zwp })
  | .onAck ackNum wndSize now =>
      let (_, _, buffer) := s.buffer.onAck ackNum wndSize now
      if s.buffer.una ≤ ackNum then
        .ok ([], { s with buffer, lastAck := ackNum, lastWnd := wndSize })
      else .ok ([], { s with buffer })
  | .retransmit rightWindowEdge now =>
      match s.buffer.retransmitQueue.getExpiredEntries rightWindowEdge now with
      | (.ok expired, q) =>
          .ok (expired.map fun e ↦ (e.packet.seqNum, e.packet.payload),
            { s with buffer := { s.buffer with retransmitQueue := q } })
      | (.error _, q) =>
          .ok ([], { s with buffer := { s.buffer with retransmitQueue := q }.shutdown.2 })

abbrev Step (N : ℕ) := Transition (Transmitting N) TransmitCall (List (UInt32 × List Byte))

/-- The segment `(seq, payload)` is the part of the stream from number `seq` on. -/
def IsSlice (start : ℕ) (stream : List Byte) (segment : UInt32 × List Byte) : Prop :=
  start ≤ segment.1.toNat ∧
    segment.2 = (stream.drop (segment.1.toNat - start)).take segment.2.length

/-- The ring holds the unacknowledged part of what has been written. -/
def Stores (start : ℕ) (s : Transmitting N) : Prop :=
  ∀ k, s.buffer.una.toNat ≤ k → k < s.buffer.nbw.toNat →
    start ≤ k ∧ ∃ x, s.buffer.buf[k % N]? = some x ∧ s.written[k - start]? = some x

/-- A segment returned by `sendReadyData` ends inside the window last advertised, and `wnd_`
is decremented without underflow. -/
def InWindow (t : Step N) : Prop :=
  ∀ buffSize, t.label = .sendReadyData buffSize → ∀ segment ∈ t.out,
    segment.1.toNat + segment.2.length ≤ t.pre.lastAck.toNat + t.pre.lastWnd.toNat ∧
      segment.2.length ≤ t.pre.buffer.wnd.toNat ∧
      t.post.buffer.wnd.toNat = t.pre.buffer.wnd.toNat - segment.2.length

theorem isSlice_of_byteAt {stream payload : List Byte} {seq : UInt32} (hle : start ≤ seq.toNat)
    (h : ∀ i (hi : i < payload.length), ByteAt start stream (seq.toNat + i) payload[i]) :
    IsSlice start stream (seq, payload) := by
  refine ⟨hle, List.ext_getElem? fun i ↦ ?_⟩
  simp only
  rcases Nat.lt_or_ge i payload.length with hi | hi
  · rw [List.getElem?_take_of_lt hi, List.getElem?_drop, List.getElem?_eq_getElem hi,
      ← (h i hi).2, Nat.sub_add_comm hle]
  · rw [List.getElem?_eq_none hi, List.getElem?_eq_none]
    exact (List.length_take_le _ _).trans hi

theorem IsSlice.mono {stream stream' : List Byte} {segment : UInt32 × List Byte}
    (h : IsSlice start stream segment) (hmore : stream <+: stream') :
    IsSlice start stream' segment := by
  obtain ⟨rest, rfl⟩ := hmore
  obtain ⟨hle, heq⟩ := h
  refine ⟨hle, ?_⟩
  have hlen := congrArg List.length heq
  rw [List.length_take, List.length_drop] at hlen
  rw [heq]
  rcases Nat.eq_zero_or_pos segment.2.length with hnil | hpos
  · simp [hnil]
  rw [List.drop_append_of_le_length (by omega), List.take_append_of_le_length]
  · simp
  · simp

/-- The invariant: the buffer holds the stream, whatever waits to be sent or resent is a slice
of it, and the window of the buffer ends inside the one last advertised. -/
structure Inv (start : ℕ) (s : Transmitting N) : Prop where
  holds : s.buffer.Holds start s.written
  queue : s.buffer.retransmitQueue.Only fun p ↦ IsSlice start s.written (p.seqNum, p.payload)
  pending : ∀ segment ∈ s.pending, IsSlice start s.written segment
  window : s.buffer.una.toNat + s.buffer.wnd.toNat ≤ s.lastAck.toNat + s.lastWnd.toNat

namespace Inv

theorem stores (h : Inv start s) : Stores start s := by
  intro k hk hk'
  obtain ⟨x, hx, hle, hbyte⟩ := h.holds.window k hk hk'
  exact ⟨hle, x, hx, hbyte⟩

theorem start_le_nxt (h : Inv start s) : start ≤ s.buffer.nxt.toNat :=
  h.holds.start_le.trans h.holds.ordered.una_le_nxt

theorem write {bytesLeft : List Byte} {out : List (UInt32 × List Byte)} (h : Inv start s)
    (hstep : s.step (.write bytesLeft) = .ok (out, s'))
    (hwrap : start + s'.written.length < 2 ^ 32) : out = [] ∧ Inv start s' := by
  simp only [step, Exec.bind_eq_ok, Prod.exists] at hstep
  obtain ⟨r, wakes, buffer, hwrite, hstep⟩ := hstep
  cases r with
  | error e =>
      simp only [Exec.pure_eq_ok, Prod.mk.injEq] at hstep
      obtain ⟨rfl, rfl⟩ := hstep
      rcases SendBuffer.write_cases hwrite with ⟨-, -, -, rfl⟩ | ⟨-, -, n, rb, -, hr, -⟩
      · exact ⟨rfl, h⟩
      · cases hr
  | ok n =>
      simp only [Exec.pure_eq_ok, Prod.mk.injEq] at hstep
      obtain ⟨rfl, rfl⟩ := hstep
      have hmore : s.written <+: s.written ++ bytesLeft.take n := List.prefix_append _ _
      obtain ⟨hholds, hqueue⟩ := h.holds.write hwrap hwrite
      have hwindow : buffer.una.toNat + buffer.wnd.toNat ≤ s.lastAck.toNat + s.lastWnd.toNat := by
        rcases SendBuffer.write_cases hwrite with ⟨-, hr, -⟩ | ⟨-, -, m, rb, -, -, -, rfl⟩
        · cases hr
        · exact h.window
      refine ⟨rfl, hholds, ?_, fun segment hseg ↦ (h.pending segment hseg).mono hmore, hwindow⟩
      rw [hqueue]
      exact h.queue.mono fun p hp ↦ hp.mono hmore

theorem sendReadyData {buffSize : ℕ} {out : List (UInt32 × List Byte)} (h : Inv start s)
    (hstep : s.step (.sendReadyData buffSize) = .ok (out, s')) :
    Inv start s' ∧ s'.written = s.written ∧ (∀ segment ∈ out, IsSlice start s.written segment) ∧
      InWindow ⟨s, .sendReadyData buffSize, out, s'⟩ := by
  simp only [step, Exec.bind_eq_ok, Prod.exists] at hstep
  obtain ⟨r, buffer, hsend, hstep⟩ := hstep
  rcases r with e | ⟨seq, data⟩
  · simp only [Exec.pure_eq_ok, Prod.mk.injEq] at hstep
    obtain ⟨rfl, rfl⟩ := hstep
    rcases SendBuffer.sendReadyData_cases hsend with ⟨-, -, rfl⟩ | ⟨-, -, data, -, -, hr, -⟩
    · exact ⟨h, rfl, by simp, by simp [InWindow]⟩
    · cases hr
  simp only [Exec.pure_eq_ok, Prod.mk.injEq] at hstep
  obtain ⟨rfl, rfl⟩ := hstep
  obtain ⟨hholds, hqueue, hbytes⟩ := h.holds.sendReadyData hsend
  obtain ⟨rfl, -, -, hfit, -, hwnd, -, hb⟩ := h.holds.ordered.sendReadyData hsend
  have hslice : IsSlice start s.written (s.buffer.nxt, data) :=
    isSlice_of_byteAt h.start_le_nxt hbytes
  have huna : buffer.una = s.buffer.una := by rw [hb]
  have hwindow := h.window
  have hord := h.holds.ordered.una_le_nxt
  refine ⟨⟨hholds, ?_, ?_, ?_⟩, rfl, ?_, ?_⟩
  · simp only [hqueue]
    exact h.queue
  · intro segment hseg
    rcases List.mem_append.mp hseg with hseg | hseg
    · exact h.pending segment hseg
    · obtain rfl := List.mem_singleton.mp hseg
      exact hslice
  · simp only [huna, hwnd]
    omega
  · intro segment hseg
    obtain rfl := List.mem_singleton.mp hseg
    exact hslice
  · intro _ _ segment hseg
    obtain rfl := List.mem_singleton.mp hseg
    refine ⟨by simp only; omega, by simp only; omega, hwnd⟩

theorem enqueue {ack : UInt32} {wnd : UInt16} {now : TimePoint}
    {out : List (UInt32 × List Byte)} (h : Inv start s)
    (hstep : s.step (.enqueue ack wnd now) = .ok (out, s')) :
    Inv start s' ∧ s'.written = s.written ∧ ∀ segment ∈ out, IsSlice start s.written segment := by
  simp only [step] at hstep
  split at hstep
  · cases hstep
  · rename_i seq data pending hpending
    simp only [Exec.bind_eq_ok, Exec.pure_eq_ok, Prod.mk.injEq] at hstep
    obtain ⟨q, henq, rfl, rfl⟩ := hstep
    have hslice : IsSlice start s.written (seq, data) := h.pending _ (by simp [hpending])
    refine ⟨⟨h.holds.withQueue q, h.queue.enqueue hslice henq, ?_, h.window⟩, rfl, ?_⟩
    · intro segment hseg
      exact h.pending segment (by simp [hpending, hseg])
    · intro segment hseg
      obtain rfl := List.mem_singleton.mp hseg
      exact hslice

theorem zwp {timeout : Bool} {ack : UInt32} {wnd : UInt16} {now : TimePoint}
    {out : List (UInt32 × List Byte)} (h : Inv start s)
    (hstep : s.step (.zwp timeout ack wnd now) = .ok (out, s')) :
    Inv start s' ∧ s'.written = s.written ∧ ∀ segment ∈ out, IsSlice start s.written segment := by
  simp only [step, Exec.bind_eq_ok, Prod.exists] at hstep
  obtain ⟨probe, zwp, buffer, hzwp, hstep⟩ := hstep
  obtain ⟨hholds, hqueue, hbyte⟩ := h.holds.zwpStep hzwp
  have hframe : buffer.una = s.buffer.una ∧ buffer.wnd = s.buffer.wnd := by
    rcases SendBuffer.zwpStep_cases hzwp with ⟨-, z, rfl⟩ | ⟨-, -, -, data, -, -, rfl⟩ <;>
      exact ⟨rfl, rfl⟩
  have hwindow : buffer.una.toNat + buffer.wnd.toNat ≤ s.lastAck.toNat + s.lastWnd.toNat := by
    rw [hframe.1, hframe.2]
    exact h.window
  split at hstep
  · simp only [Exec.pure_eq_ok, Prod.mk.injEq] at hstep
    obtain ⟨rfl, rfl⟩ := hstep
    refine ⟨⟨hholds, ?_, h.pending, hwindow⟩, rfl, by simp⟩
    rw [hqueue]
    exact h.queue
  · rename_i seq data
    simp only [Exec.bind_eq_ok, Exec.pure_eq_ok, Prod.mk.injEq] at hstep
    obtain ⟨q, henq, rfl, rfl⟩ := hstep
    have hdata := hbyte seq data rfl
    have hslice : IsSlice start s.written (seq, [data]) := by
      apply isSlice_of_byteAt hdata.1
      intro i hi
      obtain rfl : i = 0 := by simpa using hi
      exact hdata
    rw [hqueue] at henq
    refine ⟨⟨hholds.withQueue q, h.queue.enqueueZwp hslice henq, h.pending, hwindow⟩, rfl, ?_⟩
    intro segment hseg
    obtain rfl := List.mem_singleton.mp hseg
    exact hslice

theorem onAck {ackNum wndSize : UInt32} {now : TimePoint} {out : List (UInt32 × List Byte)}
    (h : Inv start s) (hstep : s.step (.onAck ackNum wndSize now) = .ok (out, s')) :
    Inv start s' ∧ s'.written = s.written ∧ out = [] := by
  have hholds := h.holds.onAck ackNum wndSize now
  obtain ⟨z, q, hframe, -, hq⟩ := SendBuffer.onAck_frame s.buffer ackNum wndSize now
  have hqueue : (s.buffer.onAck ackNum wndSize now).2.2.retransmitQueue.Only
      fun p ↦ IsSlice start s.written (p.seqNum, p.payload) := by
    have honly : q.Only fun p ↦ IsSlice start s.written (p.seqNum, p.payload) := by
      rcases hq with rfl | rfl
      · exact h.queue
      · exact h.queue.resetZwpCounter
    rw [hframe]
    simp only
    split
    · exact honly.onAck ackNum now
    · exact honly
  simp only [Transmitting.step] at hstep
  split at hstep <;> rename_i hle <;> simp only [Except.ok.injEq, Prod.mk.injEq] at hstep <;>
    obtain ⟨rfl, rfl⟩ := hstep
  · -- The window advertised last begins at `una_` or after it.
    refine ⟨⟨hholds, hqueue, h.pending, ?_⟩, rfl, rfl⟩
    have hle' := UInt32.le_iff_toNat_le.mp hle
    simp only [hframe, if_pos hle]
    split <;> omega
  · refine ⟨⟨hholds, hqueue, h.pending, ?_⟩, rfl, rfl⟩
    have hnot : ¬(s.buffer.una < ackNum ∧ ackNum ≤ s.buffer.nxt) := fun hacc ↦ hle hacc.1.le
    simp only [hframe, if_neg hle, if_neg hnot]
    exact h.window

theorem retransmit {edge : UInt32} {now : TimePoint} {out : List (UInt32 × List Byte)}
    (h : Inv start s) (hstep : s.step (.retransmit edge now) = .ok (out, s')) :
    Inv start s' ∧ s'.written = s.written ∧ ∀ segment ∈ out, IsSlice start s.written segment := by
  obtain ⟨hqueue, hexpired⟩ := h.queue.getExpiredEntries edge now
  simp only [step] at hstep
  split at hstep <;> rename_i heq <;> simp only [Except.ok.injEq, Prod.mk.injEq] at hstep <;>
    obtain ⟨rfl, rfl⟩ := hstep <;> rw [heq] at hqueue hexpired
  · refine ⟨⟨h.holds.withQueue _, hqueue, h.pending, h.window⟩, rfl, fun segment hseg ↦ ?_⟩
    obtain ⟨e, he, rfl⟩ := List.mem_map.mp hseg
    exact hexpired _ rfl e he
  · exact ⟨⟨(h.holds.withQueue _).shutdown, hqueue, h.pending, h.window⟩, rfl, by simp⟩

/-- Every section keeps the invariant, and sends slices of what has been written. -/
theorem step {t : Step N} (hfires : Fires Transmitting.step t) (h : Inv start t.pre)
    (hwrap : start + t.post.written.length < 2 ^ 32) :
    Inv start t.post ∧ (∀ segment ∈ t.out, IsSlice start t.post.written segment) ∧
      InWindow t := by
  obtain ⟨s, l, out, s'⟩ := t
  simp only [Fires] at hfires h hwrap ⊢
  have hother : (∀ buffSize, l ≠ .sendReadyData buffSize) → InWindow ⟨s, l, out, s'⟩ :=
    fun hne buffSize hl ↦ absurd hl (hne buffSize)
  cases l with
  | write bytesLeft =>
      obtain ⟨rfl, hinv⟩ := h.write hfires hwrap
      exact ⟨hinv, by simp, hother (by simp)⟩
  | sendReadyData buffSize =>
      obtain ⟨hinv, hwritten, hslice, hwindow⟩ := h.sendReadyData hfires
      exact ⟨hinv, hwritten ▸ hslice, hwindow⟩
  | enqueue ack wnd now =>
      obtain ⟨hinv, hwritten, hslice⟩ := h.enqueue hfires
      exact ⟨hinv, hwritten ▸ hslice, hother (by simp)⟩
  | zwp timeout ack wnd now =>
      obtain ⟨hinv, hwritten, hslice⟩ := h.zwp hfires
      exact ⟨hinv, hwritten ▸ hslice, hother (by simp)⟩
  | onAck ackNum wndSize now =>
      obtain ⟨hinv, -, rfl⟩ := h.onAck hfires
      exact ⟨hinv, by simp, hother (by simp)⟩
  | retransmit edge now =>
      obtain ⟨hinv, hwritten, hslice⟩ := h.retransmit hfires
      exact ⟨hinv, hwritten ▸ hslice, hother (by simp)⟩

end Inv

/-- Nothing has been written: the three pointers are at the number of the first byte, and
nothing waits to be sent or resent. -/
structure AtStart (start : UInt32) (s : Transmitting N) : Prop where
  sane : s.buffer.sanityCheckAtStart = true
  una : s.buffer.una = start
  deque : s.buffer.retransmitQueue.deque = []
  zwpEntry : s.buffer.retransmitQueue.zwpEntry = none
  pending : s.pending = []
  written : s.written = []
  lastAck : s.lastAck = start
  lastWnd : s.lastWnd = s.buffer.wnd

theorem atStart_init (buf : Vector Byte N) (isn windowSize : UInt32) :
    AtStart isn (init buf isn windowSize) := by
  refine ⟨?_, rfl, rfl, rfl, rfl, rfl, rfl, rfl⟩
  simp [init, SendBuffer.init, SendBuffer.sanityCheckAtStart]

theorem AtStart.inv {start : UInt32} (h : AtStart start s) : Inv start.toNat s := by
  have hsane := h.sane
  simp only [SendBuffer.sanityCheckAtStart, Bool.and_eq_true, beq_iff_eq] at hsane
  have hnxt : s.buffer.nxt = start := hsane.1 ▸ h.una
  have hnbw : s.buffer.nbw = start := hsane.2 ▸ hnxt
  constructor
  · refine ⟨⟨by rw [h.una, hnxt], by rw [hnxt, hnbw]⟩, by rw [h.una], ?_, ?_, ?_⟩
    · rw [hnbw, h.written, List.length_nil, Nat.add_zero]
    · rw [hnbw, h.una]
      exact Nat.le_add_right _ _
    · exact Window.empty (by rw [hnbw, h.una])
  · exact ⟨by simp [h.deque], by simp [h.zwpEntry]⟩
  · simp [h.pending]
  · rw [h.una, h.lastAck, h.lastWnd]

/-- In every run, all segments sent, as data, as probes or again, are slices of what has been
written so far, and in every state the ring holds the unacknowledged part of it. -/
theorem slices_of_run {start : UInt32} (hstart : AtStart start s) {tr : List (Step N)}
    (h : Trace step s tr s')
    (hwrap : ∀ t ∈ tr, start.toNat + t.post.written.length < 2 ^ 32) :
    Stores start.toNat s' ∧ ∀ t ∈ tr, Stores start.toNat t.post ∧
      ∀ segment ∈ t.out, IsSlice start.toNat t.post.written segment := by
  obtain ⟨hend, hall⟩ := h.invariant
    (A := fun t ↦ start.toNat + t.post.written.length < 2 ^ 32)
    (fun t hfires hinv hfit ↦ (hinv.step hfires hfit).1) hstart.inv hwrap
  refine ⟨hend.stores, ?_⟩
  intro t ht
  obtain ⟨hpre, hpost⟩ := hall t ht
  exact ⟨hpost.stores, (hpre.step (h.fires t ht) (hwrap t ht)).2.1⟩

/-- In every run, all segments that the sender thread takes end inside the window of the last
acknowledgment whose number was not below `una_`. -/
theorem inWindow_of_run {start : UInt32} (hstart : AtStart start s) {tr : List (Step N)}
    (h : Trace step s tr s')
    (hwrap : ∀ t ∈ tr, start.toNat + t.post.written.length < 2 ^ 32) :
    ∀ t ∈ tr, InWindow t := by
  obtain ⟨-, hall⟩ := h.invariant
    (A := fun t ↦ start.toNat + t.post.written.length < 2 ^ 32)
    (fun t hfires hinv hfit ↦ (hinv.step hfires hfit).1) hstart.inv hwrap
  intro t ht
  exact ((hall t ht).1.step (h.fires t ht) (hwrap t ht)).2.2

/-- The ring of four cells is filled, freed in part and filled again across its end; a segment
is resent and a probe is sent. -/
theorem slices_of_run_reused :
    ∃ (tr : List (Step 4)) (s : Transmitting 4),
      Trace step (init (Vector.replicate 4 0) 6 4) tr s ∧ s.written = [1, 2, 3, 4, 5, 6] ∧
        tr.flatMap Transition.out =
          [(6, [1, 2, 3]), (6, [1, 2, 3]), (6, [1, 2, 3]), (9, [4])] ∧
        (Stores 6 s ∧ ∀ t ∈ tr, Stores 6 t.post ∧
          ∀ segment ∈ t.out, IsSlice 6 t.post.written segment) := by
  refine ⟨_, _, .cons (l := .write [1, 2, 3, 4]) rfl (.cons (l := .sendReadyData 3) rfl
    (.cons (l := .enqueue 0 8 0) rfl (.cons (l := .retransmit 20 1000000000) rfl
    (.cons (l := .onAck 9 0 1000000000) rfl (.cons (l := .write [5, 6]) rfl
    (.cons (l := .zwp false 0 8 0) rfl (.cons (l := .zwp true 0 8 0) rfl (.nil _)))))))),
    by decide, by decide, ?_⟩
  exact slices_of_run (atStart_init (Vector.replicate 4 0) 6 4) (.cons rfl (.cons rfl (.cons rfl
    (.cons rfl (.cons rfl (.cons rfl (.cons rfl (.cons rfl (.nil _)))))))))
    (by decide)

/-- Two segments, then an acknowledgment past `nxt_`, which counts for the window only, and
one of both segments. -/
theorem inWindow_of_run_reopened :
    ∃ (tr : List (Step 16)) (s : Transmitting 16),
      Trace step (init (Vector.replicate 16 0) 0 4) tr s ∧
        tr.flatMap Transition.out = [(0, [1]), (1, [2, 3]), (3, [4, 5, 6])] ∧
        ∀ t ∈ tr, InWindow t := by
  refine ⟨_, _, .cons (l := .write [1, 2, 3, 4, 5, 6, 7, 8]) rfl
    (.cons (l := .sendReadyData 1) rfl (.cons (l := .sendReadyData 8) rfl
    (.cons (l := .onAck 4 3 0) rfl (.cons (l := .onAck 3 3 0) rfl
    (.cons (l := .sendReadyData 8) rfl (.nil _)))))), by decide, ?_⟩
  exact inWindow_of_run (atStart_init (Vector.replicate 16 0) 0 4) (.cons rfl (.cons rfl
    (.cons rfl (.cons rfl (.cons rfl (.cons rfl (.nil _))))))) (by decide)

end Transmitting

end Tns.Tcp
