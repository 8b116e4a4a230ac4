import Tns.Library.Trace
import Tns.Tcp.SendBuffer

/-!
# The right edge of retransmission

`retransmitFunction_` passes `una_ + wnd_` to the queue as the advertised right
edge.  But `sendReadyData` takes what it sends off `wnd_`, so the edge moves to
the left with every segment, and past the segments that are in flight.
-/

namespace Tns.Tcp

open Tns.Library RetransmissionQueue

/-- A send buffer, with the acknowledgment number and the window size of the last
acknowledgment that updated the window. -/
structure Retransmitting (N : ℕ) where
  buffer : SendBuffer N
  lastAck : UInt32
  lastWnd : UInt32

/-- The steps: `send` is `sendReadyData` followed by `enqueue` of the segment, whose
acknowledgment fields come from the receive buffer. -/
inductive RetransmitCall where
  | write (bytesLeft : List Byte)
  | send (buffSize : ℕ) (ack : UInt32) (wnd : UInt16) (now : TimePoint)
  | onAck (ackNum wndSize : UInt32) (now : TimePoint)
  deriving DecidableEq

namespace Retransmitting

variable {N : ℕ} {s : Retransmitting N}

def init (buf : Vector Byte N) (isn w : UInt32) : Retransmitting N :=
  { buffer := SendBuffer.init buf isn w, lastAck := isn, lastWnd := w }

def step (s : Retransmitting N) : RetransmitCall → Exec (Unit × Retransmitting N)
  | .write bytesLeft => do
      let (_, _, buffer) ← s.buffer.write bytesLeft
      return ((), { s with buffer })
  | .send buffSize ack wnd now => do
      match ← s.buffer.sendReadyData buffSize with
      | (.error _, buffer) => return ((), { s with buffer })
      | (.ok (seq, data), buffer) =>
          let q ← buffer.retransmitQueue.enqueue (Packet.makeAckPacket seq ack wnd data) now
          return ((), { s with buffer := { buffer with retransmitQueue := q } })
  | .onAck ackNum wndSize now =>
      let (_, _, buffer) := s.buffer.onAck ackNum wndSize now
      if s.buffer.una ≤ ackNum then
        .ok ((), { buffer, lastAck := ackNum, lastWnd := wndSize })
      else .ok ((), { s with buffer })

/-- No sequence number wraps and acknowledgment numbers lie in `[una_, nxt_]`. -/
def IsRetransmitCall (s : Retransmitting N) : RetransmitCall → Prop
  | .write bytesLeft => s.buffer.nbw.toNat + bytesLeft.length < 2 ^ 32
  | .send _ _ _ _ => True
  | .onAck ackNum wndSize _ =>
      s.buffer.una ≤ ackNum ∧ ackNum ≤ s.buffer.nxt ∧ ackNum.toNat + wndSize.toNat < 2 ^ 32

instance (s : Retransmitting N) : DecidablePred s.IsRetransmitCall
  | .write _ => inferInstanceAs (Decidable (_ < _))
  | .send _ _ _ _ => .isTrue trivial
  | .onAck _ _ _ => inferInstanceAs (Decidable (_ ∧ _ ∧ _))

/-- Every entry that the advertised window allows passes the filter of
`getExpiredEntries`. -/
def Eligible (s : Retransmitting N) : Prop :=
  ∀ e ∈ s.buffer.retransmitQueue.deque,
    e.getEndExclusive ≤ s.lastAck.toNat + s.lastWnd.toNat →
      e.getEndExclusive ≤ s.buffer.getWndEndExclusive.toNat

instance (s : Retransmitting N) : Decidable s.Eligible :=
  inferInstanceAs (Decidable (∀ e ∈ _, _ → _))

/-- A send takes more than half of the window that is left. -/
def Overshoots (s : Retransmitting N) : RetransmitCall → Prop
  | .send buffSize _ _ _ =>
      s.buffer.wnd.toNat - s.buffer.sizeUnacked < 2 * min s.buffer.sizeCanSend buffSize
  | .write _ | .onAck _ _ _ => False

/-- The last window update is at `una_`, the window only shrinks since, and as long as
nothing overshoots, the data in flight ends before the edge once something has been sent. -/
structure Inv (s : Retransmitting N) : Prop where
  ordered : s.buffer.Ordered
  running : s.buffer.stopped = false
  lastAck_eq : s.lastAck = s.buffer.una
  wnd_le : s.buffer.wnd.toNat ≤ s.lastWnd.toNat
  edge_lt : s.lastAck.toNat + s.lastWnd.toNat < 2 ^ 32
  edge : s.buffer.nxt.toNat ≤ s.buffer.una.toNat + s.buffer.wnd.toNat ∨
    s.buffer.wnd = s.lastWnd
  queue : ∀ e ∈ s.buffer.retransmitQueue.deque, e.getEndExclusive ≤ s.buffer.nxt.toNat

namespace Inv

theorem init (buf : Vector Byte N) {isn w : UInt32} (hw : isn.toNat + w.toNat < 2 ^ 32) :
    Inv (init buf isn w) where
  ordered := SendBuffer.Ordered.init buf isn w
  running := rfl
  lastAck_eq := rfl
  wnd_le := le_rfl
  edge_lt := hw
  edge := .inr rfl
  queue := by simp [Retransmitting.init, SendBuffer.init]

theorem wndEnd_eq (h : Inv s) :
    s.buffer.getWndEndExclusive.toNat = s.buffer.una.toNat + s.buffer.wnd.toNat := by
  have hedge := h.edge_lt
  have hwnd := h.wnd_le
  rw [h.lastAck_eq] at hedge
  exact UInt32.toNat_add_of_lt (by omega)

theorem eligible (h : Inv s) : s.Eligible := by
  intro e he hle
  rw [h.wndEnd_eq]
  rcases h.edge with hnxt | hwnd
  · exact (h.queue e he).trans hnxt
  · rwa [h.lastAck_eq, ← hwnd] at hle

end Inv

theorem eligible_send {buffSize : ℕ} {ack : UInt32} {wnd : UInt16} {now : TimePoint} {u : Unit}
    {s' : Retransmitting N} (hinv : Inv s)
    (hstep : s.step (.send buffSize ack wnd now) = .ok (u, s')) :
    (s'.Eligible ↔ ¬s.Overshoots (.send buffSize ack wnd now)) ∧
      (¬s.Overshoots (.send buffSize ack wnd now) → Inv s') := by
  simp only [step, Exec.bind_eq_ok, Prod.exists] at hstep
  obtain ⟨r, b, hsend, hstep⟩ := hstep
  rcases r with err | ⟨seq, data⟩
  · rcases SendBuffer.sendReadyData_cases hsend with ⟨hstop, -⟩ | ⟨-, -, data, -, -, hr, -⟩
    · rw [hinv.running] at hstop
      cases hstop
    · cases hr
  simp only [Exec.bind_eq_ok, Exec.pure_eq_ok, Prod.mk.injEq, true_and] at hstep
  obtain ⟨q, henq, rfl⟩ := hstep
  obtain ⟨rfl, hlen, -, hfit, hnxt, hwnd, hord, hb⟩ := hinv.ordered.sendReadyData hsend
  have hq := enqueue_cases henq
  have hqueue : b.retransmitQueue.deque = s.buffer.retransmitQueue.deque := by rw [hb]
  have huna : b.una = s.buffer.una := by rw [hb]
  have hedge := hinv.edge_lt
  have hle := hinv.wnd_le
  rw [hinv.lastAck_eq] at hedge
  have hend : b.getWndEndExclusive.toNat =
      s.buffer.una.toNat + (s.buffer.wnd.toNat - data.length) := by
    rw [SendBuffer.getWndEndExclusive, huna, UInt32.toNat_add_of_lt (by omega), hwnd]
  have hover : s.Overshoots (.send buffSize ack wnd now) ↔
      s.buffer.una.toNat + (s.buffer.wnd.toNat - data.length) <
        s.buffer.nxt.toNat + data.length := by
    have hunacked := hinv.ordered.sizeUnacked_eq
    have hord' := hinv.ordered.una_le_nxt
    simp only [Overshoots, ← hlen]
    omega
  have hnew : (⟨Packet.makeAckPacket s.buffer.nxt ack wnd data, now, 0⟩ : Entry).getEndExclusive =
      s.buffer.nxt.toNat + data.length := rfl
  rw [hover]
  by_cases hbad : s.buffer.una.toNat + (s.buffer.wnd.toNat - data.length) <
      s.buffer.nxt.toNat + data.length
  · -- The new entry is inside the advertised window but past the edge.
    refine ⟨iff_of_false (fun helig ↦ ?_) (not_not.mpr hbad), fun hnot ↦ absurd hbad hnot⟩
    have hadv : s.buffer.nxt.toNat + data.length ≤ s.lastAck.toNat + s.lastWnd.toNat := by
      rw [hinv.lastAck_eq]
      omega
    have hcontra := helig ⟨Packet.makeAckPacket s.buffer.nxt ack wnd data, now, 0⟩
      (by simp [hq]) (hnew.le.trans hadv)
    change _ ≤ b.getWndEndExclusive.toNat at hcontra
    rw [hnew, hend] at hcontra
    omega
  · have hinv' : Inv { s with buffer := { b with retransmitQueue := q } } := by
      refine ⟨⟨hord.una_le_nxt, hord.nxt_le_nbw⟩, ?_, ?_, ?_, hinv.edge_lt, .inl ?_, ?_⟩
      · simp only [hb]
        exact hinv.running
      · simp only [huna]
        exact hinv.lastAck_eq
      · simp only [hwnd]
        omega
      · simp only [hnxt, huna, hwnd]
        omega
      · intro e he
        simp only [hq, hqueue, List.mem_append, List.mem_singleton] at he
        simp only [hnxt]
        rcases he with he | rfl
        · exact (hinv.queue e he).trans (Nat.le_add_right _ _)
        · exact hnew.le
    exact ⟨iff_of_true hinv'.eligible hbad, fun _ ↦ hinv'⟩

abbrev Step (N : ℕ) := Transition (Retransmitting N) RetransmitCall Unit

theorem eligible_step {t : Step N} (hfires : Fires step t) (hinv : Inv t.pre)
    (hdom : t.pre.IsRetransmitCall t.label) :
    (t.post.Eligible ↔ ¬t.pre.Overshoots t.label) ∧
      (¬t.pre.Overshoots t.label → Inv t.post) := by
  obtain ⟨s, l, u, s'⟩ := t
  simp only [Fires] at hfires hinv hdom
  cases l with
  | send buffSize ack wnd now => exact eligible_send hinv hfires
  | write bytesLeft =>
      suffices hinv' : Inv s' from ⟨iff_of_true hinv'.eligible id, fun _ ↦ hinv'⟩
      simp only [step, Exec.bind_eq_ok, Exec.pure_eq_ok, Prod.mk.injEq, Prod.exists, true_and]
        at hfires
      obtain ⟨r, wakes, b, hwrite, rfl⟩ := hfires
      cases r with
      | error e =>
          rcases SendBuffer.write_cases hwrite with ⟨-, -, -, rfl⟩ | ⟨-, -, n, rb, -, hr, -⟩
          · exact hinv
          · cases hr
      | ok n =>
          have hle := SendBuffer.write_le_length hwrite
          obtain ⟨-, hord, rb, rfl⟩ :=
            hinv.ordered.write ((Nat.add_le_add_left hle _).trans_lt hdom) hwrite
          exact ⟨hord, hinv.running, hinv.lastAck_eq, hinv.wnd_le, hinv.edge_lt, hinv.edge,
            hinv.queue⟩
  | onAck ackNum wndSize now =>
      suffices hinv' : Inv s' from ⟨iff_of_true hinv'.eligible id, fun _ ↦ hinv'⟩
      obtain ⟨hge, hle, hedge⟩ := hdom
      simp only [step, hge, if_true, Except.ok.injEq, Prod.mk.injEq, true_and] at hfires
      subst hfires
      have hord := hinv.ordered.onAck ackNum wndSize now
      obtain ⟨z, q, hframe, -, hq⟩ := SendBuffer.onAck_frame s.buffer ackNum wndSize now
      have huna : (if s.buffer.una < ackNum ∧ ackNum ≤ s.buffer.nxt then ackNum
          else s.buffer.una) = ackNum := by
        split
        · rfl
        · rename_i hnot
          exact le_antisymm hge (not_lt.mp fun hlt ↦ hnot ⟨hlt, hle⟩)
      rw [if_pos hge, huna] at hframe
      rw [hframe] at hord ⊢
      have hdeque : q.deque = s.buffer.retransmitQueue.deque := by
        rcases hq with rfl | rfl <;> rfl
      refine ⟨hord, hinv.running, rfl, le_rfl, hedge, .inr rfl, fun e he ↦ hinv.queue e ?_⟩
      simp only at he
      rw [← hdeque]
      split at he
      · exact mem_onAck he
      · exact he

/-- In every run all entries that the advertised window allows stay eligible in every
state, if and only if no send takes more than half of the window that is left. -/
theorem eligible_iff (buf : Vector Byte N) {isn w : UInt32}
    (hwrap : isn.toNat + w.toNat < 2 ^ 32) {tr : List (Step N)}
    (h : Trace step (init buf isn w) tr s) (hdom : ∀ t ∈ tr, t.pre.IsRetransmitCall t.label) :
    (∀ t ∈ tr, t.post.Eligible) ↔ ∀ t ∈ tr, ¬t.pre.Overshoots t.label := by
  refine Trace.forall_iff (I := Inv) ?_ ?_ h (Inv.init buf hwrap) hdom
  · exact fun t ht hI hd ↦ (eligible_step ht hI hd).1
  · exact fun t ht hI hd ↦ (eligible_step ht hI hd).2

/-- Four bytes of a window of ten are sent and acknowledged in part. -/
theorem eligible_iff_half :
    ∃ (tr : List (Step 16)) (s : Retransmitting 16),
      Trace step (init (Vector.replicate 16 0) 0 10) tr s ∧ s.buffer.una = 2 ∧
      ((∀ t ∈ tr, t.post.Eligible) ↔ ∀ t ∈ tr, ¬t.pre.Overshoots t.label) := by
  refine ⟨_, _, .cons (l := .write [1, 2, 3, 4]) rfl (.cons (l := .send 8 0 0 0) rfl
    (.cons (l := .onAck 2 8 0) rfl (.nil _))), rfl, ?_⟩
  exact eligible_iff (Vector.replicate 16 0) (by decide) (.cons rfl (.cons rfl
    (.cons rfl (.nil _)))) (by decide)

/-- Six bytes of a window of ten are sent: the edge passed to the queue is 4, the segment
ends at 6. -/
theorem not_eligible :
    ∃ (tr : List (Step 16)) (s : Retransmitting 16),
      Trace step (init (Vector.replicate 16 0) 0 10) tr s ∧
      (∀ t ∈ tr, t.pre.IsRetransmitCall t.label) ∧ ¬∀ t ∈ tr, t.post.Eligible := by
  refine ⟨_, _, .cons (l := .write [1, 2, 3, 4, 5, 6]) rfl (.cons (l := .send 8 0 0 0) rfl
    (.nil _)), by decide, ?_⟩
  decide

end Retransmitting

end Tns.Tcp
