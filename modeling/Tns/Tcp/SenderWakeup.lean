import Tns.Library.Trace
import Tns.Tcp.SendBuffer

/-!
# Wakeups of the sender thread

The sender thread sleeps while nothing can be sent, until `cvSender_` is
notified.  `onAck` notifies it when the window expands, but data can also become
sendable because an acknowledgment frees a part of an unchanged window.
-/

namespace Tns.Tcp

open Tns.Library

/-- Where the thread of `senderFunction_` is. -/
inductive SenderThread where
  | awake | asleep | exited
  deriving DecidableEq, Repr

/-- A send buffer with the threads that wait on it. -/
structure Sending (N : ℕ) where
  buffer : SendBuffer N
  sender : SenderThread := .awake
  zwp : ZwpThread := .entry

/-- The critical sections of the send buffer's mutex. -/
inductive SendCall where
  | write (bytesLeft : List Byte)
  | onAck (ackNum wndSize : UInt32) (now : TimePoint)
  | sendReadyData (buffSize : ℕ)
  | zwp (timeout : Bool)
  | shutdown
  deriving DecidableEq

namespace Sending

variable {N : ℕ} {s : Sending N}

def init (buf : Vector Byte N) (initSeqNum windowSize : UInt32) : Sending N :=
  { buffer := SendBuffer.init buf initSeqNum windowSize }

/-- A notification of `cvSender_` reaches a sleeping sender thread; it does nothing else. -/
def notified (wakes : List CondVar) (sender : SenderThread) : SenderThread :=
  if .cvSender ∈ wakes ∧ sender = .asleep then .awake else sender

/-- One critical section.  The sender thread runs `sendReadyData` when it is awake, and
falls asleep there if the predicate of its wait is false. -/
def step (s : Sending N) : SendCall → Exec (Unit × Sending N)
  | .write bytesLeft => do
      let (_, wakes, buffer) ← s.buffer.write bytesLeft
      return ((), { s with buffer, sender := notified wakes s.sender })
  | .onAck ackNum wndSize now =>
      let (_, wakes, buffer) := s.buffer.onAck ackNum wndSize now
      .ok ((), { s with buffer, sender := notified wakes s.sender })
  | .sendReadyData buffSize => do
      Exec.waitUntil (s.sender = .awake)
      match s.buffer.sendReadyData buffSize with
      | .error .blocks => return ((), { s with sender := .asleep })
      | .error e => .error e
      | .ok (.error _, buffer) => return ((), { s with buffer, sender := .exited })
      | .ok (.ok _, buffer) => return ((), { s with buffer })
  | .zwp timeout => do
      let (_, zwp, buffer) ← s.buffer.zwpStep s.zwp timeout
      return ((), { s with buffer, zwp })
  | .shutdown =>
      let (wakes, buffer) := s.buffer.shutdown
      .ok ((), { s with buffer, sender := notified wakes s.sender })

/-- No wakeup is lost: a sleeping sender thread has nothing to send and is not stopped. -/
def NoLostWakeup (s : Sending N) : Prop :=
  s.sender = .asleep → s.buffer.sizeCanSend = 0 ∧ s.buffer.stopped = false

instance (s : Sending N) : Decidable s.NoLostWakeup := inferInstanceAs (Decidable (_ → _))

/-- An acknowledgment reaches the buffer of a sleeping sender thread, frees a part of the
window without expanding it, and there is unsent data. -/
def Stalls (s : Sending N) : SendCall → Prop
  | .onAck ackNum wndSize _ =>
      s.sender = .asleep ∧ s.buffer.una < ackNum ∧ ackNum ≤ s.buffer.nxt ∧
        wndSize ≤ s.buffer.wnd ∧ (s.buffer.nxt - ackNum).toNat < wndSize.toNat ∧
        s.buffer.nxt ≠ s.buffer.nbw
  | _ => False

abbrev Step (N : ℕ) := Transition (Sending N) SendCall Unit

theorem not_asleep_notified {wakes : List CondVar} {sender : SenderThread}
    (h : notified wakes sender = .asleep) : .cvSender ∉ wakes ∧ sender = .asleep := by
  unfold notified at h
  split at h
  · cases h
  · rename_i hnot
    exact ⟨fun hmem ↦ hnot ⟨hmem, h⟩, h⟩

theorem noLostWakeup_write {bytesLeft : List Byte} {r : Except SocketError ℕ}
    {wakes : List CondVar} {buffer : SendBuffer N} (h : s.NoLostWakeup)
    (hwrite : s.buffer.write bytesLeft = .ok (r, wakes, buffer)) :
    NoLostWakeup { s with buffer, sender := notified wakes s.sender } := by
  intro hasleep
  obtain ⟨hnot, hasleep⟩ := not_asleep_notified hasleep
  obtain ⟨hsize, hstop⟩ := h hasleep
  rcases SendBuffer.write_cases hwrite with ⟨hstop', -⟩ | ⟨-, -, n, rb, -, -, rfl, rfl⟩
  · rw [hstop] at hstop'
    cases hstop'
  · -- The write would have notified the sender if anything could be sent.
    refine ⟨?_, hstop⟩
    by_contra hpos
    rw [if_pos (by simpa [Nat.pos_iff_ne_zero] using hpos)] at hnot
    simp at hnot

/-- If the sender sleeps on after an acknowledgment, the window was not expanded, and there is
something to send exactly if the acknowledgment has freed a part of the window. -/
theorem sizeCanSend_onAck {b : SendBuffer N} (ackNum wndSize : UInt32) (now : TimePoint)
    (hsize : b.sizeCanSend = 0) (hnot : ¬(b.una ≤ ackNum ∧ b.wnd < wndSize)) :
    (b.onAck ackNum wndSize now).2.2.sizeCanSend = 0 ↔
      ¬(b.una < ackNum ∧ ackNum ≤ b.nxt ∧ wndSize ≤ b.wnd ∧
        (b.nxt - ackNum).toNat < wndSize.toNat ∧ b.nxt ≠ b.nbw) := by
  obtain ⟨z, q, hframe, -⟩ := SendBuffer.onAck_frame b ackNum wndSize now
  rw [hframe]
  rw [SendBuffer.sizeCanSend_eq_zero] at hsize ⊢
  simp only [SendBuffer.sizeUnacked] at hsize ⊢
  rcases hsize with hwnd | hnone
  · -- The window was used up: only an acceptable acknowledgment changes that.
    by_cases hacc : b.una < ackNum ∧ ackNum ≤ b.nxt
    · have hle : b.una ≤ ackNum := hacc.1.le
      have hw : wndSize ≤ b.wnd := by simpa [hle] using hnot
      simp only [hacc, hle, hw, and_self, if_true, true_and, ne_eq, not_and, not_not]
      rw [← Nat.not_lt, ← imp_iff_not_or]
    · refine iff_of_true (.inl ?_) fun h ↦ hacc ⟨h.1, h.2.1⟩
      simp only [hacc, if_false]
      split
      · rename_i hle
        have hw : wndSize ≤ b.wnd := by simpa [hle] using hnot
        exact (UInt32.le_iff_toNat_le.mp hw).trans hwnd
      · exact hwnd
  · exact iff_of_true (.inr hnone) fun h ↦ h.2.2.2.2 hnone

theorem noLostWakeup_onAck (ackNum wndSize : UInt32) (now : TimePoint) (h : s.NoLostWakeup) :
    NoLostWakeup { s with
        buffer := (s.buffer.onAck ackNum wndSize now).2.2
        sender := notified (s.buffer.onAck ackNum wndSize now).2.1 s.sender } ↔
      ¬s.Stalls (.onAck ackNum wndSize now) := by
  simp only [NoLostWakeup, Stalls]
  by_cases hasleep : notified (s.buffer.onAck ackNum wndSize now).2.1 s.sender = .asleep
  · obtain ⟨hnot, hasleep'⟩ := not_asleep_notified hasleep
    obtain ⟨hsize, hstop⟩ := h hasleep'
    rw [SendBuffer.cvSender_mem_onAck] at hnot
    obtain ⟨z, q, hframe, -⟩ := SendBuffer.onAck_frame s.buffer ackNum wndSize now
    have hstop' : (s.buffer.onAck ackNum wndSize now).2.2.stopped = false := by
      rw [hframe]
      exact hstop
    rw [imp_iff_right hasleep, and_iff_left hstop', sizeCanSend_onAck ackNum wndSize now hsize hnot]
    simp only [hasleep', true_and]
  · refine iff_of_true (fun hasleep' ↦ absurd hasleep' hasleep) ?_
    rintro ⟨hs, -, -, hw, -⟩
    apply hasleep
    rw [notified, if_neg, hs]
    rintro ⟨hmem, -⟩
    exact ((SendBuffer.cvSender_mem_onAck _ _ _ _).mp hmem).2.not_ge hw

theorem noLostWakeup_step {t : Step N} (hfires : Fires step t) (hinv : t.pre.NoLostWakeup) :
    t.post.NoLostWakeup ↔ ¬t.pre.Stalls t.label := by
  obtain ⟨s, l, u, s'⟩ := t
  simp only [Fires] at hfires hinv
  cases l with
  | write bytesLeft =>
      simp only [step, Exec.bind_eq_ok, Exec.pure_eq_ok, Prod.mk.injEq, Prod.exists, true_and]
        at hfires
      obtain ⟨r, wakes, buffer, hwrite, rfl⟩ := hfires
      exact iff_of_true (noLostWakeup_write hinv hwrite) id
  | onAck ackNum wndSize now =>
      simp only [step, Except.ok.injEq, Prod.mk.injEq, true_and] at hfires
      subst hfires
      exact noLostWakeup_onAck ackNum wndSize now hinv
  | sendReadyData buffSize =>
      refine iff_of_true ?_ id
      simp only [step, Exec.bind_eq_ok, Exec.waitUntil_eq_ok] at hfires
      obtain ⟨-, hawake, hfires⟩ := hfires
      split at hfires
      · -- The predicate of the wait is false.
        rename_i hblock
        simp only [Exec.pure_eq_ok, Prod.mk.injEq, true_and] at hfires
        subst hfires
        exact fun _ ↦ SendBuffer.sendReadyData_blocks hblock
      · cases hfires
      · simp only [Exec.pure_eq_ok, Prod.mk.injEq, true_and] at hfires
        subst hfires
        exact fun h ↦ by cases h
      · simp only [Exec.pure_eq_ok, Prod.mk.injEq, true_and] at hfires
        subst hfires
        intro h
        simp only [hawake, reduceCtorEq] at h
  | zwp timeout =>
      refine iff_of_true ?_ id
      simp only [step, Exec.bind_eq_ok, Exec.pure_eq_ok, Prod.mk.injEq, Prod.exists, true_and]
        at hfires
      obtain ⟨probe, zwp, buffer, hzwp, rfl⟩ := hfires
      intro hasleep
      obtain ⟨hsize, hstop⟩ := hinv hasleep
      rcases SendBuffer.zwpStep_cases hzwp with ⟨-, z, rfl⟩ | ⟨-, hwnd, -, data, -, -, rfl⟩
      · exact ⟨hsize, hstop⟩
      · exact ⟨SendBuffer.sizeCanSend_eq_zero.mpr (.inl (by simp [hwnd])), hstop⟩
  | shutdown =>
      refine iff_of_true ?_ id
      simp only [step, Except.ok.injEq, Prod.mk.injEq, true_and] at hfires
      subst hfires
      intro hasleep
      exact absurd (by simp [SendBuffer.shutdown]) (not_asleep_notified hasleep).1

/-- In every run no wakeup is lost in any state, if and only if no acknowledgment stalls a
sleeping sender. -/
theorem noLostWakeup_iff (buf : Vector Byte N) (initSeqNum windowSize : UInt32)
    {tr : List (Step N)} (h : Trace step (init buf initSeqNum windowSize) tr s) :
    (∀ t ∈ tr, t.post.NoLostWakeup) ↔ ∀ t ∈ tr, ¬t.pre.Stalls t.label := by
  refine Trace.forall_iff (I := NoLostWakeup) (D := fun _ ↦ True) ?_ ?_ h ?_ fun _ _ ↦ trivial
  · exact fun t ht hI _ ↦ noLostWakeup_step ht hI
  · exact fun t ht hI _ ↦ (noLostWakeup_step ht hI).mpr
  · exact fun hasleep ↦ by cases hasleep

/-- The sender thread goes to sleep and an acknowledgment that expands the window wakes it. -/
theorem noLostWakeup_iff_expand :
    ∃ (tr : List (Step 16)) (s : Sending 16),
      Trace step (init (Vector.replicate 16 0) 0 2) tr s ∧ s.sender = .awake ∧
      ((∀ t ∈ tr, t.post.NoLostWakeup) ↔ ∀ t ∈ tr, ¬t.pre.Stalls t.label) := by
  refine ⟨_, _, .cons (l := .sendReadyData 8) rfl (.cons (l := .write [1, 2, 3]) rfl
    (.cons (l := .sendReadyData 8) rfl (.cons (l := .sendReadyData 8) rfl
    (.cons (l := .onAck 2 4 0) rfl (.nil _))))), rfl, ?_⟩
  exact noLostWakeup_iff (Vector.replicate 16 0) 0 2 (.cons rfl (.cons rfl (.cons rfl
    (.cons rfl (.cons rfl (.nil _))))))

/-- The peer has a buffer of 10 bytes and reads nothing.  After 6 bytes in flight 2 more are
written and the sender sleeps; the acknowledgment of the 6 bytes, with the window 4 that is
left, does not wake it. -/
theorem not_noLostWakeup :
    ∃ (tr : List (Step 16)) (s : Sending 16),
      Trace step (init (Vector.replicate 16 0) 0 10) tr s ∧
      ¬∀ t ∈ tr, t.post.NoLostWakeup := by
  refine ⟨_, _, .cons (l := .write [1, 2, 3, 4]) rfl (.cons (l := .sendReadyData 8) rfl
    (.cons (l := .write [5, 6]) rfl (.cons (l := .sendReadyData 8) rfl
    (.cons (l := .write [7, 8]) rfl (.cons (l := .sendReadyData 8) rfl
    (.cons (l := .onAck 6 4 0) rfl (.nil _))))))), ?_⟩
  decide

end Sending

end Tns.Tcp
