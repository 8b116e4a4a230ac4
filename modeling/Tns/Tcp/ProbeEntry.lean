import Tns.Tcp.Transmission

/-!
# The probe in flight

The state of zero-window probing says that a probe waits for its acknowledgment,
and the probe itself waits in the retransmission queue.  `onAck` ends the first
for a number beyond the probe and removes the second only if the number is also
acceptable.
-/

namespace Tns.Tcp

open Tns.Library RetransmissionQueue

namespace RetransmissionQueue

/-- The packet of the probe that waits. -/
def probe (q : RetransmissionQueue) : Option Packet := q.zwpEntry.map Entry.packet

theorem probe_eq_none {q : RetransmissionQueue} : q.probe = none ↔ q.zwpEntry = none :=
  Option.map_eq_none_iff

theorem probe_resetZwpCounter (q : RetransmissionQueue) : q.resetZwpCounter.probe = q.probe := by
  rw [probe, resetZwpCounter, Option.map_map]
  rfl

theorem probe_enqueue {q q' : RetransmissionQueue} {packet : Packet} {now : TimePoint}
    (h : q.enqueue packet now = .ok q') : q'.probe = q.probe := by
  rw [enqueue_cases h]
  rfl

theorem probe_onAck (q : RetransmissionQueue) (ack : UInt32) (now : TimePoint) :
    (q.onAck ack now).probe =
      q.probe.filter fun p ↦ ¬p.seqNum.toNat + p.payload.length ≤ ack.toNat := by
  rw [probe, probe, Option.filter_map]
  rfl

theorem probe_getExpiredEntries (q : RetransmissionQueue) (edge : UInt32) (now : TimePoint) :
    (q.getExpiredEntries edge now).2.probe = q.probe := by
  simp only [getExpiredEntries]
  split
  · rfl
  · split
    · rfl
    · rename_i z hz
      split
      · rw [probe, probe, hz]
        rfl
      · rfl

end RetransmissionQueue

/-- The thread is between its acknowledgment and its next probe. -/
def ZwpThread.Probing (thread : ZwpThread) : Prop := thread ≠ .waitAck ∧ thread ≠ .exited

namespace SendBuffer

variable {N : ℕ} {b b' : SendBuffer N}

theorem updateWnd_state (b : SendBuffer N) (ackNum wndSize : UInt32) :
    (b.updateWnd ackNum wndSize).2.zwp.state =
      if b.una ≤ ackNum ∧ b.zwp.state = .waitAck ∧ b.zwp.seq < ackNum then .pause
      else b.zwp.state := by
  unfold updateWnd
  by_cases hle : b.una ≤ ackNum
  · simp only [hle, if_true, true_and, zwpOnAck]
    split
    · simp [*]
    · simp [*]
    · rename_i hwait
      by_cases hlt : b.zwp.seq < ackNum
      · simp [hlt, hwait]
      · simp only [hlt, if_false, and_false]
        split <;> rfl
  · simp only [hle, if_false, false_and]

theorem onAck_state (b : SendBuffer N) (ackNum wndSize : UInt32) (now : TimePoint) :
    (b.onAck ackNum wndSize now).2.2.zwp.state =
      if b.una ≤ ackNum ∧ b.zwp.state = .waitAck ∧ b.zwp.seq < ackNum then .pause
      else b.zwp.state := by
  rw [← updateWnd_state b ackNum wndSize]
  simp only [onAck]
  split <;> rfl

theorem onAck_probe (b : SendBuffer N) (ackNum wndSize : UInt32) (now : TimePoint) :
    (b.onAck ackNum wndSize now).2.2.retransmitQueue.probe =
      if b.una < ackNum ∧ ackNum ≤ b.nxt then
        b.retransmitQueue.probe.filter fun p ↦ ¬p.seqNum.toNat + p.payload.length ≤ ackNum.toNat
      else b.retransmitQueue.probe := by
  obtain ⟨z, q, hframe, -, hq⟩ := onAck_frame b ackNum wndSize now
  have hprobe : q.probe = b.retransmitQueue.probe := by
    rcases hq with rfl | rfl
    · rfl
    · exact probe_resetZwpCounter _
  rw [hframe]
  dsimp only
  split
  · rw [probe_onAck, hprobe]
  · exact hprobe

/-- The thread enters and leaves its wait for the acknowledgment together with the state. -/
theorem zwpStep_state {thread thread' : ZwpThread} {timeout : Bool}
    {probe : Option (UInt32 × Byte)} (h : b.zwpStep thread timeout = .ok (probe, thread', b'))
    (hthread : thread.Probing → b.zwp.state ≠ .waitAck) :
    (probe = none → b'.zwp.seq = b.zwp.seq ∧
        (b'.zwp.state = .waitAck ↔ b.zwp.state = .waitAck)) ∧
      (thread'.Probing → b'.zwp.state ≠ .waitAck) := by
  cases thread with
  | entry =>
      have hstate := hthread ⟨by simp, by simp⟩
      have hsuffices : b'.zwp.seq = b.zwp.seq ∧ b'.zwp.state ≠ .waitAck := by
        simp only [zwpStep] at h
        split at h
        · simp only [Exec.bind_eq_ok, zwpCountdown] at h
          obtain ⟨r, ⟨-, -, hr⟩, h⟩ := h
          split at hr <;> cases hr <;> cases h <;> simp [zwpPause]
        · cases h
          simp [zwpPause]
      exact ⟨fun _ ↦ ⟨hsuffices.1, iff_of_false hsuffices.2 hstate⟩, fun _ ↦ hsuffices.2⟩
  | onPause =>
      have hstate := hthread ⟨by simp, by simp⟩
      have hsuffices : b'.zwp.seq = b.zwp.seq ∧ b'.zwp.state ≠ .waitAck := by
        simp only [zwpStep, Exec.bind_eq_ok, zwpCountdown] at h
        obtain ⟨r, ⟨-, -, hr⟩, h⟩ := h
        split at hr <;> cases hr <;> cases h <;> simp [hstate]
      exact ⟨fun _ ↦ ⟨hsuffices.1, iff_of_false hsuffices.2 hstate⟩, fun _ ↦ hsuffices.2⟩
  | onCountdown =>
      have hstate := hthread ⟨by simp, by simp⟩
      simp only [zwpStep, Exec.bind_eq_ok] at h
      obtain ⟨⟨r, b₁⟩, hget, h⟩ := h
      rcases zwpGetProbeByte_cases hget with ⟨-, rfl, rfl⟩ | ⟨-, -, rfl, rfl⟩ |
        ⟨-, -, -, data, -, rfl, rfl⟩ <;> cases h
      · exact ⟨fun _ ↦ ⟨rfl, Iff.rfl⟩, fun _ ↦ hstate⟩
      · have hpause : b.zwpPause.zwp.state ≠ .waitAck := by simp [zwpPause]
        exact ⟨fun _ ↦ ⟨rfl, iff_of_false hpause hstate⟩, fun _ ↦ hpause⟩
      · exact ⟨by simp, fun h ↦ absurd rfl h.1⟩
  | waitAck =>
      simp only [zwpStep, Exec.bind_eq_ok, zwpWaitAck, Exec.waitUntil_eq_ok] at h
      obtain ⟨r, ⟨-, hwait, hr⟩, h⟩ := h
      split at hr
      · cases hr
        cases h
        exact ⟨fun _ ↦ ⟨rfl, Iff.rfl⟩, fun h ↦ absurd rfl h.2⟩
      · rename_i hstop
        cases hr
        cases h
        have hpause := hwait.resolve_right hstop
        exact ⟨fun _ ↦ ⟨rfl, Iff.rfl⟩, fun _ ↦ by simp [hpause]⟩
  | exited => simp [zwpStep] at h

theorem zwpStep_ne_assertion (b : SendBuffer N) (thread : ZwpThread) (timeout : Bool)
    (msg : String) : b.zwpStep thread timeout ≠ .error (.assertion msg) := by
  have hcountdown : ∀ c : SendBuffer N, c.zwpCountdown ≠ .error (.assertion msg) := by
    intro c
    rw [zwpCountdown, Exec.waitUntil]
    split
    · rw [Exec.ok_bind]
      split <;> simp [pure, Except.pure]
    · simp
  have hget : b.zwpGetProbeByte timeout ≠ .error (.assertion msg) := by
    simp only [zwpGetProbeByte, Exec.waitUntil, RingBuffer.atSeq]
    split
    · repeat' split
      all_goals simp [pure, Except.pure]
    · simp
  have hwait : b.zwpWaitAck ≠ .error (.assertion msg) := by
    rw [zwpWaitAck, Exec.waitUntil]
    split
    · rw [Exec.ok_bind]
      split <;> simp [pure, Except.pure]
    · simp
  intro h
  cases thread with
  | entry =>
      simp only [zwpStep] at h
      split at h
      · rcases Exec.bind_eq_error.mp h with h | ⟨⟨r, c⟩, -, h⟩
        · exact hcountdown _ h
        · cases r <;> cases h
      · cases h
  | onPause =>
      rcases Exec.bind_eq_error.mp h with h | ⟨⟨r, c⟩, -, h⟩
      · exact hcountdown _ h
      · cases r <;> cases h
  | onCountdown =>
      rcases Exec.bind_eq_error.mp h with h | ⟨⟨r, c⟩, -, h⟩
      · exact hget h
      · rcases r with e | probe
        · cases h
        · cases probe <;> cases h
  | waitAck =>
      rcases Exec.bind_eq_error.mp h with h | ⟨r, -, h⟩
      · exact hwait h
      · cases r <;> cases h
  | exited => cases h

end SendBuffer

namespace Transmitting

variable {N : ℕ} {s s' : Transmitting N}

/-- Before the first section of the zero-window-probe thread. -/
structure ProbeAtStart (s : Transmitting N) : Prop where
  zwp : s.zwp = .entry
  state : s.buffer.zwp.state = .pause
  zwpEntry : s.buffer.retransmitQueue.zwpEntry = none

/-- Without a probe in flight the queue has no entry for one, and the thread never finds one
there when it sends a probe. -/
structure OneProbe (s : Transmitting N) : Prop where
  zwpEntry : s.buffer.zwp.state ≠ .waitAck → s.buffer.retransmitQueue.zwpEntry = none
  enqueueZwp : ∀ timeout ack wnd now, s.step (.zwp timeout ack wnd now) ≠
    .error (.assertion "ZWP already exists in the retransmission queue")

/-- An acknowledgment that ends the wait for the one of the probe is acceptable. -/
def AcksProbe (s : Transmitting N) : TransmitCall → Prop
  | .onAck ackNum _ _ =>
      s.buffer.zwp.state = .waitAck → s.buffer.una ≤ ackNum → s.buffer.zwp.seq < ackNum →
        s.buffer.una < ackNum ∧ ackNum ≤ s.buffer.nxt
  | _ => True

/-- The thread, the state and the queue agree on whether a probe is in flight. -/
structure ProbeInv (s : Transmitting N) : Prop where
  thread : s.zwp.Probing → s.buffer.zwp.state ≠ .waitAck
  idle : s.buffer.zwp.state ≠ .waitAck → s.buffer.retransmitQueue.probe = none
  waiting : s.buffer.zwp.state = .waitAck → ∃ p, s.buffer.retransmitQueue.probe = some p ∧
    p.seqNum.toNat + p.payload.length = s.buffer.zwp.seq.toNat + 1

namespace ProbeInv

theorem oneProbe (h : ProbeInv s) : OneProbe s := by
  refine ⟨fun hstate ↦ probe_eq_none.mp (h.idle hstate), ?_⟩
  intro timeout ack wnd now hstep
  simp only [Transmitting.step] at hstep
  cases hzwp : s.buffer.zwpStep s.zwp timeout with
  | error e =>
      rw [hzwp, Exec.error_bind] at hstep
      obtain rfl := Except.error.inj hstep
      exact s.buffer.zwpStep_ne_assertion _ _ _ hzwp
  | ok r =>
      obtain ⟨probe, zwp, buffer⟩ := r
      rw [hzwp, Exec.ok_bind] at hstep
      cases probe with
      | none => cases hstep
      | some probe =>
          obtain ⟨hthread, -⟩ := (SendBuffer.zwpStep_probe_iff hzwp).mp (by simp)
          have hnone := h.idle (h.thread (by rw [hthread]; exact ⟨by simp, by simp⟩))
          have hqueue : buffer.retransmitQueue.zwpEntry = none := by
            rcases SendBuffer.zwpStep_cases hzwp with ⟨hprobe, -⟩ | ⟨-, -, -, data, -, -, rfl⟩
            · cases hprobe
            · exact probe_eq_none.mp hnone
          simp only [enqueueZwp, Exec.assertThat, hqueue, if_true, Exec.ok_bind] at hstep
          cases hstep

theorem keep (h : ProbeInv s) (hthread : s'.zwp = s.zwp) (hzwp : s'.buffer.zwp = s.buffer.zwp)
    (hprobe : s'.buffer.retransmitQueue.probe = s.buffer.retransmitQueue.probe) :
    ProbeInv s' := by
  refine ⟨?_, ?_, ?_⟩
  · rw [hthread, hzwp]
    exact h.thread
  · rw [hzwp, hprobe]
    exact h.idle
  · rw [hzwp, hprobe]
    exact h.waiting

theorem zwp {timeout : Bool} {ack : UInt32} {wnd : UInt16} {now : TimePoint}
    {out : List (UInt32 × List Byte)} (h : ProbeInv s)
    (hstep : s.step (.zwp timeout ack wnd now) = .ok (out, s')) : ProbeInv s' := by
  simp only [Transmitting.step, Exec.bind_eq_ok, Prod.exists] at hstep
  obtain ⟨probe, zwp, buffer, hzwp, hstep⟩ := hstep
  obtain ⟨hnone, hthread⟩ := SendBuffer.zwpStep_state hzwp h.thread
  rcases SendBuffer.zwpStep_cases hzwp with ⟨rfl, z, rfl⟩ | ⟨-, -, -, data, -, rfl, rfl⟩
  · simp only [Exec.pure_eq_ok, Prod.mk.injEq] at hstep
    obtain ⟨-, rfl⟩ := hstep
    obtain ⟨hseq, hstate⟩ := hnone rfl
    refine ⟨hthread, fun hne ↦ h.idle (mt hstate.mpr hne), fun hwait ↦ ?_⟩
    obtain ⟨p, hp, hend⟩ := h.waiting (hstate.mp hwait)
    exact ⟨p, hp, hend.trans (congrArg (·.toNat + 1) hseq.symm)⟩
  · simp only [Exec.bind_eq_ok, Exec.pure_eq_ok, Prod.mk.injEq] at hstep
    obtain ⟨q, henq, -, rfl⟩ := hstep
    rw [enqueueZwp_cases henq]
    exact ⟨hthread, fun hne ↦ absurd rfl hne, fun _ ↦ ⟨_, rfl, rfl⟩⟩

section OnAck

variable {ackNum wndSize : UInt32} {now : TimePoint} {out : List (UInt32 × List Byte)}

theorem step_onAck (hstep : s.step (.onAck ackNum wndSize now) = .ok (out, s')) :
    s'.zwp = s.zwp ∧ s'.buffer = (s.buffer.onAck ackNum wndSize now).2.2 := by
  simp only [Transmitting.step] at hstep
  split at hstep <;> cases hstep <;> exact ⟨rfl, rfl⟩

/-- An acknowledgment that ends the wait for the one of the probe removes the probe exactly if it
is acceptable. -/
theorem onAck_ends (h : ProbeInv s) (hstep : s.step (.onAck ackNum wndSize now) = .ok (out, s'))
    (hle : s.buffer.una ≤ ackNum) (hwait : s.buffer.zwp.state = .waitAck)
    (hlt : s.buffer.zwp.seq < ackNum) :
    s'.buffer.zwp.state ≠ .waitAck ∧ (s'.buffer.retransmitQueue.probe = none ↔
      s.buffer.una < ackNum ∧ ackNum ≤ s.buffer.nxt) := by
  obtain ⟨-, hbuffer⟩ := step_onAck hstep
  obtain ⟨p, hp, hend⟩ := h.waiting hwait
  rw [hbuffer, SendBuffer.onAck_state, if_pos ⟨hle, hwait, hlt⟩, SendBuffer.onAck_probe, hp]
  refine ⟨by simp, ?_⟩
  have hcovers : p.seqNum.toNat + p.payload.length ≤ ackNum.toNat :=
    hend.trans_le (UInt32.lt_iff_toNat_lt.mp hlt)
  split
  · rename_i hacc
    rw [Option.filter_some, if_neg (by simpa using hcovers)]
    exact iff_of_true rfl hacc
  · rename_i hnot
    exact iff_of_false (by simp) hnot

/-- Any other acknowledgment leaves the probe where it is. -/
theorem onAck_keeps (h : ProbeInv s) (hstep : s.step (.onAck ackNum wndSize now) = .ok (out, s'))
    (hnot : ¬(s.buffer.una ≤ ackNum ∧ s.buffer.zwp.state = .waitAck ∧
      s.buffer.zwp.seq < ackNum)) : ProbeInv s' := by
  obtain ⟨hthread, hbuffer⟩ := step_onAck hstep
  have hstate := s.buffer.onAck_state ackNum wndSize now
  have hprobe := s.buffer.onAck_probe ackNum wndSize now
  obtain ⟨z, q, hframe, hz, -⟩ := s.buffer.onAck_frame ackNum wndSize now
  have hseq : (s.buffer.onAck ackNum wndSize now).2.2.zwp.seq = s.buffer.zwp.seq := by
    rw [hframe, ← hz]
  rw [← hbuffer] at hstate hprobe hseq
  rw [if_neg hnot] at hstate
  refine ⟨?_, ?_, ?_⟩
  · rw [hthread, hstate]
    exact h.thread
  · intro hne
    rw [hprobe, h.idle (hstate ▸ hne)]
    split <;> rfl
  · intro hwait
    rw [hstate] at hwait
    obtain ⟨p, hp, hend⟩ := h.waiting hwait
    refine ⟨p, ?_, hend.trans (congrArg (·.toNat + 1) hseq.symm)⟩
    rw [hprobe, hp]
    split
    · rename_i hacc
      have hle : ackNum ≤ s.buffer.zwp.seq :=
        UInt32.not_lt.mp fun hlt ↦ hnot ⟨hacc.1.le, hwait, hlt⟩
      have hlt : ackNum.toNat < p.seqNum.toNat + p.payload.length := by
        rw [hend]
        exact Nat.lt_succ_of_le (UInt32.le_iff_toNat_le.mp hle)
      rw [Option.filter_some, if_pos (by simpa using hlt)]
    · rfl

/-- An acknowledgment keeps the invariant exactly if it does not end the wait for the probe
without removing it. -/
theorem onAck (h : ProbeInv s) (hstep : s.step (.onAck ackNum wndSize now) = .ok (out, s')) :
    (AcksProbe s (.onAck ackNum wndSize now) → ProbeInv s') ∧
      (OneProbe s' → AcksProbe s (.onAck ackNum wndSize now)) := by
  constructor
  · intro hacks
    by_cases hends : s.buffer.una ≤ ackNum ∧ s.buffer.zwp.state = .waitAck ∧
        s.buffer.zwp.seq < ackNum
    · obtain ⟨hle, hwait, hlt⟩ := hends
      obtain ⟨hne, hprobe⟩ := h.onAck_ends hstep hle hwait hlt
      have hnone := hprobe.mpr (hacks hwait hle hlt)
      exact ⟨fun _ ↦ hne, fun _ ↦ hnone, fun hwait' ↦ absurd hwait' hne⟩
    · exact h.onAck_keeps hstep hends
  · intro hone hwait hle hlt
    obtain ⟨hne, hprobe⟩ := h.onAck_ends hstep hle hwait hlt
    exact hprobe.mp (probe_eq_none.mpr (hone.zwpEntry hne))

end OnAck

/-- Every section but `onAck` keeps the invariant. -/
theorem step {t : Step N} (hfires : Fires Transmitting.step t) (h : ProbeInv t.pre) :
    (AcksProbe t.pre t.label → ProbeInv t.post) ∧ (OneProbe t.post → AcksProbe t.pre t.label) := by
  obtain ⟨s, l, out, s'⟩ := t
  simp only [Fires] at hfires h ⊢
  cases l with
  | write bytesLeft =>
      refine ⟨fun _ ↦ ?_, fun _ ↦ trivial⟩
      simp only [Transmitting.step, Exec.bind_eq_ok, Prod.exists] at hfires
      obtain ⟨r, wakes, buffer, hwrite, hfires⟩ := hfires
      rcases SendBuffer.write_cases hwrite with ⟨-, rfl, -, rfl⟩ | ⟨-, -, n, rb, -, rfl, -, rfl⟩ <;>
        cases hfires
      · exact h
      · exact h.keep rfl rfl rfl
  | sendReadyData buffSize =>
      refine ⟨fun _ ↦ ?_, fun _ ↦ trivial⟩
      simp only [Transmitting.step, Exec.bind_eq_ok, Prod.exists] at hfires
      obtain ⟨r, buffer, hsend, hfires⟩ := hfires
      rcases SendBuffer.sendReadyData_cases hsend with ⟨-, rfl, rfl⟩ |
        ⟨-, -, data, -, -, rfl, rfl⟩ <;> cases hfires
      · exact h
      · exact h.keep rfl rfl rfl
  | enqueue ack wnd now =>
      refine ⟨fun _ ↦ ?_, fun _ ↦ trivial⟩
      simp only [Transmitting.step] at hfires
      split at hfires
      · cases hfires
      · simp only [Exec.bind_eq_ok, Exec.pure_eq_ok, Prod.mk.injEq] at hfires
        obtain ⟨q, henq, -, rfl⟩ := hfires
        exact h.keep rfl rfl (probe_enqueue henq)
  | zwp timeout ack wnd now => exact ⟨fun _ ↦ h.zwp hfires, fun _ ↦ trivial⟩
  | onAck ackNum wndSize now => exact h.onAck hfires
  | retransmit edge now =>
      refine ⟨fun _ ↦ ?_, fun _ ↦ trivial⟩
      have hprobe := s.buffer.retransmitQueue.probe_getExpiredEntries edge now
      simp only [Transmitting.step] at hfires
      split at hfires <;> rename_i heq <;> rw [heq] at hprobe <;> cases hfires <;>
        exact h.keep rfl rfl hprobe

end ProbeInv

theorem ProbeAtStart.probeInv (h : ProbeAtStart s) : ProbeInv s := by
  refine ⟨fun _ ↦ by simp [h.state], fun _ ↦ probe_eq_none.mpr h.zwpEntry, fun hwait ↦ ?_⟩
  rw [h.state] at hwait
  cases hwait

/-- In a run there is at most one probe in flight exactly if every acknowledgment that ends the
wait for the one of the probe is acceptable. -/
theorem oneProbe_run_iff (hstart : ProbeAtStart s) {tr : List (Step N)}
    (h : Trace step s tr s') :
    (∀ t ∈ tr, OneProbe t.pre ∧ OneProbe t.post) ↔ ∀ t ∈ tr, AcksProbe t.pre t.label := by
  apply Trace.forall_iff (I := ProbeInv) (D := fun _ ↦ True) _ _ h hstart.probeInv (by simp)
  · intro t hfires hpre _
    obtain ⟨hkeep, hacks⟩ := hpre.step hfires
    exact ⟨fun hone ↦ hacks hone.2, fun h ↦ ⟨hpre.oneProbe, (hkeep h).oneProbe⟩⟩
  · intro t hfires hpre _ hacks
    exact (hpre.step hfires).1 hacks

/-- A probe is sent and acknowledged. -/
theorem oneProbe_run_iff_acked :
    ∃ (tr : List (Step 4)) (s : Transmitting 4),
      Trace step (init (Vector.replicate 4 0) 10 0) tr s ∧
        tr.flatMap Transition.out = [(10, [1])] ∧
        ((∀ t ∈ tr, OneProbe t.pre ∧ OneProbe t.post) ↔ ∀ t ∈ tr, AcksProbe t.pre t.label) := by
  have hrun : Trace step (init (Vector.replicate 4 0) 10 0) _ _ :=
    .cons (l := .write [1, 2]) rfl (.cons (l := .zwp false 0 8 0) rfl
    (.cons (l := .zwp true 0 8 0) rfl (.cons (l := .onAck 11 4 0) rfl (.nil _))))
  exact ⟨_, _, hrun, rfl, oneProbe_run_iff ⟨rfl, rfl, rfl⟩ hrun⟩

/-- After a probe with number 10 a window of zero comes with acknowledgment number 12, which is
beyond `nxt_`.  The next probe fails the assertion. -/
theorem not_oneProbe_run :
    ∃ (tr : List (Step 4)) (s : Transmitting 4),
      ProbeAtStart (init (Vector.replicate 4 0) 10 0) ∧
        Trace step (init (Vector.replicate 4 0) 10 0) tr s ∧
        s.step (.zwp true 0 8 0) =
          .error (.assertion "ZWP already exists in the retransmission queue") ∧
        ¬∀ t ∈ tr, OneProbe t.pre ∧ OneProbe t.post := by
  refine ⟨_, _, ⟨rfl, rfl, rfl⟩, .cons (l := .write [1, 2]) rfl
    (.cons (l := .zwp false 0 8 0) rfl (.cons (l := .zwp true 0 8 0) rfl
    (.cons (l := .onAck 12 0 0) rfl (.cons (l := .zwp false 0 8 0) rfl
    (.cons (l := .zwp false 0 8 0) rfl (.nil _)))))), rfl, fun hall ↦ ?_⟩
  have hpost := (List.forall_mem_cons.mp (List.forall_mem_cons.mp (List.forall_mem_cons.mp
    (List.forall_mem_cons.mp hall).2).2).2).1.2
  exact absurd (hpost.zwpEntry (by decide)) (by decide)

end Transmitting

end Tns.Tcp
