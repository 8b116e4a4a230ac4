import Tns.Tcp.RemoteClose

/-!
# The FIN of the peer

The handlers of a FIN pass it to `onCtrl` and then compare RCV.NXT with the number
after the FIN.  That test also succeeds when the FIN was not consumed, and the
handlers that run after the peer has closed still pass segments to the receive
buffer.
-/

namespace Tns.Tcp

open Tns.Library

namespace RecvBuffer

variable {N : ℕ} {b b' c : RecvBuffer N}

/-- `onRecv` stores some bytes of a segment of `len` bytes: an early one that begins before
the last cell of the ring, or one that brings the next byte expected while RCV.NXT is before
that cell. -/
def Stores (b : RecvBuffer N) (seqNum : UInt32) (len : ℕ) : Prop :=
  (b.nxt < seqNum ∧ seqNum.toNat < sizeSub (b.nbr.toNat + N) 1) ∨
    (seqNum ≤ b.nxt ∧ (b.nxt - seqNum).toNat < len ∧
      b.nxt.toNat < sizeSub (b.nbr.toNat + N) 1)

theorem onRecv_of_not_stores {seqNum : UInt32} {payload : List Byte} {r : UInt32 × ℕ}
    (h : b.onRecv seqNum payload = .ok (r, b')) (hno : ¬b.Stores seqNum payload.length) :
    b' = b := by
  obtain ⟨-, ⟨rb, hlt, hwrite, -, rfl⟩ | ⟨n, rb, I, e, early, hlt, hwrite, hn, -⟩ |
    ⟨-, -, -, rfl⟩ | ⟨rb, hle, hlen, hwrite, -, rfl⟩ |
    ⟨n, rb, I, nxt, early, hle, hlen, hwrite, hn, -⟩⟩ := onRecv_cases h
  · rw [RingBuffer.write_of_le _ _ (not_lt.mp fun hlast ↦ hno (.inl ⟨hlt, hlast⟩))] at hwrite
    obtain ⟨-, rfl⟩ := Prod.mk.inj (Except.ok.inj hwrite)
    rfl
  · rw [RingBuffer.write_of_le _ _ (not_lt.mp fun hlast ↦ hno (.inl ⟨hlt, hlast⟩))] at hwrite
    obtain ⟨rfl, -⟩ := Prod.mk.inj (Except.ok.inj hwrite)
    exact absurd hn (lt_irrefl 0)
  · rfl
  · rw [RingBuffer.write_of_le _ _ (not_lt.mp fun hlast ↦ hno (.inr ⟨hle, hlen, hlast⟩))] at hwrite
    obtain ⟨-, rfl⟩ := Prod.mk.inj (Except.ok.inj hwrite)
    rfl
  · rw [RingBuffer.write_of_le _ _ (not_lt.mp fun hlast ↦ hno (.inr ⟨hle, hlen, hlast⟩))] at hwrite
    obtain ⟨rfl, -⟩ := Prod.mk.inj (Except.ok.inj hwrite)
    exact absurd hn (lt_irrefl 0)

/-- `b'` has the same RCV.NXT as `b` and no other payload bytes. -/
structure SameContents (b b' : RecvBuffer N) : Prop where
  nxt : b'.nxt = b.nxt
  buf : b'.buf = b.buf
  earlyArrivals : b'.earlyArrivals = b.earlyArrivals

namespace SameContents

theorem refl (b : RecvBuffer N) : SameContents b b := ⟨rfl, rfl, rfl⟩

theorem trans (h : SameContents b b') (h' : SameContents b' c) : SameContents b c :=
  ⟨h'.nxt.trans h.nxt, h'.buf.trans h.buf, h'.earlyArrivals.trans h.earlyArrivals⟩

end SameContents

theorem sameContents_readAtMostNBytes {buffSize n : ℕ} {r : Except SocketError (List Byte)}
    (h : b.readAtMostNBytes buffSize n = .ok (r, b')) : SameContents b b' := by
  rcases readAtMostNBytes_cases h with ⟨-, -, rfl⟩ | ⟨-, -, -, rfl⟩ | ⟨-, -, -, data, -, -, -, rfl⟩
  · exact .refl _
  · exact .refl _
  · exact ⟨rfl, rfl, rfl⟩

end RecvBuffer

/-- A FIN or a FIN+ACK with sequence number `seqNum`. -/
inductive IsFin (seqNum : UInt32) : Event → Prop
  | getFin (wndSize : UInt16) : IsFin seqNum (.getFin seqNum wndSize)
  | getFinAck (ackNum : UInt32) (wndSize : UInt16) :
      IsFin seqNum (.getFinAck seqNum ackNum wndSize)

/-- The transitions by which a socket learns that the peer has closed. -/
inductive ClosesRemote : State → State → Prop
  | closeWait : ClosesRemote .established .closeWait
  | timeWait (time : TimePoint) : ClosesRemote .finWait2 (.timeWait time)

theorem closesRemote_iff {a b : State} : ClosesRemote a b ↔
    (a = .established ∧ b = .closeWait) ∨ (a = .finWait2 ∧ ∃ time, b = .timeWait time) := by
  constructor
  · rintro (_ | time)
    · exact .inl ⟨rfl, rfl⟩
    · exact .inr ⟨rfl, time, rfl⟩
  · rintro (⟨rfl, rfl⟩ | ⟨rfl, time, rfl⟩)
    · exact .closeWait
    · exact .timeWait time

theorem closesRemote_irrefl (a : State) : ¬ClosesRemote a a := nofun

namespace NormalSocket

variable {M N : ℕ} {s s' : NormalSocket M N} {seqNum : UInt32} {event : Event}

/-- The socket closes the remote side exactly if the FIN is the next byte expected, and then
consumes it; else it keeps its state and RCV.NXT. -/
structure ClosesInOrder (seqNum : UInt32) (s s' : NormalSocket M N) : Prop where
  closes_iff : ClosesRemote s.state s'.state ↔ seqNum = s.recvBuffer.nxt
  consumed : seqNum = s.recvBuffer.nxt → s'.recvBuffer.nxt = seqNum + 1
  unchanged : seqNum ≠ s.recvBuffer.nxt →
    s'.state = s.state ∧ s'.recvBuffer.nxt = s.recvBuffer.nxt

/-- A FIN+ACK in FIN_WAIT_2 has no handler, so the one in order is missed; the handlers take
a FIN right before RCV.NXT for one that has just been consumed. -/
def Misjudges (s : NormalSocket M N) : Event → Prop
  | .getFin seqNum _ => seqNum + 1 = s.recvBuffer.nxt
  | .getFinAck seqNum _ _ =>
      if s.state = .finWait2 then seqNum = s.recvBuffer.nxt
      else seqNum + 1 = s.recvBuffer.nxt
  | _ => False

/-- What the handlers do with a FIN: `processFin`, and `close` if RCV.NXT is then the number
after the FIN. -/
theorem closesInOrder_of_test (close : NormalSocket M N → NormalSocket M N) (wndSize : UInt16)
    (now : TimePoint) (hstate : ∀ c, ClosesRemote s.state (close c).state)
    (hclose : ∀ c, (close c).recvBuffer.nxt = c.recvBuffer.nxt) :
    ClosesInOrder seqNum s
        (if (s.processFin seqNum wndSize now).1 = seqNum + 1
          then close (s.processFin seqNum wndSize now).2.2
          else (s.processFin seqNum wndSize now).2.2) ↔
      seqNum + 1 ≠ s.recvBuffer.nxt := by
  by_cases hseq : seqNum = s.recvBuffer.nxt
  · have hack : (s.processFin seqNum wndSize now).1 = seqNum + 1 := by
      simp [processFin, RecvBuffer.onCtrl, hseq]
    rw [if_pos hack]
    refine iff_of_true ⟨iff_of_true (hstate _) hseq, fun _ ↦ ?_, fun hne ↦ absurd hseq hne⟩ ?_
    · rw [hclose]
      exact hack
    · rw [← hseq]
      exact (UInt32.ne_add_one _).symm
  · have hack : (s.processFin seqNum wndSize now).1 = s.recvBuffer.nxt := by
      simp [processFin, RecvBuffer.onCtrl, hseq]
    rw [hack]
    constructor
    · intro h heq
      rw [if_pos heq.symm] at h
      exact hseq (h.closes_iff.mp (hstate _))
    · intro hne
      rw [if_neg hne.symm]
      refine ⟨iff_of_false ?_ hseq, fun heq ↦ absurd heq hseq, fun _ ↦ ⟨rfl, hack⟩⟩
      exact closesRemote_irrefl s.state

theorem handleEstablishedGetFin_eq (s : NormalSocket M N) (seqNum : UInt32) (wndSize : UInt16)
    (now : TimePoint) : s.handleEstablishedGetFin seqNum wndSize now =
      .ok ((s.processFin seqNum wndSize now).2.1,
        if (s.processFin seqNum wndSize now).1 = seqNum + 1
          then (s.processFin seqNum wndSize now).2.2.shutdownRecv.setState .closeWait
          else (s.processFin seqNum wndSize now).2.2) := by
  rw [handleEstablishedGetFin]
  simp only
  split <;> rfl

theorem handleFinWait2GetFin_eq (s : NormalSocket M N) (seqNum : UInt32) (wndSize : UInt16)
    (now : TimePoint) : s.handleFinWait2GetFin seqNum wndSize now =
      .ok ((s.processFin seqNum wndSize now).2.1,
        if (s.processFin seqNum wndSize now).1 = seqNum + 1
          then (s.processFin seqNum wndSize now).2.2.setState (.timeWait now)
          else (s.processFin seqNum wndSize now).2.2) := by
  rw [handleFinWait2GetFin]
  simp only
  split <;> rfl

/-- For every socket in ESTABLISHED or FIN_WAIT_2 and every FIN or FIN+ACK, the remote side is
closed exactly by the FIN in order, if and only if the socket does not misjudge the packet. -/
theorem closesInOrder_iff (now : TimePoint)
    (hstate : s.state = .established ∨ s.state = .finWait2) (hfin : IsFin seqNum event) :
    ∃ actions s', s.eventHandler event now = .ok (actions, s') ∧
      (ClosesInOrder seqNum s s' ↔ ¬Misjudges s event) := by
  rcases hstate with hstate | hstate
  · have hestablished : ∀ wndSize, ∃ actions s',
        s.handleEstablishedGetFin seqNum wndSize now = .ok (actions, s') ∧
          (ClosesInOrder seqNum s s' ↔ seqNum + 1 ≠ s.recvBuffer.nxt) := by
      intro wndSize
      refine ⟨_, _, s.handleEstablishedGetFin_eq seqNum wndSize now, ?_⟩
      apply closesInOrder_of_test (fun c ↦ c.shutdownRecv.setState .closeWait) wndSize now
      · intro c
        rw [hstate]
        exact .closeWait
      · exact fun _ ↦ rfl
    cases hfin with
    | getFin wndSize =>
        simp only [eventHandler, hstate, Misjudges]
        exact hestablished wndSize
    | getFinAck ackNum wndSize =>
        simp only [eventHandler, hstate, Misjudges, reduceCtorEq, if_false]
        exact hestablished wndSize
  · cases hfin with
    | getFin wndSize =>
        simp only [eventHandler, hstate, Misjudges]
        refine ⟨_, _, s.handleFinWait2GetFin_eq seqNum wndSize now, ?_⟩
        apply closesInOrder_of_test (fun c ↦ c.setState (.timeWait now)) wndSize now
        · intro c
          rw [hstate]
          exact .timeWait now
        · exact fun _ ↦ rfl
    | getFinAck ackNum wndSize =>
        simp only [eventHandler, hstate, Misjudges, if_true]
        refine ⟨_, _, rfl, ?_⟩
        have hstays := closesRemote_irrefl s.state
        constructor
        · exact fun h heq ↦ hstays (h.closes_iff.mpr heq)
        · exact fun hne ↦ ⟨iff_of_false hstays hne, fun heq ↦ absurd heq hne, fun _ ↦ ⟨rfl, rfl⟩⟩

/-- A FIN in order, in FIN_WAIT_2. -/
theorem closesInOrder_iff_inOrder :
    let s : NormalSocket 8 8 :=
      { init (Vector.replicate 8 0) (Vector.replicate 8 0) 0 8 7 with state := .finWait2 }
    s.state = .finWait2 ∧ IsFin 7 (.getFin 7 8) ∧
      ∃ actions s', s.eventHandler (.getFin 7 8) 5 = .ok (actions, s') ∧
        (ClosesInOrder 7 s s' ↔ ¬Misjudges s (.getFin 7 8)) :=
  ⟨rfl, .getFin 8, closesInOrder_iff 5 (.inr rfl) (.getFin 8)⟩

/-- In ESTABLISHED a FIN with the number before RCV.NXT closes the remote side, and in
FIN_WAIT_2 a FIN+ACK in order does not. -/
theorem not_closesInOrder :
    (∃ (s s' : NormalSocket 8 8) (actions : List Action), s.state = .established ∧
      s.eventHandler (.getFin 6 8) 0 = .ok (actions, s') ∧ s.recvBuffer.nxt = 7 ∧
        ¬ClosesInOrder 6 s s') ∧
    ∃ (s s' : NormalSocket 8 8) (actions : List Action), s.state = .finWait2 ∧
      s.eventHandler (.getFinAck 7 0 8) 0 = .ok (actions, s') ∧ s.recvBuffer.nxt = 7 ∧
        ¬ClosesInOrder 7 s s' := by
  constructor
  · refine ⟨{ init (Vector.replicate 8 0) (Vector.replicate 8 0) 0 8 7 with
      state := .established }, _, _, rfl, rfl, rfl, ?_⟩
    intro h
    exact absurd (h.closes_iff.mp .closeWait) (by decide)
  · refine ⟨{ init (Vector.replicate 8 0) (Vector.replicate 8 0) 0 8 7 with
      state := .finWait2 }, _, _, rfl, rfl, rfl, ?_⟩
    intro h
    cases h.closes_iff.mpr rfl

theorem nxt_of_closesRemote {now : TimePoint} {actions : List Action} (hfin : IsFin seqNum event)
    (h : s.eventHandler event now = .ok (actions, s')) (hclose : ClosesRemote s.state s'.state) :
    s'.recvBuffer.nxt = seqNum + 1 := by
  have hmoved : ∀ (wndSize : UInt16) (c : NormalSocket M N),
      c.recvBuffer.nxt = (s.processFin seqNum wndSize now).1 →
      (if (s.processFin seqNum wndSize now).1 = seqNum + 1 then c
        else (s.processFin seqNum wndSize now).2.2) = s' → s'.recvBuffer.nxt = seqNum + 1 := by
    rintro wndSize c hnxt rfl
    split at hclose
    · rename_i hack
      rw [if_pos hack, hnxt, hack]
    · exact absurd hclose (closesRemote_irrefl s.state)
  rcases closesRemote_iff.mp hclose with ⟨hstate, -⟩ | ⟨hstate, -⟩
  · cases hfin with
    | getFin wndSize =>
        simp only [eventHandler, hstate, handleEstablishedGetFin_eq, Except.ok.injEq,
          Prod.mk.injEq] at h
        exact hmoved wndSize _ rfl h.2
    | getFinAck ackNum wndSize =>
        simp only [eventHandler, hstate, handleEstablishedGetFinAck, handleEstablishedGetFin_eq,
          Except.ok.injEq, Prod.mk.injEq] at h
        exact hmoved wndSize _ rfl h.2
  · cases hfin with
    | getFin wndSize =>
        simp only [eventHandler, hstate, handleFinWait2GetFin_eq, Except.ok.injEq,
          Prod.mk.injEq] at h
        exact hmoved wndSize _ rfl h.2
    | getFinAck ackNum wndSize =>
        simp only [eventHandler, hstate, Except.ok.injEq, Prod.mk.injEq] at h
        rw [← h.2] at hclose
        exact absurd hclose (closesRemote_irrefl s.state)

/-- The socket gives the event's payload to its receive buffer, which stores some of it, or
handles it as a FIN with the next number expected. -/
def Reopens (s : NormalSocket M N) : Event → Prop
  | .getAck seqNum _ _ payload =>
      Receives s.state ∧ payload ≠ [] ∧ s.recvBuffer.Stores seqNum payload.length
  | event => ProcessesFin s.recvBuffer.nxt s.state event

theorem reopens_of_processesFin (h : ProcessesFin s.recvBuffer.nxt s.state event) :
    Reopens s event := by
  unfold Reopens
  split
  · generalize s.state = state at h
    cases h
  · exact h

theorem Handles.sameContents {now : TimePoint} (h : Handles s now event s')
    (hstate : s.state ≠ .synSent) (hno : ¬Reopens s event) :
    RecvBuffer.SameContents s.recvBuffer s'.recvBuffer := by
  have hctrl : ∀ seqNum, ProcessesFin seqNum s.state event →
      (s.recvBuffer.onCtrl seqNum).2 = s.recvBuffer := by
    intro seqNum hfin
    rw [RecvBuffer.onCtrl, if_neg]
    rintro rfl
    exact hno (reopens_of_processesFin hfin)
  cases h with
  | synAcked _ _ _ hsyn => exact absurd hsyn hstate
  | received seqNum ackNum wndSize payload r b hreceives hrecv =>
      have hsame : b = s.recvBuffer :=
        RecvBuffer.onRecv_of_not_stores hrecv fun hstores ↦
          hno ⟨hreceives, (RecvBuffer.onRecv_cases hrecv).1, hstores⟩
      simp only [hsame]
      exact .refl _
  | finReceived _ seqNum _ hfin =>
      simp only [hctrl seqNum hfin]
      exact .refl _
  | closeWait _ seqNum _ hfin =>
      simp only [setState_recvBuffer, shutdownRecv, hctrl seqNum hfin]
      exact ⟨rfl, rfl, rfl⟩
  | timeWait _ seqNum _ hfin =>
      simp only [setState_recvBuffer, hctrl seqNum hfin]
      exact .refl _
  | closed => exact ⟨rfl, rfl, rfl⟩
  | _ => exact .refl _

theorem Handles.state_ne_synSent {now : TimePoint} (h : Handles s now event s')
    (hstate : s.state ≠ .synSent) : s'.state ≠ .synSent := by
  cases h with
  | opened => simp
  | closeWait => simp
  | timeWait => simp
  | finAcked => simp
  | closed => simp
  | _ => exact hstate

end NormalSocket

namespace RunningSocket

variable {M N : ℕ} {s s' s₁ s₂ : RunningSocket M N}

/-- The step handles an event that moves RCV.NXT or stores payload bytes. -/
def Reopens (t : Step M N) : Prop :=
  match t.label with
  | .event event _ => t.pre.sock.Reopens event
  | _ => False

theorem Steps.close_next {l : SocketCall} {out : SocketReturn} (h : Steps s l out s')
    (hclose : s.close.next ≠ some .synSent) : s'.close.next ≠ some .synSent := by
  cases h with
  | vCloseAtOnce => simp [CloseThread.next]
  | vClose next actions _ hstate =>
      rintro hnext
      obtain rfl : next = .synSent := by simpa [CloseThread.next] using hnext
      obtain ⟨-, hnext | hnext⟩ := NormalSocket.vCloseState_ok hstate <;> cases hnext
  | getNxt next hnext =>
      rw [hnext] at hclose
      exact hclose
  | writeAndSendOne next _ _ hnext =>
      rw [hnext] at hclose
      exact hclose
  | sendFin => simp [CloseThread.next]
  | _ => exact hclose

theorem Steps.state_ne_synSent {l : SocketCall} {out : SocketReturn} (h : Steps s l out s')
    (hclose : s.close.next ≠ some .synSent) (hstate : s.sock.state ≠ .synSent) :
    s'.sock.state ≠ .synSent := by
  cases h with
  | retransmit edge now =>
      obtain ⟨q, -, heq | ⟨result, heq⟩⟩ := s.sock.retransmitExpired_cases edge now <;> rw [heq]
      · exact hstate
      · simp
  | event event now actions sock hevent =>
      exact (NormalSocket.handles_of_eventHandler hevent).state_ne_synSent hstate
  | vCloseAtOnce r actions sock _ hclosed =>
      obtain rfl | ⟨result, rfl⟩ := NormalSocket.vCloseState_error hclosed
      · exact hstate
      · simp
  | sendFin now next _ _ _ _ hnext =>
      rw [hnext] at hclose
      simpa [CloseThread.next] using hclose
  | vAbort => simp [NormalSocket.vAbort_state]
  | _ => exact hstate

/-- The invariant after the FIN: nothing leads back to SYN_SENT, where a SYN-ACK sets RCV.NXT,
and the receive buffer keeps the contents it had in `b`. -/
structure Keeps (b : RecvBuffer N) (s : RunningSocket M N) : Prop where
  state : s.sock.state ≠ .synSent
  close : s.close.next ≠ some .synSent
  contents : RecvBuffer.SameContents b s.sock.recvBuffer

theorem Keeps.step {b : RecvBuffer N} {t : Step M N} (hfires : Fires step t) (h : Keeps b t.pre)
    (hno : ¬Reopens t) : Keeps b t.post := by
  have hsteps := steps_of_step hfires
  refine ⟨hsteps.state_ne_synSent h.close h.state, hsteps.close_next h.close,
    h.contents.trans ?_⟩
  rcases hsteps.recv_cases with ⟨-, -, -, hrecv⟩ | ⟨buffSize, n, r, c, -, -, hread, heq⟩ |
    ⟨event, now, sock, hlabel, -, hhandles, heq⟩
  · rcases hrecv with hrecv | hrecv <;> rw [hrecv]
    · exact .refl _
    · exact ⟨rfl, rfl, rfl⟩
  · rw [heq]
    exact RecvBuffer.sameContents_readAtMostNBytes hread
  · rw [heq]
    apply hhandles.sameContents h.state
    simpa only [Reopens, hlabel] using hno

/-- A FIN with number `seqNum` takes the socket to CLOSE_WAIT or TIME_WAIT. -/
def ConsumesFin (seqNum : UInt32) (t : Step M N) : Prop :=
  ∃ event now, t.label = .event event now ∧ IsFin seqNum event ∧
    ClosesRemote t.pre.sock.state t.post.sock.state

theorem keeps_of_consumesFin {seqNum : UInt32} {t : Step M N} (hfires : Fires step t)
    (hclose : t.pre.close.next ≠ some .synSent) (hfin : ConsumesFin seqNum t) :
    Keeps t.post.sock.recvBuffer t.post ∧ t.post.sock.recvBuffer.nxt = seqNum + 1 := by
  obtain ⟨s, l, out, s'⟩ := t
  obtain ⟨event, now, rfl, hevent, hremote⟩ := hfin
  have hsteps := steps_of_step hfires
  simp only at hclose hremote hsteps ⊢
  have hstate : s'.sock.state ≠ .synSent := by
    rcases closesRemote_iff.mp hremote with ⟨-, hpost⟩ | ⟨-, time, hpost⟩ <;> rw [hpost] <;> nofun
  refine ⟨⟨hstate, hsteps.close_next hclose, .refl _⟩, ?_⟩
  cases hsteps with
  | event _ _ actions sock hhandle => exact NormalSocket.nxt_of_closesRemote hevent hhandle hremote

/-- After the step of any run that consumes the FIN, RCV.NXT is the number after it and stays
so, and no payload byte is stored, as long as no step gives the receive buffer bytes it stores
or a FIN with the next number. -/
theorem sameContents_of_run {seqNum : UInt32} {fin : Step M N} {before after : List (Step M N)}
    (hidle : s.close = .idle) (h : Trace step s (before ++ fin :: after) s')
    (hfin : ConsumesFin seqNum fin) (hno : ∀ t ∈ after, ¬Reopens t) :
    fin.post.sock.recvBuffer.nxt = seqNum + 1 ∧ ∀ t ∈ after,
      t.post.sock.recvBuffer.nxt = seqNum + 1 ∧
        RecvBuffer.SameContents fin.post.sock.recvBuffer t.post.sock.recvBuffer := by
  obtain ⟨s₁, hbefore, hrest⟩ := h.of_append
  have hclose : s₁.close.next ≠ some .synSent :=
    (hbefore.invariant (I := fun s ↦ s.close.next ≠ some .synSent) (A := fun _ ↦ True)
      (fun t ht hI _ ↦ (steps_of_step ht).close_next hI) (by simp [hidle, CloseThread.next])
      fun _ _ ↦ trivial).1
  cases hrest with
  | @cons _ s₂ _ l o _ head tail =>
      obtain ⟨hkeeps, hnxt⟩ := keeps_of_consumesFin (t := ⟨s₁, l, o, s₂⟩) head hclose hfin
      obtain ⟨-, hall⟩ := tail.invariant (fun t ht hI hok ↦ Keeps.step ht hI hok) hkeeps hno
      refine ⟨hnxt, ?_⟩
      intro t ht
      have hcontents := (hall t ht).2.contents
      exact ⟨hcontents.nxt.trans hnxt, hcontents⟩

/-- After the FIN an old segment and the FIN arrive again, and the socket is closed. -/
theorem sameContents_of_run_again :
    ∃ (fin : Step 8 8) (after : List (Step 8 8)) (s : RunningSocket 8 8),
      Trace step exampleStream (fin :: after) s ∧ s.sock.state = .lastAck ∧
        (fin.post.sock.recvBuffer.nxt = 0 + 1 ∧ ∀ t ∈ after,
          t.post.sock.recvBuffer.nxt = 0 + 1 ∧
            RecvBuffer.SameContents fin.post.sock.recvBuffer t.post.sock.recvBuffer) := by
  have hrun : Trace step exampleStream ([] ++ _ :: _) _ :=
    .cons (l := .event (.getFin 0 8) 0) rfl (.cons (l := .event (.getAck 0 0 8 [9]) 0) rfl
    (.cons (l := .event (.getFin 0 8) 0) rfl (.cons (l := .vClose) rfl
    (.cons (l := .getNxt) rfl (.cons (l := .writeAndSendOne) rfl
    (.cons (l := .sendFin 0) rfl (.nil _)))))))
  refine ⟨_, _, _, hrun, rfl, sameContents_of_run rfl hrun
    ⟨.getFin 0 8, 0, rfl, .getFin 8, .closeWait⟩ ?_⟩
  simp only [List.forall_mem_cons, List.not_mem_nil, false_imp_iff, implies_true, and_true]
  refine ⟨?_, ?_, id, id, id, id⟩
  · rintro ⟨-, -, hstores⟩
    revert hstores
    simp only [RecvBuffer.Stores]
    decide
  · intro hfin
    have hfin' : NormalSocket.ProcessesFin 1 .closeWait (.getFin 0 8) := hfin
    cases hfin'

/-- A segment with the number after the FIN: RCV.NXT moves from 1 to 3 in CLOSE_WAIT. -/
theorem not_sameContents :
    ∃ (fin : Step 8 8) (after : List (Step 8 8)) (s : RunningSocket 8 8),
      exampleStream.close = .idle ∧ Trace step exampleStream (fin :: after) s ∧
        ConsumesFin 0 fin ∧ s.sock.state = .closeWait ∧ s.sock.recvBuffer.nxt = 3 ∧
        ¬∀ t ∈ after, t.post.sock.recvBuffer.nxt = 0 + 1 := by
  refine ⟨_, _, _, rfl, .cons (l := .event (.getFin 0 8) 0) rfl
    (.cons (l := .event (.getAck 1 0 8 [7, 7]) 0) rfl (.nil _)), ?_, rfl, by decide, by decide⟩
  exact ⟨.getFin 0 8, 0, rfl, .getFin 8, .closeWait⟩

end RunningSocket

end Tns.Tcp
