import Tns.Tcp.Delivery
import Tns.Tcp.FinWait
import Tns.Tcp.Parties
import Tns.Tcp.RecvInvariant

/-!
# A socket that closes

If the application stops writing before it closes, and closes when everything it
has written has been sent, then the FIN has the number after the last byte, and
nothing is sent after it.  What the peer sends before its FIN moves RCV.NXT to the
number of the FIN at most.
-/

namespace Tns.Tcp

open Tns.Library RetransmissionQueue

/-! ## The receive buffer before the FIN -/

namespace RecvBuffer

variable {N e : ℕ} {b b' : RecvBuffer N}

/-- Nothing from number `e` on has been received. -/
structure Heard (e : ℕ) (b : RecvBuffer N) : Prop where
  nxt : b.nxt.toNat ≤ e
  canonical : Canonical b.earlyArrivals.intervals
  early : ∀ x ∈ cover b.earlyArrivals.intervals, x.toNat < e

namespace Heard

theorem mono {e' : ℕ} (h : Heard e b) (hle : e ≤ e') : Heard e' b :=
  ⟨h.nxt.trans hle, h.canonical, fun x hx ↦ (h.early x hx).trans_le hle⟩

theorem of_eq (h : Heard e b) (hnxt : b'.nxt = b.nxt)
    (hearly : b'.earlyArrivals = b.earlyArrivals) : Heard e b' := by
  refine ⟨?_, ?_, ?_⟩
  · rw [hnxt]
    exact h.nxt
  · rw [hearly]
    exact h.canonical
  · rw [hearly]
    exact h.early

theorem of_shutdown (h : Heard e b) (hb : b' = b ∨ b' = b.shutdown) : Heard e b' := by
  rcases hb with rfl | rfl
  · exact h
  · exact h.of_eq rfl rfl

/-- A segment that ends at number `e` at the latest moves RCV.NXT to `e` at the latest, and the
answer carries RCV.NXT. -/
theorem onRecv {seqNum : UInt32} {payload : List Byte} {r : UInt32 × ℕ} (h : Heard e b)
    (hfits : seqNum.toNat + payload.length ≤ e) (hwrap : e < 2 ^ 32)
    (hrecv : b.onRecv seqNum payload = .ok (r, b')) : Heard e b' ∧ r.1 = b'.nxt := by
  have hstop : ∀ {n : ℕ} {I : RightOpenInterval UInt32}, n ≤ payload.length →
      RightOpenInterval.make seqNum (seqNum + UInt32.ofNat n) = .ok I →
      I.stop.toNat = seqNum.toNat + n := by
    intro n I hn hI
    have hofNat := UInt32.toNat_ofNat_of_lt (n := n) (by omega)
    rw [(RightOpenInterval.make_eq_ok.mp hI).2, UInt32.toNat_add_of_lt (by omega), hofNat]
  obtain ⟨-, ⟨rb, -, -, rfl, rfl⟩ | ⟨n, rb, I, f, early, -, hwrite, hn, hI, hmerge, rfl, rfl⟩ |
    ⟨-, -, rfl, rfl⟩ | ⟨rb, -, -, -, rfl, rfl⟩ |
    ⟨n, rb, I, nxt, early, -, -, hwrite, hn, hI, hmerge, rfl, rfl⟩⟩ := onRecv_cases hrecv
  · exact ⟨⟨h.nxt, h.canonical, h.early⟩, rfl⟩
  · obtain ⟨hcan, hcover⟩ := RightOpenIntervalSet.emplaceMerge_spec h.canonical hmerge
    have hle := hstop (RingBuffer.write_le_length hwrite) hI
    have hlen := RingBuffer.write_le_length hwrite
    refine ⟨⟨h.nxt, hcan, fun x hx ↦ ?_⟩, rfl⟩
    rw [hcover] at hx
    rcases hx with hx | ⟨-, hx⟩
    · exact h.early x hx
    · have := UInt32.lt_iff_toNat_lt.mp hx
      omega
  · exact ⟨h, rfl⟩
  · exact ⟨⟨h.nxt, h.canonical, h.early⟩, rfl⟩
  · obtain ⟨hge, hblock, -, hcan, hsub, -⟩ :=
      RightOpenIntervalSet.mergeRemove_spec h.canonical hmerge
    have hlen := RingBuffer.write_le_length hwrite
    rw [List.length_drop] at hlen
    have hle := hstop (n := n) (by omega) hI
    refine ⟨⟨?_, hcan, fun x hx ↦ h.early x (hsub hx)⟩, rfl⟩
    -- The number before the new RCV.NXT ends the segment or is an early arrival.
    by_contra hgt
    replace hgt : e < nxt.toNat := not_le.mp hgt
    have hlast : (nxt - 1).toNat = nxt.toNat - 1 := by
      rw [UInt32.toNat_sub_of_le _ _ (UInt32.le_iff_toNat_le.mpr (by
        rw [UInt32.toNat_one]
        omega)), UInt32.toNat_one]
    have hmem : nxt - 1 ∈ cover b.earlyArrivals.intervals := by
      apply hblock
      rw [Set.mem_Ico, UInt32.le_iff_toNat_le, UInt32.lt_iff_toNat_lt, hlast]
      omega
    have := h.early _ hmem
    omega

end Heard

/-- A FIN is consumed when it has the number RCV.NXT. -/
theorem ne_nxt_of_onCtrl {seqNum : UInt32} (h : (b.onCtrl seqNum).1.1 ≠ seqNum + 1) :
    seqNum ≠ b.nxt := by
  rintro rfl
  apply h
  simp [onCtrl]

end RecvBuffer

/-! ## What a socket has sent -/

namespace SendBuffer

variable {N : ℕ} {b : SendBuffer N} {P : Packet → Prop}

theorem only_onAck (h : b.retransmitQueue.Only P) (ackNum wndSize : UInt32) (now : TimePoint) :
    (b.onAck ackNum wndSize now).2.2.retransmitQueue.Only P := by
  obtain ⟨z, q, heq, -, hq⟩ := onAck_frame b ackNum wndSize now
  have hwait : q.Only P := by
    rcases hq with rfl | rfl
    · exact h
    · exact h.resetZwpCounter
  rw [heq]
  simp only
  split
  · exact hwait.onAck ackNum now
  · exact hwait

theorem una_onAck_cases (b : SendBuffer N) (ackNum wndSize : UInt32) (now : TimePoint) :
    (b.onAck ackNum wndSize now).2.2.una = b.una ∨
      (b.onAck ackNum wndSize now).2.2.una = ackNum := by
  rw [onAck_una]
  split
  · exact .inr rfl
  · exact .inl rfl

theorem una_onAck_zero (b : SendBuffer N) (wndSize : UInt32) (now : TimePoint) :
    (b.onAck 0 wndSize now).2.2.una = b.una := by
  rw [onAck_una, if_neg]
  rintro ⟨hlt, -⟩
  exact absurd (UInt32.lt_iff_toNat_lt.mp hlt) (Nat.not_lt_zero _)

end SendBuffer

namespace NormalSocket

variable {M N : ℕ} {s s' : NormalSocket M N} {actions : List Action}

theorem packetsOf_vCloseState {next : Except (Except SocketError Unit) State}
    (h : s.vCloseState = (next, actions, s')) : packetsOf actions = [] := by
  unfold vCloseState at h
  split at h <;> simp only [Prod.mk.injEq] at h <;> obtain ⟨-, rfl, -⟩ := h <;> rfl

theorem queue_vCloseState {next : Except (Except SocketError Unit) State}
    (h : s.vCloseState = (next, actions, s')) :
    s'.sendBuffer.retransmitQueue = s.sendBuffer.retransmitQueue := by
  unfold vCloseState at h
  split at h <;> simp only [Prod.mk.injEq] at h <;> obtain ⟨-, -, rfl⟩ := h <;> rfl

/-! ### Events -/

variable {now : TimePoint} {seqNum ackNum : UInt32} {wndSize : UInt16} {payload : List Byte}

/-- What a segment does to a socket after its handshake. -/
theorem getAck_cases (hopen : ∀ lSock, s.state ≠ .synReceived lSock)
    (h : s.eventHandler (.getAck seqNum ackNum wndSize payload) now = .ok (actions, s')) :
    (s'.sendBuffer = s.sendBuffer ∨
        s'.sendBuffer = (s.sendBuffer.onAck ackNum wndSize.toUInt32 now).2.2 ∨
        s'.sendBuffer = (s.sendBuffer.onAck ackNum wndSize.toUInt32 now).2.2.shutdown.2) ∧
      ((s'.recvBuffer = s.recvBuffer ∨ s'.recvBuffer = s.recvBuffer.shutdown) ∧
          packetsOf actions = [] ∨
        ∃ r, payload ≠ [] ∧ s.recvBuffer.onRecv seqNum payload = .ok (r, s'.recvBuffer) ∧
          packetsOf actions = [.makeAckPacket s.sendBuffer.nxt r.1 (UInt16.ofNat r.2)]) ∧
      (s'.state = s.state ∨ s'.state = .closed ∨
        s.state = .finWait1 ∧ s'.state = .finWait2 ∧
          s'.sendBuffer.una = s'.sendBuffer.nxt) := by
  have hprocess : ∀ {actions : List Action} {s' : NormalSocket M N},
      s.processAck seqNum ackNum wndSize payload now = .ok (actions, s') →
      s'.sendBuffer = (s.sendBuffer.onAck ackNum wndSize.toUInt32 now).2.2 ∧
        ((s'.recvBuffer = s.recvBuffer ∨ s'.recvBuffer = s.recvBuffer.shutdown) ∧
            packetsOf actions = [] ∨
          ∃ r, payload ≠ [] ∧ s.recvBuffer.onRecv seqNum payload = .ok (r, s'.recvBuffer) ∧
            packetsOf actions = [.makeAckPacket s.sendBuffer.nxt r.1 (UInt16.ofNat r.2)]) ∧
        s'.state = s.state := by
    intro actions s' h
    rcases processAck_cases h with ⟨-, rfl, rfl⟩ | ⟨r, b, hrecv, rfl, rfl⟩
    · exact ⟨rfl, .inl ⟨.inl rfl, rfl⟩, rfl⟩
    · refine ⟨rfl, .inr ⟨r, (RecvBuffer.onRecv_cases hrecv).1, hrecv, ?_⟩, rfl⟩
      simp [packetsOf, SendBuffer.onAck_result]
  cases hstate : s.state with
  | synReceived lSock => exact absurd hstate (hopen lSock)
  | established =>
      simp only [eventHandler, hstate, handleEstablishedGetAck] at h
      obtain ⟨hsend, hrecv, hsame⟩ := hprocess h
      exact ⟨.inr (.inl hsend), hrecv, .inl (hsame.trans hstate)⟩
  | closeWait =>
      simp only [eventHandler, hstate, handleCloseWaitGetAck] at h
      obtain ⟨hsend, hrecv, hsame⟩ := hprocess h
      exact ⟨.inr (.inl hsend), hrecv, .inl (hsame.trans hstate)⟩
  | finWait2 =>
      simp only [eventHandler, hstate, handleFinWait2GetAck] at h
      obtain ⟨hsend, hrecv, hsame⟩ := hprocess h
      exact ⟨.inr (.inl hsend), hrecv, .inl (hsame.trans hstate)⟩
  | finWait1 =>
      simp only [eventHandler, hstate, handleFinWait1GetAck, SendBuffer.onAck_result] at h
      split at h
      · rename_i hne
        simp only [Exec.bind_eq_ok, Exec.pure_eq_ok, Prod.mk.injEq] at h
        obtain ⟨⟨r, b⟩, hrecv, rfl, rfl⟩ := h
        exact ⟨.inr (.inl rfl), .inr ⟨r, hne, hrecv, by simp [packetsOf]⟩, .inl rfl⟩
      · split at h <;> rename_i hack <;> simp only [Exec.pure_eq_ok, Prod.mk.injEq] at h <;>
          obtain ⟨rfl, rfl⟩ := h
        · exact ⟨.inr (.inl rfl), .inl ⟨.inl rfl, rfl⟩, .inl rfl⟩
        · refine ⟨.inr (.inl rfl), .inl ⟨.inl rfl, rfl⟩, .inr (.inr ⟨rfl, rfl, ?_⟩)⟩
          by_contra hne
          exact hack (.inr hne)
  | lastAck =>
      simp only [eventHandler, hstate, handleLastAckGetAck] at h
      split at h <;> simp only [Except.ok.injEq, Prod.mk.injEq] at h <;> obtain ⟨rfl, rfl⟩ := h
      · exact ⟨.inr (.inl rfl), .inl ⟨.inl rfl, rfl⟩, .inl rfl⟩
      · exact ⟨.inr (.inr rfl), .inl ⟨.inr rfl, rfl⟩, .inr (.inl rfl)⟩
  | _ =>
      simp only [eventHandler, hstate, Except.ok.injEq, Prod.mk.injEq] at h
      obtain ⟨rfl, rfl⟩ := h
      exact ⟨.inl rfl, .inl ⟨.inl rfl, rfl⟩, .inl hstate⟩

/-- What a FIN does to a socket: it is ignored, or answered with RCV.NXT after it, and consumed
if that is the number after the FIN. -/
theorem getFin_cases (h : s.eventHandler (.getFin seqNum wndSize) now = .ok (actions, s')) :
    (s' = s ∧ packetsOf actions = []) ∨
      (s'.sendBuffer = (s.sendBuffer.onAck 0 wndSize.toUInt32 now).2.2 ∧
        (s'.recvBuffer = (s.recvBuffer.onCtrl seqNum).2 ∨
          s'.recvBuffer = (s.recvBuffer.onCtrl seqNum).2.shutdown) ∧
        packetsOf actions = [.makeAckPacket s.sendBuffer.nxt (s.recvBuffer.onCtrl seqNum).1.1
          (UInt16.ofNat (s.recvBuffer.onCtrl seqNum).1.2)] ∧
        (s'.state = s.state ∧
            (s.state.HasTaken ∨ (s.recvBuffer.onCtrl seqNum).1.1 ≠ seqNum + 1) ∨
          (s.recvBuffer.onCtrl seqNum).1.1 = seqNum + 1 ∧
            (s.state = .established ∧ s'.state = .closeWait ∨
              s.state = .finWait2 ∧ s'.state = .timeWait now))) := by
  have hpackets : packetsOf [Action.sendPacket (.makeAckPacket
        (s.sendBuffer.onAck 0 wndSize.toUInt32 now).1.2 (s.recvBuffer.onCtrl seqNum).1.1
        (UInt16.ofNat (s.recvBuffer.onCtrl seqNum).1.2))] =
      [.makeAckPacket s.sendBuffer.nxt (s.recvBuffer.onCtrl seqNum).1.1
        (UInt16.ofNat (s.recvBuffer.onCtrl seqNum).1.2)] := by
    simp [packetsOf, SendBuffer.onAck_result]
  cases hstate : s.state with
  | established =>
      simp only [eventHandler, hstate, handleEstablishedGetFin, processFin] at h
      split at h <;> rename_i hack <;> simp only [Except.ok.injEq, Prod.mk.injEq] at h <;>
        obtain ⟨rfl, rfl⟩ := h
      · exact .inr ⟨rfl, .inr rfl, hpackets, .inr ⟨hack, .inl ⟨rfl, rfl⟩⟩⟩
      · exact .inr ⟨rfl, .inl rfl, hpackets, .inl ⟨rfl, .inr hack⟩⟩
  | closeWait =>
      simp only [eventHandler, hstate, handleCloseWaitGetFin, processFin, Except.ok.injEq,
        Prod.mk.injEq] at h
      obtain ⟨rfl, rfl⟩ := h
      exact .inr ⟨rfl, .inl rfl, hpackets, .inl ⟨rfl, .inl trivial⟩⟩
  | finWait2 =>
      simp only [eventHandler, hstate, handleFinWait2GetFin, processFin] at h
      split at h <;> rename_i hack <;> simp only [Except.ok.injEq, Prod.mk.injEq] at h <;>
        obtain ⟨rfl, rfl⟩ := h
      · exact .inr ⟨rfl, .inl rfl, hpackets, .inr ⟨hack, .inr ⟨rfl, rfl⟩⟩⟩
      · exact .inr ⟨rfl, .inl rfl, hpackets, .inl ⟨rfl, .inr hack⟩⟩
  | timeWait time =>
      simp only [eventHandler, hstate, handleTimeWaitGetFin, processFin, Except.ok.injEq,
        Prod.mk.injEq] at h
      obtain ⟨rfl, rfl⟩ := h
      exact .inr ⟨rfl, .inl rfl, hpackets, .inl ⟨rfl, .inl trivial⟩⟩
  | _ =>
      simp only [eventHandler, hstate, Except.ok.injEq, Prod.mk.injEq] at h
      obtain ⟨rfl, rfl⟩ := h
      exact .inl ⟨rfl, rfl⟩

end NormalSocket

/-- The FIN has been given its number, so SND.NXT is the number after it. -/
def CloseThread.finTaken : CloseThread → Bool
  | .taken _ _ _ | .finished (.ok _) => true
  | _ => false

/-- The number of the FIN has been read: no data may be sent from here on. -/
def CloseThread.isNumbered : CloseThread → Bool
  | .numbered _ _ _ | .taken _ _ _ | .finished (.ok _) => true
  | _ => false

instance CloseThread.decidableIdle (close : CloseThread) : Decidable (close = .idle) :=
  match close with
  | .idle => isTrue rfl
  | .closing _ | .numbered .. | .taken .. | .finished _ => isFalse nofun

theorem CloseThread.isNumbered_of_finTaken {close : CloseThread} (h : close.finTaken = true) :
    close.isNumbered = true := by
  unfold finTaken at h
  split at h
  · rfl
  · rfl
  · cases h

namespace RunningSocket

variable {M N : ℕ} {s s' : RunningSocket M N}

/-- `vClose` has sent the FIN. -/
def SentFin (s : RunningSocket M N) : Prop := s.close = .finished (.ok ())

theorem SentFin.finTaken (h : SentFin s) : s.close.finTaken = true := by
  rw [h]
  rfl

/-- The number after the last byte that has been sent, which is that of the FIN. -/
def dataEnd (s : RunningSocket M N) : ℕ :=
  s.sock.sendBuffer.nxt.toNat - if s.close.finTaken then 1 else 0

/-- A section that an application without races may take: it writes before it calls `vClose`
only, the FIN gets its number when everything accepted has been sent, and the state that
`vClose` has tested is still the one it leaves. -/
def Orderly (s : RunningSocket M N) : PartyCall → Prop
  | .thread (.vSend _) | .thread (.write _) => s.close = .idle
  | .thread .getNxt => s.sock.sendBuffer.nxt = s.sock.sendBuffer.nbw
  | .thread (.sendFin _) => ∀ next, s.close.next = some next → s.sock.state.Drawn next
  | _ => True

instance (s : RunningSocket M N) : DecidablePred (Orderly s)
  | .thread (.vSend _) | .thread (.write _) => inferInstanceAs (Decidable (s.close = .idle))
  | .thread .getNxt =>
      inferInstanceAs (Decidable (s.sock.sendBuffer.nxt = s.sock.sendBuffer.nbw))
  | .thread (.sendFin _) =>
      inferInstanceAs (Decidable (∀ next ∈ s.close.next, s.sock.state.Drawn next))
  | .thread (.vRecv ..) | .thread (.sendReadyData _) | .thread .getAckWnd | .thread (.sendSegment _)
  | .thread (.zwp ..) | .thread (.retransmit ..) | .thread (.event ..) | .thread .vClose
  | .thread .writeAndSendOne | .thread .vAbort | .deliver .. => isTrue trivial

/-- The pointers of a socket that numbers its stream from `start` on. -/
structure Numbered (start : ℕ) (s : RunningSocket M N) : Prop where
  ordered : s.sock.sendBuffer.Ordered
  nbw : s.sock.sendBuffer.nbw.toNat = start + s.accepted.length + if s.close.finTaken then 1 else 0
  sent : s.close.isNumbered = true → s.sock.sendBuffer.nxt = s.sock.sendBuffer.nbw
  seq : ∀ next seq wnd, s.close = .numbered next seq wnd → seq = s.sock.sendBuffer.nxt
  fin : ∀ next seq wnd, s.close = .taken next seq wnd → seq.toNat = s.dataEnd

/-- The state of a socket that has been established, and where its `vClose` is. -/
structure Stands (s : RunningSocket M N) : Prop where
  lives : Lives s
  opened : s.sock.state ≠ .synSent ∧ ∀ lSock, s.sock.state ≠ .synReceived lSock
  refused : ∀ e, s.close = .finished (.error e) → s.sock.state = .closed

/-- From one section to the next, the numbers sent grow, and those of the FIN stay. -/
structure Grows (s s' : RunningSocket M N) : Prop where
  dataEnd : s.dataEnd ≤ s'.dataEnd
  finTaken : s.close.finTaken = true → s'.close.finTaken = true ∧ s'.dataEnd = s.dataEnd
  sentFin : SentFin s → SentFin s'

theorem Grows.of_eq (hnxt : s'.sock.sendBuffer.nxt = s.sock.sendBuffer.nxt)
    (hclose : s'.close = s.close) : Grows s s' := by
  have htaken : s'.close.finTaken = s.close.finTaken := by rw [hclose]
  have hend : s'.dataEnd = s.dataEnd := by
    rw [RunningSocket.dataEnd, hnxt, htaken, RunningSocket.dataEnd]
  exact ⟨hend.ge, fun h ↦ ⟨htaken.trans h, hend⟩, fun h ↦ hclose.trans h⟩

/-- No transition leads back to the handshake. -/
theorem Follows.opened {state state' : State} (h : Follows state state')
    (hopen : state ≠ .synSent ∧ ∀ lSock, state ≠ .synReceived lSock) :
    state' ≠ .synSent ∧ ∀ lSock, state' ≠ .synReceived lSock := by
  rcases h with rfl | hdrawn | hover
  · exact hopen
  · cases hdrawn <;> simp
  · cases hover <;> simp

namespace Stands

/-- The states after the FIN are reached by sending it. -/
theorem sentFin (h : Stands s) (hstate : ¬s.sock.state.NotClosed) : SentFin s := by
  cases hclose : s.close with
  | idle => exact absurd (h.lives.idle hclose) hstate
  | finished r =>
      cases r with
      | ok u => exact hclose
      | error e =>
          rw [h.refused e hclose] at hstate
          exact absurd trivial hstate
  | _ =>
      rcases h.lives.pending _ (by rw [hclose]; rfl) with ⟨-, hopen, -⟩ | ⟨-, heq | heq⟩
      · exact absurd hopen hstate
      · rw [heq] at hstate
        exact absurd trivial hstate
      · rw [heq] at hstate
        exact absurd trivial hstate

theorem afterFin (h : Stands s) (hsent : SentFin s) : s.sock.state.AfterFin :=
  h.lives.finished _ hsent

theorem step {l : SocketCall} {out : SocketReturn} (h : Stands s) (hsteps : Steps s l out s') :
    Stands s' := by
  obtain ⟨hlives, hfollows⟩ := h.lives.step hsteps
  refine ⟨hlives, hfollows.opened h.opened, fun e he ↦ ?_⟩
  rcases hsteps.state_cases with ⟨hclose, hstate⟩ | ⟨next, -, hpost, -⟩ |
    ⟨hidle, r, -, hr, hsock⟩ | ⟨-, next, hpost, -, -⟩ | ⟨next, -, hpost, -⟩
  · have hclosed := h.refused e (hclose ▸ he)
    rcases hstate with hsame | ⟨hdrawn, -⟩
    · exact hsame.trans hclosed
    · rw [hclosed] at hdrawn
      generalize s'.sock.state = state' at hdrawn
      cases hdrawn
      rfl
  · rw [he] at hpost
    cases hpost
  · rw [hsock]
    exact Lives.closed_of_vCloseState (h.lives.idle hidle) hr
  · rw [he] at hpost
    cases hpost
  · rw [he] at hpost
    cases hpost

/-- In an established connection `vClose` is refused only if the socket is closed. -/
theorem vCloseAtOnce {r : Except SocketError Unit} {actions : List Action}
    {sock : NormalSocket M N} (h : Stands s) (hidle : s.close = .idle)
    (hstate : s.sock.vCloseState = (.error r, actions, sock)) :
    (∃ e, r = .error e) ∧ sock = s.sock := by
  have hopen := h.lives.idle hidle
  unfold NormalSocket.vCloseState at hstate
  split at hstate <;> rename_i heq <;>
    simp only [Prod.mk.injEq, Except.error.injEq, reduceCtorEq, false_and] at hstate
  · exact absurd heq h.opened.1
  · obtain ⟨rfl, -, rfl⟩ := hstate
    exact ⟨⟨_, rfl⟩, rfl⟩
  all_goals
    rw [heq] at hopen
    exact hopen.elim

end Stands

/-! ## The threads -/

section Thread

variable {start : ℕ} {l : SocketCall} {out : SocketReturn}

/-- A thread other than those that handle events leaves SND.UNA and what has been received. -/
theorem Steps.frame (h : Steps s l out s') (hl : IsEvent l = false) :
    s'.sock.sendBuffer.una = s.sock.sendBuffer.una ∧
      s'.sock.recvBuffer.nxt = s.sock.recvBuffer.nxt ∧
      s'.sock.recvBuffer.earlyArrivals = s.sock.recvBuffer.earlyArrivals := by
  have hwrites : ∀ {data : List Byte} {r : Except SocketError ℕ} {wakes : List CondVar}
      {b : SendBuffer M}, s.sock.sendBuffer.write data = .ok (r, wakes, b) →
      b.una = s.sock.sendBuffer.una := by
    intro data r wakes b hwrite
    rcases SendBuffer.write_cases hwrite with ⟨-, -, -, rfl⟩ | ⟨-, -, n, rb, -, -, -, rfl⟩
    · rfl
    · rfl
  have haborts : ∀ {sock : NormalSocket M N} {result : SynAckResult},
      sock = ({ s.sock with result }.shutdown).setState .closed →
      sock.sendBuffer.una = s.sock.sendBuffer.una ∧
        sock.recvBuffer.nxt = s.sock.recvBuffer.nxt ∧
        sock.recvBuffer.earlyArrivals = s.sock.recvBuffer.earlyArrivals := by
    rintro sock result rfl
    exact ⟨rfl, rfl, rfl⟩
  cases h with
  | event => cases hl
  | vSend data r wakes b hwrite => exact ⟨hwrites hwrite, rfl, rfl⟩
  | write data r wakes b hwrite => exact ⟨hwrites hwrite, rfl, rfl⟩
  | vRecv buffSize n r b _ hread =>
      rcases RecvBuffer.readAtMostNBytes_cases hread with ⟨-, -, rfl⟩ | ⟨-, -, -, rfl⟩ |
        ⟨-, -, -, data, -, -, -, rfl⟩
      · exact ⟨rfl, rfl, rfl⟩
      · exact ⟨rfl, rfl, rfl⟩
      · exact ⟨rfl, rfl, rfl⟩
  | sendReadyData buffSize r b hsend =>
      rcases SendBuffer.sendReadyData_cases hsend with ⟨-, -, rfl⟩ | ⟨-, -, data, -, -, -, rfl⟩
      · exact ⟨rfl, rfl, rfl⟩
      · exact ⟨rfl, rfl, rfl⟩
  | zwp timeout now thread b hzwp =>
      rcases SendBuffer.zwpStep_cases hzwp with ⟨-, z, rfl⟩ | ⟨-, -, -, data, -, hprobe, -⟩
      · exact ⟨rfl, rfl, rfl⟩
      · cases hprobe
  | probe timeout now thread b seq data packet q hzwp =>
      rcases SendBuffer.zwpStep_cases hzwp with ⟨hprobe, -⟩ | ⟨-, -, -, x, -, -, -, rfl⟩
      · cases hprobe
      · exact ⟨rfl, rfl, rfl⟩
  | retransmit edge now =>
      obtain ⟨q, -, heq | ⟨result, heq⟩⟩ := s.sock.retransmitExpired_cases edge now <;>
        rw [heq] <;> exact ⟨rfl, rfl, rfl⟩
  | vCloseAtOnce r actions sock hclose hstate =>
      obtain rfl | ⟨result, heq⟩ := NormalSocket.vCloseState_error hstate
      · exact ⟨rfl, rfl, rfl⟩
      · exact haborts heq
  | vAbort =>
      rcases s.sock.vAbort_cases with heq | ⟨result, heq⟩
      · simp [heq]
      · exact haborts heq
  | _ => exact ⟨rfl, rfl, rfl⟩

/-- Such a thread leaves the state, aborts the connection, or ends a close. -/
theorem Steps.state_of_thread (h : Steps s l out s') (hl : IsEvent l = false) :
    s'.sock.state = s.sock.state ∨ s'.sock.state = .closed ∨
      ∃ now next, l = .sendFin now ∧ s.close.next = some next ∧ s'.sock.state = next := by
  cases h with
  | event => cases hl
  | retransmit edge now =>
      obtain ⟨q, -, heq | ⟨result, heq⟩⟩ := s.sock.retransmitExpired_cases edge now
      · exact .inl (congrArg (·.state) heq)
      · exact .inr (.inl (congrArg (·.state) heq))
  | vCloseAtOnce r actions sock hclose hstate =>
      obtain rfl | ⟨result, rfl⟩ := NormalSocket.vCloseState_error hstate
      · exact .inl rfl
      · exact .inr (.inl rfl)
  | vAbort => exact .inr (.inl s.sock.vAbort_state)
  | sendFin now next _ _ _ _ hclose =>
      exact .inr (.inr ⟨now, next, rfl, by rw [hclose]; rfl, rfl⟩)
  | _ => exact .inl rfl

/-- A thread sends packets that wait in the queue, the segment in its hand, a probe or a FIN. -/
theorem Steps.sends {P : Packet → Prop} (h : Steps s l out s') (hl : IsEvent l = false)
    (hqueue : s.sock.sendBuffer.retransmitQueue.Only P)
    (hready : ∀ seq data ack wnd, s.sender = .ready seq data ack wnd →
      P (.makeAckPacket seq ack (UInt16.ofNat wnd) data))
    (hprobe : ∀ timeout thread b seq data,
      s.sock.sendBuffer.zwpStep s.zwp timeout = .ok (some (seq, data), thread, b) →
      s'.sock.sendBuffer.nxt = b.nxt → s'.close = s.close →
      P (.makeAckPacket seq s.sock.recvBuffer.nxt (UInt16.ofNat s.sock.recvBuffer.sizeFree) [data]))
    (hfin : ∀ next seq wnd, s.close = .taken next seq wnd → SentFin s' →
      P (.makeFinPacket seq wnd)) :
    s'.sock.sendBuffer.retransmitQueue.Only P ∧ ∀ packet ∈ packetsOf out.actions, P packet := by
  have hnone : ∀ packet ∈ packetsOf ([] : List Action), P packet := by simp [packetsOf]
  cases h with
  | event => cases hl
  | vSend data r wakes b hwrite =>
      rcases SendBuffer.write_cases hwrite with ⟨-, -, -, rfl⟩ | ⟨-, -, n, rb, -, -, -, rfl⟩
      · exact ⟨hqueue, hnone⟩
      · exact ⟨hqueue, hnone⟩
  | write data r wakes b hwrite =>
      rcases SendBuffer.write_cases hwrite with ⟨-, -, -, rfl⟩ | ⟨-, -, n, rb, -, -, -, rfl⟩
      · exact ⟨hqueue, hnone⟩
      · exact ⟨hqueue, hnone⟩
  | sendReadyData buffSize r b hsend =>
      rcases SendBuffer.sendReadyData_cases hsend with ⟨-, -, rfl⟩ | ⟨-, -, data, -, -, -, rfl⟩
      · exact ⟨hqueue, hnone⟩
      · exact ⟨hqueue, hnone⟩
  | sendSegment now seq data ack wnd packet q hsender hpacket henq =>
      have hP : P packet := hpacket ▸ hready seq data ack wnd hsender
      exact ⟨hqueue.enqueue hP henq, by simpa [packetsOf] using hP⟩
  | zwp timeout now thread b hzwp =>
      rcases SendBuffer.zwpStep_cases hzwp with ⟨-, z, rfl⟩ | ⟨-, -, -, data, -, hsome, -⟩
      · exact ⟨hqueue, hnone⟩
      · cases hsome
  | probe timeout now thread b seq data packet q hzwp hpacket henq =>
      have hP : P packet := hpacket ▸ hprobe timeout thread b seq data hzwp rfl rfl
      rcases SendBuffer.zwpStep_cases hzwp with ⟨hnot, -⟩ | ⟨-, -, -, x, -, -, -, rfl⟩
      · cases hnot
      · exact ⟨hqueue.enqueueZwp hP henq, by simpa [packetsOf] using hP⟩
  | retransmit edge now =>
      refine ⟨?_, NormalSocket.packetsOf_retransmitExpired hqueue edge now⟩
      obtain ⟨hkept, -⟩ := hqueue.getExpiredEntries edge now
      obtain ⟨q, rfl, heq | ⟨result, heq⟩⟩ := s.sock.retransmitExpired_cases edge now <;>
        rw [heq] <;> exact hkept
  | vCloseAtOnce r actions sock hclose hstate =>
      rw [NormalSocket.packetsOf_vCloseState hstate]
      exact ⟨NormalSocket.queue_vCloseState hstate ▸ hqueue, hnone⟩
  | vClose next actions hclose hstate =>
      rw [NormalSocket.packetsOf_vCloseState hstate]
      exact ⟨hqueue, hnone⟩
  | sendFin now next seq wnd packet q hclose hpacket henq =>
      have hP : P packet := hpacket ▸ hfin next seq wnd hclose rfl
      exact ⟨hqueue.enqueue hP henq, by simpa [packetsOf] using hP⟩
  | vAbort =>
      refine ⟨?_, hnone⟩
      rcases s.sock.vAbort_cases with heq | ⟨result, heq⟩ <;> rw [heq] <;> exact hqueue
  | _ => exact ⟨hqueue, hnone⟩

theorem Steps.sender_cases (h : Steps s l out s') :
    s'.sender = s.sender ∨ s'.sender = .waiting ∨ s'.sender = .exited ∨
      (∃ seq data, s.sender = .segment seq data ∧
        s'.sender = .ready seq data s.sock.recvBuffer.nxt s.sock.recvBuffer.sizeFree) ∨
      ∃ buffSize seq data, s'.sender = .segment seq data ∧ s'.close = s.close ∧
        s.sock.sendBuffer.sendReadyData buffSize =
          .ok (.ok (seq, data), s'.sock.sendBuffer) := by
  cases h with
  | sendReadyData buffSize r b hsend =>
      cases r with
      | error e => exact .inr (.inr (.inl rfl))
      | ok segment =>
          exact .inr (.inr (.inr (.inr ⟨buffSize, segment.1, segment.2, rfl, rfl, hsend⟩)))
  | getAckWnd seq data hsender => exact .inr (.inr (.inr (.inl ⟨seq, data, hsender, rfl⟩)))
  | sendSegment => exact .inr (.inl rfl)
  | _ => exact .inl rfl

/-- A section that leaves SND.NXT, SND.NBW and the stream, and the number of the FIN. -/
theorem Numbered.keep (h : Numbered start s) (hord : s'.sock.sendBuffer.Ordered)
    (hnxt : s'.sock.sendBuffer.nxt = s.sock.sendBuffer.nxt)
    (hnbw : s'.sock.sendBuffer.nbw = s.sock.sendBuffer.nbw) (hacc : s'.accepted = s.accepted)
    (htaken : s'.close.finTaken = s.close.finTaken)
    (hsent : s'.close.isNumbered = true → s.sock.sendBuffer.nxt = s.sock.sendBuffer.nbw)
    (hseq : ∀ next seq wnd, s'.close = .numbered next seq wnd → seq = s.sock.sendBuffer.nxt)
    (hfin : ∀ next seq wnd, s'.close = .taken next seq wnd → seq.toNat = s.dataEnd)
    (hclosed : SentFin s → SentFin s') : Numbered start s' ∧ Grows s s' := by
  have hend : s'.dataEnd = s.dataEnd := by rw [dataEnd, hnxt, htaken, dataEnd]
  refine ⟨⟨hord, ?_, ?_, ?_, ?_⟩, ⟨hend.ge, ?_, hclosed⟩⟩
  · rw [hnbw, hacc, htaken]
    exact h.nbw
  · rw [hnxt, hnbw]
    exact hsent
  · rw [hnxt]
    exact hseq
  · rw [hend]
    exact hfin
  · exact fun h ↦ ⟨htaken.trans h, hend⟩

/-- A section that leaves these and the thread that closes. -/
theorem Numbered.of_nxt_eq (h : Numbered start s) (hord : s'.sock.sendBuffer.Ordered)
    (hnxt : s'.sock.sendBuffer.nxt = s.sock.sendBuffer.nxt)
    (hnbw : s'.sock.sendBuffer.nbw = s.sock.sendBuffer.nbw) (hclose : s'.close = s.close)
    (hacc : s'.accepted = s.accepted) : Numbered start s' ∧ Grows s s' := by
  refine h.keep hord hnxt hnbw hacc (by rw [hclose]) ?_ ?_ ?_ fun hsent ↦ hclose.trans hsent
  · rw [hclose]
    exact h.sent
  · rw [hclose]
    exact h.seq
  · rw [hclose]
    exact h.fin

theorem Numbered.of_eq (h : Numbered start s)
    (hsame : s'.sock.sendBuffer.SamePointers s.sock.sendBuffer) (hclose : s'.close = s.close)
    (hacc : s'.accepted = s.accepted) : Numbered start s' ∧ Grows s s' :=
  h.of_nxt_eq (h.ordered.of_samePointers hsame) hsame.nxt hsame.nbw hclose hacc

/-- A write before `vClose` moves SND.NBW only. -/
theorem Numbered.write {data : List Byte} {r : Except SocketError ℕ} {wakes : List CondVar}
    {b : SendBuffer M} (h : Numbered start s) (hidle : s.close = .idle)
    (hwrite : s.sock.sendBuffer.write data = .ok (r, wakes, b))
    (hwrap : start + (s.accepted ++ acceptedOf data r).length + 1 < 2 ^ 32) :
    Numbered start { s.withSend b with accepted := s.accepted ++ acceptedOf data r } ∧
      Grows s { s.withSend b with accepted := s.accepted ++ acceptedOf data r } := by
  have htaken : s.close.finTaken = false := by rw [hidle]; rfl
  have hnumbered : s.close.isNumbered = false := by rw [hidle]; rfl
  have hnbw := h.nbw
  rw [htaken] at hnbw
  cases r with
  | error e =>
      rcases SendBuffer.write_cases hwrite with ⟨-, -, -, rfl⟩ | ⟨-, -, n, rb, -, hr, -⟩
      · exact h.of_eq (.refl _) rfl (List.append_nil _)
      · cases hr
  | ok n =>
      have hlen : (data.take n).length = n := by
        rw [List.length_take, min_eq_left (SendBuffer.write_le_length hwrite)]
      simp only [acceptedOf, List.length_append, hlen] at hwrap ⊢
      obtain ⟨hnbw', hord, rb, rfl⟩ := h.ordered.write (by simp at hnbw; omega) hwrite
      refine ⟨⟨hord, ?_, ?_, ?_, ?_⟩, .of_eq rfl rfl⟩
      · simp only [withSend, hnbw', hnbw, htaken, List.length_append, hlen, Bool.false_eq_true,
          if_false]
        omega
      · exact fun hnum ↦ absurd hnum (by simp [withSend, hnumbered])
      · intro _ _ _ heq
        rw [show s.close = .numbered _ _ _ from heq] at hidle
        cases hidle
      · intro _ _ _ heq
        rw [show s.close = .taken _ _ _ from heq] at hidle
        cases hidle

/-- While bytes are unsent the FIN has no number. -/
theorem Numbered.finTaken_of_lt (h : Numbered start s)
    (hlt : s.sock.sendBuffer.nxt.toNat < s.sock.sendBuffer.nbw.toNat) :
    s.close.isNumbered = false ∧ s.close.finTaken = false := by
  have hnumbered : s.close.isNumbered = false := by
    by_contra hnum
    have hsent := h.sent (by simpa using hnum)
    rw [hsent] at hlt
    exact lt_irrefl _ hlt
  refine ⟨hnumbered, ?_⟩
  by_contra htaken
  rw [CloseThread.isNumbered_of_finTaken (by simpa using htaken)] at hnumbered
  cases hnumbered

variable (s') in
/-- Bytes are sent before the FIN has its number only. -/
theorem Numbered.sent_more {b : SendBuffer M} (h : Numbered start s)
    (hlt : s.sock.sendBuffer.nxt.toNat < s.sock.sendBuffer.nbw.toNat) (hord : b.Ordered)
    (hnbw : b.nbw = s.sock.sendBuffer.nbw) (hle : s.sock.sendBuffer.nxt.toNat ≤ b.nxt.toNat)
    (hb : s'.sock.sendBuffer = b) (hclose : s'.close = s.close) (hacc : s'.accepted = s.accepted) :
    Numbered start s' ∧ Grows s s' := by
  obtain ⟨hnumbered, htaken⟩ := h.finTaken_of_lt hlt
  have hend : s'.dataEnd = b.nxt.toNat := by simp [dataEnd, hclose, htaken, hb]
  have hend' : s.dataEnd = s.sock.sendBuffer.nxt.toNat := by simp [dataEnd, htaken]
  refine ⟨⟨hb ▸ hord, ?_, ?_, ?_, ?_⟩, ⟨?_, ?_, ?_⟩⟩
  · rw [hb, hnbw, hacc, hclose]
    exact h.nbw
  · intro hnum
    rw [hclose, hnumbered] at hnum
    cases hnum
  · intro _ _ _ heq
    rw [hclose] at heq
    rw [heq] at hnumbered
    cases hnumbered
  · intro _ _ _ heq
    rw [hclose] at heq
    rw [heq] at hnumbered
    cases hnumbered
  · rw [hend, hend']
    exact hle
  · intro htaken'
    rw [htaken] at htaken'
    cases htaken'
  · exact fun hsent ↦ hclose.trans hsent

/-- A thread in its turn keeps the numbers in order, and what it takes to send from the buffer
ends before the FIN. -/
theorem Numbered.step (h : Numbered start s) (hstands : Stands s) (hsteps : Steps s l out s')
    (hl : IsEvent l = false) (hturn : Orderly s (.thread l))
    (hwrap : start + s'.accepted.length + 1 < 2 ^ 32) : Numbered start s' ∧ Grows s s' := by
  cases hsteps with
  | event => cases hl
  | refuseSend => exact h.of_eq (.refl _) rfl rfl
  | vSend data r wakes b hwrite => exact h.write hturn hwrite hwrap
  | write data r wakes b hwrite => exact h.write hturn hwrite hwrap
  | refuseRecv => exact h.of_eq (.refl _) rfl rfl
  | vRecv => exact h.of_eq (.refl _) rfl rfl
  | sendReadyData buffSize r b hsend =>
      cases r with
      | error e =>
          rcases SendBuffer.sendReadyData_cases hsend with ⟨-, -, rfl⟩ | ⟨-, -, data, -, -, hr, -⟩
          · exact h.of_eq (.refl _) rfl rfl
          · cases hr
      | ok segment =>
          obtain ⟨seq, data⟩ := segment
          obtain ⟨-, hlen, -, -, hnxt, -, hord, rfl⟩ := h.ordered.sendReadyData hsend
          rcases SendBuffer.sendReadyData_cases hsend with ⟨-, hr, -⟩ | ⟨-, hpos, -⟩
          · cases hr
          have hcan := h.ordered.sizeCanSend_eq
          exact h.sent_more { s.withSend _ with sender := handOf (.ok (seq, data)) } (by omega) hord
            rfl (by omega) rfl rfl rfl
  | getAckWnd => exact h.of_eq (.refl _) rfl rfl
  | sendSegment => exact h.of_eq ⟨rfl, rfl, rfl⟩ rfl rfl
  | zwp timeout now thread b hzwp =>
      obtain ⟨-, ⟨-, z, rfl⟩ | ⟨-, -, data, z, -, hsome, -⟩⟩ := h.ordered.zwpStep hzwp
      · exact h.of_eq ⟨rfl, rfl, rfl⟩ rfl rfl
      · cases hsome
  | probe timeout now thread b seq data packet q hzwp =>
      obtain ⟨hord, ⟨hnone, -⟩ | ⟨hlt, hnxt, x, z, -, -, rfl⟩⟩ := h.ordered.zwpStep hzwp
      · cases hnone
      exact h.sent_more
        { s.withSend { s.sock.sendBuffer with
          zwp := z, nxt := s.sock.sendBuffer.nxt + 1, retransmitQueue := q } with zwp := thread }
        hlt (b := { s.sock.sendBuffer with
          zwp := z, nxt := s.sock.sendBuffer.nxt + 1, retransmitQueue := q })
        (hord.of_samePointers ⟨rfl, rfl, rfl⟩) rfl (by simp only [hnxt]; omega) rfl rfl rfl
  | retransmit edge now =>
      obtain ⟨q, -, heq | ⟨result, heq⟩⟩ := s.sock.retransmitExpired_cases edge now <;>
        rw [heq] <;> exact h.of_eq ⟨rfl, rfl, rfl⟩ rfl rfl
  | vCloseAtOnce r actions sock hclose hstate =>
      obtain ⟨⟨e, rfl⟩, rfl⟩ := hstands.vCloseAtOnce hclose hstate
      refine h.keep h.ordered rfl rfl rfl (by rw [hclose]; rfl) nofun nofun nofun fun hsent ↦ ?_
      rw [SentFin, hclose] at hsent
      cases hsent
  | vClose next actions hclose hstate =>
      refine h.keep h.ordered rfl rfl rfl (by rw [hclose]; rfl) nofun nofun nofun fun hsent ↦ ?_
      rw [SentFin, hclose] at hsent
      cases hsent
  | getNxt next hclose =>
      refine h.keep h.ordered rfl rfl rfl (by rw [hclose]; rfl) (fun _ ↦ hturn) ?_ nofun
        fun hsent ↦ ?_
      · intro _ _ _ heq
        obtain ⟨-, rfl, -⟩ := heq
        rfl
      · rw [SentFin, hclose] at hsent
        cases hsent
  | writeAndSendOne next seq wnd hclose =>
      have hsent := h.sent (by rw [hclose]; rfl)
      have hseq := h.seq _ _ _ hclose
      have hnbw := h.nbw
      have hle := h.ordered.una_le_nxt
      simp only [hclose, CloseThread.finTaken, Bool.false_eq_true, if_false, Nat.add_zero] at hnbw
      have hone : (s.sock.sendBuffer.nbw + 1).toNat = s.sock.sendBuffer.nbw.toNat + 1 :=
        UInt32.toNat_add_of_lt (by
          rw [UInt32.toNat_one]
          simp only at hwrap
          omega)
      rw [← hsent] at hone
      have hend : s.dataEnd = s.sock.sendBuffer.nxt.toNat := by
        simp [dataEnd, hclose, CloseThread.finTaken]
      have hend' : RunningSocket.dataEnd { s with
          sock := s.sock.writeAndSendOne, close := .taken next seq wnd } =
            s.sock.sendBuffer.nxt.toNat := by
        simp [dataEnd, CloseThread.finTaken, NormalSocket.writeAndSendOne,
          SendBuffer.writeAndSendOne, hone]
      refine ⟨⟨⟨?_, ?_⟩, ?_, ?_, nofun, ?_⟩, ⟨?_, ?_, ?_⟩⟩
      · simp only [NormalSocket.writeAndSendOne, SendBuffer.writeAndSendOne, hone]
        omega
      · simp only [NormalSocket.writeAndSendOne, SendBuffer.writeAndSendOne, hsent, le_refl]
      · simp only [NormalSocket.writeAndSendOne, SendBuffer.writeAndSendOne, ← hsent, hone,
          CloseThread.finTaken, if_true]
        rw [hsent, hnbw]
      · intro _
        simp only [NormalSocket.writeAndSendOne, SendBuffer.writeAndSendOne, hsent]
      · intro _ _ _ heq
        obtain ⟨-, rfl, -⟩ := heq
        rw [hend', hseq]
      · rw [hend, hend']
      · intro htaken
        rw [hclose] at htaken
        cases htaken
      · intro hfin
        rw [SentFin, hclose] at hfin
        cases hfin
  | sendFin now next seq wnd packet q hclose =>
      refine h.keep (h.ordered.of_samePointers ⟨rfl, rfl, rfl⟩) rfl rfl rfl (by rw [hclose]; rfl)
        (fun _ ↦ ?_) nofun nofun fun _ ↦ rfl
      exact h.sent (by rw [hclose]; rfl)
  | vAbort =>
      rcases s.sock.vAbort_cases with heq | ⟨result, heq⟩ <;> rw [heq] <;>
        exact h.of_eq ⟨rfl, rfl, rfl⟩ rfl rfl

/-- A thread in its turn leaves the state, aborts the connection, or closes it on this side. -/
theorem Stands.state_of_thread (h : Stands s) (hsteps : Steps s l out s') (hl : IsEvent l = false)
    (hturn : Orderly s (.thread l)) :
    s'.sock.state = s.sock.state ∨ s'.sock.state = .closed ∨
      s.sock.state = .established ∧ s'.sock.state = .finWait1 ∨
      s.sock.state = .closeWait ∧ s'.sock.state = .lastAck := by
  rcases hsteps.state_of_thread hl with hsame | hclosed | ⟨now, next, rfl, hnext, hstate⟩
  · exact .inl hsame
  · exact .inr (.inl hclosed)
  have hdrawn := hturn next hnext
  rw [hstate]
  rcases h.lives.pending next hnext with ⟨rfl, hopen, hsyn⟩ | ⟨rfl, hpassive | hclosed⟩
  · refine .inr (.inr (.inl ⟨?_, rfl⟩))
    cases hs : s.sock.state with
    | established => rfl
    | synReceived lSock => exact absurd hs (h.opened.2 lSock)
    | closed =>
        rw [hs] at hdrawn
        cases hdrawn
    | closeWait =>
        rw [hs] at hdrawn
        cases hdrawn
    | synSent => exact absurd hs h.opened.1
    | _ =>
        rw [hs] at hopen
        exact hopen.elim
  · exact .inr (.inr (.inr ⟨hpassive, rfl⟩))
  · rw [hclosed] at hdrawn
    cases hdrawn

/-- Handling an event leaves the numbers. -/
theorem Numbered.event (h : Numbered start s) {event : Event} {now : TimePoint}
    {actions : List Action} {sock : NormalSocket M N}
    (hhandle : s.sock.eventHandler event now = .ok (actions, sock)) :
    Numbered start { s with sock } ∧ Grows s { s with sock } := by
  have hhandles := NormalSocket.handles_of_eventHandler hhandle
  exact h.of_nxt_eq (hhandles.ordered h.ordered) hhandles.nxt_nbw.1 hhandles.nxt_nbw.2 rfl rfl

/-- After the FIN, SND.NXT is the number after it. -/
theorem Numbered.dataEnd_of_sentFin (h : Numbered start s) (hsent : SentFin s) :
    s.dataEnd + 1 = s.sock.sendBuffer.nxt.toNat ∧ s.dataEnd = start + s.accepted.length := by
  have hnbw := h.nbw
  have hnxt := congrArg UInt32.toNat (h.sent (CloseThread.isNumbered_of_finTaken hsent.finTaken))
  simp only [hsent.finTaken, if_true] at hnbw
  simp only [dataEnd, hsent.finTaken, if_true]
  omega

end Thread

end RunningSocket

end Tns.Tcp
