import Tns.Tcp.RecvBuffer
import Tns.Tcp.SendBuffer

/-!
# Normal sockets

A socket is its two buffers and the state of the connection.  A handler of an
event is one step: it returns what it sends and what it asks of the listener.
The threads of the socket take the sections defined at the end.
-/

namespace Tns.Tcp

/-- `states::Variant`.  A socket in SYN_RECEIVED knows its listener by the identifier. -/
inductive State where
  | closed | listen | synSent
  | synReceived (lSock : ℕ)
  | established | finWait1 | finWait2 | closeWait | closing | lastAck
  | timeWait (time : TimePoint)
  deriving DecidableEq, Repr

structure SynAckResult where
  error : Option SocketError := none
  notified : Bool := false
  deriving DecidableEq

namespace SynAckResult

def onError (_ : SynAckResult) (err : SocketError) : SynAckResult :=
  { error := some err, notified := true }

def onSynAck (r : SynAckResult) : SynAckResult := { r with notified := true }

def waitForSynAck (r : SynAckResult) : Exec (Option SocketError) := do
  Exec.waitUntil (r.notified = true)
  return r.error

end SynAckResult

/-- What a step of a socket does to its surroundings. -/
inductive Action where
  | sendPacket (packet : Packet)
  | removePending (lSock : ℕ)
  | pushAccept (lSock : ℕ)
  deriving DecidableEq

/-- `NormalSocket`, with buffers of `M` and `N` bytes. -/
structure NormalSocket (M N : ℕ) where
  state : State := .closed
  sendBuffer : SendBuffer M
  recvBuffer : RecvBuffer N
  retransmitStopped : Bool := false
  result : SynAckResult := {}

namespace NormalSocket

variable {M N : ℕ}

def init (sendBuf : Vector Byte M) (recvBuf : Vector Byte N) (isn windowSize rcvNxt : UInt32) :
    NormalSocket M N :=
  { sendBuffer := SendBuffer.init sendBuf isn windowSize
    recvBuffer := RecvBuffer.init recvBuf rcvNxt }

/-- Assign `state_`.  The destructor of SYN_SENT notifies the caller of `vConnect`. -/
def setState (s : NormalSocket M N) (state : State) : NormalSocket M N :=
  { s with
    state
    result := if s.state = .synSent then { s.result with notified := true } else s.result }

@[simp] theorem setState_state (s : NormalSocket M N) (state : State) :
    (s.setState state).state = state := rfl

@[simp] theorem setState_sendBuffer (s : NormalSocket M N) (state : State) :
    (s.setState state).sendBuffer = s.sendBuffer := rfl

@[simp] theorem setState_recvBuffer (s : NormalSocket M N) (state : State) :
    (s.setState state).recvBuffer = s.recvBuffer := rfl

def shutdownSend (s : NormalSocket M N) : NormalSocket M N :=
  { s with retransmitStopped := true, sendBuffer := s.sendBuffer.shutdown.2 }

def shutdownRecv (s : NormalSocket M N) : NormalSocket M N :=
  { s with recvBuffer := s.recvBuffer.shutdown }

def shutdown (s : NormalSocket M N) : NormalSocket M N := s.shutdownSend.shutdownRecv

@[simp] theorem shutdown_sendBuffer (s : NormalSocket M N) :
    s.shutdown.sendBuffer = s.sendBuffer.shutdown.2 := rfl

@[simp] theorem shutdown_recvBuffer (s : NormalSocket M N) :
    s.shutdown.recvBuffer = s.recvBuffer.shutdown := rfl

/-! ## Calls of the application -/

def vSendState : State → Except SocketError Unit
  | .synSent | .synReceived _ | .established | .closeWait => .ok ()
  | .closed => .error .connNotExist
  | .listen | .finWait1 | .finWait2 | .closing | .lastAck | .timeWait _ => .error .closing

/-- `vSend`, up to the end of the first pass of the loop of `write`. -/
def vSend (s : NormalSocket M N) (data : List Byte) :
    Exec (Except SocketError ℕ × NormalSocket M N) :=
  match vSendState s.state with
  | .error e => .ok (.error e, s)
  | .ok _ => do
      let (r, _, sendBuffer) ← s.sendBuffer.write data
      return (r, { s with sendBuffer })

/-- `vRecv` into a buffer of `buffSize` bytes. -/
def vRecv (s : NormalSocket M N) (buffSize n : ℕ) :
    Exec (Except SocketError (List Byte) × NormalSocket M N) :=
  let read := do
    let (r, recvBuffer) ← s.recvBuffer.readAtMostNBytes buffSize n
    return (r, { s with recvBuffer })
  match s.state with
  | .synSent | .synReceived _ => .ok (.error .nyi, s)
  | .established | .finWait1 | .finWait2 | .timeWait _ => read
  | .closeWait => if s.recvBuffer.sizeToRead ≠ 0 then read else .ok (.error .closing, s)
  | .closed => .ok (.error .connNotExist, s)
  | .listen | .closing | .lastAck => .ok (.error .closing, s)

/-- `sendPacket_`: enqueue the packet for retransmission and send it. -/
def sendPacket (s : NormalSocket M N) (packet : Packet) (now : TimePoint) :
    Exec (List Action × NormalSocket M N) := do
  let q ← s.sendBuffer.retransmitQueue.enqueue packet now
  return ([.sendPacket packet], { s with sendBuffer := { s.sendBuffer with retransmitQueue := q } })

def vAbort (s : NormalSocket M N) : Except SocketError (List Action) × NormalSocket M N :=
  match s.state with
  | .closed => (.error .connNotExist, s)
  | .synSent =>
      (.ok [], ({ s with result := s.result.onError .reset }.shutdown).setState .closed)
  | .synReceived lSock => (.ok [.removePending lSock], s.shutdown.setState .closed)
  | _ => (.ok [], s.shutdown.setState .closed)

/-- An abort closes a socket that is not closed, in every state alike. -/
theorem vAbort_cases (s : NormalSocket M N) :
    s.vAbort.2 = s ∨ ∃ result, s.vAbort.2 = ({ s with result }.shutdown).setState .closed := by
  unfold vAbort
  split
  · exact .inl rfl
  · exact .inr ⟨_, rfl⟩
  · exact .inr ⟨s.result, rfl⟩
  · exact .inr ⟨s.result, rfl⟩

theorem vAbort_state (s : NormalSocket M N) : s.vAbort.2.state = .closed := by
  unfold vAbort
  split
  · assumption
  · rfl
  · rfl
  · rfl

theorem vSend_cases {s s' : NormalSocket M N} {data : List Byte} {r : Except SocketError ℕ}
    (h : s.vSend data = .ok (r, s')) :
    (∃ e, r = .error e ∧ s' = s) ∨
      ∃ wakes b, s.sendBuffer.write data = .ok (r, wakes, b) ∧ s' = { s with sendBuffer := b } := by
  unfold vSend at h
  split at h
  · simp only [Except.ok.injEq, Prod.mk.injEq] at h
    exact .inl ⟨_, h.1.symm, h.2.symm⟩
  · simp only [Exec.bind_eq_ok, Exec.pure_eq_ok, Prod.mk.injEq, Prod.exists] at h
    obtain ⟨r', wakes, b, hwrite, rfl, rfl⟩ := h
    exact .inr ⟨wakes, b, hwrite, rfl⟩

theorem vRecv_cases {s s' : NormalSocket M N} {buffSize n : ℕ}
    {r : Except SocketError (List Byte)} (h : s.vRecv buffSize n = .ok (r, s')) :
    (∃ e, r = .error e ∧ s' = s) ∨
      ∃ b, s.recvBuffer.readAtMostNBytes buffSize n = .ok (r, b) ∧
        s' = { s with recvBuffer := b } := by
  have hread : (do
      let (r, recvBuffer) ← s.recvBuffer.readAtMostNBytes buffSize n
      return (r, { s with recvBuffer }) : Exec _) = .ok (r, s') →
      ∃ b, s.recvBuffer.readAtMostNBytes buffSize n = .ok (r, b) ∧
        s' = { s with recvBuffer := b } := by
    intro h
    simp only [Exec.bind_eq_ok, Exec.pure_eq_ok, Prod.mk.injEq, Prod.exists] at h
    obtain ⟨r', b, hread, rfl, rfl⟩ := h
    exact ⟨b, hread, rfl⟩
  have hrefuse : ∀ e : SocketError, (Except.ok (Except.error e, s) : Exec _) = .ok (r, s') →
      ∃ e, r = .error e ∧ s' = s := by
    intro e h
    simp only [Except.ok.injEq, Prod.mk.injEq] at h
    exact ⟨e, h.1.symm, h.2.symm⟩
  unfold vRecv at h
  split at h
  · exact .inl (hrefuse _ h)
  · exact .inl (hrefuse _ h)
  · exact .inr (hread h)
  · exact .inr (hread h)
  · exact .inr (hread h)
  · exact .inr (hread h)
  · split at h
    · exact .inr (hread h)
    · exact .inl (hrefuse _ h)
  · exact .inl (hrefuse _ h)
  · exact .inl (hrefuse _ h)
  · exact .inl (hrefuse _ h)
  · exact .inl (hrefuse _ h)

/-! ## Events

`handleEstablishedGetAck` is `eventHandler_(Established, GetAck)`, and so on. -/

def handleSynSentGetSynAck (s : NormalSocket M N) (serverISN ackNum : UInt32)
    (serverWND : UInt16) (now : TimePoint) : Exec (List Action × NormalSocket M N) :=
  let ((una, nxt), _, sendBuffer) := s.sendBuffer.onAck ackNum serverWND.toUInt32 now
  let s := { s with sendBuffer }
  if una ≠ nxt then
    .ok ([], s)
  else
    let ack := serverISN + 1
    let s := { s with recvBuffer := s.recvBuffer.setPointers ack }
    let wnd := UInt16.ofNat s.recvBuffer.sizeFree
    .ok ([.sendPacket (.makeAckPacket nxt ack wnd)], { s with result := s.result.onSynAck })

def handleSynReceivedGetAck (s : NormalSocket M N) (lSock : ℕ) (seqNum ackNum : UInt32)
    (wndSize : UInt16) (now : TimePoint) : Exec (List Action × NormalSocket M N) := do
  if seqNum ≠ s.recvBuffer.nxt then
    return ([], s)
  let ((una, nxt), _, sendBuffer) := s.sendBuffer.onAck ackNum wndSize.toUInt32 now
  let s := { s with sendBuffer }
  if una ≠ nxt then
    return ([], s)
  Exec.assertThat (s.sendBuffer.sanityCheckAtStart = true) "FATAL: sendBuffer_ failed sanity check"
  Exec.assertThat (s.recvBuffer.sanityCheckAtStart = true) "FATAL: recvBuffer_ failed sanity check"
  return ([.removePending lSock, .pushAccept lSock], s.setState .established)

/-- The body shared by the `GetAck` handlers of ESTABLISHED, CLOSE_WAIT and FIN_WAIT_2. -/
def processAck (s : NormalSocket M N) (seqNum ackNum : UInt32) (wndSize : UInt16)
    (payload : List Byte) (now : TimePoint) : Exec (List Action × NormalSocket M N) := do
  let ((_, nxt), _, sendBuffer) := s.sendBuffer.onAck ackNum wndSize.toUInt32 now
  let s := { s with sendBuffer }
  if payload ≠ [] then
    let ((ack, wnd), recvBuffer) ← s.recvBuffer.onRecv seqNum payload
    return ([.sendPacket (.makeAckPacket nxt ack (UInt16.ofNat wnd))], { s with recvBuffer })
  else
    return ([], s)

/-- The body shared by all handlers of a FIN: acknowledge nothing, update the window, and
answer.  The first component is RCV.NXT after the segment. -/
def processFin (s : NormalSocket M N) (seqNum : UInt32) (wndSize : UInt16) (now : TimePoint) :
    UInt32 × List Action × NormalSocket M N :=
  let ((_, nxt), _, sendBuffer) := s.sendBuffer.onAck 0 wndSize.toUInt32 now
  let ((ack, wnd), recvBuffer) := s.recvBuffer.onCtrl seqNum
  (ack, [.sendPacket (.makeAckPacket nxt ack (UInt16.ofNat wnd))],
    { s with sendBuffer, recvBuffer })

def handleEstablishedGetAck (s : NormalSocket M N) := s.processAck

def handleEstablishedGetSynAck (s : NormalSocket M N) (ackNum : UInt32) (serverWND : UInt16)
    (now : TimePoint) : Exec (List Action × NormalSocket M N) :=
  let ((_, nxt), _, sendBuffer) := s.sendBuffer.onAck ackNum serverWND.toUInt32 now
  let (ack, wnd) := s.recvBuffer.getAckWnd
  .ok ([.sendPacket (.makeAckPacket nxt ack (UInt16.ofNat wnd))], { s with sendBuffer })

def handleEstablishedGetFin (s : NormalSocket M N) (seqNum : UInt32) (wndSize : UInt16)
    (now : TimePoint) : Exec (List Action × NormalSocket M N) :=
  let (ack, actions, s) := s.processFin seqNum wndSize now
  if ack = seqNum + 1 then
    .ok (actions, s.shutdownRecv.setState .closeWait)
  else .ok (actions, s)

def handleEstablishedGetFinAck (s : NormalSocket M N) := s.handleEstablishedGetFin

def handleCloseWaitGetAck (s : NormalSocket M N) := s.processAck

def handleCloseWaitGetFin (s : NormalSocket M N) (seqNum : UInt32) (wndSize : UInt16)
    (now : TimePoint) : Exec (List Action × NormalSocket M N) :=
  .ok (s.processFin seqNum wndSize now).2

def handleFinWait1GetAck (s : NormalSocket M N) (seqNum ackNum : UInt32) (wndSize : UInt16)
    (payload : List Byte) (now : TimePoint) : Exec (List Action × NormalSocket M N) := do
  let ((una, nxt), _, sendBuffer) := s.sendBuffer.onAck ackNum wndSize.toUInt32 now
  let s := { s with sendBuffer }
  if payload ≠ [] then
    let ((ack, wnd), recvBuffer) ← s.recvBuffer.onRecv seqNum payload
    return ([.sendPacket (.makeAckPacket nxt ack (UInt16.ofNat wnd))], { s with recvBuffer })
  else if seqNum ≠ s.recvBuffer.nxt ∨ una ≠ nxt then
    return ([], s)
  else
    return ([], s.setState .finWait2)

def handleFinWait2GetFin (s : NormalSocket M N) (seqNum : UInt32) (wndSize : UInt16)
    (now : TimePoint) : Exec (List Action × NormalSocket M N) :=
  let (ack, actions, s) := s.processFin seqNum wndSize now
  if ack = seqNum + 1 then
    .ok (actions, s.setState (.timeWait now))
  else .ok (actions, s)

def handleFinWait2GetAck (s : NormalSocket M N) := s.processAck

def handleTimeWaitGetFin (s : NormalSocket M N) (seqNum : UInt32) (wndSize : UInt16)
    (now : TimePoint) : Exec (List Action × NormalSocket M N) :=
  .ok (s.processFin seqNum wndSize now).2

def handleLastAckGetAck (s : NormalSocket M N) (ackNum : UInt32) (wndSize : UInt16)
    (now : TimePoint) : Exec (List Action × NormalSocket M N) :=
  let ((una, nxt), _, sendBuffer) := s.sendBuffer.onAck ackNum wndSize.toUInt32 now
  let s := { s with sendBuffer }
  if una ≠ nxt then
    .ok ([], s)
  else
    .ok ([], s.shutdown.setState .closed)

/-- The overload set of `eventHandler_`: every other pair is ignored. -/
def eventHandler (s : NormalSocket M N) (event : Event) (now : TimePoint) :
    Exec (List Action × NormalSocket M N) :=
  match s.state, event with
  | .synSent, .getSynAck serverISN ackNum serverWND =>
      s.handleSynSentGetSynAck serverISN ackNum serverWND now
  | .synReceived lSock, .getAck seqNum ackNum wndSize _ =>
      s.handleSynReceivedGetAck lSock seqNum ackNum wndSize now
  | .established, .getAck seqNum ackNum wndSize payload =>
      s.handleEstablishedGetAck seqNum ackNum wndSize payload now
  | .established, .getSynAck _ ackNum serverWND =>
      s.handleEstablishedGetSynAck ackNum serverWND now
  | .established, .getFin seqNum wndSize => s.handleEstablishedGetFin seqNum wndSize now
  | .established, .getFinAck seqNum _ wndSize => s.handleEstablishedGetFinAck seqNum wndSize now
  | .closeWait, .getAck seqNum ackNum wndSize payload =>
      s.handleCloseWaitGetAck seqNum ackNum wndSize payload now
  | .closeWait, .getFin seqNum wndSize => s.handleCloseWaitGetFin seqNum wndSize now
  | .lastAck, .getAck _ ackNum wndSize _ => s.handleLastAckGetAck ackNum wndSize now
  | .finWait1, .getAck seqNum ackNum wndSize payload =>
      s.handleFinWait1GetAck seqNum ackNum wndSize payload now
  | .finWait2, .getFin seqNum wndSize => s.handleFinWait2GetFin seqNum wndSize now
  | .finWait2, .getAck seqNum ackNum wndSize payload =>
      s.handleFinWait2GetAck seqNum ackNum wndSize payload now
  | .timeWait _, .getFin seqNum wndSize => s.handleTimeWaitGetFin seqNum wndSize now
  | _, _ => .ok ([], s)

def Receives : State → Prop
  | .established | .closeWait | .finWait1 | .finWait2 => True
  | _ => False

/-- The states in which an event is processed as a FIN with sequence number `seqNum`. -/
inductive ProcessesFin (seqNum : UInt32) : State → Event → Prop
  | established (wndSize : UInt16) : ProcessesFin seqNum .established (.getFin seqNum wndSize)
  | finAck (ackNum : UInt32) (wndSize : UInt16) :
      ProcessesFin seqNum .established (.getFinAck seqNum ackNum wndSize)
  | closeWait (wndSize : UInt16) : ProcessesFin seqNum .closeWait (.getFin seqNum wndSize)
  | finWait2 (wndSize : UInt16) : ProcessesFin seqNum .finWait2 (.getFin seqNum wndSize)
  | timeWait (time : TimePoint) (wndSize : UInt16) :
      ProcessesFin seqNum (.timeWait time) (.getFin seqNum wndSize)

def acked (s : NormalSocket M N) (ackNum wndSize : UInt32) (now : TimePoint) :
    NormalSocket M N :=
  { s with sendBuffer := (s.sendBuffer.onAck ackNum wndSize now).2.2 }

/-- Everything that handling an event can do to a socket. -/
inductive Handles (s : NormalSocket M N) (now : TimePoint) : Event → NormalSocket M N → Prop
  | ignored (event : Event) : Handles s now event s
  | acked (event : Event) (ackNum wndSize : UInt32) :
      Handles s now event (s.acked ackNum wndSize now)
  | synAcked (serverISN ackNum : UInt32) (serverWND : UInt16) (hstate : s.state = .synSent) :
      Handles s now (.getSynAck serverISN ackNum serverWND)
        { s.acked ackNum serverWND.toUInt32 now with
          recvBuffer := s.recvBuffer.setPointers (serverISN + 1)
          result := s.result.onSynAck }
  | opened (lSock : ℕ) (seqNum ackNum : UInt32) (wndSize : UInt16) (payload : List Byte)
      (hstate : s.state = .synReceived lSock) :
      Handles s now (.getAck seqNum ackNum wndSize payload)
        ((s.acked ackNum wndSize.toUInt32 now).setState .established)
  | received (seqNum ackNum : UInt32) (wndSize : UInt16) (payload : List Byte) (r : UInt32 × ℕ)
      (recvBuffer : RecvBuffer N) (hstate : Receives s.state)
      (hrecv : s.recvBuffer.onRecv seqNum payload = .ok (r, recvBuffer)) :
      Handles s now (.getAck seqNum ackNum wndSize payload)
        { s.acked ackNum wndSize.toUInt32 now with recvBuffer }
  | finReceived (event : Event) (seqNum wndSize : UInt32)
      (hfin : ProcessesFin seqNum s.state event) :
      Handles s now event
        { s.acked 0 wndSize now with recvBuffer := (s.recvBuffer.onCtrl seqNum).2 }
  | closeWait (event : Event) (seqNum wndSize : UInt32)
      (hfin : ProcessesFin seqNum s.state event) (hstate : s.state = .established)
      (hack : (s.recvBuffer.onCtrl seqNum).1.1 = seqNum + 1) :
      Handles s now event
        ({ s.acked 0 wndSize now with
            recvBuffer := (s.recvBuffer.onCtrl seqNum).2 }.shutdownRecv.setState .closeWait)
  | timeWait (event : Event) (seqNum wndSize : UInt32)
      (hfin : ProcessesFin seqNum s.state event) (hstate : s.state = .finWait2) :
      Handles s now event
        ({ s.acked 0 wndSize now with
            recvBuffer := (s.recvBuffer.onCtrl seqNum).2 }.setState (.timeWait now))
  | finAcked (event : Event) (ackNum wndSize : UInt32) (hstate : s.state = .finWait1) :
      Handles s now event ((s.acked ackNum wndSize now).setState .finWait2)
  | closed (event : Event) (ackNum wndSize : UInt32) (hstate : s.state = .lastAck) :
      Handles s now event ((s.acked ackNum wndSize now).shutdown.setState .closed)

section Handlers

variable {s s' : NormalSocket M N} {seqNum ackNum : UInt32} {wndSize : UInt16}
  {payload : List Byte} {now : TimePoint} {actions : List Action}

theorem processAck_cases (h : s.processAck seqNum ackNum wndSize payload now = .ok (actions, s')) :
    (payload = [] ∧ actions = [] ∧ s' = s.acked ackNum wndSize.toUInt32 now) ∨
      ∃ r recvBuffer, s.recvBuffer.onRecv seqNum payload = .ok (r, recvBuffer) ∧
        actions =
          [.sendPacket (.makeAckPacket (s.sendBuffer.onAck ackNum wndSize.toUInt32 now).1.2 r.1
            (UInt16.ofNat r.2))] ∧
        s' = { s.acked ackNum wndSize.toUInt32 now with recvBuffer } := by
  simp only [processAck] at h
  split at h
  · simp only [Exec.bind_eq_ok, Exec.pure_eq_ok, Prod.mk.injEq] at h
    obtain ⟨⟨r, recvBuffer⟩, hrecv, rfl, rfl⟩ := h
    exact .inr ⟨r, recvBuffer, hrecv, rfl, rfl⟩
  · rename_i hnil
    simp only [Exec.pure_eq_ok, Prod.mk.injEq] at h
    obtain ⟨rfl, rfl⟩ := h
    exact .inl ⟨not_not.mp hnil, rfl, rfl⟩

theorem handles_processAck (hstate : Receives s.state)
    (h : s.processAck seqNum ackNum wndSize payload now = .ok (actions, s')) :
    Handles s now (.getAck seqNum ackNum wndSize payload) s' := by
  rcases processAck_cases h with ⟨-, -, rfl⟩ | ⟨r, recvBuffer, hrecv, -, rfl⟩
  · exact .acked _ ackNum _
  · exact .received seqNum ackNum wndSize payload r recvBuffer hstate hrecv

theorem handles_finWait1 (hstate : s.state = .finWait1)
    (h : s.handleFinWait1GetAck seqNum ackNum wndSize payload now = .ok (actions, s')) :
    Handles s now (.getAck seqNum ackNum wndSize payload) s' := by
  simp only [handleFinWait1GetAck] at h
  split at h
  · simp only [Exec.bind_eq_ok, Exec.pure_eq_ok, Prod.mk.injEq] at h
    obtain ⟨⟨r, recvBuffer⟩, hrecv, -, rfl⟩ := h
    exact .received seqNum ackNum wndSize payload r recvBuffer (by rw [hstate]; trivial) hrecv
  · split at h <;> simp only [Exec.pure_eq_ok, Prod.mk.injEq] at h <;> obtain ⟨-, rfl⟩ := h
    · exact .acked _ ackNum _
    · exact .finAcked _ ackNum _ hstate

theorem handles_synReceived {lSock : ℕ} (hstate : s.state = .synReceived lSock)
    (h : s.handleSynReceivedGetAck lSock seqNum ackNum wndSize now = .ok (actions, s')) :
    Handles s now (.getAck seqNum ackNum wndSize payload) s' := by
  simp only [handleSynReceivedGetAck] at h
  split at h
  · simp only [Exec.pure_eq_ok, Prod.mk.injEq] at h
    obtain ⟨-, rfl⟩ := h
    exact .ignored _
  · split at h
    · simp only [Exec.pure_eq_ok, Prod.mk.injEq] at h
      obtain ⟨-, rfl⟩ := h
      exact .acked _ ackNum _
    · simp only [Exec.bind_eq_ok, Exec.pure_eq_ok, Prod.mk.injEq] at h
      obtain ⟨-, -, -, -, -, rfl⟩ := h
      exact .opened lSock seqNum ackNum wndSize payload hstate

theorem handles_establishedGetFin {event : Event}
    (hfin : ProcessesFin seqNum s.state event) (hstate : s.state = .established)
    (h : s.handleEstablishedGetFin seqNum wndSize now = .ok (actions, s')) :
    Handles s now event s' := by
  simp only [handleEstablishedGetFin, processFin] at h
  by_cases hack : (s.recvBuffer.onCtrl seqNum).1.1 = seqNum + 1
  · simp only [hack, if_true, Except.ok.injEq, Prod.mk.injEq] at h
    obtain ⟨-, rfl⟩ := h
    exact .closeWait _ _ _ hfin hstate hack
  · simp only [hack, if_false, Except.ok.injEq, Prod.mk.injEq] at h
    obtain ⟨-, rfl⟩ := h
    exact .finReceived _ _ _ hfin

theorem handles_finWait2GetFin {event : Event}
    (hfin : ProcessesFin seqNum s.state event) (hstate : s.state = .finWait2)
    (h : s.handleFinWait2GetFin seqNum wndSize now = .ok (actions, s')) :
    Handles s now event s' := by
  simp only [handleFinWait2GetFin, processFin] at h
  by_cases hack : (s.recvBuffer.onCtrl seqNum).1.1 = seqNum + 1
  · simp only [hack, if_true, Except.ok.injEq, Prod.mk.injEq] at h
    obtain ⟨-, rfl⟩ := h
    exact .timeWait _ _ _ hfin hstate
  · simp only [hack, if_false, Except.ok.injEq, Prod.mk.injEq] at h
    obtain ⟨-, rfl⟩ := h
    exact .finReceived _ _ _ hfin

theorem handles_of_eventHandler {event : Event}
    (h : s.eventHandler event now = .ok (actions, s')) : Handles s now event s' := by
  unfold eventHandler at h
  split at h
  · rename_i hstate
    simp only [handleSynSentGetSynAck] at h
    split at h <;> simp only [Except.ok.injEq, Prod.mk.injEq] at h <;> obtain ⟨-, rfl⟩ := h
    · exact .acked _ _ _
    · exact .synAcked _ _ _ hstate
  · rename_i hstate
    exact handles_synReceived hstate h
  · rename_i hstate
    exact handles_processAck (by rw [hstate]; trivial) h
  · simp only [handleEstablishedGetSynAck, Except.ok.injEq, Prod.mk.injEq] at h
    obtain ⟨-, rfl⟩ := h
    exact .acked _ _ _
  · rename_i hstate
    exact handles_establishedGetFin (hstate ▸ .established _) hstate h
  · rename_i hstate
    exact handles_establishedGetFin (hstate ▸ .finAck _ _) hstate h
  · rename_i hstate
    exact handles_processAck (by rw [hstate]; trivial) h
  · rename_i hstate
    simp only [handleCloseWaitGetFin, processFin, Except.ok.injEq, Prod.mk.injEq] at h
    obtain ⟨-, rfl⟩ := h
    exact .finReceived _ _ _ (hstate ▸ .closeWait _)
  · rename_i hstate
    simp only [handleLastAckGetAck] at h
    split at h <;> simp only [Except.ok.injEq, Prod.mk.injEq] at h <;> obtain ⟨-, rfl⟩ := h
    · exact .acked _ _ _
    · exact .closed _ _ _ hstate
  · rename_i hstate
    exact handles_finWait1 hstate h
  · rename_i hstate
    exact handles_finWait2GetFin (hstate ▸ .finWait2 _) hstate h
  · rename_i hstate
    exact handles_processAck (by rw [hstate]; trivial) h
  · rename_i hstate
    simp only [handleTimeWaitGetFin, processFin, Except.ok.injEq, Prod.mk.injEq] at h
    obtain ⟨-, rfl⟩ := h
    exact .finReceived _ _ _ (hstate ▸ .timeWait _ _)
  · simp only [Except.ok.injEq, Prod.mk.injEq] at h
    obtain ⟨-, rfl⟩ := h
    exact .ignored _

/-- A FIN that is processed goes to the receive buffer as a control segment. -/
theorem nxt_of_processesFin {event : Event} (hfin : ProcessesFin seqNum s.state event)
    (h : s.eventHandler event now = .ok (actions, s')) :
    s'.recvBuffer.nxt = (s.recvBuffer.onCtrl seqNum).2.nxt ∧
      s'.recvBuffer.nbr = (s.recvBuffer.onCtrl seqNum).2.nbr := by
  generalize hstate : s.state = state at hfin
  unfold eventHandler at h
  cases hfin with
  | established =>
      simp only [hstate, handleEstablishedGetFin, processFin] at h
      split at h <;> simp only [Except.ok.injEq, Prod.mk.injEq] at h <;> obtain ⟨-, rfl⟩ := h <;>
        exact ⟨rfl, rfl⟩
  | finAck =>
      simp only [hstate, handleEstablishedGetFinAck, handleEstablishedGetFin, processFin] at h
      split at h <;> simp only [Except.ok.injEq, Prod.mk.injEq] at h <;> obtain ⟨-, rfl⟩ := h <;>
        exact ⟨rfl, rfl⟩
  | closeWait =>
      simp only [hstate, handleCloseWaitGetFin, processFin, Except.ok.injEq, Prod.mk.injEq] at h
      obtain ⟨-, rfl⟩ := h
      exact ⟨rfl, rfl⟩
  | finWait2 =>
      simp only [hstate, handleFinWait2GetFin, processFin] at h
      split at h <;> simp only [Except.ok.injEq, Prod.mk.injEq] at h <;> obtain ⟨-, rfl⟩ := h <;>
        exact ⟨rfl, rfl⟩
  | timeWait =>
      simp only [hstate, handleTimeWaitGetFin, processFin, Except.ok.injEq, Prod.mk.injEq] at h
      obtain ⟨-, rfl⟩ := h
      exact ⟨rfl, rfl⟩

theorem Handles.nxt_nbw {event : Event} (h : Handles s now event s') :
    s'.sendBuffer.nxt = s.sendBuffer.nxt ∧ s'.sendBuffer.nbw = s.sendBuffer.nbw := by
  have hack : ∀ a w, (s.acked a w now).sendBuffer.nxt = s.sendBuffer.nxt ∧
      (s.acked a w now).sendBuffer.nbw = s.sendBuffer.nbw :=
    fun a w ↦ ⟨SendBuffer.onAck_nxt, SendBuffer.onAck_nbw⟩
  cases h with
  | ignored => exact ⟨rfl, rfl⟩
  | acked ackNum wndSize => exact hack _ _
  | synAcked => exact hack _ _
  | opened => exact hack _ _
  | received => exact hack _ _
  | finReceived => exact hack _ _
  | closeWait => exact hack _ _
  | timeWait => exact hack _ _
  | finAcked => exact hack _ _
  | closed => exact hack _ _

end Handlers

/-! ## Opening a connection -/

/-- `createNormalSocket_`: `isn` is what `generateISN_` draws, and the arrays are not
initialised. -/
def createNormalSocket (sendBuf : Vector Byte M) (recvBuf : Vector Byte N) (isn : UInt32)
    (rcvNxt : UInt32 := 0) (windowSize : UInt32 := 0xffffffff) : NormalSocket M N :=
  init sendBuf recvBuf isn windowSize rcvNxt

/-- What `createActiveConnection_` does to its new socket before it waits. -/
def createActiveConnection (s : NormalSocket M N) (now : TimePoint) :
    Exec (List Action × NormalSocket M N) := do
  let seq := s.sendBuffer.nxt
  let wnd := UInt16.ofNat s.recvBuffer.sizeFree
  let s := { s with sendBuffer := s.sendBuffer.writeAndSendOne }
  let (actions, s) ← s.sendPacket (.makeSynPacket seq wnd) now
  return (actions, s.setState .synSent)

/-- What `createPassiveConnection_` does to its new socket, which the listener has room for. -/
def createPassiveConnection (s : NormalSocket M N) (lSock : ℕ) (now : TimePoint) :
    Exec (List Action × NormalSocket M N) := do
  let seq := s.sendBuffer.nxt
  let (ack, wnd) := s.recvBuffer.getAckWnd
  let s := { s with sendBuffer := s.sendBuffer.writeAndSendOne }
  let (actions, s) ← s.sendPacket (.makeSynAckPacket seq ack (UInt16.ofNat wnd)) now
  return (actions, s.setState (.synReceived lSock))

/-! ## Closing a connection -/

/-- The state test of `vClose`, with what it does at once: the result, or the state to go to
once a FIN has been sent. -/
def vCloseState (s : NormalSocket M N) :
    Except (Except SocketError Unit) State × List Action × NormalSocket M N :=
  match s.state with
  | .synSent =>
      (.error (.ok ()), [],
        ({ s with result := s.result.onError .closing }.shutdown).setState .closed)
  | .synReceived lSock => (.ok .finWait1, [.removePending lSock], s)
  | .established => (.ok .finWait1, [], s)
  | .closeWait => (.ok .lastAck, [], s)
  | .closed => (.error (.error .connNotExist), [], s)
  | .listen | .finWait1 | .finWait2 | .closing | .lastAck | .timeWait _ =>
      (.error (.error .closing), [], s)

theorem vCloseState_error {s s' : NormalSocket M N} {r : Except SocketError Unit}
    {actions : List Action} (h : s.vCloseState = (.error r, actions, s')) :
    s' = s ∨ ∃ result, s' = ({ s with result }.shutdown).setState .closed := by
  unfold vCloseState at h
  split at h <;> simp only [Prod.mk.injEq, Except.error.injEq, reduceCtorEq, false_and] at h <;>
    obtain ⟨-, -, rfl⟩ := h
  · exact .inr ⟨_, rfl⟩
  all_goals exact .inl rfl

theorem vCloseState_ok {s s' : NormalSocket M N} {next : State} {actions : List Action}
    (h : s.vCloseState = (.ok next, actions, s')) :
    s' = s ∧ (next = .finWait1 ∨ next = .lastAck) := by
  unfold vCloseState at h
  split at h <;> simp only [Prod.mk.injEq, Except.ok.injEq, reduceCtorEq, false_and] at h <;>
    obtain ⟨rfl, -, rfl⟩ := h
  · exact ⟨rfl, .inl rfl⟩
  · exact ⟨rfl, .inl rfl⟩
  · exact ⟨rfl, .inr rfl⟩

/-- The first section of `sendFin_`: the sequence number and the window of the FIN. -/
def finSeqWnd (s : NormalSocket M N) : UInt32 × UInt16 :=
  (s.sendBuffer.nxt, UInt16.ofNat s.recvBuffer.sizeFree)

/-- The second section of `sendFin_`. -/
def writeAndSendOne (s : NormalSocket M N) : NormalSocket M N :=
  { s with sendBuffer := s.sendBuffer.writeAndSendOne }

/-- The last section of `sendFin_`, and the transition of `closeAsActive_` to FIN_WAIT_1 or of
`closeAsPassive_` to LAST_ACK. -/
def sendFin (s : NormalSocket M N) (seq : UInt32) (wnd : UInt16) (next : State)
    (now : TimePoint) : Exec (List Action × NormalSocket M N) := do
  let (actions, s) ← s.sendPacket (.makeFinPacket seq wnd) now
  return (actions, s.setState next)

/-! ## Threads -/

/-- `senderFunction_`, once it has the bytes of a segment and the acknowledgment. -/
def sendSegment (s : NormalSocket M N) (seq : UInt32) (data : List Byte) (ack : UInt32) (wnd : ℕ)
    (now : TimePoint) : Exec (List Action × NormalSocket M N) :=
  s.sendPacket (.makeAckPacket seq ack (UInt16.ofNat wnd) data) now

theorem sendPacket_cases {s s' : NormalSocket M N} {packet : Packet} {now : TimePoint}
    {actions : List Action} (h : s.sendPacket packet now = .ok (actions, s')) :
    actions = [.sendPacket packet] ∧ ∃ q, s.sendBuffer.retransmitQueue.enqueue packet now = .ok q ∧
      s' = { s with sendBuffer := { s.sendBuffer with retransmitQueue := q } } := by
  simp only [sendPacket, Exec.bind_eq_ok, Exec.pure_eq_ok, Prod.mk.injEq] at h
  obtain ⟨q, henq, rfl, rfl⟩ := h
  exact ⟨rfl, q, henq, rfl⟩

/-- A section of `zwpFunction_`.  A probe is enqueued and sent with the mutex still held. -/
def zwpFunction (s : NormalSocket M N) (thread : ZwpThread) (timeout : Bool) (now : TimePoint) :
    Exec (List Action × ZwpThread × NormalSocket M N) := do
  let (probe, thread, sendBuffer) ← s.sendBuffer.zwpStep thread timeout
  match probe with
  | none => return ([], thread, { s with sendBuffer })
  | some (seq, data) =>
      let (ack, wnd) := s.recvBuffer.getAckWnd
      let packet := Packet.makeAckPacket seq ack (UInt16.ofNat wnd) [data]
      let q ← sendBuffer.retransmitQueue.enqueueZwp packet now
      return ([.sendPacket packet], thread,
        { s with sendBuffer := { sendBuffer with retransmitQueue := q } })

theorem zwpFunction_cases {s s' : NormalSocket M N} {thread thread' : ZwpThread} {timeout : Bool}
    {now : TimePoint} {actions : List Action}
    (h : s.zwpFunction thread timeout now = .ok (actions, thread', s')) :
    ∃ probe b, s.sendBuffer.zwpStep thread timeout = .ok (probe, thread', b) ∧
      ((probe = none ∧ actions = [] ∧ s' = { s with sendBuffer := b }) ∨
        ∃ seq data packet q, probe = some (seq, data) ∧
          packet = Packet.makeAckPacket seq s.recvBuffer.nxt (UInt16.ofNat s.recvBuffer.sizeFree)
            [data] ∧
          b.retransmitQueue.enqueueZwp packet now = .ok q ∧ actions = [.sendPacket packet] ∧
          s' = { s with sendBuffer := { b with retransmitQueue := q } }) := by
  simp only [zwpFunction, Exec.bind_eq_ok, Prod.exists] at h
  obtain ⟨probe, th, b, hstep, h⟩ := h
  split at h
  · simp only [Exec.pure_eq_ok, Prod.mk.injEq] at h
    obtain ⟨rfl, rfl, rfl⟩ := h
    exact ⟨_, _, hstep, .inl ⟨rfl, rfl, rfl⟩⟩
  · rename_i seq data
    simp only [Exec.bind_eq_ok, Exec.pure_eq_ok, Prod.mk.injEq] at h
    obtain ⟨q, henq, rfl, rfl, rfl⟩ := h
    exact ⟨_, _, hstep, .inr ⟨seq, data, _, q, rfl, rfl, henq, rfl, rfl⟩⟩

/-- `retransmitFunction_`, once it has read the right edge of the window. -/
def retransmitExpired (s : NormalSocket M N) (sWndBound : UInt32) (now : TimePoint) :
    List Action × NormalSocket M N :=
  let (expired, q) := s.sendBuffer.retransmitQueue.getExpiredEntries sWndBound now
  let s := { s with sendBuffer := { s.sendBuffer with retransmitQueue := q } }
  match expired with
  | .ok expEntries => (expEntries.map (.sendPacket ·.packet), s)
  | .error _ =>
      match s.vAbort with
      | (.ok actions, s) => (actions, s)
      | (.error _, s) => ([], s)

theorem retransmitExpired_cases (s : NormalSocket M N) (sWndBound : UInt32) (now : TimePoint) :
    ∃ q, q = (s.sendBuffer.retransmitQueue.getExpiredEntries sWndBound now).2 ∧
      ((s.retransmitExpired sWndBound now).2 =
          { s with sendBuffer := { s.sendBuffer with retransmitQueue := q } } ∨
        ∃ result, (s.retransmitExpired sWndBound now).2 =
          ({ s with
              sendBuffer := { s.sendBuffer with retransmitQueue := q }
              result }.shutdown).setState .closed) := by
  refine ⟨_, rfl, ?_⟩
  simp only [retransmitExpired]
  split
  · exact .inl rfl
  · have hcases := vAbort_cases { s with sendBuffer := { s.sendBuffer with
      retransmitQueue := (s.sendBuffer.retransmitQueue.getExpiredEntries sWndBound now).2 } }
    split <;> rename_i h <;> rwa [h] at hcases

def retransmitFunction (s : NormalSocket M N) (now : TimePoint) :
    List Action × NormalSocket M N :=
  s.retransmitExpired s.sendBuffer.getWndEndExclusive now

end NormalSocket

end Tns.Tcp
