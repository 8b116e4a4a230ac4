import Tns.Library.Trace
import Tns.Tcp.NormalSocket

/-!
# A socket and its threads

The threads that run on a socket are the sender thread, the zero-window-probe
thread, the retransmission thread, the workers that handle events, and those of
the application.  Their sections are the labels of one step function.  The state
also records what the application has put in with `vSend` and got out of `vRecv`.

An event is one step.  In the source its handler looks at the state without a
lock, takes a section for each buffer, sends, and sets the state last; so the
runs here are those in which no other thread acts on the socket in between.
-/

namespace Tns.Tcp

open Tns.Library

/-- Where the thread of `senderFunction_` is, with what it holds. -/
inductive SenderHand where
  | waiting
  | segment (seq : UInt32) (data : List Byte)
  | ready (seq : UInt32) (data : List Byte) (ack : UInt32) (wnd : ℕ)
  | exited
  deriving DecidableEq

/-- Where the thread that calls `vClose` is, with what it has read. -/
inductive CloseThread where
  | idle
  | closing (next : State)
  | numbered (next : State) (seq : UInt32) (wnd : UInt16)
  | taken (next : State) (seq : UInt32) (wnd : UInt16)
  | finished (r : Except SocketError Unit)

/-- The state in which `vClose` will leave the socket once it has sent its FIN. -/
def CloseThread.next : CloseThread → Option State
  | .closing next | .numbered next _ _ | .taken next _ _ => some next
  | .idle | .finished _ => none

/-- A socket with its threads and the two ends of its application. -/
structure RunningSocket (M N : ℕ) where
  sock : NormalSocket M N
  sender : SenderHand := .waiting
  zwp : ZwpThread := .entry
  close : CloseThread := .idle
  accepted : List Byte := []
  delivered : List Byte := []

/-- The sections of the threads.  `write` is a later pass of the loop of a `vSend` that has
passed its state test. -/
inductive SocketCall where
  | vSend (data : List Byte)
  | write (bytesLeft : List Byte)
  | vRecv (buffSize n : ℕ)
  | sendReadyData (buffSize : ℕ)
  | getAckWnd
  | sendSegment (now : TimePoint)
  | zwp (timeout : Bool) (now : TimePoint)
  | retransmit (sWndBound : UInt32) (now : TimePoint)
  | event (event : Event) (now : TimePoint)
  | vClose
  | getNxt
  | writeAndSendOne
  | sendFin (now : TimePoint)
  | vAbort
  deriving DecidableEq

/-- What a section sends, and what it returns to a reader. -/
structure SocketReturn where
  actions : List Action := []
  read : Option (Except SocketError (List Byte)) := none

namespace RunningSocket

variable {M N : ℕ} {s s' : RunningSocket M N}

/-- The first `n` bytes have been accepted if the call returned `n`. -/
def acceptedOf (bytes : List Byte) : Except SocketError ℕ → List Byte
  | .ok n => bytes.take n
  | .error _ => []

def deliveredOf : Except SocketError (List Byte) → List Byte
  | .ok data => data
  | .error _ => []

def step (s : RunningSocket M N) : SocketCall → Exec (SocketReturn × RunningSocket M N)
  | .vSend data => do
      let (r, sock) ← s.sock.vSend data
      return ({}, { s with sock, accepted := s.accepted ++ acceptedOf data r })
  | .write bytesLeft => do
      let (r, _, sendBuffer) ← s.sock.sendBuffer.write bytesLeft
      return ({}, { s with
        sock := { s.sock with sendBuffer }
        accepted := s.accepted ++ acceptedOf bytesLeft r })
  | .vRecv buffSize n => do
      let (r, sock) ← s.sock.vRecv buffSize n
      return ({ read := some r }, { s with sock, delivered := s.delivered ++ deliveredOf r })
  | .sendReadyData buffSize => do
      Exec.waitUntil (s.sender = .waiting)
      match ← s.sock.sendBuffer.sendReadyData buffSize with
      | (.error _, sendBuffer) =>
          return ({}, { s with sock := { s.sock with sendBuffer }, sender := .exited })
      | (.ok (seq, data), sendBuffer) =>
          return ({}, { s with sock := { s.sock with sendBuffer }, sender := .segment seq data })
  | .getAckWnd =>
      match s.sender with
      | .segment seq data =>
          let (ack, wnd) := s.sock.recvBuffer.getAckWnd
          .ok ({}, { s with sender := .ready seq data ack wnd })
      | _ => .error .blocks
  | .sendSegment now =>
      match s.sender with
      | .ready seq data ack wnd => do
          let (actions, sock) ← s.sock.sendSegment seq data ack wnd now
          return ({ actions }, { s with sock, sender := .waiting })
      | _ => .error .blocks
  | .zwp timeout now => do
      let (actions, zwp, sock) ← s.sock.zwpFunction s.zwp timeout now
      return ({ actions }, { s with sock, zwp })
  | .retransmit sWndBound now =>
      let (actions, sock) := s.sock.retransmitExpired sWndBound now
      .ok ({ actions }, { s with sock })
  | .event event now => do
      let (actions, sock) ← s.sock.eventHandler event now
      return ({ actions }, { s with sock })
  | .vClose =>
      match s.close, s.sock.vCloseState with
      | .idle, (.error r, actions, sock) =>
          .ok ({ actions }, { s with sock, close := .finished r })
      | .idle, (.ok next, actions, sock) =>
          .ok ({ actions }, { s with sock, close := .closing next })
      | _, _ => .error .blocks
  | .getNxt =>
      match s.close with
      | .closing next =>
          let (seq, wnd) := s.sock.finSeqWnd
          .ok ({}, { s with close := .numbered next seq wnd })
      | _ => .error .blocks
  | .writeAndSendOne =>
      match s.close with
      | .numbered next seq wnd =>
          .ok ({}, { s with sock := s.sock.writeAndSendOne, close := .taken next seq wnd })
      | _ => .error .blocks
  | .sendFin now =>
      match s.close with
      | .taken next seq wnd => do
          let (actions, sock) ← s.sock.sendFin seq wnd next now
          return ({ actions }, { s with sock, close := .finished (.ok ()) })
      | _ => .error .blocks
  | .vAbort => .ok ({}, { s with sock := s.sock.vAbort.2 })

abbrev Step (M N : ℕ) := Transition (RunningSocket M N) SocketCall SocketReturn

def handOf : Except SocketError (UInt32 × List Byte) → SenderHand
  | .ok (seq, data) => .segment seq data
  | .error _ => .exited

def withSend (s : RunningSocket M N) (sendBuffer : SendBuffer M) : RunningSocket M N :=
  { s with sock := { s.sock with sendBuffer } }

/-- Everything that a section can do. -/
inductive Steps (s : RunningSocket M N) : SocketCall → SocketReturn → RunningSocket M N → Prop
  | refuseSend (data : List Byte) : Steps s (.vSend data) {} s
  | vSend (data : List Byte) (r : Except SocketError ℕ) (wakes : List CondVar) (b : SendBuffer M)
      (hwrite : s.sock.sendBuffer.write data = .ok (r, wakes, b)) :
      Steps s (.vSend data) {}
        { s.withSend b with accepted := s.accepted ++ acceptedOf data r }
  | write (data : List Byte) (r : Except SocketError ℕ) (wakes : List CondVar) (b : SendBuffer M)
      (hwrite : s.sock.sendBuffer.write data = .ok (r, wakes, b)) :
      Steps s (.write data) {}
        { s.withSend b with accepted := s.accepted ++ acceptedOf data r }
  | refuseRecv (buffSize n : ℕ) (e : SocketError)
      (hrecv : s.sock.vRecv buffSize n = .ok (.error e, s.sock)) :
      Steps s (.vRecv buffSize n) { read := some (.error e) } s
  | vRecv (buffSize n : ℕ) (r : Except SocketError (List Byte)) (b : RecvBuffer N)
      (hrecv : s.sock.vRecv buffSize n = .ok (r, { s.sock with recvBuffer := b }))
      (hread : s.sock.recvBuffer.readAtMostNBytes buffSize n = .ok (r, b)) :
      Steps s (.vRecv buffSize n) { read := some r }
        { s with
          sock := { s.sock with recvBuffer := b }
          delivered := s.delivered ++ deliveredOf r }
  | sendReadyData (buffSize : ℕ) (r : Except SocketError (UInt32 × List Byte)) (b : SendBuffer M)
      (hsend : s.sock.sendBuffer.sendReadyData buffSize = .ok (r, b)) :
      Steps s (.sendReadyData buffSize) {} { s.withSend b with sender := handOf r }
  | getAckWnd (seq : UInt32) (data : List Byte) (hsender : s.sender = .segment seq data) :
      Steps s .getAckWnd {}
        { s with sender := .ready seq data s.sock.recvBuffer.nxt s.sock.recvBuffer.sizeFree }
  | sendSegment (now : TimePoint) (seq : UInt32) (data : List Byte) (ack : UInt32) (wnd : ℕ)
      (packet : Packet) (q : RetransmissionQueue) (hsender : s.sender = .ready seq data ack wnd)
      (hpacket : packet = .makeAckPacket seq ack (UInt16.ofNat wnd) data)
      (henq : s.sock.sendBuffer.retransmitQueue.enqueue packet now = .ok q) :
      Steps s (.sendSegment now) { actions := [.sendPacket packet] }
        { s.withSend { s.sock.sendBuffer with retransmitQueue := q } with sender := .waiting }
  | zwp (timeout : Bool) (now : TimePoint) (thread : ZwpThread) (b : SendBuffer M)
      (hzwp : s.sock.sendBuffer.zwpStep s.zwp timeout = .ok (none, thread, b)) :
      Steps s (.zwp timeout now) {} { s.withSend b with zwp := thread }
  | probe (timeout : Bool) (now : TimePoint) (thread : ZwpThread) (b : SendBuffer M)
      (seq : UInt32) (data : Byte) (packet : Packet) (q : RetransmissionQueue)
      (hzwp : s.sock.sendBuffer.zwpStep s.zwp timeout = .ok (some (seq, data), thread, b))
      (hpacket : packet = .makeAckPacket seq s.sock.recvBuffer.nxt
        (UInt16.ofNat s.sock.recvBuffer.sizeFree) [data])
      (henq : b.retransmitQueue.enqueueZwp packet now = .ok q) :
      Steps s (.zwp timeout now) { actions := [.sendPacket packet] }
        { s.withSend { b with retransmitQueue := q } with zwp := thread }
  | retransmit (sWndBound : UInt32) (now : TimePoint) :
      Steps s (.retransmit sWndBound now)
        { actions := (s.sock.retransmitExpired sWndBound now).1 }
        { s with sock := (s.sock.retransmitExpired sWndBound now).2 }
  | event (event : Event) (now : TimePoint) (actions : List Action) (sock : NormalSocket M N)
      (hevent : s.sock.eventHandler event now = .ok (actions, sock)) :
      Steps s (.event event now) { actions } { s with sock }
  | vCloseAtOnce (r : Except SocketError Unit) (actions : List Action) (sock : NormalSocket M N)
      (hclose : s.close = .idle) (hstate : s.sock.vCloseState = (.error r, actions, sock)) :
      Steps s .vClose { actions } { s with sock, close := .finished r }
  | vClose (next : State) (actions : List Action) (hclose : s.close = .idle)
      (hstate : s.sock.vCloseState = (.ok next, actions, s.sock)) :
      Steps s .vClose { actions } { s with close := .closing next }
  | getNxt (next : State) (hclose : s.close = .closing next) :
      Steps s .getNxt {}
        { s with close := .numbered next s.sock.finSeqWnd.1 s.sock.finSeqWnd.2 }
  | writeAndSendOne (next : State) (seq : UInt32) (wnd : UInt16)
      (hclose : s.close = .numbered next seq wnd) :
      Steps s .writeAndSendOne {}
        { s with sock := s.sock.writeAndSendOne, close := .taken next seq wnd }
  | sendFin (now : TimePoint) (next : State) (seq : UInt32) (wnd : UInt16) (packet : Packet)
      (q : RetransmissionQueue) (hclose : s.close = .taken next seq wnd)
      (hpacket : packet = .makeFinPacket seq wnd)
      (henq : s.sock.sendBuffer.retransmitQueue.enqueue packet now = .ok q) :
      Steps s (.sendFin now) { actions := [.sendPacket packet] }
        { s with
          sock := { s.sock with
            sendBuffer := { s.sock.sendBuffer with retransmitQueue := q } }.setState next
          close := .finished (.ok ()) }
  | vAbort : Steps s .vAbort {} { s with sock := s.sock.vAbort.2 }

section Inversion

variable {out : SocketReturn}

theorem Steps.accepted_isPrefix {l : SocketCall} (h : Steps s l out s') :
    s.accepted <+: s'.accepted := by
  cases h with
  | vSend => exact List.prefix_append _ _
  | write => exact List.prefix_append _ _
  | _ => exact List.prefix_rfl

theorem steps_vSend {data : List Byte} (h : s.step (.vSend data) = .ok (out, s')) :
    Steps s (.vSend data) out s' := by
  simp only [step, Exec.bind_eq_ok, Exec.pure_eq_ok, Prod.mk.injEq, Prod.exists] at h
  obtain ⟨r, sock, hsend, rfl, rfl⟩ := h
  rcases NormalSocket.vSend_cases hsend with ⟨e, rfl, rfl⟩ | ⟨wakes, b, hwrite, rfl⟩
  · simpa [acceptedOf] using Steps.refuseSend (s := s) data
  · exact .vSend data r wakes b hwrite

theorem steps_vRecv {buffSize n : ℕ} (h : s.step (.vRecv buffSize n) = .ok (out, s')) :
    Steps s (.vRecv buffSize n) out s' := by
  simp only [step, Exec.bind_eq_ok, Exec.pure_eq_ok, Prod.mk.injEq, Prod.exists] at h
  obtain ⟨r, sock, hrecv, rfl, rfl⟩ := h
  rcases NormalSocket.vRecv_cases hrecv with ⟨e, rfl, rfl⟩ | ⟨b, hread, rfl⟩
  · simpa [deliveredOf] using Steps.refuseRecv (s := s) buffSize n e hrecv
  · exact .vRecv buffSize n r b hrecv hread

theorem steps_sendReadyData {buffSize : ℕ}
    (h : s.step (.sendReadyData buffSize) = .ok (out, s')) :
    Steps s (.sendReadyData buffSize) out s' := by
  simp only [step, Exec.bind_eq_ok, Prod.exists] at h
  obtain ⟨-, -, r, b, hsend, h⟩ := h
  rcases r with e | ⟨seq, data⟩ <;> simp only [Exec.pure_eq_ok, Prod.mk.injEq] at h <;>
    obtain ⟨rfl, rfl⟩ := h <;> exact .sendReadyData buffSize _ b hsend

theorem steps_zwp {timeout : Bool} {now : TimePoint}
    (h : s.step (.zwp timeout now) = .ok (out, s')) :
    Steps s (.zwp timeout now) out s' := by
  simp only [step, Exec.bind_eq_ok, Exec.pure_eq_ok, Prod.mk.injEq, Prod.exists] at h
  obtain ⟨actions, thread, sock, hzwp, rfl, rfl⟩ := h
  obtain ⟨probe, b, hstep, ⟨rfl, rfl, rfl⟩ |
    ⟨seq, data, packet, q, rfl, hpacket, henq, rfl, rfl⟩⟩ := NormalSocket.zwpFunction_cases hzwp
  · exact .zwp timeout now thread b hstep
  · exact .probe timeout now thread b seq data packet q hstep hpacket henq

theorem steps_vClose (h : s.step .vClose = .ok (out, s')) : Steps s .vClose out s' := by
  simp only [step] at h
  split at h
  · rename_i r actions sock hclose hstate
    simp only [Except.ok.injEq, Prod.mk.injEq] at h
    obtain ⟨rfl, rfl⟩ := h
    exact .vCloseAtOnce r actions sock hclose hstate
  · rename_i next actions sock hclose hstate
    simp only [Except.ok.injEq, Prod.mk.injEq] at h
    obtain ⟨rfl, rfl⟩ := h
    obtain rfl : sock = s.sock := (NormalSocket.vCloseState_ok hstate).1
    exact .vClose next actions hclose hstate
  · cases h

theorem steps_of_step {l : SocketCall} (h : s.step l = .ok (out, s')) : Steps s l out s' := by
  cases l with
  | vSend data => exact steps_vSend h
  | vRecv buffSize n => exact steps_vRecv h
  | sendReadyData buffSize => exact steps_sendReadyData h
  | zwp timeout now => exact steps_zwp h
  | vClose => exact steps_vClose h
  | write data =>
      simp only [step, Exec.bind_eq_ok, Exec.pure_eq_ok, Prod.mk.injEq, Prod.exists] at h
      obtain ⟨r, wakes, b, hwrite, rfl, rfl⟩ := h
      exact .write data r wakes b hwrite
  | getAckWnd =>
      simp only [step] at h
      split at h
      · rename_i seq data hsender
        simp only [Except.ok.injEq, Prod.mk.injEq] at h
        obtain ⟨rfl, rfl⟩ := h
        exact .getAckWnd seq data hsender
      · cases h
  | sendSegment now =>
      simp only [step] at h
      split at h
      · rename_i seq data ack wnd hsender
        simp only [Exec.bind_eq_ok, Exec.pure_eq_ok, Prod.mk.injEq, Prod.exists] at h
        obtain ⟨actions, sock, hsend, rfl, rfl⟩ := h
        obtain ⟨rfl, q, henq, rfl⟩ := NormalSocket.sendPacket_cases hsend
        exact .sendSegment now seq data ack wnd _ q hsender rfl henq
      · cases h
  | retransmit sWndBound now =>
      simp only [step, Except.ok.injEq, Prod.mk.injEq] at h
      obtain ⟨rfl, rfl⟩ := h
      exact .retransmit sWndBound now
  | event event now =>
      simp only [step, Exec.bind_eq_ok, Exec.pure_eq_ok, Prod.mk.injEq, Prod.exists] at h
      obtain ⟨actions, sock, hevent, rfl, rfl⟩ := h
      exact .event event now actions sock hevent
  | getNxt =>
      simp only [step] at h
      split at h
      · rename_i next hclose
        simp only [Except.ok.injEq, Prod.mk.injEq] at h
        obtain ⟨rfl, rfl⟩ := h
        exact .getNxt next hclose
      · cases h
  | writeAndSendOne =>
      simp only [step] at h
      split at h
      · rename_i next seq wnd hclose
        simp only [Except.ok.injEq, Prod.mk.injEq] at h
        obtain ⟨rfl, rfl⟩ := h
        exact .writeAndSendOne next seq wnd hclose
      · cases h
  | sendFin now =>
      simp only [step] at h
      split at h
      · rename_i next seq wnd hclose
        simp only [NormalSocket.sendFin, Exec.bind_eq_ok, Exec.pure_eq_ok, Prod.mk.injEq,
          Prod.exists] at h
        obtain ⟨actions, sock, ⟨actions', sock', hsend, rfl, rfl⟩, rfl, rfl⟩ := h
        obtain ⟨rfl, q, henq, rfl⟩ := NormalSocket.sendPacket_cases hsend
        exact .sendFin now next seq wnd _ q hclose rfl henq
      · cases h
  | vAbort =>
      simp only [step, Except.ok.injEq, Prod.mk.injEq] at h
      obtain ⟨rfl, rfl⟩ := h
      exact .vAbort

/-- What a section does at the receiving end: it reads, it handles an event, or the receive
buffer stays as it is or is shut down. -/
theorem Steps.recv_cases {l : SocketCall} (h : Steps s l out s') :
    ((∀ r, out.read = some r → ∃ e, r = .error e) ∧ s'.delivered = s.delivered ∧
        (∀ event now, l ≠ .event event now) ∧
        (s'.sock.recvBuffer = s.sock.recvBuffer ∨
          s'.sock.recvBuffer = s.sock.recvBuffer.shutdown)) ∨
      (∃ buffSize n r b, l = .vRecv buffSize n ∧ out = { read := some r } ∧
        s.sock.recvBuffer.readAtMostNBytes buffSize n = .ok (r, b) ∧
        s' = { s with
          sock := { s.sock with recvBuffer := b }
          delivered := s.delivered ++ deliveredOf r }) ∨
      ∃ event now sock, l = .event event now ∧ out.read = none ∧
        NormalSocket.Handles s.sock now event sock ∧ s' = { s with sock } := by
  cases h with
  | refuseRecv buffSize n e =>
      exact .inl ⟨fun r hr ↦ ⟨e, by simpa using hr.symm⟩, rfl, nofun, .inl rfl⟩
  | vRecv buffSize n r b _ hread => exact .inr (.inl ⟨buffSize, n, r, b, rfl, rfl, hread, rfl⟩)
  | event event now actions sock hevent =>
      have hhandles := NormalSocket.handles_of_eventHandler hevent
      exact .inr (.inr ⟨event, now, sock, rfl, rfl, hhandles, rfl⟩)
  | retransmit edge now =>
      refine .inl ⟨nofun, rfl, nofun, ?_⟩
      obtain ⟨q, -, heq | ⟨result, heq⟩⟩ := s.sock.retransmitExpired_cases edge now <;> rw [heq]
      · exact .inl rfl
      · exact .inr rfl
  | vCloseAtOnce r actions sock hclose hstate =>
      refine .inl ⟨nofun, rfl, nofun, ?_⟩
      obtain rfl | ⟨result, rfl⟩ := NormalSocket.vCloseState_error hstate
      · exact .inl rfl
      · exact .inr rfl
  | vAbort =>
      refine .inl ⟨nofun, rfl, nofun, ?_⟩
      rcases s.sock.vAbort_cases with heq | ⟨result, heq⟩ <;> rw [heq]
      · exact .inl rfl
      · exact .inr rfl
  | _ => exact .inl ⟨nofun, rfl, nofun, .inl rfl⟩

/-- The sections that neither accept data, handle an event nor begin to close. -/
def IsQuiet : SocketCall → Prop
  | .vSend _ | .write _ | .event _ _ | .vClose => False
  | _ => True

/-- With nothing unsent and no FIN to be sent, the quiet sections leave the pointers and the
state as they are, unless retransmission or the application aborts the connection. -/
theorem Steps.quiet {l : SocketCall} (h : Steps s l out s') (hquiet : IsQuiet l)
    (hsent : s.sock.sendBuffer.nxt = s.sock.sendBuffer.nbw) (hclose : s.close.next = none) :
    s'.sock.sendBuffer.SamePointers s.sock.sendBuffer ∧ s'.close = s.close ∧
      ((s'.sock.state = s.sock.state ∧ s'.sock.result = s.sock.result ∧
          s'.sock.recvBuffer.nxt = s.sock.recvBuffer.nxt ∧
          (s.sock.recvBuffer.nbr = s.sock.recvBuffer.nxt →
            s'.sock.recvBuffer.nbr = s.sock.recvBuffer.nbr)) ∨
        s'.sock.state = .closed) := by
  cases h with
  | refuseSend => exact hquiet.elim
  | vSend => exact hquiet.elim
  | write => exact hquiet.elim
  | event => exact hquiet.elim
  | vCloseAtOnce => exact hquiet.elim
  | vClose => exact hquiet.elim
  | refuseRecv => exact ⟨.refl _, rfl, .inl ⟨rfl, rfl, rfl, fun _ ↦ rfl⟩⟩
  | vRecv buffSize n r b _ hread =>
      refine ⟨.refl _, rfl, .inl ⟨rfl, rfl, ?_⟩⟩
      rcases RecvBuffer.readAtMostNBytes_cases hread with ⟨-, -, rfl⟩ | ⟨-, -, -, rfl⟩ |
        ⟨-, -, hpos, data, -, -, -, rfl⟩
      · exact ⟨rfl, fun _ ↦ rfl⟩
      · exact ⟨rfl, fun _ ↦ rfl⟩
      · refine ⟨rfl, fun heq ↦ ?_⟩
        simp [RecvBuffer.sizeToRead, heq] at hpos
  | sendReadyData buffSize r b hsend =>
      rcases SendBuffer.sendReadyData_cases hsend with ⟨-, -, rfl⟩ | ⟨-, hpos, -⟩
      · exact ⟨.refl _, rfl, .inl ⟨rfl, rfl, rfl, fun _ ↦ rfl⟩⟩
      · rw [SendBuffer.sizeCanSend_eq_zero.mpr (.inr hsent)] at hpos
        exact absurd hpos (lt_irrefl 0)
  | getAckWnd => exact ⟨.refl _, rfl, .inl ⟨rfl, rfl, rfl, fun _ ↦ rfl⟩⟩
  | sendSegment => exact ⟨⟨rfl, rfl, rfl⟩, rfl, .inl ⟨rfl, rfl, rfl, fun _ ↦ rfl⟩⟩
  | zwp timeout now thread b hzwp =>
      rcases SendBuffer.zwpStep_cases hzwp with ⟨-, z, rfl⟩ | ⟨-, -, -, data, -, hprobe, -⟩
      · exact ⟨⟨rfl, rfl, rfl⟩, rfl, .inl ⟨rfl, rfl, rfl, fun _ ↦ rfl⟩⟩
      · cases hprobe
  | probe timeout now thread b seq data packet q hzwp =>
      rcases SendBuffer.zwpStep_cases hzwp with ⟨hprobe, -⟩ | ⟨-, -, hpos, -⟩
      · cases hprobe
      · rw [SendBuffer.sizeNotSent_eq_zero.mpr hsent] at hpos
        exact absurd hpos (lt_irrefl 0)
  | retransmit edge now =>
      obtain ⟨q, -, heq | ⟨result, heq⟩⟩ := s.sock.retransmitExpired_cases edge now <;> rw [heq]
      · exact ⟨⟨rfl, rfl, rfl⟩, rfl, .inl ⟨rfl, rfl, rfl, fun _ ↦ rfl⟩⟩
      · exact ⟨⟨rfl, rfl, rfl⟩, rfl, .inr rfl⟩
  | getNxt _ hnext =>
      rw [hnext] at hclose
      cases hclose
  | writeAndSendOne _ _ _ hnext =>
      rw [hnext] at hclose
      cases hclose
  | sendFin _ _ _ _ _ _ hnext =>
      rw [hnext] at hclose
      cases hclose
  | vAbort =>
      rcases s.sock.vAbort_cases with heq | ⟨result, heq⟩ <;> rw [heq]
      · exact ⟨.refl _, rfl, .inl ⟨rfl, rfl, rfl, fun _ ↦ rfl⟩⟩
      · exact ⟨⟨rfl, rfl, rfl⟩, rfl, .inr rfl⟩

end Inversion

/-- What has been accepted stays accepted. -/
theorem accepted_isPrefix {tr : List (Step M N)} (h : Trace step s tr s') :
    s.accepted <+: s'.accepted ∧
      ∀ t ∈ tr, t.pre.accepted <+: s'.accepted ∧ t.post.accepted <+: s'.accepted := by
  induction h with
  | nil => exact ⟨List.prefix_rfl, by simp⟩
  | cons head tail ih =>
      have hhead := (steps_of_step head).accepted_isPrefix
      obtain ⟨hend, hall⟩ := ih
      exact ⟨hhead.trans hend, List.forall_mem_cons.mpr ⟨⟨hhead.trans hend, hend⟩, hall⟩⟩

end RunningSocket

end Tns.Tcp
