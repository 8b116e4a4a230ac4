import Tns.Tcp.ActiveOpen
import Tns.Tcp.Reaper

/-!
# Listeners and the sockets of the table

The calls that change a socket in the table, with what they ask of its listener:
a socket in SYN_RECEIVED is in the pending list of its listener, and goes from
there to the accept queue when its handshake is complete.
-/

namespace Tns.Tcp

open Tns.Library

/-- What happens to a normal socket.  `transfer` stands for `vSend`, `vRecv` and the threads of
the socket, which change its buffers only. -/
inductive NormalCall (M N : ℕ) where
  | event (event : Event) (now : TimePoint)
  | vClose (now : TimePoint)
  | vAbort
  | retransmit (sWndBound : UInt32) (now : TimePoint)
  | connected
  | transfer (sendBuffer : SendBuffer M) (recvBuffer : RecvBuffer N)

namespace NormalSocket

variable {M N : ℕ} {s s' : NormalSocket M N} {now : TimePoint} {actions : List Action}

def call (s : NormalSocket M N) : NormalCall M N →
    Exec (Option (Except SocketError Unit) × List Action × NormalSocket M N)
  | .event event now => do
      let (actions, s) ← s.eventHandler event now
      return (none, actions, s)
  | .vClose now => do
      let (r, actions, s) ← s.vClose now
      return (some r, actions, s)
  | .vAbort =>
      match s.vAbort with
      | (.ok actions, s) => .ok (some (.ok ()), actions, s)
      | (.error e, s) => .ok (some (.error e), [], s)
  | .retransmit sWndBound now =>
      let (actions, s) := s.retransmitExpired sWndBound now
      .ok (none, actions, s)
  | .connected => do
      let (r, s) ← s.connected
      return (some r, [], s)
  | .transfer sendBuffer recvBuffer => .ok (none, [], { s with sendBuffer, recvBuffer })

/-- Nothing is asked of the listener. -/
def Sends (actions : List Action) : Prop := ∀ a ∈ actions, ∃ packet, a = .sendPacket packet

/-- Everything that a call does to a socket, as far as its listener is concerned: the socket
stays in SYN_RECEIVED or stays out of it, or it leaves the pending list, or it goes from there
to the accept queue. -/
inductive Changes (s : NormalSocket M N) : List Action → NormalSocket M N → Prop
  | keeps (actions : List Action) (s' : NormalSocket M N)
      (hstate : ∀ lSock, s'.state = .synReceived lSock ↔ s.state = .synReceived lSock)
      (hsends : Sends actions) : Changes s actions s'
  | leaves (lSock : ℕ) (sent : List Action) (s' : NormalSocket M N)
      (hstate : s.state = .synReceived lSock) (hleft : ∀ lSock, s'.state ≠ .synReceived lSock)
      (hsends : Sends sent) : Changes s (.removePending lSock :: sent) s'
  | opens (lSock : ℕ) (s' : NormalSocket M N) (hstate : s.state = .synReceived lSock)
      (hopen : s'.state = .established) :
      Changes s [.removePending lSock, .pushAccept lSock] s'

theorem Changes.keeps_of_eq (hstate : s'.state = s.state) (hsends : Sends actions) :
    Changes s actions s' :=
  .keeps actions s' (fun _ ↦ by rw [hstate]) hsends

theorem sends_nil : Sends [] := fun _ ha ↦ absurd ha List.not_mem_nil

theorem sends_singleton (packet : Packet) : Sends [.sendPacket packet] :=
  fun _ ha ↦ ⟨packet, List.mem_singleton.mp ha⟩

theorem Handles.synReceived {event : Event} {lSock : ℕ} (h : Handles s now event s')
    (hstate : s'.state = .synReceived lSock) : s.state = .synReceived lSock := by
  cases h with
  | opened => cases hstate
  | closeWait => cases hstate
  | timeWait => cases hstate
  | finAcked => cases hstate
  | closed => cases hstate
  | _ => exact hstate

theorem sends_of_processAck {seqNum ackNum : UInt32} {wndSize : UInt16} {payload : List Byte}
    (h : s.processAck seqNum ackNum wndSize payload now = .ok (actions, s')) : Sends actions := by
  rcases processAck_cases h with ⟨-, rfl, -⟩ | ⟨r, recvBuffer, -, rfl, -⟩
  · exact sends_nil
  · exact sends_singleton _

theorem sends_of_finWait1 {seqNum ackNum : UInt32} {wndSize : UInt16} {payload : List Byte}
    (h : s.handleFinWait1GetAck seqNum ackNum wndSize payload now = .ok (actions, s')) :
    Sends actions := by
  simp only [handleFinWait1GetAck] at h
  split at h
  · simp only [Exec.bind_eq_ok, Exec.pure_eq_ok, Prod.mk.injEq] at h
    obtain ⟨_, -, rfl, -⟩ := h
    exact sends_singleton _
  · split at h <;> simp only [Exec.pure_eq_ok, Prod.mk.injEq] at h <;> obtain ⟨rfl, -⟩ := h <;>
      exact sends_nil

theorem sends_processFin (s : NormalSocket M N) (seqNum : UInt32) (wndSize : UInt16)
    (now : TimePoint) : Sends (s.processFin seqNum wndSize now).2.1 :=
  sends_singleton _

theorem sends_of_establishedGetFin {seqNum : UInt32} {wndSize : UInt16}
    (h : s.handleEstablishedGetFin seqNum wndSize now = .ok (actions, s')) : Sends actions := by
  have hsends := s.sends_processFin seqNum wndSize now
  simp only [handleEstablishedGetFin] at h
  split at h <;> obtain ⟨rfl, -⟩ := Prod.mk.inj (Except.ok.inj h) <;> exact hsends

theorem sends_of_finWait2GetFin {seqNum : UInt32} {wndSize : UInt16}
    (h : s.handleFinWait2GetFin seqNum wndSize now = .ok (actions, s')) : Sends actions := by
  have hsends := s.sends_processFin seqNum wndSize now
  simp only [handleFinWait2GetFin] at h
  split at h <;> obtain ⟨rfl, -⟩ := Prod.mk.inj (Except.ok.inj h) <;> exact hsends

/-- Only a handler of SYN_RECEIVED turns to the listener. -/
theorem sends_of_eventHandler {event : Event} (hno : ∀ lSock, s.state ≠ .synReceived lSock)
    (h : s.eventHandler event now = .ok (actions, s')) : Sends actions := by
  unfold eventHandler at h
  split at h
  · simp only [handleSynSentGetSynAck] at h
    split at h <;> simp only [Except.ok.injEq, Prod.mk.injEq] at h <;> obtain ⟨rfl, -⟩ := h
    · exact sends_nil
    · exact sends_singleton _
  · rename_i hstate
    exact absurd hstate (hno _)
  · exact sends_of_processAck h
  · simp only [handleEstablishedGetSynAck, Except.ok.injEq, Prod.mk.injEq] at h
    obtain ⟨rfl, -⟩ := h
    exact sends_singleton _
  · exact sends_of_establishedGetFin h
  · exact sends_of_establishedGetFin h
  · exact sends_of_processAck h
  · rw [← (Prod.mk.inj (Except.ok.inj h)).1]
    exact sends_processFin s _ _ now
  · simp only [handleLastAckGetAck] at h
    split at h <;> simp only [Except.ok.injEq, Prod.mk.injEq] at h <;> obtain ⟨rfl, -⟩ := h <;>
      exact sends_nil
  · exact sends_of_finWait1 h
  · exact sends_of_finWait2GetFin h
  · exact sends_of_processAck h
  · rw [← (Prod.mk.inj (Except.ok.inj h)).1]
    exact sends_processFin s _ _ now
  · simp only [Except.ok.injEq, Prod.mk.injEq] at h
    obtain ⟨rfl, -⟩ := h
    exact sends_nil

theorem changes_of_synReceived {lSock : ℕ} {seqNum ackNum : UInt32} {wndSize : UInt16}
    (hstate : s.state = .synReceived lSock)
    (h : s.handleSynReceivedGetAck lSock seqNum ackNum wndSize now = .ok (actions, s')) :
    Changes s actions s' := by
  simp only [handleSynReceivedGetAck] at h
  split at h
  · simp only [Exec.pure_eq_ok, Prod.mk.injEq] at h
    obtain ⟨rfl, rfl⟩ := h
    exact .keeps_of_eq rfl sends_nil
  · split at h
    · simp only [Exec.pure_eq_ok, Prod.mk.injEq] at h
      obtain ⟨rfl, rfl⟩ := h
      exact .keeps_of_eq rfl sends_nil
    · simp only [Exec.bind_eq_ok, Exec.pure_eq_ok, Prod.mk.injEq] at h
      obtain ⟨-, -, -, -, rfl, rfl⟩ := h
      exact .opens lSock _ hstate rfl

theorem changes_of_eventHandler {event : Event}
    (h : s.eventHandler event now = .ok (actions, s')) : Changes s actions s' := by
  by_cases hno : ∀ lSock, s.state ≠ .synReceived lSock
  · refine .keeps actions s' ?_ (sends_of_eventHandler hno h)
    intro lSock
    constructor
    · exact (handles_of_eventHandler h).synReceived
    · exact fun hstate ↦ absurd hstate (hno lSock)
  · simp only [ne_eq, not_forall, not_not] at hno
    obtain ⟨lSock, hstate⟩ := hno
    unfold eventHandler at h
    rw [hstate] at h
    cases event with
    | getAck => exact changes_of_synReceived hstate h
    | _ =>
        obtain ⟨rfl, rfl⟩ := Prod.mk.inj (Except.ok.inj h)
        exact .keeps_of_eq rfl sends_nil

theorem changes_of_sendFin {seq : UInt32} {wnd : UInt16} {next : State} {s₁ : NormalSocket M N}
    (hsend : s₁.sendFin seq wnd next now = .ok (actions, s')) :
    Sends actions ∧ s'.state = next := by
  simp only [sendFin, Exec.bind_eq_ok, Exec.pure_eq_ok, Prod.mk.injEq, Prod.exists] at hsend
  obtain ⟨_, sock, hpacket, rfl, rfl⟩ := hsend
  obtain ⟨rfl, -⟩ := sendPacket_cases hpacket
  exact ⟨sends_singleton _, rfl⟩

theorem changes_of_vClose {r : Except SocketError Unit}
    (h : s.vClose now = .ok (r, actions, s')) : Changes s actions s' := by
  unfold NormalSocket.vClose at h
  split at h <;> rename_i hclose <;> unfold vCloseState at hclose
  · simp only [Except.ok.injEq, Prod.mk.injEq] at h
    obtain ⟨rfl, rfl, rfl⟩ := h
    split at hclose <;> simp only [Prod.mk.injEq, reduceCtorEq, false_and] at hclose <;>
      obtain ⟨-, rfl, rfl⟩ := hclose
    · rename_i hstate
      exact .keeps _ _ (by simp [hstate]) sends_nil
    · exact .keeps_of_eq rfl sends_nil
    all_goals exact .keeps_of_eq rfl sends_nil
  · simp only [Exec.bind_eq_ok, Exec.pure_eq_ok, Prod.mk.injEq, Prod.exists] at h
    obtain ⟨sent, sock, hsend, -, rfl, rfl⟩ := h
    obtain ⟨hsends, hnext⟩ := changes_of_sendFin hsend
    split at hclose <;> simp only [Prod.mk.injEq, Except.ok.injEq, reduceCtorEq, false_and]
      at hclose <;> obtain ⟨rfl, rfl, rfl⟩ := hclose <;> rename_i hstate
    · exact .leaves _ sent _ hstate (by simp [hnext]) hsends
    · exact .keeps _ _ (by simp [hstate, hnext]) hsends
    · exact .keeps _ _ (by simp [hstate, hnext]) hsends

theorem state_of_vClose {r : Except SocketError Unit}
    (h : s.vClose now = .ok (r, actions, s')) :
    s'.state ≠ .established ∧ ∀ lSock, s'.state ≠ .synReceived lSock := by
  unfold NormalSocket.vClose at h
  split at h <;> rename_i hclose <;> unfold vCloseState at hclose
  · simp only [Except.ok.injEq, Prod.mk.injEq] at h
    obtain ⟨-, -, rfl⟩ := h
    split at hclose <;> simp only [Prod.mk.injEq, reduceCtorEq, false_and] at hclose <;>
      rename_i hstate <;> obtain ⟨-, -, rfl⟩ := hclose <;> simp [hstate]
  · simp only [Exec.bind_eq_ok, Exec.pure_eq_ok, Prod.mk.injEq, Prod.exists] at h
    obtain ⟨_, _, hsend, -, -, rfl⟩ := h
    rw [(changes_of_sendFin hsend).2]
    split at hclose <;> simp only [Prod.mk.injEq, Except.ok.injEq, reduceCtorEq, false_and]
      at hclose <;> obtain ⟨rfl, -, -⟩ := hclose <;> simp

theorem changes_of_vAbort {r : Except SocketError (List Action)} (h : s.vAbort = (r, s')) :
    Changes s (r.toOption.getD []) s' := by
  unfold vAbort at h
  split at h <;> rename_i hstate <;> obtain ⟨rfl, rfl⟩ := Prod.mk.inj h
  · exact .keeps_of_eq rfl sends_nil
  · exact .keeps _ _ (by simp [hstate]) sends_nil
  · exact .leaves _ [] _ hstate (by simp) sends_nil
  · refine .keeps _ _ (fun lSock ↦ ?_) sends_nil
    simp only [setState_state, reduceCtorEq, false_iff]
    exact hstate lSock

theorem changes_of_retransmitExpired (s : NormalSocket M N) (sWndBound : UInt32)
    (now : TimePoint) :
    Changes s (s.retransmitExpired sWndBound now).1 (s.retransmitExpired sWndBound now).2 := by
  have hsame : ∀ {actions : List Action} {q : RetransmissionQueue} {s' : NormalSocket M N},
      Changes { s with sendBuffer := { s.sendBuffer with retransmitQueue := q } } actions s' →
        Changes s actions s' := by
    intro actions q s' h
    cases h with
    | keeps _ _ hstate hsends => exact .keeps _ _ hstate hsends
    | leaves lSock sent _ hstate hleft hsends => exact .leaves lSock sent _ hstate hleft hsends
    | opens lSock _ hstate hopen => exact .opens lSock _ hstate hopen
  simp only [retransmitExpired]
  split
  · refine .keeps_of_eq rfl ?_
    intro a ha
    obtain ⟨e, -, rfl⟩ := List.mem_map.mp ha
    exact ⟨e.packet, rfl⟩
  · split <;> rename_i habort <;> exact hsame (changes_of_vAbort habort)

theorem eq_of_connected_error {e : SocketError} (h : s.connected = .ok (.error e, s')) :
    s' = s := by
  simp only [connected, Exec.bind_eq_ok] at h
  obtain ⟨err, -, h⟩ := h
  split at h
  · simp only [Exec.pure_eq_ok, Prod.mk.injEq] at h
    exact h.2.symm
  · simp only [Exec.bind_eq_ok, Exec.pure_eq_ok, Prod.mk.injEq, reduceCtorEq, false_and,
      and_false, exists_false] at h

theorem changes_of_call {c : NormalCall M N} {r : Option (Except SocketError Unit)}
    (h : s.call c = .ok (r, actions, s')) : Changes s actions s' := by
  cases c with
  | event event now =>
      simp only [call, Exec.bind_eq_ok, Exec.pure_eq_ok, Prod.exists, Prod.mk.injEq] at h
      obtain ⟨_, _, hevent, -, rfl, rfl⟩ := h
      exact changes_of_eventHandler hevent
  | vClose now =>
      simp only [call, Exec.bind_eq_ok, Exec.pure_eq_ok, Prod.exists, Prod.mk.injEq] at h
      obtain ⟨_, _, _, hclose, -, rfl, rfl⟩ := h
      exact changes_of_vClose hclose
  | vAbort =>
      simp only [call] at h
      split at h <;> rename_i habort <;> simp only [Except.ok.injEq, Prod.mk.injEq] at h <;>
        obtain ⟨-, rfl, rfl⟩ := h <;> exact changes_of_vAbort habort
  | retransmit sWndBound now =>
      simp only [call, Except.ok.injEq, Prod.mk.injEq] at h
      obtain ⟨-, rfl, rfl⟩ := h
      exact changes_of_retransmitExpired s sWndBound now
  | connected =>
      simp only [call, Exec.bind_eq_ok, Exec.pure_eq_ok, Prod.exists, Prod.mk.injEq] at h
      obtain ⟨r', _, hconn, -, rfl, rfl⟩ := h
      cases r' with
      | error e =>
          obtain rfl := eq_of_connected_error hconn
          exact .keeps_of_eq rfl sends_nil
      | ok =>
          obtain ⟨-, -, hstate, -, -, rfl⟩ := connected_eq_ok.mp hconn
          exact .keeps _ _ (by simp [hstate]) sends_nil
  | transfer sendBuffer recvBuffer =>
      simp only [call, Except.ok.injEq, Prod.mk.injEq] at h
      obtain ⟨-, rfl, rfl⟩ := h
      exact .keeps_of_eq rfl sends_nil

end NormalSocket

namespace TcpStack

variable {M N : ℕ}

/-- A call on a normal socket that is given by reference. -/
def callSocket (s : TcpStack M N) (r : SocketRef) (c : NormalCall M N) :
    Exec (Option (Except SocketError Unit) × List Action × TcpStack M N) := do
  let e ← s.normalSocket r
  let (result, actions, sock) ← e.sock.call c
  return (result, actions, actions.foldl (perform · e) (s.setSocket (.normal { e with sock })))

/-- `PendingSocks::onClose`. -/
def pendingSocksOnClose (s : TcpStack M N) (r : SocketRef) (now : TimePoint) :
    Exec (List Action × TcpStack M N) := do
  let l ← s.listenSocket r
  forEach (vClose now) (s.setSocket (.listen { l with pendingSocks := [] }))
    (l.pendingSocks.map Prod.snd)

/-- `AcceptQueue::onClose`.  Its flag `closed` is not a field of its own: `vClose` sets it
together with the state of the listener. -/
def acceptQOnClose (s : TcpStack M N) (r : SocketRef) (now : TimePoint) :
    Exec (List Action × TcpStack M N) := do
  let l ← s.listenSocket r
  forEach (vClose now) (s.setSocket (.listen { l with acceptQ := [] })) l.acceptQ

/-- `ListenSocket::vClose`, which `ListenSocket::vAbort` calls. -/
def vCloseListen (s : TcpStack M N) (r : SocketRef) (now : TimePoint) :
    Exec (Except SocketError Unit × List Action × TcpStack M N) := do
  let l ← s.listenSocket r
  match l.state with
  | .listen =>
      let (actions, s) ← s.pendingSocksOnClose r now
      let (more, s) ← s.acceptQOnClose r now
      let l ← s.listenSocket r
      return (.ok (), actions ++ more, s.setSocket (.listen { l with state := .closed }))
  | .closed => return (.error .connNotExist, [], s)
  | _ => .error (.logicError "ListenSocket::vClose() called in an invalid state")

/-- `TcpStack::vClose` and `TcpStack::vAbort`: the call of that name on a socket that is given
by its id. -/
def visitSocket (s : TcpStack M N) (id : ℕ) (c : NormalCall M N) (now : TimePoint) :
    Exec (Option (Except SocketError Unit) × List Action × TcpStack M N) :=
  match s.socketTable.lookup id with
  | none => .ok (some (.error .connNotExist), [], s)
  | some (.normal e) => s.callSocket e.ref c
  | some (.listen l) => do
      let (r, actions, s) ← s.vCloseListen l.ref now
      return (some r, actions, s)

/-- `ListenSocket::vAccept`. -/
def vAccept (s : TcpStack M N) (r : SocketRef) :
    Exec (Except SocketError SocketRef × TcpStack M N) := do
  let l ← s.listenSocket r
  Exec.waitUntil (l.acceptQ ≠ [] ∨ l.state = .closed)
  if l.state = .closed then
    return (.error .closing, s)
  else
    match l.acceptQ with
    | [] => .error .blocks
    | sock :: queue => return (.ok sock, s.setSocket (.listen { l with acceptQ := queue }))

/-- `eventHandler_(Listen, GetSyn)`.  A listener in another state ignores the event. -/
def handleListenGetSyn (s : TcpStack M N) (listener : SocketRef) (session : SessionTuple)
    (clientISN : UInt32) (clientWND : UInt16) (sendBuf : Vector Byte M) (recvBuf : Vector Byte N)
    (isn : UInt32) (now : TimePoint) :
    Exec (Option (Except SocketError SocketRef) × List Action × TcpStack M N) := do
  let l ← s.listenSocket listener
  if l.state = .listen then
    let (r, actions, s) ← s.createPassiveConnection session clientISN clientWND.toUInt32 listener
      sendBuf recvBuf isn now
    return (some r, actions, s)
  else
    return (none, [], s)

end TcpStack

/-- The calls on the sockets of the table, of the application, of the network and of the
threads. -/
inductive TableCall (M N : ℕ) where
  | createListenSocket (port : UInt16)
  | createActiveConnection (tuple : SessionTuple) (sendBuf : Vector Byte M)
      (recvBuf : Vector Byte N) (isn : UInt32) (now : TimePoint)
  | getSyn (listener : SocketRef) (session : SessionTuple) (clientISN : UInt32)
      (clientWND : UInt16) (sendBuf : Vector Byte M) (recvBuf : Vector Byte N) (isn : UInt32)
      (now : TimePoint)
  | callSocket (r : SocketRef) (c : NormalCall M N)
  | vClose (id : ℕ) (now : TimePoint)
  | vAbort (id : ℕ) (now : TimePoint)
  | vAccept (listener : SocketRef)
  | reap (now : TimePoint)

structure TableReturn where
  created : Option (Except SocketError SocketRef) := none
  accepted : Option (Except SocketError SocketRef) := none
  closed : Option (Except SocketError Unit) := none
  actions : List Action := []

namespace TcpStack

variable {M N : ℕ} {s s' : TcpStack M N}

def call (s : TcpStack M N) : TableCall M N → Exec (TableReturn × TcpStack M N)
  | .createListenSocket port => do
      let (r, s) ← s.createListenSocket port
      return ({ created := some r }, s)
  | .createActiveConnection tuple sendBuf recvBuf isn now => do
      let (r, actions, s) ← s.createActiveConnection tuple sendBuf recvBuf isn now
      return ({ created := some r, actions }, s)
  | .getSyn listener session clientISN clientWND sendBuf recvBuf isn now => do
      let (r, actions, s) ←
        s.handleListenGetSyn listener session clientISN clientWND sendBuf recvBuf isn now
      return ({ created := r, actions }, s)
  | .callSocket r c => do
      let (closed, actions, s) ← s.callSocket r c
      return ({ closed, actions }, s)
  | .vClose id now => do
      let (closed, actions, s) ← s.visitSocket id (.vClose now) now
      return ({ closed, actions }, s)
  | .vAbort id now => do
      let (closed, actions, s) ← s.visitSocket id .vAbort now
      return ({ closed, actions }, s)
  | .vAccept listener => do
      let (r, s) ← s.vAccept listener
      return ({ accepted := some r }, s)
  | .reap now => do
      let (actions, s) ← s.reap now
      return ({ actions }, s)

abbrev Call (M N : ℕ) := Transition (TcpStack M N) (TableCall M N) TableReturn

/-! ## Looking sockets up -/

theorem lookup_setSocket (sock : Socket M N) (i : ℕ) :
    (s.setSocket sock).socketTable.lookup i =
      if i = sock.ref.id then some sock else s.socketTable.lookup i := by
  split
  · rename_i heq
    subst heq
    exact Finmap.lookup_insert _
  · rename_i hne
    exact Finmap.lookup_insert_of_ne _ hne

theorem setSocket_comm {a b : Socket M N} (hne : a.ref.id ≠ b.ref.id) :
    (s.setSocket a).setSocket b = (s.setSocket b).setSocket a := by
  simp only [setSocket, Finmap.insert_insert_of_ne _ hne]

/-- What a new socket adds to the table. -/
theorem lookup_of_createSocket {new : NewSocket M N} {ref : SocketRef}
    (h : s.createSocket new = .ok (.ok ref, s')) :
    ref.id ∉ s.socketTable ∧ s.find new.key = none ∧ ∀ i, s'.socketTable.lookup i =
      if i = ref.id then some (new.make ref) else s.socketTable.lookup i := by
  obtain ⟨hnew, hfind, -, rfl⟩ := createSocket_eq_ok h
  refine ⟨hnew, hfind, ?_⟩
  intro i
  dsimp only
  split
  · rename_i heq
    subst heq
    exact Finmap.lookup_insert _
  · rename_i hne
    exact Finmap.lookup_insert_of_ne _ hne

theorem lookup_of_createSocket_of_some {new : NewSocket M N} {ref : SocketRef} {i : ℕ}
    {sock : Socket M N} (h : s.createSocket new = .ok (.ok ref, s'))
    (hi : s.socketTable.lookup i = some sock) : s'.socketTable.lookup i = some sock := by
  obtain ⟨hfresh, -, hlookup⟩ := lookup_of_createSocket h
  rw [hlookup, if_neg]
  · exact hi
  · rintro rfl
    exact hfresh (Finmap.mem_of_lookup_eq_some hi)

/-- A listener in the table was there, or is new and refers to nothing. -/
theorem lookup_listen_of_createSocket {new : NewSocket M N} {ref : SocketRef} {i : ℕ}
    {l : ListenSocket} (h : s.createSocket new = .ok (.ok ref, s'))
    (hl : s'.socketTable.lookup i = some (.listen l)) :
    s.socketTable.lookup i = some (.listen l) ∨
      l.pendingSocks = [] ∧ l.acceptQ = [] ∧ l.state = .listen := by
  rw [(lookup_of_createSocket h).2.2] at hl
  split at hl
  · cases new with
    | listen port =>
        rw [NewSocket.make, Option.some.injEq, Socket.listen.injEq] at hl
        subst hl
        exact .inr ⟨rfl, rfl, rfl⟩
    | normal tuple sock => cases hl
  · exact .inl hl

theorem normalSocket_of_createSocket {tuple : SessionTuple} {sock : NormalSocket M N}
    {ref : SocketRef} (h : s.createSocket (.normal tuple sock) = .ok (.ok ref, s')) :
    s'.normalSocket ref = .ok ⟨ref, tuple, sock⟩ := by
  rw [normalSocket_eq_ok, (lookup_of_createSocket h).2.2, if_pos rfl]
  exact ⟨rfl, rfl⟩

theorem eq_of_perform_sends {actions : List Action} (h : NormalSocket.Sends actions)
    (e : TableSocket M N) : actions.foldl (perform · e) s = s := by
  induction actions generalizing s with
  | nil => rfl
  | cons action actions ih =>
      obtain ⟨packet, rfl⟩ := h action List.mem_cons_self
      exact ih fun a ha ↦ h a (List.mem_cons_of_mem _ ha)

theorem Consistent.callSocket {held : Finset ℕ} {r : SocketRef} {c : NormalCall M N}
    {result : Option (Except SocketError Unit)} {actions : List Action} (h : Consistent held s)
    (hcall : s.callSocket r c = .ok (result, actions, s')) : Consistent held s' := by
  simp only [TcpStack.callSocket, Exec.bind_eq_ok, Exec.pure_eq_ok, Prod.exists,
    Prod.mk.injEq] at hcall
  obtain ⟨e, hsock, _, _, sock, -, -, rfl, rfl⟩ := hcall
  have hset : Consistent held (s.setSocket (.normal { e with sock })) :=
    h.setSocket (normalSocket_eq_ok.mp hsock).1 rfl rfl
  exact hset.perform e _

section Views

variable {r : SocketRef} {e : TableSocket M N} {id : ℕ} {l : ListenSocket}

theorem ref_of_normalSocket (h : s.normalSocket r = .ok e) : e.ref = r :=
  (normalSocket_eq_ok.mp h).2

theorem normalSocket_setNormal (he : s.normalSocket r = .ok e) (sock : NormalSocket M N)
    (r' : SocketRef) (e' : TableSocket M N) :
    (s.setSocket (.normal { e with sock })).normalSocket r' = .ok e' ↔
      if r' = r then e' = { e with sock } else s.normalSocket r' = .ok e' := by
  obtain ⟨hlookup, rfl⟩ := normalSocket_eq_ok.mp he
  rw [normalSocket_eq_ok, normalSocket_eq_ok, lookup_setSocket]
  by_cases hr : r' = e.ref
  · subst hr
    simp only [Socket.ref, if_true, Option.some.injEq, Socket.normal.injEq]
    constructor
    · rintro ⟨rfl, -⟩
      rfl
    · rintro rfl
      exact ⟨rfl, rfl⟩
  · rw [if_neg hr]
    by_cases hid : r'.id = e.ref.id
    · rw [hid, hlookup]
      simp only [Socket.ref, if_true, Option.some.injEq, Socket.normal.injEq]
      constructor
      · rintro ⟨rfl, href⟩
        exact absurd href.symm hr
      · rintro ⟨rfl, href⟩
        exact absurd href.symm hr
    · simp only [Socket.ref, hid, if_false]

theorem normalSocket_setSocket (he : s.normalSocket r = .ok e) (sock : NormalSocket M N) :
    (s.setSocket (.normal { e with sock })).normalSocket r = .ok { e with sock } :=
  (normalSocket_setNormal he sock r _).mpr (by rw [if_pos rfl])

theorem lookup_listen_setNormal (he : s.normalSocket r = .ok e) (sock : NormalSocket M N) :
    (s.setSocket (.normal { e with sock })).socketTable.lookup id = some (.listen l) ↔
      s.socketTable.lookup id = some (.listen l) := by
  obtain ⟨hlookup, rfl⟩ := normalSocket_eq_ok.mp he
  rw [lookup_setSocket]
  split
  · rename_i heq
    subst heq
    rw [show s.socketTable.lookup (Socket.normal { e with sock }).ref.id = _ from hlookup]
    simp
  · rfl

theorem normalSocket_setListen {l' : ListenSocket} (hid : l'.ref.id = id)
    (hl : s.socketTable.lookup id = some (.listen l)) (r : SocketRef) (e : TableSocket M N) :
    (s.setSocket (.listen l')).normalSocket r = .ok e ↔ s.normalSocket r = .ok e := by
  subst hid
  rw [normalSocket_eq_ok, normalSocket_eq_ok, lookup_setSocket]
  refine and_congr_left fun _ ↦ ?_
  split
  · rename_i heq
    rw [heq, show s.socketTable.lookup (Socket.listen (M := M) (N := N) l').ref.id = _ from hl]
    simp
  · rfl

theorem lookup_listen_setListen {l' k : ListenSocket} {i : ℕ} :
    (s.setSocket (.listen l')).socketTable.lookup i = some (.listen k) ↔
      if i = l'.ref.id then k = l' else s.socketTable.lookup i = some (.listen k) := by
  rw [lookup_setSocket]
  by_cases hi : i = l'.ref.id
  · subst hi
    simp [Socket.ref, eq_comm]
  · rw [if_neg hi]
    simp [Socket.ref, hi]

theorem Consistent.setNormal {held : Finset ℕ} (h : Consistent held s)
    (he : s.normalSocket r = .ok e) (sock : NormalSocket M N) :
    Consistent held (s.setSocket (.normal { e with sock })) :=
  h.setSocket (normalSocket_eq_ok.mp he).1 rfl rfl

end Views

end TcpStack

end Tns.Tcp
