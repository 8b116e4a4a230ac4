import Mathlib.Data.Finmap
import Mathlib.Data.Finset.Sort
import Mathlib.Order.Interval.Finset.Nat
import Tns.Library.Trace
import Tns.Tcp.NormalSocket

/-!
# The TCP stack

The stack keeps its sockets in a table by id, one index of the normal sockets by
session tuple, one of the listen sockets by port, and the ids that are free.  A
new socket takes three critical sections: the test for a duplicate, the
allocation of an id, and the insertion.  The reaper destroys closed sockets.
-/

namespace Tns.Tcp

open Tns.Library

def MAX_SOCKET_FD : ℕ := 128
def MAX_PENDING_SOCKS : ℕ := 64

/-- `ip::Ipv4Address`: an address and a port. -/
structure Ipv4Address where
  addr : UInt32
  port : UInt16
  deriving DecidableEq

structure SessionTuple where
  «local» : Ipv4Address
  remote : Ipv4Address
  deriving DecidableEq

/-- A reference to a socket.  The serial number is not part of the program: no two sockets
share it, so that a reference to a destroyed socket is not one to the next owner of its id. -/
structure SocketRef where
  id : ℕ
  serial : ℕ
  deriving DecidableEq

/-- `ListenSocket`, whose `id_` is in its reference. -/
structure ListenSocket where
  ref : SocketRef
  port : UInt16
  state : State := .listen
  pendingSocks : List (SessionTuple × SocketRef) := []
  acceptQ : List SocketRef := []

/-- A `NormalSocket` with its `id_` and `tuple_`. -/
structure TableSocket (M N : ℕ) where
  ref : SocketRef
  tuple : SessionTuple
  sock : NormalSocket M N

inductive Socket (M N : ℕ) where
  | normal (sock : TableSocket M N)
  | listen (lSock : ListenSocket)

/-- The key of a socket in the index of its kind. -/
inductive SocketKey where
  | normal (tuple : SessionTuple)
  | listen (port : UInt16)
  deriving DecidableEq

namespace Socket

variable {M N : ℕ}

def ref : Socket M N → SocketRef
  | .normal e => e.ref
  | .listen l => l.ref

def key : Socket M N → SocketKey
  | .normal e => .normal e.tuple
  | .listen l => .listen l.port

end Socket

/-- `states::TimeWait::isExpired`. -/
def isExpired (time now : TimePoint) : Bool := decide (10000 * nsPerMs < now - time)

def reapable (now : TimePoint) : State → Bool
  | .closed => true
  | .timeWait time => isExpired time now
  | _ => false

structure TcpStack (M N : ℕ) where
  socketTable : Finmap fun _ : ℕ ↦ Socket M N := ∅
  sessionToSocket : Finmap fun _ : SessionTuple ↦ SocketRef := ∅
  portToListenSocket : Finmap fun _ : UInt16 ↦ SocketRef := ∅
  freeSocketIDs : Finset ℕ := Finset.Icc 1 MAX_SOCKET_FD
  serial : ℕ := 0

/-- What a constructor gets besides an id: a port, or a tuple and what the constructor makes of
the other arguments of `createNormalSocket_` and of the number `generateISN_` draws. -/
inductive NewSocket (M N : ℕ) where
  | listen (port : UInt16)
  | normal (tuple : SessionTuple) (sock : NormalSocket M N)

namespace NewSocket

variable {M N : ℕ}

def key : NewSocket M N → SocketKey
  | .listen port => .listen port
  | .normal tuple _ => .normal tuple

def make (ref : SocketRef) : NewSocket M N → Socket M N
  | .listen port => .listen { ref, port }
  | .normal tuple sock => .normal { ref, tuple, sock }

/-- The two assertions that follow the insertions into the table and into the index. -/
def assertions : NewSocket M N → String × String
  | .listen _ => ("ok1", "ok2")
  | .normal _ _ => ("sockTableSuccess", "success")

end NewSocket

namespace TcpStack

variable {M N : ℕ}

/-! ## The two indices -/

def find (s : TcpStack M N) : SocketKey → Option SocketRef
  | .normal tuple => s.sessionToSocket.lookup tuple
  | .listen port => s.portToListenSocket.lookup port

def insertKey (s : TcpStack M N) (key : SocketKey) (ref : SocketRef) : TcpStack M N :=
  match key with
  | .normal tuple => { s with sessionToSocket := s.sessionToSocket.insert tuple ref }
  | .listen port => { s with portToListenSocket := s.portToListenSocket.insert port ref }

def eraseKey (s : TcpStack M N) : SocketKey → TcpStack M N
  | .normal tuple => { s with sessionToSocket := s.sessionToSocket.erase tuple }
  | .listen port => { s with portToListenSocket := s.portToListenSocket.erase port }

/-! ## Creating a socket -/

/-- `getNextSocketId_`. -/
def getNextSocketId (s : TcpStack M N) : Except SocketError ℕ × TcpStack M N :=
  if h : s.freeSocketIDs.Nonempty then
    let id := s.freeSocketIDs.min' h
    (.ok id, { s with freeSocketIDs := s.freeSocketIDs.erase id })
  else (.error .noResources, s)

def freeSocketId (s : TcpStack M N) (id : ℕ) : TcpStack M N :=
  { s with freeSocketIDs := insert id s.freeSocketIDs }

/-- The last section of `createListenSocket_` and `createNormalSocket_`. -/
def insertSocket (s : TcpStack M N) (id : ℕ) (new : NewSocket M N) :
    Exec (SocketRef × TcpStack M N) := do
  let ref := ⟨id, s.serial⟩
  Exec.assertThat (id ∉ s.socketTable) new.assertions.1
  Exec.assertThat (s.find new.key = none) new.assertions.2
  let s := s.insertKey new.key ref
  return (ref, { s with
    socketTable := s.socketTable.insert id (new.make ref), serial := s.serial + 1 })

/-- The sections of `createListenSocket_` and `createNormalSocket_`, with nothing between
them. -/
def createSocket (s : TcpStack M N) (new : NewSocket M N) :
    Exec (Except SocketError SocketRef × TcpStack M N) :=
  if (s.find new.key).isSome then
    .ok (.error .duplicateSocket, s)
  else
    match s.getNextSocketId with
    | (.error e, s) => .ok (.error e, s)
    | (.ok id, s) => do
        let (ref, s) ← s.insertSocket id new
        return (.ok ref, s)

def createListenSocket (s : TcpStack M N) (port : UInt16) :
    Exec (Except SocketError SocketRef × TcpStack M N) :=
  s.createSocket (.listen port)

def createNormalSocket (s : TcpStack M N) (tuple : SessionTuple) (sock : NormalSocket M N) :
    Exec (Except SocketError SocketRef × TcpStack M N) :=
  s.createSocket (.normal tuple sock)

/-! ## References -/

def normalSocket (s : TcpStack M N) (r : SocketRef) : Exec (TableSocket M N) :=
  match s.socketTable.lookup r.id with
  | some (.normal e) => if e.ref = r then .ok e else .error .undefinedBehaviour
  | _ => .error .undefinedBehaviour

def listenSocket (s : TcpStack M N) (r : SocketRef) : Exec ListenSocket :=
  match s.socketTable.lookup r.id with
  | some (.listen l) => if l.ref = r then .ok l else .error .undefinedBehaviour
  | _ => .error .undefinedBehaviour

/-- Assign to a socket that is in the table. -/
def setSocket (s : TcpStack M N) (sock : Socket M N) : TcpStack M N :=
  { s with socketTable := s.socketTable.insert sock.ref.id sock }

/-- `pendingSocks_.remove`. -/
def removePending (s : TcpStack M N) (lSock : ℕ) (tuple : SessionTuple) : TcpStack M N :=
  match s.socketTable.lookup lSock with
  | some (.listen l) =>
      s.setSocket (.listen { l with pendingSocks := l.pendingSocks.eraseP (·.1 = tuple) })
  | _ => s

/-- `acceptQ_.pushAndNotify`. -/
def pushAccept (s : TcpStack M N) (lSock : ℕ) (r : SocketRef) : TcpStack M N :=
  match s.socketTable.lookup lSock with
  | some (.listen l) => s.setSocket (.listen { l with acceptQ := l.acceptQ ++ [r] })
  | _ => s

/-- What the step of a socket asks of its listener. -/
def perform (s : TcpStack M N) (e : TableSocket M N) : Action → TcpStack M N
  | .sendPacket _ => s
  | .removePending lSock => s.removePending lSock e.tuple
  | .pushAccept lSock => s.pushAccept lSock e.ref

end TcpStack

/-- `NormalSocket::vClose`, with nothing between its sections. -/
def NormalSocket.vClose {M N : ℕ} (s : NormalSocket M N) (now : TimePoint) :
    Exec (Except SocketError Unit × List Action × NormalSocket M N) :=
  match s.vCloseState with
  | (.error r, actions, s) => .ok (r, actions, s)
  | (.ok next, actions, s) => do
      let (seq, wnd) := s.finSeqWnd
      let (sent, s) ← s.writeAndSendOne.sendFin seq wnd next now
      return (.ok (), actions ++ sent, s)

namespace TcpStack

variable {M N : ℕ}

/-! ## Opening a connection -/

/-- `createPassiveConnection_`, for a listener given by reference. -/
def createPassiveConnection (s : TcpStack M N) (tuple : SessionTuple)
    (clientISN clientWND : UInt32) (listener : SocketRef) (sendBuf : Vector Byte M)
    (recvBuf : Vector Byte N) (isn : UInt32) (now : TimePoint) :
    Exec (Except SocketError SocketRef × List Action × TcpStack M N) := do
  let new := NormalSocket.createNormalSocket sendBuf recvBuf isn (clientISN + 1) clientWND
  match ← s.createNormalSocket tuple new with
  | (.error e, s) => return (.error e, [], s)
  | (.ok ref, s) =>
      let e ← s.normalSocket ref
      let seq := e.sock.sendBuffer.nxt
      let (ack, wnd) := e.sock.recvBuffer.getAckWnd
      let (actions, sock) ← e.sock.writeAndSendOne.sendPacket
        (.makeSynAckPacket seq ack (UInt16.ofNat wnd)) now
      let s := s.setSocket (.normal { e with sock })
      let lSock ← s.listenSocket listener
      if lSock.pendingSocks.length < MAX_PENDING_SOCKS then
        let s := s.setSocket
          (.listen { lSock with pendingSocks := lSock.pendingSocks ++ [(tuple, ref)] })
        let sock := sock.setState (.synReceived listener.id)
        return (.ok ref, actions, s.setSocket (.normal { e with sock }))
      else
        return (.error .noResources, actions, s)

/-- `createActiveConnection_`, up to its wait for the SYN-ACK. -/
def createActiveConnection (s : TcpStack M N) (tuple : SessionTuple) (sendBuf : Vector Byte M)
    (recvBuf : Vector Byte N) (isn : UInt32) (now : TimePoint) :
    Exec (Except SocketError SocketRef × List Action × TcpStack M N) := do
  match ← s.createNormalSocket tuple (.createNormalSocket sendBuf recvBuf isn) with
  | (.error e, s) => return (.error e, [], s)
  | (.ok ref, s) =>
      let e ← s.normalSocket ref
      let (actions, sock) ← e.sock.createActiveConnection now
      return (.ok ref, actions, s.setSocket (.normal { e with sock }))

/-! ## The reaper -/

/-- A loop whose body sends packets. -/
def forEach {α σ : Type} (body : σ → α → Exec (List Action × σ)) :
    σ → List α → Exec (List Action × σ)
  | s, [] => .ok ([], s)
  | s, a :: as => do
      let (actions, s) ← body s a
      let (more, s) ← forEach body s as
      return (actions ++ more, s)

def vClose (now : TimePoint) (s : TcpStack M N) (r : SocketRef) :
    Exec (List Action × TcpStack M N) := do
  let e ← s.normalSocket r
  let (_, actions, sock) ← e.sock.vClose now
  return (actions, actions.foldl (perform · e) (s.setSocket (.normal { e with sock })))

/-- Remove the socket `id` from its index and from the table, and free the id. -/
def purge (s : TcpStack M N) (id : ℕ) (sock : Socket M N) : TcpStack M N :=
  let s := (s.eraseKey sock.key).freeSocketId sock.ref.id
  { s with socketTable := s.socketTable.erase id }

/-- One pass of the loop of `reaperThread_`, at the socket `id`.  The destructor of a listen
socket closes the sockets in its accept queue and those in its pending list. -/
def reapSocket (now : TimePoint) (s : TcpStack M N) (id : ℕ) :
    Exec (List Action × TcpStack M N) :=
  match s.socketTable.lookup id with
  | some (.normal e) =>
      if reapable now e.sock.state then .ok ([], s.purge id (.normal e)) else .ok ([], s)
  | some (.listen l) =>
      if l.state = .closed then
        forEach (vClose now) (s.purge id (.listen l)) (l.acceptQ ++ l.pendingSocks.map Prod.snd)
      else .ok ([], s)
  | none => .ok ([], s)

/-- A pass of `reaperThread_` over the table, in the order of the ids. -/
def reap (now : TimePoint) (s : TcpStack M N) : Exec (List Action × TcpStack M N) :=
  forEach (reapSocket now) s s.socketTable.keys.sort

end TcpStack

/-! ## Runs -/

/-- The calls that create sockets, any change of a socket that is in the table, and a pass of
the reaper. -/
inductive StackCall (M N : ℕ) where
  | createListenSocket (port : UInt16)
  | createNormalSocket (tuple : SessionTuple) (sock : NormalSocket M N)
  | createPassiveConnection (tuple : SessionTuple) (clientISN clientWND : UInt32)
      (listener : SocketRef) (sendBuf : Vector Byte M) (recvBuf : Vector Byte N) (isn : UInt32)
      (now : TimePoint)
  | createActiveConnection (tuple : SessionTuple) (sendBuf : Vector Byte M)
      (recvBuf : Vector Byte N) (isn : UInt32) (now : TimePoint)
  | setNormalSocket (r : SocketRef) (sock : NormalSocket M N)
  | setListenSocket (r : SocketRef) (state : State)
      (pendingSocks : List (SessionTuple × SocketRef)) (acceptQ : List SocketRef)
  | reap (now : TimePoint)

structure StackReturn where
  result : Option (Except SocketError SocketRef) := none
  actions : List Action := []

namespace TcpStack

variable {M N : ℕ}

def step (s : TcpStack M N) : StackCall M N → Exec (StackReturn × TcpStack M N)
  | .createListenSocket port => do
      let (result, s) ← s.createListenSocket port
      return ({ result := some result }, s)
  | .createNormalSocket tuple sock => do
      let (result, s) ← s.createNormalSocket tuple sock
      return ({ result := some result }, s)
  | .createPassiveConnection tuple clientISN clientWND listener sendBuf recvBuf isn now => do
      let (result, actions, s) ←
        s.createPassiveConnection tuple clientISN clientWND listener sendBuf recvBuf isn now
      return ({ result := some result, actions }, s)
  | .createActiveConnection tuple sendBuf recvBuf isn now => do
      let (result, actions, s) ← s.createActiveConnection tuple sendBuf recvBuf isn now
      return ({ result := some result, actions }, s)
  | .setNormalSocket r sock => do
      let e ← s.normalSocket r
      return ({}, s.setSocket (.normal { e with sock }))
  | .setListenSocket r state pendingSocks acceptQ => do
      let l ← s.listenSocket r
      return ({}, s.setSocket (.listen { l with state, pendingSocks, acceptQ }))
  | .reap now => do
      let (actions, s) ← s.reap now
      return ({ actions }, s)

abbrev Step (M N : ℕ) := Transition (TcpStack M N) (StackCall M N) StackReturn

end TcpStack

end Tns.Tcp
