import Mathlib.Logic.Function.Basic
import Tns.Tcp.Listener

/-!
# Sockets that are being set up

A call of `createActiveConnection_` or `createPassiveConnection_` inserts its
socket in state CLOSED, and assigns another state several sections later.  The
sections of any number of such calls, the calls on sockets of the table and the
passes of the reaper interleave.
-/

namespace Tns.Tcp

open Tns.Library

namespace NormalSocket

variable {M N : ℕ} {s : NormalSocket M N}

/-- What `createActiveConnection_` does when its wait has ended without an error. -/
def establish (s : NormalSocket M N) : Exec (NormalSocket M N) := do
  Exec.assertThat (s.state = .synSent) "FATAL: Socket state should still be in SynSent"
  Exec.assertThat (s.sendBuffer.sanityCheckAtStart = true) "FATAL: sendBuffer_ is not sane"
  Exec.assertThat (s.recvBuffer.sanityCheckAtStart = true) "FATAL: recvBuffer_ is not sane"
  return s.setState .established

theorem establish_eq_ok {s' : NormalSocket M N} :
    s.establish = .ok s' ↔ s.state = .synSent ∧ s.sendBuffer.sanityCheckAtStart = true ∧
      s.recvBuffer.sanityCheckAtStart = true ∧ s' = s.setState .established := by
  simp only [establish, Exec.bind_eq_ok, Exec.assertThat_eq_ok, Exec.pure_eq_ok, exists_const]
  rw [eq_comm (a := s')]

end NormalSocket

/-- Which of the two functions is called, and what only `createPassiveConnection_` gets. -/
inductive Role where
  | active
  | passive (listener : SocketRef) (clientISN clientWND : UInt32)

/-- A call that opens a connection: its arguments, and what its socket is built from. -/
structure Opening (M N : ℕ) where
  role : Role
  tuple : SessionTuple
  sendBuf : Vector Byte M
  recvBuf : Vector Byte N
  isn : UInt32

/-- Where a call is that opens a connection. -/
inductive Setup where
  | idle
  | checked
  | allocated (id : ℕ)
  | inserted (r : SocketRef)
  | sequenced (r : SocketRef) (seq : UInt32)
  | numbered (r : SocketRef) (packet : Packet)
  | taken (r : SocketRef) (packet : Packet)
  | sent (r : SocketRef)
  | pending (r : SocketRef) (lSock : ℕ)
  | waiting (r : SocketRef)
  | answered (r : SocketRef)
  | returned (result : Except SocketError SocketRef)

/-- The socket that the call has inserted, as long as it has not returned. -/
def Setup.ref? : Setup → Option SocketRef
  | .idle | .checked | .allocated _ | .returned _ => none
  | .inserted r | .sequenced r _ | .numbered r _ | .taken r _ | .sent r | .pending r _
  | .waiting r | .answered r => some r

namespace Opening

variable {M N : ℕ}

/-- The socket as `createNormalSocket_` constructs it. -/
def sock (o : Opening M N) : NormalSocket M N :=
  match o.role with
  | .active => .createNormalSocket o.sendBuf o.recvBuf o.isn
  | .passive _ clientISN clientWND =>
      .createNormalSocket o.sendBuf o.recvBuf o.isn (clientISN + 1) clientWND

def new (o : Opening M N) : NewSocket M N := .normal o.tuple o.sock

/-- The SYN or the SYN-ACK. -/
def packet (o : Opening M N) (seq : UInt32) (recvBuffer : RecvBuffer N) : Packet :=
  match o.role with
  | .active => .makeSynPacket seq (UInt16.ofNat recvBuffer.sizeFree)
  | .passive .. =>
      let (ack, wnd) := recvBuffer.getAckWnd
      .makeSynAckPacket seq ack (UInt16.ofNat wnd)

/-- The next section of the call.  The first three are those of `createNormalSocket_`. -/
def next (o : Opening M N) (now : TimePoint) (s : TcpStack M N) :
    Setup → Exec (List Action × Setup × TcpStack M N)
  | .idle =>
      if (s.find o.new.key).isSome then
        .ok ([], .returned (.error .duplicateSocket), s)
      else
        .ok ([], .checked, s)
  | .checked =>
      match s.getNextSocketId with
      | (.error e, s) => .ok ([], .returned (.error e), s)
      | (.ok id, s) => .ok ([], .allocated id, s)
  | .allocated id => do
      let (r, s) ← s.insertSocket id o.new
      return ([], .inserted r, s)
  | .inserted r => do
      let e ← s.normalSocket r
      return ([], .sequenced r e.sock.sendBuffer.nxt, s)
  | .sequenced r seq => do
      let e ← s.normalSocket r
      return ([], .numbered r (o.packet seq e.sock.recvBuffer), s)
  | .numbered r packet => do
      let e ← s.normalSocket r
      return ([], .taken r packet, s.setSocket (.normal { e with sock := e.sock.writeAndSendOne }))
  | .taken r packet => do
      let e ← s.normalSocket r
      let (actions, sock) ← e.sock.sendPacket packet now
      return (actions, .sent r, s.setSocket (.normal { e with sock }))
  | .sent r =>
      match o.role with
      | .active => do
          let e ← s.normalSocket r
          let sock := e.sock.setState .synSent
          return ([], .waiting r, s.setSocket (.normal { e with sock }))
      | .passive listener _ _ => do
          let lSock ← s.listenSocket listener
          if lSock.pendingSocks.length < MAX_PENDING_SOCKS then
            return ([], .pending r listener.id, s.setSocket
              (.listen { lSock with pendingSocks := lSock.pendingSocks ++ [(o.tuple, r)] }))
          else
            return ([], .returned (.error .noResources), s)
  | .pending r lSock => do
      let e ← s.normalSocket r
      let sock := e.sock.setState (.synReceived lSock)
      return ([], .returned (.ok r), s.setSocket (.normal { e with sock }))
  | .waiting r => do
      let e ← s.normalSocket r
      match ← e.sock.result.waitForSynAck with
      | some err => return ([], .returned (.error err), s)
      | none => return ([], .answered r, s)
  | .answered r => do
      let e ← s.normalSocket r
      let sock ← e.sock.establish
      return ([], .returned (.ok r), s.setSocket (.normal { e with sock }))
  | .returned _ => .error .blocks

end Opening

/-- A stack and the calls that open connections in it. -/
structure SocketSetup (M N : ℕ) where
  stack : TcpStack M N
  threads : ℕ → Setup := fun _ ↦ .idle

inductive SetupCall (M N : ℕ) where
  | next (k : ℕ) (now : TimePoint)
  | callSocket (r : SocketRef) (c : NormalCall M N)
  | createListenSocket (port : UInt16)
  | reap (now : TimePoint)

namespace SocketSetup

variable {M N : ℕ} {s s' : SocketSetup M N} {op : ℕ → Opening M N}

def move (s : SocketSetup M N) (k : ℕ) (thread : Setup) (stack : TcpStack M N) :
    SocketSetup M N :=
  { stack, threads := Function.update s.threads k thread }

@[simp] theorem move_stack (k : ℕ) (thread : Setup) (stack : TcpStack M N) :
    (s.move k thread stack).stack = stack := rfl

@[simp] theorem move_self (k : ℕ) (thread : Setup) (stack : TcpStack M N) :
    (s.move k thread stack).threads k = thread := by simp [move]

theorem move_of_ne {j k : ℕ} (hjk : j ≠ k) (thread : Setup) (stack : TcpStack M N) :
    (s.move k thread stack).threads j = s.threads j := by simp [move, hjk]

@[simp] theorem move_move (k : ℕ) (thread thread' : Setup) (stack stack' : TcpStack M N) :
    (s.move k thread stack).move k thread' stack' = s.move k thread' stack' := by
  simp [move]

/-- Thread `k` makes the call `op k`. -/
def step (op : ℕ → Opening M N) (s : SocketSetup M N) :
    SetupCall M N → Exec (List Action × SocketSetup M N)
  | .next k now => do
      let (actions, thread, stack) ← (op k).next now s.stack (s.threads k)
      return (actions, s.move k thread stack)
  -- The end of the wait is a section of the call itself.
  | .callSocket _ .connected => .error .blocks
  | .callSocket r c => do
      let (_, actions, stack) ← s.stack.callSocket r c
      return (actions, { s with stack })
  | .createListenSocket port => do
      let (_, stack) ← s.stack.createListenSocket port
      return ([], { s with stack })
  | .reap now => do
      let (actions, stack) ← s.stack.reap now
      return (actions, { s with stack })

abbrev Step (M N : ℕ) := Transition (SocketSetup M N) (SetupCall M N) (List Action)

/-- Every socket that is being set up is in the table and in the index of its kind. -/
def Registered (op : ℕ → Opening M N) (s : SocketSetup M N) : Prop :=
  ∀ k r, (s.threads k).ref? = some r → ∃ e, s.stack.normalSocket r = .ok e ∧
    e.tuple = (op k).tuple ∧ s.stack.find (.normal (op k).tuple) = some r

/-- A pass of the reaper comes when a socket that is being set up is closed, or has been in
TIME_WAIT for too long. -/
def ReapsSetup (t : Step M N) : Prop :=
  ∃ now k r e, t.label = .reap now ∧ (t.pre.threads k).ref? = some r ∧
    t.pre.stack.normalSocket r = .ok e ∧ reapable now e.sock.state = true

/-! ## A call that is not interrupted -/

section Alone

variable {k : ℕ} {now : TimePoint} {ref : SocketRef} {stack stack' : TcpStack M N}
  {thread thread' : Setup} {actions : List Action}

/-- Thread `k` takes sections of its call, and nothing comes between them. -/
def Alone (op : ℕ → Opening M N) (k : ℕ) (now : TimePoint) (s : SocketSetup M N)
    (actions : List Action) (s' : SocketSetup M N) : Prop :=
  ∃ tr, Trace (step op) s tr s' ∧ (∀ t ∈ tr, t.label = .next k now) ∧
    tr.flatMap (·.out) = actions

theorem Alone.nil (s : SocketSetup M N) : Alone op k now s [] s := ⟨[], .nil s, by simp, rfl⟩

theorem Alone.cons {more : List Action} (hthread : s.threads k = thread)
    (hnext : (op k).next now s.stack thread = .ok (actions, thread', stack))
    (h : Alone op k now (s.move k thread' stack) more s') :
    Alone op k now s (actions ++ more) s' := by
  obtain ⟨tr, hrun, hlabels, rfl⟩ := h
  refine ⟨_, .cons (l := .next k now) (o := actions) ?_ hrun, ?_, rfl⟩
  · simp only [step, hthread, hnext, Exec.ok_bind]
    rfl
  · rintro t (_ | ⟨_, ht⟩)
    · rfl
    · exact hlabels t ht

theorem Alone.append {s'' : SocketSetup M N} {more : List Action} (h : Alone op k now s actions s')
    (h' : Alone op k now s' more s'') : Alone op k now s (actions ++ more) s'' := by
  obtain ⟨tr, hrun, hlabels, rfl⟩ := h
  obtain ⟨tr', hrun', hlabels', rfl⟩ := h'
  refine ⟨tr ++ tr', hrun.append hrun', ?_, List.flatMap_append⟩
  intro t ht
  rcases List.mem_append.mp ht with ht | ht
  · exact hlabels t ht
  · exact hlabels' t ht

/-- Where a call is when `createNormalSocket_` has returned. -/
def created : Except SocketError SocketRef → Setup
  | .error e => .returned (.error e)
  | .ok r => .inserted r

theorem alone_createSocket {result : Except SocketError SocketRef} (hidle : s.threads k = .idle)
    (h : s.stack.createSocket (op k).new = .ok (result, stack)) :
    Alone op k now s [] (s.move k (created result) stack) := by
  unfold TcpStack.createSocket at h
  split at h
  · rename_i hkey
    obtain ⟨rfl, rfl⟩ := Prod.mk.inj (Except.ok.inj h)
    have hrun : Alone op k now s _ _ := .cons hidle (by
      simp only [Opening.next, hkey]
      rfl) (.nil _)
    exact hrun
  · rename_i hkey
    split at h <;> rename_i hnext
    · obtain ⟨rfl, rfl⟩ := Prod.mk.inj (Except.ok.inj h)
      have hrun : Alone op k now s _ _ := .cons hidle (by
        simp only [Opening.next, hkey]
        rfl) (.cons (move_self ..) (by
        simp only [Opening.next, move_stack, hnext]
        rfl) (.nil _))
      simpa [created] using hrun
    · simp only [Exec.bind_eq_ok, Exec.pure_eq_ok, Prod.exists, Prod.mk.injEq] at h
      obtain ⟨r, _, hinsert, rfl, rfl⟩ := h
      have hrun : Alone op k now s _ _ := .cons hidle (by
        simp only [Opening.next, hkey]
        rfl) (.cons (move_self ..) (by
        simp only [Opening.next, move_stack, hnext]
        rfl) (.cons (move_self ..) (by
        simp only [Opening.next, move_stack, hinsert, Exec.ok_bind]
        rfl) (.nil _)))
      simpa [created] using hrun

theorem alone_sendPacket {e : TableSocket M N} {sock : NormalSocket M N}
    (hthread : s.threads k = .inserted ref) (he : s.stack.normalSocket ref = .ok e)
    (hsend : e.sock.writeAndSendOne.sendPacket
      ((op k).packet e.sock.sendBuffer.nxt e.sock.recvBuffer) now = .ok (actions, sock)) :
    Alone op k now s actions
      (s.move k (.sent ref) (s.stack.setSocket (.normal { e with sock }))) := by
  have hset := TcpStack.normalSocket_setSocket he e.sock.writeAndSendOne
  have hrun : Alone op k now s _ _ := .cons hthread (by
    simp only [Opening.next, he, Exec.ok_bind]
    rfl) (.cons (move_self ..) (by
    simp only [Opening.next, move_stack, he, Exec.ok_bind]
    rfl) (.cons (move_self ..) (by
    simp only [Opening.next, move_stack, he, Exec.ok_bind]
    rfl) (.cons (move_self ..) (by
    simp only [Opening.next, move_stack, hset, hsend, Exec.ok_bind]
    rfl) (.nil _))))
  simpa [TcpStack.setSocket, Socket.ref] using hrun

/-- Without interruption, a call of `createActiveConnection_` comes to its wait as
`createActiveConnection` does. -/
theorem alone_createActiveConnection {result : Except SocketError SocketRef}
    (hrole : (op k).role = .active) (hidle : s.threads k = .idle)
    (h : s.stack.createActiveConnection (op k).tuple (op k).sendBuf (op k).recvBuf (op k).isn now =
      .ok (result, actions, stack)) :
    Alone op k now s actions (s.move k (match result with
      | .error e => .returned (.error e)
      | .ok r => .waiting r) stack) := by
  simp only [TcpStack.createActiveConnection, Exec.bind_eq_ok, Prod.exists] at h
  obtain ⟨_, stack₁, hcreate, h⟩ := h
  have hcreated : Alone op k now s _ _ := alone_createSocket hidle (by
    rw [Opening.new, Opening.sock, hrole]
    exact hcreate)
  split at h <;> rename_i r stack₂ heq <;> obtain ⟨rfl, rfl⟩ := Prod.mk.inj heq
  · simp only [Exec.pure_eq_ok, Prod.mk.injEq] at h
    obtain ⟨rfl, rfl, rfl⟩ := h
    exact hcreated
  · simp only [NormalSocket.createActiveConnection, Exec.bind_eq_ok, Exec.pure_eq_ok,
      Prod.exists, Prod.mk.injEq] at h
    obtain ⟨e, he, _, _, ⟨_, sock, hsend, rfl, rfl⟩, rfl, rfl, rfl⟩ := h
    have hsent : Alone op k now (s.move k (.inserted r) stack₁) _ _ :=
      alone_sendPacket (move_self ..) he (by
        rw [Opening.packet, hrole]
        exact hsend)
    have hopened : Alone op k now (s.move k (.sent r) (stack₁.setSocket
        (.normal { e with sock }))) _ _ :=
      .cons (move_self ..) (by
        simp only [Opening.next, hrole, move_stack, TcpStack.normalSocket_setSocket he,
          Exec.ok_bind]
        rfl) (.nil _)
    have hrun := hcreated.append (hsent.append (by simpa using hopened))
    simpa [TcpStack.setSocket, Socket.ref] using hrun

/-- Without interruption, a call of `createPassiveConnection_` does what
`createPassiveConnection` does. -/
theorem alone_createPassiveConnection {result : Except SocketError SocketRef}
    {listener : SocketRef} {clientISN clientWND : UInt32}
    (hrole : (op k).role = .passive listener clientISN clientWND) (hidle : s.threads k = .idle)
    (h : s.stack.createPassiveConnection (op k).tuple clientISN clientWND listener (op k).sendBuf
      (op k).recvBuf (op k).isn now = .ok (result, actions, stack)) :
    Alone op k now s actions (s.move k (.returned result) stack) := by
  simp only [TcpStack.createPassiveConnection, Exec.bind_eq_ok, Prod.exists] at h
  obtain ⟨_, stack₁, hcreate, h⟩ := h
  have hcreated : Alone op k now s _ _ := alone_createSocket hidle (by
    rw [Opening.new, Opening.sock, hrole]
    exact hcreate)
  split at h <;> rename_i r stack₂ heq <;> obtain ⟨rfl, rfl⟩ := Prod.mk.inj heq
  · simp only [Exec.pure_eq_ok, Prod.mk.injEq] at h
    obtain ⟨rfl, rfl, rfl⟩ := h
    exact hcreated
  · simp only [Exec.bind_eq_ok, Prod.exists] at h
    obtain ⟨e, he, _, sock, hsend, l, hlisten, h⟩ := h
    have hsent : Alone op k now (s.move k (.inserted r) stack₁) _ _ :=
      alone_sendPacket (move_self ..) he (by
        rw [Opening.packet, hrole]
        exact hsend)
    obtain ⟨hl, href⟩ := TcpStack.listenSocket_eq_ok.mp hlisten
    split at h <;> rename_i hroom <;> simp only [Exec.pure_eq_ok, Prod.mk.injEq] at h <;>
      obtain ⟨rfl, rfl, rfl⟩ := h
    · have hpending : ((stack₁.setSocket (.normal { e with sock })).setSocket (.listen
          { l with pendingSocks := l.pendingSocks ++ [((op k).tuple, r)] })).normalSocket r =
            .ok { e with sock } := by
        rw [TcpStack.normalSocket_setListen _ hl]
        · exact TcpStack.normalSocket_setSocket he sock
        · exact congrArg SocketRef.id href
      have hopened : Alone op k now (s.move k (.sent r) (stack₁.setSocket
          (.normal { e with sock }))) _ _ :=
        .cons (move_self ..) (by
          simp only [Opening.next, hrole, move_stack, hlisten, Exec.ok_bind, hroom, if_true]
          rfl) (.cons (move_self ..) (by
          simp only [Opening.next, move_stack, hpending, Exec.ok_bind]
          rfl) (.nil _))
      have hrun := hcreated.append (hsent.append (by simpa using hopened))
      simpa using hrun
    · have hopened : Alone op k now (s.move k (.sent r) (stack₁.setSocket
          (.normal { e with sock }))) _ _ :=
        .cons (move_self ..) (by
          simp only [Opening.next, hrole, move_stack, hlisten, Exec.ok_bind, hroom, if_false]
          rfl) (.nil _)
      have hrun := hcreated.append (hsent.append (by simpa using hopened))
      simpa using hrun

/-- The rest of the call of `createActiveConnection_`, once its wait has ended. -/
theorem alone_connected {e : TableSocket M N} {sock : NormalSocket M N}
    (hthread : s.threads k = .waiting ref) (he : s.stack.normalSocket ref = .ok e)
    (h : e.sock.connected = .ok (.ok (), sock)) :
    Alone op k now s []
      (s.move k (.returned (.ok ref)) (s.stack.setSocket (.normal { e with sock }))) := by
  obtain ⟨hnotified, herror, hstate, hsend, hrecv, rfl⟩ := NormalSocket.connected_eq_ok.mp h
  have hwait : e.sock.result.waitForSynAck = .ok none := by
    simp only [SynAckResult.waitForSynAck, Exec.waitUntil, hnotified, herror, if_true]
    rfl
  have hestablish := NormalSocket.establish_eq_ok.mpr ⟨hstate, hsend, hrecv, rfl⟩
  have hrun : Alone op k now s _ _ := .cons hthread (by
    simp only [Opening.next, he, hwait, Exec.ok_bind]
    rfl) (.cons (move_self ..) (by
    simp only [Opening.next, move_stack, he, hestablish, Exec.ok_bind]
    rfl) (.nil _))
  simpa using hrun

end Alone

end SocketSetup

/-! ## What the sections and the calls keep -/

namespace TcpStack

variable {M N : ℕ} {s s' s'' : TcpStack M N} {r : SocketRef} {id : ℕ} {l : ListenSocket}

@[simp] theorem find_setSocket (sock : Socket M N) (key : SocketKey) :
    (s.setSocket sock).find key = s.find key := find_mk key

/-- No listener in the table is closed. -/
def Listening (s : TcpStack M N) : Prop :=
  ∀ id l, s.socketTable.lookup id = some (.listen l) → l.state = .listen

theorem Listening.tidy (h : s.Listening) : s.Tidy := by
  intro id l hl hclosed
  rw [h id l hl] at hclosed
  cases hclosed

/-- No socket leaves the table and its index, and no listener closes. -/
structure Keeps (s s' : TcpStack M N) : Prop where
  find : ∀ key r, s.find key = some r → s'.find key = some r
  listening : s.Listening → s'.Listening

namespace Keeps

theorem refl (s : TcpStack M N) : s.Keeps s := ⟨fun _ _ ↦ id, id⟩

theorem trans (h : s.Keeps s') (h' : s'.Keeps s'') : s.Keeps s'' :=
  ⟨fun key r hr ↦ h'.find key r (h.find key r hr), fun hs ↦ h'.listening (h.listening hs)⟩

theorem setNormal {e : TableSocket M N} (he : s.normalSocket r = .ok e)
    (sock : NormalSocket M N) : s.Keeps (s.setSocket (.normal { e with sock })) := by
  refine ⟨fun key r hr ↦ by rwa [find_setSocket], ?_⟩
  intro h id l hl
  exact h id l ((lookup_listen_setNormal he sock).mp hl)

theorem setListen {l' : ListenSocket} (hl : s.socketTable.lookup id = some (.listen l))
    (hstate : l'.state = l.state) : s.Keeps (s.setSocket (.listen l')) := by
  refine ⟨fun key r hr ↦ by rwa [find_setSocket], ?_⟩
  intro h i k hk
  rw [lookup_listen_setListen] at hk
  split at hk
  · rw [hk, hstate]
    exact h id l hl
  · exact h i k hk

theorem perform (e : TableSocket M N) (action : Action) : s.Keeps (s.perform e action) := by
  cases action with
  | sendPacket => exact refl s
  | removePending lSock =>
      simp only [TcpStack.perform, removePending]
      split
      · rename_i l hl
        exact setListen hl rfl
      · exact refl s
  | pushAccept lSock =>
      simp only [TcpStack.perform, pushAccept]
      split
      · rename_i l hl
        exact setListen hl rfl
      · exact refl s

theorem foldl_perform (e : TableSocket M N) (actions : List Action) :
    s.Keeps (actions.foldl (TcpStack.perform · e) s) := by
  induction actions generalizing s with
  | nil => exact refl s
  | cons action actions ih => exact (perform e action).trans ih

theorem callSocket {c : NormalCall M N} {result : Option (Except SocketError Unit)}
    {actions : List Action} (h : s.callSocket r c = .ok (result, actions, s')) : s.Keeps s' := by
  simp only [TcpStack.callSocket, Exec.bind_eq_ok, Exec.pure_eq_ok, Prod.exists,
    Prod.mk.injEq] at h
  obtain ⟨e, he, _, _, sock, -, -, rfl, rfl⟩ := h
  exact (setNormal he sock).trans (foldl_perform e _)

theorem getNextSocketId {result : Except SocketError ℕ} (h : s.getNextSocketId = (result, s')) :
    s.Keeps s' := by
  unfold TcpStack.getNextSocketId at h
  split at h <;> obtain ⟨-, rfl⟩ := Prod.mk.inj h
  · exact ⟨fun key r hr ↦ by rwa [find_mk], fun hs ↦ hs⟩
  · exact refl s

/-- A listener is new in the table in LISTEN. -/
theorem insertSocket {new : NewSocket M N} (h : s.insertSocket id new = .ok (r, s')) :
    s.find new.key = none ∧ s.Keeps s' := by
  simp only [TcpStack.insertSocket, Exec.bind_eq_ok, Exec.assertThat_eq_ok, Exec.pure_eq_ok,
    Prod.mk.injEq, exists_const] at h
  obtain ⟨-, hnone, -, rfl⟩ := h
  refine ⟨hnone, ?_, ?_⟩
  · intro key r hr
    rw [find_mk, find_insertKey, if_neg]
    · exact hr
    · rintro rfl
      rw [hnone] at hr
      cases hr
  · intro hs i l hl
    by_cases hi : i = id
    · rw [hi, Finmap.lookup_insert] at hl
      cases new with
      | listen =>
          cases hl
          rfl
      | normal => cases hl
    · rw [Finmap.lookup_insert_of_ne _ hi, insertKey_socketTable] at hl
      exact hs i l hl

theorem createSocket {new : NewSocket M N} {result : Except SocketError SocketRef}
    (h : s.createSocket new = .ok (result, s')) : s.Keeps s' := by
  unfold TcpStack.createSocket at h
  split at h
  · obtain ⟨-, rfl⟩ := Prod.mk.inj (Except.ok.inj h)
    exact refl s
  · split at h <;> rename_i hnext
    · obtain ⟨-, rfl⟩ := Prod.mk.inj (Except.ok.inj h)
      exact getNextSocketId hnext
    · simp only [Exec.bind_eq_ok, Exec.pure_eq_ok, Prod.exists, Prod.mk.injEq] at h
      obtain ⟨_, _, hinsert, -, rfl⟩ := h
      exact (getNextSocketId hnext).trans (insertSocket hinsert).2

end Keeps

namespace Consistent

variable {held : Finset ℕ} {tuple : SessionTuple} {e : TableSocket M N}

theorem normalSocket_of_find (h : Consistent held s) (hr : s.find (.normal tuple) = some r) :
    ∃ e, s.normalSocket r = .ok e ∧ e.tuple = tuple := by
  obtain ⟨sock, hlookup, href, hkey⟩ := (h.find _ r).mp hr
  cases sock with
  | normal e => exact ⟨e, normalSocket_eq_ok.mpr ⟨hlookup, href⟩, SocketKey.normal.inj hkey⟩
  | listen l => cases hkey

theorem find_of_normalSocket (h : Consistent held s) (he : s.normalSocket r = .ok e) :
    s.find (.normal e.tuple) = some r := by
  obtain ⟨hlookup, href⟩ := normalSocket_eq_ok.mp he
  exact (h.find _ r).mpr ⟨.normal e, hlookup, href, rfl⟩

end Consistent

end TcpStack

namespace Opening

variable {M N : ℕ} {o : Opening M N} {s s' : TcpStack M N} {thread thread' : Setup}

/-- Everything that a section of the call can do: allocate an id, insert the socket under it, or
go on with the socket that it has inserted. -/
inductive Advances (o : Opening M N) (s : TcpStack M N) : Setup → Setup → TcpStack M N → Prop
  | allocates (id : ℕ) (s' : TcpStack M N) (hnext : s.getNextSocketId = (.ok id, s')) :
      Advances o s .checked (.allocated id) s'
  | inserts (id : ℕ) (r : SocketRef) (s' : TcpStack M N)
      (hinsert : s.insertSocket id o.new = .ok (r, s')) :
      Advances o s (.allocated id) (.inserted r) s'
  | continues (thread thread' : Setup) (s' : TcpStack M N)
      (hfrom : ∀ id, thread ≠ .allocated id) (hto : ∀ id, thread' ≠ .allocated id)
      (href : ∀ r, thread'.ref? = some r → thread.ref? = some r)
      (htable : ∀ held, TcpStack.Consistent held s → TcpStack.Consistent held s')
      (hkeeps : s.Keeps s') : Advances o s thread thread' s'

theorem Advances.of_eq (hfrom : ∀ id, thread ≠ .allocated id)
    (hto : ∀ id, thread' ≠ .allocated id)
    (href : ∀ r, thread'.ref? = some r → thread.ref? = some r) : Advances o s thread thread' s :=
  .continues thread thread' s hfrom hto href (fun _ ↦ id) (.refl s)

theorem Advances.of_setNormal {r : SocketRef} {e : TableSocket M N}
    (he : s.normalSocket r = .ok e) (sock : NormalSocket M N)
    (hfrom : ∀ id, thread ≠ .allocated id) (hto : ∀ id, thread' ≠ .allocated id)
    (href : ∀ r, thread'.ref? = some r → thread.ref? = some r) :
    Advances o s thread thread' (s.setSocket (.normal { e with sock })) :=
  .continues thread thread' _ hfrom hto href (fun _ h ↦ h.setNormal he sock)
    (.setNormal he sock)

theorem advances_of_next {now : TimePoint} {actions : List Action}
    (h : o.next now s thread = .ok (actions, thread', s')) : Advances o s thread thread' s' := by
  cases thread with
  | idle =>
      simp only [next] at h
      split at h <;> simp only [Except.ok.injEq, Prod.mk.injEq] at h <;>
        obtain ⟨-, rfl, rfl⟩ := h <;> exact .of_eq (by simp) (by simp) fun _ hr ↦ by cases hr
  | checked =>
      simp only [next] at h
      split at h <;> rename_i hnext <;> simp only [Except.ok.injEq, Prod.mk.injEq] at h <;>
        obtain ⟨-, rfl, rfl⟩ := h
      · obtain rfl := TcpStack.eq_of_getNextSocketId_error hnext
        exact .of_eq (by simp) (by simp) fun _ hr ↦ by cases hr
      · exact .allocates _ _ hnext
  | allocated id =>
      simp only [next, Exec.bind_eq_ok, Exec.pure_eq_ok, Prod.exists, Prod.mk.injEq] at h
      obtain ⟨r, _, hinsert, -, rfl, rfl⟩ := h
      exact .inserts id r _ hinsert
  | inserted r =>
      simp only [next, Exec.bind_eq_ok, Exec.pure_eq_ok, Prod.mk.injEq] at h
      obtain ⟨e, -, -, rfl, rfl⟩ := h
      exact .of_eq (by simp) (by simp) fun _ ↦ id
  | sequenced r seq =>
      simp only [next, Exec.bind_eq_ok, Exec.pure_eq_ok, Prod.mk.injEq] at h
      obtain ⟨e, -, -, rfl, rfl⟩ := h
      exact .of_eq (by simp) (by simp) fun _ ↦ id
  | numbered r packet =>
      simp only [next, Exec.bind_eq_ok, Exec.pure_eq_ok, Prod.mk.injEq] at h
      obtain ⟨e, he, -, rfl, rfl⟩ := h
      exact .of_setNormal he _ (by simp) (by simp) fun _ ↦ id
  | taken r packet =>
      simp only [next, Exec.bind_eq_ok, Exec.pure_eq_ok, Prod.exists, Prod.mk.injEq] at h
      obtain ⟨e, he, _, sock, -, -, rfl, rfl⟩ := h
      exact .of_setNormal he sock (by simp) (by simp) fun _ ↦ id
  | sent r =>
      simp only [next] at h
      split at h
      · simp only [Exec.bind_eq_ok, Exec.pure_eq_ok, Prod.mk.injEq] at h
        obtain ⟨e, he, -, rfl, rfl⟩ := h
        exact .of_setNormal he _ (by simp) (by simp) fun _ ↦ id
      · simp only [Exec.bind_eq_ok] at h
        obtain ⟨l, hlisten, h⟩ := h
        have hl := (TcpStack.listenSocket_eq_ok.mp hlisten).1
        split at h <;> simp only [Exec.pure_eq_ok, Prod.mk.injEq] at h <;>
          obtain ⟨-, rfl, rfl⟩ := h
        · exact .continues _ _ _ (by simp) (by simp) (fun _ ↦ id)
            (fun _ htable ↦ htable.setSocket hl rfl rfl) (.setListen hl rfl)
        · exact .of_eq (by simp) (by simp) fun _ hr ↦ by cases hr
  | pending r lSock =>
      simp only [next, Exec.bind_eq_ok, Exec.pure_eq_ok, Prod.mk.injEq] at h
      obtain ⟨e, he, -, rfl, rfl⟩ := h
      exact .of_setNormal he _ (by simp) (by simp) fun _ hr ↦ by cases hr
  | waiting r =>
      simp only [next, Exec.bind_eq_ok] at h
      obtain ⟨e, -, err, -, h⟩ := h
      split at h <;> simp only [Exec.pure_eq_ok, Prod.mk.injEq] at h <;> obtain ⟨-, rfl, rfl⟩ := h
      · exact .of_eq (by simp) (by simp) fun _ hr ↦ by cases hr
      · exact .of_eq (by simp) (by simp) fun _ ↦ id
  | answered r =>
      simp only [next, Exec.bind_eq_ok, Exec.pure_eq_ok, Prod.mk.injEq] at h
      obtain ⟨e, he, sock, -, -, rfl, rfl⟩ := h
      exact .of_setNormal he sock (by simp) (by simp) fun _ hr ↦ by cases hr
  | returned result => cases h

end Opening

namespace SocketSetup

variable {M N : ℕ} {s s' : SocketSetup M N} {op : ℕ → Opening M N}

/-- The invariant of runs in which no socket is reaped while it is being set up. -/
structure SetsUp (op : ℕ → Opening M N) (s : SocketSetup M N) : Prop where
  table : ∃ held, TcpStack.Consistent held s.stack ∧
    ∀ id, id ∈ held ↔ ∃ k, s.threads k = .allocated id
  one : ∀ j k id, s.threads j = .allocated id → s.threads k = .allocated id → j = k
  found : ∀ k r, (s.threads k).ref? = some r → s.stack.find (.normal (op k).tuple) = some r
  listening : s.stack.Listening

namespace SetsUp

theorem init : SetsUp op ({ stack := {} } : SocketSetup M N) := by
  refine ⟨⟨∅, .init, fun id ↦ ?_⟩, nofun, nofun, nofun⟩
  simp

theorem registered (h : SetsUp op s) : Registered op s := by
  obtain ⟨held, htable, -⟩ := h.table
  intro k r hr
  obtain ⟨e, he, htuple⟩ := htable.normalSocket_of_find (h.found k r hr)
  exact ⟨e, he, htuple, h.found k r hr⟩

/-- What the steps that move no thread have to keep. -/
theorem keep {stack : TcpStack M N} (h : SetsUp op s)
    (htable : ∀ held, TcpStack.Consistent held s.stack → TcpStack.Consistent held stack)
    (hkeeps : s.stack.Keeps stack) : SetsUp op { s with stack } := by
  obtain ⟨held, hold, hheld⟩ := h.table
  refine ⟨⟨held, htable held hold, hheld⟩, h.one, ?_, hkeeps.listening h.listening⟩
  exact fun k r hr ↦ hkeeps.find _ r (h.found k r hr)

theorem move {k : ℕ} {thread : Setup} {stack : TcpStack M N} {held : Finset ℕ}
    (h : SetsUp op s) (htable : TcpStack.Consistent held stack)
    (hheld : ∀ id, id ∈ held ↔ thread = .allocated id ∨ ∃ j, j ≠ k ∧ s.threads j = .allocated id)
    (hone : ∀ id, thread = .allocated id → ∀ j, j ≠ k → s.threads j ≠ .allocated id)
    (hfound : ∀ r, thread.ref? = some r → stack.find (.normal (op k).tuple) = some r)
    (hkeeps : s.stack.Keeps stack) : SetsUp op (s.move k thread stack) := by
  refine ⟨⟨held, htable, fun id ↦ ?_⟩, ?_, ?_, hkeeps.listening h.listening⟩
  · rw [hheld]
    constructor
    · rintro (hk | ⟨j, hjk, hj⟩)
      · exact ⟨k, by rw [move_self, hk]⟩
      · exact ⟨j, by rw [move_of_ne hjk, hj]⟩
    · rintro ⟨j, hj⟩
      by_cases hjk : j = k
      · rw [hjk, move_self] at hj
        exact .inl hj
      · rw [move_of_ne hjk] at hj
        exact .inr ⟨j, hjk, hj⟩
  · intro i j id hi hj
    by_cases hik : i = k <;> by_cases hjk : j = k
    · rw [hik, hjk]
    · rw [hik, move_self] at hi
      rw [move_of_ne hjk] at hj
      exact absurd hj (hone id hi j hjk)
    · rw [move_of_ne hik] at hi
      rw [hjk, move_self] at hj
      exact absurd hi (hone id hj i hik)
    · rw [move_of_ne hik] at hi
      rw [move_of_ne hjk] at hj
      exact h.one i j id hi hj
  · intro j r hr
    by_cases hjk : j = k
    · rw [hjk, move_self] at hr
      rw [hjk]
      exact hfound r hr
    · rw [move_of_ne hjk] at hr
      exact hkeeps.find _ r (h.found j r hr)

theorem next {k : ℕ} {thread : Setup} {stack : TcpStack M N} (h : SetsUp op s)
    (hadvances : (op k).Advances s.stack (s.threads k) thread stack) :
    SetsUp op (s.move k thread stack) := by
  obtain ⟨held, htable, hheld⟩ := h.table
  generalize hthread : s.threads k = old at hadvances
  -- The ids of the other threads, if thread `k` holds none.
  have hothers : (∀ id, old ≠ .allocated id) → ∀ id,
      id ∈ held ↔ ∃ j, j ≠ k ∧ s.threads j = .allocated id := by
    intro hno id
    rw [hheld]
    constructor
    · rintro ⟨j, hj⟩
      refine ⟨j, ?_, hj⟩
      rintro rfl
      exact hno id (hthread.symm.trans hj)
    · rintro ⟨j, -, hj⟩
      exact ⟨j, hj⟩
  cases hadvances with
  | allocates id _ hnext =>
      obtain ⟨hid, htable', -⟩ := htable.getNextSocketId hnext
      refine h.move htable' ?_ ?_ nofun (.getNextSocketId hnext)
      · intro i
        rw [Finset.mem_insert, hothers nofun, Setup.allocated.injEq, eq_comm]
      · intro i hi j hjk hj
        cases hi
        exact hid ((hheld id).mpr ⟨j, hj⟩)
  | inserts id r _ hinsert =>
      obtain ⟨hnone, hkeeps⟩ := TcpStack.Keeps.insertSocket hinsert
      obtain ⟨_, hinsert', htable', hfind, -⟩ :=
        htable.insertSocket ((hheld id).mpr ⟨k, hthread⟩) hnone
      obtain ⟨rfl, rfl⟩ := Prod.mk.inj (Except.ok.inj (hinsert.symm.trans hinsert'))
      refine h.move htable' ?_ nofun ?_ hkeeps
      · intro i
        rw [Finset.mem_erase, hheld]
        constructor
        · rintro ⟨hne, j, hj⟩
          refine .inr ⟨j, ?_, hj⟩
          rintro rfl
          exact hne (Setup.allocated.inj (hj.symm.trans hthread))
        · rintro (hi | ⟨j, hjk, hj⟩)
          · cases hi
          · refine ⟨?_, j, hj⟩
            rintro rfl
            exact hjk (h.one j k i hj hthread)
      · intro r hr
        cases hr
        exact hfind
  | continues _ _ _ hfrom hto href htable' hkeeps =>
      refine h.move (htable' held htable) ?_ (fun id hid ↦ absurd hid (hto id)) ?_ hkeeps
      · intro i
        rw [hothers hfrom]
        exact (or_iff_right (hto i)).symm
      · intro r hr
        exact hkeeps.find _ r (h.found k r (by rw [hthread]; exact href r hr))

theorem reap {now : TimePoint} {actions : List Action} {stack : TcpStack M N} (h : SetsUp op s)
    (hreap : s.stack.reap now = .ok (actions, stack))
    (hno : ∀ k r e, (s.threads k).ref? = some r → s.stack.normalSocket r = .ok e →
      reapable now e.sock.state ≠ true) : SetsUp op { s with stack } := by
  obtain ⟨held, htable, hheld⟩ := h.table
  obtain ⟨_, hreap', hs'⟩ := TcpStack.reap_of_tidy h.listening.tidy now
  obtain ⟨-, rfl⟩ := Prod.mk.inj (Except.ok.inj (hreap'.symm.trans hreap))
  have htable' := htable.reap hreap
  refine ⟨⟨held, htable', hheld⟩, h.one, ?_, ?_⟩
  · intro k r hr
    obtain ⟨e, he, htuple, -⟩ := h.registered k r hr
    have hlives : reapable now e.sock.state = false := by simpa using hno k r e hr he
    rw [← htuple]
    exact htable'.find_of_normalSocket ((TcpStack.normalSocket_filter hs' r e).mpr ⟨he, hlives⟩)
  · intro id l hl
    exact h.listening id l ((TcpStack.lookup_listen_filter hs').mp hl).1

theorem step {t : Step M N} (hfires : Fires (SocketSetup.step op) t) (h : SetsUp op t.pre)
    (hno : ¬ReapsSetup t) : SetsUp op t.post := by
  obtain ⟨s, c, out, s'⟩ := t
  simp only [Fires] at hfires h ⊢
  cases c with
  | next k now =>
      simp only [SocketSetup.step, Exec.bind_eq_ok, Exec.pure_eq_ok, Prod.exists,
        Prod.mk.injEq] at hfires
      obtain ⟨_, thread, stack, hnext, -, rfl⟩ := hfires
      exact h.next (Opening.advances_of_next hnext)
  | callSocket r c =>
      unfold SocketSetup.step at hfires
      split at hfires <;> rename_i heq <;> cases heq
      · cases hfires
      · simp only [Exec.bind_eq_ok, Exec.pure_eq_ok, Prod.exists, Prod.mk.injEq] at hfires
        obtain ⟨_, _, stack, hcall, -, rfl⟩ := hfires
        exact h.keep (fun _ htable ↦ htable.callSocket hcall) (.callSocket hcall)
  | createListenSocket port =>
      simp only [SocketSetup.step, TcpStack.createListenSocket, Exec.bind_eq_ok, Exec.pure_eq_ok,
        Prod.exists, Prod.mk.injEq] at hfires
      obtain ⟨_, stack, hcreate, -, rfl⟩ := hfires
      refine h.keep ?_ (.createSocket hcreate)
      intro held htable
      obtain ⟨_, _, hcreate', htable', -⟩ := htable.createSocket (.listen port)
      obtain ⟨-, rfl⟩ := Prod.mk.inj (Except.ok.inj (hcreate'.symm.trans hcreate))
      exact htable'
  | reap now =>
      simp only [SocketSetup.step, Exec.bind_eq_ok, Exec.pure_eq_ok, Prod.exists,
        Prod.mk.injEq] at hfires
      obtain ⟨_, stack, hreap, -, rfl⟩ := hfires
      exact h.reap hreap fun k r e hr he hreapable ↦ hno ⟨now, k, r, e, rfl, hr, he, hreapable⟩

/-- A socket that is reaped is not in the table any more. -/
theorem registered_iff {t : Step M N} (hfires : Fires (SocketSetup.step op) t)
    (h : SetsUp op t.pre) : Registered op t.post ↔ ¬ReapsSetup t := by
  constructor
  · rintro hregistered ⟨now, k, r, e, hlabel, hr, he, hreapable⟩
    obtain ⟨s, c, out, s'⟩ := t
    simp only at hlabel
    subst hlabel
    simp only [Fires, SocketSetup.step, Exec.bind_eq_ok, Exec.pure_eq_ok, Prod.exists,
      Prod.mk.injEq] at hfires
    obtain ⟨_, stack, hreap, -, rfl⟩ := hfires
    obtain ⟨_, hreap', hs'⟩ := TcpStack.reap_of_tidy h.listening.tidy now
    obtain ⟨-, rfl⟩ := Prod.mk.inj (Except.ok.inj (hreap'.symm.trans hreap))
    obtain ⟨e', he', -⟩ := hregistered k r hr
    obtain ⟨hold, hlives⟩ := (TcpStack.normalSocket_filter hs' r e').mp he'
    obtain rfl := Except.ok.inj (he.symm.trans hold)
    rw [hreapable] at hlives
    cases hlives
  · intro hno
    exact (h.step hfires hno).registered

end SetsUp

/-- In every run, all sockets that are being set up stay in the table and in its index exactly if
no pass of the reaper comes while one of them is closed or its TIME_WAIT is over. -/
theorem registered_iff_of_run {tr : List (Step M N)} (h : Trace (step op) { stack := {} } tr s) :
    (∀ t ∈ tr, Registered op t.post) ↔ ∀ t ∈ tr, ¬ReapsSetup t :=
  h.forall_iff (D := fun _ ↦ True) (fun _ hfires hI _ ↦ hI.registered_iff hfires)
    (fun _ hfires hI _ hA ↦ hI.step hfires hA) SetsUp.init fun _ _ ↦ trivial

/-- The invariant along a run, for the states of the examples. -/
theorem setsUp_of_run {tr : List (Step M N)} (h : Trace (step op) { stack := {} } tr s)
    (hno : ∀ t ∈ tr, ¬ReapsSetup t) : SetsUp op s :=
  (h.invariant (fun _ hfires hI hA ↦ hI.step hfires hA) SetsUp.init hno).1

/-- A call of `createActiveConnection_` inserts its socket, and puts it into SYN_SENT. -/
theorem exists_inserted : ∃ (op : ℕ → Opening 8 8) (s s' : SocketSetup 8 8)
    (tr tr' : List (Step 8 8)) (e e' : TableSocket 8 8),
    Trace (step op) { stack := {} } tr s ∧ Trace (step op) s tr' s' ∧
      (∀ t ∈ tr ++ tr', ¬ReapsSetup t) ∧
      s.threads 0 = .inserted ⟨1, 0⟩ ∧ s.stack.normalSocket ⟨1, 0⟩ = .ok e ∧
      e.sock.state = .closed ∧
      s'.threads = Function.update (fun _ ↦ .idle) 0 (.waiting ⟨1, 0⟩) ∧
      s'.stack.normalSocket ⟨1, 0⟩ = .ok e' ∧ e'.sock.state = .synSent := by
  have hone : TcpStack.getNextSocketId ({} : TcpStack 8 8) = _ :=
    TcpStack.getNextSocketId_of_isLeast TcpStack.isLeast_init
  have hinserts : Trace (step fun _ ↦ ⟨.active, ⟨⟨1, 2⟩, ⟨3, 4⟩⟩, Vector.replicate 8 0,
      Vector.replicate 8 0, 6⟩) ({ stack := {} } : SocketSetup 8 8) _ _ :=
    .cons (l := .next 0 0) rfl (.cons (l := .next 0 0) (by
      simp only [step, move_self, move_stack, Opening.next, hone]
      rfl) (.cons (l := .next 0 0) rfl (.nil _)))
  refine ⟨_, _, _, _, _, _, _, hinserts, .cons (l := .next 0 0) rfl (.cons (l := .next 0 0) rfl
    (.cons (l := .next 0 0) rfl (.cons (l := .next 0 0) rfl (.cons (l := .next 0 0) rfl
    (.nil _))))), ?_, rfl, rfl, rfl, ?_, rfl, rfl⟩
  · simp [ReapsSetup]
  · simp [move]

/-- A pass of the reaper goes past a socket in SYN_SENT. -/
theorem registered_iff_of_run_waiting : ∃ (op : ℕ → Opening 8 8) (s : SocketSetup 8 8)
    (tr : List (Step 8 8)), Trace (step op) { stack := {} } tr s ∧
      (∃ t ∈ tr, t.label = .reap 0) ∧ s.threads 0 = .waiting ⟨1, 0⟩ ∧
      ∀ t ∈ tr, Registered op t.post := by
  obtain ⟨op, s, s', tr, tr', e, e', hinserts, hopens, hno, -, -, -, hthreads, he', hstate⟩ :=
    exists_inserted
  have hs' : SetsUp op s' := setsUp_of_run (hinserts.append hopens) hno
  obtain ⟨stack, hreap, -⟩ := TcpStack.reap_of_tidy hs'.listening.tidy 0
  have hkeeps : ∀ k r e, (s'.threads k).ref? = some r → s'.stack.normalSocket r = .ok e →
      reapable 0 e.sock.state ≠ true := by
    intro k r e hr he
    rw [hthreads] at hr
    by_cases hzero : k = 0
    · rw [hzero, Function.update_self] at hr
      cases hr
      rw [he'] at he
      cases he
      rw [hstate]
      nofun
    · rw [Function.update_of_ne hzero] at hr
      cases hr
  have hrun := (hinserts.append hopens).append (.cons (l := .reap 0) (by
    simp only [step, hreap]
    rfl) (.nil _))
  refine ⟨op, _, _, hrun, ?_, ?_, (registered_iff_of_run hrun).mpr ?_⟩
  · exact ⟨_, List.mem_append_right _ (List.mem_singleton_self _), rfl⟩
  · show s'.threads 0 = _
    rw [hthreads, Function.update_self]
  · intro t ht
    rcases List.mem_append.mp ht with ht | ht
    · exact hno t ht
    · obtain rfl := List.mem_singleton.mp ht
      rintro ⟨now, k, r, e, hlabel, hr, he, hreapable⟩
      cases hlabel
      exact hkeeps k r e hr he hreapable

/-- A pass of the reaper comes right after the insertion, and the next section of the call finds
its socket destroyed. -/
theorem not_registered : ∃ (op : ℕ → Opening 8 8) (s : SocketSetup 8 8) (tr : List (Step 8 8)),
    Trace (step op) { stack := {} } tr s ∧ (s.threads 0).ref? = some ⟨1, 0⟩ ∧
      ¬Registered op s ∧ step op s (.next 0 0) = .error .undefinedBehaviour := by
  obtain ⟨op, s, s', tr, tr', e, -, hinserts, -, hno, hthread, he, hstate, -⟩ := exists_inserted
  have hs : SetsUp op s :=
    setsUp_of_run hinserts fun t ht ↦ hno t (List.mem_append_left _ ht)
  obtain ⟨stack, hreap, hlookup⟩ := TcpStack.reap_of_tidy hs.listening.tidy 0
  have hgone : stack.normalSocket ⟨1, 0⟩ = .error .undefinedBehaviour := by
    cases hsock : stack.normalSocket ⟨1, 0⟩ with
    | error stop => rw [TcpStack.normalSocket_error hsock]
    | ok e' =>
        obtain ⟨hold, hlives⟩ := (TcpStack.normalSocket_filter hlookup _ e').mp hsock
        obtain rfl := Except.ok.inj (he.symm.trans hold)
        rw [hstate] at hlives
        cases hlives
  have hrun := hinserts.append (.cons (l := .reap 0) (by
    simp only [step, hreap]
    rfl) (.nil _))
  refine ⟨op, _, _, hrun, ?_, ?_, ?_⟩
  · rw [hthread]
    rfl
  · intro hregistered
    obtain ⟨e', he', -⟩ := hregistered 0 ⟨1, 0⟩ (by rw [hthread]; rfl)
    rw [hgone] at he'
    cases he'
  · simp only [step, hthread, Opening.next, hgone, Exec.error_bind]

end SocketSetup

end Tns.Tcp
