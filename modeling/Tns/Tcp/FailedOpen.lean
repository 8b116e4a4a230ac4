import Tns.Tcp.Listener

/-!
# Passive opens that fail

A passive open can fail because its tuple is in use, because no id is free, or
because the pending list of the listener is full.  Only the first two are known
before the new socket is in the table and its SYN-ACK on its way.
-/

namespace Tns.Tcp

open Tns.Library

namespace TcpStack

variable {M N : ℕ} {s s' : TcpStack M N} {listener : SocketRef} {l : ListenSocket}

/-- An open has sent nothing and changed no table, no pending list and no free id. -/
structure NoTrace (listener : SocketRef) (s : TcpStack M N) (actions : List Action)
    (s' : TcpStack M N) : Prop where
  unsent : actions = []
  socketTable : s'.socketTable = s.socketTable
  sessionToSocket : s'.sessionToSocket = s.sessionToSocket
  pendingSocks : s'.listenSocket listener = s.listenSocket listener
  freeSocketIDs : s'.freeSocketIDs = s.freeSocketIDs

theorem NoTrace.refl : NoTrace listener s [] s := ⟨rfl, rfl, rfl, rfl, rfl⟩

/-- What a new socket with the reference `ref` and the key `key` takes. -/
structure Takes (s : TcpStack M N) (key : SocketKey) (ref : SocketRef)
    (s' : TcpStack M N) : Prop where
  unused : s.find key = none
  free : ref.id ∈ s.freeSocketIDs
  find : ∀ key', s'.find key' = if key' = key then some ref else s.find key'
  freeSocketIDs : s'.freeSocketIDs = s.freeSocketIDs.erase ref.id

theorem Takes.setSocket {key : SocketKey} {ref : SocketRef} (h : Takes s key ref s')
    (sock : Socket M N) : Takes s key ref (s'.setSocket sock) := by
  refine ⟨h.unused, h.free, ?_, h.freeSocketIDs⟩
  intro key'
  rw [← h.find]
  cases key' <;> rfl

theorem Takes.not_refused {tuple : SessionTuple} {ref : SocketRef}
    (h : Takes s (.normal tuple) ref s') :
    ¬((s.sessionToSocket.lookup tuple).isSome ∨ s.freeSocketIDs = ∅) := by
  rintro (hused | hfree)
  · rw [show s.sessionToSocket.lookup tuple = none from h.unused] at hused
    cases hused
  · have hmem := h.free
    rw [hfree] at hmem
    exact Finset.notMem_empty _ hmem

/-- The reason why a new socket is refused is known before anything is changed. -/
theorem createSocket_cases {new : NewSocket M N} {r : Except SocketError SocketRef}
    (h : s.createSocket new = .ok (r, s')) :
    ((∃ e, r = .error e) ∧ s' = s ∧ ((s.find new.key).isSome ∨ s.freeSocketIDs = ∅)) ∨
      ∃ ref, r = .ok ref ∧ Takes s new.key ref s' := by
  cases r with
  | error e =>
      refine .inl ⟨⟨e, rfl⟩, eq_of_createSocket_error h, ?_⟩
      by_contra hno
      obtain ⟨hkey, hfree⟩ := not_or.mp hno
      have hne := Finset.nonempty_iff_ne_empty.mpr hfree
      simp only [createSocket, hkey, Bool.false_eq_true, if_false, getNextSocketId, hne, dif_pos,
        Exec.bind_eq_ok, Exec.pure_eq_ok, Prod.mk.injEq, reduceCtorEq, false_and, and_false,
        exists_false] at h
  | ok ref =>
      obtain ⟨-, hunused, hfree, rfl⟩ := createSocket_eq_ok h
      refine .inr ⟨ref, rfl, hunused, hfree, ?_, rfl⟩
      intro key'
      rw [find_mk, find_insertKey]

/-- What a passive open returns and does, if it has a new socket. -/
structure Opens (listener : SocketRef) (l : ListenSocket) (tuple : SessionTuple)
    (s : TcpStack M N) (r : Except SocketError SocketRef) (actions : List Action)
    (s' : TcpStack M N) : Prop where
  result : (∃ e, r = .error e) ↔ MAX_PENDING_SOCKS ≤ l.pendingSocks.length
  sent : ∃ packet, actions = [.sendPacket packet]
  takes : ∃ ref, Takes s (.normal tuple) ref s'
  pendingSocks : ∃ l', s'.listenSocket listener = .ok l' ∧ l'.pendingSocks.length =
    if l.pendingSocks.length < MAX_PENDING_SOCKS then l.pendingSocks.length + 1
    else l.pendingSocks.length

theorem Opens.not_noTrace {tuple : SessionTuple} {r : Except SocketError SocketRef}
    {actions : List Action} (h : Opens listener l tuple s r actions s') :
    ¬NoTrace listener s actions s' := by
  intro hno
  obtain ⟨packet, hsent⟩ := h.sent
  rw [hno.unsent] at hsent
  cases hsent

/-- A passive open is refused before it does anything, or it has a new socket. -/
theorem createPassiveConnection_cases (h : Consistent ∅ s)
    (hl : s.listenSocket listener = .ok l) (tuple : SessionTuple) (clientISN clientWND : UInt32)
    (sendBuf : Vector Byte M) (recvBuf : Vector Byte N) (isn : UInt32) (now : TimePoint) :
    ∃ r actions s', s.createPassiveConnection tuple clientISN clientWND listener sendBuf recvBuf
        isn now = .ok (r, actions, s') ∧
      (((s.sessionToSocket.lookup tuple).isSome ∨ s.freeSocketIDs = ∅) ∧ (∃ e, r = .error e) ∧
          NoTrace listener s actions s' ∨
        ¬((s.sessionToSocket.lookup tuple).isSome ∨ s.freeSocketIDs = ∅) ∧
          Opens listener l tuple s r actions s') := by
  obtain ⟨r, s₁, hcreate, hs₁, hlookup⟩ := h.createSocket
    (.normal tuple (.createNormalSocket sendBuf recvBuf isn (clientISN + 1) clientWND))
  have hcases := createSocket_cases hcreate
  simp only [createPassiveConnection, createNormalSocket, hcreate, Exec.ok_bind]
  cases r with
  | error e =>
      obtain ⟨-, rfl, hused⟩ := hcases.resolve_right (by simp)
      exact ⟨_, _, s₁, rfl, .inl ⟨hused, ⟨e, rfl⟩, .refl⟩⟩
  | ok ref =>
      obtain ⟨_, href, htakes⟩ := hcases.resolve_left (by simp)
      obtain rfl := Except.ok.inj href
      have hsock := normalSocket_eq_ok.mpr ⟨hlookup ref rfl, rfl⟩
      obtain ⟨hlookup₁, hlref⟩ := listenSocket_eq_ok.mp hl
      have hl₁ := lookup_of_createSocket_of_some hcreate hlookup₁
      simp only [hsock, Exec.ok_bind, RecvBuffer.getAckWnd]
      generalize Packet.makeSynAckPacket _ _ _ = packet
      obtain ⟨actions, sock, hsend⟩ :=
        Consistent.exists_sendPacket sendBuf recvBuf isn (clientISN + 1) clientWND packet now
      have hsent := hsend
      obtain ⟨rfl, -⟩ := NormalSocket.sendPacket_cases hsent
      have hl₂ := (lookup_listen_setNormal hsock sock).mpr hl₁
      have htakes₂ := htakes.setSocket (.normal ⟨ref, tuple, sock⟩)
      simp only [hsend, Exec.ok_bind, listenSocket_eq_ok.mpr ⟨hl₂, hlref⟩]
      split
      · rename_i hroom
        refine ⟨_, _, _, rfl, .inr ⟨htakes.not_refused, ?_, ⟨packet, rfl⟩, ?_, ?_⟩⟩
        · simp [hroom]
        · exact ⟨ref, (htakes₂.setSocket _).setSocket _⟩
        · have hne : listener.id ≠ ref.id := by
            intro heq
            rw [heq, hlookup ref rfl] at hl₁
            cases hl₁
          rw [if_pos hroom]
          refine ⟨{ l with pendingSocks := l.pendingSocks ++ [(tuple, ref)] },
            listenSocket_eq_ok.mpr ⟨?_, hlref⟩, by simp⟩
          rw [lookup_setSocket, Socket.ref, if_neg hne, lookup_setSocket, Socket.ref, hlref,
            if_pos rfl]
      · rename_i hfull
        refine ⟨_, _, _, rfl, .inr ⟨htakes.not_refused, ?_, ⟨packet, rfl⟩, ⟨ref, htakes₂⟩, ?_⟩⟩
        · simpa using hfull
        · rw [if_neg hfull]
          exact ⟨l, listenSocket_eq_ok.mpr ⟨hl₂, hlref⟩, rfl⟩

/-- A passive open that fails leaves no trace exactly if its tuple is in use, no id is free or
the listener has room. -/
theorem leavesNoTrace_iff {tr : List (Step M N)} (h : Trace step {} tr s)
    (hl : s.listenSocket listener = .ok l) (tuple : SessionTuple) (clientISN clientWND : UInt32)
    (sendBuf : Vector Byte M) (recvBuf : Vector Byte N) (isn : UInt32) (now : TimePoint) :
    ∃ r actions s', s.createPassiveConnection tuple clientISN clientWND listener sendBuf recvBuf
        isn now = .ok (r, actions, s') ∧
      ((∀ e, r = .error e → NoTrace listener s actions s') ↔
        (s.sessionToSocket.lookup tuple).isSome ∨ s.freeSocketIDs = ∅ ∨
          l.pendingSocks.length < MAX_PENDING_SOCKS) := by
  obtain ⟨r, actions, s', hcall, hcases⟩ := createPassiveConnection_cases (.of_run h) hl tuple
    clientISN clientWND sendBuf recvBuf isn now
  refine ⟨r, actions, s', hcall, ?_⟩
  rw [← or_assoc]
  rcases hcases with ⟨hrefused, -, hno⟩ | ⟨hnot, hopens⟩
  · exact iff_of_true (fun _ _ ↦ hno) (.inl hrefused)
  · rw [or_iff_right hnot, ← not_le, ← hopens.result]
    constructor
    · rintro hclean ⟨e, he⟩
      exact hopens.not_noTrace (hclean e he)
    · intro hok e he
      exact absurd ⟨e, he⟩ hok

/-- A first SYN is answered and leaves a socket, which is no failure. -/
theorem leavesNoTrace_iff_first : ∃ (s : TcpStack 8 8) (tr : List (Step 8 8)) (l : ListenSocket),
    Trace step {} tr s ∧ s.listenSocket ⟨1, 0⟩ = .ok l ∧ l.pendingSocks.length = 0 ∧
      ∃ r actions s', s.createPassiveConnection ⟨⟨1, 80⟩, ⟨2, 0⟩⟩ 10 100 ⟨1, 0⟩
          (Vector.replicate 8 0) (Vector.replicate 8 0) 6 0 = .ok (r, actions, s') ∧
        ((∀ e, r = .error e → NoTrace ⟨1, 0⟩ s actions s') ↔
          (s.sessionToSocket.lookup ⟨⟨1, 80⟩, ⟨2, 0⟩⟩).isSome ∨ s.freeSocketIDs = ∅ ∨
            l.pendingSocks.length < MAX_PENDING_SOCKS) := by
  have hrun : Trace step ({} : TcpStack 8 8) _ _ := .cons (l := .createListenSocket 80) (by
    simp only [step, createListenSocket, createSocket, getNextSocketId_of_isLeast isLeast_init]
    rfl) (.nil _)
  exact ⟨_, _, _, hrun, rfl, rfl, leavesNoTrace_iff hrun rfl ⟨⟨1, 80⟩, ⟨2, 0⟩⟩ 10 100
    (Vector.replicate 8 0) (Vector.replicate 8 0) 6 0⟩

/-- The tuple of a SYN from port `n` of a client. -/
def clientTuple (n : ℕ) : SessionTuple := ⟨⟨1, 80⟩, ⟨2, UInt16.ofNat n⟩⟩

theorem clientTuple_ne {m n : ℕ} (hn : n < 2 ^ 16) (hmn : m < n) :
    clientTuple n ≠ clientTuple m := by
  intro heq
  have hport := congrArg (fun tuple ↦ tuple.remote.port.toNat) heq
  simp only [clientTuple, UInt16.toNat_ofNat'] at hport
  omega

theorem exists_opens (h : Consistent ∅ s) (hl : s.listenSocket listener = .ok l)
    {tuple : SessionTuple} (hunused : s.sessionToSocket.lookup tuple = none)
    (hfree : s.freeSocketIDs ≠ ∅) (sendBuf : Vector Byte M) (recvBuf : Vector Byte N) :
    ∃ r actions s', s.createPassiveConnection tuple 10 100 listener sendBuf recvBuf 6 0 =
      .ok (r, actions, s') ∧ Opens listener l tuple s r actions s' := by
  obtain ⟨r, actions, s', hcall, hcases⟩ :=
    createPassiveConnection_cases h hl tuple 10 100 sendBuf recvBuf 6 0
  refine ⟨r, actions, s', hcall, ?_⟩
  rcases hcases with ⟨hused | hnone, -⟩ | ⟨-, hopens⟩
  · rw [hunused] at hused
    cases hused
  · exact absurd hnone hfree
  · exact hopens

/-- A run in which `n` clients send a SYN and none completes its handshake. -/
theorem exists_pending {n : ℕ} (hn : n ≤ MAX_PENDING_SOCKS) :
    ∃ (s : TcpStack 8 8) (tr : List (Step 8 8)) (l : ListenSocket), Trace step {} tr s ∧
      s.listenSocket ⟨1, 0⟩ = .ok l ∧ l.pendingSocks.length = n ∧
      s.freeSocketIDs.card = 127 - n ∧
      ∀ k, n ≤ k → k < 2 ^ 16 → s.sessionToSocket.lookup (clientTuple k) = none := by
  induction n with
  | zero =>
      have hrun : Trace step ({} : TcpStack 8 8) _ _ := .cons (l := .createListenSocket 80) (by
        simp only [step, createListenSocket, createSocket,
          getNextSocketId_of_isLeast isLeast_init]
        rfl) (.nil _)
      exact ⟨_, _, _, hrun, rfl, rfl, rfl, fun _ _ _ ↦ rfl⟩
  | succ n ih =>
      obtain ⟨s, tr, l, hrun, hl, hlength, hcard, hnew⟩ := ih (by omega)
      simp only [MAX_PENDING_SOCKS] at hn
      have hfree : s.freeSocketIDs ≠ ∅ := by
        rw [← Finset.card_pos.trans Finset.nonempty_iff_ne_empty]
        omega
      obtain ⟨r, actions, s', hcall, hopens⟩ := exists_opens (.of_run hrun) hl
        (hnew n le_rfl (by omega)) hfree (Vector.replicate 8 0) (Vector.replicate 8 0)
      obtain ⟨ref, htakes⟩ := hopens.takes
      obtain ⟨l', hl', hlength'⟩ := hopens.pendingSocks
      have hrun' : Trace step {} _ s' := hrun.append (.cons (l := .createPassiveConnection
        (clientTuple n) 10 100 ⟨1, 0⟩ (Vector.replicate 8 0) (Vector.replicate 8 0) 6 0) (by
          simp only [step, hcall]
          rfl) (.nil _))
      refine ⟨s', _, l', hrun', hl', ?_, ?_, ?_⟩
      · rw [hlength', hlength, MAX_PENDING_SOCKS, if_pos (Nat.lt_of_succ_le hn)]
      · rw [htakes.freeSocketIDs, Finset.card_erase_of_mem htakes.free, hcard]
        omega
      · intro k hnk hk
        have hfind := htakes.find (.normal (clientTuple k))
        rw [if_neg (by simp [clientTuple_ne hk hnk])] at hfind
        exact hfind.trans (hnew k (by omega) hk)

/-- The pending list is full: the SYN-ACK is sent and the socket stays in the tables. -/
theorem not_leavesNoTrace : ∃ (s s' : TcpStack 8 8) (tr : List (Step 8 8)) (l : ListenSocket)
    (e : SocketError) (actions : List Action), Trace step {} tr s ∧
      s.listenSocket ⟨1, 0⟩ = .ok l ∧ l.pendingSocks.length = 64 ∧
      s.createPassiveConnection (clientTuple 64) 10 100 ⟨1, 0⟩ (Vector.replicate 8 0)
        (Vector.replicate 8 0) 6 0 = .ok (.error e, actions, s') ∧
      (∃ packet, actions = [.sendPacket packet]) ∧ s'.sessionToSocket ≠ s.sessionToSocket ∧
      ¬NoTrace ⟨1, 0⟩ s actions s' := by
  obtain ⟨s, tr, l, hrun, hl, hlength, hcard, hnew⟩ := exists_pending le_rfl
  have hfree : s.freeSocketIDs ≠ ∅ := by
    intro hnone
    rw [hnone] at hcard
    cases hcard
  have hunused := hnew 64 le_rfl (by decide)
  obtain ⟨r, actions, s', hcall, hopens⟩ := exists_opens (.of_run hrun) hl hunused hfree
    (Vector.replicate 8 0) (Vector.replicate 8 0)
  obtain ⟨e, rfl⟩ := hopens.result.mpr hlength.ge
  refine ⟨s, s', tr, l, e, actions, hrun, hl, hlength, hcall, hopens.sent, ?_, hopens.not_noTrace⟩
  intro heq
  obtain ⟨ref, htakes⟩ := hopens.takes
  have hfind := htakes.find (.normal (clientTuple 64))
  rw [if_pos rfl, find, heq, hunused] at hfind
  cases hfind

end TcpStack

end Tns.Tcp
