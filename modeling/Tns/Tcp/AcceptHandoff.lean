import Mathlib.Data.List.Count
import Mathlib.Logic.Function.Basic
import Tns.Library.KeyedList
import Tns.Tcp.TcpStack

/-!
# The way of a connection to `vAccept`

A socket whose handshake completes moves from the pending list of its listener
to the accept queue, in two sections.  A listener that closes empties the two
lists, in two sections as well.  All sections interleave, with those of `vAccept`.
-/

namespace Tns.Tcp

open Tns.Library

/-- `PendingSocks::remove`. -/
def ListenSocket.remove (l : ListenSocket) (sess : SessionTuple) :
    Option SocketRef × ListenSocket :=
  ((lookup Prod.fst l.pendingSocks sess).map Prod.snd,
    { l with pendingSocks := l.pendingSocks.eraseP (·.1 = sess) })

theorem ListenSocket.remove_of_nil {l : ListenSocket} (h : l.pendingSocks = [])
    (sess : SessionTuple) : (l.remove sess).2 = l := by
  rw [ListenSocket.remove, h, List.eraseP_nil, ← h]

/-- Where a thread is that handles a `GetAck` in SYN_RECEIVED. -/
inductive Handler where
  | idle
  | dispatched (r : SocketRef) (seqNum ackNum : UInt32) (wndSize : UInt16)
  | established (r : SocketRef)
  | removed (r : SocketRef)
  | finished
  deriving DecidableEq

/-- Where the thread is that closes the listener, with the copies of the pending sockets it has
not visited yet, and the state to which it takes the one it is at. -/
inductive Closer where
  | idle
  | closing (todo : List SocketRef)
  | removing (r : SocketRef) (next : State) (todo : List SocketRef)
  | sendingFin (r : SocketRef) (next : State) (todo : List SocketRef)
  | drained
  | finished

def Closer.todo : Closer → List SocketRef
  | .closing todo | .removing _ _ todo | .sendingFin _ _ todo => todo
  | .idle | .drained | .finished => []

/-- A listener with its sockets, the threads that handle events, the one that closes it, and
the record of what `vAccept` returned and what `vClose` was called on. -/
structure Handoff (M N : ℕ) where
  lSock : ListenSocket
  sockets : SocketRef → TableSocket M N
  queueClosed : Bool := false
  handlers : ℕ → Handler := fun _ ↦ .idle
  closer : Closer := .idle
  accepted : List SocketRef := []
  vClosed : List SocketRef := []

/-- The sections, in the order in which a thread takes them: of a handler, of `vAccept`, and of
`ListenSocket::vClose`. -/
inductive HandoffCall where
  | dispatch (h : ℕ) (r : SocketRef) (seqNum ackNum : UInt32) (wndSize : UInt16)
  | handle (h : ℕ) (now : TimePoint)
  | remove (h : ℕ)
  | pushAndNotify (h : ℕ)
  | waitAndPop
  | vClose
  | visit
  | removeVisited
  | sendFin (now : TimePoint)
  | onClose (now : TimePoint)
  | setClosed

namespace Handoff

variable {M N : ℕ} {s s' : Handoff M N}

def setSock (s : Handoff M N) (r : SocketRef) (sock : NormalSocket M N) : Handoff M N :=
  { s with sockets := Function.update s.sockets r { s.sockets r with sock } }

def setHandler (s : Handoff M N) (h : ℕ) (handler : Handler) : Handoff M N :=
  { s with handlers := Function.update s.handlers h handler }

/-- `vClose` on a socket of the accept queue, whose lock the caller holds. -/
def closeQueued (now : TimePoint) (s : Handoff M N) (r : SocketRef) : Exec (Handoff M N) := do
  let (_, actions, sock) ← (s.sockets r).sock.vClose now
  let s := { s.setSock r sock with vClosed := s.vClosed ++ [r] }
  if .removePending s.lSock.ref.id ∈ actions then
    return { s with lSock := (s.lSock.remove (s.sockets r).tuple).2 }
  else
    return s

def step (s : Handoff M N) :
    HandoffCall → Exec (Option (Except SocketError SocketRef) × Handoff M N)
  | .dispatch h r seqNum ackNum wndSize =>
      if s.handlers h = .idle ∧ (s.sockets r).sock.state = .synReceived s.lSock.ref.id then
        .ok (none, s.setHandler h (.dispatched r seqNum ackNum wndSize))
      else .error .blocks
  | .handle h now =>
      match s.handlers h with
      | .dispatched r seqNum ackNum wndSize => do
          let (actions, sock) ← (s.sockets r).sock.handleSynReceivedGetAck s.lSock.ref.id
            seqNum ackNum wndSize now
          return (none, (s.setSock r sock).setHandler h
            (if actions = [] then .finished else .established r))
      | _ => .error .blocks
  | .remove h =>
      match s.handlers h with
      | .established r => do
          let (ok, lSock) := s.lSock.remove (s.sockets r).tuple
          Exec.assertThat (ok.isSome = true) "FATAL: Normal socket not found in pending list"
          return (none, { s with lSock }.setHandler h (.removed r))
      | _ => .error .blocks
  | .pushAndNotify h =>
      match s.handlers h with
      | .removed r =>
          let acceptQ := s.lSock.acceptQ ++ [r]
          .ok (none, { s with lSock := { s.lSock with acceptQ } }.setHandler h .finished)
      | _ => .error .blocks
  | .waitAndPop => do
      Exec.waitUntil (s.lSock.acceptQ ≠ [] ∨ s.queueClosed = true)
      if s.queueClosed then
        return (some (.error .closing), s)
      else
        match s.lSock.acceptQ with
        | [] => .error .blocks
        | r :: acceptQ =>
            return (some (.ok r),
              { s with lSock := { s.lSock with acceptQ }, accepted := s.accepted ++ [r] })
  | .vClose =>
      match s.closer, s.lSock.state with
      | .idle, .listen =>
          .ok (none, { s with
            lSock := { s.lSock with pendingSocks := [] }
            closer := .closing (s.lSock.pendingSocks.map Prod.snd) })
      | _, _ => .error .blocks
  | .visit =>
      match s.closer with
      | .closing (r :: todo) =>
          let vClosed := s.vClosed ++ [r]
          match (s.sockets r).sock.vCloseState with
          | (.error _, _, sock) =>
              .ok (none, { s.setSock r sock with closer := .closing todo, vClosed })
          | (.ok next, [], sock) =>
              .ok (none, { s.setSock r sock with closer := .sendingFin r next todo, vClosed })
          | (.ok next, _, sock) =>
              .ok (none, { s.setSock r sock with closer := .removing r next todo, vClosed })
      | _ => .error .blocks
  | .removeVisited =>
      match s.closer with
      | .removing r next todo =>
          .ok (none, { s with
            lSock := (s.lSock.remove (s.sockets r).tuple).2
            closer := .sendingFin r next todo })
      | _ => .error .blocks
  | .sendFin now =>
      match s.closer with
      | .sendingFin r next todo => do
          let sock := (s.sockets r).sock
          let (seq, wnd) := sock.finSeqWnd
          let (_, sock) ← sock.writeAndSendOne.sendFin seq wnd next now
          return (none, { s.setSock r sock with closer := .closing todo })
      | _ => .error .blocks
  | .onClose now =>
      match s.closer with
      | .closing [] => do
          let queue := s.lSock.acceptQ
          let s := { s with
            lSock := { s.lSock with acceptQ := [] }, queueClosed := true, closer := .drained }
          let s ← queue.foldlM (closeQueued now) s
          return (none, s)
      | _ => .error .blocks
  | .setClosed =>
      match s.closer with
      | .drained =>
          .ok (none, { s with lSock := { s.lSock with state := .closed }, closer := .finished })
      | _ => .error .blocks

abbrev Step (M N : ℕ) :=
  Transition (Handoff M N) HandoffCall (Option (Except SocketError SocketRef))

/-! ## What is to hold -/

/-- The connections are open, in the pending list or in the accept queue, and no thread has
begun. -/
structure Begins (s : Handoff M N) : Prop where
  listen : s.lSock.state = .listen
  nodup : (s.lSock.pendingSocks.map Prod.snd ++ s.lSock.acceptQ).Nodup
  keys : (s.lSock.pendingSocks.map Prod.fst).Nodup
  pending : ∀ p ∈ s.lSock.pendingSocks, (s.sockets p.2).tuple = p.1 ∧
    (s.sockets p.2).sock.state = .synReceived s.lSock.ref.id
  queue : s.queueClosed = false
  handlers : ∀ h, s.handlers h = .idle
  closer : s.closer = .idle
  records : s.accepted = [] ∧ s.vClosed = []

/-- The connections of a listener. -/
def socks (s : Handoff M N) : List SocketRef :=
  s.lSock.pendingSocks.map Prod.snd ++ s.lSock.acceptQ

def Finished (s : Handoff M N) : Prop :=
  s.closer = .finished ∧ ∀ h, s.handlers h = .idle ∨ s.handlers h = .finished

/-- The assertion of the handlers cannot fail, and in the end every one of the connections has
been accepted or closed by the listener, once. -/
structure HandsOver (socks : List SocketRef) (s : Handoff M N) : Prop where
  assertion : ∀ h msg, s.step (.remove h) ≠ .error (.assertion msg)
  once : s.Finished →
    s.lSock.acceptQ = [] ∧ ∀ r ∈ socks, (s.accepted ++ s.vClosed).count r = 1

/-- The acknowledgment passes the tests of the handler. -/
def Passes (sock : NormalSocket M N) (seqNum ackNum : UInt32) (wndSize : UInt16)
    (now : TimePoint) : Prop :=
  seqNum = sock.recvBuffer.nxt ∧
    (sock.sendBuffer.onAck ackNum wndSize.toUInt32 now).1.1 =
      (sock.sendBuffer.onAck ackNum wndSize.toUInt32 now).1.2

/-- A handler completes a handshake only while its socket is in the pending list and no other
handler has completed it, the pending list is not emptied between that and its removal, and the
accept queue is not emptied between the removal and the push. -/
def Orderly (t : Step M N) : Prop :=
  match t.label with
  | .handle h now => ∀ r seqNum ackNum wndSize,
      t.pre.handlers h = .dispatched r seqNum ackNum wndSize →
      Passes (t.pre.sockets r).sock seqNum ackNum wndSize now →
      ((t.pre.sockets r).tuple, r) ∈ t.pre.lSock.pendingSocks ∧
        ∀ k, t.pre.handlers k ≠ .established r
  | .vClose => ∀ h r, t.pre.handlers h ≠ .established r
  | .onClose _ => ∀ h r, t.pre.handlers h ≠ .removed r
  | _ => True

/-! ## Sections -/

@[simp] theorem setSock_lSock (r : SocketRef) (sock : NormalSocket M N) :
    (s.setSock r sock).lSock = s.lSock := rfl

@[simp] theorem setSock_handlers (r : SocketRef) (sock : NormalSocket M N) :
    (s.setSock r sock).handlers = s.handlers := rfl

@[simp] theorem setSock_closer (r : SocketRef) (sock : NormalSocket M N) :
    (s.setSock r sock).closer = s.closer := rfl

theorem setSock_tuple (r : SocketRef) (sock : NormalSocket M N) (r' : SocketRef) :
    ((s.setSock r sock).sockets r').tuple = (s.sockets r').tuple := by
  by_cases hr : r' = r
  · subst hr
    simp [setSock]
  · simp [setSock, hr]

/-- The thread `h` is the only one that goes to or from `a`. -/
theorem setHandler_iff {h : ℕ} {a b : Handler} (hold : s.handlers h ≠ a) (hnew : b ≠ a)
    (k : ℕ) : (s.setHandler h b).handlers k = a ↔ s.handlers k = a := by
  by_cases hk : k = h
  · subst hk
    simp [setHandler, hold, hnew]
  · simp [setHandler, hk]

theorem passes_of_handle {sock sock' : NormalSocket M N} {lSock : ℕ} {seqNum ackNum : UInt32}
    {wndSize : UInt16} {now : TimePoint} {actions : List Action}
    (h : sock.handleSynReceivedGetAck lSock seqNum ackNum wndSize now = .ok (actions, sock'))
    (hactions : actions ≠ []) : Passes sock seqNum ackNum wndSize now := by
  simp only [NormalSocket.handleSynReceivedGetAck] at h
  split at h
  · simp only [Exec.pure_eq_ok, Prod.mk.injEq] at h
    exact absurd h.1.symm hactions
  · rename_i hseq
    split at h
    · simp only [Exec.pure_eq_ok, Prod.mk.injEq] at h
      exact absurd h.1.symm hactions
    · rename_i hack
      exact ⟨not_not.mp hseq, not_not.mp hack⟩

/-- What closing the sockets of the accept queue leaves alone, when nothing is pending. -/
theorem closeQueued_foldlM {now : TimePoint} {queue : List SocketRef}
    (h : queue.foldlM (closeQueued now) s = .ok s') (hnil : s.lSock.pendingSocks = []) :
    s'.lSock = s.lSock ∧ s'.handlers = s.handlers ∧ s'.closer = s.closer ∧
      s'.queueClosed = s.queueClosed ∧ s'.accepted = s.accepted ∧
      s'.vClosed = s.vClosed ++ queue ∧ ∀ r, (s'.sockets r).tuple = (s.sockets r).tuple := by
  induction queue generalizing s with
  | nil =>
      obtain rfl := Except.ok.inj h
      simp
  | cons r queue ih =>
      rw [List.foldlM_cons, Exec.bind_eq_ok] at h
      obtain ⟨s₁, hfirst, hrest⟩ := h
      have hs₁ : s₁.lSock = s.lSock ∧ s₁.handlers = s.handlers ∧ s₁.closer = s.closer ∧
          s₁.queueClosed = s.queueClosed ∧ s₁.accepted = s.accepted ∧
          s₁.vClosed = s.vClosed ++ [r] ∧ ∀ r, (s₁.sockets r).tuple = (s.sockets r).tuple := by
        simp only [closeQueued, Exec.bind_eq_ok, Prod.exists] at hfirst
        obtain ⟨_, _, sock, -, hfirst⟩ := hfirst
        split at hfirst <;> rw [Exec.pure_eq_ok] at hfirst <;> subst hfirst
        · refine ⟨?_, rfl, rfl, rfl, rfl, rfl, setSock_tuple r sock⟩
          exact ListenSocket.remove_of_nil hnil _
        · exact ⟨rfl, rfl, rfl, rfl, rfl, rfl, setSock_tuple r sock⟩
      obtain ⟨hl, hh, hc, hq, ha, hv, ht⟩ := hs₁
      obtain ⟨hl', hh', hc', hq', ha', hv', ht'⟩ := ih hrest (by rw [hl, hnil])
      refine ⟨hl'.trans hl, hh'.trans hh, hc'.trans hc, hq'.trans hq, ha'.trans ha, ?_, ?_⟩
      · rw [hv', hv, List.append_assoc, List.singleton_append]
      · exact fun r ↦ (ht' r).trans (ht r)

/-! ## The invariant -/

/-- The lists in which a connection can be, and the records. -/
def places (s : Handoff M N) : List SocketRef :=
  s.lSock.pendingSocks.map Prod.snd ++ s.closer.todo ++ s.lSock.acceptQ ++ s.accepted ++ s.vClosed

theorem places_count (s : Handoff M N) (r : SocketRef) : s.places.count r =
    (s.lSock.pendingSocks.map Prod.snd).count r + s.closer.todo.count r +
      s.lSock.acceptQ.count r + s.accepted.count r + s.vClosed.count r := by
  simp only [places, List.count_append]

/-- Every connection is in one place, or in the hands of one handler on its way from the pending
list to the accept queue. -/
structure Keeps (socks : List SocketRef) (s : Handoff M N) : Prop where
  keys : (s.lSock.pendingSocks.map Prod.fst).Nodup
  tuples : ∀ p ∈ s.lSock.pendingSocks, (s.sockets p.2).tuple = p.1
  once : ∀ r ∈ socks, (s.places.count r = 1 ∧ ∀ h, s.handlers h ≠ .removed r) ∨
    (s.places.count r = 0 ∧ ∃ h, ∀ k, s.handlers k = .removed r ↔ k = h)
  established : ∀ h r, s.handlers h = .established r →
    ((s.sockets r).tuple, r) ∈ s.lSock.pendingSocks ∧
      ∀ k, s.handlers k = .established r → k = h
  begun : s.closer ≠ .idle → s.lSock.pendingSocks = []
  drained : s.closer = .drained ∨ s.closer = .finished →
    s.lSock.acceptQ = [] ∧ s.queueClosed = true ∧ ∀ h r, s.handlers h ≠ .removed r

namespace Keeps

variable {socks : List SocketRef}

/-- A step that moves connections between the lists, and no handler from or to one of the two
hand-over positions. -/
theorem move (h : Keeps socks s) (hpending : s'.lSock.pendingSocks = s.lSock.pendingSocks)
    (htuple : ∀ r, (s'.sockets r).tuple = (s.sockets r).tuple)
    (hcount : ∀ r, s'.places.count r = s.places.count r)
    (hestablished : ∀ r k, s'.handlers k = .established r ↔ s.handlers k = .established r)
    (hremoved : ∀ r k, s'.handlers k = .removed r ↔ s.handlers k = .removed r)
    (hbegun : s'.closer ≠ .idle → s.lSock.pendingSocks = [])
    (hdrained : s'.closer = .drained ∨ s'.closer = .finished →
      s'.lSock.acceptQ = [] ∧ s'.queueClosed = true ∧ ∀ h r, s.handlers h ≠ .removed r) :
    Keeps socks s' := by
  refine ⟨?_, ?_, ?_, ?_, ?_, ?_⟩
  · rw [hpending]
    exact h.keys
  · intro p hp
    rw [htuple]
    exact h.tuples p (hpending ▸ hp)
  · intro r hr
    simp only [hcount, ne_eq, hremoved]
    exact h.once r hr
  · intro k r hk
    rw [hestablished] at hk
    simp only [htuple, hpending, hestablished]
    exact h.established k r hk
  · intro hc
    rw [hpending]
    exact hbegun hc
  · intro hc
    obtain ⟨hq, hclosed, hno⟩ := hdrained hc
    exact ⟨hq, hclosed, fun k r hk ↦ hno k r ((hremoved r k).mp hk)⟩

/-- The socket of a handler that has completed the handshake is found in the pending list. -/
theorem lookup_established (h : Keeps socks s) {k : ℕ} {r : SocketRef}
    (hk : s.handlers k = .established r) :
    lookup Prod.fst s.lSock.pendingSocks (s.sockets r).tuple = some ((s.sockets r).tuple, r) :=
  (lookup_eq_some h.keys).mpr ⟨(h.established k r hk).1, rfl⟩

theorem handsOver (h : Keeps socks s) : HandsOver socks s := by
  refine ⟨?_, ?_⟩
  · intro k msg hfail
    simp only [step] at hfail
    split at hfail
    · rename_i r hk
      simp [ListenSocket.remove, h.lookup_established hk, Exec.assertThat] at hfail
    · cases hfail
  · rintro ⟨hc, hdone⟩
    obtain ⟨hq, -, hno⟩ := h.drained (.inr hc)
    refine ⟨hq, ?_⟩
    intro r hr
    rcases h.once r hr with ⟨hone, -⟩ | ⟨-, k, hk⟩
    · rw [places, h.begun (by rw [hc]; simp), hq, hc] at hone
      simpa [Closer.todo] using hone
    · exact absurd ((hk k).mpr rfl) (hno k r)

theorem dispatch (h : Keeps socks s) {k : ℕ} {r : SocketRef} {seqNum ackNum : UInt32}
    {wndSize : UInt16} (hidle : s.handlers k = .idle) :
    Keeps socks (s.setHandler k (.dispatched r seqNum ackNum wndSize)) := by
  apply h.move
  · rfl
  · exact fun _ ↦ rfl
  · exact fun _ ↦ rfl
  · exact fun r ↦ setHandler_iff (by rw [hidle]; nofun) nofun
  · exact fun r ↦ setHandler_iff (by rw [hidle]; nofun) nofun
  · exact h.begun
  · exact h.drained

theorem handle (h : Keeps socks s) {k : ℕ} {r : SocketRef} {seqNum ackNum : UInt32}
    {wndSize : UInt16} (hk : s.handlers k = .dispatched r seqNum ackNum wndSize)
    (sock : NormalSocket M N) {actions : List Action}
    (hno : actions ≠ [] → ((s.sockets r).tuple, r) ∈ s.lSock.pendingSocks ∧
      ∀ k, s.handlers k ≠ .established r) :
    Keeps socks ((s.setSock r sock).setHandler k
      (if actions = [] then .finished else .established r)) := by
  by_cases hactions : actions = []
  · rw [if_pos hactions]
    apply h.move
    · rfl
    · exact setSock_tuple r sock
    · exact fun _ ↦ rfl
    · exact fun r' ↦ setHandler_iff (by simp [hk]) nofun
    · exact fun r' ↦ setHandler_iff (by simp [hk]) nofun
    · exact h.begun
    · exact h.drained
  · rw [if_neg hactions]
    obtain ⟨hpending, hfirst⟩ := hno hactions
    have hnew : ∀ j, (((s.setSock r sock).setHandler k (.established r)).handlers j =
        .established r ↔ j = k) := by
      intro j
      by_cases hj : j = k
      · simp [setHandler, hj]
      · simp [setHandler, hj, hfirst j]
    have hremoved := fun r' ↦ setHandler_iff (s := s.setSock r sock) (h := k) (a := .removed r')
      (b := .established r) (by simp [hk]) nofun
    refine ⟨h.keys, ?_, ?_, ?_, h.begun, ?_⟩
    · intro p hp
      exact (setSock_tuple r sock p.2).trans (h.tuples p hp)
    · intro r' hr'
      simp only [ne_eq, hremoved]
      exact h.once r' hr'
    · intro j r' hj
      by_cases hr : r' = r
      · subst hr
        refine ⟨?_, fun i hi ↦ ((hnew i).mp hi).trans ((hnew j).mp hj).symm⟩
        rw [show (((s.setSock r' sock).setHandler k _).sockets r').tuple = _ from
          setSock_tuple r' sock r']
        exact hpending
      · have hiff := setHandler_iff (s := s.setSock r sock) (h := k) (a := .established r')
          (b := .established r) (by simp [hk]) (by simpa using Ne.symm hr)
        rw [hiff] at hj
        simp only [hiff]
        rw [show (((s.setSock r sock).setHandler k _).sockets r').tuple = _ from
          setSock_tuple r sock r']
        exact h.established j r' hj
    · intro hc
      rw [h.begun (by rcases hc with hc | hc <;> exact fun hidle ↦ by cases hc.symm.trans hidle)]
        at hpending
      cases hpending

theorem remove (h : Keeps socks s) {k : ℕ} {r : SocketRef} (hk : s.handlers k = .established r) :
    Keeps socks ({ s with lSock := (s.lSock.remove (s.sockets r).tuple).2 }.setHandler k
      (.removed r)) := by
  obtain ⟨hpending, honly⟩ := h.established k r hk
  have hidle : s.closer = .idle := by
    by_contra hc
    rw [h.begun hc] at hpending
    cases hpending
  have hperm : s.lSock.pendingSocks.Perm (((s.sockets r).tuple, r) ::
      s.lSock.pendingSocks.eraseP (·.1 = (s.sockets r).tuple)) :=
    perm_cons_eraseP_key h.keys hpending
  have hcount : ∀ r', s.places.count r' = ({ s with
      lSock := (s.lSock.remove (s.sockets r).tuple).2 }.setHandler k (.removed r)).places.count r' +
        if r' = r then 1 else 0 := by
    intro r'
    have hsnd := (hperm.map Prod.snd).count_eq r'
    simp only [List.map_cons, List.count_cons, beq_iff_eq, eq_comm (a := r)] at hsnd
    simp only [places_count, setHandler, ListenSocket.remove, hsnd]
    omega
  have hremoved : ∀ r' ≠ r, ∀ j, ({ s with lSock := (s.lSock.remove (s.sockets r).tuple).2
      }.setHandler k (.removed r)).handlers j = .removed r' ↔ s.handlers j = .removed r' :=
    fun r' hr ↦ setHandler_iff (by simp [hk]) (by simpa using Ne.symm hr)
  have hestablished : ∀ r' ≠ r, ∀ j, ({ s with lSock := (s.lSock.remove (s.sockets r).tuple).2
      }.setHandler k (.removed r)).handlers j = .established r' ↔ s.handlers j = .established r' :=
    fun r' hr ↦ setHandler_iff (by simpa [hk] using Ne.symm hr) nofun
  refine ⟨h.keys.sublist (List.eraseP_sublist.map _), ?_, ?_, ?_, ?_, ?_⟩
  · intro p hp
    exact h.tuples p (List.mem_of_mem_eraseP hp)
  · intro r' hr'
    by_cases hr : r' = r
    · subst hr
      have hless := hcount r'
      rw [if_pos rfl] at hless
      rcases h.once r' hr' with ⟨hone, hno⟩ | ⟨hzero, -⟩
      · refine .inr ⟨by omega, k, fun j ↦ ?_⟩
        by_cases hj : j = k
        · simp [setHandler, hj]
        · simp [setHandler, hj, hno j]
      · omega
    · simp only [ne_eq, hremoved r' hr]
      have hsame := hcount r'
      rw [if_neg hr, Nat.add_zero] at hsame
      rw [← hsame]
      exact h.once r' hr'
  · intro j r' hj
    have hr : r' ≠ r := by
      rintro rfl
      by_cases hjk : j = k
      · simp [setHandler, hjk] at hj
      · simp only [setHandler, Function.update_of_ne hjk] at hj
        exact hjk (honly j hj)
    rw [hestablished r' hr] at hj
    simp only [hestablished r' hr]
    obtain ⟨hmem, honly'⟩ := h.established j r' hj
    refine ⟨(mem_eraseP_key h.keys).mpr ⟨hmem, ?_⟩, honly'⟩
    intro hkey
    exact hr (congrArg Prod.snd (List.inj_on_of_nodup_map h.keys hmem hpending hkey))
  · exact fun hc ↦ absurd hidle hc
  · rintro (hc | hc) <;> cases hidle.symm.trans hc

theorem pushAndNotify (h : Keeps socks s) {k : ℕ} {r : SocketRef}
    (hk : s.handlers k = .removed r) :
    Keeps socks ({ s with lSock := { s.lSock with acceptQ := s.lSock.acceptQ ++ [r] } }.setHandler k
      .finished) := by
  have hestablished : ∀ r' j, ({ s with
      lSock := { s.lSock with acceptQ := s.lSock.acceptQ ++ [r] } }.setHandler k
      .finished).handlers j = .established r' ↔ s.handlers j = .established r' :=
    fun r' ↦ setHandler_iff (by simp [hk]) nofun
  refine ⟨h.keys, h.tuples, ?_, ?_, h.begun, ?_⟩
  · intro r' hr'
    have hcount : ({ s with
        lSock := { s.lSock with acceptQ := s.lSock.acceptQ ++ [r] } }.setHandler k
        .finished).places.count r' = s.places.count r' + if r' = r then 1 else 0 := by
      simp only [places_count, setHandler, List.count_append, List.count_singleton, beq_iff_eq,
        eq_comm (a := r)]
      omega
    by_cases hr : r' = r
    · subst hr
      rw [if_pos rfl] at hcount
      rcases h.once r' hr' with ⟨-, hno⟩ | ⟨hzero, i, hi⟩
      · exact absurd hk (hno k)
      · refine .inl ⟨by omega, fun j ↦ ?_⟩
        by_cases hj : j = k
        · simp [setHandler, hj]
        · simp only [setHandler, Function.update_of_ne hj, ne_eq, hi]
          exact fun hji ↦ hj (hji.trans ((hi k).mp hk).symm)
    · rw [if_neg hr, Nat.add_zero] at hcount
      rw [hcount]
      have hremoved := fun j ↦ setHandler_iff (s := { s with
        lSock := { s.lSock with acceptQ := s.lSock.acceptQ ++ [r] } }) (h := k) (a := .removed r')
        (b := .finished) (by simpa [hk] using Ne.symm hr) nofun j
      simp only [ne_eq, hremoved]
      exact h.once r' hr'
  · intro j r' hj
    simp only [hestablished] at hj ⊢
    exact h.established j r' hj
  · intro hc
    exact absurd hk ((h.drained hc).2.2 k r)

theorem waitAndPop (h : Keeps socks s) {r : SocketRef} {acceptQ : List SocketRef}
    (hqueue : s.lSock.acceptQ = r :: acceptQ) :
    Keeps socks { s with
      lSock := { s.lSock with acceptQ }, accepted := s.accepted ++ [r] } := by
  apply h.move
  · rfl
  · exact fun _ ↦ rfl
  · intro r'
    simp only [places_count, hqueue, List.count_append, List.count_cons, List.count_nil]
    omega
  · exact fun _ _ ↦ Iff.rfl
  · exact fun _ _ ↦ Iff.rfl
  · exact h.begun
  · intro hc
    rw [(h.drained hc).1] at hqueue
    cases hqueue

theorem vClose (h : Keeps socks s) (hidle : s.closer = .idle)
    (hno : ∀ k r, s.handlers k ≠ .established r) :
    Keeps socks { s with
      lSock := { s.lSock with pendingSocks := [] }
      closer := .closing (s.lSock.pendingSocks.map Prod.snd) } := by
  refine ⟨List.nodup_nil, fun p hp ↦ absurd hp List.not_mem_nil, ?_, ?_, fun _ ↦ rfl, ?_⟩
  · intro r hr
    have hcount : s.places.count r = (places { s with
        lSock := { s.lSock with pendingSocks := [] }
        closer := .closing (s.lSock.pendingSocks.map Prod.snd) }).count r := by
      simp [places_count, hidle, Closer.todo]
    rw [← hcount]
    exact h.once r hr
  · exact fun k r hk ↦ absurd hk (hno k r)
  · rintro (hc | hc) <;> cases hc

/-- A step of the closing thread between its two sections on the lists. -/
theorem close (h : Keeps socks s) (hc : s.closer ≠ .idle)
    (hlSock : s'.lSock = s.lSock) (hhandlers : s'.handlers = s.handlers)
    (htuple : ∀ r, (s'.sockets r).tuple = (s.sockets r).tuple)
    (hcount : ∀ r, s'.places.count r = s.places.count r)
    (hdrained : s'.closer ≠ .drained ∧ s'.closer ≠ .finished) : Keeps socks s' := by
  apply h.move
  · rw [hlSock]
  · exact htuple
  · exact hcount
  · exact fun r k ↦ by rw [hhandlers]
  · exact fun r k ↦ by rw [hhandlers]
  · exact fun _ ↦ h.begun hc
  · rintro (hc' | hc')
    · exact absurd hc' hdrained.1
    · exact absurd hc' hdrained.2

theorem visit (h : Keeps socks s) {r : SocketRef} {todo : List SocketRef}
    (hc : s.closer = .closing (r :: todo)) (sock : NormalSocket M N) {closer : Closer}
    (htodo : closer.todo = todo) (hgoes : closer ≠ .drained ∧ closer ≠ .finished) :
    Keeps socks { s.setSock r sock with closer, vClosed := s.vClosed ++ [r] } := by
  apply h.close
  · rw [hc]
    nofun
  · rfl
  · rfl
  · exact setSock_tuple r sock
  · intro r'
    have hold : s.closer.todo = r :: todo := by
      rw [hc]
      rfl
    simp only [places_count, setSock, htodo, hold, List.count_append, List.count_cons,
      List.count_nil]
    omega
  · exact hgoes

theorem removeVisited (h : Keeps socks s) {r : SocketRef} {next : State} {todo : List SocketRef}
    (hc : s.closer = .removing r next todo) (sess : SessionTuple) :
    Keeps socks { s with
      lSock := (s.lSock.remove sess).2
      closer := .sendingFin r next todo } := by
  have hbegun : s.closer ≠ .idle := by
    rw [hc]
    nofun
  have hsame : (s.lSock.remove sess).2 = s.lSock := ListenSocket.remove_of_nil (h.begun hbegun) sess
  apply h.close hbegun
  · exact hsame
  · rfl
  · exact fun _ ↦ rfl
  · intro r'
    simp only [places_count, hsame, hc, Closer.todo]
  · exact ⟨nofun, nofun⟩

theorem sendFin (h : Keeps socks s) {r : SocketRef} {next : State} {todo : List SocketRef}
    (hc : s.closer = .sendingFin r next todo) (sock : NormalSocket M N) :
    Keeps socks { s.setSock r sock with closer := .closing todo } := by
  apply h.close
  · rw [hc]
    nofun
  · rfl
  · rfl
  · exact setSock_tuple r sock
  · intro r'
    simp only [places_count, setSock, hc, Closer.todo]
  · exact ⟨nofun, nofun⟩

theorem onClose (h : Keeps socks s) {now : TimePoint} (hc : s.closer = .closing [])
    (hno : ∀ k r, s.handlers k ≠ .removed r)
    (hloop : s.lSock.acceptQ.foldlM (closeQueued now) { s with
      lSock := { s.lSock with acceptQ := [] }, queueClosed := true, closer := .drained } =
        .ok s') : Keeps socks s' := by
  have hnil : s.lSock.pendingSocks = [] := h.begun (by rw [hc]; nofun)
  obtain ⟨hlSock, hhandlers, hcloser, hclosed, haccepted, hvClosed, htuple⟩ :=
    closeQueued_foldlM hloop hnil
  apply h.move
  · rw [hlSock]
  · exact htuple
  · intro r
    simp only [places_count, hlSock, hcloser, haccepted, hvClosed, hc, Closer.todo,
      List.count_append, List.count_nil]
    omega
  · exact fun r k ↦ by rw [hhandlers]
  · exact fun r k ↦ by rw [hhandlers]
  · exact fun _ ↦ hnil
  · exact fun _ ↦ ⟨by rw [hlSock], hclosed, hno⟩

theorem setClosed (h : Keeps socks s) (hc : s.closer = .drained) :
    Keeps socks { s with lSock := { s.lSock with state := .closed }, closer := .finished } := by
  apply h.move
  · rfl
  · exact fun _ ↦ rfl
  · intro r
    simp only [places_count, hc, Closer.todo]
  · exact fun _ _ ↦ Iff.rfl
  · exact fun _ _ ↦ Iff.rfl
  · exact fun _ ↦ h.begun (by rw [hc]; nofun)
  · exact fun _ ↦ h.drained (.inl hc)

theorem step {t : Step M N} (hfires : Fires step t) (h : Keeps socks t.pre) (ho : Orderly t) :
    Keeps socks t.post := by
  obtain ⟨s, c, out, s'⟩ := t
  simp only [Fires, Orderly] at hfires h ho ⊢
  cases c with
  | dispatch k r seqNum ackNum wndSize =>
      simp only [Handoff.step] at hfires
      split at hfires
      · rename_i hidle
        obtain ⟨-, rfl⟩ := Prod.mk.inj (Except.ok.inj hfires)
        exact h.dispatch hidle.1
      · cases hfires
  | handle k now =>
      simp only [Handoff.step] at hfires
      split at hfires
      · rename_i r seqNum ackNum wndSize hk
        simp only [Exec.bind_eq_ok, Exec.pure_eq_ok, Prod.exists, Prod.mk.injEq] at hfires
        obtain ⟨actions, sock, hhandle, -, rfl⟩ := hfires
        apply h.handle hk
        intro hactions
        exact ho r seqNum ackNum wndSize hk (passes_of_handle hhandle hactions)
      · cases hfires
  | remove k =>
      simp only [Handoff.step] at hfires
      split at hfires
      · rename_i r hk
        simp only [Exec.bind_eq_ok, Exec.pure_eq_ok, Prod.mk.injEq] at hfires
        obtain ⟨-, -, -, rfl⟩ := hfires
        exact h.remove hk
      · cases hfires
  | pushAndNotify k =>
      simp only [Handoff.step] at hfires
      split at hfires
      · rename_i r hk
        obtain ⟨-, rfl⟩ := Prod.mk.inj (Except.ok.inj hfires)
        exact h.pushAndNotify hk
      · cases hfires
  | waitAndPop =>
      simp only [Handoff.step, Exec.bind_eq_ok] at hfires
      obtain ⟨-, -, hfires⟩ := hfires
      split at hfires
      · simp only [Exec.pure_eq_ok, Prod.mk.injEq] at hfires
        obtain ⟨-, rfl⟩ := hfires
        exact h
      · split at hfires
        · cases hfires
        · rename_i r acceptQ hqueue
          simp only [Exec.pure_eq_ok, Prod.mk.injEq] at hfires
          obtain ⟨-, rfl⟩ := hfires
          exact h.waitAndPop hqueue
  | vClose =>
      simp only [Handoff.step] at hfires
      split at hfires
      · rename_i hidle _
        obtain ⟨-, rfl⟩ := Prod.mk.inj (Except.ok.inj hfires)
        exact h.vClose hidle ho
      · cases hfires
  | visit =>
      simp only [Handoff.step] at hfires
      split at hfires
      · rename_i r todo hc
        split at hfires <;> obtain ⟨-, rfl⟩ := Prod.mk.inj (Except.ok.inj hfires) <;>
          exact h.visit hc _ rfl ⟨nofun, nofun⟩
      · cases hfires
  | removeVisited =>
      simp only [Handoff.step] at hfires
      split at hfires
      · rename_i r next todo hc
        obtain ⟨-, rfl⟩ := Prod.mk.inj (Except.ok.inj hfires)
        exact h.removeVisited hc _
      · cases hfires
  | sendFin now =>
      simp only [Handoff.step] at hfires
      split at hfires
      · rename_i r next todo hc
        simp only [Exec.bind_eq_ok, Exec.pure_eq_ok, Prod.exists, Prod.mk.injEq] at hfires
        obtain ⟨-, sock, -, -, rfl⟩ := hfires
        exact h.sendFin hc sock
      · cases hfires
  | onClose now =>
      simp only [Handoff.step] at hfires
      split at hfires
      · rename_i hc
        simp only [Exec.bind_eq_ok, Exec.pure_eq_ok, Prod.mk.injEq] at hfires
        obtain ⟨s₁, hloop, -, rfl⟩ := hfires
        exact h.onClose hc ho hloop
      · cases hfires
  | setClosed =>
      simp only [Handoff.step] at hfires
      split at hfires
      · rename_i hc
        obtain ⟨-, rfl⟩ := Prod.mk.inj (Except.ok.inj hfires)
        exact h.setClosed hc
      · cases hfires

end Keeps

theorem Begins.keeps (h : Begins s) : Keeps s.socks s := by
  refine ⟨h.keys, fun p hp ↦ (h.pending p hp).1, ?_, ?_, fun hc ↦ absurd h.closer hc, ?_⟩
  · intro r hr
    refine .inl ⟨?_, fun k ↦ by rw [h.handlers k]; nofun⟩
    have hplaces : s.places = s.socks := by
      simp [places, socks, h.closer, h.records, Closer.todo]
    rw [hplaces]
    exact List.count_eq_one_of_mem h.nodup hr
  · intro k r hk
    rw [h.handlers k] at hk
    cases hk
  · rintro (hc | hc) <;> cases h.closer.symm.trans hc

/-- In every run of the handlers, of `vAccept` and of a `vClose` of the listener in which the
steps are orderly, the assertion of the handlers cannot fail, and when all have finished each
connection has been accepted or closed by the listener, once. -/
theorem handsOver_of_run (hbegin : Begins s) {tr : List (Step M N)} (h : Trace step s tr s')
    (horderly : ∀ t ∈ tr, Orderly t) :
    HandsOver s.socks s' ∧ ∀ t ∈ tr, HandsOver s.socks t.pre ∧ HandsOver s.socks t.post := by
  obtain ⟨hend, hall⟩ := h.invariant (I := Keeps s.socks)
    (fun _ hfires hI hA ↦ hI.step hfires hA) hbegin.keeps horderly
  exact ⟨hend.handsOver, fun t ht ↦ ⟨(hall t ht).1.handsOver, (hall t ht).2.handsOver⟩⟩

/-- A listener and its pending sockets, all in the state `sock` and with tuples of their own. -/
def ofPending (sock : NormalSocket M N) (rs : List SocketRef) : Handoff M N :=
  let tuple := fun r : SocketRef ↦ (⟨⟨1, 80⟩, ⟨2, UInt16.ofNat r.id⟩⟩ : SessionTuple)
  { lSock := { ref := ⟨1, 0⟩, port := 80, pendingSocks := rs.map fun r ↦ (tuple r, r) }
    sockets := fun r ↦ ⟨r, tuple r, sock⟩ }

theorem begins_ofPending {sock : NormalSocket M N} {rs : List SocketRef}
    (hstate : sock.state = .synReceived 1) (hnodup : rs.Nodup)
    (hports : (rs.map fun r ↦ UInt16.ofNat r.id).Nodup) : Begins (ofPending sock rs) := by
  refine ⟨rfl, ?_, ?_, ?_, rfl, fun _ ↦ rfl, rfl, rfl, rfl⟩
  · simpa [ofPending, Function.comp_def] using hnodup
  · apply List.Nodup.of_map fun sess : SessionTuple ↦ sess.remote.port
    simpa [ofPending, Function.comp_def] using hports
  · intro p hp
    obtain ⟨r, -, rfl⟩ := List.mem_map.mp hp
    exact ⟨rfl, hstate⟩

/-- A socket that has answered a SYN. -/
def answered : NormalSocket 8 8 :=
  let new : NormalSocket 8 8 :=
    .createNormalSocket (Vector.replicate 8 0) (Vector.replicate 8 0) 6 11 100
  match new.createPassiveConnection 1 0 with
  | .ok (_, sock) => sock
  | .error _ => new

/-- The listener closes while one of its two connections is on its way to the accept queue:
that one is accepted, and the other one closed. -/
theorem handsOver_of_run_two :
    ∃ (s s' : Handoff 8 8) (tr : List (Step 8 8)), Begins s ∧ Trace step s tr s' ∧ s'.Finished ∧
      s'.accepted = [⟨2, 1⟩] ∧ s'.vClosed = [⟨3, 2⟩] ∧
      (HandsOver s.socks s' ∧ ∀ t ∈ tr, HandsOver s.socks t.pre ∧ HandsOver s.socks t.post) := by
  have hbegin : Begins (ofPending answered [⟨2, 1⟩, ⟨3, 2⟩]) :=
    begins_ofPending rfl (by decide) (by decide)
  have hrun : Trace step (ofPending answered [⟨2, 1⟩, ⟨3, 2⟩]) _ _ :=
    .cons (l := .dispatch 0 ⟨2, 1⟩ 11 7 100) rfl (.cons (l := .handle 0 0) rfl
      (.cons (l := .remove 0) rfl (.cons (l := .vClose) rfl (.cons (l := .visit) rfl
        (.cons (l := .removeVisited) rfl (.cons (l := .sendFin 0) rfl
          (.cons (l := .pushAndNotify 0) rfl (.cons (l := .waitAndPop) rfl
            (.cons (l := .onClose 0) rfl (.cons (l := .setClosed) rfl (.nil _)))))))))))
  refine ⟨_, _, _, hbegin, hrun, ⟨rfl, fun k ↦ ?_⟩, rfl, rfl, handsOver_of_run hbegin hrun ?_⟩
  · by_cases hzero : k = 0
    · subst hzero
      exact .inr rfl
    · left
      simp [setHandler, setSock, hzero, ofPending]
  · simp only [List.forall_mem_cons, List.not_mem_nil, false_imp_iff, implies_true, and_true,
      true_and, Orderly]
    refine ⟨?_, ?_, ?_⟩
    · intro r seqNum ackNum wndSize hk _
      obtain ⟨rfl, -⟩ := Handler.dispatched.inj hk
      refine ⟨List.mem_cons_self, fun k hk' ↦ ?_⟩
      by_cases hzero : k = 0
      · subst hzero
        cases hk'
      · simp [setHandler, hzero, ofPending] at hk'
    · intro k r hk
      by_cases hzero : k = 0
      · subst hzero
        cases hk
      · simp [setHandler, setSock, hzero, ofPending] at hk
    · intro k r hk
      by_cases hzero : k = 0
      · subst hzero
        cases hk
      · simp [setHandler, setSock, hzero, ofPending] at hk

/-- The listener closes before a handler that has completed a handshake takes the socket off the
pending list, and the assertion fails; or between that and the push, and the socket stays in the
closed accept queue, neither accepted nor closed. -/
theorem not_handsOver :
    (∃ (s s' : Handoff 8 8) (tr : List (Step 8 8)), Begins s ∧ Trace step s tr s' ∧
      step s' (.remove 0) =
        .error (.assertion "FATAL: Normal socket not found in pending list")) ∧
    ∃ (s s' : Handoff 8 8) (tr : List (Step 8 8)) (r : SocketRef), Begins s ∧
      Trace step s tr s' ∧ s'.Finished ∧ r ∈ s.socks ∧ s'.lSock.acceptQ = [r] ∧
      r ∉ s'.accepted ++ s'.vClosed := by
  have hbegin : Begins (ofPending answered [⟨2, 1⟩]) :=
    begins_ofPending rfl (by decide) (by decide)
  have hfails : Trace step (ofPending answered [⟨2, 1⟩]) _ _ :=
    .cons (l := .dispatch 0 ⟨2, 1⟩ 11 7 100) rfl (.cons (l := .handle 0 0) rfl
      (.cons (l := .vClose) rfl (.nil _)))
  have hloses : Trace step (ofPending answered [⟨2, 1⟩]) _ _ :=
    .cons (l := .dispatch 0 ⟨2, 1⟩ 11 7 100) rfl (.cons (l := .handle 0 0) rfl
      (.cons (l := .remove 0) rfl (.cons (l := .vClose) rfl (.cons (l := .onClose 0) rfl
        (.cons (l := .pushAndNotify 0) rfl (.cons (l := .setClosed) rfl (.nil _)))))))
  refine ⟨⟨_, _, _, hbegin, hfails, rfl⟩, _, _, _, ⟨2, 1⟩, hbegin, hloses, ⟨rfl, fun k ↦ ?_⟩,
    by decide, rfl, by decide⟩
  by_cases hzero : k = 0
  · subst hzero
    exact .inr rfl
  · left
    simp [setHandler, setSock, hzero, ofPending]

end Handoff

end Tns.Tcp
