import Tns.Tcp.ActiveOpen
import Tns.Tcp.FinNumber

/-!
# Data queued during the handshake

`vSend` accepts data in SYN_SENT and SYN_RECEIVED, and `write` then moves `nbw_`
away from `nxt_`.  The sender thread does not wait for the connection, the
handlers expect that nothing but the SYN is in flight, and the assertions that
`una_`, `nxt_` and `nbw_` are the same.
-/

namespace Tns.Tcp

open Tns.Library RetransmissionQueue

theorem SendBuffer.write_room {N : ℕ} {b b' : SendBuffer N} {bytes : List Byte} {n : ℕ}
    {wakes : List CondVar} (h : b.write bytes = .ok (.ok n, wakes, b')) :
    n = 0 ∨ (b.nbw - b.una).toNat + n ≤ N := by
  rcases SendBuffer.write_cases h with ⟨-, hr, -⟩ | ⟨-, -, m, rb, hring, hr, -⟩
  · cases hr
  obtain rfl := Except.ok.inj hr
  have hlt := (b.nbw - b.una).toNat_lt
  have hsize := RingBuffer.write_size hring
  rw [RingBuffer.writeSize] at hsize
  split at hsize <;> rename_i hlast
  · exact .inl hsize
  · have hfit := (RingBuffer.write_cells (by omega) hring).1
    rw [sizeSub] at hfit hsize hlast
    split at hfit <;> split at hsize <;> split at hlast <;> omega

namespace NormalSocket

variable {M N : ℕ} {s : NormalSocket M N} {isn : UInt32}

/-- The reply that the peer sends to the packet that opens the connection: a SYN-ACK, or an
ACK in sequence, that acknowledges ISN + 1. -/
def IsReply (isn : UInt32) (s : NormalSocket M N) (event : Event) : Prop :=
  match s.state, event with
  | .synSent, .getSynAck _ ackNum _ => ackNum = isn + 1
  | .synReceived _, .getAck seqNum ackNum _ _ => seqNum = s.recvBuffer.nxt ∧ ackNum = isn + 1
  | _, _ => False

instance (isn : UInt32) (s : NormalSocket M N) : DecidablePred (IsReply isn s) := fun event ↦ by
  unfold IsReply
  split <;> infer_instance

/-- The reply of the peer leads to ESTABLISHED, for a client once the connecting thread has
woken up, and so does a wakeup that is due already.  No assertion fails on the way. -/
structure Completes (isn : UInt32) (s : NormalSocket M N) : Prop where
  reply : ∀ event now, IsReply isn s event →
    ∃ actions s₁, s.eventHandler event now = .ok (actions, s₁) ∧
      (s₁.state = .established ∨ ∃ s₂, s₁.connected = .ok (.ok (), s₂))
  wakeup : s.state = .synSent → s.result.notified = true →
    ∃ s₂, s.connected = .ok (.ok (), s₂)

/-- If the reply does not take `una_` to `nbw_`, it does not complete the handshake. -/
theorem not_completes (hopen : s.state = .synSent ∨ ∃ lSock, s.state = .synReceived lSock)
    (hbehind : ∀ wnd now, (s.sendBuffer.onAck (isn + 1) wnd now).2.2.una ≠ s.sendBuffer.nbw) :
    ¬Completes isn s := by
  intro h
  have hinsane : ∀ (s' : NormalSocket M N) (wnd : UInt32) (now : TimePoint),
      s'.sendBuffer = (s.sendBuffer.onAck (isn + 1) wnd now).2.2 →
        s'.sendBuffer.sanityCheckAtStart ≠ true := by
    intro s' wnd now hsend hsane
    simp only [SendBuffer.sanityCheckAtStart, Bool.and_eq_true, beq_iff_eq, hsend] at hsane
    exact hbehind wnd now ((hsane.1.trans hsane.2).trans SendBuffer.onAck_nbw)
  rcases hopen with hstate | ⟨lSock, hstate⟩
  · obtain ⟨actions, s₁, hevent, hdone⟩ := h.reply (.getSynAck 0 (isn + 1) 0) 0 (by
      simp only [IsReply, hstate])
    simp only [eventHandler, hstate] at hevent
    obtain ⟨hstate₁, hsend, -⟩ := handleSynSentGetSynAck_cases hevent
    rcases hdone with hestablished | ⟨s₂, hconnected⟩
    · rw [hstate₁, hstate] at hestablished
      cases hestablished
    · exact hinsane s₁ _ _ hsend (connected_eq_ok.mp hconnected).2.2.2.1
  · obtain ⟨actions, s₁, hevent, hdone⟩ := h.reply (.getAck s.recvBuffer.nxt (isn + 1) 0 []) 0 (by
      simp only [IsReply, hstate, and_self])
    simp only [eventHandler, hstate, handleSynReceivedGetAck, ne_eq, not_true_eq_false,
      if_false] at hevent
    split at hevent
    · simp only [Exec.pure_eq_ok, Prod.mk.injEq] at hevent
      obtain ⟨-, rfl⟩ := hevent
      rcases hdone with hestablished | ⟨s₂, hconnected⟩
      · cases hestablished
      · cases (connected_eq_ok.mp hconnected).2.2.1
    · simp only [Exec.bind_eq_ok, Exec.assertThat_eq_ok] at hevent
      obtain ⟨-, hsane, -⟩ := hevent
      exact hinsane { s with sendBuffer := _ } _ _ rfl hsane

theorem not_completes_of_ne (hopen : s.state = .synSent ∨ ∃ lSock, s.state = .synReceived lSock)
    (hack : isn + 1 ≠ s.sendBuffer.nbw) (huna : s.sendBuffer.una ≠ s.sendBuffer.nbw) :
    ¬Completes isn s := by
  apply not_completes hopen
  intro wnd now
  rw [SendBuffer.onAck_una]
  split
  · exact hack
  · exact huna

/-- The SYN-ACK that acknowledges everything makes the wait of the connecting thread succeed. -/
theorem connected_of_getSynAck (serverISN : UInt32) {ackNum : UInt32} {serverWND : UInt16}
    {now : TimePoint} (hstate : s.state = .synSent) (herr : s.result.error = none)
    (hsane : (s.sendBuffer.onAck ackNum serverWND.toUInt32 now).2.2.sanityCheckAtStart = true) :
    ∃ actions s₁, s.handleSynSentGetSynAck serverISN ackNum serverWND now = .ok (actions, s₁) ∧
      ∃ s₂, s₁.connected = .ok (.ok (), s₂) := by
  obtain ⟨actions, s₁, hevent⟩ : ∃ actions s₁,
      s.handleSynSentGetSynAck serverISN ackNum serverWND now = .ok (actions, s₁) := by
    rw [handleSynSentGetSynAck]
    simp only
    split <;> exact ⟨_, _, rfl⟩
  obtain ⟨hstate₁, hsend, hrest, -⟩ := handleSynSentGetSynAck_cases hevent
  have hreached : s₁.sendBuffer.una = s₁.sendBuffer.nxt := by
    simp only [SendBuffer.sanityCheckAtStart, Bool.and_eq_true, beq_iff_eq] at hsane
    rw [hsend, hsane.1]
  obtain ⟨-, hrecv, hresult⟩ := hrest.resolve_left fun hno ↦ hno.1 hreached
  refine ⟨actions, s₁, hevent, _,
    connected_eq_ok.mpr ⟨?_, ?_, hstate₁.trans hstate, ?_, ?_, rfl⟩⟩
  · rw [hresult]
    rfl
  · rw [hresult]
    exact herr
  · rw [hsend]
    exact hsane
  · simp [hrecv, RecvBuffer.sanityCheckAtStart, RecvBuffer.setPointers]

/-- The ACK in sequence that acknowledges everything establishes the connection. -/
theorem established_of_getAck {lSock : ℕ} {ackNum : UInt32} {wndSize : UInt16} {now : TimePoint}
    (payload : List Byte) (hstate : s.state = .synReceived lSock)
    (hrecv : s.recvBuffer.nbr = s.recvBuffer.nxt)
    (hsane : (s.sendBuffer.onAck ackNum wndSize.toUInt32 now).2.2.sanityCheckAtStart = true) :
    ∃ actions s₁, s.eventHandler (.getAck s.recvBuffer.nxt ackNum wndSize payload) now =
      .ok (actions, s₁) ∧ s₁.state = .established := by
  refine ⟨[.removePending lSock, .pushAccept lSock],
    (s.acked ackNum wndSize.toUInt32 now).setState .established, ?_, rfl⟩
  have hreached := hsane
  simp only [SendBuffer.sanityCheckAtStart, Bool.and_eq_true, beq_iff_eq] at hreached
  simp [eventHandler, hstate, handleSynReceivedGetAck, SendBuffer.onAck_result, hreached.1,
    Exec.assertThat, hsane, RecvBuffer.sanityCheckAtStart, hrecv, acked, pure, Except.pure]

/-- With nothing but the opening packet in flight, and acknowledged by ISN + 1, the reply
completes the handshake. -/
theorem completes (hwrap : isn.toNat + 1 < 2 ^ 32) (hnxt : s.sendBuffer.nxt = isn + 1)
    (hnbw : s.sendBuffer.nbw = isn + 1)
    (huna : s.sendBuffer.una = isn ∨ s.sendBuffer.una = isn + 1)
    (hrecv : s.recvBuffer.nbr = s.recvBuffer.nxt) (herr : s.result.error = none)
    (hwaiting : s.state = .synSent → s.sendBuffer.una = isn → s.result.notified = false) :
    Completes isn s := by
  have hsane : ∀ (wnd : UInt32) (now : TimePoint),
      (s.sendBuffer.onAck (isn + 1) wnd now).2.2.sanityCheckAtStart = true := by
    intro wnd now
    have hacks := SendBuffer.una_onAck_of_one hwrap hnxt huna (isn + 1) wnd now
    rw [if_pos rfl] at hacks
    simp only [SendBuffer.sanityCheckAtStart, hacks, SendBuffer.onAck_nxt, SendBuffer.onAck_nbw,
      hnxt, hnbw, beq_self_eq_true, Bool.and_self]
  constructor
  · intro event now hreply
    unfold IsReply at hreply
    split at hreply
    · rename_i serverISN ackNum serverWND hstate
      subst hreply
      obtain ⟨actions, s₁, hevent, hconnected⟩ :=
        connected_of_getSynAck serverISN hstate herr (hsane serverWND.toUInt32 now)
      exact ⟨actions, s₁, by simpa only [eventHandler, hstate] using hevent, .inr hconnected⟩
    · rename_i lSock seqNum ackNum wndSize payload hstate
      obtain ⟨rfl, rfl⟩ := hreply
      obtain ⟨actions, s₁, hevent, hestablished⟩ :=
        established_of_getAck payload hstate hrecv (hsane wndSize.toUInt32 now)
      exact ⟨actions, s₁, hevent, .inl hestablished⟩
    · exact hreply.elim
  · intro hstate hnotified
    have hone : s.sendBuffer.una = isn + 1 := by
      apply huna.resolve_left
      intro hzero
      rw [hwaiting hstate hzero] at hnotified
      cases hnotified
    refine ⟨_, connected_eq_ok.mpr ⟨hnotified, herr, hstate, ?_, ?_, rfl⟩⟩
    · simp [SendBuffer.sanityCheckAtStart, hone, hnxt, hnbw]
    · simp [RecvBuffer.sanityCheckAtStart, hrecv]

end NormalSocket

namespace RunningSocket

variable {M N : ℕ} {s s' : RunningSocket M N} {isn : UInt32} {now : TimePoint} {state : State}

/-- A section of `vSend` or of the sender thread, or the reply of the peer. -/
def InHandshake (isn : UInt32) (t : Step M N) : Prop :=
  match t.label with
  | .vSend _ | .write _ | .sendReadyData _ | .getAckWnd | .sendSegment _ => True
  | .event event _ => NormalSocket.IsReply isn t.pre.sock event
  | _ => False

instance (isn : UInt32) : DecidablePred (InHandshake (M := M) (N := N) isn) :=
  fun ⟨pre, label, out, post⟩ ↦ by
    unfold InHandshake
    rcases label with ⟨⟩ <;> infer_instance

/-- The step sends no data. -/
def SendsNoData (t : Step M N) : Prop :=
  ∀ packet, .sendPacket packet ∈ t.out.actions → packet.payload = []

/-- What holds as long as nothing has been accepted: nothing is unsent or held by the sender
thread, and a SYN-ACK is only reported once the SYN is acknowledged. -/
structure Idle (isn : UInt32) (s : RunningSocket M N) : Prop where
  nxt : s.sock.sendBuffer.nxt = isn + 1
  sender : s.sender = .waiting ∨ s.sender = .exited
  recv : s.sock.recvBuffer.nbr = s.sock.recvBuffer.nxt
  waiting : s.sock.state = .synSent → s.sock.sendBuffer.una = isn → s.sock.result.notified = false

/-- The invariant of a handshake during which data is queued. -/
structure Queues (isn : UInt32) (state : State) (s : RunningSocket M N) : Prop where
  state : s.sock.state = state
  una : s.sock.sendBuffer.una = isn ∨
    s.sock.sendBuffer.una = isn + 1 ∧ isn.toNat + 1 < 2 ^ 32
  counts : Counts isn s
  close : s.close = .idle
  room : s.accepted.length ≤ M
  error : s.sock.result.error = none
  idle : s.accepted = [] → Idle isn s

namespace Queues

theorem nbw (h : Queues isn state s) :
    s.sock.sendBuffer.nbw = isn + 1 + UInt32.ofNat s.accepted.length := by
  have hcounts := h.counts
  simpa only [Counts, h.close] using hcounts

theorem nxt_eq_nbw (h : Queues isn state s) (hnil : s.accepted = []) :
    s.sock.sendBuffer.nxt = s.sock.sendBuffer.nbw := by
  rw [(h.idle hnil).nxt, h.nbw, hnil]
  simp

theorem write {data : List Byte} {r : Except SocketError ℕ} {wakes : List CondVar}
    {b : SendBuffer M} (h : Queues isn state s) (hM : M + 1 < 2 ^ 32)
    (hwrite : s.sock.sendBuffer.write data = .ok (r, wakes, b)) :
    Queues isn state { s.withSend b with accepted := s.accepted ++ acceptedOf data r } := by
  have hcounts := counts_write h.counts hwrite
  have hframe : b.una = s.sock.sendBuffer.una ∧ b.nxt = s.sock.sendBuffer.nxt := by
    rcases SendBuffer.write_cases hwrite with ⟨-, -, -, rfl⟩ | ⟨-, -, n, rb, -, -, -, rfl⟩ <;>
      exact ⟨rfl, rfl⟩
  refine ⟨h.state, by simpa only [withSend, hframe.1] using h.una, hcounts, h.close, ?_, h.error,
    fun hnil ↦ ?_⟩
  · have hroom := h.room
    simp only [List.length_append]
    cases r with
    | error e => exact hroom
    | ok n =>
        have hlen : (acceptedOf data (.ok n)).length ≤ n := List.length_take_le _ _
        have hfree := SendBuffer.write_room hwrite
        have hisn := isn.toNat_lt
        rcases h.una with huna | ⟨huna, hwrap⟩ <;>
          simp only [h.nbw, huna, UInt32.toNat_sub, UInt32.toNat_add, UInt32.toNat_ofNat',
            UInt32.toNat_one] at hfree <;> omega
  · obtain ⟨hnxt, hsender, hrecv, hwaiting⟩ := h.idle (List.append_eq_nil_iff.mp hnil).1
    exact ⟨hframe.2.trans hnxt, hsender, hrecv, by simpa only [withSend, hframe.1] using hwaiting⟩

/-- The reply acknowledges the opening packet or nothing. -/
theorem acked (h : Queues isn state s) (wndSize : UInt32) (now : TimePoint) :
    let una := (s.sock.sendBuffer.onAck (isn + 1) wndSize now).2.2.una
    (una = isn ∨ una = isn + 1 ∧ isn.toNat + 1 < 2 ^ 32) ∧
      (una = isn → s.sock.sendBuffer.una = isn) := by
  simp only [SendBuffer.onAck_una]
  split
  · rename_i hacc
    refine ⟨.inr ⟨rfl, ?_⟩, fun hsame ↦ absurd hsame.symm (UInt32.ne_add_one _)⟩
    rcases h.una with huna | ⟨-, hwrap⟩
    · have hlt := UInt32.lt_iff_toNat_lt.mp hacc.1
      rw [huna, UInt32.toNat_add, UInt32.toNat_one] at hlt
      have hisn := isn.toNat_lt
      omega
    · exact hwrap
  · exact ⟨h.una, id⟩

/-- A SYN-ACK after which the handshake is still pending. -/
theorem getSynAck {serverISN : UInt32} {serverWND : UInt16} {actions : List Action}
    {sock : NormalSocket M N} (h : Queues isn state s) (hsyn : s.sock.state = .synSent)
    (hevent : s.sock.handleSynSentGetSynAck serverISN (isn + 1) serverWND now =
      .ok (actions, sock)) :
    Queues isn state { s with sock } ∧
      ∀ packet, .sendPacket packet ∈ actions → packet.payload = [] := by
  obtain ⟨hstate, hsend, hrest, hnodata⟩ := NormalSocket.handleSynSentGetSynAck_cases hevent
  obtain ⟨huna, hback⟩ := h.acked serverWND.toUInt32 now
  have hnxt : sock.sendBuffer.nxt = s.sock.sendBuffer.nxt := by rw [hsend, SendBuffer.onAck_nxt]
  have hnbw : sock.sendBuffer.nbw = s.sock.sendBuffer.nbw := by rw [hsend, SendBuffer.onAck_nbw]
  rw [← hsend] at huna hback
  refine ⟨⟨hstate.trans h.state, huna, counts_of_same h.counts rfl rfl hnbw, h.close, h.room, ?_,
    fun hnil ↦ ?_⟩, hnodata⟩
  · rcases hrest with ⟨-, -, hresult⟩ | ⟨-, -, hresult⟩ <;> simp only [hresult]
    · exact h.error
    · exact h.error
  · obtain ⟨hidle, hsender, hrecv, hwaiting⟩ := h.idle hnil
    refine ⟨hnxt.trans hidle, hsender, ?_, fun _ hzero ↦ ?_⟩
    · rcases hrest with ⟨-, hbuf, -⟩ | ⟨-, hbuf, -⟩ <;> simp only [hbuf]
      · exact hrecv
      · rfl
    · rcases hrest with ⟨-, -, hresult⟩ | ⟨hreached, -, -⟩
      · simp only [hresult]
        exact hwaiting hsyn (hback hzero)
      · have hone : isn = isn + 1 := by
          calc isn = sock.sendBuffer.una := hzero.symm
            _ = sock.sendBuffer.nxt := hreached
            _ = isn + 1 := hnxt.trans hidle
        exact absurd hone (UInt32.ne_add_one _)

/-- An ACK in sequence after which the handshake is still pending has acknowledged too little. -/
theorem getAck {lSock : ℕ} {wndSize : UInt16} {actions : List Action}
    {sock : NormalSocket M N} (h : Queues isn state s) (hsyn : s.sock.state = .synReceived lSock)
    (hevent : s.sock.handleSynReceivedGetAck lSock s.sock.recvBuffer.nxt (isn + 1) wndSize now =
      .ok (actions, sock)) (hstate : sock.state = s.sock.state) :
    Queues isn state { s with sock } ∧ actions = [] := by
  simp only [NormalSocket.handleSynReceivedGetAck, ne_eq, not_true_eq_false, if_false] at hevent
  split at hevent
  · simp only [Exec.pure_eq_ok, Prod.mk.injEq] at hevent
    obtain ⟨rfl, rfl⟩ := hevent
    obtain ⟨huna, -⟩ := h.acked wndSize.toUInt32 now
    refine ⟨⟨hstate.trans h.state, huna, counts_of_same h.counts rfl rfl SendBuffer.onAck_nbw,
      h.close, h.room, h.error, fun hnil ↦ ?_⟩, rfl⟩
    obtain ⟨hidle, hsender, hrecv, -⟩ := h.idle hnil
    refine ⟨SendBuffer.onAck_nxt.trans hidle, hsender, hrecv, fun hsent ↦ ?_⟩
    cases hsyn.symm.trans hsent
  · simp only [Exec.bind_eq_ok, Exec.pure_eq_ok, Prod.mk.injEq] at hevent
    obtain ⟨-, -, -, -, -, rfl⟩ := hevent
    rw [hsyn] at hstate
    cases hstate

/-- A reply after which the handshake is still pending. -/
theorem reply {event : Event} {actions : List Action} {sock : NormalSocket M N}
    (h : Queues isn state s) (hreply : NormalSocket.IsReply isn s.sock event)
    (hevent : s.sock.eventHandler event now = .ok (actions, sock)) (hstate : sock.state = state) :
    Queues isn state { s with sock } ∧
      ∀ packet, .sendPacket packet ∈ actions → packet.payload = [] := by
  unfold NormalSocket.IsReply at hreply
  split at hreply
  · rename_i serverISN ackNum serverWND hsyn
    subst hreply
    simp only [NormalSocket.eventHandler, hsyn] at hevent
    exact h.getSynAck hsyn hevent
  · rename_i lSock seqNum ackNum wndSize payload hsyn
    obtain ⟨rfl, rfl⟩ := hreply
    simp only [NormalSocket.eventHandler, hsyn] at hevent
    obtain ⟨hqueues, rfl⟩ := h.getAck hsyn hevent (hstate.trans h.state.symm)
    exact ⟨hqueues, by simp⟩
  · exact hreply.elim

/-- Every step of the handshake keeps the invariant, and sends no data if none has been
accepted. -/
theorem step {t : Step M N} (hfires : Fires RunningSocket.step t) (h : Queues isn state t.pre)
    (hM : M + 1 < 2 ^ 32) (hdom : InHandshake isn t) (hpend : t.post.sock.state = state) :
    Queues isn state t.post ∧ (t.post.accepted = [] → SendsNoData t) := by
  obtain ⟨s, l, out, s'⟩ := t
  have hsteps := steps_of_step hfires
  simp only at h hpend hsteps ⊢
  cases hsteps with
  | refuseSend => exact ⟨h, fun _ ↦ by simp [SendsNoData]⟩
  | vSend data r wakes b hwrite =>
      exact ⟨h.write hM hwrite, fun _ ↦ by simp [SendsNoData]⟩
  | write data r wakes b hwrite =>
      exact ⟨h.write hM hwrite, fun _ ↦ by simp [SendsNoData]⟩
  | sendReadyData buffSize r b hsend =>
      refine ⟨?_, fun _ ↦ by simp [SendsNoData]⟩
      rcases SendBuffer.sendReadyData_cases hsend with ⟨-, rfl, rfl⟩ |
        ⟨-, hpos, data, -, -, rfl, rfl⟩
      · refine ⟨h.state, h.una, counts_of_same h.counts rfl rfl rfl, h.close, h.room, h.error,
          fun hnil ↦ ?_⟩
        obtain ⟨hidle, -, hrecv, hwaiting⟩ := h.idle hnil
        exact ⟨hidle, .inr rfl, hrecv, hwaiting⟩
      · refine ⟨h.state, h.una, counts_of_same h.counts rfl rfl rfl, h.close, h.room, h.error,
          fun hnil ↦ ?_⟩
        rw [SendBuffer.sizeCanSend_eq_zero.mpr (.inr (h.nxt_eq_nbw hnil))] at hpos
        exact absurd hpos (lt_irrefl 0)
  | getAckWnd seq data hsender =>
      refine ⟨⟨h.state, h.una, counts_of_same h.counts rfl rfl rfl, h.close, h.room, h.error,
        fun hnil ↦ ?_⟩, fun _ ↦ by simp [SendsNoData]⟩
      rcases (h.idle hnil).sender with hs | hs <;> rw [hs] at hsender <;> cases hsender
  | sendSegment now seq data ack wnd packet q hsender hpacket henq =>
      refine ⟨⟨h.state, h.una, counts_of_same h.counts rfl rfl rfl, h.close, h.room, h.error,
        fun hnil ↦ ?_⟩, fun hnil ↦ ?_⟩
      · rcases (h.idle hnil).sender with hs | hs <;> rw [hs] at hsender <;> cases hsender
      · rcases (h.idle hnil).sender with hs | hs <;> rw [hs] at hsender <;> cases hsender
  | event event now actions sock hevent =>
      obtain ⟨hqueues, hnodata⟩ := h.reply hdom hevent hpend
      exact ⟨hqueues, fun _ ↦ hnodata⟩
  | _ => exact hdom.elim

/-- The handshake completes from here exactly if nothing has been accepted. -/
theorem completes_iff (h : Queues isn state s) (hM : M + 1 < 2 ^ 32)
    (hopen : state = .synSent ∨ ∃ lSock, state = .synReceived lSock) :
    s.sock.Completes isn ↔ s.accepted = [] ∧ isn ≠ 0xffffffff := by
  have hopen' : s.sock.state = .synSent ∨ ∃ lSock, s.sock.state = .synReceived lSock := by
    rw [h.state]
    exact hopen
  have hisn := isn.toNat_lt
  have hmax : isn = 0xffffffff ↔ isn.toNat = 2 ^ 32 - 1 := by
    rw [← UInt32.toNat_inj]
    rfl
  constructor
  · intro hcompletes
    by_contra hnot
    refine NormalSocket.not_completes hopen' (fun wnd now heq ↦ ?_) hcompletes
    have hroom := h.room
    have hlen : s.accepted = [] ↔ s.accepted.length = 0 := List.length_eq_zero_iff.symm
    rw [h.nbw, ← UInt32.toNat_inj, UInt32.toNat_add, UInt32.toNat_add, UInt32.toNat_one,
      UInt32.toNat_ofNat'] at heq
    rcases (h.acked wnd now).1 with huna | ⟨huna, hwrap⟩
    · rw [huna] at heq
      omega
    · rw [huna, UInt32.toNat_add, UInt32.toNat_one] at heq
      exact hnot ⟨hlen.mpr (by omega), fun hlast ↦ by rw [hmax] at hlast; omega⟩
  · rintro ⟨hnil, hne⟩
    obtain ⟨hnxt, -, hrecv, hwaiting⟩ := h.idle hnil
    have hwrap : isn.toNat + 1 < 2 ^ 32 := by
      rw [ne_eq, hmax] at hne
      omega
    exact NormalSocket.completes hwrap hnxt ((h.nxt_eq_nbw hnil).symm.trans hnxt)
      (h.una.imp id And.left) hrecv h.error hwaiting

end Queues

theorem Opens.queues {packet : Packet} (h : Opens isn now state packet s) :
    Queues isn state s := by
  obtain ⟨-, -, sendBuf, recvBuf, rcvNxt, wnd, q, -, rfl⟩ := h.cases
  refine ⟨rfl, .inl rfl, ?_, rfl, Nat.zero_le _, rfl, fun _ ↦ ⟨rfl, .inl rfl, rfl, fun _ _ ↦ rfl⟩⟩
  simp [Counts, SendBuffer.init, SendBuffer.writeAndSendOne]

/-- In every run of a handshake that is still pending, no data has been sent and the reply of
the peer leads to ESTABLISHED with no failed assertion, if and only if `vSend` has accepted
nothing (and ISN + 1 does not wrap). -/
theorem handshake_iff {packet : Packet} (hopens : Opens isn now state packet s)
    (hM : M + 1 < 2 ^ 32) {tr : List (Step M N)} (h : Trace step s tr s')
    (hdom : ∀ t ∈ tr, InHandshake isn t) (hpend : ∀ t ∈ tr, t.post.sock.state = state) :
    ((∀ t ∈ tr, SendsNoData t) ∧ s'.sock.Completes isn) ↔
      s'.accepted = [] ∧ isn ≠ 0xffffffff := by
  obtain ⟨hopen, -⟩ := hopens.cases
  obtain ⟨hend, hall⟩ := h.invariant
    (A := fun t ↦ InHandshake isn t ∧ t.post.sock.state = state)
    (fun t hfires hI hA ↦ (Queues.step hfires hI hM hA.1 hA.2).1) hopens.queues
    fun t ht ↦ ⟨hdom t ht, hpend t ht⟩
  have hstep : ∀ t ∈ tr, t.post.accepted = [] → SendsNoData t := fun t ht ↦
    (Queues.step (h.fires t ht) (hall t ht).1 hM (hdom t ht) (hpend t ht)).2
  rw [hend.completes_iff hM hopen]
  refine ⟨fun hboth ↦ hboth.2, fun hnil ↦ ⟨fun t ht ↦ ?_, hnil⟩⟩
  have hmore := ((accepted_isPrefix h).2 t ht).2
  rw [hnil.1, List.prefix_nil] at hmore
  exact hstep t ht hmore

/-- A client to which nothing is given before the SYN-ACK arrives. -/
theorem handshake_iff_idle :
    ∃ (packet : Packet) (s s' : RunningSocket 8 8) (tr : List (Step 8 8)),
      Opens 6 0 .synSent packet s ∧ Trace step s tr s' ∧ s'.sock.sendBuffer.una = 7 ∧
        (((∀ t ∈ tr, SendsNoData t) ∧ s'.sock.Completes 6) ↔
          s'.accepted = [] ∧ (6 : UInt32) ≠ 0xffffffff) := by
  refine ⟨_, _, _, _, .active (Vector.replicate 8 0) (Vector.replicate 8 0) _ _ rfl,
    .cons (l := SocketCall.vSend []) rfl (.cons (l := .event (.getSynAck 40 7 8) 0) rfl (.nil _)),
    rfl, ?_⟩
  exact handshake_iff (.active (Vector.replicate 8 0) (Vector.replicate 8 0) _ _ rfl) (by decide)
    (.cons rfl (.cons rfl (.nil _))) (by decide) (by decide)

/-- A byte given to a client in SYN_SENT is sent at once, and the SYN-ACK is refused. -/
theorem not_handshake :
    ∃ (packet : Packet) (s s' : RunningSocket 8 8) (tr : List (Step 8 8)),
      Opens 6 0 .synSent packet s ∧ Trace step s tr s' ∧ (∀ t ∈ tr, InHandshake 6 t) ∧
        (∀ t ∈ tr, t.post.sock.state = .synSent) ∧ ¬(∀ t ∈ tr, SendsNoData t) ∧
        ¬s'.sock.Completes 6 := by
  refine ⟨_, _, _, _, .active (Vector.replicate 8 0) (Vector.replicate 8 0) _ _ rfl,
    .cons (l := SocketCall.vSend [1, 2]) rfl (.cons (l := .sendReadyData 8) rfl
    (.cons (l := .getAckWnd) rfl (.cons (l := .sendSegment 0) rfl (.nil _)))),
    by decide, by decide, fun hall ↦ ?_, ?_⟩
  · have hdata := hall _ (List.mem_cons_of_mem _ (List.mem_cons_of_mem _ (List.mem_cons_of_mem _
      List.mem_cons_self))) (.makeAckPacket 7 0 8 [1, 2]) (by decide)
    revert hdata
    decide
  · exact NormalSocket.not_completes_of_ne (.inl rfl) (by decide) (by decide)

end RunningSocket

end Tns.Tcp
