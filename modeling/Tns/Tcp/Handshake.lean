import Tns.Tcp.RunningSocket

/-!
# Retransmission in the handshake

A SYN or a SYN-ACK waits in the retransmission queue as a packet without
payload, which ends where it begins: at the initial sequence number.  The queue
resends what ends inside the send window, and the right edge of the window is a
32-bit sum that can wrap to a number before it.
-/

namespace Tns.Tcp

open Tns.Library RetransmissionQueue

namespace RetransmissionQueue

variable {q : RetransmissionQueue} {e : Entry}

theorem isExpired_iff {now : TimePoint} {rto : ℕ} {edge : UInt32} :
    isExpired now rto edge e = true ↔
      e.lastSent + rto * nsPerMs < now ∧ e.getEndExclusive ≤ edge.toNat := by
  rw [isExpired, Bool.and_eq_true, Entry.hasExpired, decide_eq_true_iff, decide_eq_true_iff,
    Entry.getRtt, Nat.lt_sub_iff_add_lt']

theorem getExpiredEntries_singleton (hdeque : q.deque = [e]) (hzwp : q.zwpEntry = none)
    (edge : UInt32) (now : TimePoint) :
    q.getExpiredEntries edge now =
      if isExpired now q.rto.rto edge e then
        if MAX_RETRANSMISSIONS < e.counter + 1 then
          (.error .timeout, { q with deque := [{ e with counter := e.counter + 1 }] })
        else
          (.ok [{ e with counter := e.counter + 1, lastSent := now }],
            { q with deque := [{ e with counter := e.counter + 1, lastSent := now }] })
      else (.ok [], q) := by
  simp only [getExpiredEntries, hdeque, expireLoop, Entry.refreshTimestamp]
  by_cases hexp : isExpired now q.rto.rto edge e
  · by_cases hmax : MAX_RETRANSMISSIONS < e.counter + 1
    · simp [hexp, hmax]
    · simp [hexp, hmax, hzwp, Except.map]
  · cases q
    simp_all

end RetransmissionQueue

/-- How often a packet has been resent, and when it was last sent. -/
structure Sent where
  times : ℕ := 0
  last : TimePoint

namespace RunningSocket

variable {M N : ℕ} {s s' : RunningSocket M N} {isn : UInt32} {state : State} {packet : Packet}
  {sent : Sent} {now : TimePoint}

/-- The record after a step, in which the packet may have been resent. -/
def sentAfter (packet : Packet) (sent : Sent) (t : Step M N) : Sent :=
  match t.label with
  | .retransmit _ now =>
      if .sendPacket packet ∈ t.out.actions then { times := sent.times + 1, last := now } else sent
  | _ => sent

/-- A socket that has just been created to open a connection: in `state`, with `packet` sent
at time `now`. -/
inductive Opens (isn : UInt32) (now : TimePoint) : State → Packet → RunningSocket M N → Prop
  | active (sendBuf : Vector Byte M) (recvBuf : Vector Byte N) (packet : Packet)
      (sock : NormalSocket M N)
      (hcreate : (NormalSocket.createNormalSocket sendBuf recvBuf isn).createActiveConnection now =
        .ok ([.sendPacket packet], sock)) :
      Opens isn now .synSent packet { sock }
  | passive (sendBuf : Vector Byte M) (recvBuf : Vector Byte N) (clientISN : UInt32)
      (clientWND : UInt16) (lSock : ℕ) (packet : Packet) (sock : NormalSocket M N)
      (hcreate : (NormalSocket.createNormalSocket sendBuf recvBuf isn (clientISN + 1)
        clientWND.toUInt32).createPassiveConnection lSock now = .ok ([.sendPacket packet], sock)) :
      Opens isn now (.synReceived lSock) packet { sock }

def Pending (isn : UInt32) (state : State) (s : RunningSocket M N) : Prop :=
  s.sock.state = state ∧ s.sock.sendBuffer.una = isn ∧ s.sock.sendBuffer.nxt = isn + 1

instance : Decidable (Pending isn state s) := inferInstanceAs (Decidable (_ ∧ _ ∧ _))

/-- The sender thread sends at least one byte at a time. -/
def SendsBytes (t : Step M N) : Prop :=
  match t.label with
  | .sendReadyData buffSize => 0 < buffSize
  | _ => True

instance (t : Step M N) : Decidable (SendsBytes t) := by
  obtain ⟨pre, label, out, post⟩ := t
  unfold SendsBytes
  rcases label with ⟨⟩ <;> infer_instance

/-- Whenever the timeout has passed since the packet was last sent, retransmission resends it,
or it has resent it as often as it may and aborts, which `vConnect` reports. -/
def Retries (packet : Packet) (sent : Sent) (s : NormalSocket M N) : Prop :=
  ∀ now, sent.last + s.sendBuffer.retransmitQueue.rto.rto * nsPerMs < now →
    (sent.times < MAX_RETRANSMISSIONS ∧ .sendPacket packet ∈ (s.retransmitFunction now).1) ∨
    (sent.times = MAX_RETRANSMISSIONS ∧ (s.retransmitFunction now).2.state = .closed ∧
      (s.state = .synSent →
        ∃ err, (s.retransmitFunction now).2.result.waitForSynAck = .ok (some err)))

/-- The packet that opens the connection is the only one waiting to be acknowledged. -/
structure Waits (isn : UInt32) (state : State) (packet : Packet) (sent : Sent)
    (s : RunningSocket M N) : Prop where
  pending : Pending isn state s
  deque : s.sock.sendBuffer.retransmitQueue.deque =
    [{ packet, lastSent := sent.last, counter := sent.times }]
  zwpEntry : s.sock.sendBuffer.retransmitQueue.zwpEntry = none
  times : sent.times ≤ MAX_RETRANSMISSIONS
  sender : s.sender = .waiting ∨ s.sender = .exited
  close : ∀ next seq wnd, s.close ≠ .taken next seq wnd

/-- The two ways to open a connection differ in the packet and in what the receive buffer and
the window start with. -/
theorem Opens.cases (h : Opens isn now state packet s) :
    (state = .synSent ∨ ∃ lSock, state = .synReceived lSock) ∧
      (packet.seqNum = isn ∧ packet.payload = []) ∧
      ∃ (sendBuf : Vector Byte M) (recvBuf : Vector Byte N) (rcvNxt wnd : UInt32)
        (q : RetransmissionQueue), RetransmissionQueue.enqueue {} packet now = .ok q ∧
        s = { sock :=
          { NormalSocket.createNormalSocket sendBuf recvBuf isn rcvNxt wnd with
            state
            sendBuffer := { (SendBuffer.init sendBuf isn wnd).writeAndSendOne with
              retransmitQueue := q } } } := by
  cases h with
  | active sendBuf recvBuf _ sock hcreate =>
      simp only [NormalSocket.createActiveConnection, Exec.bind_eq_ok, Exec.pure_eq_ok,
        Prod.exists, Prod.mk.injEq] at hcreate
      obtain ⟨actions, sock', hsend, rfl, rfl⟩ := hcreate
      obtain ⟨hpacket, q, henq, rfl⟩ := NormalSocket.sendPacket_cases hsend
      simp only [List.cons.injEq, Action.sendPacket.injEq, and_true] at hpacket
      subst hpacket
      exact ⟨.inl rfl, ⟨rfl, rfl⟩, sendBuf, recvBuf, _, _, q, henq, rfl⟩
  | passive sendBuf recvBuf clientISN clientWND lSock _ sock hcreate =>
      simp only [NormalSocket.createPassiveConnection, Exec.bind_eq_ok, Exec.pure_eq_ok,
        Prod.exists, Prod.mk.injEq] at hcreate
      obtain ⟨actions, sock', hsend, rfl, rfl⟩ := hcreate
      obtain ⟨hpacket, q, henq, rfl⟩ := NormalSocket.sendPacket_cases hsend
      simp only [List.cons.injEq, Action.sendPacket.injEq, and_true] at hpacket
      subst hpacket
      exact ⟨.inr ⟨lSock, rfl⟩, ⟨rfl, rfl⟩, sendBuf, recvBuf, _, _, q, henq, rfl⟩

theorem Opens.waits (h : Opens isn now state packet s) :
    Waits isn state packet { last := now } s := by
  obtain ⟨-, -, sendBuf, recvBuf, rcvNxt, wnd, q, henq, rfl⟩ := h.cases
  obtain rfl := enqueue_cases henq
  exact ⟨⟨rfl, rfl, rfl⟩, rfl, rfl, Nat.zero_le _, .inl rfl, nofun⟩

/-- Retransmission of the packet that waits, in each of the three cases. -/
theorem Waits.retransmitExpired (h : Waits isn state packet sent s) (edge : UInt32)
    (now : TimePoint) :
    let q := s.sock.sendBuffer.retransmitQueue
    let e : Entry := { packet, lastSent := sent.last, counter := sent.times }
    (isExpired now q.rto.rto edge e = true ∧ sent.times < MAX_RETRANSMISSIONS ∧
        s.sock.retransmitExpired edge now = ([.sendPacket packet],
          { s.sock with
            sendBuffer := { s.sock.sendBuffer with
              retransmitQueue := { q with
                deque := [{ packet, lastSent := now, counter := sent.times + 1 }] } } })) ∨
      (isExpired now q.rto.rto edge e = true ∧ sent.times = MAX_RETRANSMISSIONS ∧
        ∃ q', (s.sock.retransmitExpired edge now).2 =
          { s.sock with
            sendBuffer := { s.sock.sendBuffer with retransmitQueue := q' } }.vAbort.2) ∨
      (isExpired now q.rto.rto edge e = false ∧
        s.sock.retransmitExpired edge now = ([], s.sock)) := by
  intro q e
  have htimes := h.times
  have hget := getExpiredEntries_singleton h.deque h.zwpEntry edge now
  simp only [NormalSocket.retransmitExpired]
  by_cases hexp : isExpired now q.rto.rto edge e
  · rw [if_pos hexp] at hget
    by_cases hmax : MAX_RETRANSMISSIONS < sent.times + 1
    · rw [if_pos hmax] at hget
      refine .inr (.inl ⟨hexp, by omega,
        { q with deque := [{ e with counter := e.counter + 1 }] }, ?_⟩)
      simp only [hget]
      split <;> rename_i habort <;> rw [habort]
    · rw [if_neg hmax] at hget
      refine .inl ⟨hexp, by omega, ?_⟩
      simp only [hget]
      rfl
  · rw [if_neg hexp] at hget
    refine .inr (.inr ⟨by simpa using hexp, ?_⟩)
    simp only [hget]
    rfl

theorem Waits.of_same (h : Waits isn state packet sent s) (hpend : Pending isn state s')
    (hqueue : s'.sock.sendBuffer.retransmitQueue = s.sock.sendBuffer.retransmitQueue)
    (hsender : s'.sender = s.sender) (hclose : s'.close = s.close) :
    Waits isn state packet sent s' := by
  refine ⟨hpend, by rw [hqueue, h.deque], by rw [hqueue, h.zwpEntry], h.times, ?_, ?_⟩
  · rw [hsender]
    exact h.sender
  · rw [hclose]
    exact h.close

theorem Waits.withClose (h : Waits isn state packet sent s) {close : CloseThread}
    (hclose : ∀ next seq wnd, close ≠ .taken next seq wnd) :
    Waits isn state packet sent { s with close } :=
  ⟨h.pending, h.deque, h.zwpEntry, h.times, h.sender, hclose⟩

theorem Waits.acked (h : Waits isn state packet sent s) {ackNum wndSize : UInt32}
    {sock : NormalSocket M N}
    (hsend : sock.sendBuffer = (s.sock.acked ackNum wndSize now).sendBuffer)
    (hpend : Pending isn state { s with sock }) : Waits isn state packet sent { s with sock } := by
  obtain ⟨z, q, heq, -, hq⟩ := SendBuffer.onAck_frame s.sock.sendBuffer ackNum wndSize now
  rw [NormalSocket.acked, heq] at hsend
  have hnot : ¬(s.sock.sendBuffer.una < ackNum ∧ ackNum ≤ s.sock.sendBuffer.nxt) := by
    intro hacc
    have huna := hpend.2.1
    simp only [hsend, hacc, and_self, if_true] at huna
    rw [h.pending.2.1, huna] at hacc
    exact lt_irrefl _ hacc.1
  rw [if_neg hnot, if_neg hnot] at hsend
  refine ⟨hpend, ?_, ?_, h.times, h.sender, h.close⟩
  · simp only [hsend]
    rcases hq with rfl | rfl <;> simpa using h.deque
  · simp only [hsend]
    rcases hq with rfl | rfl <;> simp [resetZwpCounter, h.zwpEntry]

theorem Waits.event (h : Waits isn state packet sent s) {event : Event} {sock : NormalSocket M N}
    (hopen : state = .synSent ∨ ∃ lSock, state = .synReceived lSock)
    (hhandles : NormalSocket.Handles s.sock now event sock)
    (hpend : Pending isn state { s with sock }) : Waits isn state packet sent { s with sock } := by
  have hstate := h.pending.1
  have hstate' := hpend.1
  cases hhandles with
  | ignored => exact h
  | acked => exact h.acked rfl hpend
  | synAcked => exact h.acked rfl hpend
  | opened => rcases hopen with rfl | ⟨lSock, rfl⟩ <;> cases hstate'
  | received _ _ _ _ _ _ hrecv =>
      rcases hopen with rfl | ⟨lSock, rfl⟩ <;> rw [hstate] at hrecv <;> exact hrecv.elim
  | finReceived _ _ _ hfin =>
      rcases hopen with rfl | ⟨lSock, rfl⟩ <;> rw [hstate] at hfin <;> cases hfin
  | closeWait => rcases hopen with rfl | ⟨lSock, rfl⟩ <;> cases hstate'
  | timeWait => rcases hopen with rfl | ⟨lSock, rfl⟩ <;> cases hstate'
  | finAcked => rcases hopen with rfl | ⟨lSock, rfl⟩ <;> cases hstate'
  | closed => rcases hopen with rfl | ⟨lSock, rfl⟩ <;> cases hstate'

/-- A step after which the handshake is still pending keeps the packet waiting, and counts it
if it has been resent. -/
theorem Waits.step {l : SocketCall} {out : SocketReturn} (h : Waits isn state packet sent s)
    (hopen : state = .synSent ∨ ∃ lSock, state = .synReceived lSock)
    (hstep : Steps s l out s') (hpend : Pending isn state s')
    (hbytes : SendsBytes (⟨s, l, out, s'⟩ : Step M N)) :
    Waits isn state packet (sentAfter packet sent ⟨s, l, out, s'⟩) s' := by
  have hclosed : state ≠ .closed := by
    rcases hopen with rfl | ⟨lSock, rfl⟩ <;> simp
  cases hstep with
  | refuseSend => exact h
  | vSend data r wakes b hwrite =>
      refine h.of_same hpend ?_ rfl rfl
      rcases SendBuffer.write_cases hwrite with ⟨-, -, -, rfl⟩ | ⟨-, -, n, rb, -, -, -, rfl⟩ <;> rfl
  | write data r wakes b hwrite =>
      refine h.of_same hpend ?_ rfl rfl
      rcases SendBuffer.write_cases hwrite with ⟨-, -, -, rfl⟩ | ⟨-, -, n, rb, -, -, -, rfl⟩ <;> rfl
  | refuseRecv => exact h
  | vRecv => exact h.of_same hpend rfl rfl rfl
  | sendReadyData buffSize r b hsend =>
      rcases SendBuffer.sendReadyData_cases hsend with ⟨-, rfl, rfl⟩ |
        ⟨-, hpos, data, -, hlen, -, rfl⟩
      · exact ⟨hpend, h.deque, h.zwpEntry, h.times, .inr rfl, h.close⟩
      -- At least one byte has been sent, so `nxt_` has moved.
      · exfalso
        have hbuff : 0 < buffSize := hbytes
        have hnxt : s.sock.sendBuffer.nxt + UInt32.ofNat data.length = s.sock.sendBuffer.nxt :=
          hpend.2.2.trans h.pending.2.2.symm
        have hcan : s.sock.sendBuffer.sizeCanSend ≤ s.sock.sendBuffer.wnd.toNat := by
          rw [SendBuffer.sizeCanSend]
          split <;> omega
        have hwnd := s.sock.sendBuffer.wnd.toNat_lt
        have hlt := s.sock.sendBuffer.nxt.toNat_lt
        rw [← UInt32.toNat_inj, UInt32.toNat_add, UInt32.toNat_ofNat_of_lt (by omega)] at hnxt
        omega
  | getAckWnd seq data hsender =>
      rcases h.sender with hs | hs <;> rw [hs] at hsender <;> cases hsender
  | sendSegment now seq data ack wnd packet q hsender =>
      rcases h.sender with hs | hs <;> rw [hs] at hsender <;> cases hsender
  | zwp timeout now thread b hzwp =>
      refine h.of_same hpend ?_ rfl rfl
      rcases SendBuffer.zwpStep_cases hzwp with ⟨-, z, rfl⟩ | ⟨-, -, -, data, -, hprobe, -⟩
      · rfl
      · cases hprobe
  | probe timeout now thread b seq data packet q hzwp =>
      exfalso
      rcases SendBuffer.zwpStep_cases hzwp with ⟨hprobe, -⟩ | ⟨-, -, -, data, -, -, rfl⟩
      · cases hprobe
      · exact UInt32.ne_add_one _ (h.pending.2.2.trans hpend.2.2.symm)
  | retransmit edge now =>
      rcases h.retransmitExpired edge now with ⟨-, hlt, heq⟩ | ⟨-, -, q', heq⟩ | ⟨-, heq⟩
      · simp only [sentAfter, heq, List.mem_singleton, if_true]
        exact ⟨by rw [heq] at hpend; exact hpend, rfl, h.zwpEntry, hlt, h.sender, h.close⟩
      · exfalso
        have hstate := hpend.1
        simp only [heq] at hstate
        rw [NormalSocket.vAbort_state] at hstate
        exact hclosed hstate.symm
      · simp only [sentAfter, heq, List.not_mem_nil, if_false]
        exact h
  | event event now actions sock hevent =>
      exact h.event hopen (NormalSocket.handles_of_eventHandler hevent) hpend
  | vCloseAtOnce r actions sock hclose hstate =>
      exfalso
      have hstate' := hpend.1
      simp only [NormalSocket.vCloseState, h.pending.1] at hstate
      rcases hopen with rfl | ⟨lSock, rfl⟩
      · simp only [Prod.mk.injEq] at hstate
        rw [← hstate.2.2] at hstate'
        cases hstate'
      · cases hstate
  | vClose => exact h.withClose (by simp)
  | getNxt => exact h.withClose (by simp)
  | writeAndSendOne => exact absurd (h.pending.2.2.trans hpend.2.2.symm) (UInt32.ne_add_one _)
  | sendFin now next seq wnd packet q hclose => exact absurd hclose (h.close _ _ _)
  | vAbort => exact absurd (hpend.1.symm.trans s.sock.vAbort_state) hclosed

theorem Waits.run (h : Waits isn state packet sent s)
    (hopen : state = .synSent ∨ ∃ lSock, state = .synReceived lSock) {tr : List (Step M N)}
    (htr : Trace RunningSocket.step s tr s') (hpend : ∀ t ∈ tr, Pending isn state t.post)
    (hbytes : ∀ t ∈ tr, SendsBytes t) :
    Waits isn state packet (tr.foldl (sentAfter packet) sent) s' := by
  induction htr generalizing sent with
  | nil => exact h
  | cons head tail ih =>
      rw [List.forall_mem_cons] at hpend hbytes
      exact ih (h.step hopen (steps_of_step head) hpend.1 hbytes.1) hpend.2 hbytes.2

/-- The right edge of the window is before the left one exactly when their sum wraps. -/
theorem le_add_iff {una wnd : UInt32} : una.toNat ≤ (una + wnd).toNat ↔
    una.toNat + wnd.toNat < 2 ^ 32 := by
  have huna := una.toNat_lt
  have hwnd := wnd.toNat_lt
  rw [UInt32.toNat_add]
  omega

theorem retries_of_waits (h : Waits isn state packet sent s)
    (hopen : state = .synSent ∨ ∃ lSock, state = .synReceived lSock)
    (hpacket : packet.seqNum = isn ∧ packet.payload = []) :
    Retries packet sent s.sock ↔ isn.toNat + s.sock.sendBuffer.wnd.toNat < 2 ^ 32 := by
  have hexp : ∀ now, isExpired now s.sock.sendBuffer.retransmitQueue.rto.rto
      s.sock.sendBuffer.getWndEndExclusive
      { packet, lastSent := sent.last, counter := sent.times } = true ↔
        sent.last + s.sock.sendBuffer.retransmitQueue.rto.rto * nsPerMs < now ∧
          isn.toNat + s.sock.sendBuffer.wnd.toNat < 2 ^ 32 := by
    intro now
    rw [isExpired_iff, SendBuffer.getWndEndExclusive, h.pending.2.1, ← le_add_iff]
    simp only [Entry.getEndExclusive, hpacket.1, hpacket.2, List.length_nil, Nat.add_zero]
  constructor
  · intro hretries
    by_contra hwrap
    -- Past the timeout nothing is sent and nothing changes.
    have hnow := hretries _ (Nat.lt_succ_self _)
    rcases h.retransmitExpired s.sock.sendBuffer.getWndEndExclusive _ with ⟨hyes, -⟩ |
      ⟨hyes, -⟩ | ⟨-, heq⟩
    · exact hwrap ((hexp _).mp hyes).2
    · exact hwrap ((hexp _).mp hyes).2
    · rw [NormalSocket.retransmitFunction, heq] at hnow
      rcases hnow with ⟨-, hmem⟩ | ⟨-, hclosed, -⟩
      · simp at hmem
      · rw [h.pending.1] at hclosed
        rcases hopen with rfl | ⟨lSock, rfl⟩ <;> cases hclosed
  · intro hroom now hlate
    rw [NormalSocket.retransmitFunction]
    rcases h.retransmitExpired s.sock.sendBuffer.getWndEndExclusive now with ⟨-, hlt, heq⟩ |
      ⟨-, hmax, q', heq⟩ | ⟨hno, -⟩
    · exact .inl ⟨hlt, by simp [heq]⟩
    · refine .inr ⟨hmax, by rw [heq, NormalSocket.vAbort_state], fun hsyn ↦ ⟨.reset, ?_⟩⟩
      rw [heq]
      simp only [NormalSocket.vAbort, hsyn]
      rfl
    · have hyes := (hexp now).mpr ⟨hlate, hroom⟩
      rw [hyes] at hno
      cases hno

/-- As long as the handshake of a new socket is pending, the packet that opens the connection
is retransmitted if and only if its sequence number and the send window do not sum up to
`2 ^ 32` or more. -/
theorem retries_iff (hopens : Opens isn now state packet s) {tr : List (Step M N)}
    (h : Trace step s tr s') (hpend : ∀ t ∈ tr, Pending isn state t.post)
    (hbytes : ∀ t ∈ tr, SendsBytes t) :
    Retries packet (tr.foldl (sentAfter packet) { last := now }) s'.sock ↔
      isn.toNat + s'.sock.sendBuffer.wnd.toNat < 2 ^ 32 := by
  obtain ⟨hopen, hpacket, -⟩ := hopens.cases
  exact retries_of_waits (hopens.waits.run hopen h hpend hbytes) hopen hpacket

/-- A client with initial sequence number 0, which has the default window, resends its SYN
after a second. -/
theorem retries_iff_zero :
    ∃ (packet : Packet) (s s' : RunningSocket 8 8) (tr : List (Step 8 8)),
      Opens 0 0 .synSent packet s ∧ Trace step s tr s' ∧
        (tr.foldl (sentAfter packet) { last := 0 }).times = 1 ∧
        (Retries packet (tr.foldl (sentAfter packet) { last := 0 }) s'.sock ↔
          (0 : UInt32).toNat + s'.sock.sendBuffer.wnd.toNat < 2 ^ 32) := by
  refine ⟨_, _, _, _, .active (Vector.replicate 8 0) (Vector.replicate 8 0) _ _ rfl,
    .cons (l := SocketCall.retransmit 0xffffffff 1000000000) rfl (.nil _), by decide, ?_⟩
  exact retries_iff (.active (Vector.replicate 8 0) (Vector.replicate 8 0) _ _ rfl)
    (.cons (l := SocketCall.retransmit 0xffffffff 1000000000) rfl (.nil _)) (by decide) (by decide)

/-- At initial sequence number 1 the SYN of a client is never retransmitted. -/
theorem not_retries :
    ∃ (packet : Packet) (s : RunningSocket 8 8), Opens 1 0 .synSent packet s ∧
      Pending 1 .synSent s ∧ ¬Retries packet { last := 0 } s.sock := by
  refine ⟨_, _, .active (Vector.replicate 8 0) (Vector.replicate 8 0) _ _ rfl, by decide,
    fun hretries ↦ ?_⟩
  rcases hretries 1000000000 (by decide) with ⟨-, hsent⟩ | ⟨htimes, -⟩
  · revert hsent
    decide
  · revert htimes
    decide

end RunningSocket

end Tns.Tcp
