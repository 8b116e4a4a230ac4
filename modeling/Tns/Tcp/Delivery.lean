import Tns.Tcp.Connection
import Tns.Tcp.RecvInvariant
import Tns.Tcp.SendInvariant

/-!
# In-order delivery

Every packet in the network carries bytes of the accepted stream in their places,
and the receive buffer admits such bytes only.  So what is read is a prefix of
what has been accepted, as long as RCV.NXT never falls behind the reader.
-/

namespace Tns.Tcp

open Tns.Library RetransmissionQueue

/-- An ACK segment whose payload is admitted by `P`. -/
def IsSegment (P : ℕ → Byte → Prop) (packet : Packet) : Prop :=
  packet.flags = TH_ACK ∧ RecvBuffer.Admits P packet.seqNum packet.payload

theorem IsSegment.mono {P Q : ℕ → Byte → Prop} {packet : Packet} (h : IsSegment P packet)
    (hPQ : ∀ k x, P k x → Q k x) : IsSegment Q packet :=
  ⟨h.1, h.2.1, fun i hi ↦ hPQ _ _ (h.2.2 i hi)⟩

theorem fromPacket_of_ack {packet : Packet} {event : Event} (hflags : packet.flags = TH_ACK)
    (hevent : fromPacket packet = .ok event) :
    event = .getAck packet.seqNum packet.ackNum packet.wndSize packet.payload := by
  have hpacket := fromPacket_makeAckPacket packet.seqNum packet.ackNum packet.wndSize packet.payload
  rw [Packet.makeAckPacket, ← hflags, hevent] at hpacket
  exact Except.ok.inj hpacket

theorem admits_byteAt {start : ℕ} {stream payload : List Byte} {seq : UInt32}
    (hwrap : start + stream.length < 2 ^ 32)
    (h : ∀ i (hi : i < payload.length), ByteAt start stream (seq.toNat + i) payload[i]) :
    RecvBuffer.Admits (ByteAt start stream) seq payload := by
  refine ⟨?_, h⟩
  rcases Nat.eq_zero_or_pos payload.length with hnil | hpos
  · have := seq.toNat_lt
    omega
  · have hlast := (h (payload.length - 1) (by omega)).lt
    omega

namespace NormalSocket

variable {M N : ℕ} {s s' : NormalSocket M N}

theorem packetsOf_vAbort {actions : List Action} (h : s.vAbort = (.ok actions, s')) :
    packetsOf actions = [] := by
  unfold vAbort at h
  split at h <;> simp only [Prod.mk.injEq, Except.ok.injEq, reduceCtorEq, false_and] at h <;>
    obtain ⟨rfl, -⟩ := h <;> rfl

theorem packetsOf_retransmitExpired {P : Packet → Prop}
    (h : s.sendBuffer.retransmitQueue.Only P) (edge : UInt32) (now : TimePoint) :
    ∀ packet ∈ packetsOf (s.retransmitExpired edge now).1, P packet := by
  obtain ⟨-, hexpired⟩ := h.getExpiredEntries edge now
  intro packet hpacket
  simp only [retransmitExpired] at hpacket
  split at hpacket
  · rename_i expEntries hes
    simp only [packetsOf, List.mem_filterMap, List.mem_map] at hpacket
    obtain ⟨_, ⟨e, he, rfl⟩, hsome⟩ := hpacket
    obtain rfl := Option.some.inj hsome
    exact hexpired _ hes e he
  · split at hpacket
    · rename_i habort
      simp [packetsOf_vAbort habort] at hpacket
    · simp [packetsOf] at hpacket

end NormalSocket

namespace RunningSocket

variable {M N : ℕ} {s s' : RunningSocket M N} {start : ℕ}

def HandAdmits (P : ℕ → Byte → Prop) : SenderHand → Prop
  | .segment seq data | .ready seq data _ _ => RecvBuffer.Admits P seq data
  | .waiting | .exited => True

theorem HandAdmits.mono {P Q : ℕ → Byte → Prop} {hand : SenderHand} (h : HandAdmits P hand)
    (hPQ : ∀ k x, P k x → Q k x) : HandAdmits Q hand := by
  cases hand with
  | waiting => trivial
  | exited => trivial
  | segment => exact ⟨h.1, fun i hi ↦ hPQ _ _ (h.2 i hi)⟩
  | ready => exact ⟨h.1, fun i hi ↦ hPQ _ _ (h.2 i hi)⟩

/-- The invariant of the sending side: the accepted bytes are a stream that begins at `start`,
and all packets that wait carry bytes of it. -/
structure Sends (start : ℕ) (s : RunningSocket M N) : Prop where
  state : s.sock.state = .established ∨ s.sock.state = .closed
  wrap : start + s.accepted.length < 2 ^ 32
  holds : s.sock.sendBuffer.Holds start s.accepted
  queue : s.sock.sendBuffer.retransmitQueue.Only (IsSegment (ByteAt start s.accepted))
  hand : HandAdmits (ByteAt start s.accepted) s.sender

namespace Sends

theorem write {data : List Byte} {r : Except SocketError ℕ} {wakes : List CondVar}
    {b : SendBuffer M} (h : Sends start s)
    (hwrite : s.sock.sendBuffer.write data = .ok (r, wakes, b))
    (hwrap : start + (s.accepted ++ acceptedOf data r).length < 2 ^ 32) :
    Sends start { s.withSend b with accepted := s.accepted ++ acceptedOf data r } := by
  have hmono : ∀ k x, ByteAt start s.accepted k x →
      ByteAt start (s.accepted ++ acceptedOf data r) k x :=
    fun k x hx ↦ hx.mono (List.prefix_append _ _)
  cases r with
  | error e =>
      rcases SendBuffer.write_cases hwrite with ⟨-, -, -, rfl⟩ | ⟨-, -, n, rb, -, hr, -⟩
      · refine ⟨h.state, hwrap, ?_, h.queue.mono fun p hp ↦ hp.mono hmono, h.hand.mono hmono⟩
        simpa [acceptedOf, withSend] using h.holds
      · cases hr
  | ok n =>
      obtain ⟨hholds, hqueue⟩ := h.holds.write hwrap hwrite
      refine ⟨h.state, hwrap, hholds, ?_, h.hand.mono hmono⟩
      simp only [withSend, hqueue]
      exact h.queue.mono fun p hp ↦ hp.mono hmono

/-- Every section of the sending side keeps the invariant, and sends segments of the stream. -/
theorem step {l : SocketCall} {out : SocketReturn} (h : Sends start s)
    (hstep : Steps s l out s') (hl : IsSending l = true)
    (hwrap : start + s'.accepted.length < 2 ^ 32) :
    Sends start s' ∧ s.accepted <+: s'.accepted ∧
      ∀ packet ∈ packetsOf out.actions, IsSegment (ByteAt start s'.accepted) packet := by
  cases hstep with
  | refuseSend => exact ⟨h, List.prefix_rfl, by simp [packetsOf]⟩
  | vSend data r wakes b hwrite =>
      exact ⟨h.write hwrite hwrap, List.prefix_append _ _, by simp [packetsOf]⟩
  | write data r wakes b hwrite =>
      exact ⟨h.write hwrite hwrap, List.prefix_append _ _, by simp [packetsOf]⟩
  | sendReadyData buffSize r b hsend =>
      refine ⟨?_, List.prefix_rfl, by simp [packetsOf]⟩
      cases r with
      | error e =>
          rcases SendBuffer.sendReadyData_cases hsend with ⟨-, -, rfl⟩ | ⟨-, -, data, -, -, hr, -⟩
          · exact ⟨h.state, h.wrap, h.holds, h.queue, trivial⟩
          · cases hr
      | ok segment =>
          obtain ⟨hholds, hqueue, hdata⟩ := h.holds.sendReadyData hsend
          exact ⟨h.state, h.wrap, hholds, hqueue ▸ h.queue, admits_byteAt h.wrap hdata⟩
  | getAckWnd seq data hsender =>
      refine ⟨⟨h.state, h.wrap, h.holds, h.queue, ?_⟩, List.prefix_rfl, by simp [packetsOf]⟩
      have hhand := h.hand
      rw [hsender] at hhand
      exact hhand
  | sendSegment now seq data ack wnd packet q hsender hpacket henq =>
      have hhand := h.hand
      rw [hsender] at hhand
      have hseg : IsSegment (ByteAt start s.accepted) packet := by
        rw [hpacket]
        exact ⟨rfl, hhand⟩
      exact ⟨⟨h.state, h.wrap, h.holds.withQueue q, h.queue.enqueue hseg henq, trivial⟩,
        List.prefix_rfl, by simpa [packetsOf, withSend] using hseg⟩
  | zwp timeout now thread b hzwp =>
      obtain ⟨hholds, hqueue, -⟩ := h.holds.zwpStep hzwp
      exact ⟨⟨h.state, h.wrap, hholds, hqueue ▸ h.queue, h.hand⟩, List.prefix_rfl,
        by simp [packetsOf]⟩
  | probe timeout now thread b seq data packet q hzwp hpacket henq =>
      obtain ⟨hholds, hqueue, hbyte⟩ := h.holds.zwpStep hzwp
      have hwait := h.queue
      have hseg : IsSegment (ByteAt start s.accepted) packet := by
        rw [hpacket]
        refine ⟨rfl, admits_byteAt h.wrap fun i hi ↦ ?_⟩
        obtain rfl : i = 0 := by simpa [Packet.makeAckPacket] using hi
        exact hbyte seq data rfl
      rw [← hqueue] at hwait
      exact ⟨⟨h.state, h.wrap, hholds.withQueue q, hwait.enqueueZwp hseg henq, h.hand⟩,
        List.prefix_rfl, by simpa [packetsOf, withSend] using hseg⟩
  | retransmit edge now =>
      refine ⟨?_, List.prefix_rfl, NormalSocket.packetsOf_retransmitExpired h.queue edge now⟩
      obtain ⟨hqueue, -⟩ := h.queue.getExpiredEntries edge now
      obtain ⟨q, rfl, heq | ⟨result, heq⟩⟩ := s.sock.retransmitExpired_cases edge now
      · rw [heq]
        exact ⟨h.state, h.wrap, h.holds.withQueue _, hqueue, h.hand⟩
      · rw [heq]
        exact ⟨.inr rfl, h.wrap, (h.holds.withQueue _).shutdown, hqueue, h.hand⟩
  | _ => cases hl

theorem acked {seqNum ackNum : UInt32} {wndSize : UInt16} {now : TimePoint} {out : SocketReturn}
    (h : Sends start s)
    (hstep : s.step (.event (.getAck seqNum ackNum wndSize []) now) = .ok (out, s')) :
    Sends start s' ∧ s'.accepted = s.accepted ∧ out.actions = [] := by
  have hsteps := steps_of_step hstep
  cases hsteps with
  | event _ _ actions sock hevent =>
      rcases h.state with hstate | hstate
      · simp only [NormalSocket.eventHandler, hstate, NormalSocket.handleEstablishedGetAck]
          at hevent
        rcases NormalSocket.processAck_cases hevent with ⟨-, rfl, rfl⟩ | ⟨r, b, hrecv, -, -⟩
        · refine ⟨⟨.inl hstate, h.wrap, h.holds.onAck _ _ _, ?_, h.hand⟩, rfl, rfl⟩
          obtain ⟨z, q, heq, -, hq⟩ :=
            SendBuffer.onAck_frame s.sock.sendBuffer ackNum wndSize.toUInt32 now
          have hwait : q.Only (IsSegment (ByteAt start s.accepted)) := by
            rcases hq with rfl | rfl
            · exact h.queue
            · exact h.queue.resetZwpCounter
          simp only [NormalSocket.acked, heq]
          split
          · exact hwait.onAck ackNum now
          · exact hwait
        · exact absurd rfl (RecvBuffer.onRecv_cases hrecv).1
      · simp only [NormalSocket.eventHandler, hstate, Except.ok.injEq, Prod.mk.injEq] at hevent
        obtain ⟨rfl, rfl⟩ := hevent
        exact ⟨h, rfl, rfl⟩

end Sends

/-- The bytes that a socket has read and stored are admitted by `P`, and those read begin at
`start`. -/
structure Gathers (P : ℕ → Byte → Prop) (start : ℕ) (s : RunningSocket M N) : Prop where
  inv : s.sock.recvBuffer.Inv P
  nbr : s.sock.recvBuffer.nbr.toNat = start + s.delivered.length
  delivered : ∀ i (hi : i < s.delivered.length), P (start + i) s.delivered[i]

namespace Gathers

variable {P Q : ℕ → Byte → Prop}

theorem mono (h : Gathers P start s) (hPQ : ∀ k x, P k x → Q k x) : Gathers Q start s :=
  ⟨h.inv.mono hPQ, h.nbr, fun i hi ↦ hPQ _ _ (h.delivered i hi)⟩

theorem read {buffSize n : ℕ} {r : Except SocketError (List Byte)} {b : RecvBuffer N}
    (h : Gathers P start s) (hread : s.sock.recvBuffer.readAtMostNBytes buffSize n = .ok (r, b)) :
    Gathers P start { s with
      sock := { s.sock with recvBuffer := b }
      delivered := s.delivered ++ deliveredOf r } := by
  obtain ⟨hinv, -, -, -, hnbr, hdata⟩ := h.inv.readAtMostNBytes hread
  have hdel : deliveredOf r = (RecvReturn.bytes r).data := by cases r <;> rfl
  rw [← hdel, h.nbr] at hnbr
  refine ⟨hinv, by rw [hnbr, List.length_append, Nat.add_assoc], fun i hi ↦ ?_⟩
  rcases Nat.lt_or_ge i s.delivered.length with hlt | hge
  · rw [List.getElem_append_left hlt]
    exact h.delivered i hlt
  · rw [List.length_append] at hi
    rw [List.getElem_append_right hge]
    have hP := hdata (i - s.delivered.length) (by rw [← hdel]; omega)
    rw [h.nbr, Nat.add_assoc, Nat.add_sub_cancel' hge] at hP
    simpa only [hdel] using hP

/-- A segment of admitted bytes that does not take RCV.NXT behind the reader. -/
theorem onRecv {seqNum : UInt32} {payload : List Byte} {r : UInt32 × ℕ} (h : Gathers P start s)
    (hadm : RecvBuffer.Admits P seqNum payload)
    (hbehind : s.sock.recvBuffer.Extends seqNum payload.length →
      s.sock.recvBuffer.nbr.toNat ≤
        seqNum.toNat + s.sock.recvBuffer.newBytes seqNum payload.length)
    (hrecv : s.sock.recvBuffer.onRecv seqNum payload = .ok (r, s'.sock.recvBuffer))
    (hdel : s'.delivered = s.delivered) : Gathers P start s' := by
  have hstored : s'.sock.recvBuffer.Inv P ∧ s'.sock.recvBuffer.nbr = s.sock.recvBuffer.nbr := by
    by_cases hext : s.sock.recvBuffer.Extends seqNum payload.length
    · obtain ⟨hinv, hnbr, -, -, hge, -⟩ := h.inv.onRecv_of_extends hadm hrecv hext
      exact ⟨hinv ((hbehind hext).trans hge), hnbr⟩
    · obtain ⟨hinv, hnbr, -⟩ := h.inv.onRecv_of_not_extends hadm hrecv hext
      exact ⟨hinv, hnbr⟩
  refine ⟨hstored.1, ?_, ?_⟩
  · rw [hstored.2, hdel]
    exact h.nbr
  · simp only [hdel]
    exact h.delivered

end Gathers

/-- The invariant of the receiving side: the bytes read and the bytes stored are admitted by
`P`, and those read begin at `start`. -/
structure Delivers (P : ℕ → Byte → Prop) (start : ℕ) (s : RunningSocket M N) : Prop where
  state : s.sock.state = .established
  inv : s.sock.recvBuffer.Inv P
  nbr : s.sock.recvBuffer.nbr.toNat = start + s.delivered.length
  delivered : ∀ i (hi : i < s.delivered.length), P (start + i) s.delivered[i]

namespace Delivers

variable {P Q : ℕ → Byte → Prop} {out : SocketReturn}

theorem gathers (h : Delivers P start s) : Gathers P start s := ⟨h.inv, h.nbr, h.delivered⟩

theorem of_gathers (hstate : s.sock.state = .established) (h : Gathers P start s) :
    Delivers P start s := ⟨hstate, h.inv, h.nbr, h.delivered⟩

theorem mono (h : Delivers P start s) (hPQ : ∀ k x, P k x → Q k x) : Delivers Q start s :=
  of_gathers h.state (h.gathers.mono hPQ)

theorem vRecv {buffSize n : ℕ} (h : Delivers P start s)
    (hstep : s.step (.vRecv buffSize n) = .ok (out, s')) : Delivers P start s' := by
  have hsteps := steps_of_step hstep
  cases hsteps with
  | refuseRecv => exact h
  | vRecv _ _ r b _ hread => exact .of_gathers h.state (h.gathers.read hread)

/-- A segment of admitted bytes keeps the invariant unless it takes RCV.NXT behind the reader,
and is answered with acknowledgments only. -/
theorem segment {packet : Packet} {now : TimePoint} (h : Delivers P start s)
    (hseg : IsSegment P packet)
    (hbehind : s.sock.recvBuffer.Extends packet.seqNum packet.payload.length →
      s.sock.recvBuffer.nbr.toNat ≤
        packet.seqNum.toNat + s.sock.recvBuffer.newBytes packet.seqNum packet.payload.length)
    (hstep : s.step (.event (.getAck packet.seqNum packet.ackNum packet.wndSize packet.payload)
      now) = .ok (out, s')) :
    Delivers P start s' ∧ ∀ p ∈ packetsOf out.actions, p.flags = TH_ACK ∧ p.payload = [] := by
  have hsteps := steps_of_step hstep
  cases hsteps with
  | event _ _ actions sock hevent =>
      simp only [NormalSocket.eventHandler, h.state, NormalSocket.handleEstablishedGetAck] at hevent
      rcases NormalSocket.processAck_cases hevent with ⟨-, rfl, rfl⟩ | ⟨r, b, hrecv, rfl, rfl⟩
      · exact ⟨⟨h.state, h.inv, h.nbr, h.delivered⟩, by simp [packetsOf]⟩
      · refine ⟨.of_gathers h.state (h.gathers.onRecv hseg.2 hbehind hrecv ?_), ?_⟩
        · rfl
        · simp [packetsOf, Packet.makeAckPacket]

end Delivers

end RunningSocket

namespace Connection

open RunningSocket

variable {M N : ℕ} {c c' : Connection M N} {start : UInt32}

/-- The step delivers a segment that extends the readable data and has more bytes before
RCV.NXT than new bytes that fit, so that its first bytes, taken for the new ones, end before
the next byte to read. -/
def FallsBehind (t : Step M N) : Prop :=
  match t.label with
  | .toSink packet _ =>
      let b := t.pre.sink.sock.recvBuffer
      b.Extends packet.seqNum packet.payload.length ∧
        packet.seqNum.toNat + b.newBytes packet.seqNum packet.payload.length < b.nbr.toNat
  | _ => False

instance : DecidablePred (FallsBehind (M := M) (N := N)) := fun t ↦ by
  unfold FallsBehind
  split <;> infer_instance

def InOrder (c : Connection M N) : Prop := c.sink.delivered <+: c.source.accepted

/-- The joint invariant of both sockets and all packets in flight. -/
structure Inv (start : UInt32) (c : Connection M N) : Prop where
  source : Sends start.toNat c.source
  toSink : ∀ packet ∈ c.toSink, IsSegment (ByteAt start.toNat c.source.accepted) packet
  toSource : ∀ packet ∈ c.toSource, packet.flags = TH_ACK ∧ packet.payload = []
  sink : Delivers (ByteAt start.toNat c.source.accepted) start.toNat c.sink

theorem Inv.inOrder (h : Inv start c) : c.InOrder := ByteAt.isPrefix h.sink.delivered

/-- Every step that does not take RCV.NXT behind the reader keeps the invariant. -/
theorem Inv.step {t : Step M N} (hfires : Fires Connection.step t) (h : Inv start t.pre)
    (hwrap : start.toNat + t.post.source.accepted.length < 2 ^ 32) (hbehind : ¬FallsBehind t) :
    Inv start t.post := by
  obtain ⟨c, l, out, c'⟩ := t
  have hsteps := steps_of_step hfires
  simp only at h hwrap hsteps ⊢
  cases hsteps with
  | source call _ source hcall hstep =>
      obtain ⟨hsource, hmore, hsent⟩ :=
        h.source.step (RunningSocket.steps_of_step hstep) hcall hwrap
      have hmono : ∀ k x, ByteAt start.toNat c.source.accepted k x →
          ByteAt start.toNat source.accepted k x := fun k x hx ↦ hx.mono hmore
      refine ⟨hsource, fun packet hpacket ↦ ?_, h.toSource, h.sink.mono hmono⟩
      rcases List.mem_append.mp hpacket with hpacket | hpacket
      · exact (h.toSink packet hpacket).mono hmono
      · exact hsent packet hpacket
  | toSink packet now event _ sink hpacket hevent hstep =>
      have hseg := h.toSink packet hpacket
      obtain rfl := fromPacket_of_ack hseg.1 hevent
      obtain ⟨hsink, hanswer⟩ := h.sink.segment hseg
        (fun hext ↦ not_lt.mp fun hlt ↦ hbehind ⟨hext, hlt⟩) hstep
      refine ⟨h.source, h.toSink, fun packet hpacket ↦ ?_, hsink⟩
      rcases List.mem_append.mp hpacket with hpacket | hpacket
      · exact h.toSource packet hpacket
      · exact hanswer packet hpacket
  | toSource packet now event _ source hpacket hevent hstep =>
      obtain ⟨hflags, hnil⟩ := h.toSource packet hpacket
      obtain rfl := fromPacket_of_ack hflags hevent
      rw [hnil] at hstep
      obtain ⟨hsource, hacc, hnone⟩ := h.source.acked hstep
      refine ⟨hsource, fun packet hpacket ↦ ?_, h.toSource, ?_⟩
      · simp only [hnone, packetsOf, List.filterMap_nil, List.append_nil] at hpacket
        simpa only [hacc] using h.toSink packet hpacket
      · simpa only [hacc] using h.sink
  | vRecv buffSize n _ sink hstep => exact ⟨h.source, h.toSink, h.toSource, h.sink.vRecv hstep⟩

/-- A connection that has just been established: the sequence pointers of both ends match, and
nothing has been accepted, sent or read. -/
structure Opened (start : UInt32) (c : Connection M N) : Prop where
  sourceState : c.source.sock.state = .established
  sane : c.source.sock.sendBuffer.sanityCheckAtStart = true
  una : c.source.sock.sendBuffer.una = start
  deque : c.source.sock.sendBuffer.retransmitQueue.deque = []
  zwpEntry : c.source.sock.sendBuffer.retransmitQueue.zwpEntry = none
  sender : c.source.sender = .waiting
  accepted : c.source.accepted = []
  sinkState : c.sink.sock.state = .established
  nbr : c.sink.sock.recvBuffer.nbr = start
  nxt : c.sink.sock.recvBuffer.nxt = start
  early : c.sink.sock.recvBuffer.earlyArrivals = {}
  delivered : c.sink.delivered = []
  toSink : c.toSink = []
  toSource : c.toSource = []

theorem Opened.inv (h : Opened start c) : Inv start c := by
  have hsane := h.sane
  simp only [SendBuffer.sanityCheckAtStart, Bool.and_eq_true, beq_iff_eq] at hsane
  have hnxt : c.source.sock.sendBuffer.nxt = start := hsane.1 ▸ h.una
  have hnbw : c.source.sock.sendBuffer.nbw = start := hsane.2 ▸ hnxt
  refine ⟨⟨.inl h.sourceState, ?_, ?_, ?_, ?_⟩, ?_, ?_, ?_⟩
  · simpa [h.accepted] using start.toNat_lt
  · refine ⟨⟨by rw [h.una, hnxt], by rw [hnxt, hnbw]⟩, by rw [h.una], ?_, ?_, ?_⟩
    · rw [hnbw, h.accepted, List.length_nil, Nat.add_zero]
    · rw [hnbw, h.una]
      exact Nat.le_add_right _ _
    · exact Cyclic.Window.empty (by rw [hnbw, h.una])
  · exact ⟨by simp [h.deque], by simp [h.zwpEntry]⟩
  · rw [h.sender]
    trivial
  · simp [h.toSink]
  · simp [h.toSource]
  · refine ⟨h.sinkState, RecvBuffer.inv_of_eq (h.nbr.trans h.nxt.symm) h.early, ?_,
      by simp [h.delivered]⟩
    rw [h.nbr, h.delivered, List.length_nil, Nat.add_zero]

/-- In every run in which no segment takes RCV.NXT behind the reader, what has been read is a
prefix of what has been accepted, in every state. -/
theorem inOrder_of_run (hopen : Opened start c) {tr : List (Step M N)}
    (h : Trace step c tr c')
    (hwrap : ∀ t ∈ tr, start.toNat + t.post.source.accepted.length < 2 ^ 32)
    (hbehind : ∀ t ∈ tr, ¬FallsBehind t) : c'.InOrder ∧ ∀ t ∈ tr, t.post.InOrder := by
  obtain ⟨hend, hall⟩ := Trace.invariant (I := Inv start)
    (A := fun t ↦ start.toNat + t.post.source.accepted.length < 2 ^ 32 ∧ ¬FallsBehind t)
    (fun t hfires hinv hok ↦ hinv.step hfires hok.1 hok.2) h hopen.inv
    fun t ht ↦ ⟨hwrap t ht, hbehind t ht⟩
  exact ⟨hend.inOrder, fun t ht ↦ (hall t ht).2.inOrder⟩

def exampleOpened : Connection 16 8 :=
  let sock := { NormalSocket.init (Vector.replicate 16 0) (Vector.replicate 8 0) 0 8 0 with
    state := .established }
  { source := { sock }, sink := { sock } }

theorem exampleOpened_opened : Opened 0 exampleOpened :=
  ⟨rfl, rfl, rfl, rfl, rfl, rfl, rfl, rfl, rfl, rfl, rfl, rfl, rfl, rfl⟩

/-- Two segments arrive in the wrong order, the first of them twice. -/
theorem inOrder_of_run_reordered :
    ∃ (tr : List (Step 16 8)) (c : Connection 16 8),
      Trace step exampleOpened tr c ∧ c.sink.delivered = [0, 1, 2, 3] ∧
        (c.InOrder ∧ ∀ t ∈ tr, t.post.InOrder) := by
  refine ⟨_, _, .cons (l := .source (.vSend [0, 1, 2, 3])) rfl
    (.cons (l := .source (.sendReadyData 2)) rfl (.cons (l := .source .getAckWnd) rfl
    (.cons (l := .source (.sendSegment 0)) rfl (.cons (l := .source (.sendReadyData 2)) rfl
    (.cons (l := .source .getAckWnd) rfl (.cons (l := .source (.sendSegment 0)) rfl
    (.cons (l := .toSink (.makeAckPacket 2 0 8 [2, 3]) 0) rfl
    (.cons (l := .toSink (.makeAckPacket 0 0 8 [0, 1]) 0) rfl
    (.cons (l := .toSink (.makeAckPacket 0 0 8 [0, 1]) 0) rfl
    (.cons (l := .vRecv 8 8) rfl (.nil _))))))))))), by decide, ?_⟩
  exact inOrder_of_run exampleOpened_opened (.cons rfl (.cons rfl (.cons rfl (.cons rfl
    (.cons rfl (.cons rfl (.cons rfl (.cons rfl (.cons rfl (.cons rfl (.cons rfl
    (.nil _)))))))))))) (by decide) (by decide)

/-- The first two segments arrive in the wrong order, so the window of the answer is too large
by 2.  The third segment does not fit entirely, and when it arrives again after its first part
has been read, RCV.NXT falls behind the reader. -/
theorem not_inOrder :
    ∃ (tr : List (Step 16 8)) (c : Connection 16 8),
      Opened 0 exampleOpened ∧ Trace step exampleOpened tr c ∧
        (∀ t ∈ tr, (0 : UInt32).toNat + t.post.source.accepted.length < 2 ^ 32) ∧
        ¬c.InOrder := by
  refine ⟨_, _, exampleOpened_opened, .cons (l := .source (.vSend [0, 1, 2, 3])) rfl
    (.cons (l := .source (.sendReadyData 2)) rfl (.cons (l := .source .getAckWnd) rfl
    (.cons (l := .source (.sendSegment 0)) rfl (.cons (l := .source (.sendReadyData 2)) rfl
    (.cons (l := .source .getAckWnd) rfl (.cons (l := .source (.sendSegment 0)) rfl
    (.cons (l := .toSink (.makeAckPacket 2 0 8 [2, 3]) 0) rfl
    (.cons (l := .toSink (.makeAckPacket 0 0 8 [0, 1]) 0) rfl
    (.cons (l := .toSource (.makeAckPacket 0 4 6) 0) rfl
    (.cons (l := .source (.vSend [4, 5, 6, 7, 8, 9])) rfl
    (.cons (l := .source (.sendReadyData 6)) rfl (.cons (l := .source .getAckWnd) rfl
    (.cons (l := .source (.sendSegment 0)) rfl
    (.cons (l := .toSink (.makeAckPacket 4 0 8 [4, 5, 6, 7, 8, 9]) 0) rfl
    (.cons (l := .vRecv 8 8) rfl
    (.cons (l := .toSink (.makeAckPacket 4 0 8 [4, 5, 6, 7, 8, 9]) 0) rfl
    (.cons (l := .vRecv 8 8) rfl (.nil _)))))))))))))))))), by decide, ?_⟩
  rw [InOrder]
  decide

end Connection

end Tns.Tcp
