import Tns.Tcp.CloseAgreement
import Tns.Tcp.ReadableData
import Tns.Tcp.RemoteClose

/-!
# The ends agree on the stream

Each end sends the bytes it has accepted in their places, until the FIN has its
number, and nothing but these bytes afterwards.  So what an end has received before
it consumes the FIN begins the stream of the other end, and is all of it when the
FIN is consumed.  As in one direction, no segment may take RCV.NXT behind the reader.
-/

namespace Tns.Tcp

open Tns.Library RetransmissionQueue RunningSocket

/-- The payload of a packet, if it has any, is admitted by `P`. -/
def Bears (P : ℕ → Byte → Prop) (packet : Packet) : Prop :=
  packet.payload ≠ [] → RecvBuffer.Admits P packet.seqNum packet.payload

section Bears

variable {P Q : ℕ → Byte → Prop} {packet : Packet}

theorem Bears.mono (h : Bears P packet) (hPQ : ∀ k x, P k x → Q k x) : Bears Q packet :=
  fun hne ↦ ⟨(h hne).1, fun i hi ↦ hPQ _ _ ((h hne).2 i hi)⟩

theorem Bears.of_nil (hnil : packet.payload = []) : Bears P packet := fun hne ↦ absurd hnil hne

end Bears

namespace RunningSocket

variable {M N : ℕ} {s s' : RunningSocket M N} {start : ℕ} {l : SocketCall} {out : SocketReturn}

/-! ## What an end sends -/

/-- Until the FIN is written, every thread leaves the bytes that are not acknowledged in the
buffer. -/
theorem Steps.holds (h : Steps s l out s') (hl : IsEvent l = false)
    (hholds : s.sock.sendBuffer.Holds start s.accepted)
    (hwrap : start + s'.accepted.length < 2 ^ 32) (htaken : s'.close.finTaken = false) :
    s'.sock.sendBuffer.Holds start s'.accepted := by
  have hwrites : ∀ {data : List Byte} {r : Except SocketError ℕ} {wakes : List CondVar}
      {b : SendBuffer M}, s.sock.sendBuffer.write data = .ok (r, wakes, b) →
      start + (s.accepted ++ acceptedOf data r).length < 2 ^ 32 →
      b.Holds start (s.accepted ++ acceptedOf data r) := by
    intro data r wakes b hwrite hwrap
    cases r with
    | error e =>
        rcases SendBuffer.write_cases hwrite with ⟨-, -, -, rfl⟩ | ⟨-, -, n, rb, -, hr, -⟩
        · simpa [acceptedOf] using hholds
        · cases hr
    | ok n => exact (hholds.write hwrap hwrite).1
  cases h with
  | event => cases hl
  | vSend data r wakes b hwrite => exact hwrites hwrite hwrap
  | write data r wakes b hwrite => exact hwrites hwrite hwrap
  | sendReadyData buffSize r b hsend =>
      cases r with
      | error e =>
          rcases SendBuffer.sendReadyData_cases hsend with ⟨-, -, rfl⟩ | ⟨-, -, data, -, -, hr, -⟩
          · exact hholds
          · cases hr
      | ok segment => exact (hholds.sendReadyData hsend).1
  | sendSegment now seq data ack wnd packet q => exact hholds.withQueue q
  | zwp timeout now thread b hzwp => exact (hholds.zwpStep hzwp).1
  | probe timeout now thread b seq data packet q hzwp =>
      exact (hholds.zwpStep hzwp).1.withQueue q
  | retransmit edge now =>
      obtain ⟨q, -, heq | ⟨result, heq⟩⟩ := s.sock.retransmitExpired_cases edge now <;> rw [heq]
      · exact hholds.withQueue q
      · exact (hholds.withQueue q).shutdown
  | vCloseAtOnce r actions sock hclose hstate =>
      obtain rfl | ⟨result, rfl⟩ := NormalSocket.vCloseState_error hstate
      · exact hholds
      · exact hholds.shutdown
  | vAbort =>
      rcases s.sock.vAbort_cases with heq | ⟨result, heq⟩ <;> rw [heq]
      · exact hholds
      · exact hholds.shutdown
  | writeAndSendOne => cases htaken
  | sendFin => cases htaken
  | _ => exact hholds

/-- What a socket has accepted and not sent is in its buffer, and what it sends are these bytes
in their places. -/
structure Carries (start : ℕ) (s : RunningSocket M N) : Prop where
  holds : s.close.finTaken = false → s.sock.sendBuffer.Holds start s.accepted
  queue : s.sock.sendBuffer.retransmitQueue.Only (Bears (ByteAt start s.accepted))
  hand : HandAdmits (ByteAt start s.accepted) s.sender

namespace Carries

/-- A thread in its turn sends bytes of the stream. -/
theorem thread (h : Carries start s) (hnum : Numbered start s) (hsteps : Steps s l out s')
    (hl : IsEvent l = false) (hgrows : Grows s s') (hwrap : start + s'.accepted.length < 2 ^ 32) :
    Carries start s' ∧
      ∀ packet ∈ packetsOf out.actions, Bears (ByteAt start s'.accepted) packet := by
  have hmono : ∀ k x, ByteAt start s.accepted k x → ByteAt start s'.accepted k x :=
    fun k x hx ↦ hx.mono hsteps.accepted_isPrefix
  have hhand := h.hand.mono hmono
  have hsends := hsteps.sends (P := Bears (ByteAt start s'.accepted)) hl
    (h.queue.mono fun _ hb ↦ hb.mono hmono) ?_ ?_ fun _ _ _ _ _ ↦ .of_nil rfl
  · refine ⟨⟨fun htaken ↦ ?_, hsends.1, ?_⟩, hsends.2⟩
    · refine hsteps.holds hl (h.holds ?_) hwrap htaken
      by_contra hold
      rw [(hgrows.finTaken (by simpa using hold)).1] at htaken
      cases htaken
    · rcases hsteps.sender_cases with hsame | hwait | hexit | ⟨seq, data, hseg, hready⟩ |
        ⟨buffSize, seq, data, hseg, -, hsend⟩
      · rw [hsame]
        exact hhand
      · rw [hwait]
        trivial
      · rw [hexit]
        trivial
      · rw [hseg] at hhand
        rw [hready]
        exact hhand
      · -- There are bytes to send, so the FIN has no number yet.
        have hcan := hnum.ordered.sizeCanSend_eq
        rcases SendBuffer.sendReadyData_cases hsend with ⟨-, hr, -⟩ | ⟨-, hpos, -⟩
        · cases hr
        obtain ⟨-, htaken⟩ := hnum.finTaken_of_lt (by omega)
        obtain ⟨-, -, hbytes⟩ := (h.holds htaken).sendReadyData hsend
        rw [hseg]
        exact admits_byteAt hwrap fun i hi ↦ hmono _ _ (hbytes i hi)
  · intro seq data ack wnd hsender _
    rw [hsender] at hhand
    exact hhand
  · intro timeout thread b seq data hzwp _ _ _
    obtain ⟨-, ⟨hnone, -⟩ | ⟨hlt, -⟩⟩ := hnum.ordered.zwpStep hzwp
    · cases hnone
    obtain ⟨-, htaken⟩ := hnum.finTaken_of_lt hlt
    obtain ⟨-, -, hbyte⟩ := (h.holds htaken).zwpStep hzwp
    refine admits_byteAt hwrap fun i hi ↦ ?_
    obtain rfl : i = 0 := by simpa [Packet.makeAckPacket] using hi
    exact hmono _ _ (hbyte seq data rfl)

/-- Acknowledgments, and the end of the connection, leave what is carried. -/
theorem event {ackNum wndSize : UInt32} {now : TimePoint} {sock : NormalSocket M N}
    (h : Carries start s)
    (hsend : sock.sendBuffer = s.sock.sendBuffer ∨
      sock.sendBuffer = (s.sock.sendBuffer.onAck ackNum wndSize now).2.2 ∨
      sock.sendBuffer = (s.sock.sendBuffer.onAck ackNum wndSize now).2.2.shutdown.2) :
    Carries start { s with sock } := by
  have hqueue := SendBuffer.only_onAck h.queue ackNum wndSize now
  rcases hsend with heq | heq | heq
  · exact ⟨fun htaken ↦ heq ▸ h.holds htaken, heq ▸ h.queue, h.hand⟩
  · exact ⟨fun htaken ↦ heq ▸ (h.holds htaken).onAck ackNum wndSize now, heq ▸ hqueue, h.hand⟩
  · exact ⟨fun htaken ↦ heq ▸ ((h.holds htaken).onAck ackNum wndSize now).shutdown,
      heq ▸ hqueue, h.hand⟩

end Carries

/-! ## What an end receives -/

namespace Gathers

variable {P : ℕ → Byte → Prop}

theorem of_shutdown (h : Gathers P start s)
    (hrecv : s'.sock.recvBuffer = s.sock.recvBuffer ∨
      s'.sock.recvBuffer = s.sock.recvBuffer.shutdown)
    (hdel : s'.delivered = s.delivered) : Gathers P start s' := by
  have hinv : s'.sock.recvBuffer.Inv P ∧ s'.sock.recvBuffer.nbr = s.sock.recvBuffer.nbr := by
    rcases hrecv with heq | heq <;> rw [heq]
    · exact ⟨h.inv, rfl⟩
    · exact ⟨h.inv.shutdown, rfl⟩
  refine ⟨hinv.1, ?_, ?_⟩
  · rw [hinv.2, hdel]
    exact h.nbr
  · simp only [hdel]
    exact h.delivered

/-- A thread reads what has been stored, or leaves it. -/
theorem thread (h : Gathers P start s) (hsteps : Steps s l out s') (hl : IsEvent l = false) :
    Gathers P start s' := by
  rcases hsteps.recv_cases with ⟨-, hdel, -, hrecv⟩ | ⟨buffSize, n, r, b, -, -, hread, rfl⟩ |
    ⟨event, now, sock, rfl, -⟩
  · exact h.of_shutdown hrecv hdel
  · exact h.read hread
  · cases hl

/-- What has been read and what can be read are consecutive bytes from `start` on. -/
theorem received (h : Gathers P start s) :
    ∀ i (hi : i < s.received.length), P (start + i) s.received[i] := by
  intro i hi
  have hnbr := h.nbr
  simp only [RunningSocket.received, List.length_append, RecvBuffer.length_unread,
    h.inv.sizeToRead_eq] at hi
  rcases Nat.lt_or_ge i s.delivered.length with hlt | hge
  · simp only [RunningSocket.received, List.getElem_append_left hlt]
    exact h.delivered i hlt
  · obtain ⟨x, hx, hP⟩ := h.inv.readable (start + i) (by omega) (by omega)
    have hpos : s.sock.recvBuffer.nbr.toNat + (i - s.delivered.length) = start + i := by omega
    simp only [RunningSocket.received, List.getElem_append_right hge, RecvBuffer.unread,
      List.getElem_map, List.getElem_range, hpos]
    rw [show s.sock.recvBuffer.buf[(start + i) % N]? = some x from hx]
    exact hP

theorem length_received (h : Gathers P start s) :
    start + s.received.length = s.sock.recvBuffer.nxt.toNat := by
  have hle := h.inv.nbr_le_nxt
  have hnbr := h.nbr
  rw [RunningSocket.received, List.length_append, RecvBuffer.length_unread, h.inv.sizeToRead_eq]
  omega

end Gathers

end RunningSocket

namespace Party

variable {M N : ℕ} {p p' q : Party M N} {start start' : ℕ}

/-- The call delivers a segment that takes RCV.NXT behind the reader. -/
def FallsBehind (p : Party M N) : PartyCall → Prop
  | .deliver packet _ =>
      let b := p.socket.sock.recvBuffer
      b.Extends packet.seqNum packet.payload.length ∧
        packet.seqNum.toNat + b.newBytes packet.seqNum packet.payload.length < b.nbr.toNat
  | .thread _ => False

instance (p : Party M N) : DecidablePred p.FallsBehind
  | .deliver _ _ => inferInstanceAs (Decidable (_ ∧ _))
  | .thread _ => isFalse id

/-- What `p` has accepted is on its way to `q`, and what `q` has received is the beginning of
it, as long as `q` has not consumed the FIN. -/
structure Conveys (start : ℕ) (p q : Party M N) : Prop where
  carries : Carries start p.socket
  inbox : ∀ packet ∈ q.inbox, Bears (ByteAt start p.socket.accepted) packet
  gathers : q.took = false → Gathers (ByteAt start p.socket.accepted) start q.socket

namespace Conveys

/-- The other end reads or receives. -/
theorem of_other (h : Conveys start q p) (packets : List Packet) (hinbox : p'.inbox = p.inbox)
    (hgathers : p'.took = false → Gathers (ByteAt start q.socket.accepted) start p'.socket) :
    Conveys start (q.hears packets) p' :=
  ⟨h.carries, hinbox ▸ h.inbox, hgathers⟩

/-- The end acts and sends packets. -/
theorem of_self {packets : List Packet} (h : Conveys start p q)
    (hcarries : Carries start p'.socket) (hmore : p.socket.accepted <+: p'.socket.accepted)
    (hpackets : ∀ packet ∈ packets, Bears (ByteAt start p'.socket.accepted) packet) :
    Conveys start p' (q.hears packets) := by
  have hmono : ∀ k x, ByteAt start p.socket.accepted k x → ByteAt start p'.socket.accepted k x :=
    fun k x hx ↦ hx.mono hmore
  refine ⟨hcarries, fun packet hpacket ↦ ?_, fun htook ↦ (h.gathers htook).mono hmono⟩
  rcases List.mem_append.mp hpacket with hold | hnew
  · exact (h.inbox packet hold).mono hmono
  · exact hpackets packet hnew

variable {now : TimePoint} {seqNum ackNum : UInt32} {wndSize : UInt16} {payload : List Byte}
  {actions : List Action} {sock : NormalSocket M N}

/-- A segment is answered without data. -/
theorem deliver_ack (h : Conveys start p q) (hstands : Stands p.socket)
    (hhandle : p.socket.sock.eventHandler (.getAck seqNum ackNum wndSize payload) now =
      .ok (actions, sock)) :
    Conveys start (p.handled sock) (q.hears (packetsOf actions)) := by
  obtain ⟨hsend, hrecv, -⟩ := NormalSocket.getAck_cases hstands.opened.2 hhandle
  refine h.of_self (h.carries.event hsend) List.prefix_rfl fun packet hpacket ↦ ?_
  rcases hrecv with ⟨-, hnone⟩ | ⟨r, -, -, hone⟩
  · simp [hnone] at hpacket
  · rw [hone, List.mem_singleton] at hpacket
    exact .of_nil (hpacket ▸ rfl)

theorem deliver_fin (h : Conveys start p q)
    (hhandle : p.socket.sock.eventHandler (.getFin seqNum wndSize) now = .ok (actions, sock)) :
    Conveys start (p.handled sock) (q.hears (packetsOf actions)) := by
  rcases NormalSocket.getFin_cases hhandle with ⟨rfl, hnone⟩ | ⟨hsend, -, hone, -⟩
  · exact h.of_self h.carries List.prefix_rfl (by simp [hnone])
  · refine h.of_self (h.carries.event (.inr (.inl hsend))) List.prefix_rfl fun packet hpacket ↦ ?_
    rw [hone, List.mem_singleton] at hpacket
    exact .of_nil (hpacket ▸ rfl)

end Conveys

section Deliver

variable {now : TimePoint} {seqNum ackNum : UInt32} {wndSize : UInt16} {payload : List Byte}
  {actions : List Action} {sock : NormalSocket M N} {P : ℕ → Byte → Prop}

/-- The bytes of a segment are stored in their places. -/
theorem gathers_ack (h : Gathers P start p.socket) (hstands : Stands p.socket)
    (hadm : payload ≠ [] → RecvBuffer.Admits P seqNum payload)
    (hbehind : p.socket.sock.recvBuffer.Extends seqNum payload.length →
      p.socket.sock.recvBuffer.nbr.toNat ≤
        seqNum.toNat + p.socket.sock.recvBuffer.newBytes seqNum payload.length)
    (hhandle : p.socket.sock.eventHandler (.getAck seqNum ackNum wndSize payload) now =
      .ok (actions, sock)) : Gathers P start (p.handled sock).socket := by
  obtain ⟨-, ⟨hsame, -⟩ | ⟨r, hne, hrecv, -⟩, -⟩ :=
    NormalSocket.getAck_cases hstands.opened.2 hhandle
  · exact h.of_shutdown hsame rfl
  · exact h.onRecv (hadm hne) hbehind hrecv rfl

/-- A FIN that is not consumed leaves what has been received. -/
theorem gathers_fin (h : Gathers P start p.socket) (hfits : Fits p q) (hnot : p.took = false)
    (hnot' : (p.handled sock).took = false)
    (hhandle : p.socket.sock.eventHandler (.getFin seqNum wndSize) now = .ok (actions, sock)) :
    Gathers P start (p.handled sock).socket := by
  rcases NormalSocket.getFin_cases hhandle with ⟨rfl, -⟩ | ⟨-, hrecv, -, ⟨-, htaken | hack⟩ |
    ⟨-, hstate⟩⟩
  · exact h
  · rw [hfits.hasTaken htaken] at hnot
    cases hnot
  · rw [RecvBuffer.onCtrl_of_ne (RecvBuffer.ne_nxt_of_onCtrl hack)] at hrecv
    exact h.of_shutdown hrecv rfl
  · have htakes : TakesFin sock.state = true := by
      rcases hstate with ⟨-, hstate⟩ | ⟨-, hstate⟩ <;> rw [hstate] <;> rfl
    simp [handled, htakes] at hnot'

end Deliver

/-- One end acts in its turn: what both have accepted is on its way. -/
theorem Conveys.acts {call : PartyCall} {out : SocketReturn} (h : Conveys start p q)
    (h' : Conveys start' q p) (hagree : Agree start start' p q) (hacts : Acts p call out p')
    (hturn : Orderly p.socket call) (hwrap : start + p'.socket.accepted.length + 1 < 2 ^ 32)
    (hbehind : ¬p.FallsBehind call) :
    Conveys start p' (q.hears (packetsOf out.actions)) ∧
      Conveys start' (q.hears (packetsOf out.actions)) p' := by
  cases hacts with
  | thread l _ s' hl hsteps =>
      obtain ⟨-, hgrows⟩ := hagree.numbers.step hagree.stands hsteps hl hturn hwrap
      obtain ⟨hcarries, hpackets⟩ := h.carries.thread hagree.numbers hsteps hl hgrows
        (Nat.lt_of_succ_lt hwrap)
      exact ⟨h.of_self hcarries hsteps.accepted_isPrefix hpackets,
        h'.of_other _ rfl fun htook ↦ (h'.gathers htook).thread hsteps hl⟩
  | deliver packet now event actions sock hpacket hevent hhandle =>
      have htook : (p.handled sock).took = false → p.took = false := fun hnot ↦
        (Bool.or_eq_false_iff.mp hnot).1
      have hbears := h'.inbox packet hpacket
      rcases hagree.fits'.inbox packet hpacket with ⟨hflags, -⟩ | ⟨hflags, -⟩
      · obtain rfl := fromPacket_of_ack hflags hevent
        exact ⟨h.deliver_ack hagree.stands hhandle, h'.of_other _ rfl fun hnot ↦
          gathers_ack (h'.gathers (htook hnot)) hagree.stands hbears
            (fun hext ↦ not_lt.mp fun hlt ↦ hbehind ⟨hext, hlt⟩) hhandle⟩
      · obtain rfl := fromPacket_of_fin hflags hevent
        exact ⟨h.deliver_fin hhandle, h'.of_other _ rfl fun hnot ↦
          gathers_fin (h'.gathers (htook hnot)) hagree.fits (htook hnot) hnot hhandle⟩

/-- Before it consumes the FIN, an end has received the beginning of the stream. -/
theorem Conveys.received_isPrefix (h : Conveys start p q) (hnot : q.took = false) :
    q.socket.received <+: p.socket.accepted :=
  ByteAt.isPrefix (h.gathers hnot).received

/-- If RCV.NXT is the number after the stream, all of it has been received. -/
theorem Conveys.received_eq (h : Conveys start p q) (hnot : q.took = false)
    (hnxt : q.socket.sock.recvBuffer.nxt.toNat = start + p.socket.accepted.length) :
    q.socket.received = p.socket.accepted := by
  have hlen := (h.gathers hnot).length_received
  exact (h.received_isPrefix hnot).eq_of_length (by omega)

/-- Nothing has been read, and nothing can be read. -/
structure Unread (p : Party M N) : Prop where
  nbr : p.socket.sock.recvBuffer.nbr = p.socket.sock.recvBuffer.nxt
  delivered : p.socket.delivered = []

theorem Fresh.conveys {i j : UInt32} (h : Fresh i j p) (h' : Fresh j i q) (hq : Unread q) :
    Conveys i.toNat p q := by
  obtain ⟨hnxt, hnbw, -⟩ := h.pointers
  refine ⟨⟨fun _ ↦ ⟨h.numbers.ordered, by rw [h.una], ?_, ?_, ?_⟩, ?_, ?_⟩, ?_, fun _ ↦ ?_⟩
  · rw [hnbw, h.accepted, List.length_nil, Nat.add_zero]
  · rw [hnbw, h.una]
    exact Nat.le_add_right _ _
  · exact Cyclic.Window.empty (by rw [hnbw, h.una])
  · exact ⟨by simp [h.deque], by simp [h.zwpEntry]⟩
  · rw [h.sender]
    trivial
  · simp [h'.inbox]
  · refine ⟨RecvBuffer.inv_of_eq hq.nbr h'.early, ?_, by simp [hq.delivered]⟩
    rw [hq.nbr, h'.nxt, hq.delivered, List.length_nil, Nat.add_zero]

end Party

namespace Parties

open Party

variable {M N : ℕ} {c c' : Parties M N} {isn : Side → UInt32}

/-- What an end has received before it consumes the FIN begins what the other end has accepted,
and is all of it when it consumes the FIN. -/
structure Streamed (t : Step M N) : Prop where
  inOrder : ∀ side, (t.post.party side).took = false →
    (t.post.party side).socket.received <+: (t.post.party side.other).socket.accepted
  complete : ∀ side, (t.pre.party side).took = false → (t.post.party side).took = true →
    (t.pre.party side).socket.received = (t.pre.party side.other).socket.accepted

/-- The step delivers a segment that takes RCV.NXT behind the reader. -/
def FallsBehind (t : Step M N) : Prop := (t.pre.party t.label.1).FallsBehind t.label.2

instance : DecidablePred (FallsBehind (M := M) (N := N)) :=
  fun t ↦ inferInstanceAs (Decidable ((t.pre.party t.label.1).FallsBehind t.label.2))

def Convey (isn : Side → UInt32) (c : Parties M N) : Prop :=
  ∀ side, Conveys (isn side).toNat (c.party side) (c.party side.other)

theorem Convey.conveys (h : Convey isn c) (side : Side) :
    Conveys (isn side.other).toNat (c.party side.other) (c.party side) := by
  have hthere := h side.other
  cases side <;> exact hthere

theorem Convey.step {t : Step M N} (hfires : Fires Parties.step t) (h : Convey isn t.pre)
    (hagree : Agree isn t.pre) (hturn : Orderly isn t) (hbehind : ¬FallsBehind t) :
    Convey isn t.post := by
  obtain ⟨c, ⟨side, call⟩, out, c'⟩ := t
  obtain ⟨hacts, hother⟩ := step_cases hfires
  have hboth := (h side).acts (h.conveys side) (hagree side) hacts hturn.1 (hturn.2 side) hbehind
  rw [← hother] at hboth
  intro side'
  cases side <;> cases side'
  · exact hboth.1
  · exact hboth.2
  · exact hboth.2
  · exact hboth.1

theorem Convey.streamed {t : Step M N} (hfires : Fires Parties.step t) (h : Convey isn t.pre)
    (hagree : Agree isn t.pre) (hturn : Orderly isn t) (hbehind : ¬FallsBehind t) :
    Streamed t := by
  have hpost := h.step hfires hagree hturn hbehind
  refine ⟨fun side hnot ↦ (hpost.conveys side).received_isPrefix hnot, fun side hnot htook ↦ ?_⟩
  exact (h.conveys side).received_eq hnot
    ((hagree.step hfires hturn).2.complete side hnot htook)

theorem Established.convey (h : Established isn c) (hunread : ∀ side, Unread (c.party side)) :
    Convey isn c := by
  intro side
  cases side with
  | here => exact (h .here).conveys (h .there) (hunread .there)
  | there => exact (h .there).conveys (h .here) (hunread .here)

/-- In every run of two ends that are closed in turn, in which no segment takes RCV.NXT behind
the reader, no byte is lost, changed or repeated in either direction: what an end has received
begins what the other has accepted, and is all of it when the end consumes the FIN. -/
theorem streamed_of_run (hstart : Established isn c) (hunread : ∀ side, Unread (c.party side))
    {tr : List (Step M N)} (h : Trace step c tr c') (hturn : ∀ t ∈ tr, Orderly isn t)
    (hbehind : ∀ t ∈ tr, ¬FallsBehind t) : ∀ t ∈ tr, Streamed t := by
  obtain ⟨-, hall⟩ := Trace.invariant (I := fun c ↦ Agree isn c ∧ Convey isn c)
    (A := fun t ↦ Orderly isn t ∧ ¬FallsBehind t)
    (fun t hfires hI hok ↦
      ⟨(hI.1.step hfires hok.1).1, hI.2.step hfires hI.1 hok.1 hok.2⟩)
    h ⟨hstart.agree, hstart.convey hunread⟩ fun t ht ↦ ⟨hturn t ht, hbehind t ht⟩
  intro t ht
  obtain ⟨hagree, hpre⟩ := (hall t ht).1
  exact hpre.streamed (h.fires t ht) hagree (hturn t ht) (hbehind t ht)

theorem exampleParty_unread :
    ∀ side, Unread ((⟨exampleParty, exampleParty⟩ : Parties 8 8).party side) := by
  intro side
  cases side <;> exact ⟨rfl, rfl⟩

/-- Both ends send.  The FIN overtakes the byte before it and is ignored, and consumed when it
arrives again, after the byte has been read. -/
theorem streamed_of_run_bothWays :
    ∃ (c c' : Parties 8 8) (tr : List (Step 8 8)), Trace step c tr c' ∧ c'.there.took = true ∧
      c'.there.socket.delivered = [7] ∧ c'.here.socket.received = [8, 9] ∧
        ∀ t ∈ tr, Streamed t := by
  have hrun : ∃ tr c', Trace step ⟨exampleParty, exampleParty⟩ tr c' ∧ c'.there.took = true ∧
      c'.there.socket.delivered = [7] ∧ c'.here.socket.received = [8, 9] ∧
      (∀ t ∈ tr, Orderly (fun _ ↦ 0) t) ∧ ∀ t ∈ tr, ¬FallsBehind t :=
    ⟨_, _, .cons (l := (.here, .thread (.vSend [7]))) rfl
      (.cons (l := (.here, .thread (.sendReadyData 4))) rfl
      (.cons (l := (.here, .thread .getAckWnd)) rfl
      (.cons (l := (.here, .thread (.sendSegment 0))) rfl
      (.cons (l := (.here, .thread .vClose)) rfl
      (.cons (l := (.here, .thread .getNxt)) rfl
      (.cons (l := (.here, .thread .writeAndSendOne)) rfl
      (.cons (l := (.here, .thread (.sendFin 0))) rfl
      (.cons (l := (.there, .deliver (.makeFinPacket 1 8) 0)) rfl
      (.cons (l := (.there, .deliver (.makeAckPacket 0 0 8 [7]) 0)) rfl
      (.cons (l := (.there, .thread (.vRecv 8 1))) rfl
      (.cons (l := (.there, .thread (.vSend [8, 9]))) rfl
      (.cons (l := (.there, .thread (.sendReadyData 4))) rfl
      (.cons (l := (.there, .thread .getAckWnd)) rfl
      (.cons (l := (.there, .thread (.sendSegment 0))) rfl
      (.cons (l := (.there, .deliver (.makeFinPacket 1 8) 0)) rfl
      (.cons (l := (.here, .deliver (.makeAckPacket 0 1 8 [8, 9]) 0)) rfl
      (.cons (l := (.here, .thread (.vRecv 8 1))) rfl (.nil _)))))))))))))))))),
      by decide, by decide, by decide, by decide, by decide⟩
  obtain ⟨tr, c', htrace, htook, hread, hreceived, hturn, hbehind⟩ := hrun
  exact ⟨_, c', tr, htrace, htook, hread, hreceived,
    streamed_of_run exampleParty_established exampleParty_unread htrace hturn hbehind⟩

end Parties

end Tns.Tcp
