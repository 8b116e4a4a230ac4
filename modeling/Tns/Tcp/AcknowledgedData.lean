import Tns.Tcp.Delivery
import Tns.Tcp.Reassembly

/-!
# Acknowledged data

The sender forgets a byte when SND.UNA passes it, and SND.UNA only moves to an
acknowledgment number that the receiver has sent.  As long as RCV.NXT never moves
back, no number in flight is beyond it, so the bytes that the sender has forgotten
are bytes that the receiver has taken.
-/

namespace Tns.Tcp

open Tns.Library Tns.Library.Cyclic

namespace RunningSocket

variable {M N : ℕ} {s s' : RunningSocket M N} {l : SocketCall} {out : SocketReturn}

/-- No section of the sending side moves SND.UNA. -/
theorem Steps.una_of_sending (h : Steps s l out s') (hl : IsSending l = true) :
    s'.sock.sendBuffer.una = s.sock.sendBuffer.una := by
  cases h with
  | refuseSend => rfl
  | vSend data r wakes b hwrite =>
      rcases SendBuffer.write_cases hwrite with ⟨-, -, -, rfl⟩ | ⟨-, -, n, rb, -, -, -, rfl⟩
      · rfl
      · rfl
  | write data r wakes b hwrite =>
      rcases SendBuffer.write_cases hwrite with ⟨-, -, -, rfl⟩ | ⟨-, -, n, rb, -, -, -, rfl⟩
      · rfl
      · rfl
  | sendReadyData buffSize r b hsend =>
      rcases SendBuffer.sendReadyData_cases hsend with ⟨-, -, rfl⟩ | ⟨-, -, data, -, -, -, rfl⟩
      · rfl
      · rfl
  | getAckWnd => rfl
  | sendSegment => rfl
  | zwp timeout now thread b hzwp =>
      rcases SendBuffer.zwpStep_cases hzwp with ⟨-, z, rfl⟩ | ⟨-, -, -, data, -, hprobe, -⟩
      · rfl
      · cases hprobe
  | probe timeout now thread b seq data packet q hzwp =>
      rcases SendBuffer.zwpStep_cases hzwp with ⟨hprobe, -⟩ | ⟨-, -, -, x, -, -, -, rfl⟩
      · cases hprobe
      · rfl
  | retransmit edge now =>
      obtain ⟨q, -, heq | ⟨result, heq⟩⟩ := s.sock.retransmitExpired_cases edge now
      · exact congrArg (·.sendBuffer.una) heq
      · exact congrArg (·.sendBuffer.una) heq
  | _ => cases hl

/-- An acknowledgment without payload moves SND.UNA to its number or leaves it. -/
theorem una_of_acked {seqNum ackNum : UInt32} {wndSize : UInt16} {now : TimePoint}
    (hstate : s.sock.state = .established ∨ s.sock.state = .closed)
    (hstep : s.step (.event (.getAck seqNum ackNum wndSize []) now) = .ok (out, s')) :
    s'.sock.sendBuffer.una = s.sock.sendBuffer.una ∨ s'.sock.sendBuffer.una = ackNum := by
  have hsteps := steps_of_step hstep
  cases hsteps with
  | event _ _ actions sock hevent =>
      rcases hstate with hstate | hstate
      · simp only [NormalSocket.eventHandler, hstate, NormalSocket.handleEstablishedGetAck]
          at hevent
        rcases NormalSocket.processAck_cases hevent with ⟨-, -, rfl⟩ | ⟨r, b, hrecv, -, -⟩
        · simp only [NormalSocket.acked, SendBuffer.onAck_una]
          split
          · exact .inr rfl
          · exact .inl rfl
        · exact absurd rfl (RecvBuffer.onRecv_cases hrecv).1
      · simp only [NormalSocket.eventHandler, hstate, Except.ok.injEq, Prod.mk.injEq] at hevent
        obtain ⟨-, rfl⟩ := hevent
        exact .inl rfl

/-- A segment that does not rewind RCV.NXT moves it forward only, and the answers to it carry
RCV.NXT. -/
theorem Delivers.nxt_of_segment {P : ℕ → Byte → Prop} {start : ℕ} {packet : Packet}
    {now : TimePoint} (h : Delivers P start s) (hseg : IsSegment P packet)
    (hrewinds : ¬s.sock.recvBuffer.Rewinds packet.seqNum packet.payload.length)
    (hstep : s.step (.event (.getAck packet.seqNum packet.ackNum packet.wndSize packet.payload)
      now) = .ok (out, s')) :
    s.sock.recvBuffer.nxt ≤ s'.sock.recvBuffer.nxt ∧
      ∀ p ∈ packetsOf out.actions, p.ackNum = s'.sock.recvBuffer.nxt := by
  have hsteps := steps_of_step hstep
  cases hsteps with
  | event _ _ actions sock hevent =>
      simp only [NormalSocket.eventHandler, h.state, NormalSocket.handleEstablishedGetAck] at hevent
      rcases NormalSocket.processAck_cases hevent with ⟨-, rfl, rfl⟩ | ⟨r, b, hrecv, rfl, rfl⟩
      · exact ⟨le_rfl, by simp [packetsOf]⟩
      by_cases hext : s.sock.recvBuffer.Extends packet.seqNum packet.payload.length
      · obtain ⟨-, -, -, rfl, hge, -⟩ := h.inv.onRecv_of_extends hseg.2 hrecv hext
        refine ⟨UInt32.le_iff_toNat_le.mpr ?_, by simp [packetsOf, Packet.makeAckPacket]⟩
        exact (not_lt.mp fun hlt ↦ hrewinds ⟨hext, hlt⟩).trans hge
      · obtain ⟨-, -, hnxt, -, rfl, -⟩ := h.inv.onRecv_of_not_extends hseg.2 hrecv hext
        exact ⟨hnxt.ge, by simp [packetsOf, Packet.makeAckPacket, hnxt]⟩

end RunningSocket

namespace Connection

open RunningSocket

variable {M N : ℕ} {c c' : Connection M N} {start : UInt32}

/-- The step delivers a segment that rewinds RCV.NXT. -/
def RewindsSink (t : Step M N) : Prop :=
  match t.label with
  | .toSink packet _ => t.pre.sink.sock.recvBuffer.Rewinds packet.seqNum packet.payload.length
  | _ => False

instance (b : RecvBuffer N) (seqNum : UInt32) (len : ℕ) : Decidable (b.Rewinds seqNum len) :=
  inferInstanceAs (Decidable (_ ∧ _))

instance : DecidablePred (RewindsSink (M := M) (N := N))
  | ⟨c, .toSink packet _, _, _⟩ => inferInstanceAs
      (Decidable (c.sink.sock.recvBuffer.Rewinds packet.seqNum packet.payload.length))
  | ⟨_, .source _, _, _⟩ | ⟨_, .toSource .., _, _⟩ | ⟨_, .vRecv .., _, _⟩ => isFalse id

/-- Every accepted byte has been read, waits in the ring of the receiver, or is still in the
ring of the sender, and no acknowledgment is ahead of the receiver. -/
structure Accounted (start : ℕ) (c : Connection M N) : Prop where
  una_le_nxt : c.source.sock.sendBuffer.una ≤ c.sink.sock.recvBuffer.nxt
  ackNum_le_nxt : ∀ packet ∈ c.toSource, packet.ackNum ≤ c.sink.sock.recvBuffer.nxt
  kept : ∀ i (hi : i < c.source.accepted.length),
    c.sink.delivered[i]? = some c.source.accepted[i] ∨
      (c.sink.sock.recvBuffer.nbr.toNat ≤ start + i ∧
        start + i < c.sink.sock.recvBuffer.nxt.toNat ∧
        cell c.sink.sock.recvBuffer.buf (start + i) = some c.source.accepted[i]) ∨
      (c.source.sock.sendBuffer.una.toNat ≤ start + i ∧
        start + i < c.source.sock.sendBuffer.nbw.toNat ∧
        cell c.source.sock.sendBuffer.buf (start + i) = some c.source.accepted[i])

/-- The joint invariant, and no acknowledgment ahead of the receiver. -/
structure AckInv (start : UInt32) (c : Connection M N) : Prop where
  inv : Inv start c
  una : c.source.sock.sendBuffer.una ≤ c.sink.sock.recvBuffer.nxt
  toSource : ∀ packet ∈ c.toSource, packet.ackNum ≤ c.sink.sock.recvBuffer.nxt

/-- Bytes before RCV.NXT are at the receiver, and all others at the sender. -/
theorem AckInv.accounted (h : AckInv start c) : Accounted start.toNat c := by
  refine ⟨h.una, h.toSource, fun i hi ↦ ?_⟩
  have hsink := h.inv.sink
  have hholds := h.inv.source.holds
  have hnbw := hholds.nbw
  have hnbr := hsink.nbr
  have hbyte : ∀ x, ByteAt start.toNat c.source.accepted (start.toNat + i) x →
      x = c.source.accepted[i] := by
    intro x hx
    have hget := hx.2
    rw [Nat.add_sub_cancel_left, List.getElem?_eq_getElem hi] at hget
    exact (Option.some.inj hget).symm
  rcases Nat.lt_or_ge i c.sink.delivered.length with hread | hunread
  · refine .inl ?_
    rw [List.getElem?_eq_getElem hread, hbyte _ (hsink.delivered i hread)]
  rcases Nat.lt_or_ge (start.toNat + i) c.sink.sock.recvBuffer.nxt.toNat with hlt | hge
  · obtain ⟨x, hx, hP⟩ := hsink.inv.readable (start.toNat + i) (by omega) hlt
    exact .inr (.inl ⟨by omega, hlt, by rw [hx, hbyte x hP]⟩)
  · have hle := UInt32.le_iff_toNat_le.mp h.una
    obtain ⟨x, hx, hP⟩ := hholds.window (start.toNat + i) (by omega) (by omega)
    exact .inr (.inr ⟨by omega, by omega, by rw [hx, hbyte x hP]⟩)

/-- Every step that does not rewind RCV.NXT keeps the invariant. -/
theorem AckInv.step {t : Step M N} (hfires : Fires Connection.step t) (h : AckInv start t.pre)
    (hwrap : start.toNat + t.post.source.accepted.length < 2 ^ 32) (hrewinds : ¬RewindsSink t) :
    AckInv start t.post := by
  have hbehind : ¬FallsBehind t := by
    obtain ⟨c, l, out, c'⟩ := t
    cases l with
    | toSink packet now =>
        intro hback
        have hle := h.inv.sink.inv.nbr_le_nxt
        exact hrewinds ⟨hback.1, hback.2.trans_le hle⟩
    | source => exact id
    | toSource => exact id
    | vRecv => exact id
  have hinv := h.inv.step hfires hwrap hbehind
  obtain ⟨c, l, out, c'⟩ := t
  have hsteps := steps_of_step hfires
  simp only at h hinv hsteps ⊢
  cases hsteps with
  | source call _ source hcall hstep =>
      refine ⟨hinv, ?_, h.toSource⟩
      rw [(RunningSocket.steps_of_step hstep).una_of_sending hcall]
      exact h.una
  | toSink packet now event _ sink hpacket hevent hstep =>
      have hseg := h.inv.toSink packet hpacket
      obtain rfl := fromPacket_of_ack hseg.1 hevent
      obtain ⟨hmono, hanswer⟩ := h.inv.sink.nxt_of_segment hseg hrewinds hstep
      refine ⟨hinv, h.una.trans hmono, fun p hp ↦ ?_⟩
      rcases List.mem_append.mp hp with hp | hp
      · exact (h.toSource p hp).trans hmono
      · exact (hanswer p hp).le
  | toSource packet now event _ source hpacket hevent hstep =>
      obtain ⟨hflags, hnil⟩ := h.inv.toSource packet hpacket
      obtain rfl := fromPacket_of_ack hflags hevent
      rw [hnil] at hstep
      refine ⟨hinv, ?_, h.toSource⟩
      rcases una_of_acked h.inv.source.state hstep with heq | heq <;> rw [heq]
      · exact h.una
      · exact h.toSource packet hpacket
  | vRecv buffSize n _ sink hstep =>
      have hnxt : sink.sock.recvBuffer.nxt = c.sink.sock.recvBuffer.nxt := by
        have hread := RunningSocket.steps_of_step hstep
        cases hread with
        | refuseRecv => rfl
        | vRecv _ _ r b _ hread => exact (h.inv.sink.inv.readAtMostNBytes hread).2.1
      refine ⟨hinv, ?_, ?_⟩
      · rw [hnxt]
        exact h.una
      · rw [hnxt]
        exact h.toSource

theorem Opened.ackInv (h : Opened start c) : AckInv start c := by
  refine ⟨h.inv, ?_, by simp [h.toSource]⟩
  rw [h.una, h.nxt]

/-- In every run in which no segment rewinds RCV.NXT, under any loss, duplication and
reordering, no accepted byte is lost: each is found in every state where it has been read, or
in the ring of the receiver or of the sender. -/
theorem accounted_of_run (hopen : Opened start c) {tr : List (Step M N)}
    (h : Trace step c tr c')
    (hwrap : ∀ t ∈ tr, start.toNat + t.post.source.accepted.length < 2 ^ 32)
    (hrewinds : ∀ t ∈ tr, ¬RewindsSink t) :
    Accounted start.toNat c' ∧ ∀ t ∈ tr, Accounted start.toNat t.post := by
  obtain ⟨hend, hall⟩ := Trace.invariant (I := AckInv start)
    (A := fun t ↦ start.toNat + t.post.source.accepted.length < 2 ^ 32 ∧ ¬RewindsSink t)
    (fun t hfires hinv hok ↦ hinv.step hfires hok.1 hok.2) h hopen.ackInv
    fun t ht ↦ ⟨hwrap t ht, hrewinds t ht⟩
  exact ⟨hend.accounted, fun t ht ↦ (hall t ht).2.accounted⟩

/-- The second of two segments arrives first and the first one twice; the acknowledgment of both
frees the ring of the sender for two more bytes. -/
theorem accounted_of_run_reordered :
    ∃ (tr : List (Step 16 8)) (c : Connection 16 8),
      Trace step exampleOpened tr c ∧ c.source.sock.sendBuffer.una = 4 ∧
        (Accounted 0 c ∧ ∀ t ∈ tr, Accounted 0 t.post) := by
  refine ⟨_, _, .cons (l := .source (.vSend [0, 1, 2, 3])) rfl
    (.cons (l := .source (.sendReadyData 2)) rfl (.cons (l := .source .getAckWnd) rfl
    (.cons (l := .source (.sendSegment 0)) rfl (.cons (l := .source (.sendReadyData 2)) rfl
    (.cons (l := .source .getAckWnd) rfl (.cons (l := .source (.sendSegment 0)) rfl
    (.cons (l := .toSink (.makeAckPacket 2 0 8 [2, 3]) 0) rfl
    (.cons (l := .toSink (.makeAckPacket 0 0 8 [0, 1]) 0) rfl
    (.cons (l := .toSink (.makeAckPacket 0 0 8 [0, 1]) 0) rfl
    (.cons (l := .toSource (.makeAckPacket 0 4 6) 0) rfl
    (.cons (l := .source (.vSend [4, 5])) rfl (.nil _)))))))))))), by decide, ?_⟩
  exact accounted_of_run exampleOpened_opened (.cons rfl (.cons rfl (.cons rfl (.cons rfl
    (.cons rfl (.cons rfl (.cons rfl (.cons rfl (.cons rfl (.cons rfl (.cons rfl (.cons rfl
    (.nil _))))))))))))) (by decide) (by decide)

end Connection

end Tns.Tcp
