import Tns.Tcp.Delivery
import Tns.Tcp.FinNumber
import Tns.Tcp.SendNumbers

/-!
# Sending while closing

The sender thread and `vClose` take their sequence numbers in one section and
enqueue their packets in another.  The packets reach the retransmission queue in
order only if the thread that holds the smaller number enqueues first, and the
FIN has the number that `writeAndSendOne` takes only if none is taken since
`getNxt`.
-/

namespace Tns.Tcp

open Tns.Library RetransmissionQueue

namespace SendBuffer

variable {N : ℕ} {b b' : SendBuffer N}

theorem onAck_retains (b : SendBuffer N) (ackNum wndSize : UInt32) (now : TimePoint) :
    b.retransmitQueue.Retains (b.onAck ackNum wndSize now).2.2.retransmitQueue := by
  obtain ⟨z, q, heq, -, hq⟩ := onAck_frame b ackNum wndSize now
  have hretains : b.retransmitQueue.Retains q := by
    rcases hq with rfl | rfl
    · exact .refl _
    · exact .resetZwpCounter _
  rw [heq]
  dsimp only
  split
  · exact hretains.trans (.onAck q ackNum now)
  · exact hretains

end SendBuffer

theorem NormalSocket.Handles.retains {M N : ℕ} {s s' : NormalSocket M N} {now : TimePoint}
    {event : Event} (h : NormalSocket.Handles s now event s') :
    s.sendBuffer.retransmitQueue.Retains s'.sendBuffer.retransmitQueue := by
  have hack : ∀ a w, s.sendBuffer.retransmitQueue.Retains
      (s.acked a w now).sendBuffer.retransmitQueue :=
    fun a w ↦ s.sendBuffer.onAck_retains a w now
  cases h with
  | ignored => exact .refl _
  | acked ackNum wndSize => exact hack _ _
  | synAcked => exact hack _ _
  | opened => exact hack _ _
  | received => exact hack _ _
  | finReceived => exact hack _ _
  | closeWait => exact hack _ _
  | timeWait => exact hack _ _
  | finAcked => exact hack _ _
  | closed => exact hack _ _

/-- The segment that the sender thread has taken and not yet enqueued. -/
def SenderHand.held : SenderHand → Option (UInt32 × List Byte)
  | .segment seq data | .ready seq data _ _ => some (seq, data)
  | .waiting | .exited => none

/-- The number that `getNxt` has read, before `writeAndSendOne`. -/
def CloseThread.read : CloseThread → Option UInt32
  | .numbered _ seq _ => some seq
  | _ => none

/-- The number of a FIN that is not yet enqueued, after `writeAndSendOne`. -/
def CloseThread.fin : CloseThread → Option UInt32
  | .taken _ seq _ => some seq
  | _ => none

namespace RunningSocket

variable {M N : ℕ} {s s' : RunningSocket M N}

def numbers (s : RunningSocket M N) : Numbers :=
  { nxt := s.sock.sendBuffer.nxt
    held := s.sender.held
    read := s.close.read
    fin := s.close.fin
    queue := s.sock.sendBuffer.retransmitQueue }

/-- How many sequence numbers a section takes. -/
def takes (s : RunningSocket M N) : SocketCall → ℕ
  | .sendReadyData buffSize =>
      if s.sock.sendBuffer.stopped then 0 else min s.sock.sendBuffer.sizeCanSend buffSize
  | .zwp _ _ =>
      if s.zwp = .onCountdown ∧ s.sock.sendBuffer.stopped = false ∧ s.sock.sendBuffer.wnd = 0 ∧
        0 < s.sock.sendBuffer.sizeNotSent then 1 else 0
  | .writeAndSendOne => 1
  | _ => 0

/-- The data packets that a section sends. -/
def dataSent (l : SocketCall) (out : SocketReturn) : List Packet :=
  if IsSending l then packetsOf out.actions else []

/-- The section does not run out of turn.  SND.NXT does not wrap, no number is taken between
`getNxt` and `writeAndSendOne`, and of the segment and the FIN that both wait to be enqueued
the one with the smaller number goes first. -/
structure InTurn (s : RunningSocket M N) (l : SocketCall) : Prop where
  below : s.sock.sendBuffer.nxt.toNat + takes s l < 2 ^ 32
  read : ∀ seq, s.close.read = some seq → l ≠ .writeAndSendOne → takes s l = 0
  segment : ∀ now seq data fin, l = .sendSegment now → s.sender.held = some (seq, data) →
    s.close.fin = some fin → seq ≤ fin
  fin : ∀ now seq data fin, l = .sendFin now → s.close.fin = some fin →
    s.sender.held = some (seq, data) → fin ≤ seq

theorem Steps.nxt_eq {l : SocketCall} {out : SocketReturn} (h : Steps s l out s') :
    s'.sock.sendBuffer.nxt = s.sock.sendBuffer.nxt + UInt32.ofNat (takes s l) := by
  have hzero : ∀ x : UInt32, x = x + UInt32.ofNat 0 := by simp
  cases h with
  | vSend data r wakes b hwrite =>
      rcases SendBuffer.write_cases hwrite with ⟨-, -, -, rfl⟩ | ⟨-, -, n, rb, -, -, -, rfl⟩ <;>
        exact hzero _
  | write data r wakes b hwrite =>
      rcases SendBuffer.write_cases hwrite with ⟨-, -, -, rfl⟩ | ⟨-, -, n, rb, -, -, -, rfl⟩ <;>
        exact hzero _
  | sendReadyData buffSize r b hsend =>
      rcases SendBuffer.sendReadyData_cases hsend with ⟨hstop, -, rfl⟩ |
        ⟨hstop, -, data, -, hlen, -, rfl⟩
      · simp [takes, hstop, withSend]
      · simp [takes, hstop, withSend, hlen]
  | zwp timeout now thread b hzwp =>
      have hiff := SendBuffer.zwpStep_probe_iff hzwp
      have htakes : takes s (.zwp timeout now) = 0 :=
        if_neg fun hprobe ↦ hiff.mpr hprobe rfl
      rcases SendBuffer.zwpStep_cases hzwp with ⟨-, z, rfl⟩ | ⟨-, -, -, data, -, hsome, -⟩
      · rw [htakes]
        exact hzero _
      · cases hsome
  | probe timeout now thread b seq data packet q hzwp =>
      have htakes : takes s (.zwp timeout now) = 1 :=
        if_pos ((SendBuffer.zwpStep_probe_iff hzwp).mp (by simp))
      rcases SendBuffer.zwpStep_cases hzwp with ⟨hnone, -⟩ | ⟨-, -, -, data', -, -, rfl⟩
      · cases hnone
      · rw [htakes]
        rfl
  | retransmit sWndBound now =>
      obtain ⟨q, -, heq | ⟨result, heq⟩⟩ := s.sock.retransmitExpired_cases sWndBound now <;>
        simp only [heq] <;> exact hzero _
  | event event now actions sock hevent =>
      rw [(NormalSocket.handles_of_eventHandler hevent).nxt_nbw.1]
      exact hzero _
  | vCloseAtOnce r actions sock hclose hstate =>
      obtain rfl | ⟨result, rfl⟩ := NormalSocket.vCloseState_error hstate <;> exact hzero _
  | vAbort =>
      rcases s.sock.vAbort_cases with heq | ⟨result, heq⟩ <;> simp only [heq] <;> exact hzero _
  | writeAndSendOne => rfl
  | _ => exact hzero _

theorem moves_of_retains {l : SocketCall} {out : SocketReturn}
    (hheld : s'.sender.held = s.sender.held)
    (hclose : s'.close.read = s.close.read ∧ s'.close.fin = s.close.fin)
    (hnxt : s'.sock.sendBuffer.nxt = s.sock.sendBuffer.nxt)
    (hretains : s.sock.sendBuffer.retransmitQueue.Retains s'.sock.sendBuffer.retransmitQueue)
    (hsent : ∀ packet ∈ dataSent l out, s.sock.sendBuffer.retransmitQueue.Waits packet) :
    s.numbers.Moves (dataSent l out) s'.numbers := by
  have heq : s'.numbers =
      { s.numbers with queue := s'.sock.sendBuffer.retransmitQueue } := by
    simp only [numbers, hheld, hclose.1, hclose.2, hnxt]
  rw [heq]
  exact .keep _ _ hsent hretains

/-- In its turn a section makes one of the moves. -/
theorem moves_of_steps {l : SocketCall} {out : SocketReturn} (h : Steps s l out s')
    (hturn : InTurn s l) : s.numbers.Moves (dataSent l out) s'.numbers := by
  have hnxt := h.nxt_eq
  have hbelow := hturn.below
  cases h with
  | refuseSend => exact moves_of_retains rfl ⟨rfl, rfl⟩ rfl (.refl _) nofun
  | vSend data r wakes b hwrite =>
      refine moves_of_retains rfl ⟨rfl, rfl⟩ (by simpa [takes] using hnxt) ?_ nofun
      rcases SendBuffer.write_cases hwrite with ⟨-, -, -, rfl⟩ | ⟨-, -, n, rb, -, -, -, rfl⟩ <;>
        exact .refl _
  | write data r wakes b hwrite =>
      refine moves_of_retains rfl ⟨rfl, rfl⟩ (by simpa [takes] using hnxt) ?_ nofun
      rcases SendBuffer.write_cases hwrite with ⟨-, -, -, rfl⟩ | ⟨-, -, n, rb, -, -, -, rfl⟩ <;>
        exact .refl _
  | refuseRecv => exact moves_of_retains rfl ⟨rfl, rfl⟩ rfl (.refl _) nofun
  | vRecv => exact moves_of_retains rfl ⟨rfl, rfl⟩ rfl (.refl _) nofun
  | sendReadyData buffSize r b hsend =>
      rcases SendBuffer.sendReadyData_cases hsend with ⟨-, rfl, rfl⟩ |
        ⟨hstop, -, data, -, hlen, rfl, rfl⟩
      · exact .exit
      · have htakes : takes s (.sendReadyData buffSize) = data.length := by
          simp [takes, hstop, hlen]
        refine .take data ?_ (htakes ▸ hbelow)
        cases hread : s.close.read with
        | none => exact .inl hread
        | some seq =>
            have hzero := hturn.read seq hread nofun
            exact .inr (List.length_eq_zero_iff.mp (htakes.symm.trans hzero))
  | getAckWnd seq data hsender =>
      have hheld : s.sender.held = some (seq, data) := by rw [hsender]; rfl
      exact moves_of_retains hheld.symm ⟨rfl, rfl⟩ rfl (.refl _) nofun
  | sendSegment now seq data ack wnd packet q hsender hpacket henq =>
      subst hpacket
      have hheld : s.sender.held = some (seq, data) := by rw [hsender]; rfl
      exact .enqueue seq data _ now q hheld rfl rfl henq
        fun fin hfin ↦ hturn.segment now seq data fin rfl hheld hfin
  | zwp timeout now thread b hzwp =>
      refine moves_of_retains rfl ⟨rfl, rfl⟩ ?_ ?_ nofun
      all_goals
        rcases SendBuffer.zwpStep_cases hzwp with ⟨-, z, rfl⟩ | ⟨-, -, -, data, -, hsome, -⟩
      · rfl
      · cases hsome
      · exact .refl _
      · cases hsome
  | probe timeout now thread b seq data packet q hzwp hpacket henq =>
      have htakes : takes s (.zwp timeout now) = 1 :=
        if_pos ((SendBuffer.zwpStep_probe_iff hzwp).mp nofun)
      have hread : s.close.read = none := by
        cases hread : s.close.read with
        | none => rfl
        | some seq' =>
            have hzero := hturn.read seq' hread nofun
            omega
      rcases SendBuffer.zwpStep_cases hzwp with ⟨hnone, -⟩ | ⟨-, -, -, data', -, hsome, rfl⟩
      · cases hnone
      · obtain ⟨rfl, rfl⟩ := Prod.mk.inj (Option.some.inj hsome)
        subst hpacket
        exact .probe _ now q hread rfl rfl henq (htakes ▸ hbelow)
  | retransmit sWndBound now =>
      have hsent : ∀ packet ∈ packetsOf (s.sock.retransmitExpired sWndBound now).1,
          s.sock.sendBuffer.retransmitQueue.Waits packet :=
        NormalSocket.packetsOf_retransmitExpired (only_waits _) sWndBound now
      refine moves_of_retains rfl ⟨rfl, rfl⟩ (by simpa [takes] using hnxt) ?_ hsent
      obtain ⟨q, rfl, heq | ⟨result, heq⟩⟩ := s.sock.retransmitExpired_cases sWndBound now <;>
        simp only [heq] <;> exact .getExpiredEntries _ sWndBound now
  | event event now actions sock hevent =>
      have hhandles := NormalSocket.handles_of_eventHandler hevent
      exact moves_of_retains rfl ⟨rfl, rfl⟩ hhandles.nxt_nbw.1 hhandles.retains nofun
  | vCloseAtOnce r actions sock hclose hstate =>
      refine moves_of_retains rfl ⟨by rw [hclose]; rfl, by rw [hclose]; rfl⟩
        (by simpa [takes] using hnxt) ?_ nofun
      obtain rfl | ⟨result, rfl⟩ := NormalSocket.vCloseState_error hstate <;> exact .refl _
  | vClose next actions hclose =>
      exact moves_of_retains rfl ⟨by rw [hclose]; rfl, by rw [hclose]; rfl⟩ rfl (.refl _) nofun
  | getNxt next hclose =>
      have heq : s.close.fin = none := by rw [hclose]; rfl
      have hmove : s.numbers.Moves [] { s.numbers with read := some s.numbers.nxt } := .getNxt
      simp only [numbers, heq] at hmove ⊢
      exact hmove
  | writeAndSendOne next seq wnd hclose =>
      have hread : s.close.read = some seq := by rw [hclose]; rfl
      exact .takeFin seq hread hbelow
  | sendFin now next seq wnd packet q hclose hpacket henq =>
      have hfin : s.close.fin = some seq := by rw [hclose]; rfl
      have hread : s.close.read = none := by rw [hclose]; rfl
      subst hpacket
      have hmove : s.numbers.Moves [] { s.numbers with fin := none, queue := q } :=
        .enqueueFin seq _ now q hfin rfl rfl henq
          fun seq' data hheld ↦ hturn.fin now seq' data seq rfl hfin hheld
      simp only [numbers, hread] at hmove ⊢
      exact hmove
  | vAbort =>
      refine moves_of_retains rfl ⟨rfl, rfl⟩ (by simpa [takes] using hnxt) ?_ nofun
      rcases s.sock.vAbort_cases with heq | ⟨result, heq⟩ <;> simp only [heq] <;> exact .refl _

theorem inOrder_step {t : Step M N} (hfires : Fires step t) (h : t.pre.numbers.InOrder)
    (hturn : InTurn t.pre t.label) : t.post.numbers.InOrder :=
  h.move (moves_of_steps (steps_of_step hfires) hturn)

theorem inOrder_run {tr : List (Step M N)} (htrace : Trace step s tr s')
    (h : s.numbers.InOrder) (hturn : ∀ t ∈ tr, InTurn t.pre t.label) :
    s'.numbers.InOrder ∧ ∀ t ∈ tr, t.pre.numbers.InOrder ∧ t.post.numbers.InOrder :=
  Trace.invariant (I := fun s ↦ s.numbers.InOrder) (A := fun t ↦ InTurn t.pre t.label)
    (fun _ hfires h hturn ↦ inOrder_step hfires h hturn) htrace h hturn

theorem nxt_le_run {tr : List (Step M N)} (htrace : Trace step s tr s')
    (hturn : ∀ t ∈ tr, InTurn t.pre t.label) : s.numbers.nxt.toNat ≤ s'.numbers.nxt.toNat := by
  induction htrace with
  | nil => exact le_rfl
  | cons head tail ih =>
      have hmove := moves_of_steps (steps_of_step head) (hturn _ List.mem_cons_self)
      exact hmove.nxt_le.trans (ih fun t ht ↦ hturn t (List.mem_cons_of_mem _ ht))

/-- The number of the FIN comes from `writeAndSendOne`. -/
theorem fin_step {l : SocketCall} {out : SocketReturn} {fin : UInt32} (h : Steps s l out s')
    (hinv : s.numbers.InOrder) (hfin : s'.close.fin = some fin) :
    s.close.fin = some fin ∨ (l = .writeAndSendOne ∧ s.sock.sendBuffer.nxt = fin) := by
  cases h with
  | writeAndSendOne next seq wnd hclose =>
      have hread : s.close.read = some seq := by rw [hclose]; rfl
      exact .inr ⟨rfl, (hinv.read seq hread).symm.trans (Option.some.inj hfin)⟩
  | vCloseAtOnce => cases hfin
  | vClose => cases hfin
  | getNxt => cases hfin
  | sendFin => cases hfin
  | _ => exact .inl hfin

theorem fin_run {tr : List (Step M N)} {fin : UInt32} (htrace : Trace step s tr s')
    (h : s.numbers.InOrder) (hturn : ∀ t ∈ tr, InTurn t.pre t.label)
    (hfin : s'.close.fin = some fin) :
    s.close.fin = some fin ∨
      ∃ t ∈ tr, t.label = .writeAndSendOne ∧ t.pre.sock.sendBuffer.nxt = fin := by
  induction htrace with
  | nil => exact .inl hfin
  | @cons s s₁ s₂ l out tr head tail ih =>
      have hinv := inOrder_step (t := ⟨s, l, out, s₁⟩) head h (hturn _ List.mem_cons_self)
      rcases ih hinv (fun t ht ↦ hturn t (List.mem_cons_of_mem _ ht)) hfin with
        hfin₁ | ⟨t, ht, hlabel, hnxt⟩
      · rcases fin_step (steps_of_step head) h hfin₁ with hfin₀ | ⟨rfl, hnxt⟩
        · exact .inl hfin₀
        · exact .inr ⟨_, List.mem_cons_self, rfl, hnxt⟩
      · exact .inr ⟨t, List.mem_cons_of_mem _ ht, hlabel, hnxt⟩

/-- Neither thread has taken a number yet, and the packets that wait lie in order before
SND.NXT. -/
structure BeforeSending (s : RunningSocket M N) : Prop where
  sender : s.sender = .waiting
  close : s.close = .idle
  sorted : s.sock.sendBuffer.retransmitQueue.Sorted
  queue : s.sock.sendBuffer.retransmitQueue.Only fun packet ↦
    packet.seqNum.toNat + packet.payload.length ≤ s.sock.sendBuffer.nxt.toNat

theorem BeforeSending.inOrder (h : BeforeSending s) : s.numbers.InOrder := by
  have hheld : s.numbers.held = none := by rw [numbers, h.sender]; rfl
  have hread : s.numbers.read = none := by rw [numbers, h.close]; rfl
  have hfin : s.numbers.fin = none := by rw [numbers, h.close]; rfl
  exact
    { sorted := h.sorted
      queue := h.queue
      held := fun _ _ hsome ↦ absurd (hheld.symm.trans hsome) nofun
      read := fun _ hsome ↦ absurd (hread.symm.trans hsome) nofun
      fin := fun _ hsome ↦ absurd (hfin.symm.trans hsome) nofun
      apart := fun _ _ _ hsome ↦ absurd (hheld.symm.trans hsome) nofun }

/-- A byte of the packet has the sequence number `n`. -/
def Uses (packet : Packet) (n : UInt32) : Prop :=
  ∃ i < packet.payload.length, packet.seqNum + UInt32.ofNat i = n

/-- In the run `tr` up to `s'` the retransmission queue stays ordered.  The assertion in
`enqueue` holds whichever thread goes next, the FIN has the number that `writeAndSendOne` has
taken, and no byte of a data packet has it. -/
structure KeepsOrder (tr : List (Step M N)) (s' : RunningSocket M N) : Prop where
  sorted : s'.sock.sendBuffer.retransmitQueue.Sorted
  segment : ∀ now msg, s'.step (.sendSegment now) ≠ .error (.assertion msg)
  fin : ∀ now msg, s'.step (.sendFin now) ≠ .error (.assertion msg)
  finNumber : ∀ t ∈ tr, (∃ now, t.label = .sendFin now) →
    ∃ t' ∈ tr, t'.label = .writeAndSendOne ∧
      ∃ wnd, t.out.actions = [.sendPacket (.makeFinPacket t'.pre.sock.sendBuffer.nxt wnd)]
  finUnused : ∀ t' ∈ tr, t'.label = .writeAndSendOne → ∀ t ∈ tr,
    ∀ packet ∈ dataSent t.label t.out, ¬Uses packet t'.pre.sock.sendBuffer.nxt

/-- Whoever holds a number can enqueue its packet. -/
theorem sendPacket_of_end_le (sock : NormalSocket M N) (packet : Packet) (now : TimePoint)
    (hend : ∀ e ∈ sock.sendBuffer.retransmitQueue.deque,
      e.getEndExclusive ≤ packet.seqNum.toNat) : ∃ r, sock.sendPacket packet now = .ok r := by
  rw [NormalSocket.sendPacket, enqueue_of_end_le now hend]
  exact ⟨_, rfl⟩

theorem segment_enqueues (h : s.numbers.InOrder) (now : TimePoint) (msg : String) :
    s.step (.sendSegment now) ≠ .error (.assertion msg) := by
  cases hsender : s.sender with
  | ready seq data ack wnd =>
      have hheld : s.sender.held = some (seq, data) := by rw [hsender]; rfl
      obtain ⟨r, hr⟩ := sendPacket_of_end_le s.sock
        (.makeAckPacket seq ack (UInt16.ofNat wnd) data) now (h.held seq data hheld).2
      simp only [step, hsender, NormalSocket.sendSegment, hr, Exec.ok_bind]
      intro herror
      cases herror
  | _ =>
      simp only [step, hsender]
      simp

theorem fin_enqueues (h : s.numbers.InOrder) (now : TimePoint) (msg : String) :
    s.step (.sendFin now) ≠ .error (.assertion msg) := by
  cases hclose : s.close with
  | taken next seq wnd =>
      have hfin : s.close.fin = some seq := by rw [hclose]; rfl
      obtain ⟨r, hr⟩ := sendPacket_of_end_le s.sock (.makeFinPacket seq wnd) now
        (h.fin seq hfin).2
      simp only [step, hclose, NormalSocket.sendFin, hr, Exec.ok_bind]
      intro herror
      cases herror
  | _ =>
      simp only [step, hclose]
      simp

theorem not_uses {packet : Packet} {n : UInt32}
    (hmisses : Misses n packet.seqNum packet.payload.length)
    (hlt : packet.seqNum.toNat + packet.payload.length < 2 ^ 32) : ¬Uses packet n := by
  rintro ⟨i, hi, rfl⟩
  have hnat := Numbers.toNat_nxt (x := packet.seqNum) (k := i) (by omega)
  rcases hmisses with hle | hlt
  · omega
  · omega

theorem skips_of_writeAndSendOne {out : SocketReturn} (h : Steps s .writeAndSendOne out s')
    (hinv : s.numbers.InOrder) (hturn : InTurn s .writeAndSendOne) :
    s'.numbers.Skips s.sock.sendBuffer.nxt := by
  have hbelow := hturn.below
  cases h
  exact hinv.skips hbelow

/-- No packet is sent with the number that `writeAndSendOne` takes, before or after. -/
theorem misses_of_mem {tr : List (Step M N)} (htrace : Trace step s tr s')
    (h : s.numbers.InOrder) (hturn : ∀ t ∈ tr, InTurn t.pre t.label) {t t' : Step M N}
    (ht' : t' ∈ tr) (hlabel : t'.label = .writeAndSendOne) (ht : t ∈ tr) {packet : Packet}
    (hpacket : packet ∈ dataSent t.label t.out) :
    Misses t'.pre.sock.sendBuffer.nxt packet.seqNum packet.payload.length := by
  have hinv := (inOrder_run htrace h hturn).2
  have hmove := moves_of_steps (steps_of_step (htrace.fires t ht)) (hturn t ht)
  obtain ⟨tr₁, tr₂, rfl⟩ := List.append_of_mem ht'
  obtain ⟨hbefore, hfires⟩ := htrace.to_pre
  rcases List.mem_append.mp ht with ht₁ | ht₂
  · -- sent before: it ends before SND.NXT, which has not passed the number yet
    left
    have hsent := (hinv t ht).1.sent_le hmove packet hpacket
    obtain ⟨tr₀, tr₀', rfl⟩ := List.append_of_mem ht₁
    refine hsent.trans (nxt_le_run hbefore.to_post fun u hu ↦ hturn u ?_)
    exact List.mem_append_left _ (List.mem_append_right _ (List.mem_cons_of_mem _ hu))
  · rcases List.mem_cons.mp ht₂ with rfl | ht₂
    · rw [hlabel] at hpacket
      cases hpacket
    · have hsteps := steps_of_step hfires
      have hturn' := hturn t' ht'
      rw [hlabel] at hsteps hturn'
      have hskips := skips_of_writeAndSendOne hsteps (hinv t' ht').1 hturn'
      have hrun := Trace.invariant
        (I := fun s : RunningSocket M N ↦ s.numbers.Skips t'.pre.sock.sendBuffer.nxt)
        (A := fun t ↦ InTurn t.pre t.label)
        (fun u hu h hturn ↦ h.move (moves_of_steps (steps_of_step hu) hturn)) htrace.to_post
        hskips fun u hu ↦ hturn u (List.mem_append_right _ (List.mem_cons_of_mem _ hu))
      exact (hrun.2 t ht₂).1.sent hmove packet hpacket

theorem steps_sendFin {out : SocketReturn} {now : TimePoint}
    (h : Steps s (.sendFin now) out s') : ∃ fin wnd, s.close.fin = some fin ∧
      out.actions = [.sendPacket (.makeFinPacket fin wnd)] := by
  cases h with
  | sendFin now next seq wnd packet q hclose hpacket =>
      exact ⟨seq, wnd, by rw [hclose]; rfl, by rw [hpacket]⟩

/-- In every run whose sections all run in turn, the retransmission queue stays ordered and
the FIN has a number of its own. -/
theorem keepsOrder_of_inTurn (hstart : BeforeSending s) {tr : List (Step M N)}
    (h : Trace step s tr s') (hturn : ∀ t ∈ tr, InTurn t.pre t.label) : KeepsOrder tr s' := by
  obtain ⟨hend, hinv⟩ := inOrder_run h hstart.inOrder hturn
  refine ⟨hend.sorted, segment_enqueues hend, fin_enqueues hend, ?_, ?_⟩
  · rintro t ht ⟨now, hlabel⟩
    obtain ⟨tr₁, tr₂, rfl⟩ := List.append_of_mem ht
    obtain ⟨hbefore, hfires⟩ := h.to_pre
    have hsteps := steps_of_step hfires
    rw [hlabel] at hsteps
    obtain ⟨fin, wnd, hfin, hactions⟩ := steps_sendFin hsteps
    have hturn₁ : ∀ t ∈ tr₁, InTurn t.pre t.label :=
      fun t ht ↦ hturn t (List.mem_append_left _ ht)
    rcases fin_run hbefore hstart.inOrder hturn₁ hfin with hnone | ⟨t', ht', hlabel', hnxt⟩
    · rw [hstart.close] at hnone
      cases hnone
    · exact ⟨t', List.mem_append_left _ ht', hlabel', wnd, hnxt ▸ hactions⟩
  · intro t' ht' hlabel t ht packet hpacket
    refine not_uses (misses_of_mem h hstart.inOrder hturn ht' hlabel ht hpacket) ?_
    have hmove := moves_of_steps (steps_of_step (h.fires t ht)) (hturn t ht)
    exact ((hinv t ht).1.sent_le hmove packet hpacket).trans_lt (UInt32.toNat_lt _)

theorem exampleStart_beforeSending : BeforeSending exampleStart :=
  ⟨rfl, rfl, List.Pairwise.nil, nofun, nofun⟩

/-- Three bytes are accepted and sent before the socket is closed. -/
theorem keepsOrder_of_inTurn_sent :
    ∃ (tr : List (Step 8 8)) (s : RunningSocket 8 8),
      Trace step exampleStart tr s ∧ tr.length = 8 ∧ s.sock.state = .finWait1 ∧
        KeepsOrder tr s := by
  have hrun : Trace step exampleStart _ _ :=
    .cons (l := .vSend [1, 2, 3]) rfl (.cons (l := .sendReadyData 8) rfl
    (.cons (l := .getAckWnd) rfl (.cons (l := .sendSegment 0) rfl (.cons (l := .vClose) rfl
    (.cons (l := .getNxt) rfl (.cons (l := .writeAndSendOne) rfl
    (.cons (l := .sendFin 0) rfl (.nil _))))))))
  refine ⟨_, _, hrun, rfl, rfl, keepsOrder_of_inTurn exampleStart_beforeSending hrun ?_⟩
  exact List.forall_mem_cons.mpr ⟨⟨by decide, nofun, nofun, nofun⟩,
    List.forall_mem_cons.mpr ⟨⟨by decide, nofun, nofun, nofun⟩,
    List.forall_mem_cons.mpr ⟨⟨by decide, nofun, nofun, nofun⟩,
    List.forall_mem_cons.mpr ⟨⟨by decide, nofun, nofun, nofun⟩,
    List.forall_mem_cons.mpr ⟨⟨by decide, nofun, nofun, nofun⟩,
    List.forall_mem_cons.mpr ⟨⟨by decide, nofun, nofun, nofun⟩,
    List.forall_mem_cons.mpr ⟨⟨by decide, fun _ _ hne ↦ absurd rfl hne, nofun, nofun⟩,
    List.forall_mem_cons.mpr ⟨⟨by decide, nofun, nofun, nofun⟩, List.forall_mem_nil _⟩⟩⟩⟩⟩⟩⟩⟩

/-- Three bytes are taken by the sender thread, and `vClose` runs through before they are
enqueued: the assertion fails in the sender thread. -/
theorem not_keepsOrder :
    ∃ (tr : List (Step 8 8)) (s : RunningSocket 8 8),
      BeforeSending exampleStart ∧ Trace step exampleStart tr s ∧ ¬KeepsOrder tr s := by
  refine ⟨_, _, exampleStart_beforeSending, .cons (l := .vSend [1, 2, 3]) rfl
    (.cons (l := .sendReadyData 8) rfl (.cons (l := .getAckWnd) rfl (.cons (l := .vClose) rfl
    (.cons (l := .getNxt) rfl (.cons (l := .writeAndSendOne) rfl
    (.cons (l := .sendFin 0) rfl (.nil _))))))), fun horder ↦ ?_⟩
  exact horder.segment 0 "Packet enqueued to the retransmission queue is out of order" rfl

end RunningSocket

end Tns.Tcp
