import Tns.Tcp.ClosingSocket

/-!
# The ends agree on the close

A receiver that has not consumed the FIN acknowledges numbers up to the FIN only.
So an acknowledgment of the FIN says that the other end has consumed it, and a FIN
in the network that the other end has closed: the states of both ends move together,
whatever the network does.
-/

namespace Tns.Tcp

open Tns.Library RetransmissionQueue RunningSocket State

theorem State.HasTaken.of_takesFin {state : State} (h : TakesFin state = true) :
    state.HasTaken := by
  unfold TakesFin at h
  split at h
  · trivial
  · trivial
  · cases h

theorem fromPacket_of_fin {packet : Packet} {event : Event} (hflags : packet.flags = TH_FIN)
    (hevent : fromPacket packet = .ok event) : event = .getFin packet.seqNum packet.wndSize := by
  have hsyn : TH_FIN ≠ TH_SYN := by decide
  have hsynAck : TH_FIN ≠ TH_SYN ||| TH_ACK := by decide
  have hack : TH_FIN ≠ TH_ACK := by decide
  simp only [fromPacket, hflags, hsyn, hsynAck, hack, if_false, if_true, Except.ok.injEq] at hevent
  exact hevent.symm

/-- A segment whose bytes end at `dataEnd` and whose acknowledgment number is admitted, or the
FIN with the number `dataEnd`. -/
def Fair (dataEnd : ℕ) (finSent : Prop) (acks : UInt32 → Prop) (packet : Packet) : Prop :=
  packet.flags = TH_ACK ∧
      (packet.payload ≠ [] → packet.seqNum.toNat + packet.payload.length ≤ dataEnd) ∧
      acks packet.ackNum ∨
    packet.flags = TH_FIN ∧ packet.seqNum.toNat = dataEnd ∧ finSent

theorem Fair.mono {e e' : ℕ} {fin fin' : Prop} {acks acks' : UInt32 → Prop} {packet : Packet}
    (h : Fair e fin acks packet) (hle : e ≤ e') (hfin : fin → fin' ∧ e' = e)
    (hacks : ∀ ack, acks ack → acks' ack) : Fair e' fin' acks' packet := by
  rcases h with ⟨hflags, hdata, hack⟩ | ⟨hflags, hseq, hsent⟩
  · exact .inl ⟨hflags, fun hne ↦ (hdata hne).trans hle, hacks _ hack⟩
  · exact .inr ⟨hflags, hseq.trans (hfin hsent).2.symm, (hfin hsent).1⟩

namespace Party

variable {M N : ℕ} {p p' q q' : Party M N} {start : ℕ}

/-- The numbers that `p` can have acknowledged: that of the FIN only once it is consumed. -/
def Acks (p q : Party M N) (ack : UInt32) : Prop := ack.toNat ≤ q.socket.dataEnd ∨ p.took = true

def Sends (p q : Party M N) : Packet → Prop :=
  Fair p.socket.dataEnd (SentFin p.socket) (p.Acks q)

/-- The segment in the hand of the sender thread. -/
def Holds (p q : Party M N) : SenderHand → Prop
  | .segment seq data => seq.toNat + data.length ≤ p.socket.dataEnd
  | .ready seq data ack _ => seq.toNat + data.length ≤ p.socket.dataEnd ∧ p.Acks q ack
  | .waiting | .exited => True

/-- What `p` has sent, received and consumed fits the other end `q`. -/
structure Fits (p q : Party M N) : Prop where
  queue : p.socket.sock.sendBuffer.retransmitQueue.Only (p.Sends q)
  hand : p.Holds q p.socket.sender
  inbox : ∀ packet ∈ q.inbox, p.Sends q packet
  una : p.socket.sock.sendBuffer.una.toNat ≤ p.socket.dataEnd ∨ q.took = true
  heard : p.socket.sock.recvBuffer.Heard q.socket.dataEnd ∨ p.took = true
  took : p.took = true → SentFin q.socket ∧
    (p.socket.sock.state.HasTaken ∨ p.socket.sock.state = .closed)
  hasTaken : p.socket.sock.state.HasTaken → p.took = true
  finAcked : p.socket.sock.state.FinAcked → q.took = true

structure Grows (p p' : Party M N) : Prop where
  socket : RunningSocket.Grows p.socket p'.socket
  took : p.took = true → p'.took = true

theorem Grows.refl (p : Party M N) : Grows p p := ⟨.of_eq rfl rfl, id⟩

theorem Acks.mono {ack : UInt32} (h : p.Acks q ack) (hp : Grows p p') (hq : Grows q q') :
    p'.Acks q' ack :=
  h.imp (fun hle ↦ hle.trans hq.socket.dataEnd) hp.took

theorem Sends.mono {packet : Packet} (h : p.Sends q packet) (hp : Grows p p') (hq : Grows q q') :
    p'.Sends q' packet :=
  Fair.mono h hp.socket.dataEnd
    (fun hsent ↦ ⟨hp.socket.sentFin hsent, (hp.socket.finTaken hsent.finTaken).2⟩)
    fun _ hack ↦ hack.mono hp hq

theorem Holds.mono {hand : SenderHand} (h : p.Holds q hand) (hp : Grows p p') (hq : Grows q q') :
    p'.Holds q' hand := by
  cases hand with
  | segment => exact h.trans hp.socket.dataEnd
  | ready => exact ⟨h.1.trans hp.socket.dataEnd, h.2.mono hp hq⟩
  | waiting => trivial
  | exited => trivial

namespace Fits

/-- The other end acts. -/
theorem of_grows (h : Fits q p) (hp : Grows p p') (hinbox : p'.inbox = p.inbox) : Fits q p' where
  queue := h.queue.mono fun _ hs ↦ hs.mono (.refl q) hp
  hand := h.hand.mono (.refl q) hp
  inbox packet hpacket := (h.inbox packet (hinbox ▸ hpacket)).mono (.refl q) hp
  una := h.una.imp id hp.took
  heard := h.heard.imp (·.mono hp.socket.dataEnd) id
  took htook := ⟨hp.socket.sentFin (h.took htook).1, (h.took htook).2⟩
  hasTaken := h.hasTaken
  finAcked hacked := hp.took (h.finAcked hacked)

/-- The packets of `p` arrive at `q`'s end of the network. -/
theorem hears {packets : List Packet} (h : Fits p q)
    (hpackets : ∀ packet ∈ packets, p.Sends q packet) : Fits p (q.hears packets) where
  queue := h.queue
  hand := h.hand
  inbox packet hpacket := by
    rcases List.mem_append.mp hpacket with hold | hnew
    · exact h.inbox packet hold
    · exact hpackets packet hnew
  una := h.una
  heard := h.heard
  took := h.took
  hasTaken := h.hasTaken
  finAcked := h.finAcked

/-- A thread in its turn leaves what it has sent, received and consumed fitting. -/
theorem thread {l : SocketCall} {out : SocketReturn} {s' : RunningSocket M N} (h : Fits p q)
    (hnum : Numbered start p.socket) (hstands : Stands p.socket)
    (hsteps : Steps p.socket l out s') (hl : IsEvent l = false)
    (hturn : Orderly p.socket (.thread l)) (hgrows : RunningSocket.Grows p.socket s') :
    Fits { p with socket := s' } (q.hears (packetsOf out.actions)) := by
  have hp : Grows p { p with socket := s' } := ⟨hgrows, id⟩
  obtain ⟨huna, hnxt, hearly⟩ := hsteps.frame hl
  have hstate := hstands.state_of_thread hsteps hl hturn
  have hack : p.Acks q p.socket.sock.recvBuffer.nxt := h.heard.imp (·.nxt) id
  have hsends := hsteps.sends (P := Sends { p with socket := s' } q) hl
    (h.queue.mono fun _ hs ↦ hs.mono hp (.refl q)) ?_ ?_ ?_
  · refine hears ⟨hsends.1, ?_, ?_, ?_, ?_, ?_, ?_, ?_⟩ hsends.2
    · rcases hsteps.sender_cases with hsame | hwait | hexit | ⟨seq, data, hhand, hready⟩ |
        ⟨buffSize, seq, data, hseg, hclose, hsend⟩
      · simp only [hsame]
        exact h.hand.mono hp (.refl q)
      · simp only [hwait]
        trivial
      · simp only [hexit]
        trivial
      · have hold := h.hand.mono hp (.refl q)
        rw [hhand] at hold
        simp only [hready]
        exact ⟨hold, hack.mono hp (.refl q)⟩
      · simp only [hseg]
        obtain ⟨rfl, hlen, -, -, hnxt', -⟩ := hnum.ordered.sendReadyData hsend
        rcases SendBuffer.sendReadyData_cases hsend with ⟨-, hr, -⟩ | ⟨-, hpos, -⟩
        · cases hr
        have hcan := hnum.ordered.sizeCanSend_eq
        obtain ⟨-, htaken⟩ := hnum.finTaken_of_lt (by omega)
        simp only [Holds, dataEnd, hclose, htaken, hnxt']
        simp
    · exact fun packet hpacket ↦ (h.inbox packet hpacket).mono hp (.refl q)
    · simp only [huna]
      exact h.una.imp (fun hle ↦ hle.trans hgrows.dataEnd) id
    · exact h.heard.imp (·.of_eq hnxt hearly) id
    · intro htook
      obtain ⟨hsent, hpre⟩ := h.took htook
      refine ⟨hsent, ?_⟩
      rcases hstate with hsame | hclosed | ⟨hopen, -⟩ | ⟨-, hlast⟩
      · rw [hsame]
        exact hpre
      · exact .inr hclosed
      · rw [hopen] at hpre
        exact hpre.elim False.elim fun heq ↦ by cases heq
      · rw [hlast]
        exact .inl trivial
    · intro htaken
      rcases hstate with hsame | hclosed | ⟨-, hactive⟩ | ⟨hpassive, -⟩
      · exact h.hasTaken (hsame ▸ htaken)
      · rw [hclosed] at htaken
        exact htaken.elim
      · rw [hactive] at htaken
        exact htaken.elim
      · exact h.hasTaken (by rw [hpassive]; trivial)
    · intro hacked
      rcases hstate with hsame | hclosed | ⟨-, hactive⟩ | ⟨-, hlast⟩
      · exact h.finAcked (hsame ▸ hacked)
      · rw [hclosed] at hacked
        exact hacked.elim
      · rw [hactive] at hacked
        exact hacked.elim
      · rw [hlast] at hacked
        exact hacked.elim
  · intro seq data ack wnd hsender
    have hhand := h.hand.mono hp (.refl q)
    rw [hsender] at hhand
    exact .inl ⟨rfl, fun _ ↦ hhand.1, hhand.2⟩
  · intro timeout thread b seq data hzwp hb hclose
    obtain ⟨-, ⟨hnone, -⟩ | ⟨hlt, hnxt', x, z, -, hsome, -⟩⟩ := hnum.ordered.zwpStep hzwp
    · cases hnone
    obtain ⟨rfl, rfl⟩ := Prod.mk.inj (Option.some.inj hsome)
    obtain ⟨-, htaken⟩ := hnum.finTaken_of_lt hlt
    refine .inl ⟨rfl, fun _ ↦ ?_, hack.mono hp (.refl q)⟩
    simp [dataEnd, hclose, htaken, hb, hnxt', Packet.makeAckPacket]
  · intro next seq wnd hclose hsent
    refine .inr ⟨rfl, ?_, hsent⟩
    have htaken : p.socket.close.finTaken = true := by
      rw [hclose]
      rfl
    exact (hnum.fin next seq wnd hclose).trans (hgrows.finTaken htaken).2.symm

/-- What is sent to `q` does not matter to what `q` has sent. -/
theorem of_hears (h : Fits q p) (packets : List Packet) : Fits (q.hears packets) p :=
  ⟨h.queue, h.hand, h.inbox, h.una, h.heard, h.took, h.hasTaken, h.finAcked⟩

end Fits

section Deliver

variable {now : TimePoint} {seqNum ackNum : UInt32} {wndSize : UInt16} {payload : List Byte}
  {actions : List Action} {sock : NormalSocket M N}

/-- The party after its socket has handled an event. -/
def handled (p : Party M N) (sock : NormalSocket M N) : Party M N :=
  { p with socket := { p.socket with sock }, took := p.took || TakesFin sock.state }

theorem Grows.handled {event : Event} (hnum : Numbered start p.socket)
    (hhandle : p.socket.sock.eventHandler event now = .ok (actions, sock)) :
    Grows p (p.handled sock) :=
  ⟨(hnum.event hhandle).2, fun htook ↦ by simp [Party.handled, htook]⟩

/-- A segment of the other end that does not acknowledge the FIN too early. -/
theorem Fits.deliver_ack (h : Fits p q) (hnum : Numbered start p.socket)
    (hstands : Stands p.socket) (hend : q.socket.dataEnd < 2 ^ 32)
    (hdata : payload ≠ [] → seqNum.toNat + payload.length ≤ q.socket.dataEnd)
    (hacks : q.Acks p ackNum)
    (hhandle : p.socket.sock.eventHandler (.getAck seqNum ackNum wndSize payload) now =
      .ok (actions, sock)) :
    Fits (p.handled sock) (q.hears (packetsOf actions)) ∧
      ((p.handled sock).took = true → p.took = true) := by
  have hp : Grows p (p.handled sock) := .handled hnum hhandle
  obtain ⟨hsend, hrecv, hstate⟩ := NormalSocket.getAck_cases hstands.opened.2 hhandle
  have hwait := h.queue.mono fun _ hs ↦ hs.mono hp (.refl q)
  have huna : sock.sendBuffer.una.toNat ≤ p.socket.dataEnd ∨ q.took = true := by
    rcases hsend with heq | heq | heq <;> rw [heq]
    · exact h.una
    · rcases SendBuffer.una_onAck_cases p.socket.sock.sendBuffer ackNum wndSize.toUInt32 now with
        heq | heq <;> rw [heq]
      · exact h.una
      · exact hacks
    · rcases SendBuffer.una_onAck_cases p.socket.sock.sendBuffer ackNum wndSize.toUInt32 now with
        heq | heq <;> simp only [SendBuffer.shutdown, heq]
      · exact h.una
      · exact hacks
  -- What the answer acknowledges has been received, and is data unless the FIN is consumed.
  have hanswer : (sock.recvBuffer.Heard q.socket.dataEnd ∨ p.took = true) ∧
      ∀ packet ∈ packetsOf actions, (p.handled sock).Sends q packet := by
    rcases hrecv with ⟨hsame, hnone⟩ | ⟨r, hne, hrecv, hone⟩
    · exact ⟨h.heard.imp (·.of_shutdown hsame) id, by simp [hnone]⟩
    · have hheard : (sock.recvBuffer.Heard q.socket.dataEnd ∧ r.1 = sock.recvBuffer.nxt) ∨
          p.took = true := h.heard.imp (·.onRecv (hdata hne) hend hrecv) id
      have hack : p.Acks q r.1 := by
        rcases hheard with ⟨hle, hr⟩ | htook
        · exact .inl (hr ▸ hle.nxt)
        · exact .inr htook
      refine ⟨hheard.imp (·.1) id, fun packet hpacket ↦ ?_⟩
      rw [hone, List.mem_singleton] at hpacket
      rw [hpacket]
      exact .inl ⟨rfl, fun hnil ↦ absurd rfl hnil, hack.mono hp (.refl q)⟩
  have htaken : sock.state.HasTaken → p.took = true := by
    intro htaken
    rcases hstate with hsame | hclosed | ⟨-, hwait2, -⟩
    · exact h.hasTaken (hsame ▸ htaken)
    · rw [hclosed] at htaken
      exact htaken.elim
    · rw [hwait2] at htaken
      exact htaken.elim
  have htook : (p.handled sock).took = true → p.took = true := by
    intro htook
    rcases (Bool.or_eq_true _ _).mp htook with hold | hnew
    · exact hold
    · exact htaken (HasTaken.of_takesFin hnew)
  refine ⟨hears ⟨?_, h.hand.mono hp (.refl q), ?_, ?_, ?_, ?_, ?_, ?_⟩ hanswer.2, htook⟩
  · rcases hsend with heq | heq | heq <;> simp only [Party.handled, heq]
    · exact hwait
    · exact SendBuffer.only_onAck hwait _ _ _
    · exact SendBuffer.only_onAck hwait _ _ _
  · exact fun packet hmem ↦ (h.inbox packet hmem).mono hp (.refl q)
  · exact huna.imp (fun hle ↦ hle.trans hp.socket.dataEnd) id
  · exact hanswer.1.imp id hp.took
  · intro hpost
    obtain ⟨hsent, hpre⟩ := h.took (htook hpost)
    refine ⟨hsent, ?_⟩
    rcases hstate with hsame | hclosed | ⟨hwait1, -, -⟩
    · simpa only [Party.handled, hsame] using hpre
    · exact .inr hclosed
    · rw [hwait1] at hpre
      exact hpre.elim False.elim fun heq ↦ by cases heq
  · exact fun hpost ↦ hp.took (htaken hpost)
  · intro hacked
    rcases hstate with hsame | hclosed | ⟨hwait1, -, hall⟩
    · exact h.finAcked (hsame ▸ hacked)
    · simp only [Party.handled, hclosed] at hacked
      exact hacked.elim
    · -- All numbers are acknowledged, and the last of them is the FIN.
      have hsent := hstands.sentFin (by rw [hwait1]; exact id)
      have hlast := (hnum.dataEnd_of_sentFin hsent).1
      have hnxt := (NormalSocket.handles_of_eventHandler hhandle).nxt_nbw.1
      rw [hall, hnxt] at huna
      exact huna.resolve_left (by omega)

/-- The FIN of the other end is consumed by the sockets that wait for it. -/
theorem Fits.deliver_fin (h : Fits p q) (hnum : Numbered start p.socket)
    (hend : q.socket.dataEnd + 1 < 2 ^ 32) (hseq : seqNum.toNat = q.socket.dataEnd)
    (hsent : SentFin q.socket)
    (hhandle : p.socket.sock.eventHandler (.getFin seqNum wndSize) now = .ok (actions, sock)) :
    Fits (p.handled sock) (q.hears (packetsOf actions)) ∧
      (p.took = false → (p.handled sock).took = true →
        p.socket.sock.recvBuffer.nxt.toNat = q.socket.dataEnd) := by
  have hp : Grows p (p.handled sock) := .handled hnum hhandle
  have hwait := h.queue.mono fun _ hs ↦ hs.mono hp (.refl q)
  rcases NormalSocket.getFin_cases hhandle with ⟨rfl, hnone⟩ | ⟨hsend, hrecv, hone, hstate⟩
  · have htook : (p.handled p.socket.sock).took = p.took := by
      simp only [Party.handled, Bool.or_eq_left_iff_imp]
      exact fun hnew ↦ h.hasTaken (HasTaken.of_takesFin hnew)
    refine ⟨hears ⟨hwait, h.hand.mono hp (.refl q), ?_, h.una, ?_, ?_, ?_, h.finAcked⟩
      (by simp [hnone]), fun hnot hpost ↦ ?_⟩
    · exact fun packet hmem ↦ (h.inbox packet hmem).mono hp (.refl q)
    · exact h.heard.imp id hp.took
    · exact fun hpost ↦ h.took (htook ▸ hpost)
    · exact fun hpost ↦ hp.took (h.hasTaken hpost)
    · rw [htook, hnot] at hpost
      cases hpost
  have hctrl : (p.socket.sock.recvBuffer.onCtrl seqNum).1.1 =
      (p.socket.sock.recvBuffer.onCtrl seqNum).2.nxt := rfl
  have hanswer : (p.handled sock).Acks q (p.socket.sock.recvBuffer.onCtrl seqNum).1.1 →
      ∀ packet ∈ packetsOf actions, (p.handled sock).Sends q packet := by
    intro hack packet hpacket
    rw [hone, List.mem_singleton] at hpacket
    rw [hpacket]
    exact .inl ⟨rfl, fun hnil ↦ absurd rfl hnil, hack⟩
  have hsame : ∀ (hstate : sock.state = p.socket.sock.state)
      (hheard : sock.recvBuffer.Heard q.socket.dataEnd ∨ p.took = true)
      (hack : p.Acks q (p.socket.sock.recvBuffer.onCtrl seqNum).1.1),
      Fits (p.handled sock) (q.hears (packetsOf actions)) ∧
        (p.took = false → (p.handled sock).took = true →
          p.socket.sock.recvBuffer.nxt.toNat = q.socket.dataEnd) := by
    intro hstate hheard hack
    have htook : (p.handled sock).took = p.took := by
      simp only [Party.handled, hstate, Bool.or_eq_left_iff_imp]
      exact fun hnew ↦ h.hasTaken (HasTaken.of_takesFin hnew)
    refine ⟨hears ⟨?_, h.hand.mono hp (.refl q), ?_, ?_, ?_, ?_, ?_, ?_⟩
      (hanswer (hack.mono hp (.refl q))), fun hnot hpost ↦ ?_⟩
    · simp only [Party.handled, hsend]
      exact SendBuffer.only_onAck hwait _ _ _
    · exact fun packet hmem ↦ (h.inbox packet hmem).mono hp (.refl q)
    · simp only [Party.handled, hsend, SendBuffer.una_onAck_zero]
      exact h.una.imp (fun hle ↦ hle.trans hp.socket.dataEnd) id
    · exact hheard.imp id hp.took
    · intro hpost
      simpa only [Party.handled, hstate] using h.took (htook ▸ hpost)
    · exact fun hpost ↦ hp.took (h.hasTaken (hstate ▸ hpost))
    · exact fun hpost ↦ h.finAcked (hstate ▸ hpost)
    · rw [htook, hnot] at hpost
      cases hpost
  rcases hstate with ⟨hstate, htaken | hnot⟩ | ⟨hconsumed, hstate⟩
  · have htook := h.hasTaken htaken
    exact hsame hstate (.inr htook) (.inr htook)
  · have hne := RecvBuffer.ne_nxt_of_onCtrl hnot
    rw [RecvBuffer.onCtrl_of_ne hne] at hrecv
    refine hsame hstate (h.heard.imp (·.of_shutdown hrecv) id) ?_
    rw [RecvBuffer.onCtrl_of_ne hne]
    exact h.heard.imp (·.nxt) id
  · have htaken : sock.state.HasTaken ∧ TakesFin sock.state = true := by
      rcases hstate with ⟨-, hstate⟩ | ⟨-, hstate⟩ <;> rw [hstate] <;> exact ⟨trivial, rfl⟩
    have htook : (p.handled sock).took = true := by simp [Party.handled, htaken.2]
    refine ⟨hears ⟨?_, h.hand.mono hp (.refl q), ?_, ?_, .inr htook, ?_, fun _ ↦ htook, ?_⟩
      (hanswer (.inr htook)), fun hnot _ ↦ ?_⟩
    · simp only [Party.handled, hsend]
      exact SendBuffer.only_onAck hwait _ _ _
    · exact fun packet hmem ↦ (h.inbox packet hmem).mono hp (.refl q)
    · simp only [Party.handled, hsend, SendBuffer.una_onAck_zero]
      exact h.una.imp (fun hle ↦ hle.trans hp.socket.dataEnd) id
    · exact fun _ ↦ ⟨hsent, .inl htaken.1⟩
    · intro hacked
      rcases hstate with ⟨-, hstate⟩ | ⟨hwait2, -⟩
      · simp only [Party.handled, hstate] at hacked
        exact hacked.elim
      · exact h.finAcked (by rw [hwait2]; trivial)
    · have hle := h.heard.resolve_right (by simp [hnot])
      by_cases hne : seqNum = p.socket.sock.recvBuffer.nxt
      · rw [← hne, hseq]
      · -- RCV.NXT would be beyond the FIN before it is consumed.
        rw [RecvBuffer.onCtrl_of_ne hne] at hconsumed
        have hlast := hle.nxt
        simp only at hconsumed
        rw [hconsumed, UInt32.toNat_add_of_lt (by rw [UInt32.toNat_one]; omega),
          UInt32.toNat_one] at hlast
        omega

end Deliver

/-! ## Both ends -/

/-- Both ends keep their own numbers and states, what each has sent fits the other, and the
states are a pair of the table. -/
structure Agree (start start' : ℕ) (p q : Party M N) : Prop where
  numbers : Numbered start p.socket
  numbers' : Numbered start' q.socket
  stands : Stands p.socket
  stands' : Stands q.socket
  fits : Fits p q
  fits' : Fits q p
  compatible : compatible p.socket.sock.state q.socket.sock.state = true

namespace Agree

variable {start' : ℕ}

theorem symm (h : Agree start start' p q) : Agree start' start q p :=
  ⟨h.numbers', h.numbers, h.stands', h.stands, h.fits', h.fits,
    (compatible_comm _ _).trans h.compatible⟩

/-- One end acts in its turn: both agree afterwards.  If it consumes a FIN, it has received
everything that the other end has accepted. -/
theorem acts {call : PartyCall} {out : SocketReturn} (h : Agree start start' p q)
    (hacts : Acts p call out p') (hturn : Orderly p.socket call)
    (hwrap : start + p'.socket.accepted.length + 1 < 2 ^ 32) :
    Agree start start' p' (q.hears (packetsOf out.actions)) ∧
      (p.took = false → p'.took = true →
        p.socket.sock.recvBuffer.nxt.toNat = start' + q.socket.accepted.length) := by
  cases hacts with
  | thread l _ s' hl hsteps =>
      obtain ⟨hnum, hgrows⟩ := h.numbers.step h.stands hsteps hl hturn hwrap
      have hp : Grows p { p with socket := s' } := ⟨hgrows, id⟩
      refine ⟨⟨hnum, h.numbers', h.stands.step hsteps, h.stands',
        h.fits.thread h.numbers h.stands hsteps hl hturn hgrows,
        (h.fits'.of_grows hp rfl).of_hears _, ?_⟩, fun hnot hpost ↦ ?_⟩
      · have hpair := h.compatible
        rcases h.stands.state_of_thread hsteps hl hturn with hsame | hclosed |
          ⟨hopen, hactive⟩ | ⟨hpassive, hlast⟩
        · simpa only [hears_socket, hsame] using hpair
        · simp [hclosed, Tns.Tcp.compatible]
        · rw [hopen] at hpair
          simpa only [hears_socket, hactive] using compatible_finWait1 hpair
        · rw [hpassive] at hpair
          simpa only [hears_socket, hlast] using compatible_lastAck hpair
      · rw [show p.took = true from hpost] at hnot
        cases hnot
  | deliver packet now event actions sock hpacket hevent hhandle =>
      have hp : Grows p (p.handled sock) := .handled h.numbers hhandle
      have hend : q.socket.dataEnd < 2 ^ 32 :=
        (Nat.sub_le _ _).trans_lt q.socket.sock.sendBuffer.nxt.toNat_lt
      have hnum := (h.numbers.event hhandle).1
      have hstands : Stands { p.socket with sock } :=
        h.stands.step (.event event now actions sock hhandle)
      have hfits' : Fits (q.hears (packetsOf actions)) (p.handled sock) :=
        (h.fits'.of_grows hp rfl).of_hears _
      have hpair := h.compatible
      rcases h.fits'.inbox packet hpacket with ⟨hflags, hdata, hacks⟩ | ⟨hflags, hseq, hsent⟩
      · obtain rfl := fromPacket_of_ack hflags hevent
        obtain ⟨hfits, htook⟩ := h.fits.deliver_ack h.numbers h.stands hend hdata hacks hhandle
        refine ⟨⟨hnum, h.numbers', hstands, h.stands', hfits, hfits', ?_⟩, fun hnot hpost ↦ ?_⟩
        · obtain ⟨-, -, hsame | hclosed | ⟨hwait1, hwait2, -⟩⟩ :=
            NormalSocket.getAck_cases h.stands.opened.2 hhandle
          · simpa only [hears_socket, hsame] using hpair
          · simp [hclosed, Tns.Tcp.compatible]
          · have hother := hfits.finAcked (by simp only [Party.handled, hwait2]; trivial)
            rw [hwait1] at hpair
            simpa only [hears_socket, hwait2] using compatible_finWait2 hpair (hfits'.took hother).2
        · rw [htook hpost] at hnot
          cases hnot
      · obtain rfl := fromPacket_of_fin hflags hevent
        obtain ⟨hlast, hlen⟩ := h.numbers'.dataEnd_of_sentFin hsent
        have hend : q.socket.dataEnd + 1 < 2 ^ 32 := by
          rw [hlast]
          exact q.socket.sock.sendBuffer.nxt.toNat_lt
        obtain ⟨hfits, hall⟩ := h.fits.deliver_fin h.numbers hend hseq hsent hhandle
        refine ⟨⟨hnum, h.numbers', hstands, h.stands', hfits, hfits', ?_⟩, fun hnot hpost ↦ ?_⟩
        · have hafter := h.stands'.afterFin hsent
          rcases NormalSocket.getFin_cases hhandle with ⟨rfl, -⟩ | ⟨-, -, -, ⟨hsame, -⟩ |
            ⟨-, ⟨hopen, hpassive⟩ | ⟨hwait2, htime⟩⟩⟩
          · exact hpair
          · simpa only [hears_socket, hsame] using hpair
          · rw [hopen] at hpair
            simpa only [hears_socket, hpassive] using compatible_closeWait hpair hafter
          · rw [hwait2] at hpair
            simpa only [hears_socket, htime] using compatible_timeWait now hpair hafter
        · rw [hall hnot hpost, hlen]

/-- If both ends have closed before either has consumed the FIN of the other, an end that acts
does not get any further than FIN_WAIT_1. -/
theorem stuck {call : PartyCall} {out : SocketReturn} (h : Agree start start' p q)
    (hacts : Acts p call out p') (hturn : Orderly p.socket call)
    (hpost : Agree start start' p' (q.hears (packetsOf out.actions)))
    (hstate : p.socket.sock.state = .finWait1 ∨ p.socket.sock.state = .closed)
    (hp : p.took = false) (hq : q.took = false) :
    (p'.socket.sock.state = .finWait1 ∨ p'.socket.sock.state = .closed) ∧ p'.took = false := by
  have hnot : ∀ state : State, state = .finWait1 ∨ state = .closed → TakesFin state = false := by
    rintro state (rfl | rfl) <;> rfl
  cases hacts with
  | thread l _ s' hl hsteps =>
      refine ⟨?_, hp⟩
      rcases h.stands.state_of_thread hsteps hl hturn with hsame | hclosed | ⟨hopen, -⟩ |
        ⟨hpassive, -⟩
      · simpa only [hsame] using hstate
      · exact .inr hclosed
      · simp [hopen] at hstate
      · simp [hpassive] at hstate
  | deliver packet now event actions sock hpacket hevent hhandle =>
      have hstate' : sock.state = .finWait1 ∨ sock.state = .closed := by
        rcases h.fits'.inbox packet hpacket with ⟨hflags, -, -⟩ | ⟨hflags, -, -⟩
        · obtain rfl := fromPacket_of_ack hflags hevent
          obtain ⟨-, -, hsame | hclosed | ⟨-, hwait2, -⟩⟩ :=
            NormalSocket.getAck_cases h.stands.opened.2 hhandle
          · simpa only [hsame] using hstate
          · exact .inr hclosed
          · have htook := hpost.fits.finAcked (by simp only [hwait2]; trivial)
            rw [hears_took, hq] at htook
            cases htook
        · obtain rfl := fromPacket_of_fin hflags hevent
          rcases NormalSocket.getFin_cases hhandle with ⟨rfl, -⟩ | ⟨-, -, -, ⟨hsame, -⟩ |
            ⟨-, ⟨hopen, -⟩ | ⟨hwait2, -⟩⟩⟩
          · exact hstate
          · simpa only [hsame] using hstate
          · simp [hopen] at hstate
          · simp [hwait2] at hstate
      exact ⟨hstate', by simp [hp, hnot _ hstate']⟩

end Agree

/-- An end of a connection that has just been established: it numbers its bytes from `start`
on, and those of the other end from `start'` on. -/
structure Fresh (start start' : UInt32) (p : Party M N) : Prop where
  state : p.socket.sock.state = .established
  sane : p.socket.sock.sendBuffer.sanityCheckAtStart = true
  una : p.socket.sock.sendBuffer.una = start
  deque : p.socket.sock.sendBuffer.retransmitQueue.deque = []
  zwpEntry : p.socket.sock.sendBuffer.retransmitQueue.zwpEntry = none
  sender : p.socket.sender = .waiting
  close : p.socket.close = .idle
  accepted : p.socket.accepted = []
  nxt : p.socket.sock.recvBuffer.nxt = start'
  early : p.socket.sock.recvBuffer.earlyArrivals = {}
  inbox : p.inbox = []
  took : p.took = false

namespace Fresh

variable {i j : UInt32}

theorem pointers (h : Fresh i j p) :
    p.socket.sock.sendBuffer.nxt = i ∧ p.socket.sock.sendBuffer.nbw = i ∧
      p.socket.dataEnd = i.toNat := by
  have hsane := h.sane
  simp only [SendBuffer.sanityCheckAtStart, Bool.and_eq_true, beq_iff_eq] at hsane
  have hnxt : p.socket.sock.sendBuffer.nxt = i := hsane.1 ▸ h.una
  exact ⟨hnxt, hsane.2 ▸ hnxt, by simp [dataEnd, hnxt, h.close, CloseThread.finTaken]⟩

theorem numbers (h : Fresh i j p) : Numbered i.toNat p.socket := by
  obtain ⟨hnxt, hnbw, -⟩ := h.pointers
  refine ⟨⟨by rw [h.una, hnxt], by rw [hnxt, hnbw]⟩, ?_, fun _ ↦ by rw [hnxt, hnbw], ?_, ?_⟩
  · simp [hnbw, h.accepted, h.close, CloseThread.finTaken]
  · intro _ _ _ heq
    rw [h.close] at heq
    cases heq
  · intro _ _ _ heq
    rw [h.close] at heq
    cases heq

theorem stands (h : Fresh i j p) : Stands p.socket := by
  refine ⟨⟨fun _ ↦ ?_, ?_, ?_⟩, ?_, ?_⟩
  · rw [h.state]
    trivial
  · rw [h.close]
    nofun
  · rw [h.close]
    nofun
  · rw [h.state]
    exact ⟨nofun, nofun⟩
  · rw [h.close]
    nofun

theorem fits (h : Fresh i j p) (h' : Fresh j i q) : Fits p q := by
  obtain ⟨hnxt, hnbw, hend⟩ := h.pointers
  refine ⟨⟨by simp [h.deque], by simp [h.zwpEntry]⟩, ?_, by simp [h'.inbox], ?_, ?_, ?_, ?_, ?_⟩
  · rw [h.sender]
    trivial
  · rw [h.una, hend]
    exact .inl le_rfl
  · refine .inl ⟨?_, ?_, ?_⟩
    · rw [h.nxt, h'.pointers.2.2]
    · rw [h.early]
      exact Canonical.nil
    · simp [h.early]
  · simp [h.took]
  · rw [h.state]
    exact False.elim
  · rw [h.state]
    exact False.elim

theorem agree (h : Fresh i j p) (h' : Fresh j i q) : Agree i.toNat j.toNat p q := by
  refine ⟨h.numbers, h'.numbers, h.stands, h'.stands, h.fits h', h'.fits h, ?_⟩
  rw [h.state, h'.state]
  rfl

end Fresh

end Party

namespace Parties

open Party

variable {M N : ℕ} {c c₁ c' : Parties M N} {isn : Side → UInt32}

/-- Both ends of a connection that has just been established. -/
def Established (isn : Side → UInt32) (c : Parties M N) : Prop :=
  ∀ side, Fresh (isn side) (isn side.other) (c.party side)

/-- The party acts in its turn, and its numbers do not wrap. -/
def Orderly (isn : Side → UInt32) (t : Step M N) : Prop :=
  RunningSocket.Orderly (t.pre.party t.label.1).socket t.label.2 ∧
    ∀ side, (isn side).toNat + (t.post.party side).socket.accepted.length + 1 < 2 ^ 32

instance (isn : Side → UInt32) : DecidablePred (Orderly (M := M) (N := N) isn) := fun _ ↦
  @instDecidableAnd _ _ _ (decidable_of_iff' _ Side.forall_iff)

/-- What the two ends know of each other after a step. -/
structure Agreed (isn : Side → UInt32) (t : Step M N) : Prop where
  compatible : compatible t.post.here.socket.sock.state t.post.there.socket.sock.state = true
  finAcked : ∀ side, (t.post.party side).socket.sock.state.FinAcked →
    (t.post.party side.other).took = true
  took : ∀ side, (t.post.party side).took = true → SentFin (t.post.party side.other).socket
  complete : ∀ side, (t.pre.party side).took = false → (t.post.party side).took = true →
    (t.pre.party side).socket.sock.recvBuffer.nxt.toNat =
      (isn side.other).toNat + (t.pre.party side.other).socket.accepted.length

def Agree (isn : Side → UInt32) (c : Parties M N) : Prop :=
  ∀ side, Party.Agree (isn side).toNat (isn side.other).toNat (c.party side) (c.party side.other)

theorem Established.agree (h : Established isn c) : Agree isn c := by
  intro side
  cases side with
  | here => exact (h .here).agree (h .there)
  | there => exact (h .there).agree (h .here)

theorem agree_of_side (side : Side)
    (h : Party.Agree (isn side).toNat (isn side.other).toNat (c.party side) (c.party side.other)) :
    Agree isn c := by
  intro side'
  cases side <;> cases side'
  · exact h
  · exact h.symm
  · exact h.symm
  · exact h

theorem Agree.step {t : Step M N} (hfires : Fires Parties.step t) (h : Agree isn t.pre)
    (hturn : Orderly isn t) : Agree isn t.post ∧ Agreed isn t := by
  obtain ⟨c, ⟨side, call⟩, out, c'⟩ := t
  obtain ⟨hacts, hother⟩ := step_cases hfires
  obtain ⟨hpost, hall⟩ := (h side).acts hacts hturn.1 (hturn.2 side)
  have hagree : Agree isn c' := by
    apply agree_of_side side
    rw [hother]
    exact hpost
  refine ⟨hagree, (hagree .here).compatible, fun side' ↦ (hagree side').fits.finAcked,
    fun side' htook ↦ ((hagree side').fits.took htook).1, fun side' hnot hpost' ↦ ?_⟩
  by_cases hside : side' = side
  · subst hside
    exact hall hnot hpost'
  · obtain rfl : side' = side.other := by cases side <;> cases side' <;> simp_all [Side.other]
    simp only [hother, hears_took] at hpost'
    rw [hnot] at hpost'
    cases hpost'

/-- In every run of two ends that are closed in turn, whatever the network does with the
packets, the states are a pair of the table; an end whose FIN is acknowledged has been heard;
and an end consumes a FIN only once the other has sent it and everything before has arrived. -/
theorem agreed_of_run (hstart : Established isn c) {tr : List (Step M N)}
    (h : Trace step c tr c') (hturn : ∀ t ∈ tr, Orderly isn t) : ∀ t ∈ tr, Agreed isn t := by
  obtain ⟨-, hall⟩ := Trace.invariant (I := Agree isn) (A := Orderly isn)
    (fun t hfires hI hok ↦ (hI.step hfires hok).1) h hstart.agree hturn
  exact fun t ht ↦ ((hall t ht).1.step (h.fires t ht) (hturn t ht)).2

def exampleParty : Party 8 8 :=
  { socket := { sock := { NormalSocket.init (Vector.replicate 8 0) (Vector.replicate 8 0) 0 8 0 with
      state := .established } } }

theorem exampleParty_established :
    Established (fun _ ↦ 0) ({ here := exampleParty, there := exampleParty } : Parties 8 8) := by
  intro side
  cases side <;> exact ⟨rfl, by decide, rfl, rfl, rfl, rfl, rfl, rfl, rfl, rfl, rfl, rfl⟩

/-- The FIN overtakes the byte before it and is ignored, and consumed when it arrives again. -/
theorem agreed_of_run_overtakenFin :
    ∃ (c c' : Parties 8 8) (tr : List (Step 8 8)), Trace step c tr c' ∧
      c'.here.socket.sock.state = .timeWait 0 ∧ c'.there.socket.sock.state = .closed ∧
        ∀ t ∈ tr, Agreed (fun _ ↦ 0) t := by
  have hrun : ∃ tr c', Trace step ⟨exampleParty, exampleParty⟩ tr c' ∧
      c'.here.socket.sock.state = .timeWait 0 ∧ c'.there.socket.sock.state = .closed ∧
      ∀ t ∈ tr, Orderly (fun _ ↦ 0) t :=
    ⟨_, _, .cons (l := (.here, .thread (.vSend [7]))) rfl
      (.cons (l := (.here, .thread (.sendReadyData 4))) rfl
      (.cons (l := (.here, .thread .getAckWnd)) rfl
      (.cons (l := (.here, .thread (.sendSegment 0))) rfl
      (.cons (l := (.here, .thread .vClose)) rfl
      (.cons (l := (.here, .thread .getNxt)) rfl
      (.cons (l := (.here, .thread .writeAndSendOne)) rfl
      (.cons (l := (.here, .thread (.sendFin 0))) rfl
      (.cons (l := (.there, .deliver (.makeFinPacket 1 8) 0)) rfl
      (.cons (l := (.there, .deliver (.makeAckPacket 0 0 8 [7]) 0)) rfl
      (.cons (l := (.there, .deliver (.makeFinPacket 1 8) 0)) rfl
      (.cons (l := (.here, .deliver (.makeAckPacket 0 2 6) 0)) rfl
      (.cons (l := (.there, .thread .vClose)) rfl
      (.cons (l := (.there, .thread .getNxt)) rfl
      (.cons (l := (.there, .thread .writeAndSendOne)) rfl
      (.cons (l := (.there, .thread (.sendFin 0))) rfl
      (.cons (l := (.here, .deliver (.makeFinPacket 0 6) 0)) rfl
      (.cons (l := (.there, .deliver (.makeAckPacket 2 1 7) 0)) rfl (.nil _)))))))))))))))))),
      by decide, by decide, by decide⟩
  obtain ⟨tr, c', htrace, hhere, hthere, hturn⟩ := hrun
  exact ⟨_, c', tr, htrace, hhere, hthere, agreed_of_run exampleParty_established htrace hturn⟩

/-- Both have closed, and neither has consumed the FIN of the other. -/
def BothWait (c : Parties M N) : Prop :=
  ∀ side, ((c.party side).socket.sock.state = .finWait1 ∨
    (c.party side).socket.sock.state = .closed) ∧ (c.party side).took = false

theorem BothWait.step {t : Step M N} (hfires : Fires Parties.step t) (hagree : Agree isn t.pre)
    (hturn : Orderly isn t) (h : BothWait t.pre) : BothWait t.post := by
  obtain ⟨c, ⟨side, call⟩, out, c'⟩ := t
  obtain ⟨hacts, hother⟩ := step_cases hfires
  obtain ⟨hpost, -⟩ := (hagree side).acts hacts hturn.1 (hturn.2 side)
  have hside := (hagree side).stuck hacts hturn.1 hpost (h side).1 (h side).2 (h side.other).2
  intro side'
  by_cases heq : side' = side
  · rw [heq]
    exact hside
  · obtain rfl : side' = side.other := by cases side <;> cases side' <;> simp_all [Side.other]
    simp only [hother, hears_socket, hears_took]
    exact h side.other

/-- If both ends close at the same time, neither gets further than FIN_WAIT_1: no later step
brings either to another state than CLOSED. -/
theorem bothWait_of_run (hstart : Established isn c) {tr tr' : List (Step M N)}
    (h : Trace step c tr c₁) (h' : Trace step c₁ tr' c') (hturn : ∀ t ∈ tr ++ tr', Orderly isn t)
    (hboth : ∀ side, (c₁.party side).socket.sock.state = .finWait1) :
    ∀ t ∈ tr', ∀ side, (t.post.party side).socket.sock.state = .finWait1 ∨
      (t.post.party side).socket.sock.state = .closed := by
  have hagree : Agree isn c₁ := (Trace.invariant (A := Orderly isn)
    (fun t hfires hI hok ↦ (Agree.step hfires hI hok).1) h hstart.agree
    fun t ht ↦ hturn t (List.mem_append_left _ ht)).1
  have hwait : BothWait c₁ := by
    intro side
    refine ⟨.inl (hboth side), ?_⟩
    by_contra htook
    have htaken := ((hagree side).fits.took (by simpa using htook)).2
    rw [hboth side] at htaken
    exact htaken.elim False.elim nofun
  obtain ⟨-, hall⟩ := Trace.invariant (I := fun c ↦ Agree isn c ∧ BothWait c) (A := Orderly isn)
    (fun t hfires hI hok ↦ ⟨(hI.1.step hfires hok).1, hI.2.step hfires hI.1 hok⟩) h'
    ⟨hagree, hwait⟩ fun t ht ↦ hturn t (List.mem_append_right _ ht)
  exact fun t ht side ↦ ((hall t ht).2.2 side).1

/-- Each FIN arrives at an end that waits already, twice at one, and the other gives up. -/
theorem bothWait_of_run_aborted :
    ∃ (c c₁ c' : Parties 8 8) (tr tr' : List (Step 8 8)), Trace step c tr c₁ ∧
      Trace step c₁ tr' c' ∧ tr'.length = 4 ∧ c'.there.socket.sock.state = .closed ∧
        ∀ t ∈ tr', ∀ side, (t.post.party side).socket.sock.state = .finWait1 ∨
          (t.post.party side).socket.sock.state = .closed := by
  have hrun : ∃ tr tr' c₁ c', Trace step ⟨exampleParty, exampleParty⟩ tr c₁ ∧
      Trace step c₁ tr' c' ∧ tr'.length = 4 ∧ c'.there.socket.sock.state = .closed ∧
      (∀ side, (c₁.party side).socket.sock.state = .finWait1) ∧
      ∀ t ∈ tr ++ tr', Orderly (fun _ ↦ 0) t :=
    ⟨_, _, _, _, .cons (l := (.here, .thread .vClose)) rfl
      (.cons (l := (.there, .thread .vClose)) rfl
      (.cons (l := (.here, .thread .getNxt)) rfl
      (.cons (l := (.there, .thread .getNxt)) rfl
      (.cons (l := (.here, .thread .writeAndSendOne)) rfl
      (.cons (l := (.there, .thread .writeAndSendOne)) rfl
      (.cons (l := (.here, .thread (.sendFin 0))) rfl
      (.cons (l := (.there, .thread (.sendFin 0))) rfl (.nil _)))))))),
      .cons (l := (.here, .deliver (.makeFinPacket 0 8) 0)) rfl
      (.cons (l := (.there, .deliver (.makeFinPacket 0 8) 0)) rfl
      (.cons (l := (.here, .deliver (.makeFinPacket 0 8) 0)) rfl
      (.cons (l := (.there, .thread .vAbort)) rfl (.nil _)))),
      by decide, by decide, Side.forall_iff.mpr ⟨by decide, by decide⟩, by decide⟩
  obtain ⟨tr, tr', c₁, c', htrace, htrace', hlen, hthere, hboth, hturn⟩ := hrun
  exact ⟨_, c₁, c', tr, tr', htrace, htrace', hlen, hthere,
    bothWait_of_run exampleParty_established htrace htrace' hturn hboth⟩

end Parties

end Tns.Tcp
