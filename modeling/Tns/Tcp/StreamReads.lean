import Tns.Tcp.ReadableData
import Tns.Tcp.ReceiveSequence
import Tns.Tcp.RemoteFin

/-!
# Reading a stream

What one call of `vRecv` returns in the states a reader of a whole stream meets,
and what one byte in order, or the FIN behind it, does to the socket.
-/

namespace Tns.Tcp

open Tns.Library Tns.Library.Cyclic

variable {M N : ℕ}

namespace RecvBuffer

variable {b b' : RecvBuffer N} {n : ℕ} {P : ℕ → Byte → Prop}

theorem unread_eq_nil : b.unread = [] ↔ b.sizeToRead = 0 := by
  rw [← length_unread, List.length_eq_zero_iff]

theorem exists_readAtMostNBytes (hn : n ≠ 0) (hrun : b.stopped = false)
    (hring : b.sizeToRead ≤ N) (hne : b.unread ≠ []) :
    ∃ b', b.readAtMostNBytes n n = .ok (.ok (b.unread.take n), b') ∧ b'.stopped = false ∧
      b'.sizeToRead = b.sizeToRead - n := by
  have hpos : 0 < b.sizeToRead := Nat.pos_of_ne_zero (mt unread_eq_nil.mpr hne)
  have hlast : sizeSub (b.nbr.toNat + min n b.sizeToRead) 1 =
      b.nbr.toNat + min n b.sizeToRead - 1 := sizeSub_of_le (by omega)
  obtain ⟨data, hread, hlen, -⟩ := RingBuffer.read_cells b.toRingBuffer n b.nbr.toNat
    (b.nbr.toNat + min n b.sizeToRead - 1) (by omega) (by omega)
  replace hlen : data.length = min n b.sizeToRead := by omega
  have hok := readAtMostNBytes_of_read hn hrun hpos (by rw [hlast]; exact hread) hlen
  have hdata : data = b.unread.take n := by
    rw [readAtMostNBytes_unread hring hok, hlen, List.take_eq_take_iff, length_unread]
    omega
  refine ⟨{ b with nbr := b.nbr + UInt32.ofNat data.length }, by rw [← hdata, hok], hrun, ?_⟩
  have hlt := b.nxt.toNat_lt
  have hlt' := b.nbr.toNat_lt
  simp only [sizeToRead, UInt32.toNat_sub, UInt32.toNat_add, UInt32.toNat_ofNat'] at hlen hpos ⊢
  omega

theorem readAtMostNBytes_blocks (hn : n ≠ 0) (hrun : b.stopped = false) (hnil : b.unread = []) :
    b.readAtMostNBytes n n = .error .blocks := by
  rw [unread_eq_nil] at hnil
  simp [readAtMostNBytes, hn, hrun, hnil, Exec.waitUntil]

theorem exists_unread_append (h : Inv P b) (hnbr : b'.nbr = b.nbr) (hle : b.nxt ≤ b'.nxt)
    (hcell : ∀ k, b.nbr.toNat ≤ k → k < b.nxt.toNat → cell b'.buf k = cell b.buf k) :
    ∃ chunk, b'.unread = b.unread ++ chunk := by
  have hsize : b.sizeToRead ≤ b'.sizeToRead := by
    have hnxt := h.nbr_le_nxt
    have hle' := UInt32.le_iff_toNat_le.mp hle
    rw [sizeToRead, sizeToRead, hnbr, UInt32.toNat_sub_of_le _ _ (UInt32.le_iff_toNat_le.mpr hnxt),
      UInt32.toNat_sub_of_le _ _ (UInt32.le_iff_toNat_le.mpr (hnxt.trans hle'))]
    omega
  have htake : b'.unread.take b.sizeToRead = b.unread := by
    rw [unread, ← List.map_take, List.take_range, min_eq_left hsize, unread]
    apply List.map_congr_left
    intro i hi
    rw [List.mem_range, h.sizeToRead_eq] at hi
    have heq := hcell (b.nbr.toNat + i) (Nat.le_add_right _ _) (by omega)
    rw [hnbr]
    exact congrArg (Option.getD · 0) heq
  exact ⟨b'.unread.drop b.sizeToRead, by rw [← htake, List.take_append_drop]⟩

/-- A segment is stored behind RCV.NXT, so the cells of the readable data keep their bytes. -/
theorem cell_onRecv {seqNum : UInt32} {payload : List Byte} {r : UInt32 × ℕ} {k : ℕ} (h : Inv P b)
    (hrecv : b.onRecv seqNum payload = .ok (r, b')) (hnbr : b.nbr.toNat ≤ k)
    (hnxt : k < b.nxt.toNat) : cell b'.buf k = cell b.buf k := by
  have hN := h.nxt_le
  have hkeep : ∀ {data : List Byte} {lo n : ℕ} {rb : RingBuffer Byte N},
      b.toRingBuffer.write data lo (sizeSub (b.nbr.toNat + N) 1) = .ok (n, rb) →
      b.nxt.toNat ≤ lo → cell rb.buf k = cell b.buf k := by
    intro data lo n rb hwrite hlo
    rw [b.write_last (by omega)] at hwrite
    rw [RingBuffer.write_window hwrite (by omega : b.nbr.toNat ≤ lo) (by omega) hnbr (by omega),
      if_neg (by omega)]
  obtain ⟨-, ⟨rb, hlt, hwrite, -, rfl⟩ | ⟨n, rb, I, e, early, hlt, hwrite, -, -, -, -, rfl⟩ |
    ⟨-, -, -, rfl⟩ | ⟨rb, -, -, hwrite, -, rfl⟩ |
    ⟨n, rb, I, nxt, early, -, -, hwrite, -, -, -, -, rfl⟩⟩ := onRecv_cases hrecv
  · exact hkeep hwrite (UInt32.lt_iff_toNat_lt.mp hlt).le
  · exact hkeep hwrite (UInt32.lt_iff_toNat_lt.mp hlt).le
  · rfl
  · exact hkeep hwrite le_rfl
  · exact hkeep hwrite le_rfl

/-- A segment that is old, or begins where the readable data ends or later, only adds to it. -/
theorem Inv.exists_unread_onRecv {seqNum : UInt32} {payload : List Byte} {r : UInt32 × ℕ}
    (h : Inv (fun _ _ ↦ True) b) (hend : seqNum.toNat + payload.length < 2 ^ 32)
    (hseg : seqNum.toNat + payload.length ≤ b.nxt.toNat ∨ b.nxt.toNat ≤ seqNum.toNat)
    (hrecv : b.onRecv seqNum payload = .ok (r, b')) :
    b'.sizeToRead ≤ N ∧ ∃ chunk, b'.unread = b.unread ++ chunk := by
  have hadm : Admits (fun _ _ ↦ True) seqNum payload := ⟨hend, fun _ _ ↦ trivial⟩
  have hgrows : Inv (fun _ _ ↦ True) b' ∧ b'.nbr = b.nbr ∧ b.nxt ≤ b'.nxt := by
    by_cases hext : b.Extends seqNum payload.length
    · obtain ⟨hinv, hnbr, -, -, hge, -⟩ := h.onRecv_of_extends hadm hrecv hext
      have hle : b.nxt.toNat ≤ b'.nxt.toNat := by
        have hnew := hext.2.1
        omega
      exact ⟨hinv (h.nbr_le_nxt.trans hle), hnbr, UInt32.le_iff_toNat_le.mpr hle⟩
    · obtain ⟨hinv, hnbr, hnxt, -⟩ := h.onRecv_of_not_extends hadm hrecv hext
      exact ⟨hinv, hnbr, hnxt.ge⟩
  obtain ⟨hinv, hnbr, hle⟩ := hgrows
  exact ⟨hinv.sizeToRead_le, exists_unread_append h hnbr hle fun k ↦ cell_onRecv h hrecv⟩

/-- One byte in order, at a buffer that is empty. -/
theorem exists_onRecv_byte (hN : 2 ≤ N) (h : b.Sound)
    (hearly : ∀ x, x ∉ Library.cover b.earlyArrivals.intervals) (hnbr : b.nbr = b.nxt)
    (hroom : b.nxt.toNat + 3 < 2 ^ 32) (x : Byte) :
    ∃ r b', b.onRecv b.nxt [x] = .ok (r, b') ∧ b'.Sound ∧ b'.stopped = b.stopped ∧
      (∀ y, y ∉ Library.cover b'.earlyArrivals.intervals) ∧ b'.nbr = b.nbr ∧
      b'.nxt.toNat = b.nxt.toNat + 1 := by
  have hoff : (b.nxt - b.nxt).toNat = 0 := by simp
  have hnew : (b.nxt - b.nxt).toNat < [x].length := by
    rw [hoff]
    exact Nat.one_pos
  have hend : b.nxt.toNat + [x].length + 2 < 2 ^ 32 := by
    rw [List.length_singleton]
    omega
  obtain ⟨n, b', hwrite, htakes, hrecv⟩ :=
    h.exists_onRecv_inOrder (by omega) (List.cons_ne_nil x []) le_rfl hnew hend
  have hn : n = 1 := by
    have hsize := RingBuffer.write_size hwrite
    rw [hoff, List.drop_zero, List.length_singleton, RingBuffer.writeSize, hnbr,
      if_neg (by omega)] at hsize
    omega
  subst hn
  obtain ⟨hge, hbetween, -, hearly'⟩ := htakes.inOrder le_rfl Nat.one_pos
  have hnxt : b'.nxt.toNat = b.nxt.toNat + 1 := by
    by_contra hne
    have hofNat : (UInt32.ofNat (b.nxt.toNat + 1)).toNat = b.nxt.toNat + 1 :=
      UInt32.toNat_ofNat_of_lt (by omega)
    refine hearly _ (hbetween (UInt32.ofNat (b.nxt.toNat + 1)) hofNat.ge ?_)
    rw [UInt32.lt_iff_toNat_lt, hofNat]
    omega
  refine ⟨_, b', hrecv, ?_, htakes.stopped, fun y hy ↦ hearly y ((hearly' y).mp hy).1, htakes.nbr,
    hnxt⟩
  refine h.onRecv hend ?_ hrecv htakes le_rfl
  rintro ⟨-, hlt⟩
  rw [hnbr] at hlt
  omega

end RecvBuffer

namespace NormalSocket

variable {s : NormalSocket M N} {n : ℕ}

theorem exists_vRecv (hstate : s.state = .established) (hn : n ≠ 0)
    (hrun : s.recvBuffer.stopped = false) (hring : s.recvBuffer.sizeToRead ≤ N)
    (hne : s.recvBuffer.unread ≠ []) :
    ∃ sock, s.vRecv n n = .ok (.ok (s.recvBuffer.unread.take n), sock) ∧
      sock.state = .established ∧ sock.recvBuffer.stopped = false ∧
      sock.recvBuffer.sizeToRead = s.recvBuffer.sizeToRead - n := by
  obtain ⟨b, hread, hstop, hsize⟩ := RecvBuffer.exists_readAtMostNBytes hn hrun hring hne
  refine ⟨{ s with recvBuffer := b }, ?_, hstate, hstop, hsize⟩
  simp only [vRecv, hstate, hread, Exec.ok_bind]
  rfl

theorem vRecv_blocks (hstate : s.state = .established) (hn : n ≠ 0)
    (hrun : s.recvBuffer.stopped = false) (hnil : s.recvBuffer.unread = []) :
    s.vRecv n n = .error .blocks := by
  simp only [vRecv, hstate, RecvBuffer.readAtMostNBytes_blocks hn hrun hnil, Exec.error_bind]

theorem vRecv_closeWait (hstate : s.state = .closeWait) (hn : n ≠ 0)
    (hstop : s.recvBuffer.stopped = true) : s.vRecv n n = .ok (.error .closing, s) := by
  obtain ⟨state, sendBuffer, recvBuffer⟩ := s
  obtain rfl : state = .closeWait := hstate
  simp only at hstop
  simp only [vRecv]
  split <;> simp [RecvBuffer.readAtMostNBytes, hn, hstop, Exec.waitUntil, pure, Except.pure]

theorem vRecv_closed (hstate : s.state = .closed) :
    s.vRecv n n = .ok (.error .connNotExist, s) := by
  simp only [vRecv, hstate]

theorem vRecv_zero (hstate : s.state = .established) : s.vRecv 0 0 = .ok (.ok [], s) := by
  obtain ⟨state, sendBuffer, recvBuffer⟩ := s
  obtain rfl : state = .established := hstate
  rfl

/-- The FIN's number counts as readable. -/
theorem vRecv_zero_closeWait (hstate : s.state = .closeWait) (hpos : s.recvBuffer.sizeToRead ≠ 0) :
    s.vRecv 0 0 = .ok (.ok [], s) := by
  obtain ⟨state, sendBuffer, recvBuffer⟩ := s
  obtain rfl : state = .closeWait := hstate
  exact if_pos hpos

theorem exists_eventHandler {seqNum : UInt32} {payload : List Byte} {r : UInt32 × ℕ}
    {b : RecvBuffer N} (hstate : s.state = .established) (hne : payload ≠ [])
    (hrecv : s.recvBuffer.onRecv seqNum payload = .ok (r, b)) :
    ∃ actions sock, s.eventHandler (.getAck seqNum 0 0 payload) 0 = .ok (actions, sock) ∧
      sock.state = .established ∧ sock.recvBuffer = b := by
  have hok : s.processAck seqNum 0 0 payload 0 =
      .ok ([.sendPacket (.makeAckPacket (s.sendBuffer.onAck 0 (0 : UInt16).toUInt32 0).1.2 r.1
          (UInt16.ofNat r.2))],
        { s with
          sendBuffer := (s.sendBuffer.onAck 0 (0 : UInt16).toUInt32 0).2.2, recvBuffer := b }) := by
    simp only [processAck, ne_eq, hne, not_false_eq_true, if_true, hrecv, Exec.ok_bind]
    rfl
  have hhandler : s.eventHandler (.getAck seqNum 0 0 payload) 0 =
      s.processAck seqNum 0 0 payload 0 := by
    simp only [eventHandler, hstate, handleEstablishedGetAck]
  exact ⟨_, _, hhandler.trans hok, hstate, rfl⟩

theorem exists_getFin (hstate : s.state = .established) :
    ∃ actions sock, s.eventHandler (.getFin s.recvBuffer.nxt 0) 0 = .ok (actions, sock) ∧
      sock.state = .closeWait ∧
      sock.recvBuffer = { s.recvBuffer with nxt := s.recvBuffer.nxt + 1, stopped := true } := by
  have hctrl : s.recvBuffer.onCtrl s.recvBuffer.nxt =
      ((s.recvBuffer.nxt + 1, { s.recvBuffer with nxt := s.recvBuffer.nxt + 1 }.sizeFree),
        { s.recvBuffer with nxt := s.recvBuffer.nxt + 1 }) := by
    rw [RecvBuffer.onCtrl, if_pos rfl]
  have hhandler : s.eventHandler (.getFin s.recvBuffer.nxt 0) 0 =
      s.handleEstablishedGetFin s.recvBuffer.nxt 0 0 := by
    simp only [eventHandler, hstate]
  have hack : (s.processFin s.recvBuffer.nxt 0 0).1 = s.recvBuffer.nxt + 1 := by
    simp only [processFin, hctrl]
  rw [hhandler, handleEstablishedGetFin_eq, if_pos hack]
  refine ⟨_, _, rfl, rfl, ?_⟩
  simp only [setState_recvBuffer, shutdownRecv, processFin, hctrl]
  rfl

/-- Everything that an event can do in ESTABLISHED, as far as a reader sees it. -/
theorem eventHandler_established {event : Event} {now : TimePoint} {actions : List Action}
    {s' : NormalSocket M N} (hstate : s.state = .established)
    (h : s.eventHandler event now = .ok (actions, s')) :
    s'.state = .closeWait ∨ s'.state = .established ∧ (s'.recvBuffer = s.recvBuffer ∨
      ∃ seqNum ackNum wndSize payload r, event = .getAck seqNum ackNum wndSize payload ∧
        s.recvBuffer.onRecv seqNum payload = .ok (r, s'.recvBuffer)) := by
  have hfin : ∀ seqNum wndSize,
      s.handleEstablishedGetFin seqNum wndSize now = .ok (actions, s') →
      s'.state = .closeWait ∨ s'.state = .established ∧ s'.recvBuffer = s.recvBuffer := by
    intro seqNum wndSize hfin
    rw [handleEstablishedGetFin_eq] at hfin
    obtain ⟨-, rfl⟩ := Prod.mk.inj (Except.ok.inj hfin)
    split
    · exact .inl rfl
    · rename_i hack
      refine .inr ⟨hstate, ?_⟩
      have hne : seqNum ≠ s.recvBuffer.nxt := by
        rintro rfl
        rw [processFin, RecvBuffer.onCtrl, if_pos rfl] at hack
        exact hack rfl
      rw [processFin, RecvBuffer.onCtrl_of_ne hne]
  cases event with
  | getSyn clientISN clientWND =>
      simp only [eventHandler, hstate, Except.ok.injEq, Prod.mk.injEq] at h
      exact .inr ⟨h.2 ▸ hstate, .inl (by rw [← h.2])⟩
  | getSynAck serverISN ackNum serverWND =>
      simp only [eventHandler, hstate, handleEstablishedGetSynAck, Except.ok.injEq,
        Prod.mk.injEq] at h
      obtain ⟨-, rfl⟩ := h
      exact .inr ⟨rfl, .inl rfl⟩
  | getAck seqNum ackNum wndSize payload =>
      simp only [eventHandler, hstate, handleEstablishedGetAck] at h
      rcases processAck_cases h with ⟨-, -, rfl⟩ | ⟨r, recvBuffer, hrecv, -, rfl⟩
      · exact .inr ⟨hstate, .inl rfl⟩
      · exact .inr ⟨hstate, .inr ⟨seqNum, ackNum, wndSize, payload, r, rfl, hrecv⟩⟩
  | getFin seqNum wndSize =>
      simp only [eventHandler, hstate] at h
      exact (hfin seqNum wndSize h).imp_right fun hopen ↦ ⟨hopen.1, .inl hopen.2⟩
  | getFinAck seqNum ackNum wndSize =>
      simp only [eventHandler, hstate, handleEstablishedGetFinAck] at h
      exact (hfin seqNum wndSize h).imp_right fun hopen ↦ ⟨hopen.1, .inl hopen.2⟩

end NormalSocket

namespace RunningSocket

variable {s s' : RunningSocket M N}

/-- A step that is not the reader's, of a socket that nobody closes, adds to what is unread, or
ends the connection. -/
theorem Steps.cases_of_established {l : SocketCall} {out : SocketReturn} (h : Steps s l out s')
    (hinv : s.sock.recvBuffer.Inv fun _ _ ↦ True) (hstate : s.sock.state = .established)
    (hclose : s.close = .idle) (hseg : SegmentInDomain s.sock.recvBuffer.nxt l)
    (hrecv : ∀ buffSize n, l ≠ .vRecv buffSize n) (hvClose : l ≠ .vClose) :
    s'.sock.state = .closed ∨
      ((∃ event now, l = .event event now) ∧ s'.sock.state = .closeWait) ∨
      s'.sock.state = .established ∧ s'.sock.recvBuffer.sizeToRead ≤ N ∧
        ∃ chunk, s'.sock.recvBuffer.unread = s.sock.recvBuffer.unread ++ chunk := by
  have hsame : ∃ chunk, s.sock.recvBuffer.unread = s.sock.recvBuffer.unread ++ chunk :=
    ⟨[], (List.append_nil _).symm⟩
  cases h with
  | refuseRecv buffSize n => exact absurd rfl (hrecv buffSize n)
  | vRecv buffSize n => exact absurd rfl (hrecv buffSize n)
  | vCloseAtOnce => exact absurd rfl hvClose
  | vClose => exact absurd rfl hvClose
  | sendFin _ _ _ _ _ _ htaken =>
      rw [hclose] at htaken
      cases htaken
  | event event now actions sock hevent =>
      rcases NormalSocket.eventHandler_established hstate hevent with hwait | ⟨hopen, heq | hdata⟩
      · exact .inr (.inl ⟨⟨event, now, rfl⟩, hwait⟩)
      · refine .inr (.inr ⟨hopen, ?_⟩)
        simp only [heq]
        exact ⟨hinv.sizeToRead_le, hsame⟩
      · obtain ⟨seqNum, ackNum, wndSize, payload, r, rfl, hdata⟩ := hdata
        exact .inr (.inr ⟨hopen, hinv.exists_unread_onRecv hseg.1 hseg.2 hdata⟩)
  | retransmit edge now =>
      obtain ⟨q, -, heq | ⟨result, heq⟩⟩ := s.sock.retransmitExpired_cases edge now <;> rw [heq]
      · exact .inr (.inr ⟨hstate, hinv.sizeToRead_le, hsame⟩)
      · exact .inl rfl
  | vAbort => exact .inl s.sock.vAbort_state
  | _ => exact .inr (.inr ⟨hstate, hinv.sizeToRead_le, hsame⟩)

/-- What shuts the receive buffer down also leaves ESTABLISHED. -/
theorem Steps.stopped_of_established {l : SocketCall} {out : SocketReturn} (h : Steps s l out s')
    (hrun : s.sock.recvBuffer.stopped = false) (hpost : s'.sock.state = .established) :
    s'.sock.recvBuffer.stopped = false := by
  cases h with
  | vRecv _ _ _ b _ hread =>
      rcases RecvBuffer.readAtMostNBytes_cases hread with ⟨-, -, rfl⟩ | ⟨-, hstop, -⟩ |
        ⟨-, -, -, data, -, -, -, rfl⟩
      · exact hrun
      · rw [hrun] at hstop
        cases hstop
      · exact hrun
  | event _ _ _ sock hevent =>
      cases NormalSocket.handles_of_eventHandler hevent with
      | received _ _ _ _ _ _ _ hrecv => exact (RecvBuffer.onRecv_stopped hrecv).1.trans hrun
      | finReceived _ seqNum => exact (RecvBuffer.onCtrl_stopped _ seqNum).1.trans hrun
      | timeWait => cases hpost
      | closeWait => cases hpost
      | closed => cases hpost
      | _ => exact hrun
  | retransmit edge now =>
      obtain ⟨q, -, heq | ⟨result, heq⟩⟩ := s.sock.retransmitExpired_cases edge now <;>
        rw [heq] at hpost ⊢
      · exact hrun
      · cases hpost
  | vCloseAtOnce _ _ sock _ hclose =>
      obtain rfl | ⟨result, rfl⟩ := NormalSocket.vCloseState_error hclose
      · exact hrun
      · cases hpost
  | vAbort => exact absurd (s.sock.vAbort_state.symm.trans hpost) nofun
  | _ => exact hrun

end RunningSocket

end Tns.Tcp
