import Tns.Tcp.RecvInvariant
import Tns.Tcp.RunningSocket

/-!
# The peer closes

The FIN that takes a socket from ESTABLISHED to CLOSE_WAIT also shuts its receive
buffer down, and a buffer that is shut down hands out nothing.  What has been
acknowledged and not yet read is lost.
-/

namespace Tns.Tcp

open Tns.Library Tns.Library.Cyclic

namespace RecvBuffer

variable {N : ℕ} {b b' : RecvBuffer N}

def unread (b : RecvBuffer N) : List Byte :=
  (List.range b.sizeToRead).map fun i ↦ (b.buf[(b.nbr.toNat + i) % N]?).getD 0

theorem sizeToRead_eq_zero : b.sizeToRead = 0 ↔ b.nbr = b.nxt := by
  have hnbr := b.nbr.toNat_lt
  have hnxt := b.nxt.toNat_lt
  rw [sizeToRead, UInt32.toNat_sub, ← UInt32.toNat_inj]
  omega

@[simp] theorem length_unread (b : RecvBuffer N) : b.unread.length = b.sizeToRead := by
  simp [unread]

/-- The unread bytes are those a reader gets, as long as the buffer is not shut down. -/
theorem readAtMostNBytes_unread {buffSize n : ℕ} {data : List Byte} (hsize : b.sizeToRead ≤ N)
    (hread : b.readAtMostNBytes buffSize n = .ok (.ok data, b')) :
    data = b.unread.take data.length := by
  rcases readAtMostNBytes_cases hread with ⟨-, hr, -⟩ | ⟨-, -, hr, -⟩ |
    ⟨hn, -, hpos, data', hdata, hlen, hr, -⟩
  · simp [Except.ok.inj hr]
  · cases hr
  obtain rfl := Except.ok.inj hr
  have hlast : sizeSub (b.nbr.toNat + min n b.sizeToRead) 1 = b.nbr.toNat + data.length - 1 := by
    rw [sizeSub_of_le (by omega), hlen]
  rw [hlast] at hdata
  have hwin : Window (fun k x ↦ b.buf[k % N]? = some x) b.buf b.nbr.toNat
      (b.nbr.toNat + data.length - 1 + 1) := fun k _ _ ↦
    have hcell : k % N < N := Nat.mod_lt _ (by omega)
    ⟨_, Vector.getElem?_eq_getElem hcell, Vector.getElem?_eq_getElem hcell⟩
  obtain ⟨-, hcells⟩ := RingBuffer.read_window (by omega) (by omega) hwin hdata
  apply List.ext_getElem (by simp; omega)
  intro i hi _
  simp [unread, hcells i hi]

theorem stopped_readAtMostNBytes {buffSize n : ℕ} {r : Except SocketError (List Byte)}
    (hread : b.readAtMostNBytes buffSize n = .ok (r, b')) (hstop : b.stopped = true) :
    b'.stopped = true ∧ (r = .ok [] ∨ r = .error .closing) := by
  rcases readAtMostNBytes_cases hread with ⟨-, rfl, rfl⟩ | ⟨-, -, rfl, rfl⟩ | ⟨-, hrun, -⟩
  · exact ⟨hstop, .inl rfl⟩
  · exact ⟨hstop, .inr rfl⟩
  · rw [hstop] at hrun
    cases hrun

theorem onRecv_stopped {seqNum : UInt32} {payload : List Byte} {r : UInt32 × ℕ}
    (h : b.onRecv seqNum payload = .ok (r, b')) : b'.stopped = b.stopped ∧ b'.nbr = b.nbr := by
  obtain ⟨-, ⟨rb, -, -, -, rfl⟩ | ⟨n, rb, I, e, early, -, -, -, -, -, -, rfl⟩ | ⟨-, -, -, rfl⟩ |
    ⟨rb, -, -, -, -, rfl⟩ | ⟨n, rb, I, nxt, early, -, -, -, -, -, -, -, rfl⟩⟩ := onRecv_cases h <;>
  exact ⟨rfl, rfl⟩

theorem onCtrl_stopped (b : RecvBuffer N) (seqNum : UInt32) :
    (b.onCtrl seqNum).2.stopped = b.stopped ∧ (b.onCtrl seqNum).2.nbr = b.nbr := by
  unfold onCtrl
  split <;> exact ⟨rfl, rfl⟩

end RecvBuffer

namespace RunningSocket

variable {M N : ℕ} {s s' : RunningSocket M N}

/-- The stream received and acknowledged: what has been read and what is readable. -/
def received (s : RunningSocket M N) : List Byte := s.delivered ++ s.sock.recvBuffer.unread

def bytesRead (tr : List (Step M N)) : List Byte :=
  tr.flatMap fun t ↦ (t.out.read.map deliveredOf).getD []

/-- In every run in CLOSE_WAIT, the reads before the first one that returns CLOSING return
`rest`. -/
def Drains (rest : List Byte) (s : RunningSocket M N) : Prop :=
  ∀ (before : List (Step M N)) (t : Step M N) (s' : RunningSocket M N),
    Trace step s (before ++ [t]) s' → (∀ u ∈ before, u.post.sock.state = .closeWait) →
    (∀ u ∈ before, u.out.read ≠ some (.error .closing)) → t.out.read = some (.error .closing) →
    bytesRead before = rest

/-! ## Before the FIN -/

/-- The first unread byte is `nbr_`, counted from the number `start` of the first byte. -/
def ReadsFrom (start : UInt32) (s : RunningSocket M N) : Prop :=
  s.sock.state = .established ∧
    s.sock.recvBuffer.nbr = start + UInt32.ofNat s.delivered.length

theorem readsFrom_step {start : UInt32} {t : Step M N} (hfires : Fires step t)
    (h : ReadsFrom start t.pre) (hstate : t.post.sock.state = .established) :
    ReadsFrom start t.post := by
  refine ⟨hstate, ?_⟩
  rcases (steps_of_step hfires).recv_cases with ⟨-, hdel, -, hrecv⟩ |
    ⟨buffSize, n, r, b, -, -, hread, heq⟩ | ⟨event, now, sock, -, -, hhandles, heq⟩
  · rw [hdel, ← h.2]
    rcases hrecv with hrecv | hrecv <;> rw [hrecv]
    rfl
  · have hnbr : b.nbr = t.pre.sock.recvBuffer.nbr + UInt32.ofNat (deliveredOf r).length := by
      rcases RecvBuffer.readAtMostNBytes_cases hread with ⟨-, rfl, rfl⟩ | ⟨-, -, rfl, rfl⟩ |
        ⟨-, -, -, data, -, -, rfl, rfl⟩
      · simp [deliveredOf]
      · simp [deliveredOf]
      · rfl
    simp only [heq, hnbr, h.2, List.length_append, UInt32.ofNat_add, UInt32.add_assoc]
  · have hnbr : sock.recvBuffer.nbr = t.pre.sock.recvBuffer.nbr := by
      cases hhandles with
      | synAcked _ _ _ hsyn => rw [h.1] at hsyn; cases hsyn
      | received _ _ _ _ _ _ _ hrecv => exact (RecvBuffer.onRecv_stopped hrecv).2
      | finReceived _ seqNum => exact (RecvBuffer.onCtrl_stopped _ seqNum).2
      | closeWait _ seqNum => exact (RecvBuffer.onCtrl_stopped _ seqNum).2
      | timeWait _ seqNum => exact (RecvBuffer.onCtrl_stopped _ seqNum).2
      | _ => rfl
    simp only [heq, hnbr, h.2]

/-! ## After the FIN -/

theorem stopped_of_closeWait {event : Event} {now : TimePoint} {out : SocketReturn}
    (hfin : s.step (.event event now) = .ok (out, s')) (hpre : s.sock.state = .established)
    (hpost : s'.sock.state = .closeWait) : s'.sock.recvBuffer.stopped = true := by
  have hsteps := steps_of_step hfin
  cases hsteps with
  | event _ _ actions sock hevent =>
      have hsock : sock.state = .closeWait := hpost
      cases NormalSocket.handles_of_eventHandler hevent with
      | closeWait => rfl
      | timeWait => cases hsock
      | finAcked => cases hsock
      | closed => cases hsock
      | opened => cases hsock
      | _ => exact absurd (hpre.symm.trans hsock) nofun

theorem stopped_step {t : Step M N} (hfires : Fires step t)
    (h : t.pre.sock.recvBuffer.stopped = true) :
    t.post.sock.recvBuffer.stopped = true ∧ (t.out.read.map deliveredOf).getD [] = [] := by
  rcases (steps_of_step hfires).recv_cases with ⟨hread, -, -, hrecv⟩ |
    ⟨buffSize, n, r, b, -, hout, hread, heq⟩ | ⟨event, now, sock, -, hout, hhandles, heq⟩
  · constructor
    · rcases hrecv with hrecv | hrecv <;> rw [hrecv]
      · exact h
      · rfl
    · cases hr : t.out.read with
      | none => rfl
      | some r =>
          obtain ⟨e, rfl⟩ := hread r hr
          rfl
  · obtain ⟨hstop, hr⟩ := RecvBuffer.stopped_readAtMostNBytes hread h
    refine ⟨by rw [heq]; exact hstop, ?_⟩
    rw [hout]
    rcases hr with rfl | rfl <;> rfl
  · refine ⟨?_, by rw [hout]; rfl⟩
    simp only [heq]
    cases hhandles with
    | synAcked => exact h
    | received _ _ _ _ _ _ _ hrecv => exact (RecvBuffer.onRecv_stopped hrecv).1.trans h
    | finReceived _ seqNum => exact (RecvBuffer.onCtrl_stopped _ seqNum).1.trans h
    | timeWait _ seqNum => exact (RecvBuffer.onCtrl_stopped _ seqNum).1.trans h
    | closeWait => rfl
    | closed => rfl
    | _ => exact h

theorem bytesRead_of_stopped {tr : List (Step M N)} (h : Trace step s tr s')
    (hstop : s.sock.recvBuffer.stopped = true) : bytesRead tr = [] := by
  induction h with
  | nil => rfl
  | @cons s s₁ s₂ l o tr head tail ih =>
      obtain ⟨hstop₁, hnone⟩ := stopped_step (t := ⟨s, l, o, s₁⟩) head hstop
      simp only [bytesRead, List.flatMap_cons] at ih ⊢
      rw [ih hstop₁, hnone, List.nil_append]

/-- In CLOSE_WAIT the first read of at least one byte returns CLOSING. -/
theorem vRecv_of_closeWait (hstate : s.sock.state = .closeWait)
    (hstop : s.sock.recvBuffer.stopped = true) (buffSize : ℕ) {n : ℕ} (hn : n ≠ 0) :
    s.step (.vRecv buffSize n) = .ok ({ read := some (.error .closing) }, s) := by
  obtain ⟨⟨state, sendBuffer, recvBuffer⟩⟩ := s
  obtain rfl : state = .closeWait := hstate
  simp only at hstop
  simp only [step, NormalSocket.vRecv]
  split <;> simp [RecvBuffer.readAtMostNBytes, hn, hstop, Exec.waitUntil, deliveredOf, pure,
    Except.pure]

theorem drains_of_stopped (hstate : s.sock.state = .closeWait)
    (hstop : s.sock.recvBuffer.stopped = true) (rest : List Byte) :
    Drains rest s ↔ rest = [] := by
  constructor
  · intro hdrains
    have hstep := vRecv_of_closeWait hstate hstop 1 Nat.one_ne_zero
    exact (hdrains [] ⟨s, _, _, s⟩ s (.cons hstep (.nil s)) (by simp) (by simp) rfl).symm
  · rintro rfl before t s' htr - - -
    have hall := bytesRead_of_stopped htr hstop
    simp only [bytesRead, List.flatMap_append, List.append_eq_nil_iff] at hall ⊢
    exact hall.1

/-- A connection has just been established, and nothing of the peer's stream has arrived. -/
structure AtStream (start : UInt32) (s : RunningSocket M N) : Prop where
  state : s.sock.state = .established
  nbr : s.sock.recvBuffer.nbr = start
  delivered : s.delivered = []

/-- After any run in ESTABLISHED and an event that leads to CLOSE_WAIT, the reads return the
rest of the stream that has been acknowledged up to RCV.NXT, if and only if there was no byte
left to read. -/
theorem drains_iff {start : UInt32} {s₁ s₂ : RunningSocket M N} (event : Event)
    (now : TimePoint) {out : SocketReturn} (hstart : AtStream start s) {tr : List (Step M N)}
    (h : Trace step s tr s₁) (hestab : ∀ t ∈ tr, t.post.sock.state = .established)
    (hfin : s₁.step (.event event now) = .ok (out, s₂)) (hclose : s₂.sock.state = .closeWait) :
    start + UInt32.ofNat s₁.received.length = s₁.sock.recvBuffer.nxt ∧
      (Drains (s₁.received.drop s₁.delivered.length) s₂ ↔
        s₁.sock.recvBuffer.nbr = s₁.sock.recvBuffer.nxt) := by
  have hinit : ReadsFrom start s := by
    refine ⟨hstart.state, ?_⟩
    simp [hstart.nbr, hstart.delivered]
  have hreads : ReadsFrom start s₁ :=
    (Trace.invariant (A := fun t ↦ t.post.sock.state = .established)
      (fun t ht hI hok ↦ readsFrom_step ht hI hok) h hinit hestab).1
  constructor
  · rw [received, List.length_append, UInt32.ofNat_add, ← UInt32.add_assoc, ← hreads.2,
      RecvBuffer.length_unread, RecvBuffer.sizeToRead, UInt32.ofNat_toNat, UInt32.add_comm,
      UInt32.sub_add_cancel]
  · rw [drains_of_stopped hclose (stopped_of_closeWait hfin hreads.1 hclose), received,
      List.drop_left, ← List.length_eq_zero_iff, RecvBuffer.length_unread,
      RecvBuffer.sizeToRead_eq_zero]

def exampleStream : RunningSocket 8 8 :=
  { sock := { NormalSocket.init (Vector.replicate 8 0) (Vector.replicate 8 0) 0 8 0 with
      state := .established } }

theorem exampleStream_atStream : AtStream 0 exampleStream := ⟨rfl, rfl, rfl⟩

/-- Two bytes arrive and are read before the FIN: nothing is lost. -/
theorem drains_iff_read :
    ∃ (tr : List (Step 8 8)) (s₁ s₂ : RunningSocket 8 8) (out : SocketReturn),
      Trace step exampleStream tr s₁ ∧ s₁.step (.event (.getFin 2 8) 0) = .ok (out, s₂) ∧
        s₂.sock.state = .closeWait ∧ s₁.received = [1, 2] ∧
        ((0 : UInt32) + UInt32.ofNat s₁.received.length = s₁.sock.recvBuffer.nxt ∧
          (Drains (s₁.received.drop s₁.delivered.length) s₂ ↔
            s₁.sock.recvBuffer.nbr = s₁.sock.recvBuffer.nxt)) := by
  refine ⟨_, _, _, _, .cons (l := .event (.getAck 0 0 8 [1, 2]) 0) rfl
    (.cons (l := .vRecv 8 2) rfl (.nil _)), rfl, rfl, by decide, ?_⟩
  exact drains_iff (.getFin 2 8) 0 exampleStream_atStream
    (.cons (l := .event (.getAck 0 0 8 [1, 2]) 0) rfl (.cons (l := .vRecv 8 2) rfl (.nil _)))
    (by decide) rfl rfl

/-- Two bytes arrive and are acknowledged, then the FIN: the reader gets none of them. -/
theorem not_drains :
    ∃ (tr : List (Step 8 8)) (s₁ s₂ : RunningSocket 8 8) (out : SocketReturn),
      AtStream 0 exampleStream ∧ Trace step exampleStream tr s₁ ∧
        (∀ t ∈ tr, t.post.sock.state = .established) ∧
        s₁.step (.event (.getFin 2 8) 0) = .ok (out, s₂) ∧ s₂.sock.state = .closeWait ∧
        s₁.received = [1, 2] ∧ s₁.delivered = [] ∧ ¬Drains [1, 2] s₂ := by
  refine ⟨_, _, _, _, exampleStream_atStream,
    .cons (l := .event (.getAck 0 0 8 [1, 2]) 0) rfl (.nil _), by decide, rfl, rfl, by decide, rfl,
    fun hdrains ↦ ?_⟩
  cases (drains_of_stopped (by rfl) (by rfl) [1, 2]).mp hdrains

end RunningSocket

end Tns.Tcp
