import Tns.Tcp.RecvInvariant
import Tns.Tcp.RunningSocket

/-!
# What the readable data holds

RCV.NXT is the number to acknowledge and the end of the readable data as well.
As long as only data segments advance it, every readable byte was the payload of
one of them.  A FIN that is expected advances it too, and its number then counts
as a readable byte.
-/

namespace Tns.Tcp

open Tns.Library

namespace RecvBuffer

variable {N : ℕ} {P : ℕ → Byte → Prop} {b : RecvBuffer N}

theorem Inv.shutdown (h : Inv P b) : Inv P b.shutdown :=
  ⟨h.nbr_le_nxt, h.nxt_le, h.readable, h.canonical, h.inRing, h.early⟩

/-- A sequence number counts as a byte to read. -/
def CountsToRead (b : RecvBuffer N) (k : UInt32) : Prop :=
  b.nbr.toNat ≤ k.toNat ∧ k.toNat < b.nbr.toNat + b.sizeToRead

theorem Inv.countsToRead_onCtrl (h : Inv P b) (hwrap : b.nxt.toNat + 1 < 2 ^ 32) :
    (b.onCtrl b.nxt).2.CountsToRead b.nxt := by
  have hle := h.nbr_le_nxt
  have hnxt : (b.nxt + 1).toNat = b.nxt.toNat + 1 := UInt32.toNat_add_of_lt hwrap
  have hsize : (b.nxt + 1 - b.nbr).toNat = b.nxt.toNat + 1 - b.nbr.toNat := by
    rw [UInt32.toNat_sub_of_le _ _ (UInt32.le_iff_toNat_le.mpr (by omega)), hnxt]
  rw [RecvBuffer.onCtrl, if_pos rfl, CountsToRead, sizeToRead]
  simp only [hsize]
  omega

end RecvBuffer

namespace NormalSocket

def FromEstablished : State → Prop
  | .listen | .synSent | .synReceived _ => False
  | _ => True

instance : DecidablePred FromEstablished := fun state ↦ by
  unfold FromEstablished
  split <;> infer_instance

end NormalSocket

namespace RunningSocket

open RecvBuffer NormalSocket

variable {M N : ℕ} {s s' : RunningSocket M N} {P : ℕ → Byte → Prop}

/-- The byte `x` at position `k` was in the payload of a segment received in the run. -/
def Carried (tr : List (Step M N)) (k : ℕ) (x : Byte) : Prop :=
  ∃ t ∈ tr, ∃ seqNum ackNum wndSize payload now,
    t.label = .event (.getAck seqNum ackNum wndSize payload) now ∧
      ∃ i, k = seqNum.toNat + i ∧ payload[i]? = some x

/-- The step processes a FIN with the sequence number expected next. -/
def AcceptsFin (seqNum : UInt32) (t : Step M N) : Prop :=
  ∃ event now, t.label = .event event now ∧ ProcessesFin seqNum t.pre.sock.state event ∧
    seqNum = t.pre.sock.recvBuffer.nxt

/-- No connection control invents a byte: every byte read was received before at its position,
and the number of a FIN that has been accepted never counts as a byte to read. -/
structure Genuine (tr : List (Step M N)) : Prop where
  read : ∀ before t after, tr = before ++ t :: after → ∀ data, t.out.read = some (.ok data) →
    ∀ i (hi : i < data.length), Carried before (t.pre.sock.recvBuffer.nbr.toNat + i) data[i]
  fin : ∀ before t after, tr = before ++ t :: after → ∀ seqNum, AcceptsFin seqNum t →
    ∀ u ∈ t :: after, ¬u.post.sock.recvBuffer.CountsToRead seqNum

/-- The numbers of the segment do not wrap, and it does not straddle RCV.NXT. -/
def SegmentInDomain (nxt : UInt32) : SocketCall → Prop
  | .event (.getAck seqNum _ _ payload) _ =>
      seqNum.toNat + payload.length < 2 ^ 32 ∧
        (seqNum.toNat + payload.length ≤ nxt.toNat ∨ nxt.toNat ≤ seqNum.toNat)
  | .event (.getFin seqNum _) _ => seqNum.toNat + 1 < 2 ^ 32
  | .event (.getFinAck seqNum _ _) _ => seqNum.toNat + 1 < 2 ^ 32
  | _ => True

instance (nxt : UInt32) : DecidablePred (SegmentInDomain nxt) := fun l ↦ by
  unfold SegmentInDomain
  split <;> infer_instance

def InDomain (t : Step M N) : Prop :=
  FromEstablished t.pre.sock.state ∧ SegmentInDomain t.pre.sock.recvBuffer.nxt t.label

instance : DecidablePred (InDomain (M := M) (N := N)) :=
  fun _ ↦ inferInstanceAs (Decidable (_ ∧ _))

def AdmitsSegment (P : ℕ → Byte → Prop) (t : Step M N) : Prop :=
  ∀ seqNum ackNum wndSize payload now,
    t.label = .event (.getAck seqNum ackNum wndSize payload) now →
      ∀ i (hi : i < payload.length), P (seqNum.toNat + i) payload[i]

theorem inv_step {t : Step M N} (hfires : Fires step t) (h : Inv P t.pre.sock.recvBuffer)
    (hdom : InDomain t) (hadm : AdmitsSegment P t) (hfin : ∀ seqNum, ¬AcceptsFin seqNum t) :
    Inv P t.post.sock.recvBuffer := by
  rcases (steps_of_step hfires).recv_cases with ⟨-, -, -, hrecv | hrecv⟩ |
    ⟨buffSize, n, r, b, -, -, hread, heq⟩ | ⟨event, now, sock, hl, -, hhandles, heq⟩
  · exact hrecv ▸ h
  · exact hrecv ▸ h.shutdown
  · rw [heq]
    exact (h.readAtMostNBytes hread).1
  have hctrl : ∀ seqNum, ProcessesFin seqNum t.pre.sock.state event →
      Inv P (t.pre.sock.recvBuffer.onCtrl seqNum).2 := by
    intro seqNum hproc
    rwa [onCtrl_of_ne fun hseq ↦ hfin seqNum ⟨event, now, hl, hproc, hseq⟩]
  obtain ⟨hstate, hseg⟩ := hdom
  rw [heq]
  cases hhandles with
  | synAcked _ _ _ hsyn =>
      rw [hsyn] at hstate
      exact hstate.elim
  | received seqNum ackNum wndSize payload r recvBuffer _ hrecv =>
      simp only [hl, SegmentInDomain] at hseg
      have hpayload : Admits P seqNum payload := ⟨hseg.1, hadm _ _ _ _ _ hl⟩
      by_cases hext : t.pre.sock.recvBuffer.Extends seqNum payload.length
      · obtain ⟨hinv, -, -, -, hge, -⟩ := h.onRecv_of_extends hpayload hrecv hext
        have hle := h.nbr_le_nxt
        exact hinv (by have := hext.2.1; omega)
      · exact (h.onRecv_of_not_extends hpayload hrecv hext).1
  | finReceived _ seqNum _ hproc => exact hctrl seqNum hproc
  | closeWait _ seqNum _ hproc => exact (hctrl seqNum hproc).shutdown
  | timeWait _ seqNum _ hproc => exact hctrl seqNum hproc
  | closed => exact h.shutdown
  | _ => exact h

theorem countsToRead_of_event {event : Event} {now : TimePoint} {out : SocketReturn}
    (hstep : s.step (.event event now) = .ok (out, s')) (h : Inv P s.sock.recvBuffer)
    (hwrap : s.sock.recvBuffer.nxt.toNat + 1 < 2 ^ 32)
    (hproc : ProcessesFin s.sock.recvBuffer.nxt s.sock.state event) :
    s'.sock.recvBuffer.CountsToRead s.sock.recvBuffer.nxt := by
  have hsteps := steps_of_step hstep
  cases hsteps with
  | event _ _ actions sock hevent =>
      obtain ⟨hnxt, hnbr⟩ := nxt_of_processesFin hproc hevent
      have hcounts := h.countsToRead_onCtrl hwrap
      rwa [CountsToRead, sizeToRead, ← hnxt, ← hnbr] at hcounts

theorem countsToRead_of_acceptsFin {t : Step M N} {seqNum : UInt32} (hfires : Fires step t)
    (h : Inv P t.pre.sock.recvBuffer) (hdom : InDomain t) (hfin : AcceptsFin seqNum t) :
    t.post.sock.recvBuffer.CountsToRead seqNum := by
  obtain ⟨event, now, hl, hproc, rfl⟩ := hfin
  have hwrap : t.pre.sock.recvBuffer.nxt.toNat + 1 < 2 ^ 32 := by
    have hseg := hdom.2
    rw [hl] at hseg
    generalize t.pre.sock.state = state at hproc
    cases hproc <;> exact hseg
  rw [Fires, hl] at hfires
  exact countsToRead_of_event hfires h hwrap hproc

theorem admitsSegment_carried {tr : List (Step M N)} {t : Step M N} (ht : t ∈ tr) :
    AdmitsSegment (Carried tr) t :=
  fun _ _ _ _ _ hl i hi ↦ ⟨t, ht, _, _, _, _, _, hl, i, rfl, List.getElem?_eq_getElem hi⟩

/-- Nothing of the peer's stream has arrived yet. -/
structure Fresh (s : RunningSocket M N) : Prop where
  nbr : s.sock.recvBuffer.nbr = s.sock.recvBuffer.nxt
  early : s.sock.recvBuffer.earlyArrivals = {}

/-- Without a FIN to accept, the readable bytes of every state have been received. -/
theorem inv_run (hstart : Fresh s) {tr : List (Step M N)} (h : Trace step s tr s')
    (hdom : ∀ t ∈ tr, InDomain t) (hfin : ∀ t ∈ tr, ∀ seqNum, ¬AcceptsFin seqNum t) :
    Inv (Carried tr) s'.sock.recvBuffer := by
  refine (Trace.invariant (I := fun s ↦ Inv (Carried tr) s.sock.recvBuffer)
    (A := fun t ↦ InDomain t ∧ AdmitsSegment (Carried tr) t ∧ ∀ seqNum, ¬AcceptsFin seqNum t)
    ?_ h (inv_of_eq hstart.nbr hstart.early) ?_).1
  · exact fun t hfires hinv ⟨hd, hadm, hnot⟩ ↦ inv_step hfires hinv hd hadm hnot
  · exact fun t ht ↦ ⟨hdom t ht, admitsSegment_carried ht, hfin t ht⟩

/-- In every run, connection control invents no byte if and only if no FIN is accepted. -/
theorem genuine_iff (hstart : Fresh s) {tr : List (Step M N)} (h : Trace step s tr s')
    (hdom : ∀ t ∈ tr, InDomain t) :
    Genuine tr ↔ ∀ t ∈ tr, ∀ seqNum, ¬AcceptsFin seqNum t := by
  constructor
  · intro hgenuine
    have hlocal : ∀ t ∈ tr, ∀ seqNum, AcceptsFin seqNum t →
        ¬t.post.sock.recvBuffer.CountsToRead seqNum := by
      intro t ht seqNum hacc
      obtain ⟨before, after, rfl⟩ := List.append_of_mem ht
      exact hgenuine.fin before t after rfl seqNum hacc t List.mem_cons_self
    refine (Trace.forall_iff (I := fun s ↦ Inv (Carried tr) s.sock.recvBuffer)
      (D := fun t ↦ InDomain t ∧ AdmitsSegment (Carried tr) t) ?_ ?_ h
      (inv_of_eq hstart.nbr hstart.early) ?_).mp hlocal
    · intro t hfires hinv ⟨hd, _⟩
      exact forall_congr' fun seqNum ↦ ⟨fun hgood hacc ↦
        hgood hacc (countsToRead_of_acceptsFin hfires hinv hd hacc),
        fun hnot hacc ↦ absurd hacc hnot⟩
    · exact fun t hfires hinv ⟨hd, hadm⟩ hnot ↦ inv_step hfires hinv hd hadm hnot
    · exact fun t ht ↦ ⟨hdom t ht, admitsSegment_carried ht⟩
  · intro hnone
    constructor
    · rintro before t after rfl data hread i hi
      obtain ⟨hbefore, hfires⟩ := h.to_pre
      have hinv := inv_run hstart hbefore (fun u hu ↦ hdom u (List.mem_append_left _ hu))
        fun u hu ↦ hnone u (List.mem_append_left _ hu)
      rcases (steps_of_step hfires).recv_cases with ⟨herror, -⟩ |
        ⟨buffSize, n, r, b, -, hout, hbuf, -⟩ | ⟨event, now, sock, -, hout, -⟩
      · obtain ⟨e, he⟩ := herror _ hread
        cases he
      · rw [hout, Option.some.injEq] at hread
        subst hread
        exact (hinv.readAtMostNBytes hbuf).2.2.2.2.2 i hi
      · rw [hread] at hout
        cases hout
    · rintro before t after rfl seqNum hacc
      exact absurd hacc (hnone t (List.mem_append_right _ List.mem_cons_self) seqNum)

def exampleFinWait2 : RunningSocket 8 8 :=
  { sock := { NormalSocket.init (Vector.replicate 8 0) (Vector.replicate 8 0) 0 8 0 with
      state := .finWait2 } }

theorem exampleFinWait2_fresh : Fresh exampleFinWait2 := ⟨rfl, rfl⟩

/-- Two bytes arrive and are read. -/
theorem genuine_iff_read :
    ∃ (tr : List (Step 8 8)) (s : RunningSocket 8 8),
      Trace step exampleFinWait2 tr s ∧ s.delivered = [1, 2] ∧
        (Genuine tr ↔ ∀ t ∈ tr, ∀ seqNum, ¬AcceptsFin seqNum t) := by
  refine ⟨_, _, .cons (l := .event (.getAck 0 0 8 [1, 2]) 0) rfl
    (.cons (l := .vRecv 8 2) rfl (.nil _)), rfl, ?_⟩
  exact genuine_iff exampleFinWait2_fresh
    (.cons (l := SocketCall.event (.getAck 0 0 8 [1, 2]) 0) rfl
      (.cons (l := SocketCall.vRecv 8 2) rfl (.nil _))) (by decide)

/-- The FIN arrives, and a reader in TIME_WAIT is handed a byte although none was received. -/
theorem not_genuine :
    ∃ (tr : List (Step 8 8)) (s : RunningSocket 8 8),
      Fresh exampleFinWait2 ∧ Trace step exampleFinWait2 tr s ∧ (∀ t ∈ tr, InDomain t) ∧
        s.sock.state = .timeWait 0 ∧ s.delivered = [0] ∧ ¬Genuine tr := by
  refine ⟨_, _, exampleFinWait2_fresh, .cons (l := .event (.getFin 0 8) 0) rfl
    (.cons (l := .vRecv 8 8) rfl (.nil _)), by decide, rfl, rfl, fun hgenuine ↦ ?_⟩
  obtain ⟨t, ht, seqNum, ackNum, wndSize, payload, now, hl, -⟩ :=
    hgenuine.read [_] _ [] rfl _ rfl 0 Nat.zero_lt_one
  obtain rfl := List.mem_singleton.mp ht
  cases hl

end RunningSocket

end Tns.Tcp
