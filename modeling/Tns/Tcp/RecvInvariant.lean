import Tns.Library.Trace
import Tns.Tcp.RecvBuffer

/-!
# The receive buffer in operation

The calls on a receive buffer as labels of one step function, and the invariant
of its runs.  A predicate `P` on positions and bytes says which bytes are
admitted where: the slice of a stream, or what some segment carried.
-/

namespace Tns.Tcp

open Tns.Library Tns.Library.Cyclic

/-- The calls on a receive buffer, one critical section each. -/
inductive RecvCall where
  | onRecv (seqNum : UInt32) (payload : List Byte)
  | onCtrl (seqNum : UInt32)
  | getAckWnd
  | readAtMostNBytes (buffSize n : ℕ)
  deriving DecidableEq

inductive RecvReturn where
  | ackWnd (ack : UInt32) (wnd : ℕ)
  | bytes (r : Except SocketError (List Byte))

namespace RecvReturn

def data : RecvReturn → List Byte
  | ackWnd _ _ => []
  | bytes (.error _) => []
  | bytes (.ok data) => data

end RecvReturn

namespace RecvBuffer

variable {N : ℕ} {P : ℕ → Byte → Prop} {b b' : RecvBuffer N}

def call (b : RecvBuffer N) : RecvCall → Exec (RecvReturn × RecvBuffer N)
  | .onRecv seqNum payload => do
      let ((ack, wnd), b) ← b.onRecv seqNum payload
      return (.ackWnd ack wnd, b)
  | .onCtrl seqNum =>
      let ((ack, wnd), b) := b.onCtrl seqNum
      .ok (.ackWnd ack wnd, b)
  | .getAckWnd =>
      let (ack, wnd) := b.getAckWnd
      .ok (.ackWnd ack wnd, b)
  | .readAtMostNBytes buffSize n => do
      let (r, b) ← b.readAtMostNBytes buffSize n
      return (.bytes r, b)

abbrev Call (N : ℕ) := Transition (RecvBuffer N) RecvCall RecvReturn

/-- The invariant of a receive buffer whose stored bytes are admitted by `P`. -/
structure Inv (P : ℕ → Byte → Prop) (b : RecvBuffer N) : Prop where
  nbr_le_nxt : b.nbr.toNat ≤ b.nxt.toNat
  nxt_le : b.nxt.toNat ≤ b.nbr.toNat + N
  readable : Window P b.buf b.nbr.toNat b.nxt.toNat
  canonical : Canonical b.earlyArrivals.intervals
  inRing : ∀ x ∈ cover b.earlyArrivals.intervals, x.toNat < b.nbr.toNat + N
  early : ∀ x ∈ cover b.earlyArrivals.intervals, b.nbr ≤ x →
    Window P b.buf x.toNat (x.toNat + 1)

/-- The early arrivals all lie ahead of RCV.NXT. -/
def Ahead (b : RecvBuffer N) : Prop :=
  b.nxt.toNat + 1 < 2 ^ 32 → ∀ x ∈ cover b.earlyArrivals.intervals, b.nxt < x

/-- The payload of a segment is admitted, and its end is a sequence number. -/
def Admits (P : ℕ → Byte → Prop) (seqNum : UInt32) (payload : List Byte) : Prop :=
  seqNum.toNat + payload.length < 2 ^ 32 ∧
    ∀ i (hi : i < payload.length), P (seqNum.toNat + i) payload[i]

theorem Admits.drop {seqNum nxt : UInt32} {payload : List Byte} (h : Admits P seqNum payload)
    (hle : seqNum ≤ nxt) : ∀ i (hi : i < (payload.drop (nxt - seqNum).toNat).length),
      P (nxt.toNat + i) (payload.drop (nxt - seqNum).toNat)[i] := by
  intro i hi
  rw [List.length_drop] at hi
  have hoff := UInt32.toNat_sub_of_le _ _ hle
  have hle' := UInt32.le_iff_toNat_le.mp hle
  have hP := h.2 ((nxt - seqNum).toNat + i) (by omega)
  rw [List.getElem_drop]
  rwa [show seqNum.toNat + ((nxt - seqNum).toNat + i) = nxt.toNat + i by omega] at hP

/-- A segment of `len` bytes brings the next byte expected, and the ring takes it. -/
def Extends (b : RecvBuffer N) (seqNum : UInt32) (len : ℕ) : Prop :=
  seqNum ≤ b.nxt ∧ b.nxt.toNat < seqNum.toNat + len ∧ b.nxt.toNat + 1 < b.nbr.toNat + N

instance (b : RecvBuffer N) (seqNum : UInt32) (len : ℕ) : Decidable (b.Extends seqNum len) :=
  inferInstanceAs (Decidable (_ ∧ _ ∧ _))

/-- How many bytes are new in such a segment and fit in the ring. -/
def newBytes (b : RecvBuffer N) (seqNum : UInt32) (len : ℕ) : ℕ :=
  min (seqNum.toNat + len - b.nxt.toNat) (b.nbr.toNat + N - b.nxt.toNat)

/-- A buffer with nothing to read and no early arrivals. -/
theorem inv_of_eq (hnbr : b.nbr = b.nxt) (hearly : b.earlyArrivals = {}) : Inv P b where
  nbr_le_nxt := by rw [hnbr]
  nxt_le := by
    rw [hnbr]
    exact Nat.le_add_right _ _
  readable := Window.empty (by rw [hnbr])
  canonical := by
    rw [hearly]
    exact Canonical.nil
  inRing := by simp [hearly]
  early := by simp [hearly]

theorem inv_init (buf : Vector Byte N) (initRecvNxt : UInt32) : Inv P (init buf initRecvNxt) :=
  inv_of_eq rfl rfl

theorem ahead_init (buf : Vector Byte N) (initRecvNxt : UInt32) : Ahead (init buf initRecvNxt) := by
  simp [Ahead, init]

namespace Inv

theorem mono {Q : ℕ → Byte → Prop} (h : Inv P b) (hPQ : ∀ k x, P k x → Q k x) : Inv Q b where
  nbr_le_nxt := h.nbr_le_nxt
  nxt_le := h.nxt_le
  readable := h.readable.mono hPQ
  canonical := h.canonical
  inRing := h.inRing
  early x hx hle := (h.early x hx hle).mono hPQ

theorem sizeToRead_eq (h : Inv P b) : b.sizeToRead = b.nxt.toNat - b.nbr.toNat :=
  UInt32.toNat_sub_of_le _ _ (UInt32.le_iff_toNat_le.mpr h.nbr_le_nxt)

theorem sizeToRead_le (h : Inv P b) : b.sizeToRead ≤ N := by
  have := h.nxt_le
  have := h.sizeToRead_eq
  omega

theorem sizeFree_eq (h : Inv P b) : b.sizeFree = N - (b.nxt.toNat - b.nbr.toNat) := by
  rw [sizeFree, sizeSub_of_le h.sizeToRead_le, h.sizeToRead_eq]

/-! ## Reading -/

theorem readAtMostNBytes {buffSize n : ℕ} {r : Except SocketError (List Byte)} (h : Inv P b)
    (hread : b.readAtMostNBytes buffSize n = .ok (r, b')) :
    Inv P b' ∧ b'.nxt = b.nxt ∧ b'.earlyArrivals = b.earlyArrivals ∧ b'.stopped = b.stopped ∧
      b'.nbr.toNat = b.nbr.toNat + (RecvReturn.bytes r).data.length ∧
      ∀ i (hi : i < (RecvReturn.bytes r).data.length),
        P (b.nbr.toNat + i) (RecvReturn.bytes r).data[i] := by
  rcases readAtMostNBytes_cases hread with ⟨-, rfl, rfl⟩ | ⟨-, -, rfl, rfl⟩ |
    ⟨hn, -, hpos, data, hdata, hlen, rfl, rfl⟩
  · simp [RecvReturn.data, h]
  · simp [RecvReturn.data, h]
  have hle := h.nbr_le_nxt
  have hnxt := h.nxt_le
  have hsize := h.sizeToRead_eq
  have hlt := b.nxt.toNat_lt
  have hlast : sizeSub (b.nbr.toNat + min n b.sizeToRead) 1 =
      b.nbr.toNat + data.length - 1 := by
    rw [sizeSub_of_le (by omega), hlen]
  rw [hlast] at hdata
  obtain ⟨-, hP⟩ := RingBuffer.read_window (by omega) (by omega)
    (h.readable.subset le_rfl (by omega)) hdata
  have hnbr : (b.nbr + UInt32.ofNat data.length).toNat = b.nbr.toNat + data.length := by
    have hofNat := UInt32.toNat_ofNat_of_lt (n := data.length) (by omega)
    rw [UInt32.toNat_add_of_lt (by omega), hofNat]
  refine ⟨⟨?_, ?_, ?_, h.canonical, ?_, ?_⟩, rfl, rfl, rfl, hnbr, hP⟩
  · simp only [hnbr]
    omega
  · simp only [hnbr]
    omega
  · simp only [hnbr]
    exact h.readable.subset (by omega) le_rfl
  · intro x hx
    have := h.inRing x hx
    simp only [hnbr]
    omega
  · intro x hx hxle
    refine h.early x hx (UInt32.le_iff_toNat_le.mpr ?_)
    have := UInt32.le_iff_toNat_le.mp hxle
    rw [hnbr] at this
    omega

/-! ## Storing a segment -/

theorem write {data : List Byte} {lo n : ℕ} {rb : RingBuffer Byte N} (h : Inv P b)
    (hwrite : b.toRingBuffer.write data lo (sizeSub (b.nbr.toNat + N) 1) = .ok (n, rb))
    (hlo : b.nbr.toNat ≤ lo) (hP : ∀ i (hi : i < data.length), P (lo + i) data[i]) :
    Inv P { b with toRingBuffer := rb } ∧ Window P rb.buf lo (lo + n) ∧
      n = if lo + 1 < b.nbr.toNat + N then min data.length (b.nbr.toNat + N - lo) else 0 := by
  have hnew := RingBuffer.write_window_new hwrite hP
  rcases Nat.eq_zero_or_pos N with rfl | hN
  · -- Without cells nothing can be stored.
    have hn : n = 0 := by
      rcases Nat.lt_or_ge lo (sizeSub (b.nbr.toNat + 0) 1) with hlt | hge
      · exact absurd (RingBuffer.write_cells hlt hwrite).1 (by omega)
      · have := RingBuffer.write_size hwrite
        rwa [RingBuffer.writeSize, if_pos hge] at this
    have hrb : rb = b.toRingBuffer := by
      cases rb
      exact congrArg RingBuffer.mk (Vector.eq_empty.trans Vector.eq_empty.symm)
    exact ⟨hrb ▸ h, hnew, by rw [if_neg (by omega)]; exact hn⟩
  have hlast : sizeSub (b.nbr.toNat + N) 1 = b.nbr.toNat + N - 1 := sizeSub_of_le (by omega)
  rw [hlast] at hwrite
  refine ⟨⟨h.nbr_le_nxt, h.nxt_le, ?_, h.canonical, h.inRing, ?_⟩, hnew, ?_⟩
  · exact RingBuffer.write_preserves_window hwrite hlo (by omega) hP h.readable le_rfl h.nxt_le
  · intro x hx hle
    have hxN := h.inRing x hx
    exact RingBuffer.write_preserves_window hwrite hlo (by omega) hP (h.early x hx hle)
      (UInt32.le_iff_toNat_le.mp hle) (by omega)
  · have hsize := RingBuffer.write_size hwrite
    rw [hsize, RingBuffer.writeSize]
    split <;> split <;> omega

theorem emplaceMerge {I : RightOpenInterval UInt32} {e : UInt32}
    {early : RightOpenIntervalSet UInt32} (h : Inv P b)
    (hmerge : b.earlyArrivals.emplaceMerge I = .ok (e, early))
    (hI : Window P b.buf I.begin.toNat I.stop.toNat) (hstop : I.stop.toNat ≤ b.nbr.toNat + N) :
    Inv P { b with earlyArrivals := early } := by
  obtain ⟨hcan, hcover⟩ := RightOpenIntervalSet.emplaceMerge_spec h.canonical hmerge
  refine ⟨h.nbr_le_nxt, h.nxt_le, h.readable, hcan, ?_, ?_⟩
  · intro x hx
    rw [hcover] at hx
    rcases hx with hx | ⟨-, hx⟩
    · exact h.inRing x hx
    · exact lt_of_lt_of_le (UInt32.lt_iff_toNat_lt.mp hx) hstop
  · intro x hx hle
    rw [hcover] at hx
    rcases hx with hx | ⟨hx, hx'⟩
    · exact h.early x hx hle
    · exact hI.subset (UInt32.le_iff_toNat_le.mp hx) (UInt32.lt_iff_toNat_lt.mp hx')

/-- Moving RCV.NXT to the end of the block of an interval keeps the invariant, if bytes have
been stored from RCV.NXT to the end of the interval at least, and unless RCV.NXT falls behind
the reader. -/
theorem mergeRemove {I : RightOpenInterval UInt32} {nxt : UInt32} {hi : ℕ}
    {early : RightOpenIntervalSet UInt32} (h : Inv P b)
    (hmerge : b.earlyArrivals.mergeRemove I = .ok (nxt, early))
    (hnew : Window P b.buf b.nxt.toNat hi) (hstop : I.stop.toNat ≤ hi)
    (hhi : hi ≤ b.nbr.toNat + N) (hle : b.nbr.toNat ≤ nxt.toNat) :
    Inv P { b with nxt := nxt, earlyArrivals := early } := by
  obtain ⟨hge, hblock, -, hcan, hsub, -⟩ :=
    RightOpenIntervalSet.mergeRemove_spec h.canonical hmerge
  -- Past the new bytes, the positions before the new RCV.NXT are early arrivals.
  have hearly : ∀ k, hi ≤ k → k < nxt.toNat → UInt32.ofNat k ∈ cover b.earlyArrivals.intervals := by
    intro k hk hk'
    have hlt := nxt.toNat_lt
    refine hblock ⟨UInt32.le_iff_toNat_le.mpr ?_, UInt32.lt_iff_toNat_lt.mpr ?_⟩ <;>
      rw [UInt32.toNat_ofNat_of_lt (by omega)] <;> omega
  refine ⟨hle, ?_, ?_, hcan, fun x hx ↦ h.inRing x (hsub hx), fun x hx ↦ h.early x (hsub hx)⟩
  · by_contra hover
    have hover' : b.nbr.toNat + N < nxt.toNat := Nat.lt_of_not_le hover
    have hlt := nxt.toNat_lt
    have hx := h.inRing _ (hearly (nxt.toNat - 1) (by omega) (by omega))
    rw [UInt32.toNat_ofNat_of_lt (by omega)] at hx
    omega
  · intro k hk hk'
    rcases Nat.lt_or_ge k b.nxt.toNat with hlt | hge'
    · exact h.readable k hk hlt
    rcases Nat.lt_or_ge k hi with hlt | hge''
    · exact hnew k hge' hlt
    · have hlt : k < 2 ^ 32 := hk'.trans nxt.toNat_lt
      have hx := h.early _ (hearly k hge'' hk') (UInt32.le_iff_toNat_le.mpr (by
        rw [UInt32.toNat_ofNat_of_lt hlt]; exact hk))
      rw [UInt32.toNat_ofNat_of_lt hlt] at hx
      exact hx k le_rfl (Nat.lt_succ_self k)

variable {seqNum : UInt32} {payload : List Byte} {r : UInt32 × ℕ}

/-- A segment that does not extend the readable data leaves the pointers as they are. -/
theorem onRecv_of_not_extends (h : Inv P b) (hadm : Admits P seqNum payload)
    (hrecv : b.onRecv seqNum payload = .ok (r, b')) (hext : ¬b.Extends seqNum payload.length) :
    Inv P b' ∧ b'.nbr = b.nbr ∧ b'.nxt = b.nxt ∧ b'.stopped = b.stopped ∧
      r = (b.nxt, b.sizeFree) ∧ (Ahead b → Ahead b') := by
  have hend := hadm.1
  have hnbr := h.nbr_le_nxt
  obtain ⟨-, ⟨rb, hlt, hwrite, rfl, rfl⟩ | ⟨n, rb, I, e, early, hlt, hwrite, hn, hI, hmerge, rfl,
    rfl⟩ | ⟨-, -, rfl, rfl⟩ | ⟨rb, hle, hlen, hwrite, rfl, rfl⟩ |
    ⟨n, rb, I, nxt, early, hle, hlen, hwrite, hn, -⟩⟩ := onRecv_cases hrecv
  · have hlt' := UInt32.lt_iff_toNat_lt.mp hlt
    exact ⟨(h.write hwrite (by omega) hadm.2).1, rfl, rfl, rfl, rfl, id⟩
  · have hlt' := UInt32.lt_iff_toNat_lt.mp hlt
    obtain ⟨hinv, hnew, hsize⟩ := h.write hwrite (by omega) hadm.2
    obtain ⟨hbegin, hstop⟩ := RightOpenInterval.make_eq_ok.mp hI
    have hstop' : I.stop.toNat = seqNum.toNat + n := by
      have hofNat := UInt32.toNat_ofNat_of_lt (n := n) (by split at hsize <;> omega)
      rw [hstop, UInt32.toNat_add_of_lt (by split at hsize <;> omega), hofNat]
    rw [← hbegin] at hnew
    refine ⟨hinv.emplaceMerge hmerge (by rwa [hstop', ← hbegin]) ?_, rfl, rfl, rfl, rfl, ?_⟩
    · rw [hstop']
      simp only
      split at hsize <;> omega
    · intro hahead hmax x hx
      rw [(RightOpenIntervalSet.emplaceMerge_spec h.canonical hmerge).2] at hx
      rcases hx with hx | ⟨hx, -⟩
      · exact hahead hmax x hx
      · exact lt_of_lt_of_le hlt (hbegin ▸ hx)
  · exact ⟨h, rfl, rfl, rfl, rfl, id⟩
  · exact ⟨(h.write hwrite hnbr (hadm.drop hle)).1, rfl, rfl, rfl, rfl, id⟩
  · exfalso
    have hsize := (h.mono (Q := fun _ _ ↦ True) fun _ _ _ ↦ trivial).write hwrite hnbr
      (fun _ _ ↦ trivial) |>.2.2
    have hoff := UInt32.toNat_sub_of_le _ _ hle
    have hle' := UInt32.le_iff_toNat_le.mp hle
    refine hext ⟨hle, by omega, ?_⟩
    by_contra hfull
    rw [if_neg hfull] at hsize
    omega

/-- A segment that extends the readable data moves RCV.NXT to the end of the block that
`[seqNum, seqNum + newBytes)` makes with the early arrivals.  The invariant is kept unless
RCV.NXT falls behind the reader. -/
theorem onRecv_of_extends (h : Inv P b) (hadm : Admits P seqNum payload)
    (hrecv : b.onRecv seqNum payload = .ok (r, b')) (hext : b.Extends seqNum payload.length) :
    (b.nbr.toNat ≤ b'.nxt.toNat → Inv P b') ∧ b'.nbr = b.nbr ∧ b'.stopped = b.stopped ∧
      r = (b'.nxt, sizeSub b.sizeFree (b.newBytes seqNum payload.length)) ∧
      seqNum.toNat + b.newBytes seqNum payload.length ≤ b'.nxt.toNat ∧
      (b'.nxt = seqNum + UInt32.ofNat (b.newBytes seqNum payload.length) ↔
        seqNum + UInt32.ofNat (b.newBytes seqNum payload.length) ∉
          cover b.earlyArrivals.intervals) ∧
      (Ahead b → Ahead b') := by
  have hend := hadm.1
  obtain ⟨hle, hlt, hroom⟩ := hext
  have hle' := UInt32.le_iff_toNat_le.mp hle
  have hoff := UInt32.toNat_sub_of_le _ _ hle
  have hdata := hadm.drop hle
  obtain ⟨-, ⟨rb, hlt', -⟩ | ⟨n, rb, I, e, early, hlt', -⟩ | ⟨-, hlen, -⟩ |
    ⟨rb, -, hlen, hwrite, -⟩ |
    ⟨n, rb, I, nxt, early, -, hlen, hwrite, hn, hI, hmerge, rfl, rfl⟩⟩ := onRecv_cases hrecv
  · exact absurd hlt' hle.not_gt
  · exact absurd hlt' hle.not_gt
  · omega
  · have hsize := (h.write hwrite h.nbr_le_nxt hdata).2.2
    rw [if_pos hroom, List.length_drop] at hsize
    omega
  obtain ⟨hinv, hnew, hsize⟩ := h.write hwrite h.nbr_le_nxt hdata
  rw [if_pos hroom, List.length_drop] at hsize
  have hnB : b.newBytes seqNum payload.length = n := by
    rw [newBytes]
    omega
  obtain ⟨hbegin, hstop⟩ := RightOpenInterval.make_eq_ok.mp hI
  have hstop' : I.stop.toNat = seqNum.toNat + n := by
    have hofNat := UInt32.toNat_ofNat_of_lt (n := n) (by omega)
    rw [hstop, UInt32.toNat_add_of_lt (by omega), hofNat]
  obtain ⟨hge, hblock, hout, -, hsub, hrest⟩ :=
    RightOpenIntervalSet.mergeRemove_spec h.canonical hmerge
  rw [hnB, ← hstop, ← hstop']
  refine ⟨?_, rfl, rfl, rfl, UInt32.le_iff_toNat_le.mp hge, ?_, ?_⟩
  · exact hinv.mergeRemove hmerge hnew (by omega) (by simp only; omega)
  · constructor
    · intro heq
      exact heq ▸ hout
    · intro hnot
      refine le_antisymm (not_lt.mp fun hgt ↦ ?_) hge
      exact hnot (hblock ⟨le_rfl, hgt⟩)
  · intro hahead hmax x hx
    rcases hrest with hrest | hgreatest
    · apply (hrest x hx).resolve_left
      intro hx'
      have := hahead (by omega) x (hsub hx)
      exact (hx'.trans_le (hbegin ▸ hle)).not_gt this
    · have := UInt32.le_iff_toNat_le.mp (hgreatest (UInt32.ofNat (2 ^ 32 - 1)))
      rw [UInt32.toNat_ofNat_of_lt (by omega)] at this
      simp only at hmax
      omega

/-- Consuming a sequence number without storing anything keeps the invariant where any byte
is admitted, unless the ring is full. -/
theorem onCtrl (h : Inv P b) (hwrap : b.nxt.toNat + 1 < 2 ^ 32)
    (hroom : b.nxt.toNat < b.nbr.toNat + N) (hP : ∀ x, P b.nxt.toNat x) :
    Inv P (b.onCtrl b.nxt).2 := by
  have hnxt : (b.nxt + 1).toNat = b.nxt.toNat + 1 := UInt32.toNat_add_of_lt hwrap
  have hnbr := h.nbr_le_nxt
  rw [RecvBuffer.onCtrl, if_pos rfl]
  refine ⟨?_, ?_, ?_, h.canonical, h.inRing, h.early⟩
  · simp only [hnxt]
    omega
  · simp only [hnxt]
    omega
  · intro k hk hk'
    simp only [hnxt] at hk'
    rcases Nat.lt_or_ge k b.nxt.toNat with hlt | hge
    · exact h.readable k hk hlt
    · obtain rfl : k = b.nxt.toNat := by omega
      have hcell : b.nxt.toNat % N < N := Nat.mod_lt _ (by omega)
      exact ⟨_, Vector.getElem?_eq_getElem hcell, hP _⟩

end Inv

theorem onCtrl_of_ne {seqNum : UInt32} (hne : seqNum ≠ b.nxt) :
    b.onCtrl seqNum = ((b.nxt, b.sizeFree), b) := by
  rw [onCtrl, if_neg hne]

end RecvBuffer

end Tns.Tcp
