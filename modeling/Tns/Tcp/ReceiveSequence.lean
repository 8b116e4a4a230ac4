import Mathlib.Data.List.Forall2
import Tns.Tcp.RecvInvariant

/-!
# Independence of the initial receive sequence number

Two receive buffers that start at different numbers and get the same segments,
counted from their starts, behave alike as long as no sequence number of either
comes close to `2 ^ 32`.  The offset of a partly old segment is a modular
difference, but the test for an early arrival, the positions in the ring and the
set of intervals compare sequence numbers as integers.
-/

namespace Tns.Tcp

open Tns.Library Tns.Library.Cyclic

/-- The calls of a run, with sequence numbers given by their distance from the initial one. -/
inductive RecvSeqCall where
  | onRecv (d : UInt32) (payload : List Byte)
  | readAtMostNBytes (buffSize n : ℕ)
  deriving DecidableEq

/-- The same return value with the acknowledgment number moved by `k`. -/
def RecvReturn.shift (k : UInt32) : RecvReturn → RecvReturn
  | ackWnd ack wnd => ackWnd (ack + k) wnd
  | bytes r => bytes r

/-- What `onRecv` takes a segment for. -/
inductive SegmentClass where
  | early | stale | inOrder
  deriving DecidableEq

/-- `x` is as far from `i` as `y` is from `j`, as integers. -/
def SameSeq (i j x y : UInt32) : Prop := x.toNat + j.toNat = y.toNat + i.toNat

instance (i j x y : UInt32) : Decidable (SameSeq i j x y) := inferInstanceAs (Decidable (_ = _))

namespace SameSeq

variable {i j x x' y y' : UInt32}

theorem lt_iff (h : SameSeq i j x y) (h' : SameSeq i j x' y') : x < x' ↔ y < y' := by
  simp only [SameSeq] at h h'
  rw [UInt32.lt_iff_toNat_lt, UInt32.lt_iff_toNat_lt]
  omega

theorem le_iff (h : SameSeq i j x y) (h' : SameSeq i j x' y') : x ≤ x' ↔ y ≤ y' := by
  rw [← not_lt, ← not_lt, h'.lt_iff h]

theorem toNat_sub_eq (h : SameSeq i j x y) (h' : SameSeq i j x' y') :
    (y - y').toNat = (x - x').toNat := by
  have hx := x.toNat_lt
  have hx' := x'.toNat_lt
  have hy := y.toNat_lt
  have hy' := y'.toNat_lt
  simp only [SameSeq] at h h'
  rw [UInt32.toNat_sub, UInt32.toNat_sub]
  omega

theorem symm (h : SameSeq i j x y) : SameSeq j i y x := Eq.symm h

theorem exists_left (hlo : j.toNat ≤ y.toNat + i.toNat)
    (hhi : y.toNat + i.toNat < 2 ^ 32 + j.toNat) : ∃ x, SameSeq i j x y := by
  refine ⟨UInt32.ofNat (y.toNat + i.toNat - j.toNat), ?_⟩
  rw [SameSeq, UInt32.toNat_ofNat_of_lt (by omega)]
  omega

end SameSeq

namespace RecvBuffer

variable {N : ℕ} {b b' c c' : RecvBuffer N} {i j seqNum : UInt32} {payload : List Byte} {n : ℕ}

/-- One call of a run whose sequence numbers are counted from `base`. -/
def seqCall (base : UInt32) (b : RecvBuffer N) : RecvSeqCall → Exec (RecvReturn × RecvBuffer N)
  | .onRecv d payload => b.call (.onRecv (base + d) payload)
  | .readAtMostNBytes buffSize n => b.call (.readAtMostNBytes buffSize n)

abbrev SeqStep (N : ℕ) := Transition (RecvBuffer N) RecvSeqCall RecvReturn

def classify (b : RecvBuffer N) (seqNum : UInt32) (len : ℕ) : SegmentClass :=
  if b.nxt < seqNum then .early
  else if len ≤ (b.nxt - seqNum).toNat then .stale
  else .inOrder

/-- The segment extends the readable data, but the interval it is recorded with ends before
what has been read. -/
def FallsBehind (b : RecvBuffer N) (seqNum : UInt32) (len : ℕ) : Prop :=
  b.Extends seqNum len ∧ seqNum.toNat + b.newBytes seqNum len < b.nbr.toNat

instance (b : RecvBuffer N) (seqNum : UInt32) (len : ℕ) : Decidable (b.FallsBehind seqNum len) :=
  inferInstanceAs (Decidable (_ ∧ _))

/-- A segment is not empty and starts at the same distance from `i` and from `j`, and if it is
not stale, the two numbers after its end exist in both runs and RCV.NXT does not fall behind
the reader.  A reader has room for what it asks for. -/
def NoWrap (i j : UInt32) (b : RecvBuffer N) : RecvSeqCall → Prop
  | .onRecv d payload =>
      payload ≠ [] ∧ SameSeq i j (i + d) (j + d) ∧
        (b.classify (i + d) payload.length = .stale ∨
          (i + d).toNat + payload.length + 2 < 2 ^ 32 ∧
            (j + d).toNat + payload.length + 2 < 2 ^ 32 ∧ ¬b.FallsBehind (i + d) payload.length)
  | .readAtMostNBytes buffSize n => n ≤ buffSize

instance (i j : UInt32) (b : RecvBuffer N) : DecidablePred (NoWrap i j b)
  | .onRecv _ _ => inferInstanceAs (Decidable (_ ∧ _ ∧ _))
  | .readAtMostNBytes _ _ => inferInstanceAs (Decidable (_ ≤ _))

/-! ## One buffer -/

/-- The invariant of a buffer whose early arrivals end well before `2 ^ 32`. -/
structure Sound (b : RecvBuffer N) : Prop where
  inv : Inv (fun _ _ ↦ True) b
  ahead : ∀ x ∈ cover b.earlyArrivals.intervals, b.nxt < x
  room : ∀ x ∈ cover b.earlyArrivals.intervals, x.toNat + 3 < 2 ^ 32

theorem sound_init (buf : Vector Byte N) (initRecvNxt : UInt32) : Sound (init buf initRecvNxt) :=
  ⟨inv_init _ _, by simp [init], by simp [init]⟩

theorem hasRoom {e : UInt32} (h : e.toNat + 2 < 2 ^ 32) : RightOpenIntervalSet.HasRoom e := by
  simp only [RightOpenIntervalSet.HasRoom, UInt32.lt_iff_toNat_lt, UInt32.toNat_add,
    UInt32.reduceToNat]
  omega

theorem Sound.hasRoom (h : Sound b) :
    ∀ J ∈ b.earlyArrivals.intervals, RightOpenIntervalSet.HasRoom J.stop := by
  intro J hJ
  have hlt := UInt32.lt_iff_toNat_lt.mp J.begin_lt_stop
  have hone := UInt32.toNat_sub_one (x := J.stop) (by omega)
  have hmem : J.stop - 1 ∈ cover b.earlyArrivals.intervals := by
    refine carrier_subset_cover hJ ⟨?_, ?_⟩
    · rw [UInt32.le_iff_toNat_le, hone]
      omega
    · rw [UInt32.lt_iff_toNat_lt, hone]
      omega
  have hroom := h.room _ hmem
  exact RecvBuffer.hasRoom (by omega)

theorem exists_make (hn : 0 < n) (hend : seqNum.toNat + n < 2 ^ 32) :
    ∃ I, RightOpenInterval.make seqNum (seqNum + UInt32.ofNat n) = .ok I ∧ I.begin = seqNum ∧
      I.stop.toNat = seqNum.toNat + n := by
  have hstop : (seqNum + UInt32.ofNat n).toNat = seqNum.toNat + n := by
    have hofNat := UInt32.toNat_ofNat_of_lt (n := n) (by omega)
    rw [UInt32.toNat_add_of_lt (by omega), hofNat]
  have hlt : seqNum < seqNum + UInt32.ofNat n := by
    rw [UInt32.lt_iff_toNat_lt, hstop]
    omega
  exact ⟨⟨seqNum, _, hlt⟩, by rw [RightOpenInterval.make, dif_pos hlt], rfl, hstop⟩

/-- What `onRecv` does with a segment of which the ring takes `n` bytes. -/
structure Takes (b : RecvBuffer N) (seqNum : UInt32) (n : ℕ) (b' : RecvBuffer N) : Prop where
  nbr : b'.nbr = b.nbr
  stopped : b'.stopped = b.stopped
  none : n = 0 → b'.nxt = b.nxt ∧ b'.earlyArrivals = b.earlyArrivals
  early : b.nxt < seqNum → b'.nxt = b.nxt ∧ ∀ x, x ∈ cover b'.earlyArrivals.intervals ↔
    x ∈ cover b.earlyArrivals.intervals ∨ seqNum ≤ x ∧ x.toNat < seqNum.toNat + n
  inOrder : seqNum ≤ b.nxt → 0 < n → seqNum.toNat + n ≤ b'.nxt.toNat ∧
    (∀ x, seqNum.toNat + n ≤ x.toNat → x < b'.nxt → x ∈ cover b.earlyArrivals.intervals) ∧
    b'.nxt ∉ cover b.earlyArrivals.intervals ∧
    ∀ x, x ∈ cover b'.earlyArrivals.intervals ↔
      x ∈ cover b.earlyArrivals.intervals ∧ b'.nxt < x

theorem onRecv_of_stale (hne : payload ≠ []) (hstale : b.classify seqNum payload.length = .stale) :
    b.onRecv seqNum payload = .ok ((b.nxt, b.sizeFree), b) := by
  unfold classify at hstale
  split at hstale
  · cases hstale
  · rename_i hearly
    split at hstale
    · rename_i hold
      simp only [onRecv, Exec.assertThat, hne, ne_eq, not_false_eq_true, if_true, Exec.ok_bind,
        hearly, if_false, hold]
      rfl
    · cases hstale

theorem write_last (hN : 0 < N) (b : RecvBuffer N) :
    sizeSub (b.nbr.toNat + N) 1 = b.nbr.toNat + N - 1 := sizeSub_of_le (by omega)

/-- An early arrival is stored in its place and recorded. -/
theorem Sound.exists_onRecv_early (hN : 0 < N) (h : Sound b) (hne : payload ≠ [])
    (hlt : b.nxt < seqNum) (hend : seqNum.toNat + payload.length + 2 < 2 ^ 32) :
    ∃ n b', b.toRingBuffer.write payload seqNum.toNat (b.nbr.toNat + N - 1) =
        .ok (n, b'.toRingBuffer) ∧ Takes b seqNum n b' ∧
      b.onRecv seqNum payload = .ok ((b'.nxt, b.sizeFree), b') := by
  have hlt' := UInt32.lt_iff_toNat_lt.mp hlt
  have hnbr := h.inv.nbr_le_nxt
  obtain ⟨n, rb, hwrite⟩ := RingBuffer.exists_write b.toRingBuffer payload seqNum.toNat
    (b.nbr.toNat + N - 1) (by omega)
  have hle := RingBuffer.write_le_length hwrite
  rcases Nat.eq_zero_or_pos n with rfl | hn
  · refine ⟨0, { b with toRingBuffer := rb }, hwrite, ⟨rfl, rfl, fun _ ↦ ⟨rfl, rfl⟩, fun _ ↦ ?_,
      fun hge ↦ absurd hlt hge.not_gt⟩, ?_⟩
    · refine ⟨rfl, fun x ↦ ⟨Or.inl, ?_⟩⟩
      rintro (hx | ⟨hx, hx'⟩)
      · exact hx
      · exact absurd (UInt32.le_iff_toNat_le.mp hx) (by omega)
    · simp only [onRecv, Exec.assertThat, hne, ne_eq, not_false_eq_true, if_true, Exec.ok_bind,
        hlt, b.write_last hN, hwrite, lt_irrefl, if_false]
      rfl
  obtain ⟨I, hI, hbegin, hstop⟩ := exists_make hn (show seqNum.toNat + n < 2 ^ 32 by omega)
  obtain ⟨⟨e, early⟩, hmerge⟩ := RightOpenIntervalSet.exists_emplaceMerge h.inv.canonical
    (RecvBuffer.hasRoom (e := I.stop) (by omega)) h.hasRoom
  obtain ⟨-, hcover⟩ := RightOpenIntervalSet.emplaceMerge_spec h.inv.canonical hmerge
  refine ⟨n, { b with toRingBuffer := rb, earlyArrivals := early }, hwrite,
    ⟨rfl, rfl, fun h0 ↦ absurd h0 hn.ne', fun _ ↦ ⟨rfl, fun x ↦ ?_⟩,
      fun hge ↦ absurd hlt hge.not_gt⟩, ?_⟩
  · rw [hcover, Set.mem_union, Library.RightOpenInterval.mem_carrier, hbegin,
      UInt32.lt_iff_toNat_lt, hstop]
  · simp only [onRecv, Exec.assertThat, hne, ne_eq, not_false_eq_true, if_true, Exec.ok_bind,
      hlt, b.write_last hN, hwrite, hn, hI, hmerge]
    rfl

/-- A segment that brings the next byte expected is stored from there on, and RCV.NXT moves to
the end of the block it makes with the early arrivals. -/
theorem Sound.exists_onRecv_inOrder (hN : 0 < N) (h : Sound b) (hne : payload ≠ [])
    (hle : seqNum ≤ b.nxt) (hnew : (b.nxt - seqNum).toNat < payload.length)
    (hend : seqNum.toNat + payload.length + 2 < 2 ^ 32) :
    ∃ n b', b.toRingBuffer.write (payload.drop (b.nxt - seqNum).toNat) b.nxt.toNat
        (b.nbr.toNat + N - 1) = .ok (n, b'.toRingBuffer) ∧ Takes b seqNum n b' ∧
      b.onRecv seqNum payload = .ok ((b'.nxt, sizeSub b.sizeFree n), b') := by
  have hnbr := h.inv.nbr_le_nxt
  obtain ⟨n, rb, hwrite⟩ := RingBuffer.exists_write b.toRingBuffer
    (payload.drop (b.nxt - seqNum).toNat) b.nxt.toNat (b.nbr.toNat + N - 1) (by omega)
  have hlen := RingBuffer.write_le_length hwrite
  rw [List.length_drop] at hlen
  rcases Nat.eq_zero_or_pos n with rfl | hn
  · refine ⟨0, { b with toRingBuffer := rb }, hwrite, ⟨rfl, rfl, fun _ ↦ ⟨rfl, rfl⟩,
      fun hlt ↦ absurd hlt hle.not_gt, fun _ h0 ↦ absurd h0 (lt_irrefl 0)⟩, ?_⟩
    simp only [onRecv, Exec.assertThat, hne, ne_eq, not_false_eq_true, if_true, Exec.ok_bind,
      hle.not_gt, if_false, hnew.not_ge, b.write_last hN, hwrite]
    rfl
  obtain ⟨I, hI, hbegin, hstop⟩ := exists_make hn (show seqNum.toNat + n < 2 ^ 32 by omega)
  obtain ⟨⟨nxt, early⟩, hmerge⟩ := RightOpenIntervalSet.exists_mergeRemove h.inv.canonical
    (RecvBuffer.hasRoom (e := I.stop) (by omega)) h.hasRoom
  obtain ⟨hge, hblock, hout, -, hsub, hrest⟩ :=
    RightOpenIntervalSet.mergeRemove_spec h.inv.canonical hmerge
  have hge' := UInt32.le_iff_toNat_le.mp hge
  have hbefore : ∀ x, seqNum.toNat + n ≤ x.toNat → x < nxt →
      x ∈ cover b.earlyArrivals.intervals := fun x hx hx' ↦
    hblock ⟨UInt32.le_iff_toNat_le.mpr (by omega), hx'⟩
  refine ⟨n, { b with toRingBuffer := rb, nxt := nxt, earlyArrivals := early }, hwrite,
    ⟨rfl, rfl, fun h0 ↦ absurd h0 hn.ne', fun hlt ↦ absurd hlt hle.not_gt, fun _ _ ↦
      ⟨by simp only; omega, hbefore, hout, fun x ↦ ⟨fun hx ↦ ⟨hsub hx, ?_⟩, fun hx ↦
        RightOpenIntervalSet.mem_of_mergeRemove h.inv.canonical hmerge hx.1 hx.2⟩⟩⟩, ?_⟩
  · rcases hrest with hrest | hgreatest
    · apply (hrest x hx).resolve_left
      intro hx'
      exact ((hbegin ▸ hx').trans_le hle).not_gt (h.ahead x (hsub hx))
    · -- The number before the end of the block is stored, so RCV.NXT is not the greatest.
      exfalso
      have hgreat := UInt32.le_iff_toNat_le.mp (hgreatest (UInt32.ofNat (2 ^ 32 - 1)))
      rw [UInt32.toNat_ofNat_of_lt (by omega)] at hgreat
      have hone := UInt32.toNat_sub_one (x := nxt) (by omega)
      have hroom := h.room (nxt - 1)
        (hbefore _ (by omega) (UInt32.lt_iff_toNat_lt.mpr (by omega)))
      omega
  · simp only [onRecv, Exec.assertThat, hne, ne_eq, not_false_eq_true, if_true, Exec.ok_bind,
      hle.not_gt, if_false, hnew.not_ge, b.write_last hN, hwrite, hn.ne', hI, hmerge]
    rfl

/-- A segment that is not stale is accepted; both cases write from the larger of RCV.NXT and
its start on. -/
theorem Sound.exists_onRecv (hN : 0 < N) (h : Sound b) (hne : payload ≠ [])
    (hfresh : b.classify seqNum payload.length ≠ .stale)
    (hend : seqNum.toNat + payload.length + 2 < 2 ^ 32) :
    ∃ n b', b.toRingBuffer.write (payload.drop (b.nxt.toNat - seqNum.toNat))
        (max b.nxt.toNat seqNum.toNat) (b.nbr.toNat + N - 1) = .ok (n, b'.toRingBuffer) ∧
      Takes b seqNum n b' ∧ b.onRecv seqNum payload =
        .ok ((b'.nxt, if b.nxt < seqNum then b.sizeFree else sizeSub b.sizeFree n), b') := by
  by_cases hlt : b.nxt < seqNum
  · have hlt' := UInt32.lt_iff_toNat_lt.mp hlt
    simp only [if_pos hlt]
    rw [max_eq_right hlt'.le, Nat.sub_eq_zero_of_le hlt'.le, List.drop_zero]
    exact h.exists_onRecv_early hN hne hlt hend
  · have hle := not_lt.mp hlt
    have hle' := UInt32.le_iff_toNat_le.mp hle
    have hnew : (b.nxt - seqNum).toNat < payload.length := by
      rw [classify, if_neg hlt] at hfresh
      by_contra hold
      exact hfresh (if_pos (not_lt.mp hold))
    simp only [if_neg hlt]
    rw [max_eq_left hle', ← UInt32.toNat_sub_of_le _ _ hle]
    exact h.exists_onRecv_inOrder hN hne hle hnew hend

theorem Sound.onRecv {r : UInt32 × ℕ} (h : Sound b)
    (hend : seqNum.toNat + payload.length + 2 < 2 ^ 32)
    (hbehind : ¬b.FallsBehind seqNum payload.length) (hrecv : b.onRecv seqNum payload = .ok (r, b'))
    (htakes : Takes b seqNum n b') (hn : n ≤ payload.length) : Sound b' := by
  have hadm : Admits (fun _ _ ↦ True) seqNum payload := ⟨by omega, fun _ _ ↦ trivial⟩
  have hcover : ∀ x ∈ cover b'.earlyArrivals.intervals, b'.nxt < x ∧ x.toNat + 3 < 2 ^ 32 := by
    intro x hx
    rcases lt_or_ge b.nxt seqNum with hlt | hle
    · obtain ⟨hnxt, hearly⟩ := htakes.early hlt
      rw [hnxt]
      rcases (hearly x).mp hx with hx | ⟨hx, hx'⟩
      · exact ⟨h.ahead x hx, h.room x hx⟩
      · exact ⟨hlt.trans_le hx, by omega⟩
    rcases Nat.eq_zero_or_pos n with hzero | hpos
    · obtain ⟨hnxt, hearly⟩ := htakes.none hzero
      rw [hearly] at hx
      exact ⟨hnxt ▸ h.ahead x hx, h.room x hx⟩
    · obtain ⟨-, -, -, hearly⟩ := htakes.inOrder hle hpos
      obtain ⟨hx, hx'⟩ := (hearly x).mp hx
      exact ⟨hx', h.room x hx⟩
  refine ⟨?_, fun x hx ↦ (hcover x hx).1, fun x hx ↦ (hcover x hx).2⟩
  by_cases hext : b.Extends seqNum payload.length
  · obtain ⟨hinv, -, -, -, hge, -⟩ := h.inv.onRecv_of_extends hadm hrecv hext
    refine hinv (le_trans ?_ hge)
    by_contra hlt
    exact hbehind ⟨hext, not_le.mp hlt⟩
  · exact (h.inv.onRecv_of_not_extends hadm hrecv hext).1

theorem Sound.readAtMostNBytes {buffSize : ℕ} {r : Except SocketError (List Byte)} (h : Sound b)
    (hread : b.readAtMostNBytes buffSize n = .ok (r, b')) : Sound b' := by
  obtain ⟨hinv, hnxt, hearly, -⟩ := h.inv.readAtMostNBytes hread
  refine ⟨hinv, ?_, ?_⟩
  · rw [hnxt, hearly]
    exact h.ahead
  · rw [hearly]
    exact h.room

/-! ## Two buffers -/

/-- The same buffer, counted from `i` and from `j`.  Only the cells of data that is stored have
to agree. -/
structure Same (i j : UInt32) (b c : RecvBuffer N) : Prop where
  base : i.toNat ≤ b.nbr.toNat
  nbr : SameSeq i j b.nbr c.nbr
  nxt : SameSeq i j b.nxt c.nxt
  stopped : c.stopped = b.stopped
  early : ∀ x y, SameSeq i j x y →
    (x ∈ cover b.earlyArrivals.intervals ↔ y ∈ cover c.earlyArrivals.intervals)
  cells : ∀ x y, SameSeq i j x y → b.nbr ≤ x →
    x < b.nxt ∨ x ∈ cover b.earlyArrivals.intervals → cell c.buf y.toNat = cell b.buf x.toNat

/-- What is stored after a segment has been taken, and was not written just now, was stored
before. -/
theorem Takes.stored (h : Takes b seqNum n b') {x : UInt32}
    (hx : x < b'.nxt ∨ x ∈ cover b'.earlyArrivals.intervals)
    (hout : ¬(max b.nxt.toNat seqNum.toNat ≤ x.toNat ∧
      x.toNat < max b.nxt.toNat seqNum.toNat + n)) :
    x < b.nxt ∨ x ∈ cover b.earlyArrivals.intervals := by
  rcases Nat.eq_zero_or_pos n with hzero | hpos
  · rwa [(h.none hzero).1, (h.none hzero).2] at hx
  rcases lt_or_ge b.nxt seqNum with hlt | hle
  · obtain ⟨hnxt, hearly⟩ := h.early hlt
    have hlt' := UInt32.lt_iff_toNat_lt.mp hlt
    rw [hnxt, hearly] at hx
    rcases hx with hx | hx | ⟨hx, hx'⟩
    · exact .inl hx
    · exact .inr hx
    · have := UInt32.le_iff_toNat_le.mp hx
      omega
  · obtain ⟨-, hblock, -, hearly⟩ := h.inOrder hle hpos
    have hle' := UInt32.le_iff_toNat_le.mp hle
    rcases hx with hx | hx
    · refine or_iff_not_imp_left.mpr fun hge ↦ hblock x ?_ hx
      have := UInt32.le_iff_toNat_le.mp (not_lt.mp hge)
      omega
    · exact .inr ((hearly x).mp hx).1

/-- RCV.NXT comes at least as far in the first of two such buffers as in the second. -/
theorem Takes.nxt_le {seqNum' : UInt32} (h : Takes b seqNum n b') (h' : Takes c seqNum' n c')
    (hearly : ∀ x y, SameSeq i j x y →
      (x ∈ cover b.earlyArrivals.intervals ↔ y ∈ cover c.earlyArrivals.intervals))
    (hseq : SameSeq i j seqNum seqNum') (hle : seqNum ≤ b.nxt) (hle' : seqNum' ≤ c.nxt)
    (hn : 0 < n) : c'.nxt.toNat + i.toNat ≤ b'.nxt.toNat + j.toNat := by
  obtain ⟨hge, -, hout, -⟩ := h.inOrder hle hn
  obtain ⟨-, hblock', -⟩ := h'.inOrder hle' hn
  by_contra hlt
  have hc := c'.nxt.toNat_lt
  simp only [SameSeq] at hseq
  obtain ⟨y, hy⟩ := SameSeq.exists_left (i := j) (j := i) (y := b'.nxt) (by omega) (by omega)
  have hy' : b'.nxt.toNat + j.toNat = y.toNat + i.toNat := hy.symm
  exact hout ((hearly _ y hy.symm).mpr
    (hblock' y (by omega) (UInt32.lt_iff_toNat_lt.mpr (by omega))))

namespace Same

theorem init (bufI bufJ : Vector Byte N) (i j : UInt32) :
    Same i j (init bufI i) (RecvBuffer.init bufJ j) where
  base := le_rfl
  nbr := Nat.add_comm _ _
  nxt := Nat.add_comm _ _
  stopped := rfl
  early := by simp [RecvBuffer.init]
  cells x y hxy hle hx := by
    rcases hx with hlt | hx
    · exact absurd hlt hle.not_gt
    · simp [RecvBuffer.init] at hx

theorem sizeToRead_eq (h : Same i j b c) : c.sizeToRead = b.sizeToRead :=
  h.nxt.toNat_sub_eq h.nbr

theorem sizeFree_eq (h : Same i j b c) : c.sizeFree = b.sizeFree := by
  rw [sizeFree, sizeFree, h.sizeToRead_eq]

theorem classify_eq {seqNum' : UInt32} (h : Same i j b c) (hseq : SameSeq i j seqNum seqNum')
    (len : ℕ) : c.classify seqNum' len = b.classify seqNum len := by
  rw [classify, classify, h.nxt.toNat_sub_eq hseq]
  simp only [h.nxt.lt_iff hseq]

theorem fallsBehind_iff {seqNum' : UInt32} (h : Same i j b c) (hseq : SameSeq i j seqNum seqNum')
    (len : ℕ) : c.FallsBehind seqNum' len ↔ b.FallsBehind seqNum len := by
  have hnbr := h.nbr
  have hnxt := h.nxt
  simp only [SameSeq] at hseq hnbr hnxt
  simp only [FallsBehind, Extends, newBytes, UInt32.le_iff_toNat_le]
  omega

theorem offset_eq {seqNum' : UInt32} (h : Same i j b c) (hseq : SameSeq i j seqNum seqNum') :
    c.nxt.toNat - seqNum'.toNat = b.nxt.toNat - seqNum.toNat := by
  have hnxt := h.nxt
  simp only [SameSeq] at hseq hnxt
  omega

/-- The two buffers store the same number of bytes of a segment. -/
theorem write_eq (h : Same i j b c) {seqNum' : UInt32} {m : ℕ} {rb rc : RingBuffer Byte N}
    (hN : 0 < N) (hseq : SameSeq i j seqNum seqNum')
    (hb : b.toRingBuffer.write (payload.drop (b.nxt.toNat - seqNum.toNat))
      (max b.nxt.toNat seqNum.toNat) (b.nbr.toNat + N - 1) = .ok (n, rb))
    (hc : c.toRingBuffer.write (payload.drop (c.nxt.toNat - seqNum'.toNat))
      (max c.nxt.toNat seqNum'.toNat) (c.nbr.toNat + N - 1) = .ok (m, rc)) : m = n := by
  have hsize := RingBuffer.write_size hb
  have hsize' := RingBuffer.write_size hc
  rw [h.offset_eq hseq] at hsize'
  have hnbr := h.nbr
  have hnxt := h.nxt
  simp only [SameSeq] at hseq hnbr hnxt
  rw [hsize, hsize', RingBuffer.writeSize, RingBuffer.writeSize]
  split <;> split <;> omega

theorem nxt_takes (h : Same i j b c) {seqNum' : UInt32} (hseq : SameSeq i j seqNum seqNum')
    (htb : Takes b seqNum n b') (htc : Takes c seqNum' n c') : SameSeq i j b'.nxt c'.nxt := by
  rcases Nat.eq_zero_or_pos n with hzero | hpos
  · rw [(htb.none hzero).1, (htc.none hzero).1]
    exact h.nxt
  rcases lt_or_ge b.nxt seqNum with hlt | hle
  · rw [(htb.early hlt).1, (htc.early ((h.nxt.lt_iff hseq).mp hlt)).1]
    exact h.nxt
  · have hle' := (hseq.le_iff h.nxt).mp hle
    apply le_antisymm
    · exact htc.nxt_le htb (fun x y hxy ↦ (h.early y x hxy.symm).symm) hseq.symm hle' hle hpos
    · exact htb.nxt_le htc h.early hseq hle hle' hpos

theorem early_takes (h : Same i j b c) {seqNum' : UInt32} (hseq : SameSeq i j seqNum seqNum')
    (htb : Takes b seqNum n b') (htc : Takes c seqNum' n c') {x y : UInt32}
    (hxy : SameSeq i j x y) :
    x ∈ cover b'.earlyArrivals.intervals ↔ y ∈ cover c'.earlyArrivals.intervals := by
  rcases Nat.eq_zero_or_pos n with hzero | hpos
  · rw [(htb.none hzero).2, (htc.none hzero).2]
    exact h.early x y hxy
  rcases lt_or_ge b.nxt seqNum with hlt | hle
  · rw [(htb.early hlt).2, (htc.early ((h.nxt.lt_iff hseq).mp hlt)).2, h.early x y hxy,
      hseq.le_iff hxy]
    simp only [SameSeq] at hseq hxy
    apply or_congr_right
    apply and_congr_right
    intro _
    omega
  · have hle' := (hseq.le_iff h.nxt).mp hle
    rw [(htb.inOrder hle hpos).2.2.2, (htc.inOrder hle' hpos).2.2.2, h.early x y hxy,
      (h.nxt_takes hseq htb htc).lt_iff hxy]

/-- Two buffers that take the same bytes stay the same. -/
theorem takes (h : Same i j b c) (hnbr : b.nbr ≤ b.nxt) {seqNum' : UInt32}
    (hseq : SameSeq i j seqNum seqNum')
    (hb : b.toRingBuffer.write (payload.drop (b.nxt.toNat - seqNum.toNat))
      (max b.nxt.toNat seqNum.toNat) (b.nbr.toNat + N - 1) = .ok (n, b'.toRingBuffer))
    (hc : c.toRingBuffer.write (payload.drop (c.nxt.toNat - seqNum'.toNat))
      (max c.nxt.toNat seqNum'.toNat) (c.nbr.toNat + N - 1) = .ok (n, c'.toRingBuffer))
    (htb : Takes b seqNum n b') (htc : Takes c seqNum' n c') : Same i j b' c' where
  base := by
    rw [htb.nbr]
    exact h.base
  nbr := by
    rw [htb.nbr, htc.nbr]
    exact h.nbr
  nxt := h.nxt_takes hseq htb htc
  stopped := by
    rw [htb.stopped, htc.stopped]
    exact h.stopped
  early x y hxy := h.early_takes hseq htb htc hxy
  cells x y hxy hx hcell := by
    rw [h.offset_eq hseq] at hc
    rw [htb.nbr] at hx
    have hx' := UInt32.le_iff_toNat_le.mp hx
    have hnbr' := UInt32.le_iff_toNat_le.mp hnbr
    have hbase := h.base
    have hnxt := h.nxt
    have hxy' := hxy
    simp only [SameSeq] at hxy' hseq hnxt
    rw [show y.toNat = x.toNat - i.toNat + j.toNat by omega]
    apply RingBuffer.cell_write_shift hb hc (by omega) (by omega) (by omega)
    -- A cell that the write leaves alone belongs to data stored before.
    intro hout
    rw [show x.toNat - i.toNat + j.toNat = y.toNat by omega]
    apply h.cells x y hxy hx
    apply htb.stored hcell
    rintro ⟨hlo, hhi⟩
    exact hout (x.toNat - max b.nxt.toNat seqNum.toNat) (by omega) (by rw [Nat.add_sub_cancel' hlo])

theorem onRecv (h : Same i j b c) (hN : 0 < N) (hb : Sound b) (hc : Sound c) {d : UInt32}
    (hwrap : NoWrap i j b (.onRecv d payload)) :
    ∃ o b' c', b.seqCall i (.onRecv d payload) = .ok (o, b') ∧
      c.seqCall j (.onRecv d payload) = .ok (o.shift (j - i), c') ∧
      Sound b' ∧ Sound c' ∧ Same i j b' c' := by
  obtain ⟨hne, hseq, hwrap⟩ := hwrap
  have hclass := h.classify_eq hseq payload.length
  by_cases hstale : b.classify (i + d) payload.length = .stale
  · refine ⟨.ackWnd b.nxt b.sizeFree, b, c, ?_, ?_, hb, hc, h⟩
    · rw [seqCall, call, onRecv_of_stale hne hstale]
      rfl
    · rw [seqCall, call, onRecv_of_stale hne (hclass.trans hstale), h.sizeFree_eq,
        UInt32.eq_add_sub h.nxt]
      rfl
  obtain ⟨hend, hend', hbehind⟩ := hwrap.resolve_left hstale
  obtain ⟨n, b', hwrite, htb, hrecv⟩ := hb.exists_onRecv hN hne hstale hend
  obtain ⟨m, c', hwrite', htc, hrecv'⟩ := hc.exists_onRecv hN hne (hclass ▸ hstale) hend'
  obtain rfl := h.write_eq hN hseq hwrite hwrite'
  have hle := RingBuffer.write_le_length hwrite
  rw [List.length_drop] at hle
  have hsame := h.takes (UInt32.le_iff_toNat_le.mpr hb.inv.nbr_le_nxt) hseq hwrite hwrite' htb htc
  refine ⟨.ackWnd b'.nxt (if b.nxt < i + d then b.sizeFree else sizeSub b.sizeFree m), b', c',
    ?_, ?_, hb.onRecv hend hbehind hrecv htb (by omega),
    hc.onRecv hend' (mt (h.fallsBehind_iff hseq _).mp hbehind) hrecv' htc (by omega), hsame⟩
  · rw [seqCall, call, hrecv]
    rfl
  · rw [seqCall, call, hrecv', h.sizeFree_eq, UInt32.eq_add_sub hsame.nxt]
    simp only [h.nxt.lt_iff hseq]
    rfl

theorem read (h : Same i j b c) {buffSize m : ℕ} {data : List Byte}
    (hdata : b.toRingBuffer.read buffSize b.nbr.toNat (b.nbr.toNat + m - 1) = .ok data)
    (hm : 0 < m) (hlen : data.length ≤ m) (hready : b.nbr.toNat + m ≤ b.nxt.toNat) :
    c.toRingBuffer.read buffSize c.nbr.toNat (c.nbr.toNat + m - 1) = .ok data := by
  have hnbr := h.nbr
  have hnxt := h.nxt
  have hbase := h.base
  have hb := b.nxt.toNat_lt
  have hc := c.nxt.toNat_lt
  simp only [SameSeq] at hnbr hnxt
  refine RingBuffer.read_shift (j := j.toNat) hdata (by omega) hbase (by omega) (by omega)
    fun k hk hk' ↦ ?_
  have hofNat := UInt32.toNat_ofNat_of_lt (n := k) (by omega)
  have hofNat' := UInt32.toNat_ofNat_of_lt (n := k - i.toNat + j.toNat) (by omega)
  have hcell := h.cells (UInt32.ofNat k) (UInt32.ofNat (k - i.toNat + j.toNat))
    (by rw [SameSeq]; omega) (UInt32.le_iff_toNat_le.mpr (by omega))
    (.inl (UInt32.lt_iff_toNat_lt.mpr (by omega)))
  rwa [hofNat, hofNat'] at hcell

theorem advance (h : Same i j b c) {m : ℕ} (hready : b.nbr.toNat + m ≤ b.nxt.toNat) :
    Same i j { b with nbr := b.nbr + UInt32.ofNat m } { c with nbr := c.nbr + UInt32.ofNat m } := by
  have hnbr := h.nbr
  have hnxt := h.nxt
  have hbase := h.base
  have hb := b.nxt.toNat_lt
  have hc := c.nxt.toNat_lt
  simp only [SameSeq] at hnbr hnxt
  have hofNat := UInt32.toNat_ofNat_of_lt (n := m) (by omega)
  have hnew : (b.nbr + UInt32.ofNat m).toNat = b.nbr.toNat + m := by
    rw [UInt32.toNat_add_of_lt (by omega), hofNat]
  have hnew' : (c.nbr + UInt32.ofNat m).toNat = c.nbr.toNat + m := by
    rw [UInt32.toNat_add_of_lt (by omega), hofNat]
  refine ⟨?_, ?_, h.nxt, h.stopped, h.early, fun x y hxy hx ↦ h.cells x y hxy ?_⟩
  · simp only [hnew]
    omega
  · simp only [SameSeq, hnew, hnew']
    omega
  · have := UInt32.le_iff_toNat_le.mp hx
    rw [UInt32.le_iff_toNat_le]
    simp only [hnew] at this
    omega

/-- A reader gets the same bytes from both buffers, or sleeps on both. -/
theorem readAtMostNBytes (h : Same i j b c) (hb : Sound b) (hc : Sound c) {buffSize : ℕ}
    (hwrap : n ≤ buffSize) :
    (∃ o b' c', b.seqCall i (.readAtMostNBytes buffSize n) = .ok (o, b') ∧
      c.seqCall j (.readAtMostNBytes buffSize n) = .ok (o.shift (j - i), c') ∧
      Sound b' ∧ Sound c' ∧ Same i j b' c') ∨
    b.seqCall i (.readAtMostNBytes buffSize n) = .error .blocks ∧
      c.seqCall j (.readAtMostNBytes buffSize n) = .error .blocks := by
  have hsize := h.sizeToRead_eq
  have hstop := h.stopped
  by_cases hn : n = 0
  · refine .inl ⟨.bytes (.ok []), b, c, ?_, ?_, hb, hc, h⟩ <;>
      simp only [RecvBuffer.seqCall, call, RecvBuffer.readAtMostNBytes, hn, if_true] <;> rfl
  cases hstopped : b.stopped with
  | true =>
      rw [hstopped] at hstop
      refine .inl ⟨.bytes (.error .closing), b, c, ?_, ?_, hb, hc, h⟩ <;>
        simp only [RecvBuffer.seqCall, call, RecvBuffer.readAtMostNBytes, hn, if_false,
          Exec.waitUntil, hstopped, hstop, or_true, if_true, Exec.ok_bind] <;> rfl
  | false =>
      rw [hstopped] at hstop
      rcases Nat.eq_zero_or_pos b.sizeToRead with hzero | hpos
      · refine .inr ⟨?_, ?_⟩ <;>
          simp only [RecvBuffer.seqCall, call, RecvBuffer.readAtMostNBytes, hn, if_false,
            Exec.waitUntil, hstopped, hstop, hsize, hzero, lt_irrefl, Bool.false_eq_true, or_self,
            Exec.error_bind]
      have hread := hb.inv.sizeToRead_eq
      have hnxt := hb.inv.nxt_le
      obtain ⟨data, hdata, hlen, -⟩ := RingBuffer.read_cells b.toRingBuffer buffSize b.nbr.toNat
        (b.nbr.toNat + min n b.sizeToRead - 1) (by omega) (by omega)
      have hlen' : data.length = min n b.sizeToRead := by omega
      have hdata' := h.read hdata (by omega) (by omega) (by omega)
      rw [← hsize, ← sizeSub_of_le (by omega)] at hdata'
      rw [← sizeSub_of_le (by omega)] at hdata
      have hrecv := readAtMostNBytes_of_read hn hstopped hpos hdata hlen'
      have hrecv' := readAtMostNBytes_of_read hn hstop (hsize ▸ hpos) hdata' (hsize ▸ hlen')
      exact .inl ⟨.bytes (.ok data), _, _, by rw [RecvBuffer.seqCall, call, hrecv]; rfl,
        by rw [RecvBuffer.seqCall, call, hrecv']; rfl, hb.readAtMostNBytes hrecv,
        hc.readAtMostNBytes hrecv', h.advance (by omega)⟩

theorem seqCall (h : Same i j b c) (hN : 0 < N) (hb : Sound b) (hc : Sound c) {l : RecvSeqCall}
    (hwrap : NoWrap i j b l) :
    (∃ o b' c', b.seqCall i l = .ok (o, b') ∧ c.seqCall j l = .ok (o.shift (j - i), c') ∧
      Sound b' ∧ Sound c' ∧ Same i j b' c') ∨
    b.seqCall i l = .error .blocks ∧ c.seqCall j l = .error .blocks := by
  cases l with
  | onRecv d payload => exact .inl (h.onRecv hN hb hc hwrap)
  | readAtMostNBytes buffSize n => exact h.readAtMostNBytes hb hc hwrap

end Same

/-- The same step, counted from `i` and from `j`. -/
structure SameStep (i j : UInt32) (t t' : SeqStep N) : Prop where
  label : t'.label = t.label
  out : t'.out = t.out.shift (j - i)
  classify : ∀ d payload, t.label = .onRecv d payload →
    t'.pre.classify (j + d) payload.length = t.pre.classify (i + d) payload.length

theorem Same.step (h : Same i j b c) {l : RecvSeqCall} {o : RecvReturn}
    (hwrap : NoWrap i j b l) : SameStep i j ⟨b, l, o, b'⟩ ⟨c, l, o.shift (j - i), c'⟩ := by
  refine ⟨rfl, rfl, fun d payload hl ↦ ?_⟩
  simp only at hl
  subst hl
  exact h.classify_eq hwrap.2.1 payload.length

/-- Every run without wrap can be made from any other initial sequence number, with the same
windows and bytes, with acknowledgments at the same distance and with every segment taken for
the same thing.  In the states reached a further such call throws in neither run: it
completes in both, or a reader sleeps in both. -/
theorem exists_shiftedRun (hN : 0 < N) (i j : UInt32) (bufI bufJ : Vector Byte N)
    {tr : List (SeqStep N)} (h : Trace (seqCall i) (init bufI i) tr b)
    (hwrap : ∀ t ∈ tr, NoWrap i j t.pre t.label) :
    ∃ tr' c, Trace (seqCall j) (init bufJ j) tr' c ∧ List.Forall₂ (SameStep i j) tr tr' ∧
      ∀ l, NoWrap i j b l →
        (∃ o b' c', b.seqCall i l = .ok (o, b') ∧ c.seqCall j l = .ok (o.shift (j - i), c')) ∨
        b.seqCall i l = .error .blocks ∧ c.seqCall j l = .error .blocks := by
  have hsame := Same.init bufI bufJ i j
  have hb := sound_init bufI i
  have hc := sound_init bufJ j
  generalize RecvBuffer.init bufJ j = c at hsame hc ⊢
  generalize RecvBuffer.init bufI i = b₀ at h hsame hb
  induction h generalizing c with
  | nil b =>
      refine ⟨[], c, .nil c, .nil, fun l hl ↦ ?_⟩
      exact (hsame.seqCall hN hb hc hl).imp_left fun ⟨o, b', c', hcall, hcall', _⟩ ↦
        ⟨o, b', c', hcall, hcall'⟩
  | @cons b b₁ b₂ l o tr head tail ih =>
      have hl := hwrap _ List.mem_cons_self
      obtain ⟨o', b', c', hcall, hcall', hb', hc', hsame'⟩ | ⟨hblocks, -⟩ :=
        hsame.seqCall hN hb hc hl
      · obtain ⟨rfl, rfl⟩ := Prod.mk.inj (Except.ok.inj (head.symm.trans hcall))
        obtain ⟨tr', c'', htail, hrest, hnext⟩ := ih
          (fun t ht ↦ hwrap t (List.mem_cons_of_mem _ ht)) c' hc' hsame' hb'
        exact ⟨_, c'', .cons hcall' htail, .cons (hsame.step hl) hrest, hnext⟩
      · cases head.symm.trans hblocks

/-- A segment that arrives early, the one before it and a read, from 5 and from 0. -/
theorem exists_shiftedRun_early :
    ∃ (tr : List (SeqStep 8)) (b : RecvBuffer 8),
      Trace (seqCall 5) (init (Vector.replicate 8 0) 5) tr b ∧ b.nbr = 9 ∧ b.nxt = 9 ∧
      ∃ tr' c, Trace (seqCall 0) (init (Vector.replicate 8 1) 0) tr' c ∧
        List.Forall₂ (SameStep 5 0) tr tr' ∧
        ∀ l, NoWrap 5 0 b l →
          (∃ o b' c', b.seqCall 5 l = .ok (o, b') ∧
            c.seqCall 0 l = .ok (o.shift (0 - 5), c')) ∨
          b.seqCall 5 l = .error .blocks ∧ c.seqCall 0 l = .error .blocks := by
  refine ⟨_, _, .cons (l := .onRecv 2 [3, 4]) rfl (.cons (l := .onRecv 0 [1, 2]) rfl
    (.cons (l := .readAtMostNBytes 8 8) rfl (.nil _))), rfl, rfl, ?_⟩
  exact exists_shiftedRun (by decide) 5 0 (Vector.replicate 8 0) (Vector.replicate 8 1)
    (.cons rfl (.cons rfl (.cons rfl (.nil _)))) (by decide)

/-- From `2 ^ 32 - 1` a segment of two bytes inside the window is refused with an exception, from
0 it is accepted. -/
theorem not_shiftedRun :
    (init (Vector.replicate 65535 0) 4294967295 : RecvBuffer 65535).seqCall 4294967295
        (.onRecv 0 [1, 2]) = .error (.invalidArgument "RightOpenInterval: begin >= end") ∧
      ∃ o c', (init (Vector.replicate 65535 0) 0 : RecvBuffer 65535).seqCall 0
        (.onRecv 0 [1, 2]) = .ok (o, c') ∧ c'.nxt = 2 := by
  generalize Vector.replicate 65535 (0 : Byte) = v
  constructor <;>
    simp [seqCall, call, onRecv, init, Exec.assertThat, sizeSub, RingBuffer.write, RingBuffer.idx,
      RightOpenInterval.make, RightOpenIntervalSet.mergeRemove, mergeLeft, lowerBound]

end RecvBuffer

end Tns.Tcp
