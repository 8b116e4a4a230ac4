import Tns.Tcp.RecvInvariant

/-!
# Reassembly

Segments of one stream arrive in any order, overlapping, repeated or beyond the
window, interleaved with reads.  A run delivers the stream exactly when no
segment rewinds RCV.NXT.  The segment that does begins before RCV.NXT and brings
fewer new bytes than old ones: `onRecv` then merges `[seqNum, seqNum + nWritten)`
instead of the range it has written.
-/

namespace Tns.Tcp

open Tns.Library Tns.Library.Cyclic

/-- The `n` bytes of the stream `S` from position `lo` on. -/
def slice (S : ℕ → Byte) (lo n : ℕ) : List Byte := (List.range n).map fun i ↦ S (lo + i)

def IsByteOf (S : ℕ → Byte) (k : ℕ) (x : Byte) : Prop := x = S k

section Slice

variable {S : ℕ → Byte} {lo n : ℕ} {xs : List Byte}

@[simp] theorem length_slice : (slice S lo n).length = n := by simp [slice]

theorem getElem_slice (S : ℕ → Byte) (lo n : ℕ) {i : ℕ} (hi : i < (slice S lo n).length) :
    (slice S lo n)[i] = S (lo + i) := by
  simp [slice]

theorem slice_append (S : ℕ → Byte) (lo n m : ℕ) :
    slice S lo n ++ slice S (lo + n) m = slice S lo (n + m) := by
  simp [slice, List.range_add, Nat.add_assoc]

theorem eq_slice_iff : xs = slice S lo xs.length ↔
    ∀ i (hi : i < xs.length), IsByteOf S (lo + i) xs[i] := by
  constructor
  · intro heq i hi
    have hget := getElem_slice S lo xs.length (by simpa using hi)
    rw [IsByteOf, ← hget]
    exact List.getElem_of_eq heq hi
  · intro h
    apply List.ext_getElem (by simp)
    intro i hi hi'
    rw [getElem_slice]
    exact h i hi

end Slice

namespace RecvBuffer

variable {N : ℕ} {S : ℕ → Byte} {b b' : RecvBuffer N}

/-- The calls of a reassembly run: segments that are slices of the stream, and reads. -/
def IsReassemblyCall (S : ℕ → Byte) : RecvCall → Prop
  | .onRecv seqNum payload =>
      payload ≠ [] ∧ payload = slice S seqNum.toNat payload.length ∧
        seqNum.toNat + payload.length < 2 ^ 32
  | .readAtMostNBytes buffSize n => n ≤ buffSize
  | .getAckWnd => True
  | .onCtrl _ => False

instance (S : ℕ → Byte) : DecidablePred (IsReassemblyCall S)
  | .onRecv _ _ => inferInstanceAs (Decidable (_ ∧ _ ∧ _))
  | .readAtMostNBytes _ _ => inferInstanceAs (Decidable (_ ≤ _))
  | .getAckWnd => .isTrue trivial
  | .onCtrl _ => .isFalse id

/-- What reassembly promises of one call. -/
structure Reassembles (S : ℕ → Byte) (t : Call N) : Prop where
  nxt_mono : t.pre.nxt ≤ t.post.nxt
  nbr_le_nxt : t.post.nbr ≤ t.post.nxt
  nxt_le : t.post.nxt.toNat ≤ t.post.nbr.toNat + N
  ring : Window (IsByteOf S) t.post.buf t.post.nbr.toNat t.post.nxt.toNat
  read : t.out.data = slice S t.pre.nbr.toNat t.out.data.length
  nbr_eq : t.post.nbr.toNat = t.pre.nbr.toNat + t.out.data.length

/-- A segment rewinds RCV.NXT: it begins before RCV.NXT, brings new bytes, and they are
fewer than its old ones. -/
def Rewinds (b : RecvBuffer N) (seqNum : UInt32) (len : ℕ) : Prop :=
  b.Extends seqNum len ∧ seqNum.toNat + b.newBytes seqNum len < b.nxt.toNat

def RewindsAt (t : Call N) : Prop :=
  ∃ seqNum payload, t.label = .onRecv seqNum payload ∧ t.pre.Rewinds seqNum payload.length

def received (tr : List (Call N)) : List Byte := tr.flatMap fun t ↦ t.out.data

theorem admits_slice {seqNum : UInt32} {payload : List Byte}
    (h : IsReassemblyCall S (.onRecv seqNum payload)) : Admits (IsByteOf S) seqNum payload :=
  ⟨h.2.2, eq_slice_iff.mp h.2.1⟩

/-- The positions before RCV.NXT hold no early arrivals, so a segment that ends there makes
RCV.NXT fall back. -/
theorem nxt_lt_of_rewinds {b b' : RecvBuffer N} {seqNum : UInt32} {payload : List Byte}
    {r : UInt32 × ℕ} (hinv : Inv (IsByteOf S) b) (hahead : Ahead b)
    (hadm : Admits (IsByteOf S) seqNum payload) (hrecv : b.onRecv seqNum payload = .ok (r, b'))
    (hrewinds : b.Rewinds seqNum payload.length) : b'.nxt < b.nxt := by
  obtain ⟨hext, hlt⟩ := hrewinds
  obtain ⟨-, -, -, -, -, hexact, -⟩ := hinv.onRecv_of_extends hadm hrecv hext
  have hadd : (seqNum + UInt32.ofNat (b.newBytes seqNum payload.length)).toNat =
      seqNum.toNat + b.newBytes seqNum payload.length := by
    have hbound := b.nxt.toNat_lt
    have hofNat := UInt32.toNat_ofNat_of_lt
      (n := b.newBytes seqNum payload.length) (by omega)
    rw [UInt32.toNat_add_of_lt (by omega), hofNat]
  have hback : b'.nxt = seqNum + UInt32.ofNat (b.newBytes seqNum payload.length) := by
    apply hexact.mpr
    intro hmem
    have hbound := hadm.1
    have hx := UInt32.lt_iff_toNat_lt.mp (hahead (by have := hext.2.1; omega) _ hmem)
    omega
  rw [UInt32.lt_iff_toNat_lt, hback, hadd]
  exact hlt

/-- One call: the invariant is kept and the promise holds exactly when it does not rewind. -/
theorem reassembles_call {t : Call N} (hfires : Fires call t) (hinv : Inv (IsByteOf S) t.pre)
    (hahead : Ahead t.pre) (hdom : IsReassemblyCall S t.label) :
    (Reassembles S t ↔ ¬RewindsAt t) ∧
      (¬RewindsAt t → Inv (IsByteOf S) t.post ∧ Ahead t.post) := by
  obtain ⟨b, l, out, b'⟩ := t
  simp only [Fires] at hfires hinv hahead hdom
  have hgood : (hpost : Inv (IsByteOf S) b') → b.nxt ≤ b'.nxt →
      out.data = slice S b.nbr.toNat out.data.length →
      b'.nbr.toNat = b.nbr.toNat + out.data.length → Reassembles S ⟨b, l, out, b'⟩ :=
    fun hpost hmono hread hnbr ↦ ⟨hmono, UInt32.le_iff_toNat_le.mpr hpost.nbr_le_nxt,
      hpost.nxt_le, hpost.readable, hread, hnbr⟩
  cases l with
  | onCtrl seqNum => exact hdom.elim
  | getAckWnd =>
      simp only [call, Except.ok.injEq, Prod.mk.injEq] at hfires
      obtain ⟨rfl, rfl⟩ := hfires
      have hnot : ¬RewindsAt
          (⟨b, .getAckWnd, .ackWnd b.getAckWnd.1 b.getAckWnd.2, b⟩ : Call N) := by
        simp [RewindsAt]
      exact ⟨iff_of_true (hgood hinv le_rfl rfl rfl) hnot, fun _ ↦ ⟨hinv, hahead⟩⟩
  | readAtMostNBytes buffSize n =>
      simp only [call, Exec.bind_eq_ok, Exec.pure_eq_ok, Prod.mk.injEq, Prod.exists] at hfires
      obtain ⟨r, b₁, hread, rfl, rfl⟩ := hfires
      obtain ⟨hpost, hnxt, hearly, -, hnbr, hbytes⟩ := hinv.readAtMostNBytes hread
      have hnot : ¬RewindsAt (⟨b, .readAtMostNBytes buffSize n, .bytes r, b₁⟩ : Call N) := by
        simp [RewindsAt]
      refine ⟨iff_of_true (hgood hpost hnxt.ge ?_ hnbr) hnot, fun _ ↦ ⟨hpost, ?_⟩⟩
      · exact eq_slice_iff.mpr hbytes
      · rwa [Ahead, hnxt, hearly]
  | onRecv seqNum payload =>
      simp only [call, Exec.bind_eq_ok, Exec.pure_eq_ok, Prod.mk.injEq, Prod.exists] at hfires
      obtain ⟨ack, wnd, b₁, hrecv, rfl, rfl⟩ := hfires
      have hadm := admits_slice hdom
      have hiff : RewindsAt (⟨b, .onRecv seqNum payload, .ackWnd ack wnd, b₁⟩ : Call N) ↔
          b.Rewinds seqNum payload.length := by
        simp [RewindsAt]
      rw [hiff]
      by_cases hext : b.Extends seqNum payload.length
      · by_cases hrewinds : b.Rewinds seqNum payload.length
        · have hlt := nxt_lt_of_rewinds hinv hahead hadm hrecv hrewinds
          exact ⟨iff_of_false (fun hr ↦ hlt.not_ge hr.nxt_mono) (not_not.mpr hrewinds),
            fun hnot ↦ absurd hrewinds hnot⟩
        · obtain ⟨hkeep, hnbr, -, -, hge, -, hahead'⟩ := hinv.onRecv_of_extends hadm hrecv hext
          have hle : b.nxt.toNat ≤ seqNum.toNat + b.newBytes seqNum payload.length :=
            not_lt.mp fun hlt ↦ hrewinds ⟨hext, hlt⟩
          have hpost := hkeep (hinv.nbr_le_nxt.trans (hle.trans hge))
          refine ⟨iff_of_true (hgood hpost ?_ rfl (congrArg _ hnbr)) hrewinds,
            fun _ ↦ ⟨hpost, hahead' hahead⟩⟩
          exact UInt32.le_iff_toNat_le.mpr (hle.trans hge)
      · obtain ⟨hpost, hnbr, hnxt, -, -, hahead'⟩ := hinv.onRecv_of_not_extends hadm hrecv hext
        have hnot : ¬b.Rewinds seqNum payload.length := fun h ↦ hext h.1
        exact ⟨iff_of_true (hgood hpost hnxt.ge rfl (congrArg _ hnbr)) hnot,
          fun _ ↦ ⟨hpost, hahead' hahead⟩⟩

theorem received_eq_slice {tr : List (Call N)} (h : Trace call b tr b')
    (hall : ∀ t ∈ tr, Reassembles S t) :
    received tr = slice S b.nbr.toNat (received tr).length := by
  induction h with
  | nil => rfl
  | @cons s s₁ s₂ l o tr head tail ih =>
      have hfirst := hall _ List.mem_cons_self
      have hrest := ih fun t ht ↦ hall t (List.mem_cons_of_mem _ ht)
      have hnbr := hfirst.nbr_eq
      have hread := hfirst.read
      simp only at hnbr hread
      calc received (⟨s, l, o, s₁⟩ :: tr) = o.data ++ received tr := rfl
        _ = slice S s.nbr.toNat o.data.length ++ slice S s₁.nbr.toNat (received tr).length := by
          rw [← hread, ← hrest]
        _ = slice S s.nbr.toNat (received (⟨s, l, o, s₁⟩ :: tr)).length := by
          rw [hnbr, slice_append]
          simp [received]

/-- A run reassembles the stream exactly when none of its segments rewinds RCV.NXT. -/
theorem reassembles_iff (S : ℕ → Byte) (buf : Vector Byte N) (initRecvNxt : UInt32)
    {tr : List (Call N)} (h : Trace call (init buf initRecvNxt) tr b)
    (hdom : ∀ t ∈ tr, IsReassemblyCall S t.label) :
    ((∀ t ∈ tr, Reassembles S t) ∧
        received tr = slice S initRecvNxt.toNat (received tr).length) ↔
      ∀ t ∈ tr, ¬RewindsAt t := by
  have hiff : (∀ t ∈ tr, Reassembles S t) ↔ ∀ t ∈ tr, ¬RewindsAt t := by
    refine Trace.forall_iff (I := fun b ↦ Inv (IsByteOf S) b ∧ Ahead b) ?_ ?_ h
      ⟨inv_init buf initRecvNxt, ahead_init buf initRecvNxt⟩ hdom
    · exact fun t ht hI hd ↦ (reassembles_call ht hI.1 hI.2 hd).1
    · exact fun t ht hI hd ↦ (reassembles_call ht hI.1 hI.2 hd).2
  rw [← hiff]
  exact and_iff_left_of_imp (received_eq_slice h)

def countingStream (k : ℕ) : Byte := UInt8.ofNat k

/-- Two overlapping segments, the second with more new bytes than old ones, and a read. -/
theorem reassembles_iff_overlap :
    ∃ (tr : List (Call 8)) (b : RecvBuffer 8),
      Trace call (init (Vector.replicate 8 0) 0) tr b ∧ received tr = [0, 1, 2, 3, 4, 5] ∧
      (((∀ t ∈ tr, Reassembles countingStream t) ∧
          received tr = slice countingStream 0 (received tr).length) ↔
        ∀ t ∈ tr, ¬RewindsAt t) := by
  refine ⟨_, _, .cons (l := .onRecv 0 [0, 1, 2, 3]) rfl (.cons (l := .onRecv 3 [3, 4, 5, 6]) rfl
    (.cons (l := .readAtMostNBytes 8 8) rfl (.nil _))), rfl, ?_⟩
  exact reassembles_iff countingStream (Vector.replicate 8 0) 0 (.cons rfl (.cons rfl
    (.cons rfl (.nil _)))) (by decide)

/-- With RCV.NXT at 4, a segment of the bytes 1 to 4 sets RCV.NXT to 2. -/
theorem not_reassembles :
    ∃ (tr : List (Call 8)) (b : RecvBuffer 8),
      Trace call (init (Vector.replicate 8 0) 0) tr b ∧
      (∀ t ∈ tr, IsReassemblyCall countingStream t.label) ∧
      ¬∀ t ∈ tr, Reassembles countingStream t := by
  refine ⟨_, _, .cons (l := .onRecv 0 [0, 1, 2, 3]) rfl (.cons (l := .onRecv 1 [1, 2, 3, 4]) rfl
    (.nil _)), by decide, fun hall ↦ ?_⟩
  have hmono := (hall _ (List.mem_cons_of_mem _ List.mem_cons_self)).nxt_mono
  revert hmono
  decide

end RecvBuffer

end Tns.Tcp
