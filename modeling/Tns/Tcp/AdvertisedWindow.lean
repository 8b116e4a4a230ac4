import Tns.Tcp.RecvInvariant

/-!
# The advertised window

A receive buffer answers with RCV.NXT and the room it has left.  `onRecv` takes
the bytes written off the old room, which is right unless early arrivals are
merged, and `onCtrl` advances RCV.NXT also when there is no room.
-/

namespace Tns.Tcp

open Tns.Library Tns.Library.Cyclic

namespace RecvBuffer

variable {N : ℕ} {b b' : RecvBuffer N}

/-- The calls of the runs considered: no segment begins before RCV.NXT, and the end of
what is received is a sequence number. -/
def IsWindowCall (b : RecvBuffer N) : RecvCall → Prop
  | .onRecv seqNum payload => b.nxt ≤ seqNum ∧ seqNum.toNat + payload.length < 2 ^ 32
  | .onCtrl seqNum => seqNum.toNat + 1 < 2 ^ 32
  | .getAckWnd | .readAtMostNBytes _ _ => True

instance (b : RecvBuffer N) : DecidablePred b.IsWindowCall
  | .onRecv _ _ => inferInstanceAs (Decidable (_ ∧ _))
  | .onCtrl _ => inferInstanceAs (Decidable (_ < _))
  | .getAckWnd | .readAtMostNBytes _ _ => .isTrue trivial

/-- The pair `(ack, wnd)` describes the state `b`: all that the ring can hold, and no more. -/
structure Advertises (b : RecvBuffer N) (ack : UInt32) (wnd : ℕ) : Prop where
  ack_eq : ack = b.nxt
  nbr_le_nxt : b.nbr.toNat ≤ b.nxt.toNat
  no_underflow : b.nxt.toNat - b.nbr.toNat ≤ N
  wnd_eq : wnd = N - (b.nxt.toNat - b.nbr.toNat)
  edge_eq : ack.toNat + wnd = b.nbr.toNat + N

def AnswersWindow (t : Call N) : Prop :=
  ∀ ack wnd, t.out = .ackWnd ack wnd → t.post.Advertises ack wnd

/-- The call merges early arrivals behind an in-order segment, or consumes a control
segment while the ring is full. -/
def Miscounts (b : RecvBuffer N) : RecvCall → Prop
  | .onRecv seqNum payload =>
      b.Extends seqNum payload.length ∧
        seqNum + UInt32.ofNat (b.newBytes seqNum payload.length) ∈ cover b.earlyArrivals.intervals
  | .onCtrl seqNum => seqNum = b.nxt ∧ b.nxt.toNat = b.nbr.toNat + N
  | .getAckWnd | .readAtMostNBytes _ _ => False

theorem Inv.advertises {P : ℕ → Byte → Prop} (h : Inv P b) : b.Advertises b.nxt b.sizeFree := by
  have hnbr := h.nbr_le_nxt
  have hnxt := h.nxt_le
  exact ⟨rfl, hnbr, by omega, h.sizeFree_eq, by rw [h.sizeFree_eq]; omega⟩

theorem answersWindow_ackWnd {l : RecvCall} {ack : UInt32} {wnd : ℕ} :
    AnswersWindow ⟨b, l, .ackWnd ack wnd, b'⟩ ↔ b'.Advertises ack wnd := by
  simp only [AnswersWindow, RecvReturn.ackWnd.injEq, and_imp]
  exact ⟨fun h ↦ h ack wnd rfl rfl, by rintro h _ _ rfl rfl; exact h⟩

/-- Every byte is admitted everywhere: only the numbers matter here. -/
def AnyByte (_ : ℕ) (_ : Byte) : Prop := True

theorem answersWindow_onRecv {seqNum ack : UInt32} {payload : List Byte} {wnd : ℕ}
    (hinv : Inv AnyByte b) (hdom : b.IsWindowCall (.onRecv seqNum payload))
    (hrecv : b.onRecv seqNum payload = .ok ((ack, wnd), b')) :
    (b'.Advertises ack wnd ↔ ¬b.Miscounts (.onRecv seqNum payload)) ∧ Inv AnyByte b' := by
  have hadm : Admits AnyByte seqNum payload := ⟨hdom.2, fun _ _ ↦ trivial⟩
  by_cases hext : b.Extends seqNum payload.length
  · obtain ⟨hkeep, hnbr, -, hr, hge, hexact, -⟩ := hinv.onRecv_of_extends hadm hrecv hext
    rw [Prod.mk.injEq] at hr
    obtain ⟨rfl, rfl⟩ := hr
    obtain rfl : seqNum = b.nxt := le_antisymm hext.1 hdom.1
    have hle := hinv.nbr_le_nxt
    have hinv' := hkeep (by omega)
    refine ⟨?_, hinv'⟩
    have hnew : b.newBytes b.nxt payload.length ≤ b.nbr.toNat + N - b.nxt.toNat := min_le_right _ _
    have hadd : (b.nxt + UInt32.ofNat (b.newBytes b.nxt payload.length)).toNat =
        b.nxt.toNat + b.newBytes b.nxt payload.length := by
      have hbound : b.newBytes b.nxt payload.length ≤ b.nxt.toNat + payload.length - b.nxt.toNat :=
        min_le_left _ _
      have hend := hadm.1
      have hofNat := UInt32.toNat_ofNat_of_lt (n := b.newBytes b.nxt payload.length) (by omega)
      rw [UInt32.toNat_add_of_lt (by omega), hofNat]
    have hfree : sizeSub b.sizeFree (b.newBytes b.nxt payload.length) =
        N - (b.nxt.toNat + b.newBytes b.nxt payload.length - b.nbr.toNat) := by
      have hroom := hinv.sizeFree_eq
      rw [sizeSub_of_le (by omega)]
      omega
    have hmis : ¬b.Miscounts (.onRecv b.nxt payload) ↔
        b'.nxt.toNat = b.nxt.toNat + b.newBytes b.nxt payload.length := by
      simp only [Miscounts, hext, true_and]
      rw [← hexact, ← UInt32.toNat_inj, hadd]
    rw [hmis, hfree]
    have hle' := hinv'.nbr_le_nxt
    have hnxt' := hinv'.nxt_le
    rw [hnbr] at hle' hnxt'
    constructor
    · intro hadv
      have hedge := hadv.edge_eq
      rw [hnbr] at hedge
      omega
    · intro heq
      have hwnd : N - (b.nxt.toNat + b.newBytes b.nxt payload.length - b.nbr.toNat) =
          b'.sizeFree := by
        rw [hinv'.sizeFree_eq, heq, hnbr]
      exact hwnd ▸ hinv'.advertises
  · obtain ⟨hinv', hnbr, hnxt, -, hr, -⟩ := hinv.onRecv_of_not_extends hadm hrecv hext
    rw [Prod.mk.injEq] at hr
    obtain ⟨rfl, rfl⟩ := hr
    have hfree : b.sizeFree = b'.sizeFree := by
      simp only [sizeFree, sizeToRead, hnbr, hnxt]
    have hadv := hinv'.advertises
    rw [← hfree, hnxt] at hadv
    exact ⟨iff_of_true hadv fun h ↦ hext h.1, hinv'⟩

theorem answersWindow_onCtrl {seqNum : UInt32} (hinv : Inv AnyByte b)
    (hdom : b.IsWindowCall (.onCtrl seqNum)) :
    ((b.onCtrl seqNum).2.Advertises (b.onCtrl seqNum).1.1 (b.onCtrl seqNum).1.2 ↔
        ¬b.Miscounts (.onCtrl seqNum)) ∧
      (¬b.Miscounts (.onCtrl seqNum) → Inv AnyByte (b.onCtrl seqNum).2) := by
  by_cases hseq : seqNum = b.nxt
  · subst hseq
    simp only [Miscounts, true_and]
    have hle := hinv.nbr_le_nxt
    have hnxt := hinv.nxt_le
    by_cases hfull : b.nxt.toNat = b.nbr.toNat + N
    · refine ⟨iff_of_false (fun hadv ↦ ?_) (not_not.mpr hfull), fun hnot ↦ absurd hfull hnot⟩
      have hover := hadv.no_underflow
      have hadd : (b.nxt + 1).toNat = b.nxt.toNat + 1 := UInt32.toNat_add_of_lt hdom
      simp only [onCtrl, if_true, hadd] at hover
      omega
    · have hinv' := hinv.onCtrl hdom (by omega) fun _ ↦ trivial
      exact ⟨iff_of_true hinv'.advertises hfull, fun _ ↦ hinv'⟩
  · rw [onCtrl_of_ne hseq]
    have hnot : ¬b.Miscounts (.onCtrl seqNum) := fun h ↦ hseq h.1
    exact ⟨iff_of_true hinv.advertises hnot, fun _ ↦ hinv⟩

theorem answersWindow_call {t : Call N} (hfires : Fires call t) (hinv : Inv AnyByte t.pre)
    (hdom : t.pre.IsWindowCall t.label) :
    (AnswersWindow t ↔ ¬t.pre.Miscounts t.label) ∧
      (¬t.pre.Miscounts t.label → Inv AnyByte t.post) := by
  obtain ⟨b, l, out, b'⟩ := t
  simp only [Fires] at hfires hinv hdom
  cases l with
  | onRecv seqNum payload =>
      simp only [call, Exec.bind_eq_ok, Exec.pure_eq_ok, Prod.mk.injEq, Prod.exists] at hfires
      obtain ⟨ack, wnd, b₁, hrecv, rfl, rfl⟩ := hfires
      obtain ⟨hiff, hinv'⟩ := answersWindow_onRecv hinv hdom hrecv
      exact ⟨answersWindow_ackWnd.trans hiff, fun _ ↦ hinv'⟩
  | onCtrl seqNum =>
      simp only [call, Except.ok.injEq, Prod.mk.injEq] at hfires
      obtain ⟨rfl, rfl⟩ := hfires
      obtain ⟨hiff, hkeep⟩ := answersWindow_onCtrl hinv hdom
      exact ⟨answersWindow_ackWnd.trans hiff, hkeep⟩
  | getAckWnd =>
      simp only [call, Except.ok.injEq, Prod.mk.injEq] at hfires
      obtain ⟨rfl, rfl⟩ := hfires
      exact ⟨iff_of_true (answersWindow_ackWnd.mpr hinv.advertises) id, fun _ ↦ hinv⟩
  | readAtMostNBytes buffSize n =>
      simp only [call, Exec.bind_eq_ok, Exec.pure_eq_ok, Prod.mk.injEq, Prod.exists] at hfires
      obtain ⟨r, b₁, hread, rfl, rfl⟩ := hfires
      refine ⟨iff_of_true ?_ id, fun _ ↦ (hinv.readAtMostNBytes hread).1⟩
      intro ack wnd hout
      cases hout

/-- In every run all answers advertise exactly the room left, if and only if no call merges
early arrivals behind an in-order segment or consumes a control segment while the ring is
full. -/
theorem answersWindow_iff (buf : Vector Byte N) (initRecvNxt : UInt32) {tr : List (Call N)}
    (h : Trace call (init buf initRecvNxt) tr b) (hdom : ∀ t ∈ tr, t.pre.IsWindowCall t.label) :
    (∀ t ∈ tr, AnswersWindow t) ↔ ∀ t ∈ tr, ¬t.pre.Miscounts t.label := by
  refine Trace.forall_iff (I := Inv AnyByte) ?_ ?_ h (inv_init buf initRecvNxt) hdom
  · exact fun t ht hI hd ↦ (answersWindow_call ht hI hd).1
  · exact fun t ht hI hd ↦ (answersWindow_call ht hI hd).2

/-- An early segment, a control segment, a read and an in-order segment that leaves a hole. -/
theorem answersWindow_iff_hole :
    ∃ (tr : List (Call 8)) (b : RecvBuffer 8),
      Trace call (init (Vector.replicate 8 0) 0) tr b ∧ b.nxt = 3 ∧ b.nbr = 1 ∧
      ((∀ t ∈ tr, AnswersWindow t) ↔ ∀ t ∈ tr, ¬t.pre.Miscounts t.label) := by
  refine ⟨_, _, .cons (l := .onRecv 5 [5, 6]) rfl (.cons (l := .onCtrl 0) rfl
    (.cons (l := .readAtMostNBytes 4 4) rfl (.cons (l := .onRecv 1 [1, 2]) rfl (.nil _)))),
    rfl, rfl, ?_⟩
  exact answersWindow_iff (Vector.replicate 8 0) 0 (.cons rfl (.cons rfl (.cons rfl
    (.cons rfl (.nil _))))) (by decide)

/-- With bytes 4 and 5 already there, the segment of the bytes 0 to 3 is acknowledged with
`(6, 4)`, although only two cells are left. -/
theorem not_answersWindow :
    ∃ (tr : List (Call 8)) (b : RecvBuffer 8),
      Trace call (init (Vector.replicate 8 0) 0) tr b ∧
      (∀ t ∈ tr, t.pre.IsWindowCall t.label) ∧ ¬∀ t ∈ tr, AnswersWindow t := by
  refine ⟨_, _, .cons (l := .onRecv 4 [4, 5]) rfl (.cons (l := .onRecv 0 [0, 1, 2, 3]) rfl
    (.nil _)), by decide, fun hall ↦ ?_⟩
  have hadv := answersWindow_ackWnd.mp (hall _ (List.mem_cons_of_mem _ List.mem_cons_self))
  have hedge := hadv.edge_eq
  revert hedge
  decide

end RecvBuffer

end Tns.Tcp
