import Tns.Library.Trace
import Tns.Tcp.SendBuffer

/-!
# The pointers of the send buffer

The ring has `N` cells, and the bytes from `una_` to `nbw_` are kept in it.  Every
section but one moves the pointers under a guard.  `writeAndSendOne` takes its
number whether or not a cell is free.
-/

namespace Tns.Tcp

open Tns.Library

/-- The sections that move the pointers. -/
inductive PointerCall where
  | write (bytesLeft : List Byte)
  | sendReadyData (buffSize : ℕ)
  | onAck (ackNum wndSize : UInt32) (now : TimePoint)
  | zwp (thread : ZwpThread) (timeout : Bool)
  | writeAndSendOne
  | shutdown
  deriving DecidableEq

namespace SendBuffer

variable {N : ℕ} {b b' : SendBuffer N}

/-- One section, and by how much it moves `nbw_`. -/
def pointerStep (b : SendBuffer N) : PointerCall → Exec (ℕ × SendBuffer N)
  | .write bytesLeft => do
      let (r, _, b) ← b.write bytesLeft
      return (r.toOption.getD 0, b)
  | .sendReadyData buffSize => do
      let (_, b) ← b.sendReadyData buffSize
      return (0, b)
  | .onAck ackNum wndSize now => .ok (0, (b.onAck ackNum wndSize now).2.2)
  | .zwp thread timeout => do
      let (_, _, b) ← b.zwpStep thread timeout
      return (0, b)
  | .writeAndSendOne => .ok (1, b.writeAndSendOne)
  | .shutdown => .ok (0, b.shutdown.2)

/-- The pointers are in their order and inside the ring, and no size underflows. -/
structure InBounds (b : SendBuffer N) : Prop where
  ordered : b.Ordered
  fits : b.nbw.toNat ≤ b.una.toNat + N
  sizeUnacked : b.una.toNat + b.sizeUnacked = b.nxt.toNat
  sizeNotSent : b.nxt.toNat + b.sizeNotSent = b.nbw.toNat
  sizeFree : b.nbw.toNat + b.sizeFree = b.una.toNat + N

theorem Ordered.inBounds (h : b.Ordered) (hfits : b.nbw.toNat ≤ b.una.toNat + N) :
    b.InBounds := by
  refine ⟨h, hfits, ?_, ?_, ?_⟩
  · rw [h.sizeUnacked_eq, Nat.add_sub_cancel' h.una_le_nxt]
  · rw [h.sizeNotSent_eq, Nat.add_sub_cancel' h.nxt_le_nbw]
  · rw [h.sizeFree_eq hfits, Nat.add_sub_cancel' hfits]

/-- `nbw_` does not wrap in the step. -/
def NumbersFit (t : Transition (SendBuffer N) PointerCall ℕ) : Prop :=
  t.pre.nbw.toNat + t.out < 2 ^ 32

/-- A cell is free for the number that `writeAndSendOne` takes. -/
def HasRoom (b : SendBuffer N) : PointerCall → Prop
  | .writeAndSendOne => b.nbw.toNat < b.una.toNat + N
  | _ => True

theorem Ordered.writeAndSendOne (h : b.Ordered) (hwrap : b.nbw.toNat + 1 < 2 ^ 32) :
    b.writeAndSendOne.Ordered ∧ b.writeAndSendOne.nbw.toNat = b.nbw.toNat + 1 := by
  have hone : ∀ x : UInt32, x.toNat ≤ b.nbw.toNat → (x + 1).toNat = x.toNat + 1 := by
    intro x hx
    apply UInt32.toNat_add_of_lt
    rw [UInt32.toNat_one]
    omega
  have hnxt := hone b.nxt h.nxt_le_nbw
  have hnbw := hone b.nbw le_rfl
  have h₁ := h.una_le_nxt
  have h₂ := h.nxt_le_nbw
  refine ⟨⟨?_, ?_⟩, hnbw⟩
  · simp only [SendBuffer.writeAndSendOne, hnxt]
    omega
  · simp only [SendBuffer.writeAndSendOne, hnxt, hnbw]
    omega

/-- From pointers in their bounds a section leads to such pointers again, unless it takes a
number for which no cell is free. -/
theorem InBounds.step {l : PointerCall} {n : ℕ} (h : b.InBounds)
    (hstep : b.pointerStep l = .ok (n, b')) (hwrap : b.nbw.toNat + n < 2 ^ 32) :
    b'.InBounds ↔ b.HasRoom l := by
  have hord := h.ordered
  have hfits := h.fits
  cases l with
  | write bytesLeft =>
      refine iff_of_true ?_ trivial
      simp only [pointerStep, Exec.bind_eq_ok, Exec.pure_eq_ok, Prod.mk.injEq, Prod.exists]
        at hstep
      obtain ⟨r, wakes, b₁, hwrite, rfl, rfl⟩ := hstep
      cases r with
      | error e =>
          rcases write_cases hwrite with ⟨-, -, -, rfl⟩ | ⟨-, -, m, rb, -, hr, -⟩
          · exact h
          · cases hr
      | ok m =>
          have hroom := hord.fits_write hfits hwrite
          obtain ⟨hnbw, hord', rb, rfl⟩ := hord.write hwrap hwrite
          exact hord'.inBounds (hnbw.trans_le hroom)
  | sendReadyData buffSize =>
      refine iff_of_true ?_ trivial
      simp only [pointerStep, Exec.bind_eq_ok, Exec.pure_eq_ok, Prod.mk.injEq, Prod.exists]
        at hstep
      obtain ⟨r, b₁, hsend, -, rfl⟩ := hstep
      cases r with
      | error e =>
          rcases sendReadyData_cases hsend with ⟨-, -, rfl⟩ | ⟨-, -, data, -, -, hr, -⟩
          · exact h
          · cases hr
      | ok r =>
          obtain ⟨-, -, -, -, -, -, hord', rfl⟩ := hord.sendReadyData hsend
          exact hord'.inBounds hfits
  | onAck ackNum wndSize now =>
      refine iff_of_true ?_ trivial
      simp only [pointerStep, Except.ok.injEq, Prod.mk.injEq] at hstep
      obtain ⟨-, rfl⟩ := hstep
      apply (hord.onAck ackNum wndSize now).inBounds
      rw [onAck_nbw, onAck_una]
      split
      · -- `una_` moves forward only
        rename_i hacc
        have hlt := UInt32.lt_iff_toNat_lt.mp hacc.1
        omega
      · exact hfits
  | zwp thread timeout =>
      refine iff_of_true ?_ trivial
      simp only [pointerStep, Exec.bind_eq_ok, Exec.pure_eq_ok, Prod.mk.injEq, Prod.exists]
        at hstep
      obtain ⟨probe, thread', b₁, hzwp, -, rfl⟩ := hstep
      obtain ⟨hord', ⟨-, z, rfl⟩ | ⟨-, -, data, z, -, -, rfl⟩⟩ := hord.zwpStep hzwp
      · exact hord'.inBounds hfits
      · exact hord'.inBounds hfits
  | writeAndSendOne =>
      simp only [pointerStep, Except.ok.injEq, Prod.mk.injEq] at hstep
      obtain ⟨rfl, rfl⟩ := hstep
      obtain ⟨hord', hnbw⟩ := hord.writeAndSendOne hwrap
      constructor
      · intro h'
        exact Nat.lt_of_succ_le (hnbw.symm.trans_le h'.fits)
      · intro hroom
        exact hord'.inBounds (hnbw.trans_le hroom)
  | shutdown =>
      refine iff_of_true ?_ trivial
      simp only [pointerStep, Except.ok.injEq, Prod.mk.injEq] at hstep
      obtain ⟨-, rfl⟩ := hstep
      exact Ordered.inBounds ⟨hord.una_le_nxt, hord.nxt_le_nbw⟩ hfits

theorem inBounds_init (buf : Vector Byte N) (initSeqNum windowSize : UInt32) :
    (init buf initSeqNum windowSize).InBounds :=
  (Ordered.init buf initSeqNum windowSize).inBounds (Nat.le_add_right _ _)

/-- In a run without sequence wrap the pointers stay in their bounds exactly if a cell is free
for every number that `writeAndSendOne` takes. -/
theorem inBounds_run_iff {buf : Vector Byte N} {initSeqNum windowSize : UInt32}
    {tr : List (Transition (SendBuffer N) PointerCall ℕ)}
    (h : Trace pointerStep (init buf initSeqNum windowSize) tr b)
    (hwrap : ∀ t ∈ tr, NumbersFit t) :
    (∀ t ∈ tr, t.pre.InBounds ∧ t.post.InBounds) ↔ ∀ t ∈ tr, t.pre.HasRoom t.label := by
  apply Trace.forall_iff (I := InBounds) (D := NumbersFit) _ _ h (inBounds_init _ _ _) hwrap
  · intro t hfires hpre hnowrap
    rw [← hpre.step hfires hnowrap]
    exact and_iff_right hpre
  · intro t hfires hpre hnowrap hroom
    exact (hpre.step hfires hnowrap).mpr hroom

/-- A connection that is closed with three bytes in a ring of four cells. -/
theorem inBounds_run_iff_closed :
    ∃ (tr : List (Transition (SendBuffer 4) PointerCall ℕ)) (b : SendBuffer 4),
      Trace pointerStep (init (Vector.replicate 4 0) 100 8) tr b ∧ tr.length = 4 ∧
        ((∀ t ∈ tr, t.pre.InBounds ∧ t.post.InBounds) ↔ ∀ t ∈ tr, t.pre.HasRoom t.label) := by
  have hrun : Trace pointerStep (init (Vector.replicate 4 0) 100 8) _ _ :=
    .cons (l := .writeAndSendOne) rfl (.cons (l := .onAck 101 8 0) rfl
    (.cons (l := .write [1, 2, 3]) rfl (.cons (l := .writeAndSendOne) rfl (.nil _))))
  refine ⟨_, _, hrun, rfl, inBounds_run_iff hrun ?_⟩
  simp only [List.forall_mem_cons, NumbersFit]
  exact ⟨by decide, by decide, by decide, by decide, List.forall_mem_nil _⟩

/-- A connection that is closed with the ring full.  The free size underflows. -/
theorem not_inBounds_run :
    ∃ (tr : List (Transition (SendBuffer 4) PointerCall ℕ)) (b : SendBuffer 4),
      Trace pointerStep (init (Vector.replicate 4 0) 100 8) tr b ∧ (∀ t ∈ tr, NumbersFit t) ∧
        b.sizeFree = 2 ^ 64 - 1 ∧ ¬∀ t ∈ tr, t.pre.InBounds ∧ t.post.InBounds := by
  refine ⟨_, _, .cons (l := .writeAndSendOne) rfl (.cons (l := .onAck 101 8 0) rfl
    (.cons (l := .write [1, 2, 3, 4]) rfl (.cons (l := .writeAndSendOne) rfl (.nil _)))), ?_, rfl,
    fun hall ↦ ?_⟩
  · simp only [List.forall_mem_cons, NumbersFit]
    exact ⟨by decide, by decide, by decide, by decide, List.forall_mem_nil _⟩
  · simp only [List.forall_mem_cons] at hall
    exact absurd hall.2.2.2.1.2.fits (by decide)

end SendBuffer

end Tns.Tcp
