import Tns.Tcp.SendPointers

/-!
# A write that blocks

`write` stores its data in one section of the mutex after the other, each time as
much as fits.  In between, other threads run their sections.  A section that finds
a single cell free hands `RingBuffer::write` a range of one cell, which that refuses,
and so the loop goes round without storing anything.
-/

namespace Tns.Tcp

open Tns.Library Tns.Library.Cyclic

/-- A thread in the loop of `write`, and the buffer that it shares. -/
structure WriteLoop (N : ℕ) where
  buffer : SendBuffer N
  size : ℕ
  bytesLeft : List Byte
  result : Option (Except SocketError ℕ)

inductive WriteCall where
  | iterate
  | other (call : PointerCall)
  deriving DecidableEq

namespace WriteLoop

variable {N : ℕ} {w w' : WriteLoop N}

/-- The loop ends when no bytes are left. -/
def result? (size : ℕ) (bytesLeft : List Byte) : Option (Except SocketError ℕ) :=
  if bytesLeft.isEmpty then some (.ok size) else none

/-- `write(data)`, before its first section. -/
def start (buffer : SendBuffer N) (data : List Byte) : WriteLoop N :=
  { buffer, size := data.length, bytesLeft := data, result := result? data.length data }

/-- What the ring holds at the `n` positions from `lo` on. -/
def bytesAt (buf : Vector Byte N) (lo n : ℕ) : List Byte :=
  (List.range n).filterMap fun k ↦ cell buf (lo + k)

/-- One iteration, from the end of its wait, with the bytes that the ring then holds at the
positions it has filled. -/
def iterate (w : WriteLoop N) : Exec (List Byte × WriteLoop N) := do
  let (r, _, buffer) ← w.buffer.write w.bytesLeft
  match r with
  | .error e => return ([], { w with buffer, result := some (.error e) })
  | .ok n =>
      let bytesLeft := w.bytesLeft.drop n
      return (bytesAt buffer.buf w.buffer.nbw.toNat n,
        { w with buffer, bytesLeft, result := result? w.size bytesLeft })

def step (w : WriteLoop N) : WriteCall → Exec (List Byte × WriteLoop N)
  | .iterate => do
      Exec.waitUntil w.result.isNone
      w.iterate
  | .other call => do
      let (_, buffer) ← w.buffer.pointerStep call
      return ([], { w with buffer })

abbrev Step (N : ℕ) := Transition (WriteLoop N) WriteCall (List Byte)

/-- An iteration stores some bytes from the head of what is left, not more than fit, and moves
`nbw_` by their number. -/
structure Progress (t : Step N) : Prop where
  pos : 0 < t.out.length
  le_sizeFree : t.out.length ≤ t.pre.buffer.sizeFree
  nbw : (t.post.buffer.nbw - t.pre.buffer.nbw).toNat = t.out.length
  bytesLeft : t.out ++ t.post.bytesLeft = t.pre.bytesLeft

/-- At least two cells are free, and the bytes that fit can be counted in 32 bits. -/
def HasCells (w : WriteLoop N) : Prop :=
  (w.buffer.nbw - w.buffer.una).toNat + 2 ≤ N ∧
    min w.bytesLeft.length (N - (w.buffer.nbw - w.buffer.una).toNat) < 2 ^ 32

theorem bytesAt_eq_take {buf : Vector Byte N} {bytes : List Byte} {lo n : ℕ}
    (h : ∀ k < n, cell buf (lo + k) = bytes[k]?) : bytesAt buf lo n = bytes.take n := by
  induction n with
  | zero => rfl
  | succ n ih =>
      rw [bytesAt, List.range_succ, List.filterMap_append, List.take_add_one,
        ← ih fun k hk ↦ h k (by omega), bytesAt, ← h n (Nat.lt_succ_self n)]
      cases hcell : cell buf (lo + n) <;> simp [hcell]

/-- Where the range of `write` begins and ends.  It has two cells or more exactly if two cells
are free, also if the free size underflows. -/
theorem lt_last_iff (b : SendBuffer N) :
    (b.nbw.toNat < sizeSub (b.nbw.toNat + N) ((b.nbw - b.una).toNat + 1) ∧
      sizeSub (b.nbw.toNat + N) ((b.nbw - b.una).toNat + 1) - b.nbw.toNat < N) ↔
      (b.nbw - b.una).toNat + 2 ≤ N := by
  have hlt := (b.nbw - b.una).toNat_lt
  rw [sizeSub]
  split <;> omega

theorem sub_nbw (x : UInt32) (n : ℕ) : (x + UInt32.ofNat n - x).toNat = n ↔ n < 2 ^ 32 := by
  have hsub : x + UInt32.ofNat n - x = UInt32.ofNat n := by
    rw [UInt32.add_comm, UInt32.add_sub_cancel]
  rw [hsub]
  constructor
  · intro h
    exact h ▸ UInt32.toNat_lt _
  · intro h
    exact UInt32.toNat_ofNat_of_lt h

/-- What an iteration of a buffer that is not stopped does. -/
theorem step_iterate {out : List Byte} (h : w.step .iterate = .ok (out, w'))
    (hstop : w.buffer.stopped = false) :
    w.result = none ∧ w'.buffer.stopped = false ∧ w'.size = w.size ∧ ∃ n rb,
      w.buffer.toRingBuffer.write w.bytesLeft w.buffer.nbw.toNat
        (sizeSub (w.buffer.nbw.toNat + N) ((w.buffer.nbw - w.buffer.una).toNat + 1)) =
          .ok (n, rb) ∧
      out = w.bytesLeft.take n ∧ w'.buffer.nbw = w.buffer.nbw + UInt32.ofNat n ∧
      w'.bytesLeft = w.bytesLeft.drop n ∧ w'.result = result? w.size w'.bytesLeft := by
  simp only [step, iterate, Exec.bind_eq_ok, Exec.waitUntil_eq_ok, Option.isNone_iff_eq_none,
    Prod.exists] at h
  obtain ⟨-, hresult, r, wakes, b, hwrite, h⟩ := h
  rcases SendBuffer.write_cases hwrite with ⟨hstop', -⟩ | ⟨-, -, n, rb, hring, rfl, -, rfl⟩
  · rw [hstop] at hstop'
    cases hstop'
  · simp only [Exec.pure_eq_ok, Prod.mk.injEq] at h
    obtain ⟨rfl, rfl⟩ := h
    exact ⟨hresult, hstop, rfl, n, rb, hring, bytesAt_eq_take (RingBuffer.cell_write hring).1,
      rfl, rfl, rfl⟩

/-- An iteration makes progress exactly if it finds two cells free. -/
theorem progress_iff {out : List Byte} (h : w.step .iterate = .ok (out, w'))
    (hstop : w.buffer.stopped = false) (hleft : w.result = none → w.bytesLeft ≠ []) :
    Progress ⟨w, .iterate, out, w'⟩ ↔ w.HasCells := by
  obtain ⟨hresult, -, -, n, rb, hring, rfl, hnbw', hleft', -⟩ := step_iterate h hstop
  have hne := List.length_pos_of_ne_nil (hleft hresult)
  have hsize := RingBuffer.write_size hring
  have hlength : (w.bytesLeft.take n).length = n :=
    List.length_take_of_le (RingBuffer.write_le_length hring)
  have hlast := lt_last_iff w.buffer
  have hlt := (w.buffer.nbw - w.buffer.una).toNat_lt
  rw [RingBuffer.writeSize] at hsize
  constructor
  · intro hprogress
    have hpos : 0 < n := hprogress.pos.trans_eq hlength
    have hnbw : (w'.buffer.nbw - w.buffer.nbw).toNat = n := hprogress.nbw.trans hlength
    rw [hnbw', sub_nbw] at hnbw
    split at hsize
    · omega
    · have hcells := hlast.mp ⟨by omega, (RingBuffer.write_cells (by omega) hring).1⟩
      rw [sizeSub_of_le (by omega)] at hsize
      exact ⟨hcells, by omega⟩
  · rintro ⟨hcells, hcount⟩
    have hrange := hlast.mpr hcells
    rw [if_neg (by omega), sizeSub_of_le (by omega)] at hsize
    refine ⟨?_, ?_, ?_, ?_⟩
    · simp only [hlength]
      omega
    · simp only [hlength, SendBuffer.sizeFree]
      rw [sizeSub_of_le (by omega)]
      omega
    · simp only [hlength, hnbw', sub_nbw]
      omega
    · simp only [hleft', List.take_append_drop]

/-- The loop runs on a buffer that is not stopped, it has returned exactly if nothing is left,
and then it has returned the size of the data. -/
structure Running (w : WriteLoop N) : Prop where
  stopped : w.buffer.stopped = false
  result : w.result = result? w.size w.bytesLeft

theorem Running.bytesLeft_ne_nil (h : w.Running) (hresult : w.result = none) :
    w.bytesLeft ≠ [] := by
  rintro hnil
  rw [h.result, hnil] at hresult
  cases hresult

/-- With one cell free the loop goes round without a change. -/
theorem Running.step_one_free (h : w.Running) (hleft : w.bytesLeft ≠ [])
    (hfree : (w.buffer.nbw - w.buffer.una).toNat + 1 = N) : w.step .iterate = .ok ([], w) := by
  have hlast : sizeSub (w.buffer.nbw.toNat + N) ((w.buffer.nbw - w.buffer.una).toNat + 1) =
      w.buffer.nbw.toNat := by
    rw [hfree, sizeSub_of_le (Nat.le_add_left _ _), Nat.add_sub_cancel]
  have hsize : 0 < w.buffer.sizeFree := by
    rw [SendBuffer.sizeFree, sizeSub_of_le (by omega)]
    omega
  have hnone : w.result = none := by
    rw [h.result, result?, if_neg (by simpa using hleft)]
  obtain ⟨wakes, hwrite⟩ := SendBuffer.write_of_ring h.stopped hsize
    (RingBuffer.write_of_le w.buffer.toRingBuffer w.bytesLeft hlast.le)
  have hresult := h.result
  rw [WriteLoop.step, hnone, iterate, hwrite]
  obtain ⟨⟨rb, una, nxt, nbw, wnd, stopped, zwp, q⟩, size, bytesLeft, result⟩ := w
  simp only at hresult
  simp [Exec.waitUntil, bytesAt, pure, Except.pure, hresult]

theorem stopped_pointerStep {b b' : SendBuffer N} {call : PointerCall} {n : ℕ}
    (h : b.pointerStep call = .ok (n, b')) (hcall : call ≠ .shutdown) :
    b'.stopped = b.stopped := by
  cases call with
  | write bytesLeft =>
      simp only [SendBuffer.pointerStep, Exec.bind_eq_ok, Exec.pure_eq_ok, Prod.mk.injEq,
        Prod.exists] at h
      obtain ⟨r, wakes, b₁, hwrite, -, rfl⟩ := h
      rcases SendBuffer.write_cases hwrite with ⟨-, -, -, rfl⟩ | ⟨-, -, m, rb, -, -, -, rfl⟩ <;>
        rfl
  | sendReadyData buffSize =>
      simp only [SendBuffer.pointerStep, Exec.bind_eq_ok, Exec.pure_eq_ok, Prod.mk.injEq,
        Prod.exists] at h
      obtain ⟨r, b₁, hsend, -, rfl⟩ := h
      rcases SendBuffer.sendReadyData_cases hsend with ⟨-, -, rfl⟩ | ⟨-, -, data, -, -, -, rfl⟩ <;>
        rfl
  | onAck ackNum wndSize now =>
      simp only [SendBuffer.pointerStep, Except.ok.injEq, Prod.mk.injEq] at h
      obtain ⟨z, q, hframe, -⟩ := SendBuffer.onAck_frame b ackNum wndSize now
      rw [← h.2, hframe]
  | zwp thread timeout =>
      simp only [SendBuffer.pointerStep, Exec.bind_eq_ok, Exec.pure_eq_ok, Prod.mk.injEq,
        Prod.exists] at h
      obtain ⟨probe, thread', b₁, hzwp, -, rfl⟩ := h
      rcases SendBuffer.zwpStep_cases hzwp with ⟨-, z, rfl⟩ | ⟨-, -, -, data, -, -, rfl⟩ <;> rfl
  | writeAndSendOne =>
      simp only [SendBuffer.pointerStep, Except.ok.injEq, Prod.mk.injEq] at h
      rw [← h.2]
      rfl
  | shutdown => exact absurd rfl hcall

theorem Running.step {l : WriteCall} {out : List Byte} (h : w.Running)
    (hstep : w.step l = .ok (out, w')) (hcall : l ≠ .other .shutdown) :
    w'.Running ∧ w'.size = w.size ∧
      (l ≠ .iterate → out = [] ∧ w'.bytesLeft = w.bytesLeft) := by
  cases l with
  | iterate =>
      obtain ⟨-, hstop, hsize, n, rb, -, -, -, -, hresult⟩ := step_iterate hstep h.stopped
      exact ⟨⟨hstop, hsize ▸ hresult⟩, hsize, fun hne ↦ absurd rfl hne⟩
  | other call =>
      simp only [WriteLoop.step, Exec.bind_eq_ok, Exec.pure_eq_ok, Prod.mk.injEq, Prod.exists]
        at hstep
      obtain ⟨n, b, hpointer, rfl, rfl⟩ := hstep
      have hstop := stopped_pointerStep hpointer fun heq ↦ hcall (congrArg WriteCall.other heq)
      exact ⟨⟨hstop.trans h.stopped, h.result⟩, rfl, fun _ ↦ ⟨rfl, rfl⟩⟩

theorem running_run {tr : List (Step N)} (htrace : Trace step w tr w') (h : w.Running)
    (hcall : ∀ t ∈ tr, t.label ≠ .other .shutdown) : w'.Running ∧ w'.size = w.size := by
  induction htrace with
  | nil => exact ⟨h, rfl⟩
  | cons head tail ih =>
      rw [List.forall_mem_cons] at hcall
      obtain ⟨h₁, hsize, -⟩ := h.step head hcall.1
      obtain ⟨h', hsize'⟩ := ih h₁ hcall.2
      exact ⟨h', hsize'.trans hsize⟩

def stored (tr : List (Step N)) : List Byte := tr.flatMap Transition.out

def iterations (tr : List (Step N)) : ℕ := tr.countP fun t ↦ t.label = .iterate

/-- If every iteration makes progress, what is stored and what is left is the data, and each
iteration has stored a byte of it. -/
theorem stored_of_progress {tr : List (Step N)} (htrace : Trace step w tr w') (h : w.Running)
    (hcall : ∀ t ∈ tr, t.label ≠ .other .shutdown)
    (hprogress : ∀ t ∈ tr, t.label = .iterate → Progress t) :
    stored tr ++ w'.bytesLeft = w.bytesLeft ∧ iterations tr ≤ (stored tr).length := by
  induction htrace with
  | nil => exact ⟨rfl, Nat.zero_le _⟩
  | @cons w w₁ w' l out tr head tail ih =>
      rw [List.forall_mem_cons] at hcall hprogress
      obtain ⟨hrunning, -, hother⟩ := h.step head hcall.1
      obtain ⟨hdata, hcount⟩ := ih hrunning hcall.2 hprogress.2
      simp only [stored, iterations, List.flatMap_cons, List.countP_cons, List.length_append,
        List.append_assoc] at hdata hcount ⊢
      rw [hdata]
      by_cases hl : l = .iterate
      · have hstep := hprogress.1 hl
        have hpos := hstep.pos
        refine ⟨hstep.bytesLeft, ?_⟩
        simp only [hl, decide_true, if_true] at hpos ⊢
        omega
      · obtain ⟨rfl, hleft⟩ := hother hl
        refine ⟨hleft, ?_⟩
        simpa [hl] using hcount

/-- A write that stores data in every iteration is done after as many iterations as there are
bytes at most, and returns their number when it has stored them all in order. -/
structure Completes (data : List Byte) (tr : List (Step N)) (w : WriteLoop N) : Prop where
  progress : ∀ t ∈ tr, t.label = .iterate → Progress t
  iterations_le : iterations tr ≤ data.length
  result : ∀ r, w.result = some r → r = .ok data.length ∧ stored tr = data

/-- In every run without a shutdown a write completes exactly if each of its iterations finds
two cells free. -/
theorem write_completes_iff {b : SendBuffer N} (hstop : b.stopped = false) (data : List Byte)
    {tr : List (Step N)} (h : Trace step (start b data) tr w)
    (hcall : ∀ t ∈ tr, t.label ≠ .other .shutdown) :
    Completes data tr w ↔ ∀ t ∈ tr, t.label = .iterate → t.pre.HasCells := by
  have hstart : (start b data).Running := ⟨hstop, rfl⟩
  have hprogress : (∀ t ∈ tr, t.label = .iterate → Progress t) ↔
      ∀ t ∈ tr, t.label = .iterate → t.pre.HasCells := by
    apply Trace.forall_iff (I := Running) (D := fun t ↦ t.label ≠ .other .shutdown) _ _ h hstart
      hcall
    · rintro ⟨w, l, out, w'⟩ hfires hpre -
      apply imp_congr_right
      rintro rfl
      exact progress_iff hfires hpre.stopped hpre.bytesLeft_ne_nil
    · intro t hfires hpre hcall _
      exact (hpre.step hfires hcall).1
  rw [← hprogress]
  constructor
  · exact Completes.progress
  · intro hall
    obtain ⟨hdata, hcount⟩ := stored_of_progress h hstart hcall hall
    refine ⟨hall, ?_, ?_⟩
    · rw [show data = stored tr ++ w.bytesLeft from hdata.symm, List.length_append]
      omega
    · intro r hr
      obtain ⟨hrunning, hsize⟩ := running_run h hstart hcall
      rw [hrunning.result, result?, hsize] at hr
      split at hr
      · rename_i hnil
        rw [List.isEmpty_iff.mp hnil, List.append_nil] at hdata
        exact ⟨(Option.some.inj hr).symm, hdata⟩
      · cases hr

/-- Five bytes are written through a ring of four cells, of which two are freed in between. -/
theorem write_completes_iff_wrapped :
    ∃ (tr : List (Step 4)) (w : WriteLoop 4),
      Trace step (start (.init (Vector.replicate 4 0) 100 8) [1, 2, 3, 4, 5]) tr w ∧
        w.result = some (.ok 5) ∧
        (Completes [1, 2, 3, 4, 5] tr w ↔ ∀ t ∈ tr, t.label = .iterate → t.pre.HasCells) := by
  have hrun : Trace step (start (.init (Vector.replicate 4 0) 100 8) [1, 2, 3, 4, 5]) _ _ :=
    .cons (l := .iterate) rfl (.cons (l := .other (.sendReadyData 2)) rfl
    (.cons (l := .other (.onAck 102 8 0)) rfl (.cons (l := .iterate) rfl (.nil _))))
  refine ⟨_, _, hrun, rfl, write_completes_iff rfl _ hrun ?_⟩
  simp only [List.forall_mem_cons]
  exact ⟨by decide, by decide, by decide, by decide, List.forall_mem_nil _⟩

/-- An acknowledgment frees one cell, and the next iteration stores nothing. -/
theorem not_write_completes :
    ∃ (tr : List (Step 4)) (w : WriteLoop 4),
      Trace step (start (.init (Vector.replicate 4 0) 100 8) [1, 2, 3, 4, 5]) tr w ∧
        (∀ t ∈ tr, t.label ≠ .other .shutdown) ∧ ¬Completes [1, 2, 3, 4, 5] tr w := by
  refine ⟨_, _, .cons (l := .iterate) rfl (.cons (l := .other (.sendReadyData 1)) rfl
    (.cons (l := .other (.onAck 101 8 0)) rfl (.cons (l := .iterate) rfl (.nil _)))), ?_,
    fun hcompletes ↦ ?_⟩
  · simp only [List.forall_mem_cons]
    exact ⟨by decide, by decide, by decide, by decide, List.forall_mem_nil _⟩
  · have hprogress := List.forall_mem_cons.mp hcompletes.progress
    have hlast := (List.forall_mem_cons.mp (List.forall_mem_cons.mp
      (List.forall_mem_cons.mp hprogress.2).2).2).1
    exact absurd (hlast rfl).pos (by decide)

end WriteLoop

end Tns.Tcp
