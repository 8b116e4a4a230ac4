import Tns.Tcp.Intervals
import Tns.Tcp.RingBuffer

/-!
# The receive buffer

`[nbr, nxt)` is the data available for reading.  Segments that arrive early are
put in their place in the ring and recorded in a set of intervals until the
hole before them is filled.
-/

namespace Tns.Tcp

open Tns.Library

/-- `RecvBuffer<N>`. -/
structure RecvBuffer (N : ℕ) extends RingBuffer Byte N where
  nbr : UInt32
  nxt : UInt32
  earlyArrivals : RightOpenIntervalSet UInt32 := {}
  stopped : Bool := false

namespace RecvBuffer

variable {N : ℕ}

/-- `RecvBuffer(initRecvNxt)`, on an array of arbitrary content. -/
def init (buf : Vector Byte N) (initRecvNxt : UInt32) : RecvBuffer N :=
  { buf, nbr := initRecvNxt, nxt := initRecvNxt }

def setPointers (b : RecvBuffer N) (initRecvNxt : UInt32) : RecvBuffer N :=
  { b with nbr := initRecvNxt, nxt := initRecvNxt }

def sizeToRead (b : RecvBuffer N) : ℕ := (b.nxt - b.nbr).toNat

def sizeFree (b : RecvBuffer N) : ℕ := sizeSub N b.sizeToRead

/-- `readAtMostNBytes` into a buffer of `buffSize` bytes: the bytes read. -/
def readAtMostNBytes (b : RecvBuffer N) (buffSize n : ℕ) :
    Exec (Except SocketError (List Byte) × RecvBuffer N) := do
  if n = 0 then
    return (.ok [], b)
  Exec.waitUntil (0 < b.sizeToRead ∨ b.stopped = true)
  if b.stopped then
    return (.error .closing, b)
  let n := min n b.sizeToRead
  let data ← b.toRingBuffer.read buffSize b.nbr.toNat (sizeSub (b.nbr.toNat + n) 1)
  Exec.assertThat (data.length = n) "Failed to read correct number of bytes from recv buffer"
  return (.ok data, { b with nbr := b.nbr + UInt32.ofNat n })

def shutdown (b : RecvBuffer N) : RecvBuffer N := { b with stopped := true }

def sanityCheckAtStart (b : RecvBuffer N) : Bool := b.nbr == b.nxt

/-- An incoming control segment: the `(ack, wnd)` to answer with. -/
def onCtrl (b : RecvBuffer N) (seqNum : UInt32) : (UInt32 × ℕ) × RecvBuffer N :=
  let b := if seqNum = b.nxt then { b with nxt := b.nxt + 1 } else b
  ((b.nxt, b.sizeFree), b)

/-- An incoming data segment: the `(ack, wnd)` to answer with. -/
def onRecv (b : RecvBuffer N) (seqNum : UInt32) (payload : List Byte) :
    Exec ((UInt32 × ℕ) × RecvBuffer N) := do
  Exec.assertThat (payload ≠ []) "Payload should not be empty"
  let last := sizeSub (b.nbr.toNat + N) 1
  if b.nxt < seqNum then
    -- early arrival
    let (nWritten, rb) ← b.toRingBuffer.write payload seqNum.toNat last
    let b' := { b with toRingBuffer := rb }
    if 0 < nWritten then
      let interval ← RightOpenInterval.make seqNum (seqNum + UInt32.ofNat nWritten)
      let (_, early) ← b.earlyArrivals.emplaceMerge interval
      return ((b.nxt, b.sizeFree), { b' with earlyArrivals := early })
    else
      return ((b.nxt, b.sizeFree), b')
  else
    let offset := (b.nxt - seqNum).toNat
    if payload.length ≤ offset then
      return ((b.nxt, b.sizeFree), b)
    let (nWritten, rb) ← b.toRingBuffer.write (payload.drop offset) b.nxt.toNat last
    let b' := { b with toRingBuffer := rb }
    if nWritten = 0 then
      return ((b.nxt, b.sizeFree), b')
    -- the source passes `seqNum` here also when old data has been trimmed
    let interval ← RightOpenInterval.make seqNum (seqNum + UInt32.ofNat nWritten)
    let (nxt, early) ← b.earlyArrivals.mergeRemove interval
    return ((nxt, sizeSub b.sizeFree nWritten), { b' with nxt, earlyArrivals := early })

def getAckWnd (b : RecvBuffer N) : UInt32 × ℕ := (b.nxt, b.sizeFree)

/-! ## What each section does -/

variable {b b' : RecvBuffer N}

theorem readAtMostNBytes_cases {buffSize n : ℕ} {r : Except SocketError (List Byte)}
    (h : b.readAtMostNBytes buffSize n = .ok (r, b')) :
    (n = 0 ∧ r = .ok [] ∧ b' = b) ∨
    (n ≠ 0 ∧ b.stopped = true ∧ r = .error .closing ∧ b' = b) ∨
    (n ≠ 0 ∧ b.stopped = false ∧ 0 < b.sizeToRead ∧ ∃ data,
      b.toRingBuffer.read buffSize b.nbr.toNat
        (sizeSub (b.nbr.toNat + min n b.sizeToRead) 1) = .ok data ∧
      data.length = min n b.sizeToRead ∧ r = .ok data ∧
      b' = { b with nbr := b.nbr + UInt32.ofNat data.length }) := by
  rw [readAtMostNBytes] at h
  by_cases hn : n = 0
  · rw [if_pos hn, Exec.pure_eq_ok, Prod.mk.injEq] at h
    exact .inl ⟨hn, h.1.symm, h.2.symm⟩
  right
  simp only [hn, if_false, Exec.bind_eq_ok, Exec.waitUntil_eq_ok] at h
  obtain ⟨-, hwait, h⟩ := h
  cases hstop : b.stopped with
  | true =>
      simp only [hstop, if_true, Exec.pure_eq_ok, Prod.mk.injEq] at h
      obtain ⟨rfl, rfl⟩ := h
      exact .inl ⟨hn, rfl, rfl, rfl⟩
  | false =>
      simp only [hstop, Bool.false_eq_true, if_false, or_false, Exec.bind_eq_ok, Exec.pure_eq_ok,
        Exec.assertThat_eq_ok, Prod.mk.injEq] at h hwait
      obtain ⟨data, hread, -, hlen, rfl, rfl⟩ := h
      exact .inr ⟨hn, rfl, hwait, data, hread, hlen, rfl, by rw [hlen]⟩

theorem readAtMostNBytes_of_read {buffSize n : ℕ} {data : List Byte} (hn : n ≠ 0)
    (hstop : b.stopped = false) (hpos : 0 < b.sizeToRead)
    (hread : b.toRingBuffer.read buffSize b.nbr.toNat
      (sizeSub (b.nbr.toNat + min n b.sizeToRead) 1) = .ok data)
    (hlen : data.length = min n b.sizeToRead) :
    b.readAtMostNBytes buffSize n =
      .ok (.ok data, { b with nbr := b.nbr + UInt32.ofNat data.length }) := by
  simp only [readAtMostNBytes, hn, if_false, Exec.waitUntil, hpos, true_or, if_true, Exec.ok_bind,
    hstop, Bool.false_eq_true, hread, Exec.assertThat, hlen]
  rfl

/-- The three things `onRecv` can do: answer and store nothing, store an early arrival, or
extend the readable data and merge the early arrivals behind it. -/
theorem onRecv_cases {seqNum : UInt32} {payload : List Byte} {r : UInt32 × ℕ}
    (h : b.onRecv seqNum payload = .ok (r, b')) :
    payload ≠ [] ∧
    ((∃ rb, b.nxt < seqNum ∧
        b.toRingBuffer.write payload seqNum.toNat (sizeSub (b.nbr.toNat + N) 1) = .ok (0, rb) ∧
        r = (b.nxt, b.sizeFree) ∧ b' = { b with toRingBuffer := rb }) ∨
      (∃ n rb I e early, b.nxt < seqNum ∧
        b.toRingBuffer.write payload seqNum.toNat (sizeSub (b.nbr.toNat + N) 1) = .ok (n, rb) ∧
        0 < n ∧ RightOpenInterval.make seqNum (seqNum + UInt32.ofNat n) = .ok I ∧
        b.earlyArrivals.emplaceMerge I = .ok (e, early) ∧
        r = (b.nxt, b.sizeFree) ∧
        b' = { b with toRingBuffer := rb, earlyArrivals := early }) ∨
      (seqNum ≤ b.nxt ∧ payload.length ≤ (b.nxt - seqNum).toNat ∧
        r = (b.nxt, b.sizeFree) ∧ b' = b) ∨
      (∃ rb, seqNum ≤ b.nxt ∧ (b.nxt - seqNum).toNat < payload.length ∧
        b.toRingBuffer.write (payload.drop (b.nxt - seqNum).toNat) b.nxt.toNat
          (sizeSub (b.nbr.toNat + N) 1) = .ok (0, rb) ∧
        r = (b.nxt, b.sizeFree) ∧ b' = { b with toRingBuffer := rb }) ∨
      (∃ n rb I nxt early, seqNum ≤ b.nxt ∧ (b.nxt - seqNum).toNat < payload.length ∧
        b.toRingBuffer.write (payload.drop (b.nxt - seqNum).toNat) b.nxt.toNat
          (sizeSub (b.nbr.toNat + N) 1) = .ok (n, rb) ∧
        0 < n ∧ RightOpenInterval.make seqNum (seqNum + UInt32.ofNat n) = .ok I ∧
        b.earlyArrivals.mergeRemove I = .ok (nxt, early) ∧
        r = (nxt, sizeSub b.sizeFree n) ∧
        b' = { b with toRingBuffer := rb, nxt := nxt, earlyArrivals := early })) := by
  simp only [onRecv, Exec.bind_eq_ok, Exec.assertThat_eq_ok] at h
  obtain ⟨-, hne, h⟩ := h
  refine ⟨hne, ?_⟩
  by_cases hearly : b.nxt < seqNum
  · simp only [hearly, if_true, Exec.bind_eq_ok, Prod.exists] at h
    obtain ⟨n, rb, hwrite, h⟩ := h
    by_cases hn : 0 < n
    · simp only [hn, if_true, Exec.bind_eq_ok, Prod.exists, Exec.pure_eq_ok, Prod.mk.injEq] at h
      obtain ⟨I, hI, e, early, hmerge, rfl, rfl⟩ := h
      exact .inr (.inl ⟨n, rb, I, e, early, hearly, hwrite, hn, hI, hmerge, rfl, rfl⟩)
    · simp only [hn, if_false, Exec.pure_eq_ok, Prod.mk.injEq] at h
      obtain ⟨rfl, rfl⟩ := h
      obtain rfl : n = 0 := by omega
      exact .inl ⟨rb, hearly, hwrite, rfl, rfl⟩
  · have hle : seqNum ≤ b.nxt := not_lt.mp hearly
    rw [if_neg hearly] at h
    by_cases hold : payload.length ≤ (b.nxt - seqNum).toNat
    · simp only [hold, if_true, Exec.pure_eq_ok, Prod.mk.injEq] at h
      obtain ⟨rfl, rfl⟩ := h
      exact .inr (.inr (.inl ⟨hle, hold, rfl, rfl⟩))
    · simp only [hold, if_false, Exec.bind_eq_ok, Prod.exists] at h
      obtain ⟨n, rb, hwrite, h⟩ := h
      by_cases hn : n = 0
      · simp only [hn, if_true, Exec.pure_eq_ok, Prod.mk.injEq] at h
        obtain ⟨rfl, rfl⟩ := h
        exact .inr (.inr (.inr (.inl ⟨rb, hle, by omega, hn ▸ hwrite, rfl, rfl⟩)))
      · simp only [hn, if_false, Exec.bind_eq_ok, Prod.exists, Exec.pure_eq_ok,
          Prod.mk.injEq] at h
        obtain ⟨I, hI, nxt, early, hmerge, rfl, rfl⟩ := h
        exact .inr (.inr (.inr (.inr ⟨n, rb, I, nxt, early, hle, by omega, hwrite, by omega,
          hI, hmerge, rfl, rfl⟩)))

end RecvBuffer

end Tns.Tcp
