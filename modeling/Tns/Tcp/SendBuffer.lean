import Tns.Tcp.RetransmissionQueue
import Tns.Tcp.RingBuffer

/-!
# The send buffer

`[una, nxt)` is the data in flight and `[nxt, nbw)` the data not yet sent, both
kept in a ring of `N` cells.  Each definition below is one critical section of
the buffer's mutex.  The condition variables it notifies are part of its result,
and a wait whose predicate is false blocks.
-/

namespace Tns.Tcp

open RetransmissionQueue

inductive CondVar where
  | cvSender | cvWriter | cvOnPause | cvOnCountdown
  deriving DecidableEq, Repr

/-- `ZeroWindowProbing::state`: 0, 1 and 2. -/
inductive ZwpState where
  | pause | countdown | waitAck
  deriving DecidableEq, Repr

/-- Where the thread of `zwpFunction_` is. -/
inductive ZwpThread where
  | entry | onPause | onCountdown | waitAck | exited
  deriving DecidableEq, Repr

structure ZeroWindowProbing where
  state : ZwpState := .pause
  seq : UInt32 := 0
  deriving DecidableEq

/-- `SendBuffer<N>`. -/
structure SendBuffer (N : ℕ) extends RingBuffer Byte N where
  una : UInt32
  nxt : UInt32
  nbw : UInt32
  wnd : UInt32
  stopped : Bool := false
  zwp : ZeroWindowProbing := {}
  retransmitQueue : RetransmissionQueue := {}

namespace SendBuffer

variable {N : ℕ}

/-- `SendBuffer(initSeqNum, windowSize)`.  The array is not initialised, so its first
content is arbitrary. -/
def init (buf : Vector Byte N) (initSeqNum windowSize : UInt32) : SendBuffer N :=
  { buf, una := initSeqNum, nxt := initSeqNum, nbw := initSeqNum, wnd := windowSize }

def sizeUnacked (b : SendBuffer N) : ℕ := (b.nxt - b.una).toNat

def sizeNotSent (b : SendBuffer N) : ℕ := (b.nbw - b.nxt).toNat

def sizeCanSend (b : SendBuffer N) : ℕ :=
  if b.sizeUnacked < b.wnd.toNat then min (b.wnd.toNat - b.sizeUnacked) b.sizeNotSent else 0

def sizeFree (b : SendBuffer N) : ℕ := sizeSub N (b.nbw - b.una).toNat

/-- One pass of the loop of `write` over the bytes left: the number of bytes stored. -/
def write (b : SendBuffer N) (bytesLeft : List Byte) :
    Exec (Except SocketError ℕ × List CondVar × SendBuffer N) := do
  Exec.waitUntil (0 < b.sizeFree ∨ b.stopped = true)
  if b.stopped then
    return (.error .closing, [], b)
  -- `nbw_ + sizeFreeNoLock_() - 1`, with the terms of the unsigned sum regrouped
  let last := sizeSub (b.nbw.toNat + N) ((b.nbw - b.una).toNat + 1)
  let (n, rb) ← b.toRingBuffer.write bytesLeft b.nbw.toNat last
  let b := { b with toRingBuffer := rb, nbw := b.nbw + UInt32.ofNat n }
  return (.ok n, if 0 < b.sizeCanSend then [.cvSender] else [], b)

/-- The zero-window-probe part of `onAck`, entered after `wnd_` has been updated. -/
def zwpOnAck (b : SendBuffer N) (ackNum : UInt32) : List CondVar × SendBuffer N :=
  match b.zwp.state with
  | .pause => (if b.wnd = 0 then [.cvOnPause] else [], b)
  | .countdown => ([.cvOnCountdown], b)
  | .waitAck =>
      if b.zwp.seq < ackNum then
        ([.cvOnCountdown], { b with zwp := { b.zwp with state := .pause } })
      else if 0 < b.wnd then
        ([], { b with retransmitQueue := b.retransmitQueue.resetZwpCounter })
      else ([], b)

/-- The window update at the head of `onAck`. -/
def updateWnd (b : SendBuffer N) (ackNum wndSize : UInt32) : List CondVar × SendBuffer N :=
  if b.una ≤ ackNum then
    let (wakes, b') := { b with wnd := wndSize }.zwpOnAck ackNum
    ((if b.wnd < wndSize then [.cvSender] else []) ++ wakes, b')
  else ([], b)

/-- `onAck`: the new `(una_, nxt_)`.  Both critical sections are taken as one step, at
time `now`. -/
def onAck (b : SendBuffer N) (ackNum wndSize : UInt32) (now : TimePoint) :
    (UInt32 × UInt32) × List CondVar × SendBuffer N :=
  let (wakes, b) := b.updateWnd ackNum wndSize
  if ackNum ≤ b.una ∨ b.nxt < ackNum then
    ((b.una, b.nxt), wakes, b)
  else
    ((ackNum, b.nxt), wakes ++ [.cvWriter],
      { b with una := ackNum, retransmitQueue := b.retransmitQueue.onAck ackNum now })

/-- `sendReadyData` into a buffer of `buffSize` bytes: the sequence number of the segment
and its bytes. -/
def sendReadyData (b : SendBuffer N) (buffSize : ℕ) :
    Exec (Except SocketError (UInt32 × List Byte) × SendBuffer N) := do
  Exec.waitUntil (0 < b.sizeCanSend ∨ b.stopped = true)
  if b.stopped then
    return (.error .closing, b)
  let seq := b.nxt
  let n := min b.sizeCanSend buffSize
  let data ← b.toRingBuffer.read buffSize seq.toNat (sizeSub (seq.toNat + n) 1)
  Exec.assertThat (data.length = n) "Failed to read correct number of bytes from send buffer"
  return (.ok (seq, data), { b with wnd := b.wnd - UInt32.ofNat n, nxt := b.nxt + UInt32.ofNat n })

def getWndEndExclusive (b : SendBuffer N) : UInt32 := b.una + b.wnd

/-- The numbers a SYN, a SYN-ACK or a FIN takes. -/
def writeAndSendOne (b : SendBuffer N) : SendBuffer N :=
  { b with nbw := b.nbw + 1, nxt := b.nxt + 1 }

def shutdown (b : SendBuffer N) : List CondVar × SendBuffer N :=
  ([.cvWriter, .cvSender, .cvOnPause, .cvOnCountdown], { b with stopped := true })

/-! ## Zero-window probing

`zwpGetProbeByte` waits twice.  Its three parts are the sections between these waits. -/

def zwpPause (b : SendBuffer N) : SendBuffer N := { b with zwp := { b.zwp with state := .pause } }

/-- From the end of the wait on `cvOnPause`: start the countdown. -/
def zwpCountdown (b : SendBuffer N) : Exec (Except SocketError Unit × SendBuffer N) := do
  Exec.waitUntil (b.wnd = 0 ∨ b.stopped = true)
  if b.stopped then
    return (.error .closing, b)
  return (.ok (), { b with zwp := { b.zwp with state := .countdown } })

/-- From the end of the wait on `cvOnCountdown`, which may time out: the sequence number and
the byte of a probe, if one is needed. -/
def zwpGetProbeByte (b : SendBuffer N) (timeout : Bool) :
    Exec (Except SocketError (Option (UInt32 × Byte)) × SendBuffer N) := do
  Exec.waitUntil (timeout = true ∨ 0 < b.wnd ∨ b.stopped = true)
  if b.stopped then
    return (.error .closing, b)
  if 0 < b.wnd then
    return (.ok none, b.zwpPause)
  if b.sizeNotSent = 0 then
    return (.ok none, b.zwpPause)
  let data ← b.toRingBuffer.atSeq b.nxt.toNat
  return (.ok (some (b.nxt, data)),
    { b with zwp := { state := .waitAck, seq := b.nxt }, nxt := b.nxt + 1 })

def zwpWaitAck (b : SendBuffer N) : Exec (Except SocketError Unit) := do
  Exec.waitUntil (b.zwp.state = .pause ∨ b.stopped = true)
  if b.stopped then
    return .error .closing
  return .ok ()

/-- The section the zero-window-probe thread runs next, up to its next wait.  The result is
the probe to send, which leaves before the mutex is released. -/
def zwpStep (b : SendBuffer N) (thread : ZwpThread) (timeout : Bool) :
    Exec (Option (UInt32 × Byte) × ZwpThread × SendBuffer N) := do
  match thread with
  | .entry =>
      let b := b.zwpPause
      if b.wnd = 0 ∨ b.stopped = true then
        match ← b.zwpCountdown with
        | (.error _, b) => return (none, .exited, b)
        | (.ok _, b) => return (none, .onCountdown, b)
      else return (none, .onPause, b)
  | .onPause =>
      match ← b.zwpCountdown with
      | (.error _, b) => return (none, .exited, b)
      | (.ok _, b) => return (none, .onCountdown, b)
  | .onCountdown =>
      match ← b.zwpGetProbeByte timeout with
      | (.error _, b) => return (none, .exited, b)
      | (.ok none, b) => return (none, .entry, b)
      | (.ok (some probe), b) => return (some probe, .waitAck, b)
  | .waitAck =>
      match ← b.zwpWaitAck with
      | .error _ => return (none, .exited, b)
      | .ok _ => return (none, .entry, b)
  | .exited => .error .blocks

def sanityCheckAtStart (b : SendBuffer N) : Bool := b.una == b.nxt && b.nxt == b.nbw

/-! ## What each section does -/

variable {b b' : SendBuffer N}

theorem sizeNotSent_eq_zero : b.sizeNotSent = 0 ↔ b.nxt = b.nbw := by
  have hnbw := b.nbw.toNat_lt
  have hnxt := b.nxt.toNat_lt
  rw [sizeNotSent, UInt32.toNat_sub, ← UInt32.toNat_inj]
  omega

theorem sizeCanSend_eq_zero :
    b.sizeCanSend = 0 ↔ b.wnd.toNat ≤ b.sizeUnacked ∨ b.nxt = b.nbw := by
  rw [sizeCanSend, ← sizeNotSent_eq_zero]
  split <;> omega

theorem write_cases {bytes : List Byte} {r : Except SocketError ℕ} {wakes : List CondVar}
    (h : b.write bytes = .ok (r, wakes, b')) :
    (b.stopped = true ∧ r = .error .closing ∧ wakes = [] ∧ b' = b) ∨
    (b.stopped = false ∧ 0 < b.sizeFree ∧ ∃ n rb,
      b.toRingBuffer.write bytes b.nbw.toNat
        (sizeSub (b.nbw.toNat + N) ((b.nbw - b.una).toNat + 1)) = .ok (n, rb) ∧
      r = .ok n ∧ wakes = (if 0 < b'.sizeCanSend then [.cvSender] else []) ∧
      b' = { b with toRingBuffer := rb, nbw := b.nbw + UInt32.ofNat n }) := by
  simp only [write, Exec.bind_eq_ok, Exec.waitUntil_eq_ok] at h
  obtain ⟨-, hwait, h⟩ := h
  cases hstop : b.stopped with
  | true =>
      simp only [hstop, if_true, Exec.pure_eq_ok, Prod.mk.injEq] at h
      obtain ⟨rfl, rfl, rfl⟩ := h
      exact .inl ⟨rfl, rfl, rfl, rfl⟩
  | false =>
      simp only [hstop, Bool.false_eq_true, if_false, or_false, Exec.bind_eq_ok, Exec.pure_eq_ok,
        Prod.mk.injEq, Prod.exists] at h hwait
      obtain ⟨n, rb, hwrite, rfl, rfl, rfl⟩ := h
      exact .inr ⟨rfl, hwait, n, rb, hwrite, rfl, rfl, rfl⟩

theorem write_le_length {bytes : List Byte} {n : ℕ} {wakes : List CondVar}
    (h : b.write bytes = .ok (.ok n, wakes, b')) : n ≤ bytes.length := by
  rcases write_cases h with ⟨-, hr, -⟩ | ⟨-, -, m, rb, hring, hr, -, -⟩
  · cases hr
  · cases hr
    exact RingBuffer.write_le_length hring

theorem write_of_stopped (bytes : List Byte) (hstop : b.stopped = true) :
    b.write bytes = .ok (.error .closing, [], b) := by
  simp [write, Exec.waitUntil, hstop, pure, Except.pure]

theorem write_of_ring {bytes : List Byte} {n : ℕ} {rb : RingBuffer Byte N}
    (hstop : b.stopped = false) (hfree : 0 < b.sizeFree)
    (hring : b.toRingBuffer.write bytes b.nbw.toNat
      (sizeSub (b.nbw.toNat + N) ((b.nbw - b.una).toNat + 1)) = .ok (n, rb)) :
    ∃ wakes, b.write bytes =
      .ok (.ok n, wakes, { b with toRingBuffer := rb, nbw := b.nbw + UInt32.ofNat n }) := by
  simp [write, Exec.waitUntil, hstop, hfree, hring, pure, Except.pure]

/-- `sendReadyData` moves the next bytes that the window allows from unsent to in flight and
takes their number off the window. -/
theorem sendReadyData_cases {buffSize : ℕ} {r : Except SocketError (UInt32 × List Byte)}
    (h : b.sendReadyData buffSize = .ok (r, b')) :
    (b.stopped = true ∧ r = .error .closing ∧ b' = b) ∨
    (b.stopped = false ∧ 0 < b.sizeCanSend ∧ ∃ data,
      b.toRingBuffer.read buffSize b.nxt.toNat
        (sizeSub (b.nxt.toNat + min b.sizeCanSend buffSize) 1) = .ok data ∧
      data.length = min b.sizeCanSend buffSize ∧ r = .ok (b.nxt, data) ∧
      b' = { b with wnd := b.wnd - UInt32.ofNat data.length
                    nxt := b.nxt + UInt32.ofNat data.length }) := by
  simp only [sendReadyData, Exec.bind_eq_ok, Exec.waitUntil_eq_ok] at h
  obtain ⟨-, hwait, h⟩ := h
  cases hstop : b.stopped with
  | true =>
      simp only [hstop, if_true, Exec.pure_eq_ok, Prod.mk.injEq] at h
      obtain ⟨rfl, rfl⟩ := h
      exact .inl ⟨rfl, rfl, rfl⟩
  | false =>
      simp only [hstop, Bool.false_eq_true, if_false, or_false, Exec.bind_eq_ok, Exec.pure_eq_ok,
        Exec.assertThat_eq_ok, Prod.mk.injEq] at h hwait
      obtain ⟨data, hread, -, hlen, rfl, rfl⟩ := h
      exact .inr ⟨rfl, hwait, data, hread, hlen, rfl, by rw [hlen]⟩

theorem sendReadyData_of_stopped (buffSize : ℕ) (hstop : b.stopped = true) :
    b.sendReadyData buffSize = .ok (.error .closing, b) := by
  simp [sendReadyData, Exec.waitUntil, hstop, pure, Except.pure]

theorem sendReadyData_of_read {buffSize : ℕ} {data : List Byte} (hstop : b.stopped = false)
    (hpos : 0 < b.sizeCanSend)
    (hread : b.toRingBuffer.read buffSize b.nxt.toNat
      (sizeSub (b.nxt.toNat + min b.sizeCanSend buffSize) 1) = .ok data)
    (hlen : data.length = min b.sizeCanSend buffSize) :
    b.sendReadyData buffSize = .ok (.ok (b.nxt, data),
      { b with wnd := b.wnd - UInt32.ofNat data.length
               nxt := b.nxt + UInt32.ofNat data.length }) := by
  simp [sendReadyData, Exec.waitUntil, Exec.assertThat, hstop, hpos, hread, hlen, pure,
    Except.pure]

theorem sendReadyData_blocks {buffSize : ℕ} (h : b.sendReadyData buffSize = .error .blocks) :
    b.sizeCanSend = 0 ∧ b.stopped = false := by
  by_cases hwait : 0 < b.sizeCanSend ∨ b.stopped = true
  · exfalso
    simp only [sendReadyData, Exec.waitUntil, if_pos hwait, Exec.ok_bind] at h
    split at h
    · cases h
    · cases hread : b.toRingBuffer.read buffSize b.nxt.toNat
          (sizeSub (b.nxt.toNat + min b.sizeCanSend buffSize) 1) with
      | ok data =>
          simp only [hread, Exec.ok_bind, Exec.assertThat] at h
          split at h <;> simp [pure, Except.pure] at h
      | error e =>
          rw [hread, Exec.error_bind] at h
          exact RingBuffer.read_ne_blocks (hread.trans (by simpa using h))
  · simpa using hwait

/-- A probe takes the first unsent byte; otherwise the thread goes back to the beginning. -/
theorem zwpGetProbeByte_cases {timeout : Bool} {r : Except SocketError (Option (UInt32 × Byte))}
    (h : b.zwpGetProbeByte timeout = .ok (r, b')) :
    (b.stopped = true ∧ r = .error .closing ∧ b' = b) ∨
    (b.stopped = false ∧ (0 < b.wnd ∨ b.sizeNotSent = 0) ∧ r = .ok none ∧ b' = b.zwpPause) ∨
    (b.stopped = false ∧ b.wnd = 0 ∧ 0 < b.sizeNotSent ∧ ∃ data,
      b.toRingBuffer.atSeq b.nxt.toNat = .ok data ∧ r = .ok (some (b.nxt, data)) ∧
      b' = { b with zwp := { state := .waitAck, seq := b.nxt }, nxt := b.nxt + 1 }) := by
  simp only [zwpGetProbeByte, Exec.bind_eq_ok, Exec.waitUntil_eq_ok] at h
  obtain ⟨-, -, h⟩ := h
  cases hstop : b.stopped with
  | true =>
      simp only [hstop, if_true, Exec.pure_eq_ok, Prod.mk.injEq] at h
      obtain ⟨rfl, rfl⟩ := h
      exact .inl ⟨rfl, rfl, rfl⟩
  | false =>
      right
      simp only [hstop, Bool.false_eq_true, if_false] at h
      by_cases hwnd : 0 < b.wnd
      · simp only [hwnd, if_true, Exec.pure_eq_ok, Prod.mk.injEq] at h
        obtain ⟨rfl, rfl⟩ := h
        exact .inl ⟨rfl, .inl hwnd, rfl, rfl⟩
      rw [if_neg hwnd] at h
      by_cases hnone : b.sizeNotSent = 0
      · simp only [hnone, if_true, Exec.pure_eq_ok, Prod.mk.injEq] at h
        obtain ⟨rfl, rfl⟩ := h
        exact .inl ⟨rfl, .inr hnone, rfl, rfl⟩
      simp only [hnone, if_false, Exec.bind_eq_ok, Exec.pure_eq_ok, Prod.mk.injEq] at h
      obtain ⟨data, hat, rfl, rfl⟩ := h
      refine .inr ⟨rfl, ?_, by omega, data, hat, rfl, rfl⟩
      simpa using hwnd

theorem zwpCountdown_frame {r : Except SocketError Unit} (h : b.zwpCountdown = .ok (r, b')) :
    ∃ z, b' = { b with zwp := z } := by
  simp only [zwpCountdown, Exec.bind_eq_ok] at h
  obtain ⟨-, -, h⟩ := h
  split at h <;> simp only [Exec.pure_eq_ok, Prod.mk.injEq] at h
  · exact ⟨b.zwp, h.2.symm⟩
  · exact ⟨_, h.2.symm⟩

/-- The thread sends a probe, or it changes nothing but its own state. -/
theorem zwpStep_cases {thread thread' : ZwpThread} {timeout : Bool}
    {probe : Option (UInt32 × Byte)} (h : b.zwpStep thread timeout = .ok (probe, thread', b')) :
    (probe = none ∧ ∃ z, b' = { b with zwp := z }) ∨
    (b.stopped = false ∧ b.wnd = 0 ∧ 0 < b.sizeNotSent ∧ ∃ data,
      b.toRingBuffer.atSeq b.nxt.toNat = .ok data ∧ probe = some (b.nxt, data) ∧
      b' = { b with zwp := { state := .waitAck, seq := b.nxt }, nxt := b.nxt + 1 }) := by
  cases thread with
  | entry =>
      left
      simp only [zwpStep] at h
      split at h
      · simp only [Exec.bind_eq_ok] at h
        obtain ⟨⟨r, b₁⟩, hcount, h⟩ := h
        obtain ⟨z, rfl⟩ := zwpCountdown_frame hcount
        cases r <;> simp only [Exec.pure_eq_ok, Prod.mk.injEq] at h <;>
          exact ⟨h.1.symm, z, h.2.2.symm⟩
      · simp only [Exec.pure_eq_ok, Prod.mk.injEq] at h
        exact ⟨h.1.symm, _, h.2.2.symm⟩
  | onPause =>
      left
      simp only [zwpStep, Exec.bind_eq_ok] at h
      obtain ⟨⟨r, b₁⟩, hcount, h⟩ := h
      obtain ⟨z, rfl⟩ := zwpCountdown_frame hcount
      cases r <;> simp only [Exec.pure_eq_ok, Prod.mk.injEq] at h <;>
        exact ⟨h.1.symm, z, h.2.2.symm⟩
  | onCountdown =>
      simp only [zwpStep, Exec.bind_eq_ok] at h
      obtain ⟨⟨r, b₁⟩, hprobe, h⟩ := h
      rcases zwpGetProbeByte_cases hprobe with ⟨-, rfl, rfl⟩ | ⟨-, -, rfl, rfl⟩ |
        ⟨hstop, hwnd, hsize, data, hat, rfl, rfl⟩ <;>
        simp only [Exec.pure_eq_ok, Prod.mk.injEq] at h
      · exact .inl ⟨h.1.symm, b₁.zwp, h.2.2.symm⟩
      · exact .inl ⟨h.1.symm, _, h.2.2.symm⟩
      · exact .inr ⟨hstop, hwnd, hsize, data, hat, h.1.symm, h.2.2.symm⟩
  | waitAck =>
      left
      simp only [zwpStep, Exec.bind_eq_ok] at h
      obtain ⟨r, -, h⟩ := h
      cases r <;> simp only [Exec.pure_eq_ok, Prod.mk.injEq] at h <;>
        exact ⟨h.1.symm, b.zwp, h.2.2.symm⟩
  | exited => simp [zwpStep] at h

/-- The thread sends a probe in the third of its sections only, and there if the window is
closed and a byte is unsent. -/
theorem zwpStep_probe_iff {thread thread' : ZwpThread} {timeout : Bool}
    {probe : Option (UInt32 × Byte)} (h : b.zwpStep thread timeout = .ok (probe, thread', b')) :
    probe ≠ none ↔
      thread = .onCountdown ∧ b.stopped = false ∧ b.wnd = 0 ∧ 0 < b.sizeNotSent := by
  constructor
  · intro hprobe
    rcases zwpStep_cases h with ⟨hnone, -⟩ | ⟨hstop, hwnd, hsize, data, -, hsome, -⟩
    · exact absurd hnone hprobe
    refine ⟨?_, hstop, hwnd, hsize⟩
    cases thread with
    | onCountdown => rfl
    | exited => simp [zwpStep] at h
    | entry =>
        simp only [zwpStep] at h
        split at h
        · simp only [Exec.bind_eq_ok] at h
          obtain ⟨⟨r, b₁⟩, -, h⟩ := h
          cases r <;> simp only [Exec.pure_eq_ok, Prod.mk.injEq] at h <;>
            exact absurd h.1.symm hprobe
        · simp only [Exec.pure_eq_ok, Prod.mk.injEq] at h
          exact absurd h.1.symm hprobe
    | onPause =>
        simp only [zwpStep, Exec.bind_eq_ok] at h
        obtain ⟨⟨r, b₁⟩, -, h⟩ := h
        cases r <;> simp only [Exec.pure_eq_ok, Prod.mk.injEq] at h <;>
          exact absurd h.1.symm hprobe
    | waitAck =>
        simp only [zwpStep, Exec.bind_eq_ok] at h
        obtain ⟨r, -, h⟩ := h
        cases r <;> simp only [Exec.pure_eq_ok, Prod.mk.injEq] at h <;>
          exact absurd h.1.symm hprobe
  · rintro ⟨rfl, hstop, hwnd, hsize⟩
    simp only [zwpStep, Exec.bind_eq_ok] at h
    obtain ⟨⟨r, b₁⟩, hprobe, h⟩ := h
    rcases zwpGetProbeByte_cases hprobe with ⟨hstop', -⟩ | ⟨-, hnone, -⟩ |
      ⟨-, -, -, data, -, rfl, rfl⟩
    · rw [hstop] at hstop'
      cases hstop'
    · rcases hnone with hwnd' | hsize'
      · rw [hwnd] at hwnd'
        exact absurd hwnd' (by decide)
      · omega
    · simp only [Exec.pure_eq_ok, Prod.mk.injEq] at h
      rw [← h.1]
      simp

/-- The three pointers are the same. -/
structure SamePointers (b' b : SendBuffer N) : Prop where
  una : b'.una = b.una
  nxt : b'.nxt = b.nxt
  nbw : b'.nbw = b.nbw

theorem SamePointers.refl (b : SendBuffer N) : SamePointers b b := ⟨rfl, rfl, rfl⟩

/-! ## Without sequence wrap -/

/-- The documented order of the pointers, `una_ <= nxt_ <= nbw_`. -/
structure Ordered (b : SendBuffer N) : Prop where
  una_le_nxt : b.una.toNat ≤ b.nxt.toNat
  nxt_le_nbw : b.nxt.toNat ≤ b.nbw.toNat

namespace Ordered

theorem init (buf : Vector Byte N) (initSeqNum windowSize : UInt32) :
    Ordered (init buf initSeqNum windowSize) := ⟨le_rfl, le_rfl⟩

theorem of_samePointers (h : Ordered b) (hsame : SamePointers b' b) : Ordered b' :=
  ⟨by rw [hsame.una, hsame.nxt]; exact h.una_le_nxt,
    by rw [hsame.nxt, hsame.nbw]; exact h.nxt_le_nbw⟩

theorem sizeUnacked_eq (h : Ordered b) : b.sizeUnacked = b.nxt.toNat - b.una.toNat :=
  UInt32.toNat_sub_of_le _ _ (UInt32.le_iff_toNat_le.mpr h.una_le_nxt)

theorem sizeNotSent_eq (h : Ordered b) : b.sizeNotSent = b.nbw.toNat - b.nxt.toNat :=
  UInt32.toNat_sub_of_le _ _ (UInt32.le_iff_toNat_le.mpr h.nxt_le_nbw)

theorem sizeCanSend_eq (h : Ordered b) : b.sizeCanSend =
    min (b.una.toNat + b.wnd.toNat - b.nxt.toNat) (b.nbw.toNat - b.nxt.toNat) := by
  have hle := h.una_le_nxt
  rw [sizeCanSend, h.sizeUnacked_eq, h.sizeNotSent_eq]
  split <;> omega

theorem last_eq (hN : 0 < N) (h : Ordered b) :
    sizeSub (b.nbw.toNat + N) ((b.nbw - b.una).toNat + 1) = b.una.toNat + N - 1 := by
  have h₁ := h.una_le_nxt
  have h₂ := h.nxt_le_nbw
  rw [UInt32.toNat_sub_of_le _ _ (UInt32.le_iff_toNat_le.mpr (by omega)),
    sizeSub_of_le (by omega)]
  omega

theorem sizeFree_eq (h : Ordered b) (hfits : b.nbw.toNat ≤ b.una.toNat + N) :
    b.sizeFree = b.una.toNat + N - b.nbw.toNat := by
  have hle : b.una.toNat ≤ b.nbw.toNat := h.una_le_nxt.trans h.nxt_le_nbw
  rw [sizeFree, UInt32.toNat_sub_of_le _ _ (UInt32.le_iff_toNat_le.mpr hle),
    sizeSub_of_le (by omega)]
  omega

/-- A write stays inside the cells that the unacknowledged bytes leave free. -/
theorem fits_write {bytes : List Byte} {n : ℕ} {wakes : List CondVar} (h : Ordered b)
    (hfits : b.nbw.toNat ≤ b.una.toNat + N) (hwrite : b.write bytes = .ok (.ok n, wakes, b')) :
    b.nbw.toNat + n ≤ b.una.toNat + N := by
  rcases write_cases hwrite with ⟨-, hr, -⟩ | ⟨-, hfree, m, rb, hring, hr, -, -⟩
  · cases hr
  obtain rfl : m = n := (Except.ok.inj hr).symm
  have hle : b.una.toNat ≤ b.nbw.toNat := h.una_le_nxt.trans h.nxt_le_nbw
  rw [h.sizeFree_eq hfits] at hfree
  rw [h.last_eq (by omega)] at hring
  have hsize := RingBuffer.write_size hring
  rw [RingBuffer.writeSize] at hsize
  split at hsize <;> omega

theorem write {bytes : List Byte} {n : ℕ} {wakes : List CondVar} (h : Ordered b)
    (hwrap : b.nbw.toNat + n < 2 ^ 32) (hwrite : b.write bytes = .ok (.ok n, wakes, b')) :
    b'.nbw.toNat = b.nbw.toNat + n ∧ Ordered b' ∧
      ∃ rb, b' = { b with toRingBuffer := rb, nbw := b.nbw + UInt32.ofNat n } := by
  rcases write_cases hwrite with ⟨-, hr, -⟩ | ⟨-, -, m, rb, -, hr, -, rfl⟩
  · cases hr
  obtain rfl : m = n := (Except.ok.inj hr).symm
  have hnbw : (b.nbw + UInt32.ofNat m).toNat = b.nbw.toNat + m := by
    have hofNat := UInt32.toNat_ofNat_of_lt (n := m) (by omega)
    rw [UInt32.toNat_add_of_lt (by omega), hofNat]
  refine ⟨hnbw, ⟨h.una_le_nxt, ?_⟩, rb, rfl⟩
  have := h.nxt_le_nbw
  simp only [hnbw]
  omega

theorem sendReadyData {buffSize : ℕ} {seq : UInt32} {data : List Byte} (h : Ordered b)
    (hsend : b.sendReadyData buffSize = .ok (.ok (seq, data), b')) :
    seq = b.nxt ∧ data.length = min b.sizeCanSend buffSize ∧
      b.nxt.toNat + data.length ≤ b.nbw.toNat ∧
      b.nxt.toNat + data.length ≤ b.una.toNat + b.wnd.toNat ∧
      b'.nxt.toNat = b.nxt.toNat + data.length ∧ b'.wnd.toNat = b.wnd.toNat - data.length ∧
      Ordered b' ∧
      b' = { b with wnd := b.wnd - UInt32.ofNat data.length
                    nxt := b.nxt + UInt32.ofNat data.length } := by
  rcases sendReadyData_cases hsend with ⟨-, hr, -⟩ | ⟨-, hpos, data', -, hlen, hr, rfl⟩
  · cases hr
  simp only [Except.ok.injEq, Prod.mk.injEq] at hr
  obtain ⟨rfl, rfl⟩ := hr
  have hcan := h.sizeCanSend_eq
  have huna := h.una_le_nxt
  have hnbw := b.nbw.toNat_lt
  have hofNat := UInt32.toNat_ofNat_of_lt (n := data.length) (by omega)
  have hnxt : (b.nxt + UInt32.ofNat data.length).toNat = b.nxt.toNat + data.length := by
    rw [UInt32.toNat_add_of_lt (by omega), hofNat]
  have hwnd : (b.wnd - UInt32.ofNat data.length).toNat = b.wnd.toNat - data.length := by
    rw [UInt32.toNat_sub_of_le _ _ (UInt32.le_iff_toNat_le.mpr (by omega)), hofNat]
  refine ⟨rfl, hlen, by omega, by omega, hnxt, hwnd, ⟨?_, ?_⟩, rfl⟩
  · simp only [hnxt]
    omega
  · simp only [hnxt]
    omega

theorem zwpStep {thread thread' : ZwpThread} {timeout : Bool} {probe : Option (UInt32 × Byte)}
    (h : Ordered b) (hzwp : b.zwpStep thread timeout = .ok (probe, thread', b')) :
    Ordered b' ∧ ((probe = none ∧ ∃ z, b' = { b with zwp := z }) ∨
      b.nxt.toNat < b.nbw.toNat ∧ b'.nxt.toNat = b.nxt.toNat + 1 ∧ ∃ data z,
        b.toRingBuffer.atSeq b.nxt.toNat = .ok data ∧ probe = some (b.nxt, data) ∧
        b' = { b with zwp := z, nxt := b.nxt + 1 }) := by
  rcases zwpStep_cases hzwp with ⟨hprobe, z, rfl⟩ | ⟨-, -, hsize, data, hat, hprobe, rfl⟩
  · exact ⟨⟨h.una_le_nxt, h.nxt_le_nbw⟩, .inl ⟨hprobe, z, rfl⟩⟩
  have hlt : b.nxt.toNat < b.nbw.toNat := by
    have := h.sizeNotSent_eq
    omega
  have hnbw := b.nbw.toNat_lt
  have huna := h.una_le_nxt
  have hnxt : (b.nxt + 1).toNat = b.nxt.toNat + 1 := UInt32.toNat_add_of_lt (by
    rw [UInt32.toNat_one]
    omega)
  refine ⟨⟨?_, ?_⟩, .inr ⟨hlt, hnxt, data, _, hat, hprobe, rfl⟩⟩
  · simp only [hnxt]
    omega
  · simp only [hnxt]
    omega

end Ordered

section Acknowledgment

variable {ackNum wndSize : UInt32} {now : TimePoint}

theorem zwpOnAck_frame (b : SendBuffer N) (ackNum : UInt32) :
    ∃ z q, (b.zwpOnAck ackNum).2 = { b with zwp := z, retransmitQueue := q } ∧
      z.seq = b.zwp.seq ∧ (q = b.retransmitQueue ∨ q = b.retransmitQueue.resetZwpCounter) := by
  unfold zwpOnAck
  split
  · exact ⟨_, _, rfl, rfl, .inl rfl⟩
  · exact ⟨_, _, rfl, rfl, .inl rfl⟩
  · split
    · exact ⟨_, _, rfl, rfl, .inl rfl⟩
    · split
      · exact ⟨_, _, rfl, rfl, .inr rfl⟩
      · exact ⟨_, _, rfl, rfl, .inl rfl⟩

theorem updateWnd_frame (b : SendBuffer N) (ackNum wndSize : UInt32) :
    ∃ z q, (b.updateWnd ackNum wndSize).2 =
        { b with
          wnd := if b.una ≤ ackNum then wndSize else b.wnd
          zwp := z
          retransmitQueue := q } ∧
      z.seq = b.zwp.seq ∧ (q = b.retransmitQueue ∨ q = b.retransmitQueue.resetZwpCounter) := by
  unfold updateWnd
  split
  · exact zwpOnAck_frame { b with wnd := wndSize } ackNum
  · exact ⟨_, _, rfl, rfl, .inl rfl⟩

/-- What `onAck` changes: `una_` moves to an acceptable acknowledgment number, `wnd_` to the
window of one that is not old, and the queue drops what is acknowledged. -/
theorem onAck_frame (b : SendBuffer N) (ackNum wndSize : UInt32) (now : TimePoint) :
    ∃ z q, (b.onAck ackNum wndSize now).2.2 =
        { b with
          una := if b.una < ackNum ∧ ackNum ≤ b.nxt then ackNum else b.una
          wnd := if b.una ≤ ackNum then wndSize else b.wnd
          zwp := z
          retransmitQueue :=
            if b.una < ackNum ∧ ackNum ≤ b.nxt then q.onAck ackNum now else q } ∧
      z.seq = b.zwp.seq ∧ (q = b.retransmitQueue ∨ q = b.retransmitQueue.resetZwpCounter) := by
  obtain ⟨z, q, heq, hz, hq⟩ := updateWnd_frame b ackNum wndSize
  refine ⟨z, q, ?_, hz, hq⟩
  simp only [onAck, heq]
  by_cases hacc : b.una < ackNum ∧ ackNum ≤ b.nxt
  · rw [if_neg (by simpa using hacc)]
    simp only [hacc, and_self, if_true]
  · rw [if_pos (by simpa [or_iff_not_imp_left] using hacc)]
    simp only [hacc, if_false]

/-- Without zero-window probing `onAck` is determined by the pointers and the queue. -/
theorem onAck_of_pause (b : SendBuffer N) (ackNum wndSize : UInt32) (now : TimePoint)
    (hzwp : b.zwp.state = .pause) :
    (b.onAck ackNum wndSize now).2.2 =
      { b with
        una := if b.una < ackNum ∧ ackNum ≤ b.nxt then ackNum else b.una
        wnd := if b.una ≤ ackNum then wndSize else b.wnd
        retransmitQueue :=
          if b.una < ackNum ∧ ackNum ≤ b.nxt then b.retransmitQueue.onAck ackNum now
          else b.retransmitQueue } := by
  have hupdate : (b.updateWnd ackNum wndSize).2 =
      { b with wnd := if b.una ≤ ackNum then wndSize else b.wnd } := by
    unfold updateWnd
    split
    · simp only [zwpOnAck, hzwp]
    · rfl
  simp only [onAck, hupdate]
  by_cases hacc : b.una < ackNum ∧ ackNum ≤ b.nxt
  · rw [if_neg (by simpa using hacc)]
    simp only [hacc, and_self, if_true]
  · rw [if_pos (by simpa [or_iff_not_imp_left] using hacc)]
    simp only [hacc, if_false]

theorem onAck_result (b : SendBuffer N) (ackNum wndSize : UInt32) (now : TimePoint) :
    (b.onAck ackNum wndSize now).1 =
      ((b.onAck ackNum wndSize now).2.2.una, (b.onAck ackNum wndSize now).2.2.nxt) := by
  simp only [onAck]
  split <;> rfl

theorem onAck_una : (b.onAck ackNum wndSize now).2.2.una =
    if b.una < ackNum ∧ ackNum ≤ b.nxt then ackNum else b.una := by
  obtain ⟨z, q, heq, -⟩ := onAck_frame b ackNum wndSize now
  rw [heq]

@[simp] theorem onAck_nxt : (b.onAck ackNum wndSize now).2.2.nxt = b.nxt := by
  obtain ⟨z, q, heq, -⟩ := onAck_frame b ackNum wndSize now
  rw [heq]

@[simp] theorem onAck_nbw : (b.onAck ackNum wndSize now).2.2.nbw = b.nbw := by
  obtain ⟨z, q, heq, -⟩ := onAck_frame b ackNum wndSize now
  rw [heq]

theorem Ordered.onAck (h : Ordered b) (ackNum wndSize : UInt32) (now : TimePoint) :
    Ordered (b.onAck ackNum wndSize now).2.2 := by
  refine ⟨?_, by simpa only [onAck_nxt, onAck_nbw] using h.nxt_le_nbw⟩
  rw [onAck_una, onAck_nxt]
  split
  · rename_i hacc
    exact UInt32.le_iff_toNat_le.mp hacc.2
  · exact h.una_le_nxt

/-- `onAck` notifies the sender thread exactly when it expands the window. -/
theorem cvSender_mem_onAck (b : SendBuffer N) (ackNum wndSize : UInt32) (now : TimePoint) :
    .cvSender ∈ (b.onAck ackNum wndSize now).2.1 ↔ b.una ≤ ackNum ∧ b.wnd < wndSize := by
  have hzwp : ∀ c : SendBuffer N, .cvSender ∉ (c.zwpOnAck ackNum).1 := by
    intro c
    unfold zwpOnAck
    split
    · split <;> simp
    · simp
    · split
      · simp
      · split <;> simp
  have hupdate : .cvSender ∈ (b.updateWnd ackNum wndSize).1 ↔
      b.una ≤ ackNum ∧ b.wnd < wndSize := by
    unfold updateWnd
    split
    · rename_i hle
      have hnot := hzwp { b with wnd := wndSize }
      rw [List.mem_append, or_iff_left hnot, List.mem_ite_nil_right, List.mem_singleton,
        and_iff_left rfl, and_iff_right hle]
    · rename_i hlt
      simp [hlt]
  simp only [onAck]
  split <;> simp [hupdate]

end Acknowledgment

end SendBuffer

end Tns.Tcp
