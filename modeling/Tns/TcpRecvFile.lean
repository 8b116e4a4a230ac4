import Tns.Tcp.StreamReads

/-!
# Receiving a file

`tcpRecvFile` accepts a connection and reads from it, until the socket says that
it is closing, into a buffer of ten megabytes.  Then it closes the sockets and
writes the buffer to a file.  Its thread runs beside those of the socket, and the
sections of its `vClose` are those of the socket.
-/

namespace Tns

open Tns.Library Tns.Tcp

def MAXSIZE : ℕ := 10 * 1024 * 1024

/-- Where the thread of `tcpRecvFile` is. -/
inductive RecvFilePhase where
  | listening | accepting | receiving | closing
  | returned (r : Except SocketError ℕ)
  deriving DecidableEq

/-- The loop of `tcpRecvFile` is over, or will not be entered. -/
def RecvFilePhase.ended : RecvFilePhase → Bool
  | .listening | .accepting | .receiving => false
  | .closing | .returned _ => true

/-- `tcpRecvFile`, with the socket it accepts and the file it writes.  `buf` holds what has been
received so far.  `stream` is not part of the program: the bytes of the peer that have become
readable. -/
structure TcpRecvFile (M N : ℕ) where
  socket : RunningSocket M N
  phase : RecvFilePhase := .listening
  buf : List Byte := []
  stream : List Byte := []
  file : Option (List Byte) := none

/-- What can happen: the calls of `tcpRecvFile` itself, with the results of those that are left
open here, and the sections of the socket.  `write` is all that is done with the file: whether it
can be opened, and how many bytes it takes. -/
inductive RecvFileCall where
  | tcpListen (r : Except SocketError Unit)
  | vAccept (r : Except SocketError Unit)
  | vRecv
  | socket (l : SocketCall)
  | write (opened : Bool) (written : ℕ)
  deriving DecidableEq

namespace TcpRecvFile

variable {M N : ℕ} {s s' : TcpRecvFile M N}

def withPhase (s : TcpRecvFile M N) (phase : RecvFilePhase) : TcpRecvFile M N := { s with phase }

def append (s : TcpRecvFile M N) (data : List Byte) : TcpRecvFile M N :=
  { s with buf := s.buf ++ data }

def unread (s : TcpRecvFile M N) : List Byte := s.socket.sock.recvBuffer.unread

/-- The socket after a `vRecv` that returned `r`. -/
def withRecv (s : TcpRecvFile M N) (sock : NormalSocket M N) (r : Except SocketError (List Byte)) :
    TcpRecvFile M N :=
  { s with
    socket := { s.socket with
      sock, delivered := s.socket.delivered ++ RunningSocket.deliveredOf r } }

/-- The stream with what has become readable, as long as the connection is open and the loop has
not ended. -/
def track (s : TcpRecvFile M N) (socket : RunningSocket M N) : List Byte :=
  if s.phase.ended = false ∧ socket.sock.state = .established then
    s.stream ++ socket.sock.recvBuffer.unread.drop s.unread.length
  else s.stream

theorem track_of_chunk {socket : RunningSocket M N} {chunk : List Byte}
    (hphase : s.phase.ended = false) (hopen : socket.sock.state = .established)
    (hunread : socket.sock.recvBuffer.unread = s.unread ++ chunk) :
    s.track socket = s.stream ++ chunk := by
  rw [track, if_pos ⟨hphase, hopen⟩, hunread, List.drop_left]

theorem track_of_ne {socket : RunningSocket M N} (hne : socket.sock.state ≠ .established) :
    s.track socket = s.stream := if_neg fun h ↦ hne h.2

theorem track_of_ended {socket : RunningSocket M N} (hphase : s.phase.ended = true) :
    s.track socket = s.stream :=
  if_neg fun h ↦ Bool.false_ne_true (h.1.symm.trans hphase)

/-- A step returns what `vRecv` has returned. -/
def step (s : TcpRecvFile M N) :
    RecvFileCall → Exec (Option (Except SocketError (List Byte)) × TcpRecvFile M N)
  | .tcpListen r => do
      Exec.waitUntil (s.phase = .listening)
      match r with
      | .error e => return (none, s.withPhase (.returned (.error e)))
      | .ok () => return (none, s.withPhase .accepting)
  | .vAccept r => do
      Exec.waitUntil (s.phase = .accepting)
      match r with
      | .error e => return (none, s.withPhase (.returned (.error e)))
      | .ok () => return (none, s.withPhase .receiving)
  | .vRecv => do
      Exec.waitUntil (s.phase = .receiving)
      let size := MAXSIZE - s.buf.length
      let (nMaybe, sock) ← s.socket.sock.vRecv size size
      let s := s.withRecv sock nMaybe
      match nMaybe with
      | .error .closing => return (some nMaybe, s.withPhase .closing)
      | .error e => return (some nMaybe, s.withPhase (.returned (.error e)))
      | .ok data => return (some nMaybe, s.append data)
  | .socket l => do
      Exec.waitUntil (s.phase ≠ .listening)
      let (_, socket) ← s.socket.step l
      return (none, { s with socket, stream := s.track socket })
  | .write opened written =>
      match s.phase, s.socket.close, opened with
      | .closing, .finished _, false => .ok (none, s.withPhase (.returned (.error .noResources)))
      | .closing, .finished _, true =>
          -- the state of the stream is not looked at after `file.write`
          .ok (none, { s with
            file := some (s.buf.take written), phase := .returned (.ok s.buf.length) })
      | _, _, _ => .error .blocks

abbrev Step (M N : ℕ) :=
  Transition (TcpRecvFile M N) RecvFileCall (Option (Except SocketError (List Byte)))

/-- Everything that a step can do. -/
inductive Steps (s : TcpRecvFile M N) :
    RecvFileCall → Option (Except SocketError (List Byte)) → TcpRecvFile M N → Prop
  | listen (h : s.phase = .listening) : Steps s (.tcpListen (.ok ())) none (s.withPhase .accepting)
  | accept (h : s.phase = .accepting) : Steps s (.vAccept (.ok ())) none (s.withPhase .receiving)
  | listenFails (e : SocketError) (h : s.phase = .listening) :
      Steps s (.tcpListen (.error e)) none (s.withPhase (.returned (.error e)))
  | acceptFails (e : SocketError) (h : s.phase = .accepting) :
      Steps s (.vAccept (.error e)) none (s.withPhase (.returned (.error e)))
  | recv (data : List Byte) (sock : NormalSocket M N) (h : s.phase = .receiving)
      (hrecv : s.socket.sock.vRecv (MAXSIZE - s.buf.length) (MAXSIZE - s.buf.length) =
        .ok (.ok data, sock)) :
      Steps s .vRecv (some (.ok data)) ((s.withRecv sock (.ok data)).append data)
  | recvClosing (sock : NormalSocket M N) (h : s.phase = .receiving)
      (hrecv : s.socket.sock.vRecv (MAXSIZE - s.buf.length) (MAXSIZE - s.buf.length) =
        .ok (.error .closing, sock)) :
      Steps s .vRecv (some (.error .closing))
        ((s.withRecv sock (.error .closing)).withPhase .closing)
  | recvFails (e : SocketError) (sock : NormalSocket M N) (h : s.phase = .receiving)
      (hrecv : s.socket.sock.vRecv (MAXSIZE - s.buf.length) (MAXSIZE - s.buf.length) =
        .ok (.error e, sock)) (he : e ≠ .closing) :
      Steps s .vRecv (some (.error e))
        ((s.withRecv sock (.error e)).withPhase (.returned (.error e)))
  | socket (l : SocketCall) (out : SocketReturn) (socket : RunningSocket M N)
      (h : s.phase ≠ .listening) (hstep : s.socket.step l = .ok (out, socket)) :
      Steps s (.socket l) none { s with socket, stream := s.track socket }
  | write (written : ℕ) (h : s.phase = .closing) :
      Steps s (.write true written) none
        { s with file := some (s.buf.take written), phase := .returned (.ok s.buf.length) }
  | writeFails (written : ℕ) (h : s.phase = .closing) :
      Steps s (.write false written) none (s.withPhase (.returned (.error .noResources)))

theorem steps_of_step {l : RecvFileCall} {out : Option (Except SocketError (List Byte))}
    (h : s.step l = .ok (out, s')) : Steps s l out s' := by
  cases l with
  | tcpListen r =>
      simp only [step, Exec.bind_eq_ok, Exec.waitUntil_eq_ok] at h
      obtain ⟨-, hphase, h⟩ := h
      rcases r with e | ⟨⟩ <;> simp only [Exec.pure_eq_ok, Prod.mk.injEq] at h <;>
        obtain ⟨rfl, rfl⟩ := h
      · exact .listenFails e hphase
      · exact .listen hphase
  | vAccept r =>
      simp only [step, Exec.bind_eq_ok, Exec.waitUntil_eq_ok] at h
      obtain ⟨-, hphase, h⟩ := h
      rcases r with e | ⟨⟩ <;> simp only [Exec.pure_eq_ok, Prod.mk.injEq] at h <;>
        obtain ⟨rfl, rfl⟩ := h
      · exact .acceptFails e hphase
      · exact .accept hphase
  | vRecv =>
      simp only [step, Exec.bind_eq_ok, Exec.waitUntil_eq_ok, Prod.exists] at h
      obtain ⟨-, hphase, r, sock, hrecv, h⟩ := h
      split at h <;> simp only [Exec.pure_eq_ok, Prod.mk.injEq] at h <;> obtain ⟨rfl, rfl⟩ := h
      · exact .recvClosing sock hphase hrecv
      · rename_i e hne
        exact .recvFails e sock hphase hrecv fun he ↦ hne (by rw [he])
      · exact .recv _ sock hphase hrecv
  | socket l =>
      simp only [step, Exec.bind_eq_ok, Exec.waitUntil_eq_ok, Exec.pure_eq_ok, Prod.mk.injEq,
        Prod.exists] at h
      obtain ⟨-, hphase, out', socket, hstep, rfl, rfl⟩ := h
      exact .socket l out' socket hphase hstep
  | write opened written =>
      simp only [step] at h
      split at h
      · rename_i hphase _
        obtain ⟨rfl, rfl⟩ := Prod.mk.inj (Except.ok.inj h)
        exact .writeFails written hphase
      · rename_i hphase _
        obtain ⟨rfl, rfl⟩ := Prod.mk.inj (Except.ok.inj h)
        exact .write written hphase
      · cases h

theorem step_vRecv {data : List Byte} {sock : NormalSocket M N} (hphase : s.phase = .receiving)
    (hok : s.socket.sock.vRecv (MAXSIZE - s.buf.length) (MAXSIZE - s.buf.length) =
      .ok (.ok data, sock)) :
    s.step .vRecv = .ok (some (.ok data), (s.withRecv sock (.ok data)).append data) := by
  simp only [step, hphase, Exec.waitUntil, if_true, Exec.ok_bind, hok]
  rfl

theorem step_vRecv_closing {sock : NormalSocket M N} (hphase : s.phase = .receiving)
    (hok : s.socket.sock.vRecv (MAXSIZE - s.buf.length) (MAXSIZE - s.buf.length) =
      .ok (.error .closing, sock)) :
    s.step .vRecv =
      .ok (some (.error .closing), (s.withRecv sock (.error .closing)).withPhase .closing) := by
  simp only [step, hphase, Exec.waitUntil, if_true, Exec.ok_bind, hok]
  rfl

theorem step_socket {l : SocketCall} {out : SocketReturn} {socket : RunningSocket M N}
    (hphase : s.phase ≠ .listening) (hstep : s.socket.step l = .ok (out, socket)) :
    s.step (.socket l) = .ok (none, { s with socket, stream := s.track socket }) := by
  simp only [step, Exec.waitUntil, if_pos hphase, Exec.ok_bind, hstep]
  rfl

def state (s : TcpRecvFile M N) : State := s.socket.sock.state

/-- What the other threads do to the socket while the file is received: a chunk of the stream
becomes readable, or none; the peer's FIN takes the socket to CLOSE_WAIT; or the connection
breaks. -/
inductive FromPeer (s s' : RunningSocket M N) : SocketCall → Prop
  | chunk (l : SocketCall) (chunk : List Byte) (hpre : s.sock.state = .established)
      (hpost : s'.sock.state = .established) (hring : s'.sock.recvBuffer.sizeToRead ≤ N)
      (hunread : s'.sock.recvBuffer.unread = s.sock.recvBuffer.unread ++ chunk) : FromPeer s s' l
  | fin (event : Event) (now : TimePoint) (hpre : s.sock.state = .established)
      (hpost : s'.sock.state = .closeWait) : FromPeer s s' (.event event now)
  | afterFin (l : SocketCall) (hpre : s.sock.state = .closeWait)
      (hpost : s'.sock.state = .closeWait) : FromPeer s s' l
  | broken (l : SocketCall) (hpost : s'.sock.state = .closed) : FromPeer s s' l

theorem FromPeer.exists_chunk {s s' : RunningSocket M N} {l : SocketCall} (h : FromPeer s s' l)
    (hpost : s'.sock.state = .established) :
    s.sock.state = .established ∧ s'.sock.recvBuffer.sizeToRead ≤ N ∧
      ∃ chunk, s'.sock.recvBuffer.unread = s.sock.recvBuffer.unread ++ chunk := by
  cases h with
  | chunk _ chunk hpre _ hring hunread => exact ⟨hpre, hring, chunk, hunread⟩
  | fin _ _ _ hclose => cases hclose.symm.trans hpost
  | afterFin _ _ hclose => cases hclose.symm.trans hpost
  | broken _ hclosed => cases hclosed.symm.trans hpost

theorem FromPeer.exists_event {s s' : RunningSocket M N} {l : SocketCall} (h : FromPeer s s' l)
    (hpre : s.sock.state = .established) (hpost : s'.sock.state = .closeWait) :
    ∃ event now, l = .event event now := by
  cases h with
  | chunk _ _ _ hopen => cases hopen.symm.trans hpost
  | fin event now => exact ⟨event, now, rfl⟩
  | afterFin _ hclose => cases hclose.symm.trans hpre
  | broken _ hclosed => cases hclosed.symm.trans hpost

/-- While nobody else reads from the socket or closes it, and segments do not overlap the readable
data, every step of an open connection is one of these. -/
theorem fromPeer_of_step {s s' : RunningSocket M N} {l : SocketCall} {out : SocketReturn}
    (hstep : s.step l = .ok (out, s')) (hinv : s.sock.recvBuffer.Inv fun _ _ ↦ True)
    (hstate : s.sock.state = .established) (hclose : s.close = .idle)
    (hseg : RunningSocket.SegmentInDomain s.sock.recvBuffer.nxt l)
    (hrecv : ∀ buffSize n, l ≠ .vRecv buffSize n) (hvClose : l ≠ .vClose) : FromPeer s s' l := by
  rcases (RunningSocket.steps_of_step hstep).cases_of_established hinv hstate hclose hseg hrecv
    hvClose with hclosed | ⟨⟨event, now, rfl⟩, hwait⟩ | ⟨hopen, hring, chunk, hunread⟩
  · exact .broken l hclosed
  · exact .fin event now hstate hwait
  · exact .chunk l chunk hstate hopen hring hunread

/-- Until the loop has ended, the socket is left to the peer. -/
def InDomain (t : Step M N) : Prop :=
  ∀ l, t.label = .socket l → t.pre.phase.ended = false → FromPeer t.pre.socket t.post.socket l

/-- The stream is shorter than the buffer, all of it has been read when the FIN is handled, and the
file takes all that is written to it. -/
structure Fits (t : Step M N) : Prop where
  stream : ∀ l, t.label = .socket l → t.pre.phase.ended = false →
    t.post.state = .established → t.post.stream.length < MAXSIZE
  fin : ∀ l, t.label = .socket l → t.pre.phase.ended = false → t.pre.state = .established →
    t.post.state = .closeWait → t.pre.unread = []
  written : ∀ written, t.label = .write true written → t.pre.buf.length ≤ written

/-! ## What the loop keeps -/

/-- The connection as the loop finds it. -/
inductive Connected (s : TcpRecvFile M N) : Prop
  | established (hstate : s.state = .established)
      (hrun : s.socket.sock.recvBuffer.stopped = false)
      (hring : s.socket.sock.recvBuffer.sizeToRead ≤ N) (hstream : s.stream = s.buf ++ s.unread)
      (hfits : s.stream.length < MAXSIZE)
  | closeWait (hstate : s.state = .closeWait) (hstop : s.socket.sock.recvBuffer.stopped = true)
      (hstream : s.stream = s.buf) (hfits : s.buf.length < MAXSIZE)
  | closed (hstate : s.state = .closed)

theorem Connected.of_established (h : s.Connected) (hstate : s.state = .established) :
    s.socket.sock.recvBuffer.stopped = false ∧ s.stream = s.buf ++ s.unread ∧
      s.stream.length < MAXSIZE := by
  cases h with
  | established _ hrun _ hstream hfits => exact ⟨hrun, hstream, hfits⟩
  | closeWait hclose => cases hclose.symm.trans hstate
  | closed hclosed => cases hclosed.symm.trans hstate

/-- What holds in every state of a run that has met the conditions so far. -/
structure Sound (s : TcpRecvFile M N) : Prop where
  connected : s.phase.ended = false → s.Connected
  whole : s.phase = .closing → s.buf = s.stream
  le : s.buf.length ≤ s.stream.length

/-- The calls of `tcpRecvFile` itself. -/
def IsProgram : RecvFileCall → Prop
  | .socket _ => False
  | _ => True

/-- A stream that fits leaves room for what is unread, and for one more byte. -/
theorem length_unread_lt (hstream : s.stream = s.buf ++ s.unread)
    (hfits : s.stream.length < MAXSIZE) : s.unread.length < MAXSIZE - s.buf.length := by
  rw [hstream, List.length_append] at hfits
  omega

/-- A call that returns data returns all of the stream that is not in the buffer yet. -/
theorem Connected.recv (h : s.Connected) {data : List Byte} {sock : NormalSocket M N}
    (hrecv : s.socket.sock.vRecv (MAXSIZE - s.buf.length) (MAXSIZE - s.buf.length) =
      .ok (.ok data, sock)) :
    data ≠ [] ∧ ((s.withRecv sock (.ok data)).append data).Connected ∧
      (s.buf ++ data).length ≤ s.stream.length := by
  cases h with
  | established hstate hrun hring hstream hfits =>
      have hroom := length_unread_lt hstream hfits
      have hn : MAXSIZE - s.buf.length ≠ 0 := Nat.ne_zero_of_lt hroom
      by_cases hnil : s.unread = []
      · cases hrecv.symm.trans (NormalSocket.vRecv_blocks hstate hn hrun hnil)
      obtain ⟨sock', hok, hstate', hrun', hsize⟩ :=
        NormalSocket.exists_vRecv hstate hn hrun hring hnil
      obtain ⟨hdata, rfl⟩ := Prod.mk.inj (Except.ok.inj (hrecv.symm.trans hok))
      have hall : data = s.unread := by
        rw [Except.ok.inj hdata]
        exact List.take_of_length_le hroom.le
      rw [unread, RecvBuffer.length_unread] at hroom
      have hzero : sock.recvBuffer.sizeToRead = 0 := by omega
      have hread : sock.recvBuffer.unread = [] := RecvBuffer.unread_eq_nil.mpr hzero
      refine ⟨hall ▸ hnil, .established hstate' hrun' (hzero.trans_le (Nat.zero_le N)) ?_ hfits, ?_⟩
      · simp only [unread, withRecv, append, hread, List.append_nil, hall, hstream]
      · rw [hall, hstream]
  | closeWait hstate hstop _ hfits =>
      have hn : MAXSIZE - s.buf.length ≠ 0 := by omega
      cases hrecv.symm.trans (NormalSocket.vRecv_closeWait hstate hn hstop)
  | closed hstate => cases hrecv.symm.trans (NormalSocket.vRecv_closed hstate)

/-- A call that returns CLOSING finds the whole stream in the buffer. -/
theorem Connected.recvClosing (h : s.Connected) {sock : NormalSocket M N}
    (hrecv : s.socket.sock.vRecv (MAXSIZE - s.buf.length) (MAXSIZE - s.buf.length) =
      .ok (.error .closing, sock)) : s.buf = s.stream := by
  cases h with
  | established hstate hrun hring hstream hfits =>
      have hn := Nat.ne_zero_of_lt (length_unread_lt hstream hfits)
      by_cases hnil : s.unread = []
      · cases hrecv.symm.trans (NormalSocket.vRecv_blocks hstate hn hrun hnil)
      · obtain ⟨b, hok, -⟩ := NormalSocket.exists_vRecv hstate hn hrun hring hnil
        cases hrecv.symm.trans hok
  | closeWait _ _ hstream => exact hstream.symm
  | closed hstate => cases hrecv.symm.trans (NormalSocket.vRecv_closed hstate)

/-- Each call completes once there is something to read or the connection is not open. -/
theorem Connected.exists_recv (h : s.Connected) (hphase : s.phase = .receiving)
    (hready : s.unread ≠ [] ∨ s.state ≠ .established) :
    ∃ out s', s.step .vRecv = .ok (out, s') := by
  suffices hok : ∃ r sock, s.socket.sock.vRecv (MAXSIZE - s.buf.length) (MAXSIZE - s.buf.length) =
      .ok (r, sock) by
    obtain ⟨r, sock, hok⟩ := hok
    simp only [step, hphase, Exec.waitUntil, if_true, Exec.ok_bind, hok]
    split <;> exact ⟨_, _, rfl⟩
  cases h with
  | established hstate hrun hring hstream hfits =>
      obtain ⟨b, hok, -⟩ := NormalSocket.exists_vRecv hstate
        (Nat.ne_zero_of_lt (length_unread_lt hstream hfits)) hrun hring
        (hready.resolve_right (not_not.mpr hstate))
      exact ⟨_, _, hok⟩
  | closeWait hstate hstop _ hfits =>
      exact ⟨_, _, NormalSocket.vRecv_closeWait hstate (by omega) hstop⟩
  | closed hstate => exact ⟨_, _, NormalSocket.vRecv_closed hstate⟩

/-- The connection after a step that the peer causes. -/
theorem Connected.fromPeer {l : SocketCall} {out : SocketReturn} {socket : RunningSocket M N}
    (h : s.Connected) (hle : s.buf.length ≤ s.stream.length) (hphase : s.phase.ended = false)
    (hstep : s.socket.step l = .ok (out, socket)) (hpeer : FromPeer s.socket socket l)
    (hfits : socket.sock.state = .established → (s.track socket).length < MAXSIZE)
    (hfin : s.state = .established → socket.sock.state = .closeWait → s.unread = []) :
    Connected { s with socket, stream := s.track socket } ∧
      s.buf.length ≤ (s.track socket).length := by
  cases hpeer with
  | chunk l chunk hpre hpost hring hunread =>
      obtain ⟨hrun, hstream, -⟩ := h.of_established hpre
      have htrack : s.track socket = s.stream ++ chunk := track_of_chunk hphase hpost hunread
      have hrun' := (RunningSocket.steps_of_step hstep).stopped_of_established hrun hpost
      have hstream' : s.track socket = s.buf ++ socket.sock.recvBuffer.unread := by
        rw [htrack, hstream, hunread, List.append_assoc, unread]
      refine ⟨.established hpost hrun' hring hstream' (hfits hpost), ?_⟩
      rw [htrack, List.length_append]
      exact hle.trans (Nat.le_add_right _ _)
  | fin event now hpre hpost =>
      rw [track_of_ne (by rw [hpost]; nofun)]
      obtain ⟨-, hstream, hfits'⟩ := h.of_established hpre
      have hread : s.unread = [] := hfin hpre hpost
      rw [hread, List.append_nil] at hstream
      have hstop := RunningSocket.stopped_of_closeWait hstep hpre hpost
      exact ⟨.closeWait hpost hstop hstream (hstream ▸ hfits'), hle⟩
  | afterFin l hpre hpost =>
      rw [track_of_ne (by rw [hpost]; nofun)]
      cases h with
      | established hstate => cases hstate.symm.trans hpre
      | closeWait _ hstop hstream hfits' =>
          obtain ⟨hstop', -⟩ :=
            RunningSocket.stopped_step (t := ⟨s.socket, l, out, socket⟩) hstep hstop
          exact ⟨.closeWait hpost hstop' hstream hfits', hle⟩
      | closed hstate => cases hstate.symm.trans hpre
  | broken l hpost =>
      rw [track_of_ne (by rw [hpost]; nofun)]
      exact ⟨.closed hpost, hle⟩

/-- Rises with each call of `vRecv` that the loop makes. -/
def progress (s : TcpRecvFile M N) : ℕ := s.buf.length + if s.phase.ended then 1 else 0

def isRecv (t : Step M N) : Bool := t.label = .vRecv

def recvCalls (tr : List (Step M N)) : ℕ := tr.countP isRecv

theorem Sound.progress_le (h : s.Sound) : s.progress ≤ s.stream.length + 1 := by
  have hle := h.le
  rw [progress]
  split <;> omega

theorem sound_withPhase (h : s.Sound) {phase : RecvFilePhase}
    (hphase : phase.ended = false → s.phase.ended = false)
    (hwhole : phase = .closing → s.buf = s.stream) : (s.withPhase phase).Sound where
  connected hrun := by
    cases h.connected (hphase hrun) with
    | established hstate hrun hring hstream hfits =>
        exact .established hstate hrun hring hstream hfits
    | closeWait hstate hstop hstream hfits => exact .closeWait hstate hstop hstream hfits
    | closed hstate => exact .closed hstate
  whole := hwhole
  le := h.le

theorem progress_withPhase {phase : RecvFilePhase}
    (hphase : s.phase.ended = true → phase.ended = true) :
    s.progress ≤ (s.withPhase phase).progress := by
  apply Nat.add_le_add_left
  cases hend : s.phase.ended with
  | false => exact Nat.zero_le _
  | true => rw [withPhase, hphase hend]

theorem progress_exit {phase : RecvFilePhase} (hrun : s.phase.ended = false)
    (hend : phase.ended = true) : 1 + s.progress = (s.withPhase phase).progress := by
  have hend' : (s.withPhase phase).phase.ended = true := hend
  rw [progress, progress, hrun, hend', withPhase, Nat.add_comm]
  rfl

/-- A call of the program alone keeps the stream, and each `vRecv` makes progress. -/
theorem sound_program {t : Step M N} (hfires : Fires step t) (h : Sound t.pre)
    (hprogram : IsProgram t.label) : Sound t.post ∧ t.post.stream = t.pre.stream ∧
      (if isRecv t then 1 else 0) + t.pre.progress ≤ t.post.progress := by
  obtain ⟨s, l, out, s'⟩ := t
  have hsteps : Steps s l out s' := steps_of_step hfires
  simp only at h hprogram ⊢
  cases hsteps with
  | recv data sock hphase hrecv =>
      have hconn := h.connected (by rw [hphase]; rfl)
      obtain ⟨hne, hconn', hle⟩ := hconn.recv hrecv
      have hpos := List.length_pos_iff.mpr hne
      refine ⟨⟨fun _ ↦ hconn', fun hend ↦ ?_, hle⟩, rfl, ?_⟩
      · cases hphase.symm.trans hend
      · simp only [isRecv, decide_true, if_true, progress, List.length_append, withRecv, append,
          hphase, RecvFilePhase.ended, Bool.false_eq_true, if_false]
        omega
  | recvClosing sock hphase hrecv =>
      have hrun : s.phase.ended = false := by rw [hphase]; rfl
      have hwhole := (h.connected hrun).recvClosing hrecv
      exact ⟨⟨nofun, fun _ ↦ hwhole, h.le⟩, rfl, (progress_exit hrun rfl).le⟩
  | recvFails e sock hphase =>
      have hrun : s.phase.ended = false := by rw [hphase]; rfl
      exact ⟨⟨nofun, nofun, h.le⟩, rfl, (progress_exit hrun rfl).le⟩
  | socket => exact hprogram.elim
  | write written hphase =>
      have hle : s.progress ≤ (s.withPhase (.returned (.ok s.buf.length))).progress :=
        progress_withPhase fun _ ↦ rfl
      exact ⟨⟨nofun, nofun, h.le⟩, rfl, (Nat.zero_add _).trans_le hle⟩
  | listen hphase =>
      have hrun : s.phase.ended = false := by rw [hphase]; rfl
      refine ⟨sound_withPhase h (fun _ ↦ hrun) nofun, rfl, (Nat.zero_add _).trans_le ?_⟩
      exact progress_withPhase fun hend ↦ nomatch hrun.symm.trans hend
  | accept hphase =>
      have hrun : s.phase.ended = false := by rw [hphase]; rfl
      refine ⟨sound_withPhase h (fun _ ↦ hrun) nofun, rfl, (Nat.zero_add _).trans_le ?_⟩
      exact progress_withPhase fun hend ↦ nomatch hrun.symm.trans hend
  | listenFails | acceptFails | writeFails =>
      refine ⟨sound_withPhase h nofun nofun, rfl, (Nat.zero_add _).trans_le ?_⟩
      exact progress_withPhase fun _ ↦ rfl

theorem sound_socket {t : Step M N} {l : SocketCall} (hfires : Fires step t) (h : Sound t.pre)
    (hlabel : t.label = .socket l) (hdom : InDomain t) (hfits : Fits t) :
    Sound t.post ∧ t.post.progress = t.pre.progress := by
  obtain ⟨s, l', out, s'⟩ := t
  obtain rfl : l' = .socket l := hlabel
  have hsteps : Steps s (.socket l) out s' := steps_of_step hfires
  cases hsteps with
  | socket _ out socket hphase hstep =>
      refine ⟨?_, rfl⟩
      cases hend : s.phase.ended with
      | false =>
          obtain ⟨hconn, hle⟩ := (h.connected hend).fromPeer h.le hend hstep (hdom l rfl hend)
            (hfits.stream l rfl hend) (hfits.fin l rfl hend)
          refine ⟨fun _ ↦ hconn, fun hclosing ↦ ?_, hle⟩
          have hphase' : s.phase = .closing := hclosing
          rw [hphase'] at hend
          cases hend
      | true =>
          rw [track_of_ended hend]
          exact ⟨fun hrun ↦ (nomatch hend.symm.trans hrun), h.whole, h.le⟩

theorem sound_step {t : Step M N} (hfires : Fires step t) (h : Sound t.pre) (hdom : InDomain t)
    (hfits : Fits t) : Sound t.post ∧
      (if isRecv t then 1 else 0) + t.pre.progress ≤ t.post.progress := by
  cases hlabel : t.label with
  | socket l =>
      obtain ⟨hsound, hprogress⟩ := sound_socket hfires h hlabel hdom hfits
      refine ⟨hsound, ?_⟩
      simp [isRecv, hlabel, hprogress]
  | _ =>
      obtain ⟨hsound, -, hprogress⟩ := sound_program hfires h (by rw [hlabel]; trivial)
      exact ⟨hsound, hprogress⟩

theorem step_vRecv_broken (hphase : s.phase = .receiving) (hstate : s.state = .closed) :
    s.step .vRecv = .ok (some (.error .connNotExist),
      (s.withRecv s.socket.sock (.error .connNotExist)).withPhase
        (.returned (.error .connNotExist))) := by
  simp only [step, hphase, Exec.waitUntil, if_true, Exec.ok_bind,
    NormalSocket.vRecv_closed hstate]
  rfl

end TcpRecvFile

end Tns
