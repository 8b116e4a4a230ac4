import Tns.Tcp.RunningSocket

/-!
# Sending a file

`tcpSendFile` opens a connection, reads the file in chunks of ten megabytes and
hands one after the other to `vSend`, which stores it in as many sections as it
takes.  Then it closes the socket.  Its thread runs beside those of the socket, and
the sections of its `vClose` after the first are those of the socket.
-/

namespace Tns

open Tns.Library Tns.Tcp

def BUF_SIZE : ℕ := 10 * 1024 * 1024

/-- Where the thread of `tcpSendFile` is: `sending` before `vSend` of a chunk, `writing` between
two sections of it, with the size of the chunk and what of it is not stored yet. -/
inductive SendFilePhase where
  | opening | connecting | looping
  | sending (chunk : List Byte)
  | writing (n : ℕ) (bytesLeft : List Byte)
  | closing | waiting
  | returned (r : Except SocketError ℕ)
  deriving DecidableEq

/-- `tcpSendFile`, with the file under its name, if there is one, and what is left to read of the
stream that it has opened. -/
structure TcpSendFile where
  file : Option (List Byte)
  phase : SendFilePhase := .opening
  size : ℕ := 0
  rest : List Byte := []
  total : ℕ := 0

/-- The calls of `tcpSendFile`, with the results of those that are left open here: `tcpConnect`,
and whether the stream can be read. -/
inductive SendFileCall where
  | openFile
  | tcpConnect (r : Except SocketError Unit)
  | read (good : Bool)
  | vSend
  | write
  | vClose
  | done
  deriving DecidableEq

namespace TcpSendFile

variable {M N : ℕ} {p p' : TcpSendFile} {s s' : RunningSocket M N}

def withPhase (p : TcpSendFile) (phase : SendFilePhase) : TcpSendFile := { p with phase }

/-- After a section of `vSend` that returned `r`. -/
def stored (p : TcpSendFile) (n : ℕ) (bytesLeft : List Byte) : Except SocketError ℕ → TcpSendFile
  | .error e => p.withPhase (.returned (.error e))
  | .ok k =>
      if bytesLeft.drop k = [] then { p with phase := .looping, total := p.total + n }
      else p.withPhase (.writing n (bytesLeft.drop k))

def step (p : TcpSendFile) (s : RunningSocket M N) :
    SendFileCall → Exec (TcpSendFile × RunningSocket M N)
  | .openFile => do
      Exec.waitUntil (p.phase = .opening)
      match p.file with
      | none => return (p.withPhase (.returned (.error .noResources)), s)
      | some bytes =>
          let p := { p with size := bytes.length, rest := bytes }
          if p.size = 0 then return (p.withPhase (.returned (.ok 0)), s)
          else return (p.withPhase .connecting, s)
  | .tcpConnect r => do
      Exec.waitUntil (p.phase = .connecting)
      match r with
      | .error e => return (p.withPhase (.returned (.error e)), s)
      | .ok () => return (p.withPhase .looping, s)
  | .read good => do
      Exec.waitUntil (p.phase = .looping)
      if p.total < p.size then
        let n := min BUF_SIZE (p.size - p.total)
        if good = true ∧ n ≤ p.rest.length then
          return ({ p with phase := .sending (p.rest.take n), rest := p.rest.drop n }, s)
        else return (p.withPhase (.returned (.error .noResources)), s)
      else return (p.withPhase .closing, s)
  | .vSend =>
      match p.phase with
      | .sending chunk => do
          let (r, sock) ← s.sock.vSend chunk
          return (p.stored chunk.length chunk r,
            { s with sock, accepted := s.accepted ++ RunningSocket.acceptedOf chunk r })
      | _ => .error .blocks
  | .write =>
      match p.phase with
      | .writing n bytesLeft => do
          let (r, _, sendBuffer) ← s.sock.sendBuffer.write bytesLeft
          return (p.stored n bytesLeft r, { s with
            sock := { s.sock with sendBuffer }
            accepted := s.accepted ++ RunningSocket.acceptedOf bytesLeft r })
      | _ => .error .blocks
  | .vClose => do
      Exec.waitUntil (p.phase = .closing)
      let (_, s) ← s.step .vClose
      return (p.withPhase .waiting, s)
  | .done =>
      match p.phase, s.close with
      -- what `vClose` returns is not looked at
      | .waiting, .finished _ => .ok (p.withPhase (.returned (.ok p.total)), s)
      | _, _ => .error .blocks

/-- The chunk that `vSend` stores, and what of it is left. -/
def Storing (p : TcpSendFile) (n : ℕ) (bytesLeft : List Byte) : Prop :=
  p.phase = .sending bytesLeft ∧ n = bytesLeft.length ∨ p.phase = .writing n bytesLeft

/-- Everything that a call can do. -/
inductive Steps (p : TcpSendFile) (s : RunningSocket M N) : TcpSendFile → RunningSocket M N → Prop
  | missing (h : p.phase = .opening) : Steps p s (p.withPhase (.returned (.error .noResources))) s
  | empty (h : p.phase = .opening) (hfile : p.file = some []) :
      Steps p s { p with phase := .returned (.ok 0), size := 0, rest := [] } s
  | opens (bytes : List Byte) (h : p.phase = .opening) (hfile : p.file = some bytes) :
      Steps p s { p with phase := .connecting, size := bytes.length, rest := bytes } s
  | connects (h : p.phase = .connecting) : Steps p s (p.withPhase .looping) s
  | connectFails (e : SocketError) (h : p.phase = .connecting) :
      Steps p s (p.withPhase (.returned (.error e))) s
  | reads (n : ℕ) (h : p.phase = .looping) (hn : n ≤ p.rest.length) :
      Steps p s { p with phase := .sending (p.rest.take n), rest := p.rest.drop n } s
  | readFails (h : p.phase = .looping) :
      Steps p s (p.withPhase (.returned (.error .noResources))) s
  | ends (h : p.phase = .looping) (htotal : p.size ≤ p.total) : Steps p s (p.withPhase .closing) s
  | stores (n : ℕ) (bytesLeft : List Byte) (r : Except SocketError ℕ) (l : SocketCall)
      (s' : RunningSocket M N) (h : p.Storing n bytesLeft)
      (hl : l = .vSend bytesLeft ∨ l = .write bytesLeft)
      (hstep : s.step l = .ok ({}, s'))
      (haccepted : s'.accepted = s.accepted ++ RunningSocket.acceptedOf bytesLeft r) :
      Steps p s (p.stored n bytesLeft r) s'
  | closes (out : SocketReturn) (s' : RunningSocket M N) (h : p.phase = .closing)
      (hstep : s.step .vClose = .ok (out, s')) :
      Steps p s (p.withPhase .waiting) s'
  | returns (h : p.phase = .waiting) : Steps p s (p.withPhase (.returned (.ok p.total))) s

theorem steps_of_step {call : SendFileCall} (h : p.step s call = .ok (p', s')) :
    Steps p s p' s' := by
  cases call with
  | openFile =>
      simp only [step, Exec.bind_eq_ok, Exec.waitUntil_eq_ok] at h
      obtain ⟨-, hphase, h⟩ := h
      split at h
      · simp only [Exec.pure_eq_ok, Prod.mk.injEq] at h
        obtain ⟨rfl, rfl⟩ := h
        exact .missing hphase
      · rename_i bytes hfile
        split at h <;> rename_i hsize <;> simp only [Exec.pure_eq_ok, Prod.mk.injEq] at h <;>
          obtain ⟨rfl, rfl⟩ := h
        · obtain rfl : bytes = [] := List.length_eq_zero_iff.mp hsize
          exact .empty hphase hfile
        · exact .opens bytes hphase hfile
  | tcpConnect r =>
      simp only [step, Exec.bind_eq_ok, Exec.waitUntil_eq_ok] at h
      obtain ⟨-, hphase, h⟩ := h
      cases r with
      | error e =>
          simp only [Exec.pure_eq_ok, Prod.mk.injEq] at h
          obtain ⟨rfl, rfl⟩ := h
          exact .connectFails e hphase
      | ok u =>
          simp only [Exec.pure_eq_ok, Prod.mk.injEq] at h
          obtain ⟨rfl, rfl⟩ := h
          exact .connects hphase
  | read good =>
      simp only [step, Exec.bind_eq_ok, Exec.waitUntil_eq_ok] at h
      obtain ⟨-, hphase, h⟩ := h
      split at h
      · split at h <;> rename_i hgood <;> simp only [Exec.pure_eq_ok, Prod.mk.injEq] at h <;>
          obtain ⟨rfl, rfl⟩ := h
        · exact .reads _ hphase hgood.2
        · exact .readFails hphase
      · rename_i htotal
        simp only [Exec.pure_eq_ok, Prod.mk.injEq] at h
        obtain ⟨rfl, rfl⟩ := h
        exact .ends hphase (not_lt.mp htotal)
  | vSend =>
      simp only [step] at h
      split at h
      · rename_i chunk hphase
        simp only [Exec.bind_eq_ok, Exec.pure_eq_ok, Prod.mk.injEq, Prod.exists] at h
        obtain ⟨r, sock, hsend, rfl, rfl⟩ := h
        refine .stores _ chunk r (.vSend chunk) _ (.inl ⟨hphase, rfl⟩) (.inl rfl) ?_ rfl
        simp only [RunningSocket.step, hsend, Exec.ok_bind]
        rfl
      · cases h
  | write =>
      simp only [step] at h
      split at h
      · rename_i n bytesLeft hphase
        simp only [Exec.bind_eq_ok, Exec.pure_eq_ok, Prod.mk.injEq, Prod.exists] at h
        obtain ⟨r, wakes, b, hwrite, rfl, rfl⟩ := h
        refine .stores n bytesLeft r (.write bytesLeft) _ (.inr hphase) (.inr rfl) ?_ rfl
        simp only [RunningSocket.step, hwrite, Exec.ok_bind]
        rfl
      · cases h
  | vClose =>
      simp only [step, Exec.bind_eq_ok, Exec.waitUntil_eq_ok, Exec.pure_eq_ok, Prod.mk.injEq,
        Prod.exists] at h
      obtain ⟨-, hphase, out, s₁, hstep, rfl, rfl⟩ := h
      exact .closes out s₁ hphase hstep
  | done =>
      simp only [step] at h
      split at h
      · rename_i hphase _
        simp only [Except.ok.injEq, Prod.mk.injEq] at h
        obtain ⟨rfl, rfl⟩ := h
        exact .returns hphase
      · cases h

end TcpSendFile

end Tns
