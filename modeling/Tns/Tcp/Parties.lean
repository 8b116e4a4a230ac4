import Tns.Tcp.Connection
import Tns.Tcp.StateDiagram

/-!
# Two parties

Both ends of a connection run all their threads, and each closes when it likes.
As in a `Connection` the network keeps every packet, and can deliver it again, later
or never.  The table of this module says which states the two ends can be in at the
same time, as long as nothing else happens to a socket while it handles an event.
-/

namespace Tns.Tcp

open Tns.Library

/-- A socket and all packets that have been sent to it.  `took` is not part of the program:
the socket has consumed the FIN of the other end. -/
structure Party (M N : ℕ) where
  socket : RunningSocket M N
  inbox : List Packet := []
  took : Bool := false

inductive PartyCall where
  | thread (call : SocketCall)
  | deliver (packet : Packet) (now : TimePoint)
  deriving DecidableEq

def IsEvent : SocketCall → Bool
  | .event _ _ => true
  | _ => false

/-- The states a socket enters when it consumes a FIN. -/
def TakesFin : State → Bool
  | .closeWait | .timeWait _ => true
  | _ => false

namespace Party

variable {M N : ℕ} {p p' : Party M N}

def act (p : Party M N) : PartyCall → Exec (SocketReturn × Party M N)
  | .thread call => do
      Exec.waitUntil (IsEvent call = false)
      let (out, socket) ← p.socket.step call
      return (out, { p with socket })
  | .deliver packet now => do
      Exec.waitUntil (packet ∈ p.inbox)
      let event ← eventOf packet
      let (out, socket) ← p.socket.step (.event event now)
      return (out, { p with socket, took := p.took || TakesFin socket.sock.state })

/-- The other end has sent these packets. -/
def hears (p : Party M N) (packets : List Packet) : Party M N :=
  { p with inbox := p.inbox ++ packets }

@[simp] theorem hears_socket (p : Party M N) (packets : List Packet) :
    (p.hears packets).socket = p.socket := rfl

@[simp] theorem hears_took (p : Party M N) (packets : List Packet) :
    (p.hears packets).took = p.took := rfl

/-- Everything that a party can do. -/
inductive Acts (p : Party M N) : PartyCall → SocketReturn → Party M N → Prop
  | thread (call : SocketCall) (out : SocketReturn) (socket : RunningSocket M N)
      (hcall : IsEvent call = false) (hsteps : RunningSocket.Steps p.socket call out socket) :
      Acts p (.thread call) out { p with socket }
  | deliver (packet : Packet) (now : TimePoint) (event : Event) (actions : List Action)
      (sock : NormalSocket M N) (hpacket : packet ∈ p.inbox)
      (hevent : fromPacket packet = .ok event)
      (hhandle : p.socket.sock.eventHandler event now = .ok (actions, sock)) :
      Acts p (.deliver packet now) { actions }
        { p with socket := { p.socket with sock }, took := p.took || TakesFin sock.state }

theorem acts_of_act {call : PartyCall} {out : SocketReturn} (h : p.act call = .ok (out, p')) :
    Acts p call out p' := by
  cases call with
  | thread call =>
      simp only [act, Exec.bind_eq_ok, Exec.waitUntil_eq_ok, Exec.pure_eq_ok, Prod.exists,
        Prod.mk.injEq] at h
      obtain ⟨-, hcall, o, socket, hstep, rfl, rfl⟩ := h
      exact .thread call o socket hcall (RunningSocket.steps_of_step hstep)
  | deliver packet now =>
      simp only [act, Exec.bind_eq_ok, Exec.waitUntil_eq_ok, Exec.pure_eq_ok, Prod.exists,
        Prod.mk.injEq, Connection.eventOf_eq_ok] at h
      obtain ⟨-, hpacket, event, hevent, o, socket, hstep, rfl, rfl⟩ := h
      cases RunningSocket.steps_of_step hstep with
      | event _ _ actions sock hhandle =>
          exact .deliver packet now event actions sock hpacket hevent hhandle

end Party

inductive Side where
  | here
  | there
  deriving DecidableEq

def Side.other : Side → Side
  | .here => .there
  | .there => .here

theorem Side.forall_iff {P : Side → Prop} : (∀ side, P side) ↔ P .here ∧ P .there :=
  ⟨fun h ↦ ⟨h .here, h .there⟩, fun h side ↦ by cases side; exacts [h.1, h.2]⟩

structure Parties (M N : ℕ) where
  here : Party M N
  there : Party M N

namespace Parties

variable {M N : ℕ} {c c' : Parties M N}

def party (c : Parties M N) : Side → Party M N
  | .here => c.here
  | .there => c.there

/-- One party acts, and its packets go to the other. -/
def step (c : Parties M N) : Side × PartyCall → Exec (SocketReturn × Parties M N)
  | (.here, call) => do
      let (out, here) ← c.here.act call
      return (out, { here, there := c.there.hears (packetsOf out.actions) })
  | (.there, call) => do
      let (out, there) ← c.there.act call
      return (out, { here := c.here.hears (packetsOf out.actions), there })

abbrev Step (M N : ℕ) := Transition (Parties M N) (Side × PartyCall) SocketReturn

theorem step_cases {side : Side} {call : PartyCall} {out : SocketReturn}
    (h : c.step (side, call) = .ok (out, c')) :
    Party.Acts (c.party side) call out (c'.party side) ∧
      c'.party side.other = (c.party side.other).hears (packetsOf out.actions) := by
  cases side with
  | here =>
      simp only [step, Exec.bind_eq_ok, Exec.pure_eq_ok, Prod.exists, Prod.mk.injEq] at h
      obtain ⟨o, p, hact, rfl, rfl⟩ := h
      exact ⟨Party.acts_of_act hact, rfl⟩
  | there =>
      simp only [step, Exec.bind_eq_ok, Exec.pure_eq_ok, Prod.exists, Prod.mk.injEq] at h
      obtain ⟨o, p, hact, rfl, rfl⟩ := h
      exact ⟨Party.acts_of_act hact, rfl⟩

end Parties

namespace State

/-- The states of an end that has consumed the other's FIN. -/
def HasTaken : State → Prop
  | .closeWait | .lastAck | .timeWait _ => True
  | _ => False

/-- The states of an end whose FIN has been acknowledged. -/
def FinAcked : State → Prop
  | .finWait2 | .timeWait _ => True
  | _ => False

end State

/-- The pairs of states in which the two ends of a connection can be at the same time. -/
def compatible : State → State → Bool
  | .closed, _ | _, .closed => true
  | .established, .established | .established, .finWait1 | .finWait1, .established => true
  | .finWait1, .finWait1 => true
  | .finWait1, .closeWait | .closeWait, .finWait1 => true
  | .finWait1, .lastAck | .lastAck, .finWait1 => true
  | .finWait2, .closeWait | .closeWait, .finWait2 => true
  | .finWait2, .lastAck | .lastAck, .finWait2 => true
  | .timeWait _, .lastAck | .lastAck, .timeWait _ => true
  | _, _ => false

theorem compatible_comm (a b : State) : compatible a b = compatible b a := by
  cases a <;> cases b <;> rfl

section Compatible

variable {b : State}

theorem compatible_finWait1 (h : compatible .established b = true) :
    compatible .finWait1 b = true := by
  cases b <;> simp_all [compatible]

theorem compatible_lastAck (h : compatible .closeWait b = true) :
    compatible .lastAck b = true := by
  cases b <;> simp_all [compatible]

theorem compatible_closeWait (h : compatible .established b = true) (hb : b.AfterFin) :
    compatible .closeWait b = true := by
  cases b <;> simp_all [compatible, State.AfterFin]

theorem compatible_finWait2 (h : compatible .finWait1 b = true)
    (hb : b.HasTaken ∨ b = .closed) : compatible .finWait2 b = true := by
  cases b <;> simp_all [compatible, State.HasTaken]

theorem compatible_timeWait (time : TimePoint) (h : compatible .finWait2 b = true)
    (hb : b.AfterFin) : compatible (.timeWait time) b = true := by
  cases b <;> simp_all [compatible, State.AfterFin]

end Compatible

end Tns.Tcp
