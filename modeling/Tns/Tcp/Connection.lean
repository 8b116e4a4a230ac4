import Tns.Tcp.RunningSocket

/-!
# A connection

Two sockets of one connection, one of which sends, and the packets between them.
The network keeps every packet it has been given.  It can deliver each of them
any number of times, in any order, or not at all, so loss, duplication and
reordering are choices of the next step.
-/

namespace Tns.Tcp

open Tns.Library

/-- The socket that sends, the socket that receives, and all packets sent so far to each. -/
structure Connection (M N : ℕ) where
  source : RunningSocket M N
  sink : RunningSocket M N
  toSink : List Packet := []
  toSource : List Packet := []

/-- The steps of a connection: a section of the sending side, the delivery of a packet, or a
read at the receiving side. -/
inductive ConnectionCall where
  | source (call : SocketCall)
  | toSink (packet : Packet) (now : TimePoint)
  | toSource (packet : Packet) (now : TimePoint)
  | vRecv (buffSize n : ℕ)
  deriving DecidableEq

/-- The sections that send data: `vSend` and the sender, probe and retransmission threads. -/
def IsSending : SocketCall → Bool
  | .vSend _ | .write _ | .sendReadyData _ | .getAckWnd | .sendSegment _ | .zwp _ _
  | .retransmit _ _ => true
  | _ => false

def packetsOf (actions : List Action) : List Packet :=
  actions.filterMap fun
    | .sendPacket packet => some packet
    | _ => none

/-- The event a packet stands for; `fromPacket` throws on any other. -/
def eventOf (packet : Packet) : Exec Event :=
  match fromPacket packet with
  | .ok event => .ok event
  | .error msg => .error (.invalidArgument msg)

namespace Connection

variable {M N : ℕ}

def step (c : Connection M N) : ConnectionCall → Exec (SocketReturn × Connection M N)
  | .source call => do
      Exec.waitUntil (IsSending call = true)
      let (out, source) ← c.source.step call
      return (out, { c with source, toSink := c.toSink ++ packetsOf out.actions })
  | .toSink packet now => do
      Exec.waitUntil (packet ∈ c.toSink)
      let event ← eventOf packet
      let (out, sink) ← c.sink.step (.event event now)
      return (out, { c with sink, toSource := c.toSource ++ packetsOf out.actions })
  | .toSource packet now => do
      Exec.waitUntil (packet ∈ c.toSource)
      let event ← eventOf packet
      let (out, source) ← c.source.step (.event event now)
      return (out, { c with source, toSink := c.toSink ++ packetsOf out.actions })
  | .vRecv buffSize n => do
      let (out, sink) ← c.sink.step (.vRecv buffSize n)
      return (out, { c with sink })

abbrev Step (M N : ℕ) := Transition (Connection M N) ConnectionCall SocketReturn

/-- Everything that a step of a connection can do. -/
inductive Steps (c : Connection M N) : ConnectionCall → SocketReturn → Connection M N → Prop
  | source (call : SocketCall) (out : SocketReturn) (source : RunningSocket M N)
      (hcall : IsSending call = true) (hstep : c.source.step call = .ok (out, source)) :
      Steps c (.source call) out
        { c with source, toSink := c.toSink ++ packetsOf out.actions }
  | toSink (packet : Packet) (now : TimePoint) (event : Event) (out : SocketReturn)
      (sink : RunningSocket M N) (hpacket : packet ∈ c.toSink)
      (hevent : fromPacket packet = .ok event)
      (hstep : c.sink.step (.event event now) = .ok (out, sink)) :
      Steps c (.toSink packet now) out
        { c with sink, toSource := c.toSource ++ packetsOf out.actions }
  | toSource (packet : Packet) (now : TimePoint) (event : Event) (out : SocketReturn)
      (source : RunningSocket M N) (hpacket : packet ∈ c.toSource)
      (hevent : fromPacket packet = .ok event)
      (hstep : c.source.step (.event event now) = .ok (out, source)) :
      Steps c (.toSource packet now) out
        { c with source, toSink := c.toSink ++ packetsOf out.actions }
  | vRecv (buffSize n : ℕ) (out : SocketReturn) (sink : RunningSocket M N)
      (hstep : c.sink.step (.vRecv buffSize n) = .ok (out, sink)) :
      Steps c (.vRecv buffSize n) out { c with sink }

theorem eventOf_eq_ok {packet : Packet} {event : Event} :
    eventOf packet = .ok event ↔ fromPacket packet = .ok event := by
  unfold eventOf
  split <;> simp_all

theorem steps_of_step {c c' : Connection M N} {l : ConnectionCall} {out : SocketReturn}
    (h : c.step l = .ok (out, c')) : Steps c l out c' := by
  cases l with
  | source call =>
      simp only [step, Exec.bind_eq_ok, Exec.waitUntil_eq_ok, Exec.pure_eq_ok, Prod.exists,
        Prod.mk.injEq] at h
      obtain ⟨-, hcall, o, source, hstep, rfl, rfl⟩ := h
      exact .source call o source hcall hstep
  | toSink packet now =>
      simp only [step, Exec.bind_eq_ok, Exec.waitUntil_eq_ok, Exec.pure_eq_ok, Prod.exists,
        Prod.mk.injEq, eventOf_eq_ok] at h
      obtain ⟨-, hpacket, event, hevent, o, sink, hstep, rfl, rfl⟩ := h
      exact .toSink packet now event o sink hpacket hevent hstep
  | toSource packet now =>
      simp only [step, Exec.bind_eq_ok, Exec.waitUntil_eq_ok, Exec.pure_eq_ok, Prod.exists,
        Prod.mk.injEq, eventOf_eq_ok] at h
      obtain ⟨-, hpacket, event, hevent, o, source, hstep, rfl, rfl⟩ := h
      exact .toSource packet now event o source hpacket hevent hstep
  | vRecv buffSize n =>
      simp only [step, Exec.bind_eq_ok, Exec.pure_eq_ok, Prod.exists, Prod.mk.injEq] at h
      obtain ⟨o, sink, hstep, rfl, rfl⟩ := h
      exact .vRecv buffSize n o sink hstep

end Connection

end Tns.Tcp
