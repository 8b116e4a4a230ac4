import Tns.Tcp.ActiveOpen

/-!
# The state diagram

The comments over the handlers draw the transitions of a socket.  Each of them
assigns `state_` where it has just read it, but `vClose` decides on the next state
first and assigns it after its FIN is sent.  If the peer closes or the connection
is aborted in between, the transition is one that no comment draws.

A handler is one step here.  In the source it looks up its overload by `state_`
without a lock and assigns `state_` after its sections, so a close can also come
in between; the transitions of such a run are not among those below.
-/

namespace Tns.Tcp

open Tns.Library

namespace State

/-- The transitions drawn over the handlers, those of the close calls, and the abort. -/
inductive Drawn : State → State → Prop
  | connected : Drawn .synSent .established
  | accepted (lSock : ℕ) : Drawn (.synReceived lSock) .established
  | remoteClosed : Drawn .established .closeWait
  | finAcked : Drawn .finWait1 .finWait2
  | bothClosed (time : TimePoint) : Drawn .finWait2 (.timeWait time)
  | closedEarly (lSock : ℕ) : Drawn (.synReceived lSock) .finWait1
  | closed : Drawn .established .finWait1
  | closedLast : Drawn .closeWait .lastAck
  | aborted (state : State) : Drawn state .closed

/-- Whether the transition is drawn. -/
def draws (state : State) : State → Bool
  | .closed => true
  | .established =>
      match state with
      | .synSent | .synReceived _ => true
      | _ => false
  | .finWait1 =>
      match state with
      | .synReceived _ | .established => true
      | _ => false
  | .closeWait => state = .established
  | .finWait2 => state = .finWait1
  | .timeWait _ => state = .finWait2
  | .lastAck => state = .closeWait
  | _ => false

theorem draws_iff {state state' : State} : state.draws state' = true ↔ Drawn state state' := by
  constructor
  · intro h
    cases state' <;> cases state <;> first | constructor | cases h
  · intro h
    cases h <;> rfl

instance : DecidableRel Drawn := fun _ _ ↦ decidable_of_iff _ draws_iff

/-- The transitions of a close that something else has overtaken: the peer has closed, or the
connection has been aborted, since `vClose` has tested the state. -/
inductive Overtaken : State → State → Prop
  | remoteClosed : Overtaken .closeWait .finWait1
  | abortedActive : Overtaken .closed .finWait1
  | abortedPassive : Overtaken .closed .lastAck

instance : DecidableRel Overtaken := fun state state' ↦
  decidable_of_iff (state = .closeWait ∧ state' = .finWait1 ∨
      state = .closed ∧ (state' = .finWait1 ∨ state' = .lastAck)) <| by
    constructor
    · rintro (⟨rfl, rfl⟩ | ⟨rfl, rfl | rfl⟩)
      · exact .remoteClosed
      · exact .abortedActive
      · exact .abortedPassive
    · rintro (_ | _ | _) <;> simp

/-- The states in which `vClose` has not been called, or has not got to its FIN yet. -/
def NotClosed : State → Prop
  | .closed | .synSent | .synReceived _ | .established | .closeWait => True
  | .listen | .finWait1 | .finWait2 | .closing | .lastAck | .timeWait _ => False

/-- The states after the FIN of the socket. -/
def AfterFin : State → Prop
  | .closed | .finWait1 | .finWait2 | .lastAck | .timeWait _ => True
  | .listen | .synSent | .synReceived _ | .established | .closeWait | .closing => False

/-- `vClose` has decided to go to `next`, and the state is one that can have followed since. -/
def Leads (state next : State) : Prop :=
  next = .finWait1 ∧ state.NotClosed ∧ state ≠ .synSent ∨
    next = .lastAck ∧ (state = .closeWait ∨ state = .closed)

theorem NotClosed.drawn {state state' : State} (h : state.NotClosed) (hdrawn : Drawn state state')
    (hne : state' ≠ .finWait1 ∧ state' ≠ .lastAck) : state'.NotClosed := by
  cases hdrawn with
  | finAcked => exact h.elim
  | bothClosed => exact h.elim
  | closedEarly => exact absurd rfl hne.1
  | closed => exact absurd rfl hne.1
  | closedLast => exact absurd rfl hne.2
  | _ => trivial

theorem AfterFin.drawn {state state' : State} (h : state.AfterFin) (hdrawn : Drawn state state') :
    state'.AfterFin := by
  cases hdrawn with
  | connected => exact h.elim
  | accepted => exact h.elim
  | remoteClosed => exact h.elim
  | closedLast => exact h.elim
  | _ => trivial

theorem Leads.drawn {state state' next : State} (h : Leads state next) (hdrawn : Drawn state state')
    (hne : state' ≠ .finWait1 ∧ state' ≠ .lastAck) : Leads state' next := by
  rcases h with ⟨hnext, hstate, -⟩ | ⟨hnext, rfl | rfl⟩
  · refine .inl ⟨hnext, hstate.drawn hdrawn hne, ?_⟩
    rintro rfl
    cases hdrawn
  · cases hdrawn with
    | closedLast => exact absurd rfl hne.2
    | aborted => exact .inr ⟨hnext, .inr rfl⟩
  · cases hdrawn with
    | aborted => exact .inr ⟨hnext, .inr rfl⟩

/-- A close that goes to `next` is drawn or has been overtaken. -/
theorem Leads.drawn_or_overtaken {state next : State} (h : Leads state next) :
    Drawn state next ∨ Overtaken state next := by
  rcases h with ⟨rfl, hstate, hsyn⟩ | ⟨rfl, rfl | rfl⟩
  · cases state with
    | closed => exact .inr .abortedActive
    | synSent => exact absurd rfl hsyn
    | synReceived lSock => exact .inl (.closedEarly lSock)
    | established => exact .inl .closed
    | closeWait => exact .inr .remoteClosed
    | _ => exact hstate.elim
  · exact .inl .closedLast
  · exact .inr .abortedPassive

end State

open State

namespace NormalSocket

variable {M N : ℕ} {s s' : NormalSocket M N}

/-- An event takes a transition that is drawn, and never one to a state after `vClose`. -/
theorem Handles.drawn {now : TimePoint} {event : Event} (h : Handles s now event s') :
    s'.state = s.state ∨
      Drawn s.state s'.state ∧ s'.state ≠ .finWait1 ∧ s'.state ≠ .lastAck := by
  cases h with
  | opened lSock _ _ _ _ hstate =>
      rw [hstate]
      exact .inr ⟨.accepted lSock, nofun, nofun⟩
  | closeWait _ _ _ _ hstate =>
      rw [hstate]
      exact .inr ⟨.remoteClosed, nofun, nofun⟩
  | timeWait _ _ _ _ hstate =>
      rw [hstate]
      exact .inr ⟨.bothClosed now, nofun, nofun⟩
  | finAcked _ _ _ hstate =>
      rw [hstate]
      exact .inr ⟨.finAcked, nofun, nofun⟩
  | closed => exact .inr ⟨.aborted _, nofun, nofun⟩
  | _ => exact .inl rfl

end NormalSocket

namespace RunningSocket

variable {M N : ℕ} {s s' : RunningSocket M N}

/-- What a section does to the state and to the thread that closes. -/
theorem Steps.state_cases {l : SocketCall} {out : SocketReturn} (h : Steps s l out s') :
    (s'.close = s.close ∧ (s'.sock.state = s.sock.state ∨
      Drawn s.sock.state s'.sock.state ∧ s'.sock.state ≠ .finWait1 ∧ s'.sock.state ≠ .lastAck)) ∨
    (∃ next, s.close.next = some next ∧ s'.close.next = some next ∧
      s'.sock.state = s.sock.state) ∨
    (s.close = .idle ∧ ∃ r, s'.close = .finished r ∧ s.sock.vCloseState.1 = .error r ∧
      s'.sock = s.sock.vCloseState.2.2) ∨
    (s.close = .idle ∧ ∃ next, s'.close = .closing next ∧ s.sock.vCloseState.1 = .ok next ∧
      s'.sock = s.sock) ∨
    ∃ next, s.close.next = some next ∧ s'.close = .finished (.ok ()) ∧ s'.sock.state = next := by
  have haborts : ∀ sock : NormalSocket M N, sock.state = .closed →
      sock.state = s.sock.state ∨
        Drawn s.sock.state sock.state ∧ sock.state ≠ .finWait1 ∧ sock.state ≠ .lastAck := by
    intro sock hclosed
    rw [hclosed]
    exact .inr ⟨.aborted _, nofun, nofun⟩
  cases h with
  | event event now actions sock hevent =>
      exact .inl ⟨rfl, (NormalSocket.handles_of_eventHandler hevent).drawn⟩
  | retransmit edge now =>
      refine .inl ⟨rfl, ?_⟩
      obtain ⟨q, -, heq | ⟨result, heq⟩⟩ := s.sock.retransmitExpired_cases edge now
      · exact .inl (congrArg (·.state) heq)
      · exact haborts _ (congrArg (·.state) heq)
  | vAbort => exact .inl ⟨rfl, haborts _ s.sock.vAbort_state⟩
  | vCloseAtOnce r actions sock hclose hstate =>
      exact .inr (.inr (.inl ⟨hclose, r, rfl, by rw [hstate], by rw [hstate]⟩))
  | vClose next actions hclose hstate =>
      exact .inr (.inr (.inr (.inl ⟨hclose, next, rfl, by rw [hstate], rfl⟩)))
  | getNxt next hclose => exact .inr (.inl ⟨next, by rw [hclose]; rfl, rfl, rfl⟩)
  | writeAndSendOne next _ _ hclose => exact .inr (.inl ⟨next, by rw [hclose]; rfl, rfl, rfl⟩)
  | sendFin now next _ _ _ _ hclose =>
      exact .inr (.inr (.inr (.inr ⟨next, by rw [hclose]; rfl, rfl, rfl⟩)))
  | _ => exact .inl ⟨rfl, .inl rfl⟩

/-- The state fits what the thread that closes has done. -/
structure Lives (s : RunningSocket M N) : Prop where
  idle : s.close = .idle → s.sock.state.NotClosed
  pending : ∀ next, s.close.next = some next → Leads s.sock.state next
  finished : ∀ r, s.close = .finished r → s.sock.state.AfterFin

/-- The state stays as it is, or changes as drawn, or by a close that has been overtaken. -/
def Follows (state state' : State) : Prop :=
  state' = state ∨ Drawn state state' ∨ Overtaken state state'

namespace Lives

theorem of_drawn (h : Lives s) (hclose : s'.close = s.close)
    (hstate : s'.sock.state = s.sock.state ∨ Drawn s.sock.state s'.sock.state ∧
      s'.sock.state ≠ .finWait1 ∧ s'.sock.state ≠ .lastAck) :
    Lives s' ∧ Follows s.sock.state s'.sock.state := by
  rcases hstate with hsame | ⟨hdrawn, hne⟩
  · refine ⟨⟨?_, ?_, ?_⟩, .inl hsame⟩
    · rw [hclose, hsame]
      exact h.idle
    · rw [hclose, hsame]
      exact h.pending
    · rw [hclose, hsame]
      exact h.finished
  · refine ⟨⟨?_, ?_, ?_⟩, .inr (.inl hdrawn)⟩
    · rw [hclose]
      exact fun hidle ↦ (h.idle hidle).drawn hdrawn hne
    · rw [hclose]
      exact fun next hnext ↦ (h.pending next hnext).drawn hdrawn hne
    · rw [hclose]
      exact fun r hr ↦ (h.finished r hr).drawn hdrawn

/-- Where `vClose` is finished at once, the socket is closed afterwards. -/
theorem closed_of_vCloseState {r : Except SocketError Unit} (hstate : s.sock.state.NotClosed)
    (hr : s.sock.vCloseState.1 = .error r) : s.sock.vCloseState.2.2.state = .closed := by
  unfold NormalSocket.vCloseState at hr ⊢
  split at hr <;> rename_i heq
  · rfl
  · cases hr
  · cases hr
  · cases hr
  · exact heq
  all_goals
    rw [heq] at hstate
    exact hstate.elim

theorem leads_of_vCloseState {next : State} (hr : s.sock.vCloseState.1 = .ok next) :
    Leads s.sock.state next := by
  unfold NormalSocket.vCloseState at hr
  split at hr <;> rename_i heq
  case h_2 =>
    rw [heq]
    exact .inl ⟨(Except.ok.inj hr).symm, trivial, nofun⟩
  case h_3 =>
    rw [heq]
    exact .inl ⟨(Except.ok.inj hr).symm, trivial, nofun⟩
  case h_4 => exact .inr ⟨(Except.ok.inj hr).symm, .inl heq⟩
  all_goals cases hr

theorem afterFin_of_leads {state next : State} (h : Leads state next) : next.AfterFin := by
  rcases h with ⟨rfl, -⟩ | ⟨rfl, -⟩
  · trivial
  · trivial

theorem step {l : SocketCall} {out : SocketReturn} (h : Lives s) (hsteps : Steps s l out s') :
    Lives s' ∧ Follows s.sock.state s'.sock.state := by
  rcases hsteps.state_cases with ⟨hclose, hstate⟩ | ⟨next, hpre, hpost, hstate⟩ |
    ⟨hidle, r, hpost, hr, hsock⟩ | ⟨hidle, next, hpost, hnext, hsock⟩ | ⟨next, hpre, hpost, hstate⟩
  · exact h.of_drawn hclose hstate
  · refine ⟨⟨fun hidle ↦ ?_, fun next' hnext ↦ ?_, fun r hr ↦ ?_⟩, .inl hstate⟩
    · rw [hidle] at hpost
      cases hpost
    · obtain rfl : next = next' := Option.some.inj (hpost.symm.trans hnext)
      rw [hstate]
      exact h.pending next hpre
    · rw [hr] at hpost
      cases hpost
  · have hclosed : s'.sock.state = .closed := by
      rw [hsock]
      exact closed_of_vCloseState (h.idle hidle) hr
    refine ⟨⟨fun hidle' ↦ ?_, fun next hnext ↦ ?_, fun _ _ ↦ ?_⟩, .inr (.inl ?_)⟩
    · rw [hpost] at hidle'
      cases hidle'
    · rw [hpost] at hnext
      cases hnext
    · rw [hclosed]
      trivial
    · rw [hclosed]
      exact .aborted _
  · refine ⟨⟨fun hidle' ↦ ?_, fun next' hnext' ↦ ?_, fun r hr ↦ ?_⟩, .inl (by rw [hsock])⟩
    · rw [hpost] at hidle'
      cases hidle'
    · rw [hpost] at hnext'
      obtain rfl := Option.some.inj hnext'
      rw [hsock]
      exact leads_of_vCloseState hnext
    · rw [hpost] at hr
      cases hr
  · have hleads := h.pending next hpre
    refine ⟨⟨fun hidle' ↦ ?_, fun next' hnext' ↦ ?_, fun _ _ ↦ ?_⟩, ?_⟩
    · rw [hpost] at hidle'
      cases hidle'
    · rw [hpost] at hnext'
      cases hnext'
    · rw [hstate]
      exact afterFin_of_leads hleads
    · rw [hstate]
      exact .inr hleads.drawn_or_overtaken

end Lives

end RunningSocket

end Tns.Tcp
