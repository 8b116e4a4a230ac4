import Tns.Tcp.Handshake

/-!
# The active end of the handshake

A SYN-ACK is taken for valid if everything sent is acknowledged after it.  The
socket stays in SYN_SENT until the thread that waits in `createActiveConnection_`
wakes up, and in this gap the test accepts SYN-ACKs with any acknowledgment number.
-/

namespace Tns.Tcp

open Tns.Library RetransmissionQueue

namespace NormalSocket

variable {M N : ℕ} {s s' : NormalSocket M N}

/-- The rest of `createActiveConnection_`, from the end of its wait on. -/
def connected (s : NormalSocket M N) : Exec (Except SocketError Unit × NormalSocket M N) := do
  match ← s.result.waitForSynAck with
  | some err => return (.error err, s)
  | none =>
      Exec.assertThat (s.state = .synSent) "FATAL: Socket state should still be in SynSent"
      Exec.assertThat (s.sendBuffer.sanityCheckAtStart = true) "FATAL: sendBuffer_ is not sane"
      Exec.assertThat (s.recvBuffer.sanityCheckAtStart = true) "FATAL: recvBuffer_ is not sane"
      return (.ok (), s.setState .established)

/-- The connection is reported exactly if the wait is over without an error and the three
assertions hold. -/
theorem connected_eq_ok : s.connected = .ok (.ok (), s') ↔
    s.result.notified = true ∧ s.result.error = none ∧ s.state = .synSent ∧
      s.sendBuffer.sanityCheckAtStart = true ∧ s.recvBuffer.sanityCheckAtStart = true ∧
      s' = s.setState .established := by
  simp only [connected, SynAckResult.waitForSynAck, Exec.bind_eq_ok, Exec.waitUntil_eq_ok,
    Exec.pure_eq_ok, exists_const]
  constructor
  · rintro ⟨err, ⟨hnotified, rfl⟩, h⟩
    cases herr : s.result.error with
    | some err => simp [herr] at h
    | none =>
        simp only [herr, Exec.bind_eq_ok, Exec.assertThat_eq_ok, Exec.pure_eq_ok, Prod.mk.injEq,
          true_and, exists_const] at h
        obtain ⟨hstate, hsend, hrecv, rfl⟩ := h
        exact ⟨hnotified, rfl, hstate, hsend, hrecv, rfl⟩
  · rintro ⟨hnotified, herr, hstate, hsend, hrecv, rfl⟩
    refine ⟨none, ⟨hnotified, herr⟩, ?_⟩
    simp [Exec.assertThat, hstate, hsend, hrecv, pure, Except.pure]

/-- A SYN-ACK in SYN_SENT sets the receive pointers exactly if everything sent is acknowledged
after it. -/
theorem handleSynSentGetSynAck_cases {serverISN ackNum : UInt32} {serverWND : UInt16}
    {now : TimePoint} {actions : List Action}
    (h : s.handleSynSentGetSynAck serverISN ackNum serverWND now = .ok (actions, s')) :
    s'.state = s.state ∧
      s'.sendBuffer = (s.sendBuffer.onAck ackNum serverWND.toUInt32 now).2.2 ∧
      ((s'.sendBuffer.una ≠ s'.sendBuffer.nxt ∧ s'.recvBuffer = s.recvBuffer ∧
          s'.result = s.result) ∨
        (s'.sendBuffer.una = s'.sendBuffer.nxt ∧
          s'.recvBuffer = s.recvBuffer.setPointers (serverISN + 1) ∧
          s'.result = s.result.onSynAck)) ∧
      ∀ packet, .sendPacket packet ∈ actions → packet.payload = [] := by
  simp only [handleSynSentGetSynAck, SendBuffer.onAck_result] at h
  split at h <;> rename_i heq <;> simp only [Except.ok.injEq, Prod.mk.injEq] at h <;>
    obtain ⟨rfl, rfl⟩ := h
  · exact ⟨rfl, rfl, .inl ⟨heq, rfl, rfl⟩, by simp⟩
  · exact ⟨rfl, rfl, .inr ⟨not_not.mp heq, rfl, rfl⟩, by simp [Packet.makeAckPacket]⟩

end NormalSocket

/-- With one number in flight, the only acceptable acknowledgment number is the next one. -/
theorem SendBuffer.una_onAck_of_one {M : ℕ} {b : SendBuffer M} {isn : UInt32}
    (hwrap : isn.toNat + 1 < 2 ^ 32) (hnxt : b.nxt = isn + 1)
    (huna : b.una = isn ∨ b.una = isn + 1) (ackNum wndSize : UInt32) (now : TimePoint) :
    (b.onAck ackNum wndSize now).2.2.una = if ackNum = isn + 1 then isn + 1 else b.una := by
  have hadd : (isn + 1).toNat = isn.toNat + 1 := UInt32.toNat_add_of_lt hwrap
  have hacc : b.una < ackNum ∧ ackNum ≤ b.nxt ↔ b.una = isn ∧ ackNum = isn + 1 := by
    rw [hnxt, UInt32.lt_iff_toNat_lt, UInt32.le_iff_toNat_le, ← UInt32.toNat_inj,
      ← UInt32.toNat_inj, hadd]
    rcases huna with huna | huna
    · rw [huna]
      omega
    · rw [huna, hadd]
      omega
  simp only [SendBuffer.onAck_una, hacc]
  by_cases hack : ackNum = isn + 1
  · rcases huna with huna | huna
    · simp [huna, hack]
    · simp [huna, hack]
  · simp [hack]

namespace RunningSocket

variable {M N : ℕ} {s s' : RunningSocket M N} {isn : UInt32} {now : TimePoint}

/-- A SYN-ACK with an acknowledgment number other than ISN + 1 leaves the receive pointers. -/
def KeepsPointers (isn : UInt32) (t : Step M N) : Prop :=
  match t.label with
  | .event (.getSynAck _ ackNum _) _ =>
      ackNum ≠ isn + 1 → t.post.sock.recvBuffer.nbr = t.pre.sock.recvBuffer.nbr ∧
        t.post.sock.recvBuffer.nxt = t.pre.sock.recvBuffer.nxt
  | _ => True

/-- The step handles a SYN-ACK of a server with initial sequence number `serverISN` that
acknowledges the SYN. -/
def Answers (isn serverISN : UInt32) (t : Step M N) : Prop :=
  ∃ serverWND now, t.label = .event (.getSynAck serverISN (isn + 1) serverWND) now

/-- If the connecting thread wakes up now and moves the socket to ESTABLISHED, both ends agree
on the sequence numbers. -/
def Agrees (isn : UInt32) (tr : List (Step M N)) (s : RunningSocket M N) : Prop :=
  ∀ sock, s.sock.connected = .ok (.ok (), sock) →
    sock.sendBuffer.una = isn + 1 ∧ sock.sendBuffer.nxt = isn + 1 ∧
      ∃ serverISN, (∃ t ∈ tr, Answers isn serverISN t) ∧ sock.recvBuffer.nxt = serverISN + 1

/-- After a valid SYN-ACK, the step handles one with a wrong acknowledgment number and other
receive pointers. -/
def Resets (isn : UInt32) (t : Step M N) : Prop :=
  match t.label with
  | .event (.getSynAck serverISN ackNum _) _ =>
      t.pre.sock.state = .synSent ∧ t.pre.sock.sendBuffer.una = t.pre.sock.sendBuffer.nxt ∧
        ackNum ≠ isn + 1 ∧ ¬(t.pre.sock.recvBuffer.nbr = serverISN + 1 ∧
          t.pre.sock.recvBuffer.nxt = serverISN + 1)
  | _ => False

instance (isn : UInt32) : DecidablePred (Resets (M := M) (N := N) isn) :=
  fun ⟨pre, label, out, post⟩ ↦ by
    unfold Resets
    rcases label with ⟨⟩ <;> try infer_instance
    rename_i event now
    rcases event with ⟨⟩ <;> infer_instance

/-- The step takes no data from the application. -/
def NoSend (t : Step M N) : Prop :=
  match t.label with
  | .vSend _ | .write _ => False
  | _ => True

instance : DecidablePred (NoSend (M := M) (N := N)) := fun ⟨pre, label, out, post⟩ ↦ by
  unfold NoSend
  rcases label with ⟨⟩ <;> infer_instance

/-- The invariant until the connecting thread wakes up: only the SYN has been sent, and once it
is acknowledged the receive pointers are those of a server that has acknowledged it. -/
structure Connects (isn : UInt32) (answers : UInt32 → Prop) (s : RunningSocket M N) : Prop where
  state : s.sock.state = .synSent ∨ s.sock.state = .closed
  nxt : s.sock.sendBuffer.nxt = isn + 1
  nbw : s.sock.sendBuffer.nbw = isn + 1
  una : s.sock.sendBuffer.una = isn ∨ s.sock.sendBuffer.una = isn + 1
  close : s.close.next = none
  nbr : s.sock.state = .synSent → s.sock.recvBuffer.nbr = s.sock.recvBuffer.nxt
  waiting : s.sock.state = .synSent → s.sock.sendBuffer.una = isn → s.sock.result.notified = false
  answered : s.sock.state = .synSent → s.sock.sendBuffer.una = isn + 1 →
    ∃ serverISN, answers serverISN ∧ s.sock.recvBuffer.nxt = serverISN + 1

namespace Connects

variable {answers : UInt32 → Prop}

/-- Once the socket has been closed nothing is left to keep but the numbers. -/
theorem of_closed (h : Connects isn answers s) (hstate : s'.sock.state = .closed)
    (hsame : s'.sock.sendBuffer.SamePointers s.sock.sendBuffer) (hclose : s'.close.next = none) :
    Connects isn answers s' := by
  have hne : s'.sock.state ≠ .synSent := by simp [hstate]
  refine ⟨.inr hstate, hsame.nxt.trans h.nxt, hsame.nbw.trans h.nbw, ?_, hclose,
    fun hsyn ↦ absurd hsyn hne, fun hsyn ↦ absurd hsyn hne, fun hsyn ↦ absurd hsyn hne⟩
  rw [hsame.una]
  exact h.una

theorem quiet {l : SocketCall} {out : SocketReturn} (h : Connects isn answers s)
    (hstep : Steps s l out s') (hquiet : IsQuiet l) : Connects isn answers s' := by
  obtain ⟨hsame, hclose, hrest⟩ := hstep.quiet hquiet (h.nxt.trans h.nbw.symm) h.close
  rcases hrest with ⟨hstate, hresult, hnxt, hnbr⟩ | hstate
  · refine ⟨by rw [hstate]; exact h.state, hsame.nxt.trans h.nxt, hsame.nbw.trans h.nbw,
      by rw [hsame.una]; exact h.una, hclose ▸ h.close, ?_, ?_, ?_⟩
    · intro hsyn
      rw [hstate] at hsyn
      rw [hnbr (h.nbr hsyn), hnxt]
      exact h.nbr hsyn
    · rw [hstate, hsame.una, hresult]
      exact h.waiting
    · rw [hstate, hsame.una, hnxt]
      exact h.answered
  · exact h.of_closed hstate hsame (hclose ▸ h.close)

theorem vClose {out : SocketReturn} (h : Connects isn answers s)
    (hstep : Steps s .vClose out s') : Connects isn answers s' := by
  cases hstep with
  | vCloseAtOnce r actions sock _ hclosed =>
      rcases h.state with hstate | hstate <;>
        simp only [NormalSocket.vCloseState, hstate, Prod.mk.injEq] at hclosed <;>
        obtain ⟨-, -, rfl⟩ := hclosed
      · exact h.of_closed rfl ⟨rfl, rfl, rfl⟩ rfl
      · exact h.of_closed hstate ⟨rfl, rfl, rfl⟩ rfl
  | vClose next actions _ hnext =>
      rcases h.state with hstate | hstate <;> simp [NormalSocket.vCloseState, hstate] at hnext

/-- A SYN-ACK that does not acknowledge the SYN is ignored. -/
theorem ignored {sock : NormalSocket M N} (h : Connects isn answers s)
    (hstate : s.sock.state = .synSent) (hsame : sock.state = s.sock.state)
    (hsend : sock.sendBuffer.SamePointers s.sock.sendBuffer)
    (hone : s.sock.sendBuffer.una ≠ isn + 1) (hrecv : sock.recvBuffer = s.sock.recvBuffer)
    (hresult : sock.result = s.sock.result) : Connects isn answers { s with sock } := by
  refine ⟨.inl (hsame.trans hstate), hsend.nxt.trans h.nxt, hsend.nbw.trans h.nbw, ?_, h.close,
    ?_, ?_, ?_⟩
  · simp only [hsend.una]
    exact h.una
  · intro _
    simp only [hrecv]
    exact h.nbr hstate
  · intro _ hpost
    simp only [hresult]
    exact h.waiting hstate (hsend.una.symm.trans hpost)
  · intro _ hpost
    exact absurd (hsend.una.symm.trans hpost) hone

/-- A SYN-ACK that sets the receive pointers to those of a server that has acknowledged the
SYN. -/
theorem accepted {sock : NormalSocket M N} {serverISN answer : UInt32} (h : Connects isn answers s)
    (hstate : sock.state = .synSent) (hnxt : sock.sendBuffer.nxt = isn + 1)
    (hnbw : sock.sendBuffer.nbw = isn + 1) (huna : sock.sendBuffer.una = isn + 1)
    (hrecv : sock.recvBuffer = s.sock.recvBuffer.setPointers (serverISN + 1))
    (hanswer : answers answer) (hsame : serverISN + 1 = answer + 1) :
    Connects isn answers { s with sock } := by
  refine ⟨.inl hstate, hnxt, hnbw, .inr huna, h.close, ?_, ?_, ?_⟩
  · intro _
    simp only [hrecv, RecvBuffer.setPointers]
  · intro _ hpost
    exact absurd (hpost.symm.trans huna) (UInt32.ne_add_one _)
  · intro _ _
    refine ⟨answer, hanswer, ?_⟩
    simp only [hrecv, RecvBuffer.setPointers]
    exact hsame

theorem synAck {serverISN ackNum : UInt32} {serverWND : UInt16} {out : SocketReturn}
    {actions : List Action} {sock : NormalSocket M N} (h : Connects isn answers s)
    (hwrap : isn.toNat + 1 < 2 ^ 32) (hstate : s.sock.state = .synSent)
    (hevent : s.sock.handleSynSentGetSynAck serverISN ackNum serverWND now = .ok (actions, sock))
    (hanswer : ackNum = isn + 1 → answers serverISN) :
    let t : Step M N :=
      ⟨s, .event (.getSynAck serverISN ackNum serverWND) now, out, { s with sock }⟩
    (KeepsPointers isn t ↔ ¬Resets isn t) ∧ (¬Resets isn t → Connects isn answers t.post) := by
  intro t
  obtain ⟨hstate', hsend, hrest, -⟩ := NormalSocket.handleSynSentGetSynAck_cases hevent
  have hnxt : sock.sendBuffer.nxt = s.sock.sendBuffer.nxt := by rw [hsend, SendBuffer.onAck_nxt]
  have hnbw : sock.sendBuffer.nbw = s.sock.sendBuffer.nbw := by rw [hsend, SendBuffer.onAck_nbw]
  have huna : sock.sendBuffer.una = if ackNum = isn + 1 then isn + 1 else s.sock.sendBuffer.una :=
    hsend ▸ SendBuffer.una_onAck_of_one hwrap h.nxt h.una ackNum serverWND.toUInt32 now
  have hresets : Resets isn t ↔ s.sock.sendBuffer.una = isn + 1 ∧ ackNum ≠ isn + 1 ∧
      ¬(s.sock.recvBuffer.nbr = serverISN + 1 ∧ s.sock.recvBuffer.nxt = serverISN + 1) := by
    simp only [Resets, t, hstate, h.nxt, true_and]
  rw [hresets]
  rcases hrest with ⟨hne, hrecv, hresult⟩ | ⟨heq, hrecv, hresult⟩
  · have hack : ackNum ≠ isn + 1 := by
      rintro rfl
      rw [if_pos rfl] at huna
      exact hne (huna.trans (hnxt.trans h.nxt).symm)
    rw [if_neg hack] at huna
    have hone : s.sock.sendBuffer.una ≠ isn + 1 := by rwa [huna, hnxt, h.nxt] at hne
    refine ⟨iff_of_true (fun _ ↦ ?_) fun hreset ↦ hone hreset.1, fun _ ↦ ?_⟩
    · simp only [t, hrecv, and_self]
    · exact h.ignored hstate hstate' ⟨huna, hnxt, hnbw⟩ hone hrecv hresult
  · have hone : sock.sendBuffer.una = isn + 1 := heq.trans (hnxt.trans h.nxt)
    have haccepted : ∀ S, answers S → serverISN + 1 = S + 1 → Connects isn answers t.post :=
      fun S hS hsame ↦ h.accepted (hstate'.trans hstate) (hnxt.trans h.nxt) (hnbw.trans h.nbw) hone
        hrecv hS hsame
    by_cases hack : ackNum = isn + 1
    · refine ⟨iff_of_true (fun hne ↦ absurd hack hne) fun hreset ↦ hreset.2.1 hack, fun _ ↦ ?_⟩
      exact haccepted serverISN (hanswer hack) rfl
    · rw [if_neg hack] at huna
      have hpre : s.sock.sendBuffer.una = isn + 1 := huna.symm.trans hone
      have hkeeps : KeepsPointers isn t ↔ s.sock.recvBuffer.nbr = serverISN + 1 ∧
          s.sock.recvBuffer.nxt = serverISN + 1 := by
        simp only [KeepsPointers, t, hrecv, RecvBuffer.setPointers]
        constructor
        · intro hkeep
          exact ⟨(hkeep hack).1.symm, (hkeep hack).2.symm⟩
        · exact fun hkeep _ ↦ ⟨hkeep.1.symm, hkeep.2.symm⟩
      rw [hkeeps]
      simp only [hpre, hack, ne_eq, not_false_eq_true, true_and, not_not]
      intro hsame
      obtain ⟨S, hS, hold⟩ := h.answered hstate hpre
      exact haccepted S hS (hsame.2.symm.trans hold)

/-- Every step without data keeps the receive pointers as it should exactly if it does not
reset them, and then keeps the invariant. -/
theorem step {t : Step M N} (hfires : Fires RunningSocket.step t) (h : Connects isn answers t.pre)
    (hwrap : isn.toNat + 1 < 2 ^ 32) (hsend : NoSend t)
    (hanswer : ∀ S, Answers isn S t → answers S) :
    (KeepsPointers isn t ↔ ¬Resets isn t) ∧ (¬Resets isn t → Connects isn answers t.post) := by
  obtain ⟨s, l, out, s'⟩ := t
  simp only [Fires] at hfires h
  have hsteps := steps_of_step hfires
  cases l with
  | vSend => exact hsend.elim
  | write => exact hsend.elim
  | vClose => exact ⟨iff_of_true trivial id, fun _ ↦ h.vClose hsteps⟩
  | event event now =>
      cases hsteps with
      | event _ _ actions sock hevent =>
          rcases h.state with hstate | hstate
          · cases event with
            | getSynAck serverISN ackNum serverWND =>
                simp only [NormalSocket.eventHandler, hstate] at hevent
                apply h.synAck hwrap hstate hevent
                rintro rfl
                exact hanswer serverISN ⟨serverWND, now, rfl⟩
            | _ =>
                simp only [NormalSocket.eventHandler, hstate, Except.ok.injEq,
                  Prod.mk.injEq] at hevent
                obtain ⟨-, rfl⟩ := hevent
                exact ⟨iff_of_true trivial id, fun _ ↦ h⟩
          · simp only [NormalSocket.eventHandler, hstate, Except.ok.injEq,
              Prod.mk.injEq] at hevent
            obtain ⟨-, rfl⟩ := hevent
            refine ⟨iff_of_true ?_ ?_, fun _ ↦ h⟩
            · cases event with
              | getSynAck => exact fun _ ↦ ⟨rfl, rfl⟩
              | _ => trivial
            · cases event with
              | getSynAck =>
                  rintro ⟨hsyn, -⟩
                  rw [hstate] at hsyn
                  cases hsyn
              | _ => exact id
  | _ => exact ⟨iff_of_true trivial id, fun _ ↦ h.quiet hsteps trivial⟩

theorem agrees {tr : List (Step M N)} (h : Connects isn (fun S ↦ ∃ t ∈ tr, Answers isn S t) s) :
    Agrees isn tr s := by
  intro sock hconnected
  obtain ⟨hnotified, -, hstate, -, -, rfl⟩ := NormalSocket.connected_eq_ok.mp hconnected
  have huna : s.sock.sendBuffer.una = isn + 1 := by
    apply h.una.resolve_left
    intro huna
    rw [h.waiting hstate huna] at hnotified
    cases hnotified
  exact ⟨huna, h.nxt, h.answered hstate huna⟩

end Connects

/-- What is known of a socket that has just sent its SYN. -/
theorem Opens.connects {packet : Packet} (h : Opens isn now .synSent packet s)
    (answers : UInt32 → Prop) : Connects isn answers s := by
  obtain ⟨-, -, sendBuf, recvBuf, rcvNxt, wnd, q, -, rfl⟩ := h.cases
  exact ⟨.inl rfl, rfl, rfl, .inl rfl, rfl, fun _ ↦ rfl, fun _ _ ↦ rfl,
    fun _ huna ↦ absurd huna (UInt32.ne_add_one _)⟩

/-- In every run without data until the connecting thread wakes up, no SYN-ACK with a wrong
acknowledgment number changes the receive pointers and both ends agree at the end, if and only
if no such SYN-ACK resets the receive pointers after a valid one. -/
theorem agrees_iff {packet : Packet} (hopens : Opens isn now .synSent packet s)
    (hwrap : isn.toNat + 1 < 2 ^ 32) {tr : List (Step M N)} (h : Trace step s tr s')
    (hsend : ∀ t ∈ tr, NoSend t) :
    ((∀ t ∈ tr, KeepsPointers isn t) ∧ Agrees isn tr s') ↔ ∀ t ∈ tr, ¬Resets isn t := by
  let answers : UInt32 → Prop := fun S ↦ ∃ t ∈ tr, Answers isn S t
  have hinit : Connects isn answers s := hopens.connects answers
  have hdom : ∀ t ∈ tr, NoSend t ∧ t ∈ tr := fun t ht ↦ ⟨hsend t ht, ht⟩
  have hiff : (∀ t ∈ tr, KeepsPointers isn t) ↔ ∀ t ∈ tr, ¬Resets isn t :=
    h.forall_iff (I := Connects isn answers)
      (fun t hfires hI hD ↦ (hI.step hfires hwrap hD.1 fun S hS ↦ ⟨t, hD.2, hS⟩).1)
      (fun t hfires hI hD ↦ (hI.step hfires hwrap hD.1 fun S hS ↦ ⟨t, hD.2, hS⟩).2) hinit hdom
  rw [hiff]
  refine ⟨fun hboth ↦ hboth.1, fun hno ↦ ⟨hno, ?_⟩⟩
  have hend : Connects isn answers s' :=
    (h.invariant (A := fun t ↦ (NoSend t ∧ t ∈ tr) ∧ ¬Resets isn t)
      (fun t hfires hI hA ↦
        (hI.step hfires hwrap hA.1.1 fun S hS ↦ ⟨t, hA.1.2, hS⟩).2 hA.2)
      hinit fun t ht ↦ ⟨hdom t ht, hno t ht⟩).1
  exact hend.agrees

/-- An old SYN-ACK with a wrong acknowledgment number, then the valid one, twice. -/
theorem agrees_iff_stale :
    ∃ (packet : Packet) (s s' : RunningSocket 8 8) (tr : List (Step 8 8)),
      Opens 6 0 .synSent packet s ∧ Trace step s tr s' ∧
        (∃ sock, s'.sock.connected = .ok (.ok (), sock)) ∧ s'.sock.recvBuffer.nxt = 41 ∧
        (((∀ t ∈ tr, KeepsPointers 6 t) ∧ Agrees 6 tr s') ↔ ∀ t ∈ tr, ¬Resets 6 t) := by
  refine ⟨_, _, _, _, .active (Vector.replicate 8 0) (Vector.replicate 8 0) _ _ rfl,
    .cons (l := SocketCall.event (.getSynAck 90 3 8) 0) rfl
    (.cons (l := .event (.getSynAck 40 7 8) 0) rfl
    (.cons (l := .event (.getSynAck 40 7 8) 0) rfl (.nil _))), ⟨_, rfl⟩, rfl, ?_⟩
  exact agrees_iff (.active (Vector.replicate 8 0) (Vector.replicate 8 0) _ _ rfl) (by decide)
    (.cons rfl (.cons rfl (.cons rfl (.nil _)))) (by decide)

/-- After the valid SYN-ACK of a server that begins at 40, an old one sets RCV.NXT to 91. -/
theorem not_agrees :
    ∃ (packet : Packet) (s s' : RunningSocket 8 8) (tr : List (Step 8 8)),
      Opens 6 0 .synSent packet s ∧ Trace step s tr s' ∧ (∀ t ∈ tr, NoSend t) ∧
        ¬((∀ t ∈ tr, KeepsPointers 6 t) ∧ Agrees 6 tr s') := by
  refine ⟨_, _, _, _, .active (Vector.replicate 8 0) (Vector.replicate 8 0) _ _ rfl,
    .cons (l := SocketCall.event (.getSynAck 40 7 8) 0) rfl
    (.cons (l := .event (.getSynAck 90 3 8) 0) rfl (.nil _)), by decide, ?_⟩
  rintro ⟨hkeeps, -⟩
  have hnxt := (hkeeps _ (List.mem_cons_of_mem _ List.mem_cons_self) (by decide)).2
  revert hnxt
  decide

end RunningSocket

end Tns.Tcp
