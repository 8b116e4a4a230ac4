import Tns.Tcp.RunningSocket

/-!
# Waiting for the acknowledgment of the FIN

In FIN_WAIT_1 an ACK is passed to the send buffer first.  If the segment has a
payload or an unexpected sequence number the handler then returns, also when the
FIN has just been acknowledged, and later acknowledgments find nothing new.
-/

namespace Tns.Tcp

open Tns.Library

/-- The states in which an active close goes on. -/
def State.ClosedActively : State → Prop
  | .finWait1 | .finWait2 | .timeWait _ | .closed => True
  | _ => False

/-- As long as something is unacknowledged, only an acknowledgment of all of it changes that. -/
theorem SendBuffer.una_eq_nxt_onAck {M : ℕ} {b : SendBuffer M} (hord : b.Ordered)
    (hne : b.una ≠ b.nxt) (ackNum wndSize : UInt32) (now : TimePoint) :
    (b.onAck ackNum wndSize now).2.2.una = (b.onAck ackNum wndSize now).2.2.nxt ↔
      ackNum = b.nxt := by
  have hlt : b.una < b.nxt := lt_of_le_of_ne (UInt32.le_iff_toNat_le.mpr hord.una_le_nxt) hne
  rw [SendBuffer.onAck_una, SendBuffer.onAck_nxt]
  split
  · rfl
  · rename_i hnot
    apply iff_of_false hne
    rintro rfl
    exact hnot ⟨hlt, le_rfl⟩

namespace NormalSocket

variable {M N : ℕ} {s s' : NormalSocket M N} {now : TimePoint} {event : Event}

theorem Handles.ordered (h : Handles s now event s') (hord : s.sendBuffer.Ordered) :
    s'.sendBuffer.Ordered := by
  have hacked : ∀ a w, (s.acked a w now).sendBuffer.Ordered := fun a w ↦ hord.onAck a w now
  cases h with
  | ignored => exact hord
  | acked => exact hacked _ _
  | synAcked => exact hacked _ _
  | opened => exact hacked _ _
  | received => exact hacked _ _
  | finReceived => exact hacked _ _
  | closeWait => exact hacked _ _
  | timeWait => exact hacked _ _
  | finAcked => exact hacked _ _
  | closed _ ackNum wndSize =>
      have hord := hacked ackNum wndSize
      exact ⟨hord.una_le_nxt, hord.nxt_le_nbw⟩

theorem Handles.closedActively (h : Handles s now event s') (hstate : s.state.ClosedActively) :
    s'.state.ClosedActively ∧ (s.state ≠ .finWait1 → s'.state ≠ .finWait1) := by
  cases h with
  | opened _ _ _ _ _ hsyn => rw [hsyn] at hstate; exact hstate.elim
  | closeWait _ _ _ _ hest => rw [hest] at hstate; exact hstate.elim
  | timeWait => exact ⟨trivial, fun _ ↦ by simp⟩
  | finAcked => exact ⟨trivial, fun _ ↦ by simp⟩
  | closed => exact ⟨trivial, fun _ ↦ by simp⟩
  | _ => exact ⟨hstate, id⟩

/-- The event acknowledges everything sent, in a segment that FIN_WAIT_1 does not accept as an
acknowledgment of the FIN. -/
def MissesAck (s : NormalSocket M N) : Event → Prop
  | .getAck seqNum ackNum _ payload =>
      s.state = .finWait1 ∧ ackNum = s.sendBuffer.nxt ∧
        (payload ≠ [] ∨ seqNum ≠ s.recvBuffer.nxt)
  | _ => False

instance (s : NormalSocket M N) : DecidablePred s.MissesAck
  | .getAck _ _ _ _ => inferInstanceAs (Decidable (_ ∧ _ ∧ _))
  | .getSyn _ _ | .getSynAck _ _ _ | .getFin _ _ | .getFinAck _ _ _ => .isFalse id

/-- In FIN_WAIT_1 the FIN has not been acknowledged. -/
def FinUnacked (s : NormalSocket M N) : Prop :=
  s.state = .finWait1 → s.sendBuffer.una ≠ s.sendBuffer.nxt

theorem handleFinWait1GetAck_cases {seqNum ackNum : UInt32} {wndSize : UInt16}
    {payload : List Byte} {actions : List Action} (hstate : s.state = .finWait1)
    (h : s.handleFinWait1GetAck seqNum ackNum wndSize payload now = .ok (actions, s')) :
    s'.sendBuffer = (s.sendBuffer.onAck ackNum wndSize.toUInt32 now).2.2 ∧
      (s'.state = .finWait1 ↔ payload ≠ [] ∨ seqNum ≠ s.recvBuffer.nxt ∨
        s'.sendBuffer.una ≠ s'.sendBuffer.nxt) := by
  simp only [handleFinWait1GetAck, SendBuffer.onAck_result] at h
  split at h
  · rename_i hdata
    simp only [Exec.bind_eq_ok, Exec.pure_eq_ok, Prod.mk.injEq] at h
    obtain ⟨⟨r, recvBuffer⟩, -, -, rfl⟩ := h
    exact ⟨rfl, iff_of_true hstate (.inl hdata)⟩
  · rename_i hnil
    split at h <;> rename_i hseq <;> simp only [Exec.pure_eq_ok, Prod.mk.injEq] at h <;>
      obtain ⟨-, rfl⟩ := h
    · exact ⟨rfl, iff_of_true hstate (.inr hseq)⟩
    · refine ⟨rfl, iff_of_false (by simp) ?_⟩
      rintro (hdata | hother)
      · exact hnil hdata
      · exact hseq hother

/-- While the FIN is not acknowledged, an event keeps it so in FIN_WAIT_1 exactly if it is not
an acknowledgment of the FIN that the handler misses. -/
theorem finUnacked_eventHandler {actions : List Action} (hord : s.sendBuffer.Ordered)
    (hclosed : s.state.ClosedActively) (hunacked : FinUnacked s)
    (h : s.eventHandler event now = .ok (actions, s')) : FinUnacked s' ↔ ¬MissesAck s event := by
  by_cases hstate : s.state = .finWait1
  · cases event with
    | getAck seqNum ackNum wndSize payload =>
        simp only [eventHandler, hstate] at h
        obtain ⟨hsend, hstays⟩ := handleFinWait1GetAck_cases hstate h
        have hacks := SendBuffer.una_eq_nxt_onAck hord (hunacked hstate) ackNum
          wndSize.toUInt32 now
        rw [← hsend] at hacks
        simp only [FinUnacked, hstays, MissesAck, ne_eq, hacks]
        constructor
        · rintro himp ⟨-, hack, hmissed⟩
          exact himp (hmissed.elim .inl fun hseq ↦ .inr (.inl hseq)) hack
        · rintro hnot (hdata | hseq | hack) hack'
          · exact hnot ⟨hstate, hack', .inl hdata⟩
          · exact hnot ⟨hstate, hack', .inr hseq⟩
          · exact hack hack'
    | _ =>
        simp only [eventHandler, hstate, Except.ok.injEq, Prod.mk.injEq] at h
        obtain ⟨-, rfl⟩ := h
        exact iff_of_true hunacked id
  · have hkeep := (handles_of_eventHandler h).closedActively hclosed
    refine iff_of_true (fun hstate' ↦ absurd hstate' (hkeep.2 hstate)) ?_
    cases event with
    | getAck => exact fun hmisses ↦ hstate hmisses.1
    | _ => exact id

end NormalSocket

namespace RunningSocket

variable {M N : ℕ} {s s' : RunningSocket M N}

/-- The socket has been closed actively, and all accepted bytes had been sent. -/
structure FinSent (s : RunningSocket M N) : Prop where
  ordered : s.sock.sendBuffer.Ordered
  sent : s.sock.sendBuffer.nxt = s.sock.sendBuffer.nbw
  close : s.close.next = none
  idle : s.close ≠ .idle
  state : s.sock.state.ClosedActively

namespace FinSent

theorem vSend_eq (h : FinSent s) (data : List Byte) : s.step (.vSend data) = .ok ({}, s) := by
  have hrefuses : ∃ e, NormalSocket.vSendState s.sock.state = .error e := by
    have hstate := h.state
    unfold State.ClosedActively at hstate
    split at hstate <;> rename_i heq
    · exact ⟨.closing, by rw [heq]; rfl⟩
    · exact ⟨.closing, by rw [heq]; rfl⟩
    · exact ⟨.closing, by rw [heq]; rfl⟩
    · exact ⟨.connNotExist, by rw [heq]; rfl⟩
    · exact hstate.elim
  obtain ⟨e, he⟩ := hrefuses
  simp only [RunningSocket.step, NormalSocket.vSend, he, Exec.ok_bind, acceptedOf, List.append_nil]
  rfl

/-- Every section but a late pass of `write` keeps the socket so.  Only events can acknowledge
the FIN. -/
theorem step {t : Step M N} (hfires : Fires RunningSocket.step t) (h : FinSent t.pre)
    (hunacked : t.pre.sock.FinUnacked) (hwrite : ∀ data, t.label ≠ .write data) :
    FinSent t.post ∧ ((∀ event now, t.label ≠ .event event now) → t.post.sock.FinUnacked) := by
  obtain ⟨s, l, out, s'⟩ := t
  simp only [Fires] at hfires h hunacked hwrite ⊢
  have hsteps := steps_of_step hfires
  by_cases hquiet : IsQuiet l
  · obtain ⟨hsame, hclose, hstate⟩ := hsteps.quiet hquiet h.sent h.close
    have hsent : s'.sock.sendBuffer.nxt = s'.sock.sendBuffer.nbw := by
      rw [hsame.nxt, hsame.nbw, h.sent]
    have hord := h.ordered.of_samePointers hsame
    rcases hstate with ⟨hstate, -⟩ | hstate
    · refine ⟨⟨hord, hsent, hclose ▸ h.close, hclose ▸ h.idle, hstate ▸ h.state⟩, fun _ ↦ ?_⟩
      rw [NormalSocket.FinUnacked, hstate, hsame.una, hsame.nxt]
      exact hunacked
    · refine ⟨⟨hord, hsent, hclose ▸ h.close, hclose ▸ h.idle, by rw [hstate]; trivial⟩,
        fun _ hfin ↦ ?_⟩
      rw [hstate] at hfin
      cases hfin
  · cases l with
    | vSend data =>
        rw [h.vSend_eq data] at hfires
        obtain ⟨-, rfl⟩ := Prod.mk.inj (Except.ok.inj hfires)
        exact ⟨h, fun _ ↦ hunacked⟩
    | write data => exact absurd rfl (hwrite data)
    | vClose =>
        cases hsteps with
        | vCloseAtOnce _ _ _ hidle => exact absurd hidle h.idle
        | vClose _ _ hidle => exact absurd hidle h.idle
    | event event now =>
        cases hsteps with
        | event _ _ actions sock hevent =>
            have hhandles := NormalSocket.handles_of_eventHandler hevent
            obtain ⟨hnxt, hnbw⟩ := hhandles.nxt_nbw
            refine ⟨⟨hhandles.ordered h.ordered, ?_, h.close, h.idle,
              (hhandles.closedActively h.state).1⟩, fun hother ↦ absurd rfl (hother event now)⟩
            rw [hnxt, hnbw]
            exact h.sent
    | _ => exact absurd trivial hquiet

end FinSent

/-- The step handles an acknowledgment of the FIN that FIN_WAIT_1 misses. -/
def MissesAck (t : Step M N) : Prop :=
  match t.label with
  | .event event _ => t.pre.sock.MissesAck event
  | _ => False

instance : DecidablePred (MissesAck (M := M) (N := N)) :=
  fun ⟨pre, label, out, post⟩ ↦ by
    unfold MissesAck
    rcases label with ⟨⟩ <;> infer_instance

/-- The sections of an active close, with no data unsent and no number past the end. -/
structure ClosesActively (now : TimePoint) (s s' : RunningSocket M N) : Prop where
  idle : s.close = .idle
  ordered : s.sock.sendBuffer.Ordered
  sent : s.sock.sendBuffer.nxt = s.sock.sendBuffer.nbw
  noWrap : s.sock.sendBuffer.nxt.toNat + 1 < 2 ^ 32
  run : ∃ tr, record step s [.vClose, .getNxt, .writeAndSendOne, .sendFin now] = .ok (tr, s')
  active : s'.sock.state = .finWait1

theorem ClosesActively.finSent {now : TimePoint} (h : ClosesActively now s s') :
    FinSent s' ∧ s'.sock.FinUnacked := by
  obtain ⟨tr, hrun⟩ := h.run
  obtain ⟨_, s₁, _, hclose, hrun, -⟩ := of_record_cons hrun
  obtain ⟨_, s₂, _, hget, hrun, -⟩ := of_record_cons hrun
  obtain ⟨_, s₃, _, hwrite, hrun, -⟩ := of_record_cons hrun
  obtain ⟨_, s₄, _, hfin, hrun, -⟩ := of_record_cons hrun
  obtain rfl : s₄ = s' := (Prod.mk.inj (Except.ok.inj hrun)).2
  have hactive := h.active
  have hnxt : (s.sock.sendBuffer.nxt + 1).toNat = s.sock.sendBuffer.nxt.toNat + 1 :=
    UInt32.toNat_add_of_lt h.noWrap
  have hsent : s.sock.sendBuffer.nxt + 1 = s.sock.sendBuffer.nbw + 1 := by rw [h.sent]
  have hle := h.ordered.una_le_nxt
  cases steps_of_step hclose with
  | vCloseAtOnce r actions sock hidle hstate => cases steps_of_step hget with
    | getNxt next hnone => cases hnone
  | vClose next actions hidle hstate =>
      cases steps_of_step hget with
      | getNxt _ hnext =>
          cases steps_of_step hwrite with
          | writeAndSendOne _ _ _ hnumbered =>
              cases steps_of_step hfin with
              | sendFin _ last _ _ packet q htaken hpacket henq =>
                  refine ⟨⟨⟨?_, ?_⟩, ?_, rfl, nofun, by rw [hactive]; trivial⟩, fun _ heq ↦ ?_⟩
                  · exact hle.trans (hnxt ▸ Nat.le_succ _)
                  · exact (congrArg UInt32.toNat hsent).le
                  · exact hsent
                  · have heq' : s.sock.sendBuffer.una = s.sock.sendBuffer.nxt + 1 := heq
                    rw [heq', hnxt] at hle
                    omega

theorem finUnacked_step {t : Step M N} (hfires : Fires step t)
    (hinv : FinSent t.pre ∧ t.pre.sock.FinUnacked) (hwrite : ∀ data, t.label ≠ .write data) :
    FinSent t.post ∧ (t.post.sock.FinUnacked ↔ ¬MissesAck t) := by
  obtain ⟨hsent, hother⟩ := hinv.1.step hfires hinv.2 hwrite
  refine ⟨hsent, ?_⟩
  by_cases hevent : ∃ event now, t.label = .event event now
  · obtain ⟨event, now, hlabel⟩ := hevent
    obtain ⟨s, l, out, s'⟩ := t
    obtain rfl : l = .event event now := hlabel
    have hsteps := steps_of_step hfires
    simp only at hsteps hinv ⊢
    cases hsteps with
    | event _ _ actions sock hhandle =>
        exact NormalSocket.finUnacked_eventHandler hinv.1.ordered hinv.1.state hinv.2 hhandle
  · have hnot : ∀ event now, t.label ≠ .event event now :=
      fun event now hlabel ↦ hevent ⟨event, now, hlabel⟩
    apply iff_of_true (hother hnot)
    intro hmisses
    unfold MissesAck at hmisses
    split at hmisses
    · exact hnot _ _ ‹_›
    · exact hmisses

/-- After every active close with nothing unsent, in every run the FIN is unacknowledged
whenever the state is FIN_WAIT_1, if and only if no acknowledgment of it is missed. -/
theorem finUnacked_iff {now : TimePoint} {s₁ : RunningSocket M N}
    (hclose : ClosesActively now s s₁) {tr : List (Step M N)} (h : Trace step s₁ tr s')
    (hwrite : ∀ t ∈ tr, ∀ data, t.label ≠ .write data) :
    (∀ t ∈ tr, t.post.sock.FinUnacked) ↔ ∀ t ∈ tr, ¬MissesAck t := by
  refine Trace.forall_iff (I := fun s ↦ FinSent s ∧ s.sock.FinUnacked) ?_ ?_ h hclose.finSent hwrite
  · exact fun t ht hI hd ↦ (finUnacked_step ht hI hd).2
  · intro t ht hI hd hok
    obtain ⟨hsent, hiff⟩ := finUnacked_step ht hI hd
    exact ⟨hsent, hiff.mpr hok⟩

/-- Data of the peer arrives before the acknowledgment of the FIN. -/
theorem finUnacked_iff_data :
    ∃ (s s₁ s' : RunningSocket 8 8) (tr : List (Step 8 8)),
      ClosesActively 0 s s₁ ∧ Trace step s₁ tr s' ∧ s'.sock.state = .finWait2 ∧
        ((∀ t ∈ tr, t.post.sock.FinUnacked) ↔ ∀ t ∈ tr, ¬MissesAck t) := by
  have hclose : ClosesActively 0 ({ sock := { NormalSocket.init (Vector.replicate 8 0)
      (Vector.replicate 8 0) 1 8 1 with state := .established } } : RunningSocket 8 8) _ :=
    ⟨rfl, ⟨le_rfl, le_rfl⟩, rfl, by decide, ⟨_, rfl⟩, rfl⟩
  refine ⟨_, _, _, _, hclose, .cons (l := .event (.getAck 1 1 8 [7, 7]) 0) rfl
    (.cons (l := .event (.getAck 3 2 8 []) 0) rfl (.nil _)), rfl, ?_⟩
  exact finUnacked_iff hclose (.cons rfl (.cons rfl (.nil _))) (by simp)

/-- The acknowledgment of the FIN comes with data: the socket stays in FIN_WAIT_1. -/
theorem not_finUnacked :
    ∃ (s s₁ s' : RunningSocket 8 8) (tr : List (Step 8 8)),
      ClosesActively 0 s s₁ ∧ Trace step s₁ tr s' ∧ s'.sock.state = .finWait1 ∧
        ¬∀ t ∈ tr, t.post.sock.FinUnacked := by
  have hclose : ClosesActively 0 ({ sock := { NormalSocket.init (Vector.replicate 8 0)
      (Vector.replicate 8 0) 1 8 1 with state := .established } } : RunningSocket 8 8) _ :=
    ⟨rfl, ⟨le_rfl, le_rfl⟩, rfl, by decide, ⟨_, rfl⟩, rfl⟩
  refine ⟨_, _, _, _, hclose, .cons (l := .event (.getAck 1 2 8 [7, 7]) 0) rfl (.nil _), rfl, ?_⟩
  intro hall
  exact hall _ List.mem_cons_self rfl rfl

end RunningSocket

end Tns.Tcp
