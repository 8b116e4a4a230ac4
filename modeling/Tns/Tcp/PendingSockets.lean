import Mathlib.Data.Set.Basic
import Tns.Library.KeyedList
import Tns.Tcp.Listener

/-!
# The sockets of the pending lists

The sockets in the pending list of a listener are those in SYN_RECEIVED that it
has created.  The sockets of its accept queue are in the table.  This module has
what a change of one socket or of one listener does to these facts.
-/

namespace Tns.Tcp

open Tns.Library

namespace TcpStack

variable {M N : ℕ} {s s' : TcpStack M N} {r : SocketRef} {e : TableSocket M N} {id : ℕ}
  {l : ListenSocket}

/-- The reference is to a socket in the table. -/
def Live (s : TcpStack M N) (r : SocketRef) : Prop := ∃ e, s.normalSocket r = .ok e

/-- Every reference that a listener in the table holds is to a socket in the table. -/
def RefersToLive (s : TcpStack M N) : Prop :=
  ∀ id l, s.socketTable.lookup id = some (.listen l) →
    (∀ p ∈ l.pendingSocks, s.Live p.2) ∧ ∀ r ∈ l.acceptQ, s.Live r

/-! ## The invariant -/

/-- The sockets in SYN_RECEIVED are those in the pending list of their listener, apart from
those in `out`, which a call has taken off it. -/
structure Tracks (out : Set SocketRef) (s : TcpStack M N) : Prop where
  table : Consistent ∅ s
  pending : ∀ id l, s.socketTable.lookup id = some (.listen l) → ∀ p ∈ l.pendingSocks, p.2 ∉ out ∧
    ∃ e, s.normalSocket p.2 = .ok e ∧ e.tuple = p.1 ∧ e.sock.state = .synReceived id
  nodup : ∀ id l, s.socketTable.lookup id = some (.listen l) →
    (l.pendingSocks.map Prod.fst).Nodup
  received : ∀ r e, s.normalSocket r = .ok e → ∀ id, e.sock.state = .synReceived id →
    r ∈ out ∨ ∃ l, s.socketTable.lookup id = some (.listen l) ∧ (e.tuple, r) ∈ l.pendingSocks
  queue : ∀ id l, s.socketTable.lookup id = some (.listen l) → ∀ r ∈ l.acceptQ, s.Live r
  tidy : s.Tidy

namespace Tracks

variable {out out' : Set SocketRef}

theorem init : Tracks ∅ ({} : TcpStack M N) := by
  refine ⟨.init, ?_, ?_, ?_, ?_, ?_⟩
  · intro id l hl
    cases hl
  · intro id l hl
    cases hl
  · intro r e he
    cases he
  · intro id l hl
    cases hl
  · intro id l hl
    cases hl

theorem refersToLive (h : Tracks out s) : s.RefersToLive := by
  intro id l hl
  refine ⟨fun p hp ↦ ?_, h.queue id l hl⟩
  obtain ⟨-, e, he, -⟩ := h.pending id l hl p hp
  exact ⟨e, he⟩

theorem listenSocket (h : Tracks out s) (hl : s.socketTable.lookup id = some (.listen l)) :
    l.ref.id = id := h.table.ref id _ hl

/-- A listener with a pending socket is not closed. -/
theorem not_closed (h : Tracks out s) (hl : s.socketTable.lookup id = some (.listen l))
    {p : SessionTuple × SocketRef} (hp : p ∈ l.pendingSocks) : l.state ≠ .closed := by
  intro hclosed
  rw [(h.tidy id l hl hclosed).1] at hp
  cases hp

/-- No two sockets have the same session tuple. -/
theorem eq_of_tuple (h : Tracks out s) {r' : SocketRef} {e' : TableSocket M N}
    (he : s.normalSocket r = .ok e) (he' : s.normalSocket r' = .ok e')
    (htuple : e.tuple = e'.tuple) : r = r' := by
  have hfind : ∀ {r : SocketRef} {e : TableSocket M N}, s.normalSocket r = .ok e →
      s.find (.normal e.tuple) = some r := by
    intro r e he
    obtain ⟨hlookup, href⟩ := normalSocket_eq_ok.mp he
    exact (h.table.find _ _).mpr ⟨_, hlookup, href, rfl⟩
  have hr := hfind he
  rw [htuple, hfind he'] at hr
  exact (Option.some.inj hr).symm

theorem setNormal (h : Tracks out s) (he : s.normalSocket r = .ok e) {sock : NormalSocket M N}
    (hpending : ∀ id, e.sock.state = .synReceived id → r ∉ out →
      sock.state = .synReceived id ∧ r ∉ out')
    (hreceived : ∀ id, sock.state = .synReceived id →
      r ∈ out' ∨ e.sock.state = .synReceived id ∧ r ∉ out)
    (hothers : ∀ r', r' ≠ r → (r' ∈ out' ↔ r' ∈ out)) :
    Tracks out' (s.setSocket (.normal { e with sock })) := by
  have hlive : ∀ {r' : SocketRef}, s.Live r' →
      (s.setSocket (.normal { e with sock })).Live r' := by
    rintro r' ⟨e', he'⟩
    by_cases hr : r' = r
    · exact ⟨{ e with sock }, (normalSocket_setNormal he sock _ _).mpr (by rw [if_pos hr])⟩
    · exact ⟨e', (normalSocket_setNormal he sock _ _).mpr (by rwa [if_neg hr])⟩
  refine ⟨h.table.setNormal he sock, ?_, ?_, ?_, ?_, ?_⟩
  · intro id l hl p hp
    rw [lookup_listen_setNormal he] at hl
    obtain ⟨hout, e', he', htuple, hstate⟩ := h.pending id l hl p hp
    by_cases hr : p.2 = r
    · rw [hr, he] at he'
      obtain rfl := Except.ok.inj he'
      obtain ⟨hstate', hout'⟩ := hpending id hstate (hr ▸ hout)
      exact ⟨hr ▸ hout', { e with sock },
        (normalSocket_setNormal he sock _ _).mpr (by rw [if_pos hr]), htuple, hstate'⟩
    · exact ⟨fun hmem ↦ hout ((hothers _ hr).mp hmem), e',
        (normalSocket_setNormal he sock _ _).mpr (by rwa [if_neg hr]), htuple, hstate⟩
  · intro id l hl
    exact h.nodup id l ((lookup_listen_setNormal he sock).mp hl)
  · intro r' e' he' id hstate
    rw [normalSocket_setNormal he] at he'
    simp only [lookup_listen_setNormal he]
    by_cases hr : r' = r
    · rw [if_pos hr] at he'
      subst he' hr
      rcases hreceived id hstate with hmem | ⟨hold, hout⟩
      · exact .inl hmem
      · exact .inr ((h.received _ e he id hold).resolve_left hout)
    · rw [if_neg hr] at he'
      rw [hothers r' hr]
      exact h.received r' e' he' id hstate
  · intro id l hl r' hr'
    exact hlive (h.queue id l ((lookup_listen_setNormal he sock).mp hl) r' hr')
  · intro id l hl
    exact h.tidy id l ((lookup_listen_setNormal he sock).mp hl)

/-- A socket is changed, and stays in SYN_RECEIVED or stays out of it. -/
theorem keep (h : Tracks out s) (he : s.normalSocket r = .ok e) {sock : NormalSocket M N}
    (hstate : ∀ id, sock.state = .synReceived id ↔ e.sock.state = .synReceived id) :
    Tracks out (s.setSocket (.normal { e with sock })) := by
  apply h.setNormal he
  · exact fun id hold hout ↦ ⟨(hstate id).mpr hold, hout⟩
  · intro id hnew
    by_cases hout : r ∈ out
    · exact .inl hout
    · exact .inr ⟨(hstate id).mp hnew, hout⟩
  · exact fun _ _ ↦ Iff.rfl

/-- A socket that is not pending is put into SYN_RECEIVED. -/
theorem enter (h : Tracks out s) (he : s.normalSocket r = .ok e) {sock : NormalSocket M N}
    (hstate : ∀ id, e.sock.state ≠ .synReceived id) :
    Tracks (insert r out) (s.setSocket (.normal { e with sock })) := by
  apply h.setNormal he
  · exact fun id hold ↦ absurd hold (hstate id)
  · exact fun _ _ ↦ .inl (Set.mem_insert r out)
  · intro r' hr'
    simp [hr']

/-- What holds of all listeners after one of them has been changed. -/
theorem forall_listen_setListen {l' : ListenSocket} {P : ℕ → ListenSocket → Prop}
    (hid : l'.ref.id = id) (hnew : P id l')
    (hold : ∀ i k, i ≠ id → s.socketTable.lookup i = some (.listen k) → P i k) :
    ∀ i k, (s.setSocket (.listen l')).socketTable.lookup i = some (.listen k) → P i k := by
  intro i k hk
  rw [lookup_listen_setListen, hid] at hk
  by_cases hi : i = id
  · rw [if_pos hi] at hk
    rwa [hi, hk]
  · rw [if_neg hi] at hk
    exact hold i k hi hk

theorem setListen (h : Tracks out s) {l' : ListenSocket}
    (hl : s.socketTable.lookup id = some (.listen l)) (href : l'.ref = l.ref)
    (hport : l'.port = l.port)
    (hpending : ∀ p ∈ l'.pendingSocks, p.2 ∉ out' ∧
      ∃ e, s.normalSocket p.2 = .ok e ∧ e.tuple = p.1 ∧ e.sock.state = .synReceived id)
    (hnodup : (l'.pendingSocks.map Prod.fst).Nodup)
    (hreceived : ∀ r e, s.normalSocket r = .ok e → e.sock.state = .synReceived id →
      r ∈ out' ∨ (e.tuple, r) ∈ l'.pendingSocks)
    (hothers : ∀ r, (∀ e, s.normalSocket r = .ok e → e.sock.state ≠ .synReceived id) →
      (r ∈ out' ↔ r ∈ out))
    (hqueue : ∀ r ∈ l'.acceptQ, s.Live r)
    (htidy : l'.state = .closed → l'.pendingSocks = [] ∧ l'.acceptQ = []) :
    Tracks out' (s.setSocket (.listen l')) := by
  have hid : l'.ref.id = id := href ▸ h.listenSocket hl
  have hnormal := fun r e ↦ normalSocket_setListen (s := s) hid hl r e
  have hkey : (Socket.listen l' : Socket M N).key = (Socket.listen l : Socket M N).key :=
    congrArg SocketKey.listen hport
  -- A socket that waits for another listener is in `out'` if it is in `out`.
  have hout : ∀ r e i, i ≠ id → s.normalSocket r = .ok e → e.sock.state = .synReceived i →
      (r ∈ out' ↔ r ∈ out) := by
    intro r e i hi he hstate
    apply hothers
    intro e' he' hstate'
    obtain rfl := Except.ok.inj (he.symm.trans he')
    rw [hstate] at hstate'
    exact hi (State.synReceived.inj hstate')
  refine ⟨h.table.setSocket hl href hkey, ?_, ?_, ?_, ?_, ?_⟩
  · simp only [hnormal]
    refine forall_listen_setListen hid ?_ ?_
    · exact hpending
    · intro i k hi hk p hp
      obtain ⟨hold, e, he, htuple, hstate⟩ := h.pending i k hk p hp
      rw [← hout p.2 e i hi he hstate] at hold
      exact ⟨hold, e, he, htuple, hstate⟩
  · refine forall_listen_setListen hid ?_ ?_
    · exact hnodup
    · exact fun i k _ ↦ h.nodup i k
  · intro r e he i hstate
    rw [hnormal] at he
    simp only [lookup_listen_setListen, hid]
    by_cases hi : i = id
    · subst hi
      simp only [if_true, exists_eq_left]
      exact hreceived r e he hstate
    · simp only [hi, if_false]
      rw [hout r e i hi he hstate]
      exact h.received r e he i hstate
  · simp only [Live, hnormal]
    refine forall_listen_setListen hid ?_ ?_
    · exact hqueue
    · exact fun i k _ ↦ h.queue i k
  · refine forall_listen_setListen hid ?_ ?_
    · exact htidy
    · exact fun i k _ ↦ h.tidy i k

/-- A listener is changed, and its pending list stays. -/
theorem setQueue (h : Tracks out s) {l' : ListenSocket}
    (hl : s.socketTable.lookup id = some (.listen l)) (href : l'.ref = l.ref)
    (hport : l'.port = l.port) (hsame : l'.pendingSocks = l.pendingSocks)
    (hqueue : ∀ r ∈ l'.acceptQ, s.Live r)
    (htidy : l'.state = .closed → l'.pendingSocks = [] ∧ l'.acceptQ = []) :
    Tracks out (s.setSocket (.listen l')) := by
  apply h.setListen hl href hport
  · rw [hsame]
    exact h.pending id l hl
  · rw [hsame]
    exact h.nodup id l hl
  · intro r e he hstate
    rw [hsame]
    refine (h.received r e he id hstate).imp_right ?_
    rintro ⟨k, hk, hmem⟩
    rw [hl] at hk
    cases hk
    exact hmem
  · exact fun _ _ ↦ Iff.rfl
  · exact hqueue
  · exact htidy

theorem removePending (h : Tracks out s) (he : s.normalSocket r = .ok e)
    (hstate : e.sock.state = .synReceived id) :
    Tracks (insert r out) (s.removePending id e.tuple) := by
  unfold TcpStack.removePending
  split
  · rename_i l hl
    have hmem : ∀ p, p ∈ l.pendingSocks.eraseP (·.1 = e.tuple) ↔
        p ∈ l.pendingSocks ∧ p.1 ≠ e.tuple :=
      fun p ↦ mem_eraseP_key (h.nodup id l hl)
    apply h.setListen hl
    · rfl
    · rfl
    · intro p hp
      obtain ⟨hold, hne⟩ := (hmem p).mp hp
      obtain ⟨hout, e', he', htuple, hstate'⟩ := h.pending id l hl p hold
      refine ⟨?_, e', he', htuple, hstate'⟩
      rw [Set.mem_insert_iff, not_or]
      refine ⟨?_, hout⟩
      rintro rfl
      obtain rfl := Except.ok.inj (he.symm.trans he')
      exact hne htuple.symm
    · exact (h.nodup id l hl).sublist (List.eraseP_sublist.map _)
    · intro r' e' he' hstate'
      by_cases htuple : e'.tuple = e.tuple
      · exact .inl (.inl (h.eq_of_tuple he' he htuple))
      · rcases h.received r' e' he' id hstate' with hout | ⟨k, hk, hold⟩
        · exact .inl (.inr hout)
        · rw [hl] at hk
          cases hk
          exact .inr ((hmem _).mpr ⟨hold, htuple⟩)
    · intro r' hno
      have hne : r' ≠ r := fun heq ↦ hno e (heq ▸ he) hstate
      simp [hne]
    · exact h.queue id l hl
    · intro hclosed
      obtain ⟨hpending, hqueue⟩ := h.tidy id l hl hclosed
      exact ⟨by simp [hpending], hqueue⟩
  · rename_i hno
    refine ⟨h.table, ?_, h.nodup, ?_, h.queue, h.tidy⟩
    · intro i l hl p hp
      obtain ⟨hout, e', he', htuple, hstate'⟩ := h.pending i l hl p hp
      refine ⟨?_, e', he', htuple, hstate'⟩
      rw [Set.mem_insert_iff, not_or]
      refine ⟨?_, hout⟩
      rintro rfl
      obtain rfl := Except.ok.inj (he.symm.trans he')
      obtain rfl := State.synReceived.inj (hstate.symm.trans hstate')
      exact hno l hl
    · exact fun r' e' he' i hstate' ↦ (h.received r' e' he' i hstate').imp_left .inr

theorem pushAccept (h : Tracks out s) (hlive : s.Live r)
    (hopen : ∀ l, s.socketTable.lookup id = some (.listen l) → l.state ≠ .closed) :
    Tracks out (s.pushAccept id r) := by
  unfold TcpStack.pushAccept
  split
  · rename_i l hl
    apply h.setQueue hl
    · rfl
    · rfl
    · rfl
    · intro r' hr'
      rcases List.mem_append.mp hr' with hold | hnew
      · exact h.queue id l hl r' hold
      · rw [List.mem_singleton] at hnew
        exact hnew ▸ hlive
    · exact fun hclosed ↦ absurd hclosed (hopen l hl)
  · exact h

end Tracks

end TcpStack

end Tns.Tcp
