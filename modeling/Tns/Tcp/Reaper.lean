import Tns.Tcp.SocketTable

/-!
# A pass of the reaper

If no closed listener still has sockets in its lists, a pass of the reaper sends
nothing and changes no socket: it removes those that are closed and those whose
time in TIME_WAIT is over.
-/

namespace Tns.Tcp

/-- The socket stays in the table when the reaper comes to it. -/
def Socket.survives {M N : ℕ} (now : TimePoint) : Socket M N → Bool
  | .normal e => !reapable now e.sock.state
  | .listen l => l.state ≠ .closed

namespace TcpStack

variable {M N : ℕ} {s s' : TcpStack M N}

/-- Every closed listener has closed its sockets. -/
def Tidy (s : TcpStack M N) : Prop :=
  ∀ id l, s.socketTable.lookup id = some (.listen l) → l.state = .closed →
    l.pendingSocks = [] ∧ l.acceptQ = []

theorem lookup_purge {id : ℕ} {sock : Socket M N} (i : ℕ) :
    (s.purge id sock).socketTable.lookup i =
      if i = id then none else s.socketTable.lookup i := by
  have htable : (s.purge id sock).socketTable = s.socketTable.erase id := by
    simp [purge, freeSocketId]
  rw [htable]
  split
  · rename_i heq
    rw [heq, Finmap.lookup_erase]
  · rename_i hne
    exact Finmap.lookup_erase_ne hne

theorem reapSocket_of_tidy (h : s.Tidy) (now : TimePoint) (id : ℕ) :
    ∃ s', s.reapSocket now id = .ok ([], s') ∧ ∀ i, s'.socketTable.lookup i =
      if i = id then (s.socketTable.lookup i).filter (·.survives now)
      else s.socketTable.lookup i := by
  have hpurge : ∀ sock : Socket M N, s.socketTable.lookup id = some sock →
      sock.survives now = false → ∀ i, (s.purge id sock).socketTable.lookup i =
        if i = id then (s.socketTable.lookup i).filter (·.survives now)
        else s.socketTable.lookup i := by
    intro sock hlookup hdies i
    rw [lookup_purge]
    split
    · rename_i heq
      subst heq
      rw [hlookup]
      exact (Option.filter_some_neg hdies).symm
    · rfl
  have hkeep : (∀ sock : Socket M N, s.socketTable.lookup id = some sock →
      sock.survives now = true) → ∀ i, s.socketTable.lookup i =
        if i = id then (s.socketTable.lookup i).filter (·.survives now)
        else s.socketTable.lookup i := by
    intro hlives i
    split
    · rename_i heq
      subst heq
      cases hlookup : s.socketTable.lookup i with
      | none => rfl
      | some sock => exact (Option.filter_some_pos (hlives sock hlookup)).symm
    · rfl
  unfold reapSocket
  split
  · rename_i e hlookup
    split
    · rename_i hreapable
      exact ⟨_, rfl, hpurge _ hlookup (by simp [Socket.survives, hreapable])⟩
    · rename_i hreapable
      refine ⟨s, rfl, hkeep ?_⟩
      intro sock hsock
      obtain rfl := Option.some.inj (hlookup.symm.trans hsock)
      simpa [Socket.survives] using hreapable
  · rename_i l hlookup
    split
    · rename_i hclosed
      obtain ⟨hpending, hqueue⟩ := h id l hlookup hclosed
      rw [hpending, hqueue]
      exact ⟨_, rfl, hpurge _ hlookup (by simp [Socket.survives, hclosed])⟩
    · rename_i hclosed
      refine ⟨s, rfl, hkeep ?_⟩
      intro sock hsock
      obtain rfl := Option.some.inj (hlookup.symm.trans hsock)
      simpa [Socket.survives] using hclosed
  · rename_i hnone
    refine ⟨s, rfl, hkeep ?_⟩
    intro sock hsock
    rw [hnone] at hsock
    cases hsock

theorem Tidy.of_lookup (h : s.Tidy)
    (hsub : ∀ i sock, s'.socketTable.lookup i = some sock →
      s.socketTable.lookup i = some sock) : s'.Tidy :=
  fun id l hlookup ↦ h id l (hsub id _ hlookup)

theorem forEach_reapSocket_of_tidy (h : s.Tidy) (now : TimePoint) (ids : List ℕ) :
    ∃ s', forEach (reapSocket now) s ids = .ok ([], s') ∧ ∀ i, s'.socketTable.lookup i =
      if i ∈ ids then (s.socketTable.lookup i).filter (·.survives now)
      else s.socketTable.lookup i := by
  induction ids generalizing s with
  | nil => exact ⟨s, rfl, fun i ↦ by simp⟩
  | cons id ids ih =>
      obtain ⟨s₁, hfirst, hs₁⟩ := reapSocket_of_tidy h now id
      have htidy : s₁.Tidy := by
        apply h.of_lookup
        intro i sock hlookup
        rw [hs₁] at hlookup
        split at hlookup
        · exact (Option.filter_eq_some_iff.mp hlookup).1
        · exact hlookup
      obtain ⟨s₂, hrest, hs₂⟩ := ih htidy
      refine ⟨s₂, ?_, ?_⟩
      · simp only [forEach, hfirst, hrest, Exec.ok_bind]
        rfl
      · intro i
        rw [hs₂, hs₁]
        by_cases hi : i = id
        · simp [hi, Option.filter_filter]
        · simp [hi]

/-- A pass of the reaper leaves of a tidy table the sockets that survive it. -/
theorem reap_of_tidy (h : s.Tidy) (now : TimePoint) :
    ∃ s', s.reap now = .ok ([], s') ∧ ∀ i, s'.socketTable.lookup i =
      (s.socketTable.lookup i).filter (·.survives now) := by
  obtain ⟨s', hloop, hs'⟩ := forEach_reapSocket_of_tidy h now s.socketTable.keys.sort
  refine ⟨s', hloop, ?_⟩
  intro i
  rw [hs']
  split
  · rfl
  · rename_i hnot
    rw [Finset.mem_sort, Finmap.mem_keys] at hnot
    rw [Finmap.lookup_eq_none.mpr hnot]
    rfl

/-! ## What survives a pass -/

theorem normalSocket_filter {now : TimePoint}
    (hs' : ∀ i, s'.socketTable.lookup i = (s.socketTable.lookup i).filter (·.survives now))
    (r : SocketRef) (e : TableSocket M N) :
    s'.normalSocket r = .ok e ↔ s.normalSocket r = .ok e ∧ reapable now e.sock.state = false := by
  rw [normalSocket_eq_ok, normalSocket_eq_ok, hs', Option.filter_eq_some_iff]
  simp only [Socket.survives, Bool.not_eq_true']
  exact and_right_comm

theorem lookup_listen_filter {now : TimePoint} {id : ℕ} {l : ListenSocket}
    (hs' : ∀ i, s'.socketTable.lookup i = (s.socketTable.lookup i).filter (·.survives now)) :
    s'.socketTable.lookup id = some (.listen l) ↔
      s.socketTable.lookup id = some (.listen l) ∧ l.state ≠ .closed := by
  rw [hs', Option.filter_eq_some_iff]
  simp [Socket.survives]

end TcpStack

end Tns.Tcp
