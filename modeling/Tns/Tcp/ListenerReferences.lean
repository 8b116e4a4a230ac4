import Tns.Tcp.ListenerCalls

/-!
# The references that listeners hold

A listener refers to sockets in its pending list and in its accept queue.  Those
of the pending list are in SYN_RECEIVED, and the reaper passes over them.  Those
of the accept queue can be in any state, and the reaper does not look there.
-/

namespace Tns.Tcp

open Tns.Library

namespace TcpStack

variable {M N : ℕ} {s s' : TcpStack M N} {r : SocketRef} {e : TableSocket M N} {id : ℕ}
  {l : ListenSocket}

/-! ## The reaper -/

/-- The pass of the reaper destroys a socket that is in an accept queue. -/
def ReapsQueued (s : TcpStack M N) (now : TimePoint) : Prop :=
  ∃ id l r e, s.socketTable.lookup id = some (.listen l) ∧ r ∈ l.acceptQ ∧
    s.normalSocket r = .ok e ∧ reapable now e.sock.state = true

theorem Tracks.reap (h : Tracks ∅ s) {now : TimePoint} {actions : List Action}
    (hreap : s.reap now = .ok (actions, s')) (hno : ¬s.ReapsQueued now) : Tracks ∅ s' := by
  obtain ⟨s₁, hreap', hs'⟩ := reap_of_tidy h.tidy now
  obtain ⟨-, rfl⟩ := Prod.mk.inj (Except.ok.inj (hreap'.symm.trans hreap))
  refine ⟨h.table.reap hreap, ?_, ?_, ?_, ?_, ?_⟩
  · intro id l hl p hp
    obtain ⟨hout, e, he, htuple, hstate⟩ :=
      h.pending id l ((lookup_listen_filter hs').mp hl).1 p hp
    refine ⟨hout, e, (normalSocket_filter hs' _ _).mpr ⟨he, ?_⟩, htuple, hstate⟩
    rw [hstate]
    rfl
  · intro id l hl
    exact h.nodup id l ((lookup_listen_filter hs').mp hl).1
  · intro r e he id hstate
    right
    obtain ⟨l, hl, hpending⟩ := (h.received r e ((normalSocket_filter hs' _ _).mp he).1 id
      hstate).resolve_left (Set.notMem_empty _)
    exact ⟨l, (lookup_listen_filter hs').mpr ⟨hl, h.not_closed hl hpending⟩, hpending⟩
  · intro id l hl r hr
    have hold := ((lookup_listen_filter hs').mp hl).1
    obtain ⟨e, he⟩ := h.queue id l hold r hr
    refine ⟨e, (normalSocket_filter hs' _ _).mpr ⟨he, ?_⟩⟩
    by_contra hreapable
    exact hno ⟨id, l, r, e, hold, hr, he, by simpa using hreapable⟩
  · intro id l hl
    exact h.tidy id l ((lookup_listen_filter hs').mp hl).1

/-- A socket that is destroyed in an accept queue leaves a dangling reference behind. -/
theorem Tracks.dangling (h : Tracks ∅ s) {now : TimePoint} {actions : List Action}
    (hreap : s.reap now = .ok (actions, s')) (hdies : s.ReapsQueued now) :
    ¬s'.RefersToLive := by
  obtain ⟨s₁, hreap', hs'⟩ := reap_of_tidy h.tidy now
  obtain ⟨-, rfl⟩ := Prod.mk.inj (Except.ok.inj (hreap'.symm.trans hreap))
  obtain ⟨id, l, r, e, hl, hr, he, hreapable⟩ := hdies
  have hopen : l.state ≠ .closed := by
    intro hclosed
    rw [(h.tidy id l hl hclosed).2] at hr
    cases hr
  intro hlive
  obtain ⟨e', he'⟩ := (hlive id l ((lookup_listen_filter hs').mpr ⟨hl, hopen⟩)).2 r hr
  obtain ⟨hold, hsurvives⟩ := (normalSocket_filter hs' _ _).mp he'
  obtain rfl := Except.ok.inj (he.symm.trans hold)
  rw [hreapable] at hsurvives
  cases hsurvives

/-! ## Runs -/

/-- After the call every listener refers to sockets in the table only, and so does the
reference that `vAccept` returns. -/
def Sound (t : Call M N) : Prop :=
  t.post.RefersToLive ∧ ∀ r, t.out.accepted = some (.ok r) → t.post.Live r

/-- The call is a pass of the reaper that destroys a socket in an accept queue. -/
def DestroysQueued (t : Call M N) : Prop :=
  match t.label with
  | .reap now => t.pre.ReapsQueued now
  | _ => False

theorem Tracks.call {t : Call M N} (hfires : Fires TcpStack.call t) (h : Tracks ∅ t.pre)
    (hno : ¬DestroysQueued t) :
    Tracks ∅ t.post ∧ ∀ r, t.out.accepted = some (.ok r) → t.post.Live r := by
  obtain ⟨s, c, out, s'⟩ := t
  simp only [Fires] at hfires h ⊢
  cases c with
  | createListenSocket port =>
      simp only [TcpStack.call, Exec.bind_eq_ok, Exec.pure_eq_ok, Prod.exists,
        Prod.mk.injEq] at hfires
      obtain ⟨_, _, hcreate, rfl, rfl⟩ := hfires
      exact ⟨h.createListenSocket hcreate, by simp⟩
  | createActiveConnection tuple sendBuf recvBuf isn now =>
      simp only [TcpStack.call, Exec.bind_eq_ok, Exec.pure_eq_ok, Prod.exists,
        Prod.mk.injEq] at hfires
      obtain ⟨_, _, _, hcreate, rfl, rfl⟩ := hfires
      exact ⟨h.createActiveConnection hcreate, by simp⟩
  | getSyn listener session clientISN clientWND sendBuf recvBuf isn now =>
      simp only [TcpStack.call, Exec.bind_eq_ok, Exec.pure_eq_ok, Prod.exists,
        Prod.mk.injEq] at hfires
      obtain ⟨_, _, _, hsyn, rfl, rfl⟩ := hfires
      exact ⟨h.handleListenGetSyn hsyn, by simp⟩
  | callSocket r c =>
      simp only [TcpStack.call, Exec.bind_eq_ok, Exec.pure_eq_ok, Prod.exists,
        Prod.mk.injEq] at hfires
      obtain ⟨_, _, _, hcall, rfl, rfl⟩ := hfires
      exact ⟨h.callSocket hcall, by simp⟩
  | vClose id now =>
      simp only [TcpStack.call, Exec.bind_eq_ok, Exec.pure_eq_ok, Prod.exists,
        Prod.mk.injEq] at hfires
      obtain ⟨_, _, _, hvisit, rfl, rfl⟩ := hfires
      exact ⟨h.visitSocket hvisit, by simp⟩
  | vAbort id now =>
      simp only [TcpStack.call, Exec.bind_eq_ok, Exec.pure_eq_ok, Prod.exists,
        Prod.mk.injEq] at hfires
      obtain ⟨_, _, _, hvisit, rfl, rfl⟩ := hfires
      exact ⟨h.visitSocket hvisit, by simp⟩
  | vAccept listener =>
      simp only [TcpStack.call, Exec.bind_eq_ok, Exec.pure_eq_ok, Prod.exists,
        Prod.mk.injEq] at hfires
      obtain ⟨_, _, haccept, rfl, rfl⟩ := hfires
      obtain ⟨hnew, hlive⟩ := h.vAccept haccept
      exact ⟨hnew, fun r hr ↦ hlive r (Option.some.inj hr)⟩
  | reap now =>
      simp only [TcpStack.call, Exec.bind_eq_ok, Exec.pure_eq_ok, Prod.exists,
        Prod.mk.injEq] at hfires
      obtain ⟨_, _, hreap, rfl, rfl⟩ := hfires
      exact ⟨h.reap hreap hno, by simp⟩

/-- A call is sound exactly if it does not destroy a socket in an accept queue. -/
theorem Tracks.sound_iff {t : Call M N} (hfires : Fires TcpStack.call t) (h : Tracks ∅ t.pre) :
    Sound t ↔ ¬DestroysQueued t := by
  constructor
  · intro hsound hdestroys
    obtain ⟨s, c, out, s'⟩ := t
    cases c with
    | reap now =>
        simp only [Fires, TcpStack.call, Exec.bind_eq_ok, Exec.pure_eq_ok, Prod.exists,
          Prod.mk.injEq] at hfires
        obtain ⟨_, _, hreap, -, rfl⟩ := hfires
        exact h.dangling hreap hdestroys hsound.1
    | _ => exact hdestroys
  · intro hno
    obtain ⟨hnew, hlive⟩ := h.call hfires hno
    exact ⟨hnew.refersToLive, hlive⟩

/-- In every run, all listeners refer to sockets in the table only, and `vAccept` returns no
others, exactly if no pass of the reaper destroys a socket that is in an accept queue. -/
theorem sound_iff_of_run {tr : List (Call M N)} (h : Trace call {} tr s) :
    (∀ t ∈ tr, Sound t) ↔ ∀ t ∈ tr, ¬DestroysQueued t :=
  h.forall_iff (D := fun _ ↦ True) (fun _ hfires hI _ ↦ hI.sound_iff hfires)
    (fun _ hfires hI _ hA ↦ (hI.call hfires hA).1) Tracks.init fun _ _ ↦ trivial

theorem vAccept_eq_ok {listener : SocketRef} {queue : List SocketRef}
    (hlisten : s.listenSocket listener = .ok l) (hopen : l.state = .listen)
    (hqueue : l.acceptQ = r :: queue) :
    s.vAccept listener = .ok (.ok r, s.setSocket (.listen { l with acceptQ := queue })) := by
  simp only [vAccept, hlisten, Exec.ok_bind, Exec.waitUntil, hqueue, hopen, ne_eq, reduceCtorEq,
    not_false_eq_true, or_false, if_true, if_false]
  rfl

/-- A connection whose handshake is complete waits in the accept queue. -/
theorem exists_queued : ∃ (s : TcpStack 8 8) (tr : List (Call 8 8)) (l : ListenSocket)
    (e : TableSocket 8 8), Trace call {} tr s ∧ (∀ t ∈ tr, ¬DestroysQueued t) ∧
      s.socketTable.keys = {1, 2} ∧ s.listenSocket ⟨1, 0⟩ = .ok l ∧ l.state = .listen ∧
      l.acceptQ = [⟨2, 1⟩] ∧ s.normalSocket ⟨2, 1⟩ = .ok e ∧ e.sock.state = .established := by
  have hone : getNextSocketId ({} : TcpStack 8 8) = _ := getNextSocketId_of_isLeast isLeast_init
  have hrun : Trace call ({} : TcpStack 8 8) _ _ :=
    .cons (l := .createListenSocket 80) (by
      simp only [call, createListenSocket, createSocket, hone]
      rfl) (.cons (l := .getSyn ⟨1, 0⟩ ⟨⟨1, 2⟩, ⟨3, 4⟩⟩ 10 100 (Vector.replicate 8 0)
        (Vector.replicate 8 0) 6 0) (by
      simp only [call, handleListenGetSyn, createPassiveConnection, createNormalSocket,
        createSocket]
      rw [getNextSocketId_of_isLeast (isLeast_two (M := 8) (N := 8))]
      rfl) (.cons (l := .callSocket ⟨2, 1⟩ (.event (.getAck 11 7 100 []) 0)) rfl (.nil _)))
  refine ⟨_, _, _, _, hrun, ?_, by decide, rfl, rfl, rfl, rfl, rfl⟩
  simp [DestroysQueued]

/-- The invariant along a run, for the states of the examples. -/
theorem tracks_of_run {tr : List (Call M N)} (h : Trace call {} tr s)
    (hno : ∀ t ∈ tr, ¬DestroysQueued t) : Tracks ∅ s :=
  (h.invariant (fun _ hfires hI hA ↦ (hI.call hfires hA).1) Tracks.init hno).1

/-- The reaper passes over the socket in the accept queue, and `vAccept` returns it. -/
theorem sound_iff_of_run_accepted : ∃ (s : TcpStack 8 8) (tr : List (Call 8 8)),
    Trace call {} tr s ∧ (∃ t ∈ tr, t.out.accepted = some (.ok ⟨2, 1⟩)) ∧
      (∃ t ∈ tr, t.label = .reap 0) ∧ ∀ t ∈ tr, Sound t := by
  obtain ⟨s, tr, l, e, hrun, hno, hkeys, hlisten, hopen, hqueue, he, hstate⟩ := exists_queued
  obtain ⟨hl, href⟩ := listenSocket_eq_ok.mp hlisten
  have hkeeps : ¬s.ReapsQueued 0 := by
    rintro ⟨id, l', r, e', -, -, he', hreapable⟩
    obtain ⟨hlookup, rfl⟩ := normalSocket_eq_ok.mp he'
    have hmem := Finmap.mem_keys.mpr (Finmap.mem_of_lookup_eq_some hlookup)
    simp only [hkeys, Finset.mem_insert, Finset.mem_singleton] at hmem
    rcases hmem with hid | hid
    · rw [hid, hl] at hlookup
      cases hlookup
    · rw [hid, (normalSocket_eq_ok.mp he).1] at hlookup
      cases hlookup
      simp [hstate, reapable] at hreapable
  obtain ⟨s₁, hreap, hs₁⟩ := reap_of_tidy (tracks_of_run hrun hno).tidy 0
  have hlisten₁ : s₁.listenSocket ⟨1, 0⟩ = .ok l :=
    listenSocket_eq_ok.mpr ⟨(lookup_listen_filter hs₁).mpr ⟨hl, by simp [hopen]⟩, href⟩
  have haccept : s₁.call (.vAccept ⟨1, 0⟩) = .ok ({ accepted := some (.ok ⟨2, 1⟩) },
      s₁.setSocket (.listen { l with acceptQ := [] })) := by
    simp only [call, vAccept_eq_ok hlisten₁ hopen hqueue, Exec.ok_bind]
    rfl
  have hrun' := hrun.append (.cons (l := .reap 0) (by simp only [call, hreap]; rfl)
    (.cons haccept (.nil _)))
  refine ⟨_, _, hrun', ?_, ?_, (sound_iff_of_run hrun').mpr ?_⟩
  · exact ⟨_, List.mem_append_right _ (List.mem_cons_of_mem _ (List.mem_singleton_self _)), rfl⟩
  · exact ⟨_, List.mem_append_right _ List.mem_cons_self, rfl⟩
  · simp only [List.mem_append, List.mem_cons, List.not_mem_nil, or_false]
    rintro t (ht | rfl | rfl)
    · exact hno t ht
    · exact hkeeps
    · exact id

/-- A queued socket is aborted and reaped, and `vAccept` returns the reference to it. -/
theorem not_sound : ∃ (s s' : TcpStack 8 8) (tr : List (Call 8 8)) (listener r : SocketRef),
    Trace call {} tr s ∧ ¬s.RefersToLive ∧ s.vAccept listener = .ok (.ok r, s') ∧
      ¬s'.Live r := by
  obtain ⟨s, tr, l, e, hrun, hno, -, hlisten, hopen, hqueue, he, hstate⟩ := exists_queued
  obtain ⟨hl, href⟩ := listenSocket_eq_ok.mp hlisten
  obtain ⟨hlookup, href'⟩ := normalSocket_eq_ok.mp he
  have habort : s.call (.vAbort 2 0) = .ok ({ closed := some (.ok ()) },
      s.setSocket (.normal { e with sock := e.sock.shutdown.setState .closed })) := by
    simp only [call, visitSocket, show s.socketTable.lookup 2 = _ from hlookup, callSocket, href',
      he, Exec.ok_bind, NormalSocket.call, NormalSocket.vAbort, hstate]
    rfl
  have hrun' := hrun.append (.cons habort (.nil _))
  have htracks := tracks_of_run hrun' (by
    simp only [List.mem_append, List.mem_singleton]
    rintro t (ht | rfl)
    · exact hno t ht
    · exact id)
  obtain ⟨s₁, hreap, hs₁⟩ := reap_of_tidy htracks.tidy 0
  have hl₁ := (lookup_listen_setNormal he (e.sock.shutdown.setState .closed)).mpr hl
  have hdead := normalSocket_setSocket he (e.sock.shutdown.setState .closed)
  have hdangling := htracks.dangling hreap ⟨1, l, ⟨2, 1⟩, _, hl₁, by simp [hqueue], hdead, rfl⟩
  have hl₂ := (lookup_listen_filter hs₁).mpr ⟨hl₁, by simp [hopen]⟩
  have hgone : ¬s₁.Live ⟨2, 1⟩ := by
    rintro ⟨e', he'⟩
    obtain ⟨hold, hsurvives⟩ := (normalSocket_filter hs₁ _ _).mp he'
    obtain rfl := Except.ok.inj (hdead.symm.trans hold)
    cases hsurvives
  refine ⟨s₁, _, _, ⟨1, 0⟩, ⟨2, 1⟩, hrun'.append (.cons (l := .reap 0) (by
    simp only [call, hreap]
    rfl) (.nil _)), hdangling,
    vAccept_eq_ok (listenSocket_eq_ok.mpr ⟨hl₂, href⟩) hopen hqueue, ?_⟩
  rintro ⟨e', he'⟩
  rw [normalSocket_setListen _ hl₂] at he'
  · exact hgone ⟨e', he'⟩
  · exact congrArg SocketRef.id href

end TcpStack

end Tns.Tcp
