import Tns.Tcp.PendingSockets

/-!
# The calls and the pending lists

Every call except a pass of the reaper keeps the pending lists and the accept
queues right: a call that takes a socket out of SYN_RECEIVED takes it off the
pending list, and a listener that closes first gives up its lists.
-/

namespace Tns.Tcp

namespace TcpStack

variable {M N : ℕ} {s s' : TcpStack M N} {r : SocketRef} {e : TableSocket M N} {id : ℕ}
  {l : ListenSocket}

/-! ## Calls on sockets -/

theorem removePending_of_listen (hl : s.socketTable.lookup id = some (.listen l))
    (tuple : SessionTuple) : s.removePending id tuple =
      s.setSocket (.listen { l with pendingSocks := l.pendingSocks.eraseP (·.1 = tuple) }) := by
  simp only [removePending, hl]

theorem removePending_of_not (hno : ∀ l, s.socketTable.lookup id ≠ some (.listen l))
    (tuple : SessionTuple) : s.removePending id tuple = s := by
  unfold removePending
  split
  · rename_i l hl
    exact absurd hl (hno l)
  · rfl

theorem normalSocket_removePending (h : Consistent ∅ s) (tuple : SessionTuple) (r : SocketRef)
    (e : TableSocket M N) :
    (s.removePending id tuple).normalSocket r = .ok e ↔ s.normalSocket r = .ok e := by
  by_cases hl : ∃ l, s.socketTable.lookup id = some (.listen l)
  · obtain ⟨l, hl⟩ := hl
    rw [removePending_of_listen hl]
    apply normalSocket_setListen _ hl
    exact h.ref id _ hl
  · rw [removePending_of_not (not_exists.mp hl)]

/-- The order in which a socket is changed and taken off the pending list does not matter. -/
theorem removePending_setNormal (h : Consistent ∅ s) (he : s.normalSocket r = .ok e)
    (sock : NormalSocket M N) (tuple : SessionTuple) :
    (s.setSocket (.normal { e with sock })).removePending id tuple =
      (s.removePending id tuple).setSocket (.normal { e with sock }) := by
  by_cases hl : ∃ l, s.socketTable.lookup id = some (.listen l)
  · obtain ⟨l, hl⟩ := hl
    rw [removePending_of_listen hl,
      removePending_of_listen ((lookup_listen_setNormal he sock).mpr hl)]
    apply setSocket_comm
    intro heq
    obtain ⟨hlookup, rfl⟩ := normalSocket_eq_ok.mp he
    have hid : l.ref.id = id := h.ref id _ hl
    rw [← hid, ← show e.ref.id = l.ref.id from heq, hlookup] at hl
    cases hl
  · rw [removePending_of_not (not_exists.mp hl), removePending_of_not]
    intro l hl'
    exact hl ⟨l, (lookup_listen_setNormal he sock).mp hl'⟩

/-- What a call does to a socket and asks of its listener.  A socket that is not pending does
not stay in SYN_RECEIVED and is not put into ESTABLISHED. -/
theorem Tracks.change {out : Set SocketRef} (h : Tracks out s) (he : s.normalSocket r = .ok e)
    {actions : List Action} {sock : NormalSocket M N}
    (hchange : NormalSocket.Changes e.sock actions sock)
    (hout : r ∈ out → sock.state ≠ .established ∧ ∀ id, sock.state ≠ .synReceived id) :
    Tracks (out \ {r}) (actions.foldl (perform · e) (s.setSocket (.normal { e with sock }))) := by
  have hleave : ∀ {id : ℕ}, e.sock.state = .synReceived id →
      (∀ id, sock.state ≠ .synReceived id) →
      Tracks (out \ {r}) ((s.setSocket (.normal { e with sock })).removePending id e.tuple) := by
    intro id hstate hleft
    rw [removePending_setNormal h.table he]
    apply (h.removePending he hstate).setNormal ((normalSocket_removePending h.table _ _ _).mpr he)
    · exact fun _ _ hno ↦ absurd (Set.mem_insert r out) hno
    · exact fun id hnew ↦ absurd hnew (hleft id)
    · intro r' hr'
      simp [hr']
  cases hchange with
  | keeps _ _ hstate hsends =>
      rw [eq_of_perform_sends hsends]
      apply h.setNormal he
      · exact fun id hold _ ↦ ⟨(hstate id).mpr hold, fun hmem ↦ hmem.2 rfl⟩
      · exact fun id hnew ↦ .inr ⟨(hstate id).mp hnew, fun hmem ↦ (hout hmem).2 id hnew⟩
      · intro r' hr'
        simp [hr']
  | leaves lSock sent _ hstate hleft hsends =>
      rw [List.foldl_cons, perform, eq_of_perform_sends hsends]
      exact hleave hstate hleft
  | opens lSock _ hstate hopen =>
      have hmem : r ∉ out := fun hmem ↦ (hout hmem).1 hopen
      obtain ⟨l, hl, hpending⟩ := (h.received r e he lSock hstate).resolve_left hmem
      have hnew : Tracks (out \ {r}) _ := hleave hstate (by simp [hopen])
      simp only [List.foldl_cons, List.foldl_nil, perform]
      have href : e.ref = r := ref_of_normalSocket he
      apply hnew.pushAccept
      · refine ⟨{ e with sock }, ?_⟩
        rw [normalSocket_removePending (h.table.setNormal he sock), normalSocket_setNormal he,
          if_pos href]
      · intro k hk
        rw [removePending_of_listen ((lookup_listen_setNormal he sock).mpr hl),
          lookup_listen_setListen, if_pos (h.listenSocket hl).symm] at hk
        have hopen' := h.not_closed hl hpending
        rwa [hk]

theorem Tracks.callSocket (h : Tracks ∅ s) {c : NormalCall M N}
    {result : Option (Except SocketError Unit)} {actions : List Action}
    (hcall : s.callSocket r c = .ok (result, actions, s')) : Tracks ∅ s' := by
  simp only [TcpStack.callSocket, Exec.bind_eq_ok, Exec.pure_eq_ok, Prod.exists,
    Prod.mk.injEq] at hcall
  obtain ⟨e, he, _, _, sock, hsock, -, rfl, rfl⟩ := hcall
  have hnew := h.change he (NormalSocket.changes_of_call hsock) fun hmem ↦ hmem.elim
  rwa [Set.empty_sdiff] at hnew

/-! ## Closing a listener -/

/-- What the loops of `vCloseListen` and of the destructor do with one socket. -/
theorem exists_of_vClose {now : TimePoint} {actions : List Action}
    (h : s.vClose now r = .ok (actions, s')) :
    ∃ e sock, s.normalSocket r = .ok e ∧ NormalSocket.Changes e.sock actions sock ∧
      (sock.state ≠ .established ∧ ∀ id, sock.state ≠ .synReceived id) ∧
      s' = actions.foldl (perform · e) (s.setSocket (.normal { e with sock })) := by
  simp only [TcpStack.vClose, Exec.bind_eq_ok, Exec.pure_eq_ok, Prod.exists,
    Prod.mk.injEq] at h
  obtain ⟨e, he, _, _, sock, hclose, rfl, rfl⟩ := h
  exact ⟨e, sock, he, NormalSocket.changes_of_vClose hclose, NormalSocket.state_of_vClose hclose,
    rfl⟩

theorem lookup_listen_removePending (h : Consistent ∅ s) {i : ℕ} {tuple : SessionTuple}
    (hl : s.socketTable.lookup id = some (.listen l)) (hnil : l.pendingSocks = []) :
    (s.removePending i tuple).socketTable.lookup id = some (.listen l) := by
  by_cases hk : ∃ k, s.socketTable.lookup i = some (.listen k)
  · obtain ⟨k, hk⟩ := hk
    have hid : k.ref.id = i := h.ref i _ hk
    rw [removePending_of_listen hk, lookup_listen_setListen]
    split
    · rename_i heq
      obtain rfl : id = i := heq.trans hid
      rw [hl, Option.some.injEq, Socket.listen.injEq] at hk
      subst hk
      rw [hnil, List.eraseP_nil, ← hnil]
    · exact hl
  · rwa [removePending_of_not (not_exists.mp hk)]

/-- A listener that has no pending socket is not changed when a socket is closed. -/
theorem lookup_listen_vClose (h : Consistent ∅ s) {now : TimePoint} {actions : List Action}
    (hclose : s.vClose now r = .ok (actions, s'))
    (hl : s.socketTable.lookup id = some (.listen l)) (hnil : l.pendingSocks = []) :
    s'.socketTable.lookup id = some (.listen l) := by
  obtain ⟨e, sock, he, hchange, hstate, rfl⟩ := exists_of_vClose hclose
  have hset := (lookup_listen_setNormal he sock).mpr hl
  cases hchange with
  | keeps _ _ _ hsends =>
      rw [eq_of_perform_sends hsends]
      exact hset
  | leaves lSock sent _ _ _ hsends =>
      rw [List.foldl_cons, perform, eq_of_perform_sends hsends]
      exact lookup_listen_removePending (h.setNormal he sock) hset hnil
  | opens _ _ _ hopen => exact absurd hopen hstate.1

/-- A loop that closes sockets, when the listener has nothing pending any more. -/
theorem Tracks.closeAll {out : Set SocketRef} {now : TimePoint} {rs : List SocketRef}
    {actions : List Action} (h : Tracks out s)
    (hloop : forEach (TcpStack.vClose now) s rs = .ok (actions, s'))
    (hl : s.socketTable.lookup id = some (.listen l)) (hnil : l.pendingSocks = []) :
    Tracks (out \ {r | r ∈ rs}) s' ∧ s'.socketTable.lookup id = some (.listen l) := by
  induction rs generalizing s out actions with
  | nil =>
      obtain ⟨-, rfl⟩ := Prod.mk.inj (Except.ok.inj hloop)
      simpa using ⟨h, hl⟩
  | cons r rs ih =>
      simp only [forEach, Exec.bind_eq_ok, Exec.pure_eq_ok, Prod.exists, Prod.mk.injEq] at hloop
      obtain ⟨_, s₁, hfirst, _, _, hrest, -, rfl⟩ := hloop
      have hl₁ := lookup_listen_vClose h.table hfirst hl hnil
      obtain ⟨e, sock, he, hchange, hstate, rfl⟩ := exists_of_vClose hfirst
      obtain ⟨hnew, hl'⟩ := ih (h.change he hchange fun _ ↦ hstate) hrest hl₁
      have heq : out \ {r' | r' ∈ r :: rs} = (out \ {r}) \ {r' | r' ∈ rs} := by
        ext r'
        simp [and_assoc]
      rw [heq]
      exact ⟨hnew, hl'⟩

theorem Tracks.clearPending (h : Tracks ∅ s)
    (hl : s.socketTable.lookup id = some (.listen l)) :
    Tracks {r | r ∈ l.pendingSocks.map Prod.snd}
      (s.setSocket (.listen { l with pendingSocks := [] })) := by
  apply h.setListen hl
  · rfl
  · rfl
  · exact fun p hp ↦ absurd hp List.not_mem_nil
  · exact List.nodup_nil
  · intro r' e he hstate
    obtain ⟨k, hk, hmem⟩ := (h.received r' e he id hstate).resolve_left (Set.notMem_empty _)
    rw [hl] at hk
    cases hk
    exact .inl (List.mem_map.mpr ⟨_, hmem, rfl⟩)
  · intro r' hno
    refine iff_of_false ?_ (Set.notMem_empty _)
    intro hmem
    obtain ⟨p, hp, rfl⟩ := List.mem_map.mp hmem
    obtain ⟨-, e, he, -, hstate⟩ := h.pending id l hl p hp
    exact hno e he hstate
  · exact h.queue id l hl
  · exact fun hclosed ↦ ⟨rfl, (h.tidy id l hl hclosed).2⟩

theorem lookup_setListen {l' : ListenSocket} (hid : l'.ref.id = id) :
    (s.setSocket (.listen l')).socketTable.lookup id = some (.listen l') :=
  lookup_listen_setListen.mpr (by rw [if_pos hid.symm])

theorem Tracks.vCloseListen (h : Tracks ∅ s) {now : TimePoint} {result : Except SocketError Unit}
    {actions : List Action} (hclose : s.vCloseListen r now = .ok (result, actions, s')) :
    Tracks ∅ s' := by
  simp only [TcpStack.vCloseListen, Exec.bind_eq_ok] at hclose
  obtain ⟨l, hsock, hclose⟩ := hclose
  obtain ⟨hl, href⟩ := listenSocket_eq_ok.mp hsock
  have hid : l.ref.id = r.id := congrArg SocketRef.id href
  split at hclose
  · simp only [pendingSocksOnClose, acceptQOnClose, Exec.bind_eq_ok, Exec.pure_eq_ok, Prod.exists,
      Prod.mk.injEq, listenSocket_eq_ok] at hclose
    obtain ⟨_, s₁, ⟨l₀, ⟨hl₀, -⟩, hpending⟩, _, s₂, ⟨l₁, ⟨hl₁, -⟩, hqueue⟩, l₂, ⟨hl₂, -⟩, -, -,
      rfl⟩ := hclose
    obtain rfl := Socket.listen.inj (Option.some.inj (hl.symm.trans hl₀))
    obtain ⟨h₁, hlisten₁⟩ := (h.clearPending hl).closeAll hpending (lookup_setListen hid) rfl
    rw [Set.sdiff_self] at h₁
    obtain rfl := Socket.listen.inj (Option.some.inj (hlisten₁.symm.trans hl₁))
    have hdrain : Tracks ∅
        (s₁.setSocket (.listen { l with pendingSocks := [], acceptQ := [] })) := by
      apply h₁.setQueue hl₁
      · rfl
      · rfl
      · rfl
      · exact fun r' hr' ↦ absurd hr' List.not_mem_nil
      · exact fun _ ↦ ⟨rfl, rfl⟩
    obtain ⟨h₂, hlisten₂⟩ := hdrain.closeAll hqueue (lookup_setListen hid) rfl
    rw [Set.empty_sdiff] at h₂
    obtain rfl := Socket.listen.inj (Option.some.inj (hlisten₂.symm.trans hl₂))
    apply h₂.setQueue hl₂
    · rfl
    · rfl
    · rfl
    · exact fun r' hr' ↦ absurd hr' List.not_mem_nil
    · exact fun _ ↦ ⟨rfl, rfl⟩
  · simp only [Exec.pure_eq_ok, Prod.mk.injEq] at hclose
    obtain ⟨-, -, rfl⟩ := hclose
    exact h
  · cases hclose

theorem Tracks.visitSocket (h : Tracks ∅ s) {c : NormalCall M N} {now : TimePoint}
    {result : Option (Except SocketError Unit)} {actions : List Action}
    (hvisit : s.visitSocket id c now = .ok (result, actions, s')) : Tracks ∅ s' := by
  unfold TcpStack.visitSocket at hvisit
  split at hvisit
  · simp only [Except.ok.injEq, Prod.mk.injEq] at hvisit
    obtain ⟨-, -, rfl⟩ := hvisit
    exact h
  · exact h.callSocket hvisit
  · simp only [Exec.bind_eq_ok, Exec.pure_eq_ok, Prod.exists, Prod.mk.injEq] at hvisit
    obtain ⟨_, _, _, hclose, -, -, rfl⟩ := hvisit
    exact h.vCloseListen hclose

/-- What `vAccept` returns was at the front of the accept queue. -/
theorem Tracks.vAccept (h : Tracks ∅ s) {result : Except SocketError SocketRef}
    (haccept : s.vAccept r = .ok (result, s')) :
    Tracks ∅ s' ∧ ∀ sock, result = .ok sock → s'.Live sock := by
  simp only [TcpStack.vAccept, Exec.bind_eq_ok, listenSocket_eq_ok] at haccept
  obtain ⟨l, ⟨hl, rfl⟩, -, -, haccept⟩ := haccept
  split at haccept
  · simp only [Exec.pure_eq_ok, Prod.mk.injEq] at haccept
    obtain ⟨rfl, rfl⟩ := haccept
    exact ⟨h, by simp⟩
  · rename_i hopen
    split at haccept
    · cases haccept
    · rename_i sock queue hqueue
      simp only [Exec.pure_eq_ok, Prod.mk.injEq] at haccept
      obtain ⟨rfl, rfl⟩ := haccept
      have hlive := h.queue _ l hl
      rw [hqueue, List.forall_mem_cons] at hlive
      refine ⟨?_, ?_⟩
      · apply h.setQueue hl
        · rfl
        · rfl
        · rfl
        · exact hlive.2
        · exact fun hclosed ↦ absurd hclosed hopen
      · rintro sock' hsock
        obtain rfl := Except.ok.inj hsock
        obtain ⟨e, he⟩ := hlive.1
        refine ⟨e, ?_⟩
        rw [normalSocket_setListen _ hl]
        · exact he
        · rfl

/-! ## Creating sockets -/

theorem Tracks.createSocket (h : Tracks ∅ s) {new : NewSocket M N} {ref : SocketRef}
    (hcreate : s.createSocket new = .ok (.ok ref, s'))
    (hnew : ∀ e, new.make ref = .normal e → ∀ id, e.sock.state ≠ .synReceived id) :
    Tracks ∅ s' := by
  obtain ⟨_, s₁, hcreate', htable, -⟩ := h.table.createSocket new
  obtain ⟨-, rfl⟩ := Prod.mk.inj (Except.ok.inj (hcreate'.symm.trans hcreate))
  have hlive : ∀ {r : SocketRef} {e : TableSocket M N}, s.normalSocket r = .ok e →
      s₁.normalSocket r = .ok e := by
    intro r e he
    rw [normalSocket_eq_ok] at he ⊢
    exact ⟨lookup_of_createSocket_of_some hcreate he.1, he.2⟩
  refine ⟨htable, ?_, ?_, ?_, ?_, ?_⟩
  · intro i k hk p hp
    rcases lookup_listen_of_createSocket hcreate hk with hk | ⟨hnil, -⟩
    · obtain ⟨hout, e, he, hrest⟩ := h.pending i k hk p hp
      exact ⟨hout, e, hlive he, hrest⟩
    · rw [hnil] at hp
      cases hp
  · intro i k hk
    rcases lookup_listen_of_createSocket hcreate hk with hk | ⟨hnil, -⟩
    · exact h.nodup i k hk
    · rw [hnil]
      exact List.nodup_nil
  · intro r e he i hstate
    obtain ⟨hmem, href⟩ := normalSocket_eq_ok.mp he
    rw [(lookup_of_createSocket hcreate).2.2] at hmem
    split at hmem
    · exact absurd hstate (hnew e (Option.some.inj hmem) i)
    · obtain ⟨k, hk, hpending⟩ := (h.received r e (normalSocket_eq_ok.mpr ⟨hmem, href⟩) i
        hstate).resolve_left (Set.notMem_empty _)
      exact .inr ⟨k, lookup_of_createSocket_of_some hcreate hk, hpending⟩
  · intro i k hk r hr
    rcases lookup_listen_of_createSocket hcreate hk with hk | ⟨-, hnil, -⟩
    · obtain ⟨e, he⟩ := h.queue i k hk r hr
      exact ⟨e, hlive he⟩
    · rw [hnil] at hr
      cases hr
  · intro i k hk hclosed
    rcases lookup_listen_of_createSocket hcreate hk with hk | ⟨-, -, hopen⟩
    · exact h.tidy i k hk hclosed
    · rw [hopen] at hclosed
      cases hclosed

/-- A new normal socket is not in SYN_RECEIVED. -/
theorem Tracks.createNormalSocket (h : Tracks ∅ s) {tuple : SessionTuple} {sock : NormalSocket M N}
    {result : Except SocketError SocketRef} (hclosed : sock.state = .closed)
    (hcreate : s.createNormalSocket tuple sock = .ok (result, s')) :
    Tracks ∅ s' ∧ ∀ ref, result = .ok ref → s'.normalSocket ref = .ok ⟨ref, tuple, sock⟩ := by
  cases result with
  | error e => exact ⟨eq_of_createSocket_error hcreate ▸ h, nofun⟩
  | ok ref =>
      refine ⟨h.createSocket hcreate ?_, ?_⟩
      · intro e he id hstate
        obtain rfl := Socket.normal.inj he
        rw [hclosed] at hstate
        cases hstate
      · rintro ref' href
        obtain rfl := Except.ok.inj href
        exact normalSocket_of_createSocket hcreate

theorem Tracks.createActiveConnection (h : Tracks ∅ s) {tuple : SessionTuple}
    {sendBuf : Vector Byte M} {recvBuf : Vector Byte N} {isn : UInt32} {now : TimePoint}
    {result : Except SocketError SocketRef} {actions : List Action}
    (hcreate : s.createActiveConnection tuple sendBuf recvBuf isn now =
      .ok (result, actions, s')) : Tracks ∅ s' := by
  simp only [TcpStack.createActiveConnection, Exec.bind_eq_ok, Prod.exists] at hcreate
  obtain ⟨r, s₁, hsocket, hcreate⟩ := hcreate
  obtain ⟨h₁, hnew⟩ := h.createNormalSocket rfl hsocket
  cases r with
  | error e =>
      simp only [Exec.pure_eq_ok, Prod.mk.injEq] at hcreate
      obtain ⟨-, -, rfl⟩ := hcreate
      exact h₁
  | ok ref =>
      simp only [hnew ref rfl, Exec.ok_bind, Exec.bind_eq_ok, Exec.pure_eq_ok, Prod.exists,
        Prod.mk.injEq] at hcreate
      obtain ⟨_, sock, hconnect, -, -, rfl⟩ := hcreate
      have hstate : sock.state = .synSent := by
        simp only [NormalSocket.createActiveConnection, Exec.bind_eq_ok, Exec.pure_eq_ok,
          Prod.exists, Prod.mk.injEq] at hconnect
        obtain ⟨_, _, -, -, rfl⟩ := hconnect
        rfl
      apply h₁.keep (hnew ref rfl)
      intro id
      rw [hstate]
      exact iff_of_false nofun nofun

/-- A socket in SYN_RECEIVED goes to the pending list of its listener. -/
theorem Tracks.addPending (h : Tracks {r} s) (he : s.normalSocket r = .ok e)
    (hstate : e.sock.state = .synReceived id) (hl : s.socketTable.lookup id = some (.listen l))
    (hopen : l.state ≠ .closed) :
    Tracks ∅ (s.setSocket
      (.listen { l with pendingSocks := l.pendingSocks ++ [(e.tuple, r)] })) := by
  apply h.setListen hl
  · rfl
  · rfl
  · intro p hp
    refine ⟨Set.notMem_empty _, ?_⟩
    rcases List.mem_append.mp hp with hold | hnew
    · exact (h.pending id l hl p hold).2
    · rw [List.mem_singleton] at hnew
      subst hnew
      exact ⟨e, he, rfl, hstate⟩
  · rw [List.map_append, List.nodup_append]
    refine ⟨h.nodup id l hl, List.nodup_singleton _, ?_⟩
    intro tuple htuple tuple' htuple' heq
    obtain ⟨p, hp, rfl⟩ := List.mem_map.mp htuple
    obtain ⟨hout, e', he', hsame, -⟩ := h.pending id l hl p hp
    apply hout
    apply h.eq_of_tuple he' he
    rw [hsame, heq]
    simpa using htuple'
  · intro r' e' he' hstate'
    right
    rw [List.mem_append, List.mem_singleton]
    rcases h.received r' e' he' id hstate' with hout | ⟨k, hk, hold⟩
    · rw [Set.mem_singleton_iff] at hout
      subst hout
      obtain rfl := Except.ok.inj (he.symm.trans he')
      exact .inr rfl
    · rw [hl] at hk
      cases hk
      exact .inl hold
  · intro r' hno
    have hne : r' ≠ r := fun heq ↦ hno e (heq ▸ he) hstate
    simp [hne]
  · exact h.queue id l hl
  · exact fun hclosed ↦ absurd hclosed hopen

theorem Tracks.createPassiveConnection (h : Tracks ∅ s) {tuple : SessionTuple}
    {clientISN clientWND : UInt32} {listener : SocketRef} {sendBuf : Vector Byte M}
    {recvBuf : Vector Byte N} {isn : UInt32} {now : TimePoint}
    {result : Except SocketError SocketRef} {actions : List Action}
    (hlisten : s.listenSocket listener = .ok l) (hopen : l.state = .listen)
    (hcreate : s.createPassiveConnection tuple clientISN clientWND listener sendBuf recvBuf isn
      now = .ok (result, actions, s')) : Tracks ∅ s' := by
  simp only [TcpStack.createPassiveConnection, Exec.bind_eq_ok, Prod.exists] at hcreate
  obtain ⟨r, s₁, hsocket, hcreate⟩ := hcreate
  obtain ⟨h₁, hnew⟩ := h.createNormalSocket rfl hsocket
  cases r with
  | error e =>
      simp only [Exec.pure_eq_ok, Prod.mk.injEq] at hcreate
      obtain ⟨-, -, rfl⟩ := hcreate
      exact h₁
  | ok ref =>
      simp only [hnew ref rfl, Exec.ok_bind, Exec.bind_eq_ok, Prod.exists] at hcreate
      obtain ⟨_, sock, hsend, l₁, hl₁, hcreate⟩ := hcreate
      have hclosed : sock.state = .closed := by
        obtain ⟨-, q, -, rfl⟩ := NormalSocket.sendPacket_cases hsend
        rfl
      have hno : ∀ id, sock.state ≠ .synReceived id := by
        rw [hclosed]
        simp
      have h₂ : Tracks ∅ (s₁.setSocket (.normal ⟨ref, tuple, sock⟩)) :=
        h₁.keep (hnew ref rfl) fun id ↦ iff_of_false (hno id) fun hstate ↦ by cases hstate
      obtain ⟨hlookup, href⟩ := listenSocket_eq_ok.mp hl₁
      have hold : l₁ = l := by
        rw [lookup_listen_setNormal (hnew ref rfl), (lookup_of_createSocket hsocket).2.2] at hlookup
        split at hlookup
        · cases hlookup
        · rw [(listenSocket_eq_ok.mp hlisten).1] at hlookup
          cases hlookup
          rfl
      split at hcreate
      · simp only [Exec.pure_eq_ok, Prod.mk.injEq] at hcreate
        obtain ⟨-, -, rfl⟩ := hcreate
        have he : (s₁.setSocket (.normal ⟨ref, tuple, sock⟩)).normalSocket ref =
            .ok ⟨ref, tuple, sock⟩ :=
          normalSocket_setSocket (hnew ref rfl) sock
        rw [setSocket_comm]
        · have hin : Tracks {ref} ((s₁.setSocket (.normal ⟨ref, tuple, sock⟩)).setSocket
              (.normal ⟨ref, tuple, sock.setState (.synReceived listener.id)⟩)) := by
            rw [← insert_empty_eq]
            exact h₂.enter he hno
          apply hin.addPending (e := ⟨ref, tuple, sock.setState (.synReceived listener.id)⟩)
          · exact normalSocket_setSocket he _
          · rfl
          · exact (lookup_listen_setNormal he _).mpr hlookup
          · rw [hold, hopen]
            simp
        · intro heq
          have hmem := (normalSocket_eq_ok.mp he).1
          rw [show ref.id = listener.id from (heq.symm.trans (congrArg SocketRef.id href)), hlookup]
            at hmem
          cases hmem
      · simp only [Exec.pure_eq_ok, Prod.mk.injEq] at hcreate
        obtain ⟨-, -, rfl⟩ := hcreate
        exact h₂

theorem Tracks.handleListenGetSyn (h : Tracks ∅ s) {session : SessionTuple}
    {clientISN : UInt32} {clientWND : UInt16} {listener : SocketRef} {sendBuf : Vector Byte M}
    {recvBuf : Vector Byte N} {isn : UInt32} {now : TimePoint}
    {result : Option (Except SocketError SocketRef)} {actions : List Action}
    (hsyn : s.handleListenGetSyn listener session clientISN clientWND sendBuf recvBuf isn now =
      .ok (result, actions, s')) : Tracks ∅ s' := by
  simp only [TcpStack.handleListenGetSyn, Exec.bind_eq_ok] at hsyn
  obtain ⟨l, hlisten, hsyn⟩ := hsyn
  split at hsyn
  · rename_i hopen
    simp only [Exec.bind_eq_ok, Exec.pure_eq_ok, Prod.exists, Prod.mk.injEq] at hsyn
    obtain ⟨_, _, _, hcreate, -, -, rfl⟩ := hsyn
    exact h.createPassiveConnection hlisten hopen hcreate
  · simp only [Exec.pure_eq_ok, Prod.mk.injEq] at hsyn
    obtain ⟨-, -, rfl⟩ := hsyn
    exact h

theorem Tracks.createListenSocket (h : Tracks ∅ s) {port : UInt16}
    {result : Except SocketError SocketRef}
    (hcreate : s.createListenSocket port = .ok (result, s')) : Tracks ∅ s' := by
  cases result with
  | error e => exact eq_of_createSocket_error hcreate ▸ h
  | ok ref =>
      apply h.createSocket hcreate
      intro e he
      cases he

end TcpStack

end Tns.Tcp
