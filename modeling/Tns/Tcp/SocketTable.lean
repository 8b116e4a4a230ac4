import Tns.Tcp.TcpStack

/-!
# Consistency of the socket table

Every id from 1 to `MAX_SOCKET_FD` is free, in the table, or held by a call that
has allocated it and not inserted its socket yet.  Each index has exactly the
keys of the sockets of its kind in the table, with references to them.
-/

namespace Tns.Tcp

open Tns.Library

namespace TcpStack

variable {M N : ℕ} {s s' : TcpStack M N} {key : SocketKey} {ref : SocketRef}

theorem find_insertKey (key' : SocketKey) :
    (s.insertKey key ref).find key' = if key' = key then some ref else s.find key' := by
  cases key with
  | normal tuple =>
      cases key' with
      | normal tuple' =>
          by_cases heq : tuple' = tuple
          · subst heq
            simp [find, insertKey]
          · simp [find, insertKey, heq, Finmap.lookup_insert_of_ne]
      | listen port' => simp [find, insertKey]
  | listen port =>
      cases key' with
      | normal tuple' => simp [find, insertKey]
      | listen port' =>
          by_cases heq : port' = port
          · subst heq
            simp [find, insertKey]
          · simp [find, insertKey, heq, Finmap.lookup_insert_of_ne]

theorem find_eraseKey (key' : SocketKey) :
    (s.eraseKey key).find key' = if key' = key then none else s.find key' := by
  cases key with
  | normal tuple =>
      cases key' with
      | normal tuple' =>
          by_cases heq : tuple' = tuple
          · subst heq
            simp [find, eraseKey]
          · simp [find, eraseKey, heq, Finmap.lookup_erase_ne]
      | listen port' => simp [find, eraseKey]
  | listen port =>
      cases key' with
      | normal tuple' => simp [find, eraseKey]
      | listen port' =>
          by_cases heq : port' = port
          · subst heq
            simp [find, eraseKey]
          · simp [find, eraseKey, heq, Finmap.lookup_erase_ne]

@[simp] theorem find_mk {table : Finmap fun _ : ℕ ↦ Socket M N} {free : Finset ℕ} {n : ℕ}
    (key' : SocketKey) : TcpStack.find { s with
      socketTable := table, freeSocketIDs := free, serial := n } key' = s.find key' := by
  cases key' <;> rfl

@[simp] theorem keys_insert {id : ℕ} {sock : Socket M N}
    (table : Finmap fun _ : ℕ ↦ Socket M N) :
    (table.insert id sock).keys = insert id table.keys := by
  ext i
  simp only [Finmap.mem_keys, Finmap.mem_insert, Finset.mem_insert]

@[simp] theorem insertKey_socketTable : (s.insertKey key ref).socketTable = s.socketTable := by
  cases key <;> rfl

@[simp] theorem insertKey_freeSocketIDs :
    (s.insertKey key ref).freeSocketIDs = s.freeSocketIDs := by
  cases key <;> rfl

@[simp] theorem eraseKey_socketTable : (s.eraseKey key).socketTable = s.socketTable := by
  cases key <;> rfl

@[simp] theorem eraseKey_freeSocketIDs : (s.eraseKey key).freeSocketIDs = s.freeSocketIDs := by
  cases key <;> rfl

theorem normalSocket_eq_ok {e : TableSocket M N} :
    s.normalSocket ref = .ok e ↔ s.socketTable.lookup ref.id = some (.normal e) ∧ e.ref = ref := by
  unfold normalSocket
  split
  · rename_i e' hlookup
    rw [hlookup]
    simp only [Option.some.injEq, Socket.normal.injEq]
    split
    · rename_i href
      simp only [Except.ok.injEq]
      exact ⟨fun heq ↦ ⟨heq, heq ▸ href⟩, And.left⟩
    · rename_i href
      refine ⟨nofun, ?_⟩
      rintro ⟨rfl, href'⟩
      exact absurd href' href
  · rename_i hno
    exact ⟨nofun, fun h ↦ absurd h.1 (hno e)⟩

theorem listenSocket_eq_ok {l : ListenSocket} :
    s.listenSocket ref = .ok l ↔ s.socketTable.lookup ref.id = some (.listen l) ∧ l.ref = ref := by
  unfold listenSocket
  split
  · rename_i l' hlookup
    rw [hlookup]
    simp only [Option.some.injEq, Socket.listen.injEq]
    split
    · rename_i href
      simp only [Except.ok.injEq]
      exact ⟨fun heq ↦ ⟨heq, heq ▸ href⟩, And.left⟩
    · rename_i href
      refine ⟨nofun, ?_⟩
      rintro ⟨rfl, href'⟩
      exact absurd href' href
  · rename_i hno
    exact ⟨nofun, fun h ↦ absurd h.1 (hno l)⟩

theorem normalSocket_error {e : Stop} (h : s.normalSocket ref = .error e) :
    e = .undefinedBehaviour := by
  unfold normalSocket at h
  split at h
  · split at h
    · cases h
    · exact (Except.error.inj h).symm
  · exact (Except.error.inj h).symm

theorem listenSocket_error {e : Stop} (h : s.listenSocket ref = .error e) :
    e = .undefinedBehaviour := by
  unfold listenSocket at h
  split at h
  · split at h
    · cases h
    · exact (Except.error.inj h).symm
  · exact (Except.error.inj h).symm

theorem getNextSocketId_of_isLeast {id : ℕ} (h : IsLeast (s.freeSocketIDs : Set ℕ) id) :
    s.getNextSocketId = (.ok id, { s with freeSocketIDs := s.freeSocketIDs.erase id }) := by
  have hne : s.freeSocketIDs.Nonempty := ⟨id, h.1⟩
  have hmin : s.freeSocketIDs.min' hne = id := (Finset.isLeast_min' _ hne).unique h
  simp only [getNextSocketId, hne, dif_pos, hmin]

theorem eq_of_getNextSocketId_error {e : SocketError}
    (h : s.getNextSocketId = (.error e, s')) : s' = s := by
  unfold getNextSocketId at h
  split at h
  · cases h
  · exact (Prod.mk.inj h).2.symm

theorem isLeast_init : IsLeast (({} : TcpStack M N).freeSocketIDs : Set ℕ) 1 :=
  ⟨by simp [MAX_SOCKET_FD], fun _ hi ↦ (Finset.mem_Icc.mp hi).1⟩

theorem isLeast_two :
    IsLeast ((({} : TcpStack M N).freeSocketIDs.erase 1 : Finset ℕ) : Set ℕ) 2 := by
  refine ⟨by simp [MAX_SOCKET_FD], fun i hi ↦ ?_⟩
  simp only [Finset.coe_erase, Finset.coe_Icc, Set.mem_sdiff, Set.mem_Icc,
    Set.mem_singleton_iff] at hi
  omega

/-- Every id from 1 to `MAX_SOCKET_FD` is in exactly one of three places, and the indices have
exactly the keys of the sockets in the table, each with a reference to its own socket. -/
structure Consistent (held : Finset ℕ) (s : TcpStack M N) : Prop where
  ids : s.socketTable.keys ∪ s.freeSocketIDs ∪ held = Finset.Icc 1 MAX_SOCKET_FD
  table_free : Disjoint s.socketTable.keys s.freeSocketIDs
  not_held : Disjoint (s.socketTable.keys ∪ s.freeSocketIDs) held
  ref : ∀ id sock, s.socketTable.lookup id = some sock → sock.ref.id = id
  find : ∀ key r, s.find key = some r ↔
    ∃ sock, s.socketTable.lookup r.id = some sock ∧ sock.ref = r ∧ sock.key = key

namespace Consistent

variable {held : Finset ℕ}

theorem init : Consistent ∅ ({} : TcpStack M N) := by
  refine ⟨by simp, by simp, by simp, by simp, ?_⟩
  intro key r
  cases key <;> simp [TcpStack.find]

theorem getNextSocketId (h : Consistent held s) {id : ℕ}
    (hnext : s.getNextSocketId = (.ok id, s')) :
    id ∉ held ∧ Consistent (insert id held) s' ∧ ∀ key, s'.find key = s.find key := by
  unfold TcpStack.getNextSocketId at hnext
  split at hnext
  · rename_i hne
    simp only [Prod.mk.injEq, Except.ok.injEq] at hnext
    obtain ⟨rfl, rfl⟩ := hnext
    have hmem : s.freeSocketIDs.min' hne ∈ s.freeSocketIDs := Finset.min'_mem _ _
    generalize s.freeSocketIDs.min' hne = id at hmem ⊢
    have htable := Finset.disjoint_right.mp h.table_free hmem
    have hheld := Finset.disjoint_left.mp h.not_held (Finset.mem_union_right _ hmem)
    refine ⟨hheld, ⟨?_, ?_, ?_, h.ref, h.find⟩, fun key ↦ by cases key <;> rfl⟩
    · rw [← h.ids]
      ext i
      by_cases hi : i = id <;> simp [hi, hmem]
    · exact h.table_free.mono_right (Finset.erase_subset _ _)
    · rw [Finset.disjoint_insert_right]
      refine ⟨by simp [htable], h.not_held.mono_left ?_⟩
      exact Finset.union_subset_union_right (Finset.erase_subset _ _)
  · cases hnext

theorem insertSocket_eq {id : ℕ} {new : NewSocket M N} (hid : id ∉ s.socketTable)
    (hkey : s.find new.key = none) :
    s.insertSocket id new = .ok (⟨id, s.serial⟩,
      { s.insertKey new.key ⟨id, s.serial⟩ with
        socketTable := s.socketTable.insert id (new.make ⟨id, s.serial⟩)
        serial := s.serial + 1 }) := by
  simp only [TcpStack.insertSocket, Exec.assertThat, hid, hkey, not_false_eq_true, if_true,
    Exec.ok_bind, insertKey_socketTable]
  cases new <;> rfl

/-- A new socket goes into the table under an id that is held, if its key is new. -/
theorem insertSocket (h : Consistent held s) {id : ℕ} {new : NewSocket M N} (hid : id ∈ held)
    (hkey : s.find new.key = none) :
    ∃ s', s.insertSocket id new = .ok (⟨id, s.serial⟩, s') ∧ Consistent (held.erase id) s' ∧
      s'.find new.key = some ⟨id, s.serial⟩ ∧
      s'.socketTable.lookup id = some (new.make ⟨id, s.serial⟩) := by
  have hout : id ∉ s.socketTable.keys ∪ s.freeSocketIDs :=
    Finset.disjoint_right.mp h.not_held hid
  rw [Finset.mem_union, not_or, Finmap.mem_keys] at hout
  have hmake : (new.make ⟨id, s.serial⟩).ref = ⟨id, s.serial⟩ ∧
      (new.make ⟨id, s.serial⟩).key = new.key := by cases new <;> exact ⟨rfl, rfl⟩
  refine ⟨_, insertSocket_eq hout.1 hkey, ⟨?_, ?_, ?_, ?_, ?_⟩, ?_, Finmap.lookup_insert _⟩
  · rw [← h.ids]
    ext i
    by_cases hi : i = id <;> simp [hi, hid]
  · rw [keys_insert, Finset.disjoint_insert_left]
    exact ⟨by simpa using hout.2, by simpa using h.table_free⟩
  · rw [Finset.disjoint_right]
    intro i hi
    rw [Finset.mem_erase] at hi
    have hno := Finset.disjoint_right.mp h.not_held hi.2
    simpa [hi.1] using hno
  · intro i sock hlookup
    by_cases hi : i = id
    · subst hi
      rw [Finmap.lookup_insert, Option.some.injEq] at hlookup
      rw [← hlookup, hmake.1]
    · rw [Finmap.lookup_insert_of_ne _ hi] at hlookup
      exact h.ref i sock hlookup
  · intro key r
    rw [find_mk, find_insertKey]
    by_cases hr : r.id = id
    · subst hr
      rw [Finmap.lookup_insert]
      simp only [Option.some.injEq, exists_eq_left', hmake.1, hmake.2]
      split
      · rename_i hsame
        simp [hsame, eq_comm]
      · rename_i hother
        simp only [Ne.symm hother, and_false, iff_false]
        intro hold
        obtain ⟨sock, hlookup, -⟩ := (h.find key r).mp hold
        exact hout.1 (Finmap.mem_of_lookup_eq_some hlookup)
    · rw [Finmap.lookup_insert_of_ne _ hr]
      split
      · rename_i hsame
        subst hsame
        refine iff_of_false (fun heq ↦ hr (congrArg SocketRef.id (Option.some.inj heq)).symm) ?_
        rintro ⟨sock, hlookup, hsock, hkey'⟩
        rw [(h.find _ r).mpr ⟨sock, hlookup, hsock, hkey'⟩] at hkey
        cases hkey
      · exact h.find key r
  · rw [find_mk, find_insertKey, if_pos rfl]

theorem setSocket (h : Consistent held s) {id : ℕ} {old sock : Socket M N}
    (hold : s.socketTable.lookup id = some old) (href : sock.ref = old.ref)
    (hkey : sock.key = old.key) : Consistent held (s.setSocket sock) := by
  have hid : sock.ref.id = id := href ▸ h.ref id old hold
  have hmem : id ∈ s.socketTable.keys := Finmap.mem_keys.mpr (Finmap.mem_of_lookup_eq_some hold)
  have hkeys : (s.setSocket sock).socketTable.keys = s.socketTable.keys := by
    simp [TcpStack.setSocket, hid, Finset.insert_eq_of_mem hmem]
  refine ⟨hkeys ▸ h.ids, hkeys ▸ h.table_free, hkeys ▸ h.not_held, ?_, ?_⟩
  · intro i sock' hlookup
    simp only [TcpStack.setSocket, hid] at hlookup
    by_cases hi : i = id
    · subst hi
      rw [Finmap.lookup_insert, Option.some.injEq] at hlookup
      rw [← hlookup, hid]
    · rw [Finmap.lookup_insert_of_ne _ hi] at hlookup
      exact h.ref i sock' hlookup
  · intro key r
    have hfind : (s.setSocket sock).find key = s.find key := by cases key <;> rfl
    rw [hfind, h.find]
    simp only [TcpStack.setSocket, hid]
    by_cases hr : r.id = id
    · rw [hr, Finmap.lookup_insert, hold]
      simp only [Option.some.injEq, exists_eq_left', href, hkey]
    · rw [Finmap.lookup_insert_of_ne _ hr]

theorem purge (h : Consistent held s) {id : ℕ} {sock : Socket M N}
    (hlookup : s.socketTable.lookup id = some sock) : Consistent held (s.purge id sock) := by
  have hid : sock.ref.id = id := h.ref id sock hlookup
  have hmem : id ∈ s.socketTable.keys :=
    Finmap.mem_keys.mpr (Finmap.mem_of_lookup_eq_some hlookup)
  have htable : (s.purge id sock).socketTable = s.socketTable.erase id := by
    simp [TcpStack.purge, freeSocketId]
  have hfree : (s.purge id sock).freeSocketIDs = insert id s.freeSocketIDs := by
    simp [TcpStack.purge, freeSocketId, hid]
  have hfind : ∀ key, (s.purge id sock).find key = if key = sock.key then none else s.find key := by
    intro key
    rw [← find_eraseKey]
    cases key <;> rfl
  refine ⟨?_, ?_, ?_, ?_, ?_⟩
  · rw [htable, hfree, Finmap.keys_erase, ← h.ids]
    ext i
    by_cases hi : i = id <;> simp [hi, hmem]
  · rw [htable, hfree, Finmap.keys_erase, Finset.disjoint_insert_right]
    exact ⟨Finset.notMem_erase _ _, h.table_free.mono_left (Finset.erase_subset _ _)⟩
  · rw [htable, hfree, Finmap.keys_erase]
    apply h.not_held.mono_left
    intro i hi
    by_cases hi' : i = id
    · exact hi' ▸ Finset.mem_union_left _ hmem
    · simpa [hi'] using hi
  · intro i sock' hlookup'
    rw [htable] at hlookup'
    by_cases hi : i = id
    · rw [hi, Finmap.lookup_erase] at hlookup'
      cases hlookup'
    · rw [Finmap.lookup_erase_ne hi] at hlookup'
      exact h.ref i sock' hlookup'
  · intro key r
    rw [hfind, htable]
    by_cases hr : r.id = id
    · rw [hr, Finmap.lookup_erase]
      refine iff_of_false ?_ (by simp)
      split
      · nofun
      · rename_i hother
        intro hfound
        obtain ⟨sock', hlookup', -, hkey⟩ := (h.find key r).mp hfound
        rw [hr, hlookup, Option.some.injEq] at hlookup'
        exact hother (hkey ▸ hlookup' ▸ rfl)
    · rw [Finmap.lookup_erase_ne hr]
      split
      · rename_i hsame
        refine iff_of_false nofun ?_
        rintro ⟨sock', hlookup', hsock, hkey⟩
        have hfound := (h.find key r).mpr ⟨sock', hlookup', hsock, hkey⟩
        rw [hsame, (h.find sock.key sock.ref).mpr ⟨sock, hid ▸ hlookup, rfl, rfl⟩] at hfound
        exact hr (hid ▸ congrArg SocketRef.id (Option.some.inj hfound).symm)
      · exact h.find key r

theorem removePending (h : Consistent held s) (lSock : ℕ) (tuple : SessionTuple) :
    Consistent held (s.removePending lSock tuple) := by
  unfold TcpStack.removePending
  split
  · rename_i l hlookup
    exact h.setSocket hlookup rfl rfl
  · exact h

theorem pushAccept (h : Consistent held s) (lSock : ℕ) (r : SocketRef) :
    Consistent held (s.pushAccept lSock r) := by
  unfold TcpStack.pushAccept
  split
  · rename_i l hlookup
    exact h.setSocket hlookup rfl rfl
  · exact h

theorem perform (h : Consistent held s) (e : TableSocket M N) (actions : List Action) :
    Consistent held (actions.foldl (TcpStack.perform · e) s) := by
  induction actions generalizing s with
  | nil => exact h
  | cons action actions ih =>
      apply ih
      cases action with
      | sendPacket => exact h
      | removePending lSock => exact h.removePending lSock e.tuple
      | pushAccept lSock => exact h.pushAccept lSock e.ref

theorem forEach {α : Type} {body : TcpStack M N → α → Exec (List Action × TcpStack M N)}
    (hbody : ∀ {s s' : TcpStack M N} {a : α} {actions : List Action}, Consistent held s →
      body s a = .ok (actions, s') → Consistent held s')
    (h : Consistent held s) {as : List α} {actions : List Action}
    (hloop : TcpStack.forEach body s as = .ok (actions, s')) : Consistent held s' := by
  induction as generalizing s actions with
  | nil =>
      obtain ⟨-, rfl⟩ := Prod.mk.inj (Except.ok.inj hloop)
      exact h
  | cons a as ih =>
      simp only [TcpStack.forEach, Exec.bind_eq_ok, Exec.pure_eq_ok, Prod.exists,
        Prod.mk.injEq] at hloop
      obtain ⟨_, s₁, hfirst, _, s₂, hrest, -, rfl⟩ := hloop
      exact ih (hbody h hfirst) hrest

theorem vClose {now : TimePoint} {r : SocketRef} {actions : List Action} (h : Consistent held s)
    (hclose : s.vClose now r = .ok (actions, s')) : Consistent held s' := by
  simp only [TcpStack.vClose, Exec.bind_eq_ok, Exec.pure_eq_ok, Prod.exists,
    Prod.mk.injEq] at hclose
  obtain ⟨e, hsock, _, _, sock, -, rfl, rfl⟩ := hclose
  have hset : Consistent held (s.setSocket (.normal { e with sock })) :=
    h.setSocket (normalSocket_eq_ok.mp hsock).1 rfl rfl
  exact hset.perform e _

theorem reapSocket {now : TimePoint} {id : ℕ} {actions : List Action} (h : Consistent held s)
    (hreap : s.reapSocket now id = .ok (actions, s')) : Consistent held s' := by
  unfold TcpStack.reapSocket at hreap
  split at hreap
  · rename_i e hlookup
    split at hreap <;> obtain ⟨-, rfl⟩ := Prod.mk.inj (Except.ok.inj hreap)
    · exact h.purge hlookup
    · exact h
  · rename_i l hlookup
    split at hreap
    · exact forEach vClose (h.purge hlookup) hreap
    · obtain ⟨-, rfl⟩ := Prod.mk.inj (Except.ok.inj hreap)
      exact h
  · obtain ⟨-, rfl⟩ := Prod.mk.inj (Except.ok.inj hreap)
    exact h

theorem reap {now : TimePoint} {actions : List Action} (h : Consistent held s)
    (hreap : s.reap now = .ok (actions, s')) : Consistent held s' :=
  forEach reapSocket h hreap

/-- Creating a socket fails no assertion, and keeps the table consistent. -/
theorem createSocket (h : Consistent held s) (new : NewSocket M N) :
    ∃ r s', s.createSocket new = .ok (r, s') ∧ Consistent held s' ∧
      ∀ ref, r = .ok ref → s'.socketTable.lookup ref.id = some (new.make ref) := by
  unfold TcpStack.createSocket
  split
  · exact ⟨_, s, rfl, h, nofun⟩
  · rename_i hkey
    rw [Option.not_isSome_iff_eq_none] at hkey
    split
    · rename_i e s₁ hnext
      obtain rfl := eq_of_getNextSocketId_error hnext
      exact ⟨_, s₁, rfl, h, nofun⟩
    · rename_i id s₁ hnext
      obtain ⟨hid, hnext', hfind⟩ := h.getNextSocketId hnext
      obtain ⟨s₂, hinsert, hs₂, -, hlookup⟩ := hnext'.insertSocket (Finset.mem_insert_self _ _)
        ((hfind _).trans hkey)
      refine ⟨_, s₂, by simp only [hinsert, Exec.ok_bind]; rfl, ?_, ?_⟩
      · rwa [Finset.erase_insert hid] at hs₂
      · rintro ref href
        obtain rfl := Except.ok.inj href
        exact hlookup

/-- The first packet of a new socket finds its retransmission queue empty. -/
theorem exists_sendPacket (sendBuf : Vector Byte M) (recvBuf : Vector Byte N)
    (isn rcvNxt windowSize : UInt32) (packet : Packet) (now : TimePoint) :
    ∃ actions sock, (NormalSocket.createNormalSocket sendBuf recvBuf isn rcvNxt
      windowSize).writeAndSendOne.sendPacket packet now = .ok (actions, sock) :=
  ⟨_, _, rfl⟩

theorem createPassiveConnection (h : Consistent held s) (tuple : SessionTuple)
    (clientISN clientWND : UInt32) (listener : SocketRef) (sendBuf : Vector Byte M)
    (recvBuf : Vector Byte N) (isn : UInt32) (now : TimePoint) :
    s.createPassiveConnection tuple clientISN clientWND listener sendBuf recvBuf isn now =
        .error .undefinedBehaviour ∨
      ∃ r actions s', s.createPassiveConnection tuple clientISN clientWND listener sendBuf recvBuf
        isn now = .ok (r, actions, s') ∧ Consistent held s' := by
  obtain ⟨r, s₁, hcreate, hs₁, hlookup⟩ := h.createSocket
    (.normal tuple (.createNormalSocket sendBuf recvBuf isn (clientISN + 1) clientWND))
  simp only [TcpStack.createPassiveConnection, createNormalSocket, hcreate, Exec.ok_bind]
  cases r with
  | error e => exact .inr ⟨_, _, s₁, rfl, hs₁⟩
  | ok ref =>
      have hsock := hlookup ref rfl
      have href := normalSocket_eq_ok.mpr ⟨hsock, rfl⟩
      simp only [href, Exec.ok_bind, RecvBuffer.getAckWnd]
      generalize Packet.makeSynAckPacket _ _ _ = packet
      obtain ⟨actions, sock, hsend⟩ :=
        exists_sendPacket sendBuf recvBuf isn (clientISN + 1) clientWND packet now
      have hs₂ : Consistent held (s₁.setSocket (.normal { ref, tuple, sock })) :=
        hs₁.setSocket hsock rfl rfl
      simp only [hsend, Exec.ok_bind]
      cases hlisten : TcpStack.listenSocket (s₁.setSocket (.normal { ref, tuple, sock })) listener
        with
      | error stop =>
          rw [listenSocket_error hlisten]
          exact .inl rfl
      | ok lSock =>
          right
          obtain ⟨hlSock, hlref⟩ := listenSocket_eq_ok.mp hlisten
          simp only [Exec.ok_bind]
          split
          · have hset : (s₁.setSocket (.normal { ref, tuple, sock })).socketTable.lookup ref.id =
                some (.normal { ref, tuple, sock }) := Finmap.lookup_insert _
            have hne : ref.id ≠ lSock.ref.id := by
              intro heq
              rw [← hlref, ← heq, hset] at hlSock
              cases hlSock
            have hs₃ : Consistent held ((s₁.setSocket (.normal { ref, tuple, sock })).setSocket
                (.listen { lSock with pendingSocks := lSock.pendingSocks ++ [(tuple, ref)] })) :=
              hs₂.setSocket hlSock rfl rfl
            exact ⟨_, _, _, rfl,
              hs₃.setSocket ((Finmap.lookup_insert_of_ne _ hne).trans hset) rfl rfl⟩
          · exact ⟨_, _, _, rfl, hs₂⟩

theorem createActiveConnection (h : Consistent held s) (tuple : SessionTuple)
    (sendBuf : Vector Byte M) (recvBuf : Vector Byte N) (isn : UInt32) (now : TimePoint) :
    ∃ r actions s', s.createActiveConnection tuple sendBuf recvBuf isn now =
      .ok (r, actions, s') ∧ Consistent held s' := by
  obtain ⟨r, s₁, hcreate, hs₁, hlookup⟩ := h.createSocket
    (.normal tuple (.createNormalSocket sendBuf recvBuf isn))
  simp only [TcpStack.createActiveConnection, createNormalSocket, hcreate, Exec.ok_bind]
  cases r with
  | error e => exact ⟨_, _, s₁, rfl, hs₁⟩
  | ok ref =>
      have hsock := hlookup ref rfl
      have href := normalSocket_eq_ok.mpr ⟨hsock, rfl⟩
      simp only [href, Exec.ok_bind]
      exact ⟨_, _, _, rfl, hs₁.setSocket hsock rfl rfl⟩

end Consistent

theorem eq_of_createSocket_error {new : NewSocket M N} {e : SocketError}
    (h : s.createSocket new = .ok (.error e, s')) : s' = s := by
  unfold createSocket at h
  split at h
  · exact (Prod.mk.inj (Except.ok.inj h)).2.symm
  · split at h
    · rename_i hnext
      obtain rfl := eq_of_getNextSocketId_error hnext
      exact (Prod.mk.inj (Except.ok.inj h)).2.symm
    · simp only [Exec.bind_eq_ok, Exec.pure_eq_ok, Prod.exists, Prod.mk.injEq] at h
      obtain ⟨_, _, -, hr, -⟩ := h
      cases hr

/-- A new socket has a key that is not in use and takes a free id. -/
theorem createSocket_eq_ok {new : NewSocket M N} {ref : SocketRef}
    (h : s.createSocket new = .ok (.ok ref, s')) :
    ref.id ∉ s.socketTable ∧ s.find new.key = none ∧ ref.id ∈ s.freeSocketIDs ∧
      s' = { s.insertKey new.key ref with
        socketTable := s.socketTable.insert ref.id (new.make ref)
        freeSocketIDs := s.freeSocketIDs.erase ref.id
        serial := s.serial + 1 } := by
  unfold createSocket at h
  split at h
  · cases h
  · unfold getNextSocketId at h
    split at h
    · cases h
    · rename_i id s₁ hnext
      split at hnext
      · rename_i hne
        obtain ⟨hid, rfl⟩ := Prod.mk.inj hnext
        obtain rfl := Except.ok.inj hid
        simp only [insertSocket, Exec.bind_eq_ok, Exec.pure_eq_ok, Exec.assertThat_eq_ok,
          Prod.exists, Prod.mk.injEq, Except.ok.injEq, exists_const] at h
        obtain ⟨_, _, ⟨hnew, hfind, rfl, rfl⟩, rfl, rfl⟩ := h
        have hunused : s.find new.key = none := by
          rw [← hfind]
          cases new.key <;> rfl
        refine ⟨hnew, hunused, Finset.min'_mem _ hne, ?_⟩
        cases new.key <;> rfl
      · cases hnext

/-- The calls that create a socket. -/
def Creates : StackCall M N → Prop
  | .createListenSocket _ | .createNormalSocket _ _ => True
  | .createPassiveConnection .. | .createActiveConnection .. => True
  | .setNormalSocket _ _ | .setListenSocket _ _ _ _ | .reap _ => False

/-- The calls of `createListenSocket_` and `createNormalSocket_` themselves. -/
def CreatesOne : StackCall M N → Prop
  | .createListenSocket _ | .createNormalSocket _ _ => True
  | _ => False

/-- A call that creates a socket does so, returns an error, or was given a dangling reference
to its listener. -/
theorem Consistent.creates (h : Consistent ∅ s) {call : StackCall M N} (hcall : Creates call) :
    s.step call = .error .undefinedBehaviour ∨
      ∃ out s', s.step call = .ok (out, s') ∧ Consistent ∅ s' := by
  cases call with
  | createListenSocket port =>
      obtain ⟨r, s', hcreate, hs', -⟩ := h.createSocket (.listen port)
      exact .inr ⟨_, s', by simp only [step, createListenSocket, hcreate]; rfl, hs'⟩
  | createNormalSocket tuple sock =>
      obtain ⟨r, s', hcreate, hs', -⟩ := h.createSocket (.normal tuple sock)
      exact .inr ⟨_, s', by simp only [step, createNormalSocket, hcreate]; rfl, hs'⟩
  | createPassiveConnection tuple clientISN clientWND listener sendBuf recvBuf isn now =>
      rcases h.createPassiveConnection tuple clientISN clientWND listener sendBuf recvBuf isn now
        with hub | ⟨r, actions, s', hcreate, hs'⟩
      · exact .inl (by simp only [step, hub]; rfl)
      · exact .inr ⟨_, s', by simp only [step, hcreate]; rfl, hs'⟩
  | createActiveConnection tuple sendBuf recvBuf isn now =>
      obtain ⟨r, actions, s', hcreate, hs'⟩ :=
        h.createActiveConnection tuple sendBuf recvBuf isn now
      exact .inr ⟨_, s', by simp only [step, hcreate]; rfl, hs'⟩
  | setNormalSocket => exact hcall.elim
  | setListenSocket => exact hcall.elim
  | reap => exact hcall.elim

theorem Consistent.step (h : Consistent ∅ s) {call : StackCall M N} {out : StackReturn}
    (hstep : s.step call = .ok (out, s')) : Consistent ∅ s' := by
  by_cases hcreates : Creates call
  · rcases h.creates hcreates with hub | ⟨out', s₁, hstep', hs₁⟩
    · rw [hub] at hstep
      cases hstep
    · rw [hstep'] at hstep
      obtain ⟨-, rfl⟩ := Prod.mk.inj (Except.ok.inj hstep)
      exact hs₁
  · cases call with
    | setNormalSocket r sock =>
        simp only [TcpStack.step, Exec.bind_eq_ok, Exec.pure_eq_ok, Prod.mk.injEq] at hstep
        obtain ⟨e, hsock, -, rfl⟩ := hstep
        exact h.setSocket (normalSocket_eq_ok.mp hsock).1 rfl rfl
    | setListenSocket r state pendingSocks acceptQ =>
        simp only [TcpStack.step, Exec.bind_eq_ok, Exec.pure_eq_ok, Prod.mk.injEq] at hstep
        obtain ⟨l, hsock, -, rfl⟩ := hstep
        exact h.setSocket (listenSocket_eq_ok.mp hsock).1 rfl rfl
    | reap now =>
        simp only [TcpStack.step, Exec.bind_eq_ok, Exec.pure_eq_ok, Prod.exists,
          Prod.mk.injEq] at hstep
        obtain ⟨actions, s₁, hreap, -, rfl⟩ := hstep
        exact h.reap hreap
    | _ => exact (hcreates trivial).elim

theorem Consistent.of_run {tr : List (Step M N)} (h : Trace TcpStack.step {} tr s) :
    Consistent ∅ s :=
  (h.invariant (A := fun _ ↦ True) (fun _ ht hI _ ↦ hI.step ht) .init fun _ _ ↦ trivial).1

theorem eq_of_step_error {call : StackCall M N} {out : StackReturn} {e : SocketError}
    (hcall : CreatesOne call) (hstep : s.step call = .ok (out, s'))
    (herror : out.result = some (.error e)) : s' = s := by
  have hcreate : ∀ {new : NewSocket M N} {r : Except SocketError SocketRef},
      s.createSocket new = .ok (r, s') → out = { result := some r } → s' = s := by
    intro new r hnew hout
    obtain rfl : r = .error e := by simpa [hout] using herror
    exact eq_of_createSocket_error hnew
  cases call with
  | createListenSocket port =>
      simp only [step, createListenSocket, Exec.bind_eq_ok, Exec.pure_eq_ok, Prod.exists,
        Prod.mk.injEq] at hstep
      obtain ⟨r, _, hnew, hout, rfl⟩ := hstep
      exact hcreate hnew hout.symm
  | createNormalSocket tuple sock =>
      simp only [step, createNormalSocket, Exec.bind_eq_ok, Exec.pure_eq_ok, Prod.exists,
        Prod.mk.injEq] at hstep
      obtain ⟨r, _, hnew, hout, rfl⟩ := hstep
      exact hcreate hnew hout.symm
  | _ => exact hcall.elim

/-- After every run of calls that create sockets, changes of sockets and passes of the reaper,
the table and the indices are consistent, no call that creates a socket can fail an assertion,
and `createListenSocket_` and `createNormalSocket_` change nothing if they return an error. -/
theorem consistent_of_run {tr : List (Step M N)} (h : Trace step {} tr s) :
    Consistent ∅ s ∧
      (∀ call, Creates call → ∀ msg, s.step call ≠ .error (.assertion msg)) ∧
      ∀ call, CreatesOne call → ∀ out s' e, s.step call = .ok (out, s') →
        out.result = some (.error e) → s' = s := by
  have hs : Consistent ∅ s := .of_run h
  refine ⟨hs, fun call hcall msg hfail ↦ ?_, fun call hcall out s' e ↦ eq_of_step_error hcall⟩
  rcases hs.creates hcall with hub | ⟨out, s', hstep, -⟩
  · rw [hub] at hfail
    cases hfail
  · rw [hstep] at hfail
    cases hfail

/-- A socket that is created and never opened is reaped, and its id is free again. -/
theorem consistent_of_run_reaped :
    ∃ (s : TcpStack 8 8) (tr : List (Step 8 8)), Trace step {} tr s ∧ tr.length = 2 ∧
      s.freeSocketIDs = Finset.Icc 1 128 ∧ Consistent ∅ s ∧
      (∀ call, Creates call → ∀ msg, s.step call ≠ .error (.assertion msg)) ∧
      ∀ call, CreatesOne call → ∀ out s' e, s.step call = .ok (out, s') →
        out.result = some (.error e) → s' = s := by
  let tuple : SessionTuple := ⟨⟨1, 2⟩, ⟨3, 4⟩⟩
  let sock : NormalSocket 8 8 :=
    .createNormalSocket (Vector.replicate 8 0) (Vector.replicate 8 0) 6
  have hcreate : step ({} : TcpStack 8 8) (.createNormalSocket tuple sock) = .ok
      ({ result := some (.ok ⟨1, 0⟩) },
        { socketTable := .singleton 1 (.normal ⟨⟨1, 0⟩, tuple, sock⟩)
          sessionToSocket := .singleton tuple ⟨1, 0⟩
          freeSocketIDs := (Finset.Icc 1 128).erase 1
          serial := 1 }) := by
    simp only [step, createNormalSocket, createSocket, getNextSocketId_of_isLeast isLeast_init]
    rfl
  have hrun : Trace step ({} : TcpStack 8 8) _ _ := .cons hcreate (.cons (l := .reap 0) (by
    simp only [step, reap, Finmap.keys_singleton, Finset.sort_singleton]
    rfl) (.nil _))
  exact ⟨_, _, hrun, rfl, by decide, consistent_of_run hrun⟩

end TcpStack

end Tns.Tcp
