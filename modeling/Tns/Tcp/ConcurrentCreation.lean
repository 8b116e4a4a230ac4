import Mathlib.Logic.Function.Basic
import Tns.Tcp.SocketTable

/-!
# Concurrent creation of sockets

Any number of threads create a socket with the same key, a session tuple or a
port.  Each takes the three sections of `createNormalSocket_` or
`createListenSocket_` in order, and the sections of different threads
interleave.
-/

namespace Tns.Tcp

open Tns.Library

/-- Where a thread is that creates a socket. -/
inductive Creator where
  | idle
  | checked
  | allocated (id : ℕ)
  | returned (r : Except SocketError SocketRef)

/-- The thread is between its duplicate check and its insertion. -/
def Creator.InFlight : Creator → Prop
  | .checked | .allocated _ => True
  | .idle | .returned _ => False

/-- A stack and the threads that create sockets in it. -/
structure Creation (M N : ℕ) where
  stack : TcpStack M N
  threads : ℕ → Creator := fun _ ↦ .idle

namespace Creation

variable {M N : ℕ} {s s' : Creation M N}

def move (s : Creation M N) (k : ℕ) (thread : Creator) (stack : TcpStack M N) : Creation M N :=
  { stack, threads := Function.update s.threads k thread }

@[simp] theorem move_stack (k : ℕ) (thread : Creator) (stack : TcpStack M N) :
    (s.move k thread stack).stack = stack := rfl

@[simp] theorem move_self (k : ℕ) (thread : Creator) (stack : TcpStack M N) :
    (s.move k thread stack).threads k = thread := by simp [move]

theorem move_of_ne {j k : ℕ} (hjk : j ≠ k) (thread : Creator) (stack : TcpStack M N) :
    (s.move k thread stack).threads j = s.threads j := by simp [move, hjk]

/-- The next section of thread `k`, which creates `new k`. -/
def step (new : ℕ → NewSocket M N) (s : Creation M N) (k : ℕ) : Exec (Unit × Creation M N) :=
  match s.threads k with
  | .idle =>
      if (s.stack.find (new k).key).isSome then
        .ok ((), s.move k (.returned (.error .duplicateSocket)) s.stack)
      else
        .ok ((), s.move k .checked s.stack)
  | .checked =>
      match s.stack.getNextSocketId with
      | (.error e, stack) => .ok ((), s.move k (.returned (.error e)) stack)
      | (.ok id, stack) => .ok ((), s.move k (.allocated id) stack)
  | .allocated id => do
      let (ref, stack) ← s.stack.insertSocket id (new k)
      return ((), s.move k (.returned (.ok ref)) stack)
  | .returned _ => .error .blocks

abbrev Step (M N : ℕ) := Transition (Creation M N) ℕ Unit

/-- A thread makes its duplicate check while another one is between its own check and its
insertion. -/
def Overlaps (t : Step M N) : Prop :=
  t.pre.threads t.label = .idle ∧ ∃ k, (t.pre.threads k).InFlight

/-- What concurrent creation is to guarantee. -/
structure Safe (new : ℕ → NewSocket M N) (s : Creation M N) : Prop where
  once : ∀ j k r r', s.threads j = .returned (.ok r) → s.threads k = .returned (.ok r') → j = k
  others : ∀ k e, s.threads k = .returned (.error e) → e = .duplicateSocket
  assertions : ∀ k msg, step new s k ≠ .error (.assertion msg)
  ids : ∀ id ∈ Finset.Icc 1 MAX_SOCKET_FD, id ∈ s.stack.freeSocketIDs ∨
    (∃ sock, s.stack.socketTable.lookup id = some sock ∧
      s.stack.find sock.key = some sock.ref) ∨
    ∃ k, s.threads k = .allocated id

/-- The invariant of threads that do not overlap: at most one is in flight, and then the key
is not registered. -/
structure Excludes (key : SocketKey) (s : Creation M N) : Prop where
  table : ∃ held, TcpStack.Consistent held s.stack ∧
    ∀ id, id ∈ held ↔ ∃ k, s.threads k = .allocated id
  one : ∀ j k, (s.threads j).InFlight → (s.threads k).InFlight → j = k
  absent : ∀ k, (s.threads k).InFlight → s.stack.find key = none
  created : ∀ k r, s.threads k = .returned (.ok r) → s.stack.find key = some r
  once : ∀ j k r r', s.threads j = .returned (.ok r) → s.threads k = .returned (.ok r') → j = k
  others : ∀ k e, s.threads k = .returned (.error e) → e = .duplicateSocket
  free : s.stack.find key = none → (∀ k id, s.threads k ≠ .allocated id) →
    s.stack.freeSocketIDs.Nonempty

namespace Excludes

variable {key : SocketKey} {new : ℕ → NewSocket M N}

theorem safe (h : Excludes key s) (hkey : ∀ k, (new k).key = key) : Safe new s := by
  obtain ⟨held, htable, hheld⟩ := h.table
  refine ⟨h.once, h.others, fun k msg hfail ↦ ?_, fun id hid ↦ ?_⟩
  · unfold step at hfail
    split at hfail
    · split at hfail <;> cases hfail
    · split at hfail <;> cases hfail
    · rename_i id hthread
      have habsent : s.stack.find (new k).key = none := by
        rw [hkey]
        exact h.absent k (by rw [hthread]; trivial)
      obtain ⟨stack, hinsert, -⟩ := htable.insertSocket ((hheld id).mpr ⟨k, hthread⟩) habsent
      rw [hinsert] at hfail
      cases hfail
    · cases hfail
  · rw [← htable.ids, Finset.mem_union, Finset.mem_union, Finmap.mem_keys] at hid
    rcases hid with (hmem | hfree) | hin
    · obtain ⟨sock, hlookup⟩ := Finmap.mem_iff.mp hmem
      have href := htable.ref id sock hlookup
      exact .inr (.inl ⟨sock, hlookup, (htable.find _ _).mpr ⟨sock, href ▸ hlookup, rfl, rfl⟩⟩)
    · exact .inl hfree
    · exact .inr (.inr ((hheld id).mp hin))

/-- What has to be shown of a step of thread `k` that leaves it the only one in flight. -/
theorem move {held : Finset ℕ} {stack : TcpStack M N} {thread : Creator} {k : ℕ}
    (h : Excludes key s) (hothers : ∀ j, j ≠ k → ¬(s.threads j).InFlight)
    (htable : TcpStack.Consistent held stack) (hheld : ∀ id, id ∈ held ↔ thread = .allocated id)
    (habsent : thread.InFlight → stack.find key = none)
    (hcreated : ∀ j r, j ≠ k → s.threads j = .returned (.ok r) →
      stack.find key = some r ∧ ∀ r', thread ≠ .returned (.ok r'))
    (hok : ∀ r, thread = .returned (.ok r) → stack.find key = some r)
    (herror : ∀ e, thread = .returned (.error e) → e = .duplicateSocket)
    (hfree : stack.find key = none → (∀ id, thread ≠ .allocated id) →
      stack.freeSocketIDs.Nonempty) :
    Excludes key (s.move k thread stack) := by
  have hflight : ∀ j, ((s.move k thread stack).threads j).InFlight → j = k := by
    intro j hj
    by_contra hjk
    rw [move_of_ne hjk] at hj
    exact hothers j hjk hj
  refine ⟨⟨held, htable, fun id ↦ ?_⟩, ?_, ?_, ?_, ?_, ?_, ?_⟩
  · rw [hheld]
    constructor
    · intro hthread
      exact ⟨k, by rw [move_self, hthread]⟩
    · rintro ⟨j, hj⟩
      obtain rfl := hflight j (by rw [hj]; trivial)
      rwa [move_self] at hj
  · exact fun i j hi hj ↦ (hflight i hi).trans (hflight j hj).symm
  · intro j hj
    obtain rfl := hflight j hj
    rw [move_self] at hj
    exact habsent hj
  · intro j r hj
    by_cases hjk : j = k
    · rw [hjk, move_self] at hj
      exact hok r hj
    · rw [move_of_ne hjk] at hj
      exact (hcreated j r hjk hj).1
  · intro i j r r' hi hj
    by_cases hik : i = k <;> by_cases hjk : j = k
    · rw [hik, hjk]
    · rw [hik, move_self] at hi
      rw [move_of_ne hjk] at hj
      exact absurd hi ((hcreated j r' hjk hj).2 r)
    · rw [move_of_ne hik] at hi
      rw [hjk, move_self] at hj
      exact absurd hj ((hcreated i r hik hi).2 r')
    · rw [move_of_ne hik] at hi
      rw [move_of_ne hjk] at hj
      exact h.once i j r r' hi hj
  · intro j e hj
    by_cases hjk : j = k
    · rw [hjk, move_self] at hj
      exact herror e hj
    · rw [move_of_ne hjk] at hj
      exact h.others j e hj
  · intro hnone hno
    exact hfree hnone fun id hthread ↦ hno k id (by rw [move_self, hthread])

/-- If no other thread is in flight, the ids held are those of the thread itself. -/
theorem consistent {k : ℕ} (h : Excludes key s) (hothers : ∀ j, j ≠ k → ¬(s.threads j).InFlight) :
    ∃ held, TcpStack.Consistent held s.stack ∧ ∀ id, id ∈ held ↔ s.threads k = .allocated id := by
  obtain ⟨held, htable, hheld⟩ := h.table
  refine ⟨held, htable, fun id ↦ ⟨fun hid ↦ ?_, fun hk ↦ (hheld id).mpr ⟨k, hk⟩⟩⟩
  obtain ⟨j, hj⟩ := (hheld id).mp hid
  by_cases hjk : j = k
  · rwa [hjk] at hj
  · exact absurd (by rw [hj]; trivial) (hothers j hjk)

/-- A step that does not overlap is one of a thread that is in flight alone or begins alone. -/
theorem alone {t : Step M N} (hfires : Fires (Creation.step new) t) (h : Excludes key t.pre)
    (hno : ¬Overlaps t) : ∀ j, j ≠ t.label → ¬(t.pre.threads j).InFlight := by
  obtain ⟨s, k, out, s'⟩ := t
  simp only [Fires] at hfires h ⊢
  intro j hjk hj
  cases hthread : s.threads k with
  | idle => exact hno ⟨hthread, j, hj⟩
  | checked => exact hjk (h.one j k hj (by rw [hthread]; trivial))
  | allocated id => exact hjk (h.one j k hj (by rw [hthread]; trivial))
  | returned r => simp [Creation.step, hthread] at hfires

/-- A thread that has no id yet finds one. -/
theorem nonempty_free {k : ℕ} (h : Excludes key s) (hothers : ∀ j, j ≠ k → ¬(s.threads j).InFlight)
    (hnone : s.stack.find key = none) (hthread : ∀ id, s.threads k ≠ .allocated id) :
    s.stack.freeSocketIDs.Nonempty := by
  apply h.free hnone
  intro j id hj
  by_cases hjk : j = k
  · exact hthread id (hjk ▸ hj)
  · exact hothers j hjk (by rw [hj]; trivial)

theorem step {t : Step M N} (hfires : Fires (step new) t) (h : Excludes key t.pre)
    (hkey : ∀ k, (new k).key = key) (hno : ¬Overlaps t) : Excludes key t.post := by
  have hothers := h.alone hfires hno
  obtain ⟨s, k, out, s'⟩ := t
  simp only [Fires] at hfires h hothers
  obtain ⟨held, htable, hheld⟩ := h.consistent hothers
  have hcreated := fun j r (_ : j ≠ k) ↦ h.created j r
  unfold Creation.step at hfires
  split at hfires
  · rename_i hthread
    simp only [hthread, reduceCtorEq, iff_false] at hheld
    rw [hkey] at hfires
    split at hfires <;> rename_i hfound <;> obtain ⟨-, rfl⟩ := Prod.mk.inj (Except.ok.inj hfires)
    · -- The key is registered.
      refine h.move hothers htable (by simpa using hheld) (fun hin ↦ hin.elim) ?_ (by simp) ?_ ?_
      · exact fun j r hjk hj ↦ ⟨hcreated j r hjk hj, (by simp)⟩
      · rintro e he
        cases he
        rfl
      · intro hnone
        rw [hnone] at hfound
        cases hfound
    · rw [Option.not_isSome_iff_eq_none] at hfound
      refine h.move hothers htable (by simpa using hheld) (fun _ ↦ hfound) ?_ (by simp) (by simp) ?_
      · exact fun j r hjk hj ↦ ⟨hcreated j r hjk hj, (by simp)⟩
      · intro hnone _
        exact h.nonempty_free hothers hnone (by simp [hthread])
  · rename_i hthread
    have habsent : s.stack.find key = none := h.absent k (by rw [hthread]; trivial)
    have hfree := h.nonempty_free hothers habsent (by simp [hthread])
    simp only [hthread, reduceCtorEq, iff_false] at hheld
    split at hfires
    · rename_i hnext
      simp only [TcpStack.getNextSocketId, hfree, dif_pos, Prod.mk.injEq, reduceCtorEq,
        false_and] at hnext
    · rename_i id stack hnext
      obtain ⟨-, rfl⟩ := Prod.mk.inj (Except.ok.inj hfires)
      obtain ⟨-, htable', hfind⟩ := htable.getNextSocketId hnext
      refine h.move hothers htable' ?_ (fun _ ↦ (hfind key).trans habsent) ?_ (by simp) (by simp) ?_
      · intro i
        simp [hheld, eq_comm]
      · exact fun j r hjk hj ↦ ⟨(hfind key).trans (hcreated j r hjk hj), (by simp)⟩
      · exact fun _ hno ↦ absurd rfl (hno id)
  · -- The thread holds an id, and the key is still not registered.
    rename_i id hthread
    have habsent : s.stack.find key = none := h.absent k (by rw [hthread]; trivial)
    obtain ⟨stack, hinsert, htable', hfind, -⟩ :=
      htable.insertSocket ((hheld id).mpr hthread) ((hkey k).symm ▸ habsent)
    rw [hkey] at hfind
    simp only [hinsert, Exec.ok_bind, Exec.pure_eq_ok, Prod.mk.injEq, true_and] at hfires
    subst hfires
    refine h.move hothers htable' ?_ (fun hin ↦ hin.elim) ?_ ?_ (by simp) ?_
    · intro i
      simp [hheld, hthread, eq_comm]
    · intro j r hjk hj
      rw [hcreated j r hjk hj] at habsent
      cases habsent
    · rintro r hr
      cases hr
      exact hfind
    · intro hnone
      rw [hfind] at hnone
      cases hnone
  · cases hfires

end Excludes

/-- No thread has begun, and the key is registered or there is an id left for it. -/
structure Begins (key : SocketKey) (s : Creation M N) : Prop where
  table : TcpStack.Consistent ∅ s.stack
  idle : ∀ k, s.threads k = .idle
  free : s.stack.find key = none → s.stack.freeSocketIDs.Nonempty

theorem Begins.excludes {key : SocketKey} (h : Begins key s) : Excludes key s := by
  refine ⟨⟨∅, h.table, by simp [h.idle]⟩, ?_, ?_, ?_, ?_, ?_, fun hnone _ ↦ h.free hnone⟩ <;>
    simp [h.idle, Creator.InFlight]

/-- In every run of threads that create a socket with the same key, concurrent creation is safe
if no thread makes its duplicate check while another is between its check and its insertion. -/
theorem safe_of_run {key : SocketKey} {new : ℕ → NewSocket M N} (hkey : ∀ k, (new k).key = key)
    (hbegin : Begins key s) {tr : List (Step M N)} (h : Trace (step new) s tr s')
    (hno : ∀ t ∈ tr, ¬Overlaps t) : Safe new s' ∧ ∀ t ∈ tr, Safe new t.pre ∧ Safe new t.post := by
  obtain ⟨hend, hall⟩ := h.invariant (I := Excludes key)
    (fun t hfires hI hA ↦ hI.step hfires hkey hA) hbegin.excludes hno
  exact ⟨hend.safe hkey, fun t ht ↦ ⟨(hall t ht).1.safe hkey, (hall t ht).2.safe hkey⟩⟩

/-- The second of two threads makes its duplicate check when the first has inserted its socket,
and is refused. -/
theorem safe_of_run_refused :
    ∃ (key : SocketKey) (new : ℕ → NewSocket 8 8) (s s' : Creation 8 8) (tr : List (Step 8 8)),
      (∀ k, (new k).key = key) ∧ Begins key s ∧ Trace (step new) s tr s' ∧
        s'.threads 0 = .returned (.ok ⟨1, 0⟩) ∧
        s'.threads 1 = .returned (.error .duplicateSocket) ∧
        (Safe new s' ∧ ∀ t ∈ tr, Safe new t.pre ∧ Safe new t.post) := by
  have hbegin : Begins (.listen 80) ({ stack := {} } : Creation 8 8) :=
    ⟨.init, fun _ ↦ rfl, fun _ ↦ ⟨1, TcpStack.isLeast_init.1⟩⟩
  have hnext : TcpStack.getNextSocketId ({} : TcpStack 8 8) = _ :=
    TcpStack.getNextSocketId_of_isLeast TcpStack.isLeast_init
  have hrun : Trace (step fun _ ↦ (.listen 80 : NewSocket 8 8)) { stack := {} } _ _ :=
    .cons (l := 0) rfl (.cons (l := 0) (by
      simp only [step, move_self, move_stack, hnext]
      rfl) (.cons (l := 0) rfl (.cons (l := 1) rfl (.nil _))))
  have hkey : ∀ k, ((fun _ ↦ .listen 80 : ℕ → NewSocket 8 8) k).key = .listen 80 := fun _ ↦ rfl
  refine ⟨_, _, _, _, _, hkey, hbegin, hrun, rfl, rfl, safe_of_run hkey hbegin hrun ?_⟩
  simp only [List.forall_mem_cons, List.not_mem_nil, false_imp_iff, implies_true, and_true]
  refine ⟨?_, ?_, ?_, ?_⟩
  · rintro ⟨-, k, hk⟩
    exact hk
  · rintro ⟨hidle, -⟩
    cases hidle
  · rintro ⟨hidle, -⟩
    cases hidle
  · rintro ⟨-, k, hk⟩
    by_cases hzero : k = 0
    · subst hzero
      exact hk
    · simp [move, hzero, Creator.InFlight] at hk

/-- Two threads pass the duplicate check, and the second insertion fails its assertion. -/
theorem not_safe :
    ∃ (key : SocketKey) (new : ℕ → NewSocket 8 8) (s s' : Creation 8 8) (tr : List (Step 8 8)),
      (∀ k, (new k).key = key) ∧ Begins key s ∧ Trace (step new) s tr s' ∧
        step new s' 1 = .error (.assertion "ok2") ∧ ¬Safe new s' := by
  have hbegin : Begins (.listen 80) ({ stack := {} } : Creation 8 8) :=
    ⟨.init, fun _ ↦ rfl, fun _ ↦ ⟨1, TcpStack.isLeast_init.1⟩⟩
  have hnext : TcpStack.getNextSocketId ({} : TcpStack 8 8) = _ :=
    TcpStack.getNextSocketId_of_isLeast TcpStack.isLeast_init
  have hnext₂ : TcpStack.getNextSocketId
      ({ freeSocketIDs := ({} : TcpStack 8 8).freeSocketIDs.erase 1 } : TcpStack 8 8) = _ :=
    TcpStack.getNextSocketId_of_isLeast TcpStack.isLeast_two
  have hrun : Trace (step fun _ ↦ (.listen 80 : NewSocket 8 8)) { stack := {} } _ _ :=
    .cons (l := 0) rfl (.cons (l := 1) rfl (.cons (l := 0) (by
      simp only [step, move_stack, hnext]
      rfl) (.cons (l := 1) (by
      simp only [step, move_stack, hnext₂]
      rfl) (.cons (l := 0) rfl (.nil _)))))
  refine ⟨.listen 80, fun _ ↦ .listen 80, _, _, _, fun _ ↦ rfl, hbegin, hrun, ?_⟩
  exact (and_iff_left_of_imp fun hfail hsafe ↦ hsafe.assertions 1 _ hfail).mpr rfl

end Creation

end Tns.Tcp
