import Tns.Library.Trace
import Tns.Library.Waiters
import Tns.Util

/-!
# The thread pool of a node

The threads of the interfaces enqueue the datagrams that arrive, and the workers
of the pool handle them.  A section under `tasksMutex` is one step; between
steps any thread may be next.  A notification is sent after the section that
pushes the task, and a sleeping worker may wake up without one.  The destructor
destroys the queue, the mutex and the condition variable before it joins the
workers, whose member comes first in the class.
-/

namespace Tns

open Library

/-- Where a worker is in `workerFunction`. -/
inductive Worker (Task : Type) where
  /-- At `while (!stop)`. -/
  | loop
  /-- Awake, and about to take the lock and look at the predicate of `cv.wait`. -/
  | lock
  /-- Asleep in `cv.wait`. -/
  | wait
  | run (task : Task)
  | returned

namespace Worker

variable {Task : Type}

def isAsleep : Worker Task → Bool
  | .wait => true
  | .loop | .lock | .run _ | .returned => false

def wakeUp : Worker Task → Worker Task
  | .wait => .lock
  | w => w

/-- The worker will look at the queue next, unless the pool is stopped. -/
def heading : Worker Task → ℕ
  | .loop | .lock => 1
  | .wait | .run _ | .returned => 0

def sleeping : Worker Task → ℕ
  | .wait => 1
  | .loop | .lock | .run _ | .returned => 0

end Worker

/-- `ThreadPool`. -/
structure ThreadPool (Task : Type) where
  workers : List (Worker Task)
  tasks : List Task := []
  stop : Bool := false
  /-- The calls of `enqueueTask` that have not notified yet. -/
  notifying : ℕ := 0
  /-- The destructor has called `notify_all`. -/
  notified : Bool := false
  /-- The members behind `workers` are destroyed. -/
  destroyed : Bool := false

namespace ThreadPool

variable {Task : Type}

/-- One section of a thread.  Workers are named by their position. -/
inductive Call (Task : Type) where
  /-- `enqueueTask`, up to the end of its section. -/
  | enqueueTask (task : Task)
  /-- Its `notify_one`, which wakes a sleeping worker if there is one. -/
  | notifyOne (woken : Option ℕ)
  /-- The section of the destructor. -/
  | setStop
  | notifyAll
  /-- The end of the members behind `workers`. -/
  | destroy
  | testStop (i : ℕ)
  /-- The section of `workerFunction`, or the rest of it for a worker that has been woken. -/
  | getTask (i : ℕ)
  | wakeUp (i : ℕ)
  | finishTask (i : ℕ)

/-- A worker that handles a task uses no member of the pool. -/
def Call.usesMembers : Call Task → Bool
  | .finishTask _ => false
  | _ => true

/-- The constructor. -/
def make (Task : Type) (numThreads : ℕ) : ThreadPool Task where
  workers := List.replicate numThreads .loop

def move (s : ThreadPool Task) (i : ℕ) (w : Worker Task) : ThreadPool Task :=
  { s with workers := s.workers.set i w }

/-- One section, and the task that it starts. -/
def perform (s : ThreadPool Task) : Call Task → Exec (Option Task × ThreadPool Task)
  | .enqueueTask task =>
      .ok (none, { s with tasks := s.tasks ++ [task], notifying := s.notifying + 1 })
  | .notifyOne woken =>
      if s.notifying = 0 then .error .blocks
      else
        match woken with
        | some i =>
            match s.workers[i]? with
            | some .wait => .ok (none, { s.move i .lock with notifying := s.notifying - 1 })
            | _ => .error .blocks
        | none =>
            if s.workers.any Worker.isAsleep then .error .blocks
            else .ok (none, { s with notifying := s.notifying - 1 })
  | .setStop => .ok (none, { s with stop := true })
  | .notifyAll =>
      if s.stop then
        .ok (none, { s with workers := s.workers.map Worker.wakeUp, notified := true })
      else .error .blocks
  | .destroy =>
      if s.stop ∧ s.notified then .ok (none, { s with tasks := [], destroyed := true })
      else .error .blocks
  | .testStop i =>
      match s.workers[i]? with
      | some .loop => .ok (none, s.move i (if s.stop then .returned else .lock))
      | _ => .error .blocks
  | .getTask i =>
      match s.workers[i]? with
      | some .lock =>
          match s.tasks with
          | [] => .ok (none, s.move i (if s.stop then .returned else .wait))
          | task :: tasks => .ok (some task, { s.move i (.run task) with tasks })
      | _ => .error .blocks
  | .wakeUp i =>
      match s.workers[i]? with
      | some .wait => .ok (none, s.move i .lock)
      | _ => .error .blocks
  | .finishTask i =>
      match s.workers[i]? with
      | some (.run _) => .ok (none, s.move i .loop)
      | _ => .error .blocks

def step (s : ThreadPool Task) (call : Call Task) : Exec (Option Task × ThreadPool Task) :=
  match s.perform call with
  | .error e => .error e
  | .ok result =>
      if s.destroyed ∧ call.usesMembers then .error .undefinedBehaviour else .ok result

abbrev Step (Task : Type) := Transition (ThreadPool Task) (Call Task) (Option Task)

/-- What a step does to the pool. -/
inductive Does (s : ThreadPool Task) : Call Task → Option Task → ThreadPool Task → Prop
  | enqueueTask (task : Task) : Does s (.enqueueTask task) none
      { s with tasks := s.tasks ++ [task], notifying := s.notifying + 1 }
  | notifyOne {i : ℕ} (hpending : 0 < s.notifying) (hwait : s.workers[i]? = some .wait) :
      Does s (.notifyOne (some i)) none { s.move i .lock with notifying := s.notifying - 1 }
  | notifyNobody (hpending : 0 < s.notifying) (hawake : ∀ w ∈ s.workers, w.isAsleep = false) :
      Does s (.notifyOne none) none { s with notifying := s.notifying - 1 }
  | setStop : Does s .setStop none { s with stop := true }
  | notifyAll (hstop : s.stop = true) : Does s .notifyAll none
      { s with workers := s.workers.map Worker.wakeUp, notified := true }
  | destroy (hstop : s.stop = true) : Does s .destroy none { s with tasks := [], destroyed := true }
  | leave {i : ℕ} (hloop : s.workers[i]? = some .loop) (hstop : s.stop = true) :
      Does s (.testStop i) none (s.move i .returned)
  | enter {i : ℕ} (hloop : s.workers[i]? = some .loop) (hstop : s.stop = false) :
      Does s (.testStop i) none (s.move i .lock)
  | start {i : ℕ} {task : Task} {tasks : List Task} (hlock : s.workers[i]? = some .lock)
      (htasks : s.tasks = task :: tasks) :
      Does s (.getTask i) (some task) { s.move i (.run task) with tasks }
  | quit {i : ℕ} (hlock : s.workers[i]? = some .lock) (htasks : s.tasks = [])
      (hstop : s.stop = true) : Does s (.getTask i) none (s.move i .returned)
  | sleep {i : ℕ} (hlock : s.workers[i]? = some .lock) (htasks : s.tasks = [])
      (hstop : s.stop = false) : Does s (.getTask i) none (s.move i .wait)
  | wakeUp {i : ℕ} (hwait : s.workers[i]? = some .wait) : Does s (.wakeUp i) none (s.move i .lock)
  | finishTask {i : ℕ} {task : Task} (hrun : s.workers[i]? = some (.run task)) :
      Does s (.finishTask i) none (s.move i .loop)

variable {s s' : ThreadPool Task} {call : Call Task} {out : Option Task}

theorem does_of_perform (h : s.perform call = .ok (out, s')) : Does s call out s' := by
  cases call with
  | enqueueTask task =>
      obtain ⟨rfl, rfl⟩ := Prod.mk.inj (Except.ok.inj h)
      exact .enqueueTask task
  | notifyOne woken =>
      simp only [perform] at h
      split at h
      · cases h
      · rename_i hpending
        cases woken with
        | some i =>
            simp only at h
            split at h
            · rename_i hwait
              obtain ⟨rfl, rfl⟩ := Prod.mk.inj (Except.ok.inj h)
              exact .notifyOne (Nat.pos_of_ne_zero hpending) hwait
            · cases h
        | none =>
            simp only at h
            split at h
            · cases h
            · rename_i hawake
              obtain ⟨rfl, rfl⟩ := Prod.mk.inj (Except.ok.inj h)
              refine .notifyNobody (Nat.pos_of_ne_zero hpending) ?_
              intro w hw
              by_contra hasleep
              exact hawake (List.any_eq_true.mpr ⟨w, hw, by simpa using hasleep⟩)
  | setStop =>
      obtain ⟨rfl, rfl⟩ := Prod.mk.inj (Except.ok.inj h)
      exact .setStop
  | notifyAll =>
      simp only [perform] at h
      split at h
      · rename_i hstop
        obtain ⟨rfl, rfl⟩ := Prod.mk.inj (Except.ok.inj h)
        exact .notifyAll hstop
      · cases h
  | destroy =>
      simp only [perform] at h
      split at h
      · rename_i hstop
        obtain ⟨rfl, rfl⟩ := Prod.mk.inj (Except.ok.inj h)
        exact .destroy hstop.1
      · cases h
  | testStop i =>
      simp only [perform] at h
      split at h
      · rename_i hloop
        obtain ⟨rfl, rfl⟩ := Prod.mk.inj (Except.ok.inj h)
        cases hstop : s.stop with
        | true => exact .leave hloop hstop
        | false => exact .enter hloop hstop
      · cases h
  | getTask i =>
      simp only [perform] at h
      split at h
      · rename_i hlock
        split at h
        · rename_i htasks
          obtain ⟨rfl, rfl⟩ := Prod.mk.inj (Except.ok.inj h)
          cases hstop : s.stop with
          | true => exact .quit hlock htasks hstop
          | false => exact .sleep hlock htasks hstop
        · rename_i htasks
          obtain ⟨rfl, rfl⟩ := Prod.mk.inj (Except.ok.inj h)
          exact .start hlock htasks
      · cases h
  | wakeUp i =>
      simp only [perform] at h
      split at h
      · rename_i hwait
        obtain ⟨rfl, rfl⟩ := Prod.mk.inj (Except.ok.inj h)
        exact .wakeUp hwait
      · cases h
  | finishTask i =>
      simp only [perform] at h
      split at h
      · rename_i hrun
        obtain ⟨rfl, rfl⟩ := Prod.mk.inj (Except.ok.inj h)
        exact .finishTask hrun
      · cases h

theorem does_of_step {t : Step Task} (h : Fires step t) : Does t.pre t.label t.out t.post := by
  rw [Fires, step] at h
  split at h
  · cases h
  · rename_i result hperform
    split at h
    · cases h
    · obtain rfl := Except.ok.inj h
      exact does_of_perform hperform

/-! ## What is started -/

def Call.enqueued? : Call Task → Option Task
  | .enqueueTask task => some task
  | _ => none

/-- The tasks that a run enqueues, and those that it starts. -/
def enqueued (tr : List (Step Task)) : List Task := tr.filterMap fun t ↦ t.label.enqueued?
def started (tr : List (Step Task)) : List Task := tr.filterMap fun t ↦ t.out

theorem Does.tasks (h : Does s call out s') (hdestroyed : s'.destroyed = false) :
    out.toList ++ s'.tasks = s.tasks ++ call.enqueued?.toList := by
  cases h with
  | enqueueTask task => rfl
  | start hlock htasks => simp [htasks, Call.enqueued?]
  | destroy => cases hdestroyed
  | _ => simp [Call.enqueued?, move]

theorem Does.destroyed_mono (h : Does s call out s') (hdestroyed : s.destroyed = true) :
    s'.destroyed = true := by
  cases h with
  | destroy => rfl
  | _ => exact hdestroyed

theorem destroyed_mono {tr : List (Step Task)} (h : Trace step s tr s')
    (hdestroyed : s.destroyed = true) : s'.destroyed = true :=
  (h.invariant (I := fun s ↦ s.destroyed = true) (A := fun _ ↦ True)
    (fun _ hfires hpre _ ↦ (does_of_step hfires).destroyed_mono hpre) hdestroyed
    fun _ _ ↦ trivial).1

/-- As long as there is a queue, what has been started, in the order of the starts, and what is
still queued are the enqueued tasks in their order. -/
theorem started_append_tasks {tr : List (Step Task)} (h : Trace step s tr s')
    (hdestroyed : s'.destroyed = false) : started tr ++ s'.tasks = s.tasks ++ enqueued tr := by
  induction h with
  | nil => simp [started, enqueued]
  | @cons s s₁ s₂ call out tr head tail ih =>
      have hqueue : s₁.destroyed = false := by
        by_contra hgone
        exact absurd (destroyed_mono tail (by simpa using hgone)) (by simp [hdestroyed])
      have hhead := (does_of_step (t := ⟨s, call, out, s₁⟩) head).tasks hqueue
      have hstarted : started (⟨s, call, out, s₁⟩ :: tr) = out.toList ++ started tr := by
        cases out <;> simp [started]
      have henqueued : enqueued (⟨s, call, out, s₁⟩ :: tr) =
          call.enqueued?.toList ++ enqueued tr := by
        cases hcall : call.enqueued? <;> simp [enqueued, hcall]
      rw [hstarted, henqueued, List.append_assoc, ih hdestroyed, ← List.append_assoc, hhead,
        List.append_assoc]

/-! ## No lost wakeup -/

def waiters (s : ThreadPool Task) : Waiters where
  supply := s.tasks.length
  notices := s.notifying
  ready := total Worker.heading s.workers
  asleep := total Worker.sleeping s.workers

theorem waiters_move {i : ℕ} {w : Worker Task} (h : s.workers[i]? = some w) :
    ∃ ready asleep,
      s.waiters = ⟨s.tasks.length, s.notifying, ready + w.heading, asleep + w.sleeping⟩ ∧
        ∀ (w' : Worker Task) (s' : ThreadPool Task), s'.workers = s.workers.set i w' →
          s'.waiters =
            ⟨s'.tasks.length, s'.notifying, ready + w'.heading, asleep + w'.sleeping⟩ := by
  obtain ⟨ready, hready, hready'⟩ := exists_rest Worker.heading h
  obtain ⟨asleep, hasleep, hasleep'⟩ := exists_rest Worker.sleeping h
  refine ⟨ready, asleep, ?_, fun w' s' hs' ↦ ?_⟩
  · rw [waiters, hready, hasleep]
  · rw [waiters, hs', hready', hasleep']

theorem asleep_eq_zero (h : ∀ w ∈ s.workers, w.isAsleep = false) : s.waiters.asleep = 0 := by
  by_contra hpos
  obtain ⟨w, hw, hasleep⟩ := exists_of_total_pos (Nat.pos_of_ne_zero hpos)
  cases w with
  | wait => cases h _ hw
  | _ => exact absurd hasleep (Nat.lt_irrefl 0)

/-- Until the pool is stopped, its steps are moves of threads around a supply of tasks. -/
theorem Does.move (h : Does s call out s') (hstop : s'.stop = false) :
    Waiters.Move s.waiters s'.waiters := by
  cases h with
  | enqueueTask task =>
      have hadd := Waiters.Move.add s.waiters
      simpa only [waiters, List.length_append, List.length_singleton] using hadd
  | @notifyOne i hpending hwait =>
      obtain ⟨ready, asleep, hpre, hpost⟩ := waiters_move hwait
      obtain ⟨n, hn⟩ := Nat.exists_eq_add_one.mpr hpending
      rw [hpre, hpost .lock _ rfl]
      simp only [hn]
      exact .notify _ n ready asleep
  | notifyNobody hpending hawake =>
      obtain ⟨n, hn⟩ := Nat.exists_eq_add_one.mpr hpending
      have hzero : total Worker.sleeping s.workers = 0 := asleep_eq_zero hawake
      simp only [waiters, hn, hzero]
      exact .unheard _ n _
  | setStop => cases hstop
  | notifyAll hstopped => exact absurd (hstopped.symm.trans hstop) (by decide)
  | destroy hstopped => exact absurd (hstopped.symm.trans hstop) (by decide)
  | leave _ hstopped => exact absurd (hstopped.symm.trans hstop) (by decide)
  | enter hloop _ =>
      obtain ⟨ready, asleep, hpre, hpost⟩ := waiters_move hloop
      rw [hpre, hpost .lock _ rfl]
      exact .stay _
  | @start i task tasks hlock htasks =>
      obtain ⟨ready, asleep, hpre, hpost⟩ := waiters_move hlock
      rw [hpre, hpost (.run task) _ rfl, htasks]
      exact .take tasks.length _ ready asleep
  | quit _ _ hstopped => exact absurd (hstopped.symm.trans hstop) (by decide)
  | sleep hlock htasks _ =>
      obtain ⟨ready, asleep, hpre, hpost⟩ := waiters_move hlock
      rw [hpre, hpost .wait _ rfl]
      simp only [ThreadPool.move, htasks]
      exact .sleep _ ready asleep
  | wakeUp hwait =>
      obtain ⟨ready, asleep, hpre, hpost⟩ := waiters_move hwait
      rw [hpre, hpost .lock _ rfl]
      exact .wake _ _ ready asleep
  | finishTask hrun =>
      obtain ⟨ready, asleep, hpre, hpost⟩ := waiters_move hrun
      rw [hpre, hpost .loop _ rfl]
      exact .back _ _ ready asleep

theorem Does.stop_mono (h : Does s call out s') (hstop : s.stop = true) : s'.stop = true := by
  cases h with
  | setStop => rfl
  | _ => exact hstop

theorem waiters_make (numThreads : ℕ) : (make Task numThreads).waiters.asleep = 0 := by
  apply asleep_eq_zero
  intro w hw
  obtain rfl := List.eq_of_mem_replicate hw
  rfl

theorem served_of_run {numThreads : ℕ} {tr : List (Step Task)}
    (h : Trace step (make Task numThreads) tr s) (hstop : s.stop = false) :
    s.waiters.Served := by
  have hmake : (make Task numThreads).waiters.Served := by
    intro hpos
    rw [waiters_make] at hpos
    exact absurd hpos (Nat.lt_irrefl 0)
  have hkeep : ∀ t : Step Task, Fires step t →
      (t.pre.stop = false → t.pre.waiters.Served) → True →
        t.post.stop = false → t.post.waiters.Served := by
    intro t hfires hpre _ hpost
    have hdoes := does_of_step hfires
    have hstop' : t.pre.stop = false := by
      by_contra hstopped
      exact absurd (hdoes.stop_mono (by simpa using hstopped)) (by simp [hpost])
    exact (hdoes.move hpost).served (hpre hstop')
  obtain ⟨hserved, -⟩ := h.invariant (I := fun s ↦ s.stop = false → s.waiters.Served) hkeep
    (fun _ ↦ hmake) fun _ _ ↦ trivial
  exact hserved hstop

/-- In every state that a pool reaches before it is stopped: while a worker sleeps, there is for
every queued task a notification on its way or a worker that is about to look at the queue.  A
task that never ends does not hold up the others. -/
theorem no_lost_wakeup {numThreads : ℕ} {tr : List (Step Task)}
    (h : Trace step (make Task numThreads) tr s) (hstop : s.stop = false)
    (hasleep : 0 < total Worker.sleeping s.workers) :
    s.tasks.length ≤ s.notifying + total Worker.heading s.workers :=
  served_of_run h hstop hasleep

/-- A worker sleeps, a task is pushed, and its notification is still to come. -/
theorem no_lost_wakeup_sleeping : ∃ (s : ThreadPool ℕ) (tr : List (Step ℕ)),
    Trace step (make ℕ 2) tr s ∧ s.tasks = [7] ∧ 0 < total Worker.sleeping s.workers ∧
      s.tasks.length ≤ s.notifying + total Worker.heading s.workers := by
  have hrun : Trace step (make ℕ 2) _ _ :=
    .cons (l := .testStop 0) rfl (.cons (l := .testStop 1) rfl (.cons (l := .getTask 0) rfl
      (.cons (l := .getTask 1) rfl (.cons (l := .enqueueTask 7) rfl (.nil _)))))
  exact ⟨_, _, hrun, rfl, by decide, no_lost_wakeup hrun rfl (by decide)⟩

theorem Does.stop_of_destroyed (h : Does s call out s')
    (hs : s.destroyed = true → s.stop = true) : s'.destroyed = true → s'.stop = true := by
  intro hdestroyed
  cases h with
  | setStop => rfl
  | destroy hstop => exact hstop
  | _ => exact hs hdestroyed

/-- A pool that is not stopped still has its queue. -/
theorem destroyed_eq_false {numThreads : ℕ} {tr : List (Step Task)}
    (h : Trace step (make Task numThreads) tr s) (hstop : s.stop = false) :
    s.destroyed = false := by
  obtain ⟨hend, -⟩ := h.invariant (I := fun s ↦ s.destroyed = true → s.stop = true)
    (A := fun _ ↦ True) (fun _ hfires hpre _ ↦ (does_of_step hfires).stop_of_destroyed hpre)
    (fun hdestroyed ↦ by cases hdestroyed) fun _ _ ↦ trivial
  by_contra hdestroyed
  exact absurd (hend (by simpa using hdestroyed)) (by simp [hstop])

/-- A pool that rests has nothing left to do: while a worker sleeps, no notification is on its way
and no worker is about to look at the queue, all tasks have been started, in their order. -/
theorem started_of_rest {numThreads : ℕ} {tr : List (Step Task)}
    (h : Trace step (make Task numThreads) tr s) (hstop : s.stop = false)
    (hasleep : 0 < total Worker.sleeping s.workers) (hnotifying : s.notifying = 0)
    (hheading : total Worker.heading s.workers = 0) : started tr = enqueued tr := by
  have hserved : s.tasks.length ≤ s.notifying + total Worker.heading s.workers :=
    served_of_run h hstop hasleep
  have htasks : s.tasks = [] := List.length_eq_zero_iff.mp (by omega)
  have hall := started_append_tasks h (destroyed_eq_false h hstop)
  rwa [htasks, List.append_nil] at hall

/-- One of two workers handles a task, and the other one sleeps. -/
theorem started_of_rest_two : ∃ (s : ThreadPool ℕ) (tr : List (Step ℕ)),
    Trace step (make ℕ 2) tr s ∧ s.workers = [.run 7, .wait] ∧ enqueued tr = [7] ∧
      started tr = enqueued tr := by
  have hrun : Trace step (make ℕ 2) _ _ :=
    .cons (l := .testStop 0) rfl (.cons (l := .testStop 1) rfl (.cons (l := .getTask 0) rfl
      (.cons (l := .getTask 1) rfl (.cons (l := .enqueueTask 7) rfl
        (.cons (l := .notifyOne (some 0)) rfl (.cons (l := .getTask 0) rfl (.nil _)))))))
  exact ⟨_, _, hrun, rfl, rfl, started_of_rest hrun rfl (by decide) rfl rfl⟩

/-! ## Shutting down -/

def Call.worker? : Call Task → Option ℕ
  | .testStop i | .getTask i | .wakeUp i | .finishTask i => some i
  | .enqueueTask _ | .notifyOne _ | .setStop | .notifyAll | .destroy => none

/-- What a step of a worker of a stopped pool makes of the worker. -/
inductive Leaves : Worker Task → Option Task → Worker Task → Prop
  | loop : Leaves .loop none .returned
  | start (task : Task) : Leaves .lock (some task) (.run task)
  | quit : Leaves .lock none .returned
  | wakeUp : Leaves .wait none .lock
  | finishTask (task : Task) : Leaves (.run task) none .loop

/-- In a stopped pool, no step sends a worker to sleep. -/
theorem Does.cases_stopped (h : Does s call out s') (hstop : s.stop = true) :
    (∃ i w w', call.worker? = some i ∧ s.workers[i]? = some w ∧ Leaves w out w' ∧
        s'.workers = s.workers.set i w') ∨
      call.worker? = none ∧ (s'.workers = s.workers ∨
        s'.workers = s.workers.map Worker.wakeUp ∨
        ∃ i, s.workers[i]? = some .wait ∧ s'.workers = s.workers.set i .lock) := by
  have hrunning : ¬s.stop = false := by simp [hstop]
  cases h with
  | enqueueTask => exact .inr ⟨rfl, .inl rfl⟩
  | notifyOne _ hwait => exact .inr ⟨rfl, .inr (.inr ⟨_, hwait, rfl⟩)⟩
  | notifyNobody => exact .inr ⟨rfl, .inl rfl⟩
  | setStop => exact .inr ⟨rfl, .inl rfl⟩
  | notifyAll => exact .inr ⟨rfl, .inr (.inl rfl)⟩
  | destroy => exact .inr ⟨rfl, .inl rfl⟩
  | leave hloop => exact .inl ⟨_, _, _, rfl, hloop, .loop, rfl⟩
  | enter _ hstopped => exact absurd hstopped hrunning
  | start hlock => exact .inl ⟨_, _, _, rfl, hlock, .start _, rfl⟩
  | quit hlock => exact .inl ⟨_, _, _, rfl, hlock, .quit, rfl⟩
  | sleep _ _ hstopped => exact absurd hstopped hrunning
  | wakeUp hwait => exact .inl ⟨_, _, _, rfl, hwait, .wakeUp, rfl⟩
  | finishTask hrun => exact .inl ⟨_, _, _, rfl, hrun, .finishTask _, rfl⟩

theorem Leaves.isAsleep {w w' : Worker Task} (h : Leaves w out w') : w'.isAsleep = false := by
  cases h <;> rfl

/-- No worker sleeps in a pool whose destructor has notified all. -/
def Woken (s : ThreadPool Task) : Prop :=
  s.notified = true → s.stop = true ∧ ∀ w ∈ s.workers, w.isAsleep = false

theorem Does.woken (h : Does s call out s') (hs : s.Woken) : s'.Woken := by
  intro hnotified
  by_cases hbefore : s.notified = true
  · obtain ⟨hstop, hawake⟩ := hs hbefore
    refine ⟨h.stop_mono hstop, ?_⟩
    rcases h.cases_stopped hstop with ⟨i, w, w', -, -, hleaves, hset⟩ |
      ⟨-, heq | hmap | ⟨i, hwait, -⟩⟩
    · rw [hset]
      intro x hx
      rcases List.mem_or_eq_of_mem_set hx with hx | rfl
      · exact hawake x hx
      · exact hleaves.isAsleep
    · rwa [heq]
    · rw [hmap]
      intro x hx
      obtain ⟨w, hw, rfl⟩ := List.mem_map.mp hx
      cases w with
      | wait => rfl
      | _ => rfl
    · cases hawake _ (List.mem_of_getElem? hwait)
  · cases h with
    | notifyAll hstop =>
        refine ⟨hstop, ?_⟩
        intro x hx
        obtain ⟨w, hw, rfl⟩ := List.mem_map.mp hx
        cases w with
        | wait => rfl
        | _ => rfl
    | _ => exact absurd hnotified hbefore

/-! ## After the members are destroyed -/

end ThreadPool

end Tns
