import Mathlib.Algebra.BigOperators.Group.List.Basic
import Mathlib.Logic.Relation

/-!
# Threads that wait on a condition variable

Threads take units of a supply, and go to sleep on a condition variable if there
are none.  Whoever adds a unit sends one notification afterwards, outside the
lock.  Then no wakeup is lost: while a thread sleeps, every unit of the supply
has a notification on its way or a thread that is up to take it.

A pool of threads is counted through the places where its threads stand, and
moves with each step of one of them.
-/

namespace Tns.Library

section Total

variable {α : Type*}

/-- What the threads add up to. -/
def total (weight : α → ℕ) : List α → ℕ
  | [] => 0
  | a :: threads => weight a + total weight threads

variable {weight : α → ℕ} {threads : List α}

variable (weight) in
/-- One thread moves, and the rest adds up as before. -/
theorem exists_rest {i : ℕ} {a : α} (h : threads[i]? = some a) :
    ∃ rest, total weight threads = rest + weight a ∧
      ∀ b, total weight (threads.set i b) = rest + weight b := by
  induction threads generalizing i with
  | nil => cases h
  | cons c threads ih =>
      cases i with
      | zero =>
          obtain rfl := Option.some.inj h
          refine ⟨total weight threads, ?_, fun b ↦ ?_⟩
          · rw [total, add_comm]
          · rw [List.set_cons_zero, total, add_comm]
      | succ i =>
          obtain ⟨rest, hrest, hset⟩ := ih h
          refine ⟨weight c + rest, ?_, fun b ↦ ?_⟩
          · rw [total, hrest, add_assoc]
          · rw [List.set_cons_succ, total, hset, add_assoc]

theorem exists_of_total_pos (h : 0 < total weight threads) : ∃ a ∈ threads, 0 < weight a := by
  induction threads with
  | nil => cases h
  | cons a threads ih =>
      rw [total] at h
      by_cases ha : 0 < weight a
      · exact ⟨a, List.mem_cons_self, ha⟩
      · obtain ⟨b, hb, hpos⟩ := ih (by omega)
        exact ⟨b, List.mem_cons_of_mem _ hb, hpos⟩

end Total

/-- A supply and the threads around it. -/
structure Waiters where
  supply : ℕ
  /-- The notifications still to be sent. -/
  notices : ℕ
  /-- The threads that are awake and will look at the supply next. -/
  ready : ℕ
  asleep : ℕ

namespace Waiters

/-- What one step does. -/
inductive Move : Waiters → Waiters → Prop
  | add (w : Waiters) : Move w { w with supply := w.supply + 1, notices := w.notices + 1 }
  | notify (supply notices ready asleep : ℕ) :
      Move ⟨supply, notices + 1, ready, asleep + 1⟩ ⟨supply, notices, ready + 1, asleep⟩
  | unheard (supply notices ready : ℕ) :
      Move ⟨supply, notices + 1, ready, 0⟩ ⟨supply, notices, ready, 0⟩
  /-- A thread may wake up without any notification. -/
  | wake (supply notices ready asleep : ℕ) :
      Move ⟨supply, notices, ready, asleep + 1⟩ ⟨supply, notices, ready + 1, asleep⟩
  | take (supply notices ready asleep : ℕ) :
      Move ⟨supply + 1, notices, ready + 1, asleep⟩ ⟨supply, notices, ready, asleep⟩
  | sleep (notices ready asleep : ℕ) :
      Move ⟨0, notices, ready + 1, asleep⟩ ⟨0, notices, ready, asleep + 1⟩
  /-- A thread comes back with its unit done. -/
  | back (supply notices ready asleep : ℕ) :
      Move ⟨supply, notices, ready, asleep⟩ ⟨supply, notices, ready + 1, asleep⟩
  | stay (w : Waiters) : Move w w

/-- While a thread sleeps, nothing of the supply depends on a wakeup that is not coming. -/
def Served (w : Waiters) : Prop := 0 < w.asleep → w.supply ≤ w.notices + w.ready

theorem Move.served {w w' : Waiters} (h : Move w w') (hw : w.Served) : w'.Served := by
  intro hasleep
  cases h with
  | add =>
      have := hw hasleep
      simp only
      omega
  | notify supply notices ready asleep =>
      have := hw asleep.succ_pos
      simp only at this ⊢
      omega
  | unheard => exact absurd hasleep (Nat.lt_irrefl 0)
  | wake supply notices ready asleep =>
      have := hw asleep.succ_pos
      simp only at this ⊢
      omega
  | take =>
      have := hw hasleep
      simp only at this ⊢
      omega
  | sleep => exact Nat.zero_le _
  | back =>
      have := hw hasleep
      simp only at this ⊢
      omega
  | stay => exact hw hasleep

end Waiters

end Tns.Library
