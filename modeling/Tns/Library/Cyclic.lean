import Mathlib.Data.List.Basic
import Mathlib.Data.Nat.ModEq
import Mathlib.Tactic.Common

/-!
# Cyclic arrays addressed by absolute positions

A fixed array of `N` cells stores the most recent part of an unbounded stream:
position `k` lives in cell `k % N`.  The facts here say which cells a window of
at most `N` consecutive positions occupies and what a copy into the array does
to the positions of such a window.
-/

namespace Tns.Library.Cyclic

variable {α : Type*} {N : ℕ}

/-- The content of the cell of absolute position `k`. -/
def cell (v : Vector α N) (k : ℕ) : Option α := v[k % N]?

/-- Copy a list into the array, one element after another, from index `off` on. -/
def copyTo (v : Vector α N) (off : ℕ) : List α → Vector α N
  | [] => v
  | x :: xs => copyTo (v.setIfInBounds off x) (off + 1) xs

/-- Every position of `[lo, hi)` holds an element admitted there by `P`. -/
def Window (P : ℕ → α → Prop) (v : Vector α N) (lo hi : ℕ) : Prop :=
  ∀ k, lo ≤ k → k < hi → ∃ x, cell v k = some x ∧ P k x

theorem getElem?_copyTo (v : Vector α N) (off : ℕ) (xs : List α) (i : ℕ)
    (hfit : off + xs.length ≤ N) :
    (copyTo v off xs)[i]? = if off ≤ i ∧ i < off + xs.length then xs[i - off]? else v[i]? := by
  induction xs generalizing v off with
  | nil =>
      have hout : ¬(off ≤ i ∧ i < off + ([] : List α).length) := by simp
      rw [if_neg hout, copyTo]
  | cons x xs ih =>
      simp only [List.length_cons] at hfit
      rw [copyTo, ih _ _ (by omega)]
      by_cases hi : i = off
      · subst hi
        have hin : i ≤ i ∧ i < i + (x :: xs).length := by simp
        have hout : ¬(i + 1 ≤ i ∧ i < i + 1 + xs.length) := by omega
        rw [if_neg hout, if_pos hin]
        simp [show i < N by omega]
      · rw [Vector.getElem?_setIfInBounds_ne (Ne.symm hi)]
        by_cases hin : off + 1 ≤ i ∧ i < off + 1 + xs.length
        · have hin' : off ≤ i ∧ i < off + (x :: xs).length := by
            simp only [List.length_cons]
            omega
          rw [if_pos hin, if_pos hin', show i - off = (i - (off + 1)) + 1 by omega,
            List.getElem?_cons_succ]
        · have hout : ¬(off ≤ i ∧ i < off + (x :: xs).length) := by
            simp only [List.length_cons]
            omega
          rw [if_neg hin, if_neg hout]

theorem mod_ne_mod {a b : ℕ} (hab : a < b) (hb : b < a + N) : a % N ≠ b % N := by
  intro heq
  have hdvd : N ∣ b - a := Nat.dvd_of_mod_eq_zero (Nat.sub_mod_eq_zero_of_mod_eq heq.symm)
  have hle : N ≤ b - a := Nat.le_of_dvd (by omega) hdvd
  omega

/-- Counting two positions from elsewhere leaves them in one cell or in two. -/
theorem mod_shift {i j a b : ℕ} (ha : i ≤ a) (hb : i ≤ b) :
    (a - i + j) % N = (b - i + j) % N ↔ a % N = b % N := by
  have hcancel : ∀ x, i ≤ x → x - i + j + i = x + j := fun x hx ↦ by omega
  constructor
  · intro h
    have hmove : (a + j) % N = (b + j) % N := by
      rw [← hcancel a ha, ← hcancel b hb]
      exact Nat.ModEq.add_right i h
    exact Nat.ModEq.add_right_cancel' j hmove
  · intro h
    have hmove : (a - i + j + i) % N = (b - i + j + i) % N := by
      rw [hcancel a ha, hcancel b hb]
      exact Nat.ModEq.add_right j h
    exact Nat.ModEq.add_right_cancel' i hmove

/-- The cell of a position less than one turn after `lo`, counted from the cell of `lo`. -/
theorem mod_of_window (N lo k : ℕ) (hlo : lo ≤ k) (hk : k < lo + N) :
    k % N = if lo % N + (k - lo) < N then lo % N + (k - lo) else lo % N + (k - lo) - N := by
  have hN : 0 < N := by omega
  have hmod : lo % N < N := Nat.mod_lt _ hN
  have hsum : k % N = (lo % N + (k - lo)) % N := by
    rw [Nat.mod_add_mod, Nat.add_sub_cancel' hlo]
  rw [hsum]
  split
  · exact Nat.mod_eq_of_lt ‹_›
  · rw [Nat.mod_eq_sub_mod (by omega), Nat.mod_eq_of_lt (by omega)]

namespace Window

variable {P Q : ℕ → α → Prop} {v w : Vector α N} {lo hi lo' hi' : ℕ}

theorem empty (h : hi ≤ lo) : Window P v lo hi := fun k hlo hhi ↦ by omega

theorem mono (h : Window P v lo hi) (hPQ : ∀ k x, P k x → Q k x) : Window Q v lo hi := by
  intro k hlo hhi
  obtain ⟨x, hx, hP⟩ := h k hlo hhi
  exact ⟨x, hx, hPQ k x hP⟩

theorem subset (h : Window P v lo hi) (hlo : lo ≤ lo') (hhi : hi' ≤ hi) :
    Window P v lo' hi' :=
  fun k h₁ h₂ ↦ h k (Nat.le_trans hlo h₁) (Nat.lt_of_lt_of_le h₂ hhi)

end Window

end Tns.Library.Cyclic
