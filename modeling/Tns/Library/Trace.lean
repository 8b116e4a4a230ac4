import Mathlib.Data.List.Basic

/-!
# Traces of a labelled step function

A program whose critical sections are functions is run one label at a time: a
step either fails or returns an output and a successor state.  A trace records
every step taken.  The rules below carry an invariant along a trace and
transfer an exact condition on single steps to the whole trace.
-/

namespace Tns.Library

variable {σ ℓ ω ε : Type*}

/-- One step of a trace, with the states on both sides of it. -/
structure Transition (σ ℓ ω : Type*) where
  pre : σ
  label : ℓ
  out : ω
  post : σ

/-- `Trace step s tr s'` says that the steps recorded in `tr` lead from `s` to `s'`. -/
inductive Trace (step : σ → ℓ → Except ε (ω × σ)) : σ → List (Transition σ ℓ ω) → σ → Prop
  | nil (s : σ) : Trace step s [] s
  | cons {s s' s'' : σ} {l : ℓ} {o : ω} {tr : List (Transition σ ℓ ω)}
      (head : step s l = .ok (o, s')) (tail : Trace step s' tr s'') :
      Trace step s (⟨s, l, o, s'⟩ :: tr) s''

/-- Run the labels in order and record the steps, stopping at the first failure. -/
def record (step : σ → ℓ → Except ε (ω × σ)) (s : σ) :
    List ℓ → Except ε (List (Transition σ ℓ ω) × σ)
  | [] => .ok ([], s)
  | l :: ls =>
      match step s l with
      | .error e => .error e
      | .ok (o, s') =>
          match record step s' ls with
          | .error e => .error e
          | .ok (tr, s'') => .ok (⟨s, l, o, s'⟩ :: tr, s'')

def Fires (step : σ → ℓ → Except ε (ω × σ)) (t : Transition σ ℓ ω) : Prop :=
  step t.pre t.label = .ok (t.out, t.post)

variable {step : σ → ℓ → Except ε (ω × σ)}

theorem of_record_cons {l : ℓ} {ls : List ℓ} {s s'' : σ} {tr : List (Transition σ ℓ ω)}
    (h : record step s (l :: ls) = .ok (tr, s'')) :
    ∃ o s' tr', step s l = .ok (o, s') ∧ record step s' ls = .ok (tr', s'') ∧
      tr = ⟨s, l, o, s'⟩ :: tr' := by
  simp only [record] at h
  split at h
  · cases h
  · rename_i o s' hstep
    split at h
    · cases h
    · rename_i tr' s₂ hrec
      simp only [Except.ok.injEq, Prod.mk.injEq] at h
      obtain ⟨rfl, rfl⟩ := h
      exact ⟨o, s', tr', hstep, hrec, rfl⟩

namespace Trace

theorem of_record {ls : List ℓ} {s s' : σ} {tr : List (Transition σ ℓ ω)}
    (h : record step s ls = .ok (tr, s')) : Trace step s tr s' := by
  induction ls generalizing s tr with
  | nil =>
      cases h
      exact .nil _
  | cons l ls ih =>
      obtain ⟨o, s₁, tr', hstep, hrecord, rfl⟩ := of_record_cons h
      exact .cons hstep (ih hrecord)

theorem append {s s' s'' : σ} {tr tr' : List (Transition σ ℓ ω)}
    (h : Trace step s tr s') (h' : Trace step s' tr' s'') : Trace step s (tr ++ tr') s'' := by
  induction h with
  | nil => exact h'
  | cons head _ ih => exact .cons head (ih h')

theorem of_append {s s' : σ} {tr tr' : List (Transition σ ℓ ω)} (h : Trace step s (tr ++ tr') s') :
    ∃ s₁, Trace step s tr s₁ ∧ Trace step s₁ tr' s' := by
  induction tr generalizing s with
  | nil => exact ⟨s, .nil s, h⟩
  | cons t tr ih =>
      cases h with
      | cons head tail =>
          obtain ⟨s₁, htr, htr'⟩ := ih tail
          exact ⟨s₁, .cons head htr, htr'⟩

theorem to_pre {s s' : σ} {tr tr' : List (Transition σ ℓ ω)} {t : Transition σ ℓ ω}
    (h : Trace step s (tr ++ t :: tr') s') : Trace step s tr t.pre ∧ Fires step t := by
  obtain ⟨s₁, htr, htail⟩ := h.of_append
  cases htail with
  | cons head tail => exact ⟨htr, head⟩

theorem to_post {s s' : σ} {tr tr' : List (Transition σ ℓ ω)} {t : Transition σ ℓ ω}
    (h : Trace step s (tr ++ t :: tr') s') : Trace step t.post tr' s' := by
  obtain ⟨s₁, -, htail⟩ := h.of_append
  cases htail with
  | cons head tail => exact tail

theorem fires {s s' : σ} {tr : List (Transition σ ℓ ω)} (h : Trace step s tr s') :
    ∀ t ∈ tr, Fires step t := by
  induction h with
  | nil => simp
  | cons head _ ih =>
      intro t ht
      rcases List.mem_cons.mp ht with rfl | ht
      · exact head
      · exact ih t ht

/-- An invariant kept by every admissible step holds at both ends of each step
of an admissible trace, and at its end. -/
theorem invariant {I : σ → Prop} {A : Transition σ ℓ ω → Prop}
    (hkeep : ∀ t, Fires step t → I t.pre → A t → I t.post)
    {s s' : σ} {tr : List (Transition σ ℓ ω)} (h : Trace step s tr s')
    (hs : I s) (hok : ∀ t ∈ tr, A t) : I s' ∧ ∀ t ∈ tr, I t.pre ∧ I t.post := by
  induction h with
  | nil => exact ⟨hs, by simp⟩
  | @cons s s₁ s₂ l o tr head tail ih =>
      have hs₁ : I s₁ := hkeep ⟨s, l, o, s₁⟩ head hs (hok _ List.mem_cons_self)
      obtain ⟨hend, hall⟩ := ih hs₁ fun t ht ↦ hok t (List.mem_cons_of_mem _ ht)
      refine ⟨hend, ?_⟩
      intro t ht
      rcases List.mem_cons.mp ht with rfl | ht
      · exact ⟨hs, hs₁⟩
      · exact hall t ht

/-- A potential that never sinks, and rises with each step that is counted, bounds their number. -/
theorem countP_add_le {I : σ → Prop} {A : Transition σ ℓ ω → Prop} {p : Transition σ ℓ ω → Bool}
    {φ : σ → ℕ} (hkeep : ∀ t, Fires step t → I t.pre → A t → I t.post)
    (hcount : ∀ t, Fires step t → I t.pre → A t → (if p t then 1 else 0) + φ t.pre ≤ φ t.post)
    {s s' : σ} {tr : List (Transition σ ℓ ω)} (h : Trace step s tr s')
    (hs : I s) (hok : ∀ t ∈ tr, A t) : tr.countP p + φ s ≤ φ s' := by
  induction h with
  | nil => simp
  | @cons s s₁ s₂ l o tr head tail ih =>
      have hA := hok _ List.mem_cons_self
      have hhead := hcount ⟨s, l, o, s₁⟩ head hs hA
      have htail := ih (hkeep ⟨s, l, o, s₁⟩ head hs hA) fun t ht ↦ hok t (List.mem_cons_of_mem _ ht)
      rw [List.countP_cons]
      simp only at hhead
      omega

/-- If, under an invariant, a step is good exactly when it is admissible, and
admissible steps keep the invariant, then all steps of a trace are good
exactly when all of them are admissible. -/
theorem forall_iff {I : σ → Prop} {D G A : Transition σ ℓ ω → Prop}
    (hiff : ∀ t, Fires step t → I t.pre → D t → (G t ↔ A t))
    (hkeep : ∀ t, Fires step t → I t.pre → D t → A t → I t.post)
    {s s' : σ} {tr : List (Transition σ ℓ ω)} (h : Trace step s tr s')
    (hs : I s) (hdom : ∀ t ∈ tr, D t) : (∀ t ∈ tr, G t) ↔ ∀ t ∈ tr, A t := by
  induction h with
  | nil => simp
  | @cons s s₁ s₂ l o tr head tail ih =>
      have hd := hdom _ List.mem_cons_self
      have hhead := hiff ⟨s, l, o, s₁⟩ head hs hd
      simp only [List.forall_mem_cons]
      rw [hhead]
      apply and_congr_right
      intro hok
      exact ih (hkeep ⟨s, l, o, s₁⟩ head hs hd hok) fun t ht ↦ hdom t (List.mem_cons_of_mem _ ht)

end Trace

end Tns.Library
