import Tns.Library.Trace
import Tns.Tcp.Intervals

/-!
# Runs of the interval set

Every sequence of calls on an empty set keeps it canonical, and each call does
to the covered set what its name says.
-/

namespace Tns.Tcp

open Tns.Library

variable {T : Type} [LinearOrder T]

inductive IntervalCall (T : Type) [LT T] where
  | emplaceMerge (interval : RightOpenInterval T)
  | mergeRemove (interval : RightOpenInterval T)

def IntervalCall.interval : IntervalCall T → RightOpenInterval T
  | .emplaceMerge interval | .mergeRemove interval => interval

namespace RightOpenIntervalSet

section Stops

variable {l : List (RightOpenInterval T)} {left right : ℕ} {e : T}

theorem exists_mem_of_prevEnd (h : prevEnd l right = .ok e) : ∃ J ∈ l, e = J.stop := by
  cases right with
  | zero => cases h
  | succ r =>
      simp only [prevEnd] at h
      split at h
      · rename_i J hget
        exact ⟨J, List.mem_of_getElem? hget, (Except.ok.inj h).symm⟩
      · cases h

theorem mem_emplace {I J : RightOpenInterval T} (hJ : J ∈ emplace l I) : J = I ∨ J ∈ l := by
  rw [emplace] at hJ
  split at hJ
  · exact .inr hJ
  · rcases List.mem_append.mp hJ with hJ | hJ
    · exact .inr (List.mem_of_mem_take hJ)
    · rcases List.mem_cons.mp hJ with rfl | hJ
      · exact .inl rfl
      · exact .inr (List.mem_of_mem_drop hJ)

end Stops

section Runs

variable [Add T] [OfNat T 1] [OfNat T 2] {s s' : RightOpenIntervalSet T}
  {I : RightOpenInterval T} {e : T}

def step (s : RightOpenIntervalSet T) : IntervalCall T → Exec (T × RightOpenIntervalSet T)
  | .emplaceMerge interval => s.emplaceMerge interval
  | .mergeRemove interval => s.mergeRemove interval

abbrev Step (T : Type) [LinearOrder T] := Transition (RightOpenIntervalSet T) (IntervalCall T) T

/-- What a call does to the covered set and to the stored intervals, and what it returns. -/
def Exact (t : Step T) : Prop :=
  match t.label with
  | .emplaceMerge I =>
      cover t.post.intervals = cover t.pre.intervals ∪ I.carrier ∧
        ∃ J ∈ t.post.intervals, I.carrier ⊆ J.carrier ∧ J.stop = t.out
  | .mergeRemove I =>
      ∃ b, (cover t.pre.intervals ∪ I.carrier).ordConnectedComponent I.begin = Set.Ico b t.out ∧
        ∀ J, J ∈ t.post.intervals ↔ J ∈ t.pre.intervals ∧ ¬J.carrier ⊆ Set.Ico b t.out

/-- The end that `emplaceMerge` returns is the one of the interval or one from the set. -/
theorem emplaceMerge_stop (h : s.emplaceMerge I = .ok (e, s')) :
    e = I.stop ∨ ∃ J ∈ s.intervals, e = J.stop := by
  have hmem : ∀ x, (∃ J ∈ emplace s.intervals I, x = J.stop) →
      x = I.stop ∨ ∃ J ∈ s.intervals, x = J.stop := by
    rintro x ⟨J, hJ, rfl⟩
    rcases mem_emplace hJ with rfl | hJ
    · exact .inl rfl
    · exact .inr ⟨J, hJ, rfl⟩
  simp only [emplaceMerge] at h
  split at h
  · cases h
    exact .inl rfl
  · have hleft := mergeLeft_stop (emplace s.intervals I) (lowerBound s.intervals I) I
    simp only [Exec.bind_eq_ok] at h
    obtain ⟨probe, -, h⟩ := h
    split at h
    · simp only [Exec.bind_eq_ok, Exec.pure_eq_ok, Prod.mk.injEq] at h
      obtain ⟨last, hlast, erased, -, M, -, rfl, -⟩ := h
      rcases max_choice (mergeLeft (emplace s.intervals I) (lowerBound s.intervals I) I).2.1 last
        with hmax | hmax <;> rw [hmax]
      · exact hleft.elim .inl fun h ↦ hmem _ h
      · exact hmem _ (exists_mem_of_prevEnd hlast)
    · simp only [Exec.pure_eq_ok, Prod.mk.injEq] at h
      obtain ⟨rfl, -⟩ := h
      exact hleft.elim .inl fun h ↦ hmem _ h

theorem mergeRemove_stop (h : s.mergeRemove I = .ok (e, s')) :
    e = I.stop ∨ ∃ J ∈ s.intervals, e = J.stop := by
  have hleft := mergeLeft_stop s.intervals (lowerBound s.intervals I) I
  simp only [mergeRemove, Exec.bind_eq_ok] at h
  obtain ⟨probe, -, h⟩ := h
  split at h
  · simp only [Exec.bind_eq_ok, Exec.pure_eq_ok, Prod.mk.injEq] at h
    obtain ⟨last, hlast, erased, -, rfl, -⟩ := h
    rcases max_choice (mergeLeft s.intervals (lowerBound s.intervals I) I).2.1 last
      with hmax | hmax <;> rw [hmax]
    · exact hleft
    · exact .inr (exists_mem_of_prevEnd hlast)
  · simp only [Exec.pure_eq_ok, Prod.mk.injEq] at h
    obtain ⟨rfl, -⟩ := h
    exact hleft

variable [ProbeKeys T]

theorem exact_emplaceMerge (hs : Canonical s.intervals) (h : s.emplaceMerge I = .ok (e, s')) :
    Exact ⟨s, .emplaceMerge I, e, s'⟩ := by
  refine ⟨(emplaceMerge_spec hs h).2, ?_⟩
  rcases emplaceMerge_cases hs h with ⟨rfl, hI, rfl⟩ | ⟨k, m, b, M, -, hs', rfl, -, -, hM⟩
  · exact ⟨I, hI, subset_rfl, rfl⟩
  · refine ⟨M, ?_, hM ▸ Set.subset_union_left, rfl⟩
    rw [hs']
    exact List.mem_append_right k List.mem_cons_self

theorem exact_mergeRemove (hs : Canonical s.intervals) (hroom : HasRoom e)
    (h : s.mergeRemove I = .ok (e, s')) : Exact ⟨s, .mergeRemove I, e, s'⟩ := by
  obtain ⟨hIe, ⟨k, m, b, bg, hsplit, hs', hbg, hk, hm, hb, hblock⟩ | ⟨-, hgreatest, -⟩⟩ :=
    mergeRemove_cases hs h
  · rw [hsplit] at hs
    refine ⟨bg, ?_, fun J ↦ ?_⟩
    · rw [hsplit]
      exact hs.ordConnectedComponent_block hbg hIe hk hb hblock
    · simp only [hsplit, hs', List.mem_append]
      constructor
      · rintro (hJ | hJ)
        · have hlt := J.begin_lt_stop.trans (hk J hJ)
          exact ⟨.inl (.inl hJ), fun hsub ↦ (hsub ⟨le_rfl, J.begin_lt_stop⟩).1.not_gt hlt⟩
        · have hlt := hb J hJ
          exact ⟨.inr hJ, fun hsub ↦ (hsub ⟨le_rfl, J.begin_lt_stop⟩).2.not_gt hlt⟩
      · rintro ⟨(hJ | hJ) | hJ, hsub⟩
        · exact .inl hJ
        · refine absurd ?_ hsub
          rw [hblock]
          exact (carrier_subset_cover hJ).trans Set.subset_union_right
        · exact .inr hJ
  · exact absurd (hgreatest (e + 1)) hroom.1.not_ge

/-- The set is canonical, and none of its intervals ends where the probe key would wrap. -/
structure Inv (s : RightOpenIntervalSet T) : Prop where
  canonical : Canonical s.intervals
  hasRoom : ∀ J ∈ s.intervals, HasRoom J.stop

theorem Inv.step {l : IntervalCall T} (h : Inv s) (hroom : HasRoom l.interval.stop) :
    ∃ e s', s.step l = .ok (e, s') ∧ Inv s' ∧ Exact ⟨s, l, e, s'⟩ := by
  have hend : ∀ e, (e = l.interval.stop ∨ ∃ J ∈ s.intervals, e = J.stop) → HasRoom e := by
    rintro e (rfl | ⟨J, hJ, rfl⟩)
    · exact hroom
    · exact h.hasRoom J hJ
  cases l with
  | emplaceMerge I =>
      obtain ⟨⟨e, s'⟩, hmerge⟩ := exists_emplaceMerge h.canonical hroom h.hasRoom
      have he := hend e (emplaceMerge_stop hmerge)
      refine ⟨e, s', hmerge, ⟨(emplaceMerge_spec h.canonical hmerge).1, ?_⟩,
        exact_emplaceMerge h.canonical hmerge⟩
      rcases emplaceMerge_cases h.canonical hmerge with
        ⟨rfl, -⟩ | ⟨k, m, b, M, hsplit, hs', rfl, -⟩
      · exact h.hasRoom
      · rw [hs', List.forall_mem_append, List.forall_mem_cons]
        have hold := h.hasRoom
        rw [hsplit, List.forall_mem_append, List.forall_mem_append] at hold
        exact ⟨hold.1.1, he, hold.2⟩
  | mergeRemove I =>
      obtain ⟨⟨e, s'⟩, hmerge⟩ := exists_mergeRemove h.canonical hroom h.hasRoom
      have hexact := exact_mergeRemove h.canonical (hend e (mergeRemove_stop hmerge)) hmerge
      obtain ⟨-, -, -, hcan, -⟩ := mergeRemove_spec h.canonical hmerge
      have hsub : ∀ J ∈ s'.intervals, J ∈ s.intervals := by
        obtain ⟨b, -, hmem⟩ := hexact
        exact fun J hJ ↦ ((hmem J).mp hJ).1
      exact ⟨e, s', hmerge, ⟨hcan, fun J hJ ↦ h.hasRoom J (hsub J hJ)⟩, hexact⟩

theorem exists_record {calls : List (IntervalCall T)} (h : Inv s)
    (hroom : ∀ l ∈ calls, HasRoom l.interval.stop) :
    ∃ tr s', record step s calls = .ok (tr, s') ∧ ∀ t ∈ tr,
      Canonical t.pre.intervals ∧ Canonical t.post.intervals ∧ Exact t := by
  induction calls generalizing s with
  | nil => exact ⟨[], s, rfl, List.forall_mem_nil _⟩
  | cons l calls ih =>
      rw [List.forall_mem_cons] at hroom
      obtain ⟨e, s₁, hstep, h₁, hexact⟩ := h.step hroom.1
      obtain ⟨tr, s', hrecord, htr⟩ := ih h₁ hroom.2
      refine ⟨⟨s, l, e, s₁⟩ :: tr, s', ?_, ?_⟩
      · simp only [record, hstep, hrecord]
      · rw [List.forall_mem_cons]
        exact ⟨⟨h.canonical, h₁.canonical, hexact⟩, htr⟩

/-- Every sequence of calls with room above their ends runs through, in every state the set is
canonical, and every call is exact. -/
theorem exact_run {calls : List (IntervalCall T)}
    (hroom : ∀ l ∈ calls, HasRoom l.interval.stop) :
    ∃ tr s, record step ({} : RightOpenIntervalSet T) calls = .ok (tr, s) ∧ ∀ t ∈ tr,
      Canonical t.pre.intervals ∧ Canonical t.post.intervals ∧ Exact t :=
  exists_record ⟨Canonical.nil, List.forall_mem_nil _⟩ hroom

end Runs

/-- Two intervals, a third that joins them, and the removal of their block. -/
theorem exact_run_joined :
    ∃ tr s, record step ({} : RightOpenIntervalSet UInt32)
        [.emplaceMerge ⟨1, 3, by decide⟩, .emplaceMerge ⟨5, 8, by decide⟩,
          .emplaceMerge ⟨3, 5, by decide⟩, .mergeRemove ⟨0, 1, by decide⟩] = .ok (tr, s) ∧
      ∀ t ∈ tr, Canonical t.pre.intervals ∧ Canonical t.post.intervals ∧ Exact t :=
  exact_run (by
    simp only [List.forall_mem_cons, IntervalCall.interval, HasRoom]
    exact ⟨by decide, by decide, by decide, by decide, List.forall_mem_nil _⟩)

end RightOpenIntervalSet

end Tns.Tcp
