import Mathlib.Order.Interval.Set.Basic
import Mathlib.Order.Interval.Set.OrdConnectedComponent
import Mathlib.Order.MinMax
import Mathlib.Data.Set.Lattice

/-!
# Canonical lists of right-open intervals

A finite union of right-open intervals has one canonical presentation: its
connected blocks, sorted, with a gap between neighbours.  A list in this form
is described completely by the set it covers.
-/

namespace Tns.Library

/-- A nonempty right-open interval `[begin, stop)`. -/
@[ext] structure RightOpenInterval (T : Type*) [LT T] where
  begin : T
  stop : T
  begin_lt_stop : begin < stop

variable {T : Type*} [LinearOrder T]

namespace RightOpenInterval

instance : DecidableEq (RightOpenInterval T) := fun I J ↦
  decidable_of_iff (I.begin = J.begin ∧ I.stop = J.stop) RightOpenInterval.ext_iff.symm

def carrier (I : RightOpenInterval T) : Set T := Set.Ico I.begin I.stop

@[simp] theorem mem_carrier {I : RightOpenInterval T} {x : T} :
    x ∈ I.carrier ↔ I.begin ≤ x ∧ x < I.stop := Iff.rfl

end RightOpenInterval

/-- Sorted, pairwise disjoint and not even touching. -/
def Canonical (l : List (RightOpenInterval T)) : Prop :=
  l.Pairwise fun I J ↦ I.stop < J.begin

/-- The set covered by a list of intervals. -/
def cover (l : List (RightOpenInterval T)) : Set T :=
  {x | ∃ I ∈ l, x ∈ I.carrier}

@[simp] theorem cover_nil : cover ([] : List (RightOpenInterval T)) = ∅ := by
  ext x
  simp [cover]

@[simp] theorem cover_cons (I : RightOpenInterval T) (l : List (RightOpenInterval T)) :
    cover (I :: l) = I.carrier ∪ cover l := by
  ext x
  simp [cover]

@[simp] theorem cover_append (l m : List (RightOpenInterval T)) :
    cover (l ++ m) = cover l ∪ cover m := by
  ext x
  simp [cover, or_and_right, exists_or]

theorem carrier_subset_cover {I : RightOpenInterval T} {l : List (RightOpenInterval T)}
    (hI : I ∈ l) : I.carrier ⊆ cover l := fun _ hx ↦ ⟨I, hI, hx⟩

theorem cover_mono {l m : List (RightOpenInterval T)} (h : ∀ I ∈ l, I ∈ m) :
    cover l ⊆ cover m := fun _ ⟨I, hI, hx⟩ ↦ ⟨I, h I hI, hx⟩

/-- A right-open interval extended by what a list of intervals covers. -/
theorem Ico_eq_union_cover {l : List (RightOpenInterval T)} {b e e' : T} (hle : e ≤ e')
    (hgrow : Set.Ico e e' ⊆ cover l) (hbegin : ∀ J ∈ l, b ≤ J.begin)
    (hstop : ∀ J ∈ l, J.stop ≤ e') : Set.Ico b e' = Set.Ico b e ∪ cover l := by
  ext x
  constructor
  · rintro ⟨hx, hx'⟩
    rcases lt_or_ge x e with hlt | hge
    · exact Or.inl ⟨hx, hlt⟩
    · exact Or.inr (hgrow ⟨hge, hx'⟩)
  · rintro (⟨hx, hx'⟩ | ⟨J, hJ, hx, hx'⟩)
    · exact ⟨hx, hx'.trans_le hle⟩
    · exact ⟨(hbegin J hJ).trans hx, hx'.trans_le (hstop J hJ)⟩

namespace Canonical

variable {l m : List (RightOpenInterval T)} {I : RightOpenInterval T}

theorem nil : Canonical ([] : List (RightOpenInterval T)) := List.Pairwise.nil

theorem sublist (h : Canonical l) (hsub : m.Sublist l) : Canonical m := List.Pairwise.sublist hsub h

theorem cons_iff : Canonical (I :: l) ↔ (∀ J ∈ l, I.stop < J.begin) ∧ Canonical l :=
  List.pairwise_cons

theorem append_iff :
    Canonical (l ++ m) ↔ Canonical l ∧ Canonical m ∧ ∀ I ∈ l, ∀ J ∈ m, I.stop < J.begin :=
  List.pairwise_append

theorem insert_between (hl : Canonical l) (hm : Canonical m)
    (hleft : ∀ J ∈ l, J.stop < I.begin) (hright : ∀ J ∈ m, I.stop < J.begin) :
    Canonical (l ++ I :: m) := by
  rw [append_iff, cons_iff]
  refine ⟨hl, ⟨hright, hm⟩, ?_⟩
  intro J hJ K hK
  rcases List.mem_cons.mp hK with rfl | hK
  · exact hleft J hJ
  · calc J.stop < I.begin := hleft J hJ
      _ < I.stop := I.begin_lt_stop
      _ < K.begin := hright K hK

theorem stop_le_of_mem_concat (h : Canonical (l ++ [I])) {J : RightOpenInterval T}
    (hJ : J ∈ l ++ [I]) : J.stop ≤ I.stop := by
  rcases List.mem_append.mp hJ with hJ | hJ
  · have hlt := (append_iff.mp h).2.2 J hJ I List.mem_cons_self
    exact (hlt.trans I.begin_lt_stop).le
  · rw [List.mem_singleton.mp hJ]

theorem stop_notMem_cover (h : Canonical l) (hI : I ∈ l) : I.stop ∉ cover l := by
  obtain ⟨l, m, rfl⟩ := List.append_of_mem hI
  obtain ⟨-, hm, hcross⟩ := append_iff.mp h
  rintro ⟨J, hJ, hJb, hJs⟩
  rcases List.mem_append.mp hJ with hJ | hJ
  · have hlt := hcross J hJ I List.mem_cons_self
    exact (hlt.trans I.begin_lt_stop).not_gt hJs
  · rcases List.mem_cons.mp hJ with rfl | hJ
    · exact hJs.false
    · exact ((cons_iff.mp hm).1 J hJ).not_ge hJb

end Canonical

/-- The connected block of a point, from its two ends: before the one there are always points
outside the set, and the other is one. -/
theorem ordConnectedComponent_eq_Ico {S : Set T} {b e x : T} (hx : x ∈ Set.Ico b e)
    (hsub : Set.Ico b e ⊆ S) (hbegin : ∀ y < b, ∃ z ∉ S, y ≤ z ∧ z < b) (hstop : e ∉ S) :
    S.ordConnectedComponent x = Set.Ico b e := by
  apply Set.Subset.antisymm
  · intro y hy
    rw [Set.mem_ordConnectedComponent] at hy
    constructor
    · by_contra hlt
      obtain ⟨z, hz, hyz, hzb⟩ := hbegin y (not_le.mp hlt)
      exact hz (hy (Set.mem_uIcc_of_ge hyz (hzb.le.trans hx.1)))
    · by_contra hle
      exact hstop (hy (Set.mem_uIcc_of_le hx.2.le (not_lt.mp hle)))
  · exact Set.subset_ordConnectedComponent hx hsub

/-- The block that an interval makes with a part of a canonical list. -/
theorem Canonical.ordConnectedComponent_block {k m l : List (RightOpenInterval T)}
    {I : RightOpenInterval T} {b e : T} (h : Canonical (k ++ m ++ l)) (hb : b ≤ I.begin)
    (he : I.stop ≤ e) (hk : ∀ J ∈ k, J.stop < b) (hl : ∀ J ∈ l, e < J.begin)
    (hblock : Set.Ico b e = I.carrier ∪ cover m) :
    (cover (k ++ m ++ l) ∪ I.carrier).ordConnectedComponent I.begin = Set.Ico b e := by
  have hunion : cover (k ++ m ++ l) ∪ I.carrier = cover k ∪ Set.Ico b e ∪ cover l := by
    rw [hblock, cover_append, cover_append]
    ext x
    simp only [Set.mem_union]
    tauto
  have hI : I.begin ∈ Set.Ico b e := ⟨hb, I.begin_lt_stop.trans_le he⟩
  have hend : ∀ x ≤ e, x ∉ cover l := fun x hx ⟨J, hJ, hJb, _⟩ ↦ (hx.trans_lt (hl J hJ)).not_ge hJb
  have hlt : b < e := hI.1.trans_lt hI.2
  rw [hunion]
  apply ordConnectedComponent_eq_Ico hI
  · exact fun x hx ↦ .inl (.inr hx)
  · intro y hy
    by_cases hyk : y ∈ cover k
    · -- the end of the interval that `y` lies in
      obtain ⟨J, hJ, -, hyJ⟩ := hyk
      have hJb := hk J hJ
      refine ⟨J.stop, ?_, hyJ.le, hJb⟩
      rintro ((hJk | hJI) | hJl)
      · have hcan := (append_iff.mp (append_iff.mp h).1).1
        exact hcan.stop_notMem_cover hJ hJk
      · exact hJI.1.not_gt hJb
      · exact hend _ (hJb.trans hlt).le hJl
    · refine ⟨y, ?_, le_rfl, hy⟩
      rintro ((hy' | hy') | hy')
      · exact hyk hy'
      · exact hy'.1.not_gt hy
      · exact hend _ (hy.trans hlt).le hy'
  · rintro ((⟨J, hJ, -, hJs⟩ | hmem) | hmem)
    · exact ((hk J hJ).trans hlt).not_gt hJs
    · exact hmem.2.false
    · exact hend e le_rfl hmem

end Tns.Library
