import Mathlib.Data.List.Basic
import Mathlib.Data.List.TakeWhile
import Tns.Library.Interval
import Tns.Util

/-!
# The set of early arrivals

`RightOpenIntervalSet` keeps a `std::set` of right-open intervals, here its
elements in iteration order.  Both operations find their neighbours with
`lower_bound` and a probe key `{end + 1, end + 2}`.  On a canonical set they
compute the union with an interval and the end of its connected block.
-/

namespace Tns.Tcp

open Tns.Library

variable {T : Type} [LinearOrder T]

namespace RightOpenInterval

/-- The constructor, which throws on an empty interval. -/
def make (begin stop : T) : Exec (RightOpenInterval T) :=
  if h : begin < stop then .ok ⟨begin, stop, h⟩
  else .error (.invalidArgument "RightOpenInterval: begin >= end")

/-- The defaulted `operator<=>`: lexicographic in `begin` and `end`. -/
def less (I J : RightOpenInterval T) : Bool :=
  decide (I.begin < J.begin ∨ I.begin = J.begin ∧ I.stop < J.stop)

@[simp] theorem make_eq_ok {b e : T} {I : RightOpenInterval T} :
    make b e = .ok I ↔ I.begin = b ∧ I.stop = e := by
  unfold make
  split
  · rw [Except.ok.injEq, Library.RightOpenInterval.ext_iff]
    exact and_congr eq_comm eq_comm
  · rename_i hne
    simp only [reduceCtorEq, false_iff, not_and]
    rintro rfl rfl
    exact hne I.begin_lt_stop

@[simp] theorem less_eq_true {I J : RightOpenInterval T} :
    less I J = true ↔ I.begin < J.begin ∨ I.begin = J.begin ∧ I.stop < J.stop := by
  simp [less]

end RightOpenInterval

open RightOpenInterval

/-- `std::set<RightOpenInterval<T>>`, in iteration order. -/
structure RightOpenIntervalSet (T : Type) [LT T] where
  intervals : List (RightOpenInterval T) := []

/-- The position of the first element that is not less than `key`. -/
def lowerBound (l : List (RightOpenInterval T)) (key : RightOpenInterval T) : ℕ :=
  (l.takeWhile (less · key)).length

/-- `std::set::emplace`: insert in order unless an equal element is there. -/
def emplace (l : List (RightOpenInterval T)) (I : RightOpenInterval T) :
    List (RightOpenInterval T) :=
  if l[lowerBound l I]? = some I then l
  else l.take (lowerBound l I) ++ I :: l.drop (lowerBound l I)

/-- The part shared by both operations: starting from an interval `[begin, stop)` whose
position in `l` is `pos`, step to the previous element if it can be merged.
Returns the new `begin`, the new `end` and the leftmost position to merge. -/
def mergeLeft (l : List (RightOpenInterval T)) (pos : ℕ) (I : RightOpenInterval T) :
    T × T × ℕ :=
  match pos with
  | 0 => (I.begin, I.stop, 0)
  | p + 1 =>
      match l[p]? with
      | some ll =>
          if I.begin ≤ ll.stop then (ll.begin, max I.stop ll.stop, p)
          else (I.begin, I.stop, p + 1)
      | none => (I.begin, I.stop, p + 1)

/-- `std::prev(right)->end`; stepping back from `begin()` is undefined. -/
def prevEnd (l : List (RightOpenInterval T)) (right : ℕ) : Exec T :=
  match right with
  | 0 => .error .undefinedBehaviour
  | r + 1 =>
      match l[r]? with
      | some J => .ok J.stop
      | none => .error .undefinedBehaviour

/-- `std::set::erase(left, right)`; undefined unless `left` is at or before `right`. -/
def eraseRange (l : List (RightOpenInterval T)) (left right : ℕ) :
    Exec (List (RightOpenInterval T)) :=
  if left ≤ right then .ok (l.take left ++ l.drop right) else .error .undefinedBehaviour

namespace RightOpenIntervalSet

variable [Add T] [OfNat T 1] [OfNat T 2]

/-- Add an interval, merging it with everything it overlaps or touches, and return
the end of the merged interval. -/
def emplaceMerge (s : RightOpenIntervalSet T) (interval : RightOpenInterval T) :
    Exec (T × RightOpenIntervalSet T) := do
  let center := lowerBound s.intervals interval
  if s.intervals[center]? = some interval then
    return (interval.stop, s)
  let l := emplace s.intervals interval
  let (begin, stop, left) := mergeLeft l center interval
  let probe ← RightOpenInterval.make (stop + 1) (stop + 2)
  let right := lowerBound l probe
  if right ≠ left + 1 then
    let last ← prevEnd l right
    let stop := max stop last
    let erased ← eraseRange l left right
    let merged ← RightOpenInterval.make begin stop
    return (stop, ⟨emplace erased merged⟩)
  return (stop, ⟨l⟩)

/-- Remove everything `interval` overlaps or touches and return the end of the block. -/
def mergeRemove (s : RightOpenIntervalSet T) (interval : RightOpenInterval T) :
    Exec (T × RightOpenIntervalSet T) := do
  let l := s.intervals
  let (_, stop, left) := mergeLeft l (lowerBound l interval) interval
  let probe ← RightOpenInterval.make (stop + 1) (stop + 2)
  let right := lowerBound l probe
  if right ≠ 0 then
    let last ← prevEnd l right
    let erased ← eraseRange l left right
    return (max stop last, ⟨erased⟩)
  return (stop, s)

end RightOpenIntervalSet

/-! ## Splitting a canonical list at a key -/

section Split

variable {l m : List (RightOpenInterval T)} {I key : RightOpenInterval T}

theorem lowerBound_append (h : ∀ J ∈ l, less J key = true) :
    lowerBound (l ++ m) key = l.length + lowerBound m key := by
  rw [lowerBound, lowerBound, List.takeWhile_append_of_pos h, List.length_append]

theorem lowerBound_eq_zero (h : ∀ J ∈ l, less J key = false) : lowerBound l key = 0 := by
  cases l with
  | nil => rfl
  | cons J l => simp [lowerBound, h J List.mem_cons_self]

theorem exists_split (l : List (RightOpenInterval T)) (key : RightOpenInterval T) :
    ∃ a b, l = a ++ b ∧ lowerBound l key = a.length ∧ (∀ J ∈ a, less J key = true) ∧
      lowerBound b key = 0 := by
  refine ⟨l.takeWhile (less · key), l.dropWhile (less · key),
    List.takeWhile_append_dropWhile.symm, rfl, ?_, ?_⟩
  · intro J hJ
    exact List.mem_takeWhile_imp (p := (less · key)) hJ
  cases hdrop : l.dropWhile (less · key) with
  | nil => rfl
  | cons J b =>
      have hhead : less J key = false := by
        have hne : l.dropWhile (less · key) ≠ [] := by simp [hdrop]
        have := List.head_dropWhile_not (less · key) hne
        simpa [hdrop] using this
      simp [lowerBound, hhead]

theorem begin_le_of_lowerBound_eq_zero (hl : Canonical l) (h : lowerBound l key = 0) :
    ∀ J ∈ l, key.begin ≤ J.begin := by
  cases l with
  | nil => simp
  | cons J l =>
      have hJ : key.begin ≤ J.begin := by
        have hless : less J key = false := by
          by_contra hne
          simp [lowerBound, Bool.eq_true_of_not_eq_false hne] at h
        simp only [less, decide_eq_false_iff_not, not_or, not_lt] at hless
        exact hless.1
      intro K hK
      rcases List.mem_cons.mp hK with rfl | hK
      · exact hJ
      · have hlt := (Canonical.cons_iff.mp hl).1 K hK
        exact (hJ.trans_lt (J.begin_lt_stop.trans hlt)).le

/-- What `mergeLeft` finds at `lower_bound(I)`: the part `k` it leaves alone, the part `c`
it merges, and the block `[b, e)` these make together with `I`. -/
theorem mergeLeft_spec {a : List (RightOpenInterval T)} (ha : Canonical a)
    (hless : ∀ J ∈ a, less J I = true) (m : List (RightOpenInterval T)) :
    ∃ k c b e, a = k ++ c ∧ mergeLeft (a ++ m) a.length I = (b, e, k.length) ∧
      b ≤ I.begin ∧ I.stop ≤ e ∧ (∀ J ∈ k, J.stop < b) ∧
      (∀ J ∈ k ++ c, J.stop ≤ e) ∧ Set.Ico b e = I.carrier ∪ cover c := by
  rcases List.eq_nil_or_concat a with rfl | ⟨k, ll, rfl⟩
  · refine ⟨[], [], I.begin, I.stop, rfl, rfl, le_rfl, le_rfl, by simp, by simp, ?_⟩
    simp [Library.RightOpenInterval.carrier]
  · rw [List.concat_eq_append] at ha hless ⊢
    have hget : (k ++ [ll] ++ m)[k.length]? = some ll := by simp
    have hbegin : ll.begin ≤ I.begin := by
      rcases less_eq_true.mp (hless ll (by simp)) with h | h
      · exact h.le
      · exact h.1.le
    by_cases htouch : I.begin ≤ ll.stop
    · refine ⟨k, [ll], ll.begin, max I.stop ll.stop, rfl, ?_, hbegin, le_max_left _ _, ?_, ?_, ?_⟩
      · simp [mergeLeft, htouch]
      · exact fun J hJ ↦ (Canonical.append_iff.mp ha).2.2 J hJ ll List.mem_cons_self
      · exact fun J hJ ↦ (Canonical.stop_le_of_mem_concat ha hJ).trans (le_max_right _ _)
      · ext x
        have hI := I.begin_lt_stop
        simp only [Set.mem_Ico, lt_max_iff, cover_cons, cover_nil, Set.union_empty,
          Set.mem_union, Library.RightOpenInterval.mem_carrier]
        constructor
        · rintro ⟨hx, hx'⟩
          rcases lt_or_ge x ll.stop with h | h
          · exact Or.inr ⟨hx, h⟩
          · exact Or.inl ⟨htouch.trans h, hx'.resolve_right h.not_gt⟩
        · rintro (⟨hx, hx'⟩ | ⟨hx, hx'⟩)
          · exact ⟨hbegin.trans hx, Or.inl hx'⟩
          · exact ⟨hx, Or.inr hx'⟩
    · have hbefore : ∀ J ∈ k ++ [ll], J.stop < I.begin := fun J hJ ↦
        (Canonical.stop_le_of_mem_concat ha hJ).trans_lt (not_le.mp htouch)
      refine ⟨k ++ [ll], [], I.begin, I.stop, by simp, ?_, le_rfl, le_rfl, hbefore, ?_, ?_⟩
      · simp [mergeLeft, htouch]
      · rw [List.append_nil]
        exact fun J hJ ↦ ((hbefore J hJ).trans I.begin_lt_stop).le
      · simp [Library.RightOpenInterval.carrier]

/-- What lies between a block ending at `e` and `lower_bound({e + 1, e + 2})`: after
merging it, the block ends at `max e last` and touches nothing further right. -/
theorem absorb_right {p b₁ b₂ : List (RightOpenInterval T)} {e last : T}
    (hcan : Canonical (b₁ ++ b₂)) (hp : ∀ J ∈ p, J.stop ≤ e)
    (h₁ : ∀ J ∈ b₁, J.begin ≤ e) (h₂ : ∀ J ∈ b₂, e < J.begin)
    (hlast : prevEnd (p ++ (b₁ ++ b₂)) (p.length + b₁.length) = .ok last) :
    Set.Ico e (max e last) ⊆ cover b₁ ∧ (∀ J ∈ b₁, J.stop ≤ max e last) ∧
      ∀ J ∈ b₂, max e last < J.begin := by
  rcases List.eq_nil_or_concat b₁ with rfl | ⟨b', J, rfl⟩
  · have hle : last ≤ e := by
      cases hlen : p.length with
      | zero => simp [prevEnd, hlen] at hlast
      | succ n =>
          have hn : n < p.length := by omega
          simp only [prevEnd, hlen, List.length_nil, Nat.add_zero,
            List.getElem?_append_left hn, List.getElem?_eq_getElem hn, Except.ok.injEq] at hlast
          exact hlast ▸ hp _ (List.getElem_mem hn)
    rw [max_eq_left hle]
    exact ⟨by simp, by simp, h₂⟩
  · rw [List.concat_eq_append] at hcan h₁ hlast ⊢
    have hlastEq : last = J.stop := by
      have hget : (p ++ (b' ++ [J] ++ b₂))[p.length + b'.length]? = some J := by simp
      simp only [List.length_append, List.length_singleton, ← Nat.add_assoc, prevEnd, hget,
        Except.ok.injEq] at hlast
      exact hlast.symm
    subst hlastEq
    obtain ⟨hb₁, -, hcross⟩ := Canonical.append_iff.mp hcan
    refine ⟨?_, ?_, ?_⟩
    · rintro x ⟨hx, hx'⟩
      refine ⟨J, by simp, (h₁ J (by simp)).trans hx, ?_⟩
      exact (lt_max_iff.mp hx').resolve_left hx.not_gt
    · exact fun K hK ↦ (Canonical.stop_le_of_mem_concat hb₁ hK).trans (le_max_right _ _)
    · exact fun K hK ↦ max_lt (h₂ K hK) (hcross J (by simp) K hK)

theorem exists_prevEnd_append (p b₁ b₂ : List (RightOpenInterval T))
    (hne : p.length + b₁.length ≠ 0) :
    ∃ last, prevEnd (p ++ (b₁ ++ b₂)) (p.length + b₁.length) = .ok last := by
  obtain ⟨r, hr⟩ := Nat.exists_eq_succ_of_ne_zero hne
  have hlt : r < (p ++ (b₁ ++ b₂)).length := by
    simp only [List.length_append]
    omega
  rw [hr]
  exact ⟨_, by simp only [prevEnd, List.getElem?_eq_getElem hlt]; rfl⟩

/-- Adding the interval itself to what `mergeLeft` has passed. -/
theorem stop_le_of_mem_concat {k c : List (RightOpenInterval T)} {e : T}
    (hc : ∀ J ∈ k ++ c, J.stop ≤ e) (hI : I.stop ≤ e) : ∀ J ∈ k ++ (c ++ [I]), J.stop ≤ e := by
  intro J hJ
  rw [← List.append_assoc] at hJ
  rcases List.mem_append.mp hJ with hJ | hJ
  · exact hc J hJ
  · exact List.mem_singleton.mp hJ ▸ hI

theorem mergeLeft_stop (l : List (RightOpenInterval T)) (pos : ℕ) (I : RightOpenInterval T) :
    (mergeLeft l pos I).2.1 = I.stop ∨ ∃ J ∈ l, (mergeLeft l pos I).2.1 = J.stop := by
  unfold mergeLeft
  split
  · exact .inl rfl
  · split
    · rename_i ll hget
      split
      · rcases max_choice I.stop ll.stop with hmax | hmax <;> simp only [hmax]
        · exact .inl trivial
        · exact .inr ⟨ll, List.mem_of_getElem? hget, rfl⟩
      · exact .inl rfl
    · exact .inl rfl

end Split

/-! ## The probe key -/

/-- The counting type of the endpoints: `{e + 1, e + 2}`, where it is an interval at all,
is the least key above `e`, unless `e` is the greatest value and `e + 1` wraps to the least. -/
class ProbeKeys (T : Type) [LinearOrder T] [Add T] [OfNat T 1] [OfNat T 2] : Prop where
  succ_le : ∀ e x : T, e + 1 < e + 2 → e + 1 < x → e + 2 ≤ x
  next_or_wraps : ∀ e : T, e + 1 < e + 2 →
    (∀ x, e < x ↔ e + 1 ≤ x) ∨ (∀ x, e + 1 ≤ x) ∧ ∀ x, x ≤ e

instance : ProbeKeys UInt32 where
  succ_le e x h hx := by
    have hbound := e.toNat_lt
    simp only [UInt32.lt_iff_toNat_lt, UInt32.le_iff_toNat_le, UInt32.toNat_add,
      UInt32.reduceToNat] at h hx ⊢
    omega
  next_or_wraps e h := by
    have hbound := e.toNat_lt
    simp only [UInt32.lt_iff_toNat_lt, UInt32.le_iff_toNat_le, UInt32.toNat_add,
      UInt32.reduceToNat] at h ⊢
    by_cases hmax : e.toNat + 1 < 2 ^ 32
    · left
      intro x
      omega
    · right
      refine ⟨fun x ↦ by omega, fun x ↦ ?_⟩
      have := x.toNat_lt
      omega

section Probe

variable [Add T] [OfNat T 1] [OfNat T 2] [ProbeKeys T]
  {p b : List (RightOpenInterval T)} {e : T} {probe : RightOpenInterval T}

theorem less_probe_iff (hprobe : RightOpenInterval.make (e + 1) (e + 2) = .ok probe)
    {J : RightOpenInterval T} : less J probe = true ↔ J.begin < e + 1 := by
  obtain ⟨hb, hs⟩ := RightOpenInterval.make_eq_ok.mp hprobe
  have hlt : e + 1 < e + 2 := hb ▸ hs ▸ probe.begin_lt_stop
  rw [less_eq_true, hb, hs]
  apply or_iff_left
  rintro ⟨heq, hJ⟩
  have hle := ProbeKeys.succ_le e J.stop hlt (heq ▸ J.begin_lt_stop)
  exact hJ.not_ge hle

/-- `lower_bound` of the probe key: past everything that begins at `e` or before, or,
when `e + 1` wraps, at the very front. -/
theorem lowerBound_probe (hprobe : RightOpenInterval.make (e + 1) (e + 2) = .ok probe)
    (hp : ∀ J ∈ p, J.stop ≤ e) (hb : Canonical b) :
    (∃ b₁ b₂, b = b₁ ++ b₂ ∧ lowerBound (p ++ b) probe = p.length + b₁.length ∧
      (∀ J ∈ b₁, J.begin ≤ e) ∧ ∀ J ∈ b₂, e < J.begin) ∨
    lowerBound (p ++ b) probe = 0 ∧ ∀ x, x ≤ e := by
  have hlt : e + 1 < e + 2 := by
    obtain ⟨hb, hs⟩ := RightOpenInterval.make_eq_ok.mp hprobe
    exact hb ▸ hs ▸ probe.begin_lt_stop
  rcases ProbeKeys.next_or_wraps e hlt with hnext | ⟨hleast, hgreatest⟩
  · left
    have hiff : ∀ J, less J probe = true ↔ J.begin ≤ e := by
      intro J
      rw [less_probe_iff hprobe, ← not_le, ← hnext, not_lt]
    obtain ⟨b₁, b₂, rfl, hlen, hb₁, hb₂⟩ := exists_split b probe
    refine ⟨b₁, b₂, rfl, ?_, fun J hJ ↦ (hiff J).mp (hb₁ J hJ), ?_⟩
    · have hbefore : ∀ J ∈ p, less J probe = true := fun J hJ ↦
        (hiff J).mpr (J.begin_lt_stop.trans_le (hp J hJ)).le
      rw [lowerBound_append hbefore, hlen]
    · intro J hJ
      have hle := begin_le_of_lowerBound_eq_zero (Canonical.append_iff.mp hb).2.1 hb₂ J hJ
      rw [(RightOpenInterval.make_eq_ok.mp hprobe).1] at hle
      exact (hnext _).mpr hle
  · right
    refine ⟨lowerBound_eq_zero fun J _ ↦ ?_, hgreatest⟩
    rw [← Bool.not_eq_true, less_probe_iff hprobe]
    exact (hleast _).not_gt

end Probe

/-! ## The two operations on the covered set -/

theorem emplace_between {k b : List (RightOpenInterval T)} {I : RightOpenInterval T}
    (hk : ∀ J ∈ k, J.stop < I.begin) (hb : ∀ J ∈ b, I.stop < J.begin) :
    emplace (k ++ b) I = k ++ I :: b := by
  have hlen : lowerBound (k ++ b) I = k.length := by
    rw [lowerBound_append, lowerBound_eq_zero, Nat.add_zero]
    · intro J hJ
      have hlt := I.begin_lt_stop.trans (hb J hJ)
      simp [less, hlt.not_gt, hlt.ne']
    · intro J hJ
      exact less_eq_true.mpr (Or.inl (J.begin_lt_stop.trans (hk J hJ)))
  have hne : (k ++ b)[k.length]? ≠ some I := by
    intro h
    have hget : b[0]? = some I := by simpa [List.getElem?_append_right] using h
    exact ((hb I (List.mem_of_getElem? hget)).trans I.begin_lt_stop).false
  rw [emplace, hlen, if_neg hne, List.take_left, List.drop_left]

theorem eraseRange_append (k m b₁ b₂ : List (RightOpenInterval T)) :
    eraseRange (k ++ m ++ (b₁ ++ b₂)) k.length ((k ++ m).length + b₁.length) = .ok (k ++ b₂) := by
  rw [eraseRange, if_pos (by rw [List.length_append]; omega), ← List.append_assoc,
    ← List.length_append, List.drop_left, List.append_assoc, List.append_assoc, List.take_left]

namespace RightOpenIntervalSet

variable [Add T] [OfNat T 1] [OfNat T 2] [ProbeKeys T]
  {s s' : RightOpenIntervalSet T} {I : RightOpenInterval T} {e : T}

/-- On a canonical set `emplaceMerge` finds the interval there, or it replaces the elements `m`
that make a block with it by the block. -/
theorem emplaceMerge_cases (hs : Canonical s.intervals) (h : s.emplaceMerge I = .ok (e, s')) :
    (s' = s ∧ I ∈ s.intervals ∧ e = I.stop) ∨
      ∃ k m b M, s.intervals = k ++ m ++ b ∧ s'.intervals = k ++ M :: b ∧ M.stop = e ∧
        (∀ J ∈ k, J.stop < M.begin) ∧ (∀ J ∈ b, M.stop < J.begin) ∧
        M.carrier = I.carrier ∪ cover m := by
  obtain ⟨l⟩ := s
  obtain ⟨a, b, rfl, hlen, ha, hb⟩ := exists_split l I
  obtain ⟨hcanA, hcanB, hcross⟩ := Canonical.append_iff.mp hs
  simp only [emplaceMerge, hlen] at h
  split at h
  · rename_i hthere
    simp only [Exec.pure_eq_ok, Prod.mk.injEq] at h
    obtain ⟨rfl, rfl⟩ := h
    exact .inl ⟨rfl, List.mem_of_getElem? hthere, rfl⟩
  rename_i hnew
  right
  have hins : emplace (a ++ b) I = a ++ I :: b := by
    rw [emplace, hlen, if_neg hnew, List.take_left, List.drop_left]
  rw [hins] at h
  obtain ⟨k, c, bg, e₁, rfl, hleft, hbg, he₁, hk, hc, hblock⟩ :=
    mergeLeft_spec hcanA ha (I :: b)
  rw [hleft] at h
  simp only [Exec.bind_eq_ok] at h
  obtain ⟨probe, hprobe, h⟩ := h
  have hassoc : k ++ c ++ I :: b = k ++ (c ++ [I]) ++ b := by simp
  rw [hassoc] at h
  have hp := stop_le_of_mem_concat hc he₁
  rcases lowerBound_probe hprobe hp hcanB with ⟨b₁, b₂, rfl, hright, hb₁, hb₂⟩ | ⟨hright, -⟩
  · rw [hright] at h
    split at h
    · -- Something besides the new interval is merged.
      simp only [Exec.bind_eq_ok, Exec.pure_eq_ok, Prod.mk.injEq] at h
      obtain ⟨last, hlast, erased, herase, M, hM, rfl, rfl⟩ := h
      obtain ⟨hgrow, hb₁stop, hb₂begin⟩ := absorb_right hcanB hp hb₁ hb₂ hlast
      obtain ⟨hMb, hMs⟩ := RightOpenInterval.make_eq_ok.mp hM
      have hkb : erased = k ++ b₂ :=
        Except.ok.inj (herase.symm.trans (eraseRange_append k (c ++ [I]) b₁ b₂))
      have hkM : ∀ J ∈ k, J.stop < M.begin := fun J hJ ↦ hMb ▸ hk J hJ
      have hMb₂ : ∀ J ∈ b₂, M.stop < J.begin := fun J hJ ↦ hMs ▸ hb₂begin J hJ
      have hMset : M.carrier = I.carrier ∪ cover c ∪ cover b₁ := by
        rw [← hblock, Library.RightOpenInterval.carrier, hMb, hMs]
        refine Ico_eq_union_cover (le_max_left _ _) hgrow (fun J hJ ↦ ?_) hb₁stop
        exact hbg.trans (begin_le_of_lowerBound_eq_zero hcanB hb J (List.mem_append_left _ hJ))
      refine ⟨k, c ++ b₁, b₂, M, by simp, ?_, hMs, hkM, hMb₂, ?_⟩
      · rw [hkb, emplace_between hkM hMb₂]
      · rw [hMset, cover_append, Set.union_assoc]
    · -- The new interval touches nothing: the set with it inserted is already canonical.
      rename_i hone
      simp only [Exec.pure_eq_ok, Prod.mk.injEq] at h
      obtain ⟨rfl, rfl⟩ := h
      simp only [List.length_append, List.length_singleton, ne_eq, not_not] at hone
      have hcnil : c = [] := List.length_eq_zero_iff.mp (by omega)
      have hb₁nil : b₁ = [] := List.length_eq_zero_iff.mp (by omega)
      subst hcnil hb₁nil
      simp only [cover_nil, Set.union_empty] at hblock
      obtain rfl : e₁ = I.stop := by
        refine le_antisymm (not_lt.mp fun hlt ↦ ?_) he₁
        have hmem : I.stop ∈ Set.Ico bg e₁ := ⟨hbg.trans I.begin_lt_stop.le, hlt⟩
        rw [hblock] at hmem
        exact hmem.2.false
      refine ⟨k, [], b₂, I, by simp, by simp, rfl, fun J hJ ↦ (hk J hJ).trans_le hbg, hb₂, ?_⟩
      simp
  · -- `lower_bound` wrapped to the front: stepping back from it is undefined.
    rw [hright, if_pos (by omega)] at h
    simp [prevEnd] at h

/-- On a canonical set `emplaceMerge` adds the interval to the covered set and keeps
the set canonical. -/
theorem emplaceMerge_spec (hs : Canonical s.intervals)
    (h : s.emplaceMerge I = .ok (e, s')) :
    Canonical s'.intervals ∧ cover s'.intervals = cover s.intervals ∪ I.carrier := by
  rcases emplaceMerge_cases hs h with ⟨rfl, hI, -⟩ | ⟨k, m, b, M, hsplit, hs', -, hk, hb, hM⟩
  · exact ⟨hs, (Set.union_eq_left.mpr (carrier_subset_cover hI)).symm⟩
  · rw [hsplit] at hs ⊢
    obtain ⟨hleft, hcanB, -⟩ := Canonical.append_iff.mp hs
    rw [hs']
    refine ⟨Canonical.insert_between (Canonical.append_iff.mp hleft).1 hcanB hk hb, ?_⟩
    simp only [cover_append, cover_cons, hM]
    ext x
    simp only [Set.mem_union]
    tauto

omit [Add T] [OfNat T 1] [OfNat T 2] [ProbeKeys T] in
/-- What a block has after the interval is covered by the elements merged into it. -/
theorem mem_of_mem_block {m : List (RightOpenInterval T)} {bg x : T} (hbg : bg ≤ I.begin)
    (hblock : Set.Ico bg e = I.carrier ∪ cover m) (hx : x ∈ Set.Ico I.stop e) : x ∈ cover m := by
  have hmem : x ∈ Set.Ico bg e := ⟨hbg.trans (I.begin_lt_stop.le.trans hx.1), hx.2⟩
  rw [hblock] at hmem
  exact hmem.resolve_left fun hxI ↦ hxI.2.not_ge hx.1

/-- On a canonical set `mergeRemove` takes out the elements `m` that make a block `[bg, e)` with
`interval`, or, if the end of the block is the greatest value of all, takes out nothing. -/
theorem mergeRemove_cases (hs : Canonical s.intervals) (h : s.mergeRemove I = .ok (e, s')) :
    I.stop ≤ e ∧
      ((∃ k m b bg, s.intervals = k ++ m ++ b ∧ s'.intervals = k ++ b ∧ bg ≤ I.begin ∧
        (∀ J ∈ k, J.stop < bg) ∧ (∀ J ∈ m, J.stop ≤ e) ∧ (∀ J ∈ b, e < J.begin) ∧
        Set.Ico bg e = I.carrier ∪ cover m) ∨
      (s' = s ∧ (∀ x, x ≤ e) ∧ Set.Ico I.stop e ⊆ cover s.intervals)) := by
  obtain ⟨l⟩ := s
  obtain ⟨a, b, rfl, hlen, ha, hb⟩ := exists_split l I
  obtain ⟨hcanA, hcanB, hcross⟩ := Canonical.append_iff.mp hs
  simp only [mergeRemove, hlen] at h
  obtain ⟨k, c, bg, e₁, rfl, hleft, hbg, he₁, hk, hc, hblock⟩ := mergeLeft_spec hcanA ha b
  rw [hleft] at h
  simp only [Exec.bind_eq_ok] at h
  obtain ⟨probe, hprobe, h⟩ := h
  rcases lowerBound_probe hprobe hc hcanB with ⟨b₁, b₂, rfl, hright, hb₁, hb₂⟩ |
    ⟨hright, hgreatest⟩
  · rw [hright] at h
    -- The result in both branches, with the block ending at `e` and `k ++ b₂` left over.
    suffices hres : e₁ ≤ e ∧ Set.Ico e₁ e ⊆ cover b₁ ∧ (∀ J ∈ b₁, J.stop ≤ e) ∧
        (∀ J ∈ b₂, e < J.begin) ∧ s'.intervals = k ++ b₂ by
      obtain ⟨he, hgrow, hb₁stop, hb₂begin, hs'⟩ := hres
      refine ⟨he₁.trans he, .inl ⟨k, c ++ b₁, b₂, bg, by simp, hs', hbg, hk, ?_, hb₂begin, ?_⟩⟩
      · intro J hJ
        rcases List.mem_append.mp hJ with hJ | hJ
        · exact (hc J (List.mem_append_right k hJ)).trans he
        · exact hb₁stop J hJ
      · rw [cover_append, ← Set.union_assoc, ← hblock]
        refine Ico_eq_union_cover he hgrow (fun J hJ ↦ hbg.trans ?_) hb₁stop
        exact begin_le_of_lowerBound_eq_zero hcanB hb J (List.mem_append_left _ hJ)
    split at h
    · simp only [Exec.bind_eq_ok, Exec.pure_eq_ok, Prod.mk.injEq] at h
      obtain ⟨last, hlast, erased, herase, rfl, rfl⟩ := h
      obtain ⟨hgrow, hb₁stop, hb₂begin⟩ := absorb_right hcanB hc hb₁ hb₂ hlast
      refine ⟨le_max_left _ _, hgrow, hb₁stop, hb₂begin, ?_⟩
      exact Except.ok.inj (herase.symm.trans (eraseRange_append k c b₁ b₂))
    · rename_i hzero
      simp only [Exec.pure_eq_ok, Prod.mk.injEq] at h
      obtain ⟨rfl, rfl⟩ := h
      simp only [List.length_append, ne_eq, not_not] at hzero
      have hknil : k = [] := List.length_eq_zero_iff.mp (by omega)
      have hcnil : c = [] := List.length_eq_zero_iff.mp (by omega)
      have hb₁nil : b₁ = [] := List.length_eq_zero_iff.mp (by omega)
      subst hknil hcnil hb₁nil
      exact ⟨le_rfl, by simp, by simp, hb₂, rfl⟩
  · rw [hright, if_neg (by simp)] at h
    simp only [Exec.pure_eq_ok, Prod.mk.injEq] at h
    obtain ⟨rfl, rfl⟩ := h
    refine ⟨he₁, .inr ⟨rfl, hgreatest, ?_⟩⟩
    change _ ⊆ cover (k ++ c ++ b)
    rw [cover_append, cover_append]
    exact fun x hx ↦ Or.inl (Or.inr (mem_of_mem_block hbg hblock hx))

/-- On a canonical set `mergeRemove` returns the end of the block that `interval` makes with
the covered set, and keeps only what lies before the block or after it. -/
theorem mergeRemove_spec (hs : Canonical s.intervals) (h : s.mergeRemove I = .ok (e, s')) :
    I.stop ≤ e ∧ Set.Ico I.stop e ⊆ cover s.intervals ∧ e ∉ cover s.intervals ∧
      Canonical s'.intervals ∧ cover s'.intervals ⊆ cover s.intervals ∧
      ((∀ x ∈ cover s'.intervals, x < I.begin ∨ e < x) ∨ ∀ x, x ≤ e) := by
  obtain ⟨hIe, ⟨k, m, b, bg, hsplit, hs', hbg, hk, hm, hb, hblock⟩ | ⟨rfl, hgreatest, hblock⟩⟩ :=
    mergeRemove_cases hs h
  · rw [hsplit] at hs ⊢
    rw [hs']
    have hsub : (k ++ b).Sublist (k ++ m ++ b) :=
      (List.sublist_append_left k m).append (List.Sublist.refl b)
    have hmono := cover_mono fun J hJ ↦ hsub.subset hJ
    refine ⟨hIe, fun x hx ↦ ?_, ?_, hs.sublist hsub, hmono, .inl ?_⟩
    · rw [cover_append, cover_append]
      exact Or.inl (Or.inr (mem_of_mem_block hbg hblock hx))
    · rintro ⟨J, hJ, hJb, hJs⟩
      simp only [List.mem_append] at hJ
      rcases hJ with (hJ | hJ) | hJ
      · exact hJs.not_ge ((hk J hJ).le.trans (hbg.trans (I.begin_lt_stop.le.trans hIe)))
      · exact hJs.not_ge (hm J hJ)
      · exact (hb J hJ).not_ge hJb
    · rintro x ⟨J, hJ, hxb, hxs⟩
      rcases List.mem_append.mp hJ with hJ | hJ
      · exact .inl (hxs.trans ((hk J hJ).trans_le hbg))
      · exact .inr ((hb J hJ).trans_le hxb)
  · refine ⟨hIe, hblock, ?_, hs, subset_rfl, .inr hgreatest⟩
    rintro ⟨J, -, -, hJs⟩
    exact hJs.not_ge (hgreatest _)

/-- What is covered after the block stays. -/
theorem mem_of_mergeRemove (hs : Canonical s.intervals) (h : s.mergeRemove I = .ok (e, s')) {x : T}
    (hx : x ∈ cover s.intervals) (hlt : e < x) : x ∈ cover s'.intervals := by
  obtain ⟨-, ⟨k, m, b, bg, hsplit, hs', -, -, hm, -⟩ | ⟨-, hgreatest, -⟩⟩ :=
    mergeRemove_cases hs h
  · rw [hsplit, cover_append, cover_append] at hx
    rw [hs', cover_append]
    rcases hx with (hx | ⟨J, hJ, -, hJs⟩) | hx
    · exact .inl hx
    · exact absurd (hm J hJ) (hlt.trans hJs).not_ge
    · exact .inr hx
  · exact absurd (hgreatest x) hlt.not_ge

/-! ## When the operations succeed -/

/-- The two values after `e` can be formed. -/
def HasRoom (e : T) : Prop := e < e + 1 ∧ e + 1 < e + 2

omit [ProbeKeys T] in
theorem hasRoom_of_mergeLeft {l : List (RightOpenInterval T)} {pos left : ℕ} {b : T}
    (h : mergeLeft l pos I = (b, e, left)) (hI : HasRoom I.stop)
    (hroom : ∀ J ∈ l, HasRoom J.stop) : HasRoom e := by
  have hstop := mergeLeft_stop l pos I
  rw [h] at hstop
  rcases hstop with rfl | ⟨J, hJ, rfl⟩
  · exact hI
  · exact hroom J hJ

theorem exists_emplaceMerge (hs : Canonical s.intervals) (hI : HasRoom I.stop)
    (hroom : ∀ J ∈ s.intervals, HasRoom J.stop) : ∃ r, s.emplaceMerge I = .ok r := by
  obtain ⟨l⟩ := s
  obtain ⟨a, b, rfl, hlen, ha, hb⟩ := exists_split l I
  obtain ⟨hcanA, hcanB, hcross⟩ := Canonical.append_iff.mp hs
  simp only [emplaceMerge, hlen]
  split
  · exact ⟨_, rfl⟩
  rename_i hnew
  have hins : emplace (a ++ b) I = a ++ I :: b := by
    rw [emplace, hlen, if_neg hnew, List.take_left, List.drop_left]
  obtain ⟨k, c, bg, e₁, rfl, hleft, hbg, he₁, hk, hc, -⟩ := mergeLeft_spec hcanA ha (I :: b)
  have he₁room : HasRoom e₁ := by
    apply hasRoom_of_mergeLeft hleft hI
    intro J hJ
    rcases List.mem_append.mp hJ with hJ | hJ
    · exact hroom J (List.mem_append_left b hJ)
    · rcases List.mem_cons.mp hJ with rfl | hJ
      · exact hI
      · exact hroom J (List.mem_append_right _ hJ)
  obtain ⟨probe, hprobe⟩ : ∃ probe, RightOpenInterval.make (e₁ + 1) (e₁ + 2) = .ok probe :=
    ⟨_, dif_pos he₁room.2⟩
  have hassoc : k ++ c ++ I :: b = k ++ (c ++ [I]) ++ b := by simp
  rw [hins, hleft, hassoc]
  simp only [hprobe, Exec.ok_bind]
  have hp := stop_le_of_mem_concat hc he₁
  rcases lowerBound_probe hprobe hp hcanB with ⟨b₁, b₂, rfl, hright, -⟩ | ⟨-, hgreatest⟩
  · rw [hright]
    split
    · obtain ⟨last, hlast⟩ := exists_prevEnd_append (k ++ (c ++ [I])) b₁ b₂ (by simp)
      simp only [hlast, eraseRange_append k (c ++ [I]) b₁ b₂, Exec.ok_bind]
      have hlt : bg < max e₁ last := (hbg.trans_lt I.begin_lt_stop).trans_le
        (he₁.trans (le_max_left _ _))
      exact ⟨_, by rw [RightOpenInterval.make, dif_pos hlt]; rfl⟩
    · exact ⟨_, rfl⟩
  · exact absurd (hgreatest (e₁ + 1)) he₁room.1.not_ge

theorem exists_mergeRemove (hs : Canonical s.intervals) (hI : HasRoom I.stop)
    (hroom : ∀ J ∈ s.intervals, HasRoom J.stop) : ∃ r, s.mergeRemove I = .ok r := by
  obtain ⟨l⟩ := s
  obtain ⟨a, b, rfl, hlen, ha, hb⟩ := exists_split l I
  obtain ⟨hcanA, hcanB, hcross⟩ := Canonical.append_iff.mp hs
  simp only [mergeRemove, hlen]
  obtain ⟨k, c, bg, e₁, rfl, hleft, hbg, he₁, hk, hc, -⟩ := mergeLeft_spec hcanA ha b
  have he₁room : HasRoom e₁ := hasRoom_of_mergeLeft hleft hI hroom
  obtain ⟨probe, hprobe⟩ : ∃ probe, RightOpenInterval.make (e₁ + 1) (e₁ + 2) = .ok probe :=
    ⟨_, dif_pos he₁room.2⟩
  rw [hleft]
  simp only [hprobe, Exec.ok_bind]
  rcases lowerBound_probe hprobe hc hcanB with ⟨b₁, b₂, rfl, hright, -⟩ | ⟨-, hgreatest⟩
  · rw [hright]
    split
    · rename_i hne
      obtain ⟨last, hlast⟩ := exists_prevEnd_append (k ++ c) b₁ b₂ hne
      simp only [hlast, eraseRange_append k c b₁ b₂, Exec.ok_bind]
      exact ⟨_, rfl⟩
    · exact ⟨_, rfl⟩
  · exact absurd (hgreatest (e₁ + 1)) he₁room.1.not_ge

end RightOpenIntervalSet

end Tns.Tcp
