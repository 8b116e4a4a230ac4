import Mathlib.Combinatorics.SimpleGraph.Metric

/-!
# Hop distances

The hop distance of a vertex from a set is the length of the shortest walk to a
member.  Along an edge it changes by at most one, and on the way to the nearest
member it decreases by one.
-/

namespace Tns.Library

variable {V : Type*} {G : SimpleGraph V} {S : Set V} {u v : V}

/-- The number of edges from a vertex to the nearest member of the set. -/
noncomputable def hopDistance (G : SimpleGraph V) (S : Set V) (v : V) : ℕ∞ :=
  ⨅ u : S, G.edist v u

theorem hopDistance_le_edist (hu : u ∈ S) : hopDistance G S v ≤ G.edist v u :=
  iInf_le (fun u : S ↦ G.edist v u) ⟨u, hu⟩

/-- A finite hop distance is the distance from some member. -/
theorem exists_edist_eq_hopDistance {n : ℕ} (h : hopDistance G S v = n) :
    ∃ u ∈ S, G.edist v u = n := by
  have hne : Nonempty S := by
    by_contra hempty
    rw [not_nonempty_iff] at hempty
    rw [hopDistance, iInf_of_empty] at h
    exact ENat.top_ne_natCast n h
  obtain ⟨⟨u, hu⟩, heq⟩ := ENat.exists_eq_iInf fun u : S ↦ G.edist v u
  exact ⟨u, hu, heq.trans h⟩

theorem hopDistance_eq_zero_iff : hopDistance G S v = 0 ↔ v ∈ S := by
  constructor
  · intro h
    obtain ⟨u, hu, hdist⟩ := exists_edist_eq_hopDistance (n := 0) h
    rw [SimpleGraph.edist_eq_zero_iff.mp hdist]
    exact hu
  · intro hv
    apply nonpos_iff_eq_zero.mp
    exact (hopDistance_le_edist hv).trans SimpleGraph.edist_self.le

theorem hopDistance_le_succ (h : G.Adj v u) : hopDistance G S v ≤ hopDistance G S u + 1 := by
  rw [hopDistance, hopDistance, ENat.iInf_add]
  apply le_iInf
  intro w
  calc ⨅ w : S, G.edist v w
      ≤ G.edist v w := iInf_le _ w
    _ ≤ G.edist v u + G.edist u w := SimpleGraph.edist_triangle
    _ = G.edist u w + 1 := by rw [SimpleGraph.edist_eq_one_iff_adj.mpr h, add_comm]

/-- From a vertex outside the set one edge leads closer to it. -/
theorem exists_adj_of_hopDistance_eq {n : ℕ} (h : hopDistance G S v = n + 1) :
    ∃ u, G.Adj v u ∧ hopDistance G S u = n := by
  obtain ⟨w, hw, hdist⟩ := exists_edist_eq_hopDistance (n := n + 1) h
  obtain ⟨p, hp⟩ := SimpleGraph.exists_walk_of_edist_eq_coe hdist
  cases p with
  | nil => cases hp
  | @cons _ u _ hadj p =>
      refine ⟨u, hadj, le_antisymm ?_ ?_⟩
      · calc hopDistance G S u
            ≤ G.edist u w := hopDistance_le_edist hw
          _ ≤ p.length := SimpleGraph.edist_le p
          _ = n := by rw [SimpleGraph.Walk.length_cons, Nat.add_right_cancel_iff] at hp; rw [hp]
      · have hle := hopDistance_le_succ (S := S) hadj
        rw [h] at hle
        exact (ENat.add_le_add_iff_right ENat.one_ne_top).mp hle

end Tns.Library
