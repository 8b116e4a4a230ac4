import Mathlib.Data.List.Nodup
import Mathlib.Logic.Function.Basic

/-!
# Lists searched by a key

The first element with a given key.  When the keys are distinct, replacing an
element by one with the same key and appending an element with a new key update
the lookup function at that key.
-/

namespace Tns.Library

variable {α κ : Type*} [DecidableEq κ] {key : α → κ} {l pre post : List α} {a b : α} {k : κ}

/-- The first element of `l` with key `k`. -/
def lookup (key : α → κ) (l : List α) (k : κ) : Option α := l.find? fun a ↦ key a = k

theorem lookup_eq_none : lookup key l k = none ↔ ∀ a ∈ l, key a ≠ k := by
  simp [lookup]

theorem key_of_lookup (h : lookup key l k = some a) : key a = k := by
  simpa using List.find?_some h

theorem mem_of_lookup (h : lookup key l k = some a) : a ∈ l := List.mem_of_find?_eq_some h

/-- With distinct keys the lookup finds every element by its key. -/
theorem lookup_eq_some (hl : (l.map key).Nodup) : lookup key l k = some a ↔ a ∈ l ∧ key a = k := by
  constructor
  · intro h
    exact ⟨mem_of_lookup h, key_of_lookup h⟩
  · rintro ⟨ha, rfl⟩
    cases hlookup : lookup key l (key a) with
    | none => exact absurd rfl (lookup_eq_none.mp hlookup a ha)
    | some b =>
        rw [List.inj_on_of_nodup_map hl (mem_of_lookup hlookup) ha (key_of_lookup hlookup)]

theorem lookup_of_first (hpre : ∀ x ∈ pre, key x ≠ key a) :
    lookup key (pre ++ a :: post) (key a) = some a := by
  have hnone : lookup key pre (key a) = none := lookup_eq_none.mpr hpre
  rw [lookup] at hnone ⊢
  rw [List.find?_append, hnone, Option.none_or, List.find?_cons_of_pos (by simp)]

theorem lookup_replace (hpre : ∀ x ∈ pre, key x ≠ key a) (hkey : key b = key a) :
    lookup key (pre ++ b :: post) =
      Function.update (lookup key (pre ++ a :: post)) (key a) (some b) := by
  funext k
  by_cases hk : k = key a
  · subst hk
    have hb : ∀ x ∈ pre, key x ≠ key b := by rwa [hkey]
    rw [Function.update_self, ← hkey]
    exact lookup_of_first hb
  · rw [Function.update_of_ne hk, lookup, lookup, List.find?_append, List.find?_append,
      List.find?_cons_of_neg (by simpa [hkey] using Ne.symm hk),
      List.find?_cons_of_neg (by simpa using Ne.symm hk)]

/-- Updates at two keys agree only if neither of them changes anything. -/
theorem update_eq_update_iff {β : Type*} {f : κ → β} {i j : κ} {x y : β} (hne : i ≠ j) :
    Function.update f i x = Function.update f j y ↔ x = f i ∧ y = f j := by
  rw [Function.update_eq_iff, Function.update_of_ne hne, and_congr_right_iff]
  intro hx
  constructor
  · intro h
    have hj := h j hne.symm
    rw [Function.update_self] at hj
    exact hj.symm
  · rintro rfl k -
    rw [Function.update_eq_self]

theorem lookup_concat (habsent : ∀ x ∈ l, key x ≠ key a) :
    lookup key (l ++ [a]) = Function.update (lookup key l) (key a) (some a) := by
  funext k
  by_cases hk : k = key a
  · subst hk
    rw [Function.update_self]
    exact lookup_of_first habsent
  · rw [Function.update_of_ne hk, lookup, lookup, List.find?_append,
      List.find?_cons_of_neg (by simpa using Ne.symm hk), List.find?_nil, Option.or_none]

/-- With distinct keys, erasing the first element with a key erases the one known to have it. -/
theorem perm_cons_eraseP_key (hl : (l.map key).Nodup) (ha : a ∈ l) :
    l.Perm (a :: l.eraseP (key · = key a)) := by
  obtain ⟨b, l₁, l₂, -, hb, hsplit, herase⟩ :=
    List.exists_of_eraseP (p := fun x ↦ decide (key x = key a)) ha (by simp)
  have hmem : b ∈ l := by simp [hsplit]
  obtain rfl : b = a := List.inj_on_of_nodup_map hl hmem ha (by simpa using hb)
  rw [herase, hsplit]
  exact List.perm_middle

/-- With distinct keys, erasing the first element with a key erases the only one. -/
theorem mem_eraseP_key (hl : (l.map key).Nodup) :
    a ∈ l.eraseP (key · = k) ↔ a ∈ l ∧ key a ≠ k := by
  induction l with
  | nil => simp
  | cons b l ih =>
      rw [List.map_cons, List.nodup_cons] at hl
      by_cases hb : key b = k
      · rw [List.eraseP_cons_of_pos (by simpa using hb), List.mem_cons]
        constructor
        · intro ha
          refine ⟨.inr ha, fun hk ↦ hl.1 ?_⟩
          rw [hb, ← hk]
          exact List.mem_map_of_mem ha
        · rintro ⟨rfl | ha, hk⟩
          · exact absurd hb hk
          · exact ha
      · rw [List.eraseP_cons_of_neg (by simpa using hb), List.mem_cons, List.mem_cons, ih hl.2]
        constructor
        · rintro (rfl | ⟨ha, hk⟩)
          · exact ⟨.inl rfl, hb⟩
          · exact ⟨.inr ha, hk⟩
        · rintro ⟨rfl | ha, hk⟩
          · exact .inl rfl
          · exact .inr ⟨ha, hk⟩

/-! ## Sorted lists -/

/-- The elements of a sorted list with a key that is neither less nor greater. -/
def equalRange (lt : κ → κ → Bool) (key : α → κ) (l : List α) (k : κ) : List α :=
  (l.dropWhile fun a ↦ lt (key a) k).takeWhile fun a ↦ !lt k (key a)

/-- In a sorted list the equal range starts with the element that a search from the start finds. -/
theorem head?_equalRange {lt : κ → κ → Bool} (heq : ∀ i j, lt i j = false → lt j i = false → i = j)
    (hirrefl : ∀ i, lt i i = false)
    (hsorted : l.Pairwise fun a b ↦ lt (key b) (key a) = false) (k : κ) :
    (equalRange lt key l k).head? = lookup key l k := by
  induction l with
  | nil => rfl
  | cons a l ih =>
      obtain ⟨hhead, htail⟩ := List.pairwise_cons.mp hsorted
      by_cases hless : lt (key a) k = true
      · have hne : key a ≠ k := by
          rintro rfl
          rw [hirrefl] at hless
          cases hless
        rw [equalRange, List.dropWhile_cons, if_pos hless, lookup, List.find?_cons,
          decide_eq_false hne]
        exact ih htail
      · rw [equalRange, List.dropWhile_cons, if_neg hless]
        by_cases hgreater : lt k (key a) = true
        · have hne : ∀ b ∈ a :: l, key b ≠ k := by
            rintro b hb rfl
            rcases List.mem_cons.mp hb with rfl | hb
            · rw [hirrefl] at hgreater
              cases hgreater
            · rw [hhead b hb] at hgreater
              cases hgreater
          rw [List.takeWhile_cons_of_neg (by simp [hgreater]), lookup_eq_none.mpr hne]
          rfl
        · have hkey : key a = k :=
            heq _ _ (Bool.eq_false_iff.mpr hless) (Bool.eq_false_iff.mpr hgreater)
          rw [List.takeWhile_cons_of_pos (by simp [hgreater]), lookup, List.find?_cons,
            decide_eq_true hkey]
          rfl

end Tns.Library
