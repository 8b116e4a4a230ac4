import Mathlib.Algebra.Group.Nat.Defs
import Mathlib.Data.List.Forall2
import Mathlib.Order.Defs.LinearOrder
import Mathlib.Tactic.Common

/-!
# Machine words, blocking calls and aborts

`std::uint32_t` is `UInt32` and `std::size_t` is `ℕ` with an explicit wrap where
the code subtracts.  A critical section runs in `Exec`: it can fail an assertion,
throw, run into undefined behaviour, or find the predicate of its condition
variable false and go to sleep.
-/

namespace Tns

/-- `std::byte`. -/
abbrev Byte := UInt8

namespace Except

variable {ε α β : Type}

@[simp] theorem bind_eq_ok {x : Except ε α} {f : α → Except ε β} {b : β} :
    (x >>= f) = .ok b ↔ ∃ a, x = .ok a ∧ f a = .ok b := by
  cases x <;> simp [bind, Except.bind]

@[simp] theorem pure_eq_ok {a b : α} : (pure a : Except ε α) = .ok b ↔ a = b := by
  simp [pure, Except.pure]

@[simp] theorem ok_bind (a : α) (f : α → Except ε β) : ((.ok a : Except ε α) >>= f) = f a := rfl

@[simp] theorem error_bind (e : ε) (f : α → Except ε β) :
    ((.error e : Except ε α) >>= f) = .error e := rfl

theorem mapM_eq_ok {f : α → Except ε β} {as : List α} {bs : List β} :
    as.mapM f = .ok bs ↔ List.Forall₂ (fun a b ↦ f a = .ok b) as bs := by
  induction as generalizing bs with
  | nil =>
      rw [List.mapM_nil, pure_eq_ok, List.forall₂_nil_left_iff]
      exact eq_comm
  | cons a as ih =>
      rw [List.mapM_cons]
      simp only [bind_eq_ok, pure_eq_ok, List.forall₂_cons_left_iff, ih]
      constructor
      · rintro ⟨b, hb, bs', hbs', rfl⟩
        exact ⟨b, bs', hb, hbs', rfl⟩
      · rintro ⟨b, bs', hb, hbs', rfl⟩
        exact ⟨b, hb, bs', hbs', rfl⟩

theorem exists_mapM {f : α → Except ε β} {as : List α} (h : ∀ a ∈ as, ∃ b, f a = .ok b) :
    ∃ bs, as.mapM f = .ok bs := by
  induction as with
  | nil => exact ⟨[], rfl⟩
  | cons a as ih =>
      rw [List.forall_mem_cons] at h
      obtain ⟨b, hb⟩ := h.1
      obtain ⟨bs, hbs⟩ := ih h.2
      exact ⟨b :: bs, by rw [List.mapM_cons, hb, ok_bind, hbs]; rfl⟩

theorem exists_mem_of_mapM {f : α → Except ε β} {as : List α} {bs : List β}
    (h : as.mapM f = .ok bs) {a : α} (ha : a ∈ as) : ∃ b ∈ bs, f a = .ok b := by
  rw [mapM_eq_ok] at h
  induction h with
  | nil => cases ha
  | cons hhead _ ih =>
      rcases List.mem_cons.mp ha with rfl | ha
      · exact ⟨_, List.mem_cons_self, hhead⟩
      · obtain ⟨b, hb, hok⟩ := ih ha
        exact ⟨b, List.mem_cons_of_mem _ hb, hok⟩

theorem exists_of_mapM {f : α → Except ε β} {as : List α} {bs : List β} (h : as.mapM f = .ok bs)
    {b : β} (hb : b ∈ bs) : ∃ a ∈ as, f a = .ok b := by
  rw [mapM_eq_ok] at h
  induction h with
  | nil => cases hb
  | cons hhead _ ih =>
      rcases List.mem_cons.mp hb with rfl | hb
      · exact ⟨_, List.mem_cons_self, hhead⟩
      · obtain ⟨a, ha, hok⟩ := ih hb
        exact ⟨a, List.mem_cons_of_mem _ ha, hok⟩

/-- What holds of the steps taken so far, and never makes the next one fail, holds of all. -/
theorem foldlM_induction {f : β → α → Except ε β} {as : List α} {I : List α → β → Prop}
    (hstep : ∀ taken, ∀ a ∈ as, ∀ b, I taken b → ∃ b', f b a = .ok b' ∧ I (taken ++ [a]) b')
    {b : β} (h : I [] b) : ∃ b', as.foldlM f b = .ok b' ∧ I as b' := by
  suffices hall : ∀ rest ⊆ as, ∀ taken b, I taken b →
      ∃ b', rest.foldlM f b = .ok b' ∧ I (taken ++ rest) b' from
    hall as (List.Subset.refl as) [] b h
  intro rest hrest
  induction rest with
  | nil =>
      intro taken b h
      exact ⟨b, rfl, by rwa [List.append_nil]⟩
  | cons a rest ih =>
      intro taken b h
      obtain ⟨ha, hrest⟩ := List.cons_subset.mp hrest
      obtain ⟨b₁, hb₁, h₁⟩ := hstep taken a ha b h
      obtain ⟨b', hb', h'⟩ := ih hrest (taken ++ [a]) b₁ h₁
      refine ⟨b', ?_, ?_⟩
      · rw [List.foldlM_cons, hb₁, ok_bind, hb']
      · rwa [List.append_assoc, List.singleton_append] at h'

/-- What every step keeps holds of the result. -/
theorem foldlM_invariant {f : β → α → Except ε β} {as : List α} {I : β → Prop}
    (hstep : ∀ a ∈ as, ∀ b b', I b → f b a = .ok b' → I b') {b b' : β}
    (hfold : as.foldlM f b = .ok b') (h : I b) : I b' := by
  induction as generalizing b with
  | nil =>
      obtain rfl := Except.ok.inj hfold
      exact h
  | cons a as ih =>
      rw [List.foldlM_cons, bind_eq_ok] at hfold
      obtain ⟨b₁, hb₁, hfold⟩ := hfold
      exact ih (fun a ha ↦ hstep a (List.mem_cons_of_mem _ ha)) hfold
        (hstep a List.mem_cons_self b b₁ h hb₁)

end Except

/-- Why a critical section did not complete. -/
inductive Stop where
  /-- The wait predicate is false: the calling thread sleeps and nothing changes. -/
  | blocks
  /-- A failed `assert`. -/
  | assertion (msg : String)
  /-- A thrown `std::invalid_argument`. -/
  | invalidArgument (msg : String)
  /-- A thrown `std::logic_error`. -/
  | logicError (msg : String)
  /-- An access the language leaves undefined. -/
  | undefinedBehaviour
  deriving DecidableEq, Repr

/-- The result of running a critical section. -/
abbrev Exec (α : Type) := Except Stop α

namespace Exec

/-- The `assert` of the source. -/
def assertThat (p : Prop) [Decidable p] (msg : String) : Exec Unit :=
  if p then .ok () else .error (.assertion msg)

/-- `condition_variable::wait` with a predicate, entered with the lock held. -/
def waitUntil (p : Prop) [Decidable p] : Exec Unit :=
  if p then .ok () else .error .blocks

variable {α β : Type}

@[simp] theorem bind_eq_ok {x : Exec α} {f : α → Exec β} {b : β} :
    (x >>= f) = .ok b ↔ ∃ a, x = .ok a ∧ f a = .ok b := Except.bind_eq_ok

@[simp] theorem pure_eq_ok {a b : α} : (pure a : Exec α) = .ok b ↔ a = b := Except.pure_eq_ok

@[simp] theorem ok_bind (a : α) (f : α → Exec β) : ((.ok a : Exec α) >>= f) = f a := rfl

@[simp] theorem error_bind (e : Stop) (f : α → Exec β) :
    ((.error e : Exec α) >>= f) = .error e := rfl

theorem bind_eq_error {x : Exec α} {f : α → Exec β} {e : Stop} :
    (x >>= f) = .error e ↔ x = .error e ∨ ∃ a, x = .ok a ∧ f a = .error e := by
  cases x <;> simp

@[simp] theorem assertThat_eq_ok {p : Prop} [Decidable p] {msg : String} {u : Unit} :
    assertThat p msg = .ok u ↔ p := by
  unfold assertThat
  split <;> simp_all

@[simp] theorem waitUntil_eq_ok {p : Prop} [Decidable p] {u : Unit} :
    waitUntil p = .ok u ↔ p := by
  unfold waitUntil
  split <;> simp_all

end Exec

/-- `a - b` on `std::size_t`. -/
def sizeSub (a b : ℕ) : ℕ := if b ≤ a then a - b else 2 ^ 64 + a - b

theorem sizeSub_of_le {a b : ℕ} (h : b ≤ a) : sizeSub a b = a - b := if_pos h

/-- `SocketError`. -/
inductive SocketError where
  | closing | timeout | reset | connNotExist | duplicateSocket | noResources | opNotAllowed | nyi
  deriving DecidableEq, Repr

/-! ## `std::uint32_t` -/

instance instLinearOrderUInt32 : LinearOrder UInt32 where
  le_refl := UInt32.le_refl
  le_trans _ _ _ := UInt32.le_trans
  le_antisymm _ _ := UInt32.le_antisymm
  le_total := UInt32.le_total
  toDecidableLE := inferInstance
  lt_iff_le_not_ge a b := by
    rw [UInt32.lt_iff_toNat_lt, UInt32.le_iff_toNat_le, UInt32.le_iff_toNat_le]
    omega

namespace UInt32

theorem toNat_add_of_lt {a b : UInt32} (h : a.toNat + b.toNat < 2 ^ 32) :
    (a + b).toNat = a.toNat + b.toNat := by
  rw [UInt32.toNat_add, Nat.mod_eq_of_lt h]

theorem toNat_ofNat_of_lt {n : ℕ} (h : n < 2 ^ 32) : (UInt32.ofNat n).toNat = n := by
  rw [UInt32.toNat_ofNat', Nat.mod_eq_of_lt h]

theorem toNat_sub_one {x : UInt32} (h : 0 < x.toNat) : (x - 1).toNat = x.toNat - 1 :=
  UInt32.toNat_sub_of_le _ _ (UInt32.le_iff_toNat_le.mpr h)

theorem ne_add_one (a : UInt32) : a ≠ a + 1 := by
  rw [← UInt32.toNat_inj.ne, UInt32.toNat_add, UInt32.toNat_one]
  have := a.toNat_lt
  omega

/-- Two numbers at the same distance from `i` and from `j`. -/
theorem eq_add_sub {i j x y : UInt32} (h : x.toNat + j.toNat = y.toNat + i.toNat) :
    y = x + (j - i) := by
  have hi := i.toNat_lt
  have hj := j.toNat_lt
  have hx := x.toNat_lt
  have hy := y.toNat_lt
  rw [← UInt32.toNat_inj, UInt32.toNat_add, UInt32.toNat_sub]
  omega

end UInt32

end Tns
