import Mathlib.Algebra.BigOperators.Group.List.Basic
import Mathlib.Algebra.Order.Ring.Nat
import Mathlib.Data.Nat.Bitwise
import Mathlib.Data.Nat.ModEq
import Mathlib.Tactic.Common

/-!
# One's complement sums

Adding digits of base `B` with the carry brought round to the low end computes
the sum modulo `B - 1`, and gives zero only for zero.  A checksum complements
such a sum: with it everything adds up to the digit of all ones, and a change of
the sum goes unseen only if it is a multiple of `B - 1`.
-/

namespace Tns.Library.OnesComplement

/-- Addition of two digits with end-around carry. -/
def add (B a b : ℕ) : ℕ := if a + b < B then a + b else a + b + 1 - B

/-- The one's complement sum of a list of digits. -/
def sum (B : ℕ) (digits : List ℕ) : ℕ := digits.foldl (add B) 0

/-- The digit that stands for `n`: the residue modulo `B - 1`, from `1` to `B - 1` unless `n` is
zero. -/
def residue (B n : ℕ) : ℕ := if n = 0 then 0 else (n - 1) % (B - 1) + 1

variable {B n m : ℕ}

theorem residue_lt (hB : 2 ≤ B) (n : ℕ) : residue B n < B := by
  unfold residue
  split
  · omega
  · have := Nat.mod_lt (n - 1) (show 0 < B - 1 by omega)
    omega

theorem residue_eq_zero : residue B n = 0 ↔ n = 0 := by
  unfold residue
  split <;> omega

theorem residue_modEq (B n : ℕ) : residue B n ≡ n [MOD B - 1] := by
  unfold residue
  split
  · rename_i hn
    rw [hn]
  · have h : (n - 1) % (B - 1) + 1 ≡ n - 1 + 1 [MOD B - 1] := (Nat.mod_modEq _ _).add_right 1
    rwa [Nat.sub_add_cancel (by omega)] at h

/-- The residue is the only digit with its properties. -/
theorem eq_residue {r : ℕ} (hr : r < B) (hmod : r ≡ n [MOD B - 1]) (hzero : r = 0 ↔ n = 0) :
    r = residue B n := by
  unfold residue
  split
  · rename_i hn
    exact hzero.mpr hn
  · rename_i hn
    have hpos : r ≠ 0 := fun h ↦ hn (hzero.mp h)
    have h : r - 1 ≡ n - 1 [MOD B - 1] := by
      apply Nat.ModEq.add_right_cancel' 1
      rwa [Nat.sub_add_cancel (by omega), Nat.sub_add_cancel (by omega)]
    have hmod' : (r - 1) % (B - 1) = r - 1 := Nat.mod_eq_of_lt (by omega)
    rw [← h, hmod']
    omega

theorem residue_eq_iff : residue B n = residue B m ↔ n ≡ m [MOD B - 1] ∧ (n = 0 ↔ m = 0) := by
  constructor
  · intro h
    refine ⟨(residue_modEq B n).symm.trans (h ▸ residue_modEq B m), ?_⟩
    rw [← residue_eq_zero (B := B), h, residue_eq_zero]
  · rintro ⟨hmod, hzero⟩
    unfold residue
    by_cases hn : n = 0
    · rw [if_pos hn, if_pos (hzero.mp hn)]
    · have hm : m ≠ 0 := fun h ↦ hn (hzero.mpr h)
      have h : n - 1 ≡ m - 1 [MOD B - 1] := by
        apply Nat.ModEq.add_right_cancel' 1
        rwa [Nat.sub_add_cancel (by omega), Nat.sub_add_cancel (by omega)]
      rw [if_neg hn, if_neg hm, h]

theorem add_residue (hB : 2 ≤ B) {d : ℕ} (hd : d < B) :
    add B (residue B n) d = residue B (n + d) := by
  have hr := residue_lt hB n
  have hzero := residue_eq_zero (B := B) (n := n)
  have hmod : residue B n + d ≡ n + d [MOD B - 1] := (residue_modEq B n).add_right d
  unfold add
  split
  · rename_i hlt
    exact eq_residue hlt hmod (by omega)
  · rename_i hge
    apply eq_residue (by omega) _ (by omega)
    have hcarry : residue B n + d + 1 - B + (B - 1) = residue B n + d := by omega
    rw [← hcarry] at hmod
    exact Nat.add_modEq_right.symm.trans hmod

/-- The one's complement sum is the residue of the sum. -/
theorem sum_eq (hB : 2 ≤ B) {digits : List ℕ} (h : ∀ d ∈ digits, d < B) :
    sum B digits = residue B digits.sum := by
  suffices hall : ∀ n, digits.foldl (add B) (residue B n) = residue B (n + digits.sum) by
    have hfold := hall 0
    rwa [Nat.zero_add, show residue B 0 = 0 from rfl] at hfold
  induction digits with
  | nil => exact fun n ↦ rfl
  | cons d digits ih =>
      intro n
      obtain ⟨hd, hdigits⟩ := List.forall_mem_cons.mp h
      rw [List.foldl_cons, add_residue hB hd, ih hdigits, List.sum_cons, Nat.add_assoc]

/-- One folding of the carries into the low digit. -/
def fold (B n : ℕ) : ℕ := n / B + n % B

theorem fold_modEq (hB : 2 ≤ B) (n : ℕ) : fold B n ≡ n [MOD B - 1] := by
  have hbase : B ≡ 1 [MOD B - 1] := by
    have h := Nat.add_modEq_left (n := B - 1) (a := 1)
    rwa [Nat.sub_add_cancel (by omega)] at h
  calc
    fold B n = 1 * (n / B) + n % B := by rw [fold, Nat.one_mul]
    _ ≡ B * (n / B) + n % B [MOD B - 1] := (hbase.symm.mul_right _).add_right _
    _ = n := Nat.div_add_mod n B

theorem fold_eq_zero : fold B n = 0 ↔ n = 0 := by
  have hn := Nat.div_add_mod n B
  constructor
  · intro h
    obtain ⟨hdiv, hmod⟩ := Nat.add_eq_zero_iff.mp h
    rw [← hn, hdiv, hmod, Nat.mul_zero]
  · rintro rfl
    rw [fold, Nat.zero_div, Nat.zero_mod]

/-- A sum of two digits' length is folded down to one digit by folding it twice. -/
theorem fold_fold (hB : 2 ≤ B) (hn : n < B * B) :
    (fold B n + fold B n / B) % B = residue B n := by
  have hdiv : n / B < B := Nat.div_lt_of_lt_mul hn
  have hmod : n % B < B := Nat.mod_lt n (by omega)
  have hzero := fold_eq_zero (B := B) (n := n)
  have hfold := fold_modEq hB n
  have hlt : fold B n ≤ (B - 1) + (B - 1) := by
    unfold fold
    omega
  rcases lt_or_ge (fold B n) B with hdigit | hcarry
  · rw [Nat.div_eq_of_lt hdigit, Nat.add_zero, Nat.mod_eq_of_lt hdigit]
    exact eq_residue hdigit hfold hzero
  · have hone : fold B n / B = 1 := Nat.div_eq_of_lt_le (by omega) (by omega)
    have hmod' : (fold B n + 1) % B = fold B n + 1 - B := by
      rw [Nat.mod_eq_sub_mod (by omega), Nat.mod_eq_of_lt (by omega)]
    rw [hone, hmod']
    apply eq_residue (by omega) _ (by omega)
    have hcarry' : fold B n + 1 - B + (B - 1) = fold B n := by omega
    rw [← hcarry'] at hfold
    exact Nat.add_modEq_right.symm.trans hfold

/-- What is added up together with the complement of its sum gives the digit of all ones. -/
theorem residue_add_complement (hB : 2 ≤ B) (hn : 0 < n) :
    residue B (n + (B - 1 - residue B n)) = B - 1 := by
  symm
  apply eq_residue (by omega) _ (by omega)
  have hr := residue_lt hB n
  have h := ((residue_modEq B n).add_right (B - 1 - residue B n))
  rwa [Nat.add_sub_cancel' (by omega)] at h

/-- The sum of everything is all ones exactly if the check digit is the complement. -/
theorem residue_eq_top_iff (hB : 2 ≤ B) (hn : 0 < n) :
    residue B n = B - 1 ↔ n ≡ 0 [MOD B - 1] := by
  have htop : residue B (B - 1) = B - 1 :=
    (eq_residue (by omega) Nat.ModEq.rfl Iff.rfl).symm
  have hzero : B - 1 ≡ 0 [MOD B - 1] := by
    rw [Nat.modEq_zero_iff_dvd]
  rw [← htop, residue_eq_iff, htop]
  constructor
  · exact fun h ↦ h.1.trans hzero
  · exact fun h ↦ ⟨h.trans hzero.symm, by omega⟩

/-! ## The words of a byte string -/

/-- The 16-bit words of a byte string, low byte first.  An odd byte at the end is a word. -/
def words : List UInt8 → List ℕ
  | lo :: hi :: bytes => (lo.toNat + 2 ^ 8 * hi.toNat) :: words bytes
  | [lo] => [lo.toNat]
  | [] => []

def wordSum (bytes : List UInt8) : ℕ := (words bytes).sum

@[simp] theorem wordSum_nil : wordSum [] = 0 := rfl

@[simp] theorem wordSum_cons_cons (lo hi : UInt8) (bytes : List UInt8) :
    wordSum (lo :: hi :: bytes) = lo.toNat + 2 ^ 8 * hi.toNat + wordSum bytes := by
  simp only [wordSum, words, List.sum_cons]

@[simp] theorem wordSum_singleton (lo : UInt8) : wordSum [lo] = lo.toNat := by
  simp only [wordSum, words, List.sum_cons, List.sum_nil, Nat.add_zero]

theorem words_lt (bytes : List UInt8) : ∀ w ∈ words bytes, w < 2 ^ 16 := by
  fun_induction words bytes with
  | case1 lo hi bytes ih =>
      have hlo := lo.toNat_lt
      have hhi := hi.toNat_lt
      exact List.forall_mem_cons.mpr ⟨by omega, ih⟩
  | case2 lo =>
      have hlo := lo.toNat_lt
      exact List.forall_mem_singleton.mpr (by omega)
  | case3 => exact fun w hw ↦ absurd hw List.not_mem_nil

theorem wordSum_le (bytes : List UInt8) :
    wordSum bytes ≤ (2 ^ 16 - 1) * ((bytes.length + 1) / 2) := by
  fun_induction words bytes with
  | case1 lo hi bytes ih =>
      have hlo := lo.toNat_lt
      have hhi := hi.toNat_lt
      rw [wordSum_cons_cons, List.length_cons, List.length_cons]
      omega
  | case2 lo =>
      have hlo := lo.toNat_lt
      rw [wordSum_singleton, List.length_singleton]
      omega
  | case3 => exact Nat.zero_le _

/-- Words are added up on both sides of an even position alike. -/
theorem wordSum_append {bytes bytes' : List UInt8} (h : Even bytes.length) :
    wordSum (bytes ++ bytes') = wordSum bytes + wordSum bytes' := by
  fun_induction words bytes with
  | case1 lo hi bytes ih =>
      have hbytes : Even bytes.length := by
        rw [List.length_cons, List.length_cons, Nat.add_assoc, Nat.even_add] at h
        exact h.mpr even_two
      rw [List.cons_append, List.cons_append, wordSum_cons_cons, wordSum_cons_cons, ih hbytes,
        ← Nat.add_assoc]
  | case2 lo =>
      rw [List.length_singleton] at h
      exact absurd h Nat.not_even_one
  | case3 => rw [List.nil_append, wordSum_nil, Nat.zero_add]

theorem wordSum_eq_zero {bytes : List UInt8} (h : ∀ b ∈ bytes, b = 0) : wordSum bytes = 0 := by
  fun_induction words bytes with
  | case1 lo hi bytes ih =>
      obtain ⟨rfl, hrest⟩ := List.forall_mem_cons.mp h
      obtain ⟨rfl, hbytes⟩ := List.forall_mem_cons.mp hrest
      rw [wordSum_cons_cons, ih hbytes, UInt8.toNat_zero, Nat.mul_zero]
  | case2 lo => rw [wordSum_singleton, List.forall_mem_singleton.mp h, UInt8.toNat_zero]
  | case3 => rfl

/-! ## Single-bit errors -/

/-- The byte string with bit `i` inverted, counted from the low bit of the first byte. -/
def flipBit (i : ℕ) (bytes : List UInt8) : List UInt8 :=
  bytes.modify (i / 8) (· ^^^ UInt8.ofNat (2 ^ (i % 8)))

@[simp] theorem length_flipBit (i : ℕ) (bytes : List UInt8) :
    (flipBit i bytes).length = bytes.length := List.length_modify _ _ _

/-- Inverting a bit adds its power of two or takes it away. -/
theorem xor_two_pow (n k : ℕ) : n ^^^ 2 ^ k = n + 2 ^ k ∨ n = (n ^^^ 2 ^ k) + 2 ^ k := by
  induction k generalizing n with
  | zero =>
      rw [Nat.pow_zero]
      rcases Nat.even_or_odd n with heven | hodd
      · exact .inl (Nat.xor_one_of_even heven)
      · rw [Nat.xor_one_of_odd hodd]
        obtain ⟨m, rfl⟩ := hodd
        exact .inr (by omega)
  | succ k ih =>
      have hdiv : (n ^^^ 2 ^ (k + 1)) / 2 = n / 2 ^^^ 2 ^ k := by
        rw [Nat.xor_div_two, Nat.pow_succ, Nat.mul_div_cancel _ (by decide)]
      have hmod : (n ^^^ 2 ^ (k + 1)) % 2 = n % 2 := by
        rw [Nat.xor_mod_two_eq, Nat.pow_succ, Nat.add_mul_mod_self_right]
      have hpow : 2 ^ (k + 1) = 2 * 2 ^ k := by rw [Nat.pow_succ, Nat.mul_comm]
      rcases ih (n / 2) with h | h <;> omega

theorem toNat_xor_two_pow (b : UInt8) {k : ℕ} (hk : k < 8) :
    (b ^^^ UInt8.ofNat (2 ^ k)).toNat = b.toNat + 2 ^ k ∨
      b.toNat = (b ^^^ UInt8.ofNat (2 ^ k)).toNat + 2 ^ k := by
  have hpow : 2 ^ k < 2 ^ 8 := Nat.pow_lt_pow_right (by decide) hk
  rw [UInt8.toNat_xor, UInt8.toNat_ofNat', Nat.mod_eq_of_lt hpow]
  exact xor_two_pow _ _

@[simp] theorem flipBit_cons_cons (i : ℕ) (lo hi : UInt8) (bytes : List UInt8) :
    flipBit (i + 16) (lo :: hi :: bytes) = lo :: hi :: flipBit i bytes := by
  have hdiv : (i + 16) / 8 = i / 8 + 1 + 1 := by omega
  have hmod : (i + 16) % 8 = i % 8 := by omega
  rw [flipBit, hdiv, hmod, List.modify_succ_cons, List.modify_succ_cons, flipBit]

/-- Inverting a bit changes the sum of the words by the weight of the bit in its word. -/
theorem wordSum_flipBit {i : ℕ} {bytes : List UInt8} (hi : i < 8 * bytes.length) :
    wordSum (flipBit i bytes) = wordSum bytes + 2 ^ (i % 16) ∨
      wordSum bytes = wordSum (flipBit i bytes) + 2 ^ (i % 16) := by
  have hbyte : ∀ b : UInt8, (b ^^^ UInt8.ofNat (2 ^ (i % 8))).toNat = b.toNat + 2 ^ (i % 8) ∨
      b.toNat = (b ^^^ UInt8.ofNat (2 ^ (i % 8))).toNat + 2 ^ (i % 8) :=
    fun b ↦ toNat_xor_two_pow b (Nat.mod_lt i (by decide))
  fun_induction words bytes generalizing i with
  | case1 lo hi' bytes ih =>
      rcases lt_or_ge i 16 with hlt | hge
      · rcases lt_or_ge i 8 with hlow | hhigh
        · have hdiv : i / 8 = 0 := by omega
          have hmod : i % 16 = i % 8 := by omega
          rw [flipBit, hdiv, List.modify_zero_cons, wordSum_cons_cons, wordSum_cons_cons, hmod]
          rcases hbyte lo with h | h <;> omega
        · have hdiv : i / 8 = 0 + 1 := by omega
          have hmod : i % 16 = 8 + i % 8 := by omega
          rw [flipBit, hdiv, List.modify_succ_cons, List.modify_zero_cons, wordSum_cons_cons,
            wordSum_cons_cons, hmod, Nat.pow_add]
          rcases hbyte hi' with h | h <;> omega
      · obtain ⟨j, rfl⟩ := Nat.exists_eq_add_of_le' hge
        have hj : j < 8 * bytes.length := by
          rw [List.length_cons, List.length_cons] at hi
          omega
        rw [flipBit_cons_cons, wordSum_cons_cons, wordSum_cons_cons, Nat.add_mod_right]
        rcases ih hj fun b ↦ toNat_xor_two_pow b (Nat.mod_lt j (by decide)) with h | h <;> omega
  | case2 lo =>
      rw [List.length_singleton] at hi
      have hdiv : i / 8 = 0 := by omega
      have hmod : i % 16 = i % 8 := by omega
      rw [flipBit, hdiv, List.modify_zero_cons, wordSum_singleton, wordSum_singleton, hmod]
      exact hbyte lo
  | case3 => exact absurd hi (Nat.not_lt_zero i)

end Tns.Library.OnesComplement
