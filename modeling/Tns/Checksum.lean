import Mathlib.Data.UInt
import Tns.Library.OnesComplement
import Tns.Util

/-!
# Folding a checksum

Both checksums of the stack add 16-bit words up in a `std::uint32_t`, fold the
carries in twice and complement the result.
-/

namespace Tns

open Library

/-- The end of `ipv4Checksum` and of `inetChecksum`. -/
def foldSum (sum : UInt32) : UInt16 :=
  let sum := (sum >>> 16) + (sum &&& 0x0000FFFF)
  let sum := sum + (sum >>> 16)
  ~~~sum.toUInt16

theorem toNat_complement (x : UInt16) : (~~~x).toNat = 2 ^ 16 - 1 - x.toNat := by
  rw [UInt16.toNat_not]
  rfl

/-- The folded sum is the complement of the one's complement sum. -/
theorem toNat_foldSum (sum : UInt32) :
    (foldSum sum).toNat = 2 ^ 16 - 1 - OnesComplement.residue (2 ^ 16) sum.toNat := by
  have hlt := sum.toNat_lt
  have hhigh : sum.toNat / 2 ^ 16 < 2 ^ 16 := Nat.div_lt_of_lt_mul hlt
  have hlow : sum.toNat % 2 ^ 16 < 2 ^ 16 := Nat.mod_lt _ (by decide)
  have hmask : (sum &&& 0x0000FFFF).toNat = sum.toNat % 2 ^ 16 := by
    rw [UInt32.toNat_and]
    exact Nat.and_two_pow_sub_one_eq_mod _ 16
  have hshift : ∀ x : UInt32, (x >>> 16).toNat = x.toNat / 2 ^ 16 := by
    intro x
    rw [UInt32.toNat_shiftRight]
    exact Nat.shiftRight_eq_div_pow _ 16
  have hfold : ((sum >>> 16) + (sum &&& 0x0000FFFF)).toNat =
      OnesComplement.fold (2 ^ 16) sum.toNat := by
    rw [UInt32.toNat_add_of_lt (by rw [hshift, hmask]; omega), hshift, hmask]
    rfl
  have hle : OnesComplement.fold (2 ^ 16) sum.toNat ≤ 2 ^ 16 + 2 ^ 16 := by
    unfold OnesComplement.fold
    omega
  rw [foldSum, toNat_complement, UInt32.toNat_toUInt16, UInt32.toNat_add, hshift, hfold,
    Nat.mod_eq_of_lt (a := _ + _) (by omega), OnesComplement.fold_fold (by decide) hlt]

end Tns
