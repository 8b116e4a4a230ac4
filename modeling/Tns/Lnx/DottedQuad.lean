import Tns.Ip.Cidr
import Tns.Library.Scan

/-!
# Dotted quads

`inet_ntop` writes an address as four decimal numbers, and `inet_pton` reads
exactly such texts.
-/

namespace Tns.Lnx

/-- One character of `inet_pton`: the octets that are complete, and the one being read. -/
def ptonStep (s : List ℕ × Option ℕ) (c : Char) : Option (List ℕ × Option ℕ) :=
  if c.isDigit then
    let digit := c.toNat - '0'.toNat
    match s.2 with
    | none => some (s.1, some digit)
    | some n => if n = 0 ∨ 255 < 10 * n + digit then none else some (s.1, some (10 * n + digit))
  else
    match s.2 with
    | some n => if c = '.' ∧ s.1.length < 3 then some (s.1 ++ [n], none) else none
    | none => none

/-- `inet_pton` for `AF_INET`, with the address in host byte order. -/
def inetPton (str : List Char) : Option UInt32 :=
  match str.foldlM ptonStep ([], none) with
  | some ([a, b, c], some d) => some (.ofNat (((a * 256 + b) * 256 + c) * 256 + d))
  | _ => none

/-- `inet_ntop` for `AF_INET`. -/
def inetNtop (addr : UInt32) : List Char := (Ip.Ipv4Address.toStringAddr { addr }).toList

/-! ## What is written is read back -/

/-- The number at the position of an address. -/
def octet (addr : UInt32) (shift : ℕ) : ℕ := addr.toNat / 2 ^ shift % 256

theorem inetNtop_eq (addr : UInt32) : inetNtop addr =
    Nat.toDigits 10 (octet addr 24) ++ '.' :: (Nat.toDigits 10 (octet addr 16) ++
      '.' :: (Nat.toDigits 10 (octet addr 8) ++ '.' :: Nat.toDigits 10 (octet addr 0))) := by
  have hlt := addr.toNat_lt
  have h24 : (addr >>> 24).toNat = octet addr 24 := by
    rw [UInt32.toNat_shiftRight, octet, Nat.shiftRight_eq_div_pow]
    change addr.toNat / 2 ^ 24 = _
    omega
  have hmask : ∀ x : UInt32, (x &&& 255).toNat = x.toNat % 256 := by
    intro x
    rw [UInt32.toNat_and]
    exact Nat.and_two_pow_sub_one_eq_mod x.toNat 8
  have h16 : (addr >>> 16 &&& 255).toNat = octet addr 16 := by
    rw [hmask, UInt32.toNat_shiftRight, Nat.shiftRight_eq_div_pow]
    rfl
  have h8 : (addr >>> 8 &&& 255).toNat = octet addr 8 := by
    rw [hmask, UInt32.toNat_shiftRight, Nat.shiftRight_eq_div_pow]
    rfl
  have h0 : (addr &&& 255).toNat = octet addr 0 := by
    rw [hmask, octet, Nat.pow_zero, Nat.div_one]
  have hstr : ∀ x : UInt32, (toString x).toList = Nat.toDigits 10 x.toNat :=
    fun x ↦ Nat.toList_repr
  have hdot : ".".toList = ['.'] := rfl
  simp only [inetNtop, Ip.Ipv4Address.toStringAddr, String.toList_append, hstr, hdot, h24, h16, h8,
    h0, List.append_assoc, List.cons_append, List.nil_append]

theorem octet_lt (addr : UInt32) (shift : ℕ) : octet addr shift < 256 :=
  Nat.mod_lt _ (by decide)

theorem ofNat_octets (addr : UInt32) : UInt32.ofNat (((octet addr 24 * 256 + octet addr 16) * 256 +
    octet addr 8) * 256 + octet addr 0) = addr := by
  have hlt := addr.toNat_lt
  apply UInt32.toNat_inj.mp
  rw [UInt32.toNat_ofNat']
  simp only [octet]
  omega

theorem ptonStep_digit (octets : List ℕ) {m d : ℕ} (hd : d < 10) (hm : m ≠ 0)
    (hle : 10 * m + d ≤ 255) :
    ptonStep (octets, some m) d.digitChar = some (octets, some (10 * m + d)) := by
  have hnot : ¬(m = 0 ∨ 255 < 10 * m + d) := by omega
  simp only [ptonStep, Nat.isDigit_digitChar, decide_eq_true hd, if_true,
    Nat.toNat_digitChar_of_lt_ten hd]
  rw [show '0'.toNat = 48 from rfl, Nat.add_sub_cancel_left, if_neg hnot]

theorem foldlM_ptonStep (octets : List ℕ) {n : ℕ} (hn : n ≤ 255) :
    (Nat.toDigits 10 n).foldlM ptonStep (octets, none) = some (octets, some n) := by
  induction n using Nat.strong_induction_on with
  | _ n ih =>
      rw [Nat.toDigits_eq_if (by decide)]
      split
      · rename_i hlt
        simp only [List.foldlM_cons, List.foldlM_nil, ptonStep, Nat.isDigit_digitChar,
          decide_eq_true hlt, if_true, Nat.toNat_digitChar_of_lt_ten hlt]
        rw [show '0'.toNat = 48 from rfl, Nat.add_sub_cancel_left]
        rfl
      · rename_i hge
        have hstep := ptonStep_digit octets (Nat.mod_lt n (by decide : 0 < 10))
          (by omega : n / 10 ≠ 0) (by omega)
        rw [List.foldlM_append, ih (n / 10) (by omega) (by omega)]
        simp only [Option.bind_eq_bind, Option.bind_some, List.foldlM_cons, List.foldlM_nil, hstep]
        rw [Nat.div_add_mod]
        rfl

/-- `inet_pton` reads what `inet_ntop` writes. -/
theorem inetPton_inetNtop (addr : UInt32) : inetPton (inetNtop addr) = some addr := by
  have hoctet : ∀ shift octets,
      (Nat.toDigits 10 (octet addr shift)).foldlM ptonStep (octets, none) =
        some (octets, some (octet addr shift)) :=
    fun shift octets ↦ foldlM_ptonStep octets (Nat.le_of_lt_succ (octet_lt addr shift))
  have hdot : ∀ (n : ℕ) (octets : List ℕ), octets.length < 3 →
      ptonStep (octets, some n) '.' = some (octets ++ [n], none) := by
    intro n octets hlt
    rw [ptonStep, if_neg (by decide)]
    exact if_pos ⟨rfl, hlt⟩
  rw [inetPton, inetNtop_eq]
  simp only [List.foldlM_append, List.foldlM_cons, hoctet, Option.bind_eq_bind, Option.bind_some,
    hdot _ [] (by decide), hdot _ [_] (by simp), hdot _ [_, _] (by simp), List.nil_append,
    List.cons_append]
  rw [ofNat_octets]

/-! ## The characters of a dotted quad -/

theorem mem_inetNtop {addr : UInt32} {c : Char} (hc : c ∈ inetNtop addr) :
    c.isDigit = true ∨ c = '.' := by
  rw [inetNtop_eq] at hc
  simp only [List.mem_append, List.mem_cons] at hc
  rcases hc with hc | rfl | hc | rfl | hc | rfl | hc
  · exact .inl (Library.isDigit_of_mem_toDigits hc)
  · exact .inr rfl
  · exact .inl (Library.isDigit_of_mem_toDigits hc)
  · exact .inr rfl
  · exact .inl (Library.isDigit_of_mem_toDigits hc)
  · exact .inr rfl
  · exact .inl (Library.isDigit_of_mem_toDigits hc)

theorem inetNtop_ne_nil (addr : UInt32) : inetNtop addr ≠ [] := by
  rw [inetNtop_eq]
  simp

theorem length_inetNtop_le (addr : UInt32) : (inetNtop addr).length ≤ 15 := by
  have hle : ∀ shift, (Nat.toDigits 10 (octet addr shift)).length ≤ 3 := by
    intro shift
    rw [Nat.length_toDigits_le_iff (by decide) (by decide)]
    exact (octet_lt addr shift).trans (by decide)
  have h24 := hle 24
  have h16 := hle 16
  have h8 := hle 8
  have h0 := hle 0
  rw [inetNtop_eq]
  simp only [List.length_append, List.length_cons]
  omega

end Tns.Lnx
