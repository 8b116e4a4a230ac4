import Tns.Checksum
import Tns.Ip.Address

/-!
# Numbers on the wire

Headers and messages keep their numbers in network byte order.  Checksums are the
exception: the machine adds up the words of a header, and stores their checksum,
with the low byte first.
-/

namespace Tns.Ip

open Library.OnesComplement

/-- What stops an operation of the IP layer. -/
inductive Fault where
  /-- A thrown `std::invalid_argument`. -/
  | invalidArgument (msg : String)
  /-- A thrown `std::bad_optional_access`. -/
  | badOptionalAccess
  /-- An access the language leaves undefined. -/
  | undefinedBehaviour
  deriving DecidableEq, Repr

/-! ## Reading and writing a stream -/

/-- The bytes of `hton(x)`. -/
def hton16 (x : UInt16) : List Byte := [.ofNat (x.toNat / 2 ^ 8), .ofNat x.toNat]

def hton32 (x : UInt32) : List Byte :=
  [.ofNat (x.toNat / 2 ^ 24), .ofNat (x.toNat / 2 ^ 16), .ofNat (x.toNat / 2 ^ 8), .ofNat x.toNat]

/-- `ntoh` of the number at the front of the bytes.  Fewer bytes than it has are not checked
for. -/
def ntoh16 : List Byte → Except Fault (UInt16 × List Byte)
  | b₀ :: b₁ :: p => .ok (.ofNat (b₀.toNat * 2 ^ 8 + b₁.toNat), p)
  | _ => .error .undefinedBehaviour

def ntoh32 : List Byte → Except Fault (UInt32 × List Byte)
  | b₀ :: b₁ :: b₂ :: b₃ :: p =>
      .ok (.ofNat (b₀.toNat * 2 ^ 24 + b₁.toNat * 2 ^ 16 + b₂.toNat * 2 ^ 8 + b₃.toNat), p)
  | _ => .error .undefinedBehaviour

@[simp] theorem ntoh16_hton16 (x : UInt16) (p : List Byte) :
    ntoh16 (hton16 x ++ p) = .ok (x, p) := by
  have hx := x.toNat_lt
  simp only [hton16, List.cons_append, List.nil_append, ntoh16, UInt8.toNat_ofNat',
    Except.ok.injEq, Prod.mk.injEq, and_true]
  rw [← UInt16.toNat_inj, UInt16.toNat_ofNat']
  omega

@[simp] theorem ntoh32_hton32 (x : UInt32) (p : List Byte) :
    ntoh32 (hton32 x ++ p) = .ok (x, p) := by
  have hx := x.toNat_lt
  simp only [hton32, List.cons_append, List.nil_append, ntoh32, UInt8.toNat_ofNat',
    Except.ok.injEq, Prod.mk.injEq, and_true]
  rw [← UInt32.toNat_inj, UInt32.toNat_ofNat']
  omega

/-! ## The fields of a header -/

/-- `ntoh` of the two bytes of a header at the offset. -/
def be16 (hdr : List Byte) (i : ℕ) : UInt16 :=
  .ofNat ((hdr.getD i 0).toNat * 2 ^ 8 + (hdr.getD (i + 1) 0).toNat)

def be32 (hdr : List Byte) (i : ℕ) : UInt32 :=
  .ofNat ((hdr.getD i 0).toNat * 2 ^ 24 + (hdr.getD (i + 1) 0).toNat * 2 ^ 16 +
    (hdr.getD (i + 2) 0).toNat * 2 ^ 8 + (hdr.getD (i + 3) 0).toNat)

/-- The two bytes at the offset, as the machine loads them. -/
def le16 (hdr : List Byte) (i : ℕ) : UInt16 :=
  .ofNat ((hdr.getD i 0).toNat + 2 ^ 8 * (hdr.getD (i + 1) 0).toNat)

-- Named, so that a literal of `Fin 16` reads the same in every module.
instance instNeZeroSixteen : NeZero 16 := Nat.instNeZeroSucc

/-- The bit fields of a byte: the one that is declared first has the low bits. -/
def ofNibbles (low high : Fin 16) : Byte := .ofNat (low + 2 ^ 4 * high)

def lowNibble (b : Byte) : Fin 16 := Fin.ofNat 16 b.toNat

def highNibble (b : Byte) : Fin 16 := Fin.ofNat 16 (b.toNat / 2 ^ 4)

/-- The bytes of a number, as the machine stores them. -/
def store16 (x : UInt16) : List Byte := [.ofNat x.toNat, .ofNat (x.toNat / 2 ^ 8)]

theorem toNat_ofNibbles (low high : Fin 16) :
    (ofNibbles low high).toNat = low + 2 ^ 4 * high := by
  have hlow := low.isLt
  have hhigh := high.isLt
  rw [ofNibbles, UInt8.toNat_ofNat', Nat.mod_eq_of_lt (by omega)]

@[simp] theorem lowNibble_ofNibbles (low high : Fin 16) : lowNibble (ofNibbles low high) = low := by
  have hlow := low.isLt
  apply Fin.ext
  rw [lowNibble, Fin.val_ofNat, toNat_ofNibbles]
  omega

@[simp] theorem highNibble_ofNibbles (low high : Fin 16) :
    highNibble (ofNibbles low high) = high := by
  have hlow := low.isLt
  have hhigh := high.isLt
  apply Fin.ext
  rw [highNibble, Fin.val_ofNat, toNat_ofNibbles]
  omega

@[simp] theorem ofNibbles_nibbles (b : Byte) : ofNibbles (lowNibble b) (highNibble b) = b := by
  have hb := b.toNat_lt
  rw [← UInt8.toNat_inj, toNat_ofNibbles, lowNibble, highNibble, Fin.val_ofNat, Fin.val_ofNat]
  omega

theorem take_eq_map_getD {buf : List Byte} {n : ℕ} (h : n ≤ buf.length) :
    buf.take n = (List.range n).map fun i ↦ buf.getD i 0 := by
  apply List.ext_getElem
  · rw [List.length_take, List.length_map, List.length_range, min_eq_left h]
  · intro i hi hi'
    rw [List.getElem_take, List.getElem_map, List.getElem_range, List.getD_eq_getElem]

theorem hton16_be16 (hdr : List Byte) (i : ℕ) :
    hton16 (be16 hdr i) = [hdr.getD i 0, hdr.getD (i + 1) 0] := by
  have h₀ := (hdr.getD i 0).toNat_lt
  have h₁ := (hdr.getD (i + 1) 0).toNat_lt
  simp only [hton16, be16, UInt16.toNat_ofNat', List.cons.injEq, and_true, ← UInt8.toNat_inj,
    UInt8.toNat_ofNat']
  omega

theorem hton32_be32 (hdr : List Byte) (i : ℕ) :
    hton32 (be32 hdr i) =
      [hdr.getD i 0, hdr.getD (i + 1) 0, hdr.getD (i + 2) 0, hdr.getD (i + 3) 0] := by
  have h₀ := (hdr.getD i 0).toNat_lt
  have h₁ := (hdr.getD (i + 1) 0).toNat_lt
  have h₂ := (hdr.getD (i + 2) 0).toNat_lt
  have h₃ := (hdr.getD (i + 3) 0).toNat_lt
  simp only [hton32, be32, UInt32.toNat_ofNat', List.cons.injEq, and_true, ← UInt8.toNat_inj,
    UInt8.toNat_ofNat']
  omega

theorem store16_le16 (hdr : List Byte) (i : ℕ) :
    store16 (le16 hdr i) = [hdr.getD i 0, hdr.getD (i + 1) 0] := by
  have h₀ := (hdr.getD i 0).toNat_lt
  have h₁ := (hdr.getD (i + 1) 0).toNat_lt
  simp only [store16, le16, UInt16.toNat_ofNat', List.cons.injEq, and_true, ← UInt8.toNat_inj,
    UInt8.toNat_ofNat']
  omega

/-- A field holds the number whose bytes lie there. -/
theorem be16_eq {hdr : List Byte} {i : ℕ} {x : UInt16}
    (h : [hdr.getD i 0, hdr.getD (i + 1) 0] = hton16 x) : be16 hdr i = x := by
  have hx := x.toNat_lt
  rw [hton16, List.cons.injEq, List.cons.injEq] at h
  rw [be16, h.1, h.2.1, ← UInt16.toNat_inj]
  simp only [UInt16.toNat_ofNat', UInt8.toNat_ofNat']
  omega

theorem be32_eq {hdr : List Byte} {i : ℕ} {x : UInt32}
    (h : [hdr.getD i 0, hdr.getD (i + 1) 0, hdr.getD (i + 2) 0, hdr.getD (i + 3) 0] = hton32 x) :
    be32 hdr i = x := by
  have hx := x.toNat_lt
  simp only [hton32, List.cons.injEq, and_true] at h
  rw [be32, h.1, h.2.1, h.2.2.1, h.2.2.2, ← UInt32.toNat_inj]
  simp only [UInt32.toNat_ofNat', UInt8.toNat_ofNat']
  omega

theorem le16_eq {hdr : List Byte} {i : ℕ} {x : UInt16}
    (h : [hdr.getD i 0, hdr.getD (i + 1) 0] = store16 x) : le16 hdr i = x := by
  have hx := x.toNat_lt
  rw [store16, List.cons.injEq, List.cons.injEq] at h
  rw [le16, h.1, h.2.1, ← UInt16.toNat_inj]
  simp only [UInt16.toNat_ofNat', UInt8.toNat_ofNat']
  omega

end Tns.Ip
