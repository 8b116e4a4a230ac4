import Tns.Tcp.Segment

/-!
# Single-bit errors in a segment

A flipped bit changes the sum of the words by a power of two, which is no multiple
of `2 ^ 16 - 1`.  A bit of the data offset also moves the end of the header, and
with it the length in the pseudo header; of the offsets that such a bit makes of
five, two are accepted by the checks of the header, and for both the two changes
do not make up for one another.
-/

namespace Tns.Tcp.Wire

open Library Library.OnesComplement
open Ip (hton16 ofNibbles highNibble)

namespace Packet

/-- The sum of the words of a segment that is accepted, with the length that its header leaves. -/
theorem Accepted.modEq {srcIP dstIP : UInt32} {b : List Byte} (h : Accepted srcIP dstIP b)
    (hfits : b.length ≤ 65535) :
    wordSum (pseudoHeader srcIP dstIP 0) + 2 ^ 8 * (b.length - (hdrSize b - 20)) + wordSum b ≡
      0 [MOD 2 ^ 16 - 1] := by
  have hge := h.hdrSize_ge
  have hle := h.hdrSize_le
  have hlen : (b.drop (hdrSize b)).length = b.length - hdrSize b := List.length_drop
  have htotal : 20 + (b.drop (hdrSize b)).length = b.length - (hdrSize b - 20) := by omega
  have hword := (residue_eq_top_iff (by decide) (wordSum_covered_pos ..)).mp
    (residue_wordSum_covered (by omega) h.thSum)
  rw [wordSum_covered, wordSum_pseudoHeader, h.framed.wordSum_eq, htotal] at hword
  have hlength := wordSum_hton16 (.ofNat (b.length - (hdrSize b - 20)))
  rw [UInt16.toNat_ofNat', Nat.mod_eq_of_lt (by omega)] at hlength
  generalize wordSum (pseudoHeader srcIP dstIP 0) = pseudo at hword ⊢
  generalize wordSum b = segment at hword ⊢
  exact ((hlength.symm.add_left pseudo).add_right segment).trans hword

/-! ## Bits of the data offset -/

theorem getD_flipBit {i n : ℕ} {b : List Byte} (hn : n < b.length) :
    (flipBit i b).getD n 0 =
      if i / 8 = n then b.getD n 0 ^^^ UInt8.ofNat (2 ^ (i % 8)) else b.getD n 0 := by
  rw [List.getD_eq_getElem?_getD, List.getD_eq_getElem?_getD, flipBit, List.getElem?_modify,
    List.getElem?_eq_getElem hn]
  rfl

/-- A flipped bit leaves the data offset alone, or it is a bit of the data offset. -/
theorem hdrSize_flipBit {i : ℕ} {b : List Byte} (hlen : 20 ≤ b.length)
    (hbyte : b.getD 12 0 = ofNibbles 0 TH_OFF) :
    hdrSize (flipBit i b) = 20 ∨ hdrSize (flipBit i b) < 20 ∨
      (i = 101 ∧ hdrSize (flipBit i b) = 28) ∨ (i = 103 ∧ hdrSize (flipBit i b) = 52) := by
  have hsize : hdrSize (flipBit i b) = highNibble ((flipBit i b).getD 12 0) * 4 := rfl
  rw [hsize, getD_flipBit (by omega), hbyte]
  split
  · rename_i hi
    have hbits : ∀ k : Fin 8,
        let size := (highNibble (ofNibbles 0 TH_OFF ^^^ UInt8.ofNat (2 ^ k.val))).val * 4
        size = 20 ∨ size < 20 ∨ (k.val = 5 ∧ size = 28) ∨ (k.val = 7 ∧ size = 52) := by
      decide
    have h := hbits ⟨i % 8, Nat.mod_lt i (by decide)⟩
    dsimp only at h
    omega
  · exact .inl rfl

/-- The changes of the sum that a flipped bit and a moved end of the header make. -/
theorem not_modEq {pseudo len sum sum' k skip : ℕ} (hk : k < 16) (hskip : skip ≤ len)
    (hcase : skip = 0 ∨ (k = 5 ∧ skip = 8) ∨ (k = 7 ∧ skip = 32))
    (hsum : sum' = sum + 2 ^ k ∨ sum = sum' + 2 ^ k)
    (h : pseudo + 2 ^ 8 * len + sum ≡ 0 [MOD 2 ^ 16 - 1]) :
    ¬pseudo + 2 ^ 8 * (len - skip) + sum' ≡ 0 [MOD 2 ^ 16 - 1] := by
  intro h'
  rw [Nat.modEq_zero_iff_dvd] at h h'
  rcases hcase with rfl | ⟨rfl, rfl⟩ | ⟨rfl, rfl⟩
  · have hpos : 0 < 2 ^ k := Nat.two_pow_pos k
    have hle : 2 ^ k ≤ 2 ^ 15 := Nat.pow_le_pow_right (by decide) (by omega)
    generalize 2 ^ k = p at hsum hpos hle
    omega
  · omega
  · omega

/-- Every segment of the sender with one bit inverted is refused. -/
theorem flipBit_refused (session : SessionTuple) (flags : UInt8) (seq ack : UInt32)
    (winsz : UInt16) (payload : List Byte) {i : ℕ}
    (hfits : (forSend session flags seq ack winsz payload).serialize.length ≤ 65535)
    (hi : i < 8 * (forSend session flags seq ack winsz payload).serialize.length) :
    ∃ msg, makePacketFromPayload session.local.addr session.remote.addr
      (flipBit i (forSend session flags seq ack winsz payload).serialize) = .error msg := by
  set b := (forSend session flags seq ack winsz payload).serialize
  have hsent : Accepted session.local.addr session.remote.addr b :=
    (makePacketFromPayload_eq_ok.mp (makePacketFromPayload_serialize rfl rfl)).1
  have hbyte : b.getD 12 0 = ofNibbles 0 TH_OFF := rfl
  have hsize : hdrSize b = 20 := by
    unfold hdrSize TcpHdr.ofBytes
    rw [hbyte, Ip.highNibble_ofNibbles]
    rfl
  have hsum := hsent.modEq hfits
  rw [hsize, Nat.sub_self, Nat.sub_zero] at hsum
  rcases hrun : makePacketFromPayload session.local.addr session.remote.addr (flipBit i b) with
    msg | received
  · exact ⟨msg, rfl⟩
  · have hgot := (makePacketFromPayload_eq_ok.mp hrun).1
    have hge := hgot.hdrSize_ge
    have hle := hgot.hdrSize_le
    have hsum' := hgot.modEq (by rwa [length_flipBit])
    rw [length_flipBit] at hle hsum'
    have hdelta := wordSum_flipBit hi
    refine absurd hsum' (not_modEq (Nat.mod_lt i (by decide)) (by omega) ?_ hdelta hsum)
    rcases hdrSize_flipBit (i := i) hsent.length hbyte with h | h | ⟨rfl, h⟩ | ⟨rfl, h⟩ <;> omega

/-- The highest bit of the data offset, with zeros where it puts options. -/
theorem flipBit_refused_offset :
    ∃ msg, makePacketFromPayload 0x0a000001 0x0a010002
      (flipBit 103 (forSend ⟨⟨0x0a000001, 1024⟩, ⟨0x0a010002, 80⟩⟩ TH_ACK 7 9 65535
        (List.replicate 40 0)).serialize) = .error msg :=
  flipBit_refused ⟨⟨0x0a000001, 1024⟩, ⟨0x0a010002, 80⟩⟩ TH_ACK 7 9 65535
    (List.replicate 40 0) (by decide) (by decide)

end Packet

end Tns.Tcp.Wire
