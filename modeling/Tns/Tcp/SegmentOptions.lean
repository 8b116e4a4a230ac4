import Tns.Tcp.SegmentErrors

/-!
# Segments with a longer header

The receiver admits options that are all zero, and leaves them out when it computes
the checksum.  Zeros count for nothing in the sum, but the length in the pseudo
header is then the one of a header of 20 bytes, so that a segment with options has
the wrong checksum.
-/

namespace Tns.Tcp.Wire

open Library Library.OnesComplement

/-- The header with its checksum taken for zero. -/
def TcpHdr.unsummed (hdr : TcpHdr) : TcpHdr := { hdr with thSum := 0 }

theorem wordSum_unsummed (hdr : TcpHdr) :
    wordSum hdr.bytes = wordSum hdr.unsummed.bytes + hdr.thSum.toNat :=
  wordSum_bytes hdr

namespace Packet

/-- The checksum of a segment by its definition: the complement of the one's complement sum of the
pseudo header, with the length of the header and the data, and of all words of the segment, those
of the checksum taken for zero. -/
def rfcChecksum (srcIP dstIP : UInt32) (b : List Byte) : ℕ :=
  0xFFFF - OnesComplement.sum (2 ^ 16) (words (pseudoHeader srcIP dstIP (.ofNat b.length) ++
    ((TcpHdr.ofBytes b).unsummed.bytes ++ b.drop 20)))

/-- A segment whose header is as long as it says, with nothing but zeros for options and with its
checksum. -/
structure Valid (srcIP dstIP : UInt32) (b : List Byte) : Prop extends Framed b where
  fits : b.length ≤ 65535
  thSum : (TcpHdr.ofBytes b).thSum.toNat = rfcChecksum srcIP dstIP b

namespace Valid

variable {srcIP dstIP : UInt32} {b : List Byte}

theorem rfcChecksum_eq (srcIP dstIP : UInt32) (b : List Byte) :
    rfcChecksum srcIP dstIP b =
      2 ^ 16 - 1 - residue (2 ^ 16) (wordSum (pseudoHeader srcIP dstIP (.ofNat b.length)) +
        wordSum ((TcpHdr.ofBytes b).unsummed.bytes ++ b.drop 20)) := by
  have heven : Even (pseudoHeader srcIP dstIP (.ofNat b.length)).length := (by decide : Even 12)
  rw [rfcChecksum, OnesComplement.sum_eq (by decide) (words_lt _), ← wordSum_append heven]
  rfl

/-- The words of the pseudo header and of the whole segment add up to all ones. -/
theorem modEq (h : Valid srcIP dstIP b) :
    wordSum (pseudoHeader srcIP dstIP 0) + 2 ^ 8 * b.length + wordSum b ≡
      0 [MOD 2 ^ 16 - 1] := by
  have hfits := h.fits
  have heven : ∀ hdr : TcpHdr, Even hdr.bytes.length := fun _ ↦ (by decide : Even 20)
  have hsplit : wordSum b =
      wordSum ((TcpHdr.ofBytes b).unsummed.bytes ++ b.drop 20) +
        (TcpHdr.ofBytes b).thSum.toNat := by
    have hwhole : (TcpHdr.ofBytes b).bytes ++ b.drop 20 = b := by
      rw [TcpHdr.bytes_ofBytes h.length, List.take_append_drop]
    calc wordSum b = wordSum ((TcpHdr.ofBytes b).bytes ++ b.drop 20) := by rw [hwhole]
      _ = wordSum ((TcpHdr.ofBytes b).unsummed.bytes ++ b.drop 20) +
          (TcpHdr.ofBytes b).thSum.toNat := by
        rw [wordSum_append (heven _), wordSum_append (heven _), wordSum_unsummed]
        omega
  have hpos := Nat.add_pos_left (wordSum_pseudoHeader_pos srcIP dstIP (.ofNat b.length))
    (wordSum ((TcpHdr.ofBytes b).unsummed.bytes ++ b.drop 20))
  have htop := residue_add_complement (B := 2 ^ 16) (by decide) hpos
  rw [← rfcChecksum_eq, ← h.thSum, Nat.add_assoc, ← hsplit] at htop
  have hword := (residue_eq_top_iff (by decide) (Nat.add_pos_left
    (wordSum_pseudoHeader_pos srcIP dstIP (.ofNat b.length)) (wordSum b))).mp htop
  rw [wordSum_pseudoHeader] at hword
  have hlength := wordSum_hton16 (.ofNat b.length)
  rw [UInt16.toNat_ofNat', Nat.mod_eq_of_lt (by omega)] at hlength
  generalize wordSum (pseudoHeader srcIP dstIP 0) = pseudo at hword ⊢
  generalize wordSum b = segment at hword ⊢
  exact ((hlength.symm.add_left pseudo).add_right segment).trans hword

/-- Without options the checksum that the receiver computes is the one of the segment. -/
theorem tcpChecksum_eq (h : Valid srcIP dstIP b) (hsize : hdrSize b = 20) :
    (TcpHdr.ofBytes b).thSum =
      tcpChecksum srcIP dstIP (TcpHdr.ofBytes b) (b.drop (hdrSize b)) := by
  have hfits := h.fits
  have hlen := h.length
  have hdrop : 20 + (b.drop 20).length = b.length := by
    rw [List.length_drop]
    omega
  have hle : (covered srcIP dstIP (TcpHdr.ofBytes b).unsummed (b.drop 20)).length ≤
      2 ^ 17 := by
    rw [length_covered]
    omega
  have hsum : tcpChecksum srcIP dstIP (TcpHdr.ofBytes b) (b.drop 20) =
      inetChecksum (covered srcIP dstIP (TcpHdr.ofBytes b).unsummed (b.drop 20)) := rfl
  rw [← UInt16.toNat_inj, h.thSum, rfcChecksum_eq, hsize, hsum, toNat_inetChecksum hle,
    wordSum_covered, hdrop]

end Valid

/-- Options of at most forty-three bytes change the sum of the words by less than `2 ^ 16 - 1`. -/
theorem options_eq_zero {pseudo length segment options : ℕ} (hle : options ≤ length)
    (hlt : options < 44) : 2 ^ 16 - 1 ∣ pseudo + 2 ^ 8 * length + segment →
      2 ^ 16 - 1 ∣ pseudo + 2 ^ 8 * (length - options) + segment → options = 0 := by
  have hdiff : pseudo + 2 ^ 8 * length + segment -
      (pseudo + 2 ^ 8 * (length - options) + segment) = 2 ^ 8 * options := by omega
  have hsmall : 2 ^ 8 * options < 2 ^ 16 - 1 := by omega
  intro hsum hsum'
  have hdvd := Nat.dvd_sub hsum hsum'
  rw [hdiff] at hdvd
  have hzero := Nat.eq_zero_of_dvd_of_lt hdvd hsmall
  exact (Nat.mul_eq_zero.mp hzero).resolve_left (by decide)

/-- A valid segment is accepted, with the bytes after its header as the payload, if and only if its
header has no options. -/
theorem acceptsValid_iff {srcIP dstIP : UInt32} {b : List Byte} (h : Valid srcIP dstIP b) :
    (∃ packet, makePacketFromPayload srcIP dstIP b = .ok packet ∧
        packet.payload = b.drop (hdrSize b)) ↔
      (TcpHdr.ofBytes b).thOff = TH_OFF := by
  constructor
  · rintro ⟨packet, hmake, -⟩
    have haccepted := (makePacketFromPayload_eq_ok.mp hmake).1
    have hge := h.hdrSize_ge
    have hle := h.hdrSize_le
    have hsum := h.modEq
    have hsum' := haccepted.modEq h.fits
    rw [Nat.modEq_zero_iff_dvd] at hsum hsum'
    have hoff : hdrSize b < 16 * 4 := Nat.mul_lt_mul_of_pos_right (Fin.isLt _) (by decide)
    have hzero := options_eq_zero ((Nat.sub_le _ _).trans hle) (by omega) hsum hsum'
    have hsize : hdrSize b = 5 * 4 := Nat.le_antisymm (Nat.sub_eq_zero_iff_le.mp hzero) hge
    exact Fin.ext (Nat.eq_of_mul_eq_mul_right (by decide) hsize)
  · intro hoff
    have hsize : hdrSize b = 20 := by
      rw [hdrSize, hoff]
      rfl
    exact ⟨_, makePacketFromPayload_eq_ok.mpr
      ⟨⟨h.length, h.hdrSize_ge, h.hdrSize_le, h.options, h.tcpChecksum_eq hsize⟩, rfl⟩, rfl⟩

theorem zeros_of_eq_replicate {l : List Byte} {n : ℕ} (h : l = List.replicate n 0) :
    ∀ x ∈ l, x = 0 := by
  intro x hx
  rw [h] at hx
  exact List.eq_of_mem_replicate hx

/-- An acknowledgment with three bytes of data. -/
theorem acceptsValid_iff_three :
    let b : List Byte := (forSend ⟨⟨0x0a000001, 1024⟩, ⟨0x0a010002, 80⟩⟩ TH_ACK 7 9 65535
      [1, 2, 3]).serialize
    (∃ packet, makePacketFromPayload 0x0a000001 0x0a010002 b = .ok packet ∧
        packet.payload = b.drop (hdrSize b)) ↔
      (TcpHdr.ofBytes b).thOff = TH_OFF :=
  acceptsValid_iff ⟨⟨by decide, by decide, by decide, zeros_of_eq_replicate (n := 0) (by decide)⟩,
    by decide, by decide⟩

/-- The same segment with one word of options, four zeros, and the checksum of that segment. -/
theorem not_acceptsValid :
    let b : List Byte := [4, 0, 0, 80, 0, 0, 0, 7, 0, 0, 0, 9, 0x60, 0x10, 0xFF, 0xFF, 0x83, 0x68,
      0, 0, 0, 0, 0, 0, 1, 2, 3]
    Valid 0x0a000001 0x0a010002 b ∧
      ¬∃ packet, makePacketFromPayload 0x0a000001 0x0a010002 b = .ok packet ∧
        packet.payload = b.drop (hdrSize b) := by
  intro b
  have hzeros : ∀ x ∈ (b.drop 20).take (hdrSize b - 20), x = 0 :=
    zeros_of_eq_replicate (n := 4) (by decide)
  refine ⟨⟨⟨by decide, by decide, by decide, hzeros⟩, by decide, by decide⟩, ?_⟩
  rintro ⟨packet, hmake, -⟩
  have hsum := (makePacketFromPayload_eq_ok.mp hmake).1.thSum
  revert hsum
  decide

end Packet

end Tns.Tcp.Wire
