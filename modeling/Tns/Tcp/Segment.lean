import Tns.Ip.Datagram
import Tns.Tcp.TcpStack

/-!
# Segments on the wire

A segment is a header of 20 bytes and a payload.  Its checksum also covers a
pseudo header with the addresses and the length, which is not transmitted: the
receiver builds it from the addresses of the datagram.
-/

namespace Tns.Tcp.Wire

open Library Library.OnesComplement
open Ip (hton16 hton32 store16 be16 be32 le16 ofNibbles lowNibble highNibble)

/-! ## Headers -/

/-- `tcphdr`, in host byte order except for the checksum. -/
structure TcpHdr where
  thSport : UInt16
  thDport : UInt16
  thSeq : UInt32
  thAck : UInt32
  thX2 : Fin 16 := 0
  thOff : Fin 16
  thFlags : UInt8
  thWin : UInt16
  thSum : UInt16 := 0
  thUrp : UInt16 := 0
  deriving DecidableEq

namespace TcpHdr

/-- The header as it lies in memory. -/
def bytes (hdr : TcpHdr) : List Byte :=
  hton16 hdr.thSport ++ hton16 hdr.thDport ++ hton32 hdr.thSeq ++ hton32 hdr.thAck ++
    [ofNibbles hdr.thX2 hdr.thOff, hdr.thFlags] ++ hton16 hdr.thWin ++ store16 hdr.thSum ++
    hton16 hdr.thUrp

def ofBytes (buf : List Byte) : TcpHdr where
  thSport := be16 buf 0
  thDport := be16 buf 2
  thSeq := be32 buf 4
  thAck := be32 buf 8
  thX2 := lowNibble (buf.getD 12 0)
  thOff := highNibble (buf.getD 12 0)
  thFlags := buf.getD 13 0
  thWin := be16 buf 14
  thSum := le16 buf 16
  thUrp := be16 buf 18

@[simp] theorem length_bytes (hdr : TcpHdr) : hdr.bytes.length = 20 := rfl

theorem ofBytes_bytes (hdr : TcpHdr) (rest : List Byte) : ofBytes (hdr.bytes ++ rest) = hdr := by
  have hbyte : (hdr.bytes ++ rest).getD 12 0 = ofNibbles hdr.thX2 hdr.thOff := rfl
  rw [ofBytes, hbyte, Ip.lowNibble_ofNibbles, Ip.highNibble_ofNibbles,
    Ip.be16_eq (x := hdr.thSport) rfl, Ip.be16_eq (x := hdr.thDport) rfl,
    Ip.be32_eq (x := hdr.thSeq) rfl, Ip.be32_eq (x := hdr.thAck) rfl,
    Ip.be16_eq (x := hdr.thWin) rfl, Ip.le16_eq (x := hdr.thSum) rfl,
    Ip.be16_eq (x := hdr.thUrp) rfl]
  rfl

/-- The 20 bytes of a header are those it was read from. -/
theorem bytes_ofBytes {buf : List Byte} (h : 20 ≤ buf.length) :
    (ofBytes buf).bytes = buf.take 20 := by
  rw [Ip.take_eq_map_getD h, bytes, ofBytes]
  simp only [Ip.hton16_be16, Ip.hton32_be32, Ip.store16_le16, Ip.ofNibbles_nibbles]
  rfl

end TcpHdr

/-! ## The checksum -/

/-- The loop of `inetChecksum`, and the odd byte that it may leave. -/
def sumWords (sum : UInt32) : List Byte → UInt32
  | p₀ :: p₁ :: p => sumWords (sum + (p₁.toUInt32 <<< 8 ||| p₀.toUInt32)) p
  | [p₀] => sum + p₀.toUInt32
  | [] => sum

def inetChecksum (buffer : List Byte) : UInt16 := foldSum (sumWords 0 buffer)

def pseudoHeader (srcIP dstIP : UInt32) (tcpLength : UInt16) : List Byte :=
  hton32 srcIP ++ hton32 dstIP ++ [0, Ip.Protocol.TCP.code] ++ hton16 tcpLength

/-- What the checksum covers.  The length is cast to a `std::uint16_t`. -/
def covered (srcIP dstIP : UInt32) (hdr : TcpHdr) (payload : List Byte) : List Byte :=
  pseudoHeader srcIP dstIP (.ofNat (20 + payload.length)) ++ (hdr.bytes ++ payload)

/-- `util::tcpChecksum`.  The checksum in the header is taken for zero. -/
def tcpChecksum (srcIP dstIP : UInt32) (tcpHdr : TcpHdr) (payload : List Byte) : UInt16 :=
  inetChecksum (covered srcIP dstIP { tcpHdr with thSum := 0 } payload)

/-! ## Packets -/

/-- `Packet`, with its header as it is on the wire. -/
structure Packet where
  tcpHeader : TcpHdr
  payload : List Byte
  deriving DecidableEq

namespace Packet

def TH_OFF : Fin 16 := 5

/-- The constructor for sending. -/
def forSend (session : SessionTuple) (flags : UInt8) (seq ack : UInt32) (winsz : UInt16)
    (payload : List Byte) : Packet :=
  let tcpHeader : TcpHdr := {
    thSport := session.local.port
    thDport := session.remote.port
    thSeq := seq
    thAck := ack
    thOff := TH_OFF
    thFlags := flags
    thWin := winsz }
  let thSum := tcpChecksum session.local.addr session.remote.addr tcpHeader payload
  { tcpHeader := { tcpHeader with thSum }, payload }

def serialize (packet : Packet) : List Byte := packet.tcpHeader.bytes ++ packet.payload

def hex (x : UInt16) : String := .ofList (Nat.toDigits 16 x.toNat)

def makePacketFromPayload (srcIP dstIP : UInt32) (ipPayload : List Byte) : Except String Packet :=
  if ipPayload.length < 20 then .error "Payload too short to be a TCP packet"
  else
    let hdr := TcpHdr.ofBytes ipPayload
    let hdrSize : ℕ := hdr.thOff * 4
    if hdrSize < 20 ∨ ipPayload.length < hdrSize then
      .error "Invalid TCP header length (th_off is invalid)"
    else
      let options := (ipPayload.drop 20).take (hdrSize - 20)
      if options.any (· ≠ 0) then .error "TCP options are not supported"
      else
        let tcpPayload := ipPayload.drop hdrSize
        let expectSum := hdr.thSum
        let actualSum := tcpChecksum srcIP dstIP hdr tcpPayload
        if expectSum ≠ actualSum then
          .error ("Invalid TCP checksum: expected " ++ hex expectSum ++ ", actual " ++
            hex actualSum)
        else .ok { tcpHeader := hdr, payload := tcpPayload }

def getSrcPortHost (packet : Packet) : UInt16 := packet.tcpHeader.thSport
def getDstPortHost (packet : Packet) : UInt16 := packet.tcpHeader.thDport
def getSeqNumHost (packet : Packet) : UInt32 := packet.tcpHeader.thSeq
def getAckNumHost (packet : Packet) : UInt32 := packet.tcpHeader.thAck
def getWndSizeHost (packet : Packet) : UInt16 := packet.tcpHeader.thWin
def getFlags (packet : Packet) : UInt8 := packet.tcpHeader.thFlags

end Packet

/-! ## The arithmetic of the checksum -/

theorem toNat_word (p₀ p₁ : Byte) :
    (p₁.toUInt32 <<< 8 ||| p₀.toUInt32).toNat = p₀.toNat + 2 ^ 8 * p₁.toNat := by
  have h₀ := p₀.toNat_lt
  have h₁ := p₁.toNat_lt
  have hcount : (8 : UInt32).toNat % 32 = 8 := rfl
  have hshift : (p₁.toUInt32 <<< 8).toNat = p₁.toNat <<< 8 := by
    rw [UInt32.toNat_shiftLeft, UInt8.toNat_toUInt32, hcount]
    exact Nat.mod_eq_of_lt (by rw [Nat.shiftLeft_eq]; omega)
  rw [UInt32.toNat_or, hshift, UInt8.toNat_toUInt32, ← Nat.shiftLeft_add_eq_or_of_lt h₀,
    Nat.shiftLeft_eq]
  omega

/-- The accumulator is exact as long as the sum of the words fits. -/
theorem toNat_sumWords {sum : UInt32} {buffer : List Byte}
    (h : sum.toNat + wordSum buffer < 2 ^ 32) :
    (sumWords sum buffer).toNat = sum.toNat + wordSum buffer := by
  fun_induction sumWords sum buffer with
  | case1 sum p₀ p₁ p ih =>
      rw [wordSum_cons_cons] at h
      have hadd : (sum + (p₁.toUInt32 <<< 8 ||| p₀.toUInt32)).toNat =
          sum.toNat + (p₀.toNat + 2 ^ 8 * p₁.toNat) := by
        rw [UInt32.toNat_add_of_lt (by rw [toNat_word]; omega), toNat_word]
      rw [ih (by omega), hadd, wordSum_cons_cons]
      omega
  | case2 sum p₀ =>
      rw [wordSum_singleton] at h
      rw [UInt32.toNat_add_of_lt (by rw [UInt8.toNat_toUInt32]; omega), UInt8.toNat_toUInt32,
        wordSum_singleton]
  | case3 sum => rfl

theorem wordSum_lt {buffer : List Byte} (h : buffer.length ≤ 2 ^ 17) :
    wordSum buffer < 2 ^ 32 := by
  have hle := wordSum_le buffer
  omega

theorem toNat_inetChecksum {buffer : List Byte} (h : buffer.length ≤ 2 ^ 17) :
    (inetChecksum buffer).toNat = 2 ^ 16 - 1 - residue (2 ^ 16) (wordSum buffer) := by
  have hzero : (0 : UInt32).toNat = 0 := rfl
  have hlt : (0 : UInt32).toNat + wordSum buffer < 2 ^ 32 := by
    rw [hzero, Nat.zero_add]
    exact wordSum_lt h
  have hsum := toNat_sumWords hlt
  rw [inetChecksum, toNat_foldSum, hsum, hzero, Nat.zero_add]

@[simp] theorem length_pseudoHeader (srcIP dstIP : UInt32) (tcpLength : UInt16) :
    (pseudoHeader srcIP dstIP tcpLength).length = 12 := rfl

theorem length_covered (srcIP dstIP : UInt32) (hdr : TcpHdr) (payload : List Byte) :
    (covered srcIP dstIP hdr payload).length = 32 + payload.length := by
  rw [covered, List.length_append, List.length_append, length_pseudoHeader, TcpHdr.length_bytes]
  omega

theorem wordSum_covered (srcIP dstIP : UInt32) (hdr : TcpHdr) (payload : List Byte) :
    wordSum (covered srcIP dstIP hdr payload) =
      wordSum (pseudoHeader srcIP dstIP (.ofNat (20 + payload.length))) +
        wordSum (hdr.bytes ++ payload) :=
  wordSum_append (by decide : Even 12)

/-- The sum for a pseudo header depends on the length through its word only. -/
theorem wordSum_pseudoHeader (srcIP dstIP : UInt32) (tcpLength : UInt16) :
    wordSum (pseudoHeader srcIP dstIP tcpLength) =
      wordSum (pseudoHeader srcIP dstIP 0) + wordSum (hton16 tcpLength) := by
  have hsplit : pseudoHeader srcIP dstIP tcpLength =
      (hton32 srcIP ++ hton32 dstIP ++ [0, Ip.Protocol.TCP.code]) ++ hton16 tcpLength := rfl
  have hzero : pseudoHeader srcIP dstIP 0 =
      (hton32 srcIP ++ hton32 dstIP ++ [0, Ip.Protocol.TCP.code]) ++ hton16 0 := rfl
  have heven : Even (hton32 srcIP ++ hton32 dstIP ++ [0, Ip.Protocol.TCP.code]).length :=
    (by decide : Even 10)
  have hnull : wordSum (hton16 0) = 0 := rfl
  rw [hsplit, hzero, wordSum_append heven, wordSum_append heven, hnull, Nat.add_zero]

theorem wordSum_pseudoHeader_pos (srcIP dstIP : UInt32) (tcpLength : UInt16) :
    0 < wordSum (pseudoHeader srcIP dstIP tcpLength) := by
  rw [pseudoHeader]
  simp only [hton32, hton16, List.cons_append, List.nil_append, wordSum_cons_cons]
  have hcode : Ip.Protocol.TCP.code.toNat = 6 := rfl
  omega

/-- Modulo `2 ^ 16 - 1` the order of the bytes of a word does not matter. -/
theorem wordSum_hton16 (x : UInt16) : wordSum (hton16 x) ≡ 2 ^ 8 * x.toNat [MOD 2 ^ 16 - 1] := by
  have hx := x.toNat_lt
  have hsum : wordSum (hton16 x) + (2 ^ 16 - 1) * (x.toNat / 2 ^ 8) = 2 ^ 8 * x.toNat := by
    rw [hton16, wordSum_cons_cons, wordSum_nil, UInt8.toNat_ofNat', UInt8.toNat_ofNat']
    omega
  rw [← hsum]
  exact (Nat.add_mul_mod_self_left ..).symm

theorem wordSum_store16 (x : UInt16) : wordSum (store16 x) = x.toNat := by
  have hx := x.toNat_lt
  rw [store16, wordSum_cons_cons, wordSum_nil, UInt8.toNat_ofNat', UInt8.toNat_ofNat']
  omega

/-- The checksum in a header counts as a word. -/
theorem wordSum_bytes (hdr : TcpHdr) :
    wordSum hdr.bytes = wordSum { hdr with thSum := 0 }.bytes + hdr.thSum.toNat := by
  obtain ⟨front, heven, hsplit⟩ : ∃ front : List Byte, Even front.length ∧
      ∀ thSum : UInt16,
        { hdr with thSum }.bytes = front ++ (store16 thSum ++ hton16 hdr.thUrp) := by
    refine ⟨hton16 hdr.thSport ++ hton16 hdr.thDport ++ hton32 hdr.thSeq ++ hton32 hdr.thAck ++
      [ofNibbles hdr.thX2 hdr.thOff, hdr.thFlags] ++ hton16 hdr.thWin, ?_, ?_⟩
    · exact (by decide : Even 16)
    · exact fun thSum ↦ List.append_assoc _ _ _
  have hword : ∀ thSum : UInt16, wordSum { hdr with thSum }.bytes =
      wordSum front + (thSum.toNat + wordSum (hton16 hdr.thUrp)) := by
    intro thSum
    have htwo : Even (store16 thSum).length := even_two
    rw [hsplit, wordSum_append heven, wordSum_append htwo, wordSum_store16]
  have hself : wordSum hdr.bytes = _ := hword hdr.thSum
  rw [hself, hword 0, UInt16.toNat_zero]
  omega

theorem wordSum_covered_thSum (srcIP dstIP : UInt32) (hdr : TcpHdr) (payload : List Byte) :
    wordSum (covered srcIP dstIP hdr payload) =
      wordSum (covered srcIP dstIP { hdr with thSum := 0 } payload) + hdr.thSum.toNat := by
  have heven : ∀ hdr : TcpHdr, Even hdr.bytes.length := fun _ ↦ (by decide : Even 20)
  rw [wordSum_covered, wordSum_covered, wordSum_append (heven _), wordSum_append (heven _),
    wordSum_bytes hdr]
  omega

theorem wordSum_covered_pos (srcIP dstIP : UInt32) (hdr : TcpHdr) (payload : List Byte) :
    0 < wordSum (covered srcIP dstIP hdr payload) := by
  rw [wordSum_covered]
  exact Nat.add_pos_left (wordSum_pseudoHeader_pos ..) _

/-- A checksum completes the sum of all words to all ones. -/
theorem residue_wordSum_covered {srcIP dstIP : UInt32} {hdr : TcpHdr} {payload : List Byte}
    (hfits : payload.length ≤ 65535 - 20) (h : hdr.thSum = tcpChecksum srcIP dstIP hdr payload) :
    residue (2 ^ 16) (wordSum (covered srcIP dstIP hdr payload)) = 2 ^ 16 - 1 := by
  have hlen : (covered srcIP dstIP { hdr with thSum := 0 } payload).length ≤ 2 ^ 17 := by
    rw [length_covered]
    omega
  rw [wordSum_covered_thSum, h, tcpChecksum, toNat_inetChecksum hlen]
  exact residue_add_complement (by decide) (wordSum_covered_pos ..)

/-! ## The round trip -/

namespace Packet

/-- The length of the header that a byte string claims. -/
def hdrSize (b : List Byte) : ℕ := (TcpHdr.ofBytes b).thOff * 4

/-- The checks that a byte string passes. -/
structure Accepted (srcIP dstIP : UInt32) (b : List Byte) : Prop where
  length : 20 ≤ b.length
  hdrSize_ge : 20 ≤ hdrSize b
  hdrSize_le : hdrSize b ≤ b.length
  options : ∀ x ∈ (b.drop 20).take (hdrSize b - 20), x = 0
  thSum : (TcpHdr.ofBytes b).thSum =
    tcpChecksum srcIP dstIP (TcpHdr.ofBytes b) (b.drop (hdrSize b))

theorem makePacketFromPayload_eq_ok {srcIP dstIP : UInt32} {b : List Byte} {packet : Packet} :
    makePacketFromPayload srcIP dstIP b = .ok packet ↔
      Accepted srcIP dstIP b ∧
        packet = { tcpHeader := TcpHdr.ofBytes b, payload := b.drop (hdrSize b) } := by
  unfold makePacketFromPayload
  split
  · rename_i hshort
    exact iff_of_false nofun fun h ↦ absurd h.1.length (not_le.mpr hshort)
  rename_i hlength
  dsimp only
  split
  · rename_i hoff
    refine iff_of_false nofun fun h ↦ ?_
    rcases hoff with hlt | hlt
    · exact absurd h.1.hdrSize_ge (not_le.mpr hlt)
    · exact absurd h.1.hdrSize_le (not_le.mpr hlt)
  rename_i hoff
  rw [not_or, not_lt, not_lt] at hoff
  split
  · rename_i hoptions
    refine iff_of_false nofun fun h ↦ ?_
    obtain ⟨x, hx, hne⟩ := List.any_eq_true.mp hoptions
    exact of_decide_eq_true hne (h.1.options x hx)
  rename_i hoptions
  have hzero : ∀ x ∈ (b.drop 20).take (hdrSize b - 20), x = 0 := by
    intro x hx
    by_contra hne
    exact hoptions (List.any_eq_true.mpr ⟨x, hx, decide_eq_true hne⟩)
  split
  · rename_i hsum
    exact iff_of_false nofun fun h ↦ hsum h.1.thSum
  · rename_i hsum
    rw [Except.ok.injEq, eq_comm]
    exact ⟨fun h ↦ ⟨⟨not_lt.mp hlength, hoff.1, hoff.2, hzero, not_ne_iff.mp hsum⟩, h⟩, And.right⟩

/-- The data offset is at least five words and inside the segment, and all options are zero. -/
structure Framed (b : List Byte) : Prop where
  length : 20 ≤ b.length
  hdrSize_ge : 20 ≤ hdrSize b
  hdrSize_le : hdrSize b ≤ b.length
  options : ∀ x ∈ (b.drop 20).take (hdrSize b - 20), x = 0

theorem Accepted.framed {srcIP dstIP : UInt32} {b : List Byte} (h : Accepted srcIP dstIP b) :
    Framed b :=
  ⟨h.length, h.hdrSize_ge, h.hdrSize_le, h.options⟩

/-- The zeros between the header and the payload count for nothing. -/
theorem Framed.wordSum_eq {b : List Byte} (h : Framed b) :
    wordSum ((TcpHdr.ofBytes b).bytes ++ b.drop (hdrSize b)) = wordSum b := by
  have hge := h.hdrSize_ge
  have hle := h.hdrSize_le
  have hheader : Even (b.take 20).length := by
    rw [List.length_take, min_eq_left h.length]
    exact (by decide : Even 20)
  have hoptions : Even ((b.drop 20).take (hdrSize b - 20)).length := by
    rw [List.length_take, List.length_drop, min_eq_left (by omega), Nat.even_iff]
    unfold hdrSize
    omega
  have hsplit : b = b.take 20 ++ ((b.drop 20).take (hdrSize b - 20) ++ b.drop (hdrSize b)) := by
    have hrest := List.take_append_drop (hdrSize b - 20) (b.drop 20)
    rw [List.drop_drop, Nat.add_sub_cancel' hge] at hrest
    rw [hrest, List.take_append_drop]
  have hsum : wordSum b = wordSum (b.take 20) + wordSum (b.drop (hdrSize b)) := by
    conv_lhs => rw [hsplit]
    rw [wordSum_append hheader, wordSum_append hoptions, wordSum_eq_zero h.options, Nat.zero_add]
  rw [TcpHdr.bytes_ofBytes h.length, wordSum_append hheader, hsum]

/-- A segment without options is accepted if it has its checksum. -/
theorem makePacketFromPayload_serialize {srcIP dstIP : UInt32} {packet : Packet}
    (hoff : packet.tcpHeader.thOff = TH_OFF)
    (hsum : packet.tcpHeader.thSum =
      tcpChecksum srcIP dstIP packet.tcpHeader packet.payload) :
    makePacketFromPayload srcIP dstIP packet.serialize = .ok packet := by
  have hhdr : TcpHdr.ofBytes packet.serialize = packet.tcpHeader :=
    TcpHdr.ofBytes_bytes packet.tcpHeader packet.payload
  have hsize : hdrSize packet.serialize = 20 := by
    rw [hdrSize, hhdr, hoff]
    rfl
  have hdrop : packet.serialize.drop 20 = packet.payload :=
    List.drop_left' packet.tcpHeader.length_bytes
  have hlen : 20 ≤ packet.serialize.length := by
    rw [serialize, List.length_append, TcpHdr.length_bytes]
    exact Nat.le_add_right _ _
  refine makePacketFromPayload_eq_ok.mpr ⟨⟨hlen, hsize.ge, hsize.trans_le hlen, ?_, ?_⟩, ?_⟩
  · rw [hsize]
    exact fun x hx ↦ absurd hx (List.not_mem_nil)
  · rw [hhdr, hsize, hdrop]
    exact hsum
  · rw [hhdr, hsize, hdrop]

/-- The state machine's view of a segment. -/
def toTcpPacket (packet : Packet) : Tcp.Packet where
  flags := packet.getFlags
  seqNum := packet.getSeqNumHost
  ackNum := packet.getAckNumHost
  wndSize := packet.getWndSizeHost
  payload := packet.payload

/-- The segment that carries a packet of the session. -/
def ofTcpPacket (session : SessionTuple) (packet : Tcp.Packet) : Packet :=
  forSend session packet.flags packet.seqNum packet.ackNum packet.wndSize packet.payload

@[simp] theorem toTcpPacket_ofTcpPacket (session : SessionTuple) (packet : Tcp.Packet) :
    (ofTcpPacket session packet).toTcpPacket = packet := rfl

/-- A packet that is sent comes out at the peer, and stands for the same event there. -/
theorem makePacketFromPayload_ofTcpPacket (session : SessionTuple) (packet : Tcp.Packet) :
    ∃ received, makePacketFromPayload session.local.addr session.remote.addr
        (ofTcpPacket session packet).serialize = .ok received ∧
      received.toTcpPacket = packet ∧
      received.getSrcPortHost = session.local.port ∧
      received.getDstPortHost = session.remote.port :=
  ⟨_, makePacketFromPayload_serialize rfl rfl, rfl, rfl, rfl⟩

/-- The checksum of a segment makes the sum of the pseudo header and the segment all ones; the
accumulator stays exact over every part of what is added up; and the peer gets the segment's
fields and its payload. -/
theorem checksum_and_roundTrip (session : SessionTuple) (flags : UInt8) (seq ack : UInt32)
    (winsz : UInt16) {payload : List Byte} (hfits : payload.length ≤ 65515) :
    let packet := forSend session flags seq ack winsz payload
    OnesComplement.sum (2 ^ 16)
        (words (pseudoHeader session.local.addr session.remote.addr
          (.ofNat packet.serialize.length) ++ packet.serialize)) = 0xFFFF ∧
      (∀ n, (sumWords 0 ((covered session.local.addr session.remote.addr
          { packet.tcpHeader with thSum := 0 } payload).take n)).toNat =
        wordSum ((covered session.local.addr session.remote.addr
          { packet.tcpHeader with thSum := 0 } payload).take n)) ∧
      ∃ received, makePacketFromPayload session.local.addr session.remote.addr
          packet.serialize = .ok received ∧
        received.getSrcPortHost = session.local.port ∧
        received.getDstPortHost = session.remote.port ∧
        received.getFlags = flags ∧ received.getSeqNumHost = seq ∧
        received.getAckNumHost = ack ∧ received.getWndSizeHost = winsz ∧
        received.payload = payload := by
  intro packet
  refine ⟨?_, ?_, ?_⟩
  · have hbuffer : pseudoHeader session.local.addr session.remote.addr
        (.ofNat packet.serialize.length) ++ packet.serialize =
        covered session.local.addr session.remote.addr packet.tcpHeader payload := by
      rw [serialize, List.length_append, TcpHdr.length_bytes]
      rfl
    rw [hbuffer, OnesComplement.sum_eq (by decide) (words_lt _)]
    exact residue_wordSum_covered hfits rfl
  · intro n
    have hzero : (0 : UInt32).toNat = 0 := rfl
    have hlt : wordSum ((covered session.local.addr session.remote.addr
        { packet.tcpHeader with thSum := 0 } payload).take n) < 2 ^ 32 := by
      apply wordSum_lt
      rw [List.length_take, length_covered]
      omega
    rw [toNat_sumWords (by rwa [hzero, Nat.zero_add]), hzero, Nat.zero_add]
  · exact ⟨packet, makePacketFromPayload_serialize rfl rfl, rfl, rfl, rfl, rfl, rfl, rfl, rfl⟩

/-- A payload of three bytes. -/
theorem checksum_and_roundTrip_three :
    let session : SessionTuple := ⟨⟨0x0a000001, 1024⟩, ⟨0x0a010002, 80⟩⟩
    let packet := forSend session TH_ACK 7 9 65535 [1, 2, 3]
    OnesComplement.sum (2 ^ 16)
        (words (pseudoHeader session.local.addr session.remote.addr
          (.ofNat packet.serialize.length) ++ packet.serialize)) = 0xFFFF ∧
      (∀ n, (sumWords 0 ((covered session.local.addr session.remote.addr
          { packet.tcpHeader with thSum := 0 } [1, 2, 3]).take n)).toNat =
        wordSum ((covered session.local.addr session.remote.addr
          { packet.tcpHeader with thSum := 0 } [1, 2, 3]).take n)) ∧
      ∃ received, makePacketFromPayload session.local.addr session.remote.addr
          packet.serialize = .ok received ∧
        received.getSrcPortHost = session.local.port ∧
        received.getDstPortHost = session.remote.port ∧
        received.getFlags = TH_ACK ∧ received.getSeqNumHost = 7 ∧
        received.getAckNumHost = 9 ∧ received.getWndSizeHost = 65535 ∧
        received.payload = [1, 2, 3] :=
  checksum_and_roundTrip ⟨⟨0x0a000001, 1024⟩, ⟨0x0a010002, 80⟩⟩ TH_ACK 7 9 65535
    (by decide : [1, 2, 3].length ≤ 65515)

end Packet

end Tns.Tcp.Wire
