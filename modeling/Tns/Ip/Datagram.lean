import Mathlib.Algebra.Order.Ring.Nat
import Tns.Ip.ByteOrder

/-!
# Datagrams on the link

A datagram is a header of 20 bytes and a payload.  The link carries both as one
byte string; the receiver reads it into a buffer of fixed size and takes the
lengths of the header and of the payload from the header itself.
-/

namespace Tns.Ip

open Library.OnesComplement

/-- `ip::Protocol`, an enumeration that has all values of a byte. -/
structure Protocol where
  code : UInt8
  deriving DecidableEq, Repr

namespace Protocol

def TEST : Protocol := ⟨0⟩
def TCP : Protocol := ⟨6⟩
def RIP : Protocol := ⟨200⟩

end Protocol

namespace Wire

/-- What ends a function on datagrams without a return value. -/
inductive Fault where
  /-- A thrown `std::runtime_error`. -/
  | runtimeError (msg : String)
  /-- An access the language leaves undefined. -/
  | undefinedBehaviour
  deriving DecidableEq, Repr

/-! ## Headers -/

/-- `iphdr`, in host byte order except for the checksum. -/
structure IpHdr where
  ihl : Fin 16
  version : Fin 16
  tos : UInt8 := 0
  totLen : UInt16
  id : UInt16 := 0
  fragOff : UInt16 := 0
  ttl : UInt8
  protocol : UInt8
  check : UInt16 := 0
  saddr : UInt32
  daddr : UInt32
  deriving DecidableEq

namespace IpHdr

/-- The header as it lies in memory. -/
def bytes (hdr : IpHdr) : List Byte :=
  [ofNibbles hdr.ihl hdr.version, hdr.tos] ++ hton16 hdr.totLen ++ hton16 hdr.id ++
    hton16 hdr.fragOff ++ [hdr.ttl, hdr.protocol] ++ store16 hdr.check ++ hton32 hdr.saddr ++
    hton32 hdr.daddr

def ofBytes (buf : List Byte) : IpHdr where
  ihl := lowNibble (buf.getD 0 0)
  version := highNibble (buf.getD 0 0)
  tos := buf.getD 1 0
  totLen := be16 buf 2
  id := be16 buf 4
  fragOff := be16 buf 6
  ttl := buf.getD 8 0
  protocol := buf.getD 9 0
  check := le16 buf 10
  saddr := be32 buf 12
  daddr := be32 buf 16

@[simp] theorem length_bytes (hdr : IpHdr) : hdr.bytes.length = 20 := rfl

theorem ofBytes_bytes (hdr : IpHdr) (rest : List Byte) : ofBytes (hdr.bytes ++ rest) = hdr := by
  have hbyte : (hdr.bytes ++ rest).getD 0 0 = ofNibbles hdr.ihl hdr.version := rfl
  rw [ofBytes, hbyte, lowNibble_ofNibbles, highNibble_ofNibbles, be16_eq (x := hdr.totLen) rfl,
    be16_eq (x := hdr.id) rfl, be16_eq (x := hdr.fragOff) rfl, le16_eq (x := hdr.check) rfl,
    be32_eq (x := hdr.saddr) rfl, be32_eq (x := hdr.daddr) rfl]
  rfl

/-- The 20 bytes of a header are those it was read from. -/
theorem bytes_ofBytes {buf : List Byte} (h : 20 ≤ buf.length) :
    (ofBytes buf).bytes = buf.take 20 := by
  rw [take_eq_map_getD h, bytes, ofBytes]
  simp only [hton16_be16, hton32_be32, store16_le16, ofNibbles_nibbles]
  rfl

end IpHdr

/-- The 16-bit words of a header, as the machine loads them. -/
def halfwords (hdr : List Byte) : List UInt16 := (words hdr).map UInt16.ofNat

/-- The number of words of options that the switch of `ipv4Checksum` adds. -/
def optionWords (ihl : UInt16) : ℕ := if (ihl - 5).toNat ≤ 9 then 2 * (ihl - 5).toNat else 20

/-- `ipv4Checksum`.  It leaves out the word of the checksum itself. -/
def ipv4Checksum (hdr : List UInt16) (ihl : UInt16 := 5) : UInt16 :=
  let summed := hdr.take 5 ++ (hdr.drop 6).take 4 ++ (hdr.drop 10).take (optionWords ihl)
  foldSum (summed.map UInt16.toUInt32).sum

/-- `computeChecksum_`. -/
def IpHdr.computeChecksum (hdr : IpHdr) : UInt16 := ipv4Checksum (halfwords hdr.bytes)

@[simp] theorem IpHdr.computeChecksum_check (hdr : IpHdr) (check : UInt16) :
    { hdr with check }.computeChecksum = hdr.computeChecksum := by
  simp only [computeChecksum, ipv4Checksum, halfwords, bytes, hton16, hton32, store16, words,
    List.cons_append, List.nil_append, List.map_cons, List.take_succ_cons, List.take_zero,
    List.drop_succ_cons, List.drop_zero]

/-- `INIT_TTL`. -/
def INIT_TTL : UInt8 := 16

def makeIpv4Header (srcAddr destAddr : Ipv4Address) (protocol : UInt8) (payloadLength : UInt16) :
    Except String IpHdr :=
  if 65535 - 20 < payloadLength then
    .error ("Payload too long: " ++ toString payloadLength)
  else
    let ipHeader : IpHdr := {
      version := 4
      ihl := 5
      totLen := payloadLength + 20
      ttl := INIT_TTL
      protocol
      saddr := srcAddr.addr
      daddr := destAddr.addr }
    .ok { ipHeader with check := ipHeader.computeChecksum }

/-! ## Datagrams -/

structure Datagram where
  ipHeader : IpHdr
  payload : List Byte
  deriving DecidableEq

namespace Datagram

/-- The constructor for sending.  The length of the payload is cast to a `std::uint16_t`. -/
def make (srcAddr destAddr : Ipv4Address) (payload : List Byte) (protocol : Protocol) :
    Except Fault Datagram :=
  match makeIpv4Header srcAddr destAddr protocol.code (.ofNat payload.length) with
  | .error e => .error (.runtimeError ("Datagram::Datagram(): " ++ e))
  | .ok ipHeader => .ok { ipHeader, payload }

/-- What the constructor puts in the header. -/
structure Made (srcAddr destAddr : Ipv4Address) (payload : List Byte) (protocol : Protocol)
    (d : Datagram) : Prop where
  headerLen : d.ipHeader.ihl = 5
  totLen : d.ipHeader.totLen.toNat = 20 + payload.length % 2 ^ 16
  ttl : d.ipHeader.ttl = INIT_TTL
  check : d.ipHeader.check = d.ipHeader.computeChecksum
  protocol : d.ipHeader.protocol = protocol.code
  saddr : d.ipHeader.saddr = srcAddr.addr
  daddr : d.ipHeader.daddr = destAddr.addr
  payload : d.payload = payload

/-- The constructor throws exactly if the length that is left of the payload's does not leave
room for the header. -/
theorem make_cases (srcAddr destAddr : Ipv4Address) (payload : List Byte) (protocol : Protocol) :
    (65535 - 20 < payload.length % 2 ^ 16 ∧
        ∃ msg, make srcAddr destAddr payload protocol = .error (.runtimeError msg)) ∨
      (payload.length % 2 ^ 16 ≤ 65535 - 20 ∧
        ∃ d, make srcAddr destAddr payload protocol = .ok d ∧
          Made srcAddr destAddr payload protocol d) := by
  unfold make makeIpv4Header
  split
  · rename_i e hmake
    split at hmake
    · rename_i hlong
      rw [UInt16.lt_iff_toNat_lt, UInt16.toNat_ofNat'] at hlong
      exact .inl ⟨hlong, _, rfl⟩
    · cases hmake
  · rename_i ipHeader hmake
    split at hmake
    · cases hmake
    · rename_i hfits
      rw [UInt16.lt_iff_toNat_lt, UInt16.toNat_ofNat', not_lt] at hfits
      have hfits' : payload.length % 2 ^ 16 ≤ 65535 - 20 := hfits
      obtain rfl := Except.ok.inj hmake
      have htotal : (UInt16.ofNat payload.length + 20).toNat = 20 + payload.length % 2 ^ 16 := by
        rw [UInt16.toNat_add, UInt16.toNat_ofNat']
        change (payload.length % 2 ^ 16 + 20) % 2 ^ 16 = _
        omega
      refine .inr ⟨hfits', _, rfl, rfl, htotal, rfl, ?_, rfl, rfl, rfl, rfl⟩
      exact (IpHdr.computeChecksum_check _ _).symm

theorem made_of_make {srcAddr destAddr : Ipv4Address} {payload : List Byte} {protocol : Protocol}
    {d : Datagram} (h : make srcAddr destAddr payload protocol = .ok d) :
    Made srcAddr destAddr payload protocol d := by
  rcases make_cases srcAddr destAddr payload protocol with ⟨-, msg, herror⟩ | ⟨-, d', hok, hmade⟩
  · cases herror.symm.trans h
  · obtain rfl := Except.ok.inj (hok.symm.trans h)
    exact hmade

def updateChecksum (d : Datagram) : Datagram :=
  { d with ipHeader := { d.ipHeader with check := d.ipHeader.computeChecksum } }

def getTTL (d : Datagram) : UInt8 := d.ipHeader.ttl
def getDstAddr (d : Datagram) : Ipv4Address := { addr := d.ipHeader.daddr }
def getSrcAddr (d : Datagram) : Ipv4Address := { addr := d.ipHeader.saddr }
def getProtocol (d : Datagram) : Protocol := ⟨d.ipHeader.protocol⟩
def getTotalLength (d : Datagram) : UInt16 := d.ipHeader.totLen

/-- What `sendDatagram` puts on the link. -/
def bytes (d : Datagram) : List Byte := d.ipHeader.bytes ++ d.payload

end Datagram

/-! ## Receiving -/

/-- `Datagram::MAX_DATAGRAM_SIZE`. -/
def MAX_DATAGRAM_SIZE : ℕ := 1400

/-- The buffer of `recvDatagram` once `recv` has written what it received: a longer datagram is
cut off, and the bytes behind a shorter one are zero. -/
def recvBuf (received : List Byte) : List Byte :=
  (received ++ List.replicate MAX_DATAGRAM_SIZE 0).take MAX_DATAGRAM_SIZE

/-- `std::any_of` over `n` bytes of the buffer from `i` on: the positions that it reads, and
whether it finds a byte that is not zero. -/
def anyNonzero (buf : List Byte) : ℕ → ℕ → List ℕ × Bool
  | _, 0 => ([], false)
  | i, n + 1 =>
      if buf.getD i 0 ≠ 0 then ([i], true)
      else ((i :: (anyNonzero buf (i + 1) n).1), (anyNonzero buf (i + 1) n).2)

/-- A run of `recvDatagram`: the positions of the buffer that the scan of the options and the
copy of the payload read, and how the call ends. -/
structure RecvRun where
  reads : List ℕ := []
  result : Except Fault (Except String Datagram)

/-- `hdr.ihl * 4`. -/
def IpHdr.headerLen (hdr : IpHdr) : ℕ := hdr.ihl * 4

/-- `recvDatagram`, given what `recv` returns: `std::strerror(errno)` or a byte string. -/
def recvDatagram : Except String (List Byte) → RecvRun
  | .error errno => { result := .ok (.error ("recv() failed: " ++ errno)) }
  | .ok [] =>
      { result := .error
          (.runtimeError "recv() returned 0 (peer has performed an orderly shutdown)") }
  | .ok received =>
      let buf := recvBuf received
      let hdr := IpHdr.ofBytes buf
      if hdr.check ≠ hdr.computeChecksum then
        { result := .ok (.error "IP Checksum invalid") }
      else if hdr.ttl = 0 then
        { result := .ok (.error "TTL expired") }
      else
        let headerLen := hdr.headerLen
        let totalLen := hdr.totLen.toNat
        -- the options are `[buf + 20, buf + headerLen)`, which is no range if it ends before 20
        if headerLen < 20 then
          { result := .error .undefinedBehaviour }
        else
          let options := anyNonzero buf 20 (headerLen - 20)
          if options.2 then
            { reads := options.1, result := .ok (.error "Non-zero IP header options found") }
          else if totalLen < headerLen then
            { reads := options.1
              result := .ok (.error "IP header length is greater than the total length") }
          else
            let payloadLen := totalLen - headerLen
            { reads := options.1 ++ List.range' headerLen payloadLen
              result :=
                if MAX_DATAGRAM_SIZE < headerLen + payloadLen then .error .undefinedBehaviour
                else .ok (.ok {
                  ipHeader := { hdr with ttl := hdr.ttl - 1 }
                  payload := (buf.drop headerLen).take payloadLen }) }

/-- `recvDatagram` returns the datagram for the byte string. -/
def Accepts (received : List Byte) (d : Datagram) : Prop :=
  (recvDatagram (.ok received)).result = .ok (.ok d)

/-- The header that `recvDatagram` reads. -/
def recvHdr (received : List Byte) : IpHdr := .ofBytes (recvBuf received)

theorem length_recvBuf (received : List Byte) : (recvBuf received).length = MAX_DATAGRAM_SIZE := by
  rw [recvBuf, List.length_take, List.length_append, List.length_replicate]
  omega

theorem getD_recvBuf {received : List Byte} {i : ℕ} (hi : i < MAX_DATAGRAM_SIZE) :
    (recvBuf received).getD i 0 = received.getD i 0 := by
  rw [recvBuf, List.getD_eq_getElem?_getD, List.getElem?_take_of_lt hi, List.getD_eq_getElem?_getD]
  rcases lt_or_ge i received.length with hlt | hge
  · rw [List.getElem?_append_left hlt]
  · rw [List.getElem?_append_right hge, List.getElem?_replicate_of_lt (by omega),
      List.getElem?_eq_none hge]
    rfl

theorem headerLen_le (hdr : IpHdr) : hdr.headerLen ≤ 60 := by
  have hihl := hdr.ihl.isLt
  unfold IpHdr.headerLen
  omega

theorem toNat_sub_one_add_one {t : UInt8} (h : t ≠ 0) : (t - 1).toNat + 1 = t.toNat := by
  have hpos : t.toNat ≠ 0 := fun hzero ↦ h (UInt8.toNat_inj.mp hzero)
  have hone : (1 : UInt8) ≤ t := UInt8.le_iff_toNat_le.mpr (Nat.one_le_iff_ne_zero.mpr hpos)
  rw [UInt8.toNat_sub_of_le _ _ hone]
  exact Nat.sub_add_cancel (Nat.one_le_iff_ne_zero.mpr hpos)

theorem anyNonzero_eq_false {buf : List Byte} {i n : ℕ} :
    (anyNonzero buf i n).2 = false ↔ ∀ k, i ≤ k → k < i + n → buf.getD k 0 = 0 := by
  induction n generalizing i with
  | zero => exact iff_of_true rfl fun k hk hk' ↦ absurd hk' (not_lt.mpr hk)
  | succ n ih =>
      unfold anyNonzero
      split
      · rename_i hne
        exact iff_of_false nofun fun h ↦ hne (h i le_rfl (by omega))
      · rename_i hzero
        rw [not_not] at hzero
        rw [ih]
        constructor
        · intro h k hk hk'
          rcases hk.eq_or_lt with rfl | hlt
          · exact hzero
          · exact h k hlt (by omega)
        · exact fun h k hk hk' ↦ h k (by omega) (by omega)

/-- The scan reads up to the first byte that is not zero. -/
theorem mem_anyNonzero {buf : List Byte} {i n j : ℕ} :
    j ∈ (anyNonzero buf i n).1 ↔
      i ≤ j ∧ j < i + n ∧ ∀ k, i ≤ k → k < j → buf.getD k 0 = 0 := by
  induction n generalizing i with
  | zero => exact iff_of_false List.not_mem_nil fun h ↦ by omega
  | succ n ih =>
      unfold anyNonzero
      split
      · rename_i hne
        rw [List.mem_singleton]
        constructor
        · rintro rfl
          exact ⟨le_rfl, by omega, fun k hk hk' ↦ absurd hk' (not_lt.mpr hk)⟩
        · rintro ⟨hle, -, hzero⟩
          by_contra hij
          exact hne (hzero i le_rfl (by omega))
      · rename_i hzero
        rw [not_not] at hzero
        rw [List.mem_cons, ih]
        constructor
        · rintro (rfl | ⟨hle, hlt, hall⟩)
          · exact ⟨le_rfl, by omega, fun k hk hk' ↦ absurd hk' (not_lt.mpr hk)⟩
          · refine ⟨by omega, by omega, ?_⟩
            intro k hk hk'
            rcases hk.eq_or_lt with rfl | hik
            · exact hzero
            · exact hall k hik hk'
        · rintro ⟨hle, hlt, hall⟩
          rcases hle.eq_or_lt with rfl | hij
          · exact .inl rfl
          · exact .inr ⟨hij, by omega, fun k hk hk' ↦ hall k (by omega) hk'⟩

/-- The positions that the scan of the options reads. -/
def optionReads (received : List Byte) : List ℕ :=
  (anyNonzero (recvBuf received) 20 ((recvHdr received).headerLen - 20)).1

/-- The option bytes of the buffer are zero. -/
def NoOptions (received : List Byte) : Prop :=
  ∀ k, 20 ≤ k → k < (recvHdr received).headerLen → (recvBuf received).getD k 0 = 0

/-- The header of the byte string passes the checks that come before its lengths are used. -/
structure HeaderOk (received : List Byte) : Prop where
  check : (recvHdr received).check = (recvHdr received).computeChecksum
  ttl : (recvHdr received).ttl ≠ 0

/-- The datagram that `recvDatagram` makes. -/
def recvd (received : List Byte) : Datagram where
  ipHeader := { recvHdr received with ttl := (recvHdr received).ttl - 1 }
  payload := ((recvBuf received).drop (recvHdr received).headerLen).take
    ((recvHdr received).totLen.toNat - (recvHdr received).headerLen)

/-- Everything that `recvDatagram` can do with a byte string. -/
inductive Receives (received : List Byte) : RecvRun → Prop
  | refuseHeader (msg : String) (hheader : ¬HeaderOk received) :
      Receives received { result := .ok (.error msg) }
  | badRange (hheader : HeaderOk received) (hlen : (recvHdr received).headerLen < 20) :
      Receives received { result := .error .undefinedBehaviour }
  | refuseOptions (msg : String) (hheader : HeaderOk received)
      (hlen : 20 ≤ (recvHdr received).headerLen) (hoptions : ¬NoOptions received) :
      Receives received { reads := optionReads received, result := .ok (.error msg) }
  | refuseLength (msg : String) (hheader : HeaderOk received)
      (hlen : 20 ≤ (recvHdr received).headerLen) (hoptions : NoOptions received)
      (htotal : (recvHdr received).totLen.toNat < (recvHdr received).headerLen) :
      Receives received { reads := optionReads received, result := .ok (.error msg) }
  | copy (result : Except Fault (Except String Datagram)) (hheader : HeaderOk received)
      (hlen : 20 ≤ (recvHdr received).headerLen) (hoptions : NoOptions received)
      (htotal : (recvHdr received).headerLen ≤ (recvHdr received).totLen.toNat)
      (hresult : result =
        if MAX_DATAGRAM_SIZE < (recvHdr received).totLen.toNat then .error .undefinedBehaviour
        else .ok (.ok (recvd received))) :
      Receives received {
        reads := optionReads received ++ List.range' (recvHdr received).headerLen
          ((recvHdr received).totLen.toNat - (recvHdr received).headerLen)
        result }

theorem noOptions_iff {received : List Byte} (hlen : 20 ≤ (recvHdr received).headerLen) :
    (anyNonzero (recvBuf received) 20 ((recvHdr received).headerLen - 20)).2 = false ↔
      NoOptions received := by
  rw [anyNonzero_eq_false, Nat.add_sub_cancel' hlen]
  rfl

theorem receives {received : List Byte} (hne : received ≠ []) :
    Receives received (recvDatagram (.ok received)) := by
  obtain ⟨b, bs, rfl⟩ := List.exists_cons_of_ne_nil hne
  generalize hreceived : b :: bs = received
  have hrun : recvDatagram (.ok received) = recvDatagram (.ok (b :: bs)) := by rw [hreceived]
  rw [hrun]
  unfold recvDatagram
  simp only [hreceived]
  change Receives received (if (recvHdr received).check ≠ (recvHdr received).computeChecksum then _
    else if (recvHdr received).ttl = 0 then _ else _)
  split
  · rename_i hcheck
    exact .refuseHeader _ fun h ↦ hcheck h.check
  rename_i hcheck
  split
  · rename_i httl
    exact .refuseHeader _ fun h ↦ h.ttl httl
  rename_i httl
  have hheader : HeaderOk received := ⟨not_ne_iff.mp hcheck, httl⟩
  split
  · rename_i hlen
    exact .badRange hheader hlen
  rename_i hlen
  have hlen' : 20 ≤ (recvHdr received).headerLen := not_lt.mp hlen
  split
  · rename_i hoptions
    refine .refuseOptions _ hheader hlen' fun h ↦ ?_
    exact Bool.false_ne_true (((noOptions_iff hlen').mpr h).symm.trans hoptions)
  rename_i hoptions
  have hnone : NoOptions received := (noOptions_iff hlen').mp (Bool.eq_false_iff.mpr hoptions)
  split
  · rename_i htotal
    exact .refuseLength _ hheader hlen' hnone htotal
  rename_i htotal
  refine .copy _ hheader hlen' hnone (not_lt.mp htotal) ?_
  congr 2
  exact Nat.add_sub_cancel' (not_lt.mp htotal)

/-- The checks that a byte string passes. -/
structure Accepted (received : List Byte) : Prop where
  notEmpty : received ≠ []
  header : HeaderOk received
  headerLen : 20 ≤ (recvHdr received).headerLen
  options : NoOptions received
  headerLen_le : (recvHdr received).headerLen ≤ (recvHdr received).totLen.toNat
  totLen_le : (recvHdr received).totLen.toNat ≤ MAX_DATAGRAM_SIZE

theorem accepts_iff {received : List Byte} {d : Datagram} :
    Accepts received d ↔ Accepted received ∧ d = recvd received := by
  rcases eq_or_ne received [] with rfl | hne
  · exact iff_of_false nofun fun h ↦ h.1.notEmpty rfl
  have hrun := receives hne
  unfold Accepts
  generalize recvDatagram (.ok received) = run at hrun
  cases hrun with
  | refuseHeader msg hheader => exact iff_of_false nofun fun h ↦ hheader h.1.header
  | badRange hheader hlen =>
      exact iff_of_false nofun fun h ↦ absurd h.1.headerLen (not_le.mpr hlen)
  | refuseOptions msg hheader hlen hoptions =>
      exact iff_of_false nofun fun h ↦ hoptions h.1.options
  | refuseLength msg hheader hlen hoptions htotal =>
      exact iff_of_false nofun fun h ↦ absurd h.1.headerLen_le (not_le.mpr htotal)
  | copy result hheader hlen hoptions htotal hresult =>
      subst hresult
      simp only
      split
      · rename_i hmax
        exact iff_of_false nofun fun h ↦ absurd h.1.totLen_le (not_le.mpr hmax)
      · rename_i hmax
        rw [Except.ok.injEq, Except.ok.injEq, eq_comm]
        exact ⟨fun h ↦ ⟨⟨hne, hheader, hlen, hoptions, htotal, not_lt.mp hmax⟩, h⟩, And.right⟩

/-! ## What arrives of a datagram -/

@[simp] theorem Datagram.bytes_ne_nil (d : Datagram) : d.bytes ≠ [] := nofun

/-- The buffer holds the header and what fits of the payload. -/
theorem recvBuf_bytes (d : Datagram) :
    recvBuf d.bytes = d.ipHeader.bytes ++
      (d.payload ++ List.replicate MAX_DATAGRAM_SIZE 0).take (MAX_DATAGRAM_SIZE - 20) := by
  rw [recvBuf, Datagram.bytes, List.append_assoc, List.take_append, List.take_of_length_le]
  · rfl
  · exact Nat.le_of_ble_eq_true rfl

@[simp] theorem recvHdr_bytes (d : Datagram) : recvHdr d.bytes = d.ipHeader := by
  rw [recvHdr, recvBuf_bytes, IpHdr.ofBytes_bytes]

theorem drop_recvBuf_bytes (d : Datagram) (n : ℕ) :
    (recvBuf d.bytes).drop (20 + n) =
      ((d.payload ++ List.replicate MAX_DATAGRAM_SIZE 0).take (MAX_DATAGRAM_SIZE - 20)).drop n := by
  rw [recvBuf_bytes, ← List.drop_drop, List.drop_left' d.ipHeader.length_bytes]

/-- Of a payload that fits in the buffer all bytes are copied. -/
theorem payload_recvd {d : Datagram} (hlen : d.ipHeader.headerLen = 20)
    (htotal : d.ipHeader.totLen.toNat = 20 + d.payload.length)
    (hfits : d.payload.length ≤ MAX_DATAGRAM_SIZE - 20) : (recvd d.bytes).payload = d.payload := by
  have hdrop := drop_recvBuf_bytes d 0
  simp only [recvd, recvHdr_bytes, hlen, htotal, Nat.add_sub_cancel_left]
  rw [hdrop, List.drop_zero, List.take_take, min_eq_left hfits, List.take_left]

end Wire

end Tns.Ip
