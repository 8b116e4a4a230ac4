import Tns.Ip.Datagram

/-!
# Sending a datagram and receiving it

Three limits bound the payload of a datagram: its length is cast to 16 bits, the
cast length has to leave room for the header, and the receiver reads everything
into a buffer of 1400 bytes.
-/

namespace Tns.Ip.Wire

variable {srcAddr destAddr : Ipv4Address} {payload : List Byte} {protocol : Protocol} {ttl : ℕ}
  {d : Datagram}

/-! ## A datagram on its way -/

/-- The datagram has no options, and its length field and its checksum are right. -/
structure Conveys (srcAddr destAddr : Ipv4Address) (payload : List Byte) (protocol : Protocol)
    (ttl : ℕ) (d : Datagram) : Prop where
  headerLen : d.ipHeader.headerLen = 20
  totLen : d.ipHeader.totLen.toNat = 20 + payload.length
  ttl : d.ipHeader.ttl.toNat = ttl
  check : d.ipHeader.check = d.ipHeader.computeChecksum
  protocol : d.getProtocol = protocol
  saddr : d.getSrcAddr.addr = srcAddr.addr
  daddr : d.getDstAddr.addr = destAddr.addr
  payload : d.payload = payload

theorem conveys_of_make (hfits : payload.length ≤ MAX_DATAGRAM_SIZE - 20)
    (h : Datagram.make srcAddr destAddr payload protocol = .ok d) :
    Conveys srcAddr destAddr payload protocol 16 d := by
  have hmade := Datagram.made_of_make h
  have hmax : MAX_DATAGRAM_SIZE = 1400 := rfl
  have hmod : payload.length % 2 ^ 16 = payload.length := Nat.mod_eq_of_lt (by omega)
  constructor
  · rw [IpHdr.headerLen, hmade.headerLen]
    rfl
  · rw [hmade.totLen, hmod]
  · rw [hmade.ttl]
    rfl
  · exact hmade.check
  · rw [Datagram.getProtocol, hmade.protocol]
  · exact hmade.saddr
  · exact hmade.daddr
  · exact hmade.payload

theorem Conveys.toNat_ttl (h : Conveys srcAddr destAddr payload protocol (ttl + 1) d) :
    (d.ipHeader.ttl - 1).toNat + 1 = d.ipHeader.ttl.toNat := by
  apply toNat_sub_one_add_one
  intro hzero
  have httl := h.ttl
  rw [hzero] at httl
  exact absurd httl (Nat.succ_ne_zero ttl).symm

/-- While its TTL lasts, the checks of the next node let the datagram pass. -/
theorem Conveys.accepted (h : Conveys srcAddr destAddr payload protocol (ttl + 1) d)
    (hfits : payload.length ≤ MAX_DATAGRAM_SIZE - 20) : Accepted d.bytes := by
  have hmax : MAX_DATAGRAM_SIZE = 1400 := rfl
  have hlen := h.headerLen
  have htotal := h.totLen
  have httl := h.toNat_ttl
  refine ⟨d.bytes_ne_nil, ⟨?_, ?_⟩, ?_, ?_, ?_, ?_⟩
  · rw [recvHdr_bytes]
    exact h.check
  · rw [recvHdr_bytes]
    intro hzero
    rw [hzero] at httl
    exact absurd httl (Nat.succ_ne_zero _)
  · rw [recvHdr_bytes, hlen]
  · intro k hk hk'
    rw [recvHdr_bytes, hlen] at hk'
    omega
  · rw [recvHdr_bytes]
    omega
  · rw [recvHdr_bytes]
    omega

/-- The next node accepts the datagram, and what it would send on is the same but for the TTL. -/
theorem Conveys.next (h : Conveys srcAddr destAddr payload protocol (ttl + 1) d)
    (hfits : payload.length ≤ MAX_DATAGRAM_SIZE - 20) :
    ∃ d', Accepts d.bytes d' ∧ Conveys srcAddr destAddr payload protocol ttl d'.updateChecksum := by
  refine ⟨recvd d.bytes, accepts_iff.mpr ⟨h.accepted hfits, rfl⟩, ?_⟩
  have hpayload : (recvd d.bytes).payload = d.payload := by
    apply payload_recvd h.headerLen
    · rw [h.totLen, h.payload]
    · rwa [h.payload]
  have hheader : (recvd d.bytes).ipHeader = { d.ipHeader with ttl := d.ipHeader.ttl - 1 } := by
    rw [recvd, recvHdr_bytes]
  constructor
  · rw [Datagram.updateChecksum, hheader]
    exact h.headerLen
  · rw [Datagram.updateChecksum, hheader]
    exact h.totLen
  · rw [Datagram.updateChecksum, hheader]
    have httl := h.toNat_ttl
    have httl' := h.ttl
    change (d.ipHeader.ttl - 1).toNat = ttl
    omega
  · exact (IpHdr.computeChecksum_check _ _).symm
  · rw [Datagram.updateChecksum, Datagram.getProtocol, hheader]
    exact h.protocol
  · rw [Datagram.updateChecksum, Datagram.getSrcAddr, hheader]
    exact h.saddr
  · rw [Datagram.updateChecksum, Datagram.getDstAddr, hheader]
    exact h.daddr
  · exact hpayload.trans h.payload

/-- The datagram has the addresses, the protocol and the payload. -/
structure Intact (srcAddr destAddr : Ipv4Address) (payload : List Byte) (protocol : Protocol)
    (d : Datagram) : Prop where
  srcAddr : d.getSrcAddr.addr = srcAddr.addr
  dstAddr : d.getDstAddr.addr = destAddr.addr
  protocol : d.getProtocol = protocol
  payload : d.payload = payload

theorem Conveys.intact (h : Conveys srcAddr destAddr payload protocol ttl d.updateChecksum) :
    Intact srcAddr destAddr payload protocol d :=
  ⟨h.saddr, h.daddr, h.protocol, h.payload⟩

theorem Intact.getSrcAddr (h : Intact srcAddr destAddr payload protocol d)
    (hport : srcAddr.port = 0) : d.getSrcAddr = srcAddr := by
  cases srcAddr
  subst hport
  exact congrArg (Ipv4Address.mk · 0) h.srcAddr

theorem Intact.getDstAddr (h : Intact srcAddr destAddr payload protocol d)
    (hport : destAddr.port = 0) : d.getDstAddr = destAddr := by
  cases destAddr
  subst hport
  exact congrArg (Ipv4Address.mk · 0) h.dstAddr

/-! ## The limits of the payload -/

/-- The constructor throws, or the datagram arrives with its addresses, its protocol and exactly
its payload. -/
def RoundTrips (srcAddr destAddr : Ipv4Address) (payload : List Byte) (protocol : Protocol) :
    Prop :=
  (∃ msg, Datagram.make srcAddr destAddr payload protocol = .error (.runtimeError msg)) ∨
    ∃ d d', Datagram.make srcAddr destAddr payload protocol = .ok d ∧ Accepts d.bytes d' ∧
      d'.getSrcAddr.addr = srcAddr.addr ∧ d'.getDstAddr.addr = destAddr.addr ∧
      d'.getProtocol = protocol ∧ d'.payload = payload

/-- The receiver accepts no more than its buffer holds. -/
theorem totLen_le_of_accepts {d' : Datagram}
    (hmade : Datagram.Made srcAddr destAddr payload protocol d) (h : Accepts d.bytes d') :
    20 + payload.length % 2 ^ 16 ≤ MAX_DATAGRAM_SIZE := by
  have hle := (accepts_iff.mp h).1.totLen_le
  rwa [recvHdr_bytes, hmade.totLen] at hle

/-- The receiver takes the length of the payload from the header. -/
theorem length_payload_le {d' : Datagram}
    (hmade : Datagram.Made srcAddr destAddr payload protocol d) (h : Accepts d.bytes d') :
    d'.payload.length ≤ payload.length % 2 ^ 16 := by
  obtain ⟨-, rfl⟩ := accepts_iff.mp h
  simp only [recvd, recvHdr_bytes, List.length_take, IpHdr.headerLen, hmade.headerLen,
    hmade.totLen]
  change min (20 + payload.length % 2 ^ 16 - 20) _ ≤ _
  omega

/-- A datagram makes the round trip, if and only if its payload fits in the receiver's buffer
behind the header, or the last 16 bits of its length are too large for the constructor. -/
theorem roundTrips_iff (srcAddr destAddr : Ipv4Address) (payload : List Byte)
    (protocol : Protocol) :
    RoundTrips srcAddr destAddr payload protocol ↔
      payload.length ≤ MAX_DATAGRAM_SIZE - 20 ∨ 65535 - 20 < payload.length % 2 ^ 16 := by
  unfold RoundTrips
  rcases Datagram.make_cases srcAddr destAddr payload protocol with
    ⟨hlong, msg, hmake⟩ | ⟨hfits, d, hmake, hmade⟩
  · exact iff_of_true (.inl ⟨msg, hmake⟩) (.inr hlong)
  have hmax : MAX_DATAGRAM_SIZE = 1400 := rfl
  constructor
  · rintro (⟨msg, hthrows⟩ | ⟨d₁, d', hmake₁, haccepts, -, -, -, hpayload⟩)
    · rw [hmake] at hthrows
      cases hthrows
    · obtain rfl := Except.ok.inj (hmake.symm.trans hmake₁)
      have hle := totLen_le_of_accepts hmade haccepts
      have hlength := length_payload_le hmade haccepts
      rw [hpayload] at hlength
      exact .inl (by omega)
  · intro hcase
    have hle : payload.length ≤ MAX_DATAGRAM_SIZE - 20 := by omega
    obtain ⟨d', haccepts, hnext⟩ := (conveys_of_make hle hmake).next hle
    have hintact := hnext.intact
    exact .inr ⟨d, d', hmake, haccepts, hintact.srcAddr, hintact.dstAddr, hintact.protocol,
      hintact.payload⟩

/-- The length of a payload of 65536 bytes is cast to zero: it is sent, and nothing of it
arrives. -/
theorem not_roundTrips :
    ¬∀ (srcAddr destAddr : Ipv4Address) (payload : List Byte) (protocol : Protocol),
      RoundTrips srcAddr destAddr payload protocol := by
  intro h
  have hround := h { addr := 0x0a000001 } { addr := 0x0a000002 } (List.replicate 65536 0) .TEST
  rcases Datagram.make_cases { addr := 0x0a000001 } { addr := 0x0a000002 }
    (List.replicate 65536 0) .TEST with ⟨hlong, -⟩ | ⟨-, d, hmake, hmade⟩
  · rw [List.length_replicate] at hlong
    exact absurd hlong (by decide)
  · rcases hround with ⟨msg, hthrows⟩ | ⟨d₁, d', hmake₁, haccepts, -, -, -, hpayload⟩
    · cases hmake.symm.trans hthrows
    · obtain rfl := Except.ok.inj (hmake.symm.trans hmake₁)
      have hlength := length_payload_le hmade haccepts
      rw [hpayload, List.length_replicate] at hlength
      exact absurd hlength (by decide)

end Tns.Ip.Wire
