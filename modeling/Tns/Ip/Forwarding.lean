import Tns.Ip.NetworkNode

/-!
# Forwarding

Every node on the path of a datagram takes one off its TTL and refuses it at
zero, whatever the routing tables say.  A router keeps the header as it arrived,
length field and all, but sends on only its first 20 bytes.
-/

namespace Tns.Ip

open Wire

/-! ## Paths -/

/-- The arrival of a datagram at an interface of a node, which has its routing table of that
moment. -/
inductive Arrival where
  | atRouter (r : RouterNode) (iface : NetworkInterface)
  | atHost (n : NetworkNode) (iface : NetworkInterface)

namespace Arrival

/-- `NetworkInterface::recvDatagram`, for a datagram that `Datagram::recvDatagram` returns. -/
def handle (d : Wire.Datagram) : Arrival → Except Wire.Fault Handled
  | atRouter r iface => if iface.isUp then r.datagramHandler d else .ok .discarded
  | atHost n iface => if iface.isUp then n.hostHandler d iface.ipAddress else .ok .discarded

end Arrival

/-- One node on a path: the datagram that `recvDatagram` returned there, and what the node put on
its next link. -/
structure Hop where
  datagram : Wire.Datagram
  forwarded : Option (List Byte)

/-- The nodes that receive a byte string on a link, one after the other, and what each of them
forwards.  Any node may be the next, with any routing table, and any copy may get lost. -/
inductive Path : List Byte → List Hop → Prop
  | lost (onLink : List Byte) : Path onLink []
  | last {onLink : List Byte} {d : Wire.Datagram} (haccepts : Accepts onLink d) :
      Path onLink [⟨d, none⟩]
  | cons {onLink : List Byte} {d : Wire.Datagram} {arrival : Arrival} {emission : Emission}
      {hops : List Hop} (haccepts : Accepts onLink d)
      (hhandle : arrival.handle d = .ok (.forwarded emission))
      (tail : Path emission.bytes hops) : Path onLink (⟨d, some emission.bytes⟩ :: hops)

theorem bytes_of_handle {arrival : Arrival} {d : Wire.Datagram} {emission : Emission}
    (h : arrival.handle d = .ok (.forwarded emission)) :
    emission.bytes = d.updateChecksum.bytes := by
  cases arrival with
  | atRouter r iface =>
      simp only [Arrival.handle] at h
      split at h
      · exact (RouterNode.of_forwarded h).2
      · cases h
  | atHost n iface =>
      simp only [Arrival.handle, NetworkNode.hostHandler] at h
      split at h
      · split at h <;> cases h
      · cases h

/-- An accepted datagram has one less on its TTL than it arrived with. -/
theorem ttl_of_accepts {received : List Byte} {d : Wire.Datagram} (h : Accepts received d) :
    d.getTTL.toNat + 1 = (recvHdr received).ttl.toNat := by
  obtain ⟨haccepted, rfl⟩ := accepts_iff.mp h
  exact toNat_sub_one_add_one haccepted.header.ttl

/-- A forwarded copy has the checksum that its receiver computes, and the TTL it was accepted
with. -/
theorem recvHdr_updateChecksum (d : Wire.Datagram) :
    (recvHdr d.updateChecksum.bytes).check = (recvHdr d.updateChecksum.bytes).computeChecksum ∧
      (recvHdr d.updateChecksum.bytes).ttl = d.getTTL := by
  rw [recvHdr_bytes]
  exact ⟨(IpHdr.computeChecksum_check d.ipHeader _).symm, rfl⟩

namespace Path

variable {onLink : List Byte} {hops : List Hop}

/-- At each node of a path the TTL is one less than at the node before. -/
theorem ttl (h : Path onLink hops) (k : ℕ) (hop : Hop) (hk : hops[k]? = some hop) :
    hop.datagram.getTTL.toNat + k + 1 = (recvHdr onLink).ttl.toNat := by
  induction h generalizing k with
  | lost onLink => cases hk
  | @last onLink d haccepts =>
      cases k with
      | zero =>
          obtain rfl := Option.some.inj hk
          exact ttl_of_accepts haccepts
      | succ k => cases hk
  | @cons onLink d arrival emission hops haccepts hhandle tail ih =>
      have httl := ttl_of_accepts haccepts
      cases k with
      | zero =>
          obtain rfl := Option.some.inj hk
          exact httl
      | succ k =>
          rw [List.getElem?_cons_succ] at hk
          have hrest := ih k hk
          rw [bytes_of_handle hhandle, (recvHdr_updateChecksum d).2] at hrest
          omega

theorem length_le (h : Path onLink hops) : hops.length ≤ (recvHdr onLink).ttl.toNat := by
  rcases Nat.eq_zero_or_pos hops.length with hzero | hpos
  · omega
  · have hlast : hops[hops.length - 1]? = some (hops.get ⟨hops.length - 1, by omega⟩) :=
      List.getElem?_eq_getElem _
    have httl := h.ttl _ _ hlast
    omega

/-- Every copy that is forwarded on a path has the checksum that its receiver computes. -/
theorem check (h : Path onLink hops) : ∀ hop ∈ hops, ∀ bytes, hop.forwarded = some bytes →
    (recvHdr bytes).check = (recvHdr bytes).computeChecksum := by
  induction h with
  | lost => exact fun hop hhop ↦ absurd hhop List.not_mem_nil
  | last haccepts =>
      intro hop hhop bytes hbytes
      obtain rfl := List.mem_singleton.mp hhop
      cases hbytes
  | @cons onLink d arrival emission hops haccepts hhandle tail ih =>
      intro hop hhop bytes hbytes
      rcases List.mem_cons.mp hhop with rfl | hhop
      · obtain rfl := Option.some.inj hbytes
        rw [bytes_of_handle hhandle]
        exact (recvHdr_updateChecksum d).1
      · exact ih hop hhop bytes hbytes

/-- On a path of any length through any nodes, a datagram that a node originates is accepted at
most 16 times; its TTL counts down to zero without passing it, and each copy that is forwarded
has the checksum that the next node computes. -/
theorem bounded_by_ttl {srcAddr destAddr : Ipv4Address} {payload : List Byte} {protocol : Protocol}
    {d : Wire.Datagram} (hmake : Datagram.make srcAddr destAddr payload protocol = .ok d)
    (h : Path d.bytes hops) :
    hops.length ≤ 16 ∧
      (∀ k hop, hops[k]? = some hop → hop.datagram.getTTL.toNat + k + 1 = 16) ∧
      ∀ hop ∈ hops, ∀ bytes, hop.forwarded = some bytes →
        (recvHdr bytes).check = (recvHdr bytes).computeChecksum := by
  have httl : (recvHdr d.bytes).ttl.toNat = 16 := by
    rcases Datagram.make_cases srcAddr destAddr payload protocol with
      ⟨-, msg, hthrows⟩ | ⟨-, d₁, hmake₁, hmade⟩
    · cases hmake.symm.trans hthrows
    · obtain rfl := Except.ok.inj (hmake.symm.trans hmake₁)
      rw [recvHdr_bytes, hmade.ttl]
      rfl
  have hle := h.length_le
  have hall := h.ttl
  rw [httl] at hle hall
  exact ⟨hle, hall, h.check⟩

end Path

/-- The router between two links. -/
def exampleRouter : RouterNode := .ofLnx [RouterNode.if0, RouterNode.if1] [] 0

/-- A header from a host on the one link to a host on the other. -/
def exampleHdr (ihl : Fin 16) (totLen : UInt16) (check : UInt16) : IpHdr :=
  { version := 4, ihl, totLen, ttl := 16, protocol := 0, check, saddr := 0x0a000002
    daddr := 0x0a000102 }

/-- A datagram on its way to the router, and behind it. -/
def onFirstLink : List Byte :=
  [69, 0, 0, 21, 0, 0, 0, 0, 16, 0, 149, 230, 10, 0, 0, 2, 10, 0, 1, 2, 7]

def onSecondLink : List Byte :=
  [69, 0, 0, 21, 0, 0, 0, 0, 15, 0, 150, 230, 10, 0, 0, 2, 10, 0, 1, 2, 7]

def exampleInface : NetworkInterface :=
  { name := "if0", ipAddress := { addr := 0x0a000001 }, neighborInterfaces := [] }

/-- A datagram goes through the router and arrives at its destination. -/
theorem Path.bounded_by_ttl_one_router :
    ∃ (d : Wire.Datagram) (hops : List Hop), Path d.bytes hops ∧ hops.length = 2 ∧
      hops.length ≤ 16 ∧
        (∀ k hop, hops[k]? = some hop → hop.datagram.getTTL.toNat + k + 1 = 16) ∧
        ∀ hop ∈ hops, ∀ bytes, hop.forwarded = some bytes →
          (recvHdr bytes).check = (recvHdr bytes).computeChecksum := by
  have hmake : Datagram.make { addr := 0x0a000002 } { addr := 0x0a000102 } [7] .TEST =
      .ok { ipHeader := exampleHdr 5 21 59029, payload := [7] } := rfl
  have haccepts : Accepts onFirstLink (recvd onFirstLink) := by rfl
  have haccepts' : Accepts onSecondLink (recvd onSecondLink) := by rfl
  have hhandle : (Arrival.atRouter exampleRouter exampleInface).handle (recvd onFirstLink) =
      .ok (.forwarded ⟨1, { addr := 0x0a000102 }, onSecondLink⟩) := by rfl
  have hpath : Path (Datagram.bytes ⟨exampleHdr 5 21 59029, [7]⟩)
      [⟨recvd onFirstLink, some onSecondLink⟩, ⟨recvd onSecondLink, none⟩] :=
    .cons haccepts hhandle (.last haccepts')
  exact ⟨_, _, hpath, rfl, Path.bounded_by_ttl hmake hpath⟩

/-! ## One hop -/

/-- What the next node makes of the bytes is the datagram, with one less on its TTL. -/
def Transparent (d : Wire.Datagram) (bytes : List Byte) : Prop :=
  ∃ d', Accepts bytes d' ∧ d'.getSrcAddr = d.getSrcAddr ∧ d'.getDstAddr = d.getDstAddr ∧
    d'.getProtocol = d.getProtocol ∧ d'.payload = d.payload ∧
    d'.getTTL.toNat + 1 = d.getTTL.toNat

/-- A list that starts with zeros, and equals itself moved by as many places, is zero. -/
theorem eq_zero_of_shift {p : List Byte} {k : ℕ} (hk : 0 < k)
    (hfront : ∀ t < k, p.getD t 0 = 0) (hshift : ∀ t < p.length, p.getD (k + t) 0 = p.getD t 0) :
    ∀ t, p.getD t 0 = 0 := by
  intro t
  induction t using Nat.strong_induction_on with
  | _ t ih =>
      rcases lt_or_ge t k with hlt | hge
      · exact hfront t hlt
      · rcases lt_or_ge t p.length with hin | hout
        · have hback := hshift (t - k) (by omega)
          rw [Nat.add_sub_cancel' hge] at hback
          rw [hback]
          exact ih (t - k) (by omega)
        · exact List.getD_eq_default _ _ hout

theorem forall_getD_iff {p : List Byte} : (∀ t, p.getD t 0 = 0) ↔ ∀ b ∈ p, b = 0 := by
  constructor
  · intro h b hb
    obtain ⟨t, ht, rfl⟩ := List.getElem_of_mem hb
    rw [← List.getD_eq_getElem (d := 0)]
    exact h t
  · intro h t
    rcases lt_or_ge t p.length with hin | hout
    · rw [List.getD_eq_getElem _ _ hin]
      exact h _ (List.getElem_mem hin)
    · exact List.getD_eq_default _ _ hout

/-- Behind the header, the receiver's buffer holds the payload that was sent. -/
theorem getD_recvBuf_bytes (d : Wire.Datagram) {t : ℕ} (ht : 20 + t < MAX_DATAGRAM_SIZE) :
    (recvBuf d.bytes).getD (20 + t) 0 = d.payload.getD t 0 := by
  rw [getD_recvBuf ht, Datagram.bytes, List.getD_append_right _ _ _ _ (by simp),
    IpHdr.length_bytes, Nat.add_sub_cancel_left]

section Transparent

variable {received : List Byte} {d : Wire.Datagram}

/-- The lengths of a datagram that `recvDatagram` has made. -/
theorem length_payload_of_accepts (h : Accepts received d) :
    20 ≤ d.ipHeader.headerLen ∧ d.ipHeader.headerLen + d.payload.length = d.ipHeader.totLen.toNat ∧
      d.ipHeader.totLen.toNat ≤ MAX_DATAGRAM_SIZE := by
  obtain ⟨haccepted, rfl⟩ := accepts_iff.mp h
  have hlen : (recvd received).payload.length =
      (recvHdr received).totLen.toNat - (recvHdr received).headerLen := by
    have hle := haccepted.totLen_le
    simp only [recvd, List.length_take, List.length_drop, length_recvBuf]
    omega
  refine ⟨haccepted.headerLen, ?_, haccepted.totLen_le⟩
  have hle := haccepted.headerLen_le
  change (recvHdr received).headerLen + _ = (recvHdr received).totLen.toNat
  rw [hlen]
  omega

/-- The bytes that a router sends on are accepted exactly if the payload begins with zeros where
the options were. -/
theorem accepted_updateChecksum_iff (h : Accepts received d) (httl : 0 < d.getTTL.toNat) :
    Accepted d.updateChecksum.bytes ↔
      ∀ t < d.ipHeader.headerLen - 20, d.payload.getD t 0 = 0 := by
  obtain ⟨hlen, htotal, hmax⟩ := length_payload_of_accepts h
  have hhdr : recvHdr d.updateChecksum.bytes = d.updateChecksum.ipHeader := recvHdr_bytes _
  have hlen' : (recvHdr d.updateChecksum.bytes).headerLen = d.ipHeader.headerLen := by
    rw [hhdr]
    rfl
  have htotal' : (recvHdr d.updateChecksum.bytes).totLen = d.ipHeader.totLen := by
    rw [hhdr]
    rfl
  have hmaxlen := headerLen_le d.ipHeader
  have hoptions : NoOptions d.updateChecksum.bytes ↔
      ∀ t < d.ipHeader.headerLen - 20, d.payload.getD t 0 = 0 := by
    unfold NoOptions
    rw [hlen']
    constructor
    · intro hall t ht
      have hzero := hall (20 + t) (by omega) (by omega)
      rwa [getD_recvBuf_bytes _ (by unfold MAX_DATAGRAM_SIZE; omega)] at hzero
    · intro hall k hk hk'
      obtain ⟨t, rfl⟩ := Nat.exists_eq_add_of_le hk
      rw [getD_recvBuf_bytes _ (by unfold MAX_DATAGRAM_SIZE; omega)]
      exact hall t (by omega)
  constructor
  · exact fun haccepted ↦ hoptions.mp haccepted.options
  · intro hall
    refine ⟨Datagram.bytes_ne_nil _, ⟨(recvHdr_updateChecksum d).1, ?_⟩, ?_, hoptions.mpr hall,
      ?_, ?_⟩
    · rw [(recvHdr_updateChecksum d).2]
      intro hzero
      rw [hzero] at httl
      exact absurd httl (by decide)
    · rwa [hlen']
    · rw [hlen', htotal']
      omega
    · rwa [htotal']

/-- The payload that the next node copies is the payload without as many bytes as the options
had, and with zeros behind it. -/
theorem payload_recvd_iff (h : Accepts received d) :
    (recvd d.updateChecksum.bytes).payload = d.payload ↔
      ∀ t < d.payload.length,
        d.payload.getD (d.ipHeader.headerLen - 20 + t) 0 = d.payload.getD t 0 := by
  obtain ⟨hlen, htotal, hmax⟩ := length_payload_of_accepts h
  have hhdr : recvHdr d.updateChecksum.bytes = d.updateChecksum.ipHeader := recvHdr_bytes _
  have hcopied : (recvd d.updateChecksum.bytes).payload =
      ((recvBuf d.updateChecksum.bytes).drop d.ipHeader.headerLen).take d.payload.length := by
    have hrest : d.ipHeader.totLen.toNat - d.ipHeader.headerLen = d.payload.length := by omega
    rw [← hrest, recvd, hhdr]
    rfl
  have hlength : (recvd d.updateChecksum.bytes).payload.length = d.payload.length := by
    rw [hcopied, List.length_take, List.length_drop, length_recvBuf]
    omega
  have hbyte : ∀ t < d.payload.length, (recvd d.updateChecksum.bytes).payload.getD t 0 =
      d.payload.getD (d.ipHeader.headerLen - 20 + t) 0 := by
    intro t ht
    have hpos : d.ipHeader.headerLen + t = 20 + (d.ipHeader.headerLen - 20 + t) := by omega
    rw [hcopied, List.getD_eq_getElem?_getD, List.getElem?_take_of_lt ht, List.getElem?_drop, hpos,
      ← List.getD_eq_getElem?_getD, getD_recvBuf_bytes _ (by omega)]
    rfl
  constructor
  · intro heq t ht
    rw [← hbyte t ht, heq]
  · intro hall
    apply List.ext_getElem hlength
    intro t ht ht'
    rw [← List.getD_eq_getElem (d := 0), ← List.getD_eq_getElem (d := 0), hbyte t ht', hall t ht']

/-- A hop through a router is transparent, if and only if the header that arrived has 20 bytes or
the payload is zero. -/
theorem transparent_iff {r : RouterNode} {emission : Emission}
    (haccepts : Accepts received d) (httl : 2 ≤ (recvHdr received).ttl.toNat)
    (hhandle : r.datagramHandler d = .ok (.forwarded emission)) :
    Transparent d emission.bytes ↔ d.ipHeader.headerLen = 20 ∨ ∀ b ∈ d.payload, b = 0 := by
  have hone := ttl_of_accepts haccepts
  have hlen := (length_payload_of_accepts haccepts).1
  rw [(RouterNode.of_forwarded hhandle).2, ← forall_getD_iff]
  have haccepted := accepted_updateChecksum_iff haccepts (by omega)
  have hpayload := payload_recvd_iff haccepts
  constructor
  · rintro ⟨d', haccepts', -, -, -, hsame, -⟩
    obtain ⟨hnext, rfl⟩ := accepts_iff.mp haccepts'
    rcases hlen.eq_or_lt with heq | hlt
    · exact .inl heq.symm
    · exact .inr (eq_zero_of_shift (by omega) (haccepted.mp hnext) (hpayload.mp hsame))
  · intro hcase
    have hfront : ∀ t < d.ipHeader.headerLen - 20, d.payload.getD t 0 = 0 := by
      intro t ht
      rcases hcase with heq | hzero
      · omega
      · exact hzero t
    have hshift : ∀ t < d.payload.length,
        d.payload.getD (d.ipHeader.headerLen - 20 + t) 0 = d.payload.getD t 0 := by
      intro t ht
      rcases hcase with heq | hzero
      · rw [heq, Nat.sub_self, Nat.zero_add]
      · rw [hzero, hzero]
    have hnext : Accepts d.updateChecksum.bytes (recvd d.updateChecksum.bytes) :=
      accepts_iff.mpr ⟨haccepted.mpr hfront, rfl⟩
    refine ⟨_, hnext, ?_, ?_, ?_, hpayload.mpr hshift, ?_⟩
    · simp only [recvd, Datagram.getSrcAddr, recvHdr_bytes, Datagram.updateChecksum]
    · simp only [recvd, Datagram.getDstAddr, recvHdr_bytes, Datagram.updateChecksum]
    · simp only [recvd, Datagram.getProtocol, recvHdr_bytes, Datagram.updateChecksum]
    · rw [ttl_of_accepts hnext, (recvHdr_updateChecksum d).2]

end Transparent

/-- The router forwards a datagram without options. -/
theorem transparent_iff_no_options :
    ∃ (received : List Byte) (d : Wire.Datagram) (emission : Emission),
      Accepts received d ∧ exampleRouter.datagramHandler d = .ok (.forwarded emission) ∧
        d.payload = [7] ∧
        (Transparent d emission.bytes ↔
          d.ipHeader.headerLen = 20 ∨ ∀ b ∈ d.payload, b = 0) := by
  have haccepts : Accepts onFirstLink (recvd onFirstLink) := by rfl
  have hhandle : exampleRouter.datagramHandler (recvd onFirstLink) =
      .ok (.forwarded ⟨1, { addr := 0x0a000102 }, onSecondLink⟩) := by rfl
  exact ⟨_, _, _, haccepts, hhandle, rfl, transparent_iff haccepts (by decide) hhandle⟩

/-- A header of 24 bytes, of which the last four are zero, and one byte of payload. -/
def withOptions : List Byte :=
  [70, 0, 0, 25, 0, 0, 0, 0, 16, 0, 148, 226, 10, 0, 0, 2, 10, 0, 1, 2, 0, 0, 0, 0, 7]

/-- The same behind the router: the payload is now where the length field has the options. -/
def withOptionsForwarded : List Byte :=
  [70, 0, 0, 25, 0, 0, 0, 0, 15, 0, 149, 226, 10, 0, 0, 2, 10, 0, 1, 2, 7]

/-- A datagram with zero options does not get through a second hop. -/
theorem not_transparent :
    ∃ (received : List Byte) (d : Wire.Datagram) (emission : Emission),
      received.length ≤ MAX_DATAGRAM_SIZE ∧ Accepts received d ∧
        d.getTotalLength.toNat = received.length ∧
        exampleRouter.isMyIpAddress d.getDstAddr = false ∧
        2 ≤ (recvHdr received).ttl.toNat ∧
        exampleRouter.datagramHandler d = .ok (.forwarded emission) ∧
        ¬Transparent d emission.bytes := by
  have haccepts : Accepts withOptions (recvd withOptions) := by rfl
  have hhandle : exampleRouter.datagramHandler (recvd withOptions) =
      .ok (.forwarded ⟨1, { addr := 0x0a000102 }, withOptionsForwarded⟩) := by rfl
  have hrefused : (recvDatagram (.ok withOptionsForwarded)).result =
      .ok (.error "Non-zero IP header options found") := by rfl
  refine ⟨_, _, _, by decide, haccepts, rfl, rfl, by decide, hhandle, ?_⟩
  rintro ⟨d', haccepts', -⟩
  cases hrefused.symm.trans haccepts'

end Tns.Ip
