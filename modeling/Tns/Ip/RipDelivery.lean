import Tns.Ip.DatagramRoundTrip
import Tns.Ip.NetworkNode

/-!
# Delivery of RIP messages

A RIP message crosses the link in one datagram, and its sender does not ask
whether the receiver's buffer holds it.  The receiver copies as many bytes as the
header promises: those that are not in the buffer it takes from the memory behind
it.  So a message arrives as it was sent if it has no more than 114 entries.
-/

namespace Tns.Ip

namespace Wire

/-- The payload that `recvDatagram` copies, with `behind` in the memory behind its buffer. -/
def copiedPayload (received : List Byte) (behind : ℕ → Byte) : List Byte :=
  let headerLen := (recvHdr received).headerLen
  let payloadLen := (recvHdr received).totLen.toNat - headerLen
  ((recvBuf received ++ (List.range payloadLen).map behind).drop headerLen).take payloadLen

/-- The datagram that a node gets from its link.  The header is one that `make` has made, so the
only undefined access is the copy of the payload. -/
def Datagram.received (d : Datagram) (behind : ℕ → Byte) : Option Datagram :=
  match (recvDatagram (.ok d.bytes)).result with
  | .ok (.ok d') => some d'
  | .error .undefinedBehaviour =>
      some { recvd d.bytes with payload := copiedPayload d.bytes behind }
  | _ => none

theorem received_of_accepts {d d' : Datagram} (h : Accepts d.bytes d') (behind : ℕ → Byte) :
    d.received behind = some d' := by
  simp only [Datagram.received, show (recvDatagram (.ok d.bytes)).result = .ok (.ok d') from h]

/-- Whatever becomes of the payload, the addresses are those of the header. -/
theorem getSrcAddr_of_received {d d' : Datagram} {behind : ℕ → Byte}
    (h : d.received behind = some d') : d'.getSrcAddr = d.getSrcAddr := by
  unfold Datagram.received at h
  split at h
  · rename_i haccepts
    cases h
    obtain ⟨-, rfl⟩ := accepts_iff.mp haccepts
    simp only [recvd, Datagram.getSrcAddr, recvHdr_bytes]
  · cases h
    simp only [recvd, Datagram.getSrcAddr, recvHdr_bytes]
  · cases h

end Wire

/-- What a datagram finds at its receiver: the memory behind the buffer of `recvDatagram`, and the
readings of the clock. -/
structure Reception where
  behind : ℕ → Byte
  now : ℕ → TimePoint

/-- The datagram as the handler of its destination gets it from the link. -/
def Datagram.arrival (datagram : Datagram) (behind : ℕ → Byte) : Option Datagram :=
  match Wire.Datagram.make datagram.srcAddr datagram.dstAddr datagram.payload .RIP with
  | .error _ => none
  | .ok d => (d.received behind).map fun d ↦
      { srcAddr := d.getSrcAddr, dstAddr := d.getDstAddr, payload := d.payload }

/-- A router hands a datagram for itself to its own handler. -/
def Sent.arrival : Sent → (behind : ℕ → Byte) → Option Datagram
  | .dropped, _ => none
  | .toItself datagram, _ => some datagram
  | .onLink _ _ datagram, behind => datagram.arrival behind

/-- The addresses of the datagram have no port, as in its header. -/
structure Datagram.Portless (datagram : Datagram) : Prop where
  srcAddr : datagram.srcAddr.port = 0
  dstAddr : datagram.dstAddr.port = 0

/-- What fits into the receiver's buffer arrives as it was sent. -/
theorem Datagram.Portless.arrival {datagram : Datagram} (h : datagram.Portless)
    (hfits : datagram.payload.length ≤ Wire.MAX_DATAGRAM_SIZE - 20) (behind : ℕ → Byte) :
    datagram.arrival behind = some datagram := by
  have hmax : Wire.MAX_DATAGRAM_SIZE = 1400 := rfl
  have hmod : datagram.payload.length % 2 ^ 16 = datagram.payload.length :=
    Nat.mod_eq_of_lt (by omega)
  rcases Wire.Datagram.make_cases datagram.srcAddr datagram.dstAddr datagram.payload .RIP with
    ⟨hlong, -⟩ | ⟨-, d, hmake, -⟩
  · omega
  · obtain ⟨d', haccepts, hnext⟩ := (Wire.conveys_of_make hfits hmake).next hfits
    have hintact := hnext.intact
    simp only [Datagram.arrival, hmake, Wire.received_of_accepts haccepts behind, Option.map_some,
      hintact.getSrcAddr h.srcAddr, hintact.getDstAddr h.dstAddr, hintact.payload]

theorem Datagram.srcAddr_of_arrival {datagram datagram' : Datagram} {behind : ℕ → Byte}
    (hport : datagram.srcAddr.port = 0) (h : datagram.arrival behind = some datagram') :
    datagram'.srcAddr = datagram.srcAddr := by
  unfold Datagram.arrival at h
  split at h
  · cases h
  · rename_i d hmake
    obtain ⟨d', hreceived, rfl⟩ := Option.map_eq_some_iff.mp h
    have haddr : d'.getSrcAddr.addr = datagram.srcAddr.addr := by
      rw [Wire.getSrcAddr_of_received hreceived]
      exact (Wire.Datagram.made_of_make hmake).saddr
    calc d'.getSrcAddr
        = ⟨datagram.srcAddr.addr, 0⟩ := congrArg (Ipv4Address.mk · 0) haddr
      _ = datagram.srcAddr := by rw [← hport]

/-- The buffer holds the messages of up to 114 entries.  A table is sent in one message, however
long it is. -/
theorem RipMessage.Made.encode_fits_iff {msg : RipMessage} (h : msg.Made) (destIP : Ipv4Address) :
    (msg.encode destIP).length ≤ Wire.MAX_DATAGRAM_SIZE - 20 ↔ msg.entries.length ≤ 114 := by
  have hmax : Wire.MAX_DATAGRAM_SIZE = 1400 := rfl
  rw [h.length_encode]
  omega

end Tns.Ip
