import Tns.Util

/-!
# Packets and the events they stand for

A packet is kept in host byte order, with the header fields the state machine
reads.  `fromPacket` turns it into an event by its flags.
-/

namespace Tns.Tcp

def TH_FIN : UInt8 := 0x01
def TH_SYN : UInt8 := 0x02
def TH_ACK : UInt8 := 0x10

structure Packet where
  flags : UInt8
  seqNum : UInt32
  ackNum : UInt32
  wndSize : UInt16
  payload : List Byte := []
  deriving DecidableEq

namespace Packet

def ACK_DONT_CARE : UInt32 := 0

def makeSynPacket (seqNum : UInt32) (wndSize : UInt16) : Packet :=
  { flags := TH_SYN, seqNum, ackNum := ACK_DONT_CARE, wndSize }

def makeSynAckPacket (seqNum ackNum : UInt32) (wndSize : UInt16) : Packet :=
  { flags := TH_SYN ||| TH_ACK, seqNum, ackNum, wndSize }

def makeAckPacket (seqNum ackNum : UInt32) (wndSize : UInt16) (payload : List Byte := []) :
    Packet :=
  { flags := TH_ACK, seqNum, ackNum, wndSize, payload }

def makeFinPacket (seqNum : UInt32) (wndSize : UInt16) : Packet :=
  { flags := TH_FIN, seqNum, ackNum := ACK_DONT_CARE, wndSize }

end Packet

/-- `events::Variant`, without `Close`, which no packet produces. -/
inductive Event where
  | getSyn (clientISN : UInt32) (clientWND : UInt16)
  | getSynAck (serverISN ackNum : UInt32) (serverWND : UInt16)
  | getAck (seqNum ackNum : UInt32) (wndSize : UInt16) (payload : List Byte)
  | getFin (seqNum : UInt32) (wndSize : UInt16)
  | getFinAck (seqNum ackNum : UInt32) (wndSize : UInt16)
  deriving DecidableEq

/-- `events::fromPacket`. -/
def fromPacket (packet : Packet) : Except String Event :=
  if packet.flags = TH_SYN then
    .ok (.getSyn packet.seqNum packet.wndSize)
  else if packet.flags = TH_SYN ||| TH_ACK then
    .ok (.getSynAck packet.seqNum packet.ackNum packet.wndSize)
  else if packet.flags = TH_ACK then
    .ok (.getAck packet.seqNum packet.ackNum packet.wndSize packet.payload)
  else if packet.flags = TH_FIN then
    .ok (.getFin packet.seqNum packet.wndSize)
  else if packet.flags = TH_FIN ||| TH_ACK then
    .ok (.getFinAck packet.seqNum packet.ackNum packet.wndSize)
  else .error "Unsupported packet flags"

@[simp] theorem fromPacket_makeAckPacket (seqNum ackNum : UInt32) (wndSize : UInt16)
    (payload : List Byte) :
    fromPacket (Packet.makeAckPacket seqNum ackNum wndSize payload) =
      .ok (.getAck seqNum ackNum wndSize payload) := by
  have hsyn : TH_ACK ≠ TH_SYN := by decide
  have hsynAck : TH_ACK ≠ TH_SYN ||| TH_ACK := by decide
  simp [fromPacket, Packet.makeAckPacket, hsyn, hsynAck]

end Tns.Tcp
