import Tns.Ip.ByteOrder

/-!
# RIP messages

A message is its command and its entries, with the address each entry was
learned from where the router makes the message itself.  On the wire all numbers
are in network byte order, and the receiver adds one to each cost.
-/

namespace Tns.Ip

/-- `RipMessage::INFINITY`. -/
def INFINITY : UInt32 := 16

@[simp] theorem toNat_infinity : INFINITY.toNat = 16 := rfl

/-! ## Messages -/

/-- `RipMessage::Command`, whose underlying type has further values. -/
inductive Command where
  | request | response
  | unknown (code : UInt16)
  deriving DecidableEq, Repr

namespace Command

def toCode : Command → UInt16
  | .request => 1
  | .response => 2
  | .unknown code => code

def ofCode (code : UInt16) : Command :=
  if code = 1 then .request else if code = 2 then .response else .unknown code

end Command

/-- `RipMessage::Entry`, in host byte order. -/
structure RipMessage.Entry where
  cost : UInt32
  address : UInt32
  mask : UInt32
  deriving DecidableEq, Repr

structure RipMessage where
  command : Command
  entries : List RipMessage.Entry
  learnedFrom : List (Option Ipv4Address)
  deriving DecidableEq, Repr

namespace RipMessage

/-- The constructor for messages that the router makes. -/
def make (command : Command) (entries : List Entry) (learnedFrom : List (Option Ipv4Address)) :
    Except Fault RipMessage :=
  if 65535 < entries.length then
    .error (.invalidArgument
      "RipMessage::RipMessage() : Number of entries is greater than limit of uint16_t")
  else if entries.length ≠ learnedFrom.length then
    .error (.invalidArgument "RipMessage::RipMessage() : entries.size() != learnedFrom.size()")
  else .ok { command, entries, learnedFrom }

def makeRequest : Except Fault RipMessage := make .request [] []

def makeResponse (entries : List Entry) (learnedFrom : List (Option Ipv4Address)) :
    Except Fault RipMessage :=
  make .response entries learnedFrom

theorem make_eq_ok {command : Command} {entries : List Entry}
    {learnedFrom : List (Option Ipv4Address)} {msg : RipMessage} :
    make command entries learnedFrom = .ok msg ↔
      entries.length ≤ 65535 ∧ entries.length = learnedFrom.length ∧
        msg = { command, entries, learnedFrom } := by
  unfold make
  split
  · simp only [reduceCtorEq, false_iff, not_and]
    omega
  · split
    · simp_all
    · simp_all [eq_comm]

def getNumEntries (msg : RipMessage) : UInt16 := .ofNat msg.entries.length

/-! ## Encoding and decoding -/

/-- An entry as `sendRipMessage_` writes it: poisoned for the neighbour it was learned from. -/
def poison (destIP : Ipv4Address) (entry : Entry) (learnedFrom : Option Ipv4Address) : Entry :=
  { entry with cost := if learnedFrom = some destIP then INFINITY else entry.cost }

/-- The entries of the payload that `sendRipMessage_` builds. -/
def poisoned (msg : RipMessage) (destIP : Ipv4Address) : List Entry :=
  List.zipWith (poison destIP) msg.entries msg.learnedFrom

def encodeEntry (entry : Entry) : List Byte :=
  hton32 entry.cost ++ hton32 entry.address ++ hton32 entry.mask

/-- The payload that `sendRipMessage_` builds. -/
def encode (msg : RipMessage) (destIP : Ipv4Address) : List Byte :=
  hton16 msg.command.toCode ++ hton16 msg.getNumEntries ++
    ((msg.poisoned destIP).map encodeEntry).flatten

/-- The cost of a received entry. -/
def receivedCost (cost : UInt32) : UInt32 := min (cost + 1) INFINITY

def received (entry : Entry) : Entry := { entry with cost := receivedCost entry.cost }

/-- The bytes of an entry, as they are. -/
def readEntry (p : List Byte) : Except Fault (Entry × List Byte) := do
  let (cost, p) ← ntoh32 p
  let (address, p) ← ntoh32 p
  let (mask, p) ← ntoh32 p
  return ({ cost, address, mask }, p)

/-- One pass of the loop of the constructor for received messages. -/
def decodeEntry (p : List Byte) : Except Fault (Entry × List Byte) := do
  let (entry, p) ← readEntry p
  return (received entry, p)

def readMany {α : Type} (read : List Byte → Except Fault (α × List Byte)) :
    ℕ → List Byte → Except Fault (List α)
  | 0, _ => .ok []
  | n + 1, p => do
      let (a, p) ← read p
      let as ← readMany read n p
      return a :: as

/-- The constructor for received messages. -/
def decode (payload : List Byte) : Except Fault RipMessage := do
  let (command, p) ← ntoh16 payload
  let (numEntries, p) ← ntoh16 p
  let entries ← readMany decodeEntry numEntries.toNat p
  return { command := .ofCode command, entries, learnedFrom := [] }

/-- The entries on the wire, before the receiver increments their costs. -/
def advertised (payload : List Byte) : Except Fault (List Entry) := do
  let (_, p) ← ntoh16 payload
  let (numEntries, p) ← ntoh16 p
  readMany readEntry numEntries.toNat p

theorem readEntry_encodeEntry (entry : Entry) (p : List Byte) :
    readEntry (encodeEntry entry ++ p) = .ok (entry, p) := by
  simp only [readEntry, encodeEntry, List.append_assoc, ntoh32_hton32, Except.ok_bind]
  rfl

theorem decodeEntry_encodeEntry (entry : Entry) (p : List Byte) :
    decodeEntry (encodeEntry entry ++ p) = .ok (received entry, p) := by
  rw [decodeEntry, readEntry_encodeEntry]
  rfl

/-- A reader that inverts the encoding of one item reads a sequence of them. -/
theorem readMany_flatten {α β : Type} {read : List Byte → Except Fault (β × List Byte)}
    {encode : α → List Byte} {f : α → β} (h : ∀ a p, read (encode a ++ p) = .ok (f a, p))
    (as : List α) : readMany read as.length (as.map encode).flatten = .ok (as.map f) := by
  induction as with
  | nil => rfl
  | cons a as ih =>
      simp only [List.length_cons, List.map_cons, List.flatten_cons, readMany, h, Except.ok_bind,
        ih]
      rfl

theorem length_of_readMany {α : Type} {read : List Byte → Except Fault (α × List Byte)} {n : ℕ}
    {p : List Byte} {as : List α} (h : readMany read n p = .ok as) : as.length = n := by
  induction n generalizing p as with
  | zero =>
      cases h
      rfl
  | succ n ih =>
      simp only [readMany, Except.bind_eq_ok, Except.pure_eq_ok] at h
      obtain ⟨⟨a, p'⟩, -, as', hread, rfl⟩ := h
      rw [List.length_cons, ih hread]

/-- A message that the router has made. -/
structure Made (msg : RipMessage) : Prop where
  length_le : msg.entries.length ≤ 65535
  length_eq : msg.entries.length = msg.learnedFrom.length

theorem made_of_make {command : Command} {entries : List Entry}
    {learnedFrom : List (Option Ipv4Address)} {msg : RipMessage}
    (h : make command entries learnedFrom = .ok msg) : Made msg := by
  obtain ⟨hle, hlength, rfl⟩ := make_eq_ok.mp h
  exact ⟨hle, hlength⟩

theorem Made.length_poisoned {msg : RipMessage} (h : Made msg) (destIP : Ipv4Address) :
    msg.getNumEntries.toNat = (msg.poisoned destIP).length := by
  have hlength := h.length_eq
  have hle := h.length_le
  rw [getNumEntries, UInt16.toNat_ofNat', Nat.mod_eq_of_lt (by omega), poisoned,
    List.length_zipWith]
  omega

theorem length_encodeEntry (entry : Entry) : (encodeEntry entry).length = 12 := rfl

/-- The payload is two numbers of two bytes and twelve bytes for each entry. -/
theorem Made.length_encode {msg : RipMessage} (h : Made msg) (destIP : Ipv4Address) :
    (msg.encode destIP).length = 4 + 12 * msg.entries.length := by
  have hlength : (msg.poisoned destIP).length = msg.entries.length := by
    have := h.length_eq
    rw [poisoned, List.length_zipWith]
    omega
  have hflat : ∀ entries : List Entry,
      ((entries.map encodeEntry).flatten).length = 12 * entries.length := by
    intro entries
    induction entries with
    | nil => rfl
    | cons entry entries ih =>
        rw [List.map_cons, List.flatten_cons, List.length_append, ih, length_encodeEntry,
          List.length_cons]
        omega
  rw [encode, List.length_append, hflat, hlength]
  rfl

theorem Made.advertised_encode {msg : RipMessage} (h : Made msg) (destIP : Ipv4Address) :
    advertised (msg.encode destIP) = .ok (msg.poisoned destIP) := by
  simp only [advertised, encode, List.append_assoc, ntoh16_hton16, Except.ok_bind,
    h.length_poisoned destIP, readMany_flatten readEntry_encodeEntry, List.map_id']

/-- A message that arrives is the one that was sent, poisoned for its receiver and with each cost
incremented and capped. -/
theorem Made.decode_encode {msg : RipMessage} (h : Made msg) (destIP : Ipv4Address) :
    decode (msg.encode destIP) = .ok
      { command := .ofCode msg.command.toCode
        entries := (msg.poisoned destIP).map received
        learnedFrom := [] } := by
  simp only [decode, encode, List.append_assoc, ntoh16_hton16, Except.ok_bind,
    h.length_poisoned destIP, readMany_flatten decodeEntry_encodeEntry]
  rfl

theorem length_le_of_decode {payload : List Byte} {msg : RipMessage}
    (h : decode payload = .ok msg) : msg.entries.length ≤ 65535 := by
  simp only [decode, Except.bind_eq_ok, Except.pure_eq_ok] at h
  obtain ⟨⟨command, p⟩, -, ⟨numEntries, p'⟩, -, entries, hdecode, rfl⟩ := h
  have hlt := numEntries.toNat_lt
  have hlength := length_of_readMany hdecode
  simp only at hlength ⊢
  omega

end RipMessage

end Tns.Ip
