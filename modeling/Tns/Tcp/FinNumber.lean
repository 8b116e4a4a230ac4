import Tns.Tcp.RunningSocket

/-!
# The sequence number of the FIN

`sendFin_` reads the number of its FIN with `getNxt`, and moves `nxt_` and
`nbw_` past it with `writeAndSendOne` in a section of its own.  The FIN follows
all data only if nothing is left unsent when its number is read and nothing is
accepted from then on.
-/

namespace Tns.Tcp

open Tns.Library

namespace RunningSocket

variable {M N : ℕ} {s s' : RunningSocket M N} {isn : UInt32} {accepted : ℕ}

/-- Until the number of the FIN is read, `nbw_` counts the accepted bytes. -/
def Counts (isn : UInt32) (s : RunningSocket M N) : Prop :=
  match s.close with
  | .idle | .closing _ => s.sock.sendBuffer.nbw = isn + 1 + UInt32.ofNat s.accepted.length
  | .numbered _ _ _ | .taken _ _ _ | .finished _ => True

theorem counts_of_nbw {n : ℕ} (h : Counts isn s) (hclose : s'.close = s.close)
    (hacc : s'.accepted.length = s.accepted.length + n)
    (hnbw : s'.sock.sendBuffer.nbw = s.sock.sendBuffer.nbw + UInt32.ofNat n) :
    Counts isn s' := by
  have hadd : isn + 1 + UInt32.ofNat (s.accepted.length + n) =
      isn + 1 + UInt32.ofNat s.accepted.length + UInt32.ofNat n := by
    rw [UInt32.ofNat_add, UInt32.add_assoc, UInt32.add_assoc, UInt32.add_assoc]
  simp only [Counts, hclose, hacc, hnbw, hadd] at h ⊢
  split at h
  · rw [h]
  · rw [h]
  · trivial
  · trivial
  · trivial

theorem counts_of_same (h : Counts isn s) (hclose : s'.close = s.close)
    (hacc : s'.accepted = s.accepted)
    (hnbw : s'.sock.sendBuffer.nbw = s.sock.sendBuffer.nbw) : Counts isn s' :=
  counts_of_nbw (n := 0) h hclose (by rw [hacc]; rfl) (by simp [hnbw])

theorem counts_write {data : List Byte} {r : Except SocketError ℕ} {wakes : List CondVar}
    {b : SendBuffer M} (h : Counts isn s)
    (hwrite : s.sock.sendBuffer.write data = .ok (r, wakes, b)) :
    Counts isn { s.withSend b with accepted := s.accepted ++ acceptedOf data r } := by
  refine counts_of_nbw (n := (acceptedOf data r).length) h rfl List.length_append ?_
  rcases SendBuffer.write_cases hwrite with ⟨-, rfl, -, rfl⟩ | ⟨-, -, n, rb, hring, rfl, -, rfl⟩
  · simp [acceptedOf, withSend]
  · have hle := RingBuffer.write_le_length hring
    simp only [acceptedOf, withSend, List.length_take, min_eq_left hle]

/-- A connection has just been established: nothing is accepted, and all pointers of the send
buffer are at the number after the SYN. -/
structure AtStart (isn : UInt32) (s : RunningSocket M N) : Prop where
  state : s.sock.state = .established
  sane : s.sock.sendBuffer.sanityCheckAtStart = true
  una : s.sock.sendBuffer.una = isn + 1
  close : s.close = .idle
  accepted : s.accepted = []

def exampleStart : RunningSocket 8 8 :=
  { sock := { NormalSocket.init (Vector.replicate 8 0) (Vector.replicate 8 0) 1 8 1 with
      state := .established } }

end RunningSocket

end Tns.Tcp
