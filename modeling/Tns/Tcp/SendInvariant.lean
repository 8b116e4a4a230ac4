import Tns.Tcp.SendBuffer

/-!
# The send buffer and the stream

A send buffer that numbers the bytes of a stream from `start` on keeps those not
yet acknowledged in its ring, each at the cell of its sequence number.  So what
it sends, in segments or as a probe, are bytes of the stream in their places.
-/

namespace Tns.Tcp

open Tns.Library Tns.Library.Cyclic

/-- `x` is the byte with number `k` of a stream that begins at `start`. -/
def ByteAt (start : ℕ) (stream : List Byte) (k : ℕ) (x : Byte) : Prop :=
  start ≤ k ∧ stream[k - start]? = some x

namespace ByteAt

variable {start k : ℕ} {stream stream' : List Byte} {x : Byte}

theorem mono (hmore : stream <+: stream') (h : ByteAt start stream k x) :
    ByteAt start stream' k x := by
  obtain ⟨rest, rfl⟩ := hmore
  refine ⟨h.1, ?_⟩
  rw [List.getElem?_append_left (List.getElem?_eq_some_iff.mp h.2).1, h.2]

theorem lt (h : ByteAt start stream k x) : k < start + stream.length := by
  have hlt := (List.getElem?_eq_some_iff.mp h.2).1
  have hle := h.1
  omega

theorem of_append {bytes : List Byte} {n i : ℕ} (hi : i < n) (hx : bytes[i]? = some x) :
    ByteAt start (stream ++ bytes.take n) (start + stream.length + i) x := by
  refine ⟨by omega, ?_⟩
  rw [List.getElem?_append_right (by omega), List.getElem?_take_of_lt (by omega)]
  rwa [show start + stream.length + i - start - stream.length = i by omega]

/-- Bytes that are all in their places from `start` on are a prefix of the stream. -/
theorem isPrefix {xs : List Byte}
    (h : ∀ i (hi : i < xs.length), ByteAt start stream (start + i) xs[i]) :
    xs <+: stream := by
  rw [List.prefix_iff_getElem?]
  intro i hi
  have hx := (h i hi).2
  rwa [Nat.add_sub_cancel_left] at hx

end ByteAt

namespace SendBuffer

variable {N : ℕ} {b b' : SendBuffer N} {start : ℕ} {stream : List Byte}

/-- The buffer holds the part of the stream that is not acknowledged. -/
structure Holds (start : ℕ) (stream : List Byte) (b : SendBuffer N) : Prop where
  ordered : b.Ordered
  start_le : start ≤ b.una.toNat
  nbw : b.nbw.toNat = start + stream.length
  fits : b.nbw.toNat ≤ b.una.toNat + N
  window : Window (ByteAt start stream) b.buf b.una.toNat b.nbw.toNat

namespace Holds

theorem write {bytes : List Byte} {n : ℕ} {wakes : List CondVar} (h : Holds start stream b)
    (hwrap : start + (stream ++ bytes.take n).length < 2 ^ 32)
    (hwrite : b.write bytes = .ok (.ok n, wakes, b')) :
    Holds start (stream ++ bytes.take n) b' ∧ b'.retransmitQueue = b.retransmitQueue := by
  have hnbw := h.nbw
  have hle := write_le_length hwrite
  rw [List.length_append, List.length_take, min_eq_left hle] at hwrap
  have hroom := h.ordered.fits_write h.fits hwrite
  obtain ⟨hnbw', hord, -⟩ := h.ordered.write (by omega) hwrite
  rcases write_cases hwrite with ⟨-, hr, -⟩ | ⟨-, hfree, m, rb, hring, hr, -, rfl⟩
  · cases hr
  obtain rfl : m = n := (Except.ok.inj hr).symm
  have hun : b.una.toNat ≤ b.nbw.toNat := h.ordered.una_le_nxt.trans h.ordered.nxt_le_nbw
  rw [h.ordered.sizeFree_eq h.fits] at hfree
  rw [h.ordered.last_eq (by omega)] at hring
  simp only at hnbw'
  refine ⟨⟨hord, h.start_le, ?_, ?_, ?_⟩, rfl⟩
  · simp only [hnbw', List.length_append, List.length_take, min_eq_left hle]
    omega
  · simp only [hnbw']
    omega
  · intro k hk hk'
    simp only [hnbw'] at hk hk'
    rw [RingBuffer.write_window hring (by omega) (by omega) hk (by omega)]
    split
    · rename_i hin
      have hlt : k - b.nbw.toNat < bytes.length := by omega
      refine ⟨_, List.getElem?_eq_getElem hlt, ?_⟩
      have hbyte : ByteAt start (stream ++ bytes.take m)
          (start + stream.length + (k - b.nbw.toNat)) bytes[k - b.nbw.toNat] :=
        .of_append (by omega) (List.getElem?_eq_getElem hlt)
      rwa [← hnbw, Nat.add_sub_cancel' hin.1] at hbyte
    · rename_i hout
      obtain ⟨x, hx, hbyte⟩ := h.window k hk (by omega)
      exact ⟨x, hx, hbyte.mono (List.prefix_append _ _)⟩

/-- A segment carries the bytes of the stream from its sequence number on. -/
theorem sendReadyData {buffSize : ℕ} {seq : UInt32} {data : List Byte} (h : Holds start stream b)
    (hsend : b.sendReadyData buffSize = .ok (.ok (seq, data), b')) :
    Holds start stream b' ∧ b'.retransmitQueue = b.retransmitQueue ∧
      ∀ i (hi : i < data.length), ByteAt start stream (seq.toNat + i) data[i] := by
  obtain ⟨rfl, hlen, hnbw, -, -, -, hord, rfl⟩ := h.ordered.sendReadyData hsend
  refine ⟨⟨hord, h.start_le, h.nbw, h.fits, h.window⟩, rfl, fun i hi ↦ ?_⟩
  rcases sendReadyData_cases hsend with ⟨-, hr, -⟩ | ⟨-, -, data', hread, hlen', hr, -⟩
  · cases hr
  obtain rfl : data = data' := (Prod.mk.inj (Except.ok.inj hr)).2
  have hfits := h.fits
  have hun := h.ordered.una_le_nxt
  have hlast : sizeSub (b.nxt.toNat + min b.sizeCanSend buffSize) 1 =
      b.nxt.toNat + data.length - 1 := by
    rw [← hlen, sizeSub_of_le (by omega)]
  rw [hlast] at hread
  exact (RingBuffer.read_window (by omega) (by omega)
    (h.window.subset (by omega) (by omega)) hread).2 i hi

theorem zwpStep {thread thread' : ZwpThread} {timeout : Bool} {probe : Option (UInt32 × Byte)}
    (h : Holds start stream b) (hzwp : b.zwpStep thread timeout = .ok (probe, thread', b')) :
    Holds start stream b' ∧ b'.retransmitQueue = b.retransmitQueue ∧
      ∀ seq data, probe = some (seq, data) → ByteAt start stream seq.toNat data := by
  obtain ⟨hord, ⟨rfl, z, rfl⟩ | ⟨hlt, -, data, z, hat, rfl, rfl⟩⟩ := h.ordered.zwpStep hzwp
  · exact ⟨⟨hord, h.start_le, h.nbw, h.fits, h.window⟩, rfl, nofun⟩
  refine ⟨⟨hord, h.start_le, h.nbw, h.fits, h.window⟩, rfl, fun seq x hprobe ↦ ?_⟩
  simp only [Option.some.injEq, Prod.mk.injEq] at hprobe
  obtain ⟨rfl, rfl⟩ := hprobe
  obtain ⟨x, hx, hbyte⟩ := h.window b.nxt.toNat h.ordered.una_le_nxt hlt
  simp only [RingBuffer.atSeq] at hat
  split at hat
  · rename_i y hy
    obtain rfl := Except.ok.inj hat
    obtain rfl : x = y := Option.some.inj (hx.symm.trans hy)
    exact hbyte
  · cases hat

theorem withQueue (h : Holds start stream b) (q : RetransmissionQueue) :
    Holds start stream { b with retransmitQueue := q } :=
  ⟨⟨h.ordered.una_le_nxt, h.ordered.nxt_le_nbw⟩, h.start_le, h.nbw, h.fits, h.window⟩

theorem shutdown (h : Holds start stream b) : Holds start stream b.shutdown.2 :=
  ⟨⟨h.ordered.una_le_nxt, h.ordered.nxt_le_nbw⟩, h.start_le, h.nbw, h.fits, h.window⟩

theorem onAck (h : Holds start stream b) (ackNum wndSize : UInt32) (now : TimePoint) :
    Holds start stream (b.onAck ackNum wndSize now).2.2 := by
  have hord := h.ordered.onAck ackNum wndSize now
  obtain ⟨z, q, heq, -⟩ := onAck_frame b ackNum wndSize now
  rw [heq] at hord ⊢
  have hle : b.una.toNat ≤ (if b.una < ackNum ∧ ackNum ≤ b.nxt then ackNum else b.una).toNat := by
    split
    · rename_i hacc
      exact (UInt32.lt_iff_toNat_lt.mp hacc.1).le
    · exact le_rfl
  have hfits := h.fits
  exact ⟨hord, h.start_le.trans hle, h.nbw, by simp only; omega, h.window.subset hle le_rfl⟩

end Holds

end SendBuffer

end Tns.Tcp
