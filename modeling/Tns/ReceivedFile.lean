import Tns.TcpRecvFile

/-!
# How `tcpRecvFile` ends

It returns the whole stream in its file if the stream is shorter than its buffer,
has been read when the FIN is handled, and is taken by the file.  A stream of the
size of the buffer keeps its loop running for ever, and what is unread when the
FIN is handled is missing from the file.
-/

namespace Tns.TcpRecvFile

open Tns.Library Tns.Tcp

variable {M N : ℕ} {s s' : TcpRecvFile M N}

/-! ## How a run of the program ends -/

/-- If the program has returned a size, all of the stream is in the file. -/
def Written (s : TcpRecvFile M N) : Prop :=
  ∀ n, s.phase = .returned (.ok n) →
    s.file = some s.buf ∧ s.buf = s.stream ∧ n = s.stream.length

/-- The calls of `vRecv` that the program makes on its own are bounded, and none of them waits once
the peer has closed.  If the loop ends the buffer holds the whole stream, and a broken connection is
returned as an error. -/
structure EndsWell (s : TcpRecvFile M N) : Prop where
  finite : ∃ calls, ∀ tr s', Trace step s tr s' → (∀ t ∈ tr, IsProgram t.label) →
    recvCalls tr ≤ calls
  returns : s.phase = .receiving → s.unread ≠ [] ∨ s.state ≠ .established →
    ∃ out s', s.step .vRecv = .ok (out, s')
  whole : ∀ tr s', Trace step s tr s' → (∀ t ∈ tr, IsProgram t.label) → s'.phase = .closing →
    s'.buf = s'.stream
  broken : s.phase = .receiving → s.state = .closed →
    ∃ out s' e, s.step .vRecv = .ok (out, s') ∧ s'.phase = .returned (.error e)
  written : s.Written

structure Good (s : TcpRecvFile M N) : Prop extends s.Sound where
  written : s.Written

theorem sound_of_program (h : s.Sound) {tr : List (Step M N)} (htr : Trace step s tr s')
    (hprogram : ∀ t ∈ tr, IsProgram t.label) : s'.Sound ∧ s'.stream = s.stream ∧
      recvCalls tr + s.progress ≤ s'.progress := by
  have hkeep : ∀ t : Step M N, Fires step t → (Sound t.pre ∧ t.pre.stream = s.stream) →
      IsProgram t.label → Sound t.post ∧ t.post.stream = s.stream := by
    intro t hfires ht hlabel
    obtain ⟨hsound, hstream, -⟩ := sound_program hfires ht.1 hlabel
    exact ⟨hsound, hstream.trans ht.2⟩
  obtain ⟨hsound, hstream⟩ := (Trace.invariant (I := fun u ↦ Sound u ∧ u.stream = s.stream)
    hkeep htr ⟨h, rfl⟩ hprogram).1
  refine ⟨hsound, hstream, ?_⟩
  exact Trace.countP_add_le (I := fun u ↦ Sound u ∧ u.stream = s.stream) hkeep
    (fun t hfires ht hlabel ↦ (sound_program hfires ht.1 hlabel).2.2) htr ⟨h, rfl⟩ hprogram

theorem Good.endsWell (h : s.Good) : s.EndsWell where
  finite := by
    refine ⟨s.stream.length + 1, fun tr s' htr hprogram ↦ ?_⟩
    obtain ⟨hsound, hstream, hcalls⟩ := sound_of_program h.toSound htr hprogram
    have hle := hsound.progress_le
    rw [hstream] at hle
    omega
  returns hphase hready := (h.connected (by rw [hphase]; rfl)).exists_recv hphase hready
  whole tr s' htr hprogram := (sound_of_program h.toSound htr hprogram).1.whole
  broken hphase hstate := ⟨_, _, _, step_vRecv_broken hphase hstate, rfl⟩
  written := h.written

theorem good_step {t : Step M N} (hfires : Fires step t) (h : Good t.pre) (hdom : InDomain t)
    (hfits : Fits t) : Good t.post := by
  refine ⟨(sound_step hfires h.toSound hdom hfits).1, fun n hn ↦ ?_⟩
  obtain ⟨s, l, out, s'⟩ := t
  have hsteps : Steps s l out s' := steps_of_step hfires
  simp only at h hn ⊢
  cases hsteps with
  | write written hphase =>
      obtain rfl : s.buf.length = n := by simpa using hn
      have hwritten : s.buf.length ≤ written := hfits.written written rfl
      refine ⟨by rw [List.take_of_length_le hwritten], h.whole hphase, ?_⟩
      rw [← h.whole hphase]
  | socket l out socket hphase hstep =>
      have hend : s.phase.ended = true := by
        rw [show s.phase = .returned (.ok n) from hn]
        rfl
      simp only [track_of_ended hend]
      exact h.written n hn
  | recv data sock hphase =>
      cases hphase.symm.trans hn
  | _ => cases hn

/-! ## What goes wrong -/

theorem exists_receiving (hphase : s.phase.ended = false) :
    ∃ tr, Trace step s tr (s.withPhase .receiving) ∧ (∀ t ∈ tr, IsProgram t.label) := by
  obtain ⟨socket, phase, buf, stream, file⟩ := s
  cases phase with
  | listening =>
      exact ⟨_, .cons (l := .tcpListen (.ok ())) rfl (.cons (l := .vAccept (.ok ())) rfl (.nil _)),
        by simp [IsProgram]⟩
  | accepting => exact ⟨_, .cons (l := .vAccept (.ok ())) rfl (.nil _), by simp [IsProgram]⟩
  | receiving => exact ⟨[], .nil _, by simp⟩
  | closing => cases hphase
  | returned r => cases hphase

/-- Where each call leads to another one, the loop makes any number of them. -/
theorem exists_calls {P : TcpRecvFile M N → Prop}
    (hnext : ∀ s, P s → ∃ out s', s.step .vRecv = .ok (out, s') ∧ P s') (h : P s) (k : ℕ) :
    ∃ tr s', Trace step s tr s' ∧ (∀ t ∈ tr, IsProgram t.label) ∧ recvCalls tr = k := by
  induction k generalizing s with
  | zero => exact ⟨[], s, .nil s, by simp, rfl⟩
  | succ k ih =>
      obtain ⟨out, s₁, hstep, h₁⟩ := hnext s h
      obtain ⟨tr, s', htr, hprogram, hcalls⟩ := ih h₁
      refine ⟨_, s', .cons hstep htr, ?_, ?_⟩
      · rw [List.forall_mem_cons]
        exact ⟨trivial, hprogram⟩
      · rw [recvCalls] at hcalls ⊢
        rw [List.countP_cons, hcalls]
        rfl

theorem not_endsWell_of_calls (hphase : s.phase.ended = false)
    (hcalls : ∀ k, ∃ tr s', Trace step (s.withPhase .receiving) tr s' ∧
      (∀ t ∈ tr, IsProgram t.label) ∧ recvCalls tr = k) : ¬s.EndsWell := by
  intro hends
  obtain ⟨calls, hbound⟩ := hends.finite
  obtain ⟨tr, htr, hprogram⟩ := exists_receiving hphase
  obtain ⟨tr', s', htr', hprogram', hcount⟩ := hcalls (calls + 1)
  have hle := hbound _ s' (htr.append htr') fun t ht ↦
    (List.mem_append.mp ht).elim (hprogram t) (hprogram' t)
  rw [recvCalls, List.countP_append] at hle
  rw [recvCalls] at hcount
  omega

/-- As much has become readable as the buffer takes, or more. -/
structure Overfull (s : TcpRecvFile M N) : Prop where
  state : s.state = .established
  run : s.socket.sock.recvBuffer.stopped = false
  ring : s.socket.sock.recvBuffer.sizeToRead ≤ N
  full : MAXSIZE ≤ s.buf.length + s.unread.length

/-- The loop goes on: it reads, or it asks for no bytes and gets none. -/
theorem Overfull.exists_recv (h : s.Overfull) (hphase : s.phase = .receiving) :
    ∃ out s', s.step .vRecv = .ok (out, s') ∧ s'.Overfull ∧ s'.phase = .receiving := by
  obtain ⟨hstate, hrun, hring, hfull⟩ := h
  by_cases hn : MAXSIZE - s.buf.length = 0
  · have hok := NormalSocket.vRecv_zero hstate
    rw [← hn] at hok
    refine ⟨_, _, step_vRecv hphase hok, ⟨hstate, hrun, hring, ?_⟩, hphase⟩
    rw [append, List.append_nil]
    exact hfull
  · have hne : s.unread ≠ [] := by
      intro hnil
      rw [hnil, List.length_nil] at hfull
      omega
    obtain ⟨sock, hok, hstate', hrun', hsize⟩ :=
      NormalSocket.exists_vRecv hstate hn hrun hring hne
    refine ⟨_, _, step_vRecv hphase hok, ⟨hstate', hrun', ?_, ?_⟩, hphase⟩
    · exact (hsize.trans_le (Nat.sub_le _ _)).trans hring
    · simp only [unread, withRecv, append, RecvBuffer.length_unread, List.length_append,
        List.length_take, hsize] at hfull ⊢
      omega

/-- A stream that does not fit keeps the loop running for ever. -/
theorem Overfull.runs_on (h : s.Overfull) (hphase : s.phase.ended = false) :
    ¬s.EndsWell := by
  refine not_endsWell_of_calls hphase (exists_calls
    (P := fun u ↦ u.Overfull ∧ u.phase = .receiving) (fun u hu ↦ hu.1.exists_recv hu.2) ⟨?_, rfl⟩)
  exact ⟨h.state, h.run, h.ring, h.full⟩

/-- What is unread when the FIN is handled is missing from the file. -/
theorem not_endsWell_of_lost (hphase : s.phase.ended = false) (hstate : s.state = .closeWait)
    (hstop : s.socket.sock.recvBuffer.stopped = true) (hroom : s.buf.length < MAXSIZE)
    (hlost : s.buf ≠ s.stream) : ¬s.EndsWell := by
  intro hends
  obtain ⟨tr, htr, hprogram⟩ := exists_receiving hphase
  have hn : MAXSIZE - s.buf.length ≠ 0 := by omega
  have hlast := step_vRecv_closing (s := s.withPhase .receiving) rfl
    (NormalSocket.vRecv_closeWait hstate hn hstop)
  have htr' := htr.append (.cons hlast (.nil _))
  have hwhole := hends.whole _ _ htr' (fun t ht ↦ ?_) rfl
  · exact hlost hwhole
  rcases List.mem_append.mp ht with ht | ht
  · exact hprogram t ht
  · rw [List.mem_singleton.mp ht]
    trivial

theorem fits_of_endsWell {t : Step M N} (hfires : Fires step t) (h : Good t.pre)
    (hdom : InDomain t) (hends : EndsWell t.post) : Fits t := by
  obtain ⟨s, label, out, s'⟩ := t
  have hsteps : Steps s label out s' := steps_of_step hfires
  simp only at h hends
  refine ⟨?_, ?_, ?_⟩
  · rintro l rfl hend hpost
    by_contra hge
    simp only [not_lt] at hge hend hpost
    cases hsteps with
    | socket _ out socket _ hstep =>
        obtain ⟨hpre, hring, chunk, hunread⟩ := (hdom l rfl hend).exists_chunk hpost
        obtain ⟨hrun, hstream, -⟩ := (h.connected hend).of_established hpre
        have hrun' := (RunningSocket.steps_of_step hstep).stopped_of_established hrun hpost
        refine Overfull.runs_on ⟨hpost, hrun', hring, ?_⟩ hend hends
        have hunread' : unread { s with socket, stream := s.track socket } = s.unread ++ chunk :=
          hunread
        rw [track_of_chunk hend hpost hunread, hstream, List.append_assoc, List.length_append]
          at hge
        rwa [hunread']
  · rintro l rfl hend hpre hpost
    by_contra hne
    simp only at hend hpre hpost hne
    cases hsteps with
    | socket _ out socket _ hstep =>
        obtain ⟨-, hstream, hfits⟩ := (h.connected hend).of_established hpre
        obtain ⟨event, now, rfl⟩ := (hdom l rfl hend).exists_event hpre hpost
        have hstop := RunningSocket.stopped_of_closeWait hstep hpre hpost
        have hroom := length_unread_lt hstream hfits
        have hnot : socket.sock.state ≠ .established := fun hopen ↦ nomatch hopen.symm.trans hpost
        have hlost : s.buf ≠ s.track socket := by
          rw [track_of_ne hnot, hstream]
          exact fun heq ↦ hne (List.self_eq_append_right.mp heq)
        exact not_endsWell_of_lost (s := { s with socket, stream := s.track socket }) hend hpost
          hstop (Nat.lt_of_sub_pos (Nat.zero_lt_of_lt hroom)) hlost hends
  · rintro written rfl
    simp only
    cases hsteps with
    | write _ hphase =>
        obtain ⟨hfile, -, -⟩ := hends.written _ rfl
        have hlen := congrArg List.length (Option.some.inj hfile)
        simp only [List.length_take] at hlen
        omega

/-! ## A stream that fills the buffer -/

theorem inDomain_of_program {t : Step M N} (h : IsProgram t.label) : InDomain t := by
  intro l hlabel
  rw [hlabel] at h
  exact h.elim

theorem inDomain_of_ended {t : Step M N} (h : t.pre.phase.ended = true) : InDomain t :=
  fun _ _ hrun ↦ nomatch h.symm.trans hrun

theorem inDomain_of_fromPeer {t : Step M N} {l : SocketCall} (hlabel : t.label = .socket l)
    (h : FromPeer t.pre.socket t.post.socket l) : InDomain t := by
  intro l' hlabel' _
  obtain rfl : l = l' := RecvFileCall.socket.inj (hlabel.symm.trans hlabel')
  exact h

/-- The loop is receiving a stream that arrives in order, counted from zero. -/
structure InOrder (s : TcpRecvFile M N) : Prop where
  phase : s.phase = .receiving
  state : s.state = .established
  run : s.socket.sock.recvBuffer.stopped = false
  close : s.socket.close = .idle
  sound : s.socket.sock.recvBuffer.Sound
  early : ∀ x, x ∉ cover s.socket.sock.recvBuffer.earlyArrivals.intervals
  nxt : s.socket.sock.recvBuffer.nxt.toNat = s.stream.length
  stream : s.stream = s.buf ++ s.unread

theorem InOrder.exists_arrive (h : s.InOrder) (hN : 2 ≤ N) (hnil : s.unread = [])
    (hroom : s.stream.length < MAXSIZE) :
    ∃ l s', s.step (.socket l) = .ok (none, s') ∧ FromPeer s.socket s'.socket l ∧ s'.InOrder ∧
      s'.unread ≠ [] ∧ s'.stream.length = s.stream.length + 1 := by
  have hmax : MAXSIZE + 4 < 2 ^ 32 := by decide
  have hnbr := RecvBuffer.sizeToRead_eq_zero.mp (RecvBuffer.unread_eq_nil.mp hnil)
  have hnxt := h.nxt
  obtain ⟨r, b, hrecv, hsound, hrun, hearly, hnbr', hone⟩ :=
    RecvBuffer.exists_onRecv_byte hN h.sound h.early hnbr (by omega) 0
  obtain ⟨actions, sock, hevent, hstate, rfl⟩ :=
    NormalSocket.exists_eventHandler h.state (List.cons_ne_nil 0 []) hrecv
  have hsize : sock.recvBuffer.sizeToRead = 1 := by
    rw [hsound.inv.sizeToRead_eq, hone, hnbr', hnbr]
    omega
  generalize hsocket : ({ s.socket with sock } : RunningSocket M N) = socket
  obtain rfl : socket.sock = sock := by rw [← hsocket]
  have hunread : socket.sock.recvBuffer.unread = s.unread ++ socket.sock.recvBuffer.unread := by
    rw [hnil, List.nil_append]
  have htrack : s.track socket = s.stream ++ socket.sock.recvBuffer.unread :=
    track_of_chunk (by rw [h.phase]; rfl) hstate hunread
  have hlen : (s.track socket).length = s.stream.length + 1 := by
    rw [htrack, List.length_append, RecvBuffer.length_unread, hsize]
  have hstep : s.socket.step (.event (.getAck s.socket.sock.recvBuffer.nxt 0 0 [0]) 0) =
      .ok ({ actions }, socket) := by
    simp only [RunningSocket.step, hevent, Exec.ok_bind, hsocket]
    rfl
  have hend : s.socket.sock.recvBuffer.nxt.toNat + [(0 : Byte)].length < 2 ^ 32 := by
    rw [hnxt, List.length_singleton]
    omega
  have hpeer := fromPeer_of_step hstep h.sound.inv h.state h.close ⟨hend, .inr le_rfl⟩
    (by simp) (by simp)
  refine ⟨_, { s with socket, stream := s.track socket },
    step_socket (by simp [h.phase]) hstep, hpeer, ?_, ?_, hlen⟩
  · refine ⟨h.phase, hstate, hrun.trans h.run, by rw [← hsocket]; exact h.close, hsound, hearly,
      hone.trans (by rw [hnxt, hlen]), ?_⟩
    change s.track socket = s.buf ++ socket.sock.recvBuffer.unread
    rw [htrack, h.stream, hnil, List.append_nil]
  · have hread : socket.sock.recvBuffer.unread ≠ [] :=
      mt RecvBuffer.unread_eq_nil.mp (by rw [hsize]; exact Nat.one_ne_zero)
    exact hread

theorem InOrder.exists_read (h : s.InOrder) (hne : s.unread ≠ [])
    (hfits : s.stream.length ≤ MAXSIZE) :
    ∃ out s', s.step .vRecv = .ok (out, s') ∧ s'.InOrder ∧ s'.unread = [] ∧
      s'.stream = s.stream := by
  have hlen := congrArg List.length h.stream
  rw [List.length_append] at hlen
  have hpos := List.length_pos_iff.mpr hne
  obtain ⟨sock, hok, hstate, hrun, hsize⟩ := NormalSocket.exists_vRecv
    (n := MAXSIZE - s.buf.length) h.state (by omega) h.run h.sound.inv.sizeToRead_le hne
  have hall : s.socket.sock.recvBuffer.unread.take (MAXSIZE - s.buf.length) = s.unread :=
    List.take_of_length_le (by change s.unread.length ≤ _; omega)
  rw [hall] at hok
  obtain ⟨e, hcontra, -⟩ | ⟨b, hread, rfl⟩ := NormalSocket.vRecv_cases hok
  · cases hcontra
  obtain ⟨-, hnxt, hearly, -⟩ := h.sound.inv.readAtMostNBytes hread
  have hnil : b.unread = [] := by
    rw [unread, RecvBuffer.length_unread] at hlen
    rw [RecvBuffer.unread_eq_nil]
    simp only at hsize
    omega
  refine ⟨_, _, step_vRecv h.phase hok, ⟨h.phase, hstate, hrun, h.close,
    h.sound.readAtMostNBytes hread, ?_, ?_, ?_⟩, hnil, rfl⟩
  · intro x
    simp only [append, withRecv, hearly]
    exact h.early x
  · simp only [append, withRecv, hnxt]
    exact h.nxt
  · simp only [append, withRecv, unread, hnil, List.append_nil]
    exact h.stream

theorem InOrder.exists_run (h : s.InOrder) (hN : 2 ≤ N) (hnil : s.unread = []) (n : ℕ)
    (hfits : s.stream.length + n ≤ MAXSIZE) :
    ∃ tr s', Trace step s tr s' ∧ (∀ t ∈ tr, InDomain t) ∧ s'.InOrder ∧ s'.unread = [] ∧
      s'.stream.length = s.stream.length + n := by
  induction n generalizing s with
  | zero => exact ⟨[], s, .nil s, by simp, h, hnil, rfl⟩
  | succ n ih =>
      obtain ⟨l, s₁, harrive, hpeer, h₁, hne, hlen⟩ := h.exists_arrive hN hnil (by omega)
      obtain ⟨out, s₂, hread, h₂, hnil₂, hstream⟩ := h₁.exists_read hne (by omega)
      obtain ⟨tr, s', htr, hdom, h', hnil', hlen'⟩ := ih h₂ hnil₂ (by rw [hstream]; omega)
      refine ⟨_, s', .cons harrive (.cons hread htr), ?_, h', hnil', by rw [hlen', hstream]; omega⟩
      rw [List.forall_mem_cons, List.forall_mem_cons]
      exact ⟨inDomain_of_fromPeer rfl hpeer, inDomain_of_program trivial, hdom⟩

/-- The buffer is full, and a call for no bytes returns none. -/
structure Spins (s : TcpRecvFile M N) : Prop where
  phase : s.phase = .receiving
  full : MAXSIZE ≤ s.buf.length
  recv : s.socket.sock.vRecv 0 0 = .ok (.ok [], s.socket.sock)

theorem Spins.exists_recv (h : s.Spins) : ∃ out s', s.step .vRecv = .ok (out, s') ∧ s'.Spins := by
  have hn : MAXSIZE - s.buf.length = 0 := Nat.sub_eq_zero_of_le h.full
  refine ⟨_, _, step_vRecv h.phase (by rw [hn]; exact h.recv), h.phase, ?_, h.recv⟩
  rw [append, List.append_nil]
  exact h.full

theorem Spins.runs_on (h : s.Spins) : ¬s.EndsWell := by
  refine not_endsWell_of_calls (by rw [h.phase]; rfl)
    (exists_calls (P := Spins) (fun u hu ↦ hu.exists_recv) ?_)
  exact ⟨rfl, h.full, h.recv⟩

theorem InOrder.exists_fin (h : s.InOrder) (hnil : s.unread = [])
    (hfull : s.stream.length = MAXSIZE) :
    ∃ l s', s.step (.socket l) = .ok (none, s') ∧ FromPeer s.socket s'.socket l ∧ s'.Spins ∧
      s'.state = .closeWait ∧ s'.stream = s.stream := by
  obtain ⟨actions, sock, hevent, hstate, hbuf⟩ := NormalSocket.exists_getFin h.state
  generalize hsocket : ({ s.socket with sock } : RunningSocket M N) = socket
  obtain rfl : socket.sock = sock := by rw [← hsocket]
  have htrack : s.track socket = s.stream := track_of_ne (by simp [hstate])
  have hstep : s.socket.step (.event (.getFin s.socket.sock.recvBuffer.nxt 0) 0) =
      .ok ({ actions }, socket) := by
    simp only [RunningSocket.step, hevent, Exec.ok_bind, hsocket]
    rfl
  refine ⟨_, { s with socket, stream := s.track socket },
    step_socket (by simp [h.phase]) hstep, .fin _ _ h.state hstate,
    ⟨h.phase, ?_, ?_⟩, hstate, htrack⟩
  · rw [← hfull, h.stream, hnil, List.append_nil]
  · have hnbr := RecvBuffer.sizeToRead_eq_zero.mp (RecvBuffer.unread_eq_nil.mp hnil)
    refine NormalSocket.vRecv_zero_closeWait hstate ?_
    rw [ne_eq, RecvBuffer.sizeToRead_eq_zero, hbuf]
    exact fun heq ↦ UInt32.ne_add_one _ (hnbr.symm.trans heq)

/-- A stream of exactly the size of the buffer is received, the peer closes, and the loop goes on
for ever. -/
theorem InOrder.exists_spin (h : s.InOrder) (hN : 2 ≤ N) (hnil : s.unread = [])
    (hstream : s.stream = []) :
    ∃ tr s', Trace step s tr s' ∧ (∀ t ∈ tr, InDomain t) ∧ s'.state = .closeWait ∧
      s'.stream.length = MAXSIZE ∧ s'.Spins := by
  obtain ⟨tr, s₁, htr, hdom, h₁, hnil₁, hlen⟩ := h.exists_run hN hnil MAXSIZE (by simp [hstream])
  rw [hstream, List.length_nil, Nat.zero_add] at hlen
  obtain ⟨l, s', hfin, hpeer, hspins, hstate, hstream'⟩ := h₁.exists_fin hnil₁ hlen
  have hlast := htr.append (.cons hfin (.nil _))
  refine ⟨_, s', hlast, fun t ht ↦ ?_, hstate, by rw [hstream', hlen], hspins⟩
  rcases List.mem_append.mp ht with ht | ht
  · exact hdom t ht
  · rw [List.mem_singleton.mp ht]
    exact inDomain_of_fromPeer rfl hpeer

/-! ## Whole runs -/

/-- `tcpRecvFile` has just been called.  The connection it will accept has nothing to read. -/
structure Fresh (s : TcpRecvFile M N) : Prop where
  phase : s.phase = .listening
  state : s.state = .established
  run : s.socket.sock.recvBuffer.stopped = false
  nbr : s.socket.sock.recvBuffer.nbr = s.socket.sock.recvBuffer.nxt
  buf : s.buf = []
  stream : s.stream = []

theorem Fresh.good (h : s.Fresh) : s.Good where
  connected _ := by
    have hzero := RecvBuffer.sizeToRead_eq_zero.mpr h.nbr
    have hnil : s.unread = [] := RecvBuffer.unread_eq_nil.mpr hzero
    refine .established h.state h.run (hzero.trans_le (Nat.zero_le N)) ?_ ?_
    · rw [h.stream, h.buf, hnil, List.nil_append]
    · rw [h.stream, List.length_nil]
      decide
  whole _ := by rw [h.buf, h.stream]
  le := by rw [h.buf, h.stream]
  written n hn := by cases h.phase.symm.trans hn

def bytesReceived (tr : List (Step M N)) : List Byte :=
  tr.flatMap fun t ↦ (t.out.map RunningSocket.deliveredOf).getD []

/-- The buffer holds what the calls of `vRecv` have returned. -/
theorem buf_eq {tr : List (Step M N)} (h : Trace step s tr s') :
    s'.buf = s.buf ++ bytesReceived tr := by
  induction h with
  | nil => exact (List.append_nil _).symm
  | @cons s s₁ s₂ l out tr head tail ih =>
      have hhead : s₁.buf = s.buf ++ (out.map RunningSocket.deliveredOf).getD [] := by
        cases steps_of_step head with
        | recv => rfl
        | _ => exact (List.append_nil _).symm
      rw [ih, hhead, bytesReceived, bytesReceived, List.flatMap_cons, List.append_assoc]

/-- Every state of a run ends well, if and only if the stream is always shorter than the buffer, has
been read when the FIN is handled, and is taken by the file.  Then the loop makes at most one call
more than there are bytes in the stream. -/
theorem endsWell_iff (hstart : s.Fresh) {tr : List (Step M N)} (h : Trace step s tr s')
    (hdom : ∀ t ∈ tr, InDomain t) :
    ((∀ t ∈ tr, EndsWell t.post) ↔ ∀ t ∈ tr, Fits t) ∧ s'.buf = bytesReceived tr ∧
      ((∀ t ∈ tr, Fits t) → recvCalls tr ≤ s'.stream.length + 1) := by
  refine ⟨?_, ?_, fun hfits ↦ ?_⟩
  · exact Trace.forall_iff (I := Good)
      (fun t hfires hgood hd ↦ ⟨fits_of_endsWell hfires hgood hd,
        fun hfits ↦ (good_step hfires hgood hd hfits).endsWell⟩)
      (fun t hfires hgood hd hfits ↦ good_step hfires hgood hd hfits) h hstart.good hdom
  · rw [buf_eq h, hstart.buf, List.nil_append]
  · have hboth : ∀ t ∈ tr, InDomain t ∧ Fits t := fun t ht ↦ ⟨hdom t ht, hfits t ht⟩
    have hkeep : ∀ t : Step M N, Fires step t → Sound t.pre → InDomain t ∧ Fits t →
        Sound t.post := fun t hfires hsound hd ↦ (sound_step hfires hsound hd.1 hd.2).1
    have hsound := (Trace.invariant hkeep h hstart.good.toSound hboth).1
    have hcalls := Trace.countP_add_le (φ := progress) hkeep
      (fun t hfires hsound hd ↦ (sound_step hfires hsound hd.1 hd.2).2) h hstart.good.toSound hboth
    have hle := hsound.progress_le
    rw [recvCalls]
    omega

def exampleFile : TcpRecvFile 8 8 := { socket := RunningSocket.exampleStream }

theorem exampleFile_fresh : exampleFile.Fresh := ⟨rfl, rfl, rfl, rfl, rfl, rfl⟩

theorem exampleFile_inOrder : (exampleFile.withPhase .receiving).InOrder :=
  ⟨rfl, rfl, rfl, rfl, RecvBuffer.sound_init _ _, by simp [exampleFile, RunningSocket.exampleStream,
    NormalSocket.init, RecvBuffer.init, withPhase], rfl, rfl⟩

/-- Two bytes arrive, are read before the FIN and are written. -/
theorem endsWell_iff_written :
    ∃ (tr : List (Step 8 8)) (s' : TcpRecvFile 8 8), Trace step exampleFile tr s' ∧
      s'.phase = .returned (.ok 2) ∧ s'.file = some [1, 2] ∧
      (((∀ t ∈ tr, EndsWell t.post) ↔ ∀ t ∈ tr, Fits t) ∧ s'.buf = bytesReceived tr ∧
        ((∀ t ∈ tr, Fits t) → recvCalls tr ≤ s'.stream.length + 1)) := by
  have htr : ∃ tr s', Trace step exampleFile tr s' ∧ (∀ t ∈ tr, InDomain t) ∧
      s'.phase = .returned (.ok 2) ∧ s'.file = some [1, 2] := by
    refine ⟨_, _, .cons (l := .tcpListen (.ok ())) rfl (.cons (l := .vAccept (.ok ())) rfl
      (.cons (l := .socket (.event (.getAck 0 0 8 [1, 2]) 0)) rfl (.cons (l := .vRecv) rfl
      (.cons (l := .socket (.event (.getFin 2 8) 0)) rfl (.cons (l := .vRecv) rfl
      (.cons (l := .socket .vClose) rfl (.cons (l := .socket .getNxt) rfl
      (.cons (l := .socket .writeAndSendOne) rfl (.cons (l := .socket (.sendFin 0)) rfl
      (.cons (l := .write true 2) rfl (.nil _))))))))))), ?_, rfl, rfl⟩
    simp only [List.forall_mem_cons, List.not_mem_nil, false_implies, implies_true, and_true]
    exact ⟨inDomain_of_program trivial, inDomain_of_program trivial,
      inDomain_of_fromPeer rfl (.chunk _ [1, 2] rfl rfl (by decide) rfl),
      inDomain_of_program trivial, inDomain_of_fromPeer rfl (.fin _ _ rfl rfl),
      inDomain_of_program trivial, inDomain_of_ended rfl, inDomain_of_ended rfl,
      inDomain_of_ended rfl, inDomain_of_ended rfl, inDomain_of_program trivial⟩
  obtain ⟨tr, s', h, hdom, hphase, hfile⟩ := htr
  exact ⟨tr, s', h, hphase, hfile, endsWell_iff exampleFile_fresh h hdom⟩

/-- After a stream of exactly the size of the buffer the loop never ends; and of a stream of two
bytes that have not been read when the FIN is handled, nothing is in the file. -/
theorem not_endsWell :
    (∃ (tr : List (Step 8 8)) (s' : TcpRecvFile 8 8), Trace step exampleFile tr s' ∧
      (∀ t ∈ tr, InDomain t) ∧ s'.stream.length = MAXSIZE ∧ s'.state = .closeWait ∧
      ¬s'.EndsWell) ∧
    ∃ (tr : List (Step 8 8)) (s' : TcpRecvFile 8 8), Trace step exampleFile tr s' ∧
      (∀ t ∈ tr, InDomain t) ∧ s'.stream = [1, 2] ∧ s'.phase = .returned (.ok 0) ∧
      s'.file = some [] ∧ ¬s'.EndsWell := by
  constructor
  · obtain ⟨tr, s', h, hdom, hstate, hlen, hspins⟩ :=
      exampleFile_inOrder.exists_spin (by decide) rfl rfl
    refine ⟨_, s', .cons (l := .tcpListen (.ok ())) rfl (.cons (l := .vAccept (.ok ())) rfl h),
      ?_, hlen, hstate, hspins.runs_on⟩
    rw [List.forall_mem_cons, List.forall_mem_cons]
    exact ⟨inDomain_of_program trivial, inDomain_of_program trivial, hdom⟩
  · refine ⟨_, _, .cons (l := .tcpListen (.ok ())) rfl (.cons (l := .vAccept (.ok ())) rfl
      (.cons (l := .socket (.event (.getAck 0 0 8 [1, 2]) 0)) rfl
      (.cons (l := .socket (.event (.getFin 2 8) 0)) rfl (.cons (l := .vRecv) rfl
      (.cons (l := .socket .vClose) rfl (.cons (l := .socket .getNxt) rfl
      (.cons (l := .socket .writeAndSendOne) rfl (.cons (l := .socket (.sendFin 0)) rfl
      (.cons (l := .write true 0) rfl (.nil _)))))))))), ?_, rfl, rfl, rfl, fun hends ↦ ?_⟩
    · simp only [List.forall_mem_cons, List.not_mem_nil, false_implies, implies_true, and_true]
      exact ⟨inDomain_of_program trivial, inDomain_of_program trivial,
        inDomain_of_fromPeer rfl (.chunk _ [1, 2] rfl rfl (by decide) rfl),
        inDomain_of_fromPeer rfl (.fin _ _ rfl rfl), inDomain_of_program trivial,
        inDomain_of_ended rfl, inDomain_of_ended rfl, inDomain_of_ended rfl,
        inDomain_of_ended rfl, inDomain_of_program trivial⟩
    · cases (hends.written 0 rfl).2.1

end Tns.TcpRecvFile
