import Tns.Tcp.StreamAgreement
import Tns.TcpSendFile

/-!
# A file arrives

One end of a connection runs `tcpSendFile`, all other threads of both ends run as
they like, and the network does what it likes with the packets.  The program writes
nothing after it has closed, so the other end has received the whole file when it
consumes the FIN.
-/

namespace Tns

open Tns.Library Tns.Tcp

/-- `vClose` has been called. -/
def SendFilePhase.HasClosed : SendFilePhase → Prop
  | .waiting | .returned (.ok _) => True
  | _ => False

namespace TcpSendFile

variable {M N : ℕ} {p p' : TcpSendFile} {s s' : RunningSocket M N}

def content (p : TcpSendFile) : List Byte := p.file.getD []

/-- What has not been stored of the file, unless the program has failed. -/
def pending (p : TcpSendFile) : List Byte :=
  match p.phase with
  | .opening => p.content
  | .connecting | .looping => p.rest
  | .sending chunk => chunk ++ p.rest
  | .writing _ bytesLeft => bytesLeft ++ p.rest
  | .closing | .waiting | .returned _ => []

/-- The sizes of what has been stored, of the chunk and of the rest add up to that of the file. -/
def Counts (p : TcpSendFile) : Prop :=
  match p.phase with
  | .opening => p.total = 0
  | .connecting | .looping => p.total + p.rest.length = p.size ∧ p.size = p.content.length
  | .sending chunk =>
      p.total + chunk.length + p.rest.length = p.size ∧ p.size = p.content.length
  | .writing n _ => p.total + n + p.rest.length = p.size ∧ p.size = p.content.length
  | .closing | .waiting => p.total = p.content.length
  | .returned (.ok n) => n = p.content.length
  | .returned (.error _) => True

theorem Storing.not_hasClosed {n : ℕ} {bytesLeft : List Byte} (h : p.Storing n bytesLeft) :
    ¬p.phase.HasClosed := by
  rcases h with ⟨hphase, -⟩ | hphase <;> rw [hphase] <;> exact id

/-- The program, and the socket that it has written to. -/
structure Accounts (p : TcpSendFile) (s : RunningSocket M N) : Prop where
  counts : p.Counts
  isPrefix : s.accepted <+: p.content
  whole : (∀ e, p.phase ≠ .returned (.error e)) → s.accepted ++ p.pending = p.content
  idle : ¬p.phase.HasClosed → s.close = .idle

namespace Accounts

theorem of_whole (hcounts : p.Counts) (hwhole : s.accepted ++ p.pending = p.content)
    (hidle : ¬p.phase.HasClosed → s.close = .idle) : Accounts p s :=
  ⟨hcounts, hwhole ▸ List.prefix_append _ _, fun _ ↦ hwhole, hidle⟩

theorem failed (h : Accounts p s) (hopen : ¬p.phase.HasClosed) (e : SocketError) :
    Accounts (p.withPhase (.returned (.error e))) s :=
  ⟨trivial, h.isPrefix, fun hne ↦ absurd rfl (hne e), fun _ ↦ h.idle hopen⟩

/-- The other threads write nothing, and do not close. -/
theorem keep (h : Accounts p s) (haccepted : s'.accepted = s.accepted)
    (hclose : s.close = .idle → s'.close = .idle) : Accounts p s' :=
  ⟨h.counts, haccepted ▸ h.isPrefix, haccepted ▸ h.whole, fun hopen ↦ hclose (h.idle hopen)⟩

/-- A section of `vSend` takes what it stores from the chunk. -/
theorem stores {n : ℕ} {bytesLeft : List Byte} {r : Except SocketError ℕ} (h : Accounts p s)
    (hphase : p.Storing n bytesLeft)
    (haccepted : s'.accepted = s.accepted ++ RunningSocket.acceptedOf bytesLeft r)
    (hclose : s'.close = s.close) : Accounts (p.stored n bytesLeft r) s' := by
  have hopen := hphase.not_hasClosed
  obtain ⟨hne, hpending, hcounts, hsize⟩ : (∀ e, p.phase ≠ .returned (.error e)) ∧
      p.pending = bytesLeft ++ p.rest ∧ p.total + n + p.rest.length = p.size ∧
      p.size = p.content.length := by
    have hcounts := h.counts
    rcases hphase with ⟨hphase, rfl⟩ | hphase <;> simp only [Counts, hphase] at hcounts <;>
      exact ⟨by simp [hphase], by simp only [pending, hphase], hcounts⟩
  have hidle := h.idle hopen
  cases r with
  | error e =>
      simp only [RunningSocket.acceptedOf, List.append_nil] at haccepted
      exact (h.failed hopen e).keep haccepted fun heq ↦ hclose.trans heq
  | ok k =>
      have hwhole : s'.accepted ++ (bytesLeft.drop k ++ p.rest) = p.content := by
        calc s'.accepted ++ (bytesLeft.drop k ++ p.rest)
            = s.accepted ++ (bytesLeft.take k ++ bytesLeft.drop k ++ p.rest) := by
              simp only [haccepted, RunningSocket.acceptedOf, List.append_assoc]
          _ = s.accepted ++ p.pending := by rw [List.take_append_drop, hpending]
          _ = p.content := h.whole hne
      simp only [stored]
      split
      · rename_i hnil
        rw [hnil, List.nil_append] at hwhole
        exact of_whole ⟨hcounts, hsize⟩ hwhole fun _ ↦ hclose.trans hidle
      · exact of_whole ⟨hcounts, hsize⟩ hwhole fun _ ↦ hclose.trans hidle

theorem step {call : SendFileCall} (h : Accounts p s) (hstep : p.step s call = .ok (p', s')) :
    Accounts p' s' ∧ p'.file = p.file := by
  have hcounts := h.counts
  have hwhole := h.whole
  have hidle := h.idle
  cases steps_of_step hstep with
  | missing hphase => exact ⟨h.failed (by rw [hphase]; exact id) _, rfl⟩
  | empty hphase hfile =>
      simp only [Counts, pending, hphase, content, hfile] at hcounts hwhole hidle
      refine ⟨of_whole ?_ ?_ fun _ ↦ hidle id, rfl⟩
      · simp [Counts, content, hfile]
      · simpa [pending, content, hfile] using hwhole nofun
  | opens bytes hphase hfile =>
      simp only [Counts, pending, hphase, content, hfile] at hcounts hwhole hidle
      refine ⟨of_whole ?_ ?_ fun _ ↦ hidle id, rfl⟩
      · simp [Counts, content, hfile, hcounts]
      · simpa [pending, content, hfile] using hwhole nofun
  | connects hphase =>
      simp only [Counts, pending, hphase] at hcounts hwhole hidle
      exact ⟨of_whole hcounts (hwhole nofun) fun _ ↦ hidle id, rfl⟩
  | connectFails e hphase => exact ⟨h.failed (by rw [hphase]; exact id) e, rfl⟩
  | reads n hphase =>
      simp only [Counts, pending, hphase] at hcounts hwhole hidle
      have htake : (p.rest.take n).length + (p.rest.drop n).length = p.rest.length := by
        rw [List.length_take, List.length_drop]
        omega
      have hchunk : p.rest.take n ++ p.rest.drop n = p.rest := List.take_append_drop n p.rest
      refine ⟨of_whole ⟨?_, hcounts.2⟩ ?_ fun _ ↦ hidle id, rfl⟩
      · rw [Nat.add_assoc, htake]
        exact hcounts.1
      · calc s.accepted ++ (p.rest.take n ++ p.rest.drop n) = s.accepted ++ p.rest := by rw [hchunk]
          _ = p.content := hwhole nofun
  | readFails hphase => exact ⟨h.failed (by rw [hphase]; exact id) _, rfl⟩
  | ends hphase htotal =>
      simp only [Counts, pending, hphase] at hcounts hwhole hidle
      have hnil : p.rest = [] := List.length_eq_zero_iff.mp (by omega)
      rw [hnil] at hcounts hwhole
      exact ⟨of_whole (hcounts.1.trans hcounts.2) (hwhole nofun) fun _ ↦ hidle id, rfl⟩
  | stores n bytesLeft r l _ hphase hl hsocket haccepted =>
      have hclose : s'.close = s.close := by
        have hsteps := RunningSocket.steps_of_step hsocket
        rcases hl with rfl | rfl <;> cases hsteps <;> rfl
      refine ⟨h.stores hphase haccepted hclose, ?_⟩
      cases r with
      | error e => rfl
      | ok k =>
          simp only [stored]
          split <;> rfl
  | closes out _ hphase hsocket =>
      simp only [Counts, pending, hphase] at hcounts hwhole hidle
      have haccepted : s'.accepted = s.accepted := by
        cases RunningSocket.steps_of_step hsocket <;> rfl
      refine ⟨of_whole hcounts ?_ fun hopen ↦ absurd trivial hopen, rfl⟩
      rw [haccepted]
      exact hwhole nofun
  | returns hphase =>
      simp only [Counts, pending, hphase] at hcounts hwhole hidle
      exact ⟨of_whole hcounts (hwhole nofun) fun hopen ↦ absurd trivial hopen, rfl⟩

/-- The FIN is sent after the whole file only. -/
theorem accepted_of_sentFin (h : Accounts p s) (hsent : RunningSocket.SentFin s) :
    s.accepted = p.content := by
  have hclosed : p.phase.HasClosed := by
    by_contra hopen
    rw [RunningSocket.SentFin, h.idle hopen] at hsent
    cases hsent
  have hwhole := h.whole
  cases hphase : p.phase with
  | waiting => simpa [pending, hphase] using hwhole
  | returned r =>
      cases r with
      | ok n => simpa [pending, hphase] using hwhole
      | error e => simp [hphase, SendFilePhase.HasClosed] at hclosed
  | _ => simp [hphase, SendFilePhase.HasClosed] at hclosed

theorem of_returned {n : ℕ} (h : Accounts p s) (hphase : p.phase = .returned (.ok n)) :
    n = p.content.length ∧ s.accepted = p.content := by
  have hcounts := h.counts
  have hwhole := h.whole
  simp only [Counts, pending, hphase] at hcounts hwhole
  exact ⟨hcounts, by simpa using hwhole nofun⟩

end Accounts

end TcpSendFile

/-! ## Both ends -/

/-- The parties after `here` has called a function of its socket. -/
def Tcp.Parties.withHere {M N : ℕ} (c : Parties M N) (socket : RunningSocket M N) : Parties M N :=
  { c with here := { c.here with socket } }

/-- The end `here` of a connection runs `tcpSendFile`. -/
structure FileTransfer (M N : ℕ) where
  program : TcpSendFile
  parties : Parties M N

inductive TransferCall where
  | program (call : SendFileCall)
  | other (side : Side) (call : PartyCall)
  deriving DecidableEq

/-- The calls of the socket that `tcpSendFile` makes itself. -/
def IsProgramCall : Side → PartyCall → Bool
  | .here, .thread (.vSend _) | .here, .thread (.write _) | .here, .thread .vClose => true
  | _, _ => false

/-- The other threads of a socket write nothing and do not close it. -/
theorem Tcp.RunningSocket.Steps.keep {M N : ℕ} {s s' : RunningSocket M N} {l : SocketCall}
    {out : SocketReturn} (h : RunningSocket.Steps s l out s')
    (hl : IsProgramCall .here (.thread l) = false) :
    s'.accepted = s.accepted ∧ (s.close = .idle → s'.close = .idle) := by
  cases h with
  | vSend => cases hl
  | write => cases hl
  | vCloseAtOnce => cases hl
  | vClose => cases hl
  | getNxt next hclose => exact ⟨rfl, fun hidle ↦ by rw [hclose] at hidle; cases hidle⟩
  | writeAndSendOne next seq wnd hclose =>
      exact ⟨rfl, fun hidle ↦ by rw [hclose] at hidle; cases hidle⟩
  | sendFin now next seq wnd packet q hclose =>
      exact ⟨rfl, fun hidle ↦ by rw [hclose] at hidle; cases hidle⟩
  | _ => exact ⟨rfl, id⟩

theorem Tcp.Party.Acts.keep {M N : ℕ} {p p' : Party M N} {call : PartyCall} {out : SocketReturn}
    (h : Party.Acts p call out p') (hcall : IsProgramCall .here call = false) :
    p'.socket.accepted = p.socket.accepted ∧
      (p.socket.close = .idle → p'.socket.close = .idle) := by
  cases h with
  | thread l _ s' hl hsteps => exact hsteps.keep hcall
  | deliver => exact ⟨rfl, id⟩

/-- A thread that sends nothing leaves the other end. -/
theorem Tcp.Parties.step_thread {M N : ℕ} {c : Parties M N} {l : SocketCall} {out : SocketReturn}
    {s' : RunningSocket M N} (hl : IsEvent l = false) (h : c.here.socket.step l = .ok (out, s'))
    (hnone : packetsOf out.actions = []) :
    Fires step ⟨c, (.here, .thread l), out, c.withHere s'⟩ := by
  have hhears : c.there.hears (packetsOf out.actions) = c.there := by
    rw [hnone, Party.hears, List.append_nil]
  simp only [Fires, step, Party.act, Exec.waitUntil, if_pos hl, h, Exec.ok_bind]
  exact congrArg (fun there ↦ Except.ok (out, (⟨(c.withHere s').here, there⟩ : Parties M N))) hhears

namespace FileTransfer

variable {M N : ℕ} {c c' : FileTransfer M N} {isn : Side → UInt32}

def step (c : FileTransfer M N) : TransferCall → Exec (SocketReturn × FileTransfer M N)
  | .program call => do
      let (program, socket) ← c.program.step c.parties.here.socket call
      return ({}, { program, parties := c.parties.withHere socket })
  | .other side call => do
      Exec.waitUntil (IsProgramCall side call = false)
      let (out, parties) ← c.parties.step (side, call)
      return (out, { c with parties })

abbrev Step (M N : ℕ) := Transition (FileTransfer M N) TransferCall SocketReturn

/-- The program acts when it likes, the other threads act in their turn, and no segment takes
RCV.NXT behind the reader. -/
def InTurn (t : Step M N) : Prop :=
  match t.label with
  | .program _ => True
  | .other side call =>
      RunningSocket.Orderly (t.pre.parties.party side).socket call ∧
        ¬(t.pre.parties.party side).FallsBehind call

instance : DecidablePred (InTurn (M := M) (N := N)) := fun t ↦ by
  unfold InTurn
  split <;> infer_instance

/-- The call is made in its turn, and the numbers do not wrap. -/
def Orderly (isn : Side → UInt32) (t : Step M N) : Prop :=
  InTurn t ∧
    ∀ side, (isn side).toNat + (t.post.parties.party side).socket.accepted.length + 1 < 2 ^ 32

instance (isn : Side → UInt32) : DecidablePred (Orderly (M := M) (N := N) isn) := fun _ ↦
  @instDecidableAnd _ _ _ (decidable_of_iff' _ Side.forall_iff)

/-- A step of the program is none of the parties, or one in its turn. -/
theorem parties_of_program {call : SendFileCall} {p' : TcpSendFile} {s' : RunningSocket M N}
    (h : c.program.Accounts c.parties.here.socket)
    (hstep : c.program.step c.parties.here.socket call = .ok (p', s')) :
    s' = c.parties.here.socket ∨ ∃ l out,
      Fires Parties.step ⟨c.parties, (.here, .thread l), out, c.parties.withHere s'⟩ ∧
        RunningSocket.Orderly c.parties.here.socket (.thread l) := by
  cases TcpSendFile.steps_of_step hstep with
  | stores n bytesLeft r l _ hphase hl hsocket =>
      have hidle := h.idle hphase.not_hasClosed
      rcases hl with rfl | rfl
      · exact .inr ⟨_, _, Parties.step_thread rfl hsocket rfl, hidle⟩
      · exact .inr ⟨_, _, Parties.step_thread rfl hsocket rfl, hidle⟩
  | closes out _ hphase hsocket =>
      refine .inr ⟨_, _, Parties.step_thread rfl hsocket ?_, trivial⟩
      cases RunningSocket.steps_of_step hsocket with
      | vCloseAtOnce _ _ _ _ hstate => exact NormalSocket.packetsOf_vCloseState hstate
      | vClose _ _ _ hstate => exact NormalSocket.packetsOf_vCloseState hstate
  | _ => exact .inl rfl

/-- What is known of the file after a step. -/
structure Transferred (file : List Byte) (t : Step M N) : Prop where
  inOrder : t.post.parties.there.took = false →
    t.post.parties.there.socket.received <+: file
  complete : t.pre.parties.there.took = false → t.post.parties.there.took = true →
    t.pre.parties.there.socket.received = file
  returned : ∀ n, t.post.program.phase = .returned (.ok n) →
    n = file.length ∧ t.post.parties.here.socket.accepted = file

structure Inv (isn : Side → UInt32) (file : List Byte) (c : FileTransfer M N) : Prop where
  agree : Parties.Agree isn c.parties
  convey : Parties.Convey isn c.parties
  accounts : c.program.Accounts c.parties.here.socket
  content : c.program.content = file

namespace Inv

variable {file : List Byte}

theorem received_isPrefix (h : Inv isn file c) (hnot : c.parties.there.took = false) :
    c.parties.there.socket.received <+: file := by
  have hreceived := (h.convey .here).received_isPrefix hnot
  exact hreceived.trans (h.content ▸ h.accounts.isPrefix)

/-- A step in which `there` does not consume the FIN. -/
theorem transferred {t : Step M N} (h : Inv isn file t.post)
    (htook : t.post.parties.there.took = t.pre.parties.there.took) : Transferred file t := by
  refine ⟨h.received_isPrefix, fun hnot hpost ↦ ?_, fun n hn ↦ ?_⟩
  · rw [htook, hnot] at hpost
    cases hpost
  · rw [← h.content]
    exact h.accounts.of_returned hn

theorem step {t : Step M N} (hfires : Fires FileTransfer.step t) (h : Inv isn file t.pre)
    (hturn : Orderly isn t) : Inv isn file t.post ∧ Transferred file t := by
  obtain ⟨c, l, out, c'⟩ := t
  simp only at h
  cases l with
  | program call =>
      simp only [Fires, FileTransfer.step, Exec.bind_eq_ok, Exec.pure_eq_ok, Prod.mk.injEq,
        Prod.exists] at hfires
      obtain ⟨p', s', hstep, rfl, rfl⟩ := hfires
      obtain ⟨haccounts, hfile⟩ := h.accounts.step hstep
      have hcontent : p'.content = file := by
        rw [TcpSendFile.content, hfile]
        exact h.content
      have hpost : Inv isn file { program := p', parties := c.parties.withHere s' } := by
        rcases parties_of_program h.accounts hstep with rfl | ⟨l, out, hparties, hl⟩
        · exact ⟨h.agree, h.convey, haccounts, hcontent⟩
        · have hok : Parties.Orderly isn
              ⟨c.parties, (.here, .thread l), out, c.parties.withHere s'⟩ := ⟨hl, hturn.2⟩
          exact ⟨(h.agree.step hparties hok).1, h.convey.step hparties h.agree hok id, haccounts,
            hcontent⟩
      exact ⟨hpost, hpost.transferred rfl⟩
  | other side call =>
      simp only [Fires, FileTransfer.step, Exec.bind_eq_ok, Exec.waitUntil_eq_ok, Exec.pure_eq_ok,
        Prod.mk.injEq, Prod.exists] at hfires
      obtain ⟨-, hcall, out, parties, hstep, rfl, rfl⟩ := hfires
      obtain ⟨⟨hl, hbehind⟩, hwrap⟩ := hturn
      have hfires : Fires Parties.step ⟨c.parties, (side, call), out, parties⟩ := hstep
      have hok : Parties.Orderly isn ⟨c.parties, (side, call), out, parties⟩ := ⟨hl, hwrap⟩
      obtain ⟨hagree, hagreed⟩ := h.agree.step hfires hok
      have hconvey := h.convey.step hfires h.agree hok hbehind
      obtain ⟨hacts, hother⟩ := Parties.step_cases hstep
      cases side with
      | here =>
          obtain ⟨haccepted, hclose⟩ := hacts.keep hcall
          have hpost : Inv isn file { c with parties } :=
            ⟨hagree, hconvey, h.accounts.keep haccepted hclose, h.content⟩
          exact ⟨hpost, hpost.transferred (congrArg (·.took) hother)⟩
      | there =>
          have hhere : parties.here.socket = c.parties.here.socket := congrArg (·.socket) hother
          have hpost : Inv isn file { c with parties } :=
            ⟨hagree, hconvey, hhere ▸ h.accounts, h.content⟩
          refine ⟨hpost, hpost.received_isPrefix, fun hnot htook ↦ ?_, fun n hn ↦ ?_⟩
          · have hsent : RunningSocket.SentFin parties.here.socket := hagreed.took .there htook
            rw [hhere] at hsent
            have hall := (h.convey.streamed hfires h.agree hok hbehind).complete .there hnot htook
            rw [← h.content, ← h.accounts.accepted_of_sentFin hsent]
            exact hall
          · rw [← h.content]
            exact hpost.accounts.of_returned hn

end Inv

/-- A connection that has just been established for the program, which is about to open the
file. -/
structure Started (isn : Side → UInt32) (c : FileTransfer M N) : Prop where
  phase : c.program.phase = .opening
  total : c.program.total = 0
  established : Parties.Established isn c.parties
  unread : ∀ side, Party.Unread (c.parties.party side)

theorem Started.inv (h : Started isn c) : Inv isn c.program.content c := by
  have hfresh := h.established .here
  refine ⟨h.established.agree, h.established.convey h.unread, .of_whole ?_ ?_ ?_, rfl⟩
  · simp [TcpSendFile.Counts, h.phase, h.total]
  · rw [show c.parties.here.socket.accepted = [] from hfresh.accepted, List.nil_append]
    simp only [TcpSendFile.pending, h.phase]
  · exact fun _ ↦ hfresh.close

/-- In every run in which one end sends a file, the other end has received nothing but the
beginning of the file before it consumes the FIN, and all of it then; and if `tcpSendFile` returns
a size, it is that of the file, and all of the file has been accepted. -/
theorem transferred_of_run (hstart : Started isn c) {tr : List (Step M N)}
    (h : Trace step c tr c') (hturn : ∀ t ∈ tr, Orderly isn t) :
    ∀ t ∈ tr, Transferred c.program.content t := by
  obtain ⟨-, hall⟩ := Trace.invariant (I := Inv isn c.program.content) (A := Orderly isn)
    (fun t hfires hI hok ↦ (hI.step hfires hok).1) h hstart.inv hturn
  exact fun t ht ↦ ((hall t ht).1.step (h.fires t ht) (hturn t ht)).2

def exampleTransfer : FileTransfer 8 8 where
  program := { file := some [7, 8] }
  parties := ⟨Parties.exampleParty, Parties.exampleParty⟩

theorem exampleTransfer_started : Started (fun _ ↦ 0) exampleTransfer :=
  ⟨rfl, rfl, Parties.exampleParty_established, Parties.exampleParty_unread⟩

/-- The file is sent in one segment and read in two parts, with the FIN on its way. -/
theorem transferred_of_run_closed :
    ∃ (tr : List (Step 8 8)) (c : FileTransfer 8 8), Trace step exampleTransfer tr c ∧
      c.program.phase = .returned (.ok 2) ∧ c.parties.there.took = true ∧
        c.parties.there.socket.delivered = [7, 8] ∧ ∀ t ∈ tr, Transferred [7, 8] t := by
  have hrun : ∃ tr c, Trace step exampleTransfer tr c ∧ c.program.phase = .returned (.ok 2) ∧
      c.parties.there.took = true ∧ c.parties.there.socket.delivered = [7, 8] ∧
      ∀ t ∈ tr, Orderly (fun _ ↦ 0) t :=
    ⟨_, _, .cons (l := .program .openFile) rfl
      (.cons (l := .program (.tcpConnect (.ok ()))) rfl
      (.cons (l := .program (.read true)) rfl
      (.cons (l := .program .vSend) rfl
      (.cons (l := .other .here (.thread (.sendReadyData 4))) rfl
      (.cons (l := .other .here (.thread .getAckWnd)) rfl
      (.cons (l := .other .here (.thread (.sendSegment 0))) rfl
      (.cons (l := .program (.read true)) rfl
      (.cons (l := .program .vClose) rfl
      (.cons (l := .other .there (.deliver (.makeAckPacket 0 0 8 [7, 8]) 0)) rfl
      (.cons (l := .other .there (.thread (.vRecv 8 1))) rfl
      (.cons (l := .other .here (.thread .getNxt)) rfl
      (.cons (l := .other .here (.thread .writeAndSendOne)) rfl
      (.cons (l := .other .here (.thread (.sendFin 0))) rfl
      (.cons (l := .program .done) rfl
      (.cons (l := .other .there (.thread (.vRecv 8 8))) rfl
      (.cons (l := .other .there (.deliver (.makeFinPacket 2 8) 0)) rfl
        (.nil _))))))))))))))))),
      by decide, by decide, by decide, by decide⟩
  obtain ⟨tr, c, htrace, hphase, htook, hread, hturn⟩ := hrun
  exact ⟨tr, c, htrace, hphase, htook, hread,
    transferred_of_run exampleTransfer_started htrace hturn⟩

end FileTransfer

end Tns
