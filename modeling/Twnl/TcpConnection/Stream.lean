import Twnl.TcpConnection.Drain

/-!
# The output stream

What is sent is either with the kernel or in the output buffer. A run that alternates sends with
drains keeps the stream whole exactly when every payload arrives at an idle connection
(`integrity_iff_sentIdle`): the statement that buffers what the kernel did not take stands inside
the branch for a direct write, so that a payload which finds an earlier one waiting is dropped
whole.
-/

namespace Twnl

namespace TcpConnection

open Buffer Machine WriteResult

/-- The bytes the kernel has accepted. -/
def acceptedBytes (log : List Effect) : List Byte :=
  log.flatMap fun
    | .accepted bytes => bytes
    | .shutdownWrite | .connectionCallback _ | .messageCallback _ _ | .closeCallback _ => []

@[simp] theorem acceptedBytes_append (log log' : List Effect) :
    acceptedBytes (log ++ log') = acceptedBytes log ++ acceptedBytes log' := List.flatMap_append

@[simp] theorem acceptedBytes_accepted (bytes : List Byte) :
    acceptedBytes [.accepted bytes] = bytes := List.append_nil bytes

variable {k : Masks} {m : Mode} {s s' : Session} {data : List Byte} {answer : WriteResult}

@[simp] theorem noteHighWater_log (s : Session) (len : ℕ) : (noteHighWater s len).log = s.log := by
  rw [noteHighWater]
  split <;> rfl

@[simp] theorem directWrite_log (s : Session) (data : List Byte) (answer : WriteResult) :
    (directWrite s data answer).log = s.log ++ [.accepted (answer.taken data)] := by
  rw [directWrite]
  split
  · rw [noteWriteComplete_log]
    rfl
  · rfl

@[simp] theorem shutdownInLoop_conn (s : Session) : (shutdownInLoop k s).conn = s.conn := by
  rw [shutdownInLoop]
  split <;> rfl

theorem acceptedBytes_shutdownInLoop (s : Session) :
    acceptedBytes (shutdownInLoop k s).log = acceptedBytes s.log := by
  rw [shutdownInLoop]
  split
  · change acceptedBytes (s.log ++ [.shutdownWrite]) = _
    rw [acceptedBytes_append]
    exact List.append_nil _
  · rfl

/-! ## Sends and drains -/

/-- A block of memory. -/
structure Payload where
  bytes : List Byte
  length_le : bytes.length ≤ maxSize

/-- The answers of a kernel whose peer is there: a count, or none while the socket would block. -/
def answerOf : Option ℕ → WriteResult
  | some count => .accepts count
  | none => .fails .EWOULDBLOCK

/-- What happens to the output of a connection. -/
inductive OutputOp
  | sendInLoop (payload : Payload) (answer : Option ℕ)
  | handleWrite (answer : Option ℕ)
  | shutdown

/-- The payload of a send. -/
def OutputOp.payload : OutputOp → List Byte
  | sendInLoop payload _ => payload.bytes
  | handleWrite _ | shutdown => []

/-- A connection with all that was passed to `sendInLoop`. -/
structure Sent where
  session : Session
  sent : List Byte

/-- One operation. -/
def output (k : Masks) (s : Session) : OutputOp → Except Fault Session
  | .sendInLoop payload answer => sendInLoop k s payload.bytes (answerOf answer)
  | .handleWrite answer => handleWrite k s fun _ ↦ answerOf answer
  | .shutdown => .ok (shutdown k s)

/-- One operation, recorded. -/
def outputStep (k : Masks) (t : Sent) (op : OutputOp) : Except Fault Sent := do
  let s ← output k t.session op
  .ok ⟨s, t.sent ++ op.payload⟩

/-- What was sent is what the kernel accepted and then what is buffered. -/
def Integrity (t : Sent) : Prop :=
  t.sent = acceptedBytes t.session.log ++ t.session.conn.outputBuffer.readable

instance : DecidablePred Integrity := fun _ ↦ inferInstanceAs (Decidable (_ = _))

/-- Nothing waits to be written. -/
def Idle (k : Masks) (s : Session) : Prop :=
  s.conn.channel.isWriting k = false ∧ s.conn.outputBuffer.readable = []

/-- Nothing is sent while something waits. -/
def SentIdle (k : Masks) (t : Sent) (op : OutputOp) : Prop := op.payload = [] ∨ Idle k t.session

instance (k : Masks) (t : Sent) : DecidablePred (SentIdle k t) := fun op ↦
  inferInstanceAs (Decidable (op.payload = [] ∨
    t.session.conn.channel.isWriting k = false ∧ t.session.conn.outputBuffer.readable = []))

/-- An operation keeps the stream whole, unless the vector refuses to grow. -/
def KeepsIntegrity (k : Masks) (t : Sent) (op : OutputOp) : Prop :=
  Outcome (outputStep k t op) Integrity (· = .lengthError)

instance (k : Masks) (t : Sent) : DecidablePred (KeepsIntegrity k t) := fun _ ↦
  Outcome.decidable _ _ _

/-- The invariant: the channel waits for the socket exactly while something is buffered. -/
structure OutputInv (k : Masks) (s : Session) : Prop where
  live : Live s
  alive : s.conn.state = .kConnected ∨ s.conn.state = .kDisconnecting
  writing : s.conn.channel.isWriting k = true ↔ s.conn.outputBuffer.readable ≠ []

theorem OutputInv.state_ne (h : OutputInv k s) : s.conn.state ≠ .kDisconnected := by
  rcases h.alive with h | h <;> rw [h] <;> exact StateE.noConfusion

/-- A payload that finds something waiting is dropped. -/
theorem sendInLoop_of_waiting (h : OutputInv k s) (hidle : ¬Idle k s) :
    sendInLoop k s data answer = .ok s := by
  rw [sendInLoop, if_neg h.state_ne]
  have hbusy : (!s.conn.channel.isWriting k && s.conn.outputBuffer.readableBytes == 0) = false := by
    cases hwriting : s.conn.channel.isWriting k with
    | true => rfl
    | false =>
      have hne : s.conn.outputBuffer.readableBytes ≠ 0 := fun hzero ↦
        hidle ⟨hwriting, h.live.output.readableBytes_eq_zero_iff.mp hzero⟩
      exact beq_false_of_ne hne
  rw [hbusy]
  rfl

/-- What an idle connection keeps is what it is given, and it waits for the socket. -/
theorem bufferRemaining_of_idle (h : Live s) (hk : k.kWriteEvent ≠ 0) (hidle : Idle k s)
    (hlen : data.length ≤ maxSize) :
    Outcome (bufferRemaining k s data) (fun s' ↦ Live s' ∧ s'.conn.state = s.conn.state ∧
      s'.conn.channel.isWriting k = true ∧ s'.log = s.log ∧
      s'.conn.outputBuffer.readable = data) (· = .lengthError) := by
  rw [bufferRemaining]
  rcases append_spec h.output (servable_of_readable_nil h.output hidle.2 hlen) with
    ⟨b, hb, hwf, hread⟩ | herr
  · have hbuffered := (buffered_moves (k := k) (r := false) s data.length hwf).live h
    obtain ⟨s', hs', hcalled⟩ := hbuffered.channelCall (k := k) .enableWriting
    have hquiet :
        ((noteHighWater s data.length).withOutput b).conn.channel.isWriting k = false := by
      change (noteHighWater s data.length).conn.channel.isWriting k = false
      rw [noteHighWater_conn, hidle.1]
    rw [hb, bind_ok, awaitWritable, hquiet, if_pos (by decide), hs']
    refine ⟨hcalled.live hbuffered, ?_, hcalled.isWriting_enableWriting hk, ?_, ?_⟩
    · rw [hcalled.state_eq]
      change (noteHighWater s data.length).conn.state = _
      rw [noteHighWater_conn]
    · rw [hcalled.log_eq]
      exact noteHighWater_log _ _
    · rw [hcalled.same, ← List.nil_append data, ← hidle.2]
      exact hread
  · rw [herr]
    rfl

/-- A payload that finds the connection idle goes to the kernel and into the buffer. -/
theorem sendInLoop_of_idle (h : OutputInv k s) (hk : k.kWriteEvent ≠ 0) (hidle : Idle k s)
    (hlen : data.length ≤ maxSize) (hfault : faultError answer = false) :
    Outcome (sendInLoop k s data answer) (fun s' ↦ OutputInv k s' ∧
      acceptedBytes s'.log = acceptedBytes s.log ++ answer.taken data ∧
      s'.conn.outputBuffer.readable = answer.remaining data) (· = .lengthError) := by
  have hzero := h.live.output.readableBytes_eq_zero_iff.mpr hidle.2
  have hconn := directWrite_conn s data answer
  have hwrote : Live (directWrite s data answer) :=
    (directWrite_moves (k := k) (r := false) s data answer).live h.live
  have hlog : acceptedBytes (directWrite s data answer).log =
      acceptedBytes s.log ++ answer.taken data := by
    rw [directWrite_log, acceptedBytes_append, acceptedBytes_accepted]
  rw [sendInLoop, if_neg h.state_ne, hidle.1, hzero, if_pos (by decide),
    check_pos (answer.length_remaining_le data), bind_ok, hfault]
  by_cases hrest : answer.remaining data = []
  · rw [if_neg (by simp [hrest])]
    refine ⟨⟨hwrote, hconn ▸ h.alive, hconn ▸ h.writing⟩, hlog, ?_⟩
    rw [hconn, hidle.2, hrest]
  · rw [if_pos (by simp [hrest])]
    refine (bufferRemaining_of_idle hwrote hk (by rwa [Idle, hconn])
      (Nat.le_trans (answer.length_remaining_le data) hlen)).imp fun s' hs' ↦ ?_
    obtain ⟨hlive, hstate, hwriting, hlog', hread⟩ := hs'
    refine ⟨⟨hlive, by rw [hstate, hconn]; exact h.alive, ?_⟩, hlog' ▸ hlog, hread⟩
    exact iff_of_true hwriting (hread ▸ hrest)

/-- The end of a drain that leaves nothing. -/
theorem completed_moves {s₁ : Session} (h : Live s₁) (heq : s' = if s.conn.state = .kDisconnecting
      then shutdownInLoop k (noteWriteComplete s₁) else noteWriteComplete s₁) :
    Live s' ∧ s'.conn = s₁.conn ∧ acceptedBytes s'.log = acceptedBytes s₁.log := by
  have hnote : Live (noteWriteComplete s₁) :=
    (noteWriteComplete_moves (k := k) (r := false) s₁).live h
  subst heq
  split
  · refine ⟨(shutdownInLoop_moves (k := k) (r := false)).live hnote, ?_, ?_⟩
    · rw [shutdownInLoop_conn, noteWriteComplete_conn]
    · rw [acceptedBytes_shutdownInLoop, noteWriteComplete_log]
  · exact ⟨hnote, noteWriteComplete_conn _, by rw [noteWriteComplete_log]⟩

/-- A drain by a level-triggered channel moves bytes from the buffer to the kernel. -/
theorem handleWrite_LT (h : OutputInv (Masks.initDefaultEvent .LT) s) (answer : WriteResult) :
    ∃ s', handleWrite (Masks.initDefaultEvent .LT) s (fun _ ↦ answer) = .ok s' ∧
      OutputInv (Masks.initDefaultEvent .LT) s' ∧
      acceptedBytes s'.log ++ s'.conn.outputBuffer.readable =
        acceptedBytes s.log ++ s.conn.outputBuffer.readable := by
  cases hwriting : s.conn.channel.isWriting (Masks.initDefaultEvent .LT) with
  | false => exact ⟨s, handleWrite_of_not_writing hwriting, h, rfl⟩
  | true =>
    obtain ⟨w, hw, hwf, hsplit⟩ :=
      writeOutput_spec (Masks.initDefaultEvent .LT) h.live.output fun _ ↦ answer
    have hlog : acceptedBytes (wrote s w).log = acceptedBytes s.log ++ w.taken := by
      change acceptedBytes (s.log ++ [.accepted w.taken]) = _
      rw [acceptedBytes_append, acceptedBytes_accepted]
    by_cases hdone : 0 < w.ret ∧ w.buffer.readableBytes = 0
    · obtain ⟨s₁, s', hs', hcalled, heq⟩ :=
        handleWrite_of_empty h.live hwriting hw hwf hdone.1 hdone.2
      obtain ⟨hlive, hconn, hlog'⟩ := completed_moves (hcalled.live (wrote_live h.live hwf)) heq
      have hbuf : s'.conn.outputBuffer = w.buffer := by
        rw [hconn, hcalled.same]
        rfl
      have hnil : w.buffer.readable = [] := hwf.readableBytes_eq_zero_iff.mp hdone.2
      refine ⟨s', hs', ⟨hlive, ?_, ?_⟩, ?_⟩
      · rw [hconn, hcalled.state_eq]
        exact h.alive
      · rw [hconn, hcalled.isWriting_disableWriting, ← hconn, hbuf, hnil]
        exact iff_of_false Bool.false_ne_true (not_not.mpr rfl)
      · rw [hlog', hcalled.log_eq, hlog, hbuf, List.append_assoc, hsplit]
    · refine ⟨_, handleWrite_of_left hwriting hw hdone, ⟨wrote_live h.live hwf, h.alive, ?_⟩, ?_⟩
      · refine iff_of_true hwriting fun hnil ↦ hdone ?_
        have hzero := hwf.readableBytes_eq_zero_iff.mpr hnil
        obtain rfl := Option.some_inj.mp hw
        exact ⟨writeFd_ret_pos h.live.output (h.writing.mp hwriting) hzero, hzero⟩
      · rw [hlog, List.append_assoc]
        exact congrArg _ hsplit

/-- A half-close leaves the output as it is. -/
theorem shutdown_output (h : OutputInv k s) :
    OutputInv k (shutdown k s) ∧ acceptedBytes (shutdown k s).log = acceptedBytes s.log ∧
      (shutdown k s).conn.outputBuffer = s.conn.outputBuffer := by
  rw [shutdown]
  split
  · have hclosing : OutputInv k (s.setState .kDisconnecting) :=
      ⟨⟨h.live.input, h.live.output, h.live.standing⟩, Or.inr rfl, h.writing⟩
    have hconn := shutdownInLoop_conn (k := k) (s.setState .kDisconnecting)
    have hlive := (shutdownInLoop_moves (k := k) (r := false)).live hclosing.live
    refine ⟨⟨hlive, ?_, ?_⟩, ?_, ?_⟩
    · rw [hconn]
      exact hclosing.alive
    · rw [hconn]
      exact hclosing.writing
    · exact acceptedBytes_shutdownInLoop _
    · rw [hconn]
      rfl
  · exact ⟨h, rfl, rfl⟩

/-! ## Whole runs -/

variable {t t' : Sent} {op : OutputOp}

/-- The answers of a kernel whose peer is there are not the errors that `sendInLoop` gives up on. -/
theorem faultError_answerOf (answer : Option ℕ) : faultError (answerOf answer) = false := by
  cases answer <;> rfl

/-- The step lemma: an operation that sends nothing while something waits keeps the stream. -/
theorem outputStep_of_sentIdle (h : OutputInv (Masks.initDefaultEvent .LT) t.session)
    (hint : Integrity t) (hidle : SentIdle (Masks.initDefaultEvent .LT) t op) :
    Outcome (outputStep (Masks.initDefaultEvent .LT) t op)
      (fun t' ↦ OutputInv (Masks.initDefaultEvent .LT) t'.session ∧ Integrity t')
      (· = .lengthError) := by
  rw [Integrity] at hint
  cases op with
  | sendInLoop payload answer =>
    by_cases hquiet : Idle (Masks.initDefaultEvent .LT) t.session
    · refine (sendInLoop_of_idle h (Masks.kWriteEvent_ne_zero .LT) hquiet payload.length_le
        (faultError_answerOf answer)).bind fun s' hs' ↦ ?_
      obtain ⟨hinv, hlog, hread⟩ := hs'
      refine ⟨hinv, ?_⟩
      rw [hquiet.2, List.append_nil] at hint
      change t.sent ++ payload.bytes = acceptedBytes s'.log ++ s'.conn.outputBuffer.readable
      rw [hint, hlog, hread, List.append_assoc, WriteResult.taken_append_remaining]
    · have hnil : payload.bytes = [] := hidle.resolve_right hquiet
      rw [outputStep, output, sendInLoop_of_waiting h hquiet, bind_ok]
      refine ⟨h, ?_⟩
      change t.sent ++ payload.bytes = _
      rw [hnil, List.append_nil, hint]
  | handleWrite answer =>
    obtain ⟨s', hs', hinv, hread⟩ := handleWrite_LT h (answerOf answer)
    rw [outputStep, output, hs', bind_ok]
    refine ⟨hinv, ?_⟩
    change t.sent ++ [] = _
    rw [List.append_nil, hint, hread]
  | shutdown =>
    obtain ⟨hinv, hlog, hbuf⟩ := shutdown_output h
    refine ⟨hinv, ?_⟩
    change t.sent ++ [] = acceptedBytes (shutdown _ t.session).log ++
      (shutdown _ t.session).conn.outputBuffer.readable
    rw [List.append_nil, hint, hlog, hbuf]

/-- An operation that sends something while something waits does not. -/
theorem sentIdle_of_keepsIntegrity (h : OutputInv (Masks.initDefaultEvent .LT) t.session)
    (hint : Integrity t) (hkeeps : KeepsIntegrity (Masks.initDefaultEvent .LT) t op) :
    SentIdle (Masks.initDefaultEvent .LT) t op := by
  cases op with
  | sendInLoop payload answer =>
    by_cases hquiet : Idle (Masks.initDefaultEvent .LT) t.session
    · exact Or.inr hquiet
    · left
      rw [KeepsIntegrity, outputStep, output, sendInLoop_of_waiting h hquiet, bind_ok] at hkeeps
      have hsame : t.sent ++ payload.bytes =
        acceptedBytes t.session.log ++ t.session.conn.outputBuffer.readable := hkeeps
      rw [← hint] at hsame
      exact List.append_right_eq_self.mp hsame
  | handleWrite answer | shutdown => exact Or.inl rfl

/-- A connection that was just established has nothing to write. -/
theorem outputInv_established {fresh : Session} (h : Fresh fresh)
    (hest : connectEstablished (Masks.initDefaultEvent .LT) fresh [] = .ok s) :
    OutputInv (Masks.initDefaultEvent .LT) s ∧ Integrity ⟨s, []⟩ := by
  obtain ⟨s₁, hcalled, hlive, heq⟩ :=
    connectEstablished_of_fresh (k := Masks.initDefaultEvent .LT) h []
  rw [heq] at hest
  obtain rfl : s₁.record (.connectionCallback s₁.glance) = s := Except.ok.inj hest
  have hread : s₁.conn.outputBuffer.readable = [] := by
    rw [hcalled.same]
    exact h.output.2
  have hquiet : s₁.conn.channel.isWriting (Masks.initDefaultEvent .LT) = false := by
    rw [Channel.isWriting, hcalled.events]
    change ((fresh.conn.channel.events ||| (EPOLLIN ||| EPOLLPRI)) &&& EPOLLOUT != 0) = false
    rw [h.events]
    decide
  have hlog : s₁.log = [] := hcalled.log_eq.trans h.log
  refine ⟨⟨⟨hlive.input, hlive.output, hlive.standing⟩, Or.inl hcalled.state_eq, ?_⟩, ?_⟩
  · change s₁.conn.channel.isWriting _ = true ↔ s₁.conn.outputBuffer.readable ≠ []
    rw [hread, hquiet]
    exact iff_of_false Bool.false_ne_true (not_not.mpr rfl)
  · change [] = acceptedBytes (s₁.log ++ [_]) ++ s₁.conn.outputBuffer.readable
    rw [hlog, hread]
    rfl

/-- **Output stream integrity.** Along every run of sends, drains and half-closes of an established
level-triggered connection, the stream is kept whole exactly when no payload arrives while an
earlier one waits. -/
theorem integrity_iff_sentIdle {ptr : ℕ} {fd : ℤ} {wc : Bool} {hw : Option ℕ}
    {conn : TcpConnection} {poller : EpollPoller}
    (hnew : TcpConnection.new ptr fd wc hw = .ok conn) (hfresh : poller.Stands conn.channel .fresh)
    (hest : connectEstablished (Masks.initDefaultEvent .LT) (.start conn poller) [] = .ok s)
    (ops : List OutputOp) :
    Along (outputStep (Masks.initDefaultEvent .LT)) (KeepsIntegrity (Masks.initDefaultEvent .LT))
        ⟨s, []⟩ ops ↔
      Along (outputStep (Masks.initDefaultEvent .LT)) (SentIdle (Masks.initDefaultEvent .LT))
        ⟨s, []⟩ ops := by
  refine along_congr (I := fun t ↦ OutputInv (Masks.initDefaultEvent .LT) t.session ∧ Integrity t)
    (fun t op t' ht hidle hstep ↦ ?_) (fun t op ht ↦ ⟨?_, fun hidle ↦ ?_⟩)
    (outputInv_established (fresh_start hnew hfresh) hest)
  · exact (outputStep_of_sentIdle ht.1 ht.2 hidle).of_ok hstep
  · exact sentIdle_of_keepsIntegrity ht.1 ht.2
  · exact (outputStep_of_sentIdle ht.1 ht.2 hidle).imp fun _ h ↦ h.2

/-- The second payload arrives when the first is gone. -/
theorem integrity_of_drained :
    ∃ s, connectEstablished (Masks.initDefaultEvent .LT) (.start newConn .new) [] = .ok s ∧
      Along (outputStep (Masks.initDefaultEvent .LT)) (KeepsIntegrity (Masks.initDefaultEvent .LT))
        ⟨s, []⟩ [.sendInLoop ⟨[1, 2, 3], by decide⟩ (some 1), .handleWrite (some 1),
          .handleWrite none, .handleWrite (some 5), .sendInLoop ⟨[4, 5], by decide⟩ (some 1)] :=
  ⟨_, rfl, (integrity_iff_sentIdle new_eq_newConn stands_newConn rfl _).mpr (by decide +kernel)⟩

/-- One byte of three is accepted, and the payload that follows is lost. -/
theorem not_integrity_of_waiting :
    ∃ s, connectEstablished (Masks.initDefaultEvent .LT) (.start newConn .new) [] = .ok s ∧
      ¬Along (outputStep (Masks.initDefaultEvent .LT)) (KeepsIntegrity (Masks.initDefaultEvent .LT))
        ⟨s, []⟩ [.sendInLoop ⟨[1, 2, 3], by decide⟩ (some 1),
          .sendInLoop ⟨[4], by decide⟩ (some 1)] :=
  ⟨_, rfl, by decide +kernel⟩

end TcpConnection

end Twnl
