import Twnl.TcpConnection.Stream

/-!
# The two ways to send

`send(const void*, size_t)` sends on a connected connection only and goes through `runInLoop`, so
that a call from another thread is carried out by the loop. `send(Buffer*)` calls `sendInLoop` on
the spot. It asks for no state, so that it writes to a socket that was half closed or is not yet
established, and from another thread it does not come back. The two do the same exactly in the loop,
on a connection that is connected, or closed, or has something waiting (`agrees_iff`).
-/

namespace Twnl

namespace TcpConnection

/-- `send(Buffer*)`, and the buffer it leaves. -/
def sendFrom (k : Masks) (s : Session) (thread : Thread) (b : Buffer) (answer : WriteResult) :
    Except Fault (Session × Buffer) := do
  let s' ← sendBuffer k s thread b.readable answer
  .ok (s', b.retrieveAll)

/-- `send(Buffer*)` leaves the connection as `send` does of what was readable, and the buffer empty,
or both stop with the same fault. -/
def Agrees (k : Masks) (s : Session) (thread : Thread) (b : Buffer) (answer : WriteResult) : Prop :=
  match sendFrom k s thread b answer, send k s thread b.readable answer with
  | .ok (s', rest), .ok t => s' = t ∧ rest.readableBytes = 0
  | .error e, .error e' => e = e'
  | .ok _, .error _ | .error _, .ok _ => False

variable {k : Masks} {s s' : Session} {thread : Thread} {b : Buffer} {data : List Byte}
  {answer : WriteResult}

@[simp] theorem readableBytes_retrieveAll (b : Buffer) : b.retrieveAll.readableBytes = 0 := by
  have h : (0 + (sizeModulus - 0)) % sizeModulus = 0 := by decide
  exact h

/-- Where the two calls come to the same, they agree. -/
theorem agrees_of_eq
    (h : sendBuffer k s thread b.readable answer = send k s thread b.readable answer) :
    Agrees k s thread b answer := by
  rw [Agrees, sendFrom, h]
  cases send k s thread b.readable answer with
  | ok t =>
    rw [bind_ok]
    exact ⟨rfl, readableBytes_retrieveAll b⟩
  | error e => rfl

/-- A call that `send` ignores, and that `send(Buffer*)` does not leave the session at, is one on
which they differ. -/
theorem not_agrees_of_ne (hsend : send k s thread b.readable answer = .ok s)
    (hne : sendBuffer k s thread b.readable answer ≠ .ok s) : ¬Agrees k s thread b answer := by
  intro hagrees
  rw [Agrees, sendFrom, hsend] at hagrees
  cases hbuffer : sendBuffer k s thread b.readable answer with
  | ok s' =>
    rw [hbuffer, bind_ok] at hagrees
    obtain ⟨rfl, -⟩ := hagrees
    exact hne hbuffer
  | error e =>
    rw [hbuffer, bind_error] at hagrees
    exact hagrees

/-! ## What a direct write leaves behind -/

theorem log_of_channelCall {a : Channel.Call} (h : s.channelCall k a = .ok s') :
    s'.log = s.log := by
  obtain ⟨_, -, h⟩ := bind_eq_ok.mp h
  rw [← Except.ok.inj h]

theorem log_of_bufferRemaining (h : bufferRemaining k s data = .ok s') : s'.log = s.log := by
  obtain ⟨b, -, h⟩ := bind_eq_ok.mp h
  have hbuffered : ((noteHighWater s data.length).withOutput b).log = s.log :=
    noteHighWater_log s data.length
  rw [awaitWritable] at h
  split at h
  · exact (log_of_channelCall h).trans hbuffered
  · rw [← Except.ok.inj h]
    exact hbuffered

/-- A direct write is a write, even of no bytes. -/
theorem log_of_sendInLoop (hstate : s.conn.state ≠ .kDisconnected)
    (hidle : (!s.conn.channel.isWriting k && s.conn.outputBuffer.readableBytes == 0) = true)
    (h : sendInLoop k s data answer = .ok s') :
    s'.log = s.log ++ [.accepted (answer.taken data)] := by
  rw [sendInLoop, if_neg hstate, if_pos hidle] at h
  obtain ⟨_, -, h⟩ := bind_eq_ok.mp h
  rw [← directWrite_log]
  split at h
  · exact log_of_bufferRemaining h
  · exact congrArg Session.log (Except.ok.inj h).symm

theorem sendInLoop_ne_self (hstate : s.conn.state ≠ .kDisconnected)
    (hidle : (!s.conn.channel.isWriting k && s.conn.outputBuffer.readableBytes == 0) = true) :
    sendInLoop k s data answer ≠ .ok s := by
  intro h
  have hlog := congrArg List.length (log_of_sendInLoop hstate hidle h)
  simp at hlog

/-! ## When the two agree -/

/-- A connection with something to write leaves the socket alone. -/
theorem sendInLoop_of_busy
    (hbusy : s.conn.channel.isWriting k = true ∨ s.conn.outputBuffer.readableBytes ≠ 0) :
    sendInLoop k s data answer = .ok s := by
  have hnot : (!s.conn.channel.isWriting k && s.conn.outputBuffer.readableBytes == 0) = false := by
    rcases hbusy with hwriting | hbytes
    · simp [hwriting]
    · simp [hbytes]
  rw [sendInLoop, hnot]
  split
  · rfl
  · rfl

/-- **The overloads.** For every connection, thread, buffer and answer of the kernel, the two agree
exactly in the loop, on a connection that is connected, or is disconnected, or has something waiting
to be written. -/
theorem agrees_iff : Agrees k s thread b answer ↔
    thread = .loop ∧ (s.conn.state = .kConnected ∨ s.conn.state = .kDisconnected ∨
      s.conn.channel.isWriting k = true ∨ s.conn.outputBuffer.readableBytes ≠ 0) := by
  cases thread with
  | other =>
    refine iff_of_false (fun hagrees ↦ ?_) fun h ↦ absurd h.1 (by decide)
    -- one of them aborts, and the other never does
    obtain ⟨t, ht⟩ : ∃ t, send k s .other b.readable answer = .ok t := by
      rw [send]
      split
      · exact ⟨_, rfl⟩
      · exact ⟨_, rfl⟩
    rw [Agrees, ht] at hagrees
    exact hagrees
  | loop =>
    rw [and_iff_right rfl]
    by_cases hconnected : s.conn.state = .kConnected
    · refine iff_of_true (agrees_of_eq ?_) (Or.inl hconnected)
      rw [send, if_pos hconnected]
      rfl
    · have hsend : send k s .loop b.readable answer = .ok s := if_neg hconnected
      by_cases hdone : s.conn.state = .kDisconnected
      · refine iff_of_true (agrees_of_eq ?_) (Or.inr (Or.inl hdone))
        rw [hsend, sendBuffer, sendInLoop, if_pos hdone]
      · rw [or_iff_right hconnected, or_iff_right hdone]
        constructor
        · intro hagrees
          by_contra hquiet
          have hidle :
              (!s.conn.channel.isWriting k && s.conn.outputBuffer.readableBytes == 0) = true := by
            simpa using hquiet
          exact not_agrees_of_ne hsend (sendInLoop_ne_self hdone hidle) hagrees
        · intro hbusy
          refine agrees_of_eq ?_
          rw [hsend, sendBuffer]
          exact sendInLoop_of_busy hbusy

/-- Another thread has called `shutdown`, and its functor is still queued: a byte in a buffer is
written to the socket, and the same byte by itself is not. -/
theorem not_agrees_of_half_closed :
    ∃ s s', connectEstablished levelMasks (.start newConn .new) [] = .ok s ∧
      Machine.run (step levelMasks) s
        [.callBegins .shutdown, .callSets .shutdown, .callEnds .shutdown] = .ok s' ∧
      s'.pendingFunctors = [.shutdownInLoop] ∧
      ¬Agrees levelMasks s' .loop ⟨[1], 0, 1⟩ (.accepts 1) := by
  refine ⟨_, _, rfl, rfl, rfl, fun hagrees ↦ ?_⟩
  have hlog := congrArg Session.log hagrees.1
  exact absurd hlog (by decide)

end TcpConnection

end Twnl
