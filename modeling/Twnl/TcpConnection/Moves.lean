import Mathlib.Logic.Relation
import Twnl.Buffer.Drain
import Twnl.Buffer.Fill
import Twnl.TcpConnection.Basic

/-!
# What the handlers do to a connection

Most of what a connection does is made of a few elementary changes: a buffer changes, a functor is
queued, something leaves the connection, the state goes from connected to disconnecting, the
interest in writing is switched. `Move` lists them with the guards the source makes them under, and
each of the operations that neither close the connection nor touch its interest in reading is shown
once to be a sequence of moves. An invariant of a connection is then a matter of the moves and of
the few operations left.

## Faults

A connection that the poller knows has no trouble with it: the faults left are those of the two
buffers, and the one that stops a `send(Buffer*)` from another thread.
-/

namespace Twnl

namespace TcpConnection

open Buffer Machine Relation

/-- The faults a connection can stop with besides those of its own asserts. -/
def EnvFault (e : Fault) : Prop := BufferFault e ∨ e = .abort

/-- Where the channel stands with the poller. -/
def Session.Stands (s : Session) (st : EpollPoller.Standing) : Prop :=
  s.poller.Stands s.conn.channel st

/-- A connection whose buffers are well formed and whose channel was not removed. -/
structure Live (s : Session) : Prop where
  input : s.conn.inputBuffer.WF
  output : s.conn.outputBuffer.WF
  standing : ∃ st, st ≠ .removed ∧ s.Stands st

/-- What a setter of the channel and the update after it leave as it is, and what they change. -/
structure Called (k : Masks) (s : Session) (a : Channel.Call) (s' : Session) : Prop where
  same : s' = { s with poller := s'.poller, conn := { s.conn with channel := s'.conn.channel } }
  events : s'.conn.channel.events = (s.conn.channel.call k a).events
  ptr : s'.conn.channel.ptr = s.conn.channel.ptr
  fd : s'.conn.channel.fd = s.conn.channel.fd
  standing : ∀ st, st ≠ .removed → s.Stands st →
    s'.Stands (st.update ((s.conn.channel.call k a).isNoneEvent k))
  watched_for : ∀ event ∈ s'.poller.interest s'.conn.channel.fd,
    event = (s'.conn.channel.events, s'.conn.channel.ptr)

variable {k : Masks} {r : Bool} {s s' s'' : Session} {a : Channel.Call} {st : EpollPoller.Standing}

/-- The setters of a channel that was not removed return. -/
theorem channelCall_spec (h : s.Stands st) (hst : st ≠ .removed) :
    ∃ s', s.channelCall k a = .ok s' ∧ Called k s a s' := by
  have hstands : ∀ st', s.Stands st' ↔ s.poller.Stands (s.conn.channel.call k a) st' := fun _ ↦
    (EpollPoller.stands_congr (Channel.call_ptr k _ a) (Channel.call_fd k _ a)
      (Channel.call_index k _ a)).symm
  obtain ⟨p, i, hupd, hp, hfor⟩ :=
    EpollPoller.updateChannel_spec (k := k) ((hstands st).mp h) hst
  refine ⟨{ s with
    poller := p, conn := { s.conn with channel := { s.conn.channel.call k a with index := i } } },
    ?_, rfl, rfl, Channel.call_ptr k _ a, Channel.call_fd k _ a, ?_, hfor⟩
  · rw [Session.channelCall, hupd]
    rfl
  · intro st' hst' h'
    obtain ⟨p', i', hupd', hp', -⟩ :=
      EpollPoller.updateChannel_spec (k := k) ((hstands st').mp h') hst'
    rw [hupd, Except.ok.injEq, Prod.mk.injEq] at hupd'
    obtain ⟨hpp, hii⟩ := hupd'
    rw [← hpp, ← hii] at hp'
    exact hp'

theorem Live.channelCall (h : Live s) (a : Channel.Call) :
    ∃ s', s.channelCall k a = .ok s' ∧ Called k s a s' :=
  let ⟨_, hst, hs⟩ := h.standing
  channelCall_spec hs hst

theorem Called.of_ok (h : Live s) (hs' : s.channelCall k a = .ok s') : Called k s a s' := by
  obtain ⟨t, ht, hcalled⟩ := h.channelCall (k := k) a
  rw [hs', Except.ok.injEq] at ht
  exact ht ▸ hcalled

theorem Called.state_eq (h : Called k s a s') : s'.conn.state = s.conn.state := by rw [h.same]

theorem Called.log_eq (h : Called k s a s') : s'.log = s.log := by rw [h.same]

theorem Called.reading_eq (h : Called k s a s') : s'.conn.reading = s.conn.reading := by
  rw [h.same]

theorem Called.live (h : Called k s a s') (hs : Live s) : Live s' := by
  obtain ⟨st, hst, hstands⟩ := hs.standing
  refine ⟨by rw [h.same]; exact hs.input, by rw [h.same]; exact hs.output, _, ?_,
    h.standing st hst hstands⟩
  cases st with
  | fresh | disabled => exact EpollPoller.Standing.noConfusion
  | added =>
    rw [EpollPoller.Standing.update]
    split <;> exact EpollPoller.Standing.noConfusion
  | removed => exact absurd rfl hst

/-! ## Moves -/

/-- The effects other than the callbacks of the connection's ends. -/
def Effect.Plain : Effect → Prop
  | accepted _ | shutdownWrite | messageCallback _ _ => True
  | connectionCallback _ | closeCallback _ => False

/-- The functors that leave the interest in reading alone. -/
def Functor.isPlain : Functor → Bool
  | sendInLoop _ | shutdownInLoop | forceCloseInLoop | writeCompleteCallback
  | highWaterMarkCallback _ => true
  | startReadInLoop | stopReadInLoop => false

/-- The elementary changes, each with its guard. Whether calls that switch reading on and off are
among them depends on `r`; on a closed connection only a `stopRead` after a `stopRead` is. -/
inductive Move (k : Masks) (r : Bool) (s : Session) : Session → Prop
  | output {b : Buffer} (h : b.WF) : Move k r s (s.withOutput b)
  | input {b : Buffer} (h : b.WF) : Move k r s (s.withInput b)
  | queue {f : Functor} (h : f.isPlain = true) : Move k r s (s.queueInLoop f)
  | queueReading (h : r = true) (f : Functor) : Move k r s (s.queueInLoop f)
  | dequeue {f : Functor} {fs : List Functor} (h : s.pendingFunctors = f :: fs) :
      Move k r s { s with pendingFunctors := fs }
  | record {e : Effect} (h : e.Plain) : Move k r s (s.record e)
  | revents (revents : Mask) : Move k r s (s.withRevents revents)
  | calls (calls queueing : List UserCall) :
      Move k r s { s with calls := calls, queueing := queueing }
  | halfClose (h : s.conn.state = .kConnected ∨ s.conn.state = .kDisconnecting) :
      Move k r s (s.setState .kDisconnecting)
  | enableWriting {s' : Session} (h : s.conn.state ≠ .kDisconnected)
      (hcall : s.channelCall k .enableWriting = .ok s') : Move k r s s'
  | disableWriting {s' : Session} (h : s.conn.channel.isWriting k = true)
      (hcall : s.channelCall k .disableWriting = .ok s') : Move k r s s'
  | startRead {s' : Session} (hr : r = true) (h : s.conn.state ≠ .kDisconnected)
      (hcall : s.channelCall k .enableReading = .ok s') : Move k r s (s'.withReading true)
  | stopRead {s' : Session} (hr : r = true)
      (h : s.conn.state ≠ .kDisconnected ∨ s.conn.reading = false)
      (hread : s.conn.reading = true ∨ s.conn.channel.isReading k = true)
      (hcall : s.channelCall k .disableReading = .ok s') : Move k r s (s'.withReading false)

/-- Any number of moves. -/
abbrev Moves (k : Masks) (r : Bool) : Session → Session → Prop := ReflTransGen (Move k r)

theorem Move.live (h : Move k r s s') (hs : Live s) : Live s' := by
  have hkeep : ∀ {t : Session}, t.conn.inputBuffer.WF → t.conn.outputBuffer.WF →
      t.poller = s.poller → t.conn.channel.ptr = s.conn.channel.ptr →
      t.conn.channel.fd = s.conn.channel.fd → t.conn.channel.index = s.conn.channel.index →
      Live t := by
    intro t hin hout hpoller hptr hfd hindex
    obtain ⟨st, hst, hstands⟩ := hs.standing
    refine ⟨hin, hout, st, hst, ?_⟩
    rw [Session.Stands, hpoller]
    exact (EpollPoller.stands_congr hptr hfd hindex).mpr hstands
  cases h with
  | output h => exact hkeep hs.input h rfl rfl rfl rfl
  | input h => exact hkeep h hs.output rfl rfl rfl rfl
  | queue _ | queueReading _ _ | dequeue _ | record _ | revents _ | calls _ _ | halfClose _ =>
    exact hkeep hs.input hs.output rfl rfl rfl rfl
  | enableWriting _ hcall | disableWriting _ hcall => exact (Called.of_ok hs hcall).live hs
  | startRead _ _ hcall | stopRead _ _ _ hcall =>
    have hlive := (Called.of_ok hs hcall).live hs
    exact ⟨hlive.input, hlive.output, hlive.standing⟩

/-- No move closes a connection, and none touches the interest in reading of a closed one. -/
theorem Move.closed (h : Move k r s s') (hs : Live s) :
    (s'.conn.state = .kDisconnected ↔ s.conn.state = .kDisconnected) ∧
      (s.conn.state = .kDisconnected → s'.conn.reading = s.conn.reading) := by
  cases h with
  | output _ | input _ | queue _ | queueReading _ _ | dequeue _ | record _ | revents _
  | calls _ _ => exact ⟨Iff.rfl, fun _ ↦ rfl⟩
  | halfClose h =>
    have hne : s.conn.state ≠ .kDisconnected := by
      rcases h with h | h <;> rw [h] <;> exact StateE.noConfusion
    exact ⟨iff_of_false StateE.noConfusion hne, fun hclosed ↦ absurd hclosed hne⟩
  | enableWriting _ hcall | disableWriting _ hcall =>
    have hcalled := Called.of_ok hs hcall
    exact ⟨by rw [hcalled.state_eq], fun _ ↦ hcalled.reading_eq⟩
  | @startRead t _ h hcall =>
    have hcalled := Called.of_ok hs hcall
    refine ⟨?_, fun hclosed ↦ absurd hclosed h⟩
    change t.conn.state = _ ↔ _
    rw [hcalled.state_eq]
  | @stopRead t _ h _ hcall =>
    have hcalled := Called.of_ok hs hcall
    refine ⟨?_, fun hclosed ↦ (h.resolve_left (not_not.mpr hclosed)).symm⟩
    change t.conn.state = _ ↔ _
    rw [hcalled.state_eq]

/-- An invariant of the moves is one of any number of them. -/
theorem Moves.inv {I : Session → Prop}
    (hmove : ∀ s s', I s → Move k r s s' → I s') (h : Moves k r s s') (hs : I s) : I s' := by
  induction h with
  | refl => exact hs
  | tail _ hlast ih => exact hmove _ _ ih hlast

theorem Moves.live (h : Moves k r s s') (hs : Live s) : Live s' :=
  h.inv (fun _ _ hs hmove ↦ hmove.live hs) hs

theorem Moves.closed (h : Moves k r s s') (hs : Live s) :
    (s'.conn.state = .kDisconnected ↔ s.conn.state = .kDisconnected) ∧
      (s.conn.state = .kDisconnected → s'.conn.reading = s.conn.reading) := by
  induction h with
  | refl => exact ⟨Iff.rfl, fun _ ↦ rfl⟩
  | tail hfirst hlast ih =>
    obtain ⟨hstate, hreading⟩ := hlast.closed (Moves.live hfirst hs)
    exact ⟨hstate.trans ih.1, fun hclosed ↦ (hreading (ih.1.mpr hclosed)).trans (ih.2 hclosed)⟩

/-- The rule for a run all of whose steps keep an invariant. -/
theorem outcome_run {σ ι : Type} {step : σ → ι → Except Fault σ} {I : σ → Prop} {Q : σ → ι → Prop}
    {E : Fault → Prop} (hstep : ∀ s i, I s → Q s i → Outcome (step s i) I E) {s : σ} {is : List ι}
    (hs : I s) (hQ : Along step Q s is) : Outcome (run step s is) I E := by
  induction is generalizing s with
  | nil => exact hs
  | cons i is ih =>
    obtain ⟨hi, hrest⟩ := along_cons.mp hQ
    have hone := hstep s i hs hi
    rw [run]
    cases hstep' : step s i with
    | ok t =>
      rw [hstep'] at hone
      exact ih hone (hrest t hstep')
    | error e =>
      rw [hstep'] at hone
      exact hone

/-! ## The operations made of moves -/

variable {data : List Byte} {answer : WriteResult} {env : Env}

theorem shutdownInLoop_moves : Moves k r s (shutdownInLoop k s) := by
  rw [shutdownInLoop]
  split
  · exact .single (.record trivial)
  · exact .refl

theorem queueInLoop_moves {f : Functor} (hf : f.isPlain = true) : Moves k r s (s.queueInLoop f) :=
  .single (.queue hf)

@[simp] theorem noteHighWater_conn (s : Session) (len : ℕ) :
    (noteHighWater s len).conn = s.conn := by
  rw [noteHighWater]
  split <;> rfl

theorem noteHighWater_moves (s : Session) (len : ℕ) : Moves k r s (noteHighWater s len) := by
  rw [noteHighWater]
  split
  · exact queueInLoop_moves rfl
  · exact .refl

@[simp] theorem noteWriteComplete_conn (s : Session) : (noteWriteComplete s).conn = s.conn := by
  rw [noteWriteComplete]
  split <;> rfl

theorem noteWriteComplete_moves (s : Session) : Moves k r s (noteWriteComplete s) := by
  rw [noteWriteComplete]
  split
  · exact queueInLoop_moves rfl
  · exact .refl

@[simp] theorem directWrite_conn (s : Session) (data : List Byte) (answer : WriteResult) :
    (directWrite s data answer).conn = s.conn := by
  rw [directWrite]
  split
  · rw [noteWriteComplete_conn]
    rfl
  · rfl

theorem directWrite_moves (s : Session) (data : List Byte) (answer : WriteResult) :
    Moves k r s (directWrite s data answer) := by
  have hwrote : Moves k r s (s.record (.accepted (answer.taken data))) := .single (.record trivial)
  rw [directWrite]
  split
  · exact hwrote.trans (noteWriteComplete_moves _)
  · exact hwrote

theorem awaitWritable_moves (h : Live s) (hstate : s.conn.state ≠ .kDisconnected) :
    Outcome (awaitWritable k s) (Moves k r s) EnvFault := by
  rw [awaitWritable]
  split
  · obtain ⟨s', hs', -⟩ := h.channelCall (k := k) .enableWriting
    rw [hs']
    exact ReflTransGen.single (.enableWriting hstate hs')
  · exact ReflTransGen.refl

/-- A new output buffer, with the note that goes with it. -/
theorem buffered_moves (s : Session) (len : ℕ) {b : Buffer} (hb : b.WF) :
    Moves k r s ((noteHighWater s len).withOutput b) :=
  (noteHighWater_moves s len).tail (.output hb)

/-- Buffering what the kernel did not take. -/
theorem bufferRemaining_moves (h : Live s) (hstate : s.conn.state ≠ .kDisconnected)
    (remaining : List Byte) : Outcome (bufferRemaining k s remaining) (Moves k r s) EnvFault := by
  rw [bufferRemaining]
  refine Outcome.bind (P := fun b ↦ b.WF) (outcome_of (fun b hb ↦ (append_ok h.output hb).1)
    fun e he ↦ Or.inl (append_error he)) fun b hb ↦ ?_
  have hbuf := buffered_moves (k := k) (r := r) s remaining.length hb
  refine (awaitWritable_moves (hbuf.live h) ?_).imp fun _ hrest ↦ hbuf.trans hrest
  change (noteHighWater s _).conn.state ≠ _
  rw [noteHighWater_conn]
  exact hstate

theorem sendInLoop_moves (h : Live s) :
    Outcome (sendInLoop k s data answer) (Moves k r s) EnvFault := by
  rw [sendInLoop]
  by_cases hstate : s.conn.state = .kDisconnected
  · rw [if_pos hstate]
    exact ReflTransGen.refl
  · rw [if_neg hstate]
    split
    · have hwrote : Moves k r s (directWrite s data answer) := directWrite_moves s data answer
      rw [check_pos (answer.length_remaining_le data), bind_ok]
      split
      · refine (bufferRemaining_moves (hwrote.live h) ?_ _).imp fun _ hrest ↦ hwrote.trans hrest
        rw [directWrite_conn]
        exact hstate
      · exact hwrote
    · exact ReflTransGen.refl

/-! ## The calls of users -/

theorem startReadInLoop_moves (h : Live s) (hr : r = true)
    (hstate : s.conn.state ≠ .kDisconnected) :
    Outcome (startReadInLoop k s) (Moves k r s) EnvFault := by
  rw [startReadInLoop]
  split
  · obtain ⟨s', hs', -⟩ := h.channelCall (k := k) .enableReading
    rw [hs', bind_ok]
    exact ReflTransGen.single (.startRead hr hstate hs')
  · exact ReflTransGen.refl

theorem stopReadInLoop_moves (h : Live s) (hr : r = true)
    (hstate : s.conn.state ≠ .kDisconnected ∨ s.conn.reading = false) :
    Outcome (stopReadInLoop k s) (Moves k r s) EnvFault := by
  rw [stopReadInLoop]
  split
  · rename_i hread
    obtain ⟨s', hs', -⟩ := h.channelCall (k := k) .disableReading
    rw [hs', bind_ok]
    exact ReflTransGen.single (.stopRead hr hstate (Bool.or_eq_true_iff.mp hread) hs')
  · exact ReflTransGen.refl

namespace UserCall

/-- The calls that leave the interest in reading alone. -/
def isPlain : UserCall → Bool
  | send _ _ | sendBuffer _ _ | shutdown | forceClose => true
  | startRead | stopRead => false

/-- The calls that do nothing to a closed connection whose `reading_` is as given. -/
def harmless (reading : Bool) : UserCall → Bool
  | send _ _ | sendBuffer _ _ | shutdown | forceClose => true
  | startRead => false
  | stopRead => !reading

/-- The calls made of moves. -/
def Allowed (r : Bool) (s : Session) (c : UserCall) : Prop :=
  c.isPlain = true ∨
    r = true ∧ (s.conn.state = .kDisconnected → c.harmless s.conn.reading = true)

theorem Allowed.of_moves {c : UserCall} (hc : c.Allowed r s) (h : Moves k r s s') (hs : Live s) :
    c.Allowed r s' := by
  obtain ⟨hstate, hreading⟩ := h.closed hs
  refine hc.imp_right fun ⟨hr, hharmless⟩ ↦ ⟨hr, fun hclosed ↦ ?_⟩
  have hclosed' := hstate.mp hclosed
  rw [hreading hclosed']
  exact hharmless hclosed'

end UserCall

/-- A call on the loop's own thread. -/
theorem userCall_moves (h : Live s) {c : UserCall} (hc : c.Allowed r s) :
    Outcome (userCall k s c) (Moves k r s) EnvFault := by
  cases c with
  | send data answer =>
    rw [userCall, send]
    split
    · exact sendInLoop_moves h
    · exact ReflTransGen.refl
  | sendBuffer data answer => exact sendInLoop_moves h
  | shutdown =>
    change Moves k r s (shutdown k s)
    rw [shutdown]
    split
    · rename_i hstate
      exact ReflTransGen.trans (.single (.halfClose (Or.inl hstate))) shutdownInLoop_moves
    · exact .refl
  | forceClose =>
    change Moves k r s (forceClose s)
    rw [forceClose]
    split
    · rename_i hstate
      exact ReflTransGen.trans (.single (.halfClose hstate)) (queueInLoop_moves rfl)
    · exact .refl
  | startRead =>
    obtain ⟨hr, hstate⟩ := hc.resolve_left Bool.false_ne_true
    exact startReadInLoop_moves h hr fun hclosed ↦ Bool.false_ne_true (hstate hclosed)
  | stopRead =>
    obtain ⟨hr, hstate⟩ := hc.resolve_left Bool.false_ne_true
    refine stopReadInLoop_moves h hr ?_
    by_cases hclosed : s.conn.state = .kDisconnected
    · exact Or.inr (Bool.not_eq_true' _ ▸ hstate hclosed)
    · exact Or.inl hclosed

theorem inCallback_moves (h : Live s) {calls : List UserCall}
    (hcalls : ∀ c ∈ calls, c.Allowed r s) :
    Outcome (inCallback k s calls) (Moves k r s) EnvFault :=
  outcome_run (I := Moves k r s) (Q := fun _ c ↦ c.Allowed r s)
    (fun _ _ ht hc ↦ (userCall_moves (ht.live h) (hc.of_moves ht h)).imp
      fun _ hrest ↦ ht.trans hrest)
    .refl (along_of_forall hcalls)

/-- A call from another thread looks at the state. -/
theorem callBegins_moves (s : Session) (c : UserCall) :
    Outcome (callBegins s c) (Moves k r s) EnvFault := by
  have hbegun : Moves k r s
      (if c.passes s.conn.state then { s with calls := c :: s.calls } else s) := by
    split
    · exact .single (.calls (c :: s.calls) s.queueing)
    · exact .refl
  cases c with
  | sendBuffer data answer => exact Or.inr rfl
  | send _ _ | shutdown | forceClose | startRead | stopRead => exact hbegun

/-- What a call from another thread queues has to be allowed only when it runs. -/
theorem callEnds_moves (s : Session) {c : UserCall} (hc : c.isPlain = true ∨ r = true) :
    Moves k r s (callEnds s c) := by
  rw [callEnds]
  split
  · have hqueued : Moves k r s (s.queueInLoop c.functor) := by
      rcases hc with hplain | hr
      · refine .single (.queue ?_)
        cases c with
        | send _ _ | sendBuffer _ _ | shutdown | forceClose => rfl
        | startRead | stopRead => exact absurd hplain Bool.false_ne_true
      · exact .single (.queueReading hr _)
    exact hqueued.tail (.calls s.calls (s.queueing.erase c))
  · exact .refl

/-! ## Handlers -/

theorem messageCallback_moves (h : Live s) (hcalls : ∀ c ∈ env.onMessage, c.Allowed r s) :
    Outcome (messageCallback k s env) (Moves k r s) EnvFault := by
  rw [messageCallback]
  refine Outcome.bind (P := fun b ↦ b.WF) ?_ fun b hb ↦ ?_
  · refine outcome_of (fun b hb ↦ ?_) fun e he ↦ Or.inl ((retrieve_error he).2 ▸ Or.inl rfl)
    have hlen : env.consumed ≤ s.conn.inputBuffer.readableBytes := by
      obtain ⟨_, hcheck, -⟩ := bind_eq_ok.mp hb
      exact check_eq_ok.mp hcheck
    obtain ⟨b', hb', hwf, -⟩ := retrieve_spec h.input hlen
    rw [hb', Except.ok.injEq] at hb
    exact hb ▸ hwf
  · have hrecord :
        Move k r s (s.record (.messageCallback s.conn.inputBuffer.readable env.consumed)) :=
      .record trivial
    have hoffered : Moves k r s
        ((s.record (.messageCallback s.conn.inputBuffer.readable env.consumed)).withInput b) :=
      .tail (.single hrecord) (.input hb)
    exact (inCallback_moves (hoffered.live h) fun c hc ↦ (hcalls c hc).of_moves hoffered h).imp
      fun _ hrest ↦ hoffered.trans hrest

/-- The write helpers end, and move a front of what there was. -/
theorem writeOutput_spec (k : Masks) {b : Buffer} (h : b.WF) (writes : ℕ → WriteResult) :
    ∃ w, writeOutput k b writes = some w ∧ w.buffer.WF ∧
      w.taken ++ w.buffer.readable = b.readable := by
  rw [writeOutput]
  split
  · have hfuel : b.readable.length < b.readableBytes + 1 := by
      rw [h.length_readable]
      exact Nat.lt_succ_self _
    obtain ⟨w, moved, hw, hwf, htaken, hsplit⟩ := writeFdETLoop_spec h 0 none [] _ hfuel
    exact ⟨w, hw, hwf, by rw [htaken, List.nil_append, hsplit]⟩
  · obtain ⟨hwf, hread, htaken, -⟩ := writeFd_spec h (writes 0) none
    exact ⟨_, rfl, hwf, by rw [htaken, hread, List.take_append_drop]⟩

theorem wrote_moves {w : Written} (hwf : w.buffer.WF) : Moves k r s (wrote s w) :=
  .tail (.single (.output hwf)) (.record (e := .accepted w.taken) trivial)

theorem wrote_live {w : Written} (h : Live s) (hwf : w.buffer.WF) : Live (wrote s w) :=
  ⟨h.input, hwf, h.standing⟩

/-- What follows the last byte is that the interest in writing is gone, that the callback is queued
if it is set, and that the socket is shut down if that was waited for. -/
theorem writeComplete_spec (h : Live s) :
    ∃ s' s₁, writeComplete k s = .ok s' ∧ s.channelCall k .disableWriting = .ok s₁ ∧
      Called k s .disableWriting s₁ ∧ s' = (if s.conn.state = .kDisconnecting
        then shutdownInLoop k (noteWriteComplete s₁) else noteWriteComplete s₁) := by
  obtain ⟨s₁, hs₁, hcalled⟩ := h.channelCall (k := k) .disableWriting
  refine ⟨_, s₁, ?_, hs₁, hcalled, rfl⟩
  rw [writeComplete, hs₁, bind_ok, hcalled.state_eq]
  split <;> rfl

theorem handleWrite_moves (h : Live s) (writes : ℕ → WriteResult) :
    Outcome (handleWrite k s writes) (Moves k r s) EnvFault := by
  rw [handleWrite]
  split
  · rename_i hwriting
    obtain ⟨w, hw, hwf, -⟩ := writeOutput_spec k h.output writes
    have hwrote : Moves k r s (wrote s w) := wrote_moves hwf
    rw [hw]
    change Outcome (if _ then _ else _) _ _
    split
    · obtain ⟨s', s₁, hs', hs₁, -, heq⟩ := writeComplete_spec (k := k) (hwrote.live h)
      have hdisabled : Moves k r s s₁ := hwrote.tail (.disableWriting hwriting hs₁)
      rw [hs', heq]
      change Moves k r s (if _ then _ else _)
      split
      · exact (hdisabled.trans (noteWriteComplete_moves _)).trans shutdownInLoop_moves
      · exact hdisabled.trans (noteWriteComplete_moves _)
    · exact hwrote
  · exact ReflTransGen.refl

/-! ## A new connection -/

/-- A connection as its constructor leaves it, for a descriptor that the poller does not know. -/
structure Fresh (s : Session) : Prop where
  state : s.conn.state = .kConnecting
  reading : s.conn.reading = true
  events : s.conn.channel.events = 0
  input : s.conn.inputBuffer.WF ∧ s.conn.inputBuffer.readable = []
  output : s.conn.outputBuffer.WF ∧ s.conn.outputBuffer.readable = []
  standing : s.Stands .fresh
  log : s.log = []
  pendingFunctors : s.pendingFunctors = []

theorem Fresh.live (h : Fresh s) : Live s :=
  ⟨h.input.1, h.output.1, .fresh, EpollPoller.Standing.noConfusion, h.standing⟩

theorem fresh_start {ptr : ℕ} {fd : ℤ} {wc : Bool} {hw : Option ℕ} {conn : TcpConnection}
    {poller : EpollPoller} (hnew : TcpConnection.new ptr fd wc hw = .ok conn)
    (hfresh : poller.Stands conn.channel .fresh) : Fresh (.start conn poller) := by
  obtain ⟨input, hinput, hnew⟩ := bind_eq_ok.mp hnew
  obtain ⟨output, houtput, hnew⟩ := bind_eq_ok.mp hnew
  rw [Except.ok.injEq] at hnew
  subst hnew
  obtain ⟨hin, hinread, -⟩ := Buffer.new_spec hinput
  obtain ⟨hout, houtread, -⟩ := Buffer.new_spec houtput
  exact ⟨rfl, rfl, rfl, ⟨hin, hinread⟩, ⟨hout, houtread⟩, hfresh, rfl, rfl⟩

/-- The masks of level-triggered mode. -/
abbrev levelMasks : Masks := Masks.initDefaultEvent .LT

/-- A new connection, for the descriptor 5. -/
def newConn : TcpConnection where
  state := .kConnecting
  reading := true
  channel := .new 0 5
  writeCompleteCallback := false
  highWaterMarkCallback := false
  highWaterMark := 64 * 1024 * 1024
  inputBuffer := ⟨List.replicate 1024 0, 0, 0⟩
  outputBuffer := ⟨List.replicate 1024 0, 0, 0⟩

theorem new_eq_newConn : TcpConnection.new 0 5 false none = .ok newConn := rfl

theorem stands_newConn : EpollPoller.new.Stands newConn.channel .fresh := ⟨rfl, rfl, rfl⟩

/-- Establishing a new connection enables reading and runs the callback. -/
theorem connectEstablished_of_fresh (h : Fresh s) (calls : List UserCall) :
    ∃ s₁, Called k (s.setState .kConnected) .enableReading s₁ ∧ Live s₁ ∧
      connectEstablished k s calls = connectionCallback k s₁ calls := by
  have hlive : Live (s.setState .kConnected) := ⟨h.live.input, h.live.output, h.live.standing⟩
  obtain ⟨s₁, hs₁, hcalled⟩ := hlive.channelCall (k := k) .enableReading
  refine ⟨s₁, hcalled, hcalled.live hlive, ?_⟩
  rw [connectEstablished, check_pos h.state, bind_ok, hs₁, bind_ok]

end TcpConnection

end Twnl
