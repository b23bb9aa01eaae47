import Twnl.TcpConnection.Lifecycle
import Twnl.TcpConnection.Stream

/-!
# The echo server

The message callback of the example takes everything out of the input buffer and sends it back. The
loop of the example uses epoll, and its channels are level-triggered.

A connection of the server drops a message that it reads while an earlier one waits to be written.
What the peer gets is therefore not always what it sent, but it is always made of whole messages in
their order: nothing is torn apart, doubled or reordered, whatever the events and whatever the
kernel answers (`echoes_whole`). All of it comes back exactly when each message is read by a
connection that is up and idle (`echoes_iff`).
-/

namespace Twnl

namespace EchoServer

open Buffer Machine TcpConnection WriteResult

/-- `EchoServer::onMessage`. -/
def onMessage (k : Masks) (s : Session) (answer : WriteResult) : Except Fault Session := do
  let (msg, inputBuffer) ← s.conn.inputBuffer.retrieveAllAsString
  send k ((s.record (.messageCallback s.conn.inputBuffer.readable msg.length)).withInput
    inputBuffer) .loop msg answer

/-- What the kernel supplies to a dispatch: the mask, and the answers to the read, to the write of
the echo and to the write of `handleWrite`. -/
structure Dispatch where
  revents : Mask
  read : ReadResult
  answer : WriteResult
  write : WriteResult
  deriving DecidableEq, Repr

/-- The bytes that the read delivers. -/
def Dispatch.data (d : Dispatch) : List Byte :=
  match d.read with
  | .data bytes => bytes
  | .fails _ => []

/-- The message that `onMessage` finds. -/
def message (s : Session) (d : Dispatch) : List Byte := s.conn.inputBuffer.readable ++ d.data

/-- The callbacks of the server. The connection callback only logs. -/
def env (s : Session) (d : Dispatch) : Env where
  reads := [d.read]
  writes := fun _ ↦ d.write
  consumed := (message s d).length
  onMessage := [.send (message s d) d.answer]
  onConnection := []
  onNotice := []

def step (s : Session) (d : Dispatch) : Except Fault Session :=
  handleEvent levelMasks s d.revents (env s d)

/-- The messages that the callback was called with. -/
def messages (log : List Effect) : List (List Byte) :=
  log.filterMap fun
    | .messageCallback offered _ => some offered
    | .accepted _ | .shutdownWrite | .connectionCallback _ | .closeCallback _ => none

@[simp] theorem messages_append (log log' : List Effect) :
    messages (log ++ log') = messages log ++ messages log' := List.filterMap_append

/-- What the connection has sent back, or is about to. -/
def echoed (s : Session) : List Byte :=
  acceptedBytes s.log ++ s.conn.outputBuffer.readable

/-- What comes in with a dispatch. -/
def heard (d : Dispatch) : List Byte := if readsInput d.revents then d.data else []

/-- What stops a dispatch: a buffer, or the assert that the connection closes once. -/
def EchoFault (e : Fault) : Prop := BufferFault e ∨ e = .assertion .handleClose

/-- A connection that is up and idle, and whose peer is there, sends a message back. -/
def SendsBack (s : Session) (answer : WriteResult) : Prop :=
  s.conn.state = .kConnected ∧ Idle levelMasks s ∧ faultError answer = false

instance (s : Session) : DecidablePred (SendsBack s) := fun answer ↦
  inferInstanceAs (Decidable (s.conn.state = .kConnected ∧
    (s.conn.channel.isWriting levelMasks = false ∧ s.conn.outputBuffer.readable = []) ∧
    faultError answer = false))

/-- The message, if there is one, is read by a connection that sends it back and is not closed by
the event that brings it. -/
def Returned (s : Session) (d : Dispatch) : Prop :=
  heard d = [] ∨ (hangsUp d.revents = false ∧ SendsBack s d.answer)

instance (s : Session) : DecidablePred (Returned s) := fun _ ↦
  inferInstanceAs (Decidable (_ ∨ _))

variable {k : Masks} {s s' t : Session} {d : Dispatch} {answer : WriteResult}

/-! ## The callback -/

/-- What the server does in the callback are the calls it is dispatched with. -/
theorem onMessage_eq (h : s.conn.inputBuffer.WF) {e : Env}
    (hconsumed : e.consumed = s.conn.inputBuffer.readable.length)
    (hcalls : e.onMessage = [.send s.conn.inputBuffer.readable answer]) :
    messageCallback k s e = onMessage k s answer := by
  obtain ⟨b, hb, -, -⟩ := retrieveAsString_spec h (Nat.le_refl s.conn.inputBuffer.readableBytes)
  have hret : s.conn.inputBuffer.retrieve s.conn.inputBuffer.readableBytes = .ok b := by
    obtain ⟨rest, hrest, heq⟩ := bind_eq_ok.mp hb
    rw [hrest, (Prod.mk.inj (Except.ok.inj heq)).2]
  rw [← h.length_readable, List.take_length] at hb
  rw [onMessage, retrieveAllAsString, ← h.length_readable, hb, bind_ok, messageCallback, hconsumed,
    h.length_readable, hret, bind_ok, hcalls, inCallback, run, userCall]
  dsimp only
  rw [← h.length_readable]
  cases send k ((s.record (.messageCallback s.conn.inputBuffer.readable
    s.conn.inputBuffer.readable.length)).withInput b) .loop s.conn.inputBuffer.readable answer with
  | ok u => rfl
  | error e => rfl

/-! ## The invariant -/

/-- The connection is up and waits for the socket while something is buffered, or it is closed and
does not wait. Its input is empty, and what it has sent back are some of the messages. -/
structure Echoing (s : Session) (kept : List (List Byte)) : Prop where
  live : Live s
  empty : s.conn.inputBuffer.readable = []
  phase : (s.conn.state = .kConnected ∧ OutputInv levelMasks s) ∨
    (s.conn.state = .kDisconnected ∧ s.conn.channel.isWriting levelMasks = false)
  sublist : kept.Sublist (messages s.log)
  stream : echoed s = kept.flatten

/-! ## What the output leaves alone -/

/-- The state, the input and the messages are as they were. -/
structure Aside (s s' : Session) : Prop where
  state : s'.conn.state = s.conn.state
  input : s'.conn.inputBuffer = s.conn.inputBuffer
  messages : messages s'.log = messages s.log

theorem Aside.refl (s : Session) : Aside s s := ⟨rfl, rfl, rfl⟩

theorem Aside.trans (h : Aside s s') (h' : Aside s' t) : Aside s t :=
  ⟨h'.state.trans h.state, h'.input.trans h.input, h'.messages.trans h.messages⟩

theorem aside_channelCall {a : Channel.Call} (h : s.channelCall k a = .ok s') : Aside s s' := by
  obtain ⟨q, -, h⟩ := bind_eq_ok.mp h
  obtain rfl := Except.ok.inj h
  exact ⟨rfl, rfl, rfl⟩

theorem aside_record (s : Session) {e : Effect} (he : messages [e] = []) :
    Aside s (s.record e) := by
  refine ⟨rfl, rfl, ?_⟩
  rw [Session.record, messages_append, he, List.append_nil]

theorem aside_noteHighWater (s : Session) (len : ℕ) : Aside s (noteHighWater s len) :=
  ⟨by rw [noteHighWater_conn], by rw [noteHighWater_conn], by rw [noteHighWater_log]⟩

theorem aside_noteWriteComplete (s : Session) : Aside s (noteWriteComplete s) :=
  ⟨by rw [noteWriteComplete_conn], by rw [noteWriteComplete_conn], by rw [noteWriteComplete_log]⟩

theorem aside_shutdownInLoop (s : Session) : Aside s (shutdownInLoop k s) := by
  rw [shutdownInLoop]
  split
  · exact aside_record s rfl
  · exact .refl s

theorem aside_directWrite (s : Session) (data : List Byte) (answer : WriteResult) :
    Aside s (directWrite s data answer) := by
  have hwrote := aside_record s (e := .accepted (answer.taken data)) rfl
  rw [directWrite]
  split
  · exact hwrote.trans (aside_noteWriteComplete _)
  · exact hwrote

theorem aside_bufferRemaining {data : List Byte} (h : bufferRemaining k s data = .ok s') :
    Aside s s' := by
  obtain ⟨b, -, h⟩ := bind_eq_ok.mp h
  have hnoted : Aside s ((noteHighWater s data.length).withOutput b) :=
    (aside_noteHighWater s data.length).trans ⟨rfl, rfl, rfl⟩
  rw [awaitWritable] at h
  split at h
  · exact hnoted.trans (aside_channelCall h)
  · exact Except.ok.inj h ▸ hnoted

theorem aside_sendInLoop {data : List Byte} (h : sendInLoop k s data answer = .ok s') :
    Aside s s' := by
  rw [sendInLoop] at h
  split at h
  · exact Except.ok.inj h ▸ .refl s
  · split at h
    · obtain ⟨_, -, h⟩ := bind_eq_ok.mp h
      split at h
      · exact (aside_directWrite s data answer).trans (aside_bufferRemaining h)
      · exact Except.ok.inj h ▸ aside_directWrite s data answer
    · exact Except.ok.inj h ▸ .refl s

theorem aside_handleWrite {writes : ℕ → WriteResult} (h : handleWrite k s writes = .ok s') :
    Aside s s' := by
  rw [handleWrite] at h
  split at h
  · cases hw : writeOutput k s.conn.outputBuffer writes with
    | none =>
      rw [hw] at h
      exact absurd h error_ne_ok
    | some w =>
      rw [hw] at h
      have hwrote : Aside s (wrote s w) :=
        (show Aside s (s.withOutput w.buffer) from ⟨rfl, rfl, rfl⟩).trans (aside_record _ rfl)
      change (if 0 < w.ret ∧ w.buffer.readableBytes = 0 then _ else _) = _ at h
      split at h
      · obtain ⟨disabled, hdisabled, h⟩ := bind_eq_ok.mp h
        have hnoted := (hwrote.trans (aside_channelCall hdisabled)).trans
          (aside_noteWriteComplete disabled)
        split at h
        · exact Except.ok.inj h ▸ hnoted.trans (aside_shutdownInLoop _)
        · exact Except.ok.inj h ▸ hnoted
      · exact Except.ok.inj h ▸ hwrote
  · exact Except.ok.inj h ▸ .refl s

/-! ## The handlers -/

variable {kept : List (List Byte)} {msg : List Byte}

theorem echoed_of_log {s s' : Session} (hlog : acceptedBytes s'.log = acceptedBytes s.log)
    (hconn : s'.conn.outputBuffer = s.conn.outputBuffer) : echoed s' = echoed s := by
  rw [echoed, echoed, hlog, hconn]

theorem Echoing.withRevents (h : Echoing s kept) (revents : Mask) :
    Echoing (s.withRevents revents) kept := by
  have hlive := Move.live (k := levelMasks) (r := false) (.revents revents) h.live
  refine ⟨hlive, h.empty, h.phase.imp (fun ⟨hstate, hout⟩ ↦ ⟨hstate, hlive, hout.alive, ?_⟩) id,
    h.sublist, h.stream⟩
  exact hout.writing

/-- A drain moves bytes from the buffer to the kernel. -/
theorem Echoing.handleWrite (h : Echoing s kept) (answer : WriteResult) :
    ∃ s', handleWrite levelMasks s (fun _ ↦ answer) = .ok s' ∧ Echoing s' kept ∧
      messages s'.log = messages s.log ∧ echoed s' = echoed s := by
  rcases h.phase with ⟨hstate, hout⟩ | ⟨hstate, hquiet⟩
  · obtain ⟨s', hs', hout', hsame⟩ := handleWrite_LT hout answer
    obtain ⟨hstate', hinput, hmessages⟩ := aside_handleWrite hs'
    refine ⟨s', hs', ⟨hout'.live, ?_, Or.inl ⟨hstate'.trans hstate, hout'⟩, ?_, ?_⟩, hmessages,
      hsame⟩
    · rw [hinput]
      exact h.empty
    · rw [hmessages]
      exact h.sublist
    · exact hsame.trans h.stream
  · exact ⟨s, handleWrite_of_not_writing hquiet, h, rfl, rfl⟩

/-- A closing keeps what was sent back and what was heard. -/
theorem Echoing.handleClose (h : Echoing s kept) {e : Env} (he : e.onConnection = []) :
    Outcome (handleClose levelMasks s e) (fun s' ↦ Echoing s' kept ∧
      s'.conn.state = .kDisconnected ∧ messages s'.log = messages s.log ∧ echoed s' = echoed s)
      EchoFault := by
  rw [TcpConnection.handleClose, he]
  by_cases hup : s.conn.state = .kConnected ∨ s.conn.state = .kDisconnecting
  · obtain ⟨s₁, hs₁, hcalled, hlive, hstate, -⟩ := disableAll_spec (k := levelMasks) h.live
    rw [check_pos hup, bind_ok, hs₁]
    change Outcome (.ok ((s₁.record (.connectionCallback s₁.glance)).record (.closeCallback _))) _ _
    have hlog : s₁.log = s.log := hcalled.log_eq
    have hquiet := not_isWriting_of_events (k := levelMasks) hcalled.events_disableAll
    have hinput : s₁.conn.inputBuffer = s.conn.inputBuffer := by
      rw [hcalled.same]
      rfl
    have houtput : s₁.conn.outputBuffer = s.conn.outputBuffer := by
      rw [hcalled.same]
      rfl
    -- the two callbacks are neither messages nor bytes
    have hmessages : messages ((s₁.log ++ [.connectionCallback s₁.glance]) ++
        [.closeCallback (s₁.record (.connectionCallback s₁.glance)).glance]) = messages s.log := by
      rw [hlog, List.append_assoc, messages_append]
      exact List.append_nil _
    have hechoed : echoed ((s₁.record (.connectionCallback s₁.glance)).record
        (.closeCallback (s₁.record (.connectionCallback s₁.glance)).glance)) = echoed s := by
      refine echoed_of_log ?_ houtput
      change acceptedBytes ((s₁.log ++ [.connectionCallback s₁.glance]) ++ [.closeCallback _]) = _
      rw [hlog, List.append_assoc, acceptedBytes_append]
      exact List.append_nil _
    refine ⟨⟨⟨hlive.input, hlive.output, hlive.standing⟩, ?_, Or.inr ⟨hstate, hquiet⟩, ?_, ?_⟩,
      hstate, hmessages, hechoed⟩
    · exact (congrArg Buffer.readable hinput).trans h.empty
    · exact hmessages ▸ h.sublist
    · exact hechoed.trans h.stream
  · rw [check_neg hup]
    exact Or.inr rfl

/-- A message is sent back whole, or not at all. -/
theorem Echoing.onMessage (h : Echoing s kept) {b : Buffer} (hb : b.WF) (answer : WriteResult) :
    Outcome (onMessage levelMasks (s.withInput b) answer) (fun s' ↦ ∃ kept', Echoing s' kept' ∧
      messages s'.log = messages s.log ++ [b.readable] ∧
      echoed s' = echoed s ++ (if SendsBack s answer then b.readable else [])) EchoFault := by
  obtain ⟨b', hb', hwf, hread⟩ := retrieveAsString_spec hb (Nat.le_refl b.readableBytes)
  rw [← hb.length_readable, List.take_length] at hb'
  rw [← hb.length_readable, List.drop_length] at hread
  set told : Session := ((s.withInput b).record
    (.messageCallback b.readable b.readable.length)).withInput b' with htold
  have hcall : EchoServer.onMessage levelMasks (s.withInput b) answer =
      send levelMasks told .loop b.readable answer := by
    change (b.retrieveAllAsString >>= fun x ↦ _) = _
    rw [retrieveAllAsString, ← hb.length_readable, hb', bind_ok]
    rfl
  have hlive : Live told := ⟨hwf, h.live.output, h.live.standing⟩
  have hmessages : messages told.log = messages s.log ++ [b.readable] := by
    change messages (s.log ++ [_]) = _
    rw [messages_append]
    rfl
  have hechoed : echoed told = echoed s := by
    refine echoed_of_log ?_ rfl
    change acceptedBytes (s.log ++ [_]) = _
    rw [acceptedBytes_append]
    exact List.append_nil _
  have hkept : kept.Sublist (messages told.log) :=
    hmessages ▸ h.sublist.trans (List.sublist_append_left _ _)
  have hstream : echoed told = kept.flatten := hechoed.trans h.stream
  rw [hcall, send]
  rcases h.phase with ⟨hstate, hout⟩ | ⟨hstate, hquiet⟩
  · have hstate' : told.conn.state = .kConnected := hstate
    have hout' : OutputInv levelMasks told := ⟨hlive, hout.alive, hout.writing⟩
    rw [if_pos hstate', runInLoop]
    by_cases hidle : Idle levelMasks s
    · have hidle' : Idle levelMasks told := hidle
      have hnil : told.conn.outputBuffer.readable = [] := hidle.2
      cases hfault : faultError answer with
      | false =>
        rw [if_pos (show SendsBack s answer from ⟨hstate, hidle, hfault⟩)]
        have hlen : b.readable.length ≤ maxSize := by
          rw [hb.length_readable, hb.readableBytes_eq]
          exact Nat.le_trans (Nat.sub_le _ _) hb.writerIndex_le
        have hsent := sendInLoop_of_idle hout' (Masks.kWriteEvent_ne_zero .LT) hidle' hlen hfault
        cases hs' : sendInLoop levelMasks told b.readable answer with
        | error e =>
          rw [hs', outcome_error] at hsent
          rw [hsent]
          exact Or.inl trivial
        | ok s' =>
          obtain ⟨hinv, haccepted, hremaining⟩ := hsent.of_ok hs'
          obtain ⟨hstateq, hinput, hmsgs⟩ := aside_sendInLoop hs'
          have hsame : echoed s' = echoed s ++ b.readable := by
            rw [echoed, haccepted, hremaining, List.append_assoc,
              WriteResult.taken_append_remaining, ← hechoed, echoed, hnil, List.append_nil]
          refine ⟨kept ++ [b.readable],
            ⟨hinv.live, ?_, Or.inl ⟨hstateq.trans hstate', hinv⟩, ?_, ?_⟩,
            hmsgs.trans hmessages, hsame⟩
          · rw [hinput]
            exact hread
          · rw [hmsgs, hmessages]
            exact h.sublist.append (List.Sublist.refl _)
          · rw [hsame, h.stream, List.flatten_append, List.flatten_singleton]
      | true =>
        -- nothing was taken, and nothing is kept
        have hnone : answer.taken b.readable = [] := by
          cases answer with
          | fails e => rfl
          | accepts count => exact absurd hfault Bool.false_ne_true
        have hbusy : ¬SendsBack s answer := fun hc ↦ by
          rw [hc.2.2] at hfault
          exact absurd hfault Bool.false_ne_true
        have hzero := hlive.output.readableBytes_eq_zero_iff.mpr hnil
        have hconn := directWrite_conn told b.readable answer
        have hlog : acceptedBytes (directWrite told b.readable answer).log =
            acceptedBytes told.log := by
          rw [directWrite_log, acceptedBytes_append, acceptedBytes_accepted, hnone, List.append_nil]
        have haside := aside_directWrite told b.readable answer
        rw [if_neg hbusy, List.append_nil, sendInLoop, if_neg hout'.state_ne, hidle'.1, hzero,
          if_pos (by decide), check_pos (answer.length_remaining_le _), bind_ok, hfault]
        have hsame := (echoed_of_log hlog (congrArg outputBuffer hconn)).trans hechoed
        have hwrote := (directWrite_moves (k := levelMasks) (r := false) told b.readable
          answer).live hlive
        refine ⟨kept, ⟨hwrote, ?_, Or.inl ⟨haside.state.trans hstate', hwrote, ?_, ?_⟩, ?_, ?_⟩,
          haside.messages.trans hmessages, hsame⟩
        · rw [haside.input]
          exact hread
        · rw [hconn]
          exact hout'.alive
        · rw [hconn]
          exact hout'.writing
        · rw [haside.messages]
          exact hkept
        · exact hsame.trans h.stream
    · rw [if_neg (fun hc : SendsBack s answer ↦ hidle hc.2.1), List.append_nil]
      change Outcome (sendInLoop levelMasks told b.readable answer) _ _
      rw [sendInLoop_of_waiting hout' hidle]
      exact ⟨kept, ⟨hlive, hread, Or.inl ⟨hstate', hout'⟩, hkept, hstream⟩, hmessages, hechoed⟩
  · have hstate' : ¬told.conn.state = .kConnected := by
      change ¬s.conn.state = .kConnected
      rw [hstate]
      decide
    rw [if_neg hstate', if_neg (fun hc : SendsBack s answer ↦ hstate' hc.1), List.append_nil]
    exact ⟨kept, ⟨hlive, hread, Or.inr ⟨hstate, hquiet⟩, hkept, hstream⟩, hmessages, hechoed⟩

/-- What a read event does. -/
theorem Echoing.handleRead (h : Echoing s kept) {e : Env} (hreads : e.reads = [d.read])
    (hconsumed : e.consumed = d.data.length) (hcalls : e.onMessage = [.send d.data d.answer])
    (hdown : e.onConnection = []) :
    Outcome (handleRead levelMasks s e) (fun s' ↦ ∃ kept', Echoing s' kept' ∧
      (messages s'.log).flatten = (messages s.log).flatten ++ d.data ∧
      echoed s' = echoed s ++ (if SendsBack s d.answer then d.data else [])) EchoFault := by
  rw [TcpConnection.handleRead]
  refine Outcome.bind (outcome_of (fun x hx ↦ readInput_ok h.live.input hx) fun x hx ↦
    Or.inl (readInput_error hx)) ?_
  rintro ⟨n, saved, b⟩ ⟨hwf, hread, hn⟩
  change n = readRet levelMasks e.reads at hn
  change b.WF at hwf
  change b.readable = s.conn.inputBuffer.readable ++ arrived levelMasks e.reads at hread
  rw [hreads, h.empty, List.nil_append] at hread
  rw [hreads] at hn
  change Outcome (if 0 < n then _ else if n = 0 then _ else _) _ _
  have hquiet (hnil : b.readable = []) : Echoing (s.withInput b) kept := by
    refine ⟨⟨hwf, h.live.output, h.live.standing⟩, hnil, ?_, h.sublist, h.stream⟩
    refine h.phase.imp (fun hphase ↦ ?_) id
    exact ⟨hphase.1, ⟨hwf, h.live.output, h.live.standing⟩, hphase.2.alive, hphase.2.writing⟩
  cases hd : d.read with
  | fails x =>
    have hdata : d.data = [] := by rw [Dispatch.data, hd]
    rw [hd] at hn hread
    obtain rfl : n = -1 := hn
    rw [if_neg (by decide), if_neg (by decide), hdata, ite_self, List.append_nil, List.append_nil]
    exact ⟨kept, hquiet hread, rfl, rfl⟩
  | data bytes =>
    have hdata : d.data = bytes := by rw [Dispatch.data, hd]
    rw [hd] at hn hread
    replace hread : b.readable = bytes := hread
    replace hn : n = bytes.length := hn
    rw [hdata]
    cases bytes with
    | nil =>
      rw [hn, if_neg (by decide), if_pos (by rfl), ite_self, List.append_nil, List.append_nil]
      refine ((hquiet hread).handleClose hdown).imp fun s' hs' ↦ ?_
      exact ⟨kept, hs'.1, congrArg List.flatten hs'.2.2.1, hs'.2.2.2⟩
    | cons x bytes =>
      have hpos : 0 < n := by
        rw [hn]
        exact Int.natCast_pos.mpr (Nat.succ_pos _)
      have hcalled : messageCallback levelMasks (s.withInput b) e =
          EchoServer.onMessage levelMasks (s.withInput b) d.answer :=
        onMessage_eq hwf (hconsumed.trans (by rw [hdata, ← hread]; rfl))
          (by rw [hcalls, hdata, ← hread]; rfl)
      rw [if_pos hpos, hcalled]
      refine (h.onMessage hwf d.answer).imp fun s' hs' ↦ ?_
      obtain ⟨kept', hechoing, hmessages, hechoed⟩ := hs'
      rw [hread] at hmessages hechoed
      refine ⟨kept', hechoing, ?_, hechoed⟩
      rw [hmessages, List.flatten_append, List.flatten_singleton]

/-- The step lemma: what comes in with a dispatch is heard, and it is sent back or dropped. -/
theorem Echoing.step (h : Echoing s kept) (d : Dispatch) :
    Outcome (step s d) (fun s' ↦ ∃ kept', Echoing s' kept' ∧
      (messages s'.log).flatten = (messages s.log).flatten ++ heard d ∧
      echoed s' = echoed s ++ (if Returned s d then heard d else [])) EchoFault := by
  have hmessage : message s d = d.data := by rw [message, h.empty, List.nil_append]
  rw [EchoServer.step, handleEvent]
  -- the hang-up
  refine Outcome.bind (P := fun u ↦ Echoing u kept ∧ messages u.log = messages s.log ∧
    echoed u = echoed s ∧ (SendsBack u d.answer ↔ hangsUp d.revents = false ∧ SendsBack s d.answer))
    ?_ ?_
  · rw [handleIf]
    cases hhup : hangsUp d.revents with
    | true =>
      refine ((h.withRevents d.revents).handleClose (e := env s d) rfl).imp fun u hu ↦ ?_
      refine ⟨hu.1, hu.2.2.1, hu.2.2.2.trans (echoed_of_log rfl rfl), iff_of_false ?_ ?_⟩
      · rintro ⟨hup, -⟩
        exact absurd (hu.2.1.symm.trans hup) (by decide)
      · rintro ⟨hc, -⟩
        exact absurd hc Bool.true_eq_false.mp
    | false =>
      refine ⟨h.withRevents d.revents, rfl, rfl, ?_⟩
      rw [and_iff_right rfl]
      rfl
  rintro u ⟨hu, humessages, huechoed, husends⟩
  refine Outcome.bind (P := fun v ↦ v = u) ?_ ?_
  · rw [handleIf]
    split
    · rfl
    · rfl
  rintro v rfl
  refine Outcome.bind (P := fun w ↦ ∃ kept', Echoing w kept' ∧
    (messages w.log).flatten = (messages s.log).flatten ++ heard d ∧
    echoed w = echoed s ++ (if Returned s d then heard d else [])) ?_ ?_
  · rw [handleIf]
    cases hreads : readsInput d.revents with
    | true =>
      have hheard : heard d = d.data := by rw [heard, hreads, if_pos rfl]
      -- an empty message is sent back whatever happens to it
      have hreturned : (if Returned s d then heard d else []) =
          if SendsBack v d.answer then d.data else [] := by
        rw [hheard]
        by_cases hnil : d.data = []
        · rw [hnil, ite_self, ite_self]
        · have hsome : heard d ≠ [] := hheard ▸ hnil
          exact if_congr ((or_iff_right hsome).trans husends.symm) rfl rfl
      rw [hreturned, hheard, ← huechoed, ← humessages]
      refine hu.handleRead (e := env s d) rfl ?_ ?_ rfl
      · exact congrArg List.length hmessage
      · exact congrArg (fun m ↦ [UserCall.send m d.answer]) hmessage
    | false =>
      have hheard : heard d = [] := by
        rw [heard, hreads]
        rfl
      rw [hheard, ite_self, List.append_nil, List.append_nil]
      exact ⟨kept, hu, congrArg List.flatten humessages, huechoed⟩
  · rintro w ⟨kept', hw, hwmessages, hwechoed⟩
    rw [handleIf]
    split
    · obtain ⟨s', hs', hechoing, hmessages, hsame⟩ := hw.handleWrite d.write
      change Outcome (TcpConnection.handleWrite levelMasks w fun _ ↦ d.write) _ _
      rw [hs']
      exact ⟨kept', hechoing, (congrArg List.flatten hmessages).trans hwmessages,
        hsame.trans hwechoed⟩
    · exact ⟨kept', hw, hwmessages, hwechoed⟩

/-! ## The connection -/

/-- A connection just established has heard nothing. -/
theorem echoing_established {ptr : ℕ} {fd : ℤ} {conn : TcpConnection} {poller : EpollPoller}
    (hnew : TcpConnection.new ptr fd false none = .ok conn)
    (hfresh : poller.Stands conn.channel .fresh)
    (hest : connectEstablished levelMasks (.start conn poller) [] = .ok s) :
    Echoing s [] ∧ messages s.log = [] := by
  obtain ⟨hout, hint⟩ := outputInv_established (fresh_start hnew hfresh) hest
  obtain ⟨s₁, hcalled, hlive, heq⟩ :=
    connectEstablished_of_fresh (k := levelMasks) (fresh_start hnew hfresh) []
  have hlog : s₁.log = [] := hcalled.log_eq.trans (fresh_start hnew hfresh).log
  rw [heq] at hest
  obtain rfl : s₁.record (.connectionCallback s₁.glance) = s := Except.ok.inj hest
  have hmessages : messages (s₁.record (.connectionCallback s₁.glance)).log = [] := by
    rw [Session.record, hlog]
    rfl
  refine ⟨⟨hout.live, ?_, Or.inl ⟨hcalled.state_eq, hout⟩, hmessages ▸ List.Sublist.refl _, ?_⟩,
    hmessages⟩
  · change s₁.conn.inputBuffer.readable = []
    rw [hcalled.same]
    exact (fresh_start hnew hfresh).input.2
  · exact hint.symm

/-- The run lemma: what came in is what the messages make up, and some of them come back. -/
theorem Echoing.run (h : Echoing s kept) (ds : List Dispatch) :
    Outcome (Machine.run EchoServer.step s ds) (fun t ↦ (∃ kept', Echoing t kept') ∧
      (messages t.log).flatten = (messages s.log).flatten ++ ds.flatMap heard) EchoFault := by
  induction ds generalizing s kept with
  | nil => exact ⟨⟨kept, h⟩, (List.append_nil _).symm⟩
  | cons d ds ih =>
    have hstep := h.step d
    cases hs : EchoServer.step s d with
    | error e =>
      rw [hs] at hstep
      rw [Machine.run, hs]
      exact hstep
    | ok u =>
      obtain ⟨kept', hu, hmessages, -⟩ := hstep.of_ok hs
      rw [Machine.run, hs, List.flatMap_cons, ← List.append_assoc, ← hmessages]
      exact ih hu

/-- **The echo is made of whole messages.** Whatever the events and whatever the kernel answers,
the messages are what came in, and what the peer gets are some of them, each whole and once and in
the order in which they came. -/
theorem echoes_whole {ptr : ℕ} {fd : ℤ} {conn : TcpConnection} {poller : EpollPoller}
    (hnew : TcpConnection.new ptr fd false none = .ok conn)
    (hfresh : poller.Stands conn.channel .fresh)
    (hest : connectEstablished levelMasks (.start conn poller) [] = .ok s) (ds : List Dispatch) :
    Outcome (Machine.run step s ds) (fun t ↦ (messages t.log).flatten = ds.flatMap heard ∧
      ∃ kept : List (List Byte), kept.Sublist (messages t.log) ∧ echoed t = kept.flatten)
      EchoFault := by
  obtain ⟨hs, hnone⟩ := echoing_established hnew hfresh hest
  refine (hs.run ds).imp fun t ⟨⟨kept, ht⟩, hmessages⟩ ↦ ⟨?_, kept, ht.sublist, ht.stream⟩
  rw [hmessages, hnone]
  rfl

/-- The second message comes while most of the first waits, and the third after the peer has read
it. -/
theorem echoes_whole_of_busy :
    ∃ s, connectEstablished levelMasks (.start newConn .new) [] = .ok s ∧
      Outcome (Machine.run step s [⟨EPOLLIN, .data [1, 2, 3], .accepts 1, .accepts 0⟩,
        ⟨EPOLLIN, .data [4, 5], .accepts 2, .accepts 0⟩,
        ⟨EPOLLOUT, .data [], .accepts 0, .accepts 2⟩, ⟨EPOLLIN, .data [6], .accepts 1, .accepts 0⟩])
        (fun t ↦ (messages t.log).flatten = [1, 2, 3, 4, 5, 6] ∧
          ∃ kept : List (List Byte), kept.Sublist (messages t.log) ∧ echoed t = kept.flatten)
        EchoFault := by
  obtain ⟨s, hs⟩ : ∃ s, connectEstablished levelMasks (.start newConn .new) [] = .ok s := ⟨_, rfl⟩
  exact ⟨s, hs, (echoes_whole new_eq_newConn stands_newConn hs _).imp
    fun _ h ↦ ⟨h.1.trans (by decide), h.2⟩⟩

/-- What is sent back is not longer than what came in. -/
theorem Echoing.length_echoed_le (h : Echoing s kept) :
    (echoed s).length ≤ (messages s.log).flatten.length := by
  rw [h.stream]
  exact h.sublist.flatten.length_le

/-- A message that is lost leaves less than came in for good. -/
theorem Echoing.whole_iff (h : Echoing s kept) (hstep : EchoServer.step s d = .ok t) :
    echoed t = (messages t.log).flatten ↔
      echoed s = (messages s.log).flatten ∧ Returned s d := by
  obtain ⟨kept', -, hheard, hechoed⟩ := (h.step d).of_ok hstep
  rw [hheard, hechoed]
  by_cases hreturned : Returned s d
  · rw [if_pos hreturned, and_iff_left hreturned, List.append_left_inj]
  · rw [if_neg hreturned, List.append_nil]
    have hle := h.length_echoed_le
    refine iff_of_false (fun hsame ↦ hreturned (Or.inl ?_)) fun hboth ↦ hreturned hboth.2
    have hlength := congrArg List.length hsame
    rw [List.length_append] at hlength
    exact List.eq_nil_of_length_eq_zero (by omega)

/-- Everything comes back exactly when every message is returned. -/
theorem echoes_iff {ptr : ℕ} {fd : ℤ} {conn : TcpConnection} {poller : EpollPoller}
    (hnew : TcpConnection.new ptr fd false none = .ok conn)
    (hfresh : poller.Stands conn.channel .fresh)
    (hest : connectEstablished levelMasks (.start conn poller) [] = .ok s) (ds : List Dispatch) :
    Outcome (Machine.run step s ds) (fun t ↦ (echoed t = ds.flatMap heard ↔
      Along step Returned s ds)) EchoFault := by
  obtain ⟨hs, hnone⟩ := echoing_established hnew hfresh hest
  refine outcome_of (fun t hrun ↦ ?_) fun e hrun ↦ ?_
  · have hmessages := ((hs.run ds).of_ok hrun).2
    rw [hnone, List.flatten_nil, List.nil_append] at hmessages
    rw [← hmessages]
    have hkept : echoed s = (messages s.log).flatten := by
      rw [hs.stream, hnone]
    exact (run_iff_along (I := fun u ↦ ∃ kept, Echoing u kept)
      (J := fun u ↦ echoed u = (messages u.log).flatten)
      (fun u d u' ⟨kept, hu⟩ hstep ↦ ((hu.step d).of_ok hstep).imp fun _ h ↦ h.1)
      (fun u d u' ⟨kept, hu⟩ hstep ↦ hu.whole_iff hstep) ⟨[], hs⟩ hrun).trans (and_iff_right hkept)
  · have hall := hs.run ds
    rw [hrun] at hall
    exact hall

/-- Each of the two messages finds the connection idle. -/
theorem echoes_iff_of_idle :
    ∃ s, connectEstablished levelMasks (.start newConn .new) [] = .ok s ∧
      Outcome (Machine.run step s [⟨EPOLLIN, .data [1, 2, 3], .accepts 1, .accepts 0⟩,
        ⟨EPOLLOUT, .data [], .accepts 0, .accepts 2⟩, ⟨EPOLLIN, .data [4], .accepts 1, .accepts 0⟩])
        (fun t ↦ echoed t = [1, 2, 3, 4]) EchoFault := by
  obtain ⟨s, hs⟩ : ∃ s, connectEstablished levelMasks (.start newConn .new) [] = .ok s := ⟨_, rfl⟩
  have hreturned : Outcome (connectEstablished levelMasks (.start newConn .new) []) (fun s ↦
      Along step Returned s [⟨EPOLLIN, .data [1, 2, 3], .accepts 1, .accepts 0⟩,
        ⟨EPOLLOUT, .data [], .accepts 0, .accepts 2⟩,
        ⟨EPOLLIN, .data [4], .accepts 1, .accepts 0⟩]) (fun _ ↦ False) := by
    decide +kernel
  exact ⟨s, hs, (echoes_iff new_eq_newConn stands_newConn hs _).imp
    fun _ h ↦ (h.mpr (hreturned.of_ok hs)).trans (by decide)⟩

end EchoServer

end Twnl
