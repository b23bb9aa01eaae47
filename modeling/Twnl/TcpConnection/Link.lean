import Twnl.TcpConnection.Input
import Twnl.TcpConnection.Stream

/-!
# From end to end

A connection writes to the kernel, and the kernel of its peer delivers what was accepted, in order
and in pieces of any size, to a connection at the other end. When the first has been half-closed and
everything is delivered, the input of the second ends. Both are level-triggered.

What was sent is what the message callback at the other end was offered, and then what is under way,
and then what waits in the output buffer; and when the other end goes down it has been offered
everything (`end_to_end`). This needs what keeps the output whole: that nothing is sent while
something waits.
-/

namespace Twnl

namespace TcpConnection

open Buffer Machine

/-- Two connections, and how much the second has received. -/
structure Link where
  sender : Sent
  receiver : Session
  arrived : ℕ

/-- What the kernel has accepted and not delivered. -/
def Link.underWay (l : Link) : List Byte :=
  (acceptedBytes l.sender.session.log).drop l.arrived

inductive LinkStep
  | output (op : OutputOp)
  /-- The peer reads that many bytes at most, and its message callback retrieves that many. -/
  | delivers (count consumed : ℕ)
  /-- The peer reads the end of its input. -/
  | ends

/-- What is passed to `sendInLoop`. -/
def LinkStep.payload : LinkStep → List Byte
  | output op => op.payload
  | delivers _ _ | ends => []

/-- One step. The channel of a closed connection has no events. -/
def linkStep (l : Link) : LinkStep → Except Fault Link
  | .output op =>
    -- the kernel takes nothing after the half-close
    if .shutdownWrite ∈ l.sender.session.log ∧ op.payload ≠ [] then .error .impossible
    else do
      let sender ← outputStep levelMasks l.sender op
      .ok { l with sender := sender }
  | .delivers count consumed =>
    let bytes := l.underWay.take count
    if l.receiver.conn.state = .kDisconnected ∨ bytes = [] then .error .impossible
    else do
      let receiver ← hear levelMasks l.receiver ⟨[.data bytes], consumed⟩
      .ok { l with receiver := receiver, arrived := l.arrived + bytes.length }
  | .ends =>
    if l.receiver.conn.state = .kDisconnected ∨ .shutdownWrite ∉ l.sender.session.log ∨
        l.underWay ≠ [] then .error .impossible
    else do
      let receiver ← hear levelMasks l.receiver ⟨[.data []], 0⟩
      .ok { l with receiver := receiver }

/-- Nothing is sent while something waits. -/
def PassedIdle (l : Link) (i : LinkStep) : Prop :=
  i.payload = [] ∨ Idle levelMasks l.sender.session

instance (l : Link) : DecidablePred (PassedIdle l) := fun i ↦
  inferInstanceAs (Decidable (i.payload = [] ∨
    l.sender.session.conn.channel.isWriting levelMasks = false ∧
      l.sender.session.conn.outputBuffer.readable = []))

variable {s s' : Session} {l l' : Link} {i : LinkStep} {op : OutputOp} {t t' : Sent}

/-! ## The sending end -/

/-- The record only grows. -/
theorem Move.log_prefix {k : Masks} {r : Bool} (h : Move k r s s') (hs : Live s) :
    s.log <+: s'.log := by
  cases h with
  | output _ | input _ | queue _ | queueReading _ _ | dequeue _ | revents _ | calls _ _
  | halfClose _ => exact List.prefix_rfl
  | record _ => exact List.prefix_append _ _
  | enableWriting _ hcall | disableWriting _ hcall =>
    exact (Called.of_ok hs hcall).log_eq ▸ List.prefix_rfl
  | startRead _ _ hcall | stopRead _ _ _ hcall =>
    have hlog := (Called.of_ok hs hcall).log_eq
    exact (show _ <+: _ from hlog ▸ List.prefix_rfl)

theorem Moves.log_prefix {k : Masks} {r : Bool} (h : Moves k r s s') (hs : Live s) :
    s.log <+: s'.log := by
  induction h with
  | refl => exact List.prefix_rfl
  | tail hfirst hlast ih => exact ih.trans (hlast.log_prefix (Moves.live hfirst hs))

theorem output_log (h : Live s) (hs' : output levelMasks s op = .ok s') : s.log <+: s'.log := by
  have hmoves : Moves levelMasks true s s' := by
    cases op with
    | sendInLoop payload answer => exact (sendInLoop_moves h).of_ok hs'
    | handleWrite answer =>
      exact (handleWrite_moves h fun _ ↦ answerOf answer).of_ok hs'
    | shutdown =>
      exact (userCall_moves (c := .shutdown) h (Or.inl rfl)).of_ok hs'
  exact hmoves.log_prefix h

/-- A half-close that a drain makes comes when nothing is left. -/
theorem handleWrite_halfClosed {answer : WriteResult} (h : OutputInv levelMasks s)
    (hs' : handleWrite levelMasks s (fun _ ↦ answer) = .ok s')
    (hclosed : .shutdownWrite ∈ s'.log) :
    .shutdownWrite ∈ s.log ∨ s'.conn.outputBuffer.readable = [] := by
  cases hwriting : s.conn.channel.isWriting levelMasks with
  | false =>
    obtain rfl := Except.ok.inj ((handleWrite_of_not_writing hwriting).symm.trans hs')
    exact Or.inl hclosed
  | true =>
    obtain ⟨w, hw, hwf, -⟩ := writeOutput_spec levelMasks h.live.output fun _ ↦ answer
    by_cases hdone : 0 < w.ret ∧ w.buffer.readableBytes = 0
    · obtain ⟨s₁, s'', hs'', hcalled, heq⟩ :=
        handleWrite_of_empty h.live hwriting hw hwf hdone.1 hdone.2
      obtain rfl := Except.ok.inj (hs''.symm.trans hs')
      obtain ⟨-, hconn, -⟩ := completed_moves (hcalled.live (wrote_live h.live hwf)) heq
      right
      rw [hconn, hcalled.same]
      exact hwf.readableBytes_eq_zero_iff.mp hdone.2
    · obtain rfl := Except.ok.inj ((handleWrite_of_left hwriting hw hdone).symm.trans hs')
      rcases List.mem_append.mp hclosed with hlog | hlast
      · exact Or.inl hlog
      · exact absurd (List.mem_singleton.mp hlast) Effect.noConfusion

theorem bufferRemaining_log {data : List Byte} (h : bufferRemaining levelMasks s data = .ok s') :
    s'.log = s.log := by
  obtain ⟨b, -, h⟩ := bind_eq_ok.mp h
  rw [awaitWritable] at h
  split at h
  · obtain ⟨q, -, h⟩ := bind_eq_ok.mp h
    rw [← Except.ok.inj h]
    exact noteHighWater_log s data.length
  · rw [← Except.ok.inj h]
    exact noteHighWater_log s data.length

/-- A send half-closes nothing. -/
theorem sendInLoop_halfClosed {data : List Byte} {answer : WriteResult}
    (h : sendInLoop levelMasks s data answer = .ok s') (hclosed : .shutdownWrite ∈ s'.log) :
    .shutdownWrite ∈ s.log := by
  have hwrote (hmem : Effect.shutdownWrite ∈ (directWrite s data answer).log) :
      .shutdownWrite ∈ s.log := by
    rw [directWrite_log] at hmem
    rcases List.mem_append.mp hmem with hlog | hlast
    · exact hlog
    · exact absurd (List.mem_singleton.mp hlast) Effect.noConfusion
  rw [sendInLoop] at h
  split at h
  · exact Except.ok.inj h ▸ hclosed
  · split at h
    · obtain ⟨_, -, h⟩ := bind_eq_ok.mp h
      split at h
      · rw [bufferRemaining_log h] at hclosed
        exact hwrote hclosed
      · exact hwrote (Except.ok.inj h ▸ hclosed)
    · exact Except.ok.inj h ▸ hclosed

/-- The sending end, with what it half-closes. -/
structure Sending (t : Sent) : Prop where
  inv : OutputInv levelMasks t.session
  integrity : Integrity t
  halfClosed : .shutdownWrite ∈ t.session.log → t.session.conn.outputBuffer.readable = []

theorem Sending.quiet (h : Sending t) (hclosed : .shutdownWrite ∈ t.session.log) :
    t.session.conn.channel.isWriting levelMasks = false :=
  Bool.eq_false_iff.mpr fun hwriting ↦ h.inv.writing.mp hwriting (h.halfClosed hclosed)

/-- The output is half-closed when it is empty, and stays so. -/
theorem Sending.halfClosed_step (h : Sending t)
    (hopen : .shutdownWrite ∈ t.session.log → op.payload = [])
    (hs' : TcpConnection.output levelMasks t.session op = .ok s')
    (hclosed : .shutdownWrite ∈ s'.log) :
    s'.conn.outputBuffer.readable = [] := by
  cases op with
  | sendInLoop payload answer =>
    have hbefore := sendInLoop_halfClosed hs' hclosed
    have hidle : Idle levelMasks t.session := ⟨h.quiet hbefore, h.halfClosed hbefore⟩
    obtain ⟨-, -, hread⟩ := (sendInLoop_of_idle h.inv (Masks.kWriteEvent_ne_zero .LT) hidle
      payload.length_le (faultError_answerOf answer)).of_ok hs'
    have hnil : payload.bytes = [] := hopen hbefore
    rw [hread, hnil, WriteResult.remaining]
    exact List.drop_nil
  | handleWrite answer =>
    rcases handleWrite_halfClosed h.inv hs' hclosed with hbefore | hnil
    · have hsame : TcpConnection.output levelMasks t.session (.handleWrite answer) =
          .ok t.session := by
        rw [TcpConnection.output, handleWrite_of_not_writing (h.quiet hbefore)]
      obtain rfl := Except.ok.inj (hsame.symm.trans hs')
      exact h.halfClosed hbefore
    · exact hnil
  | shutdown =>
    obtain ⟨-, -, hbuf⟩ := shutdown_output h.inv
    obtain rfl := Except.ok.inj hs'
    rw [hbuf]
    by_contra hne
    have hwriting := h.inv.writing.mpr hne
    have hbefore : Effect.shutdownWrite ∉ t.session.log := fun hmem ↦ hne (h.halfClosed hmem)
    -- a channel that waits for the socket is not half-closed yet
    have hlog : (shutdown levelMasks t.session).log = t.session.log := by
      rw [shutdown]
      split
      · have hbusy : ((t.session.setState .kDisconnecting).conn.channel.isWriting levelMasks) =
            true := hwriting
        rw [shutdownInLoop, hbusy]
        rfl
      · rfl
    exact hbefore (hlog ▸ hclosed)

/-- The step lemma of the sending end. -/
theorem Sending.step (h : Sending t) (hidle : SentIdle levelMasks t op)
    (hopen : .shutdownWrite ∈ t.session.log → op.payload = []) :
    Outcome (outputStep levelMasks t op) (fun t' ↦ Sending t' ∧ t'.sent = t.sent ++ op.payload ∧
      acceptedBytes t.session.log <+: acceptedBytes t'.session.log ∧
      (.shutdownWrite ∈ t.session.log → .shutdownWrite ∈ t'.session.log)) BufferFault := by
  have hstep := outputStep_of_sentIdle h.inv h.integrity hidle
  refine outcome_of (fun t' ht' ↦ ?_) fun e he ↦ ?_
  · obtain ⟨hout, hint⟩ := hstep.of_ok ht'
    obtain ⟨s', hs', heq⟩ := bind_eq_ok.mp ht'
    obtain rfl := Except.ok.inj heq
    have hlog := output_log h.inv.live hs'
    obtain ⟨more, hmore⟩ := hlog
    refine ⟨⟨hout, hint, h.halfClosed_step hopen hs'⟩, rfl, ?_, fun hmem ↦ ?_⟩
    · change acceptedBytes t.session.log <+: acceptedBytes s'.log
      rw [← hmore, acceptedBytes_append]
      exact List.prefix_append _ _
    · exact hmore ▸ List.mem_append_left more hmem
  · rw [he] at hstep
    rw [hstep]
    exact trivial

/-! ## Both ends -/

/-- What the peer was offered before it went down. -/
def Link.offered (l : Link) : List Byte := (heard (beforeClose l.receiver.log)).offered

/-- The other end has been offered what has arrived, and goes down when that is everything. -/
structure Linked (l : Link) : Prop where
  sending : Sending l.sender
  arrived_le : l.arrived ≤ (acceptedBytes l.sender.session.log).length
  receiving : Open l.receiver ((acceptedBytes l.sender.session.log).take l.arrived) ∨
    Shut l.receiver (acceptedBytes l.sender.session.log) ∧
      .shutdownWrite ∈ l.sender.session.log ∧
      l.arrived = (acceptedBytes l.sender.session.log).length

/-- After the half-close everything is with the kernel. -/
theorem Sending.accepted_eq (h : Sending t) (hclosed : .shutdownWrite ∈ t.session.log) :
    acceptedBytes t.session.log = t.sent := by
  have hint : t.sent = acceptedBytes t.session.log ++ t.session.conn.outputBuffer.readable :=
    h.integrity
  rw [hint, h.halfClosed hclosed, List.append_nil]

theorem Linked.output (h : Linked l) (hidle : PassedIdle l (.output op)) :
    Outcome (linkStep l (.output op)) (fun l' ↦ Linked l' ∧
      l'.sender.sent = l.sender.sent ++ op.payload) BufferFault := by
  rw [linkStep]
  split
  · exact trivial
  · rename_i hopen
    have hopen' : .shutdownWrite ∈ l.sender.session.log → op.payload = [] := fun hmem ↦
      not_not.mp fun hne ↦ hopen ⟨hmem, hne⟩
    refine (h.sending.step hidle hopen').bind fun t' ⟨hsending, hsent, haccepted, hclosed⟩ ↦ ?_
    refine ⟨⟨hsending, h.arrived_le.trans haccepted.length_le, ?_⟩, hsent⟩
    rcases h.receiving with hup | ⟨hshut, hmem, harrived⟩
    · left
      obtain ⟨more, hmore⟩ := haccepted
      change Open l.receiver ((acceptedBytes t'.session.log).take l.arrived)
      rw [← hmore, List.take_append_of_le_length h.arrived_le]
      exact hup
    · -- after the half-close nothing more is sent
      have hsame : acceptedBytes t'.session.log = acceptedBytes l.sender.session.log := by
        rw [hsending.accepted_eq (hclosed hmem), hsent, hopen' hmem, List.append_nil,
          h.sending.accepted_eq hmem]
      right
      change Shut l.receiver (acceptedBytes t'.session.log) ∧ _ ∧
        l.arrived = (acceptedBytes t'.session.log).length
      rw [hsame]
      exact ⟨hshut, hclosed hmem, harrived⟩

/-- The connection at the other end is up. -/
theorem Linked.up (h : Linked l) (hstate : ¬l.receiver.conn.state = .kDisconnected) :
    Open l.receiver ((acceptedBytes l.sender.session.log).take l.arrived) := by
  rcases h.receiving with hup | ⟨hshut, -⟩
  · exact hup
  · exact absurd hshut.closed hstate

theorem Linked.delivers (h : Linked l) (count consumed : ℕ) :
    Outcome (linkStep l (.delivers count consumed)) (fun l' ↦ Linked l' ∧
      l'.sender = l.sender) BufferFault := by
  rw [linkStep]
  split
  · exact trivial
  · rename_i hready
    obtain ⟨hstate, hne⟩ := not_or.mp hready
    have hup := h.up hstate
    set bytes := l.underWay.take count with hbytes
    have hpos : 0 < readRet levelMasks [.data bytes] := by
      change (0 : ℤ) < bytes.length
      exact Int.natCast_pos.mpr (List.length_pos_iff.mpr hne)
    have harriving : (acceptedBytes l.sender.session.log).take (l.arrived + bytes.length) =
        (acceptedBytes l.sender.session.log).take l.arrived ++ bytes := by
      rw [List.take_add]
      exact congrArg _ (List.prefix_iff_eq_take.mp (List.take_prefix _ _)).symm
    refine (hup.of_pos (c := ⟨[.data bytes], consumed⟩) hpos).bind fun r hr ↦ ?_
    refine ⟨⟨h.sending, ?_, Or.inl ?_⟩, rfl⟩
    · have hle : bytes.length ≤ l.underWay.length := by
        rw [hbytes, List.length_take]
        exact Nat.min_le_right _ _
      rw [Link.underWay, List.length_drop] at hle
      have harrived := h.arrived_le
      change l.arrived + bytes.length ≤ (acceptedBytes l.sender.session.log).length
      omega
    · change Open r ((acceptedBytes l.sender.session.log).take (l.arrived + bytes.length))
      rw [harriving]
      exact hr

theorem Linked.ends (h : Linked l) :
    Outcome (linkStep l .ends) (fun l' ↦ Linked l' ∧ l'.sender = l.sender) BufferFault := by
  rw [linkStep]
  split
  · exact trivial
  · rename_i hready
    obtain ⟨hstate, hrest⟩ := not_or.mp hready
    obtain ⟨hclosed, hempty⟩ := not_or.mp hrest
    have hnil : l.underWay = [] := not_not.mp hempty
    have harrived : l.arrived = (acceptedBytes l.sender.session.log).length := by
      have hlen := congrArg List.length hnil
      rw [Link.underWay, List.length_drop, List.length_nil] at hlen
      have hle := h.arrived_le
      omega
    have hup := h.up hstate
    rw [harrived, List.take_length] at hup
    refine (hup.of_zero (c := ⟨[.data []], 0⟩) rfl).bind fun r hr ↦ ?_
    exact ⟨⟨h.sending, h.arrived_le, Or.inr ⟨hr.1, not_not.mp hclosed, harrived⟩⟩, rfl⟩

/-- The step lemma. -/
theorem Linked.step (h : Linked l) (hidle : PassedIdle l i) :
    Outcome (linkStep l i) (fun l' ↦ Linked l' ∧ l'.sender.sent = l.sender.sent ++ i.payload)
      BufferFault := by
  cases i with
  | output op => exact h.output hidle
  | delivers count consumed =>
    refine (h.delivers count consumed).imp fun l' hl' ↦ ⟨hl'.1, ?_⟩
    rw [hl'.2]
    exact (List.append_nil _).symm
  | ends =>
    refine h.ends.imp fun l' hl' ↦ ⟨hl'.1, ?_⟩
    rw [hl'.2]
    exact (List.append_nil _).symm

/-- The run lemma. -/
theorem Linked.run {steps : List LinkStep} (h : Linked l)
    (hidle : Along linkStep PassedIdle l steps) :
    Outcome (Machine.run linkStep l steps) (fun l' ↦ Linked l' ∧
      l'.sender.sent = l.sender.sent ++ steps.flatMap LinkStep.payload) BufferFault := by
  induction steps generalizing l with
  | nil => exact ⟨h, (List.append_nil _).symm⟩
  | cons i steps ih =>
    obtain ⟨hi, hrest⟩ := along_cons.mp hidle
    have hstep := h.step hi
    cases hl' : linkStep l i with
    | error e =>
      rw [hl'] at hstep
      rw [Machine.run, hl']
      exact hstep
    | ok l' =>
      obtain ⟨hlinked, hsent⟩ := hstep.of_ok hl'
      rw [Machine.run, hl', List.flatMap_cons, ← List.append_assoc, ← hsent]
      exact ih hlinked (hrest l' hl')

theorem Linked.offered_eq (h : Linked l) :
    l.offered = (acceptedBytes l.sender.session.log).take l.arrived := by
  rcases h.receiving with hup | ⟨hshut, -, harrived⟩
  · rw [Link.offered, hup.unclosed, hup.offered]
  · rw [Link.offered, hshut.inTime, harrived, List.take_length]

/-- Two connections that were just established. -/
theorem linked_established {ptr ptr' : ℕ} {fd fd' : ℤ} {wc wc' : Bool} {hw hw' : Option ℕ}
    {conn conn' : TcpConnection} {poller poller' : EpollPoller}
    (hnew : TcpConnection.new ptr fd wc hw = .ok conn)
    (hfresh : poller.Stands conn.channel .fresh)
    (hnew' : TcpConnection.new ptr' fd' wc' hw' = .ok conn')
    (hfresh' : poller'.Stands conn'.channel .fresh)
    (hest : connectEstablished levelMasks (.start conn poller) [] = .ok s)
    (hest' : connectEstablished levelMasks (.start conn' poller') [] = .ok s') :
    Linked ⟨⟨s, []⟩, s', 0⟩ := by
  obtain ⟨hout, hint⟩ := outputInv_established (fresh_start hnew hfresh) hest
  have hnone : acceptedBytes s.log ++ s.conn.outputBuffer.readable = [] := hint.symm
  obtain ⟨haccepted, hread⟩ := List.append_eq_nil_iff.mp hnone
  refine ⟨⟨hout, hint, fun _ ↦ hread⟩, Nat.zero_le _, Or.inl ?_⟩
  exact open_established hnew' hfresh' hest'

/-- **From end to end.** What was sent is what the other end was offered, then what is under way and
then what waits to be written, and when the other end has gone down it was offered everything. While
it is up, what its callback has not retrieved is in its input buffer. -/
theorem end_to_end {ptr ptr' : ℕ} {fd fd' : ℤ} {wc wc' : Bool} {hw hw' : Option ℕ}
    {conn conn' : TcpConnection} {poller poller' : EpollPoller}
    (hnew : TcpConnection.new ptr fd wc hw = .ok conn)
    (hfresh : poller.Stands conn.channel .fresh)
    (hnew' : TcpConnection.new ptr' fd' wc' hw' = .ok conn')
    (hfresh' : poller'.Stands conn'.channel .fresh)
    (hest : connectEstablished levelMasks (.start conn poller) [] = .ok s)
    (hest' : connectEstablished levelMasks (.start conn' poller') [] = .ok s')
    {steps : List LinkStep} (hidle : Along linkStep PassedIdle ⟨⟨s, []⟩, s', 0⟩ steps) :
    Outcome (Machine.run linkStep ⟨⟨s, []⟩, s', 0⟩ steps) (fun l ↦
      steps.flatMap LinkStep.payload =
          l.offered ++ l.underWay ++ l.sender.session.conn.outputBuffer.readable ∧
        (l.receiver.conn.state = .kDisconnected →
          l.offered = steps.flatMap LinkStep.payload) ∧
        (l.receiver.conn.state ≠ .kDisconnected →
          (heard l.receiver.log).taken ++ l.receiver.conn.inputBuffer.readable = l.offered))
      BufferFault := by
  have hlinked := linked_established hnew hfresh hnew' hfresh' hest hest'
  refine (hlinked.run hidle).imp fun l ⟨hl, hsent⟩ ↦ ?_
  have hint : l.sender.sent = acceptedBytes l.sender.session.log ++
      l.sender.session.conn.outputBuffer.readable := hl.sending.integrity
  rw [List.nil_append] at hsent
  rw [← hsent]
  refine ⟨?_, fun hdown ↦ ?_, fun hup ↦ ?_⟩
  · rw [hl.offered_eq, Link.underWay, List.take_append_drop]
    exact hint
  · rcases hl.receiving with hup | ⟨hshut, hclosed, -⟩
    · rcases hup.up with hup | hup <;> exact absurd (hdown.symm.trans hup) (by decide)
    · rw [Link.offered, hshut.inTime]
      exact hl.sending.accepted_eq hclosed
  · rw [hl.offered_eq]
    exact (hl.up hup).buffered

/-- Five bytes in two sends: the first is accepted in part and drained later, and the second end
reads two, then the rest, and then the end of its input. -/
theorem end_to_end_five :
    ∃ s, connectEstablished levelMasks (.start newConn .new) [] = .ok s ∧
      Outcome (Machine.run linkStep ⟨⟨s, []⟩, s, 0⟩
        [.output (.sendInLoop ⟨[1, 2, 3], by decide⟩ (some 1)), .output (.handleWrite (some 2)),
          .delivers 2 1, .output (.sendInLoop ⟨[4, 5], by decide⟩ (some 2)), .output .shutdown,
          .delivers 9 0, .ends])
        (fun l ↦ l.receiver.conn.state = .kDisconnected → l.offered = [1, 2, 3, 4, 5])
        BufferFault := by
  obtain ⟨s, hs⟩ : ∃ s, connectEstablished levelMasks (.start newConn .new) [] = .ok s := ⟨_, rfl⟩
  have hidle : Outcome (connectEstablished levelMasks (.start newConn .new) []) (fun s ↦
      Along linkStep PassedIdle ⟨⟨s, []⟩, s, 0⟩
        [.output (.sendInLoop ⟨[1, 2, 3], by decide⟩ (some 1)), .output (.handleWrite (some 2)),
          .delivers 2 1, .output (.sendInLoop ⟨[4, 5], by decide⟩ (some 2)), .output .shutdown,
          .delivers 9 0, .ends]) (fun _ ↦ False) := by
    decide +kernel
  exact ⟨s, hs, (end_to_end new_eq_newConn stands_newConn new_eq_newConn stands_newConn hs hs
    (hidle.of_ok hs)).imp fun _ h ↦ h.2.1⟩

end TcpConnection

end Twnl
