import Twnl.TcpConnection.Stream

/-!
# The high-water mark

The connection tells its owner when the bytes passed to `sendInLoop` and not yet taken by the kernel
reach the mark. `sendInLoop` looks at the output buffer for this, and only where it buffers, which
is in the branch for a direct write. There the buffer is empty, so that what is compared with the
mark, and handed to the callback, is what one payload leaves.

## When that is the number

A payload that finds something waiting is dropped without a look at the mark, and what was dropped
before is missing in the buffer. So the notices are right exactly when the number is taken across
the mark by payloads that find nothing outstanding (`notifies_iff_fromNothing`); many small sends to
a peer that has stalled, for which the mark is there, are never noticed.
-/

namespace Twnl

namespace TcpConnection

open Buffer Machine WriteResult

/-- The arguments of the high-water-mark callbacks in a queue. -/
def notices (fs : List Functor) : List ℕ :=
  fs.filterMap fun
    | .highWaterMarkCallback len => some len
    | .sendInLoop _ | .shutdownInLoop | .forceCloseInLoop | .startReadInLoop | .stopReadInLoop
    | .writeCompleteCallback => none

/-- The number of bytes passed to `sendInLoop` and not yet taken by the kernel. -/
def Sent.outstanding (t : Sent) : ℕ := t.sent.length - (acceptedBytes t.session.log).length

/-- The notice due for a step: the number, if it rises from below the mark to it. -/
def due (mark : ℕ) (t t' : Sent) : List ℕ :=
  if t.outstanding < mark ∧ mark ≤ t'.outstanding then [t'.outstanding] else []

/-- An operation queues the notice that is due for it, and no other. -/
def Notifies (k : Masks) (mark : ℕ) (t : Sent) (op : OutputOp) : Prop :=
  Outcome (outputStep k t op) (fun t' ↦ notices t'.session.pendingFunctors =
    notices t.session.pendingFunctors ++ due mark t t') (fun _ ↦ True)

instance (k : Masks) (mark : ℕ) (t : Sent) : DecidablePred (Notifies k mark t) := fun _ ↦
  Outcome.decidable _ _ _

instance (k : Masks) (s : Session) : Decidable (Idle k s) := inferInstanceAs (Decidable (_ ∧ _))

/-- The bytes an operation passes that the kernel does not take: it is offered those that find the
connection idle. -/
def leftover (k : Masks) (s : Session) : OutputOp → ℕ
  | .sendInLoop payload answer =>
    if Idle k s then ((answerOf answer).remaining payload.bytes).length else payload.bytes.length
  | .handleWrite _ | .shutdown => 0

/-- An operation finds nothing outstanding, or it does not take the number across the mark, nor
leave that much of a payload with an idle connection. -/
def FromNothing (k : Masks) (mark : ℕ) (t : Sent) (op : OutputOp) : Prop :=
  t.outstanding = 0 ∨
    ((mark ≤ t.outstanding ∨ t.outstanding + leftover k t.session op < mark) ∧
      (Idle k t.session → leftover k t.session op < mark))

instance (k : Masks) (mark : ℕ) (t : Sent) : DecidablePred (FromNothing k mark t) := fun _ ↦
  inferInstanceAs (Decidable (_ ∨ _))

/-- The invariant: the mark is set, and what was sent covers what is with the kernel and in the
buffer. -/
structure Marked (k : Masks) (mark : ℕ) (t : Sent) : Prop where
  inv : OutputInv k t.session
  mark_eq : t.session.conn.highWaterMark = mark
  set : t.session.conn.highWaterMarkCallback = true
  covered : (acceptedBytes t.session.log).length + t.session.conn.outputBuffer.readable.length ≤
    t.sent.length

variable {k : Masks} {s s' : Session} {t t' : Sent} {op : OutputOp} {data : List Byte}
  {answer : WriteResult} {mark : ℕ}

@[simp] theorem notices_append (fs gs : List Functor) :
    notices (fs ++ gs) = notices fs ++ notices gs := List.filterMap_append

/-! ## What is queued -/

@[simp] theorem notices_noteWriteComplete (s : Session) :
    notices (noteWriteComplete s).pendingFunctors = notices s.pendingFunctors := by
  rw [noteWriteComplete_pendingFunctors, notices_append]
  split
  · exact List.append_nil _
  · exact List.append_nil _

@[simp] theorem notices_directWrite (s : Session) (data : List Byte) (answer : WriteResult) :
    notices (directWrite s data answer).pendingFunctors = notices s.pendingFunctors := by
  rw [directWrite]
  split
  · rw [notices_noteWriteComplete]
    rfl
  · rfl

@[simp] theorem shutdownInLoop_pendingFunctors (s : Session) :
    (shutdownInLoop k s).pendingFunctors = s.pendingFunctors := by
  rw [shutdownInLoop]
  split <;> rfl

/-- With an empty buffer, the note is of what one payload leaves. -/
theorem notices_noteHighWater (h : s.conn.outputBuffer.readableBytes = 0)
    (hset : s.conn.highWaterMarkCallback = true) {len : ℕ} (hlen : len ≤ maxSize)
    (hmark : 0 < s.conn.highWaterMark) :
    notices (noteHighWater s len).pendingFunctors = notices s.pendingFunctors ++
      (if s.conn.highWaterMark ≤ len then [len] else []) := by
  have hmax := maxSize_add_maxSize_lt
  have hadd : sizeAdd 0 len = len := by
    rw [sizeAdd_eq (by omega), Nat.zero_add]
  rw [noteHighWater, h, hadd, hset]
  by_cases hle : s.conn.highWaterMark ≤ len
  · rw [if_pos ⟨hle, hmark, rfl⟩, if_pos hle]
    exact notices_append _ _
  · rw [if_neg fun hcond ↦ hle hcond.1, if_neg hle, List.append_nil]

/-- What no move changes or takes back: the settings of the mark, and what the kernel accepted. -/
structure Onward (s s' : Session) : Prop where
  mark_eq : s'.conn.highWaterMark = s.conn.highWaterMark
  set_eq : s'.conn.highWaterMarkCallback = s.conn.highWaterMarkCallback
  accepted : acceptedBytes s.log <+: acceptedBytes s'.log

theorem Onward.trans {s'' : Session} (h : Onward s s') (h' : Onward s' s'') : Onward s s'' :=
  ⟨h'.mark_eq.trans h.mark_eq, h'.set_eq.trans h.set_eq, h.accepted.trans h'.accepted⟩

theorem Called.onward {a : Channel.Call} (h : Called k s a s') : Onward s s' := by
  rw [h.same]
  exact ⟨rfl, rfl, List.prefix_refl _⟩

theorem Move.onward {r : Bool} (h : Move k r s s') (hs : Live s) : Onward s s' := by
  cases h with
  | output _ | input _ | queue _ | queueReading _ _ | dequeue _ | revents _ | calls _ _
  | halfClose _ => exact ⟨rfl, rfl, List.prefix_refl _⟩
  | record _ =>
    refine ⟨rfl, rfl, ?_⟩
    change acceptedBytes s.log <+: acceptedBytes (s.log ++ [_])
    rw [acceptedBytes_append]
    exact List.prefix_append _ _
  | enableWriting _ hcall | disableWriting _ hcall => exact (Called.of_ok hs hcall).onward
  | startRead _ _ hcall | stopRead _ _ _ hcall =>
    have honward := (Called.of_ok hs hcall).onward
    exact ⟨honward.mark_eq, honward.set_eq, honward.accepted⟩

theorem Moves.onward {r : Bool} (h : Moves k r s s') (hs : Live s) : Onward s s' := by
  induction h with
  | refl => exact ⟨rfl, rfl, List.prefix_refl _⟩
  | tail hfirst hlast ih => exact ih.trans (hlast.onward (Moves.live hfirst hs))

/-- What an idle connection queues for a payload is the notice of what is left of it. -/
theorem notices_sendInLoop_of_idle (h : OutputInv k s) (hidle : Idle k s)
    (hset : s.conn.highWaterMarkCallback = true) (hmark : 0 < s.conn.highWaterMark)
    (hlen : data.length ≤ maxSize) (hfault : faultError answer = false)
    (hs' : sendInLoop k s data answer = .ok s') :
    notices s'.pendingFunctors = notices s.pendingFunctors ++
      (if s.conn.highWaterMark ≤ (answer.remaining data).length
        then [(answer.remaining data).length] else []) := by
  have hzero := h.live.output.readableBytes_eq_zero_iff.mpr hidle.2
  have hconn := directWrite_conn s data answer
  rw [sendInLoop, if_neg h.state_ne, hidle.1, hzero, if_pos (by decide),
    check_pos (answer.length_remaining_le data), bind_ok, hfault] at hs'
  by_cases hrest : answer.remaining data = []
  · rw [if_neg (by simp [hrest])] at hs'
    rw [← Except.ok.inj hs', notices_directWrite, hrest, List.length_nil, if_neg (by omega),
      List.append_nil]
  · rw [if_pos (by simp [hrest]), bufferRemaining] at hs'
    obtain ⟨b, hb, hs'⟩ := bind_eq_ok.mp hs'
    have hle : (answer.remaining data).length ≤ maxSize :=
      Nat.le_trans (answer.length_remaining_le data) hlen
    have hnote := notices_noteHighWater (s := directWrite s data answer) (by rw [hconn, hzero])
      (by rw [hconn, hset]) hle (by rw [hconn]; exact hmark)
    rw [hconn, notices_directWrite] at hnote
    -- switching the interest in writing on queues nothing
    have hsame : s'.pendingFunctors = (noteHighWater (directWrite s data answer)
        (answer.remaining data).length).pendingFunctors := by
      rw [awaitWritable] at hs'
      split at hs'
      · have hwrote : Live (directWrite s data answer) :=
          (directWrite_moves (k := k) (r := false) s data answer).live h.live
        have hout : (directWrite s data answer).conn.outputBuffer.WF := hwrote.output
        have hbuffered := (buffered_moves (k := k) (r := false) (directWrite s data answer)
          (answer.remaining data).length (append_ok hout hb).1).live hwrote
        rw [(Called.of_ok hbuffered hs').same]
        rfl
      · rw [← Except.ok.inj hs']
        rfl
    rw [hsame, hnote]

/-! ## One operation -/

/-- A connection with nothing outstanding is idle. -/
theorem Marked.idle_of_nothing (h : Marked k mark t) (hzero : t.outstanding = 0) :
    Idle k t.session := by
  have hcovered := h.covered
  rw [Sent.outstanding] at hzero
  have hnil : t.session.conn.outputBuffer.readable = [] :=
    List.length_eq_zero_iff.mp (by omega)
  refine ⟨?_, hnil⟩
  cases hwriting : t.session.conn.channel.isWriting k with
  | false => rfl
  | true => exact absurd hnil (h.inv.writing.mp hwriting)

/-- The count an idle connection queues, next to the one that is due. -/
theorem due_eq_iff {p p' l : ℕ} {idle : Prop} [Decidable idle] (hmark : 0 < mark)
    (hidle : p = 0 → idle) (hp : p' = p + l) :
    (if idle ∧ mark ≤ l then [l] else []) = (if p < mark ∧ mark ≤ p' then [p'] else []) ↔
      p = 0 ∨ ((mark ≤ p ∨ p + l < mark) ∧ (idle → l < mark)) := by
  subst hp
  by_cases htold : idle ∧ mark ≤ l
  · rw [if_pos htold]
    by_cases hcross : p < mark ∧ mark ≤ p + l
    · rw [if_pos hcross, List.cons.injEq, and_iff_left rfl]
      constructor
      · intro heq
        exact Or.inl (by omega)
      · rintro (hzero | ⟨-, hsmall⟩)
        · omega
        · exact absurd (hsmall htold.1) (Nat.not_lt.mpr htold.2)
    · rw [if_neg hcross]
      refine iff_of_false (List.cons_ne_nil _ _) ?_
      rintro (hzero | ⟨-, hsmall⟩)
      · exact hcross ⟨by omega, by omega⟩
      · exact absurd (hsmall htold.1) (Nat.not_lt.mpr htold.2)
  · rw [if_neg htold]
    by_cases hcross : p < mark ∧ mark ≤ p + l
    · rw [if_pos hcross]
      refine iff_of_false (List.cons_ne_nil _ _).symm ?_
      rintro (hzero | ⟨hbelow, -⟩)
      · exact htold ⟨hidle hzero, by omega⟩
      · omega
    · rw [if_neg hcross]
      refine iff_of_true rfl (Or.inr ⟨by omega, fun hi ↦ ?_⟩)
      exact Nat.lt_of_not_le fun hle ↦ htold ⟨hi, hle⟩

/-- A payload is left with the connection as far as the kernel does not take it. -/
theorem send_marked (h : Marked k mark t) (hk : k.kWriteEvent ≠ 0) (hmark : 0 < mark)
    {payload : Payload} {answer : Option ℕ}
    (hstep : outputStep k t (.sendInLoop payload answer) = .ok t') :
    Marked k mark t' ∧
      t'.outstanding = t.outstanding + leftover k t.session (.sendInLoop payload answer) ∧
      notices t'.session.pendingFunctors = notices t.session.pendingFunctors ++
        (if Idle k t.session ∧ mark ≤ leftover k t.session (.sendInLoop payload answer)
          then [leftover k t.session (.sendInLoop payload answer)] else []) := by
  obtain ⟨s', hs', hstep⟩ := bind_eq_ok.mp hstep
  obtain rfl := Except.ok.inj hstep
  have hcovered := h.covered
  have hsent : (t.sent ++ payload.bytes).length = t.sent.length + payload.bytes.length :=
    List.length_append
  by_cases hidle : Idle k t.session
  · have hfault := faultError_answerOf answer
    have hmoves := (sendInLoop_moves (r := false) h.inv.live).of_ok hs'
    have honward := hmoves.onward h.inv.live
    obtain ⟨hinv, hlog, hread⟩ :=
      (sendInLoop_of_idle h.inv hk hidle payload.length_le hfault).of_ok hs'
    have hnotices := notices_sendInLoop_of_idle h.inv hidle h.set (by rw [h.mark_eq]; exact hmark)
      payload.length_le hfault hs'
    have hsplit := congrArg List.length ((answerOf answer).taken_append_remaining payload.bytes)
    rw [List.length_append] at hsplit
    have hleft : leftover k t.session (.sendInLoop payload answer) =
        ((answerOf answer).remaining payload.bytes).length := if_pos hidle
    have hlength : (acceptedBytes s'.log).length =
        (acceptedBytes t.session.log).length +
          ((answerOf answer).taken payload.bytes).length := by
      rw [hlog, List.length_append]
    rw [h.mark_eq] at hnotices
    refine ⟨⟨hinv, honward.mark_eq.trans h.mark_eq, honward.set_eq.trans h.set, ?_⟩, ?_, ?_⟩
    · change _ ≤ (t.sent ++ payload.bytes).length
      rw [hread, hlength, hsent]
      omega
    · change (t.sent ++ payload.bytes).length - (acceptedBytes s'.log).length = _
      rw [hleft, hlength, hsent, Sent.outstanding]
      omega
    · simpa [hleft, hidle] using hnotices
  · change sendInLoop k t.session payload.bytes (answerOf answer) = .ok s' at hs'
    rw [sendInLoop_of_waiting h.inv hidle] at hs'
    obtain rfl := Except.ok.inj hs'
    have hleft : leftover k t.session (.sendInLoop payload answer) = payload.bytes.length :=
      if_neg hidle
    refine ⟨⟨h.inv, h.mark_eq, h.set, ?_⟩, ?_, ?_⟩
    · exact hcovered.trans (hsent ▸ Nat.le_add_right _ _)
    · change (t.sent ++ payload.bytes).length - (acceptedBytes t.session.log).length = _
      rw [hleft, hsent, Sent.outstanding]
      omega
    · rw [if_neg fun hcond ↦ hidle hcond.1, List.append_nil]

/-- A drain by a level-triggered channel queues no notice. -/
theorem notices_handleWrite_LT (h : OutputInv levelMasks s) {writes : ℕ → WriteResult}
    (hs' : handleWrite levelMasks s writes = .ok s') :
    notices s'.pendingFunctors = notices s.pendingFunctors := by
  cases hwriting : s.conn.channel.isWriting levelMasks with
  | false =>
    rw [handleWrite_of_not_writing hwriting] at hs'
    rw [← Except.ok.inj hs']
  | true =>
    obtain ⟨w, hw, hwf, -⟩ := writeOutput_spec levelMasks h.live.output writes
    by_cases hdone : 0 < w.ret ∧ w.buffer.readableBytes = 0
    · obtain ⟨s₁, s₂, hs₂, hcalled, heq⟩ :=
        handleWrite_of_empty h.live hwriting hw hwf hdone.1 hdone.2
      obtain rfl := Except.ok.inj (hs₂.symm.trans hs')
      have hsame : notices s₁.pendingFunctors = notices s.pendingFunctors := by
        rw [hcalled.same]
        rfl
      rw [heq]
      split
      · rw [shutdownInLoop_pendingFunctors, notices_noteWriteComplete, hsame]
      · rw [notices_noteWriteComplete, hsame]
    · rw [handleWrite_of_left hwriting hw hdone] at hs'
      rw [← Except.ok.inj hs']
      rfl

/-- What moves bytes from the buffer to the kernel keeps the invariant, and lowers the number. -/
theorem Marked.keep (h : Marked k mark t) (hinv : OutputInv k s') (honward : Onward t.session s')
    (hstream : acceptedBytes s'.log ++ s'.conn.outputBuffer.readable =
      acceptedBytes t.session.log ++ t.session.conn.outputBuffer.readable) :
    Marked k mark ⟨s', t.sent ++ []⟩ ∧ (⟨s', t.sent ++ []⟩ : Sent).outstanding ≤ t.outstanding := by
  have hlength := congrArg List.length hstream
  have hmore := honward.accepted.length_le
  have hcovered := h.covered
  rw [List.length_append, List.length_append] at hlength
  rw [List.append_nil]
  refine ⟨⟨hinv, honward.mark_eq.trans h.mark_eq, honward.set_eq.trans h.set, ?_⟩, ?_⟩
  · exact hlength.trans_le hcovered
  · exact Nat.sub_le_sub_left hmore _

/-- A drain takes nothing across the mark, and queues no notice. -/
theorem handleWrite_marked (h : Marked levelMasks mark t) {answer : Option ℕ}
    (hstep : outputStep levelMasks t (.handleWrite answer) = .ok t') :
    Marked levelMasks mark t' ∧ t'.outstanding ≤ t.outstanding ∧
      notices t'.session.pendingFunctors = notices t.session.pendingFunctors := by
  obtain ⟨s', hs', hstep⟩ := bind_eq_ok.mp hstep
  obtain rfl := Except.ok.inj hstep
  have hmoves := (handleWrite_moves (r := false) h.inv.live fun _ ↦ answerOf answer).of_ok hs'
  obtain ⟨s₁, hs₁, hinv, hstream⟩ := handleWrite_LT h.inv (answerOf answer)
  obtain rfl := Except.ok.inj (hs₁.symm.trans hs')
  obtain ⟨hmarked, hle⟩ := h.keep hinv (hmoves.onward h.inv.live) hstream
  have hnotices : notices s₁.pendingFunctors = notices t.session.pendingFunctors :=
    notices_handleWrite_LT h.inv hs₁
  exact ⟨hmarked, hle, hnotices⟩

/-- Nor does a half close. -/
theorem shutdown_marked (h : Marked levelMasks mark t)
    (hstep : outputStep levelMasks t .shutdown = .ok t') :
    Marked levelMasks mark t' ∧ t'.outstanding ≤ t.outstanding ∧
      notices t'.session.pendingFunctors = notices t.session.pendingFunctors := by
  obtain ⟨s', hs', hstep⟩ := bind_eq_ok.mp hstep
  obtain rfl := Except.ok.inj hstep
  obtain ⟨hinv, hlog, hbuf⟩ := shutdown_output h.inv
  obtain rfl := Except.ok.inj hs'
  have hmoves : Moves levelMasks false t.session (shutdown levelMasks t.session) :=
    userCall_moves (c := .shutdown) h.inv.live (Or.inl rfl)
  obtain ⟨hmarked, hle⟩ := h.keep hinv (hmoves.onward h.inv.live) (by rw [hlog, hbuf])
  refine ⟨hmarked, hle, ?_⟩
  change notices (shutdown levelMasks t.session).pendingFunctors = _
  rw [shutdown]
  split
  · rw [shutdownInLoop_pendingFunctors]
    rfl
  · rfl

/-- From the invariant, an operation that returns queues the right notice exactly when it finds
nothing outstanding, or does not take the number across the mark. -/
theorem notifies_iff_fromNothing_step (h : Marked levelMasks mark t) (hmark : 0 < mark)
    (hstep : outputStep levelMasks t op = .ok t') :
    Marked levelMasks mark t' ∧
      (Notifies levelMasks mark t op ↔ FromNothing levelMasks mark t op) := by
  have hquiet : leftover levelMasks t.session op = 0 → t'.outstanding ≤ t.outstanding →
      notices t'.session.pendingFunctors = notices t.session.pendingFunctors →
      (Notifies levelMasks mark t op ↔ FromNothing levelMasks mark t op) := by
    intro hleft hle hsame
    rw [Notifies, hstep, outcome_ok, hsame, due, if_neg fun hcross ↦ by omega, FromNothing, hleft]
    refine iff_of_true (List.append_nil _).symm (Or.inr ⟨by omega, fun _ ↦ hmark⟩)
  cases op with
  | sendInLoop payload answer =>
    obtain ⟨hmarked, hcount, hnotices⟩ :=
      send_marked h (Masks.kWriteEvent_ne_zero .LT) hmark hstep
    refine ⟨hmarked, ?_⟩
    rw [Notifies, hstep, outcome_ok, hnotices, List.append_cancel_left_eq, due]
    exact due_eq_iff hmark h.idle_of_nothing hcount
  | handleWrite answer =>
    obtain ⟨hmarked, hle, hsame⟩ := handleWrite_marked h hstep
    exact ⟨hmarked, hquiet rfl hle hsame⟩
  | shutdown =>
    obtain ⟨hmarked, hle, hsame⟩ := shutdown_marked h hstep
    exact ⟨hmarked, hquiet rfl hle hsame⟩

/-! ## Whole runs -/

/-- A connection that was just established with a mark. -/
theorem marked_established {ptr : ℕ} {fd : ℤ} {wc : Bool} {conn : TcpConnection}
    {poller : EpollPoller} (hnew : TcpConnection.new ptr fd wc (some mark) = .ok conn)
    (hfresh : poller.Stands conn.channel .fresh)
    (hest : connectEstablished levelMasks (.start conn poller) [] = .ok s) :
    Marked levelMasks mark ⟨s, []⟩ := by
  have hstart := fresh_start hnew hfresh
  obtain ⟨hinv, hint⟩ := outputInv_established hstart hest
  obtain ⟨s₁, hcalled, -, heq⟩ := connectEstablished_of_fresh (k := levelMasks) hstart []
  obtain rfl : s₁.record (.connectionCallback s₁.glance) = s :=
    Except.ok.inj (heq.symm.trans hest)
  obtain ⟨input, -, hnew⟩ := bind_eq_ok.mp hnew
  obtain ⟨output, -, hnew⟩ := bind_eq_ok.mp hnew
  have honward := hcalled.onward
  refine ⟨hinv, honward.mark_eq.trans ?_, honward.set_eq.trans ?_, ?_⟩
  · rw [← Except.ok.inj hnew]
    rfl
  · rw [← Except.ok.inj hnew]
    rfl
  · have hlength := congrArg List.length hint
    rw [List.length_append] at hlength
    exact hlength.ge

/-- **Back-pressure.** Along every run of sends, drains and half-closes of a level-triggered
connection established with a mark, the notices are right exactly when every operation finds nothing
outstanding, or neither takes the number across the mark nor leaves that much of a payload with an
idle connection. -/
theorem notifies_iff_fromNothing {ptr : ℕ} {fd : ℤ} {wc : Bool} {conn : TcpConnection}
    {poller : EpollPoller} (hmark : 0 < mark)
    (hnew : TcpConnection.new ptr fd wc (some mark) = .ok conn)
    (hfresh : poller.Stands conn.channel .fresh)
    (hest : connectEstablished levelMasks (.start conn poller) [] = .ok s) {ops : List OutputOp}
    (hrun : run (outputStep levelMasks) ⟨s, []⟩ ops = .ok t) :
    Along (outputStep levelMasks) (Notifies levelMasks mark) ⟨s, []⟩ ops ↔
      Along (outputStep levelMasks) (FromNothing levelMasks mark) ⟨s, []⟩ ops := by
  refine along_congr_of (I := Marked levelMasks mark) (fun t op t' ht _ _ hstep ↦ ?_)
    (fun t op ht hok ↦ ?_) (marked_established hnew hfresh hest) (along_ok hrun)
  · exact (notifies_iff_fromNothing_step ht hmark hstep).1
  · obtain ⟨t', hstep⟩ := hok
    exact (notifies_iff_fromNothing_step ht hmark hstep).2

/-- A new connection with a mark of four bytes, for the descriptor 5. -/
def markedConn : TcpConnection :=
  { newConn with highWaterMarkCallback := true, highWaterMark := 4 }

/-- Five bytes are left of the first payload, and the second arrives when they are gone. -/
theorem notifies_of_drained :
    ∃ s, connectEstablished levelMasks (.start markedConn .new) [] = .ok s ∧
      Along (outputStep levelMasks) (Notifies levelMasks 4) ⟨s, []⟩
        [.sendInLoop ⟨[1, 2, 3, 4, 5, 6], by decide⟩ (some 1), .handleWrite none,
          .handleWrite (some 5), .sendInLoop ⟨[7, 8], by decide⟩ none] := by
  have hnew : TcpConnection.new 0 5 false (some 4) = .ok markedConn := rfl
  refine ⟨_, rfl, ?_⟩
  refine (notifies_iff_fromNothing (by decide) hnew stands_newConn rfl
    (Outcome.exists_ok (P := fun _ ↦ True) ?_).choose_spec.1).mpr ?_
  · decide +kernel
  · decide +kernel

/-- Three bytes wait, and the two that follow take the number past the mark without a notice. -/
theorem not_notifies_of_small_sends :
    ∃ s, connectEstablished levelMasks (.start markedConn .new) [] = .ok s ∧
      ¬Along (outputStep levelMasks) (Notifies levelMasks 4) ⟨s, []⟩
        [.sendInLoop ⟨[1, 2, 3], by decide⟩ none, .sendInLoop ⟨[4, 5], by decide⟩ none] :=
  ⟨_, rfl, by decide +kernel⟩

end TcpConnection

end Twnl
