import Twnl.TcpConnection.Moves

/-!
# How a connection closes

Two handlers close a connection: the one for a hang-up, and the one for input when its helper
returns zero. One event can call for both, and an event can call for one when the connection is
closed already; then the second closing meets the assert of `handleClose`. `Orderly` says of a step
that it closes at most once, and a connection that is up.

A connection that is closed may open again: a call from another thread that looked at the state
before sets it after the closing (`Reopens`).

An orderly step is a sequence of moves with at most one closing among them, or reopens the
connection (`step_transition`).
-/

namespace Twnl

namespace TcpConnection

open Buffer Machine Relation ReadResult

variable {k : Masks} {r : Bool} {s s' t t' : Session} {env : Env} {reads : List ReadResult}

/-! ## Reading -/

/-- The read helper returns zero: at end of file and, if it is edge-triggered, also when there is
nothing to read. -/
def endsInput (k : Masks) (reads : List ReadResult) : Bool :=
  if k.isET then
    last reads == .data [] || (last reads == .fails .EAGAIN && delivered reads == [])
  else reads.head? == some (.data [])

/-- What one call of the read helper puts into the buffer. -/
def arrived (k : Masks) (reads : List ReadResult) : List Byte :=
  if k.isET then delivered reads else first reads

/-- What the read helper returns. -/
def readRet (k : Masks) (reads : List ReadResult) : ℤ :=
  if k.isET then
    if last reads = .fails .EAGAIN then (delivered reads).length else (last reads).ret
  else (reads.headD (.fails .EAGAIN)).ret

/-- What a read that returns has done. -/
theorem readInput_ok {b b' : Buffer} {n : ℤ} {saved : Option Errno} (h : b.WF)
    (hread : readInput k b reads = .ok (n, saved, b')) :
    b'.WF ∧ b'.readable = b.readable ++ arrived k reads ∧ n = readRet k reads := by
  rw [readInput] at hread
  rw [readRet, arrived]
  split at hread
  · rename_i hET
    obtain ⟨hwf, hreadable, hn⟩ := readFdET_ok h
      (show (none : Option Errno) ≠ some .EAGAIN from nofun) hread
    rw [if_pos hET, if_pos hET, hn, Int.zero_add]
    exact ⟨hwf, hreadable, rfl⟩
  · rename_i hLT
    obtain ⟨hwf, hn, hread⟩ := readFd_ok h hread
    rw [if_neg hLT, if_neg hLT]
    refine ⟨hwf, ?_, hn⟩
    rcases hread with ⟨bytes, hanswer, -, hreadable⟩ | ⟨e, hanswer, -, rfl⟩
    · cases reads with
      | nil => exact absurd hanswer nofun
      | cons answer reads =>
        obtain rfl : answer = .data bytes := hanswer
        exact hreadable
    · cases reads with
      | nil => exact (List.append_nil _).symm
      | cons answer reads =>
        obtain rfl : answer = .fails e := hanswer
        exact (List.append_nil _).symm

theorem readRet_eq_zero_iff : readRet k reads = 0 ↔ endsInput k reads = true := by
  rw [readRet, endsInput]
  split
  · rw [Bool.or_eq_true_iff, Bool.and_eq_true_iff, beq_iff_eq, beq_iff_eq, beq_iff_eq]
    by_cases hwait : last reads = .fails .EAGAIN
    · rw [if_pos hwait, hwait, Int.natCast_eq_zero, List.length_eq_zero_iff]
      exact ⟨fun hnil ↦ Or.inr ⟨rfl, hnil⟩, fun h ↦ (h.resolve_left nofun).2⟩
    · rw [if_neg hwait, ret_eq_zero_iff]
      exact ⟨Or.inl, fun h ↦ h.resolve_right fun hc ↦ hwait hc.1⟩
  · rw [ret_eq_zero_iff, beq_iff_eq]
    cases reads with
    | nil => exact iff_of_false nofun nofun
    | cons answer reads => exact (Option.some_inj (a := answer)).symm

theorem readInput_error {b : Buffer} {e : Fault} (hread : readInput k b reads = .error e) :
    BufferFault e := by
  rw [readInput] at hread
  split at hread
  · exact readFdET_error hread
  · exact readFd_error hread

/-! ## Closing -/

/-- The connection is up, in whole or in half. -/
abbrev Session.Up (s : Session) : Prop :=
  s.conn.state = .kConnected ∨ s.conn.state = .kDisconnecting

theorem Session.Up.state_ne (h : s.Up) : s.conn.state ≠ .kDisconnected := by
  rcases h with h | h <;> rw [h] <;> exact StateE.noConfusion

/-- What `handleClose` does: the state and the interest go, and the two callbacks run. -/
def Closes (k : Masks) (r : Bool) (s s' : Session) : Prop :=
  ∃ s₁ s₂, Called k (s.setState .kDisconnected) .disableAll s₁ ∧
    Moves k r (s₁.record (.connectionCallback s₁.glance)) s₂ ∧
    s' = s₂.record (.closeCallback s₂.glance)

/-- The calls made in the callback that tells of the end. -/
def DownAllowed (r : Bool) (s : Session) (calls : List UserCall) : Prop :=
  ∀ c ∈ calls, c.isPlain = true ∨ r = true ∧ c.harmless s.conn.reading = true

/-- Telling of the end of a connection whose interest is gone. -/
theorem connectionCallback_moves (h : Live s) {calls : List UserCall}
    (hcalls : DownAllowed r s calls) :
    Outcome (connectionCallback k s calls)
      (Moves k r (s.record (.connectionCallback s.glance))) EnvFault := by
  have hlive : Live (s.record (.connectionCallback s.glance)) := ⟨h.input, h.output, h.standing⟩
  refine inCallback_moves hlive fun c hc ↦ ?_
  exact (hcalls c hc).imp_right fun ⟨hr, hharmless⟩ ↦ ⟨hr, fun _ ↦ hharmless⟩

/-- The first half of a closing. -/
theorem disableAll_spec (h : Live s) :
    ∃ s₁, (s.setState .kDisconnected).channelCall k .disableAll = .ok s₁ ∧
      Called k (s.setState .kDisconnected) .disableAll s₁ ∧ Live s₁ ∧
      s₁.conn.state = .kDisconnected ∧ s₁.conn.reading = s.conn.reading := by
  have hlive : Live (s.setState .kDisconnected) := ⟨h.input, h.output, h.standing⟩
  obtain ⟨s₁, hs₁, hcalled⟩ := hlive.channelCall (k := k) .disableAll
  exact ⟨s₁, hs₁, hcalled, hcalled.live hlive, hcalled.state_eq, hcalled.reading_eq⟩

theorem handleClose_closes (h : Live s) (hup : s.Up) (hcalls : DownAllowed r s env.onConnection) :
    Outcome (handleClose k s env) (Closes k r s) EnvFault := by
  obtain ⟨s₁, hs₁, hcalled, hlive, -, hreading⟩ := disableAll_spec (k := k) h
  rw [handleClose, check_pos hup, bind_ok, hs₁, bind_ok]
  refine (connectionCallback_moves hlive (by rwa [DownAllowed, hreading])).bind fun s₂ hs₂ ↦ ?_
  exact ⟨s₁, s₂, hcalled, hs₂, rfl⟩

/-- A closing leaves the connection closed, and `reading_` as it was. -/
theorem Closes.closed (h : Closes k r s s') (hs : Live s) :
    Live s' ∧ s'.conn.state = .kDisconnected ∧ s'.conn.reading = s.conn.reading := by
  obtain ⟨s₁, s₂, hcalled, hmoves, rfl⟩ := h
  have hlive : Live s₁ := hcalled.live ⟨hs.input, hs.output, hs.standing⟩
  have hlive' : Live (s₁.record (.connectionCallback s₁.glance)) :=
    ⟨hlive.input, hlive.output, hlive.standing⟩
  have hlive₂ := hmoves.live hlive'
  obtain ⟨hstate, hreading⟩ := hmoves.closed hlive'
  have hclosed : s₁.conn.state = .kDisconnected := hcalled.state_eq
  exact ⟨⟨hlive₂.input, hlive₂.output, hlive₂.standing⟩, hstate.mpr hclosed,
    (hreading hclosed).trans hcalled.reading_eq⟩

/-! ## Input -/

theorem handleRead_moves (h : Live s) (hends : endsInput k env.reads = false)
    (hcalls : ∀ c ∈ env.onMessage, c.Allowed r s) :
    Outcome (handleRead k s env) (Moves k r s) EnvFault := by
  rw [handleRead]
  refine Outcome.bind (outcome_of (fun x hx ↦ readInput_ok h.input hx)
    fun e he ↦ Or.inl (readInput_error he)) ?_
  rintro ⟨n, saved, b⟩ ⟨hwf, -, hn⟩
  have hfilled : Moves k r s (s.withInput b) := .single (.input hwf)
  change Outcome (if 0 < n then _ else if n = 0 then _ else _) _ _
  split
  · refine (messageCallback_moves (hfilled.live h) fun c hc ↦ ?_).imp
      fun _ hrest ↦ hfilled.trans hrest
    exact (hcalls c hc).of_moves hfilled h
  · split
    · rename_i hzero
      have hends' := readRet_eq_zero_iff.mp (hn.symm.trans hzero)
      rw [hends] at hends'
      exact absurd hends' Bool.false_ne_true
    · exact hfilled

theorem handleRead_closes (h : Live s) (hup : s.Up) (hends : endsInput k env.reads = true)
    (hcalls : DownAllowed r s env.onConnection) :
    Outcome (handleRead k s env) (fun s' ↦ ∃ b, Moves k r s (s.withInput b) ∧
      Closes k r (s.withInput b) s') EnvFault := by
  rw [handleRead]
  refine Outcome.bind (outcome_of (fun x hx ↦ readInput_ok h.input hx)
    fun e he ↦ Or.inl (readInput_error he)) ?_
  rintro ⟨n, saved, b⟩ ⟨hwf, -, hn⟩
  have hfilled : Moves k r s (s.withInput b) := .single (.input hwf)
  have hzero : n = 0 := hn.trans (readRet_eq_zero_iff.mpr hends)
  subst hzero
  change Outcome (handleClose k (s.withInput b) env) _ _
  exact (handleClose_closes (hfilled.live h) hup hcalls).imp fun _ hs' ↦ ⟨b, hfilled, hs'⟩

/-! ## One step -/

/-- The event has input read, and the read helper returns zero. -/
def readsEnd (k : Masks) (revents : Mask) (env : Env) : Bool :=
  readsInput revents && endsInput k env.reads

/-- The step closes the connection. -/
def Closing (k : Masks) (s : Session) : Step → Prop
  | .handleEvent revents env => hangsUp revents = true ∨ readsEnd k revents env = true
  | .user _ | .callBegins _ | .callSets _ | .callEnds _ => False
  | .pending _ => s.pendingFunctors.head? = some .forceCloseInLoop ∧ s.Up

instance (k : Masks) (s : Session) : DecidablePred (Closing k s)
  | .handleEvent _ _ => inferInstanceAs (Decidable (_ ∨ _))
  | .user _ | .callBegins _ | .callSets _ | .callEnds _ => .isFalse id
  | .pending _ => inferInstanceAs (Decidable (_ ∧ _))

/-- An event closes at most once, and a connection that is up. -/
def Orderly (k : Masks) (s : Session) : Step → Prop
  | .handleEvent revents env =>
    (hangsUp revents = true ∨ readsEnd k revents env = true →
      s.conn.state ≠ .kDisconnected) ∧
      ¬(hangsUp revents = true ∧ readsEnd k revents env = true)
  | .user _ | .callBegins _ | .callSets _ | .callEnds _ | .pending _ => True

instance (k : Masks) (s : Session) : DecidablePred (Orderly k s)
  | .handleEvent _ _ => inferInstanceAs (Decidable (_ ∧ _))
  | .user _ | .callBegins _ | .callSets _ | .callEnds _ | .pending _ => .isTrue trivial

/-- The call from another thread sets the state of a connection that was closed since it looked. -/
def Reopens (s : Session) (c : UserCall) : Prop :=
  c ∈ s.calls ∧ s.conn.state = .kDisconnected ∧ c.stateAfter .kDisconnected ≠ .kDisconnected

instance (s : Session) : DecidablePred (Reopens s) := fun _ ↦ inferInstanceAs (Decidable (_ ∧ _ ∧ _))

namespace Step

/-- The calls a step may make. -/
def calls : Step → List UserCall
  | handleEvent _ env => env.onConnection ++ env.onMessage
  | user c | callBegins c | callSets c | callEnds c => [c]
  | pending env => env.onConnection ++ env.onNotice

/-- The calls a step makes, on the loop thread, on a connection that is closed by then. -/
def closedCalls (k : Masks) (s : Session) : Step → List UserCall
  | handleEvent revents env =>
    (if hangsUp revents || readsEnd k revents env then env.onConnection else []) ++
      if s.conn.state = .kDisconnected ∨ hangsUp revents then env.onMessage else []
  | user c => if s.conn.state = .kDisconnected then [c] else []
  | callBegins _ | callSets _ | callEnds _ => []
  | pending env =>
    match s.pendingFunctors.head? with
    | some .forceCloseInLoop => if s.Up then env.onConnection else []
    | some .startReadInLoop => if s.conn.state = .kDisconnected then [.startRead] else []
    | some .stopReadInLoop => if s.conn.state = .kDisconnected then [.stopRead] else []
    | some .writeCompleteCallback | some (.highWaterMarkCallback _) =>
      if s.conn.state = .kDisconnected then env.onNotice else []
    | some (.sendInLoop _) | some .shutdownInLoop | none => []

end Step

/-- Either reading is never switched, or it is left alone once the connection is closed. -/
def CallsAllowed (k : Masks) (r : Bool) (s : Session) (i : Step) : Prop :=
  match r with
  | false => (∀ c ∈ i.calls, c.isPlain = true) ∧ ∀ f ∈ s.pendingFunctors, f.isPlain = true
  | true => ∀ c ∈ i.closedCalls k s, c.harmless s.conn.reading = true

/-- What a step does: moves, with at most one closing among them, or a reopening. -/
inductive Transition (k : Masks) (r : Bool) (s s' : Session) (i : Step) : Prop
  | stays (h : Moves k r s s')
  | ends {t t' : Session} (hclosing : Closing k s i) (hbefore : Moves k r s t) (hup : t.Up)
      (hevents : t.conn.channel.events = s.conn.channel.events)
      (hcloses : Closes k r t t') (hafter : Moves k r t' s')
  | reopens {c : UserCall} (hi : i = .callSets c) (h : Reopens s c) (hs' : s' = callSets s c)

variable {i : Step}

theorem CallsAllowed.allowed (h : CallsAllowed k r s i) {c : UserCall} (hc : c ∈ i.calls)
    (hclosed : s.conn.state = .kDisconnected → c ∈ i.closedCalls k s) : c.Allowed r s := by
  cases r with
  | false => exact Or.inl (h.1 c hc)
  | true => exact Or.inr ⟨rfl, fun hs ↦ h c (hclosed hs)⟩

theorem CallsAllowed.downAllowed (h : CallsAllowed k r s i) {calls : List UserCall}
    (hcalls : ∀ c ∈ calls, c ∈ i.calls ∧ c ∈ i.closedCalls k s) : DownAllowed r s calls := by
  intro c hc
  cases r with
  | false => exact Or.inl (h.1 c (hcalls c hc).1)
  | true => exact Or.inr ⟨rfl, h c (hcalls c hc).2⟩

/-- Every functor that may be queued may be run. -/
theorem CallsAllowed.functor (h : CallsAllowed k r s i) {f : Functor}
    (hf : f ∈ s.pendingFunctors) : f.isPlain = true ∨ r = true := by
  cases r with
  | false => exact Or.inl (h.2 f hf)
  | true => exact Or.inr rfl

theorem handleIf_moves {p : Bool} {handler : Session → Except Fault Session}
    (hp : p = true → Outcome (handler s) (Moves k r s) EnvFault) :
    Outcome (handleIf p handler s) (Moves k r s) EnvFault := by
  rw [handleIf]
  split
  · exact hp ‹_›
  · exact ReflTransGen.refl

theorem handleIf_handleError (p : Bool) (s : Session) :
    handleIf p (fun s ↦ .ok (handleError s)) s = .ok s := by
  rw [handleIf]
  split <;> rfl

theorem CallsAllowed.onMessage {revents : Mask}
    (h : CallsAllowed k r s (.handleEvent revents env)) {c : UserCall} (hc : c ∈ env.onMessage)
    (ht : t.conn.state = .kDisconnected →
      (s.conn.state = .kDisconnected ∨ hangsUp revents = true) ∧
        t.conn.reading = s.conn.reading) : c.Allowed r t := by
  cases r with
  | false => exact Or.inl (h.1 c (List.mem_append_right _ hc))
  | true =>
    refine Or.inr ⟨rfl, fun hclosed ↦ ?_⟩
    obtain ⟨hwhen, hreading⟩ := ht hclosed
    rw [hreading]
    refine h c (List.mem_append_right _ ?_)
    rw [if_pos hwhen]
    exact hc

/-- An event whose input does not end the connection leaves it up or down. -/
theorem readWrite_moves {revents : Mask} (h : Live s) (hends : readsEnd k revents env = false)
    (hcalls : ∀ c ∈ env.onMessage, c.Allowed r s) :
    Outcome (handleIf (readsInput revents) (handleRead k · env) s >>= fun read ↦
        handleIf (has revents EPOLLOUT) (handleWrite k · env.writes) read)
      (Moves k r s) EnvFault := by
  refine (handleIf_moves (k := k) (r := r) fun hreads ↦ ?_).bind fun t ht ↦ ?_
  · rw [readsEnd, hreads, Bool.true_and] at hends
    exact handleRead_moves h hends hcalls
  · exact (handleIf_moves fun _ ↦ handleWrite_moves (ht.live h) env.writes).imp
      fun _ hrest ↦ ht.trans hrest

theorem up_of_state_ne (hnew : s.conn.state ≠ .kConnecting)
    (hclosed : s.conn.state ≠ .kDisconnected) : s.Up := by
  rw [Session.Up]
  cases hstate : s.conn.state with
  | kConnecting => exact absurd hstate hnew
  | kDisconnected => exact absurd hstate hclosed
  | kConnected => exact Or.inl rfl
  | kDisconnecting => exact Or.inr rfl

/-- A call from another thread sets the state of a connection that is up, or no state at all. -/
theorem callSets_moves (hnew : s.conn.state ≠ .kConnecting) {c : UserCall} (h : ¬Reopens s c) :
    Moves k r s (callSets s c) := by
  rw [callSets]
  split
  · rename_i hmem
    have hset : Moves k r s (s.setState (c.stateAfter s.conn.state)) := by
      by_cases hclosed : s.conn.state = .kDisconnected
      · have hsame : c.stateAfter s.conn.state = s.conn.state := by
          rw [hclosed]
          by_contra hne
          exact h ⟨hmem, hclosed, hne⟩
        rw [hsame]
        exact .refl
      · cases c with
        | shutdown | forceClose => exact .single (.halfClose (up_of_state_ne hnew hclosed))
        | send _ _ | sendBuffer _ _ | startRead | stopRead => exact .refl
    exact hset.tail (.calls (s.calls.erase c) (c :: s.queueing))
  · exact .refl

/-- An orderly event, in the three ways it can go: a hang-up, the end of the input, and neither. -/
theorem handleEvent_transition {revents : Mask} (h : Live s) (hnew : s.conn.state ≠ .kConnecting)
    (horderly : Orderly k s (.handleEvent revents env))
    (hcalls : CallsAllowed k r s (.handleEvent revents env)) :
    Outcome (handleEvent k s revents env)
      (fun s' ↦ Transition k r s s' (.handleEvent revents env)) EnvFault := by
  obtain ⟨hopen, honce⟩ := horderly
  have hactive : Moves k r s (s.withRevents revents) := .single (.revents revents)
  have hlive : Live (s.withRevents revents) := hactive.live h
  have hdown (hcloses : (hangsUp revents || readsEnd k revents env) = true) :
      DownAllowed r s env.onConnection := by
    refine hcalls.downAllowed fun c hc ↦ ⟨List.mem_append_left _ hc, List.mem_append_left _ ?_⟩
    rw [hcloses, if_pos rfl]
    exact hc
  rw [handleEvent]
  cases hhup : hangsUp revents with
  | true =>
    have hends : readsEnd k revents env = false := by
      rw [Bool.eq_false_iff]
      exact fun hends ↦ honce ⟨hhup, hends⟩
    have hup := up_of_state_ne hnew (hopen (Or.inl hhup))
    rw [handleIf, if_pos rfl]
    refine (handleClose_closes hlive hup (hdown (by rw [hhup, Bool.true_or]))).bind
      fun t' ht' ↦ ?_
    obtain ⟨hlive', hstate', hreading'⟩ := ht'.closed hlive
    rw [handleIf_handleError, bind_ok]
    refine (readWrite_moves (r := r) hlive' hends fun c hc ↦ ?_).imp fun s' hs' ↦ ?_
    · exact hcalls.onMessage hc fun _ ↦ ⟨Or.inr hhup, hreading'⟩
    · exact .ends (Or.inl hhup) hactive hup rfl ht' hs'
  | false =>
    rw [handleIf, if_neg Bool.false_ne_true, bind_ok, handleIf_handleError, bind_ok]
    cases hends : readsEnd k revents env with
    | true =>
      have hup := up_of_state_ne hnew (hopen (Or.inr hends))
      obtain ⟨hreads, hinput⟩ := Bool.and_eq_true_iff.mp hends
      rw [hreads, handleIf, if_pos rfl]
      refine (handleRead_closes hlive hup hinput (hdown (by rw [hends, Bool.or_true]))).bind ?_
      rintro t' ⟨b, hfilled, ht'⟩
      have hlive' := (ht'.closed (hfilled.live hlive)).1
      refine (handleIf_moves (r := r) fun _ ↦ handleWrite_moves hlive' env.writes).imp
        fun s' hs' ↦ ?_
      exact .ends (Or.inr hends) (hactive.trans hfilled) hup rfl ht' hs'
    | false =>
      refine (readWrite_moves hlive hends fun c hc ↦ ?_).imp fun s' hs' ↦ .stays (hactive.trans hs')
      exact hcalls.onMessage hc fun hclosed ↦ ⟨Or.inl hclosed, rfl⟩

/-- The calls that a functor makes on a closed connection. -/
def Functor.closedCalls (env : Env) : Functor → List UserCall
  | startReadInLoop => [.startRead]
  | stopReadInLoop => [.stopRead]
  | writeCompleteCallback | highWaterMarkCallback _ => env.onNotice
  | sendInLoop _ | shutdownInLoop | forceCloseInLoop => []

theorem closedCalls_of_closed {f : Functor} (hhead : s.pendingFunctors.head? = some f)
    (hclosed : s.conn.state = .kDisconnected) :
    (Step.pending env).closedCalls k s = f.closedCalls env := by
  have hdown : ¬s.Up := by
    rw [Session.Up, hclosed]
    decide
  cases f <;> simp only [Step.closedCalls, hhead, hclosed, if_true, if_neg hdown,
    Functor.closedCalls]

/-- A functor at the head of the queue. -/
theorem pending_transition (h : Live s) (hcalls : CallsAllowed k r s (.pending env)) :
    Outcome (step k s (.pending env)) (fun s' ↦ Transition k r s s' (.pending env)) EnvFault := by
  rw [step]
  cases hqueue : s.pendingFunctors with
  | nil => exact Transition.stays .refl
  | cons f fs =>
    have hdequeue : Moves k r s { s with pendingFunctors := fs } := .single (.dequeue hqueue)
    have hlive := hdequeue.live h
    have hhead : s.pendingFunctors.head? = some f := by rw [hqueue]; rfl
    have hstays {x : Except Fault Session}
        (hx : Outcome x (Moves k r { s with pendingFunctors := fs }) EnvFault) :
        Outcome x (fun s' ↦ Transition k r s s' (.pending env)) EnvFault :=
      hx.imp fun _ hrest ↦ .stays (hdequeue.trans hrest)
    have hmem : f ∈ s.pendingFunctors := by rw [hqueue]; exact List.mem_cons_self
    have hf := hcalls.functor hmem
    change Outcome (runFunctor k _ env f) _ _
    cases f with
    | sendInLoop data => exact hstays (sendInLoop_moves hlive)
    | shutdownInLoop => exact hstays (x := .ok _) shutdownInLoop_moves
    | forceCloseInLoop =>
      rw [runFunctor, forceCloseInLoop]
      split
      · rename_i hstate
        have hup : s.Up := hstate.symm
        have hdown : DownAllowed r s env.onConnection := by
          refine hcalls.downAllowed fun c hc ↦ ⟨List.mem_append_left _ hc, ?_⟩
          rw [Step.closedCalls, hhead]
          change c ∈ if _ then _ else _
          rw [if_pos hup]
          exact hc
        exact (handleClose_closes hlive hup hdown).imp fun s' hs' ↦
          .ends ⟨hhead, hup⟩ hdequeue hup rfl hs' .refl
      · exact hstays (x := .ok _) ReflTransGen.refl
    | startReadInLoop =>
      obtain rfl := hf.resolve_left Bool.false_ne_true
      refine hstays (startReadInLoop_moves hlive rfl fun hclosed ↦ ?_)
      have hharmless := hcalls .startRead
        (by rw [closedCalls_of_closed hhead hclosed]; exact List.mem_singleton_self _)
      exact Bool.false_ne_true hharmless
    | stopReadInLoop =>
      obtain rfl := hf.resolve_left Bool.false_ne_true
      refine hstays (stopReadInLoop_moves hlive rfl ?_)
      by_cases hclosed : s.conn.state = .kDisconnected
      · have hharmless := hcalls .stopRead
          (by rw [closedCalls_of_closed hhead hclosed]; exact List.mem_singleton_self _)
        exact Or.inr (Bool.not_eq_true' _ ▸ hharmless)
      · exact Or.inl hclosed
    | writeCompleteCallback | highWaterMarkCallback _ =>
      refine hstays (inCallback_moves hlive fun c hc ↦ ?_)
      refine hcalls.allowed (List.mem_append_right _ hc) fun hclosed ↦ ?_
      rw [closedCalls_of_closed hhead hclosed]
      exact hc

/-- **One step.** An orderly step of a live connection is a sequence of moves with at most one
closing among them, or reopens it, or stops with a fault of its buffers. -/
theorem step_transition (h : Live s) (hnew : s.conn.state ≠ .kConnecting)
    (horderly : Orderly k s i) (hcalls : CallsAllowed k r s i) :
    Outcome (step k s i) (fun s' ↦ Transition k r s s' i) EnvFault := by
  cases i with
  | handleEvent revents env => exact handleEvent_transition h hnew horderly hcalls
  | user c =>
    have hc : c.Allowed r s := by
      refine hcalls.allowed (List.mem_singleton_self c) fun hclosed ↦ ?_
      rw [Step.closedCalls, if_pos hclosed]
      exact List.mem_singleton_self c
    exact (userCall_moves h hc).imp fun _ hs' ↦ .stays hs'
  | callBegins c => exact (callBegins_moves s c).imp fun _ hs' ↦ .stays hs'
  | callSets c =>
    change Transition k r s (callSets s c) (.callSets c)
    by_cases hreopens : Reopens s c
    · exact .reopens rfl hreopens rfl
    · exact .stays (callSets_moves hnew hreopens)
  | callEnds c =>
    have hplain : c.isPlain = true ∨ r = true := by
      cases r with
      | false => exact Or.inl (hcalls.1 c (List.mem_singleton_self c))
      | true => exact Or.inr rfl
    exact Transition.stays (callEnds_moves s hplain)
  | pending env => exact pending_transition h hcalls

end TcpConnection

end Twnl
