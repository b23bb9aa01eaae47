import Mathlib.Data.List.Forall2
import Twnl.Machine.Memory
import Twnl.TcpConnection.Moves
import Twnl.TcpConnection.Acts

/-!
# What a queued send captures

`send` hands `sendInLoop` a pointer and a length. On the loop's own thread it runs at once. From any
other thread it is queued, and the functor keeps the pointer and not the bytes, so that what is sent
is what the memory holds when the functor runs. `Shared` is a connection with the memory of its
callers, which they may write to and release at any time after `send` has returned. In between the
test of `state_` and the queueing other threads may go on.

A run in which no caller changes a byte that it has given to a send still in the queue sends what
the callers passed (`sends_called`), and goes as if the functors had kept the bytes
(`careful_acts`).
-/

namespace Twnl

namespace TcpConnection

open Machine

/-! ## The model -/

/-- What `std::bind` copies of the arguments of a `send`. -/
structure Captured where
  data : ℕ
  len : ℕ
  deriving DecidableEq, Repr

/-- `std::string_view`. -/
structure StringView where
  data : ℕ
  size : ℕ
  deriving DecidableEq, Repr

/-- A connection and the memory of its callers. A `sendInLoop` in the queue of the session has the
bytes that the memory held at the time of the call; what the program has of it is in `captured`, for
one send after another. -/
structure Shared where
  session : Session
  memory : Memory Byte
  captured : List Captured

variable (k : Masks)

/-- `sendInLoop` writes, and so looks at what it is given. -/
def Session.Writes (s : Session) : Prop :=
  s.conn.state ≠ .kDisconnected ∧
    (!s.conn.channel.isWriting k && s.conn.outputBuffer.readableBytes == 0) = true

instance (s : Session) : Decidable (s.Writes k) := inferInstanceAs (Decidable (_ ∧ _))

/-- `sendInLoop`, of what the memory holds. -/
def sendInLoopAt (s : Session) (memory : Memory Byte) (c : Captured) (answer : WriteResult) :
    Except Fault Session :=
  if s.Writes k then
    match memory.read c.data c.len with
    | some data => sendInLoop k s data answer
    | none => .error .useAfterFree
  else .ok s

/-- A send that is queued, to which the kernel has not answered yet. -/
def queuedSend (bytes : List Byte) : UserCall := .send bytes (.accepts 0)

namespace Shared

/-- `send(const void*, size_t)` from another thread than the loop's looks at the state. -/
def send (m : Shared) (data len : ℕ) : Except Fault Shared :=
  match m.memory.read data len with
  -- the caller has the memory it passes
  | none => .error .impossible
  | some bytes => do
    let session ← callBegins m.session (queuedSend bytes)
    .ok { m with session := session }

/-- One that is about to queue its functor queues it. -/
def sendEnds (m : Shared) (data len : ℕ) : Except Fault Shared :=
  match m.memory.read data len with
  -- the caller, which is in the call, has it still
  | none => .error .impossible
  | some bytes =>
    if queuedSend bytes ∈ m.session.queueing then
      .ok { m with
        session := callEnds m.session (queuedSend bytes)
        captured := m.captured ++ [⟨data, len⟩] }
    else .error .impossible

/-- `send(std::string_view)`. -/
def sendView (m : Shared) (message : StringView) : Except Fault Shared :=
  m.send message.data message.size

/-- The functor at the head of the queue runs. -/
def pending (m : Shared) (answer : WriteResult) : Except Fault Shared :=
  match m.session.pendingFunctors with
  | .sendInLoop _ :: fs =>
    match m.captured with
    | c :: captured => do
      let session ← sendInLoopAt k { m.session with pendingFunctors := fs } m.memory c answer
      .ok { m with session := session, captured := captured }
    | [] => .error .impossible
  | _ => do
    let session ← act k m.session (.pending answer)
    .ok { m with session := session }

end Shared

inductive SharedStep
  /-- Whatever the connection does besides. -/
  | act (a : Act)
  | send (data len : ℕ)
  | sendView (message : StringView)
  | sendEnds (data len : ℕ)
  /-- An address is written to, released, or taken into use. -/
  | touch (addr : ℕ) (content : Option Byte)

def sharedStep (m : Shared) : SharedStep → Except Fault Shared
  | .act (.pending answer) => m.pending k answer
  -- a send from another thread comes with its pointer, and one of a buffer does not come this far
  | .act (.callBegins (.send _ _)) | .act (.callEnds (.send _ _))
  | .act (.callEnds (.sendBuffer _ _)) => .error .impossible
  | .act a => do
    let session ← act k m.session a
    .ok { m with session := session }
  | .send data len => m.send data len
  | .sendView message => m.sendView message
  | .sendEnds data len => m.sendEnds data len
  | .touch addr content => .ok { m with memory := Function.update m.memory addr content }

/-- When the step runs a `sendInLoop` of another thread that writes: the bytes that the memory held
at the time of the call, and what the memory holds now, if it is still in use. -/
def found (m : Shared) : SharedStep → Option (List Byte × Option (List Byte))
  | .act (.pending _) =>
    match m.session.pendingFunctors, m.captured with
    | .sendInLoop called :: _, c :: _ =>
      if m.session.Writes k then some (called, m.memory.read c.data c.len) else none
    | _, _ => none
  | .act _ | .send _ _ | .sendView _ | .sendEnds _ _ | .touch _ _ => none

/-- What is sent is what the caller passed: a functor that writes finds it in the memory, and whatever
the functor does is what `sendInLoop` does of what the caller passed. -/
def SendsCalled (m : Shared) (i : SharedStep) : Prop :=
  (∀ called now, found k m i = some (called, now) → now = some called) ∧
    ∀ answer called fs, i = .act (.pending answer) →
      m.session.pendingFunctors = .sendInLoop called :: fs →
      (sharedStep k m i).map Shared.session =
        sendInLoop k { m.session with pendingFunctors := fs } called answer

/-- A caller leaves every byte that was given to a queued send as it is. -/
def Careful (m : Shared) : SharedStep → Prop
  | .touch addr content => ∀ c ∈ m.captured, c.data ≤ addr → addr < c.data + c.len →
      content = m.memory addr
  | .act _ | .send _ _ | .sendView _ | .sendEnds _ _ => True

instance (m : Shared) : DecidablePred (Careful m)
  | .touch addr content => inferInstanceAs (Decidable (∀ c ∈ m.captured, c.data ≤ addr →
      addr < c.data + c.len → content = m.memory addr))
  | .act _ | .send _ _ | .sendView _ | .sendEnds _ _ => inferInstanceAs (Decidable True)

/-! ## The sends in the queue -/

/-- The bytes of a `sendInLoop`. -/
def Functor.sent? : Functor → Option (List Byte)
  | sendInLoop data => some data
  | shutdownInLoop | forceCloseInLoop | startReadInLoop | stopReadInLoop | writeCompleteCallback
  | highWaterMarkCallback _ => none

def Session.sends (s : Session) : List (List Byte) := s.pendingFunctors.filterMap Functor.sent?

variable {k} {s s' : Session} {data : List Byte} {answer : WriteResult}

theorem sends_queueInLoop (s : Session) {f : Functor} (hf : f.sent? = none) :
    (s.queueInLoop f).sends = s.sends := by
  change (s.pendingFunctors ++ [f]).filterMap _ = _
  rw [List.filterMap_append, List.filterMap_cons_none hf, List.filterMap_nil, List.append_nil]
  rfl

theorem sends_channelCall {a : Channel.Call} (h : s.channelCall k a = .ok s') :
    s'.sends = s.sends := by
  obtain ⟨⟨poller, channel⟩, -, h⟩ := bind_eq_ok.mp h
  obtain rfl := Except.ok.inj h
  rfl

theorem sends_noteWriteComplete (s : Session) : (noteWriteComplete s).sends = s.sends := by
  rw [noteWriteComplete]
  split
  · exact sends_queueInLoop s rfl
  · rfl

theorem sends_noteHighWater (s : Session) (len : ℕ) : (noteHighWater s len).sends = s.sends := by
  rw [noteHighWater]
  split
  · exact sends_queueInLoop s rfl
  · rfl

theorem sends_directWrite (s : Session) (data : List Byte) (answer : WriteResult) :
    (directWrite s data answer).sends = s.sends := by
  rw [directWrite]
  split
  · exact sends_noteWriteComplete (s.record _)
  · rfl

theorem sends_bufferRemaining {remaining : List Byte}
    (h : bufferRemaining k s remaining = .ok s') : s'.sends = s.sends := by
  obtain ⟨outputBuffer, -, h⟩ := bind_eq_ok.mp h
  have hnoted : ((noteHighWater s remaining.length).withOutput outputBuffer).sends = s.sends :=
    sends_noteHighWater s remaining.length
  rw [awaitWritable] at h
  split at h
  · exact (sends_channelCall h).trans hnoted
  · exact Except.ok.inj h ▸ hnoted

theorem sends_sendInLoop (h : sendInLoop k s data answer = .ok s') : s'.sends = s.sends := by
  have hdirect := sends_directWrite s data answer
  rw [sendInLoop] at h
  split at h
  · exact Except.ok.inj h ▸ rfl
  · split at h
    · obtain ⟨_, -, h⟩ := bind_eq_ok.mp h
      split at h
      · exact (sends_bufferRemaining h).trans hdirect
      · exact Except.ok.inj h ▸ hdirect
    · exact Except.ok.inj h ▸ rfl

theorem sends_shutdownInLoop (s : Session) : (shutdownInLoop k s).sends = s.sends := by
  rw [shutdownInLoop]
  split <;> rfl

theorem sends_startReadInLoop (h : startReadInLoop k s = .ok s') : s'.sends = s.sends := by
  rw [startReadInLoop] at h
  split at h
  · obtain ⟨enabled, henabled, h⟩ := bind_eq_ok.mp h
    obtain rfl := Except.ok.inj h
    exact (sends_channelCall henabled : enabled.sends = s.sends)
  · exact Except.ok.inj h ▸ rfl

theorem sends_stopReadInLoop (h : stopReadInLoop k s = .ok s') : s'.sends = s.sends := by
  rw [stopReadInLoop] at h
  split at h
  · obtain ⟨disabled, hdisabled, h⟩ := bind_eq_ok.mp h
    obtain rfl := Except.ok.inj h
    exact (sends_channelCall hdisabled : disabled.sends = s.sends)
  · exact Except.ok.inj h ▸ rfl

theorem sends_userCall {call : UserCall} (h : userCall k s call = .ok s') : s'.sends = s.sends := by
  cases call with
  | send data answer =>
    change (if _ then _ else _) = _ at h
    split at h
    · exact sends_sendInLoop h
    · exact Except.ok.inj h ▸ rfl
  | sendBuffer data answer => exact sends_sendInLoop h
  | shutdown =>
    obtain rfl := Except.ok.inj h
    rw [shutdown]
    split
    · exact sends_shutdownInLoop (s.setState .kDisconnecting)
    · rfl
  | forceClose =>
    obtain rfl := Except.ok.inj h
    rw [forceClose]
    split
    · exact sends_queueInLoop (s.setState .kDisconnecting) rfl
    · rfl
  | startRead => exact sends_startReadInLoop h
  | stopRead => exact sends_stopReadInLoop h

theorem sends_inCallback {calls : List UserCall} (h : inCallback k s calls = .ok s') :
    s'.sends = s.sends :=
  run_inv (I := fun t ↦ t.sends = s.sends) (fun _ _ _ ht h ↦ (sends_userCall h).trans ht) rfl h

theorem sends_callBegins {call : UserCall} (h : callBegins s call = .ok s') :
    s'.sends = s.sends := by
  cases call with
  | sendBuffer data answer => exact absurd h error_ne_ok
  | send _ _ | shutdown | forceClose | startRead | stopRead =>
    obtain rfl := Except.ok.inj h
    split <;> rfl

theorem sends_callSets (s : Session) (call : UserCall) : (callSets s call).sends = s.sends := by
  rw [callSets]
  split <;> rfl

/-- A call whose functor is not a send. -/
theorem sends_callEnds (s : Session) {call : UserCall} (hcall : call.functor.sent? = none) :
    (callEnds s call).sends = s.sends := by
  rw [callEnds]
  split
  · exact (sends_queueInLoop s hcall :)
  · rfl

theorem sends_goDown (h : goDown k s = .ok s') : s'.sends = s.sends := by
  obtain ⟨disabled, hdisabled, h⟩ := bind_eq_ok.mp h
  obtain rfl := Except.ok.inj h
  exact (sends_channelCall hdisabled : disabled.sends = (s.setState .kDisconnected).sends)

theorem sends_handleWrite {writes : ℕ → WriteResult} (h : handleWrite k s writes = .ok s') :
    s'.sends = s.sends := by
  rw [handleWrite] at h
  split at h
  · split at h
    · exact absurd h error_ne_ok
    · split at h
      · obtain ⟨disabled, hdisabled, h⟩ := bind_eq_ok.mp h
        have hnoted := (sends_noteWriteComplete disabled).trans (sends_channelCall hdisabled)
        split at h
        · exact Except.ok.inj h ▸ (sends_shutdownInLoop _).trans hnoted
        · exact Except.ok.inj h ▸ hnoted
      · exact Except.ok.inj h ▸ rfl
  · exact Except.ok.inj h ▸ rfl

/-- What a functor other than a send leaves. -/
theorem sends_runPlain {f : Functor} (h : runPlain k s answer f = .ok s') : s'.sends = s.sends := by
  cases f with
  | sendInLoop data => exact sends_sendInLoop h
  | shutdownInLoop => exact Except.ok.inj h ▸ sends_shutdownInLoop s
  | forceCloseInLoop =>
    change (if _ then _ else _) = _ at h
    split at h
    · exact sends_goDown h
    · exact Except.ok.inj h ▸ rfl
  | startReadInLoop => exact sends_startReadInLoop h
  | stopReadInLoop => exact sends_stopReadInLoop h
  | writeCompleteCallback | highWaterMarkCallback _ => exact Except.ok.inj h ▸ rfl

theorem sends_connectEstablished {calls : List UserCall}
    (h : connectEstablished k s calls = .ok s') : s'.sends = s.sends := by
  obtain ⟨_, -, h⟩ := bind_eq_ok.mp h
  obtain ⟨enabled, henabled, h⟩ := bind_eq_ok.mp h
  have hcallback : s'.sends = enabled.sends :=
    sends_inCallback (s := enabled.record (.connectionCallback enabled.glance)) h
  exact hcallback.trans (sends_channelCall (s := s.setState .kConnected) henabled)

/-! ## The invariant -/

/-- The memory still holds what was passed to each send in the queue. -/
def Kept (m : Shared) : Prop :=
  List.Forall₂ (fun bytes (c : Captured) ↦ m.memory.read c.data c.len = some bytes)
    m.session.sends m.captured

variable {m m' : Shared} {a : Act} {i : SharedStep}

theorem Kept.of_sends (h : Kept m) (hsends : m'.session.sends = m.session.sends)
    (hmemory : m'.memory = m.memory) (hcaptured : m'.captured = m.captured) : Kept m' := by
  rw [Kept, hsends, hmemory, hcaptured]
  exact h

/-- Without a write, `sendInLoop` returns at once. -/
theorem sendInLoop_of_not_writes (h : ¬s.Writes k) (data : List Byte) (answer : WriteResult) :
    sendInLoop k s data answer = .ok s := by
  rw [sendInLoop]
  split
  · rfl
  · rename_i hstate
    rw [if_neg fun hidle ↦ h ⟨hstate, hidle⟩]

/-- Where the memory holds the bytes, `sendInLoop` is what it would be of the bytes. -/
theorem sendInLoopAt_eq {memory : Memory Byte} {c : Captured}
    (h : memory.read c.data c.len = some data) :
    sendInLoopAt k s memory c answer = sendInLoop k s data answer := by
  rw [sendInLoopAt, h]
  split
  · rfl
  · rename_i hwrites
    exact (sendInLoop_of_not_writes hwrites data answer).symm

/-- The send at the head of the queue is of bytes that the memory holds. -/
theorem Kept.head {called : List Byte} {fs : List Functor} (h : Kept m)
    (hfs : m.session.pendingFunctors = .sendInLoop called :: fs) :
    ∃ c captured, m.captured = c :: captured ∧ m.memory.read c.data c.len = some called ∧
      List.Forall₂ (fun bytes (c : Captured) ↦ m.memory.read c.data c.len = some bytes)
        (fs.filterMap Functor.sent?) captured := by
  rw [Kept, Session.sends, hfs] at h
  obtain ⟨c, captured, hread, hrest, hcaptured⟩ := List.forall₂_cons_left_iff.mp h
  exact ⟨c, captured, hcaptured, hread, hrest⟩

/-- The functor at the head of the queue runs as if it had kept the bytes. -/
theorem Kept.pending (h : Kept m) (hm' : m.pending k answer = .ok m') :
    Kept m' ∧ act k m.session (.pending answer) = .ok m'.session := by
  rw [Shared.pending] at hm'
  split at hm'
  · rename_i called fs hfs
    obtain ⟨c, captured, hcaptured, hread, hrest⟩ := h.head hfs
    rw [hcaptured] at hm'
    obtain ⟨session, hsession, hm'⟩ := bind_eq_ok.mp hm'
    obtain rfl := Except.ok.inj hm'
    rw [sendInLoopAt_eq hread] at hsession
    constructor
    · rw [Kept, sends_sendInLoop hsession]
      exact hrest
    · rw [act, hfs]
      exact hsession
  · rename_i hnot
    obtain ⟨session, hsession, hm'⟩ := bind_eq_ok.mp hm'
    obtain rfl := Except.ok.inj hm'
    refine ⟨h.of_sends ?_ rfl rfl, hsession⟩
    rw [act] at hsession
    split at hsession
    · exact Except.ok.inj hsession ▸ rfl
    · rename_i f fs hfs
      have hf : f.sent? = none := by
        cases f with
        | sendInLoop data => exact absurd hfs (hnot data fs)
        | shutdownInLoop | forceCloseInLoop | startReadInLoop | stopReadInLoop
        | writeCompleteCallback | highWaterMarkCallback _ => rfl
      refine (sends_runPlain hsession).trans ?_
      rw [Session.sends, Session.sends, hfs, List.filterMap_cons_none hf]

/-- The acts other than a functor and the end of a call. -/
theorem sends_act (hpending : ∀ answer, a ≠ .pending answer)
    (hends : ∀ call, a = .callEnds call → call.functor.sent? = none) (h : act k s a = .ok s') :
    s'.sends = s.sends := by
  cases a with
  | user call => exact sends_userCall h
  | callBegins call => exact sends_callBegins h
  | callSets call => exact Except.ok.inj h ▸ sends_callSets s call
  | callEnds call => exact Except.ok.inj h ▸ sends_callEnds s (hends call rfl)
  | pending answer => exact absurd rfl (hpending answer)
  | setRevents revents => exact Except.ok.inj h ▸ rfl
  | read reads =>
    obtain ⟨_, -, h⟩ := bind_eq_ok.mp h
    exact Except.ok.inj h ▸ rfl
  | offer consumed =>
    obtain ⟨inputBuffer, -, h⟩ := bind_eq_ok.mp h
    exact Except.ok.inj h ▸ rfl
  | handleWrite writes => exact sends_handleWrite h
  | goDown => exact sends_goDown h
  | closeCallback => exact Except.ok.inj h ▸ rfl

/-- A send from another thread looks at the state. -/
theorem Kept.send (h : Kept m) {data len : ℕ} (hm' : m.send data len = .ok m') :
    Kept m' ∧ Acts k m.session m'.session := by
  rw [Shared.send] at hm'
  split at hm'
  · exact absurd hm' nofun
  · rename_i bytes hread
    obtain ⟨session, hsession, hm'⟩ := bind_eq_ok.mp hm'
    obtain rfl := Except.ok.inj hm'
    exact ⟨h.of_sends (sends_callBegins hsession) rfl rfl,
      .single (a := .callBegins (queuedSend bytes)) hsession⟩

/-- It queues what the memory holds. -/
theorem Kept.sendEnds (h : Kept m) {data len : ℕ} (hm' : m.sendEnds data len = .ok m') :
    Kept m' ∧ Acts k m.session m'.session := by
  rw [Shared.sendEnds] at hm'
  split at hm'
  · exact absurd hm' nofun
  · rename_i bytes hread
    split at hm'
    · rename_i hmem
      obtain rfl := Except.ok.inj hm'
      refine ⟨?_, .single (a := .callEnds (queuedSend bytes)) rfl⟩
      have hsends : (callEnds m.session (queuedSend bytes)).sends = m.session.sends ++ [bytes] := by
        rw [callEnds, if_pos hmem]
        exact List.filterMap_append
      rw [Kept, hsends]
      exact List.rel_append h (.cons hread .nil)
    · exact absurd hm' nofun

/-- A change of the memory leaves what the queued sends were passed exactly when it is careful. -/
theorem Kept.touch_iff (h : Kept m) {addr : ℕ} {content : Option Byte} :
    Kept { m with memory := Function.update m.memory addr content } ↔
      Careful m (.touch addr content) := by
  change List.Forall₂ _ m.session.sends m.captured ↔ ∀ c ∈ m.captured, _
  rw [Kept] at h
  -- the two lists go in step
  generalize m.session.sends = sends at h ⊢
  generalize m.captured = captured at h ⊢
  induction h with
  | nil => exact iff_of_true .nil nofun
  | cons hread _ ih =>
    rw [List.forall₂_cons, List.forall_mem_cons, Memory.read_update_iff hread, ih]

/-- The step lemma. -/
theorem Kept.step (h : Kept m) (hi : Careful m i) (hm' : sharedStep k m i = .ok m') :
    Kept m' ∧ Acts k m.session m'.session := by
  rw [sharedStep.eq_def] at hm'
  split at hm'
  · obtain ⟨hkept, hact⟩ := h.pending hm'
    exact ⟨hkept, .single hact⟩
  · exact absurd hm' nofun
  · exact absurd hm' nofun
  · exact absurd hm' nofun
  · rename_i a hpending _ hends hbuffer
    obtain ⟨session, hsession, hm'⟩ := bind_eq_ok.mp hm'
    obtain rfl := Except.ok.inj hm'
    refine ⟨h.of_sends (sends_act hpending (fun call hcall ↦ ?_) hsession) rfl rfl,
      .single hsession⟩
    cases call with
    | send data answer => exact absurd hcall (hends data answer)
    | sendBuffer data answer => exact absurd hcall (hbuffer data answer)
    | shutdown | forceClose | startRead | stopRead => rfl
  · exact h.send hm'
  · exact h.send hm'
  · exact h.sendEnds hm'
  · exact Except.ok.inj hm' ▸ ⟨h.touch_iff.mpr hi, .refl _⟩

/-- What a send finds, as long as the memory was kept. -/
theorem Kept.finds (h : Kept m) {called : List Byte} {now : Option (List Byte)}
    (hfound : found k m i = some (called, now)) : now = some called := by
  rw [found.eq_def] at hfound
  split at hfound
  · split at hfound
    · rename_i called' fs c captured hfs hcaptured
      obtain ⟨c', captured', hcaptured', hread, -⟩ := h.head hfs
      obtain ⟨rfl, -⟩ := List.cons.inj (hcaptured.symm.trans hcaptured')
      split at hfound
      · obtain ⟨rfl, rfl⟩ := Prod.mk.inj (Option.some.inj hfound)
        exact hread
      · exact absurd hfound nofun
    · exact absurd hfound nofun
  all_goals exact absurd hfound nofun

/-- What a functor does, as long as the memory was kept. -/
theorem Kept.sendsCalled (h : Kept m) (i : SharedStep) : SendsCalled k m i := by
  refine ⟨fun called now ↦ h.finds, fun answer called fs hi hfs ↦ ?_⟩
  obtain ⟨c, captured, hcaptured, hread, -⟩ := h.head hfs
  subst hi
  rw [sharedStep, Shared.pending, hfs, hcaptured]
  change Except.map _ (sendInLoopAt k _ _ _ _ >>= _) = _
  rw [sendInLoopAt_eq hread]
  cases sendInLoop k { m.session with pendingFunctors := fs } called answer with
  | ok session => rfl
  | error e => rfl

/-! ## Runs -/

/-- A connection that has just been established. -/
theorem kept_established {conn : TcpConnection} {poller : EpollPoller} {calls : List UserCall}
    (hs : connectEstablished k (.start conn poller) calls = .ok s) (memory : Memory Byte) :
    Kept ⟨s, memory, []⟩ := by
  have hsends : s.sends = [] := sends_connectEstablished hs
  rw [Kept, hsends]
  exact .nil

/-- **A send from another thread.** On an established connection every queued send sends what the
caller passed, in every run in which the callers leave what they passed as it is until then. -/
theorem sends_called {conn : TcpConnection} {poller : EpollPoller} {calls : List UserCall}
    (hs : connectEstablished k (.start conn poller) calls = .ok s) {memory : Memory Byte}
    {steps : List SharedStep} (hcareful : Along (sharedStep k) Careful ⟨s, memory, []⟩ steps) :
    Along (sharedStep k) (SendsCalled k) ⟨s, memory, []⟩ steps :=
  Along.guarantee (fun _ _ _ h hi hm' ↦ (h.step hi hm').1) (fun _ i h _ ↦ h.sendsCalled i) hcareful
    (kept_established hs memory)

/-- Two bytes on the stack of another thread. -/
def stack : Memory Byte
  | 100 => some 7
  | 101 => some 8
  | _ => none

/-- The caller writes beside them while the send is queued, and over them afterwards. -/
theorem sends_called_stack : ∃ s, connectEstablished levelMasks (.start newConn .new) [] = .ok s ∧
    Outcome (run (sharedStep levelMasks) ⟨s, stack, []⟩ [.send 100 2,
        .act (.callSets (queuedSend [7, 8])), .sendEnds 100 2, .touch 102 (some 9),
        .act (.pending (.accepts 2)), .touch 100 (some 9)])
      (fun m ↦ m.session.log = [.connectionCallback ⟨.kConnected, EPOLLIN ||| EPOLLPRI, true⟩,
        .accepted [7, 8]]) (fun _ ↦ False) ∧
    Along (sharedStep levelMasks) (SendsCalled levelMasks) ⟨s, stack, []⟩ [.send 100 2,
      .act (.callSets (queuedSend [7, 8])), .sendEnds 100 2, .touch 102 (some 9),
      .act (.pending (.accepts 2)), .touch 100 (some 9)] :=
  ⟨_, rfl, by decide +kernel,
    sends_called (show connectEstablished levelMasks (.start newConn .new) [] = .ok _ from rfl)
      (by decide +kernel)⟩

/-- The caller returns from the function that called `send`, and the next one it calls writes over
the bytes; or they were on the heap and are released. -/
theorem not_sends_called : ∃ s m, connectEstablished levelMasks (.start newConn .new) [] = .ok s ∧
    run (sharedStep levelMasks) ⟨s, stack, []⟩ [.send 100 2, .act (.callSets (queuedSend [7, 8])),
      .sendEnds 100 2, .touch 100 (some 9)] = .ok m ∧
    ¬SendsCalled levelMasks m (.act (.pending (.accepts 2))) ∧
    run (sharedStep levelMasks) ⟨s, stack, []⟩ [.sendView ⟨100, 2⟩,
      .act (.callSets (queuedSend [7, 8])), .sendEnds 100 2, .touch 100 none,
      .act (.pending (.accepts 2))] = .error .useAfterFree := by
  refine ⟨_, _, rfl, rfl, fun h ↦ ?_, rfl⟩
  exact absurd (h.1 [7, 8] (some [9, 8]) rfl) (by decide)

/-- Such a run is one of the connection whose functors keep the bytes. -/
theorem careful_acts (h : Kept m) {steps : List SharedStep}
    (hcareful : Along (sharedStep k) Careful m steps) (hrun : run (sharedStep k) m steps = .ok m') :
    Acts k m.session m'.session := by
  refine (Along.run_inv (I := fun t ↦ Kept t ∧ Acts k m.session t.session)
    (fun t i t' ht hi ht' ↦ ?_) hcareful ⟨h, .refl _⟩ hrun).2
  obtain ⟨hkept, hacts⟩ := ht.1.step hi ht'
  exact ⟨hkept, ht.2.trans hacts⟩

end TcpConnection

end Twnl
